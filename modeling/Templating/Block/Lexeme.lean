import Templating.Grammar
import Templating.Text.Blank

/-!
# Lexemes

A template is read as a row of lexemes: literal texts, which hold no delimiter, and tags.

## What is here

* `Lexeme` and its text `Lexeme.source`; `Fault`, why there is no lexeme at the front of a text.
* `Lexeme.next` reads the lexeme at the front of a text.  Nothing is lost (`Lexeme.next_eq`), and
  something is always read (`Lexeme.next_length`).
-/

set_option autoImplicit false

namespace Templating

/-- A literal text or a tag with everything between its delimiters. -/
inductive Lexeme where
  | literal (text : Text)
  | tagged (tag : Tag) (body : Text)
  deriving DecidableEq, Repr

/-- A lexeme as it stands in the template. -/
def Lexeme.source : Lexeme → Text
  | literal text => text
  | tagged tag body => tag.opening ++ body ++ tag.closing

/-! ## Faults -/

/-- Why there is no lexeme. -/
inductive FaultKind where
  /-- A closing delimiter that nothing opened. -/
  | unopened
  /-- A tag that nothing closes. -/
  | unclosed (expected : Text)
  /-- A tag of no known kind. -/
  | unrecognized (tag : Text)
  deriving DecidableEq, Repr

/-- Why there is no lexeme, and the bytes that are to blame. -/
structure Fault where
  kind : FaultKind
  span : Span
  deriving DecidableEq, Repr

/-- The same fault in a text with `n` more bytes in front. -/
def Fault.shift (f : Fault) (n : Nat) : Fault := { f with span := f.span.shift n }

/-! ## Reading -/

namespace Lexeme

/-- What a text starts with before its first tag. -/
def lead (t : Text) : Text :=
  match Text.cut? outerOpening t with
  | some (before, _) => before
  | none => t

/-- Whether a tag with this body is a directive of no known kind: code cannot start with `@`. -/
def isDirective (tag : Tag) (body : Text) : Bool := tag = .code && body.head? = some '@'

/-- Reads the tag at the front of a text that starts with the outer opening delimiter. -/
def nextTag (g : Grammar) (t : Text) : Except Fault (Lexeme × Text) :=
  match g.match? (g.window t) with
  | none => .error ⟨.unrecognized (g.window t), ⟨0, (g.window t).size⟩⟩
  | some tag =>
    match Text.cut? tag.closing (t.drop tag.opening.length) with
    | none => .error ⟨.unclosed tag.closing, ⟨0, tag.opening.size⟩⟩
    | some (body, rest) =>
      if isDirective tag body then
        let name := outerOpening ++ body.takeWhile fun c => !Text.isBlank c
        .error ⟨.unrecognized name, ⟨0, name.size⟩⟩
      else .ok (tagged tag body, rest)

/-- Reads the lexeme at the front of a text.  A closing delimiter before the first tag is a fault. -/
def next (g : Grammar) (t : Text) : Except Fault (Lexeme × Text) :=
  match Text.cut? outerClosing (lead t) with
  | some (before, _) => .error ⟨.unopened, ⟨before.size, before.size + outerClosing.size⟩⟩
  | none =>
    if lead t = [] then nextTag g t
    else .ok (literal (lead t), t.drop (lead t).length)

theorem lead_prefix_text (t : Text) : lead t <+: t := by
  unfold lead
  split
  · next before rest h => exact ⟨outerOpening ++ rest, by rw [← List.append_assoc, Text.cut?_eq_some h]⟩
  · exact List.prefix_refl t

theorem takeBytes_prefix_text (n : Nat) (t : Text) : t.takeBytes n <+: t := by
  induction t generalizing n with
  | nil => simp [Text.takeBytes]
  | cons c t ih =>
    unfold Text.takeBytes
    split
    · exact List.cons_prefix_cons.2 ⟨rfl, ih _⟩
    · exact List.nil_prefix

theorem nextTag_eq {g : Grammar} {t rest : Text} {x : Lexeme} (h : nextTag g t = .ok (x, rest)) :
    t = x.source ++ rest ∧ x.source ≠ [] := by
  unfold nextTag at h
  split at h
  · simp at h
  · next tag hm =>
    split at h
    · simp at h
    · next body after hc =>
      split at h
      · simp at h
      · obtain ⟨s, hs⟩ := ((Grammar.match?_eq_some hm).2).trans (takeBytes_prefix_text _ _)
        simp only [Except.ok.injEq, Prod.mk.injEq] at h
        rw [← hs, List.drop_left] at hc
        refine ⟨?_, ?_⟩
        · rw [← hs, Text.cut?_eq_some hc, ← h.1, ← h.2]
          simp [source]
        · rw [← h.1]
          exact fun h' => absurd h' (by simp [source, tag.opening_ne_nil])

/-- A lexeme and what is left after it make up the text that was read. -/
theorem next_eq {g : Grammar} {t rest : Text} {x : Lexeme} (h : next g t = .ok (x, rest)) :
    t = x.source ++ rest ∧ x.source ≠ [] := by
  unfold next at h
  split at h
  · simp at h
  · split at h
    · exact nextTag_eq h
    · next hl =>
      simp only [Except.ok.injEq, Prod.mk.injEq] at h
      rw [← h.1, ← h.2, source, List.prefix_iff_eq_take.1 (lead_prefix_text t), List.length_take,
        Nat.min_eq_left (lead_prefix_text t).length_le, List.take_append_drop]
      refine ⟨rfl, ?_⟩
      rwa [← List.prefix_iff_eq_take.1 (lead_prefix_text t)]

theorem next_length {g : Grammar} {t rest : Text} {x : Lexeme} (h : next g t = .ok (x, rest)) :
    rest.length < t.length := by
  obtain ⟨heq, hne⟩ := next_eq h
  have : 0 < x.source.length := List.length_pos_iff.2 hne
  rw [heq, List.length_append]
  omega

end Lexeme
end Templating
