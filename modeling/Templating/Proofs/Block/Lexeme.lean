import Templating.Block.Basic
import Templating.Proofs.Block.Grammar
import Templating.Proofs.Except

/-!
# What a lexeme of the standard grammar looks like

The lexeme at the front of a text does not depend on what follows it, as long as a literal text is
followed by a tag or by nothing.

## What is here

* `Tag.Admits` is what can stand between the delimiters of a tag, and `Lexeme.Valid` a lexeme that can
  be read.
* `Lexeme.valid_of_next` and `Lexeme.next_tagged`, `Lexeme.next_literal` say that those are the lexemes
  that are read.
-/

set_option autoImplicit false

namespace Templating

/-! ## The tag at the front of a text

The standard grammar has all tags, so one can say of a body alone what the tag is that it stands in.
Only code is in danger of being taken for another tag, since its opening is the front of all others. -/

namespace Grammar

/-- The tags of the standard grammar, in the order in which they are tried. -/
theorem standard_eq : standard = ⟨[.inclusion, .print, .declaration, .code]⟩ := by
  have htags : Tag.all.eraseDups = [.code, .print, .declaration, .inclusion] := by decide
  have hcode : Tag.code.suffix.size = 0 := rfl
  have hprint : Tag.print.suffix.size = 1 := by decide
  have hdeclaration : Tag.declaration.suffix.size = 1 := by decide
  have hinclusion : Tag.inclusion.suffix.size = 8 := by decide
  rw [standard, ofTags, htags]
  simp [List.mergeSort, List.MergeSort.Internal.splitInTwo, hcode, hprint, hdeclaration, hinclusion]

/-- Longer openings are tried first. -/
theorem sorted_standard : standard.Sorted := sorted_ofTags Tag.all

/-- Every tag is one of them. -/
theorem mem_standard (tag : Tag) : tag ∈ standard.tags := by
  rw [standard_eq]
  cases tag <;> decide

end Grammar

/-- What can stand between the delimiters of a tag. -/
structure Tag.Admits (tag : Tag) (body : Text) : Prop where
  closing : ¬ outerClosing <:+: body
  /-- Code that started like this would be taken for another tag, or for a directive. -/
  code : tag = .code → ∀ c, body.head? = some c → c ≠ '=' ∧ c ≠ '!' ∧ c ≠ '@'

namespace Lexeme

/-- A tag that can be read is the longest one that stands at its place. -/
theorem longest_of_admits {tag : Tag} {body : Text} (h : tag.Admits body) (rest : Text) :
    Grammar.standard.Longest (tag.opening ++ (body ++ outerClosing ++ rest)) tag := by
  refine ⟨Grammar.mem_standard tag, List.prefix_append _ _, fun other _ hother => ?_⟩
  -- An opening of another tag would have to go on in the body, where none can.
  cases tag with
  | inclusion => cases other <;> decide
  | print => cases other <;> simp [Tag.opening, outerOpening, Tag.suffix] at hother ⊢
  | declaration => cases other <;> simp [Tag.opening, outerOpening, Tag.suffix] at hother ⊢
  | code =>
    cases body with
    | nil => cases other <;> simp [Tag.opening, outerOpening, outerClosing, Tag.suffix] at hother ⊢
    | cons c body =>
      obtain ⟨hprint, hdeclaration, hdirective⟩ := h.code rfl c rfl
      cases other <;> simp [Tag.opening, outerOpening, Tag.suffix, Ne.symm hprint,
        Ne.symm hdeclaration, Ne.symm hdirective] at hother ⊢

/-- What is read as a tag is one, and nothing else is read in its place. -/
theorem admits_of_longest {tag : Tag} {body rest : Text}
    (h : Grammar.standard.Longest (tag.opening ++ (body ++ outerClosing ++ rest)) tag)
    (hbody : ¬ outerClosing <:+: body) (hdirective : tag = .code → body.head? ≠ some '@') :
    tag.Admits body := by
  refine ⟨hbody, ?_⟩
  rintro rfl c hc
  obtain ⟨body, rfl⟩ : ∃ body', body = c :: body' := List.head?_eq_some_iff.1 hc
  refine ⟨?_, ?_, ?_⟩
  · rintro rfl
    exact absurd (h.length_le .print (Grammar.mem_standard _) ⟨_, rfl⟩) (by decide)
  · rintro rfl
    exact absurd (h.length_le .declaration (Grammar.mem_standard _) ⟨_, rfl⟩) (by decide)
  · rintro rfl
    exact hdirective rfl rfl

/-! ## The lexeme at the front of a text

For the standard grammar the conditions on a lexeme are its own: what it has inside, and for a literal
text that a tag or nothing follows.  This is what is used where texts are put together. -/

/-- A lexeme that can be read. -/
def Valid : Lexeme → Prop
  | literal text => text.Plain ∧ text ≠ []
  | tagged tag body => tag.Admits body

/-- Whether a lexeme is a tag. -/
def isTagged : Lexeme → Bool
  | literal _ => false
  | tagged _ _ => true

/-- A tag that can be read is read. -/
theorem next_tagged {tag : Tag} {body : Text} (h : tag.Admits body) (rest : Text) :
    next .standard ((tagged tag body).source ++ rest) = .ok (tagged tag body, rest) := by
  have ht : (tagged tag body).source ++ rest = tag.opening ++ (body ++ outerClosing ++ rest) := by
    rw [source, List.append_assoc, List.append_assoc, List.append_assoc]
    rfl
  have hdirective : tag = .code → body.head? ≠ some '@' :=
    fun hcode hat => (h.code hcode '@' hat).2.2 rfl
  rw [ht]
  exact next_of_begins Grammar.sorted_standard
    (.tagged (longest_of_admits h rest) rfl h.closing hdirective)

/-- A literal text is read up to the next tag. -/
theorem next_literal {text rest : Text} (h : text.Plain) (hne : text ≠ [])
    (hrest : rest = [] ∨ outerOpening <+: rest) :
    next .standard (text ++ rest) = .ok (literal text, rest) :=
  next_of_begins Grammar.sorted_standard (.literal rfl h hne hrest)

/-- A lexeme that is read is valid, and a literal text goes up to the next tag. -/
theorem valid_of_next {t rest : Text} {x : Lexeme} (h : next .standard t = .ok (x, rest)) :
    x.Valid ∧ (x.isTagged = false → rest = [] ∨ outerOpening <+: rest) := by
  cases (next_eq_ok_iff Grammar.sorted_standard).1 h with
  | literal _ hplain hne hrest => exact ⟨⟨hplain, hne⟩, fun _ => hrest⟩
  | tagged htag ht hbody hcode =>
    rw [ht] at htag
    exact ⟨admits_of_longest htag hbody hcode, by simp [isTagged]⟩

end Lexeme
end Templating
