import Templating.Path.Fold
import Templating.Proofs.Text.Lines

/-!
# Folded paths have one spelling

Two spellings of a place need not be equal, but two folded spellings are: what folding puts out is
the one way to write its components down.  So for folded paths "the same place" is plain equality.

## What is here

* `Component.Inner` is what may stand behind the front of a path, `Component.Canonical` what is left
  when a path is folded (`Path.canonical_foldComponents`).
* `Path.components_ofComponents` reads canonical components back off the path written from them.
* `Path.Folded` is a path in the folded spelling; `Path.Folded.eq_of_same` is the payoff.
-/

set_option autoImplicit false

namespace Templating
namespace Component

/-! ## Canonical components

A component that is written down must be read back as itself.  That is so of names without a slash that
are not `.`, and of `..`; it is not so of `.`, which is dropped behind the front, and the root stands
only at the front. -/

/-- A component that can stand behind the front of a path: a name or `..`. -/
def Inner (c : Component) : Prop := '/' ∉ c.text ∧ ofSegment? c.text = some c

instance (c : Component) : Decidable (Inner c) := inferInstanceAs (Decidable (_ ∧ _))

/-- The components of a folded path: the root or nothing, and then names and `..` only. -/
def Canonical (cs : List Component) : Prop :=
  ∃ base inner, cs = base ++ inner ∧ (base = [] ∨ base = [root]) ∧ ∀ c ∈ inner, Inner c

/-- The component that a segment spells is written as that segment. -/
theorem ofSegment?_eq_some {segment : Text} {c : Component} (h : ofSegment? segment = some c) :
    c.text = segment ∧ ofSegment? c.text = some c := by
  have htext : c.text = segment := by
    rw [ofSegment?] at h
    split at h
    · simp at h
    · split at h
      · next hup => rw [← Option.some.inj h, hup]; rfl
      · rw [← Option.some.inj h]; rfl
  exact ⟨htext, htext ▸ h⟩

/-- The root is at the front only. -/
theorem Inner.ne_root {c : Component} (h : Inner c) : c ≠ root := by
  rintro rfl
  exact absurd h.2 (by decide)

/-- A component behind the front is not spelled by nothing. -/
theorem Inner.text_ne_nil {c : Component} (h : Inner c) : c.text ≠ [] := by
  intro hnil
  have hseg := h.2
  rw [hnil, ofSegment?, if_pos (Or.inl rfl)] at hseg
  cases hseg

/-- Nor by a dot. -/
theorem Inner.text_ne_dot {c : Component} (h : Inner c) : c.text ≠ ['.'] := by
  intro hdot
  have hseg := h.2
  rw [hdot, ofSegment?, if_pos (Or.inr rfl)] at hseg
  cases hseg

/-- What the segments of a path spell can stand behind its front. -/
theorem inner_of_mem_segments {segments : List Text} {c : Component}
    (hsegments : ∀ segment ∈ segments, '/' ∉ segment) (h : c ∈ segments.filterMap ofSegment?) :
    Inner c := by
  obtain ⟨segment, hmem, hseg⟩ := List.mem_filterMap.1 h
  obtain ⟨htext, hback⟩ := ofSegment?_eq_some hseg
  exact ⟨htext ▸ hsegments segment hmem, hback⟩

/-- Such components are read back from what they are written as. -/
theorem filterMap_ofSegment? {inner : List Component} (h : ∀ c ∈ inner, Inner c) :
    (inner.map text).filterMap ofSegment? = inner := by
  induction inner with
  | nil => rfl
  | cons c inner ih =>
    rw [List.map_cons, List.filterMap_cons_some (h c (List.mem_cons_self ..)).2,
      ih fun d hd => h d (List.mem_cons_of_mem _ hd)]

end Component

namespace Path

open Component

/-! ## Components of a path

A path begins with a slash, with a dot, or with neither.  What comes behind that is names and `..` in
any case. -/

theorem filterMap_inner (segments : List Text) :
    (segments.map fun s => (ofSegment? s, s)).filterMap Prod.fst = segments.filterMap ofSegment? := by
  rw [List.filterMap_map]
  rfl

theorem filterMap_front (c : Component) (spelling : Text) (segments : List Text) :
    ((some c, spelling) :: segments.map fun s => (ofSegment? s, s)).filterMap Prod.fst
      = c :: segments.filterMap ofSegment? := by
  rw [← filterMap_inner]
  rfl

/-- The components of an absolute path. -/
theorem components_slash (rest : Text) :
    components ⟨'/' :: rest⟩ = root :: (rest.splitOn '/').filterMap ofSegment? :=
  filterMap_front root [] _

/-- The components of any path: something at the front, then names and `..` only. -/
theorem components_eq (p : Path) :
    ∃ front inner, p.components = front ++ inner ∧
      (front = [] ∨ front = [root] ∨ front = [here]) ∧ ∀ c ∈ inner, Inner c := by
  rw [components, spelled]
  split
  · exact ⟨[], [], rfl, Or.inl rfl, by simp⟩
  · next rest _ =>
    refine ⟨[root], (rest.splitOn '/').filterMap ofSegment?, ?_, Or.inr (Or.inl rfl), ?_⟩
    · exact filterMap_front root [] _
    · exact fun c hc => inner_of_mem_segments (fun _ => Text.not_mem_of_mem_splitOn) hc
  · split
    · next rest heq =>
      have hrest : ∀ segment ∈ rest, '/' ∉ segment := fun segment hmem =>
        Text.not_mem_of_mem_splitOn (t := p.text) (by
          rw [← segments, heq]
          exact List.mem_cons_of_mem _ hmem)
      refine ⟨[here], rest.filterMap ofSegment?, ?_, Or.inr (Or.inr rfl), ?_⟩
      · exact filterMap_front here ['.'] rest
      · exact fun c hc => inner_of_mem_segments hrest hc
    · refine ⟨[], p.segments.filterMap ofSegment?, ?_, Or.inl rfl, ?_⟩
      · rw [filterMap_inner]
        rfl
      · exact fun c hc => inner_of_mem_segments (fun _ => Text.not_mem_of_mem_splitOn) hc

/-! ## Folding

The fold keeps a stack of components, the last one on top.  A name is pushed, and `..` takes a name off,
or is pushed where there is none, unless the root is at the bottom.  So what is on the stack, apart from
the root, can always stand behind the front of a path. -/

/-- One step of the fold keeps what is canonical canonical. -/
theorem foldStep_inner {base inner : List Component} {c : Component}
    (hbase : base = [] ∨ base = [root]) (hinner : ∀ d ∈ inner, Inner d) (hc : Inner c) :
    ∃ inner', foldStep (inner ++ base) c = inner' ++ base ∧ ∀ d ∈ inner', Inner d := by
  have hpush : ∀ d ∈ c :: inner, Inner d := by
    intro d hd
    rcases List.mem_cons.1 hd with rfl | hd
    · exact hc
    · exact hinner d hd
  rw [foldStep.eq_def]
  split
  · exact ⟨inner, rfl, hinner⟩
  · next heq =>
    cases inner with
    | nil => rcases hbase with rfl | rfl <;> simp at heq
    | cons d inner =>
      refine ⟨inner, ?_, fun d hd => hinner d (List.mem_cons_of_mem _ hd)⟩
      rw [List.cons_append, List.cons.injEq] at heq
      exact heq.2.symm
  · next heq =>
    exact ⟨inner, heq.symm, hinner⟩
  · exact ⟨_ :: inner, rfl, hpush⟩

/-- And so do all steps, one after the other. -/
theorem foldl_foldStep_inner {base inner cs : List Component} (hbase : base = [] ∨ base = [root])
    (hinner : ∀ d ∈ inner, Inner d) (hcs : ∀ c ∈ cs, Inner c) :
    ∃ inner', cs.foldl foldStep (inner ++ base) = inner' ++ base ∧ ∀ d ∈ inner', Inner d := by
  induction cs generalizing inner with
  | nil => exact ⟨inner, rfl, hinner⟩
  | cons c cs ih =>
    obtain ⟨inner', hstep, hinner'⟩ := foldStep_inner hbase hinner (hcs c (List.mem_cons_self ..))
    rw [List.foldl_cons, hstep]
    exact ih hinner' fun d hd => hcs d (List.mem_cons_of_mem _ hd)

/-- What is left of any path is canonical. -/
theorem canonical_foldComponents (p : Path) : Canonical (foldComponents p.components) := by
  obtain ⟨front, cs, heq, hfront, hcs⟩ := components_eq p
  obtain ⟨base, hbase, hfold⟩ :
      ∃ base, (base = [] ∨ base = [root]) ∧ front.foldl foldStep [] = [] ++ base := by
    rcases hfront with rfl | rfl | rfl
    · exact ⟨[], Or.inl rfl, rfl⟩
    · exact ⟨[root], Or.inr rfl, rfl⟩
    · exact ⟨[], Or.inl rfl, rfl⟩
  obtain ⟨inner, hinner, hall⟩ :=
    foldl_foldStep_inner hbase (List.forall_mem_nil Inner) hcs
  refine ⟨base, inner.reverse, ?_, hbase, fun c hc => hall c (List.mem_reverse.1 hc)⟩
  rw [foldComponents, heq, List.foldl_append, hfold, hinner, List.reverse_append]
  rcases hbase with rfl | rfl <;> rfl

/-! ## Writing components down and reading them back

The components are written with slashes in between.  Since none of them has a slash in it, splitting
gives them back, and the only thing to look after is the front: a path that begins with a name must not
seem to begin with the root. -/

/-- Splitting undoes the writing. -/
theorem splitOn_slash_map_text {cs : List Component} (h : ∀ c ∈ cs, Inner c) (hne : cs ≠ []) :
    (['/'].intercalate (cs.map Component.text)).splitOn '/' = cs.map Component.text := by
  refine List.splitOn_intercalate '/' ?_ (by simpa using hne)
  intro segment hmem
  obtain ⟨c, hc, rfl⟩ := List.mem_map.1 hmem
  exact (h c hc).1

/-- A relative path written from names and `..` spells just these. -/
theorem components_relative {cs : List Component} (h : ∀ c ∈ cs, Inner c) :
    (ofComponents cs).components = cs := by
  cases cs with
  | nil => rfl
  | cons c cs =>
    have hc := h c (List.mem_cons_self ..)
    have htext : ofComponents (c :: cs) = ⟨['/'].intercalate ((c :: cs).map Component.text)⟩ := by
      rw [ofComponents, if_neg]
      intro heq
      exact hc.ne_root (List.cons.inj heq).1
    have hsegments : (ofComponents (c :: cs)).segments = (c :: cs).map Component.text := by
      rw [htext, segments, splitOn_slash_map_text h (List.cons_ne_nil _ _)]
    have hspelled : (ofComponents (c :: cs)).spelled
        = ((c :: cs).map Component.text).map fun s => (ofSegment? s, s) := by
      rw [spelled]
      split
      · next hnil =>
        rw [segments, hnil, List.splitOn_nil] at hsegments
        exact absurd (List.cons.inj hsegments).1.symm hc.text_ne_nil
      · next rest hslash =>
        rw [segments, hslash, List.splitOn_cons_eq_if_modifyHead, if_pos (by simp)] at hsegments
        exact absurd (List.cons.inj hsegments).1.symm hc.text_ne_nil
      · split
        · next heq =>
          rw [hsegments] at heq
          exact absurd (List.cons.inj heq).1 hc.text_ne_dot
        · rw [hsegments]
    rw [components, hspelled, filterMap_inner, filterMap_ofSegment? h]

/-- An absolute path written from names and `..` spells just these behind the root. -/
theorem components_absolute {cs : List Component} (h : ∀ c ∈ cs, Inner c) :
    (ofComponents (root :: cs)).components = root :: cs := by
  cases cs with
  | nil => rfl
  | cons c cs =>
    have htext : ofComponents (root :: c :: cs)
        = ⟨'/' :: ['/'].intercalate ((c :: cs).map Component.text)⟩ := by
      rw [ofComponents, if_neg (by simp)]
      rfl
    rw [htext, components_slash, splitOn_slash_map_text h (List.cons_ne_nil _ _),
      filterMap_ofSegment? h]

/-- Canonical components are read back. -/
theorem components_ofComponents {cs : List Component} (h : Canonical cs) :
    (ofComponents cs).components = cs := by
  obtain ⟨base, inner, rfl, rfl | rfl, hinner⟩ := h
  · exact components_relative hinner
  · exact components_absolute hinner

/-! ## The folded spelling

A path is folded if it is written as its own components are.  All paths that are resolved are, so two of
them that mean the same place are one path, and places can be kept apart by comparing paths. -/

/-- A path that is spelled the way folding spells it. -/
def Folded (p : Path) : Prop := p = ofComponents p.components

/-- Folding gives a folded path. -/
theorem folded_fold (p : Path) : Folded (fold p) := by
  rw [Folded, fold, components_ofComponents (canonical_foldComponents p)]

/-- A reference that is resolved is folded. -/
theorem folded_resolve (including reference : Path) : Folded (resolve including reference) :=
  folded_fold _

/-- So is a path that was made absolute. -/
theorem folded_absolute {p cwd q : Path} (h : p.absolute? cwd = some q) : Folded q := by
  rw [absolute?] at h
  split at h
  · simp at h
  · cases h
    exact folded_fold _

/-- **Folded paths that are the same place are equal.** -/
theorem Folded.eq_of_same {p q : Path} (hp : Folded p) (hq : Folded q) (h : Same p q) : p = q := by
  rw [hp, hq, h]

/-- For folded paths the same place is equality. -/
theorem Folded.same_iff {p q : Path} (hp : Folded p) (hq : Folded q) : Same p q ↔ p = q :=
  ⟨hp.eq_of_same hq, fun h => h ▸ Same.refl p⟩

end Path
end Templating
