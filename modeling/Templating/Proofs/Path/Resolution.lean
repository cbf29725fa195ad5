import Templating.Proofs.Path.Parts

/-!
# What a reference resolves to

A reference is followed step by step from the directory of the file that it stands in.  The rules for
one step are stated here on their own, without a stack and without a path that is written as it goes,
and folding is shown to keep to them.

There are three ways to say where a reference leads: by rules, which say what is left when the last
component of a row has been followed; by a stack, on which the components are put and taken off again;
and by a path that is written as one goes, whose last name is taken off where it has one.  The rules are
what a reader would check, the stack is what is run, and the writing is how a path buffer works.  All
three agree.

## What is here

* `Component.Folds` are the rules; `Component.folds_iff` says that folding computes what they say.
* `Path.trail` is the way that a reference takes, and `Path.components_resolve` where it ends.
* `Component.Normal` is the form of what is left: the root or some `..`, and then names.
* `Path.fold_eq_foldl` builds the folded path up in writing, one component after the other.
* `Path.fold_fold` and `Path.absolute?_of_absolute?`: what is folded stays as it is.
* `Path.Resolves` is what all this says of a reference.
-/

set_option autoImplicit false

namespace Templating
namespace Component

/-! ## The rules

The rules go from the front to the end, and each looks at the last component only.  `..` has three of
them, which exclude each other: a name can be taken back, the root stays what it is, and at the front of
a relative path the `..` is kept.  What the rules leave is normal (`Folds.normal`), and so one of the
three always applies. -/

/-- What is left of a row of components once its last one has been followed. -/
inductive Folds : List Component → List Component → Prop
  | nil : Folds [] []
  /-- A path that begins at the root stays below it. -/
  | root : Folds [root] [root]
  /-- A `.` is dropped. -/
  | here {cs out : List Component} (h : Folds cs out) : Folds (cs ++ [here]) out
  | name {cs out : List Component} {n : Text} (h : Folds cs out) :
      Folds (cs ++ [name n]) (out ++ [name n])
  /-- A `..` takes back the name before it. -/
  | back {cs out : List Component} {n : Text} (h : Folds cs (out ++ [name n])) :
      Folds (cs ++ [up]) out
  /-- At the root there is nothing to take back. -/
  | stay {cs : List Component} (h : Folds cs [Component.root]) : Folds (cs ++ [up]) [Component.root]
  /-- At the front of a relative path a `..` is kept. -/
  | keep {cs : List Component} {k : Nat} (h : Folds cs (List.replicate k up)) :
      Folds (cs ++ [up]) (List.replicate (k + 1) up)

/-- The form of what is left: the root or some `..`, and then names only. -/
def Normal (cs : List Component) : Prop :=
  ∃ front names, cs = front ++ List.map name names ∧
    (front = [root] ∨ ∃ k, front = List.replicate k up)

variable {cs out : List Component}

/-- A name more keeps the form. -/
theorem Normal.append_name (h : Normal out) (n : Text) : Normal (out ++ [name n]) := by
  obtain ⟨front, names, rfl, hfront⟩ := h
  exact ⟨front, names ++ [n], by simp, hfront⟩

/-- There is no name in front of the names. -/
theorem not_mem_front {front : List Component}
    (h : front = [root] ∨ ∃ k, front = List.replicate k up) (n : Text) : name n ∉ front := by
  rcases h with rfl | ⟨k, rfl⟩
  · simp
  · exact fun hmem => nomatch List.eq_of_mem_replicate hmem

/-- And so does one name less. -/
theorem Normal.of_append_name {n : Text} (h : Normal (out ++ [name n])) : Normal out := by
  obtain ⟨front, names, heq, hfront⟩ := h
  rcases List.eq_nil_or_concat names with rfl | ⟨names, m, rfl⟩
  · rw [List.map_nil, List.append_nil] at heq
    exact absurd (heq ▸ List.mem_append_right _ (List.mem_singleton_self _)) (not_mem_front hfront n)
  · rw [List.concat_eq_append, List.map_append, ← List.append_assoc] at heq
    exact ⟨front, names, (List.append_inj' heq rfl).1, hfront⟩

/-- The rules leave nothing but what is normal. -/
theorem Folds.normal (h : Folds cs out) : Normal out := by
  induction h with
  | nil => exact ⟨[], [], rfl, .inr ⟨0, rfl⟩⟩
  | root => exact ⟨[.root], [], rfl, .inl rfl⟩
  | here _ ih => exact ih
  | name _ ih => exact ih.append_name _
  | back _ ih => exact ih.of_append_name
  | stay _ ih => exact ih
  | @keep cs k _ ih => exact ⟨List.replicate (k + 1) up, [], (List.append_nil _).symm, .inr ⟨_, rfl⟩⟩

/-- What begins at the root stays below it. -/
theorem Folds.head?_eq_root (h : Folds cs out) (hcs : cs.head? = some .root) :
    out.head? = some .root := by
  have hfront {cs : List Component} {c : Component} (hc : c ≠ .root)
      (h : (cs ++ [c]).head? = some .root) : cs.head? = some .root := by
    cases cs with
    | nil => exact absurd (Option.some.inj h) hc
    | cons d cs => exact h
  induction h with
  | nil => cases hcs
  | root => rfl
  | here _ ih => exact ih (hfront (by simp) hcs)
  | name _ ih => rw [List.head?_append, ih (hfront (by simp) hcs), Option.some_or]
  | @back cs out n _ ih =>
    have hroot := ih (hfront (by simp) hcs)
    cases out with
    | nil => cases hroot
    | cons c out => exact hroot
  | stay _ _ => rfl
  | @keep cs k _ ih =>
    have hroot := ih (hfront (by simp) hcs)
    cases k with
    | zero => cases hroot
    | succ k => cases hroot

/-- The rules always say something, if there is no root but in front. -/
theorem exists_folds (h : root ∉ cs.tail) : ∃ out, Folds cs out := by
  induction cs using List.reverseRecOn with
  | nil => exact ⟨[], .nil⟩
  | append_singleton cs c ih =>
    by_cases hcs : cs = []
    · subst hcs
      cases c with
      | root => exact ⟨_, .root⟩
      | here => exact ⟨_, .here .nil⟩
      | up => exact ⟨_, .keep (k := 0) .nil⟩
      | name n => exact ⟨_, .name .nil⟩
    · rw [List.tail_append_of_ne_nil hcs, List.mem_append, not_or, List.mem_singleton] at h
      obtain ⟨out, hout⟩ := ih h.1
      cases c with
      | root => exact absurd rfl h.2
      | here => exact ⟨_, .here hout⟩
      | name n => exact ⟨_, .name hout⟩
      | up =>
        -- For a `..` it depends on what is left so far, which ends in a name or is a front alone.
        obtain ⟨front, names, rfl, hfront⟩ := hout.normal
        rcases List.eq_nil_or_concat names with rfl | ⟨names, n, rfl⟩
        · rw [List.map_nil, List.append_nil] at hout
          rcases hfront with rfl | ⟨k, rfl⟩
          · exact ⟨_, .stay hout⟩
          · exact ⟨_, .keep hout⟩
        · rw [List.concat_eq_append, List.map_append, ← List.append_assoc] at hout
          exact ⟨_, .back hout⟩

end Component

namespace Path

open Component

/-! ## Folding keeps to the rules

The stack has the components that are left in reverse order.  So every rule is one step of the stack,
and as the rules always say something, they say no more than the stack does. -/

/-- The last component of a row is the last one to be put on the stack. -/
theorem foldComponents_concat (cs : List Component) (c : Component) :
    foldComponents (cs ++ [c]) = (foldStep (foldComponents cs).reverse c).reverse := by
  rw [foldComponents, foldComponents, List.reverse_reverse, List.foldl_append]
  rfl

/-- What the rules leave is what is left on the stack. -/
theorem foldComponents_of_folds {cs out : List Component} (h : Folds cs out) :
    foldComponents cs = out := by
  induction h with
  | nil => rfl
  | root => rfl
  | here _ ih =>
    rw [foldComponents_concat, ih]
    exact List.reverse_reverse _
  | @name cs out n _ ih =>
    rw [foldComponents_concat, ih]
    have hstep (stack : List Component) : foldStep stack (.name n) = .name n :: stack := by
      rw [foldStep.eq_def]
    rw [hstep, List.reverse_cons, List.reverse_reverse]
  | @back cs out n _ ih =>
    rw [foldComponents_concat, ih, List.reverse_append]
    exact List.reverse_reverse out
  | stay _ ih =>
    rw [foldComponents_concat, ih]
    rfl
  | @keep cs k _ ih =>
    rw [foldComponents_concat, ih, List.reverse_replicate]
    have hstep : foldStep (List.replicate k up) up = List.replicate (k + 1) up := by
      cases k with
      | zero => rfl
      | succ k => rfl
    rw [hstep, List.reverse_replicate]

/-- The root can only be the first component of a path. -/
theorem root_not_mem_tail (p : Path) : root ∉ p.components.tail := by
  obtain ⟨front, inner, heq, hfront, hinner⟩ := components_eq p
  have hroot : root ∉ inner := fun hmem => (hinner _ hmem).ne_root rfl
  rw [heq]
  rcases hfront with rfl | rfl | rfl
  · exact fun hmem => hroot (List.mem_of_mem_tail hmem)
  · exact hroot
  · exact hroot

/-- Folding computes what the rules say. -/
theorem folds_iff {cs out : List Component} (h : root ∉ cs.tail) :
    Folds cs out ↔ foldComponents cs = out := by
  refine ⟨foldComponents_of_folds, ?_⟩
  rintro rfl
  obtain ⟨out, hout⟩ := exists_folds h
  rwa [foldComponents_of_folds hout]

/-- The components of a folded path are those that are left. -/
theorem components_fold (p : Path) : (fold p).components = foldComponents p.components :=
  components_ofComponents (canonical_foldComponents p)

/-! ## References

The way of a reference begins in the directory of the file, unless it begins at the root.  The directory
is the path of the file without its last component; that the file is there, or that the path is folded,
plays no part. -/

/-- The way that a reference takes: from the root if it begins there, or else from the directory of the
file that it stands in. -/
def trail (including reference : Path) : List Component :=
  if reference.isAbsolute then reference.components
  else including.components.dropLast ++ reference.components

/-- A reference leads to what is left of its way. -/
theorem components_resolve (including reference : Path) :
    (resolve including reference).components = foldComponents (trail including reference) := by
  rw [resolve, components_fold, trail]
  by_cases h : reference.isAbsolute = true
  · rw [if_pos h, join, if_pos (.inl h)]
  · rw [if_neg h, foldComponents_join (Bool.eq_false_iff.2 h), components_parent]

/-- A way has the root at its beginning, if at all. -/
theorem root_not_mem_tail_trail (including reference : Path) :
    root ∉ (trail including reference).tail := by
  rw [trail]
  by_cases h : reference.isAbsolute = true
  · rw [if_pos h]
    exact root_not_mem_tail reference
  · -- A relative reference has no root anywhere: it would be its first component.
    have hreference : root ∉ reference.components := by
      intro hmem
      have htail := root_not_mem_tail reference
      cases hcomponents : reference.components with
      | nil => rw [hcomponents] at hmem; cases hmem
      | cons c cs =>
        rw [hcomponents] at hmem htail
        rcases List.mem_cons.1 hmem with rfl | hmem
        · exact h (isAbsolute_iff.2 (by rw [hcomponents]; rfl))
        · exact htail hmem
    rw [if_neg h]
    by_cases hbase : including.components.dropLast = []
    · rw [hbase]
      exact fun hmem => hreference (List.mem_of_mem_tail hmem)
    · rw [List.tail_append_of_ne_nil hbase, List.mem_append, not_or]
      refine ⟨fun hmem => root_not_mem_tail including ?_, hreference⟩
      rw [List.tail_dropLast] at hmem
      exact List.dropLast_subset _ hmem

/-- Where a reference leads is what the rules say of its way. -/
theorem folds_trail_iff {including reference : Path} {out : List Component} :
    Folds (trail including reference) out ↔ (resolve including reference).components = out := by
  rw [components_resolve]
  exact folds_iff (root_not_mem_tail_trail including reference)

/-! ## What is left

A folded path is the root or some `..`, and then names.  Which of the two it is can be seen from the
path it was folded from, as the root stays in front. -/

/-- A folded path is in normal form. -/
theorem normal_fold (p : Path) : Normal (fold p).components := by
  rw [components_fold]
  exact ((folds_iff (root_not_mem_tail p)).2 rfl).normal

/-- A path that begins at the root leads from there to names only. -/
theorem components_of_normal {p : Path} (hnormal : Normal p.components) (h : p.isAbsolute = true) :
    ∃ names, p.components = root :: List.map name names := by
  obtain ⟨front, names, heq, rfl | ⟨k, rfl⟩⟩ := hnormal
  · exact ⟨names, heq⟩
  · rw [components_of_absolute h] at heq
    cases k with
    | succ k => cases heq
    | zero =>
      cases names with
      | nil => cases heq
      | cons n names => cases heq

/-- A relative path leads up some steps and then to names only. -/
theorem components_of_normal_relative {p : Path} (hnormal : Normal p.components)
    (h : p.isAbsolute = false) :
    ∃ k names, p.components = List.replicate k up ++ List.map name names := by
  obtain ⟨front, names, heq, rfl | ⟨k, rfl⟩⟩ := hnormal
  · have habsolute : p.isAbsolute = true := isAbsolute_iff.2 (by rw [heq]; rfl)
    rw [h] at habsolute
    cases habsolute
  · exact ⟨k, names, heq⟩

/-- From an absolute path a reference leads to an absolute path.  The path must not be that of the root
itself: the root has no directory above it, and taking its last component off leaves a relative way. -/
theorem isAbsolute_resolve {including reference : Path} (h : including.isAbsolute = true)
    (hroot : ¬ Same including ⟨['/']⟩) : (resolve including reference).isAbsolute = true := by
  rw [isAbsolute_iff]
  refine (folds_trail_iff.2 rfl).head?_eq_root ?_
  rw [trail]
  by_cases hreference : reference.isAbsolute = true
  · rw [if_pos hreference]
    exact isAbsolute_iff.1 hreference
  · rw [if_neg hreference]
    have hinner := components_of_absolute h
    generalize including.segments.filterMap ofSegment? = inner at hinner
    cases inner with
    | nil => exact absurd hinner hroot
    | cons c inner =>
      rw [hinner]
      rfl

/-! ## What is folded stays as it is

Rows in normal form are left alone by the rules, and a path that is spelled as its components are is not
changed by being spelled again.  Folding makes both true, so it need not be done twice. -/

/-- The rules leave a row in normal form as it is. -/
theorem folds_self {cs : List Component} (h : Normal cs) : Folds cs cs := by
  obtain ⟨front, names, rfl, hfront⟩ := h
  induction names using List.reverseRecOn with
  | nil =>
    rw [List.map_nil, List.append_nil]
    rcases hfront with rfl | ⟨k, rfl⟩
    · exact .root
    · induction k with
      | zero => exact .nil
      | succ k ih =>
        -- Each `..` at the front is kept behind those before it.
        have hkeep := Folds.keep ih
        rwa [← List.replicate_succ'] at hkeep
  | append_singleton names n ih =>
    rw [List.map_append, ← List.append_assoc]
    exact .name ih

/-- A path that is spelled canonically and is in normal form is folded already. -/
theorem fold_of_folded {p : Path} (hp : Folded p) (hnormal : Normal p.components) : fold p = p := by
  rw [fold, foldComponents_of_folds (folds_self hnormal)]
  exact hp.symm

/-- **Folding twice is folding once.** -/
theorem fold_fold (p : Path) : fold (fold p) = fold p := fold_of_folded (folded_fold p) (normal_fold p)

/-- What is joined to an absolute path is absolute. -/
theorem isAbsolute_join {base : Path} (h : base.isAbsolute = true) (reference : Path) :
    (join base reference).isAbsolute = true := by
  obtain ⟨rest, hrest⟩ : ∃ rest, base.text = '/' :: rest := by
    rw [isAbsolute, decide_eq_true_eq] at h
    exact List.head?_eq_some_iff.1 h
  rw [join]
  split
  · next hreference =>
    rcases hreference with hreference | hempty
    · exact hreference
    · rw [hrest] at hempty
      cases hempty
  · split
    · simp [isAbsolute, hrest]
    · simp [isAbsolute, hrest]

/-- Folding an absolute path gives one. -/
theorem isAbsolute_fold {p : Path} (h : p.isAbsolute = true) : (fold p).isAbsolute = true := by
  rw [isAbsolute_iff, components_fold]
  exact ((folds_iff (root_not_mem_tail p)).2 rfl).head?_eq_root (isAbsolute_iff.1 h)

/-- Every path but the empty one has an absolute form, which is its own absolute form from anywhere. -/
theorem absolute?_of_absolute? {p cwd : Path} (hp : p.text ≠ []) (hcwd : cwd.isAbsolute = true) :
    ∃ q, p.absolute? cwd = some q ∧ q.isAbsolute = true ∧ ∀ cwd', q.absolute? cwd' = some q := by
  have habsolute := isAbsolute_fold (isAbsolute_join hcwd p)
  refine ⟨fold (join cwd p), by rw [absolute?, if_neg hp], habsolute, fun cwd' => ?_⟩
  have htext : (fold (join cwd p)).text ≠ [] := by
    intro hnil
    rw [isAbsolute, hnil] at habsolute
    cases habsolute
  rw [absolute?, if_neg htext, join, if_pos (.inl habsolute), fold_fold]

/-! ## Writing as one goes

A path buffer is a text, and a component is put on it or taken off it by changing the text.  As long as
the text is the canonical spelling of the components that are left, each change makes it the canonical
spelling of those that are left afterwards.  The lemmas say so for the two changes there are:
`join_ofComponents` for a component more, `parent?_ofComponents` for a name less. -/

/-- One component behind a path: a name or `..` is written at its end, or else a `..` takes its last
name off. -/
def foldOnto (out : Path) : Component → Path
  | .here => out
  | .up =>
    if out.fileName?.isSome then out.parent?.getD out
    else if out.isAbsolute then out
    else join out (ofComponents [up])
  | c => join out (ofComponents [c])

/-- A segment more is written behind a slash. -/
theorem intercalate_concat {segments : List Text} (h : segments ≠ []) (segment : Text) :
    ['/'].intercalate (segments ++ [segment]) = ['/'].intercalate segments ++ '/' :: segment := by
  induction segments with
  | nil => exact absurd rfl h
  | cons s segments ih =>
    cases segments with
    | nil => simp
    | cons s' segments =>
      rw [List.cons_append, List.cons_append, List.intercalate_cons_cons, ← List.cons_append,
        ih (List.cons_ne_nil _ _), List.intercalate_cons_cons]
      simp

/-- A row that is spelled canonically still is with a component more, and with one less. -/
theorem canonical_concat {cs : List Component} {c : Component} (h : Canonical cs) (hc : Inner c) :
    Canonical (cs ++ [c]) := by
  obtain ⟨base, inner, rfl, hbase, hinner⟩ := h
  refine ⟨base, inner ++ [c], List.append_assoc .., hbase, fun d hd => ?_⟩
  rcases List.mem_append.1 hd with hd | hd
  · exact hinner d hd
  · obtain rfl := List.mem_singleton.1 hd
    exact hc

/-- The converse of `canonical_concat`. -/
theorem canonical_of_concat {cs : List Component} {c : Component} (h : Canonical (cs ++ [c]))
    (hc : c ≠ root) : Canonical cs ∧ Inner c := by
  obtain ⟨base, inner, heq, hbase, hinner⟩ := h
  rcases List.eq_nil_or_concat inner with rfl | ⟨inner, d, rfl⟩
  · rw [List.append_nil] at heq
    have hmem : c ∈ base := heq ▸ List.mem_append_right _ (List.mem_singleton_self c)
    rcases hbase with rfl | rfl
    · cases hmem
    · exact absurd (List.mem_singleton.1 hmem) hc
  · rw [List.concat_eq_append, ← List.append_assoc] at heq
    obtain ⟨rfl, hlast⟩ := List.append_inj' heq rfl
    obtain rfl := (List.cons.inj hlast).1
    have hinner' (e : Component) (he : e ∈ inner) : Inner e :=
      hinner e (by simp [he])
    exact ⟨⟨base, inner, rfl, hbase, hinner'⟩, hinner c (by simp)⟩

/-- In a canonical row every segment is read as the component that it spells. -/
theorem spellAll_of_canonical {cs : List Component} (h : Canonical cs) :
    spellAll (cs.map Component.text) = cs.map fun c => (some c, c.text) := by
  obtain ⟨base, inner, rfl, hbase, hinner⟩ := h
  have hmap {inner : List Component} (hinner : ∀ c ∈ inner, Inner c) :
      (inner.map Component.text).map (fun s => (ofSegment? s, s))
        = inner.map fun c => (some c, c.text) := by
    rw [List.map_map]
    exact List.map_congr_left fun c hc => by rw [Function.comp_apply, (hinner c hc).2]
  rcases hbase with rfl | rfl
  · cases inner with
    | nil => rfl
    | cons c inner =>
      have hc := hinner c (List.mem_cons_self ..)
      have hfront : front? c.text = some c := by
        rw [front?, if_neg hc.text_ne_nil, if_neg hc.text_ne_dot, hc.2]
      rw [List.nil_append, List.map_cons, spellAll, hfront,
        hmap fun d hd => hinner d (List.mem_cons_of_mem _ hd), List.map_cons]
  · rw [List.singleton_append, List.map_cons, spellAll, hmap hinner]
    rfl

/-- So a path that is made of components is read as these components, each from one segment.  The empty
row and the root alone are spelled differently. -/
theorem spelled_ofComponents {cs : List Component} (h : Canonical cs) (hnil : cs ≠ [])
    (hroot : cs ≠ [root]) : (ofComponents cs).spelled = cs.map fun c => (some c, c.text) := by
  have hslash : ∀ segment ∈ cs.map Component.text, '/' ∉ segment := by
    intro segment hsegment
    obtain ⟨c, hc, rfl⟩ := List.mem_map.1 hsegment
    obtain ⟨base, inner, rfl, hbase, hinner⟩ := h
    rcases List.mem_append.1 hc with hc | hc
    · rcases hbase with rfl | rfl
      · cases hc
      · rw [List.mem_singleton.1 hc]
        exact List.not_mem_nil
    · exact (hinner c hc).1
  have hsegments : (ofComponents cs).segments = cs.map Component.text := by
    rw [ofComponents, if_neg hroot]
    exact List.splitOn_intercalate '/' hslash (by simpa using hnil)
  have htext : (ofComponents cs).text ≠ [] := by
    intro hempty
    have hcomponents := components_ofComponents h
    rw [components_empty hempty] at hcomponents
    exact hnil hcomponents.symm
  rw [spelled_eq htext, hsegments, spellAll_of_canonical h]

/-- Nothing is dropped at the end of a path in which every segment is a component. -/
theorem ofSpelled_components (cs : List Component) :
    ofSpelled (cs.map fun c => (some c, c.text)) = ofComponents cs := by
  have hkept : (cs.map fun c => (some c, c.text)).rdropWhile (·.1.isNone)
      = cs.map fun c => (some c, c.text) := by
    refine List.rdropWhile_eq_self_iff.2 fun hne => ?_
    rw [List.getLast_map]
    exact Bool.false_ne_true
  have hroot : (cs.map fun c => (some c, c.text)).map Prod.fst = [some root] ↔ cs = [root] := by
    rw [List.map_map]
    cases cs with
    | nil => simp
    | cons c cs => simp
  rw [ofSpelled, ofComponents]
  show (if ((cs.map fun c => (some c, c.text)).rdropWhile (·.1.isNone)).map Prod.fst = [some root]
    then Path.mk ['/'] else ⟨['/'].intercalate
      (((cs.map fun c => (some c, c.text)).rdropWhile (·.1.isNone)).map Prod.snd)⟩) = _
  rw [hkept, if_congr hroot rfl rfl, List.map_map]
  rfl

/-- The directory of a folded path is written as the path is. -/
theorem parent?_ofComponents {cs : List Component} {c : Component} (h : Canonical cs)
    (hc : Inner c) : (ofComponents (cs ++ [c])).parent? = some (ofComponents cs) := by
  have hspelled : (ofComponents (cs ++ [c])).spelled
      = (cs.map fun c => (some c, c.text)) ++ [(some c, c.text)] := by
    rw [spelled_ofComponents (canonical_concat h hc) (by simp), List.map_append]
    · rfl
    · intro hroot
      have hroot' : cs ++ [c] = [] ++ [root] := hroot
      exact hc.ne_root (List.cons.inj (List.append_inj' hroot' rfl).2).1
  have hkept : (ofComponents (cs ++ [c])).spelled.rdropWhile (·.1.isNone)
      = (cs.map fun c => (some c, c.text)) ++ [(some c, c.text)] := by
    rw [hspelled]
    exact List.rdropWhile_concat_neg _ _ _ Bool.false_ne_true
  rw [parent?_of_concat hkept, if_neg hc.ne_root, ofSpelled_components]

/-- The root is the only folded path that ends in a slash. -/
theorem getLast?_ofComponents {cs : List Component} (h : Canonical cs) (hroot : cs ≠ [root]) :
    (ofComponents cs).text.getLast? ≠ some '/' := by
  intro hslash
  obtain ⟨front, hfront⟩ := List.getLast?_eq_some_iff.1 hslash
  have hsegments : (ofComponents cs).segments = front.splitOn '/' ++ [[]] := by
    rw [segments, hfront, List.splitOn_append_cons_self, List.splitOn_nil]
  have hnil : cs ≠ [] := by
    rintro rfl
    cases hslash
  -- Each of its segments is a component, and the one behind the last slash would be empty.
  have hspelled := spelled_ofComponents h hnil hroot
  rw [spelled_eq (by simp [hfront]), hsegments, spellAll_append (List.splitOn_ne_nil '/' front)]
    at hspelled
  have hlast := congrArg List.getLast? hspelled
  rw [List.map_singleton, List.getLast?_concat, List.getLast?_map] at hlast
  cases hcs : cs.getLast? with
  | none => rw [hcs] at hlast; cases hlast
  | some c => rw [hcs] at hlast; cases hlast

/-- A component more is one that the path is joined with. -/
theorem join_ofComponents {cs : List Component} {c : Component} (h : Canonical cs) (hc : Inner c) :
    join (ofComponents cs) (ofComponents [c]) = ofComponents (cs ++ [c]) := by
  have htext {cs : List Component} (hcs : cs ≠ [root]) :
      (ofComponents cs).text = ['/'].intercalate (cs.map Component.text) := by
    rw [ofComponents, if_neg hcs]
  have hsingle : [c] ≠ [root] := fun hroot => hc.ne_root (List.cons.inj hroot).1
  have hc' : (ofComponents [c]).text = c.text := (htext hsingle).trans (by simp)
  have hrelative : (ofComponents [c]).isAbsolute = false := by
    rw [Bool.eq_false_iff, isAbsolute, hc', ne_eq, decide_eq_true_eq]
    exact fun hslash => hc.1 (List.mem_of_head? hslash)
  -- `join` does different things for an empty path, for one that ends in a slash, which is the root,
  -- and for others.
  by_cases hnil : cs = []
  · subst hnil
    rw [join, if_pos (.inr rfl), List.nil_append]
  · by_cases hroot : cs = [root]
    · subst hroot
      have hslash : (ofComponents [root]).text = ['/'] := rfl
      rw [join, hrelative, hslash, if_neg (by simp), if_pos List.getLast?_singleton, hc',
        ofComponents, if_neg (by simp)]
      simp [Component.text]
    · have hbase : (ofComponents cs).text ≠ [] := by
        intro hempty
        rw [← components_ofComponents h, components_empty hempty] at hnil
        exact hnil rfl
      have hlong : cs ++ [c] ≠ [root] := by
        intro hlong
        exact hnil (List.append_inj' (hlong.trans (List.nil_append [root]).symm) rfl).1
      rw [join, if_neg (by simp [hrelative, hbase]), if_neg (getLast?_ofComponents h hroot), hc',
        htext hroot, ← intercalate_concat (by simpa using hnil), ofComponents, if_neg hlong,
        List.map_append, List.map_singleton]

/-- Steps up are no name to take away. -/
theorem fileName?_ups {k : Nat} (h : Canonical (List.replicate k up)) :
    (ofComponents (List.replicate k up)).fileName? = none := by
  rw [fileName?, components_ofComponents h]
  cases k with
  | zero => rfl
  | succ k => rw [List.getLast?_replicate, if_neg (Nat.succ_ne_zero k)]

/-- Nor are they the root. -/
theorem isAbsolute_ups {k : Nat} (h : Canonical (List.replicate k up)) :
    (ofComponents (List.replicate k up)).isAbsolute = false := by
  rw [Bool.eq_false_iff, ne_eq, isAbsolute_iff, components_ofComponents h]
  cases k with
  | zero => simp
  | succ k => simp [List.replicate_succ]

/-- A path has no parts but these. -/
theorem of_mem_components {p : Path} {c : Component} (h : c ∈ p.components) :
    c = root ∨ c = here ∨ Inner c := by
  obtain ⟨front, inner, heq, hfront, hinner⟩ := components_eq p
  rw [heq] at h
  rcases List.mem_append.1 h with h | h
  · rcases hfront with rfl | rfl | rfl
    · cases h
    · exact .inl (List.mem_singleton.1 h)
    · exact .inr (.inl (List.mem_singleton.1 h))
  · exact .inr (.inr (hinner c h))

/-- What is written along the rules is the canonical spelling of what they leave. -/
theorem foldl_foldOnto {cs out : List Component} (h : Folds cs out)
    (hcs : ∀ c ∈ cs, c = root ∨ c = here ∨ Inner c) :
    cs.foldl foldOnto ⟨[]⟩ = ofComponents out ∧ Canonical out := by
  have hfront {cs : List Component} {c : Component}
      (h : ∀ d ∈ cs ++ [c], d = root ∨ d = here ∨ Inner d) : ∀ d ∈ cs, d = root ∨ d = here ∨ Inner d :=
    fun d hd => h d (List.mem_append_left _ hd)
  induction h with
  | nil => exact ⟨rfl, [], [], rfl, .inl rfl, by simp⟩
  | root => exact ⟨rfl, [.root], [], rfl, .inr rfl, by simp⟩
  | here _ ih =>
    rw [List.foldl_concat]
    exact ih (hfront hcs)
  | @name cs out n _ ih =>
    obtain ⟨hwritten, hcanonical⟩ := ih (hfront hcs)
    have hn : Inner (.name n) := by
      simpa using hcs (.name n) (List.mem_append_right _ (List.mem_singleton_self _))
    rw [List.foldl_concat, hwritten]
    exact ⟨join_ofComponents hcanonical hn, canonical_concat hcanonical hn⟩
  | @back cs out n _ ih =>
    obtain ⟨hwritten, hcanonical⟩ := ih (hfront hcs)
    obtain ⟨hout, hn⟩ := canonical_of_concat hcanonical (by simp)
    have hname : (ofComponents (out ++ [.name n])).fileName? = some n := by
      rw [fileName?, components_ofComponents hcanonical, List.getLast?_concat]
    -- The name is the last one of the written path, so it is its directory that is left.
    rw [List.foldl_concat, hwritten, foldOnto, hname, parent?_ofComponents hout hn]
    exact ⟨rfl, hout⟩
  | stay _ ih =>
    obtain ⟨hwritten, hcanonical⟩ := ih (hfront hcs)
    rw [List.foldl_concat, hwritten]
    exact ⟨rfl, hcanonical⟩
  | @keep cs k _ ih =>
    obtain ⟨hwritten, hcanonical⟩ := ih (hfront hcs)
    have hup : Inner up := ⟨by decide, by decide⟩
    rw [List.foldl_concat, hwritten, foldOnto, fileName?_ups hcanonical, isAbsolute_ups hcanonical,
      List.replicate_succ']
    exact ⟨join_ofComponents hcanonical hup, canonical_concat hcanonical hup⟩

/-- **A folded path can be built up in writing**, one component of the path after the other. -/
theorem fold_eq_foldl (p : Path) : fold p = p.components.foldl foldOnto ⟨[]⟩ := by
  have hfolds : Folds p.components (foldComponents p.components) :=
    (folds_iff (root_not_mem_tail p)).2 rfl
  exact (foldl_foldOnto hfolds fun c => of_mem_components).1.symm

/-! ## Where references lead

The parts are put together.  The two cases of the form, absolute and relative, are told apart by where
the reference and the file with it begin. -/

/-- What is known of the place that a reference in the file at `including` leads to. -/
structure Resolves (including reference : Path) : Prop where
  /-- It is where the rules lead on the way that the reference takes. -/
  follows (out : List Component) :
    Folds (trail including reference) out ↔ (resolve including reference).components = out
  folded : (resolve including reference).Folded
  /-- It can be built up in writing. -/
  written : resolve including reference
    = (join (including.parent?.getD ⟨[]⟩) reference).components.foldl foldOnto ⟨[]⟩
  /-- From a file in an absolute place it is absolute; the root itself is no file. -/
  absolute (h : including.isAbsolute = true) (hroot : ¬ Same including ⟨['/']⟩) :
    (resolve including reference).isAbsolute = true
  names (h : (resolve including reference).isAbsolute = true) :
    ∃ names, (resolve including reference).components = root :: List.map name names
  relative (h : (resolve including reference).isAbsolute = false) :
    ∃ k names, (resolve including reference).components = List.replicate k up ++ List.map name names
  /-- Folding it again changes nothing. -/
  stable : fold (resolve including reference) = resolve including reference

/-- **Every reference resolves as the rules say**, to a folded path. -/
theorem resolves (including reference : Path) : Resolves including reference where
  follows _ := folds_trail_iff
  folded := folded_resolve including reference
  written := fold_eq_foldl _
  absolute h hroot := isAbsolute_resolve h hroot
  names h := components_of_normal (normal_fold _) h
  relative h := components_of_normal_relative (normal_fold _) h
  stable := fold_fold _

end Path
end Templating
