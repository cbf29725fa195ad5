import Mathlib.Data.List.TakeDrop
import Templating.Discovery
import Templating.Proofs.Disk.Tree
import Templating.Proofs.Path.Order

/-!
# Which templates are found

Templates are looked for in all the places that some paths lead to.  Which ones are found depends on the
places only: not on how their paths are spelled, nor on how often or in which order they are named.

## What is here

* `Disk.place_of_locate`: a path leads to the place that its components say.
* `Discovery.Names` says which files a path names, and `Discovery.Finds` what finding them is.
* `Discovery.finds_templates` and `Discovery.Finds.same`: the templates are found, and there is one way
  to list them.
-/

set_option autoImplicit false

namespace Templating

open Component

/-! ## Following components

The disk is walked segment by segment, and it is checked on the way that there is a directory to go on
from.  If the walk comes to its end, the place is the one that the components alone lead to.  So two
spellings of a path cannot lead to different places.  One of them may lead nowhere, as a slash at the
end asks for a directory. -/

namespace Disk

variable {d : Disk} {cwd place : Place} {p q : Path} {node : Node}

/-- Where a component leads from a place. -/
def step (here : Place) : Component → Place
  | root => []
  | .here => here
  | up => here.dropLast
  | name n => here ++ [n]

/-- A walk that comes to its end follows the components that its segments spell. -/
theorem place_of_walk {here : Place} {segments : List Text} (h : d.walk here segments = .ok place) :
    place = (segments.filterMap ofSegment?).foldl step here := by
  induction segments generalizing here with
  | nil => exact (Except.ok.inj h).symm
  | cons segment segments ih =>
    rw [walk] at h
    split at h
    · next hempty =>
      rw [List.filterMap_cons_none (by simp [ofSegment?, hempty])]
      exact ih h
    · next hempty =>
      split at h
      · cases h
      · cases h
      · split at h
        · next hdot =>
          rw [List.filterMap_cons_none (by simp [ofSegment?, hdot])]
          exact ih h
        · next hdot =>
          split at h
          · next hup =>
            rw [List.filterMap_cons_some (b := up) (by simp [ofSegment?, hup])]
            exact ih h
          · next hup =>
            split at h
            · cases h
            · rw [List.filterMap_cons_some (b := name segment) (by simp [ofSegment?, *])]
              exact ih h

/-- However a path is spelled, it leads to the place that its components say. -/
theorem place_of_locate (h : d.locate cwd p = .ok place) : place = p.components.foldl step cwd := by
  rw [locate] at h
  split at h
  · cases h
  · split at h
    · cases h
    · split at h
      · cases h
      · rw [place_of_walk h]
        cases habsolute : p.isAbsolute with
        | true =>
          rw [if_pos rfl, Path.components_of_absolute habsolute, List.foldl_cons, step]
        | false =>
          rw [if_neg (by decide)]
          rcases Path.components_of_relative habsolute with hp | hp
          · rw [hp]
          · rw [hp, List.foldl_cons, step]

/-- Two spellings of a path lead to the same thing, if both lead anywhere. -/
theorem find_eq_of_same (hsame : Path.Same p q) {found found' : Place × Node}
    (hp : d.find cwd p = .ok found) (hq : d.find cwd q = .ok found') : found = found' := by
  obtain ⟨place, node⟩ := found
  obtain ⟨place', node'⟩ := found'
  obtain ⟨hlocate, hnode, -⟩ := find_eq_ok_iff.1 hp
  obtain ⟨hlocate', hnode', -⟩ := find_eq_ok_iff.1 hq
  have hplace : place = place' := by
    rw [place_of_locate hlocate, place_of_locate hlocate', hsame]
  subst hplace
  rw [hnode] at hnode'
  rw [Option.some.inj hnode']

end Disk

/-! ## Names of templates

Only the name of a file tells if it is a template.  Both its extension and the longer ending that
fixtures have are looked at, and said here in terms of the name as a whole. -/

/-- The extension of a file name is what follows its last dot, if anything is in front of that dot. -/
theorem Path.extension?_eq_some_iff {p : Path} {n extension : Text} (hname : p.fileName? = some n)
    (hdot : '.' ∉ extension) :
    p.extension? = some extension ↔ ∃ stem, stem ≠ [] ∧ n = stem ++ '.' :: extension := by
  rw [extension?, hname]
  dsimp only
  rw [List.span_eq_takeWhile_dropWhile]
  constructor
  · intro h
    -- The name is read from its end, up to the first dot there.
    have happend : n.reverse.takeWhile (fun c => decide (c ≠ '.'))
        ++ n.reverse.dropWhile (fun c => decide (c ≠ '.')) = n.reverse :=
      List.takeWhile_append_dropWhile
    have hnot := List.head?_dropWhile_not (fun c => decide (c ≠ '.')) n.reverse
    generalize n.reverse.dropWhile (fun c => decide (c ≠ '.')) = rest at h happend hnot
    split at h
    · cases h
    · cases h
    · next c front hmore hrest =>
      obtain rfl : rest = c :: front := hrest
      obtain rfl : c = '.' := by simpa using hnot
      refine ⟨front.reverse, fun hnil => hmore rfl (List.reverse_eq_nil_iff.1 hnil), ?_⟩
      rw [← List.reverse_reverse n, ← happend, ← Option.some.inj h]
      simp
  · rintro ⟨stem, hstem, rfl⟩
    have hpos : ∀ c ∈ extension.reverse, (decide (c ≠ '.')) = true := fun c hc =>
      decide_eq_true fun heq => hdot (heq ▸ List.mem_reverse.1 hc)
    have hreverse : (stem ++ '.' :: extension).reverse = extension.reverse ++ '.' :: stem.reverse := by
      simp
    rw [hreverse, List.takeWhile_append_of_pos hpos, List.dropWhile_append_of_pos hpos,
      List.takeWhile_cons_of_neg (by simp), List.dropWhile_cons_of_neg (by simp), List.append_nil,
      List.reverse_reverse]
    split
    · next heq => cases heq
    · next heq => exact absurd (List.reverse_eq_nil_iff.1 (List.cons.inj heq).2) hstem
    · rfl

namespace Discovery

/-- A file of this name in a directory is a template, and no fixture. -/
def TemplateName (n : Text) : Prop :=
  (∃ stem, stem ≠ [] ∧ n = stem ++ ".dswift".toList) ∧ ¬ Fixture.suffix <:+ n

/-- Whether a path is taken for a template depends on its last component. -/
theorem isTemplate_iff {p : Path} {n : Text} (hname : p.fileName? = some n) :
    isTemplate p = true ↔ TemplateName n := by
  rw [isTemplate, Category.isFixture, hname, Bool.and_eq_true, decide_eq_true_eq,
    Path.extension?_eq_some_iff hname (by decide), Bool.not_eq_true', ← Bool.not_eq_true,
    List.isSuffixOf_iff_suffix, and_comm]
  rfl

/-! ## What a path names

A path that leads to a file names that file, whatever it is called.  A path that leads to a directory
names the templates in it and in all directories below.  The listing spells them in its own way; `Names`
says what they are up to their spelling, so that it holds of every spelling of the path as well
(`Names.of_same`). -/

/-- A path names a file: the one it leads to, or a template in or below the directory it leads to. -/
inductive Names (d : Disk) (cwd : Place) (p : Path) : Path → Prop
  | file {q : Path} (hfile : d.isFile cwd p = true) (hsame : Path.Same p q) : Names d cwd p q
  | below {q : Path} {place : Place} {permissions permissions' : Permissions} {dirs : List Text}
      {n : Text} {contents : Bytes} (hfind : d.find cwd p = .ok (place, .directory permissions))
      (hfile : d.node? (place ++ (dirs ++ [n])) = some (.file contents permissions'))
      (hname : TemplateName n) (hsame : Path.Same (p.below (dirs ++ [n])) q) : Names d cwd p q

variable {d : Disk} {cwd : Place} {p p' q : Path}

/-- A path leads to a file. -/
theorem isFile_iff : d.isFile cwd p = true ↔
    ∃ place contents permissions, d.find cwd p = .ok (place, .file contents permissions) := by
  rw [Disk.isFile]
  split
  · next place contents permissions hfind =>
    exact ⟨fun _ => ⟨place, contents, permissions, hfind⟩, fun _ => rfl⟩
  · next hother => exact ⟨nofun, fun ⟨place, contents, permissions, hfind⟩ => (hother _ _ _ hfind).elim⟩

/-- The files that a path is searched for are those that it names. -/
theorem mem_named_iff (hd : d.Proper) : (∃ t ∈ named d cwd p, Path.Same t q) ↔ Names d cwd p q := by
  rw [named]
  split
  · next hfile =>
    simp only [List.mem_singleton, exists_eq_left]
    refine ⟨.file hfile, fun h => ?_⟩
    cases h with
    | file _ hsame => exact hsame
    | below hfind _ _ _ => simp [Disk.isFile, hfind] at hfile
  · next hfile =>
    constructor
    · rintro ⟨t, ht, hsame⟩
      obtain ⟨hmem, htemplate⟩ := List.mem_filter.1 ht
      cases hfind : d.find cwd p with
      | error kind => simp [Disk.filesUnder, hfind] at hmem
      | ok found =>
        obtain ⟨place, node⟩ := found
        cases node with
        | file contents permissions => simp [Disk.isFile, hfind] at hfile
        | directory permissions =>
          obtain ⟨dirs, n, contents, permissions', hnode, rfl⟩ :=
            (hd.mem_filesUnder_directory_iff hfind).1 hmem
          have hname := Path.fileName?_below (Disk.text_ne_nil_of_find hfind) (hd.inner_of_below hnode)
          exact .below hfind hnode ((isTemplate_iff hname).1 htemplate) hsame
    · intro h
      cases h with
      | file hfile' _ => exact absurd hfile' hfile
      | below hfind hnode hname hsame =>
        have hfileName := Path.fileName?_below (Disk.text_ne_nil_of_find hfind) (hd.inner_of_below hnode)
        exact ⟨_, List.mem_filter.2 ⟨(hd.mem_filesUnder_directory_iff hfind).2
          ⟨_, _, _, _, hnode, rfl⟩, (isTemplate_iff hfileName).2 hname⟩, hsame⟩

/-- Another spelling of a path names the same files, if it leads to anything where the first one does. -/
theorem Names.of_same (h : Names d cwd p q) (hd : d.Proper) (hsame : Path.Same p p')
    (hexists : d.exists? cwd p = d.exists? cwd p') : Names d cwd p' q := by
  have hfind {found : Place × Node} (hp : d.find cwd p = .ok found) : d.find cwd p' = .ok found := by
    obtain ⟨found', hp'⟩ := Disk.exists?_iff.1 (hexists ▸ Disk.exists?_iff.2 ⟨found, hp⟩)
    rw [hp', Disk.find_eq_of_same hsame hp hp']
  cases h with
  | file hfile hq =>
    obtain ⟨place, contents, permissions, hp⟩ := isFile_iff.1 hfile
    exact .file (isFile_iff.2 ⟨place, contents, permissions, hfind hp⟩) (hsame.symm.trans hq)
  | below hp hnode hname hq =>
    have hbelow := Path.same_below (Disk.text_ne_nil_of_find (hfind hp)) (Disk.text_ne_nil_of_find hp)
      hsame.symm (hd.inner_of_below hnode)
    exact .below (hfind hp) hnode hname (hbelow.trans hq)

/-! ## What some paths name

The files that were found are sorted and the second one of two that are the same is dropped.  What is
left is strictly increasing, and such a list is determined by what is in it. -/

/-- Files are dropped and nothing else is changed. -/
theorem distinct_sublist (paths : List Path) : (distinct paths).Sublist paths := by
  induction paths with
  | nil => exact .slnil
  | cons p paths ih => exact (List.filter_sublist.trans ih).cons_cons p

/-- No two of the files that are left are the same. -/
theorem pairwise_distinct (paths : List Path) :
    (distinct paths).Pairwise fun p q => ¬ Path.Same p q := by
  induction paths with
  | nil => exact .nil
  | cons p paths ih =>
    refine List.pairwise_cons.2 ⟨fun q hq => ?_, ih.filter _⟩
    simpa using (List.mem_filter.1 hq).2

/-- Of every file that was there, one spelling is left. -/
theorem mem_distinct_iff {paths : List Path} :
    (∃ t ∈ distinct paths, Path.Same t q) ↔ ∃ t ∈ paths, Path.Same t q := by
  constructor
  · rintro ⟨t, ht, hsame⟩
    exact ⟨t, (distinct_sublist paths).subset ht, hsame⟩
  · induction paths with
    | nil => exact nofun
    | cons p paths ih =>
      rintro ⟨t, ht, hsame⟩
      by_cases hp : Path.Same p q
      · exact ⟨p, List.mem_cons_self .., hp⟩
      · rcases List.mem_cons.1 ht with rfl | ht
        · exact absurd hsame hp
        · obtain ⟨t', ht', hsame'⟩ := ih ⟨t, ht, hsame⟩
          refine ⟨t', List.mem_cons_of_mem _ (List.mem_filter.2 ⟨ht', ?_⟩), hsame'⟩
          simpa using fun h : Path.Same p t' => hp (h.trans hsame')

/-- The files that some paths name, in order and each of them once. -/
structure Finds (d : Disk) (cwd : Place) (paths found : List Path) : Prop where
  increasing : found.Pairwise fun p q => p.order q = .lt
  exactly (q : Path) : (∃ t ∈ found, Path.Same t q) ↔ ∃ p ∈ paths, Names d cwd p q

/-- The templates are found, in order and each of them once. -/
theorem finds_templates (hd : d.Proper) (cwd : Place) (paths : List Path) :
    Finds d cwd paths (templates d cwd paths) where
  increasing := pairwise_lt ((pairwise_mergeSort_isLE _).sublist (distinct_sublist _))
    ((pairwise_distinct _).imp fun hne heq => hne (Path.order_eq_iff.1 heq))
  exactly q := by
    simp only [templates, mem_distinct_iff, List.mem_mergeSort, List.mem_flatMap,
      ← mem_named_iff hd]
    constructor
    · rintro ⟨t, ⟨p, hp, ht⟩, hsame⟩
      exact ⟨p, hp, t, ht, hsame⟩
    · rintro ⟨p, hp, t, ht, hsame⟩
      exact ⟨t, ⟨p, hp, ht⟩, hsame⟩

/-- **There is one way to list what some paths name**, however the paths are spelled and listed. -/
theorem Finds.same {paths paths' found found' : List Path} (h : Finds d cwd paths found)
    (h' : Finds d cwd paths' found') (hd : d.Proper)
    (hpaths : ∀ p ∈ paths, ∃ p' ∈ paths', Path.Same p p')
    (hpaths' : ∀ p' ∈ paths', ∃ p ∈ paths, Path.Same p p')
    (hexists : ∀ p ∈ paths, ∀ p' ∈ paths', Path.Same p p' → d.exists? cwd p = d.exists? cwd p') :
    List.Forall₂ Path.Same found found' := by
  refine Path.forall₂_same_of_increasing h.increasing h'.increasing fun q => ?_
  rw [h.exactly, h'.exactly]
  constructor
  · rintro ⟨p, hp, hnames⟩
    obtain ⟨p', hp', hsame⟩ := hpaths p hp
    exact ⟨p', hp', hnames.of_same hd hsame (hexists p hp p' hp' hsame)⟩
  · rintro ⟨p', hp', hnames⟩
    obtain ⟨p, hp, hsame⟩ := hpaths' p' hp'
    exact ⟨p, hp, hnames.of_same hd hsame.symm (hexists p hp p' hp' hsame).symm⟩

/-- A path that is named by another one is not empty. -/
theorem Names.text_ne_nil (h : Names d cwd p q) (hd : d.Proper) : q.text ≠ [] := by
  have hnames {r : Path} (hr : r.text ≠ []) (hsame : Path.Same r q) : q.text ≠ [] := fun hnil =>
    hr (Path.components_eq_nil_iff.1 (Eq.trans hsame (Path.components_empty hnil)))
  cases h with
  | file hfile hsame =>
    obtain ⟨place, contents, permissions, hfind⟩ := isFile_iff.1 hfile
    exact hnames (Disk.text_ne_nil_of_find hfind) hsame
  | below hfind hnode _ hsame =>
    exact hnames (Path.below_ne_nil (Disk.text_ne_nil_of_find hfind) (hd.inner_of_below hnode)) hsame

end Discovery
end Templating
