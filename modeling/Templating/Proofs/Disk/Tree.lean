import Mathlib.Data.List.Nodup
import Templating.Fixture.Category
import Templating.Proofs.Disk.Replacement
import Templating.Proofs.Path.Below

/-!
# The files below a directory

A search for files goes through all that is below a directory.  Here it is said which files it finds,
and under which paths.

## What is here

* `Disk.Proper` is a disk that can be real: every place is there once, and its names can be spelled.
  A disk that is built file by file is proper (`Disk.Proper.addFile`).
* `Disk.Proper.mem_filesUnder_iff` says what is found below a path, and
  `Disk.Proper.distinct_filesUnder` that nothing is found twice.
-/

set_option autoImplicit false

namespace Templating
namespace Disk

open Component

/-- A disk on which every place is there once, with names that can be spelled. -/
structure Proper (d : Disk) : Prop where
  distinct : (d.nodes.map Prod.fst).Nodup
  named : ∀ entry ∈ d.nodes, ∀ n ∈ entry.1, Inner (.name n)
  /-- The root is always there without an entry. -/
  rootless : ∀ entry ∈ d.nodes, entry.1 ≠ []

variable {d : Disk} {cwd place : Place} {p : Path} {node : Node} {names : List Text}
  {contents : Bytes} {permissions : Permissions}

/-! ## Building disks

A file is put on a disk together with the directories on the way, each at its place, where it takes the
place of what was there.  So a place is never there twice, and a disk that is built from names that can
be spelled is proper. -/

/-- A disk with nothing on it. -/
theorem proper_empty : Proper {} where
  distinct := List.nodup_nil
  named := nofun
  rootless := nofun

/-- Taking something off a disk. -/
theorem Proper.erase (h : d.Proper) (place : Place) : (d.erase place).Proper where
  distinct := h.distinct.sublist (List.filter_sublist.map _)
  named entry he := h.named entry (List.mem_of_mem_filter he)
  rootless entry he := h.rootless entry (List.mem_of_mem_filter he)

/-- Putting something at a place. -/
theorem Proper.set (h : d.Proper) (hne : place ≠ []) (hnames : ∀ n ∈ place, Inner (.name n))
    (node : Node) : (d.set place node).Proper where
  distinct := by
    rw [Disk.set, List.map_cons, List.nodup_cons]
    refine ⟨fun hmem => ?_, (h.erase place).distinct⟩
    obtain ⟨entry, he, hplace⟩ := List.mem_map.1 hmem
    simpa [hplace] using (List.mem_filter.1 he).2
  named entry he := by
    rcases List.mem_cons.1 he with rfl | he
    · exact hnames
    · exact (h.erase place).named entry he
  rootless entry he := by
    rcases List.mem_cons.1 he with rfl | he
    · exact hne
    · exact (h.erase place).rootless entry he

/-- Making a directory, with all those on the way. -/
theorem Proper.addDirectory (h : d.Proper) (hnames : ∀ n ∈ place, Inner (.name n)) :
    (d.addDirectory place).Proper := by
  rw [Disk.addDirectory]
  refine List.foldlRecOn _ _ h fun d hd n _ => ?_
  split
  · exact hd
  · next hnode =>
    refine hd.set (fun hnil => hnode ?_) (fun m hm => hnames m (List.mem_of_mem_take hm)) _
    rw [hnil, node?_root]
    rfl

/-- Making a file. -/
theorem Proper.addFile (h : d.Proper) (hne : place ≠ []) (hnames : ∀ n ∈ place, Inner (.name n))
    (contents : Bytes) (permissions : Option Permissions) :
    (d.addFile place contents permissions).Proper :=
  (h.addDirectory fun n hn => hnames n (List.dropLast_subset _ hn)).set hne hnames _

/-- A disk with some files on it, all of the same contents. -/
def ofPlaces (places : List Place) (contents : Bytes) : Disk :=
  places.foldl (fun d place => d.addFile place contents none) {}

/-- Such a disk is proper. -/
theorem proper_ofPlaces {places : List Place}
    (h : ∀ place ∈ places, place ≠ [] ∧ ∀ n ∈ place, Inner (.name n)) (contents : Bytes) :
    (ofPlaces places contents).Proper :=
  List.foldlRecOn _ _ proper_empty fun _ hd place hplace =>
    hd.addFile (h place hplace).1 (h place hplace).2 contents none

/-! ## Entries and places

The entries of a disk are looked up by their places and are gone through as a list.  On a proper disk
both see the same nodes. -/

/-- What is at a place is what its entry says. -/
theorem Proper.node?_eq_some_iff (h : d.Proper) (hne : place ≠ []) :
    d.node? place = some node ↔ (place, node) ∈ d.nodes := by
  rw [node?, if_neg hne, Option.map_eq_some_iff]
  constructor
  · rintro ⟨entry, hentry, rfl⟩
    obtain rfl : entry.1 = place := by simpa using List.find?_some hentry
    exact List.mem_of_find?_eq_some hentry
  · intro hmem
    obtain ⟨entry, hentry⟩ : ∃ entry, d.nodes.find? (fun entry => entry.1 = place) = some entry :=
      Option.isSome_iff_exists.1 (List.find?_isSome.2 ⟨_, hmem, decide_eq_true rfl⟩)
    have hplace : entry.1 = place := by simpa using List.find?_some hentry
    refine ⟨entry, hentry, ?_⟩
    rw [List.inj_on_of_nodup_map h.distinct (List.mem_of_find?_eq_some hentry) hmem hplace]

/-- The names on the way to anything can be spelled. -/
theorem Proper.inner_of_node? (h : d.Proper) (hnode : d.node? place = some node) :
    ∀ n ∈ place, Inner (.name n) := by
  by_cases hne : place = []
  · rw [hne]
    exact nofun
  · exact h.named _ ((h.node?_eq_some_iff hne).1 hnode)

/-- And so from a place on the way. -/
theorem Proper.inner_of_below (h : d.Proper) (hnode : d.node? (place ++ names) = some node) :
    ∀ n ∈ names, Inner (.name n) :=
  fun n hn => h.inner_of_node? hnode n (List.mem_append_right _ hn)

/-- The files below a place, as entries. -/
theorem mem_filesBelow : (names, contents, permissions) ∈ d.filesBelow place ↔
    (place ++ names, Node.file contents permissions) ∈ d.nodes := by
  rw [filesBelow, List.mem_filterMap]
  constructor
  · rintro ⟨⟨place', node⟩, hmem, hfile⟩
    cases node with
    | directory _ => cases hfile
    | file contents' permissions' =>
      dsimp only at hfile
      split at hfile
      · next hbelow =>
        obtain ⟨rest, rfl⟩ := List.isPrefixOf_iff_prefix.1 hbelow
        rw [List.drop_left] at hfile
        cases hfile
        exact hmem
      · cases hfile
  · intro hmem
    refine ⟨_, hmem, ?_⟩
    dsimp only
    rw [if_pos (List.isPrefixOf_iff_prefix.2 (List.prefix_append _ _)), List.drop_left]

/-- The files below a place, looked up. -/
theorem Proper.mem_filesBelow_iff (h : d.Proper) : (names, contents, permissions) ∈ d.filesBelow place ↔
    d.node? (place ++ names) = some (.file contents permissions) := by
  rw [mem_filesBelow]
  by_cases hne : place ++ names = []
  · rw [hne, node?_root]
    exact ⟨fun hmem => absurd rfl (h.rootless _ hmem), nofun⟩
  · exact (h.node?_eq_some_iff hne).symm

/-! ## What is found

The path of a directory may be spelled in any way.  The files below it are found under that spelling,
with the names on the way behind it; so they are told apart by those names, and each is found once. -/

/-- The empty path leads nowhere. -/
theorem text_ne_nil_of_find (h : d.find cwd p = .ok (place, node)) : p.text ≠ [] := by
  intro hnil
  have hlocate := (find_eq_ok_iff.1 h).1
  rw [locate, if_pos hnil] at hlocate
  cases hlocate

/-- What is found under a path are the files below its place. -/
theorem filesUnder_of_find (h : d.find cwd p = .ok (place, node)) :
    d.filesUnder cwd p = (d.filesBelow place).map fun file => p.below file.1 := by
  rw [filesUnder, h]
  rfl

/-- **A search finds the files below a directory**, each under the path of the directory with the names
on the way behind it. -/
theorem Proper.mem_filesUnder_iff (h : d.Proper) (hfind : d.find cwd p = .ok (place, node)) {q : Path} :
    q ∈ d.filesUnder cwd p ↔ ∃ names contents permissions,
      d.node? (place ++ names) = some (.file contents permissions) ∧ q = p.below names := by
  rw [filesUnder_of_find hfind, List.mem_map]
  constructor
  · rintro ⟨⟨names, contents, permissions⟩, hfile, rfl⟩
    exact ⟨names, contents, permissions, h.mem_filesBelow_iff.1 hfile, rfl⟩
  · rintro ⟨names, contents, permissions, hfile, rfl⟩
    exact ⟨(names, contents, permissions), h.mem_filesBelow_iff.2 hfile, rfl⟩

/-- What is found below a directory is in it or in a directory below it. -/
theorem Proper.mem_filesUnder_directory_iff (h : d.Proper)
    (hfind : d.find cwd p = .ok (place, .directory permissions)) {q : Path} :
    q ∈ d.filesUnder cwd p ↔ ∃ dirs n contents permissions,
      d.node? (place ++ (dirs ++ [n])) = some (.file contents permissions) ∧
        q = p.below (dirs ++ [n]) := by
  rw [h.mem_filesUnder_iff hfind]
  constructor
  · rintro ⟨names, contents, permissions', hfile, rfl⟩
    obtain rfl | ⟨dirs, n, rfl⟩ := List.eq_nil_or_concat' names
    · rw [List.append_nil, (find_eq_ok_iff.1 hfind).2.1] at hfile
      cases hfile
    · exact ⟨dirs, n, contents, permissions', hfile, rfl⟩
  · rintro ⟨dirs, n, contents, permissions', hfile, rfl⟩
    exact ⟨_, contents, permissions', hfile, rfl⟩

/-- No two files below a place are reached by the same names. -/
theorem Proper.distinct_filesBelow (h : d.Proper) (place : Place) :
    (d.filesBelow place).Pairwise fun file file' => file.1 ≠ file'.1 := by
  refine List.Pairwise.filterMap _ ?_ (List.pairwise_map.1 h.distinct)
  rintro ⟨place₁, node₁⟩ ⟨place₂, node₂⟩ hne file₁ h₁ file₂ h₂ heq
  cases node₁ with
  | directory _ => cases h₁
  | file contents₁ permissions₁ =>
    cases node₂ with
    | directory _ => cases h₂
    | file contents₂ permissions₂ =>
      dsimp only at h₁ h₂
      split at h₁
      · next hbelow₁ =>
        split at h₂
        · next hbelow₂ =>
          obtain ⟨rest₁, rfl⟩ := List.isPrefixOf_iff_prefix.1 hbelow₁
          obtain ⟨rest₂, rfl⟩ := List.isPrefixOf_iff_prefix.1 hbelow₂
          rw [List.drop_left] at h₁ h₂
          cases h₁
          cases h₂
          exact hne (congrArg (place ++ ·) heq)
        · cases h₂
      · cases h₁

/-- No two paths that a search finds are the same place. -/
theorem Proper.distinct_filesUnder (h : d.Proper) (hfind : d.find cwd p = .ok (place, node)) :
    (d.filesUnder cwd p).Pairwise fun q q' => ¬ Path.Same q q' := by
  have hinner {file : Place × Bytes × Permissions} (hfile : file ∈ d.filesBelow place) :
      ∀ n ∈ file.1, Inner (.name n) := h.inner_of_below (h.mem_filesBelow_iff.1 hfile)
  rw [filesUnder_of_find hfind, List.pairwise_map]
  refine (h.distinct_filesBelow place).imp_of_mem fun hmem hmem' hne hsame => hne ?_
  exact Path.names_eq_of_same_below (text_ne_nil_of_find hfind) (hinner hmem) (hinner hmem') hsame

end Disk
end Templating
