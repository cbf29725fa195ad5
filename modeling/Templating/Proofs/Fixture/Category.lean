import Mathlib.Data.List.DropRight
import Templating.Fixture.Category
import Templating.Proofs.Path.Order

/-!
# Requests and groups

Fixtures are grouped by the directories that hold them, and some of the groups are asked for.  A request
is compared with the name of a group character by character; here it is said what that means for the
directories.

## What is here

* `Category.Wanted` says which directories some requests ask for; `Category.covers_iff` reads a single
  request.
* `Category.mem_group` and `Category.increasing_group` say what grouping makes of some files,
  `Category.mem_filesOf` and `Category.increasing_filesOf` what is in a group.
* `Category.mem_select` and `Category.select_sublist` are about choosing groups.
-/

set_option autoImplicit false

namespace Templating
namespace Category

/-! ## Names in order

Groups are put in order by their names, code point by code point. -/

instance : Std.TransCmp order := inferInstanceAs (Std.TransCmp (compareOn (List.map Char.toNat)))

/-- Only equal names come together. -/
theorem order_eq_iff {a b : Text} : order a b = .eq ↔ a = b := by
  rw [order, Std.LawfulEqCmp.compare_eq_iff_eq, map_toNat_inj]

/-! ## Requests

A request is freed of the slashes at its ends.  It covers a name that is the same, or that goes on with
a slash behind it: in terms of directories that is the directory with all that is below, and not one
whose name merely begins in the same way. -/

/-- The second text is a request without the slashes at its ends. -/
def Stripped (request s : Text) : Prop :=
  (∃ m n, request = List.replicate m '/' ++ s ++ List.replicate n '/') ∧
    s.head? ≠ some '/' ∧ s.getLast? ≠ some '/'

/-- Some requests ask for the files in a directory: there are none, or one names the directory or one
above it. -/
def Wanted (requests : List Text) (dirs : List Text) : Prop :=
  requests = [] ∨ ∃ request ∈ requests, ∃ s, Stripped request s ∧ s.splitOn '/' <+: dirs

/-- The slashes at the ends are taken off. -/
theorem stripped_trimSlashes (request : Text) : Stripped request (trimSlashes request) := by
  have htrim : trimSlashes request = (request.dropWhile (· = '/')).rdropWhile (· = '/') := rfl
  obtain ⟨m, hfront⟩ : ∃ m, request.takeWhile (· = '/') = List.replicate m '/' :=
    ⟨_, List.eq_replicate_iff.2 ⟨rfl, fun c hc => by simpa using List.mem_takeWhile_imp hc⟩⟩
  obtain ⟨n, hback⟩ : ∃ n, (request.dropWhile (· = '/')).rtakeWhile (· = '/')
      = List.replicate n '/' :=
    ⟨_, List.eq_replicate_iff.2 ⟨rfl, fun c hc => by simpa using List.mem_rtakeWhile_imp hc⟩⟩
  refine ⟨⟨m, n, ?_⟩, fun hhead => ?_, fun hlast => ?_⟩
  · rw [← hfront, ← hback, htrim, List.append_assoc, List.rdropWhile_append_rtakeWhile,
      List.takeWhile_append_dropWhile]
  · obtain ⟨rest, hrest⟩ := List.head?_eq_some_iff.1 hhead
    obtain ⟨more, hmore⟩ := List.rdropWhile_prefix (· = '/') (request.dropWhile (· = '/'))
    have hnot := List.head?_dropWhile_not (fun c => decide (c = '/')) request
    rw [← hmore, ← htrim, hrest] at hnot
    simp at hnot
  · obtain ⟨front, hfront⟩ := List.getLast?_eq_some_iff.1 hlast
    have hnot := List.rdropWhile_last_not (p := (· = '/')) (l := request.dropWhile (· = '/'))
      (by rw [← htrim, hfront]; simp)
    simp [← htrim, hfront] at hnot

/-- There is one way to take them off. -/
theorem trimSlashes_of_stripped {request s : Text} (h : Stripped request s) :
    trimSlashes request = s := by
  obtain ⟨⟨m, n, rfl⟩, hhead, hlast⟩ := h
  have hslash (k : Nat) : ∀ c ∈ List.replicate k '/', (decide (c = '/')) = true :=
    fun c hc => decide_eq_true (List.eq_of_mem_replicate hc)
  have hfront : (List.replicate m '/' ++ s ++ List.replicate n '/').dropWhile (· = '/')
      = if s = [] then [] else s ++ List.replicate n '/' := by
    rw [List.append_assoc, List.dropWhile_append_of_pos (hslash m)]
    cases s with
    | nil => exact List.dropWhile_eq_nil_iff.2 (hslash n)
    | cons c s => exact List.dropWhile_cons_of_neg (by simpa using hhead)
  show List.rdropWhile (· = '/') _ = s
  rw [hfront]
  split
  · next hnil => rw [hnil]; rfl
  · next hnil =>
    rw [List.rdropWhile, List.reverse_append, List.reverse_replicate,
      List.dropWhile_append_of_pos (hslash n)]
    refine List.rdropWhile_eq_self_iff.2 fun hne => ?_
    rw [List.getLast?_eq_getLast_of_ne_nil hne] at hlast
    simpa using hlast

/-- A request asks for the directories that it names, and for those below them. -/
theorem covers_iff {request : Text} {dirs : List Text} (hrequest : ∃ c ∈ request, c ≠ '/')
    (hdirs : ∀ m ∈ dirs, '/' ∉ m ∧ m ≠ []) :
    covers request (['/'].intercalate dirs) = true ↔
      ∃ s, Stripped request s ∧ s.splitOn '/' <+: dirs := by
  have hstripped := stripped_trimSlashes request
  -- It is enough to look at the request as it is stripped.
  have hunique : (∃ s, Stripped request s ∧ s.splitOn '/' <+: dirs) ↔
      (trimSlashes request).splitOn '/' <+: dirs :=
    ⟨fun ⟨_, hs, hprefix⟩ => trimSlashes_of_stripped hs ▸ hprefix, fun h => ⟨_, hstripped, h⟩⟩
  rw [hunique]
  have hne : trimSlashes request ≠ [] := by
    intro hnil
    obtain ⟨⟨m, n, hslashes⟩, -⟩ := hstripped
    obtain ⟨c, hc, hother⟩ := hrequest
    rw [hslashes, hnil] at hc
    simp [hother] at hc
  rw [covers]
  generalize trimSlashes request = s at hne ⊢
  rw [Bool.or_eq_true, decide_eq_true_eq, List.isPrefixOf_iff_prefix]
  by_cases hnil : dirs = []
  · have hsplit := List.splitOn_ne_nil '/' s
    simp [hnil, hne.symm, hsplit]
  have hsplit : (['/'].intercalate dirs).splitOn '/' = dirs :=
    List.splitOn_intercalate '/' (fun m hm => (hdirs m hm).1) hnil
  constructor
  · rintro (hname | ⟨rest, hrest⟩)
    · exact (congrArg _ hname.symm).trans hsplit ▸ List.prefix_rfl
    · rw [← hsplit, ← hrest, List.append_assoc]
      exact ⟨_, (List.splitOn_append_cons_self s rest).symm⟩
  · rintro ⟨more, rfl⟩
    by_cases hmore : more = []
    · left
      rw [hmore, List.append_nil, List.intercalate_splitOn]
    · right
      -- Split at its slashes, the request with the other names behind it gives the same names.
      have hjoin : (s ++ '/' :: ['/'].intercalate more).splitOn '/' = s.splitOn '/' ++ more := by
        rw [List.splitOn_append_cons_self, List.splitOn_intercalate '/'
          (fun m hm => (hdirs m (List.mem_append_right _ hm)).1) hmore]
      rw [← hjoin, List.intercalate_splitOn]
      exact ⟨['/'].intercalate more, by simp⟩

/-! ## Groups

The files are sorted and the names of their directories collected, each once.  A group then has the
files whose directory has its name, in order. -/

section Groups

variable {root : Path} {files : List Path} {c : Category}

/-- The files of a group, in order. -/
def filesOf (root : Path) (files : List Path) (name : Text) : List Path :=
  (files.mergeSort fun p q => (p.order q).isLE).filter (nameOf root · = name)

/-- There is a group for each directory with a file in it. -/
theorem mem_group :
    c ∈ group root files ↔ ∃ q ∈ files, c = ⟨nameOf root q, filesOf root files (nameOf root q)⟩ := by
  simp only [group, List.mem_map, List.mem_eraseDups, List.mem_mergeSort]
  constructor
  · rintro ⟨-, ⟨q, hq, rfl⟩, rfl⟩
    exact ⟨q, hq, rfl⟩
  · rintro ⟨q, hq, rfl⟩
    exact ⟨_, ⟨q, hq, rfl⟩, rfl⟩

/-- The groups go strictly up by their names. -/
theorem increasing_group (root : Path) (files : List Path) :
    (group root files).Pairwise fun c c' => order c.name c'.name = .lt := by
  rw [group, List.pairwise_map]
  show List.Pairwise (fun a b => order a b = .lt) _
  exact pairwise_lt ((pairwise_mergeSort_isLE _).sublist (eraseDups_sublist _))
    ((nodup_eraseDups _).imp fun hne heq => hne (order_eq_iff.1 heq))

/-- A group has the files of its directory. -/
theorem mem_filesOf {name : Text} {q : Path} :
    q ∈ filesOf root files name ↔ q ∈ files ∧ nameOf root q = name := by
  rw [filesOf, List.mem_filter, List.mem_mergeSort, decide_eq_true_eq]

/-- The files of a group go strictly up, if no two of them are the same place. -/
theorem increasing_filesOf (h : files.Pairwise fun p q => ¬ Path.Same p q) (name : Text) :
    (filesOf root files name).Pairwise fun p q => p.order q = .lt := by
  have hdistinct : (files.mergeSort fun p q => (p.order q).isLE).Pairwise
      fun p q => ¬ Path.Same p q :=
    ((List.mergeSort_perm _ _).pairwise_iff fun hne hsame => hne hsame.symm).2 h
  exact (pairwise_lt (pairwise_mergeSort_isLE _)
    (hdistinct.imp fun hne heq => hne (Path.order_eq_iff.1 heq))).filter _

end Groups

/-! ## Choosing groups

Groups are filtered, so they stay in order, and none is there twice however many requests cover it. -/

/-- A group is chosen if it is asked for, or if nothing is. -/
theorem mem_select {all : List Category} {requests : List Text} {c : Category} : c ∈ select all requests ↔
    c ∈ all ∧ (requests = [] ∨ ∃ request ∈ requests, covers request c.name = true) := by
  rw [select]
  split
  · next hnil => simp [hnil]
  · next hnil => simp [hnil, List.mem_filter]

/-- Choosing leaves out groups and does nothing else. -/
theorem select_sublist (all : List Category) (requests : List Text) :
    (select all requests).Sublist all := by
  rw [select]
  split
  · exact List.Sublist.refl _
  · exact List.filter_sublist

end Category
end Templating
