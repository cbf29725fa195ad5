import Templating.Proofs.Include.Walk

/-!
# The files of a template, depth first

A reader who wants to see every file that a template needs opens the template, then goes to the file
that its first include tag names and to all that this one needs, then to the file of the second tag,
and so on, and turns back where a file was opened before.

## What is here

* `Surroundings.targets` are the files that the tags of a file name, in order.
* `Surroundings.visits` is the order in which the reader comes to the files.  `visits_append` says that
  it is depth first, `parent_of_visits` that every file is come to from one before it, and
  `mem_visits_iff` that it has the files that can be reached and no others.
-/

set_option autoImplicit false

namespace Templating

/-- Opening more files leaves no more of them unopened. -/
theorem FileSystem.unvisited_append_le (fs : FileSystem) (visited more : List Path) :
    fs.unvisited (visited ++ more) ≤ fs.unvisited visited := by
  refine List.countP_mono_left fun entry _ h => ?_
  rw [List.any_append, Bool.not_or, Bool.and_eq_true] at h
  exact h.1

namespace Surroundings

variable (s : Surroundings) (chosen : Path → Option TextEncoding)

/-! ## Targets

The tags of a file are looked at whether or not the file is accepted, so the order can be spoken of
before it is known how a build goes.  Where there is no file there are no tags. -/

/-- The files that the include tags of a file name, in order. -/
def targets (p : Path) : List Path := ((s.tags? chosen p).getD []).map IncludeTag.target

variable {s chosen}

/-- The files that a file names are those that it mentions. -/
theorem mem_targets_iff {p q : Path} : q ∈ s.targets chosen p ↔ s.Mentions chosen p q := by
  constructor
  · intro h
    obtain ⟨tag, htag, rfl⟩ := List.mem_map.1 h
    cases htags : s.tags? chosen p with
    | none =>
      rw [htags] at htag
      exact absurd htag List.not_mem_nil
    | some tags =>
      rw [htags] at htag
      obtain ⟨text, htext, hfind⟩ := tags?_eq_some_iff.1 htags
      exact ⟨text, tags, htext, hfind, tag, htag, rfl⟩
  · rintro ⟨text, tags, htext, hfind, tag, htag, rfl⟩
    rw [targets, tags?_eq_some_iff.2 ⟨text, htext, hfind⟩]
    exact List.mem_map_of_mem htag

/-- All of them are named by folded paths. -/
theorem Mentions.folded {p q : Path} (h : s.Mentions chosen p q) : q.Folded := by
  obtain ⟨text, tags, -, hfind, tag, htag, rfl⟩ := h
  exact (IncludeTag.found_of_findFrom hfind).folded tag htag

/-- An accepted file names what the tags of its outline do. -/
theorem targets_of_ofText {p : Path} {text : Text} {o : Outline}
    (htext : s.text? chosen p = some text) (ho : Outline.ofText s.running p text = .ok o) :
    s.targets chosen p = o.tags.map IncludeTag.target := by
  obtain ⟨-, -, -, hfind, -⟩ := Outline.ofText_eq_ok ho
  rw [targets, tags?_eq_some_iff.2 ⟨text, htext, hfind⟩]
  rfl

/-- A file that is not there names nothing. -/
theorem targets_of_missing {p : Path} (h : ¬ (s.files.find? p).isSome = true) :
    s.targets chosen p = [] := by
  refine List.eq_nil_iff_forall_not_mem.2 fun q hq => h ?_
  obtain ⟨text, -, htext, -⟩ := mem_targets_iff.1 hq
  obtain ⟨encoding, hread⟩ := text?_eq_some_iff.1 htext
  exact FileSystem.isSome_find?_of_readText hread

/-- Opening a file for the first time leaves less to do: either there is a file less that was not
opened, or there is no file and thus no tag. -/
theorem targets_lt {seen todo : List Path} {p : Path}
    (hp : ¬ seen.any (fun q => Path.Same q p) = true) :
    Prod.Lex (· < ·) (· < ·)
      (s.files.unvisited (seen ++ [p]), (s.targets chosen p ++ todo).length)
      (s.files.unvisited seen, (p :: todo).length) := by
  by_cases hfile : (s.files.find? p).isSome = true
  · exact Prod.Lex.left _ _ (FileSystem.unvisited_append_lt hfile hp)
  · rw [targets_of_missing hfile, List.nil_append]
    rcases Nat.lt_or_eq_of_le (s.files.unvisited_append_le seen [p]) with hlt | heq
    · exact Prod.Lex.left _ _ hlt
    · rw [heq]
      exact Prod.Lex.right _ (Nat.lt_succ_self _)

/-! ## The order

What is still to be done is kept as a list, in front of which the targets of the next file are put.
That is the depth first order without a second recursion into each file, and `visits_append` shows that
it is the same. -/

variable (s chosen) in
/-- The files come to from those in `todo` on, in order, when those in `seen` were opened before.  The
files that a file names come before what was still to be done. -/
def visits (seen todo : List Path) : List Path :=
  match todo with
  | [] => []
  | p :: todo =>
    if _hp : seen.any fun q => Path.Same q p then visits seen todo
    else p :: visits (seen ++ [p]) (s.targets chosen p ++ todo)
termination_by (s.files.unvisited seen, todo.length)
decreasing_by
  · exact Prod.Lex.right _ (Nat.lt_succ_self _)
  · exact targets_lt _hp

@[simp] theorem visits_nil (seen : List Path) : s.visits chosen seen [] = [] := by
  rw [visits]

/-- A file that was opened before is passed over. -/
theorem visits_cons_of_seen {seen todo : List Path} {p : Path} (hp : ∃ q ∈ seen, Path.Same q p) :
    s.visits chosen seen (p :: todo) = s.visits chosen seen todo := by
  rw [visits, dif_pos (by simpa using hp)]

/-- Any other is opened, and what it names comes next. -/
theorem visits_cons {seen todo : List Path} {p : Path} (hp : ∀ q ∈ seen, ¬ Path.Same q p) :
    s.visits chosen seen (p :: todo)
      = p :: s.visits chosen (seen ++ [p]) (s.targets chosen p ++ todo) := by
  rw [visits, dif_neg (by simpa using hp)]

/-- A file is done with, and all that it needs, before the next one is turned to. -/
theorem visits_append (seen todo later : List Path) :
    s.visits chosen seen (todo ++ later) = s.visits chosen seen todo
      ++ s.visits chosen (seen ++ s.visits chosen seen todo) later := by
  fun_induction visits s chosen seen todo with
  | case1 seen => simp
  | case2 seen p todo hp ih =>
    rw [List.cons_append, visits_cons_of_seen (by simpa using hp), ih]
  | case3 seen p todo hp ih =>
    rw [List.cons_append, visits_cons (by simpa using hp), ← List.append_assoc, ih,
      List.cons_append, List.append_assoc seen, List.singleton_append]

/-! ## Where it leads

The order is closed: whatever is named in a file that is come to is come to as well, or was opened
before.  So starting from one file it has everything that can be reached.  And nothing else, as each
file has a parent in front of it. -/

/-- A file is one of those to begin with, or it is named in a file come to before. -/
theorem parent_of_visits {seen todo before after : List Path} {p : Path}
    (h : s.visits chosen seen todo = before ++ p :: after) :
    p ∈ todo ∨ ∃ q ∈ before, s.Mentions chosen q p := by
  fun_induction visits s chosen seen todo generalizing before with
  | case1 => simp at h
  | case2 seen r todo _ ih =>
    rcases ih h with hp | hp
    · exact .inl (List.mem_cons_of_mem r hp)
    · exact .inr hp
  | case3 seen r todo _ ih =>
    cases before with
    | nil =>
      obtain ⟨rfl, -⟩ := List.cons.inj h
      exact .inl (List.mem_cons_self ..)
    | cons b before =>
      obtain ⟨rfl, hrest⟩ := List.cons.inj h
      rcases ih hrest with hp | ⟨q, hq, hmentions⟩
      · rcases List.mem_append.1 hp with hp | hp
        · exact .inr ⟨r, List.mem_cons_self .., mem_targets_iff.1 hp⟩
        · exact .inl (List.mem_cons_of_mem r hp)
      · exact .inr ⟨q, List.mem_cons_of_mem r hq, hmentions⟩

/-- A file that is come to can be reached. -/
theorem reaches_of_mem_visits {seen todo : List Path} {q : Path}
    (h : q ∈ s.visits chosen seen todo) :
    ∃ p ∈ todo, Relation.ReflTransGen (s.Mentions chosen) p q := by
  fun_induction visits s chosen seen todo with
  | case1 => simp at h
  | case2 seen r todo _ ih =>
    obtain ⟨p, hp, hreach⟩ := ih h
    exact ⟨p, List.mem_cons_of_mem r hp, hreach⟩
  | case3 seen r todo _ ih =>
    rcases List.mem_cons.1 h with rfl | h
    · exact ⟨q, List.mem_cons_self .., .refl⟩
    · obtain ⟨p, hp, hreach⟩ := ih h
      rcases List.mem_append.1 hp with hp | hp
      · exact ⟨r, List.mem_cons_self .., hreach.head (mem_targets_iff.1 hp)⟩
      · exact ⟨p, List.mem_cons_of_mem r hp, hreach⟩

variable (s chosen) in
/-- What is to be done, and what the files come to name, was opened before or is come to. -/
theorem visits_closed (seen todo : List Path) :
    (∀ p ∈ todo, ∃ q ∈ seen ++ s.visits chosen seen todo, Path.Same q p) ∧
    ∀ p ∈ s.visits chosen seen todo, ∀ r, s.Mentions chosen p r →
      ∃ q ∈ seen ++ s.visits chosen seen todo, Path.Same q r := by
  fun_induction visits s chosen seen todo with
  | case1 => simp
  | case2 seen a todo ha ih =>
    obtain ⟨hall, hclosed⟩ := ih
    refine ⟨fun p hp => ?_, hclosed⟩
    rcases List.mem_cons.1 hp with rfl | hp
    · obtain ⟨q, hq, hsame⟩ : ∃ q ∈ seen, Path.Same q p := by simpa using ha
      exact ⟨q, List.mem_append_left _ hq, hsame⟩
    · exact hall p hp
  | case3 seen a todo _ ih =>
    obtain ⟨hall, hclosed⟩ := ih
    rw [List.append_assoc, List.singleton_append] at hall hclosed
    refine ⟨fun p hp => ?_, fun p hp r hr => ?_⟩
    · rcases List.mem_cons.1 hp with rfl | hp
      · exact ⟨p, by simp, Path.Same.refl p⟩
      · exact hall p (List.mem_append_right _ hp)
    · rcases List.mem_cons.1 hp with rfl | hp
      · exact hall r (List.mem_append_left _ (mem_targets_iff.2 hr))
      · exact hclosed p hp r hr

/-- Starting from one file, exactly those that can be reached are come to. -/
theorem mem_visits_iff {p q : Path} (hp : p.Folded) :
    q ∈ s.visits chosen [] [p] ↔ Relation.ReflTransGen (s.Mentions chosen) p q := by
  constructor
  · intro h
    -- One direction is by the parents, the other one by closure.
    obtain ⟨r, hr, hreach⟩ := reaches_of_mem_visits h
    obtain rfl := List.mem_singleton.1 hr
    exact hreach
  · intro h
    -- What is come to is known up to spelling only, and folded paths have one spelling.
    have hfolded : ∀ r ∈ s.visits chosen [] [p], r.Folded := by
      intro r hr
      obtain ⟨_, hr', hreach⟩ := reaches_of_mem_visits hr
      obtain rfl := List.mem_singleton.1 hr'
      rcases Relation.ReflTransGen.cases_tail hreach with rfl | ⟨_, -, hlast⟩
      · exact hp
      · exact hlast.folded
    obtain ⟨hall, hclosed⟩ := visits_closed s chosen [] [p]
    rw [List.nil_append] at hall hclosed
    induction h with
    | refl =>
      obtain ⟨q, hq, hsame⟩ := hall p (List.mem_singleton_self p)
      rwa [(hfolded q hq).eq_of_same hp hsame] at hq
    | tail _ hedge ih =>
      obtain ⟨q, hq, hsame⟩ := hclosed _ ih _ hedge
      rwa [(hfolded q hq).eq_of_same hedge.folded hsame] at hq

end Surroundings
end Templating
