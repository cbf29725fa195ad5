import Templating.Disk.Basic
import Templating.Proofs.Path.Parts

/-!
# Paths below a path

What is found in a directory is named by the path of the directory with names behind it, one after the
other.  However the path of the directory is spelled, its own part of such a path can be told from the
names.

## What is here

* `Path.below` puts names behind a path; `Path.components_below` says which components that gives.
* `Path.relativeTo_parent_below`: the directory of what is below a path is, seen from there, spelled with
  the names and nothing else.
-/

set_option autoImplicit false

namespace Templating
namespace Path

open Component Disk

/-- The path with some names behind it. -/
def below (p : Path) (names : List Text) : Path := names.foldl (fun p n => p.join ⟨n⟩) p

/-- A name as it is spelled. -/
def spelledName (n : Text) : Option Component × Text := (some (.name n), n)

/-- The segments of a path, without an empty one behind a slash at its end. -/
def stem (p : Path) : List Text := if endsInSlash p then p.segments.dropLast else p.segments

variable {p base : Path} {n : Text} {names dirs : List Text}

/-! ## One name

A name is a segment without a slash that spells a component of its own: neither nothing, nor `.`, nor
`..`.  If it is put behind a path, the path keeps its segments and gets one more.  The only difference
that its spelling makes is a slash at its end, which is used and not doubled, so there the empty segment
behind it goes (`stem`). -/

/-- A name spells itself. -/
theorem ofSegment?_name (hn : Inner (.name n)) : ofSegment? n = some (.name n) := hn.2

theorem segments_name (hn : Inner (.name n)) : segments ⟨n⟩ = [n] := List.splitOn_eq_singleton hn.1

theorem isAbsolute_name (hn : Inner (.name n)) : isAbsolute ⟨n⟩ = false := by
  rw [isAbsolute, decide_eq_false_iff_not]
  exact fun h => hn.1 (List.mem_of_head? h)

/-- A slash is put in between unless there is one. -/
theorem text_join_name (hp : p.text ≠ []) (hn : Inner (.name n)) :
    (p.join ⟨n⟩).text = if endsInSlash p then p.text ++ n else p.text ++ '/' :: n := by
  rw [join, if_neg (by simp [isAbsolute_name hn, hp]), endsInSlash]
  simp only [decide_eq_true_eq]
  split
  · rfl
  · rfl

theorem join_name_ne_nil (hp : p.text ≠ []) (hn : Inner (.name n)) : (p.join ⟨n⟩).text ≠ [] := by
  rw [text_join_name hp hn]
  split
  · simp [hp]
  · simp

/-- One more component. -/
theorem components_join_name (hp : p.text ≠ []) (hn : Inner (.name n)) :
    (p.join ⟨n⟩).components = p.components ++ [.name n] := by
  rw [components_join hp (isAbsolute_name hn), segments_name hn,
    List.filterMap_cons_some (ofSegment?_name hn)]
  rfl

/-- The segments of a path with a slash at its end are those of the text in front of that slash. -/
theorem exists_stem_of_slash (h : endsInSlash p = true) :
    ∃ front, p.text = front ++ ['/'] ∧ p.stem = front.splitOn '/' := by
  obtain ⟨front, hfront⟩ := List.getLast?_eq_some_iff.1 (of_decide_eq_true h)
  refine ⟨front, hfront, ?_⟩
  rw [stem, if_pos h, segments, hfront, List.splitOn_append_cons_self, List.splitOn_nil,
    List.dropLast_concat]

theorem stem_of_not_slash (h : endsInSlash p = false) : p.stem = p.segments := by
  rw [stem, h, if_neg (by decide)]

/-- One more segment. -/
theorem segments_join_name (hp : p.text ≠ []) (hn : Inner (.name n)) :
    (p.join ⟨n⟩).segments = p.stem ++ [n] := by
  rw [segments, text_join_name hp hn, ← segments_name hn]
  cases hslash : endsInSlash p with
  | true =>
    obtain ⟨front, hfront, hstem⟩ := exists_stem_of_slash hslash
    rw [if_pos rfl, hstem, hfront, List.append_assoc]
    exact List.splitOn_append_cons_self front n
  | false =>
    rw [if_neg (by decide), stem_of_not_slash hslash]
    exact List.splitOn_append_cons_self p.text n

theorem stem_join_name (hp : p.text ≠ []) (hn : Inner (.name n)) :
    (p.join ⟨n⟩).stem = p.stem ++ [n] := by
  have hslash : endsInSlash (p.join ⟨n⟩) = false := by
    have hlast : n.getLast? ≠ some '/' := fun h => hn.1 (List.mem_of_getLast? h)
    have hne : n ≠ [] := hn.text_ne_nil
    rw [endsInSlash, decide_eq_false_iff_not, text_join_name hp hn]
    split
    · rwa [List.getLast?_append_of_ne_nil _ hne]
    · rwa [List.getLast?_append_of_ne_nil _ (List.cons_ne_nil _ _), List.getLast?_cons_of_ne_nil hne]
  rw [stem_of_not_slash hslash, segments_join_name hp hn]

/-! ## Some names

Names are put behind a path one after the other, so what holds of one name holds of all, by induction on
the names from the front. -/

/-- The components of the path, and then the names. -/
theorem components_below (hp : p.text ≠ []) (hnames : ∀ n ∈ names, Inner (.name n)) :
    (p.below names).components = p.components ++ names.map .name := by
  induction names generalizing p with
  | nil => exact (List.append_nil _).symm
  | cons n names ih =>
    have hn := hnames n (List.mem_cons_self ..)
    rw [below, List.foldl_cons]
    refine (ih (join_name_ne_nil hp hn) fun m hm => hnames m (List.mem_cons_of_mem _ hm)).trans ?_
    rw [components_join_name hp hn, List.map_cons, List.append_assoc, List.singleton_append]

/-- The segments of the path, and then the names. -/
theorem segments_below (hp : p.text ≠ []) (hnames : ∀ n ∈ names, Inner (.name n)) (hne : names ≠ []) :
    (p.below names).segments = p.stem ++ names := by
  induction names generalizing p with
  | nil => exact absurd rfl hne
  | cons n names ih =>
    have hn := hnames n (List.mem_cons_self ..)
    rw [below, List.foldl_cons]
    by_cases hnil : names = []
    · rw [hnil]
      exact segments_join_name hp hn
    · refine (ih (join_name_ne_nil hp hn) (fun m hm => hnames m (List.mem_cons_of_mem _ hm)) hnil).trans ?_
      rw [stem_join_name hp hn, List.append_assoc, List.singleton_append]

theorem below_ne_nil (hp : p.text ≠ []) (hnames : ∀ n ∈ names, Inner (.name n)) :
    (p.below names).text ≠ [] := by
  intro hnil
  by_cases hne : names = []
  · rw [hne] at hnil
    exact hp hnil
  · have hcomponents := components_below hp hnames
    rw [components_empty hnil, eq_comm, List.append_eq_nil_iff, List.map_eq_nil_iff] at hcomponents
    exact hne hcomponents.2

/-- The last of the names is the name of the file. -/
theorem fileName?_below (hp : p.text ≠ []) (hnames : ∀ m ∈ dirs ++ [n], Inner (.name m)) :
    (p.below (dirs ++ [n])).fileName? = some n := by
  rw [fileName?, components_below hp hnames, List.map_append, ← List.append_assoc, List.map_singleton,
    List.getLast?_concat]

theorem same_below (hp : p.text ≠ []) (hbase : base.text ≠ []) (h : Same p base)
    (hnames : ∀ n ∈ names, Inner (.name n)) : Same (p.below names) (base.below names) := by
  rw [Same, components_below hp hnames, components_below hbase hnames, h]

/-- What is below a path is told apart by its names. -/
theorem names_eq_of_same_below {names' : List Text} (hp : p.text ≠ [])
    (hnames : ∀ n ∈ names, Inner (.name n)) (hnames' : ∀ n ∈ names', Inner (.name n))
    (h : Same (p.below names) (p.below names')) : names = names' := by
  rw [Same, components_below hp hnames, components_below hp hnames'] at h
  exact List.map_injective_iff.2 (fun _ _ => Component.name.inj) (List.append_cancel_left h)

/-! ## Seen from the path

A file below a directory is named, in a report and in the choice of fixtures, by what its path has more
than the path of the directory.  The components of the directory are matched from the front, whatever
else is spelled in between, and the rest is written down as a path.  Since names have no other spelling,
that is the names with slashes between them. -/

theorem stem_ne_nil (p : Path) : p.stem ≠ [] := by
  cases hslash : endsInSlash p with
  | true =>
    obtain ⟨front, -, hstem⟩ := exists_stem_of_slash hslash
    rw [hstem]
    exact List.splitOn_ne_nil '/' front
  | false =>
    rw [stem_of_not_slash hslash]
    exact p.segments_ne_nil

theorem slash_not_mem_stem {segment : Text} (h : segment ∈ p.stem) : '/' ∉ segment := by
  rw [stem] at h
  split at h
  · exact slash_not_mem_segments (List.dropLast_subset _ h)
  · exact slash_not_mem_segments h

/-- Without the empty segment at its end a path spells what it did. -/
theorem filterMap_spellAll_stem (hp : p.text ≠ []) :
    (spellAll p.stem).filterMap Prod.fst = p.components := by
  rw [components_eq_spellAll hp]
  cases hslash : endsInSlash p with
  | true =>
    obtain ⟨front, hfront, hstem⟩ := exists_stem_of_slash hslash
    have hsegments : p.segments = p.stem ++ [[]] := by
      rw [segments, hfront, hstem, List.splitOn_append_cons_self, List.splitOn_nil]
    rw [hsegments, spellAll_append p.stem_ne_nil, List.filterMap_append]
    exact (List.append_nil _).symm
  | false => rw [stem_of_not_slash hslash]

theorem spellAll_stem_append (p : Path) (hnames : ∀ n ∈ names, Inner (.name n)) :
    spellAll (p.stem ++ names) = spellAll p.stem ++ names.map spelledName := by
  rw [spellAll_append p.stem_ne_nil]
  congr 1
  exact List.map_congr_left fun n hn => by rw [ofSegment?_name (hnames n hn), spelledName]

/-- What is left of a path behind the components of another one, which come first in its spelling. -/
theorem unmatched_append (front rest : List (Option Component × Text)) :
    ∃ blanks : List (Option Component × Text), (∀ part ∈ blanks, part.1.isNone = true) ∧
      unmatched (front.filterMap Prod.fst) (front ++ rest) = some (blanks ++ rest) := by
  induction front with
  | nil => exact ⟨[], by simp, by rw [List.filterMap_nil, unmatched, List.nil_append]⟩
  | cons part front ih =>
    obtain ⟨blanks, hblanks, hrest⟩ := ih
    -- A part that spells nothing is either passed over or kept in front of the rest.
    obtain ⟨c, s⟩ := part
    cases c with
    | some c =>
      have hfst : ((some c, s) :: front).filterMap Prod.fst = c :: front.filterMap Prod.fst := rfl
      exact ⟨blanks, hblanks, by rw [hfst, List.cons_append, unmatched, if_pos rfl, hrest]⟩
    | none =>
      rw [List.filterMap_cons_none rfl]
      cases hfront : front.filterMap Prod.fst with
      | nil =>
        refine ⟨(none, s) :: front, ?_, by rw [unmatched]⟩
        simpa [List.filterMap_eq_nil_iff] using hfront
      | cons c cs =>
        rw [hfront] at hrest
        exact ⟨blanks, hblanks, by rw [List.cons_append, unmatched, hrest]⟩

/-- All names spell something. -/
theorem isNone_of_mem_names {part : Option Component × Text} (h : part ∈ names.map spelledName) :
    part.1.isNone = false := by
  obtain ⟨n, -, rfl⟩ := List.mem_map.1 h
  rfl

/-- So what spells nothing behind them can be dropped, and they stay. -/
theorem rdropWhile_append_names {blanks : List (Option Component × Text)}
    (hblanks : ∀ part ∈ blanks, part.1.isNone = true) (names : List Text) :
    (names.map spelledName ++ blanks).rdropWhile (·.1.isNone) = names.map spelledName := by
  rw [List.rdropWhile, List.reverse_append,
    List.dropWhile_append_of_pos fun part hpart => hblanks part (List.mem_reverse.1 hpart)]
  refine List.rdropWhile_eq_self_iff.2 fun hne => ?_
  rw [isNone_of_mem_names (List.getLast_mem hne)]
  decide

/-- A path that is spelled with names is written with them. -/
theorem ofSpelled_names {blanks : List (Option Component × Text)}
    (hblanks : ∀ part ∈ blanks, part.1.isNone = true) (names : List Text) :
    ofSpelled ((names.map spelledName ++ blanks).dropWhile (·.1.isNone))
      = ⟨['/'].intercalate names⟩ := by
  have hfront : (names.map spelledName).map Prod.fst ≠ [some root] := by
    cases names with
    | nil => exact nofun
    | cons n names => exact fun h => nomatch (List.cons.inj h).1
  have hback : (names.map spelledName).map Prod.snd = names := by
    rw [List.map_map]
    exact List.map_id names
  cases names with
  | nil =>
    rw [List.map_nil, List.nil_append, List.dropWhile_eq_nil_iff.2 hblanks]
    rfl
  | cons n names =>
    have hdrop : (((n :: names).map spelledName) ++ blanks).dropWhile (·.1.isNone)
        = (n :: names).map spelledName ++ blanks := by
      rw [List.map_cons, List.cons_append]
      exact List.dropWhile_cons_of_neg (by simp [spelledName])
    rw [hdrop, ofSpelled]
    show (if (((n :: names).map spelledName ++ blanks).rdropWhile (·.1.isNone)).map Prod.fst
        = [some root] then ⟨['/']⟩ else (⟨['/'].intercalate
          ((((n :: names).map spelledName ++ blanks).rdropWhile (·.1.isNone)).map Prod.snd)⟩ : Path))
      = _
    rw [rdropWhile_append_names hblanks, if_neg hfront, hback]

/-- Names behind a path do not end in segments that spell nothing. -/
theorem rdropWhile_append_spelledName (front : List (Option Component × Text)) (hne : names ≠ []) :
    (front ++ names.map spelledName).rdropWhile (·.1.isNone) = front ++ names.map spelledName := by
  obtain ⟨names, n, rfl⟩ := (List.eq_nil_or_concat' names).resolve_left hne
  rw [List.map_append, List.map_singleton, ← List.append_assoc]
  exact List.rdropWhile_concat_neg _ _ _ (by simp [spelledName])

/-- **Seen from a path, the directory of what is below it is named by the names on the way.** -/
theorem relativeTo?_parent_below (hp : p.text ≠ []) (hnames : ∀ m ∈ dirs ++ [n], Inner (.name m)) :
    (p.below (dirs ++ [n])).parent? >>= (relativeTo? · p) = some ⟨['/'].intercalate dirs⟩ := by
  have hdirs : ∀ m ∈ dirs, Inner (.name m) := fun m hm => hnames m (List.mem_append_left _ hm)
  have hspelled : (p.below (dirs ++ [n])).spelled
      = spellAll (p.stem ++ dirs) ++ [n].map spelledName := by
    rw [spelled_eq (below_ne_nil hp hnames), segments_below hp hnames (by simp),
      spellAll_stem_append p hnames, spellAll_stem_append p hdirs, List.map_append,
      List.append_assoc]
  have hlast : (p.below (dirs ++ [n])).spelled.rdropWhile (·.1.isNone)
      = spellAll (p.stem ++ dirs) ++ [(some (.name n), n)] := by
    rw [hspelled]
    exact rdropWhile_append_spelledName _ (List.cons_ne_nil n [])
  rw [parent?_of_concat hlast, if_neg (by simp)]
  show relativeTo? _ p = _
  -- What the path itself spells comes first, then the names, and nothing that counts is behind them.
  have hslash : ∀ s ∈ p.stem ++ dirs, '/' ∉ s := fun s hs =>
    (List.mem_append.1 hs).elim slash_not_mem_stem fun h => (hdirs s h).1
  obtain ⟨blanks, hblanks, hparent⟩ := spelled_ofSpelled hslash
  obtain ⟨front, hfront, hparts⟩ : ∃ front : List (Option Component × Text),
      front.filterMap Prod.fst = p.components ∧
        (spellAll (p.stem ++ dirs)).rdropWhile (·.1.isNone) = front ++ dirs.map spelledName := by
    rw [spellAll_stem_append p hdirs]
    by_cases hnil : dirs = []
    · refine ⟨(spellAll p.stem).rdropWhile (·.1.isNone), ?_, ?_⟩
      · rw [filterMap_rdropWhile, filterMap_spellAll_stem hp]
      · rw [hnil, List.map_nil, List.append_nil, List.append_nil]
    · exact ⟨spellAll p.stem, filterMap_spellAll_stem hp, rdropWhile_append_spelledName _ hnil⟩
  obtain ⟨passed, hpassed, hrest⟩ := unmatched_append front (dirs.map spelledName ++ blanks)
  rw [hfront, ← List.append_assoc, ← hparts, ← hparent] at hrest
  rw [relativeTo?, hrest, Option.map_some, List.dropWhile_append_of_pos hpassed,
    ofSpelled_names hblanks]

end Path
end Templating
