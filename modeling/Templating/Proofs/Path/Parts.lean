import Mathlib.Data.List.DropRight
import Templating.Proofs.Path.Folded

/-!
# The parts of a path

Taking the last component off a path and putting a reference behind it are done on the spelling of the
path.  Here it is said what they do to its components: the spelling does not matter.

## What is here

* `Path.spellAll` reads the segments of a path, whatever it begins with (`Path.spelled_eq`).
* `Path.components_parent` says that the directory of a path is all but the last component, and
  `Path.foldComponents_join` that a reference comes behind the components of its base.
* `Path.isAbsolute_iff` tells absolute paths by their components.
-/

set_option autoImplicit false

namespace Templating
namespace Path

open Component

/-! ## Segments

The text of a path is split at its slashes, and each segment spells a component or nothing.  Only the
first segment is special: there the empty text spells the root and a `.` counts.  The segments and what
they spell are kept beside each other, because what is taken off a path is written down again from the
segments that are left. -/

/-- What the first segment of a path spells, if the path is not empty: nothing in front of a slash is
the root. -/
def front? (segment : Text) : Option Component :=
  if segment = [] then some root else if segment = ['.'] then some here else ofSegment? segment

/-- The root is spelled by nothing in front of the first slash, and by that alone. -/
theorem front?_eq_root_iff {segment : Text} : front? segment = some root ↔ segment = [] := by
  rw [front?]
  split
  · next h => exact ⟨fun _ => h, fun _ => rfl⟩
  · next h =>
    refine ⟨fun hroot => ?_, fun hnil => absurd hnil h⟩
    split at hroot
    · cases hroot
    · exact absurd (ofSegment?_eq_some hroot).2 (by decide)

/-- The segments of a path that is not empty, each beside the component it spells. -/
def spellAll : List Text → List (Option Component × Text)
  | [] => []
  | segment :: segments => (front? segment, segment) :: segments.map fun s => (ofSegment? s, s)

/-- Segments that come later are not special. -/
theorem spellAll_append {segments : List Text} (h : segments ≠ []) (more : List Text) :
    spellAll (segments ++ more) = spellAll segments ++ more.map fun s => (ofSegment? s, s) := by
  cases segments with
  | nil => exact absurd rfl h
  | cons segment segments => rw [List.cons_append, spellAll, spellAll, List.map_append, List.cons_append]

theorem take_spellAll (segments : List Text) (n : Nat) :
    (spellAll segments).take n = spellAll (segments.take n) := by
  cases segments with
  | nil => rw [List.take_nil, spellAll, List.take_nil]
  | cons segment segments =>
    cases n with
    | zero => rfl
    | succ n => rw [spellAll, List.take_succ_cons, List.take_succ_cons, spellAll, List.map_take]

theorem map_snd_spellAll (segments : List Text) : (spellAll segments).map Prod.snd = segments := by
  cases segments with
  | nil => rfl
  | cons segment segments => rw [spellAll, List.map_cons, List.map_map]; exact congrArg _ (List.map_id _)

theorem segments_ne_nil (p : Path) : p.segments ≠ [] := List.splitOn_ne_nil '/' p.text

theorem slash_not_mem_segments {p : Path} {segment : Text} (h : segment ∈ p.segments) :
    '/' ∉ segment := Text.not_mem_of_mem_splitOn h

/-- A path that is not empty is read segment by segment. -/
theorem spelled_eq {p : Path} (h : p.text ≠ []) : p.spelled = spellAll p.segments := by
  rw [spelled]
  split
  · next hnil => exact absurd hnil h
  · next rest hslash =>
    have hsegments : p.segments = [] :: rest.splitOn '/' := by
      rw [segments, hslash]
      exact List.splitOn_append_cons_self [] rest
    rw [hsegments]
    rfl
  · next c rest hslash htext =>
    obtain ⟨segment, segments, hsegments⟩ := List.exists_cons_of_ne_nil p.segments_ne_nil
    have hfirst : segment ≠ [] := by
      rintro rfl
      -- A first segment with nothing in it stands in front of a slash.
      rw [Path.segments, htext, List.splitOn_cons_eq_if_modifyHead] at hsegments
      split at hsegments
      · next hc => exact hslash (by simpa using hc)
      · obtain ⟨first, others, hsplit⟩ :=
          List.exists_cons_of_ne_nil (List.splitOn_ne_nil '/' rest)
        rw [hsplit] at hsegments
        exact List.cons_ne_nil _ _ (List.cons.inj hsegments).1
    split
    · next rest' hdot =>
      rw [hdot]
      rfl
    · next hdot =>
      have hdot' : segment ≠ ['.'] := by
        rintro rfl
        exact hdot segments hsegments
      rw [hsegments, spellAll, front?, if_neg hfirst, if_neg hdot', List.map_cons]

/-- Its components are what its segments spell. -/
theorem components_eq_spellAll {p : Path} (h : p.text ≠ []) :
    p.components = (spellAll p.segments).filterMap Prod.fst := by
  rw [components, spelled_eq h]

/-- A path written from segments spells what they do. -/
theorem spelled_intercalate {segments : List Text} (hslash : ∀ s ∈ segments, '/' ∉ s)
    (hne : segments ≠ []) (hempty : segments ≠ [[]]) :
    spelled ⟨['/'].intercalate segments⟩ = spellAll segments := by
  have hsplit : (['/'].intercalate segments).splitOn '/' = segments :=
    List.splitOn_intercalate '/' hslash hne
  have htext : ['/'].intercalate segments ≠ [] := by
    intro hnil
    rw [hnil, List.splitOn_nil] at hsplit
    exact hempty hsplit.symm
  have hspelled := spelled_eq (p := ⟨['/'].intercalate segments⟩) htext
  rwa [Path.segments, hsplit] at hspelled

/-! ## The front of a path

What a path begins with says if it is empty, absolute or relative.  Its components say the same, so two
spellings of a path agree on it. -/

theorem components_empty {p : Path} (h : p.text = []) : p.components = [] := by
  rw [components, spelled, h]
  rfl

/-- The first segment always spells something. -/
theorem front?_isSome (segment : Text) : (front? segment).isSome = true := by
  rw [front?]
  split
  · rfl
  · next hempty =>
    split
    · rfl
    · next hdot =>
      rw [ofSegment?, if_neg (not_or.2 ⟨hempty, hdot⟩)]
      split <;> rfl

/-- Only the empty path spells nothing. -/
theorem components_eq_nil_iff {p : Path} : p.components = [] ↔ p.text = [] := by
  refine ⟨fun hnil => by_contra fun htext => ?_, components_empty⟩
  obtain ⟨segment, segments, hsegments⟩ := List.exists_cons_of_ne_nil p.segments_ne_nil
  obtain ⟨c, hc⟩ := Option.isSome_iff_exists.1 (front?_isSome segment)
  rw [components_eq_spellAll htext, hsegments, spellAll, hc] at hnil
  cases hnil

/-- An absolute path spells the root, and then what its segments do. -/
theorem components_of_absolute {p : Path} (h : p.isAbsolute = true) :
    p.components = root :: p.segments.filterMap ofSegment? := by
  obtain ⟨rest, hrest⟩ : ∃ rest, p.text = '/' :: rest := by
    rw [isAbsolute, decide_eq_true_eq] at h
    exact List.head?_eq_some_iff.1 h
  obtain ⟨text⟩ := p
  obtain rfl : text = '/' :: rest := hrest
  have hsegments : segments ⟨'/' :: rest⟩ = [] :: rest.splitOn '/' :=
    List.splitOn_append_cons_self [] rest
  rw [components_slash, hsegments]
  rfl

/-- A relative path spells what its segments do, behind a `.` that may be its first one. -/
theorem components_of_relative {p : Path} (h : p.isAbsolute = false) :
    p.components = p.segments.filterMap ofSegment? ∨
      p.components = here :: p.segments.filterMap ofSegment? := by
  by_cases htext : p.text = []
  · left
    rw [components_empty htext, segments, htext]
    rfl
  · obtain ⟨segment, segments, hsegments⟩ := List.exists_cons_of_ne_nil p.segments_ne_nil
    have hfirst : segment ≠ [] := by
      rintro rfl
      have hjoin : ['/'].intercalate p.segments = p.text := List.intercalate_splitOn '/'
      rw [hsegments] at hjoin
      cases segments with
      | nil => exact htext hjoin.symm
      | cons s segments =>
        rw [List.intercalate_cons_cons] at hjoin
        simp [isAbsolute, ← hjoin] at h
    rw [components_eq_spellAll htext, hsegments, spellAll, front?, if_neg hfirst]
    split
    · next hdot =>
      right
      rw [hdot, filterMap_front]
      rfl
    · left
      rw [← List.map_cons (f := fun s => (ofSegment? s, s)), filterMap_inner]

/-- A path is absolute if its first component is the root. -/
theorem isAbsolute_iff {p : Path} : p.isAbsolute = true ↔ p.components.head? = some root := by
  constructor
  · intro h
    rw [components_of_absolute h]
    rfl
  · intro h
    by_contra habsolute
    have hinner (c : Component) (hc : c ∈ p.segments.filterMap ofSegment?) : c ≠ root :=
      (inner_of_mem_segments (fun _ => slash_not_mem_segments) hc).ne_root
    rcases components_of_relative (Bool.eq_false_iff.2 habsolute) with hp | hp
    · rw [hp] at h
      exact hinner _ (List.mem_of_head? h) rfl
    · rw [hp] at h
      cases h

/-! ## The directory of a path

To take the last component off a path, the segments at its end that spell nothing go first, then the one
that spells the component, and what is left is written down as a path.  The writing may add blanks: of
an absolute path with one component there is only the root left, which is a slash with nothing on either
side.  None of that changes the components. -/

/-- The segments at the end that spell nothing do not count. -/
theorem filterMap_rdropWhile (parts : List (Option Component × Text)) :
    (parts.rdropWhile (·.1.isNone)).filterMap Prod.fst = parts.filterMap Prod.fst := by
  conv_rhs => rw [← List.rdropWhile_append_rtakeWhile (p := (·.1.isNone)) (l := parts)]
  have hnone : (parts.rtakeWhile (·.1.isNone)).filterMap Prod.fst = [] := by
    refine List.filterMap_eq_nil_iff.2 fun part hpart => ?_
    simpa using List.mem_rtakeWhile_imp hpart
  rw [List.filterMap_append, hnone, List.append_nil]

/-- A path written from segments spells what they do, up to the last component. -/
theorem spelled_ofSpelled {segments : List Text} (hslash : ∀ s ∈ segments, '/' ∉ s) :
    ∃ blanks : List (Option Component × Text), (∀ part ∈ blanks, part.1.isNone = true) ∧
      (ofSpelled (spellAll segments)).spelled
        = (spellAll segments).rdropWhile (·.1.isNone) ++ blanks := by
  rw [ofSpelled]
  show ∃ blanks : List (Option Component × Text), _ ∧
    spelled (if ((spellAll segments).rdropWhile (·.1.isNone)).map Prod.fst = [some root] then
      ⟨['/']⟩ else ⟨['/'].intercalate (((spellAll segments).rdropWhile (·.1.isNone)).map Prod.snd)⟩)
    = _
  obtain ⟨n, hkept⟩ : ∃ n, (spellAll segments).rdropWhile (·.1.isNone)
      = spellAll (segments.take n) :=
    ⟨_, (List.prefix_iff_eq_take.1 (List.rdropWhile_prefix _ _)).trans (take_spellAll _ _)⟩
  rw [hkept, map_snd_spellAll]
  have hslash' : ∀ s ∈ segments.take n, '/' ∉ s := fun s hs => hslash s (List.mem_of_mem_take hs)
  generalize segments.take n = kept at hslash' ⊢
  by_cases hnil : kept = []
  · subst hnil
    exact ⟨[], by simp, rfl⟩
  · by_cases hempty : kept = [[]]
    · subst hempty
      exact ⟨[(none, [])], by simp, rfl⟩
    · refine ⟨[], by simp, ?_⟩
      rw [List.append_nil, if_neg, spelled_intercalate hslash' hnil hempty]
      intro hroot
      obtain ⟨segment, kept, rfl⟩ := List.exists_cons_of_ne_nil hnil
      rw [spellAll, List.map_cons, List.cons.injEq, List.map_map, List.map_eq_nil_iff] at hroot
      rw [front?_eq_root_iff.1 hroot.1, hroot.2] at hempty
      exact hempty rfl

/-- A path written from segments has the components that they spell. -/
theorem components_ofSpelled {segments : List Text} (hslash : ∀ s ∈ segments, '/' ∉ s) :
    (ofSpelled (spellAll segments)).components = (spellAll segments).filterMap Prod.fst := by
  obtain ⟨blanks, hblanks, hspelled⟩ := spelled_ofSpelled hslash
  have hnone : blanks.filterMap Prod.fst = [] :=
    List.filterMap_eq_nil_iff.2 fun part hpart => by simpa using hblanks part hpart
  rw [components, hspelled, List.filterMap_append, hnone, List.append_nil, filterMap_rdropWhile]

/-- What is kept of a path without the segments at its end that spell nothing ends in a component. -/
theorem rdropWhile_cases (parts : List (Option Component × Text)) :
    parts.rdropWhile (·.1.isNone) = [] ∨
      ∃ front c s, parts.rdropWhile (·.1.isNone) = front ++ [(some c, s)] := by
  rcases List.eq_nil_or_concat (parts.rdropWhile (·.1.isNone)) with hnil | ⟨front, ⟨c, s⟩, hlast⟩
  · exact .inl hnil
  · rw [List.concat_eq_append] at hlast
    have hsome := List.rdropWhile_last_not (p := (·.1.isNone)) (l := parts) (by simp [hlast])
    simp only [hlast, List.getLast_append_singleton] at hsome
    cases c with
    | none => exact absurd rfl hsome
    | some c => exact .inr ⟨front, c, s, hlast⟩

/-- A path that spells nothing has no directory. -/
theorem parent?_of_nil {p : Path} (h : p.spelled.rdropWhile (·.1.isNone) = []) : p.parent? = none := by
  rw [List.rdropWhile, List.reverse_eq_nil_iff] at h
  rw [parent?, h]

/-- All paths that end in a component have one, but for the root. -/
theorem parent?_of_concat {p : Path} {front : List (Option Component × Text)} {c : Component}
    {s : Text} (h : p.spelled.rdropWhile (·.1.isNone) = front ++ [(some c, s)]) :
    p.parent? = if c = root then none else some (ofSpelled front) := by
  rw [List.rdropWhile, List.reverse_eq_iff, List.reverse_append, List.reverse_singleton,
    List.singleton_append] at h
  rw [parent?, h]
  cases c with
  | root => rfl
  | here => exact congrArg (some <| ofSpelled ·) (List.reverse_reverse front)
  | up => exact congrArg (some <| ofSpelled ·) (List.reverse_reverse front)
  | name n => exact congrArg (some <| ofSpelled ·) (List.reverse_reverse front)

/-- The root, and nothing else, stands in front of the first slash. -/
theorem eq_nil_of_spellAll {segments : List Text} {front : List (Option Component × Text)} {s : Text}
    (h : spellAll segments = front ++ [(some root, s)]) : front = [] := by
  cases front with
  | nil => rfl
  | cons part front =>
    cases segments with
    | nil => cases h
    | cons segment segments =>
      have hmem : (some root, s) ∈ segments.map fun s => (ofSegment? s, s) := by
        rw [(List.cons.inj h).2]
        exact List.mem_append_right _ (List.mem_singleton_self _)
      obtain ⟨segment', -, heq⟩ := List.mem_map.1 hmem
      exact absurd (ofSegment?_eq_some (Prod.mk.inj heq).1).2 (by decide)

/-- The directory of a path is all of it but the last component. -/
theorem components_parent (p : Path) :
    (p.parent?.getD ⟨[]⟩).components = p.components.dropLast := by
  rw [components.eq_1 p, ← filterMap_rdropWhile]
  rcases rdropWhile_cases p.spelled with hnil | ⟨front, c, s, hlast⟩
  · rw [parent?_of_nil hnil, hnil]
    rfl
  · -- The empty path spells nothing and was dealt with.
    have htext : p.text ≠ [] := by
      intro htext
      rw [spelled, htext] at hlast
      simp at hlast
    have hkept : p.spelled.rdropWhile (·.1.isNone) = spellAll _ :=
      (List.prefix_iff_eq_take.1 (List.rdropWhile_prefix _ _)).trans
        (by rw [spelled_eq htext, take_spellAll])
    rw [hlast] at hkept
    have hcomponent : [((some c : Option Component), s)].filterMap Prod.fst = [c] := rfl
    rw [parent?_of_concat hlast, hlast, List.filterMap_append, hcomponent, List.dropLast_concat]
    split
    · next hroot =>
      subst hroot
      rw [eq_nil_of_spellAll hkept.symm]
      rfl
    · -- What stands in front of the last component is a front of the segments, too.
      have hfront : front = spellAll _ :=
        (List.prefix_iff_eq_take.1 ⟨_, hkept⟩).trans (take_spellAll _ _)
      rw [Option.getD_some, hfront]
      exact components_ofSpelled fun s hs =>
        slash_not_mem_segments (List.mem_of_mem_take (List.mem_of_mem_take hs))

/-! ## A reference behind a path

A relative reference is written behind its base, with a slash in between if there is none yet.  A `.`
that it begins with is no longer at the front there and is dropped, so the components differ by that;
folding them drops it anyway. -/

/-- A `.` makes no difference once the components are folded. -/
theorem foldComponents_here (cs cs' : List Component) :
    foldComponents (cs ++ here :: cs') = foldComponents (cs ++ cs') := by
  rw [foldComponents, foldComponents, List.foldl_append, List.foldl_append, List.foldl_cons]
  have hstep (stack : List Component) : foldStep stack here = stack := by
    rw [foldStep.eq_def]
  rw [hstep]

/-- The components of the base, and then those that the segments of the reference spell. -/
theorem components_join {base reference : Path} (hbase : base.text ≠ [])
    (h : reference.isAbsolute = false) :
    (join base reference).components
      = base.components ++ reference.segments.filterMap ofSegment? := by
  have hinner := filterMap_inner reference.segments
  rw [join, if_neg (by simp [h, hbase])]
  split
  · next hslash =>
    -- The slash at the end of the base is there already.
    obtain ⟨front, hfront⟩ := List.getLast?_eq_some_iff.1 hslash
    have hjoined : Path.segments ⟨base.text ++ reference.text⟩
        = front.splitOn '/' ++ reference.segments := by
      rw [Path.segments, hfront, List.append_assoc]
      exact List.splitOn_append_cons_self front reference.text
    have hsegments : base.segments = front.splitOn '/' ++ [[]] := by
      rw [Path.segments, hfront, List.splitOn_append_cons_self, List.splitOn_nil]
    have hne := List.splitOn_ne_nil '/' front
    rw [components_eq_spellAll hbase, components_eq_spellAll (by simp [hbase]), hjoined, hsegments,
      spellAll_append hne, spellAll_append hne, List.filterMap_append, List.filterMap_append, hinner]
    rw [List.append_assoc]
    rfl
  · have hjoined : Path.segments ⟨base.text ++ '/' :: reference.text⟩
        = base.segments ++ reference.segments := List.splitOn_append_cons_self _ _
    rw [components_eq_spellAll hbase, components_eq_spellAll (by simp), hjoined,
      spellAll_append base.segments_ne_nil, List.filterMap_append, hinner]

/-- Where the parts of a path come from does not matter once it is folded: a reference comes behind
its base. -/
theorem foldComponents_join {base reference : Path} (h : reference.isAbsolute = false) :
    foldComponents (join base reference).components
      = foldComponents (base.components ++ reference.components) := by
  by_cases hbase : base.text = []
  · rw [join, if_pos (.inr hbase), components_empty hbase, List.nil_append]
  · rw [components_join hbase h]
    rcases components_of_relative h with hreference | hreference
    · rw [hreference]
    · rw [hreference, foldComponents_here]

/-- Two spellings of a path have one absolute form. -/
theorem absolute?_of_same {p q cwd : Path} (h : Same p q) : p.absolute? cwd = q.absolute? cwd := by
  have htext : p.text = [] ↔ q.text = [] := by
    rw [← components_eq_nil_iff, ← components_eq_nil_iff, h]
  have habsolute : p.isAbsolute = q.isAbsolute := by
    rw [Bool.eq_iff_iff, isAbsolute_iff, isAbsolute_iff, h]
  rw [absolute?, absolute?]
  by_cases hp : p.text = []
  · rw [if_pos hp, if_pos (htext.1 hp)]
  rw [if_neg hp, if_neg (htext.not.1 hp), fold, fold]
  cases hrelative : q.isAbsolute with
  | true =>
    rw [join, join, if_pos (.inl (habsolute.trans hrelative)), if_pos (.inl hrelative), h]
  | false =>
    rw [foldComponents_join (habsolute.trans hrelative), foldComponents_join hrelative, h]

end Path
end Templating
