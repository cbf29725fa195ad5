import Templating.Include.Expansion
import Templating.Proofs.Block.Scan

/-!
# Markers around included files

The lines that expansion puts around an included file are whole lines of their own, and as long as the
path in them has no delimiter, they have none.

## What is here

* `Attribute.infix_of_find`: the value of an attribute is a part of the body of its tag.
* `IncludeTag.head?_beginMarker`, `getLast?_beginMarker` and those of `endMarker`: where the lines begin
  and end; `IncludeTag.plain_beginMarker` and `plain_endMarker`: what is in them.
* `IncludeTag.infix_beginMarker_iff` and `infix_endMarker_iff`: a mark that the lines do not have of
  their own is in them only if the path has it.
-/

set_option autoImplicit false

namespace Templating

/-! ## Values of attributes

The path that a marker quotes is written in a tag.  It is a part of the body of that tag, and the body
has no closing delimiter. -/

namespace Attribute

/-- What follows the opening quote is the end of the text. -/
theorem suffix_of_candidate? {name t rest : Text} (h : candidate? name t = some rest) :
    rest <:+ t := by
  rw [candidate?] at h
  obtain ⟨afterName, hname, h⟩ := Option.bind_eq_some_iff.1 h
  obtain ⟨afterEquals, hequals, hquote⟩ := Option.bind_eq_some_iff.1 h
  have hrest : rest <:+ Text.trimStart afterEquals :=
    ⟨['"'], (Text.after?_eq_some_iff.1 hquote).symm⟩
  have hafterEquals : afterEquals <:+ Text.trimStart afterName :=
    ⟨['='], (Text.after?_eq_some_iff.1 hequals).symm⟩
  have hafterName : afterName <:+ t := ⟨name, (Text.after?_eq_some_iff.1 hname).symm⟩
  have hvalue : rest <:+ afterEquals := hrest.trans (List.dropWhile_suffix _)
  have hequals' : afterEquals <:+ afterName := hafterEquals.trans (List.dropWhile_suffix _)
  exact hvalue.trans (hequals'.trans hafterName)

/-- The value is the front of that. -/
theorem infix_of_read {t value : Text} (h : read t = .ok value) : value <:+: t := by
  rw [read] at h
  split at h
  · simp at h
  · next front back hcut =>
    split at h
    · simp at h
    · cases h
      rw [Text.cut?_eq_some hcut, List.append_assoc]
      exact (List.prefix_append _ _).isInfix

/-- Wherever the attribute is found, its value is a part of the text. -/
theorem infix_of_findFrom {name : Text} {atWord : Bool} {t value : Text}
    (h : findFrom name atWord t = .ok value) : value <:+: t := by
  induction t generalizing atWord with
  | nil => simp [findFrom] at h
  | cons c t ih =>
    rw [findFrom] at h
    split at h
    · next rest hcandidate =>
      have hsuffix : rest <:+ c :: t := by
        cases atWord with
        | false => simp at hcandidate
        | true => exact suffix_of_candidate? hcandidate
      exact (infix_of_read h).trans hsuffix.isInfix
    · exact (ih h).trans (List.suffix_cons c t).isInfix

/-- The value of an attribute is a part of the body. -/
theorem infix_of_find {name body value : Text} (h : find name body = .ok value) :
    value <:+: body :=
  infix_of_findFrom h

end Attribute

/-! ## Marker lines

A marker line quotes the path.  Delimiters have no quote in them, so none lies across one, and the words
on either side have no percent sign.  What is left is the path itself: the line has a delimiter if the
path has one, which is the only way in which a marker can be taken for a tag. -/

namespace IncludeTag

/-- Around a quoted path nothing holds a mark, so the marks of the line are those of the path. -/
theorem infix_quoted_iff {mark front path back : Text} (hquote : '\'' ∉ mark)
    (hfront : ¬ mark <:+: front) (hback : ¬ mark <:+: back) :
    mark <:+: front ++ '\'' :: (path ++ '\'' :: back) ↔ mark <:+: path := by
  rw [Text.infix_append_cons_iff hquote, Text.infix_append_cons_iff hquote]
  simp [hfront, hback]

section
variable {mark : Text} (hquote : '\'' ∉ mark) (hpercent : '%' ∈ mark) (path : Text)
include hquote hpercent

/-- What the line in front of an included file holds. -/
theorem infix_beginMarker_iff : mark <:+: beginMarker path ↔ mark <:+: path := by
  have hfront : "// *** Begin Included '".toList = "// *** Begin Included ".toList ++ ['\''] := by
    decide
  have hback : "' ***\n".toList = '\'' :: " ***\n".toList := by decide
  unfold beginMarker
  rw [hfront, hback, List.append_assoc, List.append_assoc, List.singleton_append]
  exact infix_quoted_iff hquote (fun h => absurd (h.subset hpercent) (by decide))
    (fun h => absurd (h.subset hpercent) (by decide))

/-- What the line behind it holds. -/
theorem infix_endMarker_iff : mark <:+: endMarker path ↔ mark <:+: path := by
  have hfront : "// *** End Include '".toList = "// *** End Include ".toList ++ ['\''] := by
    decide
  have hback : "' ***\n".toList = '\'' :: " ***\n".toList := by decide
  unfold endMarker
  rw [hfront, hback, List.append_assoc, List.append_assoc, List.singleton_append]
  exact infix_quoted_iff hquote (fun h => absurd (h.subset hpercent) (by decide))
    (fun h => absurd (h.subset hpercent) (by decide))

end

/-- Without a delimiter in the path there is none in the line. -/
theorem plain_beginMarker {path : Text} (h : path.Plain) : Text.Plain (beginMarker path) where
  opening hmark := h.opening ((infix_beginMarker_iff (by decide) (by decide) path).1 hmark)
  closing hmark := h.closing ((infix_beginMarker_iff (by decide) (by decide) path).1 hmark)

/-- The same of the other line. -/
theorem plain_endMarker {path : Text} (h : path.Plain) : Text.Plain (endMarker path) where
  opening hmark := h.opening ((infix_endMarker_iff (by decide) (by decide) path).1 hmark)
  closing hmark := h.closing ((infix_endMarker_iff (by decide) (by decide) path).1 hmark)

theorem head?_beginMarker (path rest : Text) : (beginMarker path ++ rest).head? = some '/' := rfl

theorem head?_endMarker (path rest : Text) : (endMarker path ++ rest).head? = some '/' := rfl

/-- The line ends in a line break. -/
theorem getLast?_beginMarker (path : Text) : (beginMarker path).getLast? = some '\n' := by
  have hback : "' ***\n".toList.getLast? = some '\n' := by decide
  unfold beginMarker
  rw [List.getLast?_append, hback]
  exact Option.some_or

/-- And so does the other one. -/
theorem getLast?_endMarker (path : Text) : (endMarker path).getLast? = some '\n' := by
  have hback : "' ***\n".toList.getLast? = some '\n' := by decide
  unfold endMarker
  rw [List.getLast?_append, hback]
  exact Option.some_or

/-- What the two lines have in common. -/
theorem of_mem_markers {path line : Text} (h : line ∈ [beginMarker path, endMarker path]) :
    line.head? = some '/' ∧ line.getLast? = some '\n' ∧
      ∀ {mark : Text}, '\'' ∉ mark → '%' ∈ mark → (mark <:+: line ↔ mark <:+: path) := by
  simp only [List.mem_cons, List.not_mem_nil, or_false] at h
  rcases h with rfl | rfl
  · exact ⟨rfl, getLast?_beginMarker path, fun hquote hpercent =>
      infix_beginMarker_iff hquote hpercent path⟩
  · exact ⟨rfl, getLast?_endMarker path, fun hquote hpercent =>
      infix_endMarker_iff hquote hpercent path⟩

theorem beginMarker_ne_nil (path : Text) : beginMarker path ≠ [] := by
  intro hnil
  have hlast := getLast?_beginMarker path
  rw [hnil] at hlast
  cases hlast

/-- The line break that may be put in between is no part of a delimiter. -/
theorem bare_missingBreak (t : Text) : (missingBreak t).Bare := by
  rw [missingBreak]
  split
  · decide
  · decide

end IncludeTag

/-! ## Tags around markers

A marker line begins with a slash and ends in a line break, neither of which is in a delimiter.  So no
delimiter lies across the end of a line, and the tags of the whole are those of its parts. -/

/-- Text of a file between markers, in front of more text. -/
theorem Reads.between_markers {path lead included later : Text}
    {tags inner outer : List (Tag × Text)} (hpath : path.Plain) (hlead : Reads lead tags)
    (hincluded : Reads included inner) (hlater : Reads later outer) :
    Reads (lead ++ (IncludeTag.beginMarker path ++ (included ++ (IncludeTag.missingBreak included ++
      (IncludeTag.endMarker path ++ later))))) (tags ++ (inner ++ outer)) := by
  have hend : Reads (IncludeTag.endMarker path ++ later) outer :=
    Reads.plain_append (IncludeTag.plain_endMarker hpath) hlater
      (Text.seam_of_getLast_eq (IncludeTag.getLast?_endMarker path) (by decide))
  have hbreak : Reads (IncludeTag.missingBreak included ++ (IncludeTag.endMarker path ++ later))
      outer :=
    Reads.plain_append (IncludeTag.bare_missingBreak _).plain hend
      (Text.seam_of_head_eq (IncludeTag.head?_endMarker path later) (by decide))
  have hinside : Reads (included ++ (IncludeTag.missingBreak included ++
      (IncludeTag.endMarker path ++ later))) (inner ++ outer) := by
    refine Reads.append hincluded hbreak ?_
    rw [IncludeTag.missingBreak]
    split
    · exact Text.seam_of_head_eq (IncludeTag.head?_endMarker path later) (by decide)
    · exact Text.seam_of_head_eq rfl (by decide)
  have hbegin : Reads (IncludeTag.beginMarker path ++ (included ++
      (IncludeTag.missingBreak included ++ (IncludeTag.endMarker path ++ later))))
      (inner ++ outer) :=
    Reads.plain_append (IncludeTag.plain_beginMarker hpath) hinside
      (Text.seam_of_getLast_eq (IncludeTag.getLast?_beginMarker path) (by decide))
  exact Reads.append hlead hbegin
    (Text.seam_of_head_eq (IncludeTag.head?_beginMarker path _) (by decide))

end Templating
