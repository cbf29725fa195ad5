import Templating.Proofs.FileSystem
import Templating.Proofs.Include.Outline

/-!
# Reading the attribute of a tag

The attribute of a tag is read at the first place that looks like one, whatever comes of it there.  The
places that look like one are described here without a search, and what is read is described by the
first of them.

## What is here

* `Attribute.Candidate` is a place that looks like an attribute, `Attribute.First` the first of them.
* `Attribute.Reads` says what is read there, with one case for each outcome;
  `Attribute.find_eq_iff` says that the search comes to that.
* `IncludeTag.Spells` is the spelling of an include tag for a path, and `IncludeTag.findFrom_append`
  takes a search apart at a place that it comes to.
* `IncludeTag.find_spelled` is the main result.
-/

set_option autoImplicit false

namespace Templating

namespace Text

/-- There are only blanks in a text. -/
def Blank (t : Text) : Prop := ∀ c ∈ t, isBlank c = true

/-- What is left after blanks begins with a character that is none, with blanks in front of it. -/
theorem trimStart_eq_cons_iff {t rest : Text} {c : Char} (hc : isBlank c = false) :
    trimStart t = c :: rest ↔ ∃ blanks : Text, blanks.Blank ∧ t = blanks ++ c :: rest := by
  rw [trimStart]
  constructor
  · intro h
    refine ⟨t.takeWhile isBlank, fun d hd => List.mem_takeWhile_imp hd, ?_⟩
    rw [← h, List.takeWhile_append_dropWhile]
  · rintro ⟨blanks, hblanks, rfl⟩
    rw [List.dropWhile_append_of_pos hblanks, List.dropWhile_cons_of_neg (by simp [hc])]

end Text

namespace Attribute

variable {name body t lead inside value : Text} {atWord : Bool}

/-! ## Places that look like an attribute

The search goes along the text and remembers one thing only: whether a word may begin where it stands.
A place that looks like an attribute is said in terms of the text in front of it instead, so that it can
be spoken of without going there.  The two meet in `candidate_cons_iff`, which moves a place on by one
character. -/

/-- A text begins like the attribute `name`, and `inside` is what follows the opening quote. -/
def Opens (name t inside : Text) : Prop :=
  ∃ before after : Text, before.Blank ∧ after.Blank ∧
    t = name ++ (before ++ '=' :: (after ++ '"' :: inside))

/-- The name, the sign and the quote are looked for one after the other, with blanks passed over in
between. -/
theorem candidate?_eq_some_iff : candidate? name t = some inside ↔ Opens name t inside := by
  have hquote (t : Text) : Text.after? ['"'] (Text.trimStart t) = some inside ↔
      ∃ after : Text, after.Blank ∧ t = after ++ '"' :: inside := by
    rw [Text.after?_eq_some_iff]
    exact Text.trimStart_eq_cons_iff (by decide)
  have hequals (t rest : Text) : Text.after? ['='] (Text.trimStart t) = some rest ↔
      ∃ before : Text, before.Blank ∧ t = before ++ '=' :: rest := by
    rw [Text.after?_eq_some_iff]
    exact Text.trimStart_eq_cons_iff (by decide)
  rw [candidate?, Option.bind_eq_bind, Option.bind_eq_some_iff]
  simp only [Option.bind_eq_some_iff, @Text.after?_eq_some_iff name, hequals, hquote]
  constructor
  · rintro ⟨_, rfl, _, ⟨before, hbefore, rfl⟩, after, hafter, rfl⟩
    exact ⟨before, after, hbefore, hafter, rfl⟩
  · rintro ⟨before, after, hbefore, hafter, rfl⟩
    exact ⟨_, rfl, _, ⟨before, hbefore, rfl⟩, after, hafter, rfl⟩

theorem Opens.ne_nil (h : Opens name t inside) : t ≠ [] := by
  obtain ⟨before, after, -, -, rfl⟩ := h
  simp

/-- A place in a text that looks like the attribute `name`: `lead` is what stands in front of it and
`inside` what follows the opening quote.  It is behind a blank, or else in front of everything, if a
word begins there. -/
def Candidate (name : Text) (atWord : Bool) (t lead inside : Text) : Prop :=
  lead.getLast?.elim atWord Text.isBlank = true ∧ ∃ rest, t = lead ++ rest ∧ Opens name rest inside

/-- The first place that looks like the attribute. -/
structure First (name : Text) (atWord : Bool) (t lead inside : Text) : Prop where
  candidate : Candidate name atWord t lead inside
  first {lead' inside' : Text} (h : Candidate name atWord t lead' inside') :
    lead.length ≤ lead'.length

/-- A place in front of everything. -/
theorem candidate_nil_iff :
    Candidate name atWord t [] inside ↔ atWord = true ∧ Opens name t inside := by
  simp [Candidate]

/-- A place further on, seen from the next character: whether a word begins there depends on this one.
-/
theorem candidate_cons_iff {c d : Char} :
    Candidate name atWord (c :: t) (d :: lead) inside ↔
      c = d ∧ Candidate name (Text.isBlank d) t lead inside := by
  have hlast : (d :: lead).getLast?.elim atWord Text.isBlank
      = lead.getLast?.elim (Text.isBlank d) Text.isBlank := by
    rw [List.getLast?_cons]
    cases lead.getLast? with
    | none => rfl
    | some e => rfl
  rw [Candidate, Candidate, hlast]
  simp only [List.cons_append, List.cons.injEq]
  constructor
  · rintro ⟨hword, rest, ⟨rfl, rfl⟩, hopens⟩
    exact ⟨rfl, hword, rest, rfl, hopens⟩
  · rintro ⟨rfl, hword, rest, rfl, hopens⟩
    exact ⟨hword, rest, ⟨rfl, rfl⟩, hopens⟩

/-- There is one opening quote that belongs to the name, so it is settled what follows it. -/
theorem Opens.unique {inside' : Text} (h : Opens name t inside) (h' : Opens name t inside') :
    inside = inside' := by
  rw [← candidate?_eq_some_iff] at h h'
  exact Option.some.inj (h.symm.trans h')

/-- There is one first place. -/
theorem First.unique {lead' inside' : Text} (h : First name atWord t lead inside)
    (h' : First name atWord t lead' inside') : lead = lead' ∧ inside = inside' := by
  obtain ⟨-, rest, hrest, hopens⟩ := h.candidate
  obtain ⟨-, rest', hrest', hopens'⟩ := h'.candidate
  have hlen := Nat.le_antisymm (h.first h'.candidate) (h'.first h.candidate)
  obtain ⟨rfl, rfl⟩ := List.append_inj (hrest.symm.trans hrest') hlen
  exact ⟨rfl, hopens.unique hopens'⟩

/-! ## What is read

Once a place was found there is no way back: if the value there has no closing quote, or is not on one
line, the attribute is faulty, even if it is spelled well further on.  So what is read is a relation
with a case for each outcome, and it is shown to have exactly one of them.  That makes the search and
the relation the same thing. -/

/-- What is read behind the opening quote. -/
inductive ReadsInside : Text → Except Fault Text → Prop
  | unclosed {inside : Text} (h : '"' ∉ inside) : ReadsInside inside (.error .missingClosingQuote)
  | broken {value rest : Text} (hquote : '"' ∉ value) (hbreak : '\n' ∈ value) :
      ReadsInside (value ++ '"' :: rest) (.error .multiLine)
  | closed {value rest : Text} (hquote : '"' ∉ value) (hbreak : '\n' ∉ value) :
      ReadsInside (value ++ '"' :: rest) (.ok value)

/-- The value ends at the first quote, whatever follows that. -/
theorem read_eq_iff {r : Except Fault Text} : read inside = r ↔ ReadsInside inside r := by
  -- Reading is a function, so it is enough that each of the cases comes out.
  have hread {inside : Text} {r : Except Fault Text} (h : ReadsInside inside r) : read inside = r := by
    cases h with
    | unclosed h =>
      rw [read, Text.cut?_eq_none_iff.2 (mt Text.infix_singleton_iff.1 h)]
    | broken hquote hbreak =>
      rw [read, Text.cut?_singleton hquote]
      exact if_pos hbreak
    | closed hquote hbreak =>
      rw [read, Text.cut?_singleton hquote]
      exact if_neg hbreak
  refine ⟨?_, hread⟩
  rintro rfl
  by_cases hmem : '"' ∈ inside
  · obtain ⟨value, rest, rfl, hquote⟩ := List.eq_append_cons_of_mem hmem
    by_cases hbreak : '\n' ∈ value
    · rw [hread (.broken hquote hbreak)]
      exact .broken hquote hbreak
    · rw [hread (.closed hquote hbreak)]
      exact .closed hquote hbreak
  · rw [hread (.unclosed hmem)]
    exact .unclosed hmem

/-- What is read of the attribute `name` in a text. -/
inductive Reads (name : Text) (atWord : Bool) (t : Text) : Except Fault Text → Prop
  | missing (h : ∀ lead inside, ¬ Candidate name atWord t lead inside) :
      Reads name atWord t (.error .missing)
  /-- The first place that looks like the attribute decides. -/
  | first {lead inside : Text} {r : Except Fault Text} (h : First name atWord t lead inside)
      (hr : ReadsInside inside r) : Reads name atWord t r

/-- The relation has one outcome for a text. -/
theorem Reads.unique {r r' : Except Fault Text} (h : Reads name atWord t r)
    (h' : Reads name atWord t r') : r = r' := by
  cases h with
  | missing h =>
    cases h' with
    | missing _ => rfl
    | first hfirst _ => exact absurd hfirst.candidate (h _ _)
  | first hfirst hr =>
    cases h' with
    | missing h' => exact absurd hfirst.candidate (h' _ _)
    | first hfirst' hr' =>
      obtain ⟨-, rfl⟩ := hfirst.unique hfirst'
      exact (read_eq_iff.2 hr).symm.trans (read_eq_iff.2 hr')

/-- One character is passed over where there is no attribute. -/
theorem Reads.cons {c : Char} {r : Except Fault Text} (h : Reads name (Text.isBlank c) t r)
    (hno : ∀ inside, ¬ Candidate name atWord (c :: t) [] inside) : Reads name atWord (c :: t) r := by
  cases h with
  | missing h =>
    refine .missing fun lead inside hcandidate => ?_
    cases lead with
    | nil => exact hno inside hcandidate
    | cons d lead =>
      obtain ⟨rfl, hlater⟩ := candidate_cons_iff.1 hcandidate
      exact h lead inside hlater
  | @first lead inside r hfirst hr =>
    have hcandidate : Candidate name atWord (c :: t) (c :: lead) inside :=
      candidate_cons_iff.2 ⟨rfl, hfirst.candidate⟩
    refine .first ⟨hcandidate, ?_⟩ hr
    intro lead' inside' hcandidate'
    cases lead' with
    | nil => exact absurd hcandidate' (hno inside')
    | cons d lead' =>
      obtain ⟨rfl, hlater⟩ := candidate_cons_iff.1 hcandidate'
      exact Nat.succ_le_succ (hfirst.first hlater)

/-- And the search comes to it.  The induction is along the search, one character at a time. -/
theorem reads_findFrom (name : Text) (atWord : Bool) (t : Text) :
    Reads name atWord t (findFrom name atWord t) := by
  induction t generalizing atWord with
  | nil =>
    refine .missing fun lead inside hcandidate => ?_
    obtain ⟨-, rest, hrest, hopens⟩ := hcandidate
    exact hopens.ne_nil (List.append_eq_nil_iff.1 hrest.symm).2
  | cons c t ih =>
    rw [findFrom]
    cases hhere : if atWord = true then candidate? name (c :: t) else none with
    | some inside =>
      obtain ⟨hword, hcandidate⟩ : atWord = true ∧ candidate? name (c :: t) = some inside := by
        simpa using hhere
      have hfirst : Candidate name atWord (c :: t) [] inside :=
        candidate_nil_iff.2 ⟨hword, candidate?_eq_some_iff.1 hcandidate⟩
      exact .first ⟨hfirst, fun _ => Nat.zero_le _⟩ (read_eq_iff.1 rfl)
    | none =>
      refine (ih (Text.isBlank c)).cons fun inside hcandidate => ?_
      obtain ⟨rfl, hopens⟩ := candidate_nil_iff.1 hcandidate
      rw [if_pos rfl, candidate?_eq_some_iff.2 hopens] at hhere
      cases hhere

/-- The search finds what the first place that looks like the attribute says. -/
theorem find_eq_iff {r : Except Fault Text} : find name body = r ↔ Reads name true body r := by
  constructor
  · rintro rfl
    exact reads_findFrom name true body
  · exact (reads_findFrom name true body).unique

end Attribute

/-! ## Tags

A tag may be spelled with any blanks between its parts.  Where the attribute of a tag is spelled in that
way, it is the first place that looks like one, since there are only blanks in front of it.  And its
closing is the first one, as the value does not hold one and no other part can. -/

namespace IncludeTag

open Attribute

variable {path : Path} {front rest value tag : Text}

/-- The spelling of an include tag for a path, with any blanks around its parts. -/
def Spells (value tag : Text) : Prop :=
  ∃ lead before after back : Text, lead.Blank ∧ before.Blank ∧ after.Blank ∧ back.Blank ∧
    tag = Tag.inclusion.opening
      ++ (lead ++ (fileAttribute ++ (before ++ '=' :: (after ++ '"' :: (value ++ '"' :: back)))))
      ++ Tag.inclusion.closing

/-- A search takes one tag, whose attribute names a path, and goes on behind it. -/
theorem findFrom_tag {d : Document} {n : Nat} {t lead body includePath : Text}
    (hlead : Text.cut? Tag.inclusion.opening t = some (lead, body ++ Tag.inclusion.closing ++ rest))
    (hbody : ¬ Tag.inclusion.closing <:+: body)
    (hpath : Attribute.find fileAttribute body = .ok includePath) :
    findFrom d n t = (findFrom d
      (n + lead.size + (Tag.inclusion.opening ++ body ++ Tag.inclusion.closing).size) rest).map
        (⟨⟨n + lead.size,
            n + lead.size + (Tag.inclusion.opening ++ body ++ Tag.inclusion.closing).size⟩,
          includePath, Path.resolve d.path ⟨includePath⟩⟩ :: ·) := by
  have hclose : Text.cut? Tag.inclusion.closing (body ++ Tag.inclusion.closing ++ rest)
      = some (body, rest) := Text.cut?_pair (by decide) hbody
  rw [findFrom, hlead]
  dsimp only
  rw [hclose]
  dsimp only
  rw [hpath]
  dsimp only
  simp only [Text.size_append, Nat.add_assoc]
  generalize findFrom d _ rest = later
  cases later with
  | error e => rfl
  | ok tags => rfl

/-- What a search finds in a text that comes behind one in which it finds some tags. -/
theorem findFrom_append {d : Document} {n : Nat} {found : List IncludeTag}
    (h : Found d.path n front found) (hrest : rest.head? = some '<') :
    findFrom d n (front ++ rest) = (findFrom d (n + front.size) rest).map (found ++ ·) := by
  induction h with
  | @nil n front h =>
    have hcut : Text.cut? Tag.inclusion.opening (front ++ rest)
        = (Text.cut? Tag.inclusion.opening rest).map (Prod.map (front ++ ·) id) :=
      -- An opening cannot begin in the front and end in the rest, for the rest begins with the first
      -- character of one and that character is not repeated in it.
      @Text.cut?_behind '<' ('%' :: Tag.inclusion.suffix) front rest (by decide) hrest h
    have hmap (r : Except BuildError (List IncludeTag)) : r.map ([] ++ ·) = r := by
      cases r with
      | error e => rfl
      | ok tags => rfl
    rw [hmap, findFrom.eq_def d n, findFrom.eq_def d (n + front.size)]
    cases hhere : Text.cut? Tag.inclusion.opening rest with
    | none =>
      rw [hhere] at hcut
      rw [hcut]
      rfl
    | some parts =>
      obtain ⟨lead, inside⟩ := parts
      rw [hhere] at hcut
      rw [hcut]
      simp only [Option.map_some, Prod.map_apply, id_eq, Text.size_append, Nat.add_assoc]
  | @cons n lead body front includePath found hlead hbody hpath _ ih =>
    have hcut := Text.cut?_append rest hlead
    rw [List.append_assoc (body ++ _)] at hcut
    have hsize : n + (lead ++ (Tag.inclusion.opening ++ body ++ Tag.inclusion.closing ++ front)).size
        = n + lead.size + (Tag.inclusion.opening ++ body ++ Tag.inclusion.closing).size
          + front.size := by
      simp only [Text.size_append, Nat.add_assoc]
    rw [findFrom_tag hcut hbody hpath, ih, hsize]
    generalize findFrom d _ rest = later
    cases later with
    | error e => rfl
    | ok tags => rfl

/-- The attribute of a tag that is spelled as it should be has the value that was written. -/
theorem find_of_spelled {lead before after back : Text} (hlead : lead.Blank) (hbefore : before.Blank)
    (hafter : after.Blank) (hquote : '"' ∉ value) (hbreak : '\n' ∉ value) :
    Attribute.find fileAttribute
      (lead ++ (fileAttribute ++ (before ++ '=' :: (after ++ '"' :: (value ++ '"' :: back)))))
      = .ok value := by
  have hopens : Opens fileAttribute
      (fileAttribute ++ (before ++ '=' :: (after ++ '"' :: (value ++ '"' :: back))))
      (value ++ '"' :: back) := ⟨before, after, hbefore, hafter, rfl⟩
  have hword : lead.getLast?.elim true Text.isBlank = true := by
    cases hlast : lead.getLast? with
    | none => rfl
    | some c => exact hlead c (List.mem_of_getLast? hlast)
  refine find_eq_iff.2 (.first ⟨⟨hword, _, rfl, hopens⟩, ?_⟩ (.closed hquote hbreak))
  rintro lead' inside' ⟨-, rest', heq, before', after', -, -, hrest'⟩
  by_contra hlen
  rw [Nat.not_le] at hlen
  -- The attribute would begin at one of the blanks in front.
  rcases List.append_eq_append_iff.1 heq with ⟨more, rfl, -⟩ | ⟨more, rfl, hmore⟩
  · rw [List.length_append] at hlen
    omega
  · cases more with
    | nil => simp at hlen
    | cons c more =>
      have hc : Text.isBlank c = true := hlead c (by simp)
      rw [hrest'] at hmore
      obtain ⟨rfl, -⟩ := List.cons.inj hmore
      exact absurd hc (by decide)

/-- Nothing inside such a tag looks like its closing. -/
theorem not_closing_infix {lead before after back : Text} (hlead : lead.Blank)
    (hbefore : before.Blank) (hafter : after.Blank) (hback : back.Blank)
    (hvalue : ¬ Tag.inclusion.closing <:+: value) :
    ¬ Tag.inclusion.closing <:+:
      lead ++ (fileAttribute ++ (before ++ '=' :: (after ++ '"' :: (value ++ '"' :: back)))) := by
  -- A closing has a character that is not a blank.
  have hblank {t : Text} (ht : t.Blank) : ¬ Tag.inclusion.closing <:+: t := fun h =>
    absurd (ht '%' (h.subset (by decide))) (by decide)
  have hfront : ¬ Tag.inclusion.closing <:+: lead ++ (fileAttribute ++ before) := by
    intro h
    have hpercent := h.subset (show '%' ∈ Tag.inclusion.closing by decide)
    rw [List.mem_append, List.mem_append] at hpercent
    rcases hpercent with hmem | hmem | hmem
    · exact absurd (hlead _ hmem) (by decide)
    · exact absurd hmem (by decide)
    · exact absurd (hbefore _ hmem) (by decide)
  have hequals : '=' ∉ Tag.inclusion.closing := by decide
  have hquote : '"' ∉ Tag.inclusion.closing := by decide
  rw [← List.append_assoc, ← List.append_assoc, List.append_assoc lead,
    Text.infix_append_cons_iff hequals, Text.infix_append_cons_iff hquote,
    Text.infix_append_cons_iff hquote]
  rintro (h | h | h | h)
  · exact hfront h
  · exact hblank hafter h
  · exact hvalue h
  · exact hblank hback h

/-- **The first place that looks like an attribute decides, and a tag that is spelled as it should be
is found.**  The text `front` has no faulty include tag and none that is not closed, so a search comes
to its end; whatever is found behind the tag comes after it. -/
theorem find_spelled {body : Text} {r : Except Attribute.Fault Text} {found : List IncludeTag}
    (htag : Spells value tag) (hquote : '"' ∉ value) (hbreak : '\n' ∉ value)
    (hclosing : ¬ Tag.inclusion.closing <:+: value) (hfront : findAll (.ofSource path front) = .ok found) :
    (Attribute.find fileAttribute body = r ↔ Attribute.Reads fileAttribute true body r) ∧
      findAll (.ofSource path (front ++ (tag ++ rest)))
        = (findFrom (.ofSource path (front ++ (tag ++ rest))) (front.size + tag.size) rest).map fun tags =>
          found ++ ⟨⟨front.size, front.size + tag.size⟩, value, Path.resolve path ⟨value⟩⟩ :: tags := by
  refine ⟨find_eq_iff, ?_⟩
  obtain ⟨lead, before, after, back, hlead, hbefore, hafter, hback, rfl⟩ := htag
  have hvalue := @find_of_spelled value lead before after back hlead hbefore hafter hquote hbreak
  have hbody := not_closing_infix hlead hbefore hafter hback hclosing
  generalize lead ++ (fileAttribute ++ (before ++ '=' :: (after ++ '"' :: (value ++ '"' :: back))))
    = body at hvalue hbody
  have hfound := found_of_findFrom hfront
  have hhere : Text.cut? Tag.inclusion.opening
      (Tag.inclusion.opening ++ body ++ Tag.inclusion.closing ++ rest)
      = some ([], body ++ Tag.inclusion.closing ++ rest) := by
    rw [List.append_assoc, List.append_assoc, ← List.append_assoc body]
    exact Text.cut?_here (Tag.opening_ne_nil _) _
  rw [Document.text_ofSource, Document.path_ofSource] at hfound
  rw [findAll, Document.text_ofSource]
  generalize hd : Document.ofSource path
    (front ++ (Tag.inclusion.opening ++ body ++ Tag.inclusion.closing ++ rest)) = d
  obtain rfl : d.path = path := by rw [← hd, Document.path_ofSource]
  rw [findFrom_append hfound rfl, findFrom_tag hhere hbody hvalue, Nat.zero_add, Text.size_nil,
    Nat.add_zero]
  generalize findFrom d _ rest = later
  cases later with
  | error e => rfl
  | ok tags => rfl

/-- Neither another attribute nor another tag in front makes a difference. -/
theorem find_spelled_behind_another :
    let body := " profile=\"x\" file = \"b\" file=\"c".toList
    let path := Path.ofString "/a"
    let front := "<%@include file=\"b\"%>\n".toList
    let tag := "<%@include\tfile = \"b %c\"\n%>".toList
    let rest := "<%=1%>".toList
    Spells "b %c".toList tag ∧ findAll (.ofSource path front)
        = .ok [⟨⟨0, 21⟩, "b".toList, .ofString "/b"⟩] ∧
      Attribute.Reads fileAttribute true body (.ok "b".toList) ∧
      findAll (.ofSource path (front ++ (tag ++ rest)))
        = .ok [⟨⟨0, 21⟩, "b".toList, .ofString "/b"⟩, ⟨⟨22, 49⟩, "b %c".toList, .ofString "/b %c"⟩] := by
  intro body path front tag rest
  have htag : Spells "b %c".toList tag := by
    refine ⟨['\t'], [' '], [' '], ['\n'], ?_, ?_, ?_, ?_, rfl⟩
    all_goals
      intro c hc
      rw [List.mem_singleton.1 hc]
      decide
  have hfront : findAll (.ofSource path front) = .ok [⟨⟨0, 21⟩, "b".toList, .ofString "/b"⟩] := by
    decide +kernel
  have hclosing : ¬ Tag.inclusion.closing <:+: "b %c".toList := Text.cut?_eq_none_iff.1 (by decide)
  obtain ⟨hfind, hall⟩ := @find_spelled path front rest "b %c".toList tag body (.ok "b".toList) _ htag
    (by decide) (by decide) hclosing hfront
  refine ⟨htag, hfront, hfind.1 (by decide), ?_⟩
  rw [hall]
  decide +kernel

end IncludeTag
end Templating
