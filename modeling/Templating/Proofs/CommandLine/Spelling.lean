import Templating.CommandLine.Reader
import Templating.Proofs.Except

/-!
# Spellings of options

Before the command a command line has options only.  A flag is given by its long name or by its letter,
and letters may share a dash; the value of an option is attached to its name, with or without an equals
sign, or is the next argument.

## What is here

* `Complete` and `Opening` are the spellings of one argument: without anything to follow, or up to a
  value in the next argument.  `Spelled` are the arguments that belong together, and `Grouped` are rows
  of these.
* `Reader.spelled_of_steps`: whatever the reader accepts in front of a command is spelled so.
-/

set_option autoImplicit false

namespace Templating
namespace CommandLine

/-! ## Spellings

The arguments in front of a command are put into groups, of one argument or of two.  Which options can
be given there is asked of the table of parameters, so the spellings do not name any.  A value counts
only if the option accepts it. -/

/-- Letters of flags that can be given in front of the command. -/
def Flags (letters : Text) : Prop :=
  ∀ c ∈ letters, ∃ p ∈ Parameter.admitted none, p.short? = some c ∧ p.takesValue = false

/-- The letter of an option with a value that can be given in front of the command. -/
def Valued (p : Parameter) (c : Char) : Prop :=
  p ∈ Parameter.admitted none ∧ p.short? = some c ∧ p.takesValue = true

/-- A value that an option can have. -/
def Accepts (p : Parameter) (value : Text) : Prop :=
  ∃ given given' : Options, given.give p [value] = .ok given'

/-- An argument with flags, or with an option and its value. -/
inductive Complete : Text → Prop
  | long {p : Parameter} {name : String} (hp : p ∈ Parameter.admitted none)
      (hname : p.long? = some name) (hvalue : p.takesValue = false) :
      Complete ('-' :: '-' :: name.toList)
  | longValue {p : Parameter} {name : String} {value : Text} (hp : p ∈ Parameter.admitted none)
      (hname : p.long? = some name) (hvalue : p.takesValue = true) (haccepts : Accepts p value) :
      Complete ('-' :: '-' :: (name.toList ++ '=' :: value))
  | letters {letters : Text} (hne : letters ≠ []) (hflags : Flags letters) : Complete ('-' :: letters)
  /-- Behind the letter of an option stands its value, with or without an equals sign. -/
  | lettersValue {letters rest value : Text} {p : Parameter} {c : Char} (hflags : Flags letters)
      (hp : Valued p c) (hne : rest ≠ []) (hrest : rest = value ∨ rest = '=' :: value)
      (haccepts : Accepts p value) : Complete ('-' :: (letters ++ c :: rest))

/-- An argument whose option has its value in the next argument. -/
inductive Opening (p : Parameter) : Text → Prop
  | long {name : String} (hp : p ∈ Parameter.admitted none) (hname : p.long? = some name)
      (hvalue : p.takesValue = true) : Opening p ('-' :: '-' :: name.toList)
  | letters {letters : Text} {c : Char} (hflags : Flags letters) (hp : Valued p c) :
      Opening p ('-' :: (letters ++ [c]))

/-- Arguments that belong together. -/
inductive Spelled : List Text → Prop
  | complete {t : Text} (h : Complete t) : Spelled [t]
  | separate {p : Parameter} {t value : Text} (h : Opening p t) (haccepts : Accepts p value) :
      Spelled [t, value]

/-- Some arguments that belong together, and again some, and so on. -/
def Grouped (args : List Text) : Prop :=
  ∃ given : List (List Text), args = given.flatten ∧ ∀ g ∈ given, Spelled g

/-- One more group in front. -/
theorem Grouped.cons {g args : List Text} (hg : Spelled g) (h : Grouped args) : Grouped (g ++ args) := by
  obtain ⟨given, rfl, hgiven⟩ := h
  refine ⟨g :: given, List.flatten_cons.symm, fun g' hg' => ?_⟩
  rcases List.mem_cons.1 hg' with rfl | hg'
  · exact hg
  · exact hgiven g' hg'

/-- One more letter in a row of flags. -/
theorem Flags.append {letters : Text} {c : Char} {p : Parameter} (h : Flags letters)
    (hp : p ∈ Parameter.admitted none) (hshort : p.short? = some c) (hvalue : p.takesValue = false) :
    Flags (letters ++ [c]) := by
  intro d hd
  rcases List.mem_append.1 hd with hd | hd
  · exact h d hd
  · rw [List.mem_singleton.1 hd]
    exact ⟨p, hp, hshort, hvalue⟩

theorem Flags.nil : Flags [] := fun _ hc => absurd hc List.not_mem_nil

/-! ## What an argument looks like

The reader looks at the dashes in front of an argument, and in a long one for an equals sign.  What it
takes an argument for tells how the argument was spelled, which is all that is needed of it. -/

/-- What an argument is taken for, by its spelling. -/
inductive Argument.Of : Text → Argument → Prop
  | separator : Of ['-', '-'] separator
  | long (name : Text) : Of ('-' :: '-' :: name) (long name none)
  | longValue (name value : Text) : Of ('-' :: '-' :: (name ++ '=' :: value)) (long name (some value))
  | short {letters : Text} (h : letters ≠ []) : Of ('-' :: letters) (short letters)
  | plain (t : Text) : Of t plain

/-- An argument is spelled like what it is taken for. -/
theorem Argument.of_ofText (t : Text) : Of t (ofText t) := by
  rw [ofText.eq_def]
  split
  · exact .separator
  · next rest _ =>
    cases hcut : Text.cut? ['='] rest with
    | none => exact .long rest
    | some parts =>
      obtain ⟨name, value⟩ := parts
      have hrest := Text.cut?_eq_some hcut
      rw [List.append_assoc, List.singleton_append] at hrest
      subst hrest
      exact .longValue name value
  · exact .short (List.cons_ne_nil _ _)
  · exact .plain t

namespace Reader

variable {r r' : Reader} {t : Text} {p : Parameter}

/-- An option that is found by a long name can be given there and has that name. -/
theorem byName?_eq_some {name : Text} (hverb : r.verb = none) (h : r.byName? name = some p) :
    p ∈ Parameter.admitted none ∧ ∃ s : String, p.long? = some s ∧ name = s.toList := by
  rw [byName?, hverb] at h
  refine ⟨List.mem_of_find?_eq_some h, String.ofList name, ?_, ?_⟩
  · simpa using List.find?_some h
  · exact String.toList_ofList.symm

/-- And so for a letter. -/
theorem byLetter?_eq_some {c : Char} (hverb : r.verb = none) (h : r.byLetter? c = some p) :
    p ∈ Parameter.admitted none ∧ p.short? = some c := by
  rw [byLetter?, hverb] at h
  exact ⟨List.mem_of_find?_eq_some h, by simpa using List.find?_some h⟩

/-! ## One step

An option that waits for a value gets it with the next argument, but the value is checked only when the
next option begins, or in the end.  So a step is about two arguments: it settles what came before and
reads one more. -/

/-- What is read in front of the command, before any two dashes. -/
structure Front (r : Reader) : Prop where
  verb : r.verb = none
  separated : r.separated = false
  pending (p : Parameter) (values : List Text) (h : r.pending = some (p, values)) :
    p ∈ Parameter.admitted none ∧ p.takesValue = true

/-- What was still unchecked has been checked. -/
structure Settled (r r' : Reader) : Prop where
  front : r'.Front
  pending : r'.pending = none
  checked (p : Parameter) (values : List Text) (h : r.pending = some (p, values)) :
    ∃ given', r.options.give p values = .ok given'

/-- Settling checks what was unchecked and leaves nothing to check. -/
theorem Front.settle (h : r.Front) (hr : r.settle = .ok r') : Settled r r' := by
  rw [Reader.settle] at hr
  split at hr
  · next hnone =>
    cases hr
    exact ⟨h, hnone, fun p values hp => by rw [hnone] at hp; cases hp⟩
  · next p values hsome =>
    obtain ⟨given', hgiven, rfl⟩ := map_eq_ok.1 hr
    refine ⟨⟨h.verb, h.separated, nofun⟩, rfl, fun p' values' hp => ?_⟩
    rw [hsome] at hp
    cases hp
    exact ⟨given', hgiven⟩

/-- An option whose value came with it has a value that it accepts. -/
theorem Front.give {values : List Text} (h : r.Front) (hr : r.give p values = .ok r') :
    Settled r r' ∧ ∃ given given' : Options, given.give p values = .ok given' := by
  obtain ⟨r₀, hsettle, hr⟩ := bind_eq_ok.1 hr
  obtain ⟨options, hgive, hr⟩ := bind_eq_ok.1 hr
  cases hr
  have hsettled := h.settle hsettle
  have hpending := hsettled.pending
  refine ⟨⟨⟨hsettled.front.verb, hsettled.front.separated, ?_⟩, hpending, hsettled.checked⟩,
    r₀.options, options, hgive⟩
  exact hsettled.front.pending

/-- An option whose value did not come with it waits for one. -/
theorem Front.expect (h : r.Front) (hr : r.expect p [] = .ok r') (hp : p ∈ Parameter.admitted none)
    (hvalue : p.takesValue = true) :
    r'.Front ∧ r'.pending = some (p, []) ∧ ∃ r₀, Settled r r₀ := by
  obtain ⟨r₀, hsettle, hr⟩ := bind_eq_ok.1 hr
  cases hr
  have hsettled := h.settle hsettle
  refine ⟨⟨hsettled.front.verb, hsettled.front.separated, fun p' values hp' => ?_⟩, rfl, r₀, hsettled⟩
  cases hp'
  exact ⟨hp, hvalue⟩

/-- What one argument can do: it is complete, or it leaves an option that waits for its value. -/
def Advances (t : Text) (r r' : Reader) : Prop :=
  (∃ r₀, Settled r r₀) ∧ r'.Front ∧
    ((Complete t ∧ r'.pending = none) ∨ ∃ p, Opening p t ∧ r'.pending = some (p, []))

/-- A long name is complete, or its option waits. -/
theorem Front.long {name : Text} {value : Option Text} (h : r.Front)
    (ht : Argument.Of t (.long name value)) (hr : r.long name value = .ok r') : Advances t r r' := by
  rw [Reader.long.eq_def] at hr
  cases hname : r.byName? name with
  | none => rw [hname] at hr; cases hr
  | some p =>
    obtain ⟨hp, s, hlong, rfl⟩ := byName?_eq_some h.verb hname
    rw [hname] at hr
    cases ht with
    | long =>
      dsimp only at hr
      split at hr
      · next hvalue =>
        obtain ⟨hfront, hpending, hsettled⟩ := h.expect hr hp hvalue
        exact ⟨hsettled, hfront, .inr ⟨p, .long hp hlong hvalue, hpending⟩⟩
      · next hvalue =>
        obtain ⟨hsettled, -⟩ := h.give hr
        exact ⟨⟨_, hsettled⟩, hsettled.front,
          .inl ⟨.long hp hlong (Bool.eq_false_iff.2 hvalue), hsettled.pending⟩⟩
    | longValue _ value =>
      dsimp only at hr
      split at hr
      · next hvalue =>
        obtain ⟨hsettled, haccepts⟩ := h.give hr
        exact ⟨⟨_, hsettled⟩, hsettled.front,
          .inl ⟨.longValue hp hlong hvalue haccepts, hsettled.pending⟩⟩
      · cases hr

/-- Letters are read one after the other, up to the letter of an option; `done` are those read before. -/
theorem Front.short {done letters : Text} (h : r.Front) (hdone : Flags done) (hne : letters ≠ [])
    (hr : r.short letters = .ok r') : Advances ('-' :: (done ++ letters)) r r' := by
  -- The induction is on the letters that are left, each of which is a flag or the last one.
  induction letters generalizing r done with
  | nil => exact absurd rfl hne
  | cons c letters ih =>
    rw [Reader.short] at hr
    cases hletter : r.byLetter? c with
    | none => rw [hletter] at hr; cases hr
    | some p =>
      obtain ⟨hp, hshort⟩ := byLetter?_eq_some h.verb hletter
      rw [hletter] at hr
      dsimp only at hr
      split at hr
      · next hvalue =>
        have hvalued : Valued p c := ⟨hp, hshort, hvalue⟩
        split at hr
        · obtain ⟨hfront, hpending, hsettled⟩ := h.expect hr hp hvalue
          exact ⟨hsettled, hfront, .inr ⟨p, .letters hdone hvalued, hpending⟩⟩
        · next value =>
          obtain ⟨hsettled, haccepts⟩ := h.give hr
          exact ⟨⟨_, hsettled⟩, hsettled.front, .inl ⟨.lettersValue hdone hvalued
            (List.cons_ne_nil _ _) (.inr rfl) haccepts, hsettled.pending⟩⟩
        · next hnil _ =>
          obtain ⟨hsettled, haccepts⟩ := h.give hr
          exact ⟨⟨_, hsettled⟩, hsettled.front, .inl ⟨.lettersValue hdone hvalued hnil (.inl rfl)
            haccepts, hsettled.pending⟩⟩
      · next hvalue =>
        split at hr
        · cases hr
        · next r₁ hgive =>
          obtain ⟨hsettled, -⟩ := h.give hgive
          have hdone' := hdone.append hp hshort (Bool.eq_false_iff.2 hvalue)
          by_cases hletters : letters = []
          · subst hletters
            cases hr
            exact ⟨⟨_, hsettled⟩, hsettled.front,
              .inl ⟨.letters (by simp) hdone', hsettled.pending⟩⟩
          · obtain ⟨-, hfront, hrest⟩ := ih hsettled.front hdone' hletters hr
            rw [List.append_assoc] at hrest
            exact ⟨⟨_, hsettled⟩, hfront, hrest⟩

/-- A step separates, or it takes the argument for the value that an option waits for, or it reads the
next option. -/
theorem Front.step (h : r.Front) (hr : r.step t = .ok r') :
    r' = { r with separated := true } ∨
      (∃ p, r.pending = some (p, []) ∧ r' = { r with pending := some (p, [t]) }) ∨
      Advances t r r' := by
  rw [Reader.step, h.separated] at hr
  have hargument := Argument.of_ofText t
  cases hkind : Argument.ofText t with
  | separator =>
    rw [hkind] at hr
    cases hr
    exact .inl rfl
  | long name value =>
    rw [hkind] at hr hargument
    exact .inr (.inr (h.long hargument hr))
  | short letters =>
    rw [hkind] at hr hargument
    cases hargument with
    | short hne => exact .inr (.inr (h.short .nil hne hr))
  | plain =>
    rw [hkind] at hr
    dsimp only at hr
    rw [if_neg Bool.false_ne_true, Reader.plain] at hr
    split at hr
    · next p hpending =>
      cases hr
      exact .inr (.inl ⟨p, hpending, rfl⟩)
    · -- There is no room for an operand in front of the command.
      rw [Reader.operand, h.verb] at hr
      cases hr

/-! ## Many steps

If the reader comes to the end and everything is checked there, each argument was read in one of these
ways.  The arguments fall into groups by it: a value belongs to the option before it. -/

/-- Behind two dashes there is no room for anything. -/
theorem steps_separated {args : List Text} (hverb : r.verb = none) (h : r.separated = true)
    (hr : r.steps args = .ok r') : r' = r := by
  cases args with
  | nil =>
    cases hr
    rfl
  | cons t args =>
    rw [steps, List.foldlM_cons] at hr
    obtain ⟨r₁, hstep, -⟩ := bind_eq_ok.1 hr
    rw [step, h, if_pos rfl, operand, hverb] at hstep
    cases hstep

/-- An option that takes a value is not satisfied with none. -/
theorem Front.give_nil (h : r.Front) {given given' : Options} (hp : r.pending = some (p, []))
    (hgive : given.give p [] = .ok given') : False := by
  obtain ⟨hadmitted, hvalue⟩ := h.pending p [] hp
  cases p with
  | toolsVersion => cases hgive
  | jobs => cases hgive
  | _ => simp [Parameter.admitted, Parameter.everywhere, Parameter.takesValue] at hadmitted hvalue

/-- What is read up to the end, by what was left to check before. -/
theorem Front.steps {args : List Text} {given : Options} (h : r.Front) (hr : r.steps args = .ok r')
    (hseparated : r'.separated = false) (hfinish : r'.finish = .ok given) :
    (∀ p, r.pending = some (p, []) →
      ∃ value rest, args = value :: rest ∧ Accepts p value ∧ Grouped rest) ∧
    ((∀ p, r.pending ≠ some (p, [])) → Grouped args) ∧
    ∀ p value, r.pending = some (p, [value]) → Accepts p value := by
  -- What is waiting or unchecked at the start of the rest is carried along.
  induction args generalizing r with
  | nil =>
    cases hr
    obtain ⟨r₀, hsettle, -⟩ := map_eq_ok.1 hfinish
    have hsettled := h.settle hsettle
    refine ⟨fun p hp => ?_, fun _ => ⟨[], rfl, by simp⟩, fun p value hp => ?_⟩
    · obtain ⟨given', hgive⟩ := hsettled.checked p [] hp
      exact (h.give_nil hp hgive).elim
    · exact ⟨_, hsettled.checked p [value] hp⟩
  | cons t args ih =>
    rw [Reader.steps, List.foldlM_cons] at hr
    obtain ⟨r₁, hstep, hrest⟩ := bind_eq_ok.1 hr
    rcases h.step hstep with rfl | ⟨p, hp, rfl⟩ | ⟨⟨r₀, hsettled⟩, hfront, hadvance⟩
    · have hlast : r' = { r with separated := true } := steps_separated h.verb rfl hrest
      rw [hlast] at hseparated
      cases hseparated
    · -- The argument is the value that was waited for.
      have hfront : Front { r with pending := some (p, [t]) } := by
        refine ⟨h.verb, h.separated, fun p' values hp' => ?_⟩
        cases hp'
        exact h.pending p [] hp
      obtain ⟨-, hrest', haccepts⟩ := ih hfront hrest
      refine ⟨fun p' hp' => ?_, fun hno => absurd hp (hno p), fun p' value hp' => ?_⟩
      · rw [hp] at hp'
        cases hp'
        exact ⟨t, args, rfl, haccepts p t rfl, hrest' nofun⟩
      · rw [hp] at hp'
        cases hp'
    · obtain ⟨hvalue, hrest', -⟩ := ih hfront hrest
      refine ⟨fun p hp => ?_, fun _ => ?_, fun p value hp => ⟨_, hsettled.checked p [value] hp⟩⟩
      · obtain ⟨given', hgive⟩ := hsettled.checked p [] hp
        exact (h.give_nil hp hgive).elim
      · rcases hadvance with ⟨hcomplete, hpending⟩ | ⟨p, hopening, hpending⟩
        · exact (hrest' fun p hp => by rw [hpending] at hp; cases hp).cons (.complete hcomplete)
        · obtain ⟨value, rest, rfl, haccepts, hgrouped⟩ := hvalue p hpending
          exact hgrouped.cons (.separate hopening haccepts)

/-- **What the reader accepts in front of a command is spelled as options are.** -/
theorem spelled_of_steps {args : List Text} {given : Options}
    (hr : steps { verb := none } args = .ok r') (hseparated : r'.separated = false)
    (hfinish : r'.finish = .ok given) : Grouped args := by
  have hfront : Front { verb := none } := ⟨rfl, rfl, nofun⟩
  exact (hfront.steps hr hseparated hfinish).2.1 nofun

end Reader
end CommandLine
end Templating
