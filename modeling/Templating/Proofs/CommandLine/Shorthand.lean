import Templating.CommandLine.Shorthand
import Templating.Proofs.CommandLine.Spelling

/-!
# When the command is written out

The command is looked for behind the options, by a list of those options whose value is the next
argument.  The list has them by their long names and by their letters, but a letter that shares its
dash with others is not in it: there the value is taken for what stands in the place of the command.

## What is here

* `Shorthand.Bundled` are the arguments that are not in the list.
* `Shorthand.firstOperand?_grouped` passes over all other options, and `Shorthand.firstOperand?_bundled`
  stops at the value behind a bundled one.
* `Shorthand.expand_spelled` is the main result.
-/

set_option autoImplicit false

namespace Templating
namespace CommandLine

/-! ## Options in front of the command

Only options that stand in front of every command come up here.  Of these the number of jobs is the only
one that takes a value, so a letter with a value is known, and a row of letters without values does not
have it. -/

/-- A letter whose option takes a value is not among flags. -/
theorem Flags.not_mem {letters : Text} {c : Char} (h : Flags letters)
    (hc : ∀ p ∈ Parameter.admitted none, p.short? = some c → p.takesValue = true) : c ∉ letters := by
  intro hmem
  obtain ⟨p, hp, hshort, hvalue⟩ := h c hmem
  rw [hc p hp hshort] at hvalue
  cases hvalue

/-- The letter with a value is that of the jobs. -/
theorem Valued.eq_jobs {p : Parameter} {c : Char} (h : Valued p c) : p = .jobs ∧ c = 'j' := by
  obtain ⟨hp, hshort, hvalue⟩ := h
  cases p with
  | jobs => exact ⟨rfl, (Option.some.inj hshort).symm⟩
  | _ => simp [Parameter.admitted, Parameter.everywhere, Parameter.takesValue, Parameter.short?] at *

namespace Shorthand

/-- The letter of an option shares its dash with other letters, and its value is the next argument. -/
def Bundled (g : List Text) : Prop :=
  ∃ letters c p value, letters ≠ [] ∧ Flags letters ∧ Valued p c ∧ Accepts p value ∧
    g = ['-' :: (letters ++ [c]), value]

/-! ## Arguments that are passed over

What begins with a dash is passed over, and what comes behind it as well if it is in the list.  All
spellings of an option that are not bundled are treated properly by that: a value in the same argument
goes with it, and the option of a value in the next argument is in the list. -/

/-- An option that is not in the list is passed over by itself. -/
theorem firstOperand?_option {t : Text} (ht : t.head? = some '-') (h : t ∉ valueOptions)
    (args : List Text) : firstOperand? (t :: args) = firstOperand? args := by
  cases args with
  | nil =>
    show (if t ∈ valueOptions ∨ t.head? = some '-' then none else some t) = none
    exact if_pos (.inr ht)
  | cons a args => rw [firstOperand?, if_neg h, if_pos ht]

/-- One that is in the list is passed over with its value. -/
theorem firstOperand?_valueOption {t : Text} (h : t ∈ valueOptions) (value : Text) (args : List Text) :
    firstOperand? (t :: value :: args) = firstOperand? args := by
  rw [firstOperand?, if_pos h]

/-- Anything that does not begin with a dash is the first operand. -/
theorem firstOperand?_operand {t : Text} (ht : t.head? ≠ some '-') (args : List Text) :
    firstOperand? (t :: args) = some t := by
  have h : t ∉ valueOptions := by
    intro hmem
    have hall : ∀ t ∈ valueOptions, t.head? = some '-' := by decide
    exact ht (hall t hmem)
  cases args with
  | nil =>
    show (if t ∈ valueOptions ∨ t.head? = some '-' then none else some t) = some t
    exact if_neg (not_or.2 ⟨h, ht⟩)
  | cons a args => rw [firstOperand?, if_neg h, if_neg ht]

/-- Behind one dash the list has single letters only. -/
theorem not_mem_valueOptions {letters : Text} (hdash : letters.head? ≠ some '-')
    (hlen : 1 < letters.length) : '-' :: letters ∉ valueOptions := by
  have hall : ∀ t ∈ valueOptions, t.tail.head? = some '-' ∨ t.tail.length ≤ 1 := by decide
  intro hmem
  rcases hall _ hmem with hhead | hle
  · exact hdash hhead
  · exact absurd hlen (Nat.not_lt.2 hle)

/-- Letters behind one dash do not begin with another dash. -/
theorem head?_ne_dash {letters rest : Text} {p : Parameter} {c : Char} (h : Flags letters)
    (hp : Valued p c) : (letters ++ c :: rest).head? ≠ some '-' := by
  intro hdash
  cases letters with
  | nil =>
    rw [hp.eq_jobs.2] at hdash
    cases hdash
  | cons d letters =>
    obtain rfl : d = '-' := Option.some.inj hdash
    have hno : '-' ∉ '-' :: letters := h.not_mem (by decide)
    exact hno (List.mem_cons_self ..)

/-- An option that is complete in its argument is not in the list. -/
theorem Complete.not_mem_valueOptions {t : Text} (h : Complete t) :
    t.head? = some '-' ∧ t ∉ valueOptions := by
  cases h with
  | @long p name hp hname hvalue =>
    refine ⟨rfl, ?_⟩
    have hall : ∀ p ∈ Parameter.admitted none, p.takesValue = false → ∀ name ∈ p.long?,
        '-' :: '-' :: name.toList ∉ valueOptions := by decide +kernel
    exact hall p hp hvalue name hname
  | @longValue p name value hp hname hvalue haccepts =>
    refine ⟨rfl, fun hmem => ?_⟩
    have hall : ∀ t ∈ valueOptions, '=' ∉ t := by decide
    exact hall _ hmem (by simp)
  | @letters letters hne hflags =>
    refine ⟨rfl, fun hmem => ?_⟩
    have hall : ∀ t ∈ valueOptions, '-' ∈ t.tail ∨ 'j' ∈ t.tail ∨ 'o' ∈ t.tail := by decide
    rcases hall _ hmem with hc | hc | hc
    · exact hflags.not_mem (by decide) hc
    · exact hflags.not_mem (by decide) hc
    · exact hflags.not_mem (by decide) hc
  | @lettersValue letters rest value p c hflags hp hne _ _ =>
    refine ⟨rfl, Shorthand.not_mem_valueOptions (head?_ne_dash hflags hp) ?_⟩
    have hpos := List.length_pos_iff.2 hne
    rw [List.length_append, List.length_cons]
    omega

/-- One option is passed over, however it is spelled, if it is not bundled. -/
theorem firstOperand?_spelled {g : List Text} (h : Spelled g) (hb : ¬ Bundled g) (args : List Text) :
    firstOperand? (g ++ args) = firstOperand? args := by
  cases h with
  | complete h =>
    obtain ⟨hdash, hno⟩ := Complete.not_mem_valueOptions h
    exact firstOperand?_option hdash hno args
  -- A value in the next argument belongs to a long name or to the letter alone, as the option is not
  -- bundled.
  | @separate p t value h haccepts =>
    refine firstOperand?_valueOption ?_ value args
    cases h with
    | @long name hp hname hvalue =>
      have hall : ∀ p ∈ Parameter.admitted none, p.takesValue = true → ∀ name ∈ p.long?,
          '-' :: '-' :: name.toList ∈ valueOptions := by decide +kernel
      exact hall p hp hvalue name hname
    | @letters letters c hflags hp =>
      by_cases hne : letters = []
      · rw [hne, hp.eq_jobs.2]
        decide
      · exact absurd ⟨letters, c, p, value, hne, hflags, hp, haccepts, rfl⟩ hb

/-- And so are some of them, one after the other. -/
theorem firstOperand?_grouped {given : List (List Text)} (h : ∀ g ∈ given, Spelled g)
    (hb : ∀ g ∈ given, ¬ Bundled g) (args : List Text) :
    firstOperand? (given.flatten ++ args) = firstOperand? args := by
  induction given with
  | nil => rfl
  | cons g given ih =>
    rw [List.flatten_cons, List.append_assoc,
      firstOperand?_spelled (h g (List.mem_cons_self ..)) (hb g (List.mem_cons_self ..))]
    exact ih (fun g' hg' => h g' (List.mem_cons_of_mem _ hg'))
      fun g' hg' => hb g' (List.mem_cons_of_mem _ hg')

/-! ## Values in the place of the command

The value of a bundled option is the first argument that does not begin with a dash.  It is a number, so
it is not taken for an option, and no command is called like that: so `emit` is written out in front of
everything. -/

/-- Whether an argument has the name of a command. -/
def IsWord (t : Text) : Prop := (Word.ofText? t).isSome = true

instance (t : Text) : Decidable (IsWord t) := inferInstanceAs (Decidable (_ = _))

/-- The names of the commands. -/
theorem IsWord.mem {t : Text} (h : IsWord t) :
    t ∈ ["emit", "check", "test", "help"].map String.toList := by
  have htext {s : String} (hs : String.ofList t = s) : t = s.toList := by
    rw [← hs, String.toList_ofList]
  rw [IsWord, Word.ofText?.eq_def] at h
  split at h
  · next hs => simp [htext hs]
  · next hs => simp [htext hs]
  · next hs => simp [htext hs]
  · next hs => simp [htext hs]
  · cases h

/-- A number of jobs is neither an option nor a command. -/
theorem Accepts.plain {value : Text} (h : Accepts .jobs value) :
    value.head? ≠ some '-' ∧ ¬ IsWord value := by
  have hcount : Options.count? value ≠ none := by
    obtain ⟨given, given', hgive⟩ := h
    obtain ⟨jobs, hsingle, -⟩ := map_eq_ok.1 hgive
    rw [Options.single] at hsingle
    split at hsingle
    · cases hsingle
    · obtain ⟨n, haccept, -⟩ := map_eq_ok.1 hsingle
      rintro hnone
      rw [Options.accept, hnone] at haccept
      cases haccept
  constructor
  · intro hdash
    obtain ⟨rest, rfl⟩ := List.head?_eq_some_iff.1 hdash
    exact hcount rfl
  · intro hword
    have hall : ∀ t ∈ ["emit", "check", "test", "help"].map String.toList, Options.count? t = none := by
      decide
    exact hcount (hall value hword.mem)

/-- The value behind a bundled option is found in the place of the command. -/
theorem firstOperand?_bundled {given : List (List Text)} (h : ∀ g ∈ given, Spelled g)
    (hb : ∃ g ∈ given, Bundled g) (args : List Text) :
    ∃ value, firstOperand? (given.flatten ++ args) = some value ∧ ¬ IsWord value := by
  induction given with
  | nil =>
    obtain ⟨g, hg, -⟩ := hb
    cases hg
  | cons g given ih =>
    rw [List.flatten_cons, List.append_assoc]
    by_cases hhere : Bundled g
    · obtain ⟨letters, c, p, value, hne, hflags, hp, haccepts, rfl⟩ := hhere
      have hpos := List.length_pos_iff.2 hne
      have hno : '-' :: (letters ++ [c]) ∉ valueOptions :=
        not_mem_valueOptions (head?_ne_dash hflags hp) (by simp; omega)
      rw [hp.eq_jobs.1] at haccepts
      obtain ⟨hplain, hword⟩ := Accepts.plain haccepts
      refine ⟨value, ?_, hword⟩
      rw [List.cons_append, firstOperand?_option rfl hno]
      exact firstOperand?_operand hplain _
    · rw [firstOperand?_spelled (h g (List.mem_cons_self ..)) hhere]
      refine ih (fun g' hg' => h g' (List.mem_cons_of_mem _ hg')) ?_
      obtain ⟨g', hg', hbundled⟩ := hb
      rcases List.mem_cons.1 hg' with rfl | hg'
      · exact absurd hbundled hhere
      · exact ⟨g', hg', hbundled⟩

/-! ## Writing the command out

All cases come down to what the first operand is.  After `emit` was written out it is the first operand
itself, so nothing more happens the second time. -/

/-- A command line with `emit` written out. -/
def emitted (program : Text) (args : List Text) : List Text :=
  program :: Verb.emit.name.toList :: args

theorem expand_of_word {program t : Text} {args : List Text} (h : firstOperand? args = some t)
    (ht : IsWord t) : expand (program :: args) = program :: args := by
  rw [expand, h]
  exact if_pos ht

theorem expand_of_not_word {program t : Text} {args : List Text} (h : firstOperand? args = some t)
    (ht : ¬ IsWord t) : expand (program :: args) = emitted program args := by
  rw [expand, h]
  exact if_neg ht

/-- Nothing is written out twice. -/
theorem expand_expand (args : List Text) : expand (expand args) = expand args := by
  cases args with
  | nil => rfl
  | cons program args =>
    cases h : firstOperand? args with
    | none =>
      have hsame : expand (program :: args) = program :: args := by rw [expand, h]
      rw [hsame, hsame]
    | some t =>
      by_cases ht : IsWord t
      · rw [expand_of_word h ht, expand_of_word h ht]
      · rw [expand_of_not_word h ht]
        have hemit : firstOperand? (Verb.emit.name.toList :: args) = some Verb.emit.name.toList :=
          firstOperand?_operand (by decide) args
        exact expand_of_word hemit (by decide)

/-- **A command behind options is left as it is, and `emit` is written out where there is none**, unless
an option with its value in the next argument shares its dash with others: then `emit` is written out,
whatever comes.  Whatever the reader accepts in front of a command is grouped as the options here are,
and nothing is written out twice. -/
theorem expand_spelled {given : List (List Text)} (h : ∀ g ∈ given, Spelled g) (program t : Text)
    (args : List Text) :
    ((∀ g ∈ given, ¬ Bundled g) → IsWord t →
      expand (program :: (given.flatten ++ t :: args)) = program :: (given.flatten ++ t :: args)) ∧
    (t.head? ≠ some '-' → ¬ IsWord t →
      expand (program :: (given.flatten ++ t :: args)) = emitted program (given.flatten ++ t :: args)) ∧
    ((∃ g ∈ given, Bundled g) →
      expand (program :: (given.flatten ++ t :: args)) = emitted program (given.flatten ++ t :: args)) ∧
    (∀ all, expand (expand all) = expand all) ∧
    ∀ front r o, Reader.steps { verb := none } front = .ok r → r.separated = false →
      r.finish = .ok o → Grouped front := by
  have hbundled (hb : ∃ g ∈ given, Bundled g) :
      expand (program :: (given.flatten ++ t :: args)) = emitted program (given.flatten ++ t :: args) := by
    obtain ⟨value, hvalue, hword⟩ := firstOperand?_bundled h hb (t :: args)
    exact expand_of_not_word hvalue hword
  refine ⟨fun hb ht => ?_, fun hdash ht => ?_, hbundled, expand_expand,
    fun front r o => Reader.spelled_of_steps⟩
  · have hdash : t.head? ≠ some '-' := by
      have hall : ∀ t ∈ ["emit", "check", "test", "help"].map String.toList, t.head? ≠ some '-' := by
        decide
      exact hall t ht.mem
    exact expand_of_word ((firstOperand?_grouped h hb _).trans (firstOperand?_operand hdash _)) ht
  · by_cases hb : ∃ g ∈ given, Bundled g
    · exact hbundled hb
    · have hb' : ∀ g ∈ given, ¬ Bundled g := fun g hg hbundled => hb ⟨g, hg, hbundled⟩
      exact expand_of_not_word ((firstOperand?_grouped h hb' _).trans (firstOperand?_operand hdash _)) ht

/-- The number of jobs can be given with its letter alone, but not behind the letter of a flag. -/
theorem expand_spelled_jobs :
    let program := "dswift".toList
    let args := ["check".toList, "src".toList]
    let jobs := [["--no-color".toList], ["-j".toList, "4".toList]]
    let bundled := [["-vj".toList, "4".toList]]
    (∀ g ∈ jobs, Spelled g) ∧ (∀ g ∈ bundled, Spelled g) ∧
      expand (program :: (jobs.flatten ++ args)) = program :: (jobs.flatten ++ args) ∧
      expand (program :: (bundled.flatten ++ args))
        = program :: "emit".toList :: (bundled.flatten ++ args) := by
  intro program args jobs bundled
  have hverbose : Flags ['v'] := by
    intro c hc
    rw [List.mem_singleton.1 hc]
    exact ⟨.verbose, by decide, rfl, rfl⟩
  have hvalued : Valued .jobs 'j' := ⟨by decide, rfl, rfl⟩
  have haccepts : Accepts .jobs ['4'] := ⟨{}, { jobs := some 4 }, rfl⟩
  have hjobs : ∀ g ∈ jobs, Spelled g := by
    intro g hg
    rcases List.mem_cons.1 hg with rfl | hg
    · exact .complete (.long (p := .noColor) (by decide) rfl rfl)
    · rw [List.mem_singleton.1 hg]
      exact .separate (.letters .nil hvalued) haccepts
  have hbundled : ∀ g ∈ bundled, Spelled g := by
    intro g hg
    rw [List.mem_singleton.1 hg]
    exact .separate (.letters hverbose hvalued) haccepts
  have hno : ∀ g ∈ jobs, ¬ Bundled g := by
    rintro g hg ⟨letters, c, p, value, hne, -, -, -, rfl⟩
    obtain ⟨hletter, -⟩ : '-' :: (letters ++ [c]) = ['-', 'j'] ∧ value = ['4'] := by
      simpa [jobs] using hg
    exact hne (List.append_eq_singleton_iff.1 (List.cons.inj hletter).2 |>.resolve_right
      fun hcons => List.cons_ne_nil _ _ hcons.2).1
  obtain ⟨hkept, -⟩ := expand_spelled hjobs program "check".toList ["src".toList]
  obtain ⟨-, -, hdisplaced, -⟩ := expand_spelled hbundled program "check".toList ["src".toList]
  exact ⟨hjobs, hbundled, hkept hno (by decide), hdisplaced ⟨_, List.mem_singleton_self _,
    ['v'], 'j', .jobs, ['4'], by decide, hverbose, hvalued, haccepts, rfl⟩⟩

end Shorthand
end CommandLine
end Templating
