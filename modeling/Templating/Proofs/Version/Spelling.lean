import Mathlib.Data.List.Induction
import Templating.Proofs.Text.Lines
import Templating.Proofs.Version.Characters

/-!
# The texts that are versions

A version has one full spelling.  A tools version may also be spelled without its last numbers, if they
are zero, whatever stands behind the numbers.

The readers of a version take things off the front of a text, one after the other.  What each of them
accepts is an equivalence here: the text is what was read followed by the rest, and the rest is one that
the reader would stop at.  With equivalences the readers can be put one behind the other in both
directions, and that a version has only one full spelling comes out with no further argument.

## What is here

* `Version.Valid` are the versions that can be read; `Version.numerals` and `Version.suffix` are the
  parts of their spellings.
* `Version.number_eq_ok_iff`, `Version.identifiers_eq_ok` and `Version.marked_eq_ok_iff` say what
  the readers accept, and `Version.parse_eq_ok_iff` that a full version is read from its full spelling
  only.
* `Version.dotted_append_padding` completes the numbers of a text, and
  `Version.parseTools_iff_spelled` is the conclusion.
-/

set_option autoImplicit false

namespace Templating
namespace Version

/-! ## Spellings

A version is spelled by its numbers with dots between them and by what stands behind the numbers.  The
two parts are kept apart, because only the first one can be shortened, and because a reader of tools
versions cuts the text between them before it reads either. -/

/-- An identifier of a part of a version.  In a pre-release, a number has no needless zero in front. -/
structure IsIdentifier (part : Part) (t : Text) : Prop where
  ne_nil : t ≠ []
  chars : ∀ c ∈ t, isIdentifierChar c = true
  zero : part = .pre → (∀ c ∈ t, c.isDigit = true) → t.head? = some '0' → t = ['0']

/-- The numbers of a version. -/
def numbers (v : Version) : List Nat := [v.major, v.minor, v.patch]

/-- A version whose numbers have 64 bits and whose identifiers are identifiers. -/
structure Valid (v : Version) : Prop where
  numbers : ∀ n ∈ v.numbers, n < 0x10000000000000000
  pre : ∀ i ∈ v.pre, IsIdentifier .pre i
  build : ∀ i ∈ v.build, IsIdentifier .build i

/-- Identifiers behind the mark that announces them. -/
def announced (mark : Char) (ids : List Text) : Text := if ids = [] then [] else mark :: dotted ids

/-- Whether a character announces what stands behind the numbers. -/
def isMark (c : Char) : Bool := c = '-' || c = '+'

/-- What stands behind the numbers of a version. -/
def suffix (v : Version) : Text := announced '-' v.pre ++ announced '+' v.build

/-- Some numbers with a dot between each two. -/
def numerals (ns : List Nat) : Text := dotted (ns.map (Nat.toDigits 10))

/-! ## Numbers

A number is a run of digits without a needless zero in front, and that is exactly what `Nat.toDigits`
makes.  So the digits and the value determine each other (`value_toDigits`, `toDigits_value`), and
`number` reads the one numeral that a text begins with.  Where it ends is part of the statement: a digit
behind it would belong to it. -/

/-- Where a run of characters ends. -/
theorem takeWhile_append_of_head? {p : Char → Bool} {front rest : Text}
    (hfront : ∀ c ∈ front, p c = true) (hrest : ∀ c, rest.head? = some c → p c = false) :
    (front ++ rest).takeWhile p = front ∧ (front ++ rest).dropWhile p = rest := by
  rw [List.takeWhile_append_of_pos hfront, List.dropWhile_append_of_pos hfront]
  cases rest with
  | nil => exact ⟨List.append_nil front, rfl⟩
  | cons c rest => simp [hrest c rfl]

/-- A digit is the digit of its value. -/
theorem digitChar_of_isDigit {c : Char} (h : c.isDigit = true) :
    c.toNat - '0'.toNat < 10 ∧ Nat.digitChar (c.toNat - '0'.toNat) = c := by
  have hc : 48 ≤ c.toNat ∧ c.toNat ≤ 57 := by
    simpa [Char.isDigit, UInt32.le_iff_toNat_le] using h
  have hlt : c.toNat - '0'.toNat < 10 := by
    have : '0'.toNat = 48 := rfl
    omega
  refine ⟨hlt, Char.toNat_inj.1 ?_⟩
  rw [Nat.toNat_digitChar_of_lt_ten hlt]
  have : '0'.toNat = 48 := rfl
  omega

/-- A numeral has the value that it was made of. -/
theorem value_toDigits (n : Nat) : value (Nat.toDigits 10 n) = n := Nat.ofDigitChars_ten_toDigits

/-- A digit more multiplies the value by ten. -/
theorem value_append_singleton (t : Text) (c : Char) :
    value (t ++ [c]) = 10 * value t + (c.toNat - '0'.toNat) := by
  rw [value, List.foldl_append]
  rfl

/-- Digits are the numeral of their value, unless there is a needless zero in front. -/
theorem toDigits_value {t : Text} (hne : t ≠ []) (hdigits : ∀ c ∈ t, c.isDigit = true)
    (hzero : t.head? = some '0' → t = ['0']) : Nat.toDigits 10 (value t) = t := by
  -- From the last digit on, as numerals are made by division.
  induction t using List.reverseRecOn with
  | nil => exact absurd rfl hne
  | append_singleton t c ih =>
    obtain ⟨hlt, hchar⟩ := digitChar_of_isDigit (hdigits c (by simp))
    rw [value_append_singleton]
    by_cases ht : t = []
    · subst ht
      have hvalue : value [] = 0 := rfl
      rw [hvalue, Nat.mul_zero, Nat.zero_add, Nat.toDigits_of_lt_base hlt, hchar, List.nil_append]
    · have hhead : t.head? ≠ some '0' := by
        intro h
        obtain ⟨more, rfl⟩ := List.head?_eq_some_iff.1 h
        simpa using hzero rfl
      have hrest := ih ht (fun d hd => hdigits d (List.mem_append_left _ hd)) (fun h => absurd h hhead)
      -- A zero in front of other digits would be needless, so the digits before the last one have a
      -- value.
      have hpos : 0 < value t := by
        refine Nat.pos_iff_ne_zero.2 fun h => hhead ?_
        rw [← hrest, h]
        rfl
      rw [← Nat.toDigits_append_toDigits (by decide) hpos hlt, hrest, Nat.toDigits_of_lt_base hlt,
        hchar]

/-- Only zero starts with a zero. -/
theorem toDigits_of_head? {n : Nat} (h : (Nat.toDigits 10 n).head? = some '0') :
    Nat.toDigits 10 n = ['0'] := by
  induction n using Nat.strongRecOn with
  | _ n ih =>
    by_cases hn : n < 10
    · rw [Nat.toDigits_of_lt_base hn] at h ⊢
      exact congrArg ([·]) (Option.some.inj h)
    · -- The first digit of a number is the first digit of a tenth of it, which is not zero.
      obtain ⟨c, more, hmore⟩ := List.exists_cons_of_ne_nil (Nat.toDigits_ne_nil (n := n / 10) (b := 10))
      rw [Nat.toDigits_of_base_le (by decide) (Nat.le_of_not_lt hn), hmore, List.cons_append,
        List.head?_cons, ← List.head?_cons (l := more), ← hmore] at h
      have hzero := congrArg value (ih (n / 10) (by omega) h)
      rw [value_toDigits] at hzero
      have : value ['0'] = 0 := rfl
      omega

/-- The numeral of a small number is read wherever something else than a digit follows it. -/
theorem number_toDigits {n : Nat} {rest : Text} (part : Part) (hsmall : n < 0x10000000000000000)
    (hstop : ∀ c, rest.head? = some c → c.isDigit = false) :
    number part (Nat.toDigits 10 n ++ rest) = .ok (n, rest) := by
  have hdigits : ∀ c ∈ Nat.toDigits 10 n, c.isDigit = true :=
    fun c hc => Nat.isDigit_of_mem_toDigits (by decide) (by decide) hc
  obtain ⟨htake, hdrop⟩ := takeWhile_append_of_head? hdigits hstop
  have hzero := toDigits_of_head? (n := n)
  have hne : Nat.toDigits 10 n ≠ [] := Nat.toDigits_ne_nil
  have hvalue := value_toDigits n
  rw [number, htake, hdrop]
  generalize Nat.toDigits 10 n = digits at hzero hne hvalue
  split
  · exact absurd rfl hne
  · exact absurd rfl hne
  · next c more => exact absurd (hzero rfl) (by simp)
  · rw [hvalue, if_pos hsmall]

/-- Whatever is read as a number was its numeral. -/
theorem eq_toDigits_of_number {part : Part} {t rest : Text} {n : Nat}
    (h : number part t = .ok (n, rest)) : n < 0x10000000000000000 ∧ t = Nat.toDigits 10 n ++ rest ∧
      ∀ c, rest.head? = some c → c.isDigit = false := by
  have hsplit : t.takeWhile Char.isDigit ++ t.dropWhile Char.isDigit = t :=
    List.takeWhile_append_dropWhile
  have hdigits : ∀ c ∈ t.takeWhile Char.isDigit, c.isDigit = true :=
    fun c hc => List.mem_takeWhile_imp hc
  have hstop : ∀ c, (t.dropWhile Char.isDigit).head? = some c → c.isDigit = false :=
    fun c hc => by simpa [hc] using List.head?_dropWhile_not Char.isDigit t
  rw [number] at h
  -- The digits and the rest are all that the reader looks at from here on.
  generalize t.takeWhile Char.isDigit = digits at hsplit hdigits h
  generalize t.dropWhile Char.isDigit = after at hsplit hstop h
  split at h
  · simp at h
  · simp at h
  · simp at h
  · next hzero hnil hunexpected =>
    split at h
    · next hsmall =>
      cases h
      refine ⟨hsmall, ?_, hstop⟩
      rw [← hsplit, toDigits_value ?_ hdigits fun hhead => ?_]
      · rintro rfl
        cases rest with
        | nil => exact hnil rfl rfl
        | cons c rest => exact hunexpected c rest rfl rfl
      · obtain ⟨more, rfl⟩ := List.head?_eq_some_iff.1 hhead
        cases more with
        | nil => rfl
        | cons c more => exact (hzero c more rfl).elim
    · simp at h

/-- A number is read up to its last digit. -/
theorem number_eq_ok_iff {part : Part} {t rest : Text} {n : Nat} :
    number part t = .ok (n, rest) ↔ n < 0x10000000000000000 ∧ t = Nat.toDigits 10 n ++ rest ∧
      ∀ c, rest.head? = some c → c.isDigit = false := by
  refine ⟨eq_toDigits_of_number, ?_⟩
  rintro ⟨hsmall, rfl, hstop⟩
  exact number_toDigits part hsmall hstop

/-- A dot is read where there is one. -/
theorem dot_eq_ok_iff {part : Part} {t rest : Text} : dot part t = .ok rest ↔ t = '.' :: rest := by
  constructor
  · intro h
    rw [dot.eq_def] at h
    split at h
    · cases h
      rfl
    · simp at h
    · simp at h
  · rintro rfl
    rfl

/-! ## Identifiers

Identifiers stand behind a mark, with dots between them.  They go on as long as the characters allow,
and so a row of identifiers is read to its end only if no such character and no dot follows (`Ends`).
Inside a version that is never a problem: what follows the identifiers is a mark or nothing. -/

/-- The test for needless zeros, in the words of `IsIdentifier`. -/
theorem hasLeadingZero_eq_false_iff {part : Part} {t : Text} :
    hasLeadingZero part t = false ↔
      (part = .pre → (∀ c ∈ t, c.isDigit = true) → t.head? = some '0' → t = ['0']) := by
  have hlength : t.head? = some '0' → (1 < t.length ↔ t ≠ ['0']) := by
    intro h
    obtain ⟨more, rfl⟩ := List.head?_eq_some_iff.1 h
    cases more with
    | nil => simp
    | cons c more => simp
  rw [hasLeadingZero, ← Bool.not_eq_true]
  simp only [Bool.and_eq_true, decide_eq_true_eq, List.all_eq_true]
  constructor
  · intro h hpart hdigits hhead
    by_contra hne
    exact h ⟨⟨⟨hpart, hdigits⟩, (hlength hhead).2 hne⟩, hhead⟩
  · rintro h ⟨⟨⟨hpart, hdigits⟩, hlong⟩, hhead⟩
    exact (hlength hhead).1 hlong (h hpart hdigits hhead)

/-- No identifier goes on with this text, and no further one follows. -/
def Ends (rest : Text) : Prop := ∀ c, rest.head? = some c → isIdentifierChar c = false ∧ c ≠ '.'

theorem dotted_cons_cons (i j : Text) (ids : List Text) :
    dotted (i :: j :: ids) = i ++ '.' :: dotted (j :: ids) := by
  rw [dotted, List.intercalate_cons_cons, List.append_assoc]
  rfl

theorem dotted_singleton (i : Text) : dotted [i] = i := by simp [dotted]

/-- Identifiers with dots between them are read as they are written. -/
theorem identifiers_of_dotted {part : Part} {rest : Text} (hrest : Ends rest) :
    ∀ {ids : List Text}, ids ≠ [] → (∀ i ∈ ids, IsIdentifier part i) →
      identifiers part (dotted ids ++ rest) = .ok (ids, rest)
  | [], hne, _ => absurd rfl hne
  | [i], _, hids => by
    have hi := hids i (List.mem_singleton.2 rfl)
    obtain ⟨htake, hdrop⟩ := takeWhile_append_of_head? hi.chars fun c hc => (hrest c hc).1
    rw [dotted_singleton, identifiers, htake, if_neg hi.ne_nil,
      if_neg (by simp [hasLeadingZero_eq_false_iff.2 hi.zero])]
    split
    · next after hafter =>
      rw [hdrop] at hafter
      exact absurd rfl (hrest '.' (by rw [hafter]; rfl)).2
    · next hafter =>
      rw [hdrop]
  | i :: j :: ids, _, hids => by
    have hi := hids i (List.mem_cons_self ..)
    have hrec : identifiers part (dotted (j :: ids) ++ rest) = .ok (j :: ids, rest) :=
      identifiers_of_dotted hrest (List.cons_ne_nil j ids)
        fun k hk => hids k (List.mem_cons_of_mem _ hk)
    -- The dot ends the first identifier, and the reader goes on behind it.
    have hdot : ∀ c, ('.' :: (dotted (j :: ids) ++ rest)).head? = some c →
        isIdentifierChar c = false := fun c hc => by cases hc; rfl
    obtain ⟨htake, hdrop⟩ := takeWhile_append_of_head? hi.chars hdot
    rw [dotted_cons_cons, List.append_assoc, List.cons_append, identifiers, htake, if_neg hi.ne_nil,
      if_neg (by simp [hasLeadingZero_eq_false_iff.2 hi.zero])]
    split
    · next after hafter =>
      rw [hdrop] at hafter
      cases hafter
      rw [hrec]
    · next hafter => exact absurd hdrop (hafter _)

/-- What passes the tests of the reader is an identifier. -/
theorem isIdentifier_takeWhile {part : Part} {t : Text} (hne : t.takeWhile isIdentifierChar ≠ [])
    (hzero : ¬ hasLeadingZero part (t.takeWhile isIdentifierChar) = true) :
    IsIdentifier part (t.takeWhile isIdentifierChar) :=
  ⟨hne, fun _ hc => List.mem_takeWhile_imp hc,
    hasLeadingZero_eq_false_iff.1 (Bool.not_eq_true _ ▸ hzero)⟩

/-- Nothing else is read as identifiers, and the reader stops only where it has to. -/
theorem identifiers_eq_ok {part : Part} {t rest : Text} {ids : List Text}
    (h : identifiers part t = .ok (ids, rest)) :
    ids ≠ [] ∧ (∀ i ∈ ids, IsIdentifier part i) ∧ t = dotted ids ++ rest ∧ Ends rest := by
  -- In two of the five cases something is read: with a dot behind the identifier and without one.
  fun_induction identifiers part t generalizing ids rest with
  | case1 => simp at h
  | case2 => simp at h
  | case3 t identifier hne hzero after hdrop more rest' hmore =>
    rename_i ih
    cases h
    obtain ⟨hids, hall, hafter, hends⟩ := ih hmore
    obtain ⟨j, more, rfl⟩ := List.exists_cons_of_ne_nil hids
    refine ⟨List.cons_ne_nil _ _, ?_, ?_, hends⟩
    · exact List.forall_mem_cons.2 ⟨isIdentifier_takeWhile hne hzero, hall⟩
    · rw [dotted_cons_cons, List.append_assoc, List.cons_append, ← hafter, ← hdrop]
      exact List.takeWhile_append_dropWhile.symm
  | case4 => simp at h
  | case5 t identifier hne hzero =>
    rename_i hdot
    cases h
    refine ⟨List.cons_ne_nil _ _, ?_, ?_, ?_⟩
    · exact List.forall_mem_singleton.2 (isIdentifier_takeWhile hne hzero)
    · rw [dotted_singleton]
      exact List.takeWhile_append_dropWhile.symm
    · intro c hc
      refine ⟨by simpa [hc] using List.head?_dropWhile_not isIdentifierChar t, ?_⟩
      rintro rfl
      obtain ⟨after, hafter⟩ := List.head?_eq_some_iff.1 hc
      exact hdot after hafter

/-- Identifiers are read up to the end of the last one; without their mark there are none. -/
theorem marked_eq_ok_iff {mark : Char} {part : Part} {t rest : Text} {ids : List Text} :
    marked mark part t = .ok (ids, rest) ↔ (∀ i ∈ ids, IsIdentifier part i) ∧
      t = announced mark ids ++ rest ∧ if ids = [] then rest.head? ≠ some mark else Ends rest := by
  constructor
  · intro h
    rw [marked.eq_def] at h
    split at h
    · cases h
      simp [announced]
    · next c after =>
      split at h
      · next hc =>
        obtain ⟨hids, hall, hafter, hends⟩ := identifiers_eq_ok h
        rw [announced, if_neg hids, if_neg hids, List.cons_append, ← hafter, hc]
        exact ⟨hall, rfl, hends⟩
      · next hc =>
        cases h
        simpa [announced] using hc
  · rintro ⟨hall, rfl, hends⟩
    by_cases hids : ids = []
    · subst hids
      rw [if_pos rfl] at hends
      rw [announced, if_pos rfl, List.nil_append]
      cases rest with
      | nil => rfl
      | cons c rest => rw [marked, if_neg (by simpa using hends)]
    · rw [if_neg hids] at hends
      rw [announced, if_neg hids, List.cons_append, marked, if_pos rfl]
      exact identifiers_of_dotted hends hids hall

/-! ## Full versions

A full version is three numbers, two dots and two rows of identifiers.  Each direction goes through the
seven readers in their order. -/

/-- The full spelling of a version is its numbers and its suffix. -/
theorem render_eq (v : Version) : v.render = numerals v.numbers ++ v.suffix := by
  simp [render, numerals, suffix, numbers, announced, dotted]

theorem head?_announced {mark c : Char} {ids : List Text} (h : (announced mark ids).head? = some c) :
    c = mark := by
  rw [announced] at h
  split at h
  · cases h
  · exact (Option.some.inj h).symm

/-- A suffix begins with a mark, unless it is empty. -/
theorem isMark_head?_suffix {v : Version} {c : Char} (h : v.suffix.head? = some c) :
    isMark c = true := by
  rw [suffix, List.head?_append, Option.or_eq_some_iff] at h
  rcases h with h | ⟨-, h⟩
  · rw [head?_announced h]
    rfl
  · rw [head?_announced h]
    rfl

/-- So the last number ends where the suffix begins. -/
theorem isDigit_of_isMark {c : Char} (h : isMark c = true) : c.isDigit = false := by
  rcases (by simpa [isMark] using h : c = '-' ∨ c = '+') with rfl | rfl
  · rfl
  · rfl

/-- The full spelling in the order in which it is read. -/
theorem render_append (v : Version) : v.render = Nat.toDigits 10 v.major ++
    '.' :: (Nat.toDigits 10 v.minor ++ '.' :: (Nat.toDigits 10 v.patch ++ v.suffix)) := by
  simp [render, suffix, announced]

/-- A version is read from its full spelling. -/
theorem parse_render {v : Version} (h : v.Valid) : parse v.render = .ok v := by
  obtain ⟨hmajor, hminor, hpatch⟩ : v.major < 0x10000000000000000 ∧ v.minor < 0x10000000000000000 ∧
      v.patch < 0x10000000000000000 := by simpa [numbers] using h.numbers
  -- A pre-release ends at the build metadata or at the end of the text.
  have hpre : marked '-' .pre v.suffix = .ok (v.pre, announced '+' v.build) := by
    refine marked_eq_ok_iff.2 ⟨h.pre, rfl, ?_⟩
    split
    · exact fun h => absurd (head?_announced h) (by decide)
    · intro c hc
      obtain rfl := head?_announced hc
      decide
  have hbuild : marked '+' .build (announced '+' v.build) = .ok (v.build, []) := by
    refine marked_eq_ok_iff.2 ⟨h.build, (List.append_nil _).symm, ?_⟩
    split
    · simp
    · intro c hc
      cases hc
  rw [parse, v.render_append, if_neg (by simp)]
  refine bind_eq_ok.2 ⟨_, number_toDigits _ hmajor (by simp), bind_eq_ok.2 ⟨_, rfl, ?_⟩⟩
  refine bind_eq_ok.2 ⟨_, number_toDigits _ hminor (by simp), bind_eq_ok.2 ⟨_, rfl, ?_⟩⟩
  refine bind_eq_ok.2 ⟨_, number_toDigits _ hpatch fun c hc => ?_, ?_⟩
  · exact isDigit_of_isMark (isMark_head?_suffix hc)
  · exact bind_eq_ok.2 ⟨_, hpre, bind_eq_ok.2 ⟨_, hbuild, rfl⟩⟩

/-- A text that is read as a version is its full spelling. -/
theorem eq_render_of_parse {t : Text} {v : Version} (h : parse t = .ok v) :
    v.Valid ∧ t = v.render := by
  rw [parse] at h
  split at h
  · cases h
  obtain ⟨⟨major, t1⟩, hmajor, h⟩ := bind_eq_ok.1 h
  obtain ⟨t2, hdot, h⟩ := bind_eq_ok.1 h
  obtain ⟨⟨minor, t3⟩, hminor, h⟩ := bind_eq_ok.1 h
  obtain ⟨t4, hdot', h⟩ := bind_eq_ok.1 h
  obtain ⟨⟨patch, t5⟩, hpatch, h⟩ := bind_eq_ok.1 h
  obtain ⟨⟨pre, t6⟩, hpre, h⟩ := bind_eq_ok.1 h
  obtain ⟨⟨build, t7⟩, hbuild, h⟩ := bind_eq_ok.1 h
  -- Nothing may be left over.
  cases t7 with
  | cons c t7 => cases h
  | nil =>
    cases h
    obtain ⟨hmajor', rfl, -⟩ := number_eq_ok_iff.1 hmajor
    obtain rfl := dot_eq_ok_iff.1 hdot
    obtain ⟨hminor', rfl, -⟩ := number_eq_ok_iff.1 hminor
    obtain rfl := dot_eq_ok_iff.1 hdot'
    obtain ⟨hpatch', rfl, -⟩ := number_eq_ok_iff.1 hpatch
    obtain ⟨hpre', rfl, -⟩ := marked_eq_ok_iff.1 hpre
    obtain ⟨hbuild', rfl, -⟩ := marked_eq_ok_iff.1 hbuild
    refine ⟨⟨by simpa [numbers] using ⟨hmajor', hminor', hpatch'⟩, hpre', hbuild'⟩, ?_⟩
    rw [render_append, suffix, List.append_nil]

/-- A full version is read from its full spelling, and from no other text. -/
theorem parse_eq_ok_iff {t : Text} {v : Version} : parse t = .ok v ↔ v.Valid ∧ t = v.render := by
  refine ⟨eq_render_of_parse, ?_⟩
  rintro ⟨hvalid, rfl⟩
  exact parse_render hvalid

/-! ## Dots between texts

Joining with dots loses nothing as long as there are no dots inside, and the number of dots tells how
many texts were joined.  The padding of a tools version is computed from that number alone. -/

/-- Splitting at the dots and joining again gives back the text. -/
theorem dotted_splitOn (t : Text) : dotted (t.splitOn '.') = t := List.intercalate_splitOn '.'

/-- Texts without dots are known from the text that has dots between them. -/
theorem dotted_inj {ids ids' : List Text} (hne : ids ≠ []) (hne' : ids' ≠ [])
    (hids : ∀ i ∈ ids, '.' ∉ i) (hids' : ∀ i ∈ ids', '.' ∉ i) (h : dotted ids = dotted ids') :
    ids = ids' := by
  rw [← List.splitOn_intercalate '.' hids hne, ← List.splitOn_intercalate '.' hids' hne']
  exact congrArg (List.splitOn '.') h

/-- What is joined has the characters of the texts, and dots. -/
theorem mem_dotted {ids : List Text} {c : Char} (h : c ∈ dotted ids) :
    c = '.' ∨ ∃ i ∈ ids, c ∈ i := by
  induction ids with
  | nil => cases h
  | cons i ids ih =>
    cases ids with
    | nil =>
      rw [dotted_singleton] at h
      exact .inr ⟨i, List.mem_cons_self .., h⟩
    | cons j ids =>
      rw [dotted_cons_cons, List.mem_append, List.mem_cons] at h
      rcases h with h | h | h
      · exact .inr ⟨i, List.mem_cons_self .., h⟩
      · exact .inl h
      · rcases ih h with h | ⟨k, hk, h⟩
        · exact .inl h
        · exact .inr ⟨k, List.mem_cons_of_mem _ hk, h⟩

/-- Between texts there is one dot less than there are texts. -/
theorem count_dotted {ids : List Text} (hne : ids ≠ []) (hids : ∀ i ∈ ids, '.' ∉ i) :
    (dotted ids).count '.' + 1 = ids.length := by
  induction ids with
  | nil => exact absurd rfl hne
  | cons i ids ih =>
    have hi : i.count '.' = 0 := List.count_eq_zero.2 (hids i (List.mem_cons_self ..))
    cases ids with
    | nil => rw [dotted_singleton, hi, List.length_singleton]
    | cons j ids =>
      have hrest := ih (List.cons_ne_nil j ids) fun k hk => hids k (List.mem_cons_of_mem _ hk)
      rw [dotted_cons_cons, List.count_append, hi, List.count_cons_self, hrest, Nat.zero_add]
      rfl

/-! ## Missing numbers

A tools version is completed before it is read: the text is cut in front of the first mark, and as many
zeros are added to the part before it as dots are missing.  Completing works on the text and knows
nothing of numbers, so a wrong text may be completed to a wrong version; it is the reader that refuses
it.  What has to be shown is that a completed text that is a version was the spelling of one with fewer
numbers. -/

/-- Fewer than three numbers are completed by zeros. -/
theorem dotted_append_padding {ids : List Text} (hne : ids ≠ []) (hids : ∀ i ∈ ids, '.' ∉ i) :
    dotted ids ++ padding (dotted ids) = dotted (ids ++ List.replicate (3 - ids.length) ['0']) := by
  have hcount := count_dotted hne hids
  rw [padding]
  match ids, hne with
  | [i], _ =>
    rw [List.length_singleton] at hcount
    rw [Nat.succ.inj hcount]
    simp [dotted]
  | [i, j], _ =>
    rw [show (dotted [i, j]).count '.' = 1 from Nat.succ.inj hcount]
    simp [dotted]
  | i :: j :: k :: ids, _ =>
    split
    · simp_all
    · simp_all
    · simp

theorem not_mem_toDigits {n : Nat} {c : Char} (hc : c.isDigit = false) : c ∉ Nat.toDigits 10 n := by
  intro h
  rw [Nat.isDigit_of_mem_toDigits (by decide) (by decide) h] at hc
  cases hc

theorem dot_not_mem_of_mem_numerals {ns : List Nat} {i : Text} (h : i ∈ ns.map (Nat.toDigits 10)) :
    '.' ∉ i := by
  obtain ⟨n, -, rfl⟩ := List.mem_map.1 h
  exact not_mem_toDigits rfl

/-- Every text has a part before its first mark and a part from there on. -/
theorem exists_core (t : Text) : ∃ rest, t = core t ++ rest ∧ t.drop (core t).length = rest ∧
    (∀ c ∈ core t, isMark c = false) ∧ ∀ c, rest.head? = some c → isMark c = true := by
  have hsplit : core t ++ t.dropWhile (fun c => c ≠ '-' && c ≠ '+') = t :=
    List.takeWhile_append_dropWhile
  refine ⟨_, hsplit.symm, ?_, fun c hc => ?_, fun c hc => ?_⟩
  · have hdrop : (core t ++ t.dropWhile (fun c => c ≠ '-' && c ≠ '+')).drop (core t).length
        = t.dropWhile (fun c => c ≠ '-' && c ≠ '+') := List.drop_left
    rwa [hsplit] at hdrop
  · simpa [isMark] using List.mem_takeWhile_imp hc
  · have hstop := List.head?_dropWhile_not (fun c => c ≠ '-' && c ≠ '+') t
    rw [hc] at hstop
    simpa [isMark, imp_iff_not_or] using hstop

/-- A text up to the suffix of a version. -/
theorem core_append {front rest : Text} (hfront : ∀ c ∈ front, isMark c = false)
    (hrest : ∀ c, rest.head? = some c → isMark c = true) :
    core (front ++ rest) = front ∧ (front ++ rest).drop (core (front ++ rest)).length = rest := by
  have hcore : core (front ++ rest) = front := by
    refine (takeWhile_append_of_head? (fun c hc => ?_) fun c hc => ?_).1
    · simpa [isMark] using hfront c hc
    · simpa [isMark, imp_iff_not_or] using hrest c hc
  rw [hcore]
  exact ⟨rfl, List.drop_left⟩

/-- There is one way to cut a text in front of its first mark. -/
theorem core_append_inj {front rest front' rest' : Text} (hfront : ∀ c ∈ front, isMark c = false)
    (hrest : ∀ c, rest.head? = some c → isMark c = true) (hfront' : ∀ c ∈ front', isMark c = false)
    (hrest' : ∀ c, rest'.head? = some c → isMark c = true) (h : front ++ rest = front' ++ rest') :
    front = front' ∧ rest = rest' := by
  have hcore := (core_append hfront hrest).1
  rw [h, (core_append hfront' hrest').1] at hcore
  subst hcore
  exact ⟨rfl, List.append_cancel_left h⟩

/-- There are no marks in the numbers of a version. -/
theorem isMark_of_mem_numerals {ns : List Nat} {c : Char} (h : c ∈ numerals ns) :
    isMark c = false := by
  rcases mem_dotted h with rfl | ⟨i, hi, h⟩
  · decide
  · obtain ⟨n, -, rfl⟩ := List.mem_map.1 hi
    exact Bool.eq_false_iff.2 fun hmark => not_mem_toDigits (isDigit_of_isMark hmark) h

/-- Nor are there in what completes them. -/
theorem isMark_of_mem_padding {t : Text} {c : Char} (h : c ∈ padding t) : isMark c = false := by
  have hc : c = '.' ∨ c = '0' := by
    rw [padding] at h
    split at h
    · have hc : c = '.' ∨ c = '0' ∨ c = '.' ∨ c = '0' := by simpa using h
      tauto
    · simpa using h
    · cases h
  rcases hc with rfl | rfl
  · rfl
  · rfl

/-- Numbers that are left out count as zero, whatever stands behind them. -/
theorem parseTools_numerals {ns : List Nat} {rest : Text} (hne : ns ≠ [])
    (hrest : ∀ c, rest.head? = some c → isMark c = true) :
    parseTools (numerals ns ++ rest)
      = parse (numerals (ns ++ List.replicate (3 - ns.length) 0) ++ rest) := by
  obtain ⟨hcore, hdrop⟩ := core_append (fun c hc => isMark_of_mem_numerals hc) hrest
  -- Numerals have no dots, so each missing number is a missing dot.
  have hdots : ∀ i ∈ ns.map (Nat.toDigits 10), '.' ∉ i := fun i => dot_not_mem_of_mem_numerals
  have hpad := dotted_append_padding (by simpa using hne) hdots
  rw [parseTools, hdrop, hcore, numerals, hpad]
  simp [numerals]

/-- Numerals that end in zeros are those of a row that ends in zeros. -/
theorem exists_numerals {ns : List Nat} {pieces : List Text} {k : Nat}
    (h : ns.map (Nat.toDigits 10) = pieces ++ List.replicate k ['0']) :
    ∃ front, pieces = front.map (Nat.toDigits 10) ∧ ns = front ++ List.replicate k 0 := by
  obtain ⟨front, zeros, rfl, rfl, hzeros⟩ := List.map_eq_append_iff.1 h
  obtain ⟨hlength, hzeros⟩ := List.eq_replicate_iff.1 hzeros
  -- A numeral that is written as a zero is that of zero.
  have heq : zeros = List.replicate k 0 := by
    refine List.eq_replicate_iff.2 ⟨by simpa using hlength, fun n hn => ?_⟩
    rw [← value_toDigits n, hzeros _ (List.mem_map_of_mem hn)]
    rfl
  exact ⟨front, rfl, by rw [heq]⟩

/-- Only the last numbers of a version can be left out, and only if they are zero. -/
theorem eq_numerals_of_parseTools {t : Text} {v : Version} (h : parseTools t = .ok v) :
    v.Valid ∧ ∃ ns, 1 ≤ ns.length ∧ ns.length ≤ 3 ∧
      v.numbers = ns ++ List.replicate (3 - ns.length) 0 ∧ t = numerals ns ++ v.suffix := by
  obtain ⟨rest, ht, hdrop, hcore, hrest⟩ := exists_core t
  rw [parseTools, hdrop] at h
  obtain ⟨hvalid, htext⟩ := parse_eq_ok_iff.1 h
  refine ⟨hvalid, ?_⟩
  have hpadded : ∀ c ∈ core t ++ padding (core t), isMark c = false :=
    fun c hc => (List.mem_append.1 hc).elim (hcore c) isMark_of_mem_padding
  obtain ⟨hnumerals, rfl⟩ := core_append_inj hpadded hrest (fun c => isMark_of_mem_numerals)
    (fun c => isMark_head?_suffix) (htext.trans v.render_eq)
  -- The pieces between the dots of the text, completed by zeros, are the numerals of the version.
  have hne : (core t).splitOn '.' ≠ [] := List.splitOn_ne_nil '.' (core t)
  have hdots : ∀ i ∈ (core t).splitOn '.', '.' ∉ i := fun i hi => Text.not_mem_of_mem_splitOn hi
  have hpad := dotted_append_padding hne hdots
  rw [dotted_splitOn, hnumerals] at hpad
  generalize hpieces : (core t).splitOn '.' = pieces at hne hdots hpad
  have heq : v.numbers.map (Nat.toDigits 10) = pieces ++ List.replicate (3 - pieces.length) ['0'] := by
    refine dotted_inj (by simp [numbers]) (by simp [hne]) (fun i => dot_not_mem_of_mem_numerals)
      (fun i hi => ?_) hpad
    rcases List.mem_append.1 hi with hi | hi
    · exact hdots i hi
    · simp [(List.mem_replicate.1 hi).2]
  obtain ⟨ns, rfl, hns⟩ := exists_numerals heq
  rw [List.length_map] at hns
  have hlength : 3 = ns.length + (3 - ns.length) := by
    simpa [numbers] using congrArg List.length hns
  have hpos : 0 < ns.length := List.length_pos_iff.2 (by simpa using hne)
  refine ⟨ns, hpos, by omega, hns, ?_⟩
  rw [numerals, ← hpieces, dotted_splitOn]
  exact ht

/-- **A tools version is a version without some of its last numbers, which are zero.**  In particular, a
version is read from its own spelling, and writing the missing numbers out changes nothing. -/
theorem parseTools_iff_spelled :
    (∀ (t : Text) (v : Version), parseTools t = .ok v ↔ v.Valid ∧ ∃ ns, 1 ≤ ns.length ∧
      ns.length ≤ 3 ∧ v.numbers = ns ++ List.replicate (3 - ns.length) 0 ∧
      t = numerals ns ++ v.suffix) ∧
    (∀ v : Version, v.Valid → parseTools v.render = .ok v) ∧
    ∀ (ns : List Nat) (v : Version), 1 ≤ ns.length → ns.length ≤ 3 →
      parseTools (numerals ns ++ v.suffix)
        = parseTools (numerals (ns ++ List.replicate (3 - ns.length) 0) ++ v.suffix) := by
  have hspelled : ∀ (ns : List Nat) (v : Version), 1 ≤ ns.length →
      parseTools (numerals ns ++ v.suffix)
        = parse (numerals (ns ++ List.replicate (3 - ns.length) 0) ++ v.suffix) :=
    fun ns v hpos => parseTools_numerals (List.length_pos_iff.1 hpos) fun c => isMark_head?_suffix
  have hread : ∀ (ns : List Nat) (v : Version), v.Valid → 1 ≤ ns.length →
      v.numbers = ns ++ List.replicate (3 - ns.length) 0 →
      parseTools (numerals ns ++ v.suffix) = .ok v := by
    intro ns v hvalid hpos hns
    rw [hspelled ns v hpos, ← hns, ← render_eq]
    exact parse_eq_ok_iff.2 ⟨hvalid, rfl⟩
  refine ⟨fun t v => ⟨eq_numerals_of_parseTools, ?_⟩, fun v hvalid => ?_, fun ns v hpos hle => ?_⟩
  · rintro ⟨hvalid, ns, hpos, -, hns, rfl⟩
    exact hread ns v hvalid hpos hns
  · rw [render_eq]
    exact hread v.numbers v hvalid (by simp [numbers]) (List.append_nil _).symm
  · have hthree : (ns ++ List.replicate (3 - ns.length) 0).length = 3 := by
      rw [List.length_append, List.length_replicate]
      omega
    have hfull := hspelled (ns ++ List.replicate (3 - ns.length) 0) v (by omega)
    rw [hthree, Nat.sub_self, List.replicate_zero, List.append_nil] at hfull
    rw [hspelled ns v hpos, hfull]

end Version
end Templating
