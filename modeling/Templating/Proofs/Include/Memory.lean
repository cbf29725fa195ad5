import Templating.Proofs.Include.Rule

/-!
# What is remembered is right

An expander keeps the expansions of the files it has included, and it keeps them when a later
expansion fails.  They stay what they were: each of them is the expansion of its file, whatever
files were in progress when it was made.

## What is here

* `Expander.Sound` says so of everything that is remembered, and `Expander.Covers` is what the files in
  progress have to be for that: every file that is read in an encoding of its own is one of them.
* `Expander.sound_expandTags` and `Expander.sound_expandTag` show that expanding keeps it, and that
  every success is the expansion that the include graph describes.
* `Generator.asked` are the encodings that a build asks for, and `Generator.unfolds_of_expand` says of
  a template what those say of the files it includes.
-/

set_option autoImplicit false

namespace Templating
namespace Expander

/-! ## Looking up

What was remembered last is found first, by the components of its path. -/

/-- What was just remembered is found, and everything else as before. -/
theorem find?_remember (x : Expander) (p q : Path) (d : Document) :
    (x.remember p d).find? q = if Path.Same p q then some d else x.find? q := by
  rw [find?, remember, List.find?_cons]
  split
  · next h => rw [if_pos (by simpa using h)]; rfl
  · next h => rw [if_neg (by simpa using h)]; rfl

/-! ## The invariant

A file that is included is read without an encoding being asked for, while one may be asked for the
template.  So an expansion that is remembered is the expansion of a file as it is read by default.  It
would be wrong to remember one of the template, and that does not happen, since the template is in
progress all the time (`Covers`). -/

variable {s : Surroundings} {chosen : Path → Option TextEncoding}

/-- Everything that is remembered is an expansion. -/
def Sound (s : Surroundings) (chosen : Path → Option TextEncoding) (x : Expander) : Prop :=
  ∀ p d, p.Folded → x.find? p = some d → s.Unfolds chosen p d

/-- A file is read in an encoding that was asked for only if it is one of `stack`. -/
def Covers (chosen : Path → Option TextEncoding) (stack : List Path) : Prop :=
  ∀ p : Path, p.Folded → (∀ q ∈ stack, ¬ Path.Same q p) → chosen p = none

/-- More files in progress do not hurt. -/
theorem Covers.append {stack : List Path} (h : Covers chosen stack) (p : Path) :
    Covers chosen (stack ++ [p]) :=
  fun q hq hstack => h q hq fun r hr => hstack r (List.mem_append_left _ hr)

/-- A new expander remembers nothing. -/
theorem sound_new (s : Surroundings) (chosen : Path → Option TextEncoding) (reads : List Path) :
    Sound s chosen { reads } := by
  intro p d _ h
  cases h

/-- An expansion may be remembered. -/
theorem Sound.remember {x : Expander} {p : Path} {d : Document} (hx : Sound s chosen x)
    (hp : p.Folded) (hd : s.Unfolds chosen p d) : Sound s chosen (x.remember p d) := by
  intro q e hq h
  rw [find?_remember] at h
  split at h
  · next hsame =>
    cases h
    rwa [← hp.eq_of_same hq hsame]
  · exact hx q e hq h

/-- The text of the file that a tag names, when it is none of those in progress. -/
theorem text?_of_read {stack : List Path} {p : Path} {text : Text} {encoding : TextEncoding}
    (hcovers : Covers chosen stack) (hp : p.Folded) (hs : ∀ q ∈ stack, ¬ Path.Same q p)
    (hread : s.files.readText p none = .ok (text, encoding)) : s.text? chosen p = some text := by
  rw [Surroundings.text?_eq_some_iff, hcovers p hp hs]
  exact ⟨encoding, hread⟩

/-- And its outline, if it is accepted. -/
theorem outline?_of_read {stack : List Path} {p : Path} {text : Text} {encoding : TextEncoding}
    {o : Outline} (hcovers : Covers chosen stack) (hp : p.Folded)
    (hs : ∀ q ∈ stack, ¬ Path.Same q p) (hread : s.files.readText p none = .ok (text, encoding))
    (ho : Outline.ofText s.running p text = .ok o) : s.outline? chosen p = some o :=
  Surroundings.outline?_eq_some_iff.2 ⟨text, text?_of_read hcovers hp hs hread, ho⟩

/-- An accepted file has tags that name folded paths. -/
theorem folded_of_ofText {p : Path} {text : Text} {o : Outline}
    (ho : Outline.ofText s.running p text = .ok o) : ∀ tag ∈ o.tags, tag.target.Folded :=
  (Outline.describes_of_ofText ho).folded

/-- Each step keeps what is remembered sound, and gives what the include graph says. -/
theorem soundRule (s : Surroundings) (chosen : Path → Option TextEncoding) :
    Rule s
      (fun stack _ tag x r x' => Covers chosen stack → tag.target.Folded → Sound s chosen x →
        Sound s chosen x' ∧ ∀ d, r = .ok d → s.Unfolds chosen tag.target d)
      (fun stack file cursor tags x r x' => Covers chosen stack →
        (∀ tag ∈ tags, tag.target.Folded) → Sound s chosen x → Sound s chosen x' ∧
          ∀ pieces, r = .ok pieces → ∃ tree, IncludeTree.Grows s chosen tags tree ∧
            pieces = tree.pieces file cursor) where
  known hx := by
    intro _ hfolded hsound
    refine ⟨hsound, fun d hd => ?_⟩
    cases hd
    exact hsound _ _ hfolded hx
  cyclic _ _ := fun _ _ hsound => ⟨hsound, nofun⟩
  missing _ _ _ := fun _ _ hsound => ⟨hsound, nofun⟩
  unreadable _ _ _ _ := fun _ _ hsound => ⟨hsound, nofun⟩
  refused _ _ _ _ _ := fun _ _ hsound => ⟨hsound, nofun⟩
  failed _ _ _ _ ho _ ih := by
    intro hcovers _ hsound
    exact ⟨(ih (hcovers.append _) (folded_of_ofText ho) hsound).1, nofun⟩
  expanded _ hs _ hread ho _ ih := by
    intro hcovers hfolded hsound
    obtain ⟨hsound', hpieces⟩ := ih (hcovers.append _) (folded_of_ofText ho) hsound
    obtain ⟨tree, htree, rfl⟩ := hpieces _ rfl
    have hunfolds : s.Unfolds chosen _ _ :=
      ⟨_, tree, outline?_of_read hcovers hfolded hs hread ho, htree, rfl⟩
    refine ⟨hsound'.remember hfolded hunfolds, fun d hd => ?_⟩
    cases hd
    exact hunfolds
  nil := by
    intro _ _ _ _ _ _ hsound
    refine ⟨hsound, fun pieces hpieces => ?_⟩
    cases hpieces
    exact ⟨.done, .done, rfl⟩
  stopped _ ih := by
    intro hcovers hfolded hsound
    exact ⟨(ih hcovers (hfolded _ (List.mem_cons_self ..)) hsound).1, nofun⟩
  stoppedLater _ ih _ ihlater := by
    intro hcovers hfolded hsound
    have hfirst := ih hcovers (hfolded _ (List.mem_cons_self ..)) hsound
    have hlater := ihlater hcovers (fun t ht => hfolded t (List.mem_cons_of_mem _ ht)) hfirst.1
    exact ⟨hlater.1, nofun⟩
  cons _ ih _ ihlater := by
    intro hcovers hfolded hsound
    obtain ⟨hsound', hd⟩ := ih hcovers (hfolded _ (List.mem_cons_self ..)) hsound
    obtain ⟨hsound'', hpieces⟩ :=
      ihlater hcovers (fun t ht => hfolded t (List.mem_cons_of_mem _ ht)) hsound'
    obtain ⟨o, below, ho, hbelow, rfl⟩ := hd _ rfl
    obtain ⟨later, hlater, rfl⟩ := hpieces _ rfl
    refine ⟨hsound'', fun pieces hpieces => ?_⟩
    cases hpieces
    exact ⟨.tag _ o below later, .tag ho hbelow hlater, rfl⟩

/-- Expanding tags keeps what is remembered sound, and a success is the tree that the tags grow. -/
theorem sound_expandTags (stack : List Path) (file : SourceFile) (cursor : Nat)
    {tags : List IncludeTag} {x : Expander} (hcovers : Covers chosen stack)
    (hfolded : ∀ tag ∈ tags, tag.target.Folded) (hsound : Sound s chosen x) :
    Sound s chosen (expandTags s stack file cursor tags x).2 ∧
      ∀ pieces, (expandTags s stack file cursor tags x).1 = .ok pieces →
        ∃ tree, IncludeTree.Grows s chosen tags tree ∧ pieces = tree.pieces file cursor :=
  (soundRule s chosen).tags stack file cursor tags x hcovers hfolded hsound

/-- Expanding one tag keeps what is remembered sound, and a success is the expansion of its file. -/
theorem sound_expandTag (stack : List Path) (file : SourceFile) {tag : IncludeTag} {x : Expander}
    (hcovers : Covers chosen stack) (hfolded : tag.target.Folded) (hsound : Sound s chosen x) :
    Sound s chosen (expandTag s stack file tag x).2 ∧
      ∀ d, (expandTag s stack file tag x).1 = .ok d → s.Unfolds chosen tag.target d :=
  (soundRule s chosen).tag stack file tag x hcovers hfolded hsound

theorem Sound.of_expandTag {stack : List Path} {file : SourceFile} {tag : IncludeTag}
    {x x' : Expander} {r : Except BuildError Document} (hsound : Sound s chosen x)
    (hrun : expandTag s stack file tag x = (r, x')) (hcovers : Covers chosen stack)
    (hfolded : tag.target.Folded) : Sound s chosen x' := by
  have h := (sound_expandTag stack file hcovers hfolded hsound).1
  rwa [hrun] at h

theorem expand_of_ofText {path : Path} {text : Text} {o : Outline}
    (ho : Outline.ofText s.running path text = .ok o) (x : Expander) :
    expand s path text x = ((expandTags s [path] o.file o.start o.tags x).1.map (⟨o.file, ·⟩),
      (expandTags s [path] o.file o.start o.tags x).2) := by
  rw [expand, ho]
  dsimp only
  generalize expandTags s [path] o.file o.start o.tags x = r
  obtain ⟨_ | pieces, x'⟩ := r
  · rfl
  · rfl

theorem fst_expand (s : Surroundings) (path : Path) (text : Text) (x : Expander) :
    (expand s path text x).1 = (do
      let o ← Outline.ofText s.running path text
      let pieces ← (expandTags s [path] o.file o.start o.tags x).1
      return ⟨o.file, pieces⟩) := by
  cases ho : Outline.ofText s.running path text with
  | error e =>
    rw [expand, ho]
    rfl
  | ok o =>
    rw [expand_of_ofText ho]
    show _ = (expandTags s [path] o.file o.start o.tags x).1.bind _
    cases (expandTags s [path] o.file o.start o.tags x).1 with
    | error e => rfl
    | ok pieces => rfl

end Expander

/-! ## Templates

A template is expanded by a new expander, in the encoding that was asked for.  These are the equations
that say so, one for each way in which it can go, and what follows from the invariant. -/

namespace Generator

variable {g : Generator} {template path : Path} {encoding : Option TextEncoding}

/-- The encodings that a build asks for: a given one for the template, none for any other file. -/
def asked (path : Path) (encoding : Option TextEncoding) : Path → Option TextEncoding :=
  fun p => if p = path then encoding else none

/-- Only the template is read in an encoding that was asked for. -/
theorem covers_asked (path : Path) (encoding : Option TextEncoding) :
    Expander.Covers (asked path encoding) [path] := by
  intro p _ hp
  refine if_neg ?_
  rintro rfl
  exact hp p (List.mem_singleton_self p) (Path.Same.refl p)

/-- The absolute path of a template is folded. -/
theorem folded_of_absolute (h : g.absolute template = .ok path) : path.Folded := by
  rw [absolute] at h
  split at h
  · next hpath =>
    cases h
    exact Path.folded_absolute hpath
  · simp at h

/-- The text of the template. -/
theorem text?_of_readText {text : Text} {used : TextEncoding}
    (hread : g.files.readText path encoding = .ok (text, used)) :
    g.surroundings.text? (asked path encoding) path = some text := by
  refine Surroundings.text?_eq_some_iff.2 ⟨used, ?_⟩
  rw [asked, if_pos rfl]
  exact hread

/-- The outline of the template. -/
theorem outline?_of_readText {text : Text} {used : TextEncoding} {o : Outline}
    (hread : g.files.readText path encoding = .ok (text, used))
    (ho : Outline.ofText g.toolsVersion path text = .ok o) :
    g.surroundings.outline? (asked path encoding) path = some o :=
  Surroundings.outline?_eq_some_iff.2 ⟨text, text?_of_readText hread, ho⟩

/-- A template that can be read is expanded. -/
theorem expand_of_readText {text : Text} {used : TextEncoding} (hpath : g.absolute template = .ok path)
    (hread : g.files.readText path encoding = .ok (text, used)) :
    g.expand template encoding =
      ⟨(Expander.expand g.surroundings path text { reads := [path] }).1.map (⟨path, ·, used⟩),
        (Expander.expand g.surroundings path text { reads := [path] }).2.reads⟩ := by
  rw [expand, hpath]
  dsimp only
  rw [hread]

/-- One that cannot be read is noted as read, and that is all. -/
theorem expand_of_unreadable {e : BuildError} (hpath : g.absolute template = .ok path)
    (hread : g.files.readText path encoding = .error e) :
    g.expand template encoding = ⟨.error e, [path]⟩ := by
  rw [expand, hpath]
  dsimp only
  rw [hread]

/-- The result of an expansion, without what was read. -/
theorem result_expand (g : Generator) (template : Path) (encoding : Option TextEncoding) :
    (g.expand template encoding).result = (do
      let path ← g.absolute template
      let (text, used) ← g.files.readText path encoding
      let d ← (Expander.expand g.surroundings path text { reads := [path] }).1
      return ⟨path, d, used⟩) := by
  cases hpath : g.absolute template with
  | error e =>
    rw [expand, hpath]
    rfl
  | ok path =>
    show _ = (g.files.readText path encoding).bind _
    cases hread : g.files.readText path encoding with
    | error e =>
      rw [expand, hpath]
      dsimp only
      rw [hread]
      rfl
    | ok r =>
      rw [expand_of_readText hpath hread]
      show _ = (Expander.expand g.surroundings path r.1 { reads := [path] }).1.bind _
      dsimp only
      cases (Expander.expand g.surroundings path r.1 { reads := [path] }).1 with
      | error e => rfl
      | ok d => rfl

/-- A template that can be expanded becomes the expansion that the include graph describes. -/
theorem unfolds_of_expand {t : ExpandedTemplate} (h : (g.expand template encoding).result = .ok t) :
    g.absolute template = .ok t.path ∧
      g.surroundings.Unfolds (asked t.path encoding) t.path t.document := by
  rw [result_expand] at h
  obtain ⟨path, hpath, h⟩ := bind_eq_ok.1 h
  obtain ⟨⟨text, used⟩, hread, h⟩ := bind_eq_ok.1 h
  obtain ⟨d, hd, h⟩ := bind_eq_ok.1 h
  cases h
  rw [Expander.fst_expand] at hd
  obtain ⟨o, ho, hd⟩ := bind_eq_ok.1 hd
  obtain ⟨pieces, hpieces, hd⟩ := bind_eq_ok.1 hd
  cases hd
  have hsound := Expander.sound_expandTags [path] o.file o.start (covers_asked path encoding)
    (Expander.folded_of_ofText ho) (Expander.sound_new g.surroundings _ [path])
  obtain ⟨tree, htree, rfl⟩ := hsound.2 pieces hpieces
  exact ⟨hpath, o, tree, outline?_of_readText hread ho, htree, rfl⟩

end Generator
end Templating
