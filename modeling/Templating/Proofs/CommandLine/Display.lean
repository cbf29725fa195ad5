import Templating.CommandLine.Display
import Templating.Proofs.Encoding.Overlap
import Templating.Proofs.Program.Failure

/-!
# What is shown of errors

An error has its places in the texts that a build has read, in the encoding that it was told to read
the template in.  It is shown on the texts that the files tell of themselves.  The two are the same
just if the template tells its encoding.

## What is here

* `TextEncoding.Told` says when bytes tell an encoding, and `TextEncoding.detect?_iff_told` that no
  others are read in the same way without being told.
* `CommandLine.shown?_iff_told` says the same of files.
* `CommandLine.Marks` is an error that is shown where it came up; `CommandLine.display_marks` is the main
  result.
-/

set_option autoImplicit false

namespace Templating

namespace TextEncoding

/-! ## Bytes that tell their encoding

If an encoding is not given, it is found out from a mark at the front, and without a mark only UTF-8 is
tried.  So UTF-16 without a mark is never told: it could only be taken for UTF-8, and then it would be
read as another text, unless there are no bytes at all. -/

/-- The bytes tell that they have an encoding, or there are none.  UTF-8 needs no mark to be told. -/
def Told (e : TextEncoding) (bytes : Bytes) : Prop := e = utf8Bom ∨ e.mark <+: bytes ∨ bytes = []

variable {e : TextEncoding} {bytes : Bytes} {t : Text}

/-- What can be read in UTF-8 is told to be, with a mark or without. -/
theorem detect?_of_utf8 (h : utf8.decode? bytes = some t) :
    ∃ e, detect? bytes = some e ∧ e.decode? bytes = some t := by
  by_cases hmark : utf8Bom.mark <+: bytes
  · obtain ⟨rest, rfl⟩ := hmark
    exact ⟨utf8Bom, detect?_mark (by decide) rest, h⟩
  · have hplain : ¬ utf8.readMark <+: bytes := hmark
    have hbody : Utf8.decode? bytes = some t := (decode?_of_unmarked hplain).symm.trans h
    obtain rfl := Utf8.encode_of_decode? hbody
    refine ⟨utf8, detect?_eq_utf8_iff.2 ⟨fun e he => ?_, by rw [hbody]; rfl⟩, h⟩
    cases e with
    | utf8 => exact absurd rfl he
    | utf8Bom => exact hmark
    | utf16le => exact Utf8.not_prefix_encode (by decide) _ t
    | utf16be => exact Utf8.not_prefix_encode (by decide) _ t

/-- What begins with the mark of an encoding is told to be in it. -/
theorem detect?_of_marked (he : e ≠ utf8) (hmark : e.mark <+: bytes) (h : e.decode? bytes = some t) :
    ∃ e, detect? bytes = some e ∧ e.decode? bytes = some t := by
  obtain ⟨rest, rfl⟩ := hmark
  exact ⟨e, detect?_mark he rest, h⟩

/-- UTF-16 without its mark is not told. -/
theorem eq_nil_of_untold {e' : TextEncoding} (he : e = utf16le ∨ e = utf16be)
    (hmark : ¬ e.mark <+: bytes) (h : e.decode? bytes = some t) (hdetect : detect? bytes = some e')
    (h' : e'.decode? bytes = some t) : bytes = [] := by
  have hbody : e.body t = bytes := by
    have hread : e.readMark = e.mark := readMark_of_ne (by rcases he with rfl | rfl <;> decide)
    rw [← hread] at hmark
    rw [decode?_of_unmarked hmark] at h
    exact ofBody?_eq_some_iff.1 h
  have hencode : e'.encode t = e.body t := (encode_of_read hdetect h').trans hbody.symm
  obtain rfl := eq_nil_of_body_eq_encode he hencode
  rw [← hbody]
  rcases he with rfl | rfl
  · rfl
  · rfl

/-- **Bytes that are read in an encoding are read in the same way without it just if they tell it.** -/
theorem detect?_iff_told (h : e.decode? bytes = some t) :
    (∃ e', detect? bytes = some e' ∧ e'.decode? bytes = some t) ↔ e.Told bytes := by
  have hutf16 (he : e = utf16le ∨ e = utf16be) :
      (∃ e', detect? bytes = some e' ∧ e'.decode? bytes = some t) ↔ e.Told bytes := by
    constructor
    · rintro ⟨e', hdetect, h'⟩
      by_cases hmark : e.mark <+: bytes
      · exact .inr (.inl hmark)
      · exact .inr (.inr (eq_nil_of_untold he hmark h hdetect h'))
    · rintro (rfl | hmark | rfl)
      · rcases he with he | he <;> cases he
      · refine detect?_of_marked ?_ hmark h
        rcases he with rfl | rfl <;> decide
      · refine detect?_of_utf8 ?_
        rcases he with rfl | rfl <;> exact h
  cases e with
  | utf8 => exact iff_of_true (detect?_of_utf8 h) (.inr (.inl List.nil_prefix))
  | utf8Bom => exact iff_of_true (detect?_of_utf8 h) (.inl rfl)
  | utf16le => exact hutf16 (.inl rfl)
  | utf16be => exact hutf16 (.inr rfl)

end TextEncoding

/-! ## Files

The same of files, which are read in an encoding that was given or in the one that they tell. -/

/-- What a file is read as depends on its bytes and on the encoding that was given. -/
theorem FileSystem.readText_eq_ok_iff {fs : FileSystem} {p : Path} {choice : Option TextEncoding}
    {text : Text} {used : TextEncoding} {bytes : Bytes} (hbytes : fs.read p = .ok bytes) :
    fs.readText p choice = .ok (text, used) ↔
      choice.or (TextEncoding.detect? bytes) = some used ∧ used.decode? bytes = some text := by
  rw [readText, hbytes]
  dsimp only
  cases choice.or (TextEncoding.detect? bytes) with
  | none => simp
  | some e =>
    dsimp only
    cases hdecode : e.decode? bytes with
    | none =>
      simp only [reduceCtorEq, false_iff, not_and]
      rintro ⟨⟩
      simp [hdecode]
    | some t =>
      simp only [Except.ok.injEq, Prod.mk.injEq, Option.some.injEq]
      constructor
      · rintro ⟨rfl, rfl⟩
        exact ⟨rfl, hdecode⟩
      · rintro ⟨rfl, ht⟩
        exact ⟨Option.some.inj (hdecode.symm.trans ht), rfl⟩

namespace CommandLine

variable {files : FileSystem} {p : Path} {choice : Option TextEncoding} {text : Text}
  {used : TextEncoding} {bytes : Bytes}

/-- A file is shown as it is read if no encoding is given. -/
theorem shown?_eq_some_iff {q : Path} :
    shown? files p = some ⟨q, text⟩ ↔ q = p ∧ ∃ e, files.readText p none = .ok (text, e) := by
  rw [shown?]
  cases files.readText p none with
  | error e => simp
  | ok r =>
    obtain ⟨text', e⟩ := r
    simp [eq_comm]

/-- A file is shown as it was read just if it tells the encoding that it was read in. -/
theorem shown?_iff_told (hbytes : files.read p = .ok bytes)
    (hread : files.readText p choice = .ok (text, used)) :
    shown? files p = some ⟨p, text⟩ ↔ used.Told bytes := by
  obtain ⟨-, hdecode⟩ := (FileSystem.readText_eq_ok_iff hbytes).1 hread
  rw [shown?_eq_some_iff, ← TextEncoding.detect?_iff_told hdecode]
  simp only [FileSystem.readText_eq_ok_iff hbytes, Option.none_or, true_and]

/-! ## Errors

An error that can be traced has its places in files that were read, in the encodings that were used.  It
is shown on what the files tell.  Included files are read as they tell in any case; so all places are
right if the template tells its encoding. -/

/-- The places of an error: that of its root cause, and the include tags on the way, innermost first. -/
def places (e : BuildError) : List Location := e.rootCause.location?.toList ++ e.includeChain.reverse

/-- An error without wrappers is its own cause. -/
theorem rootCause_of_includeChain {e : BuildError} (h : e.includeChain = []) : e.rootCause = e := by
  cases e with
  | failedToIncludeFile => cases h
  | _ => rfl

/-- The places of a traced error are places in files that were read. -/
theorem exact_of_traced {s : Surroundings} {chosen : Path → Option TextEncoding} {reads : List Path}
    {e : BuildError} (h : e.Traced s chosen reads p) :
    ∀ l ∈ places e, ∃ text, l.Exact s chosen reads text := by
  induction h with
  | root hroot _ hplace =>
    intro l hl
    rw [places, hroot, rootCause_of_includeChain hroot, List.reverse_nil, List.append_nil,
      Option.mem_toList] at hl
    exact hplace l hl
  | @wrapped p text includePath l e _ hplace _ _ ih =>
    have hmore : places (.failedToIncludeFile includePath l e) = places e ++ [l] := by
      rw [places, places, BuildError.rootCause, BuildError.includeChain, List.reverse_cons,
        List.append_assoc]
    intro l' hl'
    rw [hmore] at hl'
    rcases List.mem_append.1 hl' with hl' | hl'
    · exact ih l' hl'
    · rw [List.mem_singleton.1 hl']
      exact ⟨text, hplace⟩

section

variable {file : Path → Option SourceFile} {e : BuildError}

/-- A label stands for a place of the error. -/
theorem exists_place {label : Label SourceFile} (h : label ∈ (e.diagnostic file).labels) :
    ∃ l ∈ places e, file l.path = some label.file ∧ label.span = l.span := by
  rcases List.mem_append.1 h with h | h
  · obtain ⟨l, hl, hlabel⟩ := Option.bind_eq_some_iff.1 (Option.mem_toList.1 h)
    obtain ⟨f, hf, hlabel⟩ := Option.bind_eq_some_iff.1 hlabel
    cases hlabel
    exact ⟨l, List.mem_append_left _ (Option.mem_toList.2 hl), hf, rfl⟩
  · obtain ⟨l, hl, hlabel⟩ := List.mem_filterMap.1 h
    obtain ⟨f, hf, rfl⟩ := Option.map_eq_some_iff.1 hlabel
    exact ⟨l, List.mem_append_right _ hl, hf, rfl⟩

/-- If all files can be shown, every place has a label. -/
theorem map_labels (h : ∀ l ∈ places e, ∃ text, file l.path = some ⟨l.path, text⟩) :
    (e.diagnostic file).labels.map (fun label => (label.file.path, label.span))
      = (places e).map fun l => (l.path, l.span) := by
  -- Of each include tag on the way there is a label, in the same order.
  have hsites (sites : List Location) (hsites : ∀ l ∈ sites, ∃ text, file l.path = some ⟨l.path, text⟩) :
      (sites.filterMap (BuildError.siteLabel? file)).map (fun label => (label.file.path, label.span))
        = sites.map fun l => (l.path, l.span) := by
    induction sites with
    | nil => rfl
    | cons l sites ih =>
      obtain ⟨text, htext⟩ := hsites l (List.mem_cons_self ..)
      have hlabel : BuildError.siteLabel? file l
          = some ⟨.secondary, ⟨l.path, text⟩, l.span, "included from here"⟩ := by
        rw [BuildError.siteLabel?, htext]
        rfl
      rw [List.filterMap_cons_some hlabel, List.map_cons, List.map_cons,
        ih fun l' hl' => hsites l' (List.mem_cons_of_mem _ hl')]
  rw [places, List.map_append, BuildError.diagnostic, List.map_append,
    hsites _ fun l hl => h l (List.mem_append_right _ hl)]
  congr 1
  cases hlocation : e.rootCause.location? with
  | none =>
    have hlabel : e.rootCause.primaryLabel? file = none := by
      rw [BuildError.primaryLabel?, hlocation]
      rfl
    rw [hlabel]
    rfl
  | some l =>
    have hl : l ∈ places e := List.mem_append_left _ (Option.mem_toList.2 hlocation)
    obtain ⟨text, htext⟩ := h l hl
    have hlabel : e.rootCause.primaryLabel? file = some ⟨.primary, ⟨l.path, text⟩, l.span, ""⟩ := by
      rw [BuildError.primaryLabel?, hlocation, Option.bind_eq_bind, Option.bind_some, htext]
      rfl
    rw [hlabel]
    rfl

end

/-- An error is shown where it came up: every place of it has a label, and each label lies in the text
that the build has read. -/
structure Marks (g : Generator) (chosen : Path → Option TextEncoding) (e : BuildError) : Prop where
  places : (display g.files e).labels.map (fun label => (label.file.path, label.span))
    = (places e).map fun l => (l.path, l.span)
  texts (label : Label SourceFile) (h : label ∈ (display g.files e).labels) :
    g.surroundings.text? chosen label.file.path = some label.file.text
  spans (label : Label SourceFile) (h : label ∈ (display g.files e).labels) :
    label.file.text.HasSpan label.span

/-- What a build has read is shown, if the template is. -/
theorem shown?_of_text? {g : Generator} {q : Path} {t : Text}
    (hshown : shown? g.files p = some ⟨p, text⟩)
    (hread : g.files.readText p choice = .ok (text, used))
    (ht : g.surroundings.text? (Generator.asked p choice) q = some t) :
    shown? g.files q = some ⟨q, t⟩ := by
  obtain ⟨used', hread'⟩ := Surroundings.text?_eq_some_iff.1 ht
  rw [Generator.asked] at hread'
  split at hread'
  · next hq =>
    subst hq
    obtain ⟨rfl, -⟩ := Prod.mk.inj (Except.ok.inj (hread.symm.trans hread'))
    exact hshown
  · exact shown?_eq_some_iff.2 ⟨rfl, used', hread'⟩

/-- A traced error is shown where it came up. -/
theorem marks_of_traced {g : Generator} {reads : List Path} {e : BuildError}
    (hshown : shown? g.files p = some ⟨p, text⟩)
    (hread : g.files.readText p choice = .ok (text, used))
    (h : e.Traced g.surroundings (Generator.asked p choice) reads p) :
    Marks g (Generator.asked p choice) e := by
  have hexact := exact_of_traced h
  have hplace {label : Label SourceFile} (hlabel : label ∈ (display g.files e).labels) :
      ∃ l : Location, label.span = l.span ∧ label.file.path = l.path ∧
        l.Exact g.surroundings (Generator.asked p choice) reads label.file.text := by
    obtain ⟨l, hl, hfile, hspan⟩ := exists_place hlabel
    obtain ⟨t, ht⟩ := hexact l hl
    rw [shown?_of_text? hshown hread ht.content, Option.some_inj] at hfile
    rw [← hfile]
    exact ⟨l, hspan, rfl, ht⟩
  refine ⟨map_labels fun l hl => ?_, fun label hlabel => ?_, fun label hlabel => ?_⟩
  · obtain ⟨t, ht⟩ := hexact l hl
    exact ⟨t, shown?_of_text? hshown hread ht.content⟩
  · obtain ⟨l, -, hpath, hl⟩ := hplace hlabel
    rw [hpath]
    exact hl.content
  · obtain ⟨l, hspan, -, hl⟩ := hplace hlabel
    rw [hspan]
    exact Text.HasSpan.of_boundaries hl.start hl.stop hl.order

/-- **A template is shown as the build has read it just if it tells the encoding that it was read in**,
and then every error of the build is shown where it came up. -/
theorem display_marks {g : Generator} {template : Path} (hpath : g.absolute template = .ok p)
    (hbytes : g.files.read p = .ok bytes) (hread : g.files.readText p choice = .ok (text, used)) :
    (shown? g.files p = some ⟨p, text⟩ ↔ used.Told bytes) ∧
      (used.Told bytes → ∀ serial e, (g.program serial template choice).result = .error e →
        Marks g (Generator.asked p choice) e) := by
  have hshown := shown?_iff_told hbytes hread
  exact ⟨hshown, fun htold serial e h =>
    marks_of_traced (hshown.2 htold) hread (Generator.traced_of_program hpath h)⟩

/-- A tag that nothing closes, in UTF-16 behind a mark and without. -/
theorem display_marks_utf16 :
    let p : Path := .ofString "/a"
    let g (bytes : Bytes) : Generator :=
      ⟨⟨[(p, .ok bytes)], fun _ => ⟨.notFound, "not found"⟩⟩, .ofString "/", ⟨1, 0, 10, [], []⟩, false⟩
    let marked := g [0xFF, 0xFE, 0x3C, 0, 0x25, 0]
    let unmarked := g [0x3C, 0, 0x25, 0]
    let e : BuildError := .missingClosingBlock outerClosing ⟨p, 1, ⟨0, 2⟩⟩
    marked.files.readText p (some .utf16le) = .ok ("<%".toList, .utf16le) ∧
      unmarked.files.readText p (some .utf16le) = .ok ("<%".toList, .utf16le) ∧
      (marked.program 0 p (some .utf16le)).result = .error e ∧
      Marks marked (Generator.asked p (some .utf16le)) e ∧
      shown? unmarked.files p ≠ some ⟨p, "<%".toList⟩ := by
  intro p g marked unmarked e
  have hmarked : marked.files.readText p (some .utf16le) = .ok ("<%".toList, .utf16le) := by
    decide +kernel
  have hunmarked : unmarked.files.readText p (some .utf16le) = .ok ("<%".toList, .utf16le) := by
    decide +kernel
  have hprogram : (marked.program 0 p (some .utf16le)).result = .error e := by
    refine Generator.result_program_of_within ?_
    simp only [Program.ofDocument, Grammar.standard_eq]
    decide +kernel
  have habsolute : p.absolute? (.ofString "/") = some p := by decide +kernel
  have hpath (bytes : Bytes) : (g bytes).absolute p = .ok p := by
    rw [Generator.absolute, habsolute]
  obtain ⟨-, hmarks⟩ := display_marks (hpath _) rfl hmarked
  obtain ⟨hiff, -⟩ := display_marks (hpath _) rfl hunmarked
  refine ⟨hmarked, hunmarked, hprogram, hmarks (.inr (.inl ⟨_, rfl⟩)) 0 e hprogram, fun hshown => ?_⟩
  rcases hiff.1 hshown with he | hmark | hnil
  · cases he
  · exact absurd hmark (by decide)
  · cases hnil

end CommandLine
end Templating
