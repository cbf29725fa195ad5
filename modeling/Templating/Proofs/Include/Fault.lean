import Templating.Proofs.Document.Lookup
import Templating.Proofs.Error.Nesting
import Templating.Proofs.Include.Outline

/-!
# Errors of one file

Whether a file is accepted depends on its text alone, and when it is not, the error points at a part
of that text.

## What is here

* `BuildError.isOwn` are the errors that a file can be refused with, and `BuildError.RaisedIn` says that
  the error is one of them and points into the file.
* `Outline.raisedIn_of_ofText` says that a file is refused with no other error, and
  `FileSystem.eq_of_readText` which errors reading it ends in.
-/

set_option autoImplicit false

namespace Templating

/-! ## Errors at places

An error that a file is refused with is raised where the file is looked at by itself, before it is known
from which tags it is included.  So it has no wrapper, and its place is one in the text of the file. -/

/-- Whether an error says what is wrong with the text of one file. -/
def BuildError.isOwn : BuildError → Bool
  | missingClosingBlock .. | invalidIncludedFileFormat _ | missingBlockAttribute ..
  | attributeMissingClosingQuote .. | invalidToolsVersionNumber .. | minimumToolsVersionNotMet .. => true
  | _ => false

/-- The error says what is wrong with the text of the file, and where. -/
structure BuildError.RaisedIn (e : BuildError) (file : SourceFile) : Prop where
  own : e.isOwn = true
  place : ∃ span, file.text.HasSpan span ∧ e.location? = some (file.locate span)

variable {path : Path} {text : Text} {e : BuildError}

/-- Such an error is no wrapper of another one. -/
theorem BuildError.not_isWrapper_of_isOwn (h : e.isOwn = true) : ¬ e.IsWrapper := by
  rintro ⟨includePath, l, source, rfl⟩
  cases h

/-- It is its own cause. -/
theorem BuildError.rootCause_of_isOwn (h : e.isOwn = true) : e.rootCause = e :=
  rootCause_of_not_isWrapper (not_isWrapper_of_isOwn h)

/-- Its cause is of its kind. -/
theorem BuildError.rootCause_ne_of_isOwn {other : BuildError} (h : e.isOwn = true)
    (hother : other.isOwn = false) : e.rootCause ≠ other := by
  rintro rfl
  rw [rootCause_of_isOwn h, h] at hother
  cases hother

/-- No include tags are around it. -/
theorem BuildError.includeChain_of_isOwn (h : e.isOwn = true) : e.includeChain = [] :=
  includeChain_of_not_isWrapper (not_isWrapper_of_isOwn h)

/-- An error raised at the place of a span in a document that is one file. -/
theorem BuildError.raisedIn_locate {span : Span} (error : Location → BuildError)
    (hspan : text.HasSpan span) (hown : ∀ l, (error l).isOwn = true)
    (hlocation : ∀ l, (error l).location? = some l) :
    (error ((Document.ofSource path text).locate span)).RaisedIn ⟨path, text⟩ := by
  refine ⟨hown _, span, hspan, ?_⟩
  rw [hlocation, Document.locate_ofSource hspan]

/-! ## Include tags

A search for tags fails at a tag that is not closed, or at one whose attribute cannot be read.  The
place is the opening of the tag, or the tag as a whole. -/

/-- A search that begins somewhere in a text fails at a place of that text. -/
theorem IncludeTag.raisedIn_of_findFrom {n : Nat} {t : Text} (front : Text)
    (htext : text = front ++ t) (hn : n = front.size)
    (h : IncludeTag.findFrom (.ofSource path text) n t = .error e) :
    e.RaisedIn ⟨path, text⟩ := by
  fun_induction findFrom (.ofSource path text) n t generalizing front with
  | case1 => simp at h
  | case2 n t before inside hopen start bodyStart =>
    cases h
    refine BuildError.raisedIn_locate (.missingClosingBlock _) ?_ (fun _ => rfl) (fun _ => rfl)
    refine ⟨front ++ before, Tag.inclusion.opening, inside, ?_, ?_⟩
    · rw [htext, Text.cut?_eq_some hopen]
      simp
    · simp [bodyStart, start, hn]
  | case3 n t before inside hopen start bodyStart body rest hclose stop fault =>
    cases h
    have hspan : text.HasSpan ⟨start, stop⟩ := by
      refine ⟨front ++ before, Tag.inclusion.opening ++ body ++ Tag.inclusion.closing, rest, ?_, ?_⟩
      · rw [htext, Text.cut?_eq_some hopen, Text.cut?_eq_some hclose]
        simp
      · simp [stop, bodyStart, start, hn, Nat.add_assoc]
    cases fault with
    | missing =>
      exact BuildError.raisedIn_locate (.missingBlockAttribute _) hspan (fun _ => rfl) (fun _ => rfl)
    | missingClosingQuote =>
      exact BuildError.raisedIn_locate (.attributeMissingClosingQuote _) hspan (fun _ => rfl)
        (fun _ => rfl)
    | multiLine =>
      exact BuildError.raisedIn_locate .invalidIncludedFileFormat hspan (fun _ => rfl) (fun _ => rfl)
  | case4 n t before inside hopen start bodyStart body rest hclose stop includePath hpath e' hrest =>
    rename_i ih
    cases h
    refine ih (front ++ before ++
      (Tag.inclusion.opening ++ body ++ Tag.inclusion.closing)) ?_ ?_ hrest
    · rw [htext, Text.cut?_eq_some hopen, Text.cut?_eq_some hclose]
      simp
    · simp [stop, bodyStart, start, hn, Nat.add_assoc]
  | case5 => simp at h

/-! ## Version directives

A directive is refused for its version, which can be unreadable, newer than the tools, or too old for
what the file uses.  The first points at the version on the line, the others at the whole line. -/

/-- A text is what is left of it when it is trimmed, with blanks on either side. -/
theorem Text.exists_trim (t : Text) :
    ∃ back, t = t.takeWhile isBlank ++ trim t ++ back ∧ ∀ c ∈ back, isBlank c = true := by
  refine ⟨((t.dropWhile isBlank).reverse.takeWhile isBlank).reverse, ?_, fun c hc =>
    List.mem_takeWhile_imp (List.mem_reverse.1 hc)⟩
  rw [trim, trimStart, trimEnd, List.append_assoc, ← List.reverse_append,
    List.takeWhile_append_dropWhile, List.reverse_reverse, List.takeWhile_append_dropWhile]

/-- The first line of what follows a front, without the blanks round it. -/
theorem Text.exists_trimmed {text front value line : Text} (htext : text = front ++ value)
    (hline : value.takeWhile (· ≠ '\n') = line) :
    ∃ after below, line = line.takeWhile isBlank ++ trim line ++ after ∧
      (∀ c ∈ after, isBlank c = true) ∧
      text = front ++ line.takeWhile isBlank ++ trim line ++ (after ++ below) := by
  obtain ⟨after, htrim, hafter⟩ := exists_trim line
  have hvalue := List.takeWhile_append_dropWhile (p := (· ≠ '\n')) (l := value)
  refine ⟨after, value.dropWhile (· ≠ '\n'), htrim, hafter, ?_⟩
  calc text = front ++ (line ++ value.dropWhile (· ≠ '\n')) := by rw [htext, ← hline, hvalue]
    _ = front ++ (line.takeWhile isBlank ++ trim line ++ after
          ++ value.dropWhile (· ≠ '\n')) := by rw [← htrim]
    _ = _ := by simp only [List.append_assoc]

namespace Directive

/-- A version that cannot be read is at its place on the first line. -/
theorem raisedIn_of_find? (h : find? (.ofSource path text) = .error e) :
    e.RaisedIn ⟨path, text⟩ := by
  rw [find?] at h
  split at h
  · simp at h
  · next value hvalue =>
    dsimp only at h
    split at h
    · simp at h
    · cases h
      refine BuildError.raisedIn_locate (.invalidToolsVersionNumber _ _) ?_ (fun _ => rfl)
        (fun _ => rfl)
      rw [Document.text_ofSource] at hvalue
      obtain ⟨front, htext, -⟩ := bare_of_value? hvalue
      have hsize : (Document.ofSource path text).size - value.size = front.size := by
        rw [Document.size, Document.text_ofSource, htext, Text.size_append, Nat.add_sub_cancel_right]
      obtain ⟨after, below, -, -, htrimmed⟩ := Text.exists_trimmed htext rfl
      refine ⟨_, _, _, htrimmed, ?_⟩
      rw [hsize, Text.size_append]

/-- A directive is a line at the front of its file. -/
theorem hasSpan_of_find? {directive : Directive}
    (h : find? (.ofSource path text) = .ok (some directive)) : text.HasSpan directive.span := by
  obtain ⟨line, body, htext, -, hstop⟩ := bodyStart_eq h
  rw [Document.text_ofSource] at htext
  refine ⟨[], line, body, htext, ?_⟩
  have hstart : directive.span.start = 0 := by
    rw [find?] at h
    split at h
    · simp at h
    · dsimp only at h
      split at h
      · cases h
        rfl
      · simp at h
  rw [bodyStart] at hstop
  rw [← hstop, Text.size_nil, Nat.zero_add, ← hstart]

/-- A version that the tools are too old for is that of the directive. -/
theorem raisedIn_of_checkTools {running : Version} {directive : Option Directive}
    (hdirective : find? (.ofSource path text) = .ok directive)
    (h : checkTools (.ofSource path text) running directive = .error e) :
    e.RaisedIn ⟨path, text⟩ := by
  cases directive with
  | none => cases h
  | some directive =>
    rw [checkTools] at h
    split at h
    · cases h
      exact BuildError.raisedIn_locate (.minimumToolsVersionNotMet _ _ _)
        (hasSpan_of_find? hdirective) (fun _ => rfl) (fun _ => rfl)
    · simp at h

/-- So is one that is too old for a feature. -/
theorem raisedIn_of_checkFeature {minimum : Version} {feature : String}
    {directive : Option Directive} (hdirective : find? (.ofSource path text) = .ok directive)
    (h : checkFeature (.ofSource path text) minimum feature directive = .error e) :
    e.RaisedIn ⟨path, text⟩ := by
  cases directive with
  | none => cases h
  | some directive =>
    rw [checkFeature] at h
    split at h
    · cases h
      exact BuildError.raisedIn_locate (.minimumToolsVersionNotMet _ _ _)
        (hasSpan_of_find? hdirective) (fun _ => rfl) (fun _ => rfl)
    · simp at h

end Directive

/-! ## Whole files

The checks of a file are made one after the other, and each of them can refuse it.  Reading it can fail
before there is any text to point at. -/

/-- A file that is not accepted is refused for something in its text. -/
theorem Outline.raisedIn_of_ofText {running : Version}
    (h : Outline.ofText running path text = .error e) : e.RaisedIn ⟨path, text⟩ := by
  rw [ofText] at h
  obtain hfind | ⟨directive, hdirective, h⟩ := bind_eq_error.1 h
  · exact Directive.raisedIn_of_find? hfind
  obtain hcheck | ⟨_, -, h⟩ := bind_eq_error.1 h
  · exact Directive.raisedIn_of_checkTools hdirective hcheck
  obtain htags | ⟨tags, -, h⟩ := bind_eq_error.1 h
  · refine IncludeTag.raisedIn_of_findFrom (n := 0) [] ?_ rfl htags
    rw [Document.text_ofSource]
    rfl
  split at h
  · obtain hfeature | ⟨_, -, h⟩ := bind_eq_error.1 h
    · exact Directive.raisedIn_of_checkFeature hdirective hfeature
    · cases h
  · cases h

/-- A file cannot be read because it cannot be opened, because its encoding cannot be told, or because
it is not text in its encoding. -/
theorem FileSystem.eq_of_readText {fs : FileSystem} {encoding : Option TextEncoding}
    (h : fs.readText path encoding = .error e) :
    (∃ cause, e = .io .read path cause) ∨ e = .unknownEncoding path ∨
      ∃ used, e = .encoding path used := by
  rw [readText] at h
  split at h
  · next cause _ =>
    cases h
    exact .inl ⟨cause, rfl⟩
  · split at h
    · cases h
      exact .inr (.inl rfl)
    · next used _ =>
      split at h
      · cases h
        exact .inr (.inr ⟨used, rfl⟩)
      · simp at h

end Templating
