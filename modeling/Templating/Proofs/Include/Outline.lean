import Templating.Include.Expansion
import Templating.Proofs.Except
import Templating.Proofs.Include.Directive
import Templating.Proofs.Path.Folded
import Templating.Proofs.Text.Marks

/-!
# What an outline says about a file

The include tags of a file stand in its text one after the other, each closed by the first closing
delimiter behind it, and all of them behind the version directive.

## What is here

* `IncludeTag.Found` says which tags a text has, without saying how they are looked for;
  `IncludeTag.found_of_findFrom` is what the search finds.  `IncludeTag.Written` is one such tag.
* `Outline.Describes` says the same of a whole file, cut after its directive;
  `Outline.describes_of_ofText` is what an accepted file looks like.
-/

set_option autoImplicit false

namespace Templating
namespace IncludeTag

/-! ## The tags of a text

`Found` keeps for each tag the text in front of it, its body and the text behind, so that a proof about
the tags of a file can go along with the file.  It also keeps that the opening in front of it is the
first one.  So nothing has to be said about how the search goes on, which is behind the tag. -/

/-- The include tags of a text that starts at offset `n` of the file at `path`. -/
inductive Found (path : Path) : Nat → Text → List IncludeTag → Prop
  | nil {n : Nat} {t : Text} (h : ¬ Tag.inclusion.opening <:+: t) : Found path n t []
  | cons {n : Nat} {lead body rest includePath : Text} {tags : List IncludeTag}
      (hlead : Text.cut? Tag.inclusion.opening
          (lead ++ (Tag.inclusion.opening ++ body ++ Tag.inclusion.closing ++ rest))
        = some (lead, body ++ Tag.inclusion.closing ++ rest))
      (hbody : ¬ Tag.inclusion.closing <:+: body)
      (hpath : Attribute.find fileAttribute body = .ok includePath)
      (hrest : Found path
        (n + lead.size + (Tag.inclusion.opening ++ body ++ Tag.inclusion.closing).size) rest tags) :
      Found path n (lead ++ (Tag.inclusion.opening ++ body ++ Tag.inclusion.closing ++ rest))
        (⟨⟨n + lead.size,
            n + lead.size + (Tag.inclusion.opening ++ body ++ Tag.inclusion.closing).size⟩,
          includePath, Path.resolve path ⟨includePath⟩⟩ :: tags)

/-- What a search finds is there. -/
theorem found_of_findFrom {d : Document} {n : Nat} {t : Text} {tags : List IncludeTag}
    (h : findFrom d n t = .ok tags) : Found d.path n t tags := by
  fun_induction findFrom d n t generalizing tags with
  | case1 n t hopen =>
    cases h
    exact Found.nil (Text.cut?_eq_none_iff.1 hopen)
  | case2 => simp at h
  | case3 => simp at h
  | case4 => simp at h
  | case5 n t lead inside hopen start bodyStart body rest hclose stop includePath hpath tags' hrest =>
    rename_i ih
    cases h
    have hfound := ih hrest
    have hinside := Text.cut?_eq_some hclose
    have ht := Text.cut?_eq_some hopen
    have hbody := Text.not_infix_of_cut? (by decide) hclose
    subst hinside
    rw [List.append_assoc] at ht
    have htext : t = lead ++ (Tag.inclusion.opening ++ body ++ Tag.inclusion.closing ++ rest) := by
      rw [ht, List.append_assoc, List.append_assoc, List.append_assoc]
    have hstop : stop = n + lead.size
        + (Tag.inclusion.opening ++ body ++ Tag.inclusion.closing).size := by
      simp only [stop, bodyStart, start, Text.size_append, Nat.add_assoc]
    subst htext
    rw [hstop] at hfound ⊢
    exact Found.cons hopen hbody hpath hfound

/-- An include tag for a path is written in a text over a span: it ends at the first closing delimiter
behind its opening one. -/
def Written (t : Text) (span : Span) (includePath : Text) : Prop :=
  ∃ front body back,
    t = front ++ (Tag.inclusion.opening ++ body ++ Tag.inclusion.closing) ++ back ∧
    ¬ Tag.inclusion.closing <:+: body ∧ Attribute.find fileAttribute body = .ok includePath ∧
    span.start = front.size ∧
    span.stop = front.size + (Tag.inclusion.opening ++ body ++ Tag.inclusion.closing).size

/-- Each tag that is found is written in the text. -/
theorem Found.written {path : Path} {n : Nat} {t : Text} {tags : List IncludeTag} (front : Text)
    (h : Found path n t tags) (hn : n = front.size) :
    ∀ tag ∈ tags, Written (front ++ t) tag.span tag.includePath := by
  induction h generalizing front with
  | nil => simp
  | @cons n lead body rest includePath tags _ hbody hpath _ ih =>
    subst hn
    intro tag hmem
    rcases List.mem_cons.1 hmem with rfl | hmem
    · exact ⟨front ++ lead, body, rest, by simp, hbody, hpath, by simp, by simp⟩
    · have hwritten := ih (front ++ lead ++
        (Tag.inclusion.opening ++ body ++ Tag.inclusion.closing)) (by simp; omega) tag hmem
      simpa using hwritten

/-- The same of a whole document. -/
theorem written_of_findAll {d : Document} {tags : List IncludeTag} (h : findAll d = .ok tags) :
    ∀ tag ∈ tags, Written d.text tag.span tag.includePath :=
  (found_of_findFrom h).written [] rfl

/-- A tag that is written begins and ends between characters. -/
theorem Written.hasSpan {t : Text} {span : Span} {includePath : Text}
    (h : Written t span includePath) : t.HasSpan span := by
  obtain ⟨front, body, back, ht, -, -, hstart, hstop⟩ := h
  refine ⟨front, _, back, ht, ?_⟩
  rw [← hstop, ← hstart]

/-- A tag leads to the path that it names, seen from its file. -/
theorem Found.target {path : Path} {n : Nat} {t : Text} {tags : List IncludeTag}
    (h : Found path n t tags) : ∀ tag ∈ tags, tag.target = Path.resolve path ⟨tag.includePath⟩ := by
  induction h with
  | nil => simp
  | cons _ _ _ _ ih => simpa using ih

/-- No tag begins in a text without delimiters, or across its end. -/
theorem Found.of_plain {path : Path} {n : Nat} {text t : Text} {tags : List IncludeTag}
    (htext : text.Plain) (hseam : Text.Seam text t) (h : Found path n (text ++ t) tags) :
    Found path (n + text.size) t tags := by
  generalize hwhole : text ++ t = whole at h
  -- Either there is no tag at all, or the first one is in what is left.
  cases h with
  | nil h =>
    refine Found.nil fun hpart => h ?_
    rw [← hwhole]
    exact hpart.trans (List.suffix_append text t).isInfix
  | @cons _ lead body rest includePath tags hlead hbody hpath hrest =>
    obtain ⟨lead', rfl, rfl⟩ : ∃ lead', lead = text ++ lead' ∧
        t = lead' ++ (Tag.inclusion.opening ++ body ++ Tag.inclusion.closing ++ rest) := by
      rcases List.append_eq_append_iff.1 hwhole with ⟨lead', hlead', ht⟩ | ⟨back, rfl, hback⟩
      · exact ⟨lead', hlead', ht⟩
      · -- The opening delimiter would begin in the text, at `back`.
        have hopening : outerOpening <+: back ++ t := by
          rw [← hback, Tag.opening]
          simp only [List.append_assoc]
          exact List.prefix_append _ _
        rcases back with _ | ⟨c, _ | ⟨d, back⟩⟩
        · exact ⟨[], by simp, hback.symm⟩
        · obtain ⟨rfl, rest', rfl⟩ := List.cons_prefix_cons.1 hopening
          exact absurd ⟨by simp, rfl⟩ hseam.opening
        · obtain ⟨rfl, hpercent⟩ := List.cons_prefix_cons.1 hopening
          obtain ⟨rfl, -⟩ := List.cons_prefix_cons.1 hpercent
          exact absurd ⟨lead, back, by simp [outerOpening]⟩ htext.opening
    rw [List.append_assoc] at hlead
    have hlead := Text.cut?_of_append hlead
    rw [Text.size_append, ← Nat.add_assoc] at hrest ⊢
    exact Found.cons hlead hbody hpath hrest

/-- A line without a character of a delimiter can be taken off the front. -/
theorem Found.of_bare {path : Path} {n : Nat} {line t : Text} {tags : List IncludeTag}
    (hline : line.Bare) (h : Found path n (line ++ t) tags) : Found path (n + line.size) t tags := by
  refine h.of_plain hline.plain (Text.seam_of_getLast fun c hc => ?_)
  have hc := hline c (List.mem_of_getLast? hc)
  exact ⟨hc.1, hc.2.1⟩

/-- All tags lead to folded paths. -/
theorem Found.folded {path : Path} {n : Nat} {t : Text} {tags : List IncludeTag}
    (h : Found path n t tags) : ∀ tag ∈ tags, tag.target.Folded := by
  intro tag htag
  rw [h.target tag htag]
  exact Path.folded_resolve _ _

end IncludeTag

/-! ## Whole files

The search for tags goes through the whole file, with the line of the directive in it, but no tag is in
that line.  So the tags of the file are those of the text behind it, which is what gets expanded. -/

/-- What an outline says about the file with a given path and text: the directive line in front
is left out, and the tags are those of the rest. -/
structure Outline.Describes (o : Outline) (path : Path) (text : Text) : Prop where
  file : o.file = ⟨path, text⟩
  body : ∃ line rest, text = line ++ rest ∧ line.Bare ∧ o.start = line.size ∧
    IncludeTag.Found path o.start rest o.tags

/-- An accepted file has passed every check. -/
theorem Outline.ofText_eq_ok {running : Version} {path : Path} {text : Text} {o : Outline}
    (h : Outline.ofText running path text = .ok o) :
    ∃ directive, Directive.find? (Document.ofSource path text) = .ok directive ∧
      Directive.checkTools (Document.ofSource path text) running directive = .ok () ∧
      IncludeTag.findAll (Document.ofSource path text) = .ok o.tags ∧
      (o.tags ≠ [] → Directive.checkFeature (Document.ofSource path text) Version.includeMinimum
        "includes" directive = .ok ()) ∧
      o.file = ⟨path, text⟩ ∧ o.start = Directive.bodyStart directive := by
  rw [ofText] at h
  obtain ⟨directive, hdirective, h⟩ := bind_eq_ok.1 h
  obtain ⟨⟨⟩, hcheck, h⟩ := bind_eq_ok.1 h
  obtain ⟨tags, htags, h⟩ := bind_eq_ok.1 h
  split at h
  · next hne =>
    obtain ⟨⟨⟩, hfeature, h⟩ := bind_eq_ok.1 h
    cases h
    exact ⟨directive, hdirective, hcheck, htags, fun _ => hfeature, rfl, rfl⟩
  · next hnil =>
    cases h
    exact ⟨directive, hdirective, hcheck, htags, fun hne => absurd hne hnil, rfl, rfl⟩

/-- The include tags of a file stand behind its directive. -/
theorem Directive.found_of_findAll {path : Path} {text : Text} {directive : Option Directive}
    {tags : List IncludeTag} (hdirective : Directive.find? (.ofSource path text) = .ok directive)
    (htags : IncludeTag.findAll (.ofSource path text) = .ok tags) :
    ∃ line rest, text = line ++ rest ∧ line.Bare ∧ Directive.bodyStart directive = line.size ∧
      IncludeTag.Found path line.size rest tags := by
  obtain ⟨line, rest, htext, hline, hbody⟩ := Directive.bodyStart_eq hdirective
  have hfound := IncludeTag.found_of_findFrom htags
  rw [Document.text_ofSource] at htext
  rw [Document.text_ofSource, htext, Document.path_ofSource] at hfound
  have hfound := hfound.of_bare hline
  rw [Nat.zero_add] at hfound
  exact ⟨line, rest, htext, hline, hbody, hfound⟩

/-- The outline of an accepted file describes it. -/
theorem Outline.describes_of_ofText {running : Version} {path : Path} {text : Text} {o : Outline}
    (h : Outline.ofText running path text = .ok o) : o.Describes path text := by
  obtain ⟨directive, hdirective, -, htags, -, hfile, hstart⟩ := ofText_eq_ok h
  obtain ⟨line, rest, htext, hline, hbody, hfound⟩ := Directive.found_of_findAll hdirective htags
  refine ⟨hfile, line, rest, htext, hline, hstart.trans hbody, ?_⟩
  rw [hstart, hbody]
  exact hfound

/-- The tags of an accepted file lead to folded paths. -/
theorem Outline.Describes.folded {o : Outline} {path : Path} {text : Text}
    (h : o.Describes path text) : ∀ tag ∈ o.tags, tag.target.Folded := by
  obtain ⟨line, rest, -, -, -, hfound⟩ := h.body
  exact hfound.folded

end Templating
