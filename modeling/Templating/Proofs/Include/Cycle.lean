import Mathlib.Data.List.Chain
import Templating.Proofs.Include.Fault
import Templating.Proofs.Include.Memory
import Templating.Proofs.Include.Nesting

/-!
# Cycles

A template from which the include graph leads into a cycle cannot be expanded, and no other template
is said to be on one.  When a cycle is reported, the report is a path of the graph that starts at the
template and ends where it comes back to itself, and the wrappers of the error are its edges.

## What is here

* `BuildError.Acyclic` is an error that reports no cycle; reading a file and its tags ends in no other
  error.
* `Expander.InProgress` is what the files in progress are, and `Expander.Reports` what an error says
  about them.
* `Generator.expand_cycles` puts both together for a template.
-/

set_option autoImplicit false

namespace Templating

/-! ## Errors of one file

A cycle is reported at the tag that closes it, and nowhere else.  Reading a file and looking for its
tags are done with one file at a time, so their errors are no cycles. -/

/-- The error does not report a cycle. -/
def BuildError.Acyclic (e : BuildError) : Prop :=
  ∀ includePath chain l, e.rootCause ≠ .cyclicInclude includePath chain l

/-- Whether the root cause of an error is a cycle. -/
def BuildError.isCyclic (e : BuildError) : Bool :=
  match e.rootCause with
  | .cyclicInclude _ _ _ => true
  | _ => false

/-- What can be evaluated of an error is enough. -/
theorem BuildError.acyclic_of_isCyclic {e : BuildError} (h : e.isCyclic = false) : e.Acyclic := by
  intro includePath chain l hroot
  rw [isCyclic, hroot] at h
  simp at h

/-- Reading a file ends in no cycle. -/
theorem FileSystem.acyclic_of_readText {fs : FileSystem} {p : Path}
    {encoding : Option TextEncoding} {e : BuildError} (h : fs.readText p encoding = .error e) :
    e.Acyclic := by
  rcases eq_of_readText h with ⟨cause, rfl⟩ | rfl | ⟨used, rfl⟩
  · exact BuildError.acyclic_of_isCyclic rfl
  · exact BuildError.acyclic_of_isCyclic rfl
  · exact BuildError.acyclic_of_isCyclic rfl

/-- Nor does looking for its tags. -/
theorem Outline.acyclic_of_ofText {running : Version} {path : Path} {text : Text} {e : BuildError}
    (h : Outline.ofText running path text = .error e) : e.Acyclic :=
  fun _ _ _ => BuildError.rootCause_ne_of_isOwn (raisedIn_of_ofText h).own rfl

/-! ## What an error says about the files in progress

The files in progress are a path in the include graph, and the report of a cycle is that path with one
more file behind it.  On its way out the error is wrapped, each time by the file that is then the last
one in progress.  So at every point the files that are still in progress and those in the wrappers make
up the reported chain. -/

namespace Expander

variable {s : Surroundings} {chosen : Path → Option TextEncoding}

/-- The files in progress lead to `p` in the order in which they were come to, and `p` is the last of
them. -/
structure InProgress (s : Surroundings) (chosen : Path → Option TextEncoding) (stack : List Path)
    (p : Path) : Prop where
  last : stack.getLast? = some p
  folded : ∀ q ∈ stack, q.Folded
  distinct : stack.Nodup
  edges : stack.IsChain (s.Includes chosen)
  covers : Covers chosen stack

/-- Going into a file that is not in progress. -/
theorem InProgress.append {stack : List Path} {p q : Path} (h : InProgress s chosen stack p)
    (hq : q.Folded) (hs : ∀ r ∈ stack, ¬ Path.Same r q) (hpq : s.Includes chosen p q) :
    InProgress s chosen (stack ++ [q]) q where
  last := List.getLast?_concat ..
  folded := by
    intro r hr
    rcases List.mem_append.1 hr with hr | hr
    · exact h.folded r hr
    · obtain rfl := List.mem_singleton.1 hr
      exact hq
  distinct := by
    refine List.nodup_append.2 ⟨h.distinct, List.nodup_singleton q, fun r hr q' hq' => ?_⟩
    obtain rfl := List.mem_singleton.1 hq'
    rintro rfl
    exact hs r hr (Path.Same.refl r)
  edges := by
    refine List.isChain_append.2 ⟨h.edges, List.isChain_singleton q, fun r hr q' hq' => ?_⟩
    rw [h.last, Option.mem_some_iff] at hr
    rw [List.head?_cons, Option.mem_some_iff] at hq'
    subst hr hq'
    exact hpq
  covers := h.covers.append q

/-- If the error reports a cycle, then the files in progress, those that the wrappers lead to and the
one that closes the cycle are the chain it reports. -/
def Reports (s : Surroundings) (chosen : Path → Option TextEncoding) (stack : List Path)
    (e : BuildError) : Prop :=
  ∀ includePath chain l, e.rootCause = .cyclicInclude includePath chain l →
    chain.IsChain (s.Includes chosen) ∧ chain.head? = stack.head? ∧ chain.dropLast.Nodup ∧
      (∃ p, chain.getLast? = some p ∧ chain.dropLast.count p = 1) ∧
      stack.dropLast ++ e.includeChain.map Location.path ++ [l.path] = chain.dropLast

/-- An error that reports no cycle has nothing to say. -/
theorem reports_of_acyclic {stack : List Path} {e : BuildError} (h : e.Acyclic) :
    Reports s chosen stack e :=
  fun includePath chain l hroot => absurd hroot (h includePath chain l)

/-- The chain that closes with a file in progress. -/
theorem InProgress.reports {stack : List Path} {file : SourceFile} {tag : IncludeTag}
    (h : InProgress s chosen stack file.path) (htarget : tag.target.Folded)
    (hedge : s.Includes chosen file.path tag.target) (hs : ∃ q ∈ stack, Path.Same q tag.target) :
    Reports s chosen stack
      (.cyclicInclude tag.includePath (stack ++ [tag.target]) (file.locate tag.span)) := by
  rintro _ _ _ ⟨⟩
  obtain ⟨q, hq, hsame⟩ := hs
  obtain rfl := (h.folded q hq).eq_of_same htarget hsame
  have hne : stack ≠ [] := List.ne_nil_of_mem hq
  refine ⟨?_, List.head?_append_of_ne_nil _ hne, ?_, ⟨tag.target, List.getLast?_concat .., ?_⟩, ?_⟩
  · refine h.edges.append (List.isChain_singleton _) fun r hr q' hq' => ?_
    rw [h.last, Option.mem_some_iff] at hr
    rw [List.head?_cons, Option.mem_some_iff] at hq'
    subst hr hq'
    exact hedge
  · rw [List.dropLast_concat]
    exact h.distinct
  · rw [List.dropLast_concat]
    exact List.count_eq_one_of_mem h.distinct hq
  · rw [List.dropLast_concat]
    show stack.dropLast ++ [] ++ [file.path] = stack
    rw [List.append_nil]
    exact List.dropLast_append_getLast? _ h.last

/-- The wrapper of an error adds the file of the tag to what the error says. -/
theorem Reports.wrap {stack : List Path} {file : SourceFile} {tag : IncludeTag} {e : BuildError}
    (hlast : stack.getLast? = some file.path) (h : Reports s chosen (stack ++ [tag.target]) e) :
    Reports s chosen stack (tag.failure file e) := by
  intro includePath chain l hroot
  obtain ⟨hchain, hhead, hnodup, hcloses, hplaces⟩ := h includePath chain l hroot
  have hne : stack ≠ [] := by
    rintro rfl
    cases hlast
  refine ⟨hchain, hhead.trans (List.head?_append_of_ne_nil _ hne), hnodup, hcloses, ?_⟩
  rw [List.dropLast_concat] at hplaces
  rw [← hplaces, IncludeTag.failure, BuildError.includeChain, List.map_cons]
  conv_rhs => rw [← List.dropLast_append_getLast? _ hlast]
  show _ ++ file.path :: _ ++ _ = _
  simp only [List.append_assoc, List.cons_append, List.nil_append]

/-- Every error of a run says what it should about the files in progress. -/
theorem reportsRule (s : Surroundings) (chosen : Path → Option TextEncoding) :
    Rule s
      (fun stack file tag _ r _ => InProgress s chosen stack file.path → tag.target.Folded →
        s.Includes chosen file.path tag.target → ∀ e, r = .error e → Reports s chosen stack e)
      (fun stack file _ tags _ r _ => InProgress s chosen stack file.path →
        (∀ tag ∈ tags, tag.target.Folded ∧ s.Includes chosen file.path tag.target) →
        ∀ e, r = .error e → Reports s chosen stack e) where
  known _ := fun _ _ _ => nofun
  cyclic _ hs := by
    rintro hprogress htarget hedge _ ⟨⟩
    exact hprogress.reports htarget hedge hs
  -- The errors of one file report no cycle.
  missing _ _ _ := by
    rintro _ _ _ _ ⟨⟩
    exact reports_of_acyclic nofun
  unreadable _ _ _ hread := by
    rintro hprogress _ _ _ ⟨⟩
    exact .wrap hprogress.last (reports_of_acyclic (FileSystem.acyclic_of_readText hread))
  refused _ _ _ _ ho := by
    rintro hprogress _ _ _ ⟨⟩
    exact .wrap hprogress.last (reports_of_acyclic (Outline.acyclic_of_ofText ho))
  failed _ hs _ hread ho _ ih := by
    rintro hprogress htarget hedge _ ⟨⟩
    have houtline := outline?_of_read hprogress.covers htarget hs hread ho
    have hfile := (Outline.describes_of_ofText ho).file
    refine .wrap hprogress.last (ih ?_ (fun t ht => ?_) _ rfl)
    · rw [hfile]
      exact hprogress.append htarget hs hedge
    · rw [hfile]
      exact ⟨folded_of_ofText ho t ht, _, houtline, t, ht, rfl⟩
  expanded _ _ _ _ _ _ _ := fun _ _ _ => nofun
  nil := by
    rintro _ _ _ _ _ _ _ ⟨⟩
  stopped _ ih := by
    rintro hprogress htags _ ⟨⟩
    obtain ⟨htarget, hedge⟩ := htags _ (List.mem_cons_self ..)
    exact ih hprogress htarget hedge _ rfl
  stoppedLater _ _ _ ihlater := by
    rintro hprogress htags _ ⟨⟩
    exact ihlater hprogress (fun t ht => htags t (List.mem_cons_of_mem _ ht)) _ rfl
  cons _ _ _ _ := fun _ _ => nofun

end Expander

/-! ## Templates

If there is a cycle that the template leads into, no tree can be grown from it, so it cannot be
expanded; and where no cycle is, none is reported, since a report is a path of the graph.  The two are
about different graphs: the edges of the first are those of all files with tags, and those of the second
only those of accepted files. -/

namespace Generator

variable {g : Generator} {template path : Path} {encoding : Option TextEncoding}

/-- An error of an expansion says what it should, with the template in progress alone. -/
theorem reports_of_expand (hpath : g.absolute template = .ok path) {e : BuildError}
    (h : (g.expand template encoding).result = .error e) :
    Expander.Reports g.surroundings (asked path encoding) [path] e := by
  rw [result_expand, hpath] at h
  change (g.files.readText path encoding >>= _) = _ at h
  obtain hread | ⟨⟨text, used⟩, hread, h⟩ := bind_eq_error.1 h
  · exact Expander.reports_of_acyclic (FileSystem.acyclic_of_readText hread)
  obtain hexpand | ⟨d, -, h⟩ := bind_eq_error.1 h
  · rw [Expander.fst_expand] at hexpand
    obtain ho | ⟨o, ho, hexpand⟩ := bind_eq_error.1 hexpand
    · exact Expander.reports_of_acyclic (Outline.acyclic_of_ofText ho)
    obtain hrun | ⟨pieces, -, hexpand⟩ := bind_eq_error.1 hexpand
    · have hfile := (Outline.describes_of_ofText ho).file
      refine (Expander.reportsRule _ _).tags [path] o.file o.start o.tags _ ?_ (fun t ht => ?_) e hrun
      · rw [hfile]
        exact ⟨rfl, by simpa using folded_of_absolute hpath, List.nodup_singleton _,
          List.isChain_singleton _, covers_asked path encoding⟩
      · rw [hfile]
        exact ⟨Expander.folded_of_ofText ho t ht, o, outline?_of_readText hread ho, t, ht, rfl⟩
    · cases hexpand
  · cases h

/-- A path that has no absolute form is no cycle. -/
theorem acyclic_of_absolute {e : BuildError} (h : g.absolute template = .error e) : e.Acyclic := by
  rw [absolute] at h
  split at h
  · simp at h
  · cases h
    exact BuildError.acyclic_of_isCyclic rfl

/-- A template that leads into a cycle fails. -/
theorem fails_of_cycle (hpath : g.absolute template = .ok path) {p : Path}
    (hreach : Relation.ReflTransGen (g.surroundings.Mentions (asked path encoding)) path p)
    (hcycle : Relation.TransGen (g.surroundings.Mentions (asked path encoding)) p p) :
    ∃ e, (g.expand template encoding).result = .error e := by
  cases hresult : (g.expand template encoding).result with
  | error e => exact ⟨e, rfl⟩
  | ok t =>
    obtain ⟨hpath', hunfolds⟩ := unfolds_of_expand hresult
    obtain rfl : path = t.path := Except.ok.inj (hpath.symm.trans hpath')
    exact absurd hcycle (hunfolds.not_transGen hreach)

/-- A cycle that is reported starts at the template. -/
theorem chain_of_cyclicInclude {e : BuildError} {includePath : Text} {chain : List Path}
    {l : Location} (h : (g.expand template encoding).result = .error e)
    (hroot : e.rootCause = .cyclicInclude includePath chain l) :
    ∃ path, g.absolute template = .ok path ∧ chain.head? = some path ∧
      chain.IsChain (g.surroundings.Includes (asked path encoding)) ∧ chain.dropLast.Nodup ∧
      (∃ p, chain.getLast? = some p ∧ chain.dropLast.count p = 1) ∧
      e.includeChain.map Location.path ++ [l.path] = chain.dropLast := by
  cases hpath : g.absolute template with
  | error e' =>
    rw [result_expand, hpath] at h
    obtain rfl : e' = e := Except.error.inj h
    exact absurd hroot (acyclic_of_absolute hpath includePath chain l)
  | ok path =>
    obtain ⟨hchain, hhead, hnodup, hcloses, hplaces⟩ :=
      reports_of_expand hpath h includePath chain l hroot
    exact ⟨path, rfl, hhead, hchain, hnodup, hcloses, hplaces⟩

/-- Along a list in which each element leads to the next, all others lead to the last. -/
theorem transGen_of_isChain {α : Type} {r : α → α → Prop} {chain : List α} {a b : α}
    (h : chain.IsChain r) (hlast : chain.getLast? = some b) (ha : a ∈ chain.dropLast) :
    Relation.TransGen r a b := by
  have hchain : chain.IsChain (Relation.TransGen r) := h.imp fun _ _ => .single
  have hpairs := List.isChain_iff_pairwise.1 hchain
  rw [← List.dropLast_append_getLast? _ hlast] at hpairs
  exact (List.pairwise_append.1 hpairs).2.2 a ha b (List.mem_singleton_self b)

/-- Where there is no cycle, none is reported. -/
theorem acyclic_of_no_cycle (hpath : g.absolute template = .ok path)
    (hacyclic : ∀ p, Relation.ReflTransGen (g.surroundings.Includes (asked path encoding)) path p →
      ¬ Relation.TransGen (g.surroundings.Includes (asked path encoding)) p p)
    {e : BuildError} (h : (g.expand template encoding).result = .error e) : e.Acyclic := by
  intro includePath chain l hroot
  obtain ⟨path', hpath', hhead, hchain, -, ⟨p, hlast, hcount⟩, -⟩ := chain_of_cyclicInclude h hroot
  obtain rfl : path = path' := Except.ok.inj (hpath.symm.trans hpath')
  have hp : p ∈ chain.dropLast := List.count_pos_iff.1 (hcount ▸ Nat.one_pos)
  have hstart : path ∈ chain.dropLast := by
    rw [← List.dropLast_append_getLast? _ hlast,
      List.head?_append_of_ne_nil _ (List.ne_nil_of_mem hp)] at hhead
    exact List.mem_of_mem_head? hhead
  exact hacyclic p (transGen_of_isChain hchain hlast hstart).to_reflTransGen
    (transGen_of_isChain hchain hlast hp)

/-- **Include cycles are found, and nothing else is taken for one.**  Expansion comes to an end
without ever having more files in progress than there are: it does not use up a budget of that many.
If the template leads into a cycle of the include graph, it fails; if not, it does not report one.
A cycle that is reported is a path of the graph that starts at the template and repeats none but its
last file, which is in it once more; the wrappers of the error and the error itself are at its tags.

A file with include tags whose version directive is refused has edges only where that makes the
statement stronger. -/
theorem expand_cycles (g : Generator) (template : Path) (encoding : Option TextEncoding) :
    g.expandWithin g.files.count template encoding = some (g.expand template encoding) ∧
    (∀ path, g.absolute template = .ok path →
      ((∃ p, Relation.ReflTransGen (g.surroundings.Mentions (asked path encoding)) path p ∧
          Relation.TransGen (g.surroundings.Mentions (asked path encoding)) p p) →
        ∃ e, (g.expand template encoding).result = .error e) ∧
      ((∀ p, Relation.ReflTransGen (g.surroundings.Includes (asked path encoding)) path p →
          ¬ Relation.TransGen (g.surroundings.Includes (asked path encoding)) p p) →
        ∀ e, (g.expand template encoding).result = .error e → e.Acyclic)) ∧
    ∀ e includePath chain l, (g.expand template encoding).result = .error e →
      e.rootCause = .cyclicInclude includePath chain l →
      ∃ path, g.absolute template = .ok path ∧ chain.head? = some path ∧
        chain.IsChain (g.surroundings.Includes (asked path encoding)) ∧ chain.dropLast.Nodup ∧
        (∃ p, chain.getLast? = some p ∧ chain.dropLast.count p = 1) ∧
        e.includeChain.map Location.path ++ [l.path] = chain.dropLast := by
  refine ⟨expandWithin_count g template encoding, fun path hpath => ⟨?_, ?_⟩, ?_⟩
  · rintro ⟨p, hreach, hcycle⟩
    exact fails_of_cycle hpath hreach hcycle
  · intro hacyclic e h
    exact acyclic_of_no_cycle hpath hacyclic h
  · intro e includePath chain l h hroot
    exact chain_of_cyclicInclude h hroot

end Generator
end Templating
