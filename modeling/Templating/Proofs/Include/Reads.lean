import Templating.Proofs.Include.Recall
import Templating.Proofs.Include.Visits

/-!
# Which files are read, and in which order

A build reads the template and then the files that it needs, depth first, each of them once.  It goes
on from a file only when that file was accepted, so a failed build has read the files up to the one at
which it failed and no others.

## What is here

* `Expander.Explores` compares what a run reads with `Surroundings.visits`.  The invariant behind it
  is `Expander.Accounted`: what was read is either remembered or still in progress.
* `Generator.ReadsInOrder` is what follows for a template, and `Generator.expand_reads` joins to it what
  is known of an expander that is used for many files.
-/

set_option autoImplicit false

namespace Templating
namespace Expander

/-! ## The order of reading

The order in which files should be read, `visits`, walks the tags of the files depth first and passes
over what it has come to before.  A run keeps two things instead: what is remembered and what is in
progress.  As long as both together are what was read (`Accounted`), the run goes on exactly where the
order does.

A run that fails has read a beginning of the order, and every file of it but the last was accepted
(`Follows`); a run that does not fail has read all of it (`Exhausts`).  Both are composed in the same
way: of a tag and the tags after it, and of a file and the tags in it. -/

variable {s : Surroundings} {chosen : Path → Option TextEncoding} {stack todo : List Path}
  {x x' x'' : Expander}

/-- What was read is remembered or in progress, and nothing else is. -/
def Accounted (stack : List Path) (x : Expander) : Prop :=
  ∀ p, (∃ q ∈ x.reads, Path.Same q p) ↔
    (x.find? p).isSome = true ∨ ∃ q ∈ stack, Path.Same q p

namespace Accounted

/-- A file that is neither remembered nor in progress was not read. -/
theorem unread {p : Path} (h : Accounted stack x) (hx : x.find? p = none)
    (hs : ∀ q ∈ stack, ¬ Path.Same q p) : ∀ q ∈ x.reads, ¬ Path.Same q p := by
  intro q hq hsame
  rcases (h p).1 ⟨q, hq, hsame⟩ with hknown | ⟨r, hr, hsame'⟩
  · rw [hx] at hknown
    cases hknown
  · exact hs r hr hsame'

/-- At the start there is the template, which is in progress. -/
theorem start (path : Path) : Accounted [path] { reads := [path] } := by
  intro p
  simp [find?]

/-- A file that is read now is in progress from then on. -/
theorem note (h : Accounted stack x) (p : Path) : Accounted (stack ++ [p]) (x.note p) := by
  intro q
  have hq := h q
  simp only [Expander.note, List.mem_append, List.mem_singleton, or_and_right, exists_or,
    exists_eq_left] at hq ⊢
  rw [hq, or_assoc]
  rfl

/-- A file that was expanded is remembered and no longer in progress. -/
theorem remember {p : Path} (h : Accounted (stack ++ [p]) x) (d : Document) :
    Accounted stack (x.remember p d) := by
  intro q
  have hq := h q
  simp only [List.mem_append, List.mem_singleton, or_and_right, exists_or, exists_eq_left] at hq
  rw [find?_remember]
  show (∃ r ∈ x.reads, Path.Same r q) ↔ _
  split
  · next hsame => simpa [hsame] using hq
  · next hsame => simpa [hsame] using hq

end Accounted

/-- A run that was stopped: it read the files from `todo` on in order, up to one of them, and all
before that one were accepted. -/
structure Follows (s : Surroundings) (chosen : Path → Option TextEncoding) (todo : List Path)
    (x : Expander) (read : List Path) (x' : Expander) : Prop where
  reads : x'.reads = x.reads ++ read
  order : read <+: s.visits chosen x.reads todo
  accepted : ∀ p ∈ read.dropLast, (s.outline? chosen p).isSome = true

/-- A run that was not stopped: it read all files from `todo` on, and all were accepted. -/
structure Exhausts (s : Surroundings) (chosen : Path → Option TextEncoding) (stack todo : List Path)
    (x x' : Expander) : Prop where
  reads : x'.reads = x.reads ++ s.visits chosen x.reads todo
  accepted : ∀ p ∈ s.visits chosen x.reads todo, (s.outline? chosen p).isSome = true
  accounted : Accounted stack x'

/-- What a run reads from the files in `todo` on. -/
def Explores {α : Type} (s : Surroundings) (chosen : Path → Option TextEncoding)
    (stack todo : List Path) (x : Expander) (r : Except BuildError α) (x' : Expander) : Prop :=
  match r with
  | .ok _ => Exhausts s chosen stack todo x x'
  | .error _ => ∃ read, Follows s chosen todo x read x'

theorem mem_or_mem_dropLast {α : Type} {l r : List α} {a : α} (h : a ∈ (l ++ r).dropLast) :
    a ∈ l ∨ a ∈ r.dropLast := by
  rcases List.eq_nil_or_concat r with rfl | ⟨front, last, rfl⟩
  · rw [List.append_nil] at h
    exact .inl (List.mem_of_mem_dropLast h)
  · rw [List.dropLast_append_of_ne_nil (by simp)] at h
    exact List.mem_append.1 h

/-- A run may stop before it has read anything. -/
theorem Follows.nothing (s : Surroundings) (chosen : Path → Option TextEncoding) (todo : List Path)
    (x : Expander) : Follows s chosen todo x [] x where
  reads := (List.append_nil _).symm
  order := List.nil_prefix
  accepted := by simp

/-- The file that a tag names is read, and that is all. -/
theorem Follows.single {p : Path} (hp : ∀ q ∈ x.reads, ¬ Path.Same q p) :
    Follows s chosen [p] x [p] (x.note p) where
  reads := rfl
  order := by
    rw [Surroundings.visits_cons hp]
    exact List.prefix_append [p] _
  accepted := by simp

/-- A run that stops at the first tag does not come to the others. -/
theorem Follows.head {p : Path} {read : List Path} (h : Follows s chosen [p] x read x') :
    Follows s chosen (p :: todo) x read x' where
  reads := h.reads
  order := by
    rw [← List.singleton_append, Surroundings.visits_append]
    exact h.order.trans (List.prefix_append ..)
  accepted := h.accepted

/-- What is read from a file on, and then from some others on. -/
theorem Exhausts.visits_cons {p : Path} (h : Exhausts s chosen stack [p] x x') (todo : List Path) :
    s.visits chosen x.reads (p :: todo)
      = s.visits chosen x.reads [p] ++ s.visits chosen x'.reads todo := by
  rw [h.reads]
  exact Surroundings.visits_append x.reads [p] todo

/-- The first tag comes to its end, and the run is stopped at one that comes later. -/
theorem Exhausts.followed {p : Path} {read : List Path} (h : Exhausts s chosen stack [p] x x')
    (h' : Follows s chosen todo x' read x'') :
    Follows s chosen (p :: todo) x (s.visits chosen x.reads [p] ++ read) x'' where
  reads := by rw [h'.reads, h.reads, List.append_assoc]
  order := by
    rw [h.visits_cons todo]
    exact (List.prefix_append_right_inj _).2 h'.order
  accepted q hq := (mem_or_mem_dropLast hq).elim (h.accepted q) (h'.accepted q)

/-- The first tag comes to its end, and so do all others. -/
theorem Exhausts.exhausted {p : Path} (h : Exhausts s chosen stack [p] x x')
    (h' : Exhausts s chosen stack todo x' x'') : Exhausts s chosen stack (p :: todo) x x'' where
  reads := by rw [h.visits_cons todo, ← List.append_assoc, ← h.reads, h'.reads]
  accepted q hq := by
    rw [h.visits_cons todo] at hq
    rcases List.mem_append.1 hq with hq | hq
    · exact h.accepted q hq
    · exact h'.accepted q hq
  accounted := h'.accounted

section

variable {p : Path} {text : Text} {o : Outline}

/-- A file whose text is accepted has an outline. -/
theorem isSome_outline? (htext : s.text? chosen p = some text)
    (ho : Outline.ofText s.running p text = .ok o) : (s.outline? chosen p).isSome = true :=
  Option.isSome_iff_exists.2 ⟨o, Surroundings.outline?_eq_some_iff.2 ⟨text, htext, ho⟩⟩

/-- What comes after an accepted file is what its tags name. -/
theorem visits_of_ofText (hp : ∀ q ∈ x.reads, ¬ Path.Same q p)
    (htext : s.text? chosen p = some text) (ho : Outline.ofText s.running p text = .ok o) :
    s.visits chosen x.reads [p]
      = p :: s.visits chosen (x.note p).reads (o.tags.map IncludeTag.target) := by
  rw [Surroundings.visits_cons hp, Surroundings.targets_of_ofText htext ho, List.append_nil]
  rfl

/-- The file is read and accepted, and the run is stopped at one of its tags. -/
theorem Follows.included {read : List Path} (hp : ∀ q ∈ x.reads, ¬ Path.Same q p)
    (htext : s.text? chosen p = some text) (ho : Outline.ofText s.running p text = .ok o)
    (h : Follows s chosen (o.tags.map IncludeTag.target) (x.note p) read x') :
    Follows s chosen [p] x (p :: read) x' where
  reads := by
    rw [h.reads, note, List.append_assoc]
    rfl
  order := by
    rw [visits_of_ofText hp htext ho]
    exact (List.prefix_cons_inj p).2 h.order
  accepted q hq := by
    rcases mem_or_mem_dropLast (l := [p]) hq with hq | hq
    · obtain rfl := List.mem_singleton.1 hq
      exact isSome_outline? htext ho
    · exact h.accepted q hq

/-- The file is read and accepted, and all its tags come to their end. -/
theorem Exhausts.included (hp : ∀ q ∈ x.reads, ¬ Path.Same q p)
    (htext : s.text? chosen p = some text) (ho : Outline.ofText s.running p text = .ok o)
    (h : Exhausts s chosen stack (o.tags.map IncludeTag.target) (x.note p) x') :
    Exhausts s chosen stack [p] x x' where
  reads := by
    rw [visits_of_ofText hp htext ho, h.reads, note, List.append_assoc]
    rfl
  accepted q hq := by
    rw [visits_of_ofText hp htext ho] at hq
    rcases List.mem_cons.1 hq with rfl | hq
    · exact isSome_outline? htext ho
    · exact h.accepted q hq
  accounted := h.accounted

/-- What a run remembers at last changes nothing about what it read. -/
theorem Exhausts.remember (h : Exhausts s chosen (stack ++ [p]) todo x x') (d : Document) :
    Exhausts s chosen stack todo x (x'.remember p d) where
  reads := h.reads
  accepted := h.accepted
  accounted := h.accounted.remember d

end

/-- **A run reads files in order**, at one tag and at a row of them. -/
theorem exploresRule (s : Surroundings) (chosen : Path → Option TextEncoding) :
    Rule s
      (fun stack _ tag x r x' => Covers chosen stack → tag.target.Folded → Accounted stack x →
        Explores s chosen stack [tag.target] x r x')
      (fun stack _ _ tags x r x' => Covers chosen stack → (∀ tag ∈ tags, tag.target.Folded) →
        Accounted stack x → Explores s chosen stack (tags.map IncludeTag.target) x r x') where
  known hx := by
    intro _ _ haccounted
    -- What is remembered was read, so the order does not come to it again either.
    have hread := (haccounted _).2 (.inl (Option.isSome_iff_exists.2 ⟨_, hx⟩))
    have hvisits : s.visits chosen _ _ = [] :=
      (Surroundings.visits_cons_of_seen hread).trans (Surroundings.visits_nil _)
    refine ⟨?_, ?_, haccounted⟩
    · rw [hvisits, List.append_nil]
    · rw [hvisits]
      exact fun _ h => absurd h List.not_mem_nil
  cyclic _ _ := fun _ _ _ => ⟨[], .nothing _ _ _ _⟩
  missing _ _ _ := fun _ _ _ => ⟨[], .nothing _ _ _ _⟩
  -- A file that cannot be read or is refused was still read last.
  unreadable hx hs _ _ := fun _ _ haccounted => ⟨_, .single (haccounted.unread hx hs)⟩
  refused hx hs _ _ _ := fun _ _ haccounted => ⟨_, .single (haccounted.unread hx hs)⟩
  failed hx hs _ hread ho _ ih := by
    intro hcovers htarget haccounted
    obtain ⟨read, hfollows⟩ :=
      ih (hcovers.append _) (folded_of_ofText ho) (haccounted.note _)
    exact ⟨_, hfollows.included (haccounted.unread hx hs)
      (text?_of_read hcovers htarget hs hread) ho⟩
  expanded hx hs _ hread ho _ ih := by
    intro hcovers htarget haccounted
    have hexhausts := ih (hcovers.append _) (folded_of_ofText ho) (haccounted.note _)
    exact (Exhausts.included (haccounted.unread hx hs)
      (text?_of_read hcovers htarget hs hread) ho hexhausts).remember _
  nil := by
    intro _ _ _ _ _ _ haccounted
    exact ⟨by simp, by simp, haccounted⟩
  stopped _ ih := by
    intro hcovers htags haccounted
    obtain ⟨read, hfollows⟩ := ih hcovers (htags _ (List.mem_cons_self ..)) haccounted
    exact ⟨read, hfollows.head⟩
  stoppedLater _ ih _ ihlater := by
    intro hcovers htags haccounted
    have hfirst := ih hcovers (htags _ (List.mem_cons_self ..)) haccounted
    obtain ⟨read, hfollows⟩ :=
      ihlater hcovers (fun t ht => htags t (List.mem_cons_of_mem _ ht)) hfirst.accounted
    exact ⟨_, hfirst.followed hfollows⟩
  cons _ ih _ ihlater := by
    intro hcovers htags haccounted
    have hfirst := ih hcovers (htags _ (List.mem_cons_self ..)) haccounted
    exact hfirst.exhausted
      (ihlater hcovers (fun t ht => htags t (List.mem_cons_of_mem _ ht)) hfirst.accounted)

/-- A file that is expanded by itself is read like one that a tag names. -/
theorem explores_expand {path : Path} {text : Text} (hcovers : Covers chosen [path])
    (htext : s.text? chosen path = some text) :
    Explores s chosen [path] [path] {} (expand s path text { reads := [path] }).1
      (expand s path text { reads := [path] }).2 := by
  have hunread : ∀ q ∈ ({} : Expander).reads, ¬ Path.Same q path := by simp
  cases ho : Outline.ofText s.running path text with
  | error e =>
    rw [expand, ho]
    exact ⟨_, .single hunread⟩
  | ok o =>
    rw [expand_of_ofText ho]
    have hexplores := (exploresRule s chosen).tags [path] o.file o.start o.tags
      { reads := [path] } hcovers (folded_of_ofText ho) (.start path)
    generalize expandTags s [path] o.file o.start o.tags { reads := [path] } = r at hexplores ⊢
    obtain ⟨_ | pieces, x'⟩ := r
    · obtain ⟨read, hfollows⟩ := hexplores
      exact ⟨_, hfollows.included hunread htext ho⟩
    · exact Exhausts.included hunread htext ho hexplores

/-- However a run ends, it read files in order. -/
theorem Explores.follows {α : Type} {r : Except BuildError α}
    (h : Explores s chosen stack todo x r x') : ∃ read, Follows s chosen todo x read x' := by
  cases r with
  | error e => exact h
  | ok a =>
    exact ⟨_, h.reads, List.prefix_refl _, fun p hp => h.accepted p (List.mem_of_mem_dropLast hp)⟩

end Expander

/-! ## Templates

The template is the first file that is read.  It is not behind a tag, but the tags in it are expanded
like those of any other file, with the template in progress.  If its path has no absolute form, nothing
is read at all. -/

namespace Generator

variable {g : Generator} {template path : Path} {encoding : Option TextEncoding}

/-- A build explores the files from its template on. -/
theorem explores_expand (hpath : g.absolute template = .ok path) (encoding : Option TextEncoding) :
    ∃ x : Expander, x.reads = (g.expand template encoding).reads ∧
      Expander.Explores g.surroundings (asked path encoding) [path] [path] {}
        (g.expand template encoding).result x := by
  cases hread : g.files.readText path encoding with
  | error e =>
    rw [expand_of_unreadable hpath hread]
    exact ⟨Expander.note {} path, rfl, _, .single (by simp)⟩
  | ok r =>
    obtain ⟨text, used⟩ := r
    have hexplores := Expander.explores_expand (covers_asked path encoding)
      (text?_of_readText (g := g) hread)
    rw [expand_of_readText hpath hread]
    refine ⟨_, rfl, ?_⟩
    cases hresult : (Expander.expand g.surroundings path text { reads := [path] }).1 with
    | error e =>
      rw [hresult] at hexplores
      exact hexplores
    | ok d =>
      rw [hresult] at hexplores
      exact hexplores

/-- The template is read first, and not again. -/
theorem exists_reads (hpath : g.absolute template = .ok path) (encoding : Option TextEncoding) :
    ∃ read, (g.expand template encoding).reads = path :: read ∧
      (path :: read).Pairwise fun p q => ¬ Path.Same p q := by
  cases hread : g.files.readText path encoding with
  | error e =>
    rw [expand_of_unreadable hpath hread]
    exact ⟨[], rfl, List.pairwise_singleton ..⟩
  | ok r =>
    obtain ⟨text, used⟩ := r
    obtain ⟨read, hrecalls⟩ :=
      Expander.recalls_expand g.surroundings path text { reads := [path] }
    rw [expand_of_readText hpath hread, hrecalls.reads]
    have hothers : ∀ q ∈ read, ¬ Path.Same path q :=
      fun q hq => hrecalls.idle q hq path (List.mem_singleton_self path)
    exact ⟨read, rfl, List.pairwise_cons.2 ⟨hothers, hrecalls.once⟩⟩

/-- What a build that starts at `path` reads. -/
structure ReadsInOrder (g : Generator) (template : Path) (encoding : Option TextEncoding)
    (path : Path) : Prop where
  once : (g.expand template encoding).reads.Pairwise fun p q => ¬ Path.Same p q
  first : (g.expand template encoding).reads.head? = some path
  /-- The files that can be come to from the template, depth first, up to some point. -/
  order : (g.expand template encoding).reads
    <+: g.surroundings.visits (asked path encoding) [] [path]
  /-- Another file is read because a file that was accepted names it, and only if no file before it
  was refused. -/
  gated : ∀ before p after, (g.expand template encoding).reads = before ++ p :: after →
    (∀ q ∈ before, (g.surroundings.outline? (asked path encoding) q).isSome = true) ∧
      (before ≠ [] → ∃ q ∈ before, g.surroundings.Includes (asked path encoding) q p)
  /-- A build that succeeds comes to all of them. -/
  complete : ∀ t, (g.expand template encoding).result = .ok t →
    (g.expand template encoding).reads = g.surroundings.visits (asked path encoding) [] [path] ∧
      ∀ p, p ∈ (g.expand template encoding).reads ↔
        Relation.ReflTransGen (g.surroundings.Mentions (asked path encoding)) path p

/-- Once the path of the template is known, the files are read in order. -/
theorem readsInOrder (hpath : g.absolute template = .ok path) (encoding : Option TextEncoding) :
    g.ReadsInOrder template encoding path := by
  obtain ⟨x, hx, hexplores⟩ := explores_expand hpath encoding
  obtain ⟨read, hread, honce⟩ := exists_reads hpath encoding
  obtain ⟨read', hfollows⟩ := hexplores.follows
  obtain rfl : path :: read = read' := by rw [← hread, ← hx, hfollows.reads]; rfl
  -- Every file but the last one was accepted, since another one was read after it.
  have haccepted : ∀ before p after, path :: read = before ++ p :: after →
      ∀ q ∈ before, (g.surroundings.outline? (asked path encoding) q).isSome = true := by
    intro before p after hsplit q hq
    refine hfollows.accepted q ?_
    rw [hsplit, List.dropLast_append_of_ne_nil (by simp)]
    exact List.mem_append_left _ hq
  refine ⟨?_, ?_, ?_, ?_, ?_⟩
  · rw [hread]
    exact honce
  · rw [hread]
    rfl
  · rw [hread]
    exact hfollows.order
  · intro before p after hsplit
    rw [hread] at hsplit
    refine ⟨haccepted before p after hsplit, fun hne => ?_⟩
    obtain ⟨rest, hrest⟩ := hfollows.order
    rw [hsplit, List.append_assoc] at hrest
    rcases Surroundings.parent_of_visits hrest.symm with hp | ⟨q, hq, hmentions⟩
    · -- The template is the first file, and `p` is a later one.
      obtain ⟨first, before, rfl⟩ := List.exists_cons_of_ne_nil hne
      obtain ⟨rfl, htail⟩ := List.cons.inj hsplit
      obtain rfl := List.mem_singleton.1 hp
      refine absurd (Path.Same.refl p) ((List.pairwise_cons.1 honce).1 p ?_)
      rw [htail]
      exact List.mem_append_right _ (List.mem_cons_self ..)
    · obtain ⟨o, ho⟩ := Option.isSome_iff_exists.1 (haccepted before p after hsplit q hq)
      exact ⟨q, hq, o, ho, hmentions.of_outline ho⟩
  · intro t ht
    rw [ht] at hexplores
    have hall : (g.expand template encoding).reads
        = g.surroundings.visits (asked path encoding) [] [path] := by
      rw [← hx, hexplores.reads]
      rfl
    refine ⟨hall, fun p => ?_⟩
    rw [hall]
    exact Surroundings.mem_visits_iff (folded_of_absolute hpath)

/-- **Every file is read once, in depth-first order, and only when it is needed.** -/
theorem expand_reads (g : Generator) (template : Path) (encoding : Option TextEncoding) :
    (∀ e, g.absolute template = .error e → (g.expand template encoding).reads = []) ∧
    (∀ path, g.absolute template = .ok path → g.ReadsInOrder template encoding path) ∧
    ∀ before call after, Expander.NeverAgain g.surroundings before call after := by
  refine ⟨fun e he => ?_, fun path hpath => readsInOrder hpath encoding, Expander.neverAgain g.surroundings⟩
  rw [expand, he]

end Generator
end Templating
