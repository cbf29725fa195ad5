import Templating.Proofs.Program.PassThrough

/-!
# What the statements of a plan are

A plan has what its document has, in the same order: one run of statements for each block.  A text
becomes as many literals as it has lines, so it is cut at its line breaks after the document was cut at
its tags, and put together again it has lost its carriage returns at the ends of lines and nothing else.

## What is here

* `Text.unixBreaks` is a text with one kind of line break; `Text.plainBreaks_eq_chomp` says what that
  has to do with going through it line by line.
* `Block.Rendered` says which statements a block becomes, and `Plan.Renders` what a plan has of some
  blocks.
* `Document.plan_renders` says that the plan of a document has all of its blocks.
-/

set_option autoImplicit false

namespace Templating

/-! ## Line breaks

That a text goes through its lines one by one is how it is put out; what comes of it is easier to say of
the text as a whole.  Both `"\r\n"` and `"\n"` end a line, and the first one becomes the second; a
carriage return at the very end goes as well. -/

namespace Text

/-- A text with every `"\r\n"` in it replaced by `"\n"`. -/
def unixBreaks : Text → Text
  | [] => []
  | '\r' :: '\n' :: t => '\n' :: unixBreaks t
  | c :: t => c :: unixBreaks t

/-- Nothing comes only of nothing. -/
theorem unixBreaks_eq_nil_iff {t : Text} : unixBreaks t = [] ↔ t = [] := by
  fun_cases unixBreaks t with
  | case1 => simp
  | case2 => simp
  | case3 => simp

/-- Without the carriage returns at the ends of its lines, a text has one kind of line break, and it
has lost a carriage return at its very end. -/
theorem plainBreaks_eq_chomp (t : Text) : plainBreaks t = chomp (unixBreaks t) := by
  fun_induction unixBreaks t with
  | case1 => rfl
  | case2 t ih => rw [plainBreaks, if_pos (by simp), plainBreaks, if_neg (by simp), ih,
      chomp_cons (by simp)]
  | case3 c t hother ih =>
    by_cases hend : c = '\r' ∧ t = []
    · -- Only here do the two differ before `chomp`.
      obtain ⟨rfl, rfl⟩ := hend
      rfl
    · have hkept : ¬ (c = '\r' ∧ (t = [] ∨ t.head? = some '\n')) := by
        rintro ⟨rfl, hnil | hhead⟩
        · exact hend ⟨rfl, hnil⟩
        · obtain ⟨rest, rfl⟩ := List.head?_eq_some_iff.1 hhead
          exact hother rest rfl rfl
      rw [plainBreaks, if_neg hkept, ih, chomp_cons (by rwa [unixBreaks_eq_nil_iff])]

end Text

/-! ## The statements of a block

A text becomes literals, code and the printing of a value become one statement each, and a declaration
goes elsewhere.  An include tag never becomes anything, since a plan with one in it fails. -/

/-- The text of a block as it is put out. -/
def Block.output (b : Block) : Text := b.content.unixBreaks.chomp

/-- The statements that a block becomes, if it is no include tag. -/
def Block.Rendered (b : Block) (run : List Statement) : Prop :=
  match b.kind with
  | .text => (∀ s ∈ run, ∃ line, s = .literal line ∧ line ≠ [] ∧ '\n' ∉ line.dropLast) ∧
      run.flatMap Statement.staticText = b.output
  | .tag .code => run = [.code b.content]
  | .tag .print => run = [.print (Text.trim b.content)]
  | .tag .declaration => run = []
  | .tag .inclusion => False

/-- The lines of a block have no line breaks in them. -/
theorem Block.break_not_mem_of_mem_lines {b : Block} {line : Text} (h : line ∈ b.lines) :
    '\n' ∉ line := by
  obtain ⟨line, hline, rfl⟩ := List.mem_map.1 h
  exact fun hmem => Text.break_not_mem_of_mem_lines hline ((Text.chomp_prefix line).subset hmem)

namespace Plan

/-- Every literal is one line, and none is empty. -/
theorem exists_of_mem_literals {lines : List Text} (h : ∀ line ∈ lines, '\n' ∉ line) :
    ∀ s ∈ literals lines, ∃ line, s = .literal line ∧ line ≠ [] ∧ '\n' ∉ line.dropLast := by
  fun_induction literals lines with
  | case1 => simp
  | case2 => simp
  | case3 last hne =>
    intro s hs
    obtain rfl := List.mem_singleton.1 hs
    exact ⟨last, rfl, hne, fun hmem => h last (by simp) (List.dropLast_subset last hmem)⟩
  | case4 line l lines ih =>
    intro s hs
    rcases List.mem_cons.1 hs with rfl | hs
    · refine ⟨line ++ ['\n'], rfl, by simp, ?_⟩
      rw [List.dropLast_concat]
      exact h line (List.mem_cons_self ..)
    · exact ih (fun line' hline' => h line' (List.mem_cons_of_mem line hline')) s hs

/-- The literals of a block put out its text. -/
theorem staticText_literals_lines (b : Block) :
    (literals b.lines).flatMap Statement.staticText = b.output := by
  have hne : b.lines ≠ [] := fun h => Text.lines_ne_nil b.content (List.map_eq_nil_iff.1 h)
  rw [staticText_literals hne, Block.output, ← Text.plainBreaks_eq_chomp,
    Text.plainBreaks_eq_intercalate]
  rfl

end Plan

/-! ## The statements of a document

The plan is made from the last block to the first, with the declarations and the statements in two
lists.  Each block adds to one of them at the front. -/

/-- The joint output of the texts among some blocks. -/
def Block.outputs (blocks : List Block) : Text :=
  (blocks.filter fun b => b.kind = .text).flatMap Block.output

/-- The contents of the declarations among some blocks. -/
def Block.declarations (blocks : List Block) : List Text :=
  (blocks.filter fun b => b.kind = .tag .declaration).map Block.content

/-- The plan has all that the blocks have, in order. -/
structure Plan.Renders (p : Plan) (blocks : List Block) : Prop where
  statements : ∃ runs : List (List Statement),
    p.statements = runs.flatten ∧ List.Forall₂ Block.Rendered blocks runs
  declarations : p.declarations = Block.declarations blocks

namespace Plan

variable {p : Plan} {blocks : List Block}

/-- One more block in front. -/
theorem Renders.cons (b : Block) (run : List Statement) (declared : List Text)
    (hrun : b.Rendered run)
    (hdeclared : Block.declarations (b :: blocks) = declared ++ Block.declarations blocks)
    (h : p.Renders blocks) :
    Renders ⟨declared ++ p.declarations, run ++ p.statements⟩ (b :: blocks) := by
  obtain ⟨runs, hstatements, hruns⟩ := h.statements
  refine ⟨⟨run :: runs, ?_, .cons hrun hruns⟩, ?_⟩
  · rw [List.flatten_cons, ← hstatements]
  · rw [hdeclared, ← h.declarations]

/-- Every block that is no include tag becomes its part of the plan. -/
theorem exists_renders (d : Document) (h : ∀ b ∈ blocks, b.kind ≠ .tag .inclusion) :
    ∃ p, ofBlocks d none blocks = .ok p ∧ p.Renders blocks := by
  induction blocks with
  | nil => exact ⟨⟨[], []⟩, rfl, ⟨[], rfl, .nil⟩, rfl⟩
  | cons b blocks ih =>
    obtain ⟨p, hp, hrenders⟩ := ih fun b' hb' => h b' (List.mem_cons_of_mem b hb')
    rw [ofBlocks.eq_def]
    dsimp only
    rw [hp]
    obtain ⟨kind, span, content⟩ := b
    cases kind with
    | text =>
      refine ⟨_, rfl, hrenders.cons ⟨.text, span, content⟩ _ [] ⟨?_, ?_⟩ rfl⟩
      · exact exists_of_mem_literals fun line hline => Block.break_not_mem_of_mem_lines hline
      · exact staticText_literals_lines ⟨.text, span, content⟩
    | tag tag =>
      cases tag with
      | code => exact ⟨_, rfl, hrenders.cons ⟨.tag .code, span, content⟩ [_] [] rfl rfl⟩
      | print => exact ⟨_, rfl, hrenders.cons ⟨.tag .print, span, content⟩ [_] [] rfl rfl⟩
      | declaration =>
        exact ⟨_, rfl, hrenders.cons ⟨.tag .declaration, span, content⟩ [] [content] rfl rfl⟩
      | inclusion => exact absurd rfl (h _ (List.mem_cons_self ..))

/-- The literals of a plan are the texts of the document, since no other block has literals. -/
theorem Renders.staticText (h : p.Renders blocks) : p.staticText = Block.outputs blocks := by
  obtain ⟨runs, hstatements, hruns⟩ := h.statements
  rw [Plan.staticText, hstatements]
  -- Only the runs and their blocks are needed from here on.
  clear hstatements h
  induction hruns with
  | nil => rfl
  | @cons b run blocks runs hrun _ ih =>
    rw [List.flatten_cons, List.flatMap_append, ih]
    obtain ⟨kind, span, content⟩ := b
    cases kind with
    | text =>
      rw [hrun.2]
      rfl
    | tag tag =>
      cases tag with
      | inclusion => exact hrun.elim
      | _ =>
        obtain rfl := hrun
        rfl

end Plan

/-- **A plan has all of its document, in order.**  The output of a program whose code does nothing is
the texts of its document, behind the banner if there is one. -/
theorem Document.plan_renders {d : Document} {g : Grammar} {blocks : List Block}
    (h : d.parse g = .ok blocks) (hinclusion : ∀ b ∈ blocks, b.kind ≠ .tag .inclusion) :
    ∃ p, Plan.ofBlocks d ((d.scan g).failure? d) (d.scan g).blocks = .ok p ∧ p.Renders blocks ∧
      p.staticText = Block.outputs blocks ∧
      ∀ c : EmitContext, ∃ program,
        Program.emit c d ((d.scan g).failure? d) (d.scan g).blocks = .ok program ∧
        program.plan = Program.withBanner c p ∧
        program.staticText = Program.lead c ++ Block.outputs blocks := by
  obtain ⟨hfault, rfl⟩ := Document.parse_eq_ok_iff.1 h
  obtain ⟨p, hp, hrenders⟩ := Plan.exists_renders d hinclusion
  have hfailure : (d.scan g).failure? d = none := by
    rw [Scan.failure?, hfault]
    rfl
  rw [hfailure]
  refine ⟨p, hp, hrenders, hrenders.staticText, fun c => ?_⟩
  rw [Program.emit, hp]
  refine ⟨_, rfl, rfl, ?_⟩
  rw [← hrenders.staticText]
  exact Program.staticText_withBanner c p

/-- Texts with carriage returns in front of a line break and in front of a tag. -/
theorem Document.plan_renders_carriage_returns :
    let d := Document.ofSource (.ofString "/a") "a\r\n\r\r\n<%x%>b\r<%= y %><%!z%>".toList
    let blocks : List Block := [⟨.text, ⟨0, 6⟩, "a\r\n\r\r\n".toList⟩,
      ⟨.tag .code, ⟨6, 11⟩, ['x']⟩, ⟨.text, ⟨11, 13⟩, ['b', '\r']⟩,
      ⟨.tag .print, ⟨13, 21⟩, " y ".toList⟩, ⟨.tag .declaration, ⟨21, 27⟩, ['z']⟩]
    d.parse .standard = .ok blocks ∧ (∀ b ∈ blocks, b.kind ≠ .tag .inclusion) ∧
      ∃ p, Plan.ofBlocks d ((d.scan .standard).failure? d) (d.scan .standard).blocks = .ok p ∧
        p.Renders blocks ∧ p.staticText = "a\n\r\nb".toList := by
  intro d blocks
  have hparse : d.parse .standard = .ok blocks := by
    rw [Grammar.standard_eq]
    decide +kernel
  have hinclusion : ∀ b ∈ blocks, b.kind ≠ .tag .inclusion := by decide
  obtain ⟨p, hp, hrenders, htext, -⟩ := plan_renders hparse hinclusion
  refine ⟨hparse, hinclusion, p, hp, hrenders, ?_⟩
  rw [htext]
  decide +kernel

end Templating
