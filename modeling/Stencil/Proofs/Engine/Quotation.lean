import Stencil.Engine
import Stencil.Proofs.Expr.Lexing
import Stencil.Proofs.Expr.Reading
import Stencil.Proofs.Expr.Spelling
import Stencil.Proofs.Render.Delivery
import Stencil.Proofs.Template.Reading

/-!
# Quoted text is rendered as it stands

Any text can be put between quotes of either kind, if a backslash is put in front of its quotes of
this kind and its backslashes (`quoted`). The template that outputs such a literal (`outputOf`)
renders the text, whatever the engine is configured with.

The literal is read twice, by two scanners that know nothing of each other. The one for the
parameters of a tag looks for the end of the literal only, and takes what follows a backslash as it
comes; the one for expressions resolves the escapes. Both agree on where the literal ends, and what
the second one makes of it is the text.

Main definitions: `quoted`, `outputOf`. Main statements: `balanced_quoted`, `parseExprs_quoted`,
`compile_outputOf`, `Engine.renders_quoted`.
-/

namespace Stencil

open Render

/-! ### Literals -/

/-- A text between two quotes `q`. -/
def quoted (q : Char) (content : List Char) : List Char :=
  q :: (content.flatMap (quotedIn q) ++ [q])

/-- A text with the quote and the backslashes escaped may stand between two quotes. -/
theorem literal_quotedIn (q : Char) (content : List Char) :
    Literal q (content.flatMap (quotedIn q)) := by
  induction content with
  | nil => exact .nil
  | cons c content ih =>
    rw [List.flatMap_cons, quotedIn]
    -- a quote or backslash stands behind a backslash, and all else stands for itself
    by_cases hescaped : c = q ∨ c = '\\'
    · rw [if_pos hescaped]
      exact .escaped c ih
    · rw [if_neg hescaped]
      obtain ⟨hquote, hslash⟩ := not_or.1 hescaped
      exact .plain hquote hslash ih

/-- A quoted text is a parameter that closes all that it opens. -/
theorem balanced_quoted {q : Char} (hq : isQuote q) (content : List Char) :
    Balanced (quoted q content) := .string hq (literal_quotedIn q content) .nil

theorem isBlank_of_isQuote {q : Char} (hq : isQuote q) : Text.isBlank q = false := by
  rcases hq with rfl | rfl <;> exact isBlank_of_visible (by decide)

/-- A quoted text is one lexeme, which is the text without the escapes. -/
theorem scanLexeme_quoted {q : Char} (hq : isQuote q) (content : List Char) :
    ∃ rows, scanLexeme q (content.flatMap (quotedIn q) ++ [q]) =
      .ok (.text (String.ofList content), [], rows) := by
  obtain ⟨rows, hscan⟩ := scanString_quotedIn hq content []
  have hstart : isWordStart q = false ∧ q.isDigit = false := by
    rcases hq with rfl | rfl <;> decide
  refine ⟨rows, ?_⟩
  unfold isQuote at hq
  rw [scanLexeme, hstart.1, hstart.2, if_neg Bool.false_ne_true, if_neg Bool.false_ne_true,
    if_pos hq, hscan]

/-- **A quoted text is parsed as this text.** -/
theorem parseExprs_quoted {q : Char} (hq : isQuote q) (content : List Char)
    (file : Option String) (row : Nat) :
    parseExprs file row (String.ofList (quoted q content)) =
      .ok [.const (.str (String.ofList content))] := by
  obtain ⟨rows, hlexeme⟩ := scanLexeme_quoted hq content
  have htokens : scanTokens row (quoted q content) = _ :=
    scanTokens_cons (isBlank_of_isQuote hq) hlexeme (scanTokens_nil _)
  rw [← String.toList_ofList (l := quoted q content)] at htokens
  exact parseExprs_of_spells_at (show Level.primary.Proper from trivial) htokens (.text _ _)

/-! ### Templates -/

/-- The template that outputs a string literal. -/
def outputOf (q : Char) (content : String) : String :=
  String.ofList ('#' :: '(' :: (quoted q content.toList ++ [')']))

/-- The one tag of the template. -/
def outputTag (q : Char) (content : String) : Tag :=
  .directive "output" (some (String.ofList (quoted q content.toList)))

/-- Nothing but the tag is left of the template, whether its line is kept or not. -/
theorem itemsOf_outputOf {q : Char} (hq : isQuote q) (content : String) (keep : List String) :
    itemsOf keep (outputOf q content).toList = .ok [.tag (outputTag q content) 1] := by
  rw [outputOf, String.toList_ofList]
  exact itemsOf_tag (.output (balanced_quoted hq content.toList)) keep

/-- A source compiles to the statement that its items make up, if nothing is included and no
function is defined. -/
theorem compile_of_parseItems {config : Config} {files : Files} {source : Source}
    {content : String} {items : List Item} {body : Statement}
    (hsource : source.content files = .ok content)
    (hitems : itemsOf config.keep content.toList = .ok items) (nextSite : Nat)
    (hparse : ∀ p : Parsing, p.config = config → p.file = source.fileName? →
      p.parseItems { sources := [source], nextSite } items =
        .ok (body, { sources := [source], nextSite })) :
    compile config files source nextSite = .ok (⟨body, .empty, [source]⟩, nextSite) := by
  -- nothing is included, so nesting of any depth is within the bound
  obtain ⟨depth, hdepth⟩ : ∃ depth, files.nestingBound = depth + 1 := by
    unfold Files.nestingBound
    cases files.storage with
    | memory => exact ⟨files.memory.names.size + 1, rfl⟩
    | disk => exact ⟨1024 * files.disk.files.size + 1023, rfl⟩
  have hfile : parseFile config files (depth + 1) [] source { nextSite } =
      .ok (body, { sources := [source], nextSite }) := by
    unfold parseFile
    rw [hsource]
    dsimp only [Bind.bind, Except.bind]
    rw [hitems]
    exact hparse _ rfl rfl
  rw [compile, hdepth, hfile]
  rfl

/-- **A quoted text compiles** to the statement that writes it, with any configuration. -/
theorem compile_outputOf {q : Char} (hq : isQuote q) {content : String} {config : Config}
    {files : Files} {source : Source} (hsource : source.content files = .ok (outputOf q content))
    (nextSite : Nat) :
    compile config files source nextSite =
      .ok (⟨.output (.const (.str content)), .empty, [source]⟩, nextSite) := by
  have hexprs := parseExprs_quoted hq content.toList source.fileName? 1
  rw [String.ofList_toList] at hexprs
  refine compile_of_parseItems hsource (itemsOf_outputOf hq content _) nextSite fun p _ hfile => ?_
  have hvalue : p.singleExpr 1 (String.ofList (quoted q content.toList)) "#()" =
      .ok (.const (.str content)) := by
    unfold Parsing.singleExpr Parsing.exprs
    rw [hfile, hexprs]
    rfl
  -- the tag adds the one statement that the template has
  have htag : p.add {} { sources := [source], nextSite } (.tag (outputTag q content) 1) =
      .ok (⟨[], [.output (.const (.str content))]⟩, { sources := [source], nextSite }) := by
    change (p.singleExpr 1 (String.ofList (quoted q content.toList)) "#()" >>= fun value => _) = _
    rw [hvalue]
    rfl
  unfold Parsing.parseItems Parsing.addAll
  rw [htag]
  rfl

/-! ### Renders -/

/-- A statement that does nothing but write a text, to any output that refuses nothing. -/
def Statement.OnlyWrites (s : Statement) (config : Config) (content : String) : Prop :=
  ∀ (fuel : Nat) (functions : Assoc TemplateFunction) (st : RenderState), 0 < fuel →
    st.output.Steady → ∃ after, (s.exec config fuel functions 0).runOn st = (.ok (), after) ∧
      after.memory = st.memory ∧ after.output.Steady ∧
      after.output.received ++ after.output.held =
        st.output.received ++ (st.output.held ++ content)

/-- A text that is written has been received, or is held back. -/
theorem runOn_write_of_steady {st : RenderState} (hsteady : st.output.Steady) (content : String) :
    ∃ after, (write content).runOn st = (.ok (), after) ∧ after.memory = st.memory ∧
      after.output.Steady ∧ after.output.received ++ after.output.held =
        st.output.received ++ (st.output.held ++ content) := by
  obtain ⟨hwrite, hreceived⟩ := (st.output.write_delivery content).of_steady hsteady
  refine ⟨{ st with
    output := (st.output.write content).2
    files := saved st.output (st.output.write content).2 st.files }, ?_, rfl,
    (st.output.steady_write content).2 hsteady, hreceived⟩
  change ((st.output.write content).1.mapError _, _) = _
  rw [hwrite]
  rfl

/-- To output a constant string is to write it. -/
theorem Statement.onlyWrites_output (config : Config) (content : String) :
    (Statement.output (.const (.str content))).OnlyWrites config content := by
  intro fuel functions st hfuel hsteady
  obtain ⟨fuel, rfl⟩ := Nat.exists_eq_succ_of_ne_zero (Nat.ne_of_gt hfuel)
  have htext : st.memory.heap.text (.str content) = content := by
    unfold Heap.text Heap.textTo
    rfl
  have hexec : ((Statement.output (.const (.str content))).exec config (fuel + 1) functions 0).runOn
      st = (write content).runOn st := by
    -- a string is its own text
    change (onOutput (·.write (st.memory.heap.text (.str content)))).runOn st = _
    rw [htext]
    rfl
  rw [hexec]
  exact runOn_write_of_steady hsteady content

/-- A template that does nothing but write a text renders it. -/
theorem Compiled.runOn_render_of_onlyWrites {config : Config} {fuel : Nat} (hfuel : 0 < fuel)
    {unit : Compiled} {content : String} (hbody : unit.body.OnlyWrites config content)
    {st : RenderState} (hsteady : st.output.Steady) :
    ∃ after, (unit.render config fuel).runOn st = (.ok (), after) ∧ after.memory = st.memory ∧
      after.output.received = st.output.received ++ (st.output.held ++ content) := by
  obtain ⟨mid, hexec, hmemory, hmid, htaken⟩ := hbody fuel unit.functions st hfuel hsteady
  -- what is still in the buffer is delivered at the end of the render
  obtain ⟨hflush, hdelivered⟩ := mid.output.flush_delivery.of_steady hmid
  rw [Output.flush_held hflush, String.append_empty] at hdelivered
  -- the render leaves the memory it began with, and an output that has been flushed
  refine ⟨{ mid with
    output := mid.output.flush.2
    files := saved mid.output mid.output.flush.2 mid.files }, ?_, hmemory,
    hdelivered.trans htaken⟩
  unfold Compiled.render
  rw [runOn_bind, hexec]
  change (mid.output.flush.1.mapError _, _) = _
  rw [hflush]
  rfl

/-- A template that outputs a text renders it. -/
theorem Compiled.runOn_render_text {config : Config} {fuel : Nat} (hfuel : 0 < fuel)
    (content : String) (functions : Assoc TemplateFunction) (sources : List Source)
    {st : RenderState} (hsteady : st.output.Steady) :
    ∃ after, (Compiled.render config fuel
        ⟨.output (.const (.str content)), functions, sources⟩).runOn st = (.ok (), after) ∧
      after.memory = st.memory ∧
      after.output.received = st.output.received ++ (st.output.held ++ content) :=
  Compiled.runOn_render_of_onlyWrites hfuel (Statement.onlyWrites_output config content) hsteady

/-- What a render leaves behind is what its run leaves behind. -/
theorem Engine.render_of_runOn {engine : Engine} {files : Files} {fuel : Nat} {t : Template}
    {data : Assoc Value} {heap : Heap} {output : Output} {result : Except Stop Unit}
    {after : RenderState}
    (h : (t.unit.render engine.config fuel).runOn
      ⟨⟨heap, .ofData data, {}⟩, output, engine.library, files⟩ = (result, after)) :
    engine.render files fuel t data heap output = ⟨result, after.memory.heap, after.output,
      { engine with library := after.library }, after.files⟩ := by
  unfold Engine.render
  dsimp only
  rw [h]

/-- **Quoted text is rendered as it stands.** Put any text between quotes of either kind, with a
backslash in front of every quote of this kind and every backslash, and let a template output this
literal. Whatever the engine is configured with, the template compiles, and what a render of it adds
to an output that refuses nothing is the text, to the last character. -/
theorem Engine.renders_quoted (engine : Engine) (files : Files) {q : Char} (hq : isQuote q)
    {content : String} {source : Source}
    (hsource : source.content files = .ok (outputOf q content)) :
    ∃ t after, engine.compile files source = .ok (t, after) ∧
      ∀ (present : Files) (fuel : Nat) (data : Assoc Value) (heap : Heap) (output : Output),
        0 < fuel → output.Steady →
          let rendered := after.render present fuel t data heap output
          rendered.result = .ok () ∧ rendered.heap = heap ∧
            rendered.output.received = output.received ++ (output.held ++ content) := by
  obtain ⟨library, hlibrary⟩ : ∃ library, engine.library.compile (engine.context files) source =
      .ok (⟨.output (.const (.str content)), .empty, [source]⟩, library) := by
    -- the library keeps its functions and gets no new places
    refine ⟨engine.library.withSites engine.library.sites.size, ?_⟩
    change (Stencil.compile engine.config files source _ >>= fun compiled => _) = _
    rw [compile_outputOf hq hsource]
    rfl
  refine ⟨_, _, by rw [compile, hlibrary]; rfl, ?_⟩
  intro present fuel data heap output hfuel hsteady rendered
  obtain ⟨after, hrun, hmemory, hreceived⟩ := @Compiled.runOn_render_text engine.config fuel hfuel
    content .empty [source] ⟨⟨heap, .ofData data, {}⟩, output, library, present⟩ hsteady
  rw [show rendered = _ from Engine.render_of_runOn hrun]
  exact ⟨rfl, congrArg Memory.heap hmemory, hreceived⟩

/-- Quotes, backslashes, a construct, a line break and a NUL, with literal text squeezed. -/
theorem Engine.renders_quoted_marks :
    let engine : Engine := { name := "", config := { settings := { separator := some ' ' } } }
    let content := "a'\"\\n#end)(\n\x00é"
    outputOf '\x27' content = "#('a\\'\"\\\\n#end)(\n\x00é')" ∧
      ∃ t after, engine.getByString {} (outputOf '\x27' content) false = .ok (t, after) ∧
        (after.render {} 1 t .empty {} .unlimited).output.received = content := by
  intro engine content
  have hsource : (Source.string (outputOf '\x27' content) false).content {} =
      .ok (outputOf '\x27' content) := rfl
  obtain ⟨t, after, hcompile, hrender⟩ := engine.renders_quoted {} (.inr rfl) hsource
  obtain ⟨-, -, hreceived⟩ :=
    hrender {} 1 .empty {} .unlimited Nat.one_pos ⟨rfl, fun _ => rfl⟩
  refine ⟨by decide, t, after, hcompile, hreceived.trans ?_⟩
  exact String.empty_append.trans String.empty_append

end Stencil
