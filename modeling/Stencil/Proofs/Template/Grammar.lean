import Stencil.Template.Parse

/-!
# The grammar of templates

Which lists of items are templates, and what statement each of them is, said without a parser: a
template is a list of texts, tags that are statements by themselves, and blocks.

* `#if` has any number of `#elseif` parts and at most one `#else`, the last one. The chain is a
  condition in the alternative of a condition.
* `#for` may have an `#else`.
* `#switch` has only blank text in front of its first part; its parts are any number of `#case` and
  at most one `#default`, in any order.
* `#define` stands outside all blocks, and no two functions of a template have one name.
* A custom directive has a body if it is registered with one.
* `#break` and `#continue` stand in the body of a `#for`, perhaps in other blocks there. The
  `#else` of a `#for` is no part of its body.

Every block ends with an `#end` of its own. The grammar goes with the draft of the template, since
functions are known and sites are numbered in the order of the items.

Main definitions: `Nesting`, `Parsing.Simple`, `Parsing.Derives`.
Main statement: `Parsing.Derives.append`.
-/

namespace Stencil

/-- Where statements stand. -/
inductive Nesting where
  /-- Outside all blocks. -/
  | top
  /-- In a block, but in no loop body. -/
  | inner
  /-- In the body of a loop, perhaps in other blocks there. -/
  | loop
deriving DecidableEq, Repr

/-- The nesting in a block that stands at a nesting, if the block is no loop body. -/
def Nesting.inside : Nesting → Nesting
  | top | inner => inner
  | loop => loop

/-- The divider that an item is. -/
def Item.divider? : Item → Option Divider
  | .text .. => none
  | .tag t _ => Divider.ofTag? t

/-- An item is a text of blanks. -/
def Item.IsBlank : Item → Prop
  | .text chars _ => Text.allBlank chars = true
  | .tag .. => False

/-- The directives that the language has by itself, beside the dividers. -/
def builtInIds : List String :=
  ["if", "for", "switch", "output", "include", "render", "call", "call?", "break", "continue",
    "return", "set", "setLocal", "setGlobal"]

namespace Parsing

/-- A literal text, squeezed as the configuration says. -/
def squeezed (p : Parsing) (chars : List Char) : List Char :=
  match p.config.settings.separator with
  | some separator => Text.squeeze separator chars
  | none => chars

/-- The statements that a literal text is: one, or none if nothing is left of the text. -/
def literals (p : Parsing) (chars : List Char) : List Statement :=
  if (p.squeezed chars).isEmpty then [] else [.text (String.ofList (p.squeezed chars))]

/-- A text makes up no literal, if nothing is left of it, or one. -/
theorem literals_eq (p : Parsing) (chars : List Char) :
    p.literals chars = [] ∨ ∃ content, p.literals chars = [.text content] := by
  unfold literals
  split
  · exact .inl rfl
  · exact .inr ⟨_, rfl⟩

/-- A directive that is not one of the language. -/
def Foreign (id : String) (parameters : Option String) : Prop :=
  Divider.ofTag? (.directive id parameters) = none ∧ id ∉ builtInIds

/-- A tag in a row is a statement by itself. -/
inductive Simple (p : Parsing) (nesting : Nesting) (draft : Draft) (row : Nat) :
    Tag → Statement → Draft → Prop where
  | output {parameters : Option String} {value : Expr} :
      p.singleExpr row (parameters.getD "") "#()" = .ok value →
      Simple p nesting draft row (.directive "output" parameters) (.output value) draft
  | assign {id : String} {parameters : Option String} {policy : Policy} {assignments : List Expr} :
      policyOf? id = some policy → p.exprs row (parameters.getD "") = .ok assignments →
      assignments ≠ [] → assignments.all Expr.isAssignment = true →
      Simple p nesting draft row (.directive id parameters) (.assign policy assignments) draft
  | inlined {parameters : Option String} {s : Statement} {draft' : Draft} :
      p.includeFile row (parameters.getD "") draft = .ok (s, draft') →
      Simple p nesting draft row (.directive "include" parameters) s draft'
  | render {parameters : Option String} {name : String} {assignments : List Expr} :
      p.target row (parameters.getD "") "#render" = .ok (name, assignments) →
      Simple p nesting draft row (.directive "render" parameters)
        (.render name assignments draft.nextSite ⟨p.file, row⟩)
        { draft with nextSite := draft.nextSite + 1 }
  | call {parameters : Option String} {args : List Expr} {s : Statement} :
      p.exprs row (parameters.getD "") = .ok args → p.callOf row false args = .ok s →
      Simple p nesting draft row (.directive "call" parameters) s draft
  | callIfDefined {parameters : Option String} {args : List Expr} {s : Statement} :
      p.exprs row (parameters.getD "") = .ok args → p.callOf row true args = .ok s →
      Simple p nesting draft row (.directive "call?" parameters) s draft
  | callByName {name : String} {ifDefined : Bool} {parameters : String} {args : List Expr} :
      p.exprs row parameters = .ok args →
      Simple p nesting draft row (.call name ifDefined parameters)
        (.call (.named name) args ifDefined ⟨p.file, row⟩) draft
  | leave {parameters : Option String} : nesting = .loop →
      Simple p nesting draft row (.directive "break" parameters) (.jump .break) draft
  | resume {parameters : Option String} : nesting = .loop →
      Simple p nesting draft row (.directive "continue" parameters) (.jump .continue) draft
  | finish {parameters : Option String} :
      Simple p nesting draft row (.directive "return" parameters) (.jump .return) draft
  | custom {id : String} {parameters : Option String} {directive : Directive}
      {args : List Expr} :
      Foreign id parameters → p.config.directives.get? id = some directive →
      directive.hasBody = false → p.exprs row (parameters.getD "") = .ok args →
      Simple p nesting draft row (.directive id parameters)
        (.custom directive args .nothing ⟨p.file, row⟩) draft

/-- What items make up. -/
inductive Part where
  | statements (ss : List Statement)
  | statement (s : Statement)
  /-- What follows the body of an `#if` or `#elseif`, up to the `#end`. -/
  | alternative (s : Statement)
  /-- What follows the head of a `#switch`, from the first part up to the `#end`. -/
  | sections (cases : List Case) (fallback : Option Statement)

/-- Items at a nesting make up a part, and take one draft to another. -/
inductive Derives (p : Parsing) : Nesting → Draft → List Item → Part → Draft → Prop where
  | nil {nesting : Nesting} {draft : Draft} : Derives p nesting draft [] (.statements []) draft
  | text {nesting : Nesting} {draft draft' : Draft} {items : List Item} {ss : List Statement}
      (chars : List Char) (row : Nat) :
      Derives p nesting draft items (.statements ss) draft' →
      Derives p nesting draft (.text chars row :: items) (.statements (p.literals chars ++ ss))
        draft'
  | next {nesting : Nesting} {draft draft₁ draft' : Draft} {front items : List Item} {s : Statement}
      {ss : List Statement} :
      Derives p nesting draft front (.statement s) draft₁ →
      Derives p nesting draft₁ items (.statements ss) draft' →
      Derives p nesting draft (front ++ items) (.statements (s :: ss)) draft'
  | simple {nesting : Nesting} {draft draft' : Draft} {tag : Tag} {row : Nat} {s : Statement} :
      p.Simple nesting draft row tag s draft' →
      Derives p nesting draft [.tag tag row] (.statement s) draft'
  | condition {nesting : Nesting} {draft draft₁ draft' : Draft} {parameters : Option String}
      {row : Nat} {test : Expr} {body rest : List Item} {ss : List Statement} {s : Statement} :
      p.singleExpr row (parameters.getD "") "#if" = .ok test →
      Derives p nesting.inside draft body (.statements ss) draft₁ →
      Derives p nesting.inside draft₁ rest (.alternative s) draft' →
      Derives p nesting draft (.tag (.directive "if" parameters) row :: body ++ rest)
        (.statement (.condition test (.ofList ss) s)) draft'
  | noAlternative {nesting : Nesting} {draft : Draft} {close : Item} : close.divider? = some .end →
      Derives p nesting draft [close] (.alternative .nothing) draft
  | otherwise {nesting : Nesting} {draft draft' : Draft} {mark close : Item} {body : List Item}
      {ss : List Statement} :
      mark.divider? = some .else → Derives p nesting draft body (.statements ss) draft' →
      close.divider? = some .end →
      Derives p nesting draft (mark :: body ++ [close]) (.alternative (.ofList ss)) draft'
  | elseif {nesting : Nesting} {draft draft₁ draft' : Draft} {mark : Item} {parameters : String}
      {test : Expr} {body rest : List Item} {ss : List Statement} {s : Statement} :
      mark.divider? = some (.elseif parameters) →
      p.singleExpr mark.row parameters "#elseif" = .ok test →
      Derives p nesting draft body (.statements ss) draft₁ →
      Derives p nesting draft₁ rest (.alternative s) draft' →
      Derives p nesting draft (mark :: body ++ rest)
        (.alternative (.condition test (.ofList ss) s)) draft'
  | loop {nesting : Nesting} {draft draft' : Draft} {parameters : Option String} {row : Nat}
      {head : LoopHead} {body : List Item} {ss : List Statement} {close : Item} :
      parseLoopHead p.file row (parameters.getD "") = .ok head →
      Derives p .loop draft body (.statements ss) draft' → close.divider? = some .end →
      Derives p nesting draft (.tag (.directive "for" parameters) row :: body ++ [close])
        (.statement (.loop head (.ofList ss) .nothing)) draft'
  | loopElse {nesting : Nesting} {draft draft₁ draft' : Draft} {parameters : Option String}
      {row : Nat} {head : LoopHead} {body alternative : List Item} {ss ss' : List Statement}
      {mark close : Item} :
      parseLoopHead p.file row (parameters.getD "") = .ok head →
      Derives p .loop draft body (.statements ss) draft₁ → mark.divider? = some .else →
      Derives p nesting.inside draft₁ alternative (.statements ss') draft' →
      close.divider? = some .end →
      Derives p nesting draft
        (.tag (.directive "for" parameters) row :: body ++ (mark :: alternative ++ [close]))
        (.statement (.loop head (.ofList ss) (.ofList ss'))) draft'
  | switch {nesting : Nesting} {draft draft' : Draft} {parameters : Option String} {row : Nat}
      {subject : Expr} {blanks rest : List Item} {cases : List Case}
      {fallback : Option Statement} :
      p.singleExpr row (parameters.getD "") "#switch" = .ok subject →
      (∀ item ∈ blanks, item.IsBlank) →
      Derives p nesting.inside draft rest (.sections cases fallback) draft' →
      Derives p nesting draft (.tag (.directive "switch" parameters) row :: blanks ++ rest)
        (.statement (.switch subject cases (fallback.getD .nothing))) draft'
  | noSection {nesting : Nesting} {draft : Draft} {close : Item} : close.divider? = some .end →
      Derives p nesting draft [close] (.sections [] none) draft
  | case {nesting : Nesting} {draft draft₁ draft' : Draft} {mark : Item} {parameters : String}
      {values : List Expr} {body rest : List Item} {ss : List Statement} {cases : List Case}
      {fallback : Option Statement} :
      mark.divider? = some (.case parameters) → p.exprs mark.row parameters = .ok values →
      values ≠ [] → Derives p nesting draft body (.statements ss) draft₁ →
      Derives p nesting draft₁ rest (.sections cases fallback) draft' →
      Derives p nesting draft (mark :: body ++ rest)
        (.sections (.mk values (.ofList ss) :: cases) fallback) draft'
  | default {nesting : Nesting} {draft draft₁ draft' : Draft} {mark : Item} {body rest : List Item}
      {ss : List Statement} {cases : List Case} :
      mark.divider? = some .default → Derives p nesting draft body (.statements ss) draft₁ →
      Derives p nesting draft₁ rest (.sections cases none) draft' →
      Derives p nesting draft (mark :: body ++ rest) (.sections cases (some (.ofList ss))) draft'
  | define {draft draft' : Draft} {name parameters : String} {row : Nat} {names : List String}
      {body : List Item} {ss : List Statement} {close : Item} :
      draft.functions.contains name = false →
      parseParameters p.file row parameters = .ok names →
      Derives p .inner draft body (.statements ss) draft' → close.divider? = some .end →
      Derives p .top draft (.tag (.define name parameters) row :: body ++ [close])
        (.statement (.definition name))
        { draft' with functions :=
            draft'.functions.insert name ⟨name, names, .ofList ss, ⟨p.file, row⟩⟩ }
  | custom {nesting : Nesting} {draft draft' : Draft} {id : String} {parameters : Option String}
      {row : Nat} {directive : Directive} {args : List Expr} {body : List Item}
      {ss : List Statement} {close : Item} :
      Foreign id parameters → p.config.directives.get? id = some directive →
      directive.hasBody = true → p.exprs row (parameters.getD "") = .ok args →
      Derives p nesting.inside draft body (.statements ss) draft' → close.divider? = some .end →
      Derives p nesting draft (.tag (.directive id parameters) row :: body ++ [close])
        (.statement (.custom directive args (.ofList ss) ⟨p.file, row⟩)) draft'

namespace Derives

variable {p : Parsing} {nesting : Nesting} {draft draft₁ draft' : Draft}

/-- A construct alone is a list of statements. -/
theorem single {items : List Item} {s : Statement}
    (h : p.Derives nesting draft items (.statement s) draft') :
    p.Derives nesting draft items (.statements [s]) draft' := by
  have hlist := h.next .nil
  rwa [List.append_nil] at hlist

/-- Statements behind statements are statements. -/
theorem append {front items : List Item} {ss ss' : List Statement}
    (h : p.Derives nesting draft front (.statements ss) draft₁)
    (h' : p.Derives nesting draft₁ items (.statements ss') draft') :
    p.Derives nesting draft (front ++ items) (.statements (ss ++ ss')) draft' := by
  -- the induction is on a derivation of any part, of which only statements are of interest
  generalize hpart : Part.statements ss = part at h
  induction h generalizing ss with
  | nil =>
    obtain rfl := Part.statements.inj hpart
    exact h'
  | text chars row _ ih =>
    obtain rfl := Part.statements.inj hpart
    rw [List.append_assoc]
    exact .text chars row (ih h' rfl)
  | next hfront _ _ ih =>
    obtain rfl := Part.statements.inj hpart
    rw [List.append_assoc]
    exact .next hfront (ih h' rfl)
  | _ => cases hpart

end Derives

end Parsing

end Stencil
