import Stencil.Proofs.Template.Blocks
import Stencil.Proofs.Template.Locality

/-!
# Breaks and continues stand in loops

The parser asks of every `#break` and `#continue` whether a loop body is open in its file and
function. So in a compiled template each of them stands in the body of a loop of the same file and
function: the body of a function, of an included file and of a rendered file starts outside of all
loops, and the `#else` of a loop is as much in a loop as the loop is.

This is read off the derivations of the grammar, where the nesting keeps account of open loop
bodies.

Main definitions: `Statement.Contained`, `Compiled.Contained`.
Main statements: `Parsing.Derives.contained`, `compile_contained`.
-/

namespace Stencil

/-- The breaks and continues of a statement stand in bodies of loops, of which the statement itself
may stand in one. -/
inductive Statement.Contained : Bool → Statement → Prop where
  | nothing {inLoop : Bool} : Statement.Contained inLoop .nothing
  | text {inLoop : Bool} (content : String) : Statement.Contained inLoop (.text content)
  | output {inLoop : Bool} (value : Expr) : Statement.Contained inLoop (.output value)
  | condition {inLoop : Bool} (test : Expr) {yes no : Statement} :
      Statement.Contained inLoop yes → Statement.Contained inLoop no →
      Statement.Contained inLoop (.condition test yes no)
  | loop {inLoop : Bool} (head : LoopHead) {body otherwise : Statement} :
      Statement.Contained true body → Statement.Contained inLoop otherwise →
      Statement.Contained inLoop (.loop head body otherwise)
  | switch {inLoop : Bool} (subject : Expr) {cases : List Case} {otherwise : Statement} :
      (∀ values body, .mk values body ∈ cases → Statement.Contained inLoop body) →
      Statement.Contained inLoop otherwise →
      Statement.Contained inLoop (.switch subject cases otherwise)
  | definition {inLoop : Bool} (name : String) : Statement.Contained inLoop (.definition name)
  | call {inLoop : Bool} (callee : Callee) (args : List Expr) (ifDefined : Bool)
      (location : Location) : Statement.Contained inLoop (.call callee args ifDefined location)
  | inlined {inLoop : Bool} (assignments : List Expr) {body : Statement} :
      Statement.Contained false body → Statement.Contained inLoop (.inlined assignments body)
  | render {inLoop : Bool} (file : String) (assignments : List Expr) (site : Nat)
      (location : Location) : Statement.Contained inLoop (.render file assignments site location)
  | assign {inLoop : Bool} (policy : Policy) (assignments : List Expr) :
      Statement.Contained inLoop (.assign policy assignments)
  | finish {inLoop : Bool} : Statement.Contained inLoop (.jump .return)
  | jump (kind : Jump) : Statement.Contained true (.jump kind)
  | custom {inLoop : Bool} (directive : Directive) (args : List Expr) {body : Statement}
      (location : Location) : Statement.Contained inLoop body →
      Statement.Contained inLoop (.custom directive args body location)
  | block {inLoop : Bool} {statements : List Statement} :
      (∀ s ∈ statements, Statement.Contained inLoop s) →
      Statement.Contained inLoop (.block statements)

/-- A list of statements has its breaks in loops if each of them has. -/
theorem Statement.Contained.ofList {inLoop : Bool} {statements : List Statement}
    (h : ∀ s ∈ statements, s.Contained inLoop) : (Statement.ofList statements).Contained inLoop :=
  match statements with
  | [] => .nothing
  | [s] => h s (List.mem_singleton_self s)
  | _ :: _ :: _ => .block h

/-- No body of a function has a break or a continue outside of its loops. -/
def ContainedBodies (functions : Assoc TemplateFunction) : Prop :=
  ∀ e ∈ functions.entries, e.2.body.Contained false

/-- No body of a template has a break or a continue outside of its loops. -/
structure Compiled.Contained (unit : Compiled) : Prop where
  body : unit.body.Contained false
  functions : ContainedBodies unit.functions

/-- Whether a nesting is in a loop body. -/
def Nesting.inLoop : Nesting → Bool
  | .top | .inner => false
  | .loop => true

/-- A block that is no loop does not change whether breaks may stand in it. -/
@[simp] theorem Nesting.inLoop_inside (nesting : Nesting) :
    nesting.inside.inLoop = nesting.inLoop := by
  cases nesting <;> rfl

/-- The breaks and continues of what items make up stand in loop bodies, of which the items may
stand in one. -/
def Parsing.Part.Contained (inLoop : Bool) : Parsing.Part → Prop
  | .statements ss => ∀ s ∈ ss, s.Contained inLoop
  | .statement s | .alternative s => s.Contained inLoop
  | .sections cases fallback =>
    (∀ values body, .mk values body ∈ cases → body.Contained inLoop) ∧
      ∀ s ∈ fallback, s.Contained inLoop

namespace Parsing

variable {p : Parsing}

/-- Included files have no breaks and continues outside of their loops, nor have the functions they
add. -/
def Contains (p : Parsing) : Prop :=
  ∀ {source draft r}, p.nested source draft = .ok r →
    r.1.Contained false ∧ (ContainedBodies draft.functions → ContainedBodies r.2.functions)

/-- Literals hold no breaks. -/
theorem literals_contained {inLoop : Bool} (chars : List Char) :
    ∀ s ∈ p.literals chars, s.Contained inLoop := by
  rcases p.literals_eq chars with h | ⟨content, h⟩
  · rw [h]
    exact List.forall_mem_nil _
  · rw [h]
    exact List.forall_mem_singleton.mpr (.text content)

/-- Calls hold no breaks. -/
theorem callOf_contained {inLoop ifDefined : Bool} {row : Nat} {args : List Expr} {s : Statement}
    (h : p.callOf row ifDefined args = .ok s) : s.Contained inLoop := by
  unfold callOf at h
  split at h
  · cases h
  · rw [← Except.ok.inj h]
    exact .call ..
  · rw [← Except.ok.inj h]
    exact .call ..

/-- A tag that is a statement by itself is a break only in a loop, and includes contained bodies. -/
theorem Simple.contained (hp : p.Contains) {nesting : Nesting} {draft draft' : Draft} {tag : Tag}
    {row : Nat} {s : Statement} (h : p.Simple nesting draft row tag s draft') :
    s.Contained nesting.inLoop ∧
      (ContainedBodies draft.functions → ContainedBodies draft'.functions) := by
  cases h with
  | output => exact ⟨.output _, id⟩
  | assign => exact ⟨.assign .., id⟩
  -- the only case with statements inside: the body of the included file, which is read on its own
  | inlined hinclude =>
    obtain ⟨_, _, _, body, _, _, _, hnested, rfl⟩ := includeFile_eq_ok_iff.mp hinclude
    obtain ⟨hbody, hfunctions⟩ := hp hnested
    exact ⟨.inlined _ hbody, hfunctions⟩
  | render => exact ⟨.render .., id⟩
  | call _ hs | callIfDefined _ hs => exact ⟨callOf_contained hs, id⟩
  | callByName => exact ⟨.call .., id⟩
  -- the nesting that the tag goes well in is one in a loop
  | leave hnesting | resume hnesting =>
    subst hnesting
    exact ⟨.jump _, id⟩
  | finish => exact ⟨.finish, id⟩
  | custom => exact ⟨.custom _ _ _ .nothing, id⟩

/-- What the grammar derives has its breaks and continues in loop bodies. -/
theorem Derives.contained (hp : p.Contains) {nesting : Nesting} {draft draft' : Draft}
    {items : List Item} {part : Part} (h : p.Derives nesting draft items part draft') :
    part.Contained nesting.inLoop ∧
      (ContainedBodies draft.functions → ContainedBodies draft'.functions) := by
  induction h with
  | nil => exact ⟨List.forall_mem_nil _, id⟩
  | text chars row _ ih =>
    obtain ⟨hss, hfunctions⟩ := ih
    exact ⟨List.forall_mem_append.mpr ⟨literals_contained chars, hss⟩, hfunctions⟩
  | next _ _ ihfront ih =>
    obtain ⟨hs, hfunctions₁⟩ := ihfront
    obtain ⟨hss, hfunctions⟩ := ih
    exact ⟨List.forall_mem_cons.mpr ⟨hs, hss⟩, fun h => hfunctions (hfunctions₁ h)⟩
  | simple h => exact h.contained hp
  -- the test holds no statements, and what is inside of a branch is in the same loops
  | condition _ _ _ ihbody ihrest =>
    rw [Nesting.inLoop_inside] at ihbody ihrest
    obtain ⟨hbody, hfunctions₁⟩ := ihbody
    obtain ⟨hrest, hfunctions⟩ := ihrest
    exact ⟨.condition _ (.ofList hbody) hrest, fun h => hfunctions (hfunctions₁ h)⟩
  | noAlternative => exact ⟨.nothing, id⟩
  | otherwise _ _ _ ih =>
    obtain ⟨hbody, hfunctions⟩ := ih
    exact ⟨.ofList hbody, hfunctions⟩
  | elseif _ _ _ _ ihbody ihrest =>
    obtain ⟨hbody, hfunctions₁⟩ := ihbody
    obtain ⟨hrest, hfunctions⟩ := ihrest
    exact ⟨.condition _ (.ofList hbody) hrest, fun h => hfunctions (hfunctions₁ h)⟩
  -- the body of a loop is in a loop, whatever the loop is in
  | loop _ _ _ ih =>
    obtain ⟨hbody, hfunctions⟩ := ih
    exact ⟨.loop _ (.ofList hbody) .nothing, hfunctions⟩
  -- the part without entries is not in the loop
  | loopElse _ _ _ _ _ ihbody ihrest =>
    rw [Nesting.inLoop_inside] at ihrest
    obtain ⟨hbody, hfunctions₁⟩ := ihbody
    obtain ⟨hrest, hfunctions⟩ := ihrest
    exact ⟨.loop _ (.ofList hbody) (.ofList hrest), fun h => hfunctions (hfunctions₁ h)⟩
  | @switch _ _ _ _ _ _ _ _ _ fallback _ _ _ ih =>
    rw [Nesting.inLoop_inside] at ih
    obtain ⟨⟨hcases, hfallback⟩, hfunctions⟩ := ih
    refine ⟨.switch _ hcases ?_, hfunctions⟩
    cases fallback with
    | none => exact .nothing
    | some s => exact hfallback s rfl
  | noSection => exact ⟨⟨fun _ _ h => absurd h List.not_mem_nil, nofun⟩, id⟩
  -- the sections of a switch are collected one by one
  | case _ _ _ _ _ ihbody ihrest =>
    obtain ⟨hbody, hfunctions₁⟩ := ihbody
    obtain ⟨⟨hcases, hfallback⟩, hfunctions⟩ := ihrest
    refine ⟨⟨fun values body hmem => ?_, hfallback⟩, fun h => hfunctions (hfunctions₁ h)⟩
    rcases List.mem_cons.mp hmem with heq | hmem
    · obtain ⟨rfl, rfl⟩ := Case.mk.inj heq
      exact .ofList hbody
    · exact hcases values body hmem
  | default _ _ _ ihbody ihrest =>
    obtain ⟨hbody, hfunctions₁⟩ := ihbody
    obtain ⟨⟨hcases, _⟩, hfunctions⟩ := ihrest
    refine ⟨⟨hcases, fun s hs => ?_⟩, fun h => hfunctions (hfunctions₁ h)⟩
    obtain rfl := Option.some.inj hs
    exact .ofList hbody
  -- a function is contained if its body is, and the other functions are those of before
  | define _ _ _ _ ih =>
    obtain ⟨hbody, hfunctions⟩ := ih
    refine ⟨.definition _, fun h e he => ?_⟩
    rcases Assoc.mem_write he with rfl | hold
    · exact .ofList hbody
    · exact hfunctions h e hold
  | custom _ _ _ _ _ _ ih =>
    rw [Nesting.inLoop_inside] at ih
    obtain ⟨hbody, hfunctions⟩ := ih
    exact ⟨.custom _ _ _ (.ofList hbody), hfunctions⟩

end Parsing

/-- A file that can be parsed has its breaks and continues in loop bodies, and so have the files it
includes. -/
theorem parseFile_contained {config : Config} {files : Files} {depth : Nat} {opened : List String}
    {source : Source} {draft : Draft} {r : Statement × Draft}
    (h : parseFile config files depth opened source draft = .ok r) :
    r.1.Contained false ∧ (ContainedBodies draft.functions → ContainedBodies r.2.functions) := by
  -- By induction on the depth: included files are parsed with less.
  induction depth generalizing opened source draft r with
  | zero => cases h
  | succ depth ih =>
    obtain ⟨content, items, _, _, hparse⟩ := parseFile_eq_ok h
    obtain ⟨ss, hderives, hr⟩ := Parsing.derives_of_parseItems hparse
    obtain ⟨hss, hfunctions⟩ := hderives.contained fun hnested => ih hnested
    rw [hr]
    exact ⟨.ofList hss, hfunctions⟩

/-- **Compiled templates are contained.** -/
theorem compile_contained {config : Config} {files : Files} {source : Source} {first next : Nat}
    {unit : Compiled} (h : compile config files source first = .ok (unit, next)) :
    unit.Contained := by
  obtain ⟨⟨body, draft⟩, hparse, h⟩ := bind_eq_ok_iff.mp h
  obtain ⟨hbody, hfunctions⟩ := parseFile_contained hparse
  cases h
  exact ⟨hbody, hfunctions (List.forall_mem_nil _)⟩

end Stencil
