import Stencil.Proofs.Expr.Evaluation

/-!
# Two runs of a program

Two runs of one program may start from frames that are not the same, and still do the same: where
every name that is looked up has the same value in both, only their frames are told apart. Which
frames of the two runs correspond is a `Matching`. A frame of the first run **sees** what a frame
of the second one sees, if both lead to the same bindings; and it **owns** what the other one owns,
if what is bound in the one itself is bound in the other one itself. All frames that the runs open
from now on are of the second kind, and only assignments to a frame itself need it.

The runs are put together from the same few kinds of steps: steps that reach no frame
(`Eval.HeapOnly`, `Render.Quiet`), reads and assignments, frames, and the brackets that install
control state or another output for a time. So a relation of two actions that these steps have, and
that is kept when actions are put together, is one of every expression and of every statement in
corresponding frames. The first run comes with its record, which says what is read in it.

Main definitions: `Statement.Reads`, `Statement.isPlain`, `Statement.opensFrame`,
`Matching`, `EvalsCorrespond`, `RunsCorrespond`.
Main statements: `EvalsCorrespond.eval`, `RunsCorrespond.exec`.
-/

namespace Stencil

/-! ### What is read -/

/-- The names of the variables that the head of a loop reads. -/
def LoopHead.reads : LoopHead → List String
  | .each _ collection => collection.reads
  | .counting start test update =>
    Expr.readsAll start ++ (Expr.readsAll test.toList ++ Expr.readsAll update)

/-- The names of the variables that are read to find the function of a call. -/
def Callee.reads : Callee → List String
  | .named _ => []
  | .computed e => e.reads

/-- A script looks a name up, if it is told the right results on the way. -/
def Script.LooksUp (name : String) : Script → Prop
  | .stop _ => False
  | .writeText _ next | .writeValue _ next | .renderBody next => ∃ r, (next r).LooksUp name
  | .renderToText next => ∃ r, (next r).LooksUp name
  | .lookup other next => other = name ∨ ∃ v, (next v).LooksUp name
  | .bind _ _ next => next.LooksUp name
  | .inspect next => ∃ h, (next h).LooksUp name
  | .update _ next => next.LooksUp name

/-- The names of the variables that stand in a statement itself to be read; what stands in the
statements in it is up to them. Every loop reads the name `for`, since its status refers to that of
the loop around it. -/
def Statement.reads : Statement → List String
  | .output value => value.reads
  | .condition test _ _ => test.reads
  | .loop head _ _ => "for" :: head.reads
  | .switch subject cases _ =>
    subject.reads ++ cases.flatMap fun | .mk values _ => Expr.readsAll values
  | .call callee args _ _ => callee.reads ++ Expr.readsAll args
  | .inlined assignments _ | .render _ assignments _ _ | .assign _ assignments =>
    Expr.readsAll assignments
  | .custom _ args _ _ => Expr.readsAll args
  | .nothing | .text _ | .definition _ | .jump _ | .block _ => []

/-- A statement is a custom directive that looks a name up, if it is given the right values. -/
def Statement.LooksUp (name : String) : Statement → Prop
  | .custom directive _ _ location => ∃ values, (directive.run location values).LooksUp name
  | _ => False

/-- A statement itself reads a name. -/
def Statement.Reads (name : String) (s : Statement) : Prop := name ∈ s.reads ∨ s.LooksUp name

mutual

/-- No assignment to the frame at hand, no custom directive and no `#return` stands in a statement,
other than in the files it includes. -/
def Statement.isPlain : Statement → Bool
  | .condition _ yes no => yes.isPlain && no.isPlain
  | .loop _ body otherwise => body.isPlain && otherwise.isPlain
  | .switch _ cases otherwise => casesPlain cases && otherwise.isPlain
  | .assign policy _ => policy ≠ .inner
  | .jump kind => kind ≠ .return
  | .custom .. => false
  | .block statements => allPlain statements
  | .nothing | .text _ | .output _ | .definition _ | .call .. | .inlined .. | .render .. => true

/-- The same for the body of a case. -/
def Case.isPlain : Case → Bool
  | .mk _ body => body.isPlain

/-- The same for statements in a row. -/
def allPlain : List Statement → Bool
  | [] => true
  | s :: rest => s.isPlain && allPlain rest

/-- The same for cases. -/
def casesPlain : List Case → Bool
  | [] => true
  | c :: rest => c.isPlain && casesPlain rest

end

/-- A statement runs what stands in it in a frame of its own. -/
def Statement.opensFrame : Statement → Bool
  | .loop .. | .call .. | .inlined .. | .render .. => true
  | .nothing | .text _ | .output _ | .condition .. | .switch .. | .definition _ | .assign ..
  | .jump _ | .custom .. | .block _ => false

namespace Statement

variable {yes no body otherwise : Statement}

theorem isPlain_condition {test : Expr} :
    (condition test yes no).isPlain ↔ yes.isPlain ∧ no.isPlain := by
  rw [isPlain, Bool.and_eq_true_iff]

/-- A loop is plain if its body and the branch for no turns are. -/
theorem isPlain_loop {head : LoopHead} :
    (loop head body otherwise).isPlain ↔ body.isPlain ∧ otherwise.isPlain := by
  rw [isPlain, Bool.and_eq_true_iff]

/-- A switch is plain if all its bodies are. -/
theorem isPlain_switch {subject : Expr} {cases : List Case} :
    (switch subject cases otherwise).isPlain ↔
      (∀ values body, .mk values body ∈ cases → body.isPlain) ∧ otherwise.isPlain := by
  have hcases : casesPlain cases = cases.all (·.isPlain) := by
    induction cases with
    | nil => rfl
    | cons c rest ih => rw [casesPlain, ih, List.all_cons]
  rw [isPlain, Bool.and_eq_true_iff, hcases, List.all_eq_true]
  refine and_congr_left fun _ => ⟨fun h values body hmem => h _ hmem, fun h c hmem => ?_⟩
  obtain ⟨values, body⟩ := c
  exact h values body hmem

/-- A block is plain if its statements are. -/
theorem isPlain_block {statements : List Statement} :
    (block statements).isPlain ↔ ∀ s ∈ statements, s.isPlain := by
  have hall : allPlain statements = statements.all (·.isPlain) := by
    induction statements with
    | nil => rfl
    | cons s rest ih => rw [allPlain, ih, List.all_cons]
  rw [isPlain, hall, List.all_eq_true]

/-- An assignment is plain if it does not go to the frame it is in. -/
theorem isPlain_assign {policy : Policy} {assignments : List Expr} :
    (assign policy assignments).isPlain ↔ policy ≠ .inner := by
  rw [isPlain, decide_eq_true_iff]

theorem isPlain_jump {kind : Jump} : (jump kind).isPlain ↔ kind ≠ .return := by
  rw [isPlain, decide_eq_true_iff]

end Statement

/-! ### Steps that reach no frame -/

/-- An evaluation that reads and changes nothing but the heap. -/
inductive Eval.HeapOnly : {α : Type} → Eval α → Prop where
  | pure {α : Type} (a : α) : Eval.HeapOnly (pure a)
  | throw {α : Type} (error : Error) : Eval.HeapOnly (throw error : Eval α)
  | heap : Eval.HeapOnly Eval.heap
  | onHeap {α : Type} (f : Heap → α × Heap) : Eval.HeapOnly (Eval.onHeap f)
  | bind {α β : Type} {x : Eval α} {f : α → Eval β} : Eval.HeapOnly x →
      (∀ a, Eval.HeapOnly (f a)) → Eval.HeapOnly (x >>= f)

namespace Eval.HeapOnly

/-- A result that may be a fault needs the heap at most. -/
theorem ofExcept {α : Type} (location : Location) (result : Except Fault α) :
    HeapOnly (Eval.ofExcept location result) := by
  cases result with
  | ok a => exact .pure a
  | error fault => exact .throw _

/-- So does an operation of the host. -/
theorem runOperation (operation : Operation) (args : List Value) (callee : String)
    (location : Location) : HeapOnly (Eval.runOperation operation args callee location) := by
  refine .bind (.onHeap _) fun result => ?_
  split
  · exact .pure _
  · exact .throw _

/-- So does a method. -/
theorem callMethod (host : Host) (target : Value) (name : String) (args : List Value)
    (location : Location) : HeapOnly (host.callMethod target name args location) := by
  refine .bind (.onHeap _) fun result => ?_
  split
  · exact .pure _
  · exact .throw _
  · exact .throw _

end Eval.HeapOnly

/-- An action that reaches neither frames nor control state. -/
inductive Render.Quiet (config : Config) : {α : Type} → Render α → Prop where
  | pure {α : Type} (a : α) : Render.Quiet config (pure a)
  | throw {α : Type} (stop : Stop) : Render.Quiet config (throw stop : Render α)
  | heap : Render.Quiet config Render.heap
  | onHeap {α : Type} (f : Heap → α × Heap) : Render.Quiet config (Render.ofEval (Eval.onHeap f))
  | updateHeap (change : Heap → Heap) :
      Render.Quiet config (Render.onMemory fun m => { m with heap := change m.heap })
  | jump : Render.Quiet config Render.jump
  | write (text : String) : Render.Quiet config (Render.write text)
  | writeValue (v : Value) : Render.Quiet config (Render.writeValue v)
  | flush : Render.Quiet config Render.flush
  | attempt {α : Type} {act : Render α} : Render.Quiet config act →
      Render.Quiet config (Render.attempt act)
  | findFunction (functions : Assoc TemplateFunction) (name : String) :
      Render.Quiet config (config.findFunction functions name)
  | rendered (site : Nat) (file : String) (location : Location) :
      Render.Quiet config (config.rendered site file location)
  | bind {α β : Type} {x : Render α} {f : α → Render β} : Render.Quiet config x →
      (∀ a, Render.Quiet config (f a)) → Render.Quiet config (x >>= f)

namespace Render.Quiet

variable {config : Config}

/-- A result that may be an error is quiet. -/
theorem ofExcept {α : Type} (result : Except Error α) : Quiet config (Render.ofExcept result) := by
  cases result with
  | ok a => exact .pure a
  | error error => exact .throw _

end Render.Quiet

/-! ### Evaluations -/

/-- Which frames of two runs correspond, and the names that their bindings agree on. -/
structure Matching where
  /-- The two frames see the same. -/
  sees : ScopeId → ScopeId → Prop
  /-- The two frames have the same bindings of their own. -/
  owns : ScopeId → ScopeId → Prop
  names : String → Prop
  sees_of_owns : ∀ {i i'}, owns i i' → sees i i'

section Evals

variable (host : Host) (M : Matching) (i i' : ScopeId)

/-- A relation of the evaluations in two corresponding frames, and of the twins of those in the
first one, that composes. -/
structure EvalsCorrespond (R : {α : Type} → Recorded Memory Error α → Eval α → Prop) : Prop where
  silent : ∀ {α : Type} {act : Eval α}, act.HeapOnly → R (.silent act) act
  /-- The memory may be read for anything but its frames. -/
  memory : ∀ {α : Type} {f : Memory → Recorded Memory Error α} {g : Memory → Eval α},
    (∀ m, R (f m) (g m)) → (∀ m scopes, g { m with scopes } = g m) →
    R (.silent get >>= f) (get >>= g)
  bind : ∀ {α β : Type} {x : Recorded Memory Error α} {y : Eval α}
    {f : α → Recorded Memory Error β} {g : α → Eval β},
    R x y → (∀ a, R (f a) (g a)) → R (x >>= f) (y >>= g)
  lookup : ∀ {name}, M.names name → R (.lookup host i name) (Eval.lookup host i' name)
  assign : ∀ name value, R (.assign i name value) (Eval.assign i' name value)
  withNullSafe : ∀ {α : Type} {x : Recorded Memory Error α} {y : Eval α},
    R x y → R x.withNullSafe (Eval.withNullSafe y)
  withPolicy : ∀ {α : Type} {policy : Policy} {x : Recorded Memory Error α} {y : Eval α},
    (policy = .inner → M.owns i i') → R x y → R (x.withPolicy policy) (Eval.withPolicy policy y)
  noting : ∀ {e : Expr} {x : Recorded Memory Error Value},
    R x (e.eval host i') → R (.noting (.evaluated i e) x) (e.eval host i')

end Evals

namespace EvalsCorrespond

variable {host : Host} {M : Matching} {i i' : ScopeId}
  {R : {α : Type} → Recorded Memory Error α → Eval α → Prop}

theorem pure (C : EvalsCorrespond host M i i' R) {α : Type} (a : α) : R (pure a) (pure a) :=
  C.silent (.pure a)

/-- The rules of evaluations: nothing is asked of values and of locations. -/
theorem logic (C : EvalsCorrespond host M i i' R) :
    EvalLogic host i i' { names := M.names } (fun _ _ => True) fun _ _ x y => R x y where
  mono _ _ := ⟨⟩
  const _ := ⟨⟩
  computed _ := ⟨⟩
  pure a _ := C.pure a
  bind {_ _ n} _ _ _ _ _ _ hx hf := C.bind hx fun a => hf a n (Nat.le_refl n) fun _ _ => ⟨⟩
  raise fault _ := C.silent (.throw _)
  heap := C.silent .heap
  lookup := C.lookup
  assign name _ := C.assign name _
  withNullSafe := C.withNullSafe
  noting := C.noting
  -- The memory is read for the heap and the flag; the frames in it do not matter.
  readIndex _ _ _ := C.memory (fun _ => C.silent (.ofExcept _ _)) fun _ _ => rfl
  readField _ _ _ := C.memory (fun _ => C.silent (.ofExcept _ _)) fun _ _ => rfl
  methodOfNull _ _ := by
    refine C.memory (fun m => ?_) fun _ _ => rfl
    split
    · exact C.pure _
    · exact C.silent (.throw _)
  writeIndex _ _ _ _ := C.silent (.onHeap _)
  newMap _ _ := C.silent (.onHeap _)
  newList _ := C.silent (.onHeap _)
  member _ := C.pure _
  operation _ _ _ _ := C.silent (.runOperation _ _ _ _)
  callMethod _ _ _ _ := C.silent (.callMethod _ _ _ _ _)

/-- An expression evaluates alike in corresponding frames, if these agree on what it reads. -/
theorem eval (C : EvalsCorrespond host M i i' R) (e : Expr) (h : ∀ name ∈ e.reads, M.names name) :
    R (.eval host i e) (e.eval host i') :=
  C.logic.eval e ⟨fun _ _ => ⟨⟩, h, fun _ _ => ⟨⟩⟩ 0

/-- Expressions evaluate alike in corresponding frames, if these agree on what they read. -/
theorem evalAll (C : EvalsCorrespond host M i i' R) (es : List Expr)
    (h : ∀ name ∈ Expr.readsAll es, M.names name) :
    R (.evalAll host i es) (Expr.evalAll host i' es) :=
  C.logic.evalAll es (fun e he => ⟨fun _ _ => ⟨⟩,
    fun name hname => h name (Expr.mem_readsAll.mpr ⟨e, he, hname⟩), fun _ _ => ⟨⟩⟩) 0

end EvalsCorrespond

/-! ### The parts of statements -/

/-- Recorded actions in a row may be put together in any order. -/
theorem Recorded.bind_assoc {σ ε α β γ : Type} (x : Recorded σ ε α) (f : α → Recorded σ ε β)
    (g : β → Recorded σ ε γ) : x >>= f >>= g = x >>= fun a => f a >>= g := by
  funext s
  rcases hx : x s with ⟨⟨_ | a, after⟩, record⟩
  · simp only [Bind.bind, hx]
  · rcases hf : f a after with ⟨⟨_ | b, last⟩, more⟩
    · simp only [Bind.bind, hx, hf]
    · simp only [Bind.bind, hx, hf, List.append_assoc]

/-- A relation of the parts of statements, with the twins of those in the first run, that composes.
An action starts with an innermost frame `top`, and may name a frame `outer` around it too; `E` is
the part of the relation for evaluations. -/
structure PartsCorrespond (config : Config) (M : Matching) (outer outer' top top' : ScopeId)
    (E : ScopeId → ScopeId → {α : Type} → Recorded Memory Error α → Eval α → Prop)
    (R : {α : Type} → Recorded RenderState Stop α → Render α → Prop) : Prop where
  evalsOuter : EvalsCorrespond config.host M outer outer' (E outer outer')
  evalsTop : EvalsCorrespond config.host M top top' (E top top')
  silent : ∀ {α : Type} {act : Render α}, Render.Quiet config act → R (.silent act) act
  bind : ∀ {α β : Type} {x : Recorded RenderState Stop α} {y : Render α}
    {f : α → Recorded RenderState Stop β} {g : α → Render β},
    R x y → (∀ a, R (f a) (g a)) → R (x >>= f) (y >>= g)
  evalOuter : ∀ {α : Type} {x : Recorded Memory Error α} {y : Eval α},
    E outer outer' x y → R (.ofEval x) (Render.ofEval y)
  evalTop : ∀ {α : Type} {x : Recorded Memory Error α} {y : Eval α},
    E top top' x y → R (.ofEval x) (Render.ofEval y)
  bindName : M.owns top top' → ∀ (name : String) (value : Value),
    R (.bindName top name value) (Render.bind top' name value)

namespace PartsCorrespond

variable {config : Config} {M : Matching} {outer outer' top top' : ScopeId}
  {E : ScopeId → ScopeId → {α : Type} → Recorded Memory Error α → Eval α → Prop}
  {R : {α : Type} → Recorded RenderState Stop α → Render α → Prop}

variable (C : PartsCorrespond config M outer outer' top top' E R)

include C

theorem pure {α : Type} (a : α) : R (pure a) (pure a) := C.silent (.pure a)

/-- An expression corresponds if the frames agree on the names it reads. -/
theorem eval (e : Expr) (h : ∀ name ∈ e.reads, M.names name) :
    R (.ofEval (.eval config.host top e)) (config.eval top' e) :=
  C.evalTop (C.evalsTop.eval e h)

/-- So do expressions in a row. -/
theorem evalAll (es : List Expr) (h : ∀ name ∈ Expr.readsAll es, M.names name) :
    R (.ofEval (.evalAll config.host top es)) (config.evalAll top' es) :=
  C.evalTop (C.evalsTop.evalAll es h)

/-- So does a variable. -/
theorem lookup {name : String} (h : M.names name) :
    R (.ofEval (.lookup config.host top name))
      (Render.ofEval (Eval.lookup config.host top' name)) :=
  C.evalTop (C.evalsTop.lookup h)

theorem holds (e : Expr) (h : ∀ name ∈ e.reads, M.names name) :
    R (.holds config top e) (config.holds top' e) :=
  C.bind (C.eval e h) fun _ => C.bind (C.silent .heap) fun _ => C.pure _

/-- So do assignments, which go to corresponding frames if they go to the frame itself. -/
theorem assigns (policy : Policy) (es : List Expr) (howns : policy = .inner → M.owns top top')
    (h : ∀ name ∈ Expr.readsAll es, M.names name) :
    R (.assigns config top policy es) (config.assign policy top' es) :=
  C.bind (C.evalTop (C.evalsTop.withPolicy howns (C.evalsTop.evalAll es h))) fun _ => C.pure _

/-- So does the search for an equal value. -/
theorem anyIs (subject : Value) (es : List Expr) (h : ∀ name ∈ Expr.readsAll es, M.names name) :
    R (.anyIs config top subject es) (config.anyIs top' subject es) := by
  induction es with
  | nil => exact C.pure _
  | cons e rest ih =>
    obtain ⟨he, hrest⟩ := List.forall_mem_append.mp h
    refine C.bind (C.eval e he) fun v => C.bind (C.silent .heap) fun h => ?_
    split
    · exact C.pure _
    · exact ih hrest

/-- What follows a choice among cases has to correspond for the bodies of these cases only. -/
theorem chooseCaseThen (subject : Value) {otherwise : Statement} {cases : List Case} {β : Type}
    {f : Statement → Recorded RenderState Stop β} {g : Statement → Render β}
    (hreads : ∀ values body, .mk values body ∈ cases →
      ∀ name ∈ Expr.readsAll values, M.names name)
    (hcases : ∀ values body, .mk values body ∈ cases → R (f body) (g body))
    (hotherwise : R (f otherwise) (g otherwise)) :
    R (.chooseCase config top subject otherwise cases >>= f)
      (config.chooseCase top' subject otherwise cases >>= g) := by
  induction cases with
  | nil => exact hotherwise
  | cons c rest ih =>
    obtain ⟨values, body⟩ := c
    unfold Recorded.chooseCase Config.chooseCase
    rw [Recorded.bind_assoc, bind_assoc]
    refine C.bind (C.anyIs subject values (hreads values body List.mem_cons_self)) fun hit => ?_
    split
    · exact hcases values body List.mem_cons_self
    · exact ih (fun values' body' hmem => hreads values' body' (List.mem_cons_of_mem _ hmem))
        fun values' body' hmem => hcases values' body' (List.mem_cons_of_mem _ hmem)

/-- The status of the loop around is read by its name. -/
theorem outerStatus (h : M.names "for") :
    R (.outerStatus config top) (config.outerStatus top') := by
  refine C.bind (C.lookup h) fun v => ?_
  cases v <;> exact C.pure _

/-- A counting loop goes on in both frames, or in none. -/
theorem goesOn (test : Option Expr) (howns : M.owns top top')
    (h : ∀ name ∈ Expr.readsAll test.toList, M.names name) :
    R (.goesOn config top test) (config.goesOn top' test) := by
  cases test with
  | none => exact C.pure _
  | some e =>
    have he : ∀ name ∈ e.reads, M.names name := (List.forall_mem_append.mp h).1
    exact C.bind (C.evalTop (C.evalsTop.withPolicy (fun _ => howns) (C.evalsTop.eval e he)))
      fun _ => C.bind (C.silent .heap) fun _ => C.pure _

/-- A callee has the same name in both frames. -/
theorem calleeName (location : Location) (callee : Callee)
    (h : ∀ name ∈ callee.reads, M.names name) :
    R (.calleeName config top location callee) (config.calleeName top' location callee) := by
  cases callee with
  | named name => exact C.pure _
  | computed e =>
    refine C.bind (C.eval e h) fun v => ?_
    cases v with
    | str name => exact C.pure name
    | _ => exact C.silent (.throw _)

/-- It has the same arguments. -/
theorem arguments (function : TemplateFunction) (args : List Expr) (location : Location)
    (h : ∀ name ∈ Expr.readsAll args, M.names name) :
    R (.arguments config top function args location)
      (config.arguments top' function args location) := by
  unfold Recorded.arguments Config.arguments
  split
  · exact C.evalAll args h
  · exact C.silent (.throw _)

/-- Parameters are bound in frames that correspond in what they own. -/
theorem bindAll (howns : M.owns top top') (pairs : List (String × Value)) :
    R (.bindAll top pairs) (Stencil.bindAll top' pairs) := by
  induction pairs with
  | nil => exact C.pure _
  | cons pair rest ih => exact C.bind (C.bindName howns _ _) fun _ => ih

end PartsCorrespond

/-! ### Blocks and loops -/

/-- Statements that correspond make up blocks that correspond. -/
theorem Recorded.runBlock_corresponds
    {R : {α : Type} → Recorded RenderState Stop α → Render α → Prop}
    (hpure : R (pure ()) (pure ()))
    (hbind : ∀ {α β : Type} {x : Recorded RenderState Stop α} {y : Render α}
      {f : α → Recorded RenderState Stop β} {g : α → Render β},
      R x y → (∀ a, R (f a) (g a)) → R (x >>= f) (y >>= g))
    (hjump : R (.silent Render.jump) Render.jump)
    {x : Statement → Recorded RenderState Stop Unit} {y : Statement → Render Unit}
    {statements : List Statement} (h : ∀ s ∈ statements, R (x s) (y s)) :
    R (.runBlock x statements) (Stencil.runBlock y statements) := by
  induction statements with
  | nil => exact hpure
  | cons s rest ih =>
    obtain ⟨hs, hrest⟩ := List.forall_mem_cons.mp h
    refine hbind hs fun _ => hbind hjump fun kind => ?_
    split
    · exact ih hrest
    · exact hpure

/-- A relation of the actions that loops are put together from, with the twins of those in the first
run, that composes: for loops in the frames `top` and `top'`, which were opened in `outer` and
`outer'`. -/
structure LoopsCorrespond (config : Config) (names : String → Prop)
    (outer outer' top top' : ScopeId)
    (R : {α : Type} → Recorded RenderState Stop α → Render α → Prop) : Prop where
  pure : ∀ {α : Type} (a : α), R (pure a) (pure a)
  throw : ∀ {α : Type} (stop : Stop), R (.silent (throw stop)) (throw stop : Render α)
  bind : ∀ {α β : Type} {x : Recorded RenderState Stop α} {y : Render α}
    {f : α → Recorded RenderState Stop β} {g : α → Render β},
    R x y → (∀ a, R (f a) (g a)) → R (x >>= f) (y >>= g)
  heap : R (.silent Render.heap) Render.heap
  onHeap : ∀ {α : Type} (f : Heap → α × Heap),
    R (.silent (Render.ofEval (Eval.onHeap f))) (Render.ofEval (Eval.onHeap f))
  takeLoopJump : R (.silent takeLoopJump) takeLoopJump
  bindName : ∀ (name : String) (value : Value),
    R (.bindName top name value) (Render.bind top' name value)
  /-- The collection of a loop is evaluated in the frame around the loop. -/
  collection : ∀ e, (∀ name ∈ e.reads, names name) →
    R (.ofEval (.eval config.host outer e)) (config.eval outer' e)
  outerStatus : R (.outerStatus config top) (config.outerStatus top')
  goesOn : ∀ test, (∀ name ∈ Expr.readsAll test.toList, names name) →
    R (.goesOn config top test) (config.goesOn top' test)
  assigns : ∀ es, (∀ name ∈ Expr.readsAll es, names name) →
    R (.assigns config top .inner es) (config.assign .inner top' es)

namespace LoopsCorrespond

variable {config : Config} {names : String → Prop} {outer outer' top top' : ScopeId}
  {R : {α : Type} → Recorded RenderState Stop α → Render α → Prop}
  (C : LoopsCorrespond config names outer outer' top top' R)

include C

theorem bindStatus (status : LoopStatus) :
    R (.bindStatus top status) (Stencil.bindStatus top' status) :=
  C.bind (C.onHeap _) fun v => C.bindName "for" v

variable {x : Recorded RenderState Stop Unit} {y : Render Unit}

/-- Turns over a collection correspond if the body does. -/
theorem walkTurns (item : String) (status : Value) (h : R x y) (fuel : Nat) (walk : Walk)
    (index : Nat) :
    R (.walkTurns item top status x fuel walk index)
      (Stencil.walkTurns item top' status y fuel walk index) := by
  -- By induction on the fuel: after a turn, the others are those of less fuel.
  induction fuel generalizing walk index with
  | zero => exact C.throw _
  | succ fuel ih =>
    unfold Recorded.walkTurns Stencil.walkTurns
    refine C.bind (C.onHeap _) fun next => ?_
    split
    · exact C.pure _
    · refine C.bind C.heap fun _ => C.bind (C.bindName item _) fun _ =>
        C.bind (C.bindStatus _) fun _ => C.bind h fun _ =>
          C.bind C.takeLoopJump fun isOver => ?_
      split
      · exact C.pure _
      · exact ih _ _

/-- So do counted turns. -/
theorem countTurns {test : Option Expr} {update : List Expr} (status : Value)
    (htest : ∀ name ∈ Expr.readsAll test.toList, names name)
    (hupdate : ∀ name ∈ Expr.readsAll update, names name) (h : R x y) (fuel index : Nat) :
    R (.countTurns config test update top status x fuel index)
      (config.countTurns test update top' status y fuel index) := by
  -- by induction on the fuel, that is on the turns still possible
  induction fuel generalizing index with
  | zero => exact C.throw _
  | succ fuel ih =>
    unfold Recorded.countTurns Config.countTurns
    refine C.bind (C.goesOn test htest) fun on => ?_
    split
    · refine C.bind (C.bindStatus _) fun _ => C.bind h fun _ =>
        C.bind C.takeLoopJump fun isOver => ?_
      -- a jump out of the loop ends the turns, and all else goes on with the update
      split
      · exact C.pure _
      · exact C.bind (C.assigns update hupdate) fun _ => ih _
    · exact C.pure _

/-- A loop corresponds if its body does. -/
theorem runLoop (fuel : Nat) (head : LoopHead) (hhead : ∀ name ∈ head.reads, names name)
    (h : R x y) :
    R (.runLoop config fuel head outer top x) (config.runLoop fuel head outer' top' y) := by
  cases head with
  | each item collection =>
    exact C.bind (C.collection collection hhead) fun v => C.bind C.outerStatus fun status =>
      C.bind (C.onHeap _) fun walk => C.walkTurns item status h fuel walk 0
  | counting start test update =>
    obtain ⟨hstart, hrest⟩ := List.forall_mem_append.mp hhead
    obtain ⟨htest, hupdate⟩ := List.forall_mem_append.mp hrest
    exact C.bind C.outerStatus fun status => C.bind (C.assigns start hstart) fun _ =>
      C.countTurns status htest hupdate h fuel 0

end LoopsCorrespond

/-- What corresponds in its parts corresponds in its loops. -/
theorem PartsCorrespond.loopsCorrespond {config : Config} {M : Matching}
    {outer outer' top top' : ScopeId}
    {E : ScopeId → ScopeId → {α : Type} → Recorded Memory Error α → Eval α → Prop}
    {R : {α : Type} → Recorded RenderState Stop α → Render α → Prop}
    (C : PartsCorrespond config M outer outer' top top' E R)
    (htake : R (.silent takeLoopJump) takeLoopJump) (howns : M.owns top top')
    (hfor : M.names "for") : LoopsCorrespond config M.names outer outer' top top' R where
  pure := C.pure
  throw stop := C.silent (.throw stop)
  bind := C.bind
  heap := C.silent .heap
  onHeap f := C.silent (.onHeap f)
  takeLoopJump := htake
  bindName := C.bindName howns
  collection e h := C.evalOuter (C.evalsOuter.eval e h)
  outerStatus := C.outerStatus hfor
  goesOn test := C.goesOn test howns
  assigns es := C.assigns .inner es fun _ => howns

/-! ### Runs -/

/-- A relation of the actions of two renders, and of the twins of those of the first one, that
composes. -/
structure RunsCorrespond (config : Config) (M : Matching)
    (E : ScopeId → ScopeId → {α : Type} → Recorded Memory Error α → Eval α → Prop)
    (R : ScopeId → ScopeId → ScopeId → ScopeId → {α : Type} → Recorded RenderState Stop α →
      Render α → Prop) : Prop where
  parts : ∀ {outer outer' top top' : ScopeId}, M.sees outer outer' → M.sees top top' →
    PartsCorrespond config M outer outer' top top' E (R outer outer' top top')
  setJump : ∀ {outer outer' top top' : ScopeId} (kind : Jump),
    R outer outer' top top' (.silent (Render.setJump kind)) (Render.setJump kind)
  takeLoopJump : ∀ {outer outer' top top' : ScopeId},
    R outer outer' top top' (.silent takeLoopJump) takeLoopJump
  attempt : ∀ {outer outer' top top' : ScopeId} {α : Type} {x : Recorded RenderState Stop α}
    {y : Render α}, R outer outer' top top' x y →
    R outer outer' top top' x.attempt (Render.attempt y)
  captured : ∀ {outer outer' top top' : ScopeId} {x : Recorded RenderState Stop Unit}
    {y : Render Unit}, R outer outer' top top' x y →
    R outer outer' top top' x.captured (Render.captured y)
  inFrame : ∀ {outer outer' top top' : ScopeId} {α : Type}
    {x : ScopeId → Recorded RenderState Stop α} {y : ScopeId → Render α}, M.sees top top' →
    (∀ frame frame', M.owns frame frame' → R top top' frame frame' (x frame) (y frame')) →
    R outer outer' top top' (.inFrame top x) (Render.inFrame top' y)
  confined : ∀ {outer outer' top top' : ScopeId} {α : Type}
    {x : ScopeId → Recorded RenderState Stop α} {y : ScopeId → Render α}, M.sees top top' →
    (∀ frame frame', M.owns frame frame' → R top top' frame frame' (x frame) (y frame')) →
    R outer outer' top top' (.confined top x) (Render.confined top' y)
  /-- A statement that is executed is on record, and with it what it reads. -/
  noting : ∀ {outer outer' top top' : ScopeId} {fuel : Nat}
    {functions : Assoc TemplateFunction} {s : Statement} {x : Recorded RenderState Stop Unit}
    (loops : Nat), M.sees top top' →
    ((∀ name, s.Reads name → M.names name) →
      R outer outer' top top' x (s.exec config fuel functions top')) →
    R outer outer' top top' (.noting (.executed ⟨fuel, functions, top, loops⟩ s) x)
      (s.exec config fuel functions top')
  directed : ∀ {outer outer' top top' : ScopeId} (bodies : List (Except Error Unit))
    (result : Except Error Unit),
    R outer outer' top top'
      (do Recorded.note fun _ => .directed bodies result; .silent (Render.ofExcept result))
      (Render.ofExcept result)

namespace RunsCorrespond

variable {config : Config} {M : Matching}
  {E : ScopeId → ScopeId → {α : Type} → Recorded Memory Error α → Eval α → Prop}
  {R : ScopeId → ScopeId → ScopeId → ScopeId → {α : Type} → Recorded RenderState Stop α →
    Render α → Prop}

variable (C : RunsCorrespond config M E R) {outer outer' top top' : ScopeId}

include C

/-- A custom directive acts by its steps only. It may bind names in its frame. -/
theorem runScript {x : Recorded RenderState Stop Unit} {y : Render Unit}
    (houter : M.sees outer outer') (howns : M.owns top top') (h : R outer outer' top top' x y)
    (bodies : List (Except Error Unit)) (script : Script)
    (hlooks : ∀ name, script.LooksUp name → M.names name) :
    R outer outer' top top' (.runScript config top x bodies script)
      (Stencil.runScript config top' y script) := by
  have P := C.parts houter (M.sees_of_owns howns)
  -- by induction on the script, step by step
  induction script generalizing bodies with
  | stop result => exact C.directed bodies result
  | writeText text _ ih =>
    exact P.bind (P.silent (.attempt (.write text))) fun r =>
      ih r _ fun name hname => hlooks name ⟨r, hname⟩
  | writeValue v _ ih =>
    exact P.bind (P.silent (.attempt (.writeValue v))) fun r =>
      ih r _ fun name hname => hlooks name ⟨r, hname⟩
  | renderBody _ ih =>
    exact P.bind (C.attempt h) fun r => ih r _ fun name hname => hlooks name ⟨r, hname⟩
  | renderToText _ ih =>
    exact P.bind (C.attempt (C.captured h)) fun r =>
      ih r _ fun name hname => hlooks name ⟨r, hname⟩
  | lookup name _ ih =>
    exact P.bind (P.lookup (hlooks name (.inl rfl))) fun v =>
      ih v _ fun name hname => hlooks name (.inr ⟨v, hname⟩)
  | bind name v _ ih => exact P.bind (P.bindName howns name v) fun _ => ih _ hlooks
  | inspect _ ih =>
    exact P.bind (P.silent .heap) fun h => ih h _ fun name hname => hlooks name ⟨h, hname⟩
  | update change _ ih => exact P.bind (P.silent (.updateHeap change)) fun _ => ih _ hlooks

/-- **A program does the same in corresponding frames.** The frames that a statement runs in have to
correspond in what they see, and in what is bound in them only if the statement binds something
there. -/
theorem exec (fuel : Nat) (functions : Assoc TemplateFunction) (s : Statement)
    (houter : M.sees outer outer') (htop : M.sees top top')
    (hs : M.owns top top' ∨ s.isPlain ∨ s.opensFrame) (loops : Nat) :
    R outer outer' top top' (.exec config fuel functions s top loops)
      (s.exec config fuel functions top') := by
  -- By induction on the fuel: a statement runs the statements in it, and those of the functions
  -- and files it finds, with less. The latter run in frames of their own.
  -- by induction on the fuel; each statement brings its frame along, and what it reads
  induction fuel generalizing functions s outer outer' top top' loops with
  | zero => exact C.noting loops htop fun _ => (C.parts houter htop).silent (.throw _)
  | succ fuel ih =>
    have P := C.parts houter htop
    refine C.noting loops htop fun hnames => ?_
    have hreads : ∀ name ∈ s.reads, M.names name := fun name hname => hnames name (.inl hname)
    have own {frame frame' : ScopeId} (howns : M.owns frame frame')
        (functions : Assoc TemplateFunction) (s : Statement) (loops : Nat) :=
      ih functions s htop (M.sees_of_owns howns) (.inl howns) loops
    -- one case per form of statement: its parts correspond, and what it runs has less fuel
    cases s with
    | nothing => exact P.pure _
    | text content => exact P.silent (.write content)
    | output value => exact P.bind (P.eval value hreads) fun v => P.silent (.writeValue v)
    | condition test yes no =>
      have hbranches : (M.owns top top' ∨ yes.isPlain ∨ yes.opensFrame) ∧
          (M.owns top top' ∨ no.isPlain ∨ no.opensFrame) := by
        -- a statement in a frame that corresponds only in what it sees is plain, and so are its
        -- branches
        rcases hs with howns | hplain | hopens
        · exact ⟨.inl howns, .inl howns⟩
        · exact (Statement.isPlain_condition.mp hplain).imp (.inr ∘ .inl) (.inr ∘ .inl)
        · cases hopens
      refine P.bind (P.holds test hreads) fun holds => ?_
      split
      · exact ih functions yes houter htop hbranches.1 loops
      · exact ih functions no houter htop hbranches.2 loops
    | loop head body otherwise =>
      unfold Statement.exec
      refine C.inFrame htop fun frame frame' howns => ?_
      have P := C.parts htop (M.sees_of_owns howns)
      obtain ⟨hfor, hhead⟩ := List.forall_mem_cons.mp hreads
      have L := P.loopsCorrespond C.takeLoopJump howns hfor
      refine P.bind (L.runLoop fuel head hhead (own howns functions body (loops + 1)))
        fun ran => ?_
      split
      · exact P.pure _
      · exact own howns functions otherwise loops
    | switch subject cases otherwise =>
      have hbodies : (∀ values body, .mk values body ∈ cases →
            M.owns top top' ∨ body.isPlain ∨ body.opensFrame) ∧
          (M.owns top top' ∨ otherwise.isPlain ∨ otherwise.opensFrame) := by
        -- likewise for the cases of a switch
        rcases hs with howns | hplain | hopens
        · exact ⟨fun _ _ _ => .inl howns, .inl howns⟩
        · obtain ⟨hcases, hotherwise⟩ := Statement.isPlain_switch.mp hplain
          exact ⟨fun values body hmem => .inr (.inl (hcases values body hmem)),
            .inr (.inl hotherwise)⟩
        · cases hopens
      obtain ⟨hsubject, hvalues⟩ := List.forall_mem_append.mp hreads
      refine P.bind (P.eval subject hsubject) fun v => ?_
      exact P.chooseCaseThen v
        (fun values body hmem name hname =>
          hvalues name (List.mem_flatMap.mpr ⟨.mk values body, hmem, hname⟩))
        (fun values body hmem => ih functions body houter htop (hbodies.1 values body hmem) loops)
        (ih functions otherwise houter htop hbodies.2 loops)
    | definition name => exact P.pure _
    | call callee args ifDefined location =>
      obtain ⟨hcallee, hargs⟩ := List.forall_mem_append.mp hreads
      refine P.bind (P.calleeName location callee hcallee) fun name =>
        P.bind (P.silent (.findFunction functions name)) fun found => ?_
      -- a function that is not there is passed by or an error, in both frames alike
      split
      · refine P.bind (P.arguments _ args location hargs) fun values =>
          C.confined htop fun frame frame' howns => ?_
        have P := C.parts htop (M.sees_of_owns howns)
        exact P.bind (P.bindAll howns _) fun _ => own howns functions _ 0
      · split
        · exact P.pure _
        · exact P.silent (.throw _)
    | inlined assignments body =>
      unfold Statement.exec
      refine C.confined htop fun frame frame' howns => ?_
      have P := C.parts htop (M.sees_of_owns howns)
      exact P.bind (P.assigns .inner assignments (fun _ => howns) hreads) fun _ =>
        own howns functions body 0
    | render file assignments site location =>
      refine P.bind (P.silent (.rendered site file location)) fun unit =>
        C.confined htop fun frame frame' howns => ?_
      have P := C.parts htop (M.sees_of_owns howns)
      exact P.bind (P.assigns .inner assignments (fun _ => howns) hreads) fun _ =>
        own howns unit.functions unit.body 0
    | assign policy assignments =>
      refine P.assigns policy assignments (fun hinner => ?_) hreads
      -- an assignment to the frame itself is not plain, and opens no frame
      rcases hs with howns | hplain | hopens
      · exact howns
      · exact absurd hinner (Statement.isPlain_assign.mp hplain)
      · cases hopens
    | jump kind => exact C.setJump kind
    | custom directive args body location =>
      have howns : M.owns top top' := by
        -- nor is a custom directive, which may bind names
        rcases hs with howns | hplain | hopens
        · exact howns
        · exact absurd hplain Bool.false_ne_true
        · cases hopens
      refine P.bind (P.evalAll args hreads) fun values => ?_
      exact C.runScript houter howns (ih functions body houter htop (.inl howns) loops) [] _
        fun name hname => hnames name (.inr ⟨values, hname⟩)
    | block statements =>
      have hstatements : ∀ s ∈ statements, M.owns top top' ∨ s.isPlain ∨ s.opensFrame := by
        -- likewise for the statements of a block
        rcases hs with howns | hplain | hopens
        · exact fun _ _ => .inl howns
        · exact fun s hmem => .inr (.inl (Statement.isPlain_block.mp hplain s hmem))
        · cases hopens
      exact Recorded.runBlock_corresponds (P.pure ()) P.bind (P.silent .jump) fun s hmem =>
        ih functions s houter htop (hstatements s hmem) loops

/-- Two renders of a template correspond. -/
theorem render (fuel : Nat) (unit : Compiled) (h : M.owns 0 0) :
    R 0 0 0 0 (unit.recorded config fuel) (unit.render config fuel) :=
  have hsees := M.sees_of_owns h
  have P := C.parts hsees hsees
  P.bind (C.exec fuel unit.functions unit.body hsees hsees (.inl h) 0) fun _ => P.silent .flush

end RunsCorrespond

end Stencil
