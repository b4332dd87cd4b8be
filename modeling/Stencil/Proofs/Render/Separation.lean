import Mathlib
import Stencil.Proofs.Expr.Separation
import Stencil.Proofs.Render.Executed
import Stencil.Proofs.Template.Constants

/-!
# Runs and maps that are set aside

A statement that is run works with the variables, with the heap and with what the host offers, and
it binds what it evaluates. So it leaves alone what they do not lead to: maps that are set aside are
as they were behind every statement, however it ends (`Statement.exec_passes`). In particular, no
map is ever referred to that is not there.

What a run takes from outside is taken to be **honest** (`Config.Honest`): the operations of the
host, and the scripts of custom directives, bind and store what they have come across or made. The
statements themselves may hold no maps as constants, and those that are compiled do not
(`Compiled.Made.sound`).

Main definitions: `Script.Honest`, `Config.Honest`, `Statement.Sound`, `Render.Passes`.
Main statement: `Statement.exec_passes`.
-/

namespace Stencil

open Render

variable {α β : Type} {aside : MapId → Prop} {config : Config} {size : Nat} {v : Value}

/-! ### What is honest -/

/-- A script that is **honest**, from some number of maps on: it binds and stores only what it has
looked up, found in the heap or made. -/
def Script.Honest (aside : MapId → Prop) : Nat → Script → Prop
  | _, .stop _ => True
  | n, .writeText _ next | n, .writeValue _ next | n, .renderBody next =>
    ∀ result, (next result).Honest aside n
  | n, .renderToText next => ∀ result, (next result).Honest aside n
  | n, .lookup _ next => ∀ n' v, n ≤ n' → v.Clear aside n' → (next v).Honest aside n'
  | n, .bind _ v next => v.Clear aside n ∧ next.Honest aside n
  | n, .inspect next => ∀ h : Heap, h.Clear aside → n ≤ h.maps.size →
      (next h).Honest aside h.maps.size
  | n, .update change next => ∀ h : Heap, h.Clear aside → n ≤ h.maps.size →
      h.Onward aside (change h) ∧ next.Honest aside (change h).maps.size

/-- What may be bound or stored may be so later on. -/
theorem Script.Honest.mono {script : Script} {n n' : Nat} (h : script.Honest aside n)
    (hle : n ≤ n') : script.Honest aside n' := by
  induction script generalizing n n' with
  | stop => exact ⟨⟩
  | writeText _ _ ih | writeValue _ _ ih | renderBody _ ih | renderToText _ ih =>
    exact fun result => ih result (h result) hle
  | lookup _ _ ih => exact fun n'' v hn'' hv => h n'' v (Nat.le_trans hle hn'') hv
  | bind _ _ _ ih => exact ⟨h.1.mono hle, ih h.2 hle⟩
  | inspect _ ih => exact fun heap hheap hsize => h heap hheap (Nat.le_trans hle hsize)
  | update _ _ ih => exact fun heap hheap hsize => h heap hheap (Nat.le_trans hle hsize)

/-- A directive whose scripts are honest, for parameters that are no maps set aside. -/
def Directive.Honest (directive : Directive) : Prop :=
  ∀ (aside : MapId → Prop) (n : Nat) (location : Location) (args : List Value),
    (∀ v ∈ args, v.Clear aside n) → (directive.run location args).Honest aside n

/-- The operations of the host and the directives are honest. -/
structure Config.Honest (config : Config) : Prop where
  host : config.host.Honest
  directives : ∀ directive, config.Knows directive → directive.Honest

/-- The directive that escapes markup is honest. -/
theorem Directive.escape_honest : Directive.escape.Honest := by
  intro aside n location args _
  change (if args.isEmpty then _ else _ : Script).Honest aside n
  split
  · intro result
    cases result with
    | ok body => exact fun _ => ⟨⟩
    | error error => exact ⟨⟩
  · exact ⟨⟩

/-- An engine that has nothing registered is honest. -/
theorem Config.honest_empty : ({} : Config).Honest where
  host :=
    { methods := by rintro _ _ ⟨⟩
      operations := by rintro _ _ ⟨⟩
      members := by rintro _ _ _ _ ⟨⟩ }
  directives directive hknown := by
    rw [Config.eq_escape_of_knows hknown]
    exact Directive.escape_honest

/-- A statement that holds custom directives of a configuration only, and no maps as constants. -/
structure Statement.Sound (config : Config) (s : Statement) : Prop where
  alike : Statement.Alike (config.likeness Eq anySource) s s
  literal : ∀ e ∈ s.exprs, e.Literal

/-- The expressions of a statement are among those of all statements. -/
theorem mem_exprsOfAll {s : Statement} {ss : List Statement} (hs : s ∈ ss) {e : Expr}
    (he : e ∈ s.exprs) : e ∈ exprsOfAll ss := by
  induction ss with
  | nil => exact absurd hs List.not_mem_nil
  | cons first ss ih =>
    rw [exprsOfAll, List.mem_append]
    rcases List.mem_cons.mp hs with rfl | hs
    · exact .inl he
    · exact .inr (ih hs)

/-- The expressions of a case are among those of all cases. -/
theorem mem_exprsOfCases {values : List Expr} {body : Statement} {cases : List Case}
    (hcase : .mk values body ∈ cases) {e : Expr} (he : e ∈ values ∨ e ∈ body.exprs) :
    e ∈ exprsOfCases cases := by
  induction cases with
  | nil => exact absurd hcase List.not_mem_nil
  | cons first cases ih =>
    obtain ⟨values', body'⟩ := first
    rw [exprsOfCases, List.mem_append, List.mem_append]
    rcases List.mem_cons.mp hcase with heq | hcase
    · obtain ⟨rfl, rfl⟩ := Case.mk.inj heq
      exact .inl he
    · exact .inr (ih hcase)

/-- A property of the expressions of a statement goes over to the statements in it. -/
theorem handedDown_exprs (Q : Expr → Prop) : HandedDown fun s => ∀ e ∈ s.exprs, Q e where
  condition h := List.forall_mem_append.mp (List.forall_mem_cons.mp h).2
  loop h := List.forall_mem_append.mp (List.forall_mem_append.mp h).2
  switch h := by
    obtain ⟨hcases, hotherwise⟩ := List.forall_mem_append.mp (List.forall_mem_cons.mp h).2
    exact ⟨fun _ _ hmem e he => hcases e (mem_exprsOfCases hmem (.inr he)), hotherwise⟩
  inlined h := (List.forall_mem_append.mp h).2
  custom h := (List.forall_mem_append.mp h).2
  block h _ hmem e he := h e (mem_exprsOfAll hmem he)

/-- What is compiled is sound. -/
theorem Compiled.Made.sound {unit : Compiled} (h : unit.Made config) :
    unit.All (Statement.Sound config) := by
  have hdraws := h.draws Eq fun _ => rfl
  obtain ⟨files, source, first, next, hcompile⟩ := h
  obtain ⟨hbody, hfunctions⟩ := List.forall_mem_append.mp (compile_literal hcompile)
  refine ⟨⟨hdraws.body, hbody⟩, fun e he => ?_⟩
  obtain ⟨-, hf⟩ := List.forall₂_same.mp hdraws.functions e he
  exact ⟨hf.body, List.forall_mem_flatMap.mp hfunctions e he⟩

/-- A sound statement hands on soundness, in libraries of what is compiled. -/
theorem handedOn_sound (config : Config) :
    HandedOn (Library.madeInvariant config) (Statement.Sound config) := by
  have hexprs := handedDown_exprs Expr.Literal
  have halike := handedDown_alike (config.likeness Eq anySource)
  -- what is compiled is sound, so only the parts of a statement are left to look at
  refine handedOn_made ?_ fun unit hunit => hunit.sound
  exact
    { condition := fun h => ⟨⟨(halike.condition h.alike).1, (hexprs.condition h.literal).1⟩,
        ⟨(halike.condition h.alike).2, (hexprs.condition h.literal).2⟩⟩
      loop := fun h => ⟨⟨(halike.loop h.alike).1, (hexprs.loop h.literal).1⟩,
        ⟨(halike.loop h.alike).2, (hexprs.loop h.literal).2⟩⟩
      switch := fun h => ⟨fun values body hmem => ⟨(halike.switch h.alike).1 values body hmem,
        (hexprs.switch h.literal).1 values body hmem⟩,
        ⟨(halike.switch h.alike).2, (hexprs.switch h.literal).2⟩⟩
      inlined := fun h => ⟨halike.inlined h.alike, hexprs.inlined h.literal⟩
      custom := fun h => ⟨halike.custom h.alike, hexprs.custom h.literal⟩
      block := fun h s hs => ⟨halike.block h.alike s hs, hexprs.block h.literal s hs⟩ }

/-! ### Actions -/

/-- From a state with maps set aside, of which there are at least `size`, and a library of what is
compiled, an action leaves the maps aside and as they were. If it goes well, its result is as given
for the number of maps by then. -/
def Render.Passes (config : Config) (aside : MapId → Prop) (size : Nat) (act : Render α)
    (K : α → Nat → Prop) : Prop :=
  ∀ st : RenderState, st.memory.Clear config.host aside → st.library.Made config →
    size ≤ st.memory.heap.maps.size →
      st.memory.Onward config.host aside (act.runOn st).2.memory ∧
        (act.runOn st).2.library.Made config ∧
        ∀ a, (act.runOn st).1 = .ok a → K a (act.runOn st).2.memory.heap.maps.size

/-- An action that leaves the maps aside, whatever its result. -/
abbrev Render.Keeps (config : Config) (aside : MapId → Prop) (size : Nat) (act : Render α) : Prop :=
  act.Passes config aside size fun _ _ => True

namespace Memory.Clear

variable {host : Host} {m : Memory} (hm : m.Clear host aside)

include hm

/-- A frame that is opened binds nothing. -/
theorem push (parent : ScopeId) :
    { m with scopes := (m.scopes.push parent).2 }.Clear host aside where
  heap := hm.heap
  bound hv := by
    rw [Scopes.slot?_push] at hv
    exact hm.bound hv
  offered := hm.offered

/-- Frames that are dropped bind nothing any more. -/
theorem pop (frame : ScopeId) : { m with scopes := m.scopes.pop frame }.Clear host aside where
  heap := hm.heap
  bound {scope name v} hv := by
    change (m.scopes.pop frame).slot? scope name = some v at hv
    -- what is bound in the frames that stay was bound before
    by_cases hframe : 0 < frame
    · rw [Scopes.slot?_pop _ hframe] at hv
      split at hv
      · exact hm.bound hv
      · cases hv
    · rw [Scopes.pop, if_neg hframe] at hv
      exact hm.bound hv
  offered := hm.offered

end Memory.Clear

namespace Render.Passes

variable {K : α → Nat → Prop} {M : β → Nat → Prop}

/-- A value passes if it goes with every later heap. -/
theorem pure (a : α) (ha : ∀ n, size ≤ n → K a n) :
    (pure a : Render α).Passes config aside size K :=
  fun _ hm hlib hsize => ⟨hm.refl, hlib, fun _ hok => Except.ok.inj hok ▸ ha _ hsize⟩

theorem throw (stop : Stop) : (throw stop : Render α).Passes config aside size K :=
  fun _ hm hlib _ => ⟨hm.refl, hlib, fun _ hok => by cases hok⟩

/-- One action behind another: the second with the value and on the heap of the first. -/
theorem bind {x : Render α} {f : α → Render β} (hx : x.Passes config aside size K)
    (hf : ∀ a n, size ≤ n → K a n → (f a).Passes config aside n M) :
    (x >>= f).Passes config aside size M := by
  intro st hm hlib hsize
  obtain ⟨hmid, hlib', hk⟩ := hx st hm hlib hsize
  rw [runOn_bind]
  rcases hrun : x.runOn st with ⟨_ | a, mid⟩
  -- what has stopped has left the maps aside
  · rw [hrun] at hmid hlib'
    exact ⟨hmid, hlib', fun _ hok => by cases hok⟩
  -- what has gone well is the start of the second action
  · rw [hrun] at hmid hlib' hk
    obtain ⟨hafter, hlib'', hM⟩ :=
      hf a _ (Nat.le_trans hsize hmid.heap.size) (hk a rfl) mid hmid.clear hlib' (Nat.le_refl _)
    exact ⟨hmid.trans hafter, hlib'', hM⟩

/-- What passes as an evaluation passes as a run. -/
theorem ofEval {act : Eval α} (h : act.Passes config.host aside size K) :
    (Render.ofEval act).Passes config aside size K := by
  intro st hm hlib hsize
  obtain ⟨hafter, hk⟩ := h st.memory hm hsize
  exact ⟨hafter, hlib, fun a hok => hk a (mapError_eq_ok_iff.mp hok)⟩

/-- An action that looks at the heap and goes on. -/
theorem heap {f : Heap → Render β}
    (hf : ∀ h : Heap, h.Clear aside → size ≤ h.maps.size →
      (f h).Passes config aside h.maps.size M) :
    (Render.heap >>= f).Passes config aside size M :=
  fun st hm hlib hsize => hf st.memory.heap hm.heap hsize st hm hlib (Nat.le_refl _)

/-- An action that leaves the memory and the library alone. -/
theorem of_apart {act : Render α} (hmemory : ∀ st, (act.runOn st).2.memory = st.memory)
    (hlibrary : ∀ st, (act.runOn st).2.library = st.library) : act.Keeps config aside size := by
  intro st hm hlib _
  rw [hmemory, hlibrary]
  exact ⟨hm.refl, hlib, fun _ _ => ⟨⟩⟩

/-- A look at the jump keeps maps aside. -/
theorem jump : Render.jump.Keeps config aside size := of_apart (fun _ => rfl) fun _ => rfl

theorem write (text : String) : (write text).Keeps config aside size :=
  of_apart (fun _ => rfl) fun _ => rfl

theorem writeValue (v : Value) : (writeValue v).Keeps config aside size :=
  of_apart (fun _ => rfl) fun _ => rfl

theorem setJump (kind : Jump) : (setJump kind).Keeps config aside size :=
  fun _ hm hlib _ => ⟨⟨hm.withControl _, hm.heap.refl⟩, hlib, fun _ _ => ⟨⟩⟩

theorem bindName (hv : v.Clear aside size) (scope : ScopeId) (name : String) :
    (Render.bind scope name v).Keeps config aside size :=
  fun _ hm hlib hsize => ⟨hm.bind (hv.mono hsize) scope name, hlib, fun _ _ => ⟨⟩⟩

/-- So does a loop that takes up a jump. -/
theorem takeLoopJump : takeLoopJump.Keeps config aside size := by
  refine bind jump fun kind n _ _ => ?_
  cases kind with
  | none => exact pure _ fun _ _ => ⟨⟩
  | «continue» => exact bind (setJump _) fun _ _ _ _ => pure _ fun _ _ => ⟨⟩
  | «break» => exact bind (setJump _) fun _ _ _ _ => pure _ fun _ _ => ⟨⟩
  | «return» => exact pure _ fun _ _ => ⟨⟩

/-- So does an attempt. -/
theorem attempt {act : Render α} (h : act.Keeps config aside size) :
    (attempt act).Keeps config aside size := by
  intro st hm hlib hsize
  obtain ⟨hafter, hlib', -⟩ := h st hm hlib hsize
  rw [runOn_attempt]
  rcases hrun : act.runOn st with ⟨(_ | _ | _) | _, after⟩ <;>
    · rw [hrun] at hafter hlib'
      exact ⟨hafter, hlib', fun _ _ => ⟨⟩⟩

/-- So does a captured body. -/
theorem captured {act : Render Unit} (h : act.Keeps config aside size) :
    (captured act).Keeps config aside size := by
  intro st hm hlib hsize
  obtain ⟨hafter, hlib', -⟩ := h { st with output := .unlimited } hm hlib hsize
  exact ⟨hafter, hlib', fun _ _ => ⟨⟩⟩

/-- So does an action in a frame of its own. -/
theorem inFrame {act : ScopeId → Render α} (h : ∀ frame, (act frame).Keeps config aside size)
    (parent : ScopeId) : (inFrame parent act).Keeps config aside size := by
  intro st hm hlib hsize
  obtain ⟨hafter, hlib', -⟩ :=
    h st.memory.scopes.frames.size (st.opened parent) (hm.push parent) hlib hsize
  rw [runOn_inFrame]
  exact ⟨⟨hafter.clear.pop _, hafter.heap⟩, hlib', fun _ _ => ⟨⟩⟩

/-- So does a confined action. -/
theorem confined {act : ScopeId → Render α} (h : ∀ frame, (act frame).Keeps config aside size)
    (parent : ScopeId) : (confined parent act).Keeps config aside size := by
  intro st hm hlib hsize
  obtain ⟨hafter, hlib', -⟩ := inFrame h parent st hm hlib hsize
  exact ⟨⟨hafter.clear.withControl _, hafter.heap⟩, hlib', fun _ _ => ⟨⟩⟩

/-! ### The parts of statements -/

section Parts

variable (honest : config.Honest) (scope frame : ScopeId)

include honest

/-- A literal expression has a clear value. -/
theorem eval {e : Expr} (he : e.Literal) :
    (config.eval scope e).Passes config aside size fun v n => v.Clear aside n :=
  ofEval (Expr.eval_passes honest.host scope e size he)

theorem evalAll {es : List Expr} (hes : ∀ e ∈ es, e.Literal) :
    (config.evalAll scope es).Passes config aside size fun vs n => ∀ v ∈ vs, v.Clear aside n :=
  ofEval (Expr.evalAll_passes honest.host scope es size (Expr.noMap_of_literal hes))

/-- A literal test keeps maps aside. -/
theorem holds {e : Expr} (he : e.Literal) : (config.holds scope e).Keeps config aside size :=
  bind (eval honest scope he) fun _ _ _ _ => heap fun _ _ _ => pure _ fun _ _ => ⟨⟩

/-- So do literal assignments. -/
theorem assign (policy : Policy) {es : List Expr} (hes : ∀ e ∈ es, e.Literal) :
    (config.assign policy scope es).Keeps config aside size :=
  bind (ofEval (.withPolicy policy
    (Expr.evalAll_passes honest.host scope es size (Expr.noMap_of_literal hes))))
    fun _ _ _ _ => pure _ fun _ _ => ⟨⟩

/-- So does the search for an equal value. -/
theorem anyIs (subject : Value) {es : List Expr} (hes : ∀ e ∈ es, e.Literal) :
    (config.anyIs scope subject es).Keeps config aside size := by
  induction es generalizing size with
  | nil => exact pure _ fun _ _ => ⟨⟩
  | cons e rest ih =>
    obtain ⟨he, hrest⟩ := List.forall_mem_cons.mp hes
    refine bind (eval honest scope he) fun v n _ _ => heap fun h _ _ => ?_
    split
    · exact pure _ fun _ _ => ⟨⟩
    · exact ih hrest

/-- A switch chooses among its bodies. -/
theorem chooseCase {P : Statement → Prop} {cases : List Case} {otherwise : Statement}
    (hvalues : ∀ values body, .mk values body ∈ cases → ∀ e ∈ values, e.Literal)
    (hcases : ∀ values body, .mk values body ∈ cases → P body) (hotherwise : P otherwise)
    (subject : Value) :
    (config.chooseCase scope subject otherwise cases).Passes config aside size fun s _ => P s := by
  induction cases generalizing size with
  | nil => exact pure _ fun _ _ => hotherwise
  | cons c rest ih =>
    obtain ⟨values, body⟩ := c
    refine bind (anyIs honest scope subject (hvalues values body List.mem_cons_self))
      fun hit n _ _ => ?_
    -- the first case that matches, or one of those behind it
    split
    · exact pure _ fun _ _ => hcases values body List.mem_cons_self
    · exact ih (fun _ _ hmem => hvalues _ _ (List.mem_cons_of_mem _ hmem))
        fun _ _ hmem => hcases _ _ (List.mem_cons_of_mem _ hmem)

omit honest in
/-- The status of the loop around is no map. -/
theorem outerStatus :
    (config.outerStatus frame).Passes config aside size fun v n => v.Clear aside n := by
  refine bind (ofEval (.lookup frame "for")) fun v n _ hv => ?_
  split
  · exact pure _ fun _ _ => Value.NoMap.clear fun _ => Value.noConfusion
  · exact pure _ fun _ _ => Value.noMap_null.clear

/-- Whether a loop goes on is a literal test. -/
theorem goesOn {test : Option Expr} (htest : ∀ e ∈ test, e.Literal) :
    (config.goesOn frame test).Keeps config aside size := by
  cases test with
  | none => exact pure _ fun _ _ => ⟨⟩
  | some e =>
    have htested : (e.eval config.host frame).Clears config.host aside size :=
      e.eval_passes honest.host frame size (htest e rfl)
    exact bind (ofEval (.withPolicy .inner htested))
      fun _ _ _ _ => heap fun _ _ _ => pure _ fun _ _ => ⟨⟩

/-- The name of a callee keeps maps aside. -/
theorem calleeName {callee : Callee} (hcallee : ∀ e ∈ callee.exprs, e.Literal)
    (location : Location) : (config.calleeName scope location callee).Keeps config aside size := by
  cases callee with
  | named name => exact pure _ fun _ _ => ⟨⟩
  | computed e =>
    refine bind (eval honest scope (hcallee e (List.mem_singleton_self _))) fun v n _ _ => ?_
    split
    · exact pure _ fun _ _ => ⟨⟩
    · exact throw _

/-- The arguments of a call are clear. -/
theorem arguments (function : TemplateFunction) {args : List Expr}
    (hargs : ∀ e ∈ args, e.Literal) (location : Location) :
    (config.arguments scope function args location).Passes config aside size
      fun vs n => ∀ v ∈ vs, v.Clear aside n := by
  unfold Config.arguments
  split
  · exact evalAll honest scope hargs
  · exact throw _

omit honest

/-- A status may be bound if the one around it is clear. -/
theorem bindStatus {status : LoopStatus} (houter : status.outer.Clear aside size) :
    (bindStatus frame status).Keeps config aside size := by
  have hnew : (Render.ofEval (Eval.onHeap (·.newStatus status))).Passes config aside size
      fun v _ => v.NoMap :=
    ofEval (.onHeap fun h hh hsize =>
      ⟨hh.newStatus (houter.mono hsize), fun _ => Value.noConfusion⟩)
  exact bind hnew fun v n _ hv => bindName hv.clear frame "for"

/-- Parameters may be bound to clear values. -/
theorem bindAll {pairs : List (String × Value)} (hpairs : ∀ p ∈ pairs, p.2.Clear aside size) :
    (bindAll frame pairs).Keeps config aside size := by
  induction pairs generalizing size with
  | nil => exact pure _ fun _ _ => ⟨⟩
  | cons pair rest ih =>
    obtain ⟨hpair, hrest⟩ := List.forall_mem_cons.mp hpairs
    exact bind (bindName hpair frame pair.1) fun _ _ hle _ => ih fun p hp => (hrest p hp).mono hle

/-- A function that is found is one of those at hand, or it is made with the configuration. -/
theorem findFunction {P : Statement → Prop} {functions : Assoc TemplateFunction}
    (hfunctions : ∀ e ∈ functions.entries, P e.2.body)
    (hmade : ∀ unit : Compiled, unit.Made config → unit.All P) (name : String) :
    (config.findFunction functions name).Passes config aside size
      fun found _ => ∀ f ∈ found, P f.body := by
  intro st hm hlib _
  refine ⟨?_, (Maintains.findFunction functions name).made hlib, fun found hok f hf => ?_⟩
  -- to look for a function is no matter to the memory
  · have hmemory : ((config.findFunction functions name).runOn st).2.memory = st.memory := by
      unfold Config.findFunction
      split <;> rfl
    rw [hmemory]
    exact hm.refl
  -- the function is one of the template, or a shared one
  · obtain rfl := Option.mem_def.mp hf
    rcases hlib.of_findFunction hok with ⟨e, he, rfl⟩ | ⟨unit, hunit, key, hkey⟩
    · exact hfunctions e he
    · exact (hmade unit hunit).functions _ hkey

/-- A file that is rendered is made with the configuration. -/
theorem rendered (site : Nat) (file : String) (location : Location) :
    (config.rendered site file location).Passes config aside size
      fun unit _ => unit.Made config :=
  fun _ hm hlib _ => ⟨hm.refl, (Maintains.rendered site file location).made hlib,
    fun _ hok => hlib.of_rendered hok⟩

end Parts

end Render.Passes

/-! ### Loops -/

/-- What a walk has yet to give that is written down in it. -/
def Walk.pending : Walk → List Value
  | .items rest _ => rest
  | .range .. | .iterator _ => []

/-- What a walk has yet to give is no map that is set aside. -/
def Walk.Clear (aside : MapId → Prop) (size : Nat) (walk : Walk) : Prop :=
  ∀ v ∈ walk.pending, v.Clear aside size

namespace Heap.Clear

variable {h : Heap} (hc : h.Clear aside)

include hc

/-- The maps for the entries of a map are new. -/
theorem entriesOf {entries : List (String × Value)}
    (hentries : ∀ e ∈ entries, e.2.Clear aside h.maps.size) :
    h.Onward aside (Walk.entriesOf entries h).2 ∧
      ∀ v ∈ (Walk.entriesOf entries h).1, v.Clear aside (Walk.entriesOf entries h).2.maps.size := by
  -- by induction on the entries: each is a new map of a key, which is a text, and a clear value
  induction entries generalizing h with
  | nil => exact ⟨hc.refl, List.forall_mem_nil _⟩
  | cons e entries ih =>
    obtain ⟨key, value⟩ := e
    obtain ⟨hvalue, hentries⟩ := List.forall_mem_cons.mp hentries
    obtain ⟨honward, hnew⟩ := @newMap _ _ hc (.ofList [("key", .str key), ("value", value)])
      fun e he => by
        rcases Assoc.mem_entries_insertAll he with hempty | he
        · exact absurd hempty List.not_mem_nil
        · rcases List.mem_cons.mp he with rfl | he
          · exact (Value.noMap_str key).clear
          · obtain rfl := List.mem_singleton.mp he
            exact hvalue
    obtain ⟨hrest, hvalues⟩ := ih honward.clear fun e he => (hentries e he).mono honward.size
    exact ⟨honward.trans hrest, List.forall_mem_cons.mpr ⟨hnew.mono hrest.size, hvalues⟩⟩

/-- What a loop walks over is clear. -/
theorem ofValue (hv : v.Clear aside h.maps.size) :
    h.Onward aside (Walk.ofValue v h).2 ∧
      (Walk.ofValue v h).1.Clear aside (Walk.ofValue v h).2.maps.size := by
  cases v with
  | map id => exact hc.entriesOf fun e he => hc.stored _ (.entry he)
  | list id => exact ⟨hc.refl, fun v hv => hc.item (Array.mem_toList_iff.mp hv)⟩
  | null | iter | range => exact ⟨hc.refl, List.forall_mem_nil _⟩
  | _ => exact ⟨hc.refl, List.forall_mem_singleton.mpr hv⟩

/-- So is every value that it gives. -/
theorem walk {walk : Walk} (hwalk : walk.Clear aside h.maps.size) :
    h.Onward aside (walk.next? h).2 ∧
      ∀ v rest, (walk.next? h).1 = some (v, rest) →
        v.Clear aside (walk.next? h).2.maps.size ∧ rest.Clear aside (walk.next? h).2.maps.size := by
  -- the items of a list, the elements of a range, or the values of an iterator
  cases walk with
  | items rest size =>
    cases rest with
    | nil => exact ⟨hc.refl, by rintro _ _ ⟨⟩⟩
    | cons v rest =>
      refine ⟨hc.refl, ?_⟩
      rintro _ _ ⟨⟩
      exact List.forall_mem_cons.mp hwalk
  | range r next =>
    cases hget : r.get? next with
    | none =>
      rw [Walk.next?, hget]
      exact ⟨hc.refl, by rintro _ _ ⟨⟩⟩
    | some i =>
      rw [Walk.next?, hget]
      refine ⟨hc.refl, ?_⟩
      rintro _ _ ⟨⟩
      exact ⟨Value.NoMap.clear fun _ => Value.noConfusion, List.forall_mem_nil _⟩
  | iterator id =>
    cases hget : h.next? id with
    | none =>
      rw [Walk.next?, hget]
      exact ⟨hc.refl, by rintro _ _ ⟨⟩⟩
    | some r =>
      obtain ⟨hv, honward⟩ := hc.next? hget
      rw [Walk.next?, hget]
      refine ⟨honward, ?_⟩
      rintro _ _ ⟨⟩
      exact ⟨hv.mono honward.size, List.forall_mem_nil _⟩

end Heap.Clear

namespace Render.Passes

/-- A block keeps maps aside if its statements do. -/
theorem runBlock {run : Statement → Render Unit} {statements : List Statement}
    (h : ∀ s ∈ statements, ∀ n, (run s).Keeps config aside n) :
    (runBlock run statements).Keeps config aside size := by
  induction statements generalizing size with
  | nil => exact pure _ fun _ _ => ⟨⟩
  | cons s rest ih =>
    obtain ⟨hs, hrest⟩ := List.forall_mem_cons.mp h
    refine bind (hs _) fun _ n _ _ => bind jump fun kind n' _ _ => ?_
    split
    · exact ih hrest
    · exact pure _ fun _ _ => ⟨⟩

section Loops

variable {body : Render Unit} (hbody : ∀ n, body.Keeps config aside n)

include hbody

/-- So do turns over what is clear. -/
theorem walkTurns {outer : Value} {walk : Walk} (houter : outer.Clear aside size)
    (hwalk : walk.Clear aside size) (item : String) (frame : ScopeId) (fuel index : Nat) :
    (walkTurns item frame outer body fuel walk index).Keeps config aside size := by
  -- by induction on the fuel; the heap only grows, so what was clear stays clear
  induction fuel generalizing walk index size with
  | zero => exact throw _
  | succ fuel ih =>
    have hnext : (Render.ofEval (Eval.onHeap walk.next?)).Passes config aside size
        fun given n => ∀ v rest, given = some (v, rest) → v.Clear aside n ∧ rest.Clear aside n :=
      ofEval (.onHeap fun h hh hsize => hh.walk fun v hv => (hwalk v hv).mono hsize)
    refine bind hnext fun given n hn hgiven => ?_
    split
    · exact pure _ fun _ _ => ⟨⟩
    next v rest =>
      obtain ⟨hv, hrest⟩ := hgiven v rest rfl
      refine heap fun h _ hh => bind (bindName (hv.mono hh) frame item) fun _ n' hn' _ =>
        bind (bindStatus frame (houter.mono ?_)) fun _ n'' hn'' _ => bind (hbody n'')
          fun _ n₃ hn₃ _ => bind takeLoopJump fun ended n₄ hn₄ _ => ?_
      · exact Nat.le_trans hn (Nat.le_trans hh hn')
      · have hle : n ≤ n₄ := by omega
        split
        · exact pure _ fun _ _ => ⟨⟩
        · exact ih (houter.mono (Nat.le_trans hn hle)) (fun v hv => (hrest v hv).mono hle) _

variable (honest : config.Honest)

include honest

/-- So do counted turns. -/
theorem countTurns {outer : Value} (houter : outer.Clear aside size) {test : Option Expr}
    (htest : ∀ e ∈ test, e.Literal) {update : List Expr} (hupdate : ∀ e ∈ update, e.Literal)
    (frame : ScopeId) (fuel index : Nat) :
    (config.countTurns test update frame outer body fuel index).Keeps config aside size := by
  induction fuel generalizing index size with
  | zero => exact throw _
  | succ fuel ih =>
    refine bind (goesOn honest frame htest) fun goes n hn _ => ?_
    -- a turn is the status, the body and the update, each in the heap that the one before has left
    split
    · refine bind (bindStatus frame (houter.mono hn)) fun _ n' hn' _ => bind (hbody n')
        fun _ n'' hn'' _ => bind takeLoopJump fun ended n₃ hn₃ _ => ?_
      split
      · exact pure _ fun _ _ => ⟨⟩
      · exact bind (assign honest frame .inner hupdate) fun _ n₄ hn₄ _ =>
          ih (houter.mono (by omega)) _
    · exact pure _ fun _ _ => ⟨⟩

/-- So does a loop. -/
theorem runLoop {head : LoopHead} (hhead : ∀ e ∈ head.exprs, e.Literal) (fuel : Nat)
    (scope frame : ScopeId) :
    (config.runLoop fuel head scope frame body).Keeps config aside size := by
  -- what is walked over is what the collection has come to, and it is clear
  cases head with
  | each item collection =>
    refine bind (eval honest scope (hhead _ (List.mem_singleton_self _))) fun v n _ hv =>
      bind (outerStatus frame) fun outer n' hn' houter => ?_
    have hwalk : (Render.ofEval (Eval.onHeap (Walk.ofValue v))).Passes config aside n'
        fun walk n => walk.Clear aside n :=
      ofEval (.onHeap fun h hh hsize => hh.ofValue ((hv.mono hn').mono hsize))
    exact bind hwalk fun walk n'' hn'' hwalk =>
      walkTurns hbody (houter.mono hn'') hwalk item frame fuel 0
  | counting start test update =>
    obtain ⟨hrest, hupdate⟩ := List.forall_mem_append.mp hhead
    obtain ⟨hstart, htest⟩ := List.forall_mem_append.mp hrest
    refine bind (outerStatus frame) fun outer n _ houter =>
      bind (assign honest frame .inner hstart) fun _ n' hn' _ =>
        countTurns hbody honest (houter.mono hn') (fun e he => htest e ?_) hupdate frame fuel 0
    exact Option.mem_toList.mpr he

end Loops

/-! ### Custom directives -/

/-- An honest script leaves the maps aside, if its body does. -/
theorem runScript {body : Render Unit} (hbody : ∀ n, body.Keeps config aside n) {script : Script}
    (hscript : script.Honest aside size) (scope : ScopeId) :
    (runScript config scope body script).Keeps config aside size := by
  -- by induction on the script: each step goes on with a heap that has come onward
  induction script generalizing size with
  | stop result =>
    cases result with
    | ok => exact pure _ fun _ _ => ⟨⟩
    | error => exact throw _
  | writeText text _ ih =>
    exact bind (attempt (write text)) fun r n hn _ => ih r ((hscript r).mono hn)
  | writeValue v _ ih =>
    exact bind (attempt (writeValue v)) fun r n hn _ => ih r ((hscript r).mono hn)
  | renderBody _ ih =>
    exact bind (attempt (hbody _)) fun r n hn _ => ih r ((hscript r).mono hn)
  | renderToText _ ih =>
    exact bind (attempt (captured (hbody _))) fun r n hn _ => ih r ((hscript r).mono hn)
  | lookup name _ ih =>
    exact bind (ofEval (.lookup scope name)) fun v n hn hv => ih v (hscript n v hn hv)
  | bind name v _ ih =>
    exact bind (bindName hscript.1 scope name) fun _ n hn _ => ih (hscript.2.mono hn)
  | inspect _ ih => exact heap fun h hh hsize => ih h (hscript h hh hsize)
  | update change _ ih =>
    intro st hm hlib hsize
    obtain ⟨honward, hnext⟩ := hscript st.memory.heap hm.heap hsize
    have hmid := hm.onHeap honward
    obtain ⟨hafter, hlib', -⟩ := ih hnext
      { st with memory := { st.memory with heap := change st.memory.heap } } hmid.clear hlib
      (Nat.le_refl _)
    exact ⟨hmid.trans hafter, hlib', fun _ _ => ⟨⟩⟩

end Render.Passes

/-! ### Statements -/

/-- **Runs leave alone what is set aside.** In a library of what is compiled, a sound statement
leaves the maps that are set aside as they are and aside, however it ends: no variable is one of
them behind it, and none is stored. -/
theorem Statement.exec_passes (honest : config.Honest) (fuel : Nat)
    {functions : Assoc TemplateFunction} {s : Statement}
    (hfunctions : ∀ e ∈ functions.entries, e.2.body.Sound config) (hs : s.Sound config)
    (scope : ScopeId) (size : Nat) :
    (s.exec config fuel functions scope).Keeps config aside size := by
  have hP := handedOn_sound config
  -- By induction on the fuel: a statement runs the statements in it, and those of the functions and
  -- files it finds, with less.
  induction fuel generalizing functions s scope size with
  | zero => exact .throw _
  | succ fuel ih =>
    have here {s : Statement} (hs : s.Sound config) := @ih functions s hfunctions hs
    have hliteral := hs.literal
    cases s with
    | nothing | definition name => exact .pure _ fun _ _ => ⟨⟩
    | text content => exact .write content
    | output value =>
      exact .bind (.eval honest scope (hliteral value (List.mem_singleton_self _))) fun v _ _ _ =>
        .writeValue v
    | condition test yes no =>
      obtain ⟨htest, -⟩ := List.forall_mem_cons.mp hliteral
      refine .bind (.holds honest scope htest) fun holds _ _ _ => ?_
      split
      · exact here (hP.condition hs).1 scope _
      · exact here (hP.condition hs).2 scope _
    | loop head body otherwise =>
      obtain ⟨hhead, -⟩ := List.forall_mem_append.mp hliteral
      refine .inFrame (fun frame => ?_) scope
      refine .bind (.runLoop (here (hP.loop hs).1 frame) honest hhead fuel scope frame)
        fun ran n _ _ => ?_
      split
      · exact .pure _ fun _ _ => ⟨⟩
      · exact here (hP.loop hs).2 frame n
    | switch subject cases otherwise =>
      obtain ⟨hsubject, hparts⟩ := List.forall_mem_cons.mp hliteral
      obtain ⟨hvalues, -⟩ := List.forall_mem_append.mp hparts
      obtain ⟨hcases, hotherwise⟩ := hP.switch hs
      exact .bind (.eval honest scope hsubject) fun v _ _ _ =>
        .bind (.chooseCase honest scope
          (fun _ _ hmem e he => hvalues e (mem_exprsOfCases hmem (.inl he))) hcases hotherwise v)
          fun body n _ hbody => here hbody scope n
    | call callee args ifDefined location =>
      obtain ⟨hcallee, hargs⟩ := List.forall_mem_append.mp hliteral
      refine .bind (.calleeName honest scope hcallee location) fun name _ _ _ =>
        .bind (.findFunction hfunctions (fun unit hunit => hunit.sound) name)
          fun found n _ hfound => ?_
      split
      next f =>
        refine .bind (.arguments honest scope f hargs location) fun values n' _ hvalues =>
          .confined (fun frame => ?_) scope
        exact .bind (.bindAll frame fun p hp => hvalues _ (List.of_mem_zip hp).2) fun _ n'' _ _ =>
          here (hfound f rfl) frame n''
      · split
        · exact .pure _ fun _ _ => ⟨⟩
        · exact .throw _
    | inlined assignments body =>
      obtain ⟨hassignments, -⟩ := List.forall_mem_append.mp hliteral
      refine .confined (fun frame => ?_) scope
      exact .bind (.assign honest frame .inner hassignments) fun _ n _ _ =>
        here (hP.inlined hs) frame n
    | render file assignments site location =>
      -- The functions at hand are those of the rendered file from here on.
      refine .bind (.rendered site file location) fun unit _ _ hunit =>
        .confined (fun frame => ?_) scope
      exact .bind (.assign honest frame .inner hliteral) fun _ n _ _ =>
        ih hunit.sound.functions hunit.sound.body frame n
    | assign policy assignments => exact .assign honest scope policy hliteral
    | jump kind => exact .setJump kind
    | custom directive args body location =>
      obtain ⟨hargs, -⟩ := List.forall_mem_append.mp hliteral
      have hknown : config.Knows directive := by
        cases hs.alike with
        | custom _ _ hknown _ => exact hknown
      exact .bind (.evalAll honest scope hargs) fun values n _ hvalues =>
        .runScript (here (hP.custom hs) scope)
          (honest.directives directive hknown aside n location values hvalues) scope
    | block statements =>
      exact .runBlock fun s hmem => here (hP.block hs s hmem) scope

end Stencil
