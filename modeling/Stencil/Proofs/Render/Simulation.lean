import Stencil.Proofs.Render.Composition

/-!
# Runs that differ in their frames

What frames are good for is to look names up in them and to bind names. So if the frames of two
states are related in a way that lookups in corresponding frames do not notice, and that
assignments, and opening and dropping frames, keep (`Simulation`), a statement does the same in both
states: it ends in the same way, writes the same, leaves the same heap, library and files, and
frames that are related as before.

Two lookups have to agree on the names that the first run reads only, and assignments have to keep
the relation only where the first run makes them. So a simulation is one of the runs whose record
consists of certain moments, for example of those that read some names only (`Moment.Within`).

Main definitions: `Simulation`, `RenderState.Matches`, `Moment.Within`.
Main statements: `Simulation.exec`, `Simulation.render`.
-/

namespace Stencil

open Render

/-- A relation of the frames of two runs, of which `M` tells the corresponding ones, as long as the
moments of the first run are those of `P`. -/
structure Simulation (shared : Assoc Value) (M : Matching) (P : Moment → Prop)
    (T : Scopes → Scopes → Prop) : Prop where
  reads : ∀ {place : Place} {s : Statement} {before after : RenderState}
    {result : Except Stop Unit}, P (.executed place s before result after) →
    ∀ name, s.Reads name → M.names name
  get : ∀ {s s' : Scopes} {i i' : ScopeId} {name : String} {m : Memory}, P (.read i name m) →
    T s s' → M.sees i i' → M.names name → s.get shared i name = s'.get shared i' name
  set : ∀ {s s' : Scopes} {i i' : ScopeId} {policy : Policy} {name : String} {value : Value}
    {m : Memory}, P (.written policy i name value m) →
    T s s' → M.sees i i' → (policy = .inner → M.owns i i') →
    T (s.set policy i name value) (s'.set policy i' name value)
  push : ∀ {s s' : Scopes} {i i' : ScopeId}, T s s' → M.sees i i' →
    T (s.push i).2 (s'.push i').2 ∧ M.owns s.frames.size s'.frames.size
  pop : ∀ {s s' : Scopes} {i i' : ScopeId}, T s s' → M.owns i i' → T (s.pop i) (s'.pop i')

variable {T : Scopes → Scopes → Prop}

/-- Two memories are the same but for their frames, which are related; assignments go where `policy`
says. -/
structure Memory.Matches (T : Scopes → Scopes → Prop) (policy : Policy) (m m' : Memory) : Prop where
  heap : m.heap = m'.heap
  scopes : T m.scopes m'.scopes
  control : m.control = m'.control
  inForce : m.control.policy = policy

/-- Two states are the same but for their frames, which are related; assignments go to the nearest
frame. -/
structure RenderState.Matches (T : Scopes → Scopes → Prop) (st st' : RenderState) : Prop where
  memory : st.memory.Matches T .nearest st'.memory
  output : st.output = st'.output
  library : st.library = st'.library
  files : st.files = st'.files

/-- A statement that is executed reads some names only. -/
def Moment.Within (names : String → Prop) : Moment → Prop
  | .executed _ s .. => ∀ name, s.Reads name → names name
  | _ => True

/-- If any name may be read, every moment is within the names. -/
theorem Moment.within {names : String → Prop} (h : ∀ name, names name) (moment : Moment) :
    moment.Within names := by
  cases moment with
  | executed => exact fun name _ => h name
  | _ => exact ⟨⟩

namespace Recorded

variable {σ τ ε ε' α β : Type} {rel : σ → σ → Prop} {P : Moment → Prop}

/-- An action does not tell related states apart. -/
def Blind (rel : σ → σ → Prop) (act : ExceptT ε (StateM σ) α) : Prop :=
  ∀ s s', rel s s' → (act s).1 = (act s').1 ∧ rel (act s).2 (act s').2

/-- From related states, an action ends as the recorded one does, in related states, provided that
the record is one of certain moments. -/
def Simulates (rel : σ → σ → Prop) (P : Moment → Prop) (x : Recorded σ ε α)
    (y : ExceptT ε (StateM σ) α) : Prop :=
  ∀ s s', rel s s' → (∀ moment ∈ x.record s, P moment) →
    (x.outcome s).1 = (y s').1 ∧ rel (x.outcome s).2 (y s').2

namespace Simulates

/-- One action behind another: the second begins in states that the first has left related. -/
theorem bind {x : Recorded σ ε α} {y : ExceptT ε (StateM σ) α} {f : α → Recorded σ ε β}
    {g : α → ExceptT ε (StateM σ) β} (hx : x.Simulates rel P y)
    (hf : ∀ a, (f a).Simulates rel P (g a)) : (x >>= f).Simulates rel P (y >>= g) := by
  intro s s' hs hP
  rw [record_bind] at hP
  rw [outcome_bind]
  change _ = (match y s' with | (result, after) => ExceptT.bindCont g result after).1 ∧
    rel _ (match y s' with | (result, after) => ExceptT.bindCont g result after).2
  rcases houtcome : x.outcome s with ⟨result, after⟩
  rcases hrun : y s' with ⟨result', after'⟩
  rw [houtcome] at hP
  -- the first fails on both sides, or it goes well on both
  cases result with
  | error e =>
    obtain ⟨hresult, hafter⟩ := hx s s' hs hP
    rw [houtcome, hrun] at hresult hafter
    obtain rfl : .error e = result' := hresult
    exact ⟨rfl, hafter⟩
  | ok a =>
    obtain ⟨hhere, hlater⟩ := List.forall_mem_append.mp hP
    obtain ⟨hresult, hafter⟩ := hx s s' hs hhere
    rw [houtcome, hrun] at hresult hafter
    obtain rfl : .ok a = result' := hresult
    exact hf a after after' hafter hlater

/-- What runs on a state that is made from the one at hand. -/
theorem inside {rel' : τ → τ → Prop} {x : Recorded τ ε α} {y : ExceptT ε (StateM τ) α}
    {act : ExceptT ε' (StateM σ) β} {enter : σ → τ}
    {leave : σ → Except ε α × τ → Except ε' β × σ} (hx : x.Simulates rel' P y)
    (hact : ∀ s, act s = leave s (y (enter s)))
    (henter : ∀ {s s'}, rel s s' → rel' (enter s) (enter s'))
    (hleave : ∀ {s s' t t'} (result : Except ε α), rel s s' → rel' t t' →
      (leave s (result, t)).1 = (leave s' (result, t')).1 ∧
        rel (leave s (result, t)).2 (leave s' (result, t')).2) :
    (inside enter leave x).Simulates rel P act := by
  intro s s' hs hP
  obtain ⟨hresult, hafter⟩ := hx (enter s) (enter s') (henter hs) hP
  rw [hact]
  -- what the inner run leaves is put back on both sides
  rcases hrun : y (enter s') with ⟨result, after⟩
  rw [hrun] at hresult hafter
  have houtcome : (Recorded.inside enter leave x).outcome s =
      leave s (result, (x.outcome (enter s)).2) := by
    rw [← show (x.outcome (enter s)).1 = result from hresult]
    rfl
  rw [houtcome]
  exact hleave result hs hafter

/-- An action of which no note is taken. -/
theorem silent {act : ExceptT ε (StateM σ) α} (h : Blind rel act) :
    (Recorded.silent act).Simulates rel P act := fun s s' hs _ => h s s' hs

/-- Notes of what is read, written or directed do nothing. -/
theorem noted {moment : σ → Moment} {x : Recorded σ ε α} {y : ExceptT ε (StateM σ) α}
    (hx : x.Simulates rel P y) : (note moment >>= fun _ => x).Simulates rel P y :=
  fun s s' hs hP => hx s s' hs fun m hm => hP m (List.mem_cons_of_mem _ hm)

/-- A moment that is noted does not matter for what is done. -/
theorem noting {moment : σ → Except ε α → σ → Moment} {x : Recorded σ ε α}
    {y : ExceptT ε (StateM σ) α} (hx : x.Simulates rel P y) :
    (noting moment x).Simulates rel P y :=
  fun s s' hs hP => hx s s' hs fun m hm => hP m (List.mem_append_left _ hm)

/-- An attempt simulates an attempt. -/
theorem attempt {rel : RenderState → RenderState → Prop} {x : Recorded RenderState Stop α}
    {y : Render α} (hx : x.Simulates rel P y) : x.attempt.Simulates rel P (Render.attempt y) := by
  refine inside hx (fun _ => rfl) id fun result hst hafter => ?_
  rcases result with (_ | _ | error) | a <;> exact ⟨rfl, hafter⟩

/-- An evaluation within a run. -/
theorem ofEval {x : Recorded Memory Error α} {y : Eval α}
    (hx : x.Simulates (Memory.Matches T .nearest) P y) :
    (Recorded.ofEval x).Simulates (RenderState.Matches T) P (Render.ofEval y) := by
  refine inside hx (fun _ => rfl) (fun hst => hst.memory) fun result hst hafter => ?_
  exact ⟨rfl, hafter, hst.output, hst.library, hst.files⟩

/-- A captured body, with an output of its own on both sides. -/
theorem captured {x : Recorded RenderState Stop Unit} {y : Render Unit}
    (hx : x.Simulates (RenderState.Matches T) P y) :
    x.captured.Simulates (RenderState.Matches T) P (Render.captured y) := by
  refine inside hx (fun _ => rfl) (fun hst => ⟨hst.memory, rfl, hst.library, hst.files⟩)
    fun result hst hafter => ?_
  refine ⟨?_, hafter.memory, hst.output, hafter.library, hafter.files⟩
  dsimp only
  rw [hafter.output]

end Simulates

/-! ### Steps that reach no frame -/

namespace Blind

/-- Blind actions go on with blind actions. -/
theorem bind {x : ExceptT ε (StateM σ) α} {f : α → ExceptT ε (StateM σ) β}
    (hx : Blind rel x) (hf : ∀ a, Blind rel (f a)) : Blind rel (x >>= f) := by
  intro s s' hs
  have hboth := Simulates.bind (P := fun _ => True) (.silent hx) (fun a => .silent (hf a)) s s' hs
    fun _ _ => ⟨⟩
  have hfaithful : Faithful {} (Recorded.silent x >>= fun a => .silent (f a)) (x >>= f) :=
    .bind (.silent x) fun a => .silent (f a)
  rwa [hfaithful.outcome s] at hboth

/-- What reads and changes nothing but the heap does not notice the frames. -/
theorem heapOnly {act : Eval α} (h : act.HeapOnly) (policy : Policy) :
    Blind (Memory.Matches T policy) act := by
  induction h with
  | pure | throw | heap | onHeap =>
    rintro ⟨heap, scopes, control⟩ ⟨_, scopes', _⟩ ⟨rfl, hscopes, rfl, hpolicy⟩
    exact ⟨rfl, rfl, hscopes, rfl, hpolicy⟩
  | bind _ _ hx hf => exact bind hx hf

/-- A quiet action does not notice the frames. -/
theorem quiet {config : Config} {act : Render α} (h : Render.Quiet config act) :
    Blind (RenderState.Matches T) act := by
  -- by induction on how the action is put together
  induction h with
  | pure | throw | heap | onHeap | updateHeap | jump | write | writeValue | flush | rendered =>
    rintro ⟨⟨heap, scopes, control⟩, output, library, files⟩ ⟨⟨_, scopes', _⟩, _, _, _⟩
      ⟨⟨rfl, hscopes, rfl, hpolicy⟩, rfl, rfl, rfl⟩
    exact ⟨rfl, ⟨rfl, hscopes, rfl, hpolicy⟩, rfl, rfl, rfl⟩
  | attempt _ hact =>
    exact fun st st' hst => Simulates.attempt (P := fun _ => True) (.silent hact) st st' hst
      fun _ _ => ⟨⟩
  | findFunction functions name =>
    unfold Config.findFunction
    -- a function of the template at hand is found without a look at the state
    split
    · exact fun _ _ hst => ⟨rfl, hst⟩
    · rintro ⟨memory, output, library, files⟩ ⟨memory', _, _, _⟩ ⟨hmemory, rfl, rfl, rfl⟩
      exact ⟨rfl, hmemory, rfl, rfl, rfl⟩
  | bind _ _ hx hf => exact bind hx hf

/-! Jumps are no matter of frames. -/

/-- A jump statement does not notice the frames. -/
theorem setJump (kind : Jump) : Blind (RenderState.Matches T) (setJump kind) := by
  rintro ⟨⟨heap, scopes, control⟩, output, library, files⟩ ⟨⟨_, scopes', _⟩, _, _, _⟩
    ⟨⟨rfl, hscopes, rfl, hpolicy⟩, rfl, rfl, rfl⟩
  exact ⟨rfl, ⟨rfl, hscopes, rfl, hpolicy⟩, rfl, rfl, rfl⟩

/-- Nor does a loop that takes up a jump. -/
theorem takeLoopJump : Blind (RenderState.Matches T) takeLoopJump := by
  refine bind (quiet (@Render.Quiet.jump {})) fun kind => ?_
  cases kind with
  | none | «return» => exact fun _ _ hst => ⟨rfl, hst⟩
  | «continue» | «break» => exact bind (setJump .none) fun _ _ _ hst => ⟨rfl, hst⟩

end Blind

end Recorded

namespace Simulation

variable {config : Config} {M : Matching} {i i' : ScopeId} {P : Moment → Prop} {α : Type}
  (S : Simulation config.host.objects M P T)

include S

/-! ### Evaluations -/

/-- A name that may be read is read alike from frames that see the same. -/
theorem lookup (hsees : M.sees i i') {name : String} (hname : M.names name) (policy : Policy) :
    (Recorded.lookup config.host i name).Simulates (Memory.Matches T policy) P
      (Eval.lookup config.host i' name) :=
  fun _ _ hm hP => ⟨congrArg Except.ok (S.get (hP _ List.mem_cons_self) hm.scopes hsees hname), hm⟩

/-- A name is assigned to in corresponding frames. -/
theorem assign (hsees : M.sees i i') {policy : Policy} (howns : policy = .inner → M.owns i i')
    (name : String) (value : Value) :
    (Recorded.assign i name value).Simulates (Memory.Matches T policy) P
      (Eval.assign i' name value) := by
  rintro ⟨heap, scopes, control⟩ ⟨_, scopes', _⟩ ⟨rfl, hscopes, rfl, rfl⟩ hP
  exact ⟨rfl, rfl, S.set (hP _ List.mem_cons_self) hscopes hsees howns, rfl, rfl⟩

/-- Evaluations in corresponding frames do the same. Under the policy for the frame at hand, this
frame has to correspond in its own bindings. -/
theorem evalsCorrespond (hsees : M.sees i i') :
    EvalsCorrespond config.host M i i' fun {_} x y => ∀ policy, (policy = .inner → M.owns i i') →
      x.Simulates (Memory.Matches T policy) P y where
  silent h policy _ := .silent (.heapOnly h policy)
  memory {_ f g} hf hg policy howns := by
    rintro ⟨heap, scopes, control⟩ ⟨_, scopes', _⟩ ⟨rfl, hscopes, rfl, hpolicy⟩ hP
    -- The second run goes on with its own memory, but does not look at the frames in it.
    have hsame : g ⟨heap, scopes', control⟩ = g ⟨heap, scopes, control⟩ :=
      hg ⟨heap, scopes, control⟩ scopes'
    have hrest := hf ⟨heap, scopes, control⟩ policy howns ⟨heap, scopes, control⟩
      ⟨heap, scopes', control⟩ ⟨rfl, hscopes, rfl, hpolicy⟩ hP
    rw [← hsame] at hrest
    exact hrest
  bind hx hf policy howns := .bind (hx policy howns) fun a => hf a policy howns
  lookup hname policy _ := S.lookup hsees hname policy
  assign name value _ howns := S.assign hsees howns name value
  withNullSafe h policy howns := by
    refine .inside (h policy howns) (fun _ => rfl) ?_ ?_
    · exact fun hm => ⟨hm.heap, hm.scopes,
        congrArg (fun c => { c with nullSafe := true }) hm.control, hm.inForce⟩
    · intro m m' t t' result hm ht
      refine ⟨rfl, ht.heap, ht.scopes, ?_, ht.inForce⟩
      dsimp only
      rw [ht.control, hm.control]
  withPolicy {_ policy' _ _} howns' h policy howns := by
    refine .inside (h policy' howns') (fun _ => rfl) ?_ ?_
    · exact fun hm => ⟨hm.heap, hm.scopes,
        congrArg (fun c => { c with policy := policy' }) hm.control, rfl⟩
    · intro m m' t t' result hm ht
      refine ⟨rfl, ht.heap, ht.scopes, ?_, hm.inForce⟩
      dsimp only
      rw [ht.control, hm.control]
  noting h policy howns := .noting (h policy howns)

/-! ### Statements -/

/-- A name is bound in frames that own the same. -/
theorem bindName (howns : M.owns i i') (name : String) (value : Value) :
    (Recorded.bindName i name value).Simulates (RenderState.Matches T) P
      (Render.bind i' name value) := by
  rintro ⟨⟨heap, scopes, control⟩, output, library, files⟩ ⟨⟨_, scopes', _⟩, _, _, _⟩
    ⟨⟨rfl, hscopes, rfl, hpolicy⟩, rfl, rfl, rfl⟩ hP
  -- A binding is an assignment to the frame at hand.
  have hbound : T (scopes.set .inner i name value) (scopes'.set .inner i' name value) :=
    S.set (hP _ List.mem_cons_self) hscopes (M.sees_of_owns howns) fun _ => howns
  exact ⟨rfl, ⟨rfl, hbound, rfl, hpolicy⟩, rfl, rfl, rfl⟩

/-- Frames are opened in frames that see the same. -/
theorem inFrame (hsees : M.sees i i') {x : ScopeId → Recorded RenderState Stop α}
    {y : ScopeId → Render α}
    (h : ∀ frame frame', M.owns frame frame' →
      (x frame).Simulates (RenderState.Matches T) P (y frame')) :
    (Recorded.inFrame i x).Simulates (RenderState.Matches T) P (Render.inFrame i' y) := by
  intro st st' hst hP
  obtain ⟨hpushed, howns⟩ := S.push hst.memory.scopes hsees
  have hopened : (st.opened i).Matches T (st'.opened i') :=
    ⟨⟨hst.memory.heap, hpushed, hst.memory.control, hst.memory.inForce⟩, hst.output, hst.library,
      hst.files⟩
  obtain ⟨hresult, hafter⟩ := h _ _ howns _ _ hopened hP
  exact ⟨hresult, ⟨hafter.memory.heap, S.pop hafter.memory.scopes howns, hafter.memory.control,
    hafter.memory.inForce⟩, hafter.output, hafter.library, hafter.files⟩

/-- Likewise for a confined action. -/
theorem confined (hsees : M.sees i i') {x : ScopeId → Recorded RenderState Stop α}
    {y : ScopeId → Render α}
    (h : ∀ frame frame', M.owns frame frame' →
      (x frame).Simulates (RenderState.Matches T) P (y frame')) :
    (Recorded.confined i x).Simulates (RenderState.Matches T) P (Render.confined i' y) := by
  refine .inside (S.inFrame hsees h) (fun _ => rfl) id fun result hst hafter => ⟨rfl, ?_⟩
  exact (Recorded.Blind.setJump .none _ _ hafter).2

/-- Renders do the same. -/
theorem runsCorrespond :
    RunsCorrespond config M
      (fun i i' {_} x y => ∀ policy, (policy = .inner → M.owns i i') →
        x.Simulates (Memory.Matches T policy) P y)
      (fun _ _ _ _ {_} x y => x.Simulates (RenderState.Matches T) P y) where
  parts houter htop :=
    { evalsOuter := S.evalsCorrespond houter
      evalsTop := S.evalsCorrespond htop
      silent := fun h => .silent (.quiet h)
      bind := .bind
      evalOuter := fun h => .ofEval (h .nearest nofun)
      evalTop := fun h => .ofEval (h .nearest nofun)
      bindName := S.bindName }
  setJump kind := .silent (.setJump kind)
  takeLoopJump := .silent .takeLoopJump
  attempt := .attempt
  captured := .captured
  inFrame hsees h := S.inFrame hsees h
  confined hsees h := S.confined hsees h
  noting loops _ h := by
    -- the moment of the whole comes last, and is within the names as all others are
    intro st st' hst hP
    obtain ⟨hinner, hlast⟩ := List.forall_mem_append.mp hP
    exact h (S.reads (hlast _ List.mem_cons_self)) st st' hst hinner
  directed bodies result := .noted (.silent (.quiet (@Render.Quiet.ofExcept config _ result)))

/-- **Frames that are related make no difference.** A statement that runs in corresponding frames
of states that differ in their frames only ends in the same way and leaves such states. If the
frames correspond in what they see only, the statement must not bind anything there. -/
theorem exec_apart (fuel : Nat) (functions : Assoc TemplateFunction) (s : Statement)
    (hsees : M.sees i i') (hs : M.owns i i' ∨ s.isPlain ∨ s.opensFrame) (loops : Nat)
    {st st' : RenderState} (hst : st.Matches T st')
    (hP : ∀ moment ∈ (Recorded.exec config fuel functions s i loops).record st, P moment) :
    ((s.exec config fuel functions i).runOn st).1 =
        ((s.exec config fuel functions i').runOn st').1 ∧
      ((s.exec config fuel functions i).runOn st).2.Matches T
        ((s.exec config fuel functions i').runOn st').2 := by
  have hsame := S.runsCorrespond.exec fuel functions s hsees hsees hs loops st st' hst hP
  rw [(Recorded.exec_faithful config fuel functions s i loops).outcome] at hsame
  exact hsame

/-- The same for statements that bind nothing in the frame at hand. -/
theorem exec (fuel : Nat) (functions : Assoc TemplateFunction) (s : Statement)
    (hsees : M.sees i i') (hs : M.owns i i' ∨ s.isPlain) {st st' : RenderState}
    (hst : st.Matches T st')
    (hP : ∀ moment ∈ (Recorded.exec config fuel functions s i 0).record st, P moment) :
    ((s.exec config fuel functions i).runOn st).1 =
        ((s.exec config fuel functions i').runOn st').1 ∧
      ((s.exec config fuel functions i).runOn st).2.Matches T
        ((s.exec config fuel functions i').runOn st').2 :=
  S.exec_apart fuel functions s hsees (hs.imp_right .inl) 0 hst hP

/-- The same for renders. -/
theorem render (fuel : Nat) (unit : Compiled) (howns : M.owns 0 0) {st st' : RenderState}
    (hst : st.Matches T st') (hP : ∀ moment ∈ (unit.recorded config fuel).record st, P moment) :
    ((unit.render config fuel).runOn st).1 = ((unit.render config fuel).runOn st').1 ∧
      ((unit.render config fuel).runOn st).2.Matches T ((unit.render config fuel).runOn st').2 := by
  have hsame := S.runsCorrespond.render fuel unit howns st st' hst hP
  rw [(unit.recorded_faithful config fuel).outcome] at hsame
  exact hsame

end Simulation

end Stencil
