import Stencil.Proofs.Render.Restoration

/-!
# The frames of a render are a stack

Frames are kept in an array and name their parents by number, so nothing in their type says that the
way from a frame outwards ends, or that a number that is handed on still belongs to a frame. In a
render both hold at all times: the parent of a frame is the frame below it (`Scopes.Stacked`), and
every frame that a statement or an expression names is there.

* A block pushes its frame while the frame it runs in is the innermost one, and drops it again
  before anything else happens. So the numbers that are alive are those below the number of frames.
* In a stack of frames the way outwards is known (`Scopes.Trail`), hence what a name stands for and
  where an assignment goes (`Scopes.ActsAsStack`).

The states in the middle of a render are those of its record, which has a moment for everything that
is executed, evaluated, looked up and assigned to (`Compiled.recorded_complete` in
`Stencil.Proofs.Render.Completeness`).

Main definitions: `Scopes.Stacked`, `Scopes.ActsAsStack`, `Moment.sights`.
Main statements: `Scopes.Stacked.actsAsStack`, `frames_act_as_stack`.
-/

namespace Stencil

/-! ### Stacks of frames -/

namespace Scopes

/-- A frame of a stack and those below it, outwards. -/
def outwards : ScopeId → List ScopeId
  | 0 => [0]
  | scope + 1 => (scope + 1) :: outwards scope

/-- Outwards from a frame come the frames up to it. -/
theorem mem_outwards {i scope : ScopeId} : i ∈ outwards scope ↔ i ≤ scope := by
  induction scope with
  | zero => rw [outwards, List.mem_singleton, Nat.le_zero]
  | succ scope ih => rw [outwards, List.mem_cons, ih, Nat.le_succ_iff, or_comm]

/-- The frame below a frame. Frame `0` is the lowest. -/
def below? : ScopeId → Option ScopeId
  | 0 => none
  | scope + 1 => some scope

/-- There is a frame `0`, it alone has no parent, and the parent of every other frame is the frame
below it. -/
structure Stacked (s : Scopes) : Prop where
  root : 0 < s.frames.size
  link : ∀ {scope}, scope < s.frames.size → s.link? scope = some (below? scope)

/-- The way from a frame along the parent links, up to a frame that has no parent. -/
inductive Trail (s : Scopes) : ScopeId → List ScopeId → Prop where
  | last {scope : ScopeId} : s.link? scope = some none → Trail s scope [scope]
  | onwards {scope parent : ScopeId} {rest : List ScopeId} :
      s.link? scope = some (some parent) → Trail s parent rest → Trail s scope (scope :: rest)

/-- The binding that a frame itself has of a name. -/
def slot? (s : Scopes) (scope : ScopeId) (name : String) : Option Value :=
  s.frames[scope]?.bind (·.bindings.get? name)

theorem size_push (s : Scopes) (parent : ScopeId) :
    (s.push parent).2.frames.size = s.frames.size + 1 := Array.size_push _

/-- A binding changes one slot, if there is the frame. -/
theorem slot?_bind_of_link (s : Scopes) (scope : ScopeId) (name : String) (value : Value)
    (i : ScopeId) (k : String) :
    (s.bind scope name value).slot? i k =
      if i = scope ∧ k = name then (s.link? i).map fun _ => value else s.slot? i k := by
  unfold slot? link? bind
  rw [Array.getElem?_modify]
  by_cases hi : i = scope
  · subst hi
    rw [if_pos rfl]
    cases s.frames[i]? with
    | none => split <;> rfl
    | some frame => simp only [Option.map_some, Option.bind_some, Assoc.get?_insert, true_and]
  · rw [if_neg fun h => hi h.symm, if_neg fun h => hi h.1]

/-- A binding changes the slot that it binds, and no other. -/
theorem slot?_bind (s : Scopes) {scope : ScopeId} (h : scope < s.frames.size) (name : String)
    (value : Value) (i : ScopeId) (k : String) :
    (s.bind scope name value).slot? i k =
      if i = scope ∧ k = name then some value else s.slot? i k := by
  rw [slot?_bind_of_link]
  split
  next hi =>
    unfold link?
    rw [hi.1, Array.getElem?_eq_getElem h]
    rfl
  · rfl

/-- A new frame binds nothing. -/
theorem slot?_push (s : Scopes) (parent : ScopeId) (i : ScopeId) (name : String) :
    (s.push parent).2.slot? i name = s.slot? i name := by
  unfold slot? push
  dsimp only
  rw [Array.getElem?_push]
  split
  next h =>
    subst h
    rw [Array.getElem?_size]
    rfl
  · rfl

/-- The frames below a frame that is dropped stay. -/
theorem getElem?_pop (s : Scopes) {scope : ScopeId} (h : 0 < scope) (i : ScopeId) :
    (s.pop scope).frames[i]? = if i < scope then s.frames[i]? else none := by
  unfold pop
  rw [if_pos h, Array.take_eq_extract, ← Array.getElem?_toList, Array.toList_extract,
    List.extract_eq_take_drop, List.drop_zero, Nat.sub_zero, List.getElem?_take,
    Array.getElem?_toList]

/-- Frames that are dropped bind nothing, and those below are as they were. -/
theorem slot?_pop (s : Scopes) {scope : ScopeId} (h : 0 < scope) (i : ScopeId) (name : String) :
    (s.pop scope).slot? i name = if i < scope then s.slot? i name else none := by
  unfold slot?
  rw [getElem?_pop s h]
  split <;> rfl

/-- The holder of a name is looked for in a frame, then from its parent on. -/
theorem holder?_of_link (s : Scopes) (scope : ScopeId) (name : String) :
    s.holder? scope name = (s.link? scope).bind fun parent =>
      if (s.slot? scope name).isSome then some scope
      else parent.bind fun i => if i < scope then s.holder? i name else none := by
  rw [holder?]
  unfold link? slot?
  cases s.frames[scope]? with
  | none => rfl
  -- the name is in this frame, or it is looked for from the parent on
  | some frame =>
    have hname : (frame.bindings.get? name).isSome = frame.bindings.contains name :=
      Bool.eq_iff_iff.mpr (frame.bindings.isSome_get?_iff name)
    simp only [Option.map_some, Option.bind_some, hname]
    cases frame.parent with
    | none => rfl
    | some i => rfl

/-- The binding of a name is the slot of its holder. -/
theorem binding?_of_holder (s : Scopes) (scope : ScopeId) (name : String) :
    s.binding? scope name = (s.holder? scope name).bind (s.slot? · name) := rfl

/-- Where an assignment from within a frame is to go: to the topmost frame below that has the name
already, else to frame `0`; to the frame itself; to frame `0`. -/
def destination (s : Scopes) (scope : ScopeId) (name : String) : Policy → ScopeId
  | .nearest => ((outwards scope).find? fun i => (s.slot? i name).isSome).getD 0
  | .inner => scope
  | .root => 0

namespace Stacked

variable {s : Scopes} (h : s.Stacked)

include h

/-- From a frame of a stack the way along the parent links visits every frame below it. -/
theorem trail {scope : ScopeId} (hscope : scope < s.frames.size) :
    s.Trail scope (outwards scope) := by
  induction scope with
  | zero => exact .last (h.link hscope)
  | succ scope ih => exact .onwards (h.link hscope) (ih (Nat.lt_of_succ_lt hscope))

/-- The holder of a name is looked for in a frame, then from the frame below it on. -/
theorem holder?_step {scope : ScopeId} (hscope : scope < s.frames.size) (name : String) :
    s.holder? scope name =
      if (s.slot? scope name).isSome then some scope
      else (below? scope).bind (s.holder? · name) := by
  rw [holder?_of_link, h.link hscope, Option.bind_some]
  cases scope with
  | zero => rfl
  | succ scope =>
    dsimp only [below?, Option.bind_some]
    rw [if_pos (Nat.lt_succ_self scope)]

/-- The holder of a name is the topmost frame that has it. -/
theorem holder?_eq {scope : ScopeId} (hscope : scope < s.frames.size) (name : String) :
    s.holder? scope name = (outwards scope).find? fun i => (s.slot? i name).isSome := by
  induction scope with
  | zero =>
    rw [h.holder?_step hscope, outwards, List.find?_cons]
    cases (s.slot? 0 name).isSome <;> rfl
  | succ scope ih =>
    rw [h.holder?_step hscope, outwards, List.find?_cons, ← ih (Nat.lt_of_succ_lt hscope)]
    cases (s.slot? (scope + 1) name).isSome <;> rfl

/-- The binding of a name is that of the topmost frame that has it. -/
theorem binding?_eq {scope : ScopeId} (hscope : scope < s.frames.size) (name : String) :
    s.binding? scope name = (outwards scope).findSome? (s.slot? · name) := by
  -- by induction on the frames, from the topmost one down
  induction scope with
  | zero =>
    rw [binding?_of_holder, h.holder?_step hscope, outwards, List.findSome?_cons]
    cases hslot : s.slot? 0 name with
    | none => rfl
    | some v => exact hslot
  | succ scope ih =>
    rw [binding?_of_holder, h.holder?_step hscope, outwards, List.findSome?_cons,
      ← ih (Nat.lt_of_succ_lt hscope)]
    cases hslot : s.slot? (scope + 1) name with
    | none => rfl
    | some v => exact hslot

/-- An assignment goes to its destination. -/
theorem target_eq {scope : ScopeId} (hscope : scope < s.frames.size) (name : String)
    (policy : Policy) : s.target scope name policy = s.destination scope name policy := by
  cases policy with
  | nearest => rw [target, destination, h.holder?_eq hscope]
  | inner => rfl
  | root => rfl

/-- The destination of an assignment is a frame that is there. -/
theorem destination_lt {scope : ScopeId} (hscope : scope < s.frames.size) (name : String)
    (policy : Policy) : s.destination scope name policy < s.frames.size := by
  cases policy with
  | nearest =>
    rw [destination]
    cases hfound : (outwards scope).find? fun i => (s.slot? i name).isSome with
    | none => exact h.root
    | some i => exact Nat.lt_of_le_of_lt (mem_outwards.mp (List.mem_of_find?_eq_some hfound)) hscope
  | inner => exact hscope
  | root => exact h.root

omit h in
/-- Frames with the same parent links are a stack too. -/
theorem of_parents_eq {s' : Scopes} (hparents : s'.parents = s.parents) (h : s.Stacked) :
    s'.Stacked := by
  obtain ⟨hsize, hlinks⟩ := links_of_parents_eq hparents
  refine ⟨?_, fun {scope} hscope => ?_⟩
  · rw [hsize]
    exact h.root
  · rw [hsize] at hscope
    rw [hlinks]
    exact h.link hscope

/-- A frame that is opened in the innermost one goes on top of the stack. -/
theorem push {top : ScopeId} (htop : s.frames.size = top + 1) : (s.push top).2.Stacked := by
  have hlength := s.length_parents
  refine ⟨?_, fun {scope} hscope => ?_⟩
  · rw [size_push]
    exact Nat.succ_pos _
  · rw [size_push] at hscope
    rw [← getElem?_parents, parents_push]
    rcases Nat.lt_succ_iff_lt_or_eq.mp hscope with hlt | rfl
    -- the frames that were there keep their links
    · rw [List.getElem?_append_left (by rwa [hlength]), getElem?_parents]
      exact h.link hlt
    -- the new one is linked to the one that was innermost
    · rw [List.getElem?_append_right (Nat.le_of_eq hlength), hlength, Nat.sub_self, htop]
      rfl

end Stacked

/-- Seen from one of them, the frames act as a stack of dictionaries. -/
structure ActsAsStack (s : Scopes) (scope : ScopeId) : Prop where
  live : scope < s.frames.size
  stacked : s.Stacked
  /-- A lookup visits the frame and those below it, and ends. -/
  trail : s.Trail scope (outwards scope)
  /-- A name is its binding in the topmost frame that has it, also where this is null. Names that
  no frame has are the shared objects, and what is missing there too is null. -/
  get : ∀ shared name, s.get shared scope name =
    (((outwards scope).findSome? (s.slot? · name)).or (shared.get? name)).getD .null
  /-- An assignment changes one slot, in a frame that is there, and no parent link. -/
  set : ∀ policy name value, s.destination scope name policy < s.frames.size ∧
    (s.set policy scope name value).parents = s.parents ∧
    ∀ i k, (s.set policy scope name value).slot? i k =
      if i = s.destination scope name policy ∧ k = name then some value else s.slot? i k

/-- From each of its frames, a stack of frames acts as one. -/
theorem Stacked.actsAsStack {s : Scopes} (h : s.Stacked) {scope : ScopeId}
    (hscope : scope < s.frames.size) : s.ActsAsStack scope where
  live := hscope
  stacked := h
  trail := h.trail hscope
  get shared name := by rw [Scopes.get, h.binding?_eq hscope]
  set policy name value := by
    have hdestination := h.destination_lt hscope name policy
    refine ⟨hdestination, s.parents_set policy scope name value, ?_⟩
    rw [Scopes.set, h.target_eq hscope]
    exact s.slot?_bind hdestination name value

/-- A binding to null hides the binding below it and the shared object of that name. -/
example :
    let s := ((ofData (.ofList [("x", .int 1)])).push 0).2.bind 1 "x" .null
    s.get (.ofList [("x", .int 2)]) 1 "x" = .null ∧
      s.get (.ofList [("x", .int 2)]) 0 "x" = .int 1 := by
  cbv

/-- The frames of a render that has just begun are a stack. -/
theorem stacked_ofData (data : Assoc Value) : (ofData data).Stacked where
  root := Nat.one_pos
  link {scope} hscope := by
    obtain rfl : scope = 0 := Nat.lt_one_iff.mp hscope
    rfl

end Scopes

/-! ### The frames that are named in a run -/

/-- The frames that are named at a moment, each with the memory that it is named in. -/
def Moment.sights : Moment → List (ScopeId × Memory)
  | .executed place _ before _ after =>
    [(place.scope, before.memory), (place.scope, after.memory)]
  | .evaluated scope _ before _ after => [(scope, before), (scope, after)]
  | .read scope _ m => [(scope, m)]
  | .written _ scope _ _ m => [(scope, m)]
  | .directed _ _ => []

/-- At a moment, the frames are a stack, and the frames that are named are there. -/
def Moment.Framed (moment : Moment) : Prop :=
  ∀ sight ∈ moment.sights, sight.2.scopes.Stacked ∧ sight.1 < sight.2.scopes.frames.size

variable {α β : Type}

/-- From a stack of frames with a given one in it, an evaluation meets no other frames. -/
structure Eval.Framed (config : Config) (scope : ScopeId) (x : Recorded Memory Error α)
    (act : Eval α) : Prop where
  faithful : x.Faithful config act
  restores : act.Restores
  framed : ∀ m, m.scopes.Stacked → scope < m.scopes.frames.size →
    ∀ moment ∈ x.record m, moment.Framed

namespace Eval.Framed

variable {config : Config} {scope : ScopeId}

/-- What restores the parent links leaves a stack with the same frames in it. -/
theorem after {x : Recorded Memory Error α} {act : Eval α} (h : Framed config scope x act)
    {m : Memory} (hm : m.scopes.Stacked) (hscope : scope < m.scopes.frames.size) :
    (x.outcome m).2.scopes.Stacked ∧ scope < (x.outcome m).2.scopes.frames.size := by
  obtain ⟨hparents, -⟩ := h.restores m
  have hsize := (Scopes.links_of_parents_eq hparents).1
  rw [h.faithful.outcome]
  exact ⟨hm.of_parents_eq hparents, Nat.lt_of_lt_of_eq hscope hsize.symm⟩

/-- Framed evaluations go on with framed evaluations. -/
theorem bind {x : Recorded Memory Error α} {y : Eval α} {f : α → Recorded Memory Error β}
    {g : α → Eval β} (hx : Framed config scope x y) (hf : ∀ a, Framed config scope (f a) (g a)) :
    Framed config scope (x >>= f) (y >>= g) where
  faithful := hx.faithful.bind fun a => (hf a).faithful
  restores := hx.restores.bind fun a => (hf a).restores
  framed m hm hscope := by
    refine Recorded.forall_record_bind (hx.framed m hm hscope) fun a after houtcome => ?_
    obtain ⟨hafter, hlive⟩ := hx.after hm hscope
    rw [houtcome] at hafter hlive
    exact (hf a).framed after hafter hlive

/-- An action that notes one thing first, about a frame that it names. -/
theorem noted {act : Eval α} {moment : Memory → Moment} (hact : act.Restores)
    (hgenuine : ∀ m, (moment m).Genuine config) (hsights : ∀ m, (moment m).sights = [(scope, m)]) :
    Framed config scope (do Recorded.note moment; .silent act) act where
  faithful := .noted (.silent act) hgenuine
  restores := hact
  framed m hm hscope n hn := by
    obtain rfl : n = moment m := List.mem_singleton.mp hn
    unfold Moment.Framed
    rw [hsights]
    exact List.forall_mem_singleton.mpr ⟨hm, hscope⟩

/-- Evaluations are framed by their rules. -/
theorem evalComposes (config : Config) (scope : ScopeId) :
    EvalComposes config.host scope (Framed config scope) where
  silent h := ⟨.silent _, .quiet h, fun _ _ _ _ hmoment => absurd hmoment List.not_mem_nil⟩
  bind := bind
  lookup name := noted (.lookup config.host scope name) (fun _ => ⟨⟩) fun _ => rfl
  assign name value := noted (.assign scope name value) (fun _ => ⟨⟩) fun _ => rfl
  withNullSafe h := ⟨.inside h.faithful fun _ => rfl, .withNullSafe h.restores,
    fun _ hm hscope => h.framed _ hm hscope⟩
  withPolicy policy _ _ h := ⟨.inside h.faithful fun _ => rfl, .withPolicy policy h.restores,
    fun _ hm hscope => h.framed _ hm hscope⟩
  noting {e x} h := by
    refine ⟨.noting h.faithful fun _ => rfl, h.restores, fun m hm hscope moment hmoment => ?_⟩
    -- a moment of the expression inside, or the expression itself, with two sights of the same
    -- frames
    rcases Recorded.mem_record_noting hmoment with hinner | rfl
    · exact h.framed m hm hscope moment hinner
    · exact List.forall_mem_cons.mpr
        ⟨⟨hm, hscope⟩, List.forall_mem_singleton.mpr (h.after hm hscope)⟩

end Eval.Framed

/-- From a stack of frames with a given one on top and another around it, an action of a render
meets no frames that are not there. -/
structure Render.Framed (config : Config) (outer top : ScopeId) (x : Recorded RenderState Stop α)
    (act : Render α) : Prop where
  faithful : x.Faithful config act
  restores : act.Restores
  framed : outer ≤ top → ∀ st : RenderState, st.memory.scopes.Stacked →
    st.memory.scopes.frames.size = top + 1 → ∀ moment ∈ x.record st, moment.Framed

namespace Render.Framed

variable {config : Config} {outer top : ScopeId}

/-- What restores the parent links leaves a stack with the same frame on top. -/
theorem after {x : Recorded RenderState Stop α} {act : Render α} (h : Framed config outer top x act)
    {st : RenderState} (hst : st.memory.scopes.Stacked)
    (htop : st.memory.scopes.frames.size = top + 1) :
    (x.outcome st).2.memory.scopes.Stacked ∧
      (x.outcome st).2.memory.scopes.frames.size = top + 1 := by
  have hroot : st.memory.scopes.parents ≠ [] := by
    rw [← List.length_pos_iff, Scopes.length_parents]
    exact hst.root
  have hparents := congrArg Skeleton.parents (h.restores st hroot)
  rw [h.faithful.outcome]
  exact ⟨hst.of_parents_eq hparents, (Scopes.links_of_parents_eq hparents).1.trans htop⟩

/-- Framed actions go on with framed actions. -/
theorem bind {x : Recorded RenderState Stop α} {y : Render α} {f : α → Recorded RenderState Stop β}
    {g : α → Render β} (hx : Framed config outer top x y)
    (hf : ∀ a, Framed config outer top (f a) (g a)) :
    Framed config outer top (x >>= f) (y >>= g) where
  faithful := hx.faithful.bind fun a => (hf a).faithful
  restores := hx.restores.bind fun a => (hf a).restores
  framed houter st hst htop := by
    refine Recorded.forall_record_bind (hx.framed houter st hst htop) fun a after houtcome => ?_
    obtain ⟨hafter, hsize⟩ := hx.after hst htop
    rw [houtcome] at hafter hsize
    exact (hf a).framed houter after hafter hsize

/-- A silent action that restores the frames is framed: it has no moment. -/
theorem silent {act : Render α} (h : act.Restores) : Framed config outer top (.silent act) act :=
  ⟨.silent act, h, fun _ _ _ _ _ hmoment => absurd hmoment List.not_mem_nil⟩

/-- Evaluations in a frame up to the innermost one. -/
theorem ofEval {scope : ScopeId} {x : Recorded Memory Error α} {y : Eval α}
    (h : Eval.Framed config scope x y) (hscope : outer ≤ top → scope ≤ top) :
    Framed config outer top (.ofEval x) (Render.ofEval y) where
  faithful := .inside h.faithful fun _ => rfl
  restores := .ofEval h.restores
  framed houter st hst htop := by
    have hlive : scope < st.memory.scopes.frames.size := by
      rw [htop]
      exact Nat.lt_succ_of_le (hscope houter)
    exact h.framed st.memory hst hlive

/-- The frame that is opened goes on top of the frames that are there. -/
theorem inFrame {x : ScopeId → Recorded RenderState Stop α} {y : ScopeId → Render α}
    (h : ∀ frame, Framed config top frame (x frame) (y frame)) :
    Framed config outer top (.inFrame top x) (Render.inFrame top y) where
  faithful := .inFrame (fun frame => (h frame).faithful) top
  restores := .inFrame (fun frame => (h frame).restores) top
  framed _ st hst htop := by
    -- The number of the new frame is the number of the frames there were.
    have habove : top ≤ st.memory.scopes.frames.size := by
      rw [htop]
      exact Nat.le_succ top
    exact (h st.memory.scopes.frames.size).framed habove (st.opened top) (hst.push htop)
      (Scopes.size_push _ top)

/-- Runs are framed by their rules. -/
theorem runComposes (config : Config) :
    RunComposes config (fun scope => Eval.Framed config scope)
      (fun outer top => Framed config outer top) where
  parts _ top :=
    { evals := Eval.Framed.evalComposes config
      silent h := silent (.quiet h)
      bind := bind
      evalTop h := ofEval h fun _ => Nat.le_refl top
      evalOuter h := ofEval h id
      bindName name value :=
        { faithful := .noted (.silent _) fun _ => ⟨⟩
          restores := .bindName top name value
          framed _ st hst htop moment hmoment := by
            obtain rfl := List.mem_singleton.mp hmoment
            exact List.forall_mem_singleton.mpr
              ⟨hst, Nat.lt_of_lt_of_eq (Nat.lt_succ_self top) htop.symm⟩ } }
  setJump kind := .silent (.setJump kind)
  takeLoopJump := .silent .takeLoopJump
  attempt h := ⟨.inside h.faithful fun _ => rfl, .attempt h.restores, h.framed⟩
  captured h := ⟨.inside h.faithful fun _ => rfl, .captured h.restores,
    fun houter st => h.framed houter { st with output := .unlimited }⟩
  inFrame := inFrame
  confined {outer top} _ _ _ h :=
    { faithful := .inside (.inFrame (fun frame => (h frame).faithful) top) fun _ => rfl
      restores := .confined (fun frame => (h frame).restores) top
      framed := (inFrame h : Framed config outer top _ _).framed }
  noting {outer top} _ _ _ _ _ h := by
    refine ⟨.noting h.faithful fun _ => rfl, h.restores, ?_⟩
    intro houter st hst htop moment hmoment
    -- a moment inside, or the statement itself, of which both ends are sights
    rcases Recorded.mem_record_noting hmoment with hinner | rfl
    · exact h.framed houter st hst htop moment hinner
    · have hlive {size : Nat} (hsize : size = top + 1) : top < size :=
        Nat.lt_of_lt_of_eq (Nat.lt_succ_self top) hsize.symm
      obtain ⟨hafter, hsize⟩ := h.after hst htop
      exact List.forall_mem_cons.mpr
        ⟨⟨hst, hlive htop⟩, List.forall_mem_singleton.mpr ⟨hafter, hlive hsize⟩⟩
  directed bodies result :=
    { faithful := .noted (.silent _) fun _ => ⟨⟩
      restores := .quiet (@Quiet.ofExcept config _ result)
      framed _ st _ _ moment hmoment := by
        obtain rfl := List.mem_singleton.mp hmoment
        exact fun _ hsight => absurd hsight List.not_mem_nil }

end Render.Framed

/-- **The frames of a render act as a stack of dictionaries.** Whatever a render of any template
starts with, and however it ends: at every moment of it the frames are a stack, every frame that a
statement or an expression runs in, reads from or assigns from is one of them, and seen from there
the frames act as a stack of dictionaries. -/
theorem frames_act_as_stack (config : Config) (fuel : Nat) (unit : Compiled) (data : Assoc Value)
    (heap : Heap) (output : Output) (library : Library) (files : Files) :
    let start : RenderState := ⟨⟨heap, .ofData data, {}⟩, output, library, files⟩
    (unit.recorded config fuel).outcome start = (unit.render config fuel).runOn start ∧
    ∀ moment ∈ (unit.recorded config fuel).record start, moment.Genuine config ∧
      ∀ sight ∈ moment.sights, sight.2.scopes.ActsAsStack sight.1 := by
  intro start
  have hframed : Render.Framed config 0 0 (unit.recorded config fuel) (unit.render config fuel) :=
    (Render.Framed.runComposes config).render fuel unit
  have hstart : start.memory.scopes.Stacked := Scopes.stacked_ofData data
  refine ⟨hframed.faithful.outcome start, fun moment hmoment => ?_⟩
  refine ⟨hframed.faithful.genuine start moment hmoment, fun sight hsight => ?_⟩
  have hframes : moment.Framed := hframed.framed (Nat.le_refl 0) start hstart rfl moment hmoment
  -- every sight of a moment is one of a stack, in which a frame is live
  obtain ⟨hstacked, hlive⟩ := hframes sight hsight
  exact hstacked.actsAsStack hlive

end Stencil
