import Stencil.Proofs.Engine.Independence
import Stencil.Proofs.Render.Turns

/-!
# Loops over ranges

A loop over a range counts an index up to the size, and asks the range for each element; a loop over
a list goes through a copy of its items. Either walk gives the elements one after the other and
knows their number, and what a loop does is settled by that (`Recorded.walkTurns_congr`). So two
loops whose collections are a range and the list of its elements do the same behind the evaluation
of these.

If a variable is the range in one state and the list in another, the two loops are compared by way
of a third one, over the list itself. It reads nothing in which the states differ, so it does the
same in both.

Main definitions: `Recorded.walkOver`, `Recorded.SameBehind`.
Main statements: `Statement.exec_loop_congr`, `Statement.exec_loop_variable`,
`range_behaves_as_list`.
-/

namespace Stencil

namespace Recorded

variable {σ ε α β : Type}

/-- A recorded action goes on with the result of the one before it, and so does its record. -/
theorem bind_apply {x : Recorded σ ε α} {s after : σ} {a : α} {moments : List Moment}
    (hx : x s = ((.ok a, after), moments)) (f : α → Recorded σ ε β) :
    (x >>= f) s = ((f a after).1, moments ++ (f a after).2) := by
  simp only [Bind.bind, hx]

/-- An action that fails is not gone on with. -/
theorem bind_apply_error {x : Recorded σ ε α} {s after : σ} {e : ε} {moments : List Moment}
    (hx : x s = ((.error e, after), moments)) (f : α → Recorded σ ε β) :
    (x >>= f) s = ((.error e, after), moments) := by
  simp only [Bind.bind, hx]

theorem noting_apply (moment : σ → Except ε α → σ → Moment) (x : Recorded σ ε α) (s : σ) :
    noting moment x s = ((x s).1, (x s).2 ++ [moment s (x s).1.1 (x s).1.2]) := rfl

/-- A run in a frame of its own is the run in the state with the frame opened, and then dropped. -/
theorem inFrame_apply (parent : ScopeId) (x : ScopeId → Recorded RenderState Stop α)
    (st : RenderState) :
    inFrame parent x st =
      (((x st.memory.scopes.frames.size (st.opened parent)).1.1,
        (x st.memory.scopes.frames.size (st.opened parent)).1.2.dropped
          st.memory.scopes.frames.size),
        (x st.memory.scopes.frames.size (st.opened parent)).2) := rfl

/-! ### Walks that give the same -/

variable {item : String} {frame : ScopeId} {outer : Value} {x : Recorded RenderState Stop Unit}
  {size : Nat} {walk walk' : Walk} {vs : List Value}

/-- To ask a walk for its next value records nothing. -/
theorem silent_next {given : Option (Value × Walk)} (hnext : ∀ h, walk.next? h = (given, h))
    (st : RenderState) :
    (silent (Render.ofEval (Eval.onHeap walk.next?))) st = ((.ok given, st), []) := by
  change ((Except.ok (walk.next? st.memory.heap).1,
    { st with memory := { st.memory with heap := (walk.next? st.memory.heap).2 } }), []) = _
  rw [hnext]

/-- The turns of a loop are settled by what the walk gives. -/
theorem walkTurns_congr (h : walk.Gives size vs) (h' : walk'.Gives size vs) (fuel index : Nat) :
    walkTurns item frame outer x fuel walk index = walkTurns item frame outer x fuel walk' index := by
  induction h generalizing walk' fuel index with
  | done hnext _ =>
    cases h' with
    | done hnext' _ =>
      cases fuel with
      | zero => rfl
      | succ fuel =>
        funext st
        rw [walkTurns, walkTurns, bind_apply (silent_next hnext st),
          bind_apply (silent_next hnext' st)]
  | next hnext _ hsize hgives ih =>
    cases h' with
    | next hnext' _ hsize' hgives' =>
      cases fuel with
      | zero => rfl
      | succ fuel =>
        funext st
        rw [walkTurns, walkTurns, bind_apply (silent_next hnext st),
          bind_apply (silent_next hnext' st)]
        -- behind the item both know the same of what is left, and go on alike
        simp only [hsize, hsize', hgives.hasNext, hgives'.hasNext, ih hgives']

/-! ### Loops over a range and over a list -/

variable {config : Config} {r : IntRange} {id : ListId}

/-- What a loop does behind its collection. -/
def walkOver (config : Config) (item : String) (frame : ScopeId)
    (x : Recorded RenderState Stop Unit) (fuel : Nat) (v : Value) :
    Recorded RenderState Stop Bool := do
  let outer ← outerStatus config frame
  let walk ← silent (Render.ofEval (Eval.onHeap (Walk.ofValue v)))
  walkTurns item frame outer x fuel walk 0

/-- The status of the loop around is read once. -/
theorem outerStatus_apply (config : Config) (frame : ScopeId) (st : RenderState) :
    ∃ v, outerStatus config frame st = ((.ok v, st), [.read frame "for" st.memory]) := by
  have hlookup : ofEval (lookup config.host frame "for") st =
      ((.ok (st.memory.scopes.get config.host.objects frame "for"), st),
        [.read frame "for" st.memory]) := rfl
  rw [outerStatus, bind_apply hlookup]
  cases st.memory.scopes.get config.host.objects frame "for" <;> exact ⟨_, rfl⟩

/-- A range is walked over as the list of its elements is. -/
theorem walkOver_congr {st : RenderState} (hlist : st.memory.heap.Lists id r) (fuel : Nat) :
    walkOver config item frame x fuel (.range r) st =
      walkOver config item frame x fuel (.list id) st := by
  obtain ⟨outer, houter⟩ := outerStatus_apply config frame st
  have hrange : (silent (Render.ofEval (Eval.onHeap (Walk.ofValue (.range r))))) st =
      ((.ok (.range r 0), st), []) := rfl
  have hitems : (silent (Render.ofEval (Eval.onHeap (Walk.ofValue (.list id))))) st =
      ((.ok (.ofItems (st.memory.heap.list id).toList), st), []) := rfl
  have hsame : walkTurns item frame outer x fuel (.range r 0) 0 =
      walkTurns item frame outer x fuel (.ofItems (st.memory.heap.list id).toList) 0 := by
    rw [hlist, Walk.ofItems, List.length_map, r.length_toList]
    exact walkTurns_congr (Walk.range_gives r (Nat.zero_add _)) (Walk.items_gives _ _) fuel 0
  rw [walkOver, walkOver, bind_apply houter, bind_apply houter, bind_apply hrange,
    bind_apply hitems, hsame]

/-- From a state two actions do the same behind what they begin with, which is noted as `front` and
as `front'`. -/
def SameBehind (front front' : List Moment) (x y : Recorded σ ε α) (s : σ) : Prop :=
  ∃ outcome inside, x s = (outcome, front ++ inside) ∧ y s = (outcome, front' ++ inside)

namespace SameBehind

variable {front front' : List Moment}

/-- What goes on alike behind two values goes on alike behind the actions that have them. -/
theorem of_eq {x y : Recorded σ ε α} {f g : α → Recorded σ ε β} {s after : σ} {a b : α}
    (hx : x s = ((.ok a, after), front)) (hy : y s = ((.ok b, after), front'))
    (h : f a after = g b after) : SameBehind front front' (x >>= f) (y >>= g) s :=
  ⟨(f a after).1, (f a after).2, bind_apply hx f, (bind_apply hy g).trans (by rw [h])⟩

/-- What is alike goes on alike. -/
theorem bind {x y : Recorded σ ε α} {s : σ} (h : SameBehind front front' x y s)
    (f : α → Recorded σ ε β) : SameBehind front front' (x >>= f) (y >>= f) s := by
  obtain ⟨⟨result, after⟩, inside, hx, hy⟩ := h
  cases result with
  | error e =>
    exact ⟨(.error e, after), inside, bind_apply_error hx f, bind_apply_error hy f⟩
  | ok a =>
    refine ⟨(f a after).1, inside ++ (f a after).2, ?_, ?_⟩
    · rw [bind_apply hx, List.append_assoc]
    · rw [bind_apply hy, List.append_assoc]

/-- Likewise in frames of their own. -/
theorem inFrame {x y : ScopeId → Recorded RenderState Stop α} {parent : ScopeId} {st : RenderState}
    (h : ∀ frame, SameBehind front front' (x frame) (y frame) (st.opened parent)) :
    SameBehind front front' (inFrame parent x) (inFrame parent y) st := by
  obtain ⟨⟨result, after⟩, inside, hx, hy⟩ := h st.memory.scopes.frames.size
  refine ⟨(result, after.dropped st.memory.scopes.frames.size), inside, ?_, ?_⟩
  · rw [inFrame_apply, hx]
  · rw [inFrame_apply, hy]

end SameBehind

/-- An evaluation that goes well, in one piece: its value, its memory and its record. -/
theorem ofEval_apply {host : Host} {scope : ScopeId} {e : Expr} {v : Value} {st : RenderState}
    {m : Memory} (he : (e.eval host scope).runOn st.memory = (.ok v, m)) :
    ofEval (eval host scope e) st =
      ((.ok v, { st with memory := m }), (eval host scope e).record st.memory) :=
  Prod.ext (outcome_ofEval he) rfl

/-- A loop over a collection is the evaluation of the collection and the walk over its value. -/
theorem exec_loop (config : Config) (fuel : Nat) (functions : Assoc TemplateFunction)
    (item : String) (e : Expr) (body otherwise : Statement) (scope : ScopeId) (loops : Nat) :
    exec config (fuel + 1) functions (.loop (.each item e) body otherwise) scope loops =
      noting (.executed ⟨fuel + 1, functions, scope, loops⟩ (.loop (.each item e) body otherwise))
        (inFrame scope fun frame => do
          let ran ← ofEval (eval config.host scope e) >>=
            walkOver config item frame (exec config fuel functions body frame (loops + 1)) fuel
          if ran then pure () else exec config fuel functions otherwise frame loops) := by
  rw [exec]
  rfl

variable {fuel : Nat} {scope : ScopeId} {e e' : Expr} {v v' : Value} {st : RenderState} {m : Memory}

/-- Two loops whose collections have values that are walked over alike do the same behind the
evaluation of these. -/
theorem loop_sameBehind (he : (e.eval config.host scope).runOn (st.opened scope).memory = (.ok v, m))
    (he' : (e'.eval config.host scope).runOn (st.opened scope).memory = (.ok v', m))
    (hwalk : ∀ frame x, walkOver config item frame x fuel v { st.opened scope with memory := m } =
      walkOver config item frame x fuel v' { st.opened scope with memory := m })
    (functions : Assoc TemplateFunction) (body otherwise : Statement) (loops : Nat) :
    let place : Place := ⟨fuel + 1, functions, scope, loops⟩
    let loop (e : Expr) : Statement := .loop (.each item e) body otherwise
    ∃ outcome inside,
      exec config (fuel + 1) functions (loop e) scope loops st = (outcome,
        (eval config.host scope e).record (st.opened scope).memory ++ inside ++
          [.executed place (loop e) st outcome.1 outcome.2]) ∧
      exec config (fuel + 1) functions (loop e') scope loops st = (outcome,
        (eval config.host scope e').record (st.opened scope).memory ++ inside ++
          [.executed place (loop e') st outcome.1 outcome.2]) := by
  intro place loop
  -- behind the two evaluations both loops do the same, so their records differ at the front only
  obtain ⟨outcome, inside, hx, hy⟩ := SameBehind.inFrame fun frame =>
    SameBehind.bind (.of_eq (ofEval_apply he) (ofEval_apply he') (hwalk frame _)) fun ran =>
      if ran then pure () else exec config fuel functions otherwise frame loops
  refine ⟨outcome, inside, ?_, ?_⟩
  · rw [exec_loop, noting_apply, hx]
  · rw [exec_loop, noting_apply, hy]

end Recorded

/-! ### Loops -/

variable {config : Config} {r : IntRange} {id : ListId} {item : String} {fuel : Nat}
  {functions : Assoc TemplateFunction} {body otherwise : Statement} {scope : ScopeId}
  {st st' : RenderState} {m : Memory}

/-- A loop is settled by what its collection evaluates to and leaves, as far as it is walked over. -/
theorem Statement.exec_loop_congr {e e' : Expr} {v v' : Value}
    (he : (e.eval config.host scope).runOn (st.opened scope).memory = (.ok v, m))
    (he' : (e'.eval config.host scope).runOn (st.opened scope).memory = (.ok v', m))
    (hwalk : ∀ frame x fuel,
      Recorded.walkOver config item frame x fuel v { st.opened scope with memory := m } =
        Recorded.walkOver config item frame x fuel v' { st.opened scope with memory := m }) :
    ((Statement.loop (.each item e) body otherwise).exec config fuel functions scope).runOn st =
      ((Statement.loop (.each item e') body otherwise).exec config fuel functions scope).runOn
        st := by
  -- without fuel neither loop begins
  cases fuel with
  | zero => rfl
  | succ fuel =>
    obtain ⟨outcome, inside, hx, hy⟩ := Recorded.loop_sameBehind he he'
      (fun frame x => hwalk frame x fuel) functions body otherwise 0
    change ((Statement.loop (.each item e) body otherwise).exec config (fuel + 1) functions scope) st
      = ((Statement.loop (.each item e') body otherwise).exec config (fuel + 1) functions scope) st
    rw [← (Recorded.exec_faithful config (fuel + 1) functions _ scope 0).outcome,
      ← (Recorded.exec_faithful config (fuel + 1) functions _ scope 0).outcome]
    change (Recorded.exec config (fuel + 1) functions _ scope 0 st).1 =
      (Recorded.exec config (fuel + 1) functions _ scope 0 st).1
    rw [hx, hy]

/-- A frame that is pushed is linked to its parent. -/
theorem Scopes.link?_push (s : Scopes) (parent i : ScopeId) :
    (s.push parent).2.link? i = if i = s.frames.size then some (some parent) else s.link? i := by
  unfold link? push
  rw [Array.getElem?_push]
  split <;> rfl

/-- From the frame that a new one is opened in, the new one is not seen. -/
theorem Scopes.holder?_push (s : Scopes) (scope : ScopeId) (name : String) {i : ScopeId}
    (hi : i ≤ scope) : (s.push scope).2.holder? i name = s.holder? i name := by
  induction i using Nat.strongRecOn with
  | _ i ih =>
    rw [holder?_of_link, holder?_of_link, slot?_push, link?_push]
    by_cases hnew : i = s.frames.size
    · have hfree : s.frames[i]? = none := by
        rw [hnew]
        exact Array.getElem?_size
      have hlink : s.link? i = none := by rw [link?, hfree, Option.map_none]
      have hslot : s.slot? i name = none := by rw [slot?, hfree, Option.bind_none]
      rw [if_pos hnew, hlink, hslot]
      exact if_neg (Nat.not_lt.2 hi)
    · rw [if_neg hnew]
      refine congrArg _ (funext fun parent => ?_)
      cases parent with
      | none => rfl
      | some k =>
        -- the way outwards goes on below the frame at hand
        have hparent : (if k < i then (s.push scope).2.holder? k name else none) =
            if k < i then s.holder? k name else none := by
          split
          next hk => exact ih k hk (Nat.le_trans (Nat.le_of_lt hk) hi)
          · rfl
        rw [Option.bind_some, Option.bind_some, hparent]

/-- From a frame that has just been pushed one sees what its parent sees. -/
theorem Scopes.get_push (s : Scopes) (shared : Assoc Value) (scope : ScopeId) (name : String) :
    (s.push scope).2.get shared scope name = s.get shared scope name := by
  have hbinding : (s.push scope).2.binding? scope name = s.binding? scope name := by
    rw [binding?_of_holder, binding?_of_holder, holder?_push s scope name (Nat.le_refl scope)]
    exact congrArg _ (funext fun i => slot?_push s scope i name)
  unfold Scopes.get
  rw [hbinding]

/-- In the frame around it, a loop finds what is bound there. -/
theorem Expr.eval_var_opened (host : Host) (st : RenderState) (scope : ScopeId) (x : String) :
    ((Expr.var x).eval host scope).runOn (st.opened scope).memory =
      (.ok (st.memory.scopes.get host.objects scope x), (st.opened scope).memory) := by
  rw [← st.memory.scopes.get_push host.objects scope x]
  rfl

/-- A loop over a variable that is a range in one state and the list of its elements in another one,
where the states differ in this variable only, and no statement in the loop reads it. -/
theorem Statement.exec_loop_variable {x : String} {loops : Nat}
    (hst : st.Matches (Scopes.AgreeExcept x) st')
    (hrange : st.memory.scopes.get config.host.objects scope x = .range r)
    (hlist : st'.memory.scopes.get config.host.objects scope x = .list id)
    (hitems : st.memory.heap.Lists id r) (hfor : x ≠ "for") :
    let loop : Statement := .loop (.each item (.var x)) body otherwise
    (∀ moment ∈ ((Recorded.exec config fuel functions loop scope loops).record st).dropLast,
      ∀ s ∈ moment.statement?, ¬ s.Reads x) →
    ((loop.exec config fuel functions scope).runOn st).1 =
        ((loop.exec config fuel functions scope).runOn st').1 ∧
      ((loop.exec config fuel functions scope).runOn st).2.Matches (Scopes.AgreeExcept x)
        ((loop.exec config fuel functions scope).runOn st').2 := by
  intro loop hunread
  cases fuel with
  | zero => exact ⟨rfl, hst⟩
  | succ fuel =>
    -- A loop over the list itself reads nothing that differs, and does the same in both states.
    let direct : Statement := .loop (.each item (.const (.list id))) body otherwise
    -- both variables are read before the frame of the loop binds anything
    have hvar : ((Expr.var x).eval config.host scope).runOn (st.opened scope).memory =
        (.ok (.range r), (st.opened scope).memory) := by
      rw [Expr.eval_var_opened, hrange]
    have hvar' : ((Expr.var x).eval config.host scope).runOn (st'.opened scope).memory =
        (.ok (.list id), (st'.opened scope).memory) := by
      rw [Expr.eval_var_opened, hlist]
    -- the list that is a constant is walked over as the range is
    have hwalk (frame : ScopeId) (y : Recorded RenderState Stop Unit) (fuel : Nat) :
        Recorded.walkOver config item frame y fuel (.range r) (st.opened scope) =
          Recorded.walkOver config item frame y fuel (.list id) (st.opened scope) :=
      have hopened : (st.opened scope).memory.heap.Lists id r := hitems
      Recorded.walkOver_congr hopened fuel
    have hconst : ((Expr.const (.list id)).eval config.host scope).runOn (st.opened scope).memory =
        (.ok (.list id), (st.opened scope).memory) := rfl
    have hfirst : (loop.exec config (fuel + 1) functions scope).runOn st =
        (direct.exec config (fuel + 1) functions scope).runOn st :=
      exec_loop_congr hvar hconst hwalk
    have hsecond : (loop.exec config (fuel + 1) functions scope).runOn st' =
        (direct.exec config (fuel + 1) functions scope).runOn st' :=
      exec_loop_congr hvar' rfl fun _ _ _ => rfl
    -- the loop over the constant list reads nothing that the loop over the variable does not read
    have hwithin : ∀ moment ∈ (Recorded.exec config (fuel + 1) functions direct scope loops).record
        st, moment.Within (· ≠ x) := by
      obtain ⟨outcome, inside, hx, hy⟩ := Recorded.loop_sameBehind hvar hconst
        (fun frame y => hwalk frame y fuel) functions body otherwise loops
      have hrecord : (Recorded.exec config (fuel + 1) functions loop scope loops).record st = _ :=
        congrArg Prod.snd hx
      have hdirect : (Recorded.exec config (fuel + 1) functions direct scope loops).record st = _ :=
        congrArg Prod.snd hy
      rw [hrecord, List.dropLast_concat] at hunread
      rw [hdirect]
      intro moment hmem
      rcases List.mem_append.1 hmem with hmem | hmem
      · rcases List.mem_append.1 hmem with hmem | hmem
        · -- the collection is noted as evaluated
          obtain rfl := List.mem_singleton.1 hmem
          exact ⟨⟩
        · have hmoment := hunread moment (List.mem_append_right _ hmem)
          -- a moment of the body reads the variable only if its statement does
          cases moment with
          | executed place s before result after =>
            rintro name hname rfl
            exact hmoment s rfl hname
          | _ => exact ⟨⟩
      · obtain rfl := List.mem_singleton.1 hmem
        rintro name (hname | hname) rfl
        · exact hfor (List.mem_singleton.1 hname)
        · exact hname
    rw [hfirst, hsecond]
    -- of the two states nothing but the variable is different, and no statement of the second loop
    -- reads it
    have S : Simulation config.host.objects _ (·.Within (· ≠ x)) (Scopes.AgreeExcept x) :=
      Scopes.AgreeExcept.simulation _ (fun hwithin => hwithin) fun _ hname => hname
    exact S.exec_apart (fuel + 1) functions direct rfl (.inr (.inr rfl)) loops hst hwithin

/-- **A range behaves as the list of its elements.** For any bounds, up or down:

* the elements are the integers from the one bound to the other, and sizes, elements and indexes are
  exact, so no step on the way to them overflows;
* in any heap with a list of the elements, whatever is read from the range is read from the list, and
  what fails for the one fails for the other with the same fault;
* a loop over the range has the same result and leaves the same state as a loop over the list, also
  with `#break`, with errors and with fields of `for`, whatever its body does;
* so does a loop over a variable that is the range in one of two states and the list in the other,
  if these differ in the variable only and no statement in the loop reads it. -/
theorem range_behaves_as_list (r : IntRange) :
    r.Exact ∧
    (∀ (h : Heap) (id : ListId), h.Lists id r → h.ReadsAlike (.range r) (.list id)) ∧
    (∀ (config : Config) (fuel : Nat) (functions : Assoc TemplateFunction) (item : String)
      (body otherwise : Statement) (scope : ScopeId) (e e' : Expr) (st : RenderState) (m : Memory)
      (id : ListId),
      (e.eval config.host scope).runOn (st.opened scope).memory = (.ok (.range r), m) →
      (e'.eval config.host scope).runOn (st.opened scope).memory = (.ok (.list id), m) →
      m.heap.Lists id r →
      ((Statement.loop (.each item e) body otherwise).exec config fuel functions scope).runOn st =
        ((Statement.loop (.each item e') body otherwise).exec config fuel functions scope).runOn
          st) ∧
    (∀ (config : Config) (fuel : Nat) (functions : Assoc TemplateFunction) (item x : String)
      (body otherwise : Statement) (scope : ScopeId) (loops : Nat) (st st' : RenderState)
      (id : ListId),
      st.Matches (Scopes.AgreeExcept x) st' →
      st.memory.scopes.get config.host.objects scope x = .range r →
      st'.memory.scopes.get config.host.objects scope x = .list id →
      st.memory.heap.Lists id r → x ≠ "for" →
      let loop : Statement := .loop (.each item (.var x)) body otherwise
      (∀ moment ∈ ((Recorded.exec config fuel functions loop scope loops).record st).dropLast,
        ∀ s ∈ moment.statement?, ¬ s.Reads x) →
      ((loop.exec config fuel functions scope).runOn st).1 =
          ((loop.exec config fuel functions scope).runOn st').1 ∧
        ((loop.exec config fuel functions scope).runOn st).2.Matches (Scopes.AgreeExcept x)
          ((loop.exec config fuel functions scope).runOn st').2) := by
  -- the elements first, then all reads, then loops over values and over variables
  refine ⟨r.exact, fun h id hlist => hlist.readsAlike, ?_, ?_⟩
  · intro config fuel functions item body otherwise scope e e' st m id he he' hlist
    exact Statement.exec_loop_congr he he' fun frame x fuel => Recorded.walkOver_congr hlist fuel
  · intro config fuel functions item x body otherwise scope loops st st' id hst hrange hlist hitems
      hfor loop hunread
    exact Statement.exec_loop_variable hst hrange hlist hitems hfor hunread

/-- The widest range of all and the list of its elements: they have the same last element, and loops
over them that break off do the same. -/
theorem range_behaves_as_list_widest :
    let r : IntRange := ⟨Int32.minValue, Int32.maxValue⟩
    let h := (({} : Heap).newList (r.toList.map .int).toArray).2
    let st : RenderState :=
      ⟨⟨h, .ofData (.ofList [("x", .range r), ("y", .list ⟨0⟩)]), {}⟩, .unlimited, {}, {}⟩
    let loop (x : String) : Statement :=
      .loop (.each "i" (.var x)) (.block [.output (.var "i"), .jump .break]) .nothing
    r.size = 4294967296 ∧
    h.readIndex false (.list ⟨0⟩) (.long 4294967295) = .ok (.int Int32.maxValue) ∧
    ((loop "x").exec {} 9 .empty 0).runOn st = ((loop "y").exec {} 9 .empty 0).runOn st := by
  intro r h st loop
  obtain ⟨hexact, hreads, hloops, -⟩ := range_behaves_as_list r
  have hlist : h.Lists ⟨0⟩ r := ({} : Heap).lists_newList r
  have hlast : h.readIndex false (.range r) (.long 4294967295) = .ok (.int Int32.maxValue) := by
    have hkey : listIndex h (.long 4294967295) = .ok 4294967295 := rfl
    -- the last element is found by its place, without the list
    have helement : r.get? 4294967295 = some Int32.maxValue := by decide +kernel
    simp only [Heap.readIndex, hkey, Except.bind, bind, helement]
  have hx : st.memory.scopes.get .empty 0 "x" = .range r := by with_unfolding_all rfl
  have hy : st.memory.scopes.get .empty 0 "y" = .list ⟨0⟩ := by with_unfolding_all rfl
  have hvalue {x : String} {v : Value} (hv : st.memory.scopes.get .empty 0 x = v) :
      ((Expr.var x).eval ({} : Config).host 0).runOn (st.opened 0).memory =
        (.ok v, (st.opened 0).memory) :=
    hv ▸ Expr.eval_var_opened ({} : Config).host st 0 x
  have hopened : (st.opened 0).memory.heap.Lists ⟨0⟩ r := hlist
  refine ⟨hexact.size.trans (by decide), ?_, ?_⟩
  · rw [← (hreads h ⟨0⟩ hlist).index]
    exact hlast
  · exact hloops {} 9 .empty "i" _ _ 0 _ _ st _ ⟨0⟩ (hvalue hx) (hvalue hy) hopened

end Stencil
