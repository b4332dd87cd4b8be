import Stencil.Proofs.Engine.Squeezing
import Stencil.Proofs.Render.Completeness

/-!
# Data that no statement reads

The scope of a name is not fixed by a template: a function sees the frame it is called from, and an
assignment goes through all the frames around it before it falls back to frame `0`, where the data
of the caller is. Still, a render cannot find out about data that nothing in it reads. Two renders
whose data differ in one name only keep frames that differ in this name only
(`Scopes.AgreeExcept`), wherever the name is assigned to on the way: an assignment may go to another
frame in one of them, but what it changes there is this name.

What matters is what one of the two renders looks up, which its record says
(`Engine.render_eq_of_not_read`), or the statements that it executes (`Engine.render_unread`). It
need not be known how the render goes: what it may execute can be told from the template, the
library and the files beforehand (`Engine.render_eq_of_mayExecute`).

Main definition: `Scopes.AgreeExcept`.
Main statements: `Engine.render_unread`, `Engine.render_eq_of_not_read`,
`Engine.render_eq_of_mayExecute`.
-/

namespace Stencil

namespace Scopes

/-! ### Frames that differ in one name -/

/-- Two stacks of frames are the same but for what a name is bound to in them. -/
structure AgreeExcept (x : String) (s s' : Scopes) : Prop where
  parents : s.parents = s'.parents
  slot : ∀ i name, name ≠ x → s.slot? i name = s'.slot? i name

namespace AgreeExcept

variable {x : String} {s s' : Scopes} (h : AgreeExcept x s s')

include h

/-- Another name is held by the same frame. -/
theorem holder {name : String} (hname : name ≠ x) (scope : ScopeId) :
    s.holder? scope name = s'.holder? scope name := by
  -- along the parents, whose numbers are the same in both
  induction scope using Nat.strongRecOn with
  | _ scope ih =>
    rw [holder?_of_link, holder?_of_link, (links_of_parents_eq h.parents).2,
      h.slot scope name hname]
    congr 1
    funext parent
    split
    · rfl
    · cases parent with
      | none => rfl
      | some i =>
        dsimp only [Option.bind_some]
        split
        next hlt => exact ih i hlt
        · rfl

/-- Another name has the same value. -/
theorem get (shared : Assoc Value) {name : String} (hname : name ≠ x) (scope : ScopeId) :
    s.get shared scope name = s'.get shared scope name := by
  have hbinding : s.binding? scope name = s'.binding? scope name := by
    rw [binding?_of_holder, binding?_of_holder, h.holder hname]
    exact congrArg _ (funext fun i => h.slot i name hname)
  unfold Scopes.get
  rw [hbinding]

/-- The name in question may be bound in different frames, any other name in the same. -/
theorem bind {i i' : ScopeId} {name : String} (hi : name ≠ x → i = i') (value : Value) :
    AgreeExcept x (s.bind i name value) (s'.bind i' name value) where
  parents := by rw [parents_bind, parents_bind, h.parents]
  slot j k hk := by
    rw [slot?_bind_of_link, slot?_bind_of_link, (links_of_parents_eq h.parents).2, h.slot j k hk]
    by_cases hname : name = x
    · rw [if_neg fun hj => hk (hj.2.trans hname), if_neg fun hj => hk (hj.2.trans hname)]
    · rw [hi hname]

/-- An assignment finds the same frame if it is to another name. -/
theorem set {policy : Policy} {i : ScopeId} (name : String) (value : Value) :
    AgreeExcept x (s.set policy i name value) (s'.set policy i name value) := by
  refine h.bind (fun hname => ?_) value
  cases policy with
  | nearest => exact congrArg (Option.getD · 0) (h.holder hname i)
  | inner => rfl
  | root => rfl

theorem push (parent : ScopeId) : AgreeExcept x (s.push parent).2 (s'.push parent).2 where
  parents := by rw [parents_push, parents_push, h.parents]
  slot i name hname := by rw [slot?_push, slot?_push, h.slot i name hname]

/-- A frame that is dropped takes its bindings along in both. -/
theorem pop (scope : ScopeId) : AgreeExcept x (s.pop scope) (s'.pop scope) := by
  rcases Nat.eq_zero_or_pos scope with rfl | hscope
  · exact h
  · refine ⟨?_, fun i name hname => ?_⟩
    · rw [parents_pop _ hscope, parents_pop _ hscope, h.parents]
    · rw [slot?_pop _ hscope, slot?_pop _ hscope, h.slot i name hname]

end AgreeExcept

/-- What goes on in frames that differ in one name does not show, as long as it is not looked up. -/
theorem AgreeExcept.simulation (shared : Assoc Value) {x : String} {names : String → Prop}
    {P : Moment → Prop}
    (hreads : ∀ {place s before result after}, P (.executed place s before result after) →
      ∀ name, s.Reads name → names name)
    (hget : ∀ {scope name m}, P (.read scope name m) → names name → name ≠ x) :
    Simulation shared { Matching.same with names } P (AgreeExcept x) where
  reads := hreads
  get hP h hi hname := by
    obtain rfl := hi
    exact h.get shared (hget hP hname) _
  set _ h hi _ := by
    subst hi
    exact h.set _ _
  push h hi := by
    subst hi
    exact ⟨h.push _, (links_of_parents_eq h.parents).1⟩
  pop h hi := by
    subst hi
    exact h.pop _

/-- Data that differ in one name make frames that do. -/
theorem agreeExcept_ofData {x : String} {data data' : Assoc Value}
    (h : ∀ name, name ≠ x → data.get? name = data'.get? name) :
    AgreeExcept x (ofData data) (ofData data') where
  parents := rfl
  slot i name hname := by
    cases i with
    | zero => exact h name hname
    | succ i => rfl

end Scopes

/-! ### Renders -/

/-- The directive that escapes its body looks nothing up. -/
theorem Statement.OnlyEscapes.not_looksUp {s : Statement} (h : s.OnlyEscapes) (name : String) :
    ¬ s.LooksUp name := by
  cases s with
  | custom directive args body location =>
    obtain rfl : directive = .escape := h
    rintro ⟨values, hlooks⟩
    unfold Directive.escape at hlooks
    dsimp only at hlooks
    -- the directive fails at once, or renders its body to a text and writes that
    split at hlooks
    · obtain ⟨result, hlooks⟩ := hlooks
      cases result with
      | ok body =>
        obtain ⟨_, hlooks⟩ := hlooks
        exact hlooks
      | error => exact hlooks
    · exact hlooks
  | _ => exact id

/-- A moment that is no execution of a statement that reads a name reads other names only. -/
theorem Moment.within_ne {moment : Moment} {x : String}
    (h : ∀ s ∈ moment.statement?, ¬ s.Reads x) : moment.Within (· ≠ x) := by
  cases moment with
  | executed place s before result after =>
    rintro name hname rfl
    exact h s rfl hname
  | _ => exact ⟨⟩

namespace Engine

section

variable {engine : Engine} {files : Files} {fuel : Nat} {t : Template} {data data' : Assoc Value}
  {heap : Heap} {output : Output} {x : String}

/-- Renders with data that differ in one name go alike, if the record of the first says that it does
not look the name up: in the moments of the lookups, or in those of the statements. -/
theorem render_eq_of_record {names : String → Prop} {P : Moment → Prop}
    (hreads : ∀ {place s before result after}, P (.executed place s before result after) →
      ∀ name, s.Reads name → names name)
    (hget : ∀ {scope name m}, P (.read scope name m) → names name → name ≠ x)
    (hrecord : ∀ moment ∈ (t.unit.recorded engine.config fuel).record
        ⟨⟨heap, .ofData data, {}⟩, output, engine.library, files⟩, P moment)
    (hdata : ∀ name, name ≠ x → data.get? name = data'.get? name) :
    engine.render files fuel t data heap output = engine.render files fuel t data' heap output := by
  let begin (data : Assoc Value) : RenderState :=
    ⟨⟨heap, .ofData data, {}⟩, output, engine.library, files⟩
  have S := Scopes.AgreeExcept.simulation engine.config.host.objects hreads hget
  have hbegin : (begin data).Matches (Scopes.AgreeExcept x) (begin data') :=
    ⟨⟨rfl, Scopes.agreeExcept_ofData hdata, rfl, rfl⟩, rfl, rfl, rfl⟩
  obtain ⟨hresult, hafter⟩ := S.render fuel t.unit rfl hbegin hrecord
  unfold Engine.render
  dsimp only
  rw [hresult, hafter.memory.heap, hafter.output, hafter.library, hafter.files]

/-- **Every lookup is on record.** Data cannot influence a render under a name that is read at no
moment of its record. -/
theorem render_eq_of_not_read
    (hunread : ∀ moment ∈ (t.unit.recorded engine.config fuel).record
        ⟨⟨heap, .ofData data, {}⟩, output, engine.library, files⟩, ¬ moment.IsReadOf x)
    (hdata : ∀ name, name ≠ x → data.get? name = data'.get? name) :
    engine.render files fuel t data heap output = engine.render files fuel t data' heap output :=
  render_eq_of_record (fun _ _ _ => trivial) (fun hread _ => hread) hunread hdata

/-- **Names that stand in no text.** Data cannot influence a render under a name that is read by
nothing that the render may execute, among files of any kind that the output does not lead out of:
not by the template, by a function that it may call, nor by a file that it may render. -/
theorem render_eq_of_mayExecute {kind : Files → Prop} {O : OutputInvariant kind}
    (hfiles : kind files) (houtput : O.holds output)
    (hunread : ∀ s, MayExecute engine.config kind engine.library t.unit s → ¬ s.Reads x)
    (hdata : ∀ name, name ≠ x → data.get? name = data'.get? name) :
    engine.render files fuel t data heap output = engine.render files fuel t data' heap output :=
  render_eq_of_record id (fun _ => id) (fun moment hmem => Moment.within_ne fun s hs =>
    hunread s (MayExecute.of_recorded hfiles houtput fuel moment hmem s hs)) hdata

end

/-- **Data that nothing reads cannot influence a render.** Take two renders of a template with data
that agree on every name but `x`, in the same state of the engine, the files, the lists and maps and
the output. If no statement that the first of them executes reads `x` — none of the template, of the
files it includes or renders, and of the functions it calls — both have the same result and leave
the same output, lists and maps, engine and files. A custom directive reads the names that it looks
up, and a loop reads `for`. The statements may assign to `x` as they like. -/
theorem render_unread {engine : Engine} {files : Files} {fuel : Nat} {t : Template}
    {data data' : Assoc Value} {heap : Heap} {output : Output} {x : String}
    (hunread : ∀ moment ∈ (t.unit.recorded engine.config fuel).record
        ⟨⟨heap, .ofData data, {}⟩, output, engine.library, files⟩,
      ∀ s ∈ moment.statement?, ¬ s.Reads x)
    (hdata : ∀ name, name ≠ x → data.get? name = data'.get? name) :
    engine.render files fuel t data heap output = engine.render files fuel t data' heap output :=
  render_eq_of_record id (fun _ => id) (fun moment hmem => Moment.within_ne (hunread moment hmem))
    hdata

/-- A name that is assigned to in a function, in a loop and beside an escaped body, and is in the
data of one render only. -/
theorem render_unread_assigned :
    let s := (Session.start "" {} {}).run
      [.getText "#define f()#set(x = y)#(y)#end#for(i : [1..3])#@f()#(i)#end#escape()<#end" false]
    let data := Assoc.empty.insert "y" (.str "b")
    ∃ t ∈ s.handed[0]?,
      let run := s.engine.render s.files 20 t (data.insert "x" (.str "a")) {} .unlimited
      run.result = .ok () ∧ run.output.received = "b1b2b3&lt;" ∧
        run = s.engine.render s.files 20 t data {} .unlimited := by
  intro s data
  -- by evaluation: the result, and that no statement that is executed has the name in it
  have hrun : ∃ t ∈ s.handed[0]?,
      let run := s.engine.render s.files 20 t (data.insert "x" (.str "a")) {} .unlimited
      run.result = .ok () ∧ run.output.received = "b1b2b3&lt;" ∧
        ∀ moment ∈ (t.unit.recorded s.engine.config 20).record
            ⟨⟨{}, .ofData (data.insert "x" (.str "a")), {}⟩, .unlimited, s.engine.library, s.files⟩,
          ∀ s ∈ moment.statement?, "x" ∉ s.reads := by
    decide +kernel
  obtain ⟨t, ht, hok, hreceived, hreads⟩ := hrun
  have hknows : ∀ directive, ({} : Config).Knows directive → directive = .escape :=
    fun _ => Config.eq_escape_of_knows
  -- what is left are custom directives, of which there is only the one that escapes
  have hmade : s.Made {} := Session.made_run _ _ _ _
  have hescapes := hmade.escapesOnly hknows (List.mem_of_getElem? ht) s.files 20
    (data.insert "x" (.str "a")) {} .unlimited
  refine ⟨t, ht, hok, hreceived, render_unread (x := "x") (fun moment hmem st hst => ?_)
    fun name hname => ?_⟩
  · rintro (hread | hlooks)
    · exact hreads moment hmem st hst hread
    · exact (hescapes moment hmem st hst).not_looksUp "x" hlooks
  · rw [Assoc.get?_insert, if_neg hname]

end Engine

end Stencil
