import Stencil.Proofs.Engine.Session
import Stencil.Proofs.Render.Jumps

/-!
# Jumps in sessions

Whatever has happened in a session, its templates and its library are compiled with its
configuration, so every `#break` and `#continue` in them stands in a loop. Hence in every render
that goes well, with custom directives that render their body at most once and pass its errors on,
no statement outside of all loops leaves a break or a continue pending, and what follows a call, an
included or a rendered file runs.

Main statement: `Session.jumps_end_in_place`.
-/

namespace Stencil

namespace Session

variable {name : String} {config : Config} {files : Files} {events : List Event} {s : Session}

/-- **Jumps end in place.** Take any template that a session has handed out, and any render of it
that goes well, with modest custom directives.

No break or continue is pending at its end, nor behind any statement that is executed with no loop
body around it in its file and function: the bodies of functions, of included and of rendered files
are such statements, and so are outermost loops. Behind calls, included and rendered files no jump
is pending at all, and the statements that follow in a block run. -/
theorem jumps_end_in_place (hs : s = (start name config files).run events) {t : Template}
    (ht : t ∈ s.handed) (fuel : Nat) (data : Assoc Value) (heap : Heap) (output : Output)
    (present : Files) {begin after : RenderState}
    (hbegin : begin = ⟨⟨heap, .ofData data, {}⟩, output, s.engine.library, present⟩)
    (hrun : (t.unit.render s.engine.config fuel).runOn begin = (.ok (), after))
    (hmodest : ∀ moment ∈ (t.unit.recorded s.engine.config fuel).record begin, moment.Modest) :
    (after.memory.control.jump ≠ .break ∧ after.memory.control.jump ≠ .continue) ∧
    ∀ place statement before result behind,
      .executed place statement before result behind ∈
        (t.unit.recorded s.engine.config fuel).record begin →
      let run (s' : Statement) :=
        s'.exec s.engine.config place.fuel place.functions place.scope
      (run statement).runOn before = (.ok (), behind) ∧
      (place.loops = 0 →
        behind.memory.control.jump ≠ .break ∧ behind.memory.control.jump ≠ .continue) ∧
      (statement.TakesJumps → behind.memory.control.jump = .none ∧
        ∀ rest, (runBlock run (statement :: rest)).runOn before =
          (runBlock run rest).runOn behind) := by
  have hmade : s.Made config := hs ▸ made_run name config files events
  rw [hmade.settled] at hrun hmodest ⊢
  -- what the recorded render does is what the render does, so its moments are moments of the render
  have hfaithful := t.unit.recorded_faithful config fuel
  have houtcome : (t.unit.recorded config fuel).outcome begin = (.ok (), after) :=
    (hfaithful.outcome begin).trans hrun
  -- the parser puts jumps into loops only, and such statements settle their jumps when they are run
  obtain ⟨hfits, -, hsettled⟩ := (hmade.handed ht).recorded_settles fuel begin
    (by rw [hbegin]) (by rw [hbegin]; exact hmade.library) hmodest () after houtcome
  refine ⟨hfits rfl, ?_⟩
  intro place statement before result behind hmoment run
  obtain ⟨rfl, -, hbehind, htaken⟩ := hsettled _ hmoment
  have hgenuine : (run statement).runOn before = (.ok (), behind) :=
    hfaithful.genuine begin _ hmoment
  exact ⟨hgenuine, hbehind, fun htakes =>
    ⟨htaken htakes, runOn_runBlock_cons hgenuine (htaken htakes)⟩⟩

/-- A function with a loop that is left from within a directive: the render goes well, and behind
the call nothing is pending. -/
theorem jumps_end_in_place_left_loop :
    let s := (start "" {} {}).run
      [.getText "#define f()#for(x : [1])#escape()#break#end#end#end#@f()|" false]
    let begin : RenderState := ⟨⟨{}, .ofData .empty, {}⟩, .unlimited, s.engine.library, {}⟩
    ∃ t ∈ s.handed, ((t.unit.render s.engine.config 20).runOn begin).1.isOk ∧
      ∀ place statement before result behind,
        .executed place statement before result behind ∈
          (t.unit.recorded s.engine.config 20).record begin →
        statement.TakesJumps → behind.memory.control.jump = .none := by
  intro s begin
  have hrenders : ∃ t ∈ s.handed, ((t.unit.render s.engine.config 20).runOn begin).1.isOk ∧
      ∀ moment ∈ (t.unit.recorded s.engine.config 20).record begin, moment.Modest := by
    decide +kernel
  obtain ⟨t, ht, hok, hmodest⟩ := hrenders
  refine ⟨t, ht, hok, fun place statement before result behind hmoment htakes => ?_⟩
  rcases hrun : (t.unit.render s.engine.config 20).runOn begin with ⟨_ | _, after⟩
  · rw [hrun] at hok
    cases hok
  · obtain ⟨-, hsettled⟩ := jumps_end_in_place rfl ht 20 .empty {} .unlimited {} rfl hrun hmodest
    exact ((hsettled place statement before result behind hmoment).2.2 htakes).1

end Session

end Stencil
