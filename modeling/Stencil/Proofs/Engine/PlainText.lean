import Stencil.Proofs.Engine.Quotation
import Stencil.Proofs.Template.Reading

/-!
# Text without constructs is rendered as it stands

A text in which no `#` begins a construct (`OpensNowhere`) is all literal text. Each `#` of it is
tried as the front of a construct, given up, and left as a piece of one character, from which the
reading goes on with what follows it (`TextPieces`). The pieces grow into one text again, which
starts in the first row, since no construct comes in between to lay out the lines.

So a template of such a text is the statement that writes it, if literal text is not squeezed, and
an empty template does nothing.

Main definition: `OpensNowhere`. Main statements: `itemsOf_of_opensNowhere`,
`compile_of_opensNowhere`, `renders_plain_text`.
-/

namespace Stencil

open Render

variable {text : List Char} {row : Nat}

/-! ### Pieces -/

/-- No `#` of a text begins a construct. -/
def OpensNowhere (text : List Char) : Prop :=
  ∀ front back, text = front ++ '#' :: back → ¬ Opens back

/-- Where no construct begins in a text, none begins in an end of it. -/
theorem OpensNowhere.of_append {front : List Char} (h : OpensNowhere (front ++ text)) :
    OpensNowhere text := by
  intro front' back heq
  exact h (front ++ front') back (by rw [heq, List.append_assoc])

theorem opensNowhere_nil : OpensNowhere [] := by
  intro front back heq
  simp at heq

/-- No construct begins in a text if none begins at its first character, nor in the rest. -/
theorem opensNowhere_cons_iff {c : Char} {cs : List Char} :
    OpensNowhere (c :: cs) ↔ (c = '#' → ¬ Opens cs) ∧ OpensNowhere cs := by
  constructor
  · intro h
    exact ⟨fun hc => h [] cs (by rw [hc]; rfl), (show OpensNowhere ([c] ++ cs) from h).of_append⟩
  · rintro ⟨hfirst, hrest⟩ front back heq
    cases front with
    | nil =>
      obtain ⟨rfl, rfl⟩ := List.cons.inj heq
      exact hfirst rfl
    | cons d front => exact hrest front back (List.cons.inj heq).2

/-- A `#` that is scanned as a literal character begins no construct. -/
theorem not_opens_of_scanConstruct {cs rest : List Char} {n : Nat}
    (h : scanConstruct cs = .ok (.text ['#'], rest, n)) : ¬ Opens cs := by
  have hconstruct : Construct cs (.text ['#']) rest := scanConstruct_eq_ok_iff.1 ⟨n, h⟩
  cases hconstruct with
  | lone hlone => exact hlone

/-- Pieces of literal text, none of them empty, that make up a text which starts in a row. -/
inductive TextPieces : Nat → List Char → List PlacedPiece → Prop
  | nil (row : Nat) : TextPieces row [] []
  | cons {row row' : Nat} {c : Char} {run rest : List Char} {pieces : List PlacedPiece} :
      TextPieces row' rest pieces →
      TextPieces row (c :: (run ++ rest)) (⟨.text (c :: run), row⟩ :: pieces)

/-- Where no construct begins, there is a piece of literal text, and a `#` is one by itself. -/
theorem scanPiece_of_opensNowhere {c : Char} {cs : List Char} (h : OpensNowhere (c :: cs)) :
    ∃ run rest n, scanPiece c cs = .ok (.text (c :: run), rest, n) ∧ cs = run ++ rest := by
  by_cases hc : c = '#'
  · subst hc
    refine ⟨[], cs, 0, ?_, rfl⟩
    rw [scanPiece, if_pos rfl]
    exact scanConstruct_lone (h [] cs rfl)
  · exact ⟨_, _, _, scanPiece_of_ne hc, List.takeWhile_append_dropWhile.symm⟩

/-- **A text without constructs is cut into pieces of literal text.** -/
theorem exists_textPieces (h : OpensNowhere text) (row : Nat) :
    ∃ pieces, cutFrom row text = .ok pieces ∧ TextPieces row text pieces := by
  -- By the length of the text, since a piece may take more than one character off it.
  induction hlength : text.length using Nat.strong_induction_on generalizing text row with
  | _ length ih =>
    cases text with
    | nil => exact ⟨[], by rw [cutFrom], .nil row⟩
    | cons c cs =>
      obtain ⟨run, rest, n, hpiece, rfl⟩ := scanPiece_of_opensNowhere h
      have hrest : OpensNowhere rest := (show OpensNowhere ((c :: run) ++ rest) from h).of_append
      have hlt : rest.length < length := by
        rw [← hlength, List.length_cons, List.length_append]
        omega
      obtain ⟨pieces, hcut, hpieces⟩ := ih rest.length hlt hrest (row + n) rfl
      exact ⟨_, cutFrom_cons_eq_ok_iff.2 ⟨_, _, _, _, hpiece, hcut, rfl⟩, .cons hpieces⟩

/-! ### Items -/

/-- Pieces of literal text grow the text that has begun. -/
theorem addAll_textPieces {pieces : List PlacedPiece} (h : TextPieces row text pieces)
    (keep : List String) {l : Layer} (hskipping : l.skipping = false) (hpending : l.pending ≠ []) :
    (l.addAll keep pieces).items = l.done.reverse ++ [.text (l.pending ++ text) l.pendingRow] := by
  induction h generalizing l with
  | nil row =>
    have hempty : l.pending.isEmpty = false := List.isEmpty_eq_false_iff.2 hpending
    simp [Layer.addAll, Layer.items, Layer.flush, hempty]
  | @cons row row' c run rest pieces _ ih =>
    have hempty : l.pending.isEmpty = false := List.isEmpty_eq_false_iff.2 hpending
    have hadd (blank : Bool) :
        l.add keep ⟨.text (c :: run), row⟩ blank = l.push (c :: run) row := by
      change (if l.skipping then _ else _) = _
      rw [hskipping]
      rfl
    -- The text that has begun is not empty, so the row of its first piece stays.
    have hrow : (l.push (c :: run) row).pendingRow = l.pendingRow := by
      rw [Layer.push, hempty]
      rfl
    have hnext := ih (l := l.push (c :: run) row) hskipping (by simp [hpending])
    rw [Layer.addAll, hadd, hnext, hrow]
    simp

/-- **A text without constructs is one item**, or none if it is empty. -/
theorem itemsOf_of_opensNowhere (h : OpensNowhere text) (keep : List String) :
    itemsOf keep text = .ok (if text = [] then [] else [.text text 1]) := by
  obtain ⟨pieces, hcut, hpieces⟩ := exists_textPieces h 1
  rw [itemsOf, cutTemplate, hcut]
  cases hpieces with
  | nil => rfl
  | cons hrest =>
    refine congrArg Except.ok ?_
    exact addAll_textPieces hrest keep (l := ({} : Layer).push _ 1) rfl (by simp)

/-! ### Templates -/

/-- The statement that writes a text, if there is something to write. -/
def textStatement (text : String) : Statement := if text = "" then .nothing else .text text

/-- The statement of a text writes this text and nothing else. -/
theorem textStatement_onlyWrites (config : Config) (text : String) :
    (textStatement text).OnlyWrites config text := by
  intro fuel functions st hfuel hsteady
  obtain ⟨fuel, rfl⟩ := Nat.exists_eq_succ_of_ne_zero (Nat.ne_of_gt hfuel)
  unfold textStatement
  split
  · rename_i hempty
    exact ⟨st, rfl, rfl, hsteady, by rw [hempty, String.append_empty]⟩
  · exact runOn_write_of_steady hsteady text

/-- **A text without constructs compiles** to the statement that writes it, if literal text is not
squeezed. -/
theorem compile_of_opensNowhere {config : Config} {files : Files} {source : Source} {text : String}
    (h : OpensNowhere text.toList) (hseparator : config.settings.separator = none)
    (hsource : source.content files = .ok text) (nextSite : Nat) :
    compile config files source nextSite =
      .ok (⟨textStatement text, .empty, [source]⟩, nextSite) := by
  refine compile_of_parseItems hsource (itemsOf_of_opensNowhere h _) nextSite fun p hconfig _ => ?_
  unfold textStatement
  -- the empty text is no item, and its statement is the empty block
  by_cases hempty : text = ""
  · rw [if_pos hempty, if_pos (String.toList_eq_nil_iff.2 hempty)]
    rfl
  · have hne : text.toList ≠ [] := fun hnil => hempty (String.toList_eq_nil_iff.1 hnil)
    have hliteral : p.literal {} text.toList = ⟨[], [.text text]⟩ := by
      rw [Parsing.literal, hconfig, hseparator]
      dsimp only
      rw [List.isEmpty_eq_false_iff.2 hne, String.ofList_toList]
      rfl
    rw [if_neg hempty, if_neg hne]
    unfold Parsing.parseItems Parsing.addAll
    change (Except.ok (p.literal {} text.toList, _) >>= _) = _
    rw [hliteral]
    rfl

/-- **Text without directives is rendered as it stands.** A text in which no `#` begins a construct
is one item of literal text, or none if it is empty. A template of it compiles if literal text is
not squeezed, and what a render of it adds to an output that refuses nothing is the text, to the
last character. -/
theorem renders_plain_text {text : String} (h : OpensNowhere text.toList) :
    (∀ keep, itemsOf keep text.toList = .ok (if text = "" then [] else [.text text.toList 1])) ∧
    ∀ (engine : Engine) (files : Files) (source : Source),
      engine.config.settings.separator = none → source.content files = .ok text →
        ∃ t after, engine.compile files source = .ok (t, after) ∧
          ∀ (present : Files) (fuel : Nat) (data : Assoc Value) (heap : Heap) (output : Output),
            0 < fuel → output.Steady →
              let rendered := after.render present fuel t data heap output
              rendered.result = .ok () ∧ rendered.heap = heap ∧
                rendered.output.received = output.received ++ (output.held ++ text) := by
  constructor
  · intro keep
    simp only [itemsOf_of_opensNowhere h keep, String.toList_eq_nil_iff]
  · intro engine files source hseparator hsource
    obtain ⟨library, hlibrary⟩ : ∃ library, engine.library.compile (engine.context files) source =
        .ok (⟨textStatement text, .empty, [source]⟩, library) := by
      refine ⟨engine.library.withSites engine.library.sites.size, ?_⟩
      -- the library takes the text, which includes nothing and defines no function
      change (Stencil.compile engine.config files source _ >>= fun compiled => _) = _
      rw [compile_of_opensNowhere h hseparator hsource]
      rfl
    refine ⟨_, _, by rw [Engine.compile, hlibrary]; rfl, ?_⟩
    -- every render then runs the one statement, and delivers what it has written
    intro present fuel data heap output hfuel hsteady rendered
    obtain ⟨after, hrun, hmemory, hreceived⟩ := @Compiled.runOn_render_of_onlyWrites engine.config
      fuel hfuel ⟨textStatement text, .empty, [source]⟩ text
      (textStatement_onlyWrites engine.config text)
      ⟨⟨heap, .ofData data, {}⟩, output, library, present⟩ hsteady
    rw [show rendered = _ from Engine.render_of_runOn hrun]
    exact ⟨rfl, congrArg Memory.heap hmemory, hreceived⟩

/-- A `#` in front of a digit, of a word that only begins like a tag, and of nothing. -/
theorem renders_plain_text_hashes :
    let text := "#1 é#end1 #"
    ∃ t after, ({ name := "" } : Engine).getByString {} text false = .ok (t, after) ∧
      (after.render {} 1 t .empty {} .unlimited).output.received = text := by
  intro text
  have hplain : OpensNowhere text.toList := by
    have hchars : text.toList = ['#', '1', ' ', 'é', '#', 'e', 'n', 'd', '1', ' ', '#'] := by decide
    have hdigit : ¬ Opens ['1', ' ', 'é', '#', 'e', 'n', 'd', '1', ' ', '#'] :=
      not_opens_of_scanConstruct rfl
    have hword : ¬ Opens ['e', 'n', 'd', '1', ' ', '#'] := not_opens_of_scanConstruct rfl
    have hnothing : ¬ Opens [] := not_opens_of_scanConstruct rfl
    rw [hchars]
    simp only [opensNowhere_cons_iff, opensNowhere_nil]
    exact ⟨fun _ => hdigit, nofun, nofun, nofun, fun _ => hword, nofun, nofun, nofun, nofun, nofun,
      fun _ => hnothing, trivial⟩
  obtain ⟨-, hcompiles⟩ := renders_plain_text hplain
  obtain ⟨t, after, hcompile, hrender⟩ := hcompiles { name := "" } {} (.string text false) rfl rfl
  obtain ⟨-, -, hreceived⟩ :=
    hrender {} 1 .empty {} .unlimited Nat.one_pos ⟨rfl, fun _ => rfl⟩
  refine ⟨t, after, hcompile, hreceived.trans ?_⟩
  exact String.empty_append.trans String.empty_append

end Stencil
