import Mathlib.Tactic.SplitIfs
import Stencil.Proofs.Render.Invariant

/-!
# Escaped markup

Text that is escaped holds none of the characters that open or close something in markup, and it
holds an `&` only where one of five entities starts. Nothing is lost by that: replacing entities
from left to right gives back the text (`unescapeChars_escapeChars`), also where it held something
that looks like an entity, or where it had been escaped before. The reason is that every entity is
an `&` with other characters behind it, and that no `&` is left which is not one of these. So where
an entity starts, a character of the text has become this entity, and elsewhere every character is
one of the text.

The directive that escapes its body renders it into a string first, and writes the escaped string as
a whole (`Statement.exec_escape`). Escaping goes character by character, so the same text is written
as if every piece had been escaped when it came.

Main definitions: `Text.entities`, `Text.unescape`.
Main statements: `Text.unescapeChars_escapeChars`, `Text.entity_of_split`, `escape_reversible`.
-/

namespace Stencil

namespace Text

/-! ### Entities -/

/-- The entities that stand for characters of a text. -/
def entities : List (List Char) :=
  ["&amp;".toList, "&lt;".toList, "&gt;".toList, "&quot;".toList, "&#39;".toList]

/-- The characters that open or close something in markup. -/
def markupChars : List Char := ['<', '>', '\x22', '\x27']

/-- A character becomes an entity, or it has no meaning in markup and stands for itself. -/
theorem entity_cases (c : Char) :
    entity c ∈ entities ∨ c ∉ '&' :: markupChars ∧ entity c = [c] := by
  unfold entity
  split_ifs with hamp hlt hgt hquot happos
  · exact .inl (by decide)
  · exact .inl (by decide)
  · exact .inl (by decide)
  · exact .inl (by decide)
  · exact .inl (by decide)
  · refine .inr ⟨?_, rfl⟩
    simp [markupChars, hamp, hlt, hgt, hquot, happos]

/-- An entity holds no character of markup, and an `&` at its start only. -/
theorem entities_spec {e : List Char} (he : e ∈ entities) :
    (∀ c ∈ e, c ∉ markupChars) ∧ ∀ front back, e = front ++ '&' :: back → front = [] := by
  have hall : ∀ e ∈ entities, (∀ c ∈ e, c ∉ markupChars) ∧ '&' ∉ e.tail := by
    simp [entities, markupChars]
  obtain ⟨hmarkup, htail⟩ := hall e he
  refine ⟨hmarkup, fun front back hsplit => ?_⟩
  cases front with
  | nil => rfl
  | cons c front =>
    rw [hsplit] at htail
    exact absurd (List.mem_append_right front List.mem_cons_self) htail

/-! ### Escaped text -/

theorem escapeChars_cons (c : Char) (cs : List Char) :
    escapeChars (c :: cs) = entity c ++ escapeChars cs := List.flatMap_cons

/-- No character of markup is left. -/
theorem not_mem_markupChars {c : Char} {cs : List Char} (hc : c ∈ escapeChars cs) :
    c ∉ markupChars := by
  obtain ⟨d, -, hd⟩ := List.mem_flatMap.mp hc
  obtain he | ⟨hplain, heq⟩ := entity_cases d
  · exact (entities_spec he).1 c hd
  · rw [heq, List.mem_singleton] at hd
    subst hd
    exact fun hmem => hplain (List.mem_cons_of_mem _ hmem)

/-- **Every `&` starts an entity.** -/
theorem entity_of_split {cs front back : List Char} (h : escapeChars cs = front ++ '&' :: back) :
    ∃ e ∈ entities, e <+: '&' :: back := by
  induction cs generalizing front with
  | nil => exact absurd h.symm (List.append_ne_nil_of_right_ne_nil _ (List.cons_ne_nil _ _))
  | cons c cs ih =>
    rw [escapeChars_cons] at h
    -- The `&` stands behind the first character of the text, or it belongs to it.
    rcases List.append_eq_append_iff.mp h with ⟨t, -, ht⟩ | ⟨t, hfirst, ht⟩
    · exact ih ht
    · cases t with
      | nil => exact @ih [] ht.symm
      | cons d t =>
        obtain ⟨rfl, rfl⟩ := List.cons.inj ht
        obtain he | ⟨hplain, heq⟩ := entity_cases c
        · obtain rfl := (entities_spec he).2 front t hfirst
          rw [List.nil_append] at hfirst
          exact ⟨entity c, he, escapeChars cs, by rw [hfirst]; rfl⟩
        · have hamp : '&' ∈ entity c := hfirst ▸ List.mem_append_right front List.mem_cons_self
          rw [heq, List.mem_singleton] at hamp
          exact absurd (hamp ▸ List.mem_cons_self) hplain

/-! ### Reading back -/

/-- Replaces entities by the characters they stand for, from left to right. -/
def unescapeChars : List Char → List Char
  | '&' :: 'a' :: 'm' :: 'p' :: ';' :: rest => '&' :: unescapeChars rest
  | '&' :: 'l' :: 't' :: ';' :: rest => '<' :: unescapeChars rest
  | '&' :: 'g' :: 't' :: ';' :: rest => '>' :: unescapeChars rest
  | '&' :: 'q' :: 'u' :: 'o' :: 't' :: ';' :: rest => '\x22' :: unescapeChars rest
  | '&' :: '#' :: '3' :: '9' :: ';' :: rest => '\x27' :: unescapeChars rest
  | c :: rest => c :: unescapeChars rest
  | [] => []

/-- A text with its entities replaced. -/
def unescape (s : String) : String := String.ofList (unescapeChars s.toList)

/-- Only an `&` may start an entity. -/
theorem unescapeChars_of_ne {c : Char} (hc : c ≠ '&') (rest : List Char) :
    unescapeChars (c :: rest) = c :: unescapeChars rest := by
  rw [unescapeChars] <;> exact fun _ hamp => absurd hamp hc

/-- What is read where a character was escaped is this character, whatever comes behind. -/
theorem unescapeChars_entity (c : Char) (rest : List Char) :
    unescapeChars (entity c ++ rest) = c :: unescapeChars rest := by
  unfold entity
  -- one case per character of markup, and all others stand for themselves
  split_ifs with hamp hlt hgt hquot happos
  · rw [hamp]
    rfl
  · rw [hlt]
    rfl
  · rw [hgt]
    rfl
  · rw [hquot]
    rfl
  · rw [happos]
    rfl
  · exact unescapeChars_of_ne hamp rest

/-- **Replacing entities undoes escaping.** -/
theorem unescapeChars_escapeChars (cs : List Char) : unescapeChars (escapeChars cs) = cs := by
  induction cs with
  | nil => rfl
  | cons c cs ih => rw [escapeChars_cons, unescapeChars_entity, ih]

theorem unescape_escape (s : String) : unescape (escape s) = s := by
  rw [unescape, escape, String.toList_ofList, unescapeChars_escapeChars, String.ofList_toList]

/-- Escaping a text as a whole is escaping the pieces it comes in. -/
theorem escape_join (pieces : List String) :
    escape (String.join pieces) = String.join (pieces.map escape) := by
  induction pieces with
  | nil => rfl
  | cons piece pieces ih =>
    calc escape (String.join (piece :: pieces))
        = escape piece ++ escape (String.join pieces) := by rw [String.join_cons, escape_append]
      _ = escape piece ++ String.join (pieces.map escape) := by rw [ih]
      _ = String.join ((piece :: pieces).map escape) := by rw [List.map_cons, String.join_cons]

end Text

/-! ### The directive -/

open Render

/-- What is captured of an action is the text that its output has received. -/
theorem Render.runOn_captured (act : Render Unit) (st : RenderState) :
    (captured act).runOn st =
      match act.runOn { st with output := .unlimited } with
      | (result, after) =>
        (result.map fun _ => after.output.received, { after with output := st.output }) := rfl

/-- To pass on how an attempt has ended is to make none. -/
theorem Render.runOn_attempt_ofExcept {α : Type} (act : Render α) (st : RenderState) :
    (attempt act >>= ofExcept).runOn st = act.runOn st := by
  rw [runOn_bind, runOn_attempt]
  rcases act.runOn st with ⟨stop | a, after⟩
  · cases stop <;> rfl
  · rfl

/-- What is between `#escape` and its `#end` is rendered into a string, which is then written
escaped. -/
theorem Statement.exec_escape (config : Config) (fuel : Nat)
    (functions : Assoc TemplateFunction) (body : Statement) (location : Location)
    (scope : ScopeId) (st : RenderState) :
    ((Statement.custom .escape [] body location).exec config (fuel + 1) functions scope).runOn st =
      (captured (body.exec config fuel functions scope) >>= fun text =>
        write (Text.escape text)).runOn st := by
  change ((attempt (captured (body.exec config fuel functions scope)) >>= fun result =>
    runScript config scope (body.exec config fuel functions scope)
      (Script.andThen (fun text => .writeText (Text.escape text) .stop) result)).runOn st) = _
  rw [runOn_bind, runOn_bind, runOn_attempt]
  rcases (captured (body.exec config fuel functions scope)).runOn st with ⟨stop | text, after⟩
  · cases stop <;> rfl
  · exact runOn_attempt_ofExcept (write (Text.escape text)) after

/-- **Escaping is safe, and nothing is lost by it.** The escaped form of a text holds none of the
characters of markup, and an `&` only where one of the entities starts. Replacing these entities
from left to right gives back the text, and texts may be escaped apart and joined.

So `#escape` writes the same for a text of its body, whichever pieces this text has come in: each of
them escaped, one after the other. -/
theorem escape_reversible (s : String) :
    (∀ c ∈ (Text.escape s).toList, c ≠ '<' ∧ c ≠ '>' ∧ c ≠ '\x22' ∧ c ≠ '\x27') ∧
    (∀ front back, (Text.escape s).toList = front ++ '&' :: back →
      ∃ e ∈ Text.entities, e <+: '&' :: back) ∧
    Text.unescape (Text.escape s) = s ∧
    (∀ t, Text.escape (s ++ t) = Text.escape s ++ Text.escape t) ∧
    ∀ (config : Config) (fuel : Nat) (functions : Assoc TemplateFunction) (body : Statement)
      (location : Location) (scope : ScopeId) (st after : RenderState),
      (body.exec config fuel functions scope).runOn { st with output := .unlimited } =
        (.ok (), after) → after.output.received = s →
      ∀ pieces, String.join pieces = s →
        ((Statement.custom .escape [] body location).exec config (fuel + 1) functions scope).runOn
            st =
          (write (String.join (pieces.map Text.escape))).runOn
            { after with output := st.output } := by
  have htoList : (Text.escape s).toList = Text.escapeChars s.toList := String.toList_ofList
  rw [htoList]
  refine ⟨fun c hc => ?_, fun front back => Text.entity_of_split, Text.unescape_escape s,
    Text.escape_append s, ?_⟩
  -- a character of the escaped form is plain, or one of an entity
  · have hplain := Text.not_mem_markupChars hc
    simpa [Text.markupChars] using hplain
  · intro config fuel functions body location scope st after hbody htext pieces hpieces
    rw [Statement.exec_escape, runOn_bind, runOn_captured, hbody]
    show (write (Text.escape after.output.received)).runOn _ = _
    rw [htext, ← hpieces, Text.escape_join]

/-- A body that writes what looks like an entity, with the end of its second piece in front of a
character of markup: it is escaped as if it had been split elsewhere, and can be read back. -/
theorem escape_reversible_entity_like :
    let st : RenderState := ⟨⟨{}, .ofData .empty, {}⟩, .unlimited, {}, {}⟩
    let body : Statement := .block [.text "&l", .text "t;<"]
    let after := ((body.exec {} 2 .empty 0).runOn { st with output := .unlimited }).2
    (body.exec {} 2 .empty 0).runOn { st with output := .unlimited } = (.ok (), after) ∧
      after.output.received = "&lt;<" ∧
      ((Statement.custom .escape [] body ⟨none, 1⟩).exec {} 3 .empty 0).runOn st =
        (write "&amp;lt;&lt;").runOn { after with output := st.output } ∧
      Text.unescape "&amp;lt;&lt;" = "&lt;<" := by
  intro st body after
  -- the body writes both of its pieces into the text that is escaped
  have hbody : (body.exec {} 2 .empty 0).runOn { st with output := .unlimited } =
      (.ok (), after) := rfl
  have htext : after.output.received = "&lt;<" := by decide +kernel
  have hescaped : Text.escape "&lt;<" = "&amp;lt;&lt;" := by decide +kernel
  have hpieces : String.join (["&", "lt;<"].map Text.escape) = "&amp;lt;&lt;" := by decide +kernel
  obtain ⟨-, -, hback, -, hwrites⟩ := escape_reversible "&lt;<"
  have hrun := hwrites {} 2 .empty body ⟨none, 1⟩ 0 st after hbody htext ["&", "lt;<"]
    (by decide +kernel)
  rw [hpieces] at hrun
  rw [hescaped] at hback
  exact ⟨hbody, htext, hrun, hback⟩

end Stencil
