import Stencil.Proofs.Text.Words

/-!
# Squeezed texts are settled

In a squeezed text no blank stands beside a line feed: every line was trimmed there, and the blank
lines are gone. Line feeds are blanks too, so that none stands beside another. Such a text is
**settled**, provided that its line feeds are separators: a text that was joined by some other
character has none.

Squeezing always leads to a settled text (`settled_squeeze`), and it leaves settled texts alone
(`squeeze_of_settled`), so that a second squeezing changes nothing. What is behind a line break is
followed as in `squeezeLater`. Its lines change their places while blank ones go, and with their
place the rule by which they are trimmed; beside a line feed all the rules say the same.

Main definition: `Settled`. Main statements: `settled_squeeze`, `squeeze_of_settled`,
`squeeze_settles`.
-/

namespace Stencil.Text

variable {separator : Char} {a b text : List Char}

/-! ### Blanks at the ends -/

/-- A text that does not begin with a blank. -/
def StartsSolid (cs : List Char) : Prop := ∀ c ∈ cs.head?, isBlank c = false

/-- A text that does not end with a blank. -/
def EndsSolid (cs : List Char) : Prop := ∀ c ∈ cs.getLast?, isBlank c = false

/-- A line feed is a blank. -/
theorem not_startsSolid_lineFeed (cs : List Char) : ¬ StartsSolid ('\n' :: cs) := by
  intro h
  have hblank : isBlank '\n' = true := by decide +kernel
  have hsolid : isBlank '\n' = false := h '\n' rfl
  rw [hblank] at hsolid
  cases hsolid

/-- A text that is trimmed at its start begins with no blank. -/
theorem startsSolid_trimStart (cs : List Char) : StartsSolid (trimStart cs) := by
  intro c hc
  obtain ⟨rest, hrest⟩ := List.head?_eq_some_iff.mp hc
  exact head_trimStart hrest

/-- There is nothing to trim at a start without blanks. -/
theorem trimStart_of_startsSolid (h : StartsSolid a) : trimStart a = a := by
  cases a with
  | nil => rfl
  | cons c cs => exact List.dropWhile_cons_of_neg (by simp [h c rfl])

/-- A text that is trimmed at its end ends with no blank. -/
theorem endsSolid_trimEnd (cs : List Char) : EndsSolid (trimEnd cs) := by
  intro c hc
  rw [trimEnd, List.getLast?_reverse] at hc
  exact startsSolid_trimStart cs.reverse c hc

/-- There is nothing to trim at an end without blanks. -/
theorem trimEnd_of_endsSolid (h : EndsSolid a) : trimEnd a = a := by
  have hreverse : StartsSolid a.reverse := by
    intro c hc
    rw [List.head?_reverse] at hc
    exact h c hc
  show (trimStart a.reverse).reverse = a
  rw [trimStart_of_startsSolid hreverse, List.reverse_reverse]

/-- Trimming the end of a text takes off the whole of it or leaves its start. -/
theorem StartsSolid.trimEnd (h : StartsSolid a) : StartsSolid (trimEnd a) := by
  intro c hc
  obtain ⟨t, -, ht⟩ := exists_trimEnd a
  obtain ⟨rest, hrest⟩ := List.head?_eq_some_iff.mp hc
  apply h
  rw [ht, hrest]
  rfl

/-! ### Lines -/

/-- Trimming the start of a text makes up no characters. -/
theorem mem_of_mem_trimStart {c : Char} (h : c ∈ trimStart a) : c ∈ a := by
  obtain ⟨s, -, hs⟩ := exists_trimStart a
  rw [hs]
  exact List.mem_append_right s h

/-- Trimming the end of a text makes up no characters. -/
theorem mem_of_mem_trimEnd {c : Char} (h : c ∈ trimEnd a) : c ∈ a := by
  obtain ⟨t, -, ht⟩ := exists_trimEnd a
  rw [ht]
  exact List.mem_append_left t h

/-- The lines of a text end at its line feeds. -/
theorem not_mem_of_mem_lines {line : List Char} (h : line ∈ lines text) : '\n' ∉ line := by
  induction text generalizing line with
  | nil =>
    obtain rfl := List.mem_singleton.mp h
    exact List.not_mem_nil
  | cons c cs ih =>
    rw [lines] at h
    split at h
    -- a line feed begins an empty line
    · rcases List.mem_cons.mp h with rfl | hrest
      · exact List.not_mem_nil
      · exact ih hrest
    -- any other character goes to the front of the first line
    · rename_i hc
      obtain ⟨first, rest, hlines⟩ := List.exists_cons_of_ne_nil (lines_ne_nil cs)
      rw [hlines] at h ih
      rcases List.mem_cons.mp h with rfl | hrest
      · exact List.not_mem_cons_of_ne_of_not_mem (Ne.symm hc) (ih List.mem_cons_self)
      · exact ih (List.mem_cons_of_mem first hrest)

/-- A text without line feeds is its own only line. -/
theorem lines_of_not_mem (h : '\n' ∉ text) : lines text = [text] := by
  induction text with
  | nil => rfl
  | cons c cs ih =>
    obtain ⟨hc, hcs⟩ := List.ne_and_not_mem_of_not_mem_cons h
    rw [lines, if_neg hc.symm, ih hcs]

/-- A text is the line in front of its first line feed, and the lines of what is behind it. -/
theorem lines_append (h : '\n' ∉ a) (b : List Char) : lines (a ++ '\n' :: b) = a :: lines b := by
  induction a with
  | nil => rfl
  | cons c cs ih =>
    obtain ⟨hc, hcs⟩ := List.ne_and_not_mem_of_not_mem_cons h
    rw [List.cons_append, lines, if_neg hc.symm, ih hcs]

/-- A line feed of a text that begins with a line stands behind this line. -/
theorem exists_of_append_eq {before after : List Char} (ha : '\n' ∉ a)
    (h : a ++ b = before ++ '\n' :: after) : ∃ t, before = a ++ t ∧ b = t ++ '\n' :: after := by
  rcases List.append_eq_append_iff.mp h with hbehind | ⟨t, rfl, ht⟩
  · exact hbehind
  · cases t with
    | nil => exact ⟨[], by rw [List.append_nil, List.append_nil], ht.symm⟩
    | cons c t =>
      obtain ⟨rfl, -⟩ := List.cons.inj ht
      exact absurd (List.mem_append_right before List.mem_cons_self) ha

/-! ### Settled texts -/

/-- A text in which no blank stands beside a line feed, and in which line feeds are separators. -/
def Settled (separator : Char) (text : List Char) : Prop :=
  ∀ before after, text = before ++ '\n' :: after →
    separator = '\n' ∧ EndsSolid before ∧ StartsSolid after

namespace Settled

theorem of_not_mem (h : '\n' ∉ text) : Settled separator text := by
  rintro before after rfl
  exact absurd (List.mem_append_right before List.mem_cons_self) h

/-- What stands behind a part of a settled text is settled. -/
theorem of_append (h : Settled separator (a ++ b)) : Settled separator b := by
  rintro before after rfl
  rw [← List.append_assoc] at h
  obtain ⟨hsep, hbefore, hafter⟩ := h _ _ rfl
  refine ⟨hsep, fun c hc => hbefore c ?_, hafter⟩
  rw [List.getLast?_append, hc]
  rfl

/-- A settled text may be put behind a line, with a separator between them. -/
theorem join (ha : '\n' ∉ a) (hends : EndsSolid a) (hstarts : StartsSolid b)
    (hb : Settled separator b) : Settled separator (a ++ separator :: b) := by
  intro before after htext
  obtain ⟨t, rfl, ht⟩ := exists_of_append_eq ha htext
  cases t with
  | nil =>
    -- The line feed is the separator.
    obtain ⟨rfl, rfl⟩ := List.cons.inj ht
    rw [List.append_nil]
    exact ⟨rfl, hends, hstarts⟩
  | cons d t =>
    obtain ⟨rfl, rfl⟩ := List.cons.inj ht
    obtain ⟨hsep, ht, hafter⟩ := hb t after rfl
    refine ⟨hsep, ?_, hafter⟩
    cases t with
    | nil =>
      -- The line feed would stand at the very start of what is behind the separator.
      exact absurd hstarts (not_startsSolid_lineFeed after)
    | cons e t =>
      intro c hc
      apply ht
      rwa [List.getLast?_append_cons, List.getLast?_cons_cons] at hc

/-- Beside a line feed in a settled text, trimming takes off nothing. -/
theorem trim_line (h : Settled separator (separator :: (a ++ '\n' :: b))) :
    a ≠ [] ∧ trim a = a := by
  obtain ⟨rfl, hends, -⟩ := h (separator :: a) b rfl
  obtain ⟨-, -, hstarts⟩ := h [] (a ++ '\n' :: b) rfl
  have hne : a ≠ [] := by
    rintro rfl
    exact not_startsSolid_lineFeed b hstarts
  obtain ⟨c, cs, rfl⟩ := List.exists_cons_of_ne_nil hne
  -- the line begins behind a line feed, and another one ends it
  have hfront : StartsSolid (c :: cs) := hstarts
  have hback : EndsSolid (c :: cs) := by
    intro d hd
    apply hends
    rwa [List.getLast?_cons_cons]
  refine ⟨hne, ?_⟩
  rw [trim, trimStart_of_startsSolid hfront, trimEnd_of_endsSolid hback]

end Settled

/-! ### Squeezing -/

/-- A line break and the lines behind it become a separator and a settled text. -/
theorem exists_settled_squeezeLater (separator : Char) {line : List Char} {rest : List (List Char)}
    (hlines : ∀ l ∈ line :: rest, '\n' ∉ l) :
    ∃ later, squeezeLater separator (line :: rest) = separator :: later ∧
      StartsSolid later ∧ Settled separator later := by
  induction rest generalizing line with
  | nil =>
    refine ⟨trimStart line, squeezeLater_single separator line, startsSolid_trimStart line, ?_⟩
    exact .of_not_mem fun hmem => hlines line List.mem_cons_self (mem_of_mem_trimStart hmem)
  | cons next rest ih =>
    have hrest := ih fun l hl => hlines l (List.mem_cons_of_mem line hl)
    -- a blank line goes, and what is behind the next break follows
    by_cases hline : trim line = []
    · rw [squeezeLater_blank separator hline]
      exact hrest
    · rw [squeezeLater_cons separator hline]
      obtain ⟨later, hlater, hstarts, hsettled⟩ := hrest
      have htrim : '\n' ∉ trim line := fun hmem =>
        hlines line List.mem_cons_self (mem_of_mem_trimStart (mem_of_mem_trimEnd hmem))
      -- behind the separator stands a trimmed line that is not blank, then the next separator
      refine ⟨trim line ++ separator :: later, by rw [hlater], ?_, ?_⟩
      · intro c hc
        rw [List.head?_append_of_ne_nil _ hline] at hc
        exact (startsSolid_trimStart line).trimEnd c hc
      · exact .join htrim (endsSolid_trimEnd (trimStart line)) hstarts hsettled

/-- **Squeezing settles.** -/
theorem settled_squeeze (separator : Char) (text : List Char) :
    Settled separator (squeeze separator text) := by
  unfold squeeze
  split
  · rename_i hbreak
    obtain ⟨first, line, rest, hlines⟩ := lines_of_mem hbreak
    have hfirst : '\n' ∉ first := not_mem_of_mem_lines (hlines ▸ List.mem_cons_self)
    obtain ⟨later, hlater, hstarts, hsettled⟩ := exists_settled_squeezeLater separator
      fun l hl => not_mem_of_mem_lines (hlines ▸ List.mem_cons_of_mem first hl)
    rw [hlines, squeezeLines_cons, hlater]
    exact .join (fun hmem => hfirst (mem_of_mem_trimEnd hmem)) (endsSolid_trimEnd first) hstarts
      hsettled
  · rename_i hbreak
    exact .of_not_mem hbreak

/-- Behind a line break, a settled text stays as it is. -/
theorem squeezeLater_of_settled (h : Settled '\n' ('\n' :: text)) :
    squeezeLater '\n' (lines text) = '\n' :: text := by
  -- A settled text goes on behind its next line feed as a settled text, which is shorter.
  induction hlength : text.length using Nat.strongRecOn generalizing text with
  | ind n ih =>
    by_cases hbreak : '\n' ∈ text
    · obtain ⟨a, b, rfl, ha⟩ := List.eq_append_cons_of_mem hbreak
      obtain ⟨hne, htrim⟩ := h.trim_line
      have hlater : squeezeLater '\n' (lines b) = '\n' :: b := by
        refine ih b.length ?_ (.of_append (a := '\n' :: a) h) rfl
        rw [← hlength, List.length_append, List.length_cons]
        omega
      obtain ⟨next, rest, hb⟩ := List.exists_cons_of_ne_nil (lines_ne_nil b)
      rw [hb] at hlater
      calc squeezeLater '\n' (lines (a ++ '\n' :: b))
          = squeezeLater '\n' (a :: next :: rest) := by rw [lines_append ha, hb]
        _ = '\n' :: (trim a ++ squeezeLater '\n' (next :: rest)) :=
          squeezeLater_cons '\n' (by rwa [htrim]) next rest
        _ = '\n' :: (a ++ '\n' :: b) := by rw [htrim, hlater]
    · obtain ⟨-, -, hstarts⟩ := h [] text rfl
      rw [lines_of_not_mem hbreak, squeezeLater_single, trimStart_of_startsSolid hstarts]

/-- **A settled text stays as it is.** -/
theorem squeeze_of_settled (h : Settled separator text) : squeeze separator text = text := by
  by_cases hbreak : '\n' ∈ text
  · obtain ⟨a, b, rfl, ha⟩ := List.eq_append_cons_of_mem hbreak
    obtain ⟨rfl, hends, -⟩ := h a b rfl
    obtain ⟨next, rest, hb⟩ := List.exists_cons_of_ne_nil (lines_ne_nil b)
    have hlater := squeezeLater_of_settled h.of_append
    rw [hb] at hlater
    calc squeeze '\n' (a ++ '\n' :: b)
        = squeezeLines '\n' (a :: next :: rest) := by
          rw [squeeze, if_pos hbreak, lines_append ha, hb]
      _ = trimEnd a ++ squeezeLater '\n' (next :: rest) := squeezeLines_cons '\n' a next rest
      _ = a ++ '\n' :: b := by rw [trimEnd_of_endsSolid hends, hlater]
  · exact squeeze_of_not_mem hbreak

/-- **A second squeezing changes nothing**, whatever the lines are joined by. For the texts that
squeezing leads to are the settled ones, which are those that it leaves alone; and something is left
of every text in which there was something. -/
theorem squeeze_settles (separator : Char) (text : List Char) :
    squeeze separator (squeeze separator text) = squeeze separator text ∧
      (squeeze separator text = [] ↔ text = []) ∧
      (squeeze separator text = text ↔ Settled separator text) := by
  refine ⟨squeeze_of_settled (settled_squeeze separator text), squeeze_eq_nil_iff, fun h => ?_,
    squeeze_of_settled⟩
  rw [← h]
  exact settled_squeeze separator text

/-- The last line becomes the second one, and keeps the blanks at its end. -/
example : squeeze '\n' " a \n \n b ".toList = " a\nb ".toList := by decide +kernel

end Stencil.Text
