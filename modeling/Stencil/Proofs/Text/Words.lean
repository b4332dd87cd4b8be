import Mathlib.Data.List.Basic
import Stencil.Text.Entity
import Stencil.Text.Squeeze

/-!
# Words

The words of a text are its maximal runs of characters that are no white space. Texts that differ
only in the blanks that their runs of blanks consist of are **respaced**. They have the same words,
and unlike having the same words this is kept when texts are joined: `a` and `a ` have the same
words, but with a `b` behind them they have not.

Squeezing respaces a text. What becomes of the lines behind the first one is followed line by line
(`squeezeLater`): every line with something on it is put behind a separator, and the break in front
of a blank line goes, unless this is the last line.

Main definitions: `words`, `Respaced`.
Main statements: `Respaced.words_eq`, `respaced_squeeze`, `Respaced.escapeChars`.
-/

namespace Stencil.Text

/-- The words of a text: its maximal runs of characters that are no white space. -/
def words (text : List Char) : List (List Char) := (text.splitOnP isBlank).filter (· ≠ [])

/-- Two texts with the same characters, up to the blanks that their runs of blanks consist of. -/
inductive Respaced : List Char → List Char → Prop where
  | nil : Respaced [] []
  | char (c : Char) {a b : List Char} : Respaced a b → Respaced (c :: a) (c :: b)
  | blanks {s t a b : List Char} : s ≠ [] → t ≠ [] → allBlank s → allBlank t → Respaced a b →
      Respaced (s ++ a) (t ++ b)

namespace Respaced

variable {a b a' b' : List Char}

/-- A text is respaced to itself. -/
theorem refl (a : List Char) : Respaced a a := by
  induction a with
  | nil => exact .nil
  | cons c _ ih => exact .char c ih

/-- Respaced texts may be put behind one another. -/
theorem append (h : Respaced a b) (h' : Respaced a' b') : Respaced (a ++ a') (b ++ b') := by
  induction h with
  | nil => exact h'
  | char c _ ih => exact .char c ih
  | blanks hs ht hs' ht' _ ih =>
    rw [List.append_assoc, List.append_assoc]
    exact .blanks hs ht hs' ht' ih

end Respaced

/-- A text is blank if its first character is, and what is behind it. -/
theorem allBlank_cons {c : Char} {cs : List Char} :
    allBlank (c :: cs) ↔ isBlank c ∧ allBlank cs := by
  rw [allBlank, List.all_cons, Bool.and_eq_true]
  rfl

/-- Two texts are blank together if each of them is. -/
theorem allBlank_append {s t : List Char} : allBlank (s ++ t) ↔ allBlank s ∧ allBlank t := by
  rw [allBlank, List.all_append, Bool.and_eq_true]
  rfl

/-! ### The words of respaced texts -/

/-- A blank ends a word, and belongs to none. -/
theorem words_append_blank {c : Char} (hc : isBlank c) (x y : List Char) :
    words (x ++ c :: y) = words x ++ words y := by
  unfold words
  rw [List.splitOnP_append_cons x y hc, List.filter_append]

/-- A run of blanks ends a word as one blank does. -/
theorem words_append_blanks {s : List Char} (hne : s ≠ []) (hs : allBlank s) (x y : List Char) :
    words (x ++ (s ++ y)) = words x ++ words y := by
  induction s generalizing x with
  | nil => exact absurd rfl hne
  | cons c rest ih =>
    obtain ⟨hc, hrest⟩ := allBlank_cons.mp hs
    rw [List.cons_append, words_append_blank hc]
    cases rest with
    | nil => rfl
    | cons d rest =>
      have hbehind := ih (List.cons_ne_nil d rest) hrest []
      rw [List.nil_append] at hbehind
      rw [hbehind]
      rfl

/-- **Respaced texts have the same words.** -/
theorem Respaced.words_eq {a b : List Char} (h : Respaced a b) : words a = words b := by
  -- Behind any text, since the first run may go on one that has begun before it.
  have hbehind : ∀ front, words (front ++ a) = words (front ++ b) := by
    induction h with
    | nil => exact fun _ => rfl
    | char c _ ih =>
      intro front
      simpa using ih (front ++ [c])
    | blanks hs ht hs' ht' _ ih =>
      intro front
      rw [words_append_blanks hs hs', words_append_blanks ht ht']
      exact congrArg _ (ih [])
  exact hbehind []

/-! ### Trimmed lines -/

/-- Trimming the start leaves nothing of the texts that are blank. -/
theorem trimStart_eq_nil {cs : List Char} : trimStart cs = [] ↔ allBlank cs := by
  rw [trimStart_eq_nil_iff, allBlank, List.all_eq_true]

/-- What `trimStart` takes off a text. -/
theorem exists_trimStart (cs : List Char) : ∃ s, allBlank s ∧ cs = s ++ trimStart cs :=
  ⟨cs.takeWhile isBlank, List.all_takeWhile, List.takeWhile_append_dropWhile.symm⟩

/-- What `trimEnd` takes off a text. -/
theorem exists_trimEnd (cs : List Char) : ∃ t, allBlank t ∧ cs = trimEnd cs ++ t := by
  obtain ⟨s, hs, hcs⟩ := exists_trimStart cs.reverse
  refine ⟨s.reverse, by rwa [allBlank, List.all_reverse], ?_⟩
  rw [trimEnd, ← List.reverse_append]
  exact List.reverse_eq_iff.mp hcs

/-- Trimming the end leaves nothing of the texts that are blank. -/
theorem trimEnd_eq_nil {cs : List Char} : trimEnd cs = [] ↔ allBlank cs := by
  rw [trimEnd, List.reverse_eq_nil_iff]
  exact trimStart_eq_nil.trans (by rw [allBlank, List.all_reverse]; rfl)

/-- What `trim` takes off a text. -/
theorem exists_trim (cs : List Char) :
    ∃ s t, allBlank s ∧ allBlank t ∧ cs = s ++ (trim cs ++ t) := by
  obtain ⟨s, hs, hcs⟩ := exists_trimStart cs
  obtain ⟨t, ht, hmiddle⟩ := exists_trimEnd (trimStart cs)
  exact ⟨s, t, hs, ht, hcs.trans (congrArg _ hmiddle)⟩

/-! ### Squeezing -/

/-- A text is made of its lines. -/
theorem intercalate_lines (text : List Char) : ['\n'].intercalate (lines text) = text := by
  induction text with
  | nil => rfl
  | cons c cs ih =>
    rcases hlines : lines cs with _ | ⟨line, rest⟩
    · exact absurd hlines (lines_ne_nil cs)
    · rw [hlines] at ih
      rw [lines]
      -- the text goes on behind a line feed, which joins the lines again
      split
      · rename_i hc
        rw [hlines, hc, List.intercalate_cons_cons, ih]
        rfl
      -- the character belongs to the first line
      · rw [hlines]
        cases rest with
        | nil => simpa using ih
        | cons => simpa [List.intercalate_cons_cons] using ih

/-- Lines are joined by a separator in front of every line but the first. -/
theorem intercalate_cons (separator : Char) (first : List Char) (rest : List (List Char)) :
    [separator].intercalate (first :: rest) = first ++ rest.flatMap (separator :: ·) := by
  induction rest generalizing first with
  | nil => simp
  | cons second rest ih => simp [List.intercalate_cons_cons, ih]

/-- A line with others behind it is trimmed at both ends. -/
theorem trimLater_cons (line next : List Char) (rest : List (List Char)) :
    trimLater (line :: next :: rest) = trim line :: trimLater (next :: rest) := rfl

/-- Squeezing leaves something of every text. -/
theorem squeeze_eq_nil_iff {separator : Char} {text : List Char} :
    squeeze separator text = [] ↔ text = [] := by
  have hlines : ∀ all, squeezeLines separator all ≠ [] := by
    intro all
    unfold squeezeLines
    split
    · exact List.cons_ne_nil _ _
    · rename_i kept hnil
      -- what is kept are lines with something on them
      obtain ⟨line, rest, hkept⟩ := List.exists_cons_of_ne_nil hnil
      have hline : line ≠ [] := by
        have hmem : line ∈ (trimLines all).filter (· ≠ []) := hkept ▸ List.mem_cons_self
        simpa using (List.mem_filter.mp hmem).2
      rw [hkept, intercalate_cons]
      simp [hline]
  unfold squeeze
  split
  · rename_i hbreak
    exact ⟨fun h => absurd h (hlines _), fun h => absurd (h ▸ hbreak) List.not_mem_nil⟩
  · exact Iff.rfl

/-- What a line break becomes, with the lines behind it: a separator before each line that is not
blank, and one for a blank line at the end. -/
def squeezeLater (separator : Char) (rest : List (List Char)) : List Char :=
  ((trimLater rest).filter (· ≠ [])).flatMap (separator :: ·) ++ edge separator rest.getLast?

/-- A blank line at an end leaves a separator there. -/
theorem edge_of_blank {separator : Char} {line : List Char} (h : allBlank line) :
    edge separator (some line) = [separator] := if_pos h

/-- A line with something on it leaves no separator at its end. -/
theorem edge_of_not_blank {separator : Char} {line : List Char} (h : ¬ allBlank line) :
    edge separator (some line) = [] := if_neg h

/-- Behind the last line break, the blanks in front of the last line go. -/
theorem squeezeLater_single (separator : Char) (last : List Char) :
    squeezeLater separator [last] = separator :: trimStart last := by
  by_cases hlast : allBlank last
  · have hnothing := trimStart_eq_nil.mpr hlast
    simp [squeezeLater, trimLater, hnothing, edge_of_blank hlast]
  · have hsomething := mt trimStart_eq_nil.mp hlast
    simp [squeezeLater, trimLater, hsomething, edge_of_not_blank hlast]

/-- A blank line with lines behind it goes, together with its break. -/
theorem squeezeLater_blank (separator : Char) {line : List Char} (h : trim line = [])
    (next : List Char) (rest : List (List Char)) :
    squeezeLater separator (line :: next :: rest) = squeezeLater separator (next :: rest) := by
  simp [squeezeLater, trimLater, h]

/-- A line with something on it is trimmed and put behind a separator. -/
theorem squeezeLater_cons (separator : Char) {line : List Char} (h : trim line ≠ [])
    (next : List Char) (rest : List (List Char)) :
    squeezeLater separator (line :: next :: rest) =
      separator :: (trim line ++ squeezeLater separator (next :: rest)) := by
  simp [squeezeLater, trimLater, h]

/-- Blanks and the lines behind them are respaced to what a line break in front of these lines
becomes. -/
theorem respaced_squeezeLater {separator : Char} (hsep : isBlank separator) (line : List Char)
    (rest : List (List Char)) (front : List Char) (hne : front ≠ []) (hfront : allBlank front) :
    Respaced (front ++ ['\n'].intercalate (line :: rest))
      (squeezeLater separator (line :: rest)) := by
  have hblank : allBlank [separator] := allBlank_cons.mpr ⟨hsep, rfl⟩
  have hbreak : allBlank ['\n'] := by decide +kernel
  -- The blanks in front grow while lines are blank, and start anew behind a line that is not.
  induction rest generalizing line front with
  | nil =>
    obtain ⟨s, hs, hline⟩ := exists_trimStart line
    rw [squeezeLater_single, List.intercalate_singleton]
    conv => lhs; rw [hline, ← List.append_assoc]
    exact .blanks (List.append_ne_nil_of_left_ne_nil hne s) (List.cons_ne_nil _ _)
      (allBlank_append.mpr ⟨hfront, hs⟩) hblank (.refl _)
  | cons next rest ih =>
    obtain ⟨s, t, hs, ht, hline⟩ := exists_trim line
    by_cases hempty : trim line = []
    · rw [squeezeLater_blank separator hempty]
      rw [hempty, List.nil_append] at hline
      have hnext := ih next (front ++ (line ++ ['\n'])) (by simp [hne])
        (by simp [allBlank_append, hfront, hline, hs, ht, hbreak])
      simpa [List.intercalate_cons_cons] using hnext
    · rw [squeezeLater_cons separator hempty]
      have hnext := ih next (t ++ ['\n']) (by simp)
        (allBlank_append.mpr ⟨ht, hbreak⟩)
      have hsplit := Respaced.blanks (List.append_ne_nil_of_left_ne_nil hne s)
        (List.cons_ne_nil separator []) (allBlank_append.mpr ⟨hfront, hs⟩) hblank
        ((Respaced.refl (trim line)).append hnext)
      rw [List.intercalate_cons_cons]
      conv => lhs; rw [hline]
      simpa using hsplit

/-- One separator is left of lines that are all blank. -/
theorem squeezeLater_of_nil (separator : Char) {line : List Char} {rest : List (List Char)}
    (h : (trimLater (line :: rest)).filter (· ≠ []) = []) :
    squeezeLater separator (line :: rest) = [separator] := by
  induction rest generalizing line with
  | nil =>
    have hlast : trimStart line = [] := by simpa [trimLater] using h
    rw [squeezeLater_single, hlast]
  | cons next rest ih =>
    rw [trimLater_cons, List.filter_cons] at h
    by_cases hline : trim line = []
    · rw [squeezeLater_blank separator hline]
      exact ih (by simpa [hline] using h)
    · simp [hline] at h

/-- A text of several lines begins with its first line, without the blanks at its end. -/
theorem squeezeLines_cons (separator : Char) (first line : List Char) (rest : List (List Char)) :
    squeezeLines separator (first :: line :: rest) =
      trimEnd first ++ squeezeLater separator (line :: rest) := by
  rw [squeezeLines, trimLines, List.head?_cons, List.getLast?_cons_cons, List.filter_cons]
  by_cases hfirst : allBlank first
  -- the blank first line leaves a separator, which stands in front of the first line that is kept
  · rw [trimEnd_eq_nil.mpr hfirst, edge_of_blank hfirst]
    rcases hkept : (trimLater (line :: rest)).filter (· ≠ []) with _ | ⟨second, kept⟩
    · simp [squeezeLater_of_nil separator hkept]
    · have hlater : squeezeLater separator (line :: rest) =
          (second :: kept).flatMap (separator :: ·) ++ edge separator (line :: rest).getLast? := by
        rw [squeezeLater, hkept]
      rw [if_neg (by simp), hlater, List.flatMap_cons, List.nil_append]
      dsimp only
      rw [intercalate_cons]
      rfl
  -- otherwise the first line is the first one that is kept
  · have hkept : trimEnd first ≠ [] := mt trimEnd_eq_nil.mp hfirst
    rw [if_pos (decide_eq_true hkept), edge_of_not_blank hfirst]
    dsimp only
    rw [intercalate_cons, List.nil_append, List.append_assoc]
    rfl

/-- A text with a line feed has two lines or more. -/
theorem lines_of_mem {text : List Char} (h : '\n' ∈ text) :
    ∃ first line rest, lines text = first :: line :: rest := by
  induction text with
  | nil => exact absurd h List.not_mem_nil
  | cons c cs ih =>
    rw [lines]
    split
    · obtain ⟨line, rest, hlines⟩ := List.exists_cons_of_ne_nil (lines_ne_nil cs)
      exact ⟨[], line, rest, by rw [hlines]⟩
    · rename_i hc
      obtain ⟨first, line, rest, hlines⟩ :=
        ih ((List.mem_cons.mp h).resolve_left fun heq => hc heq.symm)
      exact ⟨c :: first, line, rest, by rw [hlines]⟩

/-- **Squeezing respaces**, if lines are joined by a blank. -/
theorem respaced_squeeze {separator : Char} (hsep : isBlank separator) (text : List Char) :
    Respaced text (squeeze separator text) := by
  unfold squeeze
  split
  · rename_i hbreak
    obtain ⟨first, line, rest, hlines⟩ := lines_of_mem hbreak
    obtain ⟨t, ht, hfirst⟩ := exists_trimEnd first
    -- The blanks at the end of the first line stand before the break.
    have hlater := respaced_squeezeLater hsep line rest (t ++ ['\n']) (by simp)
      (allBlank_append.mpr ⟨ht, by decide +kernel⟩)
    have hsplit := (Respaced.refl (trimEnd first)).append hlater
    have htext := intercalate_lines text
    rw [hlines, List.intercalate_cons_cons] at htext
    rw [hlines, squeezeLines_cons, ← htext]
    conv => lhs; rw [hfirst]
    simpa using hsplit
  · exact .refl text

/-! ### Escaping -/

/-- A blank stands for itself in markup. -/
theorem entity_of_isBlank {c : Char} (h : isBlank c) : entity c = [c] := by
  have hne : ∀ {special}, isBlank special = false → c ≠ special := by
    rintro special hspecial rfl
    rw [hspecial] at h
    cases h
  rw [entity, if_neg (hne (by decide +kernel)), if_neg (hne (by decide +kernel)),
    if_neg (hne (by decide +kernel)), if_neg (hne (by decide +kernel)),
    if_neg (hne (by decide +kernel))]

/-- Escaping leaves blanks alone, so that respaced texts stay respaced. -/
theorem Respaced.escapeChars {a b : List Char} (h : Respaced a b) :
    Respaced (escapeChars a) (escapeChars b) := by
  have hblanks : ∀ {s}, allBlank s → Text.escapeChars s = s := by
    intro s hs
    -- escaping changes no blank, so that a run of them stays the run it is
    induction s with
    | nil => rfl
    | cons c rest ih =>
      obtain ⟨hc, hrest⟩ := allBlank_cons.mp hs
      change entity c ++ Text.escapeChars rest = _
      rw [entity_of_isBlank hc, ih hrest]
      rfl
  induction h with
  | nil => exact .nil
  | char c _ ih => exact (Respaced.refl (entity c)).append ih
  | blanks hs ht hs' ht' _ ih =>
    rw [escapeChars_append, escapeChars_append, hblanks hs', hblanks ht']
    exact .blanks hs ht hs' ht' ih

end Stencil.Text
