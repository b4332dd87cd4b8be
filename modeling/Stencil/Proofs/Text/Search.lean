import Mathlib.Data.List.Infix
import Mathlib.Data.List.TakeWhile
import Mathlib.Order.Bounds.Basic
import Stencil.Text.Search

/-!
# Runs of characters, and occurrences of one text in another

A text begins with the longest run of characters in a class, and taking it off depends on nothing
but the character behind it (`IsRun.span`, `span_append`).

`StandsAt needle text i` says that `needle` stands in `text` behind `i` characters, and this is what
searching, slicing and splitting have in common.

* A cut is made at the first occurrence (`cut_eq_some_iff`). The byte at which an occurrence begins
  is as many bytes behind the start as the text in front of it takes, so as many characters begin
  before this byte as stand in front of the occurrence (`charPosition_byteLength`).
* Splitting cuts at the first occurrence and goes on behind it, so no piece has the separator in it
  (`not_isInfix_of_mem_pieces`). Replacing cuts at the same places (`replace_eq_intercalate`).

Main definitions: `IsRun`, `FirstAt`, `StandsAt`.
Main statements: `position_find?_eq_some_iff`, `position_findLast?_eq_some_iff`,
`replace_eq_intercalate`.
-/

namespace Stencil

/-! ### Runs -/

section Runs

variable {p : Char → Bool} {word after : List Char}

/-- Whether `word` is the longest front of `word ++ after` with characters in a class. -/
structure IsRun (p : Char → Bool) (word after : List Char) : Prop where
  all : ∀ c ∈ word, p c = true
  ends : ∀ c ∈ after.head?, p c = false

/-- Every text is a run and what is left. -/
theorem isRun_span (p : Char → Bool) (cs : List Char) :
    IsRun p (cs.takeWhile p) (cs.dropWhile p) where
  all c hc := List.mem_takeWhile_imp hc
  ends c hc := by
    have := List.head?_dropWhile_not p cs
    rw [Option.mem_def.1 hc] at this
    simpa using this

/-- **A run is what is taken off the front of a text**, and what follows it is left. -/
theorem IsRun.span (h : IsRun p word after) :
    (word ++ after).takeWhile p = word ∧ (word ++ after).dropWhile p = after := by
  rw [List.takeWhile_append_of_pos h.all, List.dropWhile_append_of_pos h.all]
  cases after with
  | nil => simp
  | cons c cs => simp [h.ends c rfl]

theorem IsRun.takeWhile (h : IsRun p word after) : (word ++ after).takeWhile p = word := h.span.1

theorem IsRun.dropWhile (h : IsRun p word after) : (word ++ after).dropWhile p = after := h.span.2

/-- More text that does not go on with a run leaves the run at the front as it is. -/
theorem span_append {more : List Char} (cs : List Char) (hmore : ∀ c ∈ more.head?, p c = false) :
    (cs ++ more).takeWhile p = cs.takeWhile p ∧
      (cs ++ more).dropWhile p = cs.dropWhile p ++ more := by
  obtain ⟨hall, hends⟩ := isRun_span p cs
  have hrun : IsRun p (cs.takeWhile p) (cs.dropWhile p ++ more) := by
    refine ⟨hall, ?_⟩
    cases hdrop : cs.dropWhile p with
    | nil => exact hmore
    | cons d rest =>
      rw [hdrop] at hends
      exact hends
  have hcs : cs ++ more = cs.takeWhile p ++ (cs.dropWhile p ++ more) := by
    rw [← List.append_assoc, List.takeWhile_append_dropWhile]
  rw [hcs]
  exact hrun.span

end Runs

/-! ### Cuts -/

/-- Whether `needle` stands between `before` and `after`, and begins nowhere before. -/
def FirstAt (needle text before after : List Char) : Prop :=
  text = before ++ needle ++ after ∧ ∀ front back, text = front ++ needle ++ back →
    before.length ≤ front.length

/-- If a mark is not found at the front of a text, then the text does not begin with it. -/
theorem isPrefixOf?_eq_none {needle text back : List Char}
    (h : needle.isPrefixOf? text = none) : text ≠ needle ++ back := by
  intro e
  rw [List.isPrefixOf?_eq_some_iff_append_eq.2 e.symm] at h
  simp at h

/-- No occurrence of a mark begins in front of the cut. -/
theorem le_length_of_cut {needle text before after front back : List Char}
    (h : Text.cut needle text = some (before, after)) (hf : text = front ++ needle ++ back) :
    before.length ≤ front.length := by
  induction text generalizing before front with
  | nil =>
    rw [Text.cut] at h
    split at h
    · obtain ⟨rfl, -⟩ := Prod.mk.inj (Option.some.inj h)
      exact Nat.zero_le _
    · cases h
  | cons c cs ih =>
    rw [Text.cut] at h
    split at h
    -- the mark is at the front, so nothing is in front of it
    · simp only [Option.some.injEq, Prod.mk.injEq] at h
      simp [← h.1]
    -- it is not, so an occurrence does not begin here, and what is left decides
    · rename_i hp
      obtain ⟨⟨before, after⟩, hc, he⟩ := Option.map_eq_some_iff.1 h
      simp only [Prod.mk.injEq] at he
      obtain ⟨rfl, rfl⟩ := he
      cases front with
      | nil => exact absurd hf (isPrefixOf?_eq_none hp)
      | cons d front =>
        simp only [List.cons_append, List.cons.injEq] at hf
        have := ih hc hf.2
        simpa using this

/-- A text is cut in front of what it begins with. -/
theorem cut_append (needle after : List Char) :
    Text.cut needle (needle ++ after) = some ([], after) := by
  have hp : needle.isPrefixOf? (needle ++ after) = some after :=
    List.isPrefixOf?_eq_some_iff_append_eq.2 rfl
  cases hsplit : needle ++ after with
  | nil =>
    obtain ⟨rfl, rfl⟩ := List.append_eq_nil_iff.1 hsplit
    rfl
  | cons c cs =>
    rw [hsplit] at hp
    rw [Text.cut, hp]

/-- A cut is made where the mark stands first. -/
theorem cut_eq_some_iff {needle text before after : List Char} :
    Text.cut needle text = some (before, after) ↔ FirstAt needle text before after := by
  refine ⟨fun h => ⟨Text.eq_of_cut h, fun _ _ hf => le_length_of_cut h hf⟩, ?_⟩
  rintro ⟨rfl, hfirst⟩
  induction before with
  | nil => exact cut_append needle after
  | cons c before ih =>
    -- an occurrence at the very front would be earlier than the first one
    have hnone : needle.isPrefixOf? (c :: (before ++ needle ++ after)) = none := by
      cases hp : needle.isPrefixOf? (c :: (before ++ needle ++ after)) with
      | none => rfl
      | some back =>
        have := hfirst [] back (by simpa using (List.isPrefixOf?_eq_some_iff_append_eq.1 hp).symm)
        simp at this
    -- what is left has its first occurrence one character earlier
    have hcut := ih fun front back hf => by
      have := hfirst (c :: front) back (by simp [hf])
      simpa using this
    rw [List.cons_append, List.cons_append, Text.cut, hnone, hcut]
    rfl

/-- No cut is made where there is no mark. -/
theorem cut_eq_none_iff {needle text : List Char} :
    Text.cut needle text = none ↔ ¬ needle <:+: text := by
  constructor
  · induction text with
    | nil =>
      intro h
      rw [List.infix_nil]
      rintro rfl
      cases h
    | cons c cs ih =>
      intro h hinfix
      rw [Text.cut] at h
      split at h
      · cases h
      · rename_i hp
        -- an occurrence begins here, or it is one in what is left
        rcases List.infix_cons_iff.1 hinfix with ⟨back, hprefix⟩ | hinfix
        · exact isPrefixOf?_eq_none hp hprefix.symm
        · exact ih (Option.map_eq_none_iff.1 h) hinfix
  · intro hinfix
    cases hcut : Text.cut needle text with
    | none => rfl
    | some parts => exact absurd ⟨parts.1, parts.2, (Text.eq_of_cut hcut).symm⟩ hinfix

namespace Text

variable {needle text before after : List Char} {i : Nat}

/-! ### Positions -/

/-- `needle` stands in `text` behind `i` characters. -/
def StandsAt (needle text : List Char) (i : Nat) : Prop :=
  ∃ before after, text = before ++ needle ++ after ∧ before.length = i

/-- At the position zero there stands what a text begins with. -/
theorem standsAt_zero_iff : StandsAt needle text 0 ↔ needle <+: text := by
  constructor
  · rintro ⟨before, after, rfl, hlength⟩
    obtain rfl := List.length_eq_zero_iff.1 hlength
    exact ⟨after, rfl⟩
  · rintro ⟨after, rfl⟩
    exact ⟨[], after, rfl, rfl⟩

/-- Behind one more character, everything stands one position later. -/
theorem standsAt_succ_iff {c : Char} {cs : List Char} :
    StandsAt needle (c :: cs) (i + 1) ↔ StandsAt needle cs i := by
  constructor
  · rintro ⟨before, after, heq, hlength⟩
    obtain ⟨d, before, rfl⟩ := List.exists_cons_of_length_eq_add_one hlength
    exact ⟨before, after, (List.cons.inj heq).2, Nat.succ.inj hlength⟩
  · rintro ⟨before, after, rfl, rfl⟩
    exact ⟨c :: before, after, rfl, rfl⟩

/-- An occurrence is a slice as long as what occurs. -/
theorem standsAt_iff_slice : StandsAt needle text i ↔
    i + needle.length ≤ text.length ∧ slice i (i + needle.length) text = needle := by
  unfold slice
  rw [Nat.add_sub_cancel_left]
  constructor
  · rintro ⟨before, after, rfl, rfl⟩
    simp
  · rintro ⟨hle, heq⟩
    refine ⟨text.take i, (text.drop i).drop needle.length, ?_, by simp; omega⟩
    calc text = text.take i ++ text.drop i := (List.take_append_drop ..).symm
      _ = text.take i ++
          ((text.drop i).take needle.length ++ (text.drop i).drop needle.length) := by
        rw [List.take_append_drop needle.length]
      _ = _ := by rw [heq, List.append_assoc]

/-- A slice up to the end leaves out what stands in front of it. -/
theorem slice_length (i : Nat) (text : List Char) : slice i text.length text = text.drop i :=
  List.take_of_length_le (Nat.le_of_eq List.length_drop)

/-- A text begins with its first slice of the right length. -/
theorem isPrefix_iff_slice : needle <+: text ↔
    needle.length ≤ text.length ∧ slice 0 needle.length text = needle := by
  rw [← standsAt_zero_iff, standsAt_iff_slice, Nat.zero_add]

/-- A text ends with its last slice of the right length. -/
theorem isSuffix_iff_slice : needle <:+ text ↔ needle.length ≤ text.length ∧
    slice (text.length - needle.length) text.length text = needle := by
  rw [slice_length, List.suffix_iff_eq_drop, eq_comm]
  refine ⟨fun heq => ⟨?_, heq⟩, And.right⟩
  rw [← heq, List.length_drop]
  omega

/-- A text contains another if the other occurs in it. -/
theorem contains_iff : contains needle text = true ↔ needle <:+: text := by
  rw [contains, Option.isSome_iff_ne_none, ne_eq, cut_eq_none_iff, not_not]

/-- A cut is made at the least position at which the mark stands. -/
theorem isLeast_of_cut (h : cut needle text = some (before, after)) :
    IsLeast {i | StandsAt needle text i} before.length := by
  obtain ⟨heq, hfirst⟩ := cut_eq_some_iff.1 h
  refine ⟨⟨before, after, heq, rfl⟩, ?_⟩
  rintro i ⟨front, back, hoccurs, rfl⟩
  exact hfirst front back hoccurs

/-! ### Bytes -/

/-- As many characters begin before the end of a text as it has. -/
theorem length_takeWhile_charStarts (start : Nat) (before after : List Char) :
    ((charStarts start (before ++ after)).takeWhile (· < start + byteLength before)).length =
      before.length := by
  induction before generalizing start with
  | nil => cases after <;> simp [charStarts, byteLength]
  | cons c before ih =>
    have hc := c.utf8Size_pos
    -- a character takes at least a byte, so that the first one begins in front of the end
    have hlt : decide (start < start + (c.utf8Size + byteLength before)) = true := by
      rw [decide_eq_true_iff]
      omega
    rw [List.cons_append, charStarts, byteLength, List.takeWhile_cons, if_pos hlt, List.length_cons,
      ← Nat.add_assoc, ih, List.length_cons]

/-- **Bytes are counted back to characters**: as many characters begin before a byte as there are in
front of it. -/
theorem charPosition_byteLength (before after : List Char) :
    charPosition (before ++ after) (byteLength before) = before.length := by
  have h := length_takeWhile_charStarts 0 before after
  rwa [Nat.zero_add] at h

/-- The bytes in front of an occurrence are counted back to the characters in front of it. -/
theorem charPosition_of_eq (h : text = before ++ needle ++ after) :
    charPosition text (byteLength before) = before.length := by
  rw [h, List.append_assoc, charPosition_byteLength]

/-- The position of the first occurrence, as a cut gives it. -/
theorem position_find? (needle text : List Char) :
    (find? needle text).map (charPosition text) = (cut needle text).map (·.1.length) := by
  rw [find?, Option.map_map]
  refine Option.map_congr fun parts hparts => ?_
  exact charPosition_of_eq (eq_of_cut hparts)

/-- **The first occurrence** is at the least position at which there is one. -/
theorem position_find?_eq_some_iff :
    (find? needle text).map (charPosition text) = some i ↔
      IsLeast {i | StandsAt needle text i} i := by
  rw [position_find?]
  cases hcut : cut needle text with
  | some parts =>
    obtain ⟨before, after⟩ := parts
    have hleast := isLeast_of_cut hcut
    rw [Option.map_some, Option.some.injEq]
    exact ⟨fun heq => heq ▸ hleast, fun h => hleast.unique h⟩
  | none =>
    refine ⟨nofun, ?_⟩
    rintro ⟨⟨front, back, heq, -⟩, -⟩
    exact absurd ⟨front, back, heq.symm⟩ (cut_eq_none_iff.1 hcut)

/-- No position is found if and only if there is no occurrence. -/
theorem position_find?_eq_none_iff :
    (find? needle text).map (charPosition text) = none ↔ contains needle text = false := by
  rw [position_find?, contains, Option.map_eq_none_iff, Option.isSome_eq_false_iff,
    Option.isNone_iff_eq_none]

/-- Nothing is found from the end only if nothing is there. -/
theorem findLast?_eq_none (h : findLast? needle text = none) (i : Nat) :
    ¬ StandsAt needle text i := by
  induction text generalizing i with
  | nil =>
    rw [findLast?] at h
    split at h
    · cases h
    · rename_i hneedle
      intro hi
      -- in an empty text only the empty one occurs
      have hle := (standsAt_iff_slice.1 hi).1
      exact hneedle (List.length_eq_zero_iff.1 (by rw [List.length_nil] at hle; omega))
  | cons c cs ih =>
    rw [findLast?] at h
    split at h
    · cases h
    · rename_i hrest
      split at h
      · cases h
      · rename_i hprefix
        -- an occurrence begins at this character or behind it, and both have been looked for
        cases i with
        | zero =>
          exact fun hi => hprefix (List.isPrefixOf_iff_prefix.2 (standsAt_zero_iff.1 hi))
        | succ i => exact fun hi => ih hrest i (standsAt_succ_iff.1 hi)

/-- The last occurrence is found at the byte behind what stands in front of it. -/
theorem findLast?_eq_some {byte : Nat} (h : findLast? needle text = some byte) :
    ∃ before after, text = before ++ needle ++ after ∧ byteLength before = byte ∧
      ∀ i, StandsAt needle text i → i ≤ before.length := by
  induction text generalizing byte with
  | nil =>
    rw [findLast?] at h
    split at h
    · rename_i hneedle
      obtain rfl := Option.some.inj h
      refine ⟨[], [], by rw [hneedle]; rfl, rfl, fun i hi => ?_⟩
      exact Nat.le_trans (Nat.le_add_right ..) (standsAt_iff_slice.1 hi).1
    · cases h
  | cons c cs ih =>
    rw [findLast?] at h
    split at h
    -- something is found behind this character, and what is here is earlier
    · rename_i rest hrest
      obtain rfl := Option.some.inj h
      obtain ⟨before, after, heq, rfl, hlast⟩ := ih hrest
      refine ⟨c :: before, after, by rw [heq]; rfl, rfl, fun i hi => ?_⟩
      cases i with
      | zero => exact Nat.zero_le _
      | succ i => exact Nat.succ_le_succ (hlast i (standsAt_succ_iff.1 hi))
    -- nothing is found behind it, so an occurrence here is the last one
    · rename_i hrest
      split at h
      · rename_i hprefix
        obtain rfl := Option.some.inj h
        obtain ⟨after, heq⟩ := List.isPrefixOf_iff_prefix.1 hprefix
        refine ⟨[], after, heq.symm, rfl, fun i hi => ?_⟩
        cases i with
        | zero => exact Nat.le_refl _
        | succ i => exact absurd (standsAt_succ_iff.1 hi) (findLast?_eq_none hrest i)
      · cases h

/-- **The last occurrence** is at the greatest position at which there is one. -/
theorem position_findLast?_eq_some_iff :
    (findLast? needle text).map (charPosition text) = some i ↔
      IsGreatest {i | StandsAt needle text i} i := by
  cases hlast : findLast? needle text with
  | some byte =>
    obtain ⟨before, after, heq, rfl, hmax⟩ := findLast?_eq_some hlast
    have hgreatest : IsGreatest {i | StandsAt needle text i} before.length :=
      ⟨⟨before, after, heq, rfl⟩, hmax⟩
    rw [Option.map_some, Option.some.injEq, charPosition_of_eq heq]
    exact ⟨fun h => h ▸ hgreatest, fun h => hgreatest.unique h⟩
  | none => exact ⟨nofun, fun h => absurd h.1 (findLast?_eq_none hlast i)⟩

/-- No last position is found if and only if there is no occurrence. -/
theorem position_findLast?_eq_none_iff :
    (findLast? needle text).map (charPosition text) = none ↔ contains needle text = false := by
  rw [Option.map_eq_none_iff, Bool.eq_false_iff, ne_eq, contains_iff]
  constructor
  · rintro hnone ⟨before, after, heq⟩
    exact findLast?_eq_none hnone before.length ⟨before, after, heq.symm, rfl⟩
  · intro hinfix
    cases hlast : findLast? needle text with
    | none => rfl
    | some byte =>
      obtain ⟨before, after, heq, -⟩ := findLast?_eq_some hlast
      exact absurd ⟨before, after, heq.symm⟩ hinfix

/-! ### Splitting -/

/-- **No piece has the separator in it.** -/
theorem not_isInfix_of_mem_pieces {separator piece : List Char} (hs : separator ≠ [])
    (h : piece ∈ pieces separator hs text) : ¬ separator <:+: piece := by
  fun_induction pieces separator hs text with
  | case1 text hcut =>
    obtain rfl := List.mem_singleton.1 h
    exact cut_eq_none_iff.1 hcut
  | case2 text before after hcut ih =>
    rcases List.mem_cons.1 h with rfl | hmem
    · -- An occurrence in front of the first one would be the first one.
      rintro ⟨front, back, rfl⟩
      obtain ⟨heq, hfirst⟩ := cut_eq_some_iff.1 hcut
      have hle := hfirst front (back ++ separator ++ after) (by rw [heq]; simp)
      have hpos := List.length_pos_iff.2 hs
      simp only [List.length_append] at hle
      omega
    · exact ih hmem

/-- The recursion that replaces cuts where the one that splits does. -/
theorem substitute_eq_intercalate (pattern image : List Char) (hp : pattern ≠ [])
    (text : List Char) :
    substitute pattern image hp text = image.intercalate (pieces pattern hp text) := by
  fun_induction substitute pattern image hp text with
  | case1 text hcut =>
    rw [pieces]
    split
    · simp
    · simp_all
  | case2 text before after hcut ih =>
    rw [pieces]
    split
    · simp_all
    · rename_i hcut'
      rw [hcut] at hcut'
      obtain ⟨rfl, rfl⟩ := Prod.mk.inj (Option.some.inj hcut')
      rw [List.intercalate_cons_of_ne_nil (pieces_ne_nil _ _ _), ih]

/-- **Replacing is splitting and joining.** -/
theorem replace_eq_intercalate (pattern image text : List Char) :
    replace pattern image text = image.intercalate (split pattern text) := by
  unfold replace split
  split
  -- the empty pattern: the image stands in front of every character, and behind the last one
  · rw [List.cons_append, List.intercalate_cons_of_ne_nil (by simp)]
    congr 1
    induction text with
    | nil => simp
    | cons c cs ih =>
      have hrest : cs.map (fun c => [c]) ++ [[]] ≠ [] := by simp
      have hjoin : image.intercalate ([c] :: _) = _ := List.intercalate_cons_of_ne_nil hrest
      rw [← ih] at hjoin
      simpa using hjoin.symm
  · exact substitute_eq_intercalate ..

end Text

end Stencil
