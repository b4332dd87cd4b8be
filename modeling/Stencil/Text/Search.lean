/-!
# Searching and splitting text

Occurrences of one text in another. The empty text occurs at every border between characters, before
the first and after the last one included.

* `cut` finds the first occurrence and gives what stands before and after it; `contains` asks for
  one.
* `find?` and `findLast?` find the byte of UTF-8 at which an occurrence begins. All other positions
  and lengths count characters, and `charPosition` takes the one to the other.
* `split` takes a text apart at every occurrence of a separator, from the left and without
  overlaps; `replace` puts another text in the place of those occurrences.

Main statements: `eq_of_cut` (the three parts of a cut make up the text) and
`intercalate_split` (joining the pieces with the separator gives back the text).
-/

namespace Stencil.Text

/-- The text before and after the first occurrence of `needle`. -/
def cut (needle : List Char) : List Char → Option (List Char × List Char)
  | [] => if needle = [] then some ([], []) else none
  | c :: cs =>
    match needle.isPrefixOf? (c :: cs) with
    | some rest => some ([], rest)
    | none => (cut needle cs).map fun (before, after) => (c :: before, after)

/-- Whether `needle` occurs in `text`. -/
def contains (needle text : List Char) : Bool := (cut needle text).isSome

/-- The number of bytes that a text takes. -/
def byteLength : List Char → Nat
  | [] => 0
  | c :: cs => c.utf8Size + byteLength cs

/-- The byte at which the first occurrence of `needle` begins. -/
def find? (needle text : List Char) : Option Nat :=
  (cut needle text).map fun (before, _) => byteLength before

/-- The byte at which the last occurrence of `needle` begins. -/
def findLast? (needle : List Char) : List Char → Option Nat
  | [] => if needle = [] then some 0 else none
  | c :: cs =>
    match findLast? needle cs with
    | some byte => some (c.utf8Size + byte)
    | none => if needle.isPrefixOf (c :: cs) then some 0 else none

/-- The bytes at which the characters of a text begin, if it begins at byte `start`. -/
def charStarts (start : Nat) : List Char → List Nat
  | [] => []
  | c :: cs => start :: charStarts (start + c.utf8Size) cs

/-- The number of characters of a text that begin before a byte of it. -/
def charPosition (text : List Char) (byte : Nat) : Nat :=
  ((charStarts 0 text).takeWhile (· < byte)).length

/-- The characters from position `start` up to position `stop`. -/
def slice (start stop : Nat) (text : List Char) : List Char := (text.drop start).take (stop - start)

/-- What is left behind a prefix makes up the text together with it. -/
theorem append_of_isPrefixOf? {a b t : List Char} (h : a.isPrefixOf? b = some t) : b = a ++ t := by
  induction a generalizing b with
  | nil => exact Option.some.inj h
  | cons x xs ih =>
    cases b with
    | nil => nomatch (h : none = some t)
    | cons y ys =>
      change (if x == y then xs.isPrefixOf? ys else none) = some t at h
      -- the first characters have to be the same
      by_cases e : x = y
      · subst e
        rw [beq_self_eq_true, if_pos rfl] at h
        rw [ih h, List.cons_append]
      · rw [beq_eq_false_iff_ne.2 e] at h
        simp at h

/-- The parts of a cut make up the text. -/
theorem eq_of_cut {needle text before after : List Char}
    (h : cut needle text = some (before, after)) : text = before ++ needle ++ after := by
  induction text generalizing before with
  | nil =>
    rw [cut] at h
    split at h <;> simp_all
  | cons c cs ih =>
    rw [cut] at h
    split at h
    -- the needle begins here, or it is cut out further behind
    · rename_i rest hr
      simp only [Option.some.injEq, Prod.mk.injEq] at h
      obtain ⟨rfl, rfl⟩ := h
      simpa using append_of_isPrefixOf? hr
    · cases hc : cut needle cs with
      | none => simp [hc] at h
      | some p =>
        obtain ⟨b, a⟩ := p
        simp only [hc, Option.map_some, Option.some.injEq, Prod.mk.injEq] at h
        obtain ⟨rfl, rfl⟩ := h
        simp [ih hc]

/-- What stands behind a needle that is not empty is shorter than the text. -/
theorem length_of_cut {needle text before after : List Char}
    (h : cut needle text = some (before, after)) (hn : needle ≠ []) :
    after.length < text.length := by
  have := List.length_pos_iff.2 hn
  rw [eq_of_cut h]
  simp only [List.length_append]
  omega

/-! ### Splitting -/

/-- The pieces between the occurrences of a separator that is not empty. -/
def pieces (separator : List Char) (hs : separator ≠ []) (text : List Char) : List (List Char) :=
  match _h : cut separator text with
  | none => [text]
  | some (before, after) => before :: pieces separator hs after
termination_by text.length
decreasing_by exact length_of_cut ‹_› hs

/-- The pieces between the occurrences of a separator. The empty separator leaves an empty piece
at each end and every character on its own. -/
def split (separator text : List Char) : List (List Char) :=
  if h : separator = [] then [] :: text.map (fun c => [c]) ++ [[]] else pieces separator h text

/-- The text with `image` in the place of every occurrence of a pattern that is not empty. -/
def substitute (pattern image : List Char) (hp : pattern ≠ []) (text : List Char) : List Char :=
  match _h : cut pattern text with
  | none => text
  | some (before, after) => before ++ image ++ substitute pattern image hp after
termination_by text.length
decreasing_by exact length_of_cut ‹_› hp

/-- The text with `image` in the place of every occurrence of `pattern`. -/
def replace (pattern image text : List Char) : List Char :=
  if h : pattern = [] then image ++ text.flatMap (fun c => c :: image)
  else substitute pattern image h text

/-- A text has one piece more than it has separators, so at least one. -/
theorem pieces_ne_nil (separator : List Char) (hs : separator ≠ []) (text : List Char) :
    pieces separator hs text ≠ [] := by
  rw [pieces]
  split <;> simp

/-- The pieces of a text with the separator between them are the text. -/
theorem intercalate_pieces (separator : List Char) (hs : separator ≠ []) (text : List Char) :
    separator.intercalate (pieces separator hs text) = text := by
  fun_induction pieces separator hs text with
  | case1 text h => simp [List.intercalate]
  | case2 text before after h ih =>
    -- a separator stands behind every piece but the last, so the rest must have one
    have hne := pieces_ne_nil separator hs after
    cases hp : pieces separator hs after with
    | nil => exact absurd hp hne
    | cons p ps =>
      rw [hp] at ih
      rw [eq_of_cut h]
      simp only [List.intercalate, List.intersperse_cons_cons, List.flatten_cons] at ih ⊢
      rw [← ih]
      simp

/-- With nothing between them, the characters of a text are the text. -/
theorem intercalate_singletons (text : List Char) :
    ([] : List Char).intercalate ([] :: text.map (fun c => [c]) ++ [[]]) = text := by
  have flat : ∀ l : List (List Char), ([] : List Char).intercalate l = l.flatten := by
    intro l
    induction l with
    | nil => rfl
    | cons x xs ih =>
      cases xs with
      | nil => simp [List.intercalate]
      | cons y ys =>
        simp only [List.intercalate, List.intersperse_cons_cons, List.flatten_cons] at ih ⊢
        rw [ih]
        simp
  rw [flat]
  simp only [List.cons_append, List.flatten_cons, List.nil_append, List.flatten_append,
    List.flatten_nil, List.append_nil]
  induction text with
  | nil => rfl
  | cons c cs ih => simpa using ih

/-- Joining the pieces with the separator gives back the text. -/
theorem intercalate_split (separator text : List Char) :
    separator.intercalate (split separator text) = text := by
  unfold split
  split
  · rename_i h
    subst h
    exact intercalate_singletons text
  · exact intercalate_pieces _ _ _

end Stencil.Text
