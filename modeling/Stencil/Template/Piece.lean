import Stencil.Error
import Stencil.Expr.Scan
import Stencil.Text.Search

/-!
# Pieces of a template

A template text is cut into pieces. What is no construct is literal text; a construct begins with
`#`:

* `## …` is a comment up to the end of the line, `#-- … --#` one that may span lines;
* `#[[ … ]]#` is a verbatim block, whose content is literal text;
* `#(…)`, `#name(…)`, `#@name(…)` and `#define name(…)` are tags with parameters, and a few words
  (`plainWords`) are tags without.

A `#` that begins none of these stands for itself. Parameters end at the parenthesis that closes
them; parentheses inside string literals do not count, and neither does a quote after a
backslash.

Cutting does not look at what surrounds a piece. Which line breaks belong to the output is decided
later, by the layout of lines.

Main definition: `cutTemplate`. Main statement: `scanPiece_rest_length` (a piece takes at least
one character).
-/

namespace Stencil

/-- A tag of a template. -/
inductive Tag where
  /-- `#id` or `#id(parameters)`; `#(…)` has the id `output`. -/
  | directive (id : String) (parameters : Option String)
  /-- `#@name(parameters)`, or `#@name?(parameters)` if the function need not exist. -/
  | call (name : String) (ifDefined : Bool) (parameters : String)
  /-- `#define name(parameters)` -/
  | define (name : String) (parameters : String)
deriving DecidableEq, Repr

/-- The word under which a tag is known as one that keeps its line. -/
def Tag.id : Tag → String
  | directive id _ => id
  | call .. => "call"
  | define .. => "define"

/-- A piece of a template text. -/
inductive Piece where
  | text (chars : List Char)
  | lineComment
  | blockComment
  | verbatim (chars : List Char)
  | tag (tag : Tag)
deriving DecidableEq, Repr

/-- A piece and the row it begins in. -/
structure PlacedPiece where
  piece : Piece
  row : Nat
deriving DecidableEq, Repr

/-- The outcome of scanning a construct: the piece, the text after it, and the number of line
feeds counted inside; or a fault, and the number of line feeds counted before it. -/
abbrev Cut := Except (ParseFault × Nat) (Piece × List Char × Nat)

/-! ### Words and blanks -/

/-- Whether a character may stand in the name of a tag. -/
def isTagChar (c : Char) : Bool := c.isAlphanum || c == '_' || c == '$'

/-- Whether a character may begin the name of a tag. -/
def isTagStart (c : Char) : Bool := c.isAlpha || c == '_'

/-- Whether a character is a space or a tab. -/
def isSpace (c : Char) : Bool := c == ' ' || c == '\t'

/-- The words that are tags without parameters. -/
def plainWords : List String := ["else", "end", "break", "continue", "return", "default"]

/-! ### Parameters -/

/-- Puts characters in front of scanned parameters. -/
def prepend (front : List Char) :
    Except (ParseFault × Nat) (List Char × List Char × Nat) →
      Except (ParseFault × Nat) (List Char × List Char × Nat)
  | .ok (parameters, rest, rows) => .ok (front ++ parameters, rest, rows)
  | .error fault => .error fault

/-- What is scanned behind a part that is put in front was scanned without it. -/
theorem eq_ok_of_prepend {front parameters rest : List Char} {rows : Nat}
    {scanned : Except (ParseFault × Nat) (List Char × List Char × Nat)}
    (h : prepend front scanned = .ok (parameters, rest, rows)) :
    ∃ inner, scanned = .ok (inner, rest, rows) ∧ parameters = front ++ inner := by
  unfold prepend at h
  split at h
  · simp only [Except.ok.injEq, Prod.mk.injEq] at h
    obtain ⟨rfl, rfl, rfl⟩ := h
    exact ⟨_, rfl, rfl⟩
  · simp at h

/-- The parameters up to the parenthesis that closes them, inside `depth` further ones and
possibly inside a string literal; the text after them; and the number of line feeds counted, in
which one after a backslash is left out. -/
def scanParameters (quote : Option Char) (depth rows : Nat) :
    List Char → Except (ParseFault × Nat) (List Char × List Char × Nat)
  | [] =>
    match quote with
    | some _ => .error (.unterminated "string literal in directive parameters", rows)
    | none => .error (.unterminated "directive parameters, expected ')'", 0)
  | c :: cs =>
    match quote with
    | some q =>
      if c = '\\' then
        match cs with
        | [] => .error (.unterminated "string literal in directive parameters", rows)
        -- The escaped character is passed over, be it a quote or a line feed.
        | e :: cs => prepend [c, e] (scanParameters (some q) depth rows cs)
      else
        let quote := if c = q then none else some q
        let rows := if c = '\n' then rows + 1 else rows
        prepend [c] (scanParameters quote depth rows cs)
    | none =>
      if c = ')' ∧ depth = 0 then .ok ([], cs, rows)
      else
        let quote := if c = '\x22' ∨ c = '\x27' then some c else none
        let depth := if c = '(' then depth + 1 else if c = ')' then depth - 1 else depth
        let rows := if c = '\n' then rows + 1 else rows
        prepend [c] (scanParameters quote depth rows cs)

/-- The tag with the parameters that begin behind an opening parenthesis. -/
def scanTag (tag : String → Tag) (cs : List Char) : Cut :=
  match scanParameters none 0 0 cs with
  | .error fault => .error fault
  | .ok (parameters, rest, rows) => .ok (.tag (tag (String.ofList parameters)), rest, rows)

/-! ### Constructs -/

/-- A comment up to the end of the line. A carriage return before the line feed, or at the very
end, belongs to what follows. -/
def scanLineComment (cs : List Char) : Cut :=
  let body := cs.takeWhile (· != '\n')
  let rest := cs.dropWhile (· != '\n')
  .ok (.lineComment, if body.getLast? = some '\r' then '\r' :: rest else rest, 0)

/-- The piece that reaches up to a closing mark, made of what stands in front of the mark. -/
def scanTo (mark what : String) (piece : List Char → Piece) (cs : List Char) : Cut :=
  match Text.cut mark.toList cs with
  | some (body, rest) => .ok (piece body, rest, lineFeeds body)
  | none => .error (.unterminated what, 0)

/-- A comment up to its closing mark. -/
def scanBlockComment (cs : List Char) : Cut :=
  scanTo "--#" "comment, expected '--#'" (fun _ => .blockComment) cs

/-- A verbatim block. -/
def scanVerbatim (cs : List Char) : Cut :=
  scanTo "]]#" "no-parse block, expected ']]#'" .verbatim cs

/-- The call of a template function, behind `#@`. -/
def scanCall (cs : List Char) : Cut :=
  let name := cs.takeWhile isTagChar
  let (mark, rest) := takeIf (· == '?') (cs.dropWhile isTagChar)
  if name.isEmpty then .error (.missing "function name after '#@'", 0)
  else
    match rest.dropWhile isSpace with
    | '(' :: rest => scanTag (.call (String.ofList name) mark.isSome) rest
    | _ => .error (.missing ("'(' after '#@" ++ String.ofList name ++ "'"), 0)

/-- The head of a function definition, behind `#define`. -/
def scanDefine (cs : List Char) : Cut :=
  let rest := cs.dropWhile isSpace
  let name := rest.takeWhile isTagChar
  if name.isEmpty then .error (.missing "function name after '#define'", 0)
  else
    match (rest.dropWhile isTagChar).dropWhile isSpace with
    | '(' :: rest => scanTag (.define (String.ofList name)) rest
    | _ => .error (.missing ("'(' after '#define " ++ String.ofList name ++ "'"), 0)

/-- A directive by its name, behind `#`; a `#` for itself if no parameters follow. -/
def scanDirective (cs : List Char) : Cut :=
  let word := String.ofList (cs.takeWhile isTagChar)
  let rest := cs.dropWhile isTagChar
  if word ∈ plainWords then .ok (.tag (.directive word none), rest, 0)
  else if word = "define" then scanDefine rest
  else
    let (mark, rest) := takeIf (fun c => word = "call" && c == '?') rest
    match rest.dropWhile isSpace with
    | '(' :: rest => scanTag (fun p => .directive (word ++ String.ofList mark.toList) (some p)) rest
    | _ => .ok (.text ['#'], cs, 0)

/-- The piece that a `#` begins, given the text behind it. -/
def scanConstruct : List Char → Cut
  | '#' :: cs => scanLineComment cs
  | '-' :: '-' :: cs => scanBlockComment cs
  | '[' :: '[' :: cs => scanVerbatim cs
  | '(' :: cs => scanTag (fun p => .directive "output" (some p)) cs
  | '@' :: cs => scanCall cs
  | c :: cs => if isTagStart c then scanDirective (c :: cs) else .ok (.text ['#'], c :: cs, 0)
  | [] => .ok (.text ['#'], [], 0)

/-- The piece at the front of a text that starts with `c`. -/
def scanPiece (c : Char) (cs : List Char) : Cut :=
  if c = '#' then scanConstruct cs
  else
    let run := c :: cs.takeWhile (· != '#')
    .ok (.text run, cs.dropWhile (· != '#'), lineFeeds run)

/-! ### Lengths -/

/-- Behind the parameters of a tag there is at most what there was in front of them. -/
theorem scanParameters_rest_length {quote : Option Char} {depth rows n : Nat}
    {cs parameters rest : List Char}
    (h : scanParameters quote depth rows cs = .ok (parameters, rest, n)) :
    rest.length ≤ cs.length := by
  fun_induction scanParameters quote depth rows cs generalizing parameters rest n with
  | case1 | case2 | case3 => simp at h
  | case4 | case5 | case7 =>
    rename_i ih
    obtain ⟨inner, hr, _⟩ := eq_ok_of_prepend h
    have := ih hr
    simp only [List.length_cons] at *
    omega
  | case6 => simp_all

theorem scanTag_rest_length {tag : String → Tag} {cs rest : List Char} {piece : Piece} {n : Nat}
    (h : scanTag tag cs = .ok (piece, rest, n)) : rest.length ≤ cs.length := by
  unfold scanTag at h
  split at h
  · simp at h
  · rename_i hs
    simp only [Except.ok.injEq, Prod.mk.injEq] at h
    obtain ⟨_, rfl, _⟩ := h
    exact scanParameters_rest_length hs

theorem scanLineComment_rest_length {cs rest : List Char} {piece : Piece} {n : Nat}
    (h : scanLineComment cs = .ok (piece, rest, n)) : rest.length ≤ cs.length := by
  unfold scanLineComment at h
  simp only [Except.ok.injEq, Prod.mk.injEq] at h
  obtain ⟨_, rfl, _⟩ := h
  have whole := congrArg List.length (List.takeWhile_append_dropWhile (p := (· != '\n')) (l := cs))
  rw [List.length_append] at whole
  split
  · rename_i hl
    -- The carriage return that is given back was taken before.
    have : 0 < (cs.takeWhile (· != '\n')).length := by
      cases hb : cs.takeWhile (· != '\n') with
      | nil => simp [hb] at hl
      | cons => simp
    simp only [List.length_cons]
    omega
  · omega

/-- What is cut off behind a mark is no longer than the whole. -/
theorem length_of_cut_le {needle text before after : List Char}
    (h : Text.cut needle text = some (before, after)) : after.length ≤ text.length := by
  rw [Text.eq_of_cut h]
  simp only [List.length_append]
  omega

/-- A scan up to a closing mark gets on, or leaves all that there is. -/
theorem scanTo_rest_length {mark what : String} {piece : List Char → Piece} {cs rest : List Char}
    {found : Piece} {n : Nat} (h : scanTo mark what piece cs = .ok (found, rest, n)) :
    rest.length ≤ cs.length := by
  unfold scanTo at h
  split at h
  · rename_i hc
    simp only [Except.ok.injEq, Prod.mk.injEq] at h
    obtain ⟨_, rfl, _⟩ := h
    exact length_of_cut_le hc
  · simp at h

/-- Parameters that begin behind blanks lie behind what the blanks lie behind. -/
theorem scanTag_dropWhile_length {tag : String → Tag} {cs tail rest : List Char} {piece : Piece}
    {n : Nat} (hd : cs.dropWhile isSpace = '(' :: tail)
    (h : scanTag tag tail = .ok (piece, rest, n)) : rest.length ≤ cs.length := by
  have h1 := scanTag_rest_length h
  have h2 : (cs.dropWhile isSpace).length ≤ cs.length := (List.dropWhile_sublist _).length_le
  rw [hd, List.length_cons] at h2
  omega

theorem scanCall_rest_length {cs rest : List Char} {piece : Piece} {n : Nat}
    (h : scanCall cs = .ok (piece, rest, n)) : rest.length ≤ cs.length := by
  unfold scanCall at h
  -- the mark of a call that may be undefined stands between the name and the parenthesis
  have h1 := takeIf_rest_length (· == '?') (cs.dropWhile isTagChar)
  have h2 : (cs.dropWhile isTagChar).length ≤ cs.length := (List.dropWhile_sublist _).length_le
  generalize takeIf (· == '?') (cs.dropWhile isTagChar) = taken at h h1
  obtain ⟨mark, tail⟩ := taken
  simp only at h h1
  split at h
  · simp at h
  · split at h
    · rename_i hd
      have := scanTag_dropWhile_length hd h
      omega
    · simp at h

theorem scanDefine_rest_length {cs rest : List Char} {piece : Piece} {n : Nat}
    (h : scanDefine cs = .ok (piece, rest, n)) : rest.length ≤ cs.length := by
  unfold scanDefine at h
  have h1 : ((cs.dropWhile isSpace).dropWhile isTagChar).length ≤ (cs.dropWhile isSpace).length :=
    (List.dropWhile_sublist _).length_le
  have h2 : (cs.dropWhile isSpace).length ≤ cs.length := (List.dropWhile_sublist _).length_le
  simp only at h
  split at h
  · simp at h
  · split at h
    · rename_i hd
      have := scanTag_dropWhile_length hd h
      omega
    · simp at h

theorem scanDirective_rest_length {cs rest : List Char} {piece : Piece} {n : Nat}
    (h : scanDirective cs = .ok (piece, rest, n)) : rest.length ≤ cs.length := by
  unfold scanDirective at h
  have h1 : (cs.dropWhile isTagChar).length ≤ cs.length := (List.dropWhile_sublist _).length_le
  simp only at h
  split at h
  · simp only [Except.ok.injEq, Prod.mk.injEq] at h
    obtain ⟨_, rfl, _⟩ := h
    exact h1
  · split at h
    · exact Nat.le_trans (scanDefine_rest_length h) h1
    -- only a call may have such a mark
    · have h2 := takeIf_rest_length
        (fun c => String.ofList (cs.takeWhile isTagChar) = "call" && c == '?')
        (cs.dropWhile isTagChar)
      generalize takeIf (fun c => String.ofList (cs.takeWhile isTagChar) = "call" && c == '?')
        (cs.dropWhile isTagChar) = taken at h h2
      obtain ⟨mark, tail⟩ := taken
      simp only at h h2
      split at h
      · rename_i hd
        have := scanTag_dropWhile_length hd h
        omega
      · simp only [Except.ok.injEq, Prod.mk.injEq] at h
        obtain ⟨_, rfl, _⟩ := h
        exact Nat.le_refl _

/-- Behind a construct there is at most what there was behind its first character. -/
theorem scanConstruct_rest_length {cs rest : List Char} {piece : Piece} {n : Nat}
    (h : scanConstruct cs = .ok (piece, rest, n)) : rest.length ≤ cs.length := by
  unfold scanConstruct at h
  -- one scanner for each second character, and a text in the end
  split at h
  · have := scanLineComment_rest_length h
    simp only [List.length_cons]
    omega
  · have := scanTo_rest_length h
    simp only [List.length_cons]
    omega
  · have := scanTo_rest_length h
    simp only [List.length_cons]
    omega
  · have := scanTag_rest_length h
    simp only [List.length_cons]
    omega
  · have := scanCall_rest_length h
    simp only [List.length_cons]
    omega
  · split at h
    · exact scanDirective_rest_length h
    · simp only [Except.ok.injEq, Prod.mk.injEq] at h
      obtain ⟨_, rfl, _⟩ := h
      exact Nat.le_refl _
  · simp only [Except.ok.injEq, Prod.mk.injEq] at h
    obtain ⟨_, rfl, _⟩ := h
    exact Nat.le_refl _

/-- A piece takes at least one character. -/
theorem scanPiece_rest_length {c : Char} {cs rest : List Char} {piece : Piece} {n : Nat}
    (h : scanPiece c cs = .ok (piece, rest, n)) : rest.length ≤ cs.length := by
  unfold scanPiece at h
  split at h
  · exact scanConstruct_rest_length h
  · simp only [Except.ok.injEq, Prod.mk.injEq] at h
    obtain ⟨_, rfl, _⟩ := h
    exact (List.dropWhile_sublist _).length_le

/-! ### Whole templates -/

/-- The pieces of a text that starts in a row, or a fault and the row it is found at. -/
def cutFrom (row : Nat) : List Char → Except (ParseFault × Nat) (List PlacedPiece)
  | [] => .ok []
  | c :: cs =>
    match _h : scanPiece c cs with
    | .error (fault, rows) => .error (fault, row + rows)
    | .ok (piece, rest, rows) =>
      match cutFrom (row + rows) rest with
      | .error fault => .error fault
      | .ok pieces => .ok (⟨piece, row⟩ :: pieces)
termination_by cs => cs.length
decreasing_by
  have := scanPiece_rest_length _h
  simp only [List.length_cons]
  omega

/-- The pieces of a template. -/
def cutTemplate (text : List Char) : Except (ParseFault × Nat) (List PlacedPiece) :=
  cutFrom 1 text

end Stencil
