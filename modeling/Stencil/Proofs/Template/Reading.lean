import Mathlib.Data.List.TakeWhile
import Stencil.Proofs.Text.Search
import Stencil.Template.Lines

/-!
# How a template text reads

The grammar of template texts, written down without a scanner: `Reads text regions` says that the
characters of `text` fall into literal text and constructs, and that `regions` is what is left of
them, the literal characters and the tags in the order of the text. Comments leave nothing, a
verbatim block leaves its content.

* `Literal` and `Balanced` are the parameters of a tag: parentheses match, except inside string
  literals, and a backslash in a string literal takes the next character with it.
* `TagReads` lists the spellings of a tag behind its `#`.
* `Opens` tells which texts behind a `#` begin a construct. Any other `#` is a literal character.

Cutting finds exactly this reading: `reads_of_cutFrom` for the pieces that it finds, and
`Reads.unique`, by `exists_cutFrom_of_reads`, for the absence of any other.
-/

namespace Stencil

/-! ### Regions -/

/-- What a template text is made of, apart from comments: literal characters and tags. -/
inductive Region where
  | char (c : Char)
  | tag (tag : Tag)
deriving DecidableEq, Repr

/-- The regions of a piece. A comment has none, and the content of a verbatim block is literal. -/
def Piece.regions : Piece → List Region
  | text chars | verbatim chars => chars.map .char
  | lineComment | blockComment => []
  | tag t => [.tag t]

/-- The regions of the pieces of a text. -/
def piecesRegions (pieces : List PlacedPiece) : List Region := pieces.flatMap (·.piece.regions)

/-- The regions of an item. -/
def Item.regions : Item → List Region
  | text chars _ => chars.map .char
  | tag t _ => [.tag t]

/-! ### Parameters -/

/-- A text that can stand between two quotes `q`. -/
inductive Literal (q : Char) : List Char → Prop
  | nil : Literal q []
  | escaped {cs : List Char} (e : Char) : Literal q cs → Literal q ('\\' :: e :: cs)
  | plain {c : Char} {cs : List Char} : c ≠ q → c ≠ '\\' → Literal q cs → Literal q (c :: cs)

/-- Whether a character opens and closes string literals. -/
def isQuote (c : Char) : Prop := c = '\x22' ∨ c = '\x27'

/-- A text whose parentheses match outside of its string literals, which are all closed. -/
inductive Balanced : List Char → Prop
  | nil : Balanced []
  | plain {c : Char} {cs : List Char} :
      ¬ isQuote c → c ≠ '(' → c ≠ ')' → Balanced cs → Balanced (c :: cs)
  | string {q : Char} {body cs : List Char} :
      isQuote q → Literal q body → Balanced cs → Balanced (q :: (body ++ q :: cs))
  | group {inner cs : List Char} :
      Balanced inner → Balanced cs → Balanced ('(' :: (inner ++ ')' :: cs))

/-- A text that closes `depth` parentheses that were opened in front of it. -/
inductive Closes : Nat → List Char → Prop
  | zero {cs : List Char} : Balanced cs → Closes 0 cs
  | succ {depth : Nat} {inner cs : List Char} :
      Balanced inner → Closes depth cs → Closes (depth + 1) (inner ++ ')' :: cs)

/-- What may stand in front of a balanced text may stand in front of a closing one. -/
theorem Closes.prepend (front : List Char) {cs : List Char} {depth : Nat}
    (hf : ∀ inner, Balanced inner → Balanced (front ++ inner)) (h : Closes depth cs) :
    Closes depth (front ++ cs) := by
  cases h with
  | zero hb => exact .zero (hf _ hb)
  | succ hb hc =>
    rw [← List.append_assoc]
    exact .succ (hf _ hb) hc

/-- An opening parenthesis is closed by the first text that closes one. -/
theorem Closes.opened {cs : List Char} {depth : Nat} (h : Closes (depth + 1) cs) :
    Closes depth ('(' :: cs) := by
  cases h with
  | succ hb hc =>
    rename_i inner tail
    have := Closes.prepend ('(' :: (inner ++ [')']))
      (fun cs hcs => by simpa using Balanced.group hb hcs) hc
    simpa using this

/-- What scanned parameters are, from any point inside of them. -/
def ScannedFrom (quote : Option Char) (depth : Nat) (cs : List Char) : Prop :=
  match quote with
  | none => Closes depth cs
  | some q => ∃ body tail, cs = body ++ q :: tail ∧ Literal q body ∧ Closes depth tail

/-- Scanned parameters end in a parenthesis, and close what is open in front of them. -/
theorem scanParameters_sound {quote : Option Char} {depth rows n : Nat}
    {cs parameters rest : List Char} (hq : ∀ q ∈ quote, isQuote q)
    (h : scanParameters quote depth rows cs = .ok (parameters, rest, n)) :
    cs = parameters ++ ')' :: rest ∧ ScannedFrom quote depth parameters := by
  fun_induction scanParameters quote depth rows cs generalizing parameters rest n with
  | case1 | case2 | case3 => simp at h
  | case4 =>
    -- A backslash inside of a literal takes the next character with it.
    rename_i depth rows q e cs ih
    obtain ⟨inner, hi, rfl⟩ := eq_ok_of_prepend h
    obtain ⟨rfl, body, tail, rfl, hb, ht⟩ := ih hq hi
    exact ⟨by simp, '\\' :: e :: body, tail, by simp, .escaped e hb, ht⟩
  | case5 =>
    -- Any other character inside of a literal, which may close it.
    rename_i depth _ c cs q hc quote' _ ih
    obtain ⟨inner, hi, rfl⟩ := eq_ok_of_prepend h
    by_cases hcq : c = q
    -- the literal ends here, or it goes on behind the character
    · subst hcq
      obtain ⟨rfl, ht⟩ := ih (by simp [quote']) hi
      simp only [quote', if_pos] at ht
      exact ⟨by simp, [], inner, by simp, .nil, ht⟩
    · obtain ⟨rfl, ht⟩ := ih (by simpa [quote', hcq] using hq) hi
      simp only [quote', hcq, if_false] at ht
      obtain ⟨body, tail, rfl, hb, ht⟩ := ht
      exact ⟨by simp, c :: body, tail, by simp, .plain hcq hc hb, ht⟩
  | case6 =>
    -- The parenthesis that closes the parameters.
    rename_i hc
    obtain ⟨rfl, rfl⟩ := hc
    simp only [Except.ok.injEq, Prod.mk.injEq] at h
    obtain ⟨rfl, rfl, _⟩ := h
    exact ⟨by simp, .zero .nil⟩
  | case7 =>
    -- Any other character outside of literals: it opens one, or counts parentheses, or is plain.
    -- a quote opens a literal, which takes its text with it
    rename_i depth _ c cs hc quote' depth' _ ih
    obtain ⟨inner, hi, rfl⟩ := eq_ok_of_prepend h
    by_cases hquote : c = '\x22' ∨ c = '\x27'
    · obtain ⟨rfl, ht⟩ := ih (by simp [quote', hquote, isQuote]) hi
      have h1 : c ≠ '(' := by rintro rfl; simp at hquote
      have h2 : c ≠ ')' := by rintro rfl; simp at hquote
      simp only [quote', depth', hquote, h1, h2, if_true, if_false, ScannedFrom] at ht
      obtain ⟨body, tail, rfl, hb, ht⟩ := ht
      -- no quote: a parenthesis opens or closes a group, any other character is plain
      have := Closes.prepend (c :: (body ++ [c]))
        (fun cs hcs => by simpa using Balanced.string hquote hb hcs) ht
      exact ⟨by simp, by simpa [ScannedFrom] using this⟩
    · obtain ⟨rfl, ht⟩ := ih (by simp [quote', hquote]) hi
      simp only [quote', depth', hquote, if_false, ScannedFrom] at ht
      refine ⟨by simp, ?_⟩
      by_cases h1 : c = '('
      · subst h1
        simp only [if_true] at ht
        exact Closes.opened ht
      · by_cases h2 : c = ')'
        · subst h2
          simp only [h1, if_true, if_false] at ht
          cases depth with
          | zero => simp at hc
          | succ depth => exact Closes.succ .nil ht
        · simp only [h1, h2, if_false] at ht
          exact Closes.prepend [c] (fun cs hcs => .plain hquote h1 h2 hcs) ht

/-- Nothing in front. -/
@[simp] theorem prepend_nil
    (scanned : Except (ParseFault × Nat) (List Char × List Char × Nat)) :
    prepend [] scanned = scanned := by
  cases scanned <;> simp [prepend]

/-- One front before another one. -/
@[simp] theorem prepend_prepend (a b : List Char)
    (scanned : Except (ParseFault × Nat) (List Char × List Char × Nat)) :
    prepend a (prepend b scanned) = prepend (a ++ b) scanned := by
  cases scanned <;> simp [prepend]

/-- A string literal is passed over up to its quote. -/
theorem scanParameters_literal {q : Char} {body : List Char} (hq : isQuote q)
    (h : Literal q body) (depth rows : Nat) (cs : List Char) :
    ∃ n, scanParameters (some q) depth rows (body ++ q :: cs) =
      prepend (body ++ [q]) (scanParameters none depth n cs) := by
  induction h generalizing rows with
  | nil =>
    -- the quote closes the literal, since it is not taken for a backslash
    have hne : q ≠ '\\' := by rintro rfl; rcases hq with h | h <;> simp at h
    refine ⟨if q = '\n' then rows + 1 else rows, ?_⟩
    rw [List.nil_append, scanParameters.eq_def]
    simp [hne]
  | escaped e _ ih =>
    obtain ⟨n, hn⟩ := ih rows
    exact ⟨n, by simp [scanParameters, hn]⟩
  | @plain c _ hcq hc _ ih =>
    obtain ⟨n, hn⟩ := ih (if c = '\n' then rows + 1 else rows)
    refine ⟨n, ?_⟩
    rw [List.cons_append, scanParameters.eq_def]
    simp [hc, hcq, hn]

/-- A balanced text is passed over as a whole. -/
theorem scanParameters_balanced {front : List Char} (h : Balanced front) (depth rows : Nat)
    (cs : List Char) :
    ∃ n, scanParameters none depth rows (front ++ cs) =
      prepend front (scanParameters none depth n cs) := by
  induction h generalizing depth rows cs with
  | nil => exact ⟨rows, by simp⟩
  -- a character without a meaning is passed over
  | @plain c _ hq ho hc _ ih =>
    obtain ⟨n, hn⟩ := ih depth (if c = '\n' then rows + 1 else rows) cs
    have hq' : ¬ (c = '\x22' ∨ c = '\x27') := hq
    exact ⟨n, by rw [List.cons_append, scanParameters]; simp [ho, hc, hq', hn]⟩
  -- a literal as a whole, so that the rest is balanced too
  | @string q body tail hq hb _ ih =>
    obtain ⟨n, hn⟩ := scanParameters_literal hq hb depth (if q = '\n' then rows + 1 else rows)
      (tail ++ cs)
    obtain ⟨m, hm⟩ := ih depth n cs
    have h1 : q ≠ '(' := by rintro rfl; rcases hq with h | h <;> simp at h
    have h2 : q ≠ ')' := by rintro rfl; rcases hq with h | h <;> simp at h
    have hq' : q = '\x22' ∨ q = '\x27' := hq
    refine ⟨m, ?_⟩
    rw [List.cons_append, List.append_assoc, List.cons_append, scanParameters]
    simp [h1, h2, hq', hn, hm]
  -- a group leaves the depth as it was in front of it
  | @group inner tail _ _ ihi iht =>
    obtain ⟨n, hn⟩ := ihi (depth + 1) rows (')' :: (tail ++ cs))
    obtain ⟨m, hm⟩ := iht depth n cs
    refine ⟨m, ?_⟩
    rw [List.cons_append, List.append_assoc, List.cons_append, scanParameters]
    simp [hn, scanParameters, hm]

/-- Scanned parameters are exactly the balanced texts in front of a closing parenthesis. -/
theorem scanTag_eq_ok_iff (tag : String → Tag) {cs rest : List Char} {piece : Piece} :
    (∃ n, scanTag tag cs = .ok (piece, rest, n)) ↔
      ∃ parameters, Balanced parameters ∧ cs = parameters ++ ')' :: rest ∧
        piece = .tag (tag (String.ofList parameters)) := by
  constructor
  · rintro ⟨n, h⟩
    unfold scanTag at h
    split at h
    · simp at h
    · rename_i parameters _ _ hs
      simp only [Except.ok.injEq, Prod.mk.injEq] at h
      obtain ⟨rfl, rfl, _⟩ := h
      obtain ⟨rfl, hc⟩ := scanParameters_sound (by simp) hs
      -- nothing was open in front of the parameters, so they are balanced
      cases hc with
      | zero hb => exact ⟨parameters, hb, rfl, rfl⟩
  · rintro ⟨parameters, hb, rfl, rfl⟩
    obtain ⟨n, hn⟩ := scanParameters_balanced hb 0 0 (')' :: rest)
    exact ⟨n, by simp [scanTag, hn, scanParameters, prepend]⟩

/-! ### Words -/

/-- Whether a text is made of spaces and tabs only. -/
def AllSpaces (cs : List Char) : Prop := ∀ c ∈ cs, isSpace c = true

/-- Whether a text may be the name of a tag. -/
def AllTagChars (cs : List Char) : Prop := ∀ c ∈ cs, isTagChar c = true

/-- Spaces end at a parenthesis. -/
theorem AllSpaces.isRun {spaces tail : List Char} (h : AllSpaces spaces) :
    IsRun isSpace spaces ('(' :: tail) where
  all := h
  ends c hc := by
    obtain rfl : '(' = c := by simpa using hc
    decide

theorem not_isTagChar_of_isSpace {c : Char} (h : isSpace c = true) : isTagChar c = false := by
  simp only [isSpace, Bool.or_eq_true, beq_iff_eq] at h
  rcases h with rfl | rfl <;> decide

/-- A blank or a parenthesis ends the name of a tag and is no mark behind it. -/
theorem AllSpaces.head {spaces tail : List Char} (h : AllSpaces spaces) :
    ∀ c ∈ (spaces ++ '(' :: tail).head?, isTagChar c = false ∧ c ≠ '?' := by
  intro c hc
  cases spaces with
  | nil =>
    obtain rfl : '(' = c := by simpa using hc
    decide
  | cons d ds =>
    obtain rfl : d = c := by simpa using hc
    have hspace : isSpace d = true := h d (by simp)
    refine ⟨not_isTagChar_of_isSpace hspace, ?_⟩
    rintro rfl
    exact absurd hspace (by decide)

/-- What `takeIf` takes stood in front. -/
theorem eq_append_of_takeIf {p : Char → Bool} {cs rest : List Char} {mark : Option Char}
    (h : takeIf p cs = (mark, rest)) :
    cs = mark.toList ++ rest ∧ (∀ c ∈ mark, p c = true) ∧
      (mark = none → ∀ c ∈ rest.head?, p c = false) := by
  cases cs with
  | nil =>
    simp only [takeIf, Prod.mk.injEq] at h
    obtain ⟨rfl, rfl⟩ := h
    simp
  | cons c cs =>
    rw [takeIf] at h
    split at h <;> simp only [Prod.mk.injEq] at h <;> obtain ⟨rfl, rfl⟩ := h <;> simp_all

/-- What `takeIf` takes, where it stands in front. -/
theorem takeIf_append {p : Char → Bool} {rest : List Char} {mark : Option Char}
    (hp : ∀ c ∈ mark, p c = true) (hr : mark = none → ∀ c ∈ rest.head?, p c = false) :
    takeIf p (mark.toList ++ rest) = (mark, rest) := by
  cases mark with
  | some c => simp [takeIf, hp c rfl]
  | none =>
    cases rest with
    | nil => rfl
    | cons c cs => simp [takeIf, hr rfl c rfl]

/-! ### Tags -/

/-- What stands between the name of a tag and the text after it: blanks, and the parameters in
their parentheses. -/
inductive Arguments : List Char → List Char → List Char → Prop
  | mk {spaces parameters rest : List Char} : AllSpaces spaces → Balanced parameters →
      Arguments (spaces ++ '(' :: (parameters ++ ')' :: rest)) parameters rest

/-- Blanks and parameters are scanned as they are spelled. -/
theorem scanTag_dropWhile_eq_ok_iff (tag : String → Tag) {cs rest : List Char} {piece : Piece} :
    (∃ tail n, cs.dropWhile isSpace = '(' :: tail ∧ scanTag tag tail = .ok (piece, rest, n)) ↔
      ∃ parameters, Arguments cs parameters rest ∧
        piece = .tag (tag (String.ofList parameters)) := by
  constructor
  · rintro ⟨tail, n, hd, hs⟩
    obtain ⟨parameters, hb, rfl, rfl⟩ := (scanTag_eq_ok_iff _).1 ⟨n, hs⟩
    refine ⟨parameters, ?_, rfl⟩
    have hcs := List.takeWhile_append_dropWhile (p := isSpace) (l := cs)
    rw [← hcs, hd]
    exact .mk (isRun_span isSpace cs).all hb
  · rintro ⟨parameters, ⟨hsp, hb⟩, rfl⟩
    obtain ⟨n, hs⟩ := (scanTag_eq_ok_iff _).2 ⟨parameters, hb, rfl, rfl⟩
    exact ⟨_, n, hsp.isRun.dropWhile, hs⟩

/-- `TagReads cs tag rest`: behind a `#`, the text `cs` spells a tag, and `rest` follows it. -/
inductive TagReads : List Char → Tag → List Char → Prop
  | output {p rest : List Char} : Balanced p →
      TagReads ('(' :: (p ++ ')' :: rest)) (.directive "output" (some (String.ofList p))) rest
  | call {name after p rest : List Char} {mark : Option Char} : name ≠ [] → AllTagChars name →
      (∀ c ∈ mark, c = '?') → Arguments after p rest →
      TagReads ('@' :: (name ++ (mark.toList ++ after)))
        (.call (String.ofList name) mark.isSome (String.ofList p)) rest
  | plain {word rest : List Char} : String.ofList word ∈ plainWords → IsRun isTagChar word rest →
      TagReads (word ++ rest) (.directive (String.ofList word) none) rest
  | define {spaces name after p rest : List Char} : spaces ≠ [] → AllSpaces spaces →
      name ≠ [] → AllTagChars name → Arguments after p rest →
      TagReads ("define".toList ++ (spaces ++ (name ++ after)))
        (.define (String.ofList name) (String.ofList p)) rest
  | named {c : Char} {word after p rest : List Char} {mark : Option Char} : isTagStart c = true →
      AllTagChars word → String.ofList (c :: word) ∉ plainWords →
      String.ofList (c :: word) ≠ "define" →
      (∀ d ∈ mark, String.ofList (c :: word) = "call" ∧ d = '?') → Arguments after p rest →
      TagReads (c :: (word ++ (mark.toList ++ after)))
        (.directive (String.ofList (c :: word) ++ String.ofList mark.toList)
          (some (String.ofList p))) rest

/-- The arguments of a tag begin with a blank or a parenthesis. -/
theorem Arguments.head {cs p rest : List Char} (h : Arguments cs p rest) :
    ∀ c ∈ cs.head?, isTagChar c = false ∧ c ≠ '?' := by
  obtain ⟨hsp, -⟩ := h
  exact hsp.head

/-- Scanning a call takes a name, a mark and blanks and goes on with the parameters. A call that
lacks its name or its parameters is a fault. -/
theorem scanCall_cases (cs : List Char) :
    (∃ what, scanCall cs = .error (.missing what, 0)) ∨
      ∃ (name : List Char) (mark : Option Char) (after tail : List Char), name ≠ [] ∧
        AllTagChars name ∧ (∀ c ∈ mark, c = '?') ∧ cs = name ++ (mark.toList ++ after) ∧
        after.dropWhile isSpace = '(' :: tail ∧
        scanCall cs = scanTag (.call (String.ofList name) mark.isSome) tail := by
  have hcs := List.takeWhile_append_dropWhile (p := isTagChar) (l := cs)
  have hrun := isRun_span isTagChar cs
  generalize hcut : scanCall cs = cut
  unfold scanCall at hcut
  generalize cs.takeWhile isTagChar = name at *
  generalize cs.dropWhile isTagChar = behind at *
  rcases hm : takeIf (· == '?') behind with ⟨mark, after⟩
  obtain ⟨rfl, hmark, -⟩ := eq_append_of_takeIf hm
  simp only [hm] at hcut
  split at hcut
  · exact .inl ⟨_, hcut.symm⟩
  · rename_i hne
    split at hcut
    · rename_i tail hd
      exact .inr ⟨name, mark, after, tail, by simpa using hne, hrun.all, by simpa using hmark,
        hcs.symm, hd, hcut.symm⟩
    · exact .inl ⟨_, hcut.symm⟩

/-- Scanning a call finds the name, the mark and the arguments that are spelled there. -/
theorem scanCall_eq_ok_iff {cs rest : List Char} {piece : Piece} :
    (∃ n, scanCall cs = .ok (piece, rest, n)) ↔
      ∃ (name : List Char) (mark : Option Char) (after p : List Char), name ≠ [] ∧
        AllTagChars name ∧ (∀ c ∈ mark, c = '?') ∧ Arguments after p rest ∧
        cs = name ++ (mark.toList ++ after) ∧
        piece = .tag (.call (String.ofList name) mark.isSome (String.ofList p)) := by
  constructor
  · rintro ⟨n, h⟩
    rcases scanCall_cases cs with
      ⟨what, hfault⟩ | ⟨name, mark, after, tail, hne, hname, hmark, hcs, hd, hcall⟩
    · rw [hfault] at h
      cases h
    · rw [hcall] at h
      obtain ⟨p, ha, rfl⟩ := (scanTag_dropWhile_eq_ok_iff _).1 ⟨tail, n, hd, h⟩
      exact ⟨name, mark, after, p, hne, hname, hmark, ha, hcs, rfl⟩
  · rintro ⟨name, mark, after, p, hne, hname, hmark, ha, rfl, rfl⟩
    obtain ⟨tail, n, hd, hs⟩ :=
      (scanTag_dropWhile_eq_ok_iff (.call (String.ofList name) mark.isSome)).2 ⟨p, ha, rfl⟩
    -- the name ends where the mark or the arguments begin
    have hrun : IsRun isTagChar name (mark.toList ++ after) := by
      refine ⟨hname, fun c hc => ?_⟩
      cases mark with
      | none => exact (ha.head c hc).1
      | some d =>
        obtain rfl : d = c := by simpa using hc
        rw [hmark d rfl]
        decide
    have hm : takeIf (· == '?') (mark.toList ++ after) = (mark, after) :=
      takeIf_append (by simpa using hmark) fun _ c hc => by simpa using (ha.head c hc).2
    refine ⟨n, ?_⟩
    unfold scanCall
    simp [hrun.takeWhile, hrun.dropWhile, hm, hd, hne, hs]

/-- Arguments end the name in front of them. -/
theorem Arguments.isRun {name cs p rest : List Char} (hname : AllTagChars name)
    (h : Arguments cs p rest) : IsRun isTagChar name cs :=
  ⟨hname, fun c hc => (h.head c hc).1⟩

/-- Scanning a definition takes blanks, a name and blanks and goes on with the parameters. A
definition that lacks its name or its parameters is a fault. -/
theorem scanDefine_cases (cs : List Char) :
    (∃ what, scanDefine cs = .error (.missing what, 0)) ∨
      ∃ spaces name after tail, AllSpaces spaces ∧ name ≠ [] ∧ AllTagChars name ∧
        cs = spaces ++ (name ++ after) ∧ after.dropWhile isSpace = '(' :: tail ∧
        scanDefine cs = scanTag (.define (String.ofList name)) tail := by
  have hcs := List.takeWhile_append_dropWhile (p := isSpace) (l := cs)
  have hspaces := (isRun_span isSpace cs).all
  generalize hcut : scanDefine cs = cut
  unfold scanDefine at hcut
  simp only at hcut
  generalize cs.takeWhile isSpace = spaces at *
  generalize cs.dropWhile isSpace = behind at *
  -- the blanks behind the word, and then the name
  have hbehind := List.takeWhile_append_dropWhile (p := isTagChar) (l := behind)
  have hname := (isRun_span isTagChar behind).all
  generalize behind.takeWhile isTagChar = name at *
  generalize behind.dropWhile isTagChar = after at *
  split at hcut
  · exact .inl ⟨_, hcut.symm⟩
  · rename_i hne
    split at hcut
    · rename_i tail hd
      exact .inr ⟨spaces, name, after, tail, hspaces, by simpa using hne, hname,
        by rw [hbehind, hcs], hd, hcut.symm⟩
    · exact .inl ⟨_, hcut.symm⟩

/-- Scanning a definition finds the name and the arguments that are spelled there. -/
theorem scanDefine_eq_ok_iff {cs rest : List Char} {piece : Piece} :
    (∃ n, scanDefine cs = .ok (piece, rest, n)) ↔
      ∃ spaces name after p, AllSpaces spaces ∧ name ≠ [] ∧ AllTagChars name ∧
        Arguments after p rest ∧ cs = spaces ++ (name ++ after) ∧
        piece = .tag (.define (String.ofList name) (String.ofList p)) := by
  constructor
  · rintro ⟨n, h⟩
    rcases scanDefine_cases cs with
      ⟨what, hfault⟩ | ⟨spaces, name, after, tail, hspaces, hne, hname, hcs, hd, hdefine⟩
    · rw [hfault] at h
      cases h
    · rw [hdefine] at h
      obtain ⟨p, ha, rfl⟩ := (scanTag_dropWhile_eq_ok_iff _).1 ⟨tail, n, hd, h⟩
      exact ⟨spaces, name, after, p, hspaces, hne, hname, ha, hcs, rfl⟩
  · rintro ⟨spaces, name, after, p, hspaces, hne, hname, ha, rfl, rfl⟩
    obtain ⟨tail, n, hd, hs⟩ :=
      (scanTag_dropWhile_eq_ok_iff (.define (String.ofList name))).2 ⟨p, ha, rfl⟩
    have hname' := ha.isRun hname
    -- the blanks end where the name begins, for a name has no blanks
    have hrun : IsRun isSpace spaces (name ++ after) := by
      refine ⟨hspaces, fun c hc => ?_⟩
      obtain ⟨d, ds, rfl⟩ := List.exists_cons_of_ne_nil hne
      obtain rfl : d = c := by simpa using hc
      cases hsp : isSpace d with
      | false => rfl
      | true =>
        have := hname d (by simp)
        rw [not_isTagChar_of_isSpace hsp] at this
        simp at this
    refine ⟨n, ?_⟩
    unfold scanDefine
    simp [hrun.dropWhile, hname'.takeWhile, hname'.dropWhile, hd, hne, hs]

/-- Whether a text behind a `#` is the name of a tag and what such a tag has to have behind its
name. -/
def NameReads (cs : List Char) : Prop :=
  ∃ word after, cs = word ++ after ∧ IsRun isTagChar word after ∧
    (String.ofList word ∈ plainWords ∨ String.ofList word = "define" ∨
      ∃ (mark : Option Char) (spaces tail : List Char), AllSpaces spaces ∧
        (∀ d ∈ mark, String.ofList word = "call" ∧ d = '?') ∧
        after = mark.toList ++ (spaces ++ '(' :: tail))

/-- A question mark belongs to the word `call` only. -/
theorem takeIf_mark {word : String} {mark : Option Char} {rest : List Char}
    (hmark : ∀ d ∈ mark, word = "call" ∧ d = '?') (hr : ∀ c ∈ rest.head?, c ≠ '?') :
    takeIf (fun c => word = "call" && c == '?') (mark.toList ++ rest) = (mark, rest) := by
  refine takeIf_append (fun d hd => ?_) fun _ c hc => ?_
  · obtain ⟨rfl, rfl⟩ := hmark d hd
    rfl
  · simp [hr c hc]

/-- What scanning a name makes of a text that is the name of no tag. -/
theorem scanDirective_of_not_nameReads {cs : List Char} (h : ¬ NameReads cs) :
    scanDirective cs = .ok (.text ['#'], cs, 0) := by
  have hcs := List.takeWhile_append_dropWhile (p := isTagChar) (l := cs)
  have hrun := isRun_span isTagChar cs
  unfold scanDirective
  generalize cs.takeWhile isTagChar = word at *
  generalize cs.dropWhile isTagChar = after at *
  have hplain : String.ofList word ∉ plainWords := fun hw =>
    h ⟨word, after, hcs.symm, hrun, .inl hw⟩
  have hdefine : String.ofList word ≠ "define" := fun hw =>
    h ⟨word, after, hcs.symm, hrun, .inr (.inl hw)⟩
  rcases hm : takeIf (fun c => String.ofList word = "call" && c == '?') after with ⟨mark, behind⟩
  obtain ⟨rfl, hmark, -⟩ := eq_append_of_takeIf hm
  simp only [hplain, hdefine, if_false, hm]
  split
  -- blanks and a parenthesis would be what the name of a tag has to have behind it
  · rename_i tail hd
    refine absurd ⟨word, _, hcs.symm, hrun, .inr (.inr ⟨mark, behind.takeWhile isSpace, tail,
      (isRun_span isSpace behind).all, by simpa using hmark, ?_⟩)⟩ h
    rw [← hd, List.takeWhile_append_dropWhile]
  · rfl

/-- The first character of a tag is one of those of its name. -/
theorem isTagChar_of_isTagStart {c : Char} (h : isTagStart c = true) : isTagChar c = true := by
  simp only [isTagStart, Bool.or_eq_true, beq_iff_eq] at h
  rcases h with h | rfl
  · simp [isTagChar, Char.isAlphanum, h]
  · decide

/-- A tag that is scanned behind its first character is spelled there. -/
theorem tagReads_of_scanDirective {c : Char} {cs rest : List Char} {piece : Piece} {n : Nat}
    (hc : isTagStart c = true) (hname : NameReads (c :: cs))
    (h : scanDirective (c :: cs) = .ok (piece, rest, n)) :
    ∃ tag, piece = .tag tag ∧ TagReads (c :: cs) tag rest := by
  obtain ⟨word, after, hcs, hrun, hname⟩ := hname
  have hstart := isTagChar_of_isTagStart hc
  -- the word is not empty, for it has the first character
  obtain ⟨word, rfl⟩ : ∃ tail, word = c :: tail := by
    cases word with
    | nil =>
      have := hrun.ends c (by rw [show after = c :: cs from hcs.symm]; rfl)
      rw [hstart] at this
      simp at this
    | cons d ds =>
      obtain ⟨rfl, -⟩ := List.cons.inj hcs
      exact ⟨ds, rfl⟩
  rw [hcs] at h ⊢
  unfold scanDirective at h
  simp only [hrun.takeWhile, hrun.dropWhile] at h
  -- a plain word, a definition, or any other name with arguments
  split at h
  · rename_i hplain
    simp only [Except.ok.injEq, Prod.mk.injEq] at h
    obtain ⟨rfl, rfl, -⟩ := h
    exact ⟨_, rfl, .plain hplain hrun⟩
  · rename_i hplain
    split at h
    · rename_i hdefine
      obtain ⟨spaces, name, tail, p, hsp, hne, hn, ha, rfl, rfl⟩ := scanDefine_eq_ok_iff.1 ⟨n, h⟩
      -- without blanks behind it, the word would be longer
      have hspaces : spaces ≠ [] := by
        rintro rfl
        obtain ⟨d, ds, rfl⟩ := List.exists_cons_of_ne_nil hne
        have := hrun.ends d rfl
        rw [hn d (by simp)] at this
        simp at this
      have hword : c :: word = "define".toList := by rw [← hdefine, String.toList_ofList]
      rw [hword]
      exact ⟨_, rfl, .define hspaces hsp hne hn ha⟩
    · rename_i hdefine
      obtain ⟨mark, spaces, tail, hsp, hmark, rfl⟩ :=
        (hname.resolve_left hplain).resolve_left hdefine
      have hhead : ∀ d ∈ (spaces ++ '(' :: tail).head?, d ≠ '?' := fun d hd => (hsp.head d hd).2
      simp only [takeIf_mark hmark hhead] at h
      split at h
      · rename_i hd
        obtain ⟨p, ha, rfl⟩ := (scanTag_dropWhile_eq_ok_iff _).1 ⟨_, n, hd, h⟩
        exact ⟨_, rfl, .named hc (fun d hd => hrun.all d (by simp [hd])) hplain hdefine hmark ha⟩
      · rename_i hd
        exact absurd hsp.isRun.dropWhile (hd tail)

/-- A tag that is spelled behind a `#` is scanned there, if it begins like a name. -/
theorem scanDirective_of_tagReads {c : Char} {cs rest : List Char} {tag : Tag}
    (hc : isTagStart c = true) (h : TagReads (c :: cs) tag rest) :
    ∃ n, scanDirective (c :: cs) = .ok (.tag tag, rest, n) := by
  generalize ht : c :: cs = text at h
  cases h with
  -- the two kinds of tags that begin with a mark
  | output =>
    obtain ⟨rfl, -⟩ := List.cons.inj ht
    exact absurd hc (by decide)
  | call =>
    obtain ⟨rfl, -⟩ := List.cons.inj ht
    exact absurd hc (by decide)
  | plain hplain hrun =>
    refine ⟨0, ?_⟩
    unfold scanDirective
    simp [hrun.takeWhile, hrun.dropWhile, hplain]
  -- the word ends where the blanks begin
  | @define spaces name after p rest hne hsp hnn hn ha =>
    have hdefine : ∀ d ∈ "define".toList, isTagChar d = true :=
      List.all_eq_true.1 (by decide : "define".toList.all isTagChar = true)
    have hrun : IsRun isTagChar "define".toList (spaces ++ (name ++ after)) := by
      refine ⟨hdefine, fun d hd => ?_⟩
      obtain ⟨e, es, rfl⟩ := List.exists_cons_of_ne_nil hne
      obtain rfl : e = d := by simpa using hd
      exact not_isTagChar_of_isSpace (hsp e (by simp))
    obtain ⟨n, hs⟩ := scanDefine_eq_ok_iff.2 ⟨spaces, name, after, p, hsp, hnn, hn, ha, rfl, rfl⟩
    refine ⟨n, ?_⟩
    unfold scanDirective
    simp only [hrun.takeWhile, hrun.dropWhile, String.ofList_toList]
    rw [if_neg (by decide), if_pos trivial, hs]
  | @named d word after p rest mark hd hword hplain hdefine hmark ha =>
    obtain ⟨rfl, -⟩ := List.cons.inj ht
    -- the word ends where the mark or the arguments begin
    have hrun : IsRun isTagChar (c :: word) (mark.toList ++ after) := by
      refine ⟨List.forall_mem_cons.2 ⟨isTagChar_of_isTagStart hc, hword⟩, fun d hd => ?_⟩
      cases mark with
      | none => exact (ha.head d hd).1
      | some e =>
        obtain rfl : e = d := by simpa using hd
        rw [(hmark e rfl).2]
        decide
    obtain ⟨tail, n, hd, hs⟩ := (scanTag_dropWhile_eq_ok_iff fun p =>
      .directive (String.ofList (c :: word) ++ String.ofList mark.toList) (some p)).2 ⟨p, ha, rfl⟩
    refine ⟨n, ?_⟩
    unfold scanDirective
    rw [← List.cons_append, hrun.takeWhile, hrun.dropWhile]
    simp only [hplain, hdefine, if_false, takeIf_mark hmark fun d hd => (ha.head d hd).2, hd]
    exact hs

/-! ### Constructs -/

/-- Whether a text behind a `#` begins a construct. -/
def Opens (cs : List Char) : Prop :=
  ['#'] <+: cs ∨ ['-', '-'] <+: cs ∨ ['[', '['] <+: cs ∨ ['('] <+: cs ∨ ['@'] <+: cs ∨
    (∃ c ∈ cs.head?, isTagStart c = true) ∧ NameReads cs

/-- Whether a text is empty or begins with a line feed. -/
def AtLineEnd (cs : List Char) : Prop := ∀ c ∈ cs.head?, c = '\n'

/-- Where a comment up to the end of the line ends: before the line break, and a carriage return
belongs to the line break. -/
def EndsComment (body after : List Char) : Prop :=
  '\n' ∉ body ∧
    (AtLineEnd after ∧ body.getLast? ≠ some '\r' ∨ ∃ tail, after = '\r' :: tail ∧ AtLineEnd tail)

/-- `Construct cs piece rest`: behind a `#`, the text `cs` spells a construct that is `piece`, and
`rest` follows it. A `#` that begins no construct is a literal character. -/
inductive Construct : List Char → Piece → List Char → Prop
  | lone {cs : List Char} : ¬ Opens cs → Construct cs (.text ['#']) cs
  | lineComment {body after : List Char} : EndsComment body after →
      Construct ('#' :: (body ++ after)) .lineComment after
  | blockComment {cs body after : List Char} : FirstAt "--#".toList cs body after →
      Construct ('-' :: '-' :: cs) .blockComment after
  | verbatim {cs body after : List Char} : FirstAt "]]#".toList cs body after →
      Construct ('[' :: '[' :: cs) (.verbatim body) after
  | tag {cs rest : List Char} {tag : Tag} : TagReads cs tag rest → Construct cs (.tag tag) rest

/-- What stands in front of the end of a line is a run without line feeds. -/
theorem AtLineEnd.isRun {run after : List Char} (hr : '\n' ∉ run) (ha : AtLineEnd after) :
    IsRun (· != '\n') run after where
  all c hc := by
    rw [bne_iff_ne]
    rintro rfl
    exact hr hc
  ends c hc := by simp [ha c hc]

/-- A comment up to the end of the line is scanned as it is spelled. -/
theorem scanLineComment_eq_ok_iff {cs rest : List Char} {piece : Piece} :
    (∃ n, scanLineComment cs = .ok (piece, rest, n)) ↔
      ∃ body, EndsComment body rest ∧ cs = body ++ rest ∧ piece = .lineComment := by
  constructor
  · rintro ⟨n, h⟩
    have hcs := List.takeWhile_append_dropWhile (p := (· != '\n')) (l := cs)
    have hrun := isRun_span (· != '\n') cs
    simp only [scanLineComment] at h
    generalize cs.takeWhile (· != '\n') = run at *
    generalize cs.dropWhile (· != '\n') = after at *
    have hend : AtLineEnd after := fun c hc => by simpa using hrun.ends c hc
    have hfeed : '\n' ∉ run := fun hm => by simpa using hrun.all _ hm
    simp only [Except.ok.injEq, Prod.mk.injEq] at h
    obtain ⟨rfl, rfl, -⟩ := h
    -- a carriage return in front of the line feed is left to the line break
    split
    · rename_i hlast
      obtain ⟨body, rfl⟩ := List.getLast?_eq_some_iff.1 hlast
      exact ⟨body, ⟨fun hm => hfeed (by simp [hm]), .inr ⟨after, rfl, hend⟩⟩,
        by rw [← hcs]; simp, rfl⟩
    · rename_i hlast
      exact ⟨run, ⟨hfeed, .inl ⟨hend, hlast⟩⟩, hcs.symm, rfl⟩
  · rintro ⟨body, ⟨hfeed, ⟨hend, hlast⟩ | ⟨tail, rfl, hend⟩⟩, rfl, rfl⟩
    · have hrun := hend.isRun hfeed
      exact ⟨0, by simp only [scanLineComment, hrun.takeWhile, hrun.dropWhile, if_neg hlast]⟩
    · have hrun : IsRun (· != '\n') (body ++ ['\r']) tail := hend.isRun (by simp [hfeed])
      have hsplit : body ++ '\r' :: tail = body ++ ['\r'] ++ tail := by simp
      refine ⟨0, ?_⟩
      simp only [scanLineComment, hsplit, hrun.takeWhile, hrun.dropWhile]
      simp

/-- What reaches up to a closing mark ends at the first one. -/
theorem scanTo_eq_ok_iff {mark what : String} {piece : List Char → Piece} {cs rest : List Char}
    {found : Piece} :
    (∃ n, scanTo mark what piece cs = .ok (found, rest, n)) ↔
      ∃ body, FirstAt mark.toList cs body rest ∧ found = piece body := by
  unfold scanTo
  constructor
  · rintro ⟨n, h⟩
    split at h
    · rename_i body _ hcut
      simp only [Except.ok.injEq, Prod.mk.injEq] at h
      obtain ⟨rfl, rfl, -⟩ := h
      exact ⟨body, cut_eq_some_iff.1 hcut, rfl⟩
    · simp at h
  · rintro ⟨body, hfirst, rfl⟩
    rw [cut_eq_some_iff.2 hfirst]
    exact ⟨lineFeeds body, rfl⟩

/-- A `#` that opens nothing is a literal character. -/
theorem scanConstruct_lone {cs : List Char} (h : ¬ Opens cs) :
    scanConstruct cs = .ok (.text ['#'], cs, 0) := by
  simp only [Opens, not_or] at h
  obtain ⟨h1, h2, h3, h4, h5, h6⟩ := h
  unfold scanConstruct
  split
  -- each of the marks would open something
  · simp at h1
  · simp at h2
  · simp at h3
  · simp at h4
  · simp at h5
  · rename_i c cs _ _ _ _ _
    split
    · rename_i hc
      exact scanDirective_of_not_nameReads fun hn => h6 ⟨⟨c, rfl, hc⟩, hn⟩
    · rfl
  · rfl

/-- A letter behind the `#` begins a name. -/
theorem scanConstruct_of_isTagStart {c : Char} {cs : List Char} (hc : isTagStart c = true) :
    scanConstruct (c :: cs) = scanDirective (c :: cs) := by
  unfold scanConstruct
  split
  case h_6 ht =>
    obtain ⟨rfl, rfl⟩ := List.cons.inj ht
    exact if_pos hc
  case h_7 ht => simp at ht
  all_goals
    rename_i ht
    obtain ⟨rfl, -⟩ := List.cons.inj ht
    exact absurd hc (by decide)

/-- Plain words begin like the names of tags. -/
theorem exists_isTagStart_of_plainWords :
    ∀ word ∈ plainWords, ∃ c ∈ word.toList.head?, isTagStart c = true := by
  have hall : (plainWords.all fun word => word.toList.head?.any isTagStart) = true := by decide
  intro word hword
  have hstart := List.all_eq_true.1 hall word hword
  cases hhead : word.toList.head? with
  | none =>
    rw [hhead] at hstart
    cases hstart
  | some c =>
    rw [hhead] at hstart
    exact ⟨c, rfl, hstart⟩

/-- Scanning what follows a `#` finds the tag that is spelled there. -/
theorem scanConstruct_of_tagReads {cs rest : List Char} {tag : Tag} (h : TagReads cs tag rest) :
    ∃ n, scanConstruct cs = .ok (.tag tag, rest, n) := by
  -- the tags with a name go through the scanner of directives
  have named {c : Char} {tail : List Char} (hc : isTagStart c = true)
      (ht : TagReads (c :: tail) tag rest) :
      ∃ n, scanConstruct (c :: tail) = .ok (.tag tag, rest, n) := by
    rw [scanConstruct_of_isTagStart hc]
    exact scanDirective_of_tagReads hc ht
  have h' := h
  cases h' with
  | output hb =>
    exact (scanTag_eq_ok_iff fun p => .directive "output" (some p)).2 ⟨_, hb, rfl, rfl⟩
  | call hne hn hmark ha => exact scanCall_eq_ok_iff.2 ⟨_, _, _, _, hne, hn, hmark, ha, rfl, rfl⟩
  | @plain word rest hplain =>
    obtain ⟨c, hc, hstart⟩ := exists_isTagStart_of_plainWords _ hplain
    rw [String.toList_ofList] at hc
    obtain ⟨ds, rfl⟩ := List.head?_eq_some_iff.1 hc
    exact named hstart h
  | define => exact named (by decide) h
  | named hc => exact named hc h

/-- A construct that begins with no mark is a tag with a name. -/
theorem Opens.name {c : Char} {cs : List Char} (h : Opens (c :: cs)) (hhash : c ≠ '#')
    (hcomment : ∀ tail, c = '-' → cs ≠ '-' :: tail) (hblock : ∀ tail, c = '[' → cs ≠ '[' :: tail)
    (houtput : c ≠ '(') (hcall : c ≠ '@') : isTagStart c = true ∧ NameReads (c :: cs) := by
  rcases h with ⟨t, h⟩ | ⟨t, h⟩ | ⟨t, h⟩ | ⟨t, h⟩ | ⟨t, h⟩ | ⟨⟨d, hd, hstart⟩, hname⟩
  · exact absurd (List.cons.inj h).1.symm hhash
  · obtain ⟨rfl, rfl⟩ := List.cons.inj h
    exact absurd rfl (hcomment t rfl)
  · obtain ⟨rfl, rfl⟩ := List.cons.inj h
    exact absurd rfl (hblock t rfl)
  · exact absurd (List.cons.inj h).1.symm houtput
  · exact absurd (List.cons.inj h).1.symm hcall
  · obtain rfl : c = d := by simpa using hd
    exact ⟨hstart, hname⟩

/-- Scanning what follows a `#` finds the construct that is spelled there. -/
theorem scanConstruct_eq_ok_iff {cs rest : List Char} {piece : Piece} :
    (∃ n, scanConstruct cs = .ok (piece, rest, n)) ↔ Construct cs piece rest := by
  constructor
  · rintro ⟨n, h⟩
    by_cases ho : Opens cs
    · -- The scanner tells constructs apart by their marks, in this order.
      unfold scanConstruct at h
      split at h
      · obtain ⟨body, he, rfl, rfl⟩ := scanLineComment_eq_ok_iff.1 ⟨n, h⟩
        exact .lineComment he
      · obtain ⟨body, hfirst, rfl⟩ := scanTo_eq_ok_iff.1 ⟨n, h⟩
        exact .blockComment hfirst
      · obtain ⟨body, hfirst, rfl⟩ := scanTo_eq_ok_iff.1 ⟨n, h⟩
        exact .verbatim hfirst
      · obtain ⟨p, hb, rfl, rfl⟩ := (scanTag_eq_ok_iff _).1 ⟨n, h⟩
        exact .tag (.output hb)
      · obtain ⟨name, mark, after, p, hne, hn, hmark, ha, rfl, rfl⟩ := scanCall_eq_ok_iff.1 ⟨n, h⟩
        exact .tag (.call hne hn hmark ha)
      · rename_i c cs hhash hcomment hblock houtput hcall
        obtain ⟨hstart, hname⟩ := ho.name hhash hcomment hblock houtput hcall
        rw [if_pos hstart] at h
        obtain ⟨tag, rfl, ht⟩ := tagReads_of_scanDirective hstart hname h
        exact .tag ht
      · simp [Opens] at ho
    · rw [scanConstruct_lone ho] at h
      simp only [Except.ok.injEq, Prod.mk.injEq] at h
      obtain ⟨rfl, rfl, -⟩ := h
      exact .lone ho
  · intro h
    cases h with
    | lone ho => exact ⟨0, scanConstruct_lone ho⟩
    | lineComment he => exact scanLineComment_eq_ok_iff.2 ⟨_, he, rfl, rfl⟩
    | blockComment hfirst => exact scanTo_eq_ok_iff.2 ⟨_, hfirst, rfl⟩
    | verbatim hfirst => exact scanTo_eq_ok_iff.2 ⟨_, hfirst, rfl⟩
    | tag ht => exact scanConstruct_of_tagReads ht

/-! ### Whole texts -/

/-- `Reads text regions`: the template text `text` is made of literal text and constructs, and
`regions` is what is left of them. -/
inductive Reads : List Char → List Region → Prop
  | nil : Reads [] []
  | char {c : Char} {cs : List Char} {rs : List Region} :
      c ≠ '#' → Reads cs rs → Reads (c :: cs) (.char c :: rs)
  | construct {cs rest : List Char} {piece : Piece} {rs : List Region} :
      Construct cs piece rest → Reads rest rs → Reads ('#' :: cs) (piece.regions ++ rs)

/-- A run of literal characters in front of a text. -/
theorem Reads.literal {run cs : List Char} {rs : List Region} (hrun : ∀ c ∈ run, c ≠ '#')
    (h : Reads cs rs) : Reads (run ++ cs) (run.map .char ++ rs) := by
  induction run with
  | nil => exact h
  | cons c run ih =>
    exact .char (hrun c (by simp)) (ih fun d hd => hrun d (by simp [hd]))

/-- A text that begins with no `#` is cut at the next one. -/
theorem scanPiece_of_ne {c : Char} {cs : List Char} (hc : c ≠ '#') :
    scanPiece c cs = .ok (.text (c :: cs.takeWhile (· != '#')), cs.dropWhile (· != '#'),
      lineFeeds (c :: cs.takeWhile (· != '#'))) := by
  simp [scanPiece, hc]

/-- What is cut off such a text is a run of characters, and a construct may begin behind it. -/
theorem exists_run_of_scanPiece {c : Char} {cs rest : List Char} {piece : Piece} {n : Nat}
    (hc : c ≠ '#') (hs : scanPiece c cs = .ok (piece, rest, n)) :
    ∃ run, c :: cs = run ++ rest ∧ piece = .text run ∧ n = lineFeeds run ∧
      (∀ d ∈ run, d ≠ '#') ∧ ∀ d ∈ rest.head?, d = '#' := by
  rw [scanPiece_of_ne hc] at hs
  simp only [Except.ok.injEq, Prod.mk.injEq] at hs
  obtain ⟨rfl, rfl, rfl⟩ := hs
  have hspan := isRun_span (· != '#') cs
  refine ⟨c :: cs.takeWhile (· != '#'), ?_, rfl, rfl, ?_, ?_⟩
  · rw [List.cons_append, List.takeWhile_append_dropWhile]
  · intro d hd
    rcases List.mem_cons.1 hd with rfl | hd
    · exact hc
    · simpa using hspan.all d hd
  · intro d hd
    simpa using hspan.ends d hd

/-- A piece and what follows it make up what they read as together. -/
theorem Reads.of_scanPiece {c : Char} {cs rest : List Char} {piece : Piece} {rs : List Region}
    {n : Nat} (hs : scanPiece c cs = .ok (piece, rest, n)) (h : Reads rest rs) :
    Reads (c :: cs) (piece.regions ++ rs) := by
  -- a construct, or else a run of text up to the next one
  by_cases hc : c = '#'
  · subst hc
    rw [scanPiece, if_pos rfl] at hs
    exact .construct (scanConstruct_eq_ok_iff.1 ⟨n, hs⟩) h
  · obtain ⟨run, htext, rfl, -, hrun, -⟩ := exists_run_of_scanPiece hc hs
    rw [htext]
    exact Reads.literal hrun h

/-- The pieces that a text is cut into are a reading of it. -/
theorem reads_of_cutFrom {row : Nat} {text : List Char} {pieces : List PlacedPiece}
    (h : cutFrom row text = .ok pieces) : Reads text (piecesRegions pieces) := by
  fun_induction cutFrom row text generalizing pieces with
  | case1 =>
    obtain rfl := Except.ok.inj h
    exact .nil
  | case2 | case3 => simp at h
  | case4 row c cs piece rest rows hs tail hr ih =>
    obtain rfl := Except.ok.inj h
    exact .of_scanPiece hs (ih hr)

/-- Cutting a text cuts a piece and what is left. -/
theorem cutFrom_cons_eq_ok_iff {row : Nat} {c : Char} {cs : List Char}
    {pieces : List PlacedPiece} :
    cutFrom row (c :: cs) = .ok pieces ↔
      ∃ piece rest n tail, scanPiece c cs = .ok (piece, rest, n) ∧
        cutFrom (row + n) rest = .ok tail ∧ pieces = ⟨piece, row⟩ :: tail := by
  rw [cutFrom]
  constructor
  · intro h
    split at h
    · simp at h
    · rename_i piece rest n hs
      split at h
      · simp at h
      · rename_i tail hr
        exact ⟨piece, rest, n, tail, hs, hr, (Except.ok.inj h).symm⟩
  · rintro ⟨piece, rest, n, tail, hs, hr, rfl⟩
    split
    · simp_all
    · rename_i hs'
      rw [hs] at hs'
      simp only [Except.ok.injEq, Prod.mk.injEq] at hs'
      obtain ⟨rfl, rfl, rfl⟩ := hs'
      simp [hr]

/-- A literal character in front of a text joins the literal text that it begins with. -/
theorem exists_cutFrom_char {c : Char} {cs : List Char} {rs : List Region} (hc : c ≠ '#')
    (h : ∀ row, ∃ pieces, cutFrom row cs = .ok pieces ∧ piecesRegions pieces = rs) (row : Nat) :
    ∃ pieces, cutFrom row (c :: cs) = .ok pieces ∧ piecesRegions pieces = .char c :: rs := by
  -- the text behind the character is empty, a construct, or literal text itself
  rcases cs with _ | ⟨d, ds⟩
  · obtain ⟨pieces, hp, rfl⟩ := h (row + lineFeeds [c])
    exact ⟨_, cutFrom_cons_eq_ok_iff.2 ⟨_, _, _, _, scanPiece_of_ne hc, hp, rfl⟩, rfl⟩
  · by_cases hd : d = '#'
    · subst hd
      obtain ⟨pieces, hp, rfl⟩ := h (row + lineFeeds [c])
      exact ⟨_, cutFrom_cons_eq_ok_iff.2 ⟨_, _, _, _, scanPiece_of_ne hc, hp, rfl⟩, rfl⟩
    · -- The rows agree behind the literal text, wherever it begins.
      obtain ⟨pieces, hp, rfl⟩ := h (row + lineFeeds [c])
      obtain ⟨piece, rest, n, tail, hs, hr, rfl⟩ := cutFrom_cons_eq_ok_iff.1 hp
      rw [scanPiece_of_ne hd] at hs
      simp only [Except.ok.injEq, Prod.mk.injEq] at hs
      obtain ⟨rfl, rfl, rfl⟩ := hs
      refine ⟨_, cutFrom_cons_eq_ok_iff.2 ⟨_, _, _, tail, scanPiece_of_ne hc, ?_, rfl⟩, ?_⟩
      · have hrow : row + lineFeeds (c :: (d :: ds).takeWhile (· != '#')) =
            row + lineFeeds [c] + lineFeeds (d :: ds.takeWhile (· != '#')) := by
          simp [lineFeeds, List.countP_cons, hd]
          omega
        rw [hrow]
        simpa [hd] using hr
      · simp [piecesRegions, Piece.regions, hd]

/-- A text with a reading is cut into pieces with the regions of that reading. -/
theorem exists_cutFrom_of_reads {text : List Char} {rs : List Region} (h : Reads text rs) :
    ∀ row, ∃ pieces, cutFrom row text = .ok pieces ∧ piecesRegions pieces = rs := by
  induction h with
  | nil => exact fun row => ⟨[], by rw [cutFrom], rfl⟩
  | char hc _ ih => exact exists_cutFrom_char hc ih
  | @construct cs rest piece rs hc _ ih =>
    intro row
    obtain ⟨n, hs⟩ := scanConstruct_eq_ok_iff.2 hc
    obtain ⟨pieces, hp, rfl⟩ := ih (row + n)
    exact ⟨_, cutFrom_cons_eq_ok_iff.2 ⟨_, _, _, _, by simpa [scanPiece] using hs, hp, rfl⟩, rfl⟩

/-- **A template text has one reading at most.** -/
theorem Reads.unique {text : List Char} {rs rs' : List Region} (h : Reads text rs)
    (h' : Reads text rs') : rs = rs' := by
  obtain ⟨pieces, hp, rfl⟩ := exists_cutFrom_of_reads h 1
  obtain ⟨pieces', hp', rfl⟩ := exists_cutFrom_of_reads h' 1
  rw [hp] at hp'
  rw [Except.ok.inj hp']

/-- The tags of a text are spelled in it. -/
theorem Reads.exists_tagReads {text : List Char} {rs : List Region} {tag : Tag}
    (h : Reads text rs) (ht : .tag tag ∈ rs) : ∃ cs rest, TagReads cs tag rest := by
  induction h with
  | nil => simp at ht
  | char _ _ ih => exact ih (by simpa using ht)
  | construct hc _ ih =>
    rcases List.mem_append.1 ht with ht | ht
    · cases hc with
      | tag hr =>
        obtain rfl : tag = _ := by simpa [Piece.regions] using ht
        exact ⟨_, _, hr⟩
      | lone | lineComment | blockComment | verbatim => simp [Piece.regions] at ht
    · exact ih ht

/-- A template of nothing but a tag is this tag, whether its line is kept or not. -/
theorem itemsOf_tag {cs : List Char} {tag : Tag} (h : TagReads cs tag []) (keep : List String) :
    itemsOf keep ('#' :: cs) = .ok [.tag tag 1] := by
  obtain ⟨n, hscan⟩ := scanConstruct_of_tagReads h
  have hpieces : cutTemplate ('#' :: cs) = .ok [⟨.tag tag, 1⟩] :=
    cutFrom_cons_eq_ok_iff.2 ⟨_, [], n, [], hscan, by rw [cutFrom], rfl⟩
  rw [itemsOf, hpieces]
  by_cases hkeep : tag.id ∈ keep
  · simp [Layer.addAll, Layer.add, Layer.pushTag, Layer.flush, Layer.items, hkeep, Except.map]
  · simp [Layer.addAll, Layer.add, Layer.pushTag, Layer.flush, Layer.items, Layer.trimLine,
      Layer.deleteLineStart, blankBefore, dropOpenLine, hkeep, Except.map]

end Stencil
