import Mathlib
import Stencil.Proofs.Template.ConstructLines
import Stencil.Proofs.Template.LineEndings
import Stencil.Proofs.Template.Parameters

/-!
# Rows of tags

Every tag has a row, and so has the fault of a text that cannot be cut. Both are meant to be the
row of the `#` that the construct begins with: one more than the line feeds in front of it.

They are, up to one kind of line feed. The scanner of parameters takes a backslash in a string
literal together with the character behind it, and if this character is a line feed then it is
taken without being counted. So the account of the rows has two sides:

* `ReadsTo text tags front cs` says that reading `text` construct by construct gets as far as
  `front`, with `cs` left, and has read `tags`. It is written down without a scanner.
* `escapedFeeds` are the line feeds that go uncounted in the parameters of a tag.

`Accounted` is the invariant of cutting: the row so far and the feeds that were not counted make up
the line feeds of what has been read. Every scanner keeps it (`countsFeeds_scanConstruct`), hence so
does cutting (`Accounted.step`), and laying out keeps tags together with their rows
(`placed_itemsOf`).

Main statement: `rows_itemsOf`. A row falls short of the right one by exactly the escaped line feeds
of the tags in front, so it is right if and only if there are none.
-/

namespace Stencil

/-! ### Counting line feeds -/

/-- There are no line feeds in an empty text. -/
@[simp] theorem lineFeeds_nil : lineFeeds [] = 0 := rfl

/-- The first character counts if it is a line feed. -/
theorem lineFeeds_cons (c : Char) (cs : List Char) :
    lineFeeds (c :: cs) = (if c = '\n' then 1 else 0) + lineFeeds cs := by
  rw [lineFeeds, lineFeeds, List.countP_cons, Nat.add_comm]
  simp only [beq_iff_eq]

/-- Line feeds are counted part by part. -/
@[simp] theorem lineFeeds_append (front cs : List Char) :
    lineFeeds (front ++ cs) = lineFeeds front + lineFeeds cs := List.countP_append

/-- A character that is no line feed does not count. -/
theorem lineFeeds_cons_of_ne {c : Char} (hc : c ≠ '\n') (cs : List Char) :
    lineFeeds (c :: cs) = lineFeeds cs := by
  rw [lineFeeds_cons, if_neg hc, Nat.zero_add]

/-- There is nothing to count in a text without line feeds. -/
theorem lineFeeds_of_not_mem {cs : List Char} (h : '\n' ∉ cs) : lineFeeds cs = 0 := by
  rw [lineFeeds, List.countP_eq_zero]
  intro c hc hfeed
  exact h (beq_iff_eq.1 hfeed ▸ hc)

/-- The characters of a class without the line feed are no line feeds. -/
theorem ne_lineFeed_of {p : Char → Bool} (hp : p '\n' = false) (c : Char) (hc : p c = true) :
    c ≠ '\n' := by
  rintro rfl
  rw [hp] at hc
  exact Bool.false_ne_true hc

/-- A run of characters that are no line feeds does not count. -/
theorem lineFeeds_dropWhile {p : Char → Bool} (hp : p '\n' = false) (cs : List Char) :
    lineFeeds (cs.dropWhile p) = lineFeeds cs := by
  induction cs with
  | nil => rfl
  | cons c cs ih =>
    rw [List.dropWhile_cons]
    split
    · rename_i hc
      rw [ih, lineFeeds_cons_of_ne (ne_lineFeed_of hp c hc)]
    · rfl

/-- Neither does one such character. -/
theorem lineFeeds_takeIf {p : Char → Bool} (hp : p '\n' = false) (cs : List Char) :
    lineFeeds (takeIf p cs).2 = lineFeeds cs := by
  cases cs with
  | nil => rfl
  | cons c cs =>
    rw [takeIf]
    split
    · rename_i hc
      rw [lineFeeds_cons_of_ne (ne_lineFeed_of hp c hc)]
    · rfl

/-! ### Line feeds that are not counted -/

/-- The line feeds behind a backslash in the string literals of a text, which begins inside of the
literal `quote`. -/
def escapedFeeds (quote : Option Char) : List Char → Nat
  | [] => 0
  | c :: cs =>
    match quote with
    | some q =>
      if c = '\\' then
        match cs with
        | [] => 0
        | e :: cs => lineFeeds [e] + escapedFeeds (some q) cs
      else escapedFeeds (if c = q then none else some q) cs
    | none => escapedFeeds (if c = '\x22' ∨ c = '\x27' then some c else none) cs

/-- The line feeds of a tag that are not counted. -/
def Tag.escapedFeeds (t : Tag) : Nat :=
  match t.parameters? with
  | none => 0
  | some parameters => Stencil.escapedFeeds none parameters.toList

/-- The line feeds of tags that are not counted. -/
def uncounted (tags : List Tag) : Nat := (tags.map Tag.escapedFeeds).sum

/-- No tags leave nothing uncounted. -/
@[simp] theorem uncounted_nil : uncounted [] = 0 := rfl

/-- What is not counted adds up. -/
@[simp] theorem uncounted_append (tags more : List Tag) :
    uncounted (tags ++ more) = uncounted tags + uncounted more := by
  simp [uncounted]

/-- Scanned parameters account for their line feeds, from any point inside of them. -/
theorem scanParameters_rows {quote : Option Char} {depth rows n : Nat}
    {cs parameters rest : List Char}
    (h : scanParameters quote depth rows cs = .ok (parameters, rest, n)) :
    n + escapedFeeds quote parameters + lineFeeds rest = rows + lineFeeds cs := by
  fun_induction scanParameters quote depth rows cs generalizing parameters rest n with
  | case1 | case2 | case3 => simp at h
  | case4 =>
    -- The one place where a line feed may be taken without being counted.
    rename_i q e cs ih
    obtain ⟨inner, hi, rfl⟩ := eq_ok_of_prepend h
    have := ih hi
    have hescaped : escapedFeeds (some q) ('\\' :: e :: inner) =
        lineFeeds [e] + escapedFeeds (some q) inner := by
      rw [escapedFeeds.eq_def]
      exact if_pos rfl
    change n + escapedFeeds (some q) ('\\' :: e :: inner) + lineFeeds rest = _
    have hfeeds : lineFeeds ('\\' :: e :: cs) = lineFeeds [e] + lineFeeds cs := by
      rw [lineFeeds_cons_of_ne (by decide)]
      exact lineFeeds_append [e] cs
    rw [hescaped, hfeeds]
    omega
  | case5 =>
    rename_i c cs q hc quote' rows' ih
    obtain ⟨inner, hi, rfl⟩ := eq_ok_of_prepend h
    have := ih hi
    have hplain : escapedFeeds (some q) ([c] ++ inner) = escapedFeeds quote' inner := by
      rw [List.singleton_append, escapedFeeds.eq_def]
      exact if_neg hc
    rw [hplain, lineFeeds_cons]
    simp only [rows'] at this
    split at this <;> simp_all
    omega
  | case6 =>
    rename_i hc
    -- in a literal, any other character is counted as it should be
    simp only [Except.ok.injEq, Prod.mk.injEq] at h
    obtain ⟨rfl, rfl, rfl⟩ := h
    rw [lineFeeds_cons_of_ne (by rw [hc.1]; decide)]
    rfl
  | case7 =>
    rename_i c cs hc quote' depth' rows' ih
    obtain ⟨inner, hi, rfl⟩ := eq_ok_of_prepend h
    have := ih hi
    have hplain : escapedFeeds none ([c] ++ inner) = escapedFeeds quote' inner := rfl
    -- the closing parenthesis is no line feed
    rw [hplain, lineFeeds_cons]
    simp only [rows'] at this
    split at this <;> simp_all
    omega

-- outside of literals, every character is counted
/-! ### What the scanners count -/

/-- Whether a construct that begins at the front of `cs` accounts for its line feeds. -/
def CountsFeeds (cs : List Char) (cut : Cut) : Prop :=
  ∀ piece rest n, cut = .ok (piece, rest, n) →
    n + uncounted piece.tags + lineFeeds rest = lineFeeds cs

/-- A fault says nothing about line feeds. -/
theorem countsFeeds_error (cs : List Char) (fault : ParseFault × Nat) :
    CountsFeeds cs (.error fault) := by
  intro piece rest n h
  cases h

/-- A `#` on its own has nothing to count. -/
theorem countsFeeds_lone (cs : List Char) : CountsFeeds cs (.ok (.text ['#'], cs, 0)) := by
  intro piece rest n h
  simp only [Except.ok.injEq, Prod.mk.injEq] at h
  obtain ⟨rfl, rfl, rfl⟩ := h
  simp [Piece.tags]

/-- What counts does not depend on a front without line feeds. -/
theorem CountsFeeds.of_eq {cs tail : List Char} {cut : Cut} (h : CountsFeeds tail cut)
    (hfeeds : lineFeeds tail = lineFeeds cs) : CountsFeeds cs cut := by
  intro piece rest n hcut
  rw [h piece rest n hcut, hfeeds]

/-- A character in front that is no line feed does not count. -/
theorem CountsFeeds.cons {c : Char} {cs : List Char} {cut : Cut} (hc : c ≠ '\n')
    (h : CountsFeeds cs cut) : CountsFeeds (c :: cs) cut :=
  h.of_eq (lineFeeds_cons_of_ne hc cs).symm

/-- A tag and its parameters. The tag that is made of parameters has these parameters. -/
theorem countsFeeds_scanTag {tag : String → Tag}
    (htag : ∀ parameters, (tag parameters).parameters? = some parameters) (cs : List Char) :
    CountsFeeds cs (scanTag tag cs) := by
  intro piece rest n h
  rw [scanTag] at h
  split at h
  · cases h
  · rename_i parameters rest rows hs
    simp only [Except.ok.injEq, Prod.mk.injEq] at h
    obtain ⟨rfl, rfl, rfl⟩ := h
    have hfeeds : uncounted (Piece.tag (tag (String.ofList parameters))).tags =
        escapedFeeds none parameters := by
      simp [Piece.tags, uncounted, Tag.escapedFeeds, htag]
    rw [hfeeds, scanParameters_rows hs, Nat.zero_add]

/-- Parameters that begin behind blanks. -/
theorem countsFeeds_scanTag_dropWhile {tag : String → Tag}
    (htag : ∀ parameters, (tag parameters).parameters? = some parameters) {cs tail : List Char}
    (hd : cs.dropWhile isSpace = '(' :: tail) : CountsFeeds cs (scanTag tag tail) := by
  have hcount := (countsFeeds_scanTag htag tail).cons (c := '(') (by decide)
  apply hcount.of_eq
  rw [← hd, lineFeeds_dropWhile rfl]

/-- A comment up to the end of the line has no line feed. -/
theorem countsFeeds_scanLineComment (cs : List Char) : CountsFeeds cs (scanLineComment cs) := by
  intro piece rest n h
  obtain ⟨body, hends, rfl, rfl⟩ := scanLineComment_eq_ok_iff.1 ⟨n, h⟩
  have hn : 0 = n := (Prod.mk.inj (Prod.mk.inj (Except.ok.inj h)).2).2
  rw [lineFeeds_append, lineFeeds_of_not_mem hends.1, ← hn]
  rfl

/-- A construct that ends at a mark has counted what stands before the mark. -/
theorem lineFeeds_of_cut {needle text before after : List Char} (hneedle : lineFeeds needle = 0)
    (h : Text.cut needle text = some (before, after)) :
    lineFeeds text = lineFeeds before + lineFeeds after := by
  rw [Text.eq_of_cut h, lineFeeds_append, lineFeeds_append, hneedle, Nat.add_zero]

/-- What is not a tag holds no literals, so all its line feeds are counted. -/
theorem countsFeeds_scanTo {mark : String} (hmark : lineFeeds mark.toList = 0) (what : String)
    {piece : List Char → Piece} (hpiece : ∀ body, (piece body).tags = []) (cs : List Char) :
    CountsFeeds cs (scanTo mark what piece cs) := by
  intro found rest n h
  rw [scanTo] at h
  split at h
  · rename_i hcut
    simp only [Except.ok.injEq, Prod.mk.injEq] at h
    obtain ⟨rfl, rfl, rfl⟩ := h
    rw [lineFeeds_of_cut hmark hcut, hpiece]
    rfl
  · cases h

/-- A call counts the line feeds of its parameters. -/
theorem countsFeeds_scanCall (cs : List Char) : CountsFeeds cs (scanCall cs) := by
  rw [scanCall]
  -- neither the name nor the mark has line feeds
  have hmark : lineFeeds (takeIf (· == '?') (cs.dropWhile isTagChar)).2 = lineFeeds cs := by
    rw [lineFeeds_takeIf rfl, lineFeeds_dropWhile rfl]
  split
  rename_i mark tail htaken
  rw [htaken] at hmark
  split
  · exact countsFeeds_error cs _
  · split
    · rename_i hd
      exact (countsFeeds_scanTag_dropWhile (fun _ => rfl) hd).of_eq hmark
    · exact countsFeeds_error cs _

/-- A definition counts the line feeds of its parameters. -/
theorem countsFeeds_scanDefine (cs : List Char) : CountsFeeds cs (scanDefine cs) := by
  rw [scanDefine]
  have hname : lineFeeds ((cs.dropWhile isSpace).dropWhile isTagChar) = lineFeeds cs := by
    rw [lineFeeds_dropWhile rfl, lineFeeds_dropWhile rfl]
  split
  · exact countsFeeds_error cs _
  · split
    · rename_i hd
      exact (countsFeeds_scanTag_dropWhile (fun _ => rfl) hd).of_eq hname
    · exact countsFeeds_error cs _

/-- A directive counts the line feeds of its parameters. -/
theorem countsFeeds_scanDirective (cs : List Char) : CountsFeeds cs (scanDirective cs) := by
  rw [scanDirective]
  have hword : lineFeeds (cs.dropWhile isTagChar) = lineFeeds cs := lineFeeds_dropWhile rfl cs
  simp only
  split
  · -- A tag without parameters.
    intro piece rest n h
    simp only [Except.ok.injEq, Prod.mk.injEq] at h
    obtain ⟨rfl, rfl, rfl⟩ := h
    rw [hword]
    exact Nat.zero_add _
  · split
    · exact (countsFeeds_scanDefine _).of_eq hword
    -- behind the word, a mark and blanks have no line feeds either
    · have hmark : lineFeeds (takeIf (fun c => String.ofList (cs.takeWhile isTagChar) = "call" &&
          c == '?') (cs.dropWhile isTagChar)).2 = lineFeeds cs := by
        rw [lineFeeds_takeIf (by simp), hword]
      split
      · rename_i hd
        exact (countsFeeds_scanTag_dropWhile (fun _ => rfl) hd).of_eq hmark
      · exact countsFeeds_lone cs

/-- **What a `#` begins accounts for its line feeds.** -/
theorem countsFeeds_scanConstruct (cs : List Char) : CountsFeeds cs (scanConstruct cs) := by
  unfold scanConstruct
  split
  · exact (countsFeeds_scanLineComment _).cons (by decide)
  · exact ((countsFeeds_scanTo (by decide) _ (fun _ => rfl) _).cons (by decide)).cons (by decide)
  · exact ((countsFeeds_scanTo (by decide) _ (fun _ => rfl) _).cons (by decide)).cons (by decide)
  · exact (countsFeeds_scanTag (fun _ => rfl) _).cons (by decide)
  · exact (countsFeeds_scanCall _).cons (by decide)
  · split
    · exact countsFeeds_scanDirective _
    · exact countsFeeds_lone _
  · exact countsFeeds_lone _

/-! ### Constructs that are not closed -/

/-- The front does not make a scan fail. -/
theorem eq_error_of_prepend {front : List Char} {fault : ParseFault × Nat}
    {scanned : Except (ParseFault × Nat) (List Char × List Char × Nat)}
    (h : prepend front scanned = .error fault) : scanned = .error fault := by
  cases scanned with
  | error _ => exact h
  | ok _ => cases h

/-- What is missing in a string literal that is not closed. -/
def literalEnd : String := "string literal in directive parameters"

/-- What is missing in parameters that are not closed. -/
def parametersEnd : String := "directive parameters, expected ')'"

/-- Parentheses at the end close as many parentheses as are open, and the parameters. -/
theorem scanParameters_replicate (depth rows : Nat) :
    scanParameters none depth rows (List.replicate (depth + 1) ')') =
      .ok (List.replicate depth ')', [], rows) := by
  induction depth with
  | zero => rfl
  | succ depth ih =>
    rw [List.replicate_succ, scanParameters_plain (by simp)]
    change prepend [')'] (scanParameters none depth rows (List.replicate (depth + 1) ')')) = _
    rw [ih]
    rfl

/-- Parameters that end too early, but not in a string literal, lack nothing but closing
parentheses. -/
theorem scanParameters_unterminated {quote : Option Char} {depth rows n : Nat} {cs : List Char}
    {what : String} (h : scanParameters quote depth rows cs = .error (.unterminated what, n))
    (hwhat : what ≠ literalEnd) :
    n = 0 ∧ what = parametersEnd ∧ ∃ missing m,
      scanParameters quote depth rows (cs ++ List.replicate (missing + 1) ')') =
        -- the text ends in a string literal, where the end of the literal is missed
        .ok (cs ++ List.replicate missing ')', [], m) := by
  -- The parentheses behind the text are looked at once the text is used up, in the same state.
  fun_induction scanParameters quote depth rows cs generalizing n with
  -- the text ends outside of literals
  | case1 | case3 =>
    simp only [Except.error.injEq, Prod.mk.injEq, ParseFault.unterminated.injEq] at h
    exact absurd h.1.symm hwhat
  -- an escape, a character of a literal, or one outside of literals: all are passed over as before
  | case2 depth rows =>
    simp only [Except.error.injEq, Prod.mk.injEq, ParseFault.unterminated.injEq] at h
    exact ⟨h.2.symm, h.1.symm, depth, rows, scanParameters_replicate depth rows⟩
  | case4 =>
    rename_i q e cs ih
    obtain ⟨hn, hw, missing, m, hs⟩ := ih (eq_error_of_prepend h)
    refine ⟨hn, hw, missing, m, ?_⟩
    rw [List.cons_append, List.cons_append, scanParameters_escaped, hs]
    rfl
  | case5 =>
    rename_i hc _ _ ih
    obtain ⟨hn, hw, missing, m, hs⟩ := ih (eq_error_of_prepend h)
    refine ⟨hn, hw, missing, m, ?_⟩
    rw [List.cons_append, scanParameters_quoted hc, hs]
    rfl
  | case6 => simp at h
  | case7 =>
    rename_i hc _ _ _ ih
    obtain ⟨hn, hw, missing, m, hs⟩ := ih (eq_error_of_prepend h)
    refine ⟨hn, hw, missing, m, ?_⟩
    rw [List.cons_append, scanParameters_plain hc, hs]
    rfl

/-- `Unclosed cs what`: behind a `#`, the text `cs` begins a construct that is not closed, and
`what` is missing. Parameters lack nothing but closing parentheses; so no string literal is left
open in them. -/
inductive Unclosed : List Char → String → Prop
  | comment {cs : List Char} : ¬ "--#".toList <:+: cs →
      Unclosed ('-' :: '-' :: cs) "comment, expected '--#'"
  | verbatim {cs : List Char} : ¬ "]]#".toList <:+: cs →
      Unclosed ('[' :: '[' :: cs) "no-parse block, expected ']]#'"
  | parameters {cs : List Char} {tag : Tag} (missing : Nat) :
      TagReads (cs ++ List.replicate (missing + 1) ')') tag [] → Unclosed cs parametersEnd

/-- What reaches up to a closing mark is not closed if there is no such mark. -/
theorem unmarked_of_scanTo {mark what what' : String} {piece : List Char → Piece} {cs : List Char}
    {n : Nat} (h : scanTo mark what piece cs = .error (.unterminated what', n)) :
    n = 0 ∧ what' = what ∧ ¬ mark.toList <:+: cs := by
  rw [scanTo] at h
  split at h
  · cases h
  · rename_i hcut
    simp only [Except.error.injEq, Prod.mk.injEq, ParseFault.unterminated.injEq] at h
    exact ⟨h.2.symm, h.1.symm, cut_eq_none_iff.1 hcut⟩

/-- Parameters that are not closed. -/
theorem balanced_of_scanTag {tag : String → Tag} {tail : List Char} {what : String} {n : Nat}
    (h : scanTag tag tail = .error (.unterminated what, n)) (hwhat : what ≠ literalEnd) :
    n = 0 ∧ what = parametersEnd ∧ ∃ missing, Balanced (tail ++ List.replicate missing ')') := by
  rw [scanTag] at h
  split at h
  · rename_i hs
    obtain rfl := Except.error.inj h
    obtain ⟨hn, hw, missing, m, hclosed⟩ := scanParameters_unterminated hs hwhat
    obtain ⟨-, hcloses⟩ := scanParameters_sound (by simp) hclosed
    cases hcloses with
    | zero hbalanced => exact ⟨hn, hw, missing, hbalanced⟩
  · cases h

/-- One of the parentheses at the end closes the parameters, the others stand in them. -/
theorem append_replicate_succ (tail : List Char) (missing : Nat) :
    tail ++ List.replicate (missing + 1) ')' =
      tail ++ List.replicate missing ')' ++ ')' :: [] := by
  rw [List.append_assoc, List.replicate_succ']

/-- Parameters that are not closed, behind the name of a tag. -/
theorem arguments_of_scanTag {tag : String → Tag} {after tail : List Char} {what : String}
    {n : Nat} (hd : after.dropWhile isSpace = '(' :: tail)
    (h : scanTag tag tail = .error (.unterminated what, n)) (hwhat : what ≠ literalEnd) :
    n = 0 ∧ what = parametersEnd ∧ ∃ missing parameters,
      Arguments (after ++ List.replicate (missing + 1) ')') parameters [] := by
  obtain ⟨hn, hw, missing, hbalanced⟩ := balanced_of_scanTag h hwhat
  refine ⟨hn, hw, missing, tail ++ List.replicate missing ')', ?_⟩
  have hafter : after ++ List.replicate (missing + 1) ')' =
      after.takeWhile isSpace ++ '(' :: (tail ++ List.replicate missing ')' ++ ')' :: []) := by
    rw [← append_replicate_succ, ← List.cons_append, ← hd, ← List.append_assoc,
      List.takeWhile_append_dropWhile]
  rw [hafter]
  exact .mk (isRun_span isSpace after).all hbalanced

/-- Only its parameters can be missing from a tag behind its `#`. -/
def LacksEnd (cs : List Char) (what : String) (n : Nat) : Prop :=
  n = 0 ∧ what = parametersEnd ∧ ∃ missing tag,
    TagReads (cs ++ List.replicate (missing + 1) ')') tag []

/-- A call that has no end lacks closing parentheses. -/
theorem lacksEnd_of_scanCall {cs : List Char} {what : String} {n : Nat}
    (h : scanCall cs = .error (.unterminated what, n)) (hwhat : what ≠ literalEnd) :
    LacksEnd ('@' :: cs) what n := by
  rcases scanCall_cases cs with
    ⟨what', hfault⟩ | ⟨name, mark, after, tail, hne, hname, hmark, rfl, hd, hcall⟩
  -- a call without a name or parameters fails in another way
  · rw [hfault] at h
    cases h
  · rw [hcall] at h
    obtain ⟨hn, hw, missing, parameters, ha⟩ := arguments_of_scanTag hd h hwhat
    refine ⟨hn, hw, missing, .call (.ofList name) mark.isSome (.ofList parameters), ?_⟩
    rw [List.cons_append, List.append_assoc, List.append_assoc]
    exact .call hne hname hmark ha

/-- A definition that has no end lacks closing parentheses. -/
theorem lacksEnd_of_scanDefine {cs : List Char} {what : String} {n : Nat}
    (hcs : ∀ c ∈ cs.head?, isTagChar c = false)
    (h : scanDefine cs = .error (.unterminated what, n)) (hwhat : what ≠ literalEnd) :
    LacksEnd ("define".toList ++ cs) what n := by
  rcases scanDefine_cases cs with
    ⟨what', hfault⟩ | ⟨spaces, name, after, tail, hspaces, hne, hname, rfl, hd, hdefine⟩
  · rw [hfault] at h
    cases h
  · rw [hdefine] at h
    obtain ⟨hn, hw, missing, parameters, ha⟩ := arguments_of_scanTag hd h hwhat
    refine ⟨hn, hw, missing, .define (.ofList name) (.ofList parameters), ?_⟩
    -- Without a blank, the name would belong to the word `define`.
    have hblank : spaces ≠ [] := by
      rintro rfl
      obtain ⟨c, word, rfl⟩ := List.exists_cons_of_ne_nil hne
      have hend := hcs c rfl
      rw [hname c List.mem_cons_self] at hend
      cases hend
    rw [List.append_assoc "define".toList, List.append_assoc spaces, List.append_assoc name]
    exact .define hblank hspaces hne hname ha

/-- A directive that has no end lacks closing parentheses. -/
theorem lacksEnd_of_scanDirective {c : Char} {cs : List Char} {what : String} {n : Nat}
    (hc : isTagStart c = true) (h : scanDirective (c :: cs) = .error (.unterminated what, n))
    (hwhat : what ≠ literalEnd) : LacksEnd (c :: cs) what n := by
  have hcs := List.takeWhile_append_dropWhile (p := isTagChar) (l := c :: cs)
  have hrun := isRun_span isTagChar (c :: cs)
  -- The word has a first character, so it is no empty name.
  have hword : (c :: cs).takeWhile isTagChar = c :: cs.takeWhile isTagChar := by
    rw [List.takeWhile_cons, if_pos (isTagChar_of_isTagStart hc)]
  rw [hword] at hcs hrun
  unfold scanDirective at h
  rw [hword] at h
  generalize cs.takeWhile isTagChar = word at *
  generalize (c :: cs).dropWhile isTagChar = after at *
  rw [← hcs]
  simp only at h
  split at h
  -- plain words have no parameters to close, a definition has its own scanner
  · cases h
  · rename_i hplain
    split at h
    · rename_i hdefine
      have hspelled : c :: word = "define".toList := by rw [← hdefine, String.toList_ofList]
      -- the arguments behind any other name, if there are any
      rw [hspelled]
      exact lacksEnd_of_scanDefine hrun.ends h hwhat
    · rename_i hdefine
      rcases hm : takeIf (fun d => String.ofList (c :: word) = "call" && d == '?') after with
        ⟨mark, tail⟩
      obtain ⟨rfl, hmark, -⟩ := eq_append_of_takeIf hm
      simp only [hm] at h
      split at h
      · rename_i hd
        obtain ⟨hn, hw, missing, parameters, ha⟩ := arguments_of_scanTag hd h hwhat
        refine ⟨hn, hw, missing, .directive (.ofList (c :: word) ++ .ofList mark.toList)
          (some (.ofList parameters)), ?_⟩
        rw [List.append_assoc, List.append_assoc, List.cons_append]
        exact .named hc (fun d hd => hrun.all d (List.mem_cons_of_mem c hd)) hplain hdefine
          (by simpa using hmark) ha
      · cases h

/-- **A construct that cannot be scanned for want of its end is not closed.** A string literal that
is left open is the one exception; every other end is missed at the `#`. -/
theorem unclosed_of_scanConstruct {cs : List Char} {what : String} {n : Nat}
    (h : scanConstruct cs = .error (.unterminated what, n)) (hwhat : what ≠ literalEnd) :
    n = 0 ∧ Unclosed cs what := by
  have lacking {cs : List Char} (hlacks : LacksEnd cs what n) : n = 0 ∧ Unclosed cs what := by
    obtain ⟨hn, rfl, missing, tag, hreads⟩ := hlacks
    exact ⟨hn, .parameters missing hreads⟩
  unfold scanConstruct at h
  split at h
  · cases h
  -- marks that reach up to a closing mark, which is not there
  · obtain ⟨rfl, rfl, hmark⟩ := unmarked_of_scanTo h
    exact ⟨rfl, .comment hmark⟩
  · obtain ⟨rfl, rfl, hmark⟩ := unmarked_of_scanTo h
    exact ⟨rfl, .verbatim hmark⟩
  -- tags, of which only the parameters may be missing
  · rename_i tail
    obtain ⟨hn, hw, missing, hbalanced⟩ := balanced_of_scanTag h hwhat
    apply lacking
    refine ⟨hn, hw, missing,
      .directive "output" (some (.ofList (tail ++ List.replicate missing ')'))), ?_⟩
    rw [List.cons_append, append_replicate_succ]
    exact .output hbalanced
  · exact lacking (lacksEnd_of_scanCall h hwhat)
  · split at h
    · rename_i hc
      exact lacking (lacksEnd_of_scanDirective hc h hwhat)
    · cases h
  · cases h

/-! ### Reading from the front -/

/-- `ReadsTo text tags front cs`: reading `text` from its start, construct by construct, gets as far
as `front`, with `cs` left, and `tags` are the tags that have been read. -/
inductive ReadsTo (text : List Char) : List Tag → List Char → List Char → Prop
  | start : ReadsTo text [] [] text
  | char {tags : List Tag} {front cs : List Char} {c : Char} : c ≠ '#' →
      ReadsTo text tags front (c :: cs) → ReadsTo text tags (front ++ [c]) cs
  | construct {tags : List Tag} {front body rest : List Char} {piece : Piece} :
      Construct (body ++ rest) piece rest → ReadsTo text tags front ('#' :: (body ++ rest)) →
      ReadsTo text (tags ++ piece.tags) (front ++ '#' :: body) rest

/-- What has been read and what is left make up the text. -/
theorem ReadsTo.eq_append {text front cs : List Char} {tags : List Tag}
    (h : ReadsTo text tags front cs) : text = front ++ cs := by
  induction h with
  | start => rfl
  | char _ _ ih => rw [ih, List.append_assoc, List.singleton_append]
  | construct _ _ ih => rw [ih, List.append_assoc, List.cons_append]

/-- Literal text is read at once. -/
theorem ReadsTo.literal {text front run cs : List Char} {tags : List Tag}
    (hrun : ∀ c ∈ run, c ≠ '#') (h : ReadsTo text tags front (run ++ cs)) :
    ReadsTo text tags (front ++ run) cs := by
  induction run generalizing front with
  | nil => simpa using h
  | cons c run ih =>
    have hnext := ih (fun d hd => hrun d (by simp [hd])) (.char (hrun c (by simp)) h)
    rwa [List.append_assoc] at hnext

/-- Reading begins with the first character. -/
theorem ReadsTo.head {c : Char} {cs front cs' : List Char} {tags : List Tag}
    (h : ReadsTo (c :: cs) tags front cs') :
    (tags = [] ∧ front = []) ∨
      (c ≠ '#' ∧ ∃ front₂, front = c :: front₂ ∧ ReadsTo cs tags front₂ cs') ∨
      (c = '#' ∧ ∃ body rest piece tags₂ front₂, cs = body ++ rest ∧
        Construct (body ++ rest) piece rest ∧ tags = piece.tags ++ tags₂ ∧
        front = '#' :: (body ++ front₂) ∧ ReadsTo rest tags₂ front₂ cs') := by
  -- by what was read last: before it, nothing was read, or a character, or a construct came first
  generalize htext : c :: cs = text at h
  induction h with
  | start => exact .inl ⟨rfl, rfl⟩
  | @char tags front cs' d hd h ih =>
    rcases ih with ⟨rfl, rfl⟩ | ⟨hc, front₂, rfl, hnext⟩ |
      ⟨hc, body, rest, piece, tags₂, front₂, hcs, hconstruct, rfl, rfl, hnext⟩
    · obtain ⟨rfl, rfl⟩ := List.cons.inj (htext.trans h.eq_append)
      exact .inr (.inl ⟨hd, [], rfl, .start⟩)
    · exact .inr (.inl ⟨hc, front₂ ++ [d], rfl, .char hd hnext⟩)
    · refine .inr (.inr ⟨hc, body, rest, piece, tags₂, front₂ ++ [d], hcs, hconstruct, rfl, ?_,
        .char hd hnext⟩)
      rw [List.cons_append, List.append_assoc]
  | @construct tags front body' rest' piece' hconstruct' h ih =>
    rcases ih with ⟨rfl, rfl⟩ | ⟨hc, front₂, rfl, hnext⟩ |
      ⟨hc, body, rest, piece, tags₂, front₂, hcs, hconstruct, rfl, rfl, hnext⟩
    · obtain ⟨rfl, rfl⟩ := List.cons.inj (htext.trans h.eq_append)
      refine .inr (.inr ⟨rfl, body', rest', piece', [], [], rfl, hconstruct', ?_, ?_, .start⟩)
      · rw [List.nil_append, List.append_nil]
      · rw [List.nil_append, List.append_nil]
    · exact .inr (.inl ⟨hc, front₂ ++ '#' :: body', rfl, .construct hconstruct' hnext⟩)
    · refine .inr (.inr ⟨hc, body, rest, piece, tags₂ ++ piece'.tags, front₂ ++ '#' :: body', hcs,
        hconstruct, ?_, ?_, .construct hconstruct' hnext⟩)
      · rw [List.append_assoc]
      · rw [List.cons_append, List.append_assoc]

/-- A reading that has read no tag has not come past the `#` of a tag. -/
theorem ReadsTo.not_past {cs cs' rest front : List Char} {tag : Tag}
    (h : ReadsTo ('#' :: cs) [] front cs') (ht : TagReads cs tag rest) : front = [] := by
  rcases h.head with ⟨-, hfront⟩ | ⟨hc, -⟩ |
    ⟨-, body, rest, piece, tags₂, front₂, rfl, hconstruct, htags, -⟩
  · exact hfront
  · exact absurd rfl hc
  · obtain ⟨rfl, -⟩ := hconstruct.unique (.tag ht)
    cases htags

/-- A tag is read at one place only: there is one `#` for the tags that come before it. -/
theorem ReadsTo.front_unique {text front front' cs cs' rest rest' : List Char} {tags : List Tag}
    {tag tag' : Tag} (h : ReadsTo text tags front ('#' :: cs)) (ht : TagReads cs tag rest)
    (h' : ReadsTo text tags front' ('#' :: cs')) (ht' : TagReads cs' tag' rest') :
    front = front' := by
  -- Both readings take the same steps from the start of the text.
  cases text with
  | nil => exact absurd h.eq_append (by simp)
  | cons c text =>
    rcases h.head with ⟨rfl, rfl⟩ | ⟨hc, front₂, rfl, hnext⟩ |
      ⟨rfl, body, rest₁, piece, tags₂, front₂, rfl, hconstruct, rfl, rfl, hnext⟩
    · obtain ⟨rfl, rfl⟩ := List.cons.inj h.eq_append
      exact (h'.not_past ht).symm
    · rcases h'.head with ⟨rfl, rfl⟩ | ⟨-, front₂', rfl, hnext'⟩ | ⟨rfl, -⟩
      · exact absurd (List.cons.inj h'.eq_append).1 hc
      · rw [hnext.front_unique ht hnext' ht']
      · exact absurd rfl hc
    · rcases h'.head with ⟨htags, rfl⟩ | ⟨hc, -⟩ |
        ⟨-, body', rest₁', piece', tags₂', front₂', hbody, hconstruct', htags, rfl, hnext'⟩
      · obtain ⟨-, rfl⟩ := List.cons.inj h'.eq_append
        rw [htags] at h
        exact h.not_past ht'
      · exact absurd rfl hc
      · rw [← hbody] at hconstruct'
        obtain ⟨rfl, rfl⟩ := hconstruct.unique hconstruct'
        obtain rfl := List.append_cancel_right hbody
        obtain rfl := List.append_cancel_left htags
        rw [hnext.front_unique ht hnext' ht']
termination_by text.length

/-- A position of a reading, with the row that has been counted so far. The invariant of cutting:
the row and the line feeds that were not counted make up the line feeds that were read. -/
structure Accounted (text : List Char) (tags : List Tag) (row : Nat) (front cs : List Char) :
    Prop where
  reads : ReadsTo text tags front cs
  rows : row + uncounted tags = 1 + lineFeeds front

variable {text front cs rest : List Char} {tags : List Tag} {row n : Nat} {c : Char} {piece : Piece}

/-- At the start of the text nothing has been read. -/
theorem accounted_start (text : List Char) : Accounted text [] 1 [] text := ⟨.start, rfl⟩

/-- One piece leads from one accounted position to the next. -/
theorem Accounted.step (h : Accounted text tags row front (c :: cs))
    (hs : scanPiece c cs = .ok (piece, rest, n)) :
    ∃ front', Accounted text (tags ++ piece.tags) (row + n) front' rest := by
  by_cases hc : c = '#'
  · subst hc
    rw [scanPiece, if_pos rfl] at hs
    -- a construct counts its line feeds up to those that are escaped in its tag
    have hconstruct := scanConstruct_eq_ok_iff.1 ⟨n, hs⟩
    obtain ⟨body, rfl⟩ : ∃ body, cs = body ++ rest := by
      obtain ⟨body, hbody, -⟩ := hconstruct.front
      exact ⟨body, hbody⟩
    have hcount := countsFeeds_scanConstruct _ piece rest n hs
    rw [lineFeeds_append] at hcount
    refine ⟨front ++ '#' :: body, .construct hconstruct h.reads, ?_⟩
    have hfeeds : lineFeeds (front ++ '#' :: body) = lineFeeds front + lineFeeds body := by
      rw [lineFeeds_append, lineFeeds_cons_of_ne (by decide)]
    rw [uncounted_append, hfeeds]
    have := h.rows
    omega
  · -- Literal text up to the next construct.
    obtain ⟨run, htext, rfl, rfl, hrun, -⟩ := exists_run_of_scanPiece hc hs
    have hreads := h.reads
    rw [htext] at hreads
    rw [Piece.tags, List.append_nil]
    refine ⟨_, hreads.literal hrun, ?_⟩
    rw [lineFeeds_append, Nat.add_right_comm, h.rows, Nat.add_assoc]

/-- Where cutting finds a tag, the position is accounted and the tag is spelled there. -/
theorem Accounted.tag_of_cut {pieces : List PlacedPiece} (h : Accounted text tags row front cs)
    (hcut : cutFrom row cs = .ok pieces) {before after : List PlacedPiece} {t : Tag} {r : Nat}
    (hpieces : pieces = before ++ ⟨.tag t, r⟩ :: after) :
    ∃ front' cs' rest, Accounted text (tags ++ before.flatMap (·.piece.tags)) r front' ('#' :: cs') ∧
      TagReads cs' t rest := by
  -- Along the pieces, as far as the tag: each one leads to the next position.
  induction before generalizing tags row front cs pieces with
  | nil =>
    subst hpieces
    cases cs with
    | nil => simp [cutFrom] at hcut
    | cons c cs =>
      obtain ⟨piece, rest, n, tail, hs, -, hhead⟩ := cutFrom_cons_eq_ok_iff.1 hcut
      obtain ⟨hplace, -⟩ := List.cons.inj hhead
      obtain ⟨rfl, rfl⟩ := PlacedPiece.mk.inj hplace
      by_cases hc : c = '#'
      · subst hc
        rw [scanPiece, if_pos rfl] at hs
        rw [List.flatMap_nil, List.append_nil]
        cases scanConstruct_eq_ok_iff.1 ⟨n, hs⟩ with
        | tag hreads => exact ⟨front, cs, rest, h, hreads⟩
      · rw [scanPiece_of_ne hc] at hs
        cases hs
  | cons p before ih =>
    subst hpieces
    cases cs with
    | nil => simp [cutFrom] at hcut
    | cons c cs =>
      obtain ⟨piece, rest, n, tail, hs, hr, hhead⟩ := cutFrom_cons_eq_ok_iff.1 hcut
      obtain ⟨rfl, rfl⟩ := List.cons.inj hhead
      obtain ⟨front₁, hnext⟩ := h.step hs
      obtain ⟨front', cs', rest', hat, hreads⟩ := ih hnext hr rfl
      rw [List.append_assoc] at hat
      exact ⟨front', cs', rest', hat, hreads⟩

/-- Where cutting fails, the position is accounted and the scanner of constructs fails there. -/
theorem Accounted.fault_of_cut {fault : ParseFault} {r : Nat}
    (h : Accounted text tags row front cs) (hcut : cutFrom row cs = .error (fault, r)) :
    ∃ tags' row' front' cs' n, Accounted text tags' row' front' ('#' :: cs') ∧
      scanConstruct cs' = .error (fault, n) ∧ r = row' + n := by
  fun_induction cutFrom row cs generalizing tags front fault r with
  | case1 => cases hcut
  | case2 row c cs fault' rows hs =>
    simp only [Except.error.injEq, Prod.mk.injEq] at hcut
    obtain ⟨rfl, rfl⟩ := hcut
    by_cases hc : c = '#'
    · subst hc
      rw [scanPiece, if_pos rfl] at hs
      exact ⟨tags, row, front, cs, rows, h, hs, rfl⟩
    · rw [scanPiece_of_ne hc] at hs
      cases hs
  -- the fault is behind the first piece
  | case3 row c cs piece rest rows hs fault' hr ih =>
    obtain ⟨front', hnext⟩ := h.step hs
    obtain rfl := Except.error.inj hcut
    exact ih hnext hr
  -- cutting has not failed
  | case4 => cases hcut

/-! ### Laying out keeps the rows of tags -/

/-- The tag and the row of an item. -/
def Item.placed? : Item → Option (Tag × Nat)
  | .text .. => none
  | .tag t row => some (t, row)

/-- The tag and the row of a piece. -/
def PlacedPiece.placed? (p : PlacedPiece) : Option (Tag × Nat) :=
  match p.piece with
  | .tag t => some (t, p.row)
  | .text _ | .lineComment | .blockComment | .verbatim _ => none

/-- A piece with a placed tag is this tag. -/
theorem PlacedPiece.eq_of_placed? {p : PlacedPiece} {tag : Tag} {row : Nat}
    (h : p.placed? = some (tag, row)) : p = ⟨.tag tag, row⟩ := by
  obtain ⟨piece, row'⟩ := p
  cases piece with
  | tag t =>
    obtain ⟨rfl, rfl⟩ := Prod.mk.inj (Option.some.inj h)
    rfl
  | text | lineComment | blockComment | verbatim => cases h

/-- The tags of items, with their rows. -/
def placed (items : List Item) : List (Tag × Nat) := items.filterMap Item.placed?

/-- Deleting the start of a line deletes no tag. -/
theorem placed_dropOpenLine (done : List Item) : placed (dropOpenLine done) = placed done := by
  induction done with
  | nil => rfl
  | cons item done ih =>
    cases item with
    | text chars row =>
      rw [dropOpenLine]
      split
      · rfl
      · exact ih
    | tag t row =>
      change (t, row) :: placed (dropOpenLine done) = (t, row) :: placed done
      rw [ih]

namespace Layer

variable (l : Layer)

theorem placed_flush : placed l.flush.done = placed l.done := by
  rw [flush]
  split <;> rfl

/-- The start of a line has no tags to delete. -/
theorem placed_deleteLineStart : placed l.deleteLineStart.done = placed l.done := by
  rw [deleteLineStart]
  split
  · rfl
  · exact placed_dropOpenLine l.done

/-- Trimming a line deletes no tag. -/
theorem placed_trimLine (blank : Bool) : placed (l.trimLine blank).done = placed l.done := by
  rw [trimLine]
  split
  · exact l.placed_deleteLineStart
  · rfl

/-- A piece adds its tag in its row, if it is one. The items stand last one first here. -/
theorem placed_add (keep : List String) (p : PlacedPiece) (blank : Bool) :
    placed (l.add keep p blank).done = p.placed?.toList ++ placed l.done := by
  obtain ⟨piece, row⟩ := p
  cases piece with
  -- a text, a comment and a verbatim block add no tag, whatever they do to the line
  | text chars =>
    rw [add]
    simp only
    split <;> rfl
  | lineComment | blockComment => exact l.placed_trimLine blank
  | verbatim chars =>
    change placed (l.pushVerbatim chars row blank).done = placed l.done
    rw [pushVerbatim]
    split
    · exact l.placed_deleteLineStart
    · rfl
  | tag t =>
    change placed (l.pushTag keep t row blank).done = (t, row) :: placed l.done
    rw [← l.placed_flush, pushTag]
    simp only
    split
    · rfl
    · rw [placed_trimLine]
      rfl

/-- Pieces add their tags, the last one first. -/
theorem placed_addAll (keep : List String) (pieces : List PlacedPiece) :
    placed (l.addAll keep pieces).done =
      (pieces.filterMap PlacedPiece.placed?).reverse ++ placed l.done := by
  induction pieces generalizing l with
  | nil => rfl
  | cons p pieces ih =>
    rw [addAll, ih, placed_add]
    cases hp : p.placed? with
    | none => simp [hp]
    | some place => simp [hp]

end Layer

/-- The tags of a template stand in the rows in which they have been cut. -/
theorem placed_itemsOf {keep : List String} {items : List Item}
    (h : itemsOf keep text = .ok items) :
    ∃ pieces, cutFrom 1 text = .ok pieces ∧ placed items = pieces.filterMap PlacedPiece.placed? := by
  rw [itemsOf, cutTemplate] at h
  -- a text that cannot be cut has no items
  cases hp : cutFrom 1 text with
  | error fault =>
    rw [hp] at h
    cases h
  | ok pieces =>
    rw [hp] at h
    obtain rfl := Except.ok.inj h
    refine ⟨pieces, rfl, ?_⟩
    calc placed (Layer.addAll keep {} pieces).items
        = (placed (Layer.addAll keep {} pieces).flush.done).reverse := List.filterMap_reverse
      _ = (placed (Layer.addAll keep {} pieces).done).reverse := by rw [Layer.placed_flush]
      _ = pieces.filterMap PlacedPiece.placed? := by
          rw [Layer.placed_addAll]
          exact (congrArg List.reverse (List.append_nil _)).trans (List.reverse_reverse _)

/-- The tags of pieces are those that are placed. -/
theorem map_fst_placed? (pieces : List PlacedPiece) :
    (pieces.filterMap PlacedPiece.placed?).map Prod.fst = pieces.flatMap (·.piece.tags) := by
  induction pieces with
  | nil => rfl
  | cons p pieces ih =>
    obtain ⟨piece, row⟩ := p
    cases piece with
    | tag t =>
      change t :: (pieces.filterMap PlacedPiece.placed?).map Prod.fst =
        t :: pieces.flatMap (·.piece.tags)
      rw [ih]
    | text | lineComment | blockComment | verbatim => exact ih

/-! ### Rows -/

/-- The tags among items, in order. -/
def tagsAmong (items : List Item) : List Tag := (placed items).map Prod.fst

/-- A tag stands behind a `#`, whose row it has up to the escaped line feeds before. -/
theorem row_of_tag {keep : List String} {items before after : List Item} {tag : Tag}
    (hitems : itemsOf keep text = .ok items) (hsplit : items = before ++ .tag tag row :: after) :
    ∃ front cs rest, ReadsTo text (tagsAmong before) front ('#' :: cs) ∧ TagReads cs tag rest ∧
      row + uncounted (tagsAmong before) = 1 + lineFeeds front := by
  obtain ⟨pieces, hcut, hplaced⟩ := placed_itemsOf hitems
  -- The tag has been cut as a piece, with the same tags in front of it.
  have hmiddle : placed items = placed before ++ (tag, row) :: placed after := by
    rw [hsplit, placed, List.filterMap_append]
    rfl
  rw [hmiddle] at hplaced
  obtain ⟨front, back, rfl, hfront, hback⟩ := List.filterMap_eq_append_iff.1 hplaced.symm
  obtain ⟨blank, p, rest, rfl, hblank, hp, -⟩ := List.filterMap_eq_cons_iff.1 hback
  have hpiece : p = ⟨.tag tag, row⟩ := PlacedPiece.eq_of_placed? hp
  have htags : tagsAmong before = (front ++ blank).flatMap (·.piece.tags) := by
    rw [tagsAmong, ← hfront, ← map_fst_placed?, List.filterMap_append,
      List.filterMap_eq_nil_iff.2 hblank, List.append_nil]
  have hpieces : front ++ (blank ++ p :: rest) = front ++ blank ++ ⟨.tag tag, row⟩ :: rest := by
    rw [hpiece, List.append_assoc]
  obtain ⟨front', cs, rest, hat, hreads⟩ := (accounted_start text).tag_of_cut hcut hpieces
  rw [List.nil_append, ← htags] at hat
  exact ⟨front', cs, rest, hat.reads, hreads, hat.rows⟩

/-- What is not closed stands behind a `#`, whose row the fault has up to the escaped line feeds
before. -/
theorem row_of_fault {keep : List String} {what : String}
    (hfault : itemsOf keep text = .error (.unterminated what, row)) (hwhat : what ≠ literalEnd) :
    ∃ tags front cs, ReadsTo text tags front ('#' :: cs) ∧ Unclosed cs what ∧
      row + uncounted tags = 1 + lineFeeds front := by
  rw [itemsOf, cutTemplate] at hfault
  cases hp : cutFrom 1 text with
  | ok pieces =>
    rw [hp] at hfault
    cases hfault
  | error fault =>
    rw [hp] at hfault
    obtain rfl := Except.error.inj hfault
    obtain ⟨tags, row', front, cs, n, hat, hscan, rfl⟩ := (accounted_start text).fault_of_cut hp
    obtain ⟨rfl, hopen⟩ := unclosed_of_scanConstruct hscan hwhat
    exact ⟨tags, front, cs, hat.reads, hopen, hat.rows⟩

/-- **Rows of tags and of faults.** Every tag of a template is spelled behind a `#`, and its row
falls short of the row of this `#` by the escaped line feeds of the tags that come before it. The
same holds for the fault of a template with parameters (with no string literal left open), a comment
or a verbatim block that is not closed, and the `#` that opens them. So these rows are right
if and only if the tags before have no line feed behind a backslash in a string literal. -/
theorem rows_itemsOf (keep : List String) (text : List Char) :
    (∀ items before after tag row, itemsOf keep text = .ok items →
      items = before ++ .tag tag row :: after →
      ∃ front cs rest, ReadsTo text (tagsAmong before) front ('#' :: cs) ∧ TagReads cs tag rest ∧
        row + uncounted (tagsAmong before) = 1 + lineFeeds front) ∧
    ∀ what row, itemsOf keep text = .error (.unterminated what, row) → what ≠ literalEnd →
      ∃ tags front cs, ReadsTo text tags front ('#' :: cs) ∧ Unclosed cs what ∧
        row + uncounted tags = 1 + lineFeeds front := by
  constructor
  · intro items before after tag row hitems hsplit
    exact row_of_tag hitems hsplit
  · intro what row hfault hwhat
    exact row_of_fault hfault hwhat

/-- A tag and a fault behind a line feed that is escaped: the `#` of both stands in the second row,
and they are placed in the first one. -/
theorem rows_itemsOf_escaped :
    itemsOf [] "#('\\\n')#(b)".toList =
        .ok [.tag (.directive "output" (some "'\\\n'")) 1, .tag (.directive "output" (some "b")) 1] ∧
      (∃ front cs rest,
        ReadsTo "#('\\\n')#(b)".toList [.directive "output" (some "'\\\n'")] front ('#' :: cs) ∧
        TagReads cs (.directive "output" (some "b")) rest ∧ 1 + 1 = 1 + lineFeeds front) ∧
      itemsOf [] "#('\\\n')#(".toList = .error (.unterminated parametersEnd, 1) ∧
      ∃ tags front cs, ReadsTo "#('\\\n')#(".toList tags front ('#' :: cs) ∧
        Unclosed cs parametersEnd ∧ 1 + uncounted tags = 1 + lineFeeds front := by
  have hitems : itemsOf [] "#('\\\n')#(b)".toList =
      .ok [.tag (.directive "output" (some "'\\\n'")) 1,
        .tag (.directive "output" (some "b")) 1] := by
    cbv
  have hfault : itemsOf [] "#('\\\n')#(".toList = .error (.unterminated parametersEnd, 1) := by
    cbv
  refine ⟨hitems, ?_, hfault, ?_⟩
  · exact (rows_itemsOf [] _).1 _ [_] [] _ _ hitems rfl
  · exact (rows_itemsOf [] _).2 _ _ hfault (by decide)

/-- The rows are not right in general: behind an escaped line feed they are one too small. -/
theorem not_rows_itemsOf : ¬ ∀ (keep : List String) (text : List Char),
    (∀ items before after tag row, itemsOf keep text = .ok items →
      items = before ++ .tag tag row :: after →
      ∃ front cs rest, ReadsTo text (tagsAmong before) front ('#' :: cs) ∧ TagReads cs tag rest ∧
        row = 1 + lineFeeds front) ∧
    ∀ what row, itemsOf keep text = .error (.unterminated what, row) → what ≠ literalEnd →
      ∃ tags front cs, ReadsTo text tags front ('#' :: cs) ∧ Unclosed cs what ∧
        row = 1 + lineFeeds front := by
  intro hclaim
  have hfault : itemsOf [] "#('\\\n')#(".toList = .error (.unterminated parametersEnd, 1) := by
    cbv
  obtain ⟨tags, front, cs, hreads, hopen, hrow⟩ := (hclaim [] _).2 _ _ hfault (by decide)
  -- The first tag is closed, whatever follows it.
  have hclosed (more : List Char) : TagReads ("('\\\n')".toList ++ more)
      (.directive "output" (some (String.ofList "'\\\n'".toList))) more :=
    .output (.string (.inr rfl) (.escaped '\n' .nil) .nil)
  rcases hreads.head with ⟨-, rfl⟩ | ⟨hc, -⟩ |
    ⟨-, body, rest, piece, tags₂, front₂, hbody, hconstruct, -, rfl, -⟩
  · -- So what is not closed does not stand at the start of the text.
    obtain rfl : "('\\\n')#(".toList = cs := (List.cons.inj hreads.eq_append).2
    cases hopen with
    | parameters missing hmore =>
      obtain ⟨-, hrest⟩ :=
        (Construct.tag hmore).unique (.tag (hclosed ("#(".toList ++ List.replicate _ ')')))
      cases hrest
  · exact absurd rfl hc
  · -- And behind the first tag there is a line feed in front.
    rw [← hbody] at hconstruct
    obtain ⟨-, rfl⟩ := hconstruct.unique (.tag (hclosed "#(".toList))
    have hfront : "('\\\n')".toList ++ "#(".toList = body ++ "#(".toList := hbody
    obtain rfl : "('\\\n')".toList = body := List.append_cancel_right hfront
    have hfeed : lineFeeds ('#' :: ("('\\\n')".toList ++ front₂)) = 1 + lineFeeds front₂ := by
      rw [← List.cons_append, lineFeeds_append]
      rfl
    rw [hfeed] at hrow
    omega

end Stencil
