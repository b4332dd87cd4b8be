import Mathlib.Data.List.Basic
import Stencil.Proofs.Expr.Running

/-!
# The grammar of expressions

The grammar that the parsers of expressions follow, written down without a parser: `Spells file
phrase tokens` says that the tokens spell a phrase, which is an expression at some level of
precedence or a part of one. Locations are those of the tokens, so the spelled expression is the
parsed one to the last detail.

* `Level` lists the levels of precedence, and `Level.rank` orders them. An expression of one level
  stands wherever a looser level may stand (`Spells.loosen`), and in parentheses it stands
  anywhere (`Spells.group`).
* `Lexeme.grip` is the level at which a token holds on to an operand in front of it. The tokens of
  an operand end where a token follows that does not grip the operand at its own level.

The parsers of binary operators, of `??` and of chains read their left operand first and then loop,
so that what they have read of a phrase becomes the accumulator of the loop (`Level.loop`). What
may follow an operand is therefore said twice for each level: for coming to the loop
(`Level.limit`) and for ending there (`Level.rank`).

Main statements: `Spells.begins` (how phrases begin) and `Spells.primary_begins`.
-/

namespace Stencil

/-! ### Levels of precedence -/

/-- The levels of precedence, from the loosest to the tightest. -/
inductive Level where
  | assignment
  | ternary
  /-- The level of a binary operator; behind the last one, the operands of them all. -/
  | binary (level : Nat)
  | coalesce
  | unary
  | postfixed
  | member
  | primary
deriving DecidableEq, Repr

namespace Level

/-- The place of a level; a higher one binds tighter. -/
def rank : Level → Nat
  | assignment => 0
  | ternary => 1
  | binary level => 2 + min level Parse.levels
  | coalesce => 9
  | unary => 10
  | postfixed => 11
  | member => 12
  | primary => 13

/-- The next tighter level. -/
def tighter : Level → Level
  | assignment => ternary
  | ternary => binary 0
  | binary level => if level < Parse.levels then binary (level + 1) else coalesce
  | coalesce => unary
  | unary => postfixed
  | postfixed => member
  | member => primary
  | primary => primary

/-- The parser of a level. -/
def parser : Level → Nat → Parse Expr
  | assignment, n => Parse.expr n
  | ternary, n => Parse.ternary n
  | binary level, n => Parse.binary n level
  | coalesce, n => Parse.coalesce n
  | unary, n => Parse.unary n
  | postfixed, n => Parse.postfixed n
  | member, n => Parse.member n
  | primary, n => Parse.primary n

/-- What the parser of a level does behind its first operand. -/
def loop : Level → Nat → Expr → Parse Expr
  | binary level, n, e => Parse.binaryRest n level e
  | coalesce, n, e => Parse.coalesceRest n e
  | member, n, e => Parse.chain n e
  | _, _, e => pure e

/-- The rank up to which a token that follows an operand may not grip it, for the parser of the
level to come to its loop. -/
def limit : Level → Nat
  | assignment => 0
  | ternary => 1
  | binary level => 2 + min (level + 1) Parse.levels
  | coalesce => 10
  | unary => 10
  | postfixed => 11
  | member => 13
  | primary => 14

/-- How many functions the parser of a level calls before one takes a token. -/
def cost : Level → Nat
  | assignment => 14
  | ternary => 13
  | binary level => 12 - min level Parse.levels
  | coalesce => 5
  | unary => 4
  | postfixed => 3
  | member => 2
  | primary => 1

end Level

theorem Parse.BinaryOp.level_lt (op : Parse.BinaryOp) : op.level < Parse.levels := by
  rcases op with _ | _ | (_ | _ | _ | _ | _ | _) | (_ | _ | _ | _ | _) <;> decide

/-- The rank of the level at which a token takes an operand in front of it for its own. Closing
marks and separators take none. -/
def Lexeme.grip : Lexeme → Option Nat
  | .punct mark =>
    match mark with
    | .rparen | .rbracket | .rbrace | .comma | .semicolon | .colon | .range => none
    | .assign | .question => some 1
    | .coalesce => some 9
    | .increment | .decrement => some 11
    | .dot | .lbracket => some 12
    | mark =>
      match Parse.BinaryOp.ofPunct? mark with
      | some op => some (2 + op.level)
      | none => some 13
  | _ => some 13

/-! ### Phrases -/

/-- What tokens can spell. -/
inductive Phrase where
  | expr (level : Level) (e : Expr)
  /-- Expressions with a comma in front of each. -/
  | items (es : List Expr)
  /-- The arguments of a call, with their parentheses. -/
  | arguments (es : List Expr)
  /-- The entries of a map that is not empty. -/
  | entries (keys : List String) (values : List Expr)

/-- The tokens of a namespace, words with dots between them, and the row of the first one. -/
inductive SpellsNamespace : String → Nat → List Token → Prop
  | word (word : String) (r : Nat) : SpellsNamespace word r [⟨.name word, r⟩]
  | dot {space : String} {r'' : Nat} {ts : List Token} (word : String) (r r' : Nat) :
      SpellsNamespace space r'' ts →
      SpellsNamespace (word ++ "." ++ space) r (⟨.name word, r⟩ :: ⟨.punct .dot, r'⟩ :: ts)

/-- **The grammar of expressions** in the directives of a file. -/
inductive Spells (file : Option String) : Phrase → List Token → Prop
  | loosen {level : Level} {e : Expr} {ts : List Token} :
      Spells file (.expr level.tighter e) ts → Spells file (.expr level e) ts
  -- Primary expressions.
  | number (spelling : String) (v : Value) (r : Nat) :
      Spells file (.expr .primary (.const v)) [⟨.number spelling v, r⟩]
  | text (content : String) (r : Nat) :
      Spells file (.expr .primary (.const (.str content))) [⟨.text content, r⟩]
  | keyword (k : Keyword) (r : Nat) :
      Spells file (.expr .primary (.const k.value)) [⟨.keyword k, r⟩]
  | var (x : String) (r : Nat) : Spells file (.expr .primary (.var x)) [⟨.name x, r⟩]
  | group {e : Expr} {ts : List Token} (r r' : Nat) :
      Spells file (.expr .assignment e) ts →
      Spells file (.expr .primary e) (⟨.punct .lparen, r⟩ :: (ts ++ [⟨.punct .rparen, r'⟩]))
  | emptyMap (r r' : Nat) :
      Spells file (.expr .primary (.map [] [])) [⟨.punct .lbrace, r⟩, ⟨.punct .rbrace, r'⟩]
  | map {keys : List String} {values : List Expr} {ts : List Token} (r r' : Nat) :
      Spells file (.entries keys values) ts →
      Spells file (.expr .primary (.map keys values))
        (⟨.punct .lbrace, r⟩ :: (ts ++ [⟨.punct .rbrace, r'⟩]))
  | emptyList (r r' : Nat) :
      Spells file (.expr .primary (.list [])) [⟨.punct .lbracket, r⟩, ⟨.punct .rbracket, r'⟩]
  | list {first : Expr} {rest : List Expr} {ts us : List Token} (r r' : Nat) :
      Spells file (.expr .assignment first) ts → Spells file (.items rest) us →
      Spells file (.expr .primary (.list (first :: rest)))
        (⟨.punct .lbracket, r⟩ :: (ts ++ us ++ [⟨.punct .rbracket, r'⟩]))
  | range {first last : Expr} {ts us : List Token} (r r' r'' : Nat) :
      Spells file (.expr .assignment first) ts → Spells file (.expr .assignment last) us →
      Spells file (.expr .primary (.range first last ⟨file, r⟩))
        (⟨.punct .lbracket, r⟩ :: (ts ++ ⟨.punct .range, r'⟩ :: (us ++ [⟨.punct .rbracket, r''⟩])))
  -- Members, calls and chains.
  | staticField {space : String} {r : Nat} {ts : List Token} (x : String) (r' r'' : Nat) :
      SpellsNamespace space r ts →
      Spells file (.expr .member (.staticField space x ⟨file, r⟩))
        (ts ++ [⟨.punct .doubleColon, r'⟩, ⟨.name x, r''⟩])
  | staticCall {space : String} {r : Nat} {ts us : List Token} {args : List Expr} (x : String)
      (r' r'' : Nat) :
      SpellsNamespace space r ts → Spells file (.arguments args) us →
      Spells file (.expr .member (.staticCall space x args ⟨file, r⟩))
        (ts ++ ⟨.punct .doubleColon, r'⟩ :: ⟨.name x, r''⟩ :: us)
  | call {ts : List Token} {args : List Expr} (x : String) (r : Nat) :
      Spells file (.arguments args) ts →
      Spells file (.expr .member (.call x args ⟨file, r⟩)) (⟨.name x, r⟩ :: ts)
  | index {target key : Expr} {ts us : List Token} (r r' : Nat) :
      Spells file (.expr .member target) ts → Spells file (.expr .assignment key) us →
      Spells file (.expr .member (.index target key ⟨file, r⟩))
        (ts ++ ⟨.punct .lbracket, r⟩ :: (us ++ [⟨.punct .rbracket, r'⟩]))
  | field {target : Expr} {ts : List Token} (x : String) (r r' : Nat) :
      Spells file (.expr .member target) ts →
      Spells file (.expr .member (.field target x ⟨file, r⟩))
        (ts ++ [⟨.punct .dot, r⟩, ⟨.name x, r'⟩])
  | method {target : Expr} {ts us : List Token} {args : List Expr} (x : String) (r r' : Nat) :
      Spells file (.expr .member target) ts → Spells file (.arguments args) us →
      Spells file (.expr .member (.method target x args ⟨file, r⟩))
        (ts ++ ⟨.punct .dot, r⟩ :: ⟨.name x, r'⟩ :: us)
  -- Operators.
  -- The variable may stand in parentheses, and then the location is that of the first one.
  | stepAfter {lexeme : Lexeme} {step : Step} {x : String} {t : Token} {ts : List Token} (r : Nat) :
      Parse.step? lexeme = some step → Spells file (.expr .member (.var x)) (t :: ts) →
      Spells file (.expr .postfixed (.step step false x ⟨file, t.row⟩))
        (t :: (ts ++ [⟨lexeme, r⟩]))
  | stepBefore {lexeme : Lexeme} {step : Step} (x : String) (r r' : Nat) :
      Parse.step? lexeme = some step →
      Spells file (.expr .unary (.step step true x ⟨file, r⟩)) [⟨lexeme, r⟩, ⟨.name x, r'⟩]
  | not {e : Expr} {ts : List Token} (r : Nat) :
      Spells file (.expr .unary e) ts →
      Spells file (.expr .unary (.not e)) (⟨.punct .not, r⟩ :: ts)
  | sign {lexeme : Lexeme} {sign : Sign} {e : Expr} {ts : List Token} (r : Nat) :
      Parse.sign? lexeme = some sign → Spells file (.expr .unary e) ts →
      Spells file (.expr .unary (.ofSign sign e ⟨file, r⟩)) (⟨lexeme, r⟩ :: ts)
  | quiet {e : Expr} {ts : List Token} (r : Nat) :
      Spells file (.expr .coalesce e) ts →
      Spells file (.expr .coalesce (.quiet e)) (ts ++ [⟨.punct .coalesce, r⟩])
  | coalesce {e fallback : Expr} {ts us : List Token} (r : Nat) :
      Spells file (.expr .coalesce e) ts → Spells file (.expr .unary fallback) us →
      (∀ t ∈ us.head?, t.lexeme.startsOperand = true) →
      Spells file (.expr .coalesce (.coalesce e fallback)) (ts ++ ⟨.punct .coalesce, r⟩ :: us)
  | binary {op : Parse.BinaryOp} {mark : Punct} {left right : Expr} {ts us : List Token} (r : Nat) :
      Parse.BinaryOp.ofPunct? mark = some op →
      Spells file (.expr (.binary op.level) left) ts →
      Spells file (.expr (.binary (op.level + 1)) right) us →
      Spells file (.expr (.binary op.level) (op.build left right ⟨file, r⟩))
        (ts ++ ⟨.punct mark, r⟩ :: us)
  | ternary {test yes no : Expr} {ts us vs : List Token} (r r' : Nat) :
      Spells file (.expr (.binary 0) test) ts → Spells file (.expr .assignment yes) us →
      Spells file (.expr .assignment no) vs →
      Spells file (.expr .ternary (.ternary test yes no))
        (ts ++ ⟨.punct .question, r⟩ :: (us ++ ⟨.punct .colon, r'⟩ :: vs))
  | assign {value : Expr} {ts : List Token} (x : String) (r r' : Nat) :
      Spells file (.expr .assignment value) ts →
      Spells file (.expr .assignment (.assign x value ⟨file, r⟩))
        (⟨.name x, r⟩ :: ⟨.punct .assign, r'⟩ :: ts)
  | assignAt {key value : Expr} {ts us : List Token} (x : String) (r r₁ r₂ r₃ : Nat) :
      Spells file (.expr .assignment key) ts → Spells file (.expr .assignment value) us →
      Spells file (.expr .assignment (.assignAt x key value ⟨file, r⟩))
        (⟨.name x, r⟩ :: ⟨.punct .lbracket, r₁⟩ ::
          (ts ++ ⟨.punct .rbracket, r₂⟩ :: ⟨.punct .assign, r₃⟩ :: us))
  -- Parts of expressions.
  | noItems : Spells file (.items []) []
  | moreItems {e : Expr} {es : List Expr} {ts us : List Token} (r : Nat) :
      Spells file (.expr .assignment e) ts → Spells file (.items es) us →
      Spells file (.items (e :: es)) (⟨.punct .comma, r⟩ :: (ts ++ us))
  | noArguments (r r' : Nat) :
      Spells file (.arguments []) [⟨.punct .lparen, r⟩, ⟨.punct .rparen, r'⟩]
  | arguments {e : Expr} {es : List Expr} {ts us : List Token} (r r' : Nat) :
      Spells file (.expr .assignment e) ts → Spells file (.items es) us →
      Spells file (.arguments (e :: es))
        (⟨.punct .lparen, r⟩ :: (ts ++ us ++ [⟨.punct .rparen, r'⟩]))
  | entry {lexeme : Lexeme} {key : String} {value : Expr} {ts : List Token} (r r' : Nat) :
      Parse.mapKey? lexeme = some key → Spells file (.expr .assignment value) ts →
      Spells file (.entries [key] [value]) (⟨lexeme, r⟩ :: ⟨.punct .colon, r'⟩ :: ts)
  | moreEntries {lexeme : Lexeme} {key : String} {keys : List String} {value : Expr}
      {values : List Expr} {ts us : List Token} (r r' r'' : Nat) :
      Parse.mapKey? lexeme = some key → Spells file (.expr .assignment value) ts →
      Spells file (.entries keys values) us →
      Spells file (.entries (key :: keys) (value :: values))
        (⟨lexeme, r⟩ :: ⟨.punct .colon, r'⟩ :: (ts ++ ⟨.punct .comma, r''⟩ :: us))

/-! ### What may follow -/

/-- What follows an operand: no token with a grip on it of this rank or a higher one. -/
def Follows (rank : Nat) (rest : List Token) : Prop :=
  ∀ lexeme ∈ Parse.nextLexeme rest, ∀ grip ∈ lexeme.grip, grip < rank

/-- What may follow one operand may follow a looser one. -/
theorem Follows.mono {rank rank' : Nat} {rest : List Token} (h : Follows rank rest)
    (hr : rank ≤ rank') : Follows rank' rest :=
  fun lexeme hl grip hg => Nat.lt_of_lt_of_le (h lexeme hl grip hg) hr

/-- No token with a grip on the operand follows it. -/
theorem Follows.ne {rank grip : Nat} {rest : List Token} (h : Follows rank rest)
    (lexeme : Lexeme) (hg : lexeme.grip = some grip) (hr : rank ≤ grip) :
    Parse.nextLexeme rest ≠ some lexeme := by
  intro heq
  have := h lexeme heq grip hg
  omega

/-- What may follow a ternary operator may follow an assignment. -/
theorem Follows.zero {rest : List Token} (h : Follows 1 rest) : Follows 0 rest := by
  intro lexeme hl grip hg
  have hgrip := h lexeme hl grip hg
  cases lexeme with
  | punct mark => cases mark <;> simp [Lexeme.grip, Parse.BinaryOp.ofPunct?] at hg <;> omega
  | _ => simp [Lexeme.grip] at hg; omega

/-- The end of the tokens may follow every operand. -/
theorem follows_nil (rank : Nat) : Follows rank [] := nofun

/-- A mark without a grip may follow. -/
theorem follows_cons {rank r : Nat} {mark : Punct} {ts : List Token}
    (h : ∀ grip ∈ (Lexeme.punct mark).grip, grip < rank) :
    Follows rank (⟨.punct mark, r⟩ :: ts) := by
  intro lexeme hl grip hg
  obtain rfl : Lexeme.punct mark = lexeme := by simpa using hl
  exact h grip hg

/-- What follows a name that begins no namespace. -/
def EndsName (rest : List Token) : Prop :=
  ∀ x r, Parse.namespace? (⟨.name x, r⟩ :: rest) = none

/-- A name ends where no accesses follow. -/
theorem endsName_of_follows {rest : List Token} (h : Follows 12 rest) : EndsName rest := by
  intro x r
  have hdot := h.ne (.punct .dot) rfl (by decide)
  have hcolon := h.ne (.punct .doubleColon) rfl (by decide)
  -- what follows is neither a point nor a double colon, which is all that could go on with the name
  rcases rest with _ | ⟨⟨lexeme, r'⟩, rest⟩
  · rfl
  · rw [Parse.namespace?]
    · intro _ _ _ _ heq
      obtain ⟨-, ⟨rfl, -⟩, -⟩ := by simpa using heq
      exact hcolon rfl
    · intro _ _ _ _ heq
      obtain ⟨-, ⟨rfl, -⟩, -⟩ := by simpa using heq
      exact hdot rfl

/-! ### How phrases begin -/

/-- Whether a token is an operator in front of its operand. -/
def Lexeme.isUnaryOp (lexeme : Lexeme) : Bool :=
  (Parse.sign? lexeme).isSome || (Parse.step? lexeme).isSome ||
    match lexeme with
    | .punct .not => true
    | _ => false

/-- What the first token of a phrase may be: one that can begin an operand, or a sign. -/
def Phrase.Begins : Phrase → List Token → Prop
  | .expr level _, ts => ∃ t tail, ts = t :: tail ∧
      (t.lexeme.startsOperand = true ∨ (Parse.sign? t.lexeme).isSome = true) ∧
      (10 < level.rank → t.lexeme.isUnaryOp = false)
  | .entries _ _, ts => ∃ t tail, ts = t :: tail ∧ (Parse.mapKey? t.lexeme).isSome = true
  | .items _, _ | .arguments _, _ => True

/-- What an operand begins with begins everything that starts with the operand. -/
theorem Phrase.Begins.append {level level' : Level} {e e' : Expr} {ts : List Token}
    (h : Phrase.Begins (.expr level e) ts) (hl : level'.rank ≤ level.rank) (us : List Token) :
    Phrase.Begins (.expr level' e') (ts ++ us) := by
  obtain ⟨t, tail, rfl, hstart, hunary⟩ := h
  exact ⟨t, tail ++ us, rfl, hstart, fun hr => hunary (Nat.lt_of_lt_of_le hr hl)⟩

/-- The next tighter level binds no looser. -/
theorem Level.rank_le_tighter (level : Level) : level.rank ≤ level.tighter.rank := by
  cases level with
  | binary level =>
    rw [tighter]
    split <;> simp only [rank, Parse.levels] at * <;> omega
  | _ => decide

/-- A namespace begins with a name. -/
theorem SpellsNamespace.begins {space : String} {r : Nat} {ts : List Token}
    (h : SpellsNamespace space r ts) : ∃ x tail, ts = ⟨.name x, r⟩ :: tail := by
  cases h with
  | word => exact ⟨_, _, rfl⟩
  | dot => exact ⟨_, _, rfl⟩

/-- Every phrase begins as it should. -/
theorem Spells.begins {file : Option String} {phrase : Phrase} {ts : List Token}
    (h : Spells file phrase ts) : phrase.Begins ts := by
  -- by induction on the phrase: what starts with a phrase begins as this phrase does
  induction h with
  | @loosen level e ts _ ih =>
    rw [← List.append_nil ts]
    exact ih.append level.rank_le_tighter []
  | staticField _ _ _ hs | staticCall _ _ _ hs =>
    obtain ⟨x, tail, rfl⟩ := hs.begins
    exact ⟨_, _, rfl, .inl rfl, fun _ => rfl⟩
  | index _ _ _ _ ih | field _ _ _ _ ih | method _ _ _ _ _ ih | quiet _ _ ih
  | coalesce _ _ _ _ ih => exact ih.append (Nat.le_refl _) _
  | binary _ _ _ _ ih => exact ih.append (Nat.le_refl _) _
  | ternary _ _ _ _ _ ih | stepAfter _ _ _ ih => exact ih.append (by decide) _
  | @stepBefore lexeme step x r r' h =>
    refine ⟨_, _, rfl, .inl ?_, fun hr => absurd hr (by decide)⟩
    -- only a mark is a step, and every step may begin an operand
    cases lexeme with
    | punct mark => cases mark <;> simp_all [Parse.step?, Lexeme.startsOperand]
    | _ => simp [Parse.step?] at h
  | sign r h => exact ⟨_, _, rfl, .inr (by simp [h]), fun hr => absurd hr (by decide)⟩
  | not => exact ⟨_, _, rfl, .inl rfl, fun hr => absurd hr (by decide)⟩
  | noItems | moreItems | noArguments | arguments => trivial
  | entry r r' h | moreEntries r r' r'' h => exact ⟨_, _, rfl, by simp [h]⟩
  | _ => exact ⟨_, _, rfl, .inl rfl, fun _ => rfl⟩

/-- A primary expression that begins with a name is a variable. -/
theorem Spells.primary_begins {file : Option String} {e : Expr} {ts : List Token}
    (h : Spells file (.expr .primary e) ts) :
    (∃ x r, ts = [⟨.name x, r⟩] ∧ e = .var x) ∨
      ∃ t tail, ts = t :: tail ∧ ∀ x, t.lexeme ≠ .name x := by
  generalize hp : Phrase.expr .primary e = phrase at h
  induction h with
  | @loosen level e' ts h ih =>
    cases hp
    exact ih rfl
  | var x r =>
    cases hp
    exact .inl ⟨x, r, rfl, rfl⟩
  | number | text | keyword | group | emptyMap | map | emptyList | list | range =>
    exact .inr ⟨_, _, rfl, by simp⟩
  | _ => simp at hp

end Stencil
