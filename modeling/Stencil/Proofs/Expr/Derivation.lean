import Stencil.Proofs.Expr.Reading

/-!
# The grammar spells what the parsers of expressions read

The converse of reading: whenever a parser of expressions goes well, the tokens that it has taken
spell what it answers. So the grammar describes the parsers exactly, and facts about everything
that can be parsed are proved by induction on how it is spelled, without a look at the parsers.

* `Taken` says that the tokens of a phrase have been taken from the front of some tokens.
* `Derives` gathers what is said of each parser for an amount of fuel. A loop that runs behind an
  operand derives a longer operand of the same level, so its statement takes the tokens of the
  operand that it starts with.

No fuel is too little here: a parser that runs out of it fails, or ends its loop early.

Main statements: `derives` (the parsers take what the grammar spells), and `spells_of_parseExprs`
and `spells_of_parseLoopHead` for whole parameter texts.
-/

namespace Stencil

open Parse

variable {o : Origin} {n : Nat}

/-- The tokens of a phrase have been taken from the front of `ts`, and `rest` is left. -/
def Taken (file : Option String) (phrase : Phrase) (ts rest : List Token) : Prop :=
  ∃ us, ts = us ++ rest ∧ Spells file phrase us

/-- Tokens that spell expressions with commas between them. -/
def SpellsList (file : Option String) : List Expr → List Token → Prop
  | [], ts => ts = []
  | e :: es, ts => ∃ us vs, ts = us ++ vs ∧ Spells file (.expr .assignment e) us ∧
      Spells file (.items es) vs

/-- What the parsers do with `n` of fuel, when they go well. -/
structure Derives (o : Origin) (n : Nat) : Prop where
  operand : ∀ (level : Level) {ts e rest}, level.parser n o ts = .ok (e, rest) →
    Taken o.file (.expr level e) ts rest
  loop : ∀ (level : Level) {left ls ts e rest}, Spells o.file (.expr level left) ls →
    level.loop n left o ts = .ok (e, rest) →
      ∃ us, ts = us ++ rest ∧ Spells o.file (.expr level e) (ls ++ us)
  arguments : ∀ {ts args rest}, Parse.arguments n o ts = .ok (args, rest) →
    Taken o.file (.arguments args) ts rest
  exprs : ∀ {ts es rest}, Parse.exprs n o ts = .ok (es, rest) →
    es ≠ [] ∧ ∃ us, ts = us ++ rest ∧ SpellsList o.file es us
  exprsBefore : ∀ {closing ts es rest}, Parse.exprsBefore n closing o ts = .ok (es, rest) →
    ∃ us, ts = us ++ rest ∧ SpellsList o.file es us
  moreItems : ∀ {ts es rest}, Parse.moreItems n o ts = .ok (es, rest) →
    Taken o.file (.items es) ts rest
  entries : ∀ {ts keys values rest}, Parse.entries n o ts = .ok ((keys, values), rest) →
    Taken o.file (.entries keys values) ts rest

/-- What is taken at a tighter level is taken at the looser one. -/
theorem Taken.loosen {file : Option String} {level : Level} {e : Expr} {ts rest : List Token}
    (h : Taken file (.expr level.tighter e) ts rest) : Taken file (.expr level e) ts rest := by
  obtain ⟨us, rfl, hus⟩ := h
  exact ⟨us, rfl, .loosen hus⟩

/-- An operator at the front of the tokens is a mark. -/
theorem Parse.eq_of_operator? {level : Nat} {ts : List Token} {op : BinaryOp}
    (h : operator? level ts = some op) : ∃ mark r tail, ts = ⟨.punct mark, r⟩ :: tail ∧
      BinaryOp.ofPunct? mark = some op ∧ op.level = level := by
  rcases ts with _ | ⟨⟨lexeme, r⟩, tail⟩
  · cases h
  cases lexeme with
  | punct mark =>
    rw [operator?_cons, Option.filter_eq_some_iff, beq_iff_eq] at h
    exact ⟨mark, r, tail, rfl, h⟩
  | name | keyword | text | number => cases h

namespace Derives

variable {ts rest : List Token} {e : Expr}

/-- An expression at the loosest level. -/
theorem expr (h : Derives o n) (hp : Parse.expr n o ts = .ok (e, rest)) :
    ∃ us, ts = us ++ rest ∧ Spells o.file (.expr .assignment e) us :=
  h.operand .assignment hp

/-! ### Loops behind an operand -/

/-- Operators of one level and their right operands, behind a left operand. -/
theorem binaryRest_succ {level : Nat} {left : Expr} {ls : List Token} (h : Derives o n)
    (hleft : Spells o.file (.expr (.binary level) left) ls)
    (hp : binaryRest (n + 1) level left o ts = .ok (e, rest)) :
    ∃ us, ts = us ++ rest ∧ Spells o.file (.expr (.binary level) e) (ls ++ us) := by
  rw [binaryRest, bind_apply, get_apply] at hp
  dsimp only at hp
  cases hop : operator? level ts with
  | none =>
    rw [hop] at hp
    obtain ⟨rfl, rfl⟩ := pure_eq_ok hp
    exact ⟨[], rfl, by rwa [List.append_nil]⟩
  | some op =>
    rw [hop] at hp
    dsimp only at hp
    obtain ⟨mark, r, tail, rfl, hmark, rfl⟩ := eq_of_operator? hop
    rw [bind_apply, here_apply_cons] at hp
    dsimp only at hp
    rw [bind_apply, drop_apply] at hp
    obtain ⟨right, mid, hright, hloop⟩ := bind_eq_ok hp
    obtain ⟨us, rfl, hus⟩ := h.operand (.binary (op.level + 1)) hright
    -- What has been read so far is the left operand of what follows.
    have hwhole := Spells.binary r hmark hleft hus
    obtain ⟨vs, rfl, hvs⟩ := h.loop (.binary op.level) hwhole hloop
    refine ⟨⟨.punct mark, r⟩ :: (us ++ vs), by simp, ?_⟩
    simpa using hvs

/-- `??`s behind a left operand, each with or without a right side. -/
theorem coalesceRest_succ {left : Expr} {ls : List Token} (h : Derives o n)
    (hleft : Spells o.file (.expr .coalesce left) ls)
    (hp : coalesceRest (n + 1) left o ts = .ok (e, rest)) :
    ∃ us, ts = us ++ rest ∧ Spells o.file (.expr .coalesce e) (ls ++ us) := by
  -- A mark that stands alone silences what has been read so far.
  have halone {r : Nat} {mid : List Token}
      (hloop : coalesceRest n (.quiet left) o mid = .ok (e, rest)) :
      ∃ us, ⟨.punct .coalesce, r⟩ :: mid = us ++ rest ∧
        Spells o.file (.expr .coalesce e) (ls ++ us) := by
    obtain ⟨us, rfl, hus⟩ := h.loop .coalesce (.quiet r hleft) hloop
    exact ⟨⟨.punct .coalesce, r⟩ :: us, rfl, by simpa using hus⟩
  rw [coalesceRest] at hp
  obtain ⟨b, mid, hskip, hbehind⟩ := bind_eq_ok hp
  rcases skip_eq_ok hskip with ⟨rfl, r, rfl⟩ | ⟨rfl, rfl⟩
  · rw [if_pos rfl, bind_apply, peek_apply] at hbehind
    dsimp only at hbehind
    cases hnext : nextLexeme mid with
    | none =>
      rw [hnext] at hbehind
      exact halone hbehind
    | some lexeme =>
      rw [hnext] at hbehind
      dsimp only at hbehind
      split at hbehind
      · rename_i hstart
        obtain ⟨right, tail, hright, hloop⟩ := bind_eq_ok hbehind
        obtain ⟨us, rfl, hus⟩ := h.operand .unary hright
        have hhead : ∀ t ∈ us.head?, t.lexeme.startsOperand = true := by
          obtain ⟨t, more, rfl⟩ := List.exists_cons_of_ne_nil hus.ne_nil
          rintro t' ⟨⟩
          obtain rfl : t.lexeme = lexeme := Option.some.inj hnext
          exact hstart
        obtain ⟨vs, rfl, hvs⟩ := h.loop .coalesce (.coalesce r hleft hus hhead) hloop
        exact ⟨⟨.punct .coalesce, r⟩ :: (us ++ vs), by simp, by simpa using hvs⟩
      · exact halone hbehind
  · rw [if_neg (by simp)] at hbehind
    obtain ⟨rfl, rfl⟩ := pure_eq_ok hbehind
    exact ⟨[], rfl, by rwa [List.append_nil]⟩

/-- Fields, methods and keys behind a target. -/
theorem chain_succ {target : Expr} {ls : List Token} (h : Derives o n)
    (htarget : Spells o.file (.expr .member target) ls)
    (hp : chain (n + 1) target o ts = .ok (e, rest)) :
    ∃ us, ts = us ++ rest ∧ Spells o.file (.expr .member e) (ls ++ us) := by
  rw [chain] at hp
  obtain ⟨location, mid, hhere, hbehind⟩ := bind_eq_ok hp
  obtain ⟨rfl, hlocation⟩ := here_eq_ok hhere
  obtain ⟨b, mid', hdot, hlink⟩ := bind_eq_ok hbehind
  rcases skip_eq_ok hdot with ⟨rfl, r, rfl⟩ | ⟨rfl, rfl⟩
  -- a name behind a point is a method if arguments follow, and a field otherwise
  · obtain rfl := hlocation _ _ rfl
    rw [if_pos rfl] at hlink
    obtain ⟨x, mid, hname, hfield⟩ := bind_eq_ok hlink
    obtain ⟨r', rfl⟩ := name_eq_ok hname
    obtain ⟨b, mid, hopen, hmore⟩ := bind_eq_ok hfield
    obtain ⟨rfl, -⟩ := nextIs_eq_ok hopen
    split at hmore
    · obtain ⟨args, mid, hargs, hloop⟩ := bind_eq_ok hmore
      obtain ⟨us, rfl, hus⟩ := h.arguments hargs
      obtain ⟨vs, rfl, hvs⟩ := h.loop .member (.method x r r' htarget hus) hloop
      exact ⟨⟨.punct .dot, r⟩ :: ⟨.name x, r'⟩ :: (us ++ vs), by simp, by simpa using hvs⟩
    · obtain ⟨us, rfl, hus⟩ := h.loop .member (.field x r r' htarget) hmore
      exact ⟨⟨.punct .dot, r⟩ :: ⟨.name x, r'⟩ :: us, by simp, by simpa using hus⟩
  · rw [if_neg (by simp)] at hlink
    obtain ⟨b, mid, hbracket, hindex⟩ := bind_eq_ok hlink
    rcases skip_eq_ok hbracket with ⟨rfl, r, rfl⟩ | ⟨rfl, rfl⟩
    -- a key between brackets
    · obtain rfl := hlocation _ _ rfl
      rw [if_pos rfl] at hindex
      obtain ⟨key, behindKey, hkey, hclose⟩ := bind_eq_ok hindex
      obtain ⟨us, rfl, hus⟩ := h.expr hkey
      obtain ⟨_, behind, hend, hloop⟩ := bind_eq_ok hclose
      obtain ⟨r', rfl⟩ := expect_eq_ok hend
      obtain ⟨vs, rfl, hvs⟩ := h.loop .member (.index r r' htarget hus) hloop
      exact ⟨⟨.punct .lbracket, r⟩ :: (us ++ ⟨.punct .rbracket, r'⟩ :: vs), by simp,
        by simpa using hvs⟩
    -- no access is left, so the target is all
    · rw [if_neg (by simp)] at hindex
      obtain ⟨rfl, rfl⟩ := pure_eq_ok hindex
      exact ⟨[], rfl, by rwa [List.append_nil]⟩

/-- Whatever may stand behind an operand of a level. -/
theorem loop_succ (h : Derives o n) (level : Level) {left : Expr} {ls : List Token}
    (hleft : Spells o.file (.expr level left) ls)
    (hp : level.loop (n + 1) left o ts = .ok (e, rest)) :
    ∃ us, ts = us ++ rest ∧ Spells o.file (.expr level e) (ls ++ us) := by
  cases level with
  | binary level => exact h.binaryRest_succ hleft hp
  | coalesce => exact h.coalesceRest_succ hleft hp
  | member => exact h.chain_succ hleft hp
  | assignment | ternary | unary | postfixed | primary =>
    -- These levels have no loop.
    obtain ⟨rfl, rfl⟩ := pure_eq_ok hp
    exact ⟨[], rfl, by rwa [List.append_nil]⟩

/-! ### Lists, arguments and entries -/

/-- Items behind a comma, up to the first item without one. -/
theorem moreItems_succ {es : List Expr} (h : Derives o n)
    (hp : Parse.moreItems (n + 1) o ts = .ok (es, rest)) : Taken o.file (.items es) ts rest := by
  rw [Parse.moreItems] at hp
  obtain ⟨b, mid, hcomma, hitems⟩ := bind_eq_ok hp
  rcases skip_eq_ok hcomma with ⟨rfl, r, rfl⟩ | ⟨rfl, rfl⟩
  · rw [if_pos rfl] at hitems
    obtain ⟨item, mid, hitem, hmore⟩ := bind_eq_ok hitems
    obtain ⟨us, rfl, hus⟩ := h.expr hitem
    obtain ⟨others, mid, hothers, hend⟩ := bind_eq_ok hmore
    obtain ⟨vs, rfl, hvs⟩ := h.moreItems hothers
    obtain ⟨rfl, rfl⟩ := pure_eq_ok hend
    exact ⟨⟨.punct .comma, r⟩ :: (us ++ vs), by simp, .moreItems r hus hvs⟩
  · rw [if_neg (by simp)] at hitems
    obtain ⟨rfl, rfl⟩ := pure_eq_ok hitems
    exact ⟨[], rfl, .noItems⟩

/-- A list of expressions is not empty, and what its tokens spell. -/
theorem exprs_succ {es : List Expr} (h : Derives o n)
    (hp : Parse.exprs (n + 1) o ts = .ok (es, rest)) :
    es ≠ [] ∧ ∃ us, ts = us ++ rest ∧ SpellsList o.file es us := by
  rw [Parse.exprs] at hp
  obtain ⟨first, mid, hfirst, hmore⟩ := bind_eq_ok hp
  obtain ⟨us, rfl, hus⟩ := h.expr hfirst
  obtain ⟨b, mid, hcomma, hothers⟩ := bind_eq_ok hmore
  rcases skip_eq_ok hcomma with ⟨rfl, r, rfl⟩ | ⟨rfl, rfl⟩
  · rw [if_pos rfl] at hothers
    obtain ⟨others, mid, hlist, hend⟩ := bind_eq_ok hothers
    obtain ⟨hne, vs, rfl, hvs⟩ := h.exprs hlist
    obtain ⟨rfl, rfl⟩ := pure_eq_ok hend
    -- behind a comma stands another list, which is not empty either
    obtain ⟨second, others, rfl⟩ := List.exists_cons_of_ne_nil hne
    obtain ⟨ws, xs, rfl, hws, hxs⟩ := hvs
    exact ⟨by simp, us ++ ⟨.punct .comma, r⟩ :: (ws ++ xs), by simp, us,
      ⟨.punct .comma, r⟩ :: (ws ++ xs), rfl, hus, .moreItems r hws hxs⟩
  · rw [if_neg (by simp)] at hothers
    obtain ⟨rfl, rfl⟩ := pure_eq_ok hothers
    exact ⟨by simp, us, rfl, us, [], by simp, hus, .noItems⟩

/-- Expressions up to a closing mark, of which there may be none. -/
theorem exprsBefore_succ {closing : Option Punct} {es : List Expr} (h : Derives o n)
    (hp : Parse.exprsBefore (n + 1) closing o ts = .ok (es, rest)) :
    ∃ us, ts = us ++ rest ∧ SpellsList o.file es us := by
  -- Either the closing mark is next already, or at least one expression is read.
  have hread {b : Bool} (hp : (if b then pure [] else Parse.exprs n) o ts = .ok (es, rest)) :
      ∃ us, ts = us ++ rest ∧ SpellsList o.file es us := by
    cases b with
    | true =>
      obtain ⟨rfl, rfl⟩ := pure_eq_ok hp
      exact ⟨[], rfl, rfl⟩
    | false => exact (h.exprs hp).2
  cases closing with
  | none =>
    rw [Parse.exprsBefore] at hp
    obtain ⟨b, mid, hclosed, hes⟩ := bind_eq_ok hp
    obtain ⟨lexeme, mid', hpeek, hpure⟩ := bind_eq_ok hclosed
    obtain ⟨rfl, rfl⟩ := Prod.mk.inj (Except.ok.inj hpeek)
    obtain ⟨rfl, rfl⟩ := pure_eq_ok hpure
    exact hread hes
  | some mark =>
    rw [Parse.exprsBefore] at hp
    obtain ⟨b, mid, hclosed, hes⟩ := bind_eq_ok hp
    obtain ⟨rfl, -⟩ := nextIs_eq_ok hclosed
    exact hread hes

/-- Arguments between their parentheses. -/
theorem arguments_succ {args : List Expr} (h : Derives o n)
    (hp : Parse.arguments (n + 1) o ts = .ok (args, rest)) :
    Taken o.file (.arguments args) ts rest := by
  rw [Parse.arguments] at hp
  obtain ⟨_, inside, hopen, hargs⟩ := bind_eq_ok hp
  obtain ⟨r, rfl⟩ := expect_eq_ok hopen
  obtain ⟨es, behind, hes, hclose⟩ := bind_eq_ok hargs
  obtain ⟨us, rfl, hus⟩ := h.exprsBefore hes
  obtain ⟨_, mid, hend, hpure⟩ := bind_eq_ok hclose
  obtain ⟨r', rfl⟩ := expect_eq_ok hend
  obtain ⟨rfl, rfl⟩ := pure_eq_ok hpure
  -- no argument leaves nothing between the parentheses
  cases args with
  | nil =>
    obtain rfl := hus
    exact ⟨[⟨.punct .lparen, r⟩, ⟨.punct .rparen, r'⟩], rfl, .noArguments r r'⟩
  | cons e es =>
    obtain ⟨ws, xs, rfl, hws, hxs⟩ := hus
    exact ⟨⟨.punct .lparen, r⟩ :: (ws ++ xs ++ [⟨.punct .rparen, r'⟩]), by simp,
      .arguments r r' hws hxs⟩

/-- A map entry from the colon on, and the entries behind it. -/
theorem entry_succ {lexeme : Lexeme} {key : String} {keys : List String} {values : List Expr}
    {r : Nat} (h : Derives o n) (hkey : mapKey? lexeme = some key)
    (hp : (do
      expect .colon
      let value ← Parse.expr n
      if ← skip .comma then
        let (keys, values) ← Parse.entries n
        return (key :: keys, value :: values)
      else return ([key], [value]) : Parse (List String × List Expr)) o ts =
        .ok ((keys, values), rest)) :
    Taken o.file (.entries keys values) (⟨lexeme, r⟩ :: ts) rest := by
  obtain ⟨_, inside, hcolon, hvalue⟩ := bind_eq_ok hp
  obtain ⟨r', rfl⟩ := expect_eq_ok hcolon
  obtain ⟨value, behind, hread, hmore⟩ := bind_eq_ok hvalue
  obtain ⟨us, rfl, hus⟩ := h.expr hread
  obtain ⟨b, mid, hcomma, hothers⟩ := bind_eq_ok hmore
  -- a comma announces another entry, and without one the map ends
  rcases skip_eq_ok hcomma with ⟨rfl, r'', rfl⟩ | ⟨rfl, rfl⟩
  · rw [if_pos rfl] at hothers
    obtain ⟨⟨ks, vs⟩, mid', hentries, hend⟩ := bind_eq_ok hothers
    obtain ⟨ws, rfl, hws⟩ := h.entries hentries
    obtain ⟨heq, rfl⟩ := pure_eq_ok hend
    obtain ⟨rfl, rfl⟩ := Prod.mk.inj heq
    exact ⟨⟨lexeme, r⟩ :: ⟨.punct .colon, r'⟩ :: (us ++ ⟨.punct .comma, r''⟩ :: ws), by simp,
      .moreEntries r r' r'' hkey hus hws⟩
  · rw [if_neg (by simp)] at hothers
    obtain ⟨heq, rfl⟩ := pure_eq_ok hothers
    obtain ⟨rfl, rfl⟩ := Prod.mk.inj heq
    exact ⟨⟨lexeme, r⟩ :: ⟨.punct .colon, r'⟩ :: us, rfl, .entry r r' hkey hus⟩

/-- Entries of a map, from a key on. -/
theorem entries_succ {keys : List String} {values : List Expr} (h : Derives o n)
    (hp : Parse.entries (n + 1) o ts = .ok ((keys, values), rest)) :
    Taken o.file (.entries keys values) ts rest := by
  rw [Parse.entries, bind_apply, peek_apply] at hp
  dsimp only at hp
  cases hnext : nextLexeme ts with
  | none =>
    rw [hnext] at hp
    exact absurd hp fail_ne_ok
  | some lexeme =>
    rw [hnext] at hp
    dsimp only at hp
    obtain ⟨r, tail, rfl⟩ := exists_of_nextLexeme hnext
    rw [bind_apply, drop_apply] at hp
    dsimp only [List.tail_cons] at hp
    cases hkey : mapKey? lexeme with
    | none =>
      rw [hkey] at hp
      exact absurd hp fail_ne_ok
    | some key =>
      rw [hkey] at hp
      dsimp only at hp
      -- What follows the key is only looked at, to report keys that go on.
      rw [bind_apply, peek_apply] at hp
      dsimp only at hp
      cases hbehind : nextLexeme tail with
      | none =>
        rw [hbehind] at hp
        exact h.entry_succ hkey hp
      | some next =>
        rw [hbehind] at hp
        dsimp only at hp
        split at hp
        · obtain ⟨_, _, hfail, -⟩ := bind_eq_ok hp
          exact absurd hfail fail_ne_ok
        · exact h.entry_succ hkey hp

/-! ### Operands -/

/-- An expression in parentheses, behind the first one. -/
theorem group_succ {r : Nat} (h : Derives o n)
    (hp : (do
      let inner ← Parse.expr n
      expect .rparen
      return inner : Parse Expr) o ts = .ok (e, rest)) :
    Taken o.file (.expr .primary e) (⟨.punct .lparen, r⟩ :: ts) rest := by
  obtain ⟨inner, behind, hread, hclose⟩ := bind_eq_ok hp
  obtain ⟨us, rfl, hus⟩ := h.expr hread
  obtain ⟨_, mid, hend, hpure⟩ := bind_eq_ok hclose
  obtain ⟨r', rfl⟩ := expect_eq_ok hend
  obtain ⟨rfl, rfl⟩ := pure_eq_ok hpure
  exact ⟨⟨.punct .lparen, r⟩ :: (us ++ [⟨.punct .rparen, r'⟩]), by simp, .group r r' hus⟩

/-- A map literal, behind its brace. -/
theorem map_succ {r : Nat} (h : Derives o n)
    (hp : (do
      if ← skip .rbrace then return .map [] []
      else
        let (keys, values) ← Parse.entries n
        expect .rbrace
        return .map keys values : Parse Expr) o ts = .ok (e, rest)) :
    Taken o.file (.expr .primary e) (⟨.punct .lbrace, r⟩ :: ts) rest := by
  obtain ⟨b, inside, hskip, hentries⟩ := bind_eq_ok hp
  -- the brace closes at once, or behind the entries
  rcases skip_eq_ok hskip with ⟨rfl, r', rfl⟩ | ⟨rfl, rfl⟩
  · rw [if_pos rfl] at hentries
    obtain ⟨rfl, rfl⟩ := pure_eq_ok hentries
    exact ⟨[⟨.punct .lbrace, r⟩, ⟨.punct .rbrace, r'⟩], rfl, .emptyMap r r'⟩
  · rw [if_neg (by simp)] at hentries
    obtain ⟨⟨keys, values⟩, behind, hread, hclose⟩ := bind_eq_ok hentries
    obtain ⟨us, rfl, hus⟩ := h.entries hread
    obtain ⟨_, mid, hend, hpure⟩ := bind_eq_ok hclose
    obtain ⟨r', rfl⟩ := expect_eq_ok hend
    obtain ⟨rfl, rfl⟩ := pure_eq_ok hpure
    exact ⟨⟨.punct .lbrace, r⟩ :: (us ++ [⟨.punct .rbrace, r'⟩]), by simp, .map r r' hus⟩

/-- A list literal or a range, behind its bracket. -/
theorem list_succ {r : Nat} (h : Derives o n)
    (hp : (do
      if ← skip .rbracket then return .list []
      else
        let first ← Parse.expr n
        if ← skip .range then
          let last ← Parse.expr n
          expect .rbracket
          return .range first last ⟨o.file, r⟩
        else
          let others ← Parse.moreItems n
          expect .rbracket
          return .list (first :: others) : Parse Expr) o ts = .ok (e, rest)) :
    Taken o.file (.expr .primary e) (⟨.punct .lbracket, r⟩ :: ts) rest := by
  obtain ⟨b, inside, hskip, hitems⟩ := bind_eq_ok hp
  -- the bracket closes at once, or behind a first item
  rcases skip_eq_ok hskip with ⟨rfl, r', rfl⟩ | ⟨rfl, rfl⟩
  · rw [if_pos rfl] at hitems
    obtain ⟨rfl, rfl⟩ := pure_eq_ok hitems
    exact ⟨[⟨.punct .lbracket, r⟩, ⟨.punct .rbracket, r'⟩], rfl, .emptyList r r'⟩
  · rw [if_neg (by simp)] at hitems
    obtain ⟨first, behind, hfirst, hmore⟩ := bind_eq_ok hitems
    obtain ⟨us, rfl, hus⟩ := h.expr hfirst
    obtain ⟨b, inside, hrange, hothers⟩ := bind_eq_ok hmore
    -- two points behind the first item make a range, and items make a list
    rcases skip_eq_ok hrange with ⟨rfl, r', rfl⟩ | ⟨rfl, rfl⟩
    · rw [if_pos rfl] at hothers
      obtain ⟨last, behindLast, hlast, hclose⟩ := bind_eq_ok hothers
      obtain ⟨vs, rfl, hvs⟩ := h.expr hlast
      obtain ⟨_, mid, hend, hpure⟩ := bind_eq_ok hclose
      obtain ⟨r'', rfl⟩ := expect_eq_ok hend
      obtain ⟨rfl, rfl⟩ := pure_eq_ok hpure
      exact ⟨⟨.punct .lbracket, r⟩ ::
        (us ++ ⟨.punct .range, r'⟩ :: (vs ++ [⟨.punct .rbracket, r''⟩])), by simp,
        .range r r' r'' hus hvs⟩
    · rw [if_neg (by simp)] at hothers
      obtain ⟨others, behindOthers, hread, hclose⟩ := bind_eq_ok hothers
      obtain ⟨vs, rfl, hvs⟩ := h.moreItems hread
      obtain ⟨_, mid, hend, hpure⟩ := bind_eq_ok hclose
      obtain ⟨r'', rfl⟩ := expect_eq_ok hend
      obtain ⟨rfl, rfl⟩ := pure_eq_ok hpure
      exact ⟨⟨.punct .lbracket, r⟩ :: (us ++ vs ++ [⟨.punct .rbracket, r''⟩]), by simp,
        .list r r'' hus hvs⟩

/-- A primary begins with the token that decides what it is. -/
theorem primary_succ (h : Derives o n) (hp : Parse.primary (n + 1) o ts = .ok (e, rest)) :
    Taken o.file (.expr .primary e) ts rest := by
  rw [Parse.primary] at hp
  obtain ⟨location, start, hhere, hbehind⟩ := bind_eq_ok hp
  obtain ⟨rfl, hlocation⟩ := here_eq_ok hhere
  rw [bind_apply, peek_apply] at hbehind
  dsimp only at hbehind
  cases hnext : nextLexeme start with
  | none =>
    rw [hnext] at hbehind
    exact absurd hbehind unexpected_ne_ok
  | some lexeme =>
    obtain ⟨r, tail, rfl⟩ := exists_of_nextLexeme hnext
    obtain rfl := hlocation _ _ rfl
    rw [nextLexeme_cons] at hbehind
    cases lexeme with
    | number spelling v =>
      obtain ⟨rfl, rfl⟩ := pure_eq_ok (o := o) hbehind
      exact ⟨[⟨.number spelling v, r⟩], rfl, .number spelling v r⟩
    | text content =>
      obtain ⟨rfl, rfl⟩ := pure_eq_ok (o := o) hbehind
      exact ⟨[⟨.text content, r⟩], rfl, .text content r⟩
    | keyword k =>
      obtain ⟨rfl, rfl⟩ := pure_eq_ok (o := o) hbehind
      exact ⟨[⟨.keyword k, r⟩], rfl, .keyword k r⟩
    | name x =>
      obtain ⟨rfl, rfl⟩ := pure_eq_ok (o := o) hbehind
      exact ⟨[⟨.name x, r⟩], rfl, .var x r⟩
    | punct mark =>
      cases mark with
      -- the parenthesis is dropped, and the group is what is behind it
      | lparen =>
        obtain ⟨_, _, hdrop, hgroup⟩ := bind_eq_ok hbehind
        obtain ⟨rfl, rfl⟩ := Prod.mk.inj (Except.ok.inj hdrop)
        exact h.group_succ hgroup
      | lbrace =>
        obtain ⟨_, _, hdrop, hmap⟩ := bind_eq_ok hbehind
        obtain ⟨rfl, rfl⟩ := Prod.mk.inj (Except.ok.inj hdrop)
        exact h.map_succ hmap
      | lbracket =>
        obtain ⟨_, _, hdrop, hlist⟩ := bind_eq_ok hbehind
        obtain ⟨rfl, rfl⟩ := Prod.mk.inj (Except.ok.inj hdrop)
        exact h.list_succ hlist
      | _ => exact absurd hbehind unexpected_ne_ok

/-- A namespace at the front of the tokens is spelled there. -/
theorem exists_of_namespace? {space : String} {ts rest : List Token}
    (h : namespace? ts = some (space, rest)) :
    ∃ r us, ts = us ++ rest ∧ SpellsNamespace space r us := by
  fun_induction namespace? ts generalizing space with
  | case1 word r row tail =>
    obtain ⟨rfl, rfl⟩ := Prod.mk.inj (Option.some.inj h)
    exact ⟨r, [⟨.name word, r⟩], rfl, .word word r⟩
  | case2 word r r' tail ih =>
    obtain ⟨⟨inner, behind⟩, hinner, heq⟩ := Option.map_eq_some_iff.1 h
    obtain ⟨rfl, rfl⟩ := Prod.mk.inj heq
    obtain ⟨r'', us, rfl, hus⟩ := ih hinner
    exact ⟨r, ⟨.name word, r⟩ :: ⟨.punct .dot, r'⟩ :: us, rfl, .dot word r r' hus⟩
  | case3 => cases h

/-- What the chain behind an operand takes is spelled with it. -/
theorem taken_chain {target : Expr} {us ts : List Token} (h : Derives o n)
    (htarget : Spells o.file (.expr .member target) us)
    (hp : chain n target o ts = .ok (e, rest)) : Taken o.file (.expr .member e) (us ++ ts) rest := by
  obtain ⟨vs, rfl, hvs⟩ := h.loop .member htarget hp
  exact ⟨us ++ vs, by simp, hvs⟩

/-- A member is a static access, a call or a primary, and the chain behind it. -/
theorem member_succ (h : Derives o n) (hp : Parse.member (n + 1) o ts = .ok (e, rest)) :
    Taken o.file (.expr .member e) ts rest := by
  rw [Parse.member] at hp
  obtain ⟨location, start, hhere, hbehind⟩ := bind_eq_ok hp
  obtain ⟨rfl, hlocation⟩ := here_eq_ok hhere
  rw [bind_apply, get_apply] at hbehind
  dsimp only at hbehind
  cases hspace : namespace? start with
  -- a namespace in front of a double colon
  | some found =>
    obtain ⟨space, colon⟩ := found
    rw [hspace] at hbehind
    obtain ⟨r, us, rfl, hus⟩ := exists_of_namespace? hspace
    obtain ⟨first, tail, rfl⟩ := hus.begins
    obtain rfl := hlocation _ _ rfl
    dsimp only at hbehind
    rw [bind_apply, set_apply] at hbehind
    obtain ⟨_, inside, hcolon, hmember⟩ := bind_eq_ok hbehind
    obtain ⟨r', rfl⟩ := expect_eq_ok hcolon
    obtain ⟨x, behind, hname, hopen⟩ := bind_eq_ok hmember
    obtain ⟨r'', rfl⟩ := name_eq_ok hname
    obtain ⟨b, mid, hnext, hend⟩ := bind_eq_ok hopen
    obtain ⟨rfl, -⟩ := nextIs_eq_ok hnext
    -- with arguments it is a static method, and without any a static field
    split at hend
    · obtain ⟨args, mid', hargs, hchain⟩ := bind_eq_ok hend
      obtain ⟨vs, rfl, hvs⟩ := h.arguments hargs
      simpa using h.taken_chain (.staticCall x r' r'' hus hvs) hchain
    · simpa using h.taken_chain (.staticField x r' r'' hus) hend
  | none =>
    rw [hspace] at hbehind
    dsimp only at hbehind
    -- a name with a parenthesis behind it is a call, and all else begins with a primary
    split at hbehind
    · rename_i x r r' tail
      obtain rfl := hlocation _ _ rfl
      rw [bind_apply, drop_apply] at hbehind
      obtain ⟨args, mid', hargs, hchain⟩ := bind_eq_ok hbehind
      obtain ⟨us, hus, hspelled⟩ := h.arguments hargs
      rw [List.tail_cons] at hus
      rw [hus]
      exact h.taken_chain (.call x r hspelled) hchain
    · obtain ⟨target, mid, hprimary, hchain⟩ := bind_eq_ok hbehind
      obtain ⟨us, rfl, hus⟩ := h.operand .primary hprimary
      exact h.taken_chain (.loosen hus) hchain

/-- A step behind an operand is taken for a variable only. -/
theorem postfixed_succ (h : Derives o n) (hp : Parse.postfixed (n + 1) o ts = .ok (e, rest)) :
    Taken o.file (.expr .postfixed e) ts rest := by
  rw [Parse.postfixed] at hp
  obtain ⟨location, start, hhere, hbehind⟩ := bind_eq_ok hp
  obtain ⟨rfl, hlocation⟩ := here_eq_ok hhere
  obtain ⟨operand, behind, hmember, hstep⟩ := bind_eq_ok hbehind
  obtain ⟨us, rfl, hus⟩ := h.operand .member hmember
  rw [bind_apply, peek_apply] at hstep
  dsimp only at hstep
  cases hnext : nextLexeme behind with
  | none =>
    rw [hnext] at hstep
    obtain ⟨rfl, rfl⟩ := pure_eq_ok hstep
    exact ⟨us, rfl, .loosen hus⟩
  | some lexeme =>
    obtain ⟨r, tail, rfl⟩ := exists_of_nextLexeme hnext
    rw [nextLexeme_cons] at hstep
    dsimp only at hstep
    -- a token that is no step belongs to what follows
    cases hs : step? lexeme with
    | none =>
      rw [hs] at hstep
      obtain ⟨rfl, rfl⟩ := pure_eq_ok hstep
      exact ⟨us, rfl, .loosen hus⟩
    | some step =>
      rw [hs] at hstep
      dsimp only at hstep
      -- the operand in front of a step has to be a name
      split at hstep
      · rename_i x
        rw [bind_apply, drop_apply] at hstep
        obtain ⟨rfl, rfl⟩ := pure_eq_ok (o := o) hstep
        obtain ⟨t, more, rfl⟩ := List.exists_cons_of_ne_nil hus.ne_nil
        obtain rfl := hlocation _ _ rfl
        exact ⟨t :: (more ++ [⟨lexeme, r⟩]), by simp, .stepAfter r hs hus⟩
      · exact absurd hstep fail_ne_ok

/-- A sign and its operand. -/
theorem sign_succ {lexeme : Lexeme} {sign : Sign} {r : Nat} (h : Derives o n)
    (hsign : sign? lexeme = some sign)
    (hp : (do
      drop
      return .ofSign sign (← Parse.unary n) ⟨o.file, r⟩ : Parse Expr) o (⟨lexeme, r⟩ :: ts) =
        .ok (e, rest)) :
    Taken o.file (.expr .unary e) (⟨lexeme, r⟩ :: ts) rest := by
  rw [bind_apply, drop_apply] at hp
  obtain ⟨operand, mid, hread, hpure⟩ := bind_eq_ok hp
  obtain ⟨us, hus, hspelled⟩ := h.operand .unary hread
  obtain ⟨rfl, rfl⟩ := pure_eq_ok hpure
  exact ⟨⟨lexeme, r⟩ :: us, congrArg _ hus, .sign r hsign hspelled⟩

/-- A step and the variable behind it. -/
theorem stepBefore_succ {lexeme : Lexeme} {step : Step} {r : Nat}
    (hstep : step? lexeme = some step)
    (hp : (do
      drop
      match ← peek with
      | some (.name x) =>
        drop
        return .step step true x ⟨o.file, r⟩
      | _ => fail (.missing ("a variable after " ++ lexeme.describe)) : Parse Expr) o
        (⟨lexeme, r⟩ :: ts) = .ok (e, rest)) :
    Taken o.file (.expr .unary e) (⟨lexeme, r⟩ :: ts) rest := by
  rw [bind_apply, drop_apply] at hp
  dsimp only [List.tail_cons] at hp
  rw [bind_apply, peek_apply] at hp
  -- the name has to be the next token
  cases ts with
  | nil => exact absurd hp fail_ne_ok
  | cons t more =>
    obtain ⟨found, r'⟩ := t
    cases found with
    | name x =>
      obtain ⟨rfl, rfl⟩ := pure_eq_ok (o := o) hp
      exact ⟨[⟨lexeme, r⟩, ⟨.name x, r'⟩], rfl, .stepBefore x r r' hstep⟩
    | keyword | text | number | punct => exact absurd hp fail_ne_ok

/-- A sign, a negation, a step in front of a variable, or an operand without any. -/
theorem unary_succ (h : Derives o n) (hp : Parse.unary (n + 1) o ts = .ok (e, rest)) :
    Taken o.file (.expr .unary e) ts rest := by
  -- Without an operator in front, the operand is read one level below.
  have hnone {ts : List Token} (hp : Parse.postfixed n o ts = .ok (e, rest)) :
      Taken o.file (.expr .unary e) ts rest := (h.operand .postfixed hp).loosen
  rw [Parse.unary] at hp
  obtain ⟨location, start, hhere, hbehind⟩ := bind_eq_ok hp
  obtain ⟨rfl, hlocation⟩ := here_eq_ok hhere
  rw [bind_apply, peek_apply] at hbehind
  dsimp only at hbehind
  cases hnext : nextLexeme start with
  | none =>
    rw [hnext] at hbehind
    exact hnone hbehind
  | some lexeme =>
    rw [hnext] at hbehind
    obtain ⟨r, tail, rfl⟩ := exists_of_nextLexeme hnext
    obtain rfl := hlocation _ _ rfl
    cases lexeme with
    | name | keyword | text | number => exact hnone hbehind
    | punct mark =>
      cases mark with
      | not =>
        obtain ⟨_, _, hdrop, hoperand⟩ := bind_eq_ok hbehind
        obtain ⟨rfl, rfl⟩ := Prod.mk.inj (Except.ok.inj hdrop)
        obtain ⟨operand, mid, hread, hpure⟩ := bind_eq_ok hoperand
        obtain ⟨us, hus, hspelled⟩ := h.operand .unary hread
        obtain ⟨rfl, rfl⟩ := pure_eq_ok hpure
        exact ⟨⟨.punct .not, r⟩ :: us, congrArg _ hus, .not r hspelled⟩
      | plus => exact h.sign_succ rfl hbehind
      | minus => exact h.sign_succ rfl hbehind
      | increment => exact stepBefore_succ rfl hbehind
      | decrement => exact stepBefore_succ rfl hbehind
      | _ => exact hnone hbehind

/-- What the loop of a level takes behind an operand of that level is spelled with it. -/
theorem taken_loop (h : Derives o n) (level : Level) {left : Expr} {mid : List Token}
    (hleft : Taken o.file (.expr level left) ts mid)
    (hp : level.loop n left o mid = .ok (e, rest)) : Taken o.file (.expr level e) ts rest := by
  obtain ⟨us, rfl, hus⟩ := hleft
  obtain ⟨vs, rfl, hvs⟩ := h.loop level hus hp
  exact ⟨us ++ vs, by simp, hvs⟩

/-- An operand and the `??`s behind it. -/
theorem coalesce_succ (h : Derives o n) (hp : Parse.coalesce (n + 1) o ts = .ok (e, rest)) :
    Taken o.file (.expr .coalesce e) ts rest := by
  rw [Parse.coalesce] at hp
  obtain ⟨left, mid, hleft, hloop⟩ := bind_eq_ok hp
  exact h.taken_loop .coalesce (h.operand .unary hleft).loosen hloop

/-- An operand of the next level, and the operators of this level behind it. -/
theorem binary_succ {level : Nat} (h : Derives o n)
    (hp : Parse.binary (n + 1) level o ts = .ok (e, rest)) :
    Taken o.file (.expr (.binary level) e) ts rest := by
  rw [Parse.binary] at hp
  by_cases hl : level < levels
  · rw [if_pos hl] at hp
    obtain ⟨left, mid, hleft, hloop⟩ := bind_eq_ok hp
    have hfirst := h.operand (.binary (level + 1)) hleft
    refine h.taken_loop (.binary level) (Taken.loosen ?_) hloop
    rwa [Level.tighter, if_pos hl]
  · rw [if_neg hl] at hp
    have hfirst := h.operand .coalesce hp
    refine Taken.loosen ?_
    rwa [Level.tighter, if_neg hl]

/-- A test with both branches behind it, or the test alone. -/
theorem ternary_succ (h : Derives o n) (hp : Parse.ternary (n + 1) o ts = .ok (e, rest)) :
    Taken o.file (.expr .ternary e) ts rest := by
  rw [Parse.ternary] at hp
  obtain ⟨test, mid, htest, hbehind⟩ := bind_eq_ok hp
  obtain ⟨us, rfl, hus⟩ := h.operand (.binary 0) htest
  obtain ⟨b, inside, hskip, hbranches⟩ := bind_eq_ok hbehind
  rcases skip_eq_ok hskip with ⟨rfl, r, rfl⟩ | ⟨rfl, rfl⟩
  -- a question mark asks for two branches and the colon in between
  · rw [if_pos rfl] at hbranches
    obtain ⟨yes, behindYes, hyes, hcolon⟩ := bind_eq_ok hbranches
    obtain ⟨vs, rfl, hvs⟩ := h.expr hyes
    obtain ⟨_, behindColon, hmark, hlast⟩ := bind_eq_ok hcolon
    obtain ⟨r', rfl⟩ := expect_eq_ok hmark
    obtain ⟨no, behindNo, hno, hpure⟩ := bind_eq_ok hlast
    obtain ⟨ws, rfl, hws⟩ := h.expr hno
    obtain ⟨rfl, rfl⟩ := pure_eq_ok hpure
    exact ⟨us ++ ⟨.punct .question, r⟩ :: (vs ++ ⟨.punct .colon, r'⟩ :: ws), by simp,
      .ternary r r' hus hvs hws⟩
  -- without one the test is the expression
  · rw [if_neg (by simp)] at hbranches
    obtain ⟨rfl, rfl⟩ := pure_eq_ok hbranches
    exact ⟨us, rfl, .loosen hus⟩

/-- An assignment begins with a name, or a name and a key. All else is read as a ternary. -/
theorem expr_succ (h : Derives o n) (hp : Parse.expr (n + 1) o ts = .ok (e, rest)) :
    Taken o.file (.expr .assignment e) ts rest := by
  have hternary {ts : List Token} (hp : Parse.ternary n o ts = .ok (e, rest)) :
      Taken o.file (.expr .assignment e) ts rest := (h.operand .ternary hp).loosen
  rw [Parse.expr, bind_apply, get_apply] at hp
  dsimp only at hp
  obtain ⟨location, start, hhere, hbehind⟩ := bind_eq_ok hp
  obtain ⟨rfl, hlocation⟩ := here_eq_ok hhere
  -- which of the three it is shows at the first two tokens
  split at hbehind
  · rename_i x r r' tail
    obtain rfl := hlocation _ _ rfl
    rw [bind_apply, set_apply] at hbehind
    obtain ⟨value, mid, hvalue, hpure⟩ := bind_eq_ok hbehind
    obtain ⟨us, rfl, hus⟩ := h.expr hvalue
    obtain ⟨rfl, rfl⟩ := pure_eq_ok hpure
    exact ⟨⟨.name x, r⟩ :: ⟨.punct .assign, r'⟩ :: us, rfl, .assign x r r' hus⟩
  · rename_i x r r' tail
    obtain rfl := hlocation _ _ rfl
    rw [bind_apply, set_apply] at hbehind
    obtain ⟨key, behindKey, hkey, hclose⟩ := bind_eq_ok hbehind
    obtain ⟨us, rfl, hus⟩ := h.expr hkey
    obtain ⟨_, behind, hbracket, hassign⟩ := bind_eq_ok hclose
    obtain ⟨r₂, rfl⟩ := expect_eq_ok hbracket
    obtain ⟨b, mid, hskip, hvalue⟩ := bind_eq_ok hassign
    -- an equals sign behind the key makes it the target of an assignment
    rcases skip_eq_ok hskip with ⟨rfl, r₃, rfl⟩ | ⟨rfl, rfl⟩
    · rw [if_pos rfl] at hvalue
      obtain ⟨value, mid', hread, hpure⟩ := bind_eq_ok hvalue
      obtain ⟨vs, rfl, hvs⟩ := h.expr hread
      obtain ⟨rfl, rfl⟩ := pure_eq_ok hpure
      exact ⟨⟨.name x, r⟩ :: ⟨.punct .lbracket, r'⟩ ::
        (us ++ ⟨.punct .rbracket, r₂⟩ :: ⟨.punct .assign, r₃⟩ :: vs), by simp,
        .assignAt x r r' r₂ r₃ hus hvs⟩
    · -- What was read as the target of an assignment is read again as an operand.
      rw [if_neg (by simp), bind_apply, set_apply] at hvalue
      exact hternary hvalue
  · exact hternary hbehind

/-- An operand of any level. -/
theorem operand_succ (h : Derives o n) (level : Level)
    (hp : level.parser (n + 1) o ts = .ok (e, rest)) : Taken o.file (.expr level e) ts rest := by
  cases level with
  | assignment => exact h.expr_succ hp
  | ternary => exact h.ternary_succ hp
  | binary level => exact h.binary_succ hp
  | coalesce => exact h.coalesce_succ hp
  | unary => exact h.unary_succ hp
  | postfixed => exact h.postfixed_succ hp
  | member => exact h.member_succ hp
  | primary => exact h.primary_succ hp

/-! ### Without fuel -/

/-- With no steps left, a parser takes nothing. -/
theorem zero (o : Origin) : Derives o 0 where
  operand level ts e rest hp := by
    have hfail {p : Parse Expr} (heq : p = unexpected "expression") (hp : p o ts = .ok (e, rest)) :
        Taken o.file (.expr level e) ts rest := by
      rw [heq] at hp
      exact absurd hp unexpected_ne_ok
    cases level with
    | assignment => exact hfail Parse.expr.eq_1 hp
    | ternary => exact hfail Parse.ternary.eq_1 hp
    | binary level => exact hfail (Parse.binary.eq_1 level) hp
    | coalesce => exact hfail Parse.coalesce.eq_1 hp
    | unary => exact hfail Parse.unary.eq_1 hp
    | postfixed => exact hfail Parse.postfixed.eq_1 hp
    | member => exact hfail Parse.member.eq_1 hp
    | primary => exact hfail Parse.primary.eq_1 hp
  loop level left ls ts e rest hleft hp := by
    -- A loop without fuel ends at once.
    have hend {p : Parse Expr} (heq : p = pure left) (hp : p o ts = .ok (e, rest)) :
        ∃ us, ts = us ++ rest ∧ Spells o.file (.expr level e) (ls ++ us) := by
      rw [heq] at hp
      obtain ⟨rfl, rfl⟩ := pure_eq_ok hp
      exact ⟨[], rfl, by rwa [List.append_nil]⟩
    cases level with
    | binary level => exact hend (Parse.binaryRest.eq_1 level left) hp
    | coalesce => exact hend (Parse.coalesceRest.eq_1 left) hp
    | member => exact hend (Parse.chain.eq_1 left) hp
    | assignment | ternary | unary | postfixed | primary => exact hend rfl hp
  arguments hp := by
    rw [Parse.arguments] at hp
    exact absurd hp unexpected_ne_ok
  exprs hp := by
    rw [Parse.exprs] at hp
    exact absurd hp unexpected_ne_ok
  exprsBefore hp := by
    rw [Parse.exprsBefore] at hp
    exact absurd hp unexpected_ne_ok
  moreItems hp := by
    rw [Parse.moreItems] at hp
    obtain ⟨rfl, rfl⟩ := pure_eq_ok hp
    exact ⟨[], rfl, .noItems⟩
  entries hp := by
    rw [Parse.entries] at hp
    exact absurd hp unexpected_ne_ok

end Derives

/-- **The parsers take what the grammar spells**, whatever the fuel. -/
theorem derives (o : Origin) : ∀ n, Derives o n
  | 0 => .zero o
  | n + 1 =>
    have h := derives o n
    { operand := fun level => h.operand_succ level
      loop := fun level => h.loop_succ level
      arguments := h.arguments_succ
      exprs := h.exprs_succ
      exprsBefore := h.exprsBefore_succ
      moreItems := h.moreItems_succ
      entries := h.entries_succ }

/-! ### Whole texts -/

/-- A text that is parsed is scanned, and all its tokens are read. -/
theorem Parse.exists_of_parseWith {α : Type} {parser : Nat → Parse α} {file : Option String}
    {row : Nat} {text : String} {a : α} (h : parseWith parser file row text = .ok a) :
    ∃ ts last n rest, scanTokens row text.toList = .ok (ts, last) ∧
      parser n ⟨file, last⟩ ts = .ok (a, rest) := by
  rw [parseWith] at h
  split at h
  · cases h
  · rename_i ts last hscan
    split at h
    · cases h
    · rename_i b rest hrun
      obtain rfl := Except.ok.inj h
      exact ⟨ts, last, _, rest, hscan, hrun⟩

/-- The parameters of a directive are expressions that its tokens spell. -/
theorem spells_of_parseExprs {file : Option String} {row : Nat} {text : String} {es : List Expr}
    (h : parseExprs file row text = .ok es) :
    ∃ ts last, scanTokens row text.toList = .ok (ts, last) ∧ SpellsList file es ts := by
  obtain ⟨ts, last, n, rest, hscan, hrun⟩ := exists_of_parseWith h
  obtain ⟨list, mid, hlist, hend⟩ := bind_eq_ok hrun
  obtain ⟨us, rfl, hus⟩ := (derives ⟨file, last⟩ n).exprsBefore hlist
  obtain ⟨_, mid', hfinish, hpure⟩ := bind_eq_ok hend
  obtain ⟨rfl, -⟩ := finish_eq_ok hfinish
  obtain ⟨rfl, -⟩ := pure_eq_ok hpure
  exact ⟨us ++ [], last, hscan, by rwa [List.append_nil]⟩

/-- Tokens that spell the head of a loop. -/
def SpellsLoopHead (file : Option String) : LoopHead → List Token → Prop
  | .each item collection, ts => ∃ r r' us,
      ts = ⟨.name item, r⟩ :: ⟨.punct .colon, r'⟩ :: us ∧
        Spells file (.expr .assignment collection) us
  | .counting start test update, ts => ∃ r r' us vs ws,
      ts = us ++ ⟨.punct .semicolon, r⟩ :: (vs ++ ⟨.punct .semicolon, r'⟩ :: ws) ∧
        SpellsList file start us ∧ SpellsList file test.toList vs ∧ SpellsList file update ws

/-- The head of a loop is what its tokens spell. -/
theorem spells_of_parseLoopHead {file : Option String} {row : Nat} {text : String}
    {head : LoopHead} (h : parseLoopHead file row text = .ok head) :
    ∃ ts last, scanTokens row text.toList = .ok (ts, last) ∧ SpellsLoopHead file head ts := by
  obtain ⟨ts, last, n, rest, hscan, hrun⟩ := exists_of_parseWith h
  have hd := derives ⟨file, last⟩ n
  refine ⟨ts, last, hscan, ?_⟩
  rw [Parse.loopHead, bind_apply, get_apply] at hrun
  dsimp only at hrun
  -- a name and a colon begin a loop over a collection, and all else a counting one
  split at hrun
  · rename_i item r r' tail
    rw [bind_apply, set_apply] at hrun
    obtain ⟨collection, mid, hread, hend⟩ := bind_eq_ok hrun
    obtain ⟨us, rfl, hus⟩ := hd.expr hread
    obtain ⟨_, mid', hfinish, hpure⟩ := bind_eq_ok hend
    obtain ⟨rfl, -⟩ := finish_eq_ok hfinish
    obtain ⟨rfl, -⟩ := pure_eq_ok hpure
    exact ⟨r, r', us, by rw [List.append_nil], hus⟩
  · -- The test is there or not; what is behind it is the same.
    have hbehind {start : List Expr} {test : Option Expr} {mid : List Token}
        (hp : (do
          expect .semicolon
          let update ← Parse.exprsBefore n none
          finish
          return .counting start test update : Parse LoopHead) ⟨file, last⟩ mid =
            .ok (head, rest)) :
        ∃ r update us, mid = ⟨.punct .semicolon, r⟩ :: us ∧ head = .counting start test update ∧
          SpellsList file update us := by
      obtain ⟨_, inside, hmark, hupdate⟩ := bind_eq_ok hp
      obtain ⟨r, rfl⟩ := expect_eq_ok hmark
      obtain ⟨update, behind, hread, hend⟩ := bind_eq_ok hupdate
      obtain ⟨us, rfl, hus⟩ := hd.exprsBefore hread
      obtain ⟨_, mid, hfinish, hpure⟩ := bind_eq_ok hend
      obtain ⟨rfl, -⟩ := finish_eq_ok hfinish
      obtain ⟨rfl, -⟩ := pure_eq_ok hpure
      exact ⟨r, update, us, by rw [List.append_nil], rfl, hus⟩
    obtain ⟨start, behindStart, hstart, hfirst⟩ := bind_eq_ok hrun
    obtain ⟨us, rfl, hus⟩ := hd.exprsBefore hstart
    obtain ⟨_, inside, hmark, htest⟩ := bind_eq_ok hfirst
    obtain ⟨r, rfl⟩ := expect_eq_ok hmark
    obtain ⟨b, mid, hnext, hcounting⟩ := bind_eq_ok htest
    obtain ⟨rfl, -⟩ := nextIs_eq_ok hnext
    -- a semicolon right behind the first leaves the test out
    cases b with
    | true =>
      obtain ⟨r', update, ws, rfl, rfl, hws⟩ := hbehind hcounting
      exact ⟨r, r', us, [], ws, rfl, hus, rfl, hws⟩
    | false =>
      obtain ⟨test, mid', hsome, hupdate⟩ := bind_eq_ok hcounting
      obtain ⟨r', update, ws, rfl, rfl, hws⟩ := hbehind hupdate
      obtain ⟨e, he, rfl⟩ := map_eq_ok hsome
      obtain ⟨vs, rfl, hvs⟩ := hd.expr he
      exact ⟨r, r', us, vs, ws, by simp, hus, ⟨vs, [], by simp, hvs, .noItems⟩, hws⟩

end Stencil
