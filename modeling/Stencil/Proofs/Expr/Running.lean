import Stencil.Expr.Parse

/-!
# Running the parsers of expressions

A parser is a function of the place that its tokens come from and of the tokens that are left. The
equations here say what its building blocks do on given tokens: a sequence runs its parts one
after the other (`Parse.bind_apply`), and a block that looks at the next token is decided by the
lexeme of that token (`Parse.nextLexeme`).
-/

namespace Stencil.Parse

variable {α β : Type} {o : Origin} {ts : List Token}

/-- What the next token is, if one is left. -/
def nextLexeme (ts : List Token) : Option Lexeme := ts.head?.map Token.lexeme

@[simp] theorem nextLexeme_cons (t : Token) (ts : List Token) :
    nextLexeme (t :: ts) = some t.lexeme := rfl

/-! ### Sequences -/

/-- One parser behind another. -/
theorem bind_apply (p : Parse α) (f : α → Parse β) (o : Origin) (ts : List Token) :
    (p >>= f) o ts = match p o ts with
      | .ok (a, rest) => f a o rest
      | .error e => .error e := by
  change (p o ts >>= fun r => f r.1 o r.2) = _
  cases p o ts <;> rfl

theorem pure_apply (a : α) : (pure a : Parse α) o ts = .ok (a, ts) := rfl

theorem get_apply : (get : Parse (List Token)) o ts = .ok (ts, ts) := rfl

theorem set_apply (rest : List Token) : (set rest : Parse PUnit) o ts = .ok (⟨⟩, rest) := rfl

/-! ### Single tokens -/

theorem peek_apply : peek o ts = .ok (nextLexeme ts, ts) := rfl

theorem drop_apply : drop o ts = .ok ((), ts.tail) := rfl

theorem here_apply_cons (t : Token) : here o (t :: ts) = .ok (⟨o.file, t.row⟩, t :: ts) := rfl

/-- Asking for the place of the next token never fails and takes nothing. -/
theorem here_apply (o : Origin) (ts : List Token) : ∃ location, here o ts = .ok (location, ts) := by
  cases ts with
  | nil => exact ⟨_, rfl⟩
  | cons t ts => exact ⟨_, rfl⟩

/-- What is found out about the next mark takes no token. -/
theorem nextIs_apply (mark : Punct) :
    nextIs mark o ts = .ok (match nextLexeme ts with
      | some (.punct p) => p == mark
      | _ => false, ts) := by
  rw [nextIs, bind_apply, peek_apply]
  rcases nextLexeme ts with _ | (_ | _ | _ | _ | _) <;> rfl

/-- The mark that is asked for is next. -/
theorem nextIs_cons (mark : Punct) (r : Nat) :
    nextIs mark o (⟨.punct mark, r⟩ :: ts) = .ok (true, ⟨.punct mark, r⟩ :: ts) := by
  rw [nextIs_apply]
  simp

/-- Another token is next, or none. -/
theorem nextIs_of_ne {m : Punct} (h : nextLexeme ts ≠ some (.punct m)) :
    nextIs m o ts = .ok (false, ts) := by
  rw [nextIs_apply]
  split
  · rename_i p hp
    have : p ≠ m := fun hpm => h (hpm ▸ hp)
    simp [this]
  · rfl

/-- A mark that is there is skipped. -/
theorem skip_cons (mark : Punct) (r : Nat) :
    skip mark o (⟨.punct mark, r⟩ :: ts) = .ok (true, ts) := by
  rw [skip, bind_apply, nextIs_cons]
  rfl

/-- A mark that is not there is not skipped. -/
theorem skip_of_ne {m : Punct} (h : nextLexeme ts ≠ some (.punct m)) :
    skip m o ts = .ok (false, ts) := by
  rw [skip, bind_apply, nextIs_of_ne h]
  rfl

/-- A mark that is expected and there. -/
theorem expect_cons (mark : Punct) (r : Nat) :
    expect mark o (⟨.punct mark, r⟩ :: ts) = .ok ((), ts) := by
  rw [expect, bind_apply, skip_cons]
  rfl

theorem name_cons (x : String) (r : Nat) : name o (⟨.name x, r⟩ :: ts) = .ok (x, ts) := rfl

theorem finish_nil : finish o [] = .ok ((), []) := rfl

/-! ### What a parser has done -/

/-- A sequence that goes well is its first part going well, and then the others. -/
theorem bind_eq_ok {p : Parse α} {f : α → Parse β} {b : β} {rest : List Token}
    (h : (p >>= f) o ts = .ok (b, rest)) :
    ∃ a mid, p o ts = .ok (a, mid) ∧ f a o mid = .ok (b, rest) := by
  rw [bind_apply] at h
  cases hp : p o ts with
  | error e =>
    rw [hp] at h
    cases h
  | ok r =>
    rw [hp] at h
    exact ⟨r.1, r.2, rfl, h⟩

/-- A pure parser takes nothing. -/
theorem pure_eq_ok {a b : α} {rest : List Token} (h : (pure a : Parse α) o ts = .ok (b, rest)) :
    b = a ∧ rest = ts := by
  rw [pure_apply] at h
  obtain ⟨rfl, rfl⟩ := Prod.mk.inj (Except.ok.inj h)
  exact ⟨rfl, rfl⟩

/-- A mapped parser takes what the parser takes. -/
theorem map_eq_ok {f : α → β} {p : Parse α} {b : β} {rest : List Token}
    (h : (f <$> p) o ts = .ok (b, rest)) : ∃ a, p o ts = .ok (a, rest) ∧ b = f a := by
  rw [← bind_pure_comp] at h
  obtain ⟨a, mid, hp, hpure⟩ := bind_eq_ok h
  obtain ⟨rfl, rfl⟩ := pure_eq_ok hpure
  exact ⟨a, hp, rfl⟩

/-- A failure has no result. -/
theorem fail_ne_ok {fault : ParseFault} {r : α × List Token} :
    (fail fault : Parse α) o ts ≠ .ok r := by
  intro h
  obtain ⟨location, hl⟩ := here_apply o ts
  rw [fail, bind_apply, hl] at h
  cases h

/-- Nor has a token that is not expected. -/
theorem unexpected_ne_ok {expected : String} {r : α × List Token} :
    (unexpected expected : Parse α) o ts ≠ .ok r := by
  intro h
  rw [unexpected, bind_apply, peek_apply] at h
  cases hn : nextLexeme ts with
  | none =>
    rw [hn] at h
    exact fail_ne_ok h
  | some lexeme =>
    rw [hn] at h
    exact fail_ne_ok h

/-- A mark that is next stands at the front of the tokens. -/
theorem exists_of_nextLexeme {lexeme : Lexeme} (h : nextLexeme ts = some lexeme) :
    ∃ r tail, ts = ⟨lexeme, r⟩ :: tail := by
  cases ts with
  | nil => cases h
  | cons t tail =>
    obtain rfl : t.lexeme = lexeme := Option.some.inj h
    exact ⟨t.row, tail, rfl⟩

/-- A location is that of the next token, and takes none. -/
theorem here_eq_ok {location : Location} {rest : List Token}
    (h : here o ts = .ok (location, rest)) :
    rest = ts ∧ ∀ t tail, ts = t :: tail → location = ⟨o.file, t.row⟩ := by
  cases ts with
  | nil =>
    obtain ⟨-, rfl⟩ := Prod.mk.inj (Except.ok.inj h)
    exact ⟨rfl, nofun⟩
  | cons t tail =>
    obtain ⟨rfl, rfl⟩ := Prod.mk.inj (Except.ok.inj h)
    refine ⟨rfl, ?_⟩
    rintro t' tail' ⟨⟩
    rfl

/-- To ask for the next mark takes no token. -/
theorem nextIs_eq_ok {m : Punct} {b : Bool} {rest : List Token}
    (h : nextIs m o ts = .ok (b, rest)) :
    rest = ts ∧ (b = true ↔ nextLexeme ts = some (.punct m)) := by
  by_cases hm : nextLexeme ts = some (.punct m)
  · obtain ⟨r, tail, rfl⟩ := exists_of_nextLexeme hm
    rw [nextIs_cons] at h
    obtain ⟨rfl, rfl⟩ := Prod.mk.inj (Except.ok.inj h)
    exact ⟨rfl, by simp⟩
  · rw [nextIs_of_ne hm] at h
    obtain ⟨rfl, rfl⟩ := Prod.mk.inj (Except.ok.inj h)
    exact ⟨rfl, by simp [hm]⟩

/-- A mark has been taken, or there was none. -/
theorem skip_eq_ok {m : Punct} {b : Bool} {rest : List Token} (h : skip m o ts = .ok (b, rest)) :
    (b = true ∧ ∃ r, ts = ⟨.punct m, r⟩ :: rest) ∨ (b = false ∧ rest = ts) := by
  by_cases hm : nextLexeme ts = some (.punct m)
  · obtain ⟨r, tail, rfl⟩ := exists_of_nextLexeme hm
    rw [skip_cons] at h
    obtain ⟨rfl, rfl⟩ := Prod.mk.inj (Except.ok.inj h)
    exact .inl ⟨rfl, r, rfl⟩
  · rw [skip_of_ne hm] at h
    obtain ⟨rfl, rfl⟩ := Prod.mk.inj (Except.ok.inj h)
    exact .inr ⟨rfl, rfl⟩

/-- A mark that was expected was there. -/
theorem expect_eq_ok {m : Punct} {u : Unit} {rest : List Token}
    (h : expect m o ts = .ok (u, rest)) : ∃ r, ts = ⟨.punct m, r⟩ :: rest := by
  rw [expect] at h
  obtain ⟨b, mid, hskip, hend⟩ := bind_eq_ok h
  rcases skip_eq_ok hskip with ⟨rfl, r, rfl⟩ | ⟨rfl, rfl⟩
  · obtain ⟨-, rfl⟩ := pure_eq_ok hend
    exact ⟨r, rfl⟩
  · exact absurd hend unexpected_ne_ok

/-- A name that was read was there. -/
theorem name_eq_ok {x : String} {rest : List Token} (h : name o ts = .ok (x, rest)) :
    ∃ r, ts = ⟨.name x, r⟩ :: rest := by
  cases ts with
  | nil => cases h
  | cons t tail =>
    obtain ⟨lexeme, r⟩ := t
    cases lexeme with
    | name word =>
      obtain ⟨rfl, rfl⟩ := Prod.mk.inj (Except.ok.inj h)
      exact ⟨r, rfl⟩
    | keyword | text | number | punct => cases h

/-- All tokens were taken if nothing more was expected. -/
theorem finish_eq_ok {u : Unit} {rest : List Token} (h : finish o ts = .ok (u, rest)) :
    ts = [] ∧ rest = [] := by
  cases ts with
  | nil =>
    obtain ⟨-, rfl⟩ := Prod.mk.inj (Except.ok.inj h)
    exact ⟨rfl, rfl⟩
  | cons t tail => cases h

/-! ### Operators -/

/-- A mark is an operator of a level if it is one and has this level. -/
theorem operator?_cons (level : Nat) (mark : Punct) (r : Nat) (ts : List Token) :
    operator? level (⟨.punct mark, r⟩ :: ts) =
      (BinaryOp.ofPunct? mark).filter (·.level == level) := rfl

/-! ### Whole texts -/

/-- A text is parsed if its tokens are, with the steps that their number allows. -/
theorem parseWith_eq_ok {parser : Nat → Parse α} {file : Option String} {row last : Nat}
    {text : String} {a : α} (rest : List Token)
    (hscan : scanTokens row text.toList = .ok (ts, last))
    (h : parser (16 * (ts.length + 2)) ⟨file, last⟩ ts = .ok (a, rest)) :
    parseWith parser file row text = .ok a := by
  have hrun : ((parser (16 * (ts.length + 2))).run ⟨file, last⟩ |>.run ts) = .ok (a, rest) := h
  rw [parseWith, hscan]
  simp only [hrun]

end Stencil.Parse
