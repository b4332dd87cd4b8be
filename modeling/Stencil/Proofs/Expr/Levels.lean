import Stencil.Proofs.Expr.Grammar

/-!
# Parsers at the levels of precedence

`Level.Reads` says what the parser of a level does with the tokens of an expression, whatever
follows them: it comes to its loop when it has read the expression, and it ends there if the next
token has no grip on the operand (`Level.Reads.complete`). Every call of a parser needs fuel; the
bound counts sixteen calls for each token and `Level.cost` for the way down to the first one.

Main statements: `reads_assignment` and its neighbours, by which the parser of a level reads what
the next tighter one reads. The loosest level is the difficult one. An expression that begins with
`name[` is read twice there, the first time as the target of an assignment, and `Lead` is what
makes the first attempt end without an error and without a `=`.
-/

namespace Stencil

open Parse

variable {o : Origin}

/-! ### One level -/

/-- The parser of a level reads an expression from tokens: behind them it goes on with its loop,
unless what follows would have been taken for a part of the expression. -/
def Level.Reads (o : Origin) (level : Level) (e : Expr) (ts : List Token) : Prop :=
  ∀ n rest, 16 * ts.length + level.cost ≤ n → Follows level.limit rest → EndsName rest →
    ∃ m, n ≤ m + 16 * ts.length + level.cost ∧
      level.parser n o (ts ++ rest) = level.loop m e o rest

/-- No operator of a level stands where none of its grip may. -/
theorem operator?_eq_none {rank level : Nat} {rest : List Token} (h : Follows rank rest)
    (hr : rank ≤ 2 + level) : operator? level rest = none := by
  rcases rest with _ | ⟨⟨lexeme, r⟩, rest⟩
  · rfl
  cases lexeme with
  | punct mark =>
    rw [operator?_cons]
    have hgrip := h (.punct mark) rfl
    cases mark <;> simp_all [BinaryOp.ofPunct?, Lexeme.grip, BinaryOp.level] <;> omega
  | _ => rfl

/-- The loop of a level of operators stops where no operator of the level follows. -/
theorem binaryRest_stops {level : Nat} {rest : List Token} (h : Follows (2 + level) rest)
    (m : Nat) (e : Expr) : binaryRest m level e o rest = .ok (e, rest) := by
  cases m with
  | zero => rfl
  | succ m =>
    rw [binaryRest, bind_apply, get_apply]
    dsimp only
    rw [operator?_eq_none h (Nat.le_refl _)]
    rfl

/-- The loop of `??`s stops where none follows. -/
theorem coalesceRest_stops {rest : List Token} (h : Follows 9 rest) (m : Nat) (e : Expr) :
    coalesceRest m e o rest = .ok (e, rest) := by
  cases m with
  | zero => rfl
  | succ m =>
    rw [coalesceRest, bind_apply, skip_of_ne (h.ne _ rfl (by decide))]
    rfl

/-- The chain stops where no access follows. -/
theorem chain_stops {rest : List Token} (h : Follows 12 rest) (m : Nat) (e : Expr) :
    chain m e o rest = .ok (e, rest) := by
  cases m with
  | zero => rfl
  | succ m =>
    obtain ⟨location, hl⟩ := here_apply o rest
    have hdot : skip .dot o rest = .ok (false, rest) := skip_of_ne (h.ne _ rfl (by decide))
    have hbracket : skip .lbracket o rest = .ok (false, rest) := skip_of_ne (h.ne _ rfl (by decide))
    rw [chain]
    simp only [bind_apply, hl, hdot, hbracket, Bool.false_eq_true, if_false, pure_apply]

/-- A loop ends where no token grips the operand at its level. -/
theorem Level.loop_stops {level : Level} {rest : List Token} (h : Follows level.rank rest)
    (m : Nat) (e : Expr) : level.loop m e o rest = .ok (e, rest) := by
  cases level with
  | binary level => exact binaryRest_stops (h.mono (by simp only [rank]; omega)) m e
  | coalesce => exact coalesceRest_stops h m e
  | member => exact chain_stops h m e
  | _ => rfl

/-- The limit of a level is not below its rank. -/
theorem Level.rank_le_limit (level : Level) : level.rank ≤ level.limit := by
  cases level with
  | binary level =>
    simp only [rank, limit]
    omega
  | _ => decide

/-- The whole operand is read if nothing behind it grips it. -/
theorem Level.Reads.complete {level : Level} {e : Expr} {ts rest : List Token} {n : Nat}
    (h : level.Reads o e ts) (hn : 16 * ts.length + level.cost ≤ n)
    (hf : Follows level.rank rest) (hr : level.rank ≤ 12) :
    level.parser n o (ts ++ rest) = .ok (e, rest) := by
  obtain ⟨m, -, hm⟩ := h n rest hn (hf.mono level.rank_le_limit) (endsName_of_follows (hf.mono hr))
  rw [hm, Level.loop_stops hf]

/-- What an expression parser does with the tokens of an expression, up to a closing mark or a
separator. -/
theorem Level.Reads.expr {e : Expr} {ts : List Token} {n : Nat}
    (h : Level.assignment.Reads o e ts) (rest : List Token) (hn : 16 * ts.length + 14 ≤ n)
    (hf : Follows 0 rest) :
    expr n o (ts ++ rest) = .ok (e, rest) :=
  h.complete hn hf (by decide)

/-! ### Expressions that are no assignment -/

/-- Tokens that do not begin like an assignment: behind a name comes no `=`, also not if an index
stands in between. -/
def Lead (o : Origin) (ts : List Token) : Prop :=
  ∀ x r t tail, ts = ⟨.name x, r⟩ :: t :: tail → t.lexeme ≠ .punct .assign ∧
    (t.lexeme = .punct .lbracket → ∃ key us r' more, tail = us ++ ⟨.punct .rbracket, r'⟩ :: more ∧
      Level.assignment.Reads o key us ∧ nextLexeme more ≠ some (.punct .assign))

/-- Tokens that begin with no name are no assignment. -/
theorem lead_of_head {t : Token} {tail : List Token} (h : ∀ x, t.lexeme ≠ .name x) :
    Lead o (t :: tail) := by
  intro x r t' tail' heq
  obtain ⟨rfl, -⟩ := List.cons_eq_cons.1 heq
  exact absurd rfl (h x)

/-- Nor are those with neither an equals sign nor a bracket behind the name. -/
theorem lead_of_second {x : String} {r : Nat} {tail : List Token}
    (ha : nextLexeme tail ≠ some (.punct .assign))
    (hb : nextLexeme tail ≠ some (.punct .lbracket)) : Lead o (⟨.name x, r⟩ :: tail) := by
  intro x' r' t tail' heq
  obtain ⟨-, rfl⟩ := List.cons_eq_cons.1 heq
  exact ⟨fun h => ha (congrArg some h), fun h => absurd (congrArg some h) hb⟩

/-- An operand goes on with something else than a `=`; it may go on with an index. -/
theorem Lead.append {ts : List Token} {t : Token} {us : List Token} (h : Lead o ts) (hts : ts ≠ [])
    (ht : t.lexeme ≠ .punct .assign)
    (hb : t.lexeme = .punct .lbracket → ∃ key vs r' more,
      us = vs ++ ⟨.punct .rbracket, r'⟩ :: more ∧ Level.assignment.Reads o key vs ∧
        nextLexeme more ≠ some (.punct .assign)) :
    Lead o (ts ++ t :: us) := by
  intro x r t' tail heq
  -- Whether the second token belongs to the operand or is the one behind it.
  match ts, hts with
  | [first], _ =>
    obtain ⟨rfl, rfl, rfl⟩ : first = ⟨.name x, r⟩ ∧ t = t' ∧ us = tail := by simpa using heq
    exact ⟨ht, hb⟩
  | first :: second :: others, _ =>
    obtain ⟨rfl, rfl, rfl⟩ : first = ⟨.name x, r⟩ ∧ second = t' ∧ others ++ t :: us = tail := by
      simpa using heq
    obtain ⟨ha, hk⟩ := h x r second others rfl
    refine ⟨ha, fun hb' => ?_⟩
    obtain ⟨key, vs, r', more, rfl, hkey, hmore⟩ := hk hb'
    refine ⟨key, vs, r', more ++ t :: us, by simp, hkey, ?_⟩
    cases more with
    | nil => simpa using ht
    | cons => exact hmore

/-- What is neither an assignment nor looks like one is read as a ternary operator. -/
theorem expr_of_not_target {n : Nat} {ts : List Token}
    (ha : ∀ x r r' tail, ts ≠ ⟨.name x, r⟩ :: ⟨.punct .assign, r'⟩ :: tail)
    (hb : ∀ x r r' tail, ts ≠ ⟨.name x, r⟩ :: ⟨.punct .lbracket, r'⟩ :: tail) :
    expr (n + 1) o ts = ternary n o ts := by
  obtain ⟨location, hl⟩ := here_apply o ts
  rw [expr, bind_apply, get_apply]
  simp only [bind_apply, hl]

/-- An index that no `=` follows makes no target: the operand is read from the start. -/
theorem expr_of_index {n : Nat} {x : String} {r r' r'' : Nat} {us rest : List Token} {key : Expr}
    (hkey : Level.assignment.Reads o key us) (hn : 16 * us.length + 14 ≤ n)
    (hrest : nextLexeme rest ≠ some (.punct .assign)) :
    expr (n + 1) o
        (⟨.name x, r⟩ :: ⟨.punct .lbracket, r'⟩ :: (us ++ ⟨.punct .rbracket, r''⟩ :: rest)) =
      ternary n o
        (⟨.name x, r⟩ :: ⟨.punct .lbracket, r'⟩ :: (us ++ ⟨.punct .rbracket, r''⟩ :: rest)) := by
  have hread := hkey.expr (⟨.punct .rbracket, r''⟩ :: rest) hn
    (follows_cons (by simp [Lexeme.grip]))
  rw [expr]
  simp only [bind_apply, get_apply, here_apply_cons, set_apply, hread, expect_cons,
    skip_of_ne hrest, Bool.false_eq_true, if_false]

/-- **The second reading of an operand.** Tokens that do not begin like an assignment are left to
the parser of the next level. -/
theorem expr_of_lead {n : Nat} {ts rest : List Token} (h : Lead o ts) (hts : ts ≠ [])
    (hn : 16 * ts.length ≤ n) (hf : Follows 0 rest) :
    expr (n + 1) o (ts ++ rest) = ternary n o (ts ++ rest) := by
  have ha : nextLexeme rest ≠ some (.punct .assign) := hf.ne _ rfl (by decide)
  have hb : nextLexeme rest ≠ some (.punct .lbracket) := hf.ne _ rfl (by decide)
  match ts, hts with
  | [first], _ =>
    refine expr_of_not_target ?_ ?_
    · rintro x r r' tail heq
      obtain ⟨-, rfl⟩ : first = _ ∧ rest = _ := by simpa using heq
      exact ha rfl
    · rintro x r r' tail heq
      obtain ⟨-, rfl⟩ : first = _ ∧ rest = _ := by simpa using heq
      exact hb rfl
  | first :: second :: others, _ =>
    -- Only the front of an index is read as a target at first.
    by_cases hindex : ∃ x r r', first = ⟨.name x, r⟩ ∧ second = ⟨.punct .lbracket, r'⟩
    · obtain ⟨x, r, r', rfl, rfl⟩ := hindex
      obtain ⟨key, us, r'', more, rfl, hkey, hmore⟩ := (h x r _ _ rfl).2 rfl
      have hnext : nextLexeme (more ++ rest) ≠ some (.punct .assign) := by
        cases more with
        | nil => exact ha
        | cons => exact hmore
      simp only [List.length_cons, List.length_append] at hn
      simpa using expr_of_index hkey (by omega) hnext
    · refine expr_of_not_target ?_ ?_
      · rintro x r r' tail heq
        obtain ⟨rfl, rfl, -⟩ : first = _ ∧ second = _ ∧ others ++ rest = _ := by simpa using heq
        exact (h x r _ _ rfl).1 rfl
      · rintro x r r' tail heq
        obtain ⟨rfl, rfl, -⟩ : first = _ ∧ second = _ ∧ others ++ rest = _ := by simpa using heq
        exact hindex ⟨x, r, r', rfl, rfl⟩

/-! ### From a level to the next looser one -/

/-- What is read as a ternary operator is read as an assignment, unless it begins like one. -/
theorem reads_assignment {e : Expr} {ts : List Token} (h : Level.ternary.Reads o e ts)
    (hlead : Lead o ts) (hts : ts ≠ []) : Level.assignment.Reads o e ts := by
  intro n rest hn hf _
  simp only [Level.cost] at hn ⊢
  obtain ⟨n, rfl⟩ := Nat.exists_eq_add_one.2 (by omega : 0 < n)
  refine ⟨n, by omega, ?_⟩
  change expr (n + 1) o (ts ++ rest) = _
  rw [expr_of_lead hlead hts (by omega) hf]
  exact h.complete (by simp only [Level.cost]; omega) (hf.mono (by decide)) (by decide)

/-- What is read with binary operators is read as a ternary operator. -/
theorem reads_ternary {e : Expr} {ts : List Token} (h : (Level.binary 0).Reads o e ts) :
    Level.ternary.Reads o e ts := by
  -- one step of the recursion is taken off, and the rest is enough for the operand
  intro n rest hn hf _
  simp only [Level.cost] at hn ⊢
  obtain ⟨n, rfl⟩ := Nat.exists_eq_add_one.2 (by omega : 0 < n)
  have htest : binary n 0 o (ts ++ rest) = .ok (e, rest) :=
    h.complete (by simp only [Level.cost]; omega) (hf.mono (by decide)) (by decide)
  refine ⟨n, by omega, ?_⟩
  change ternary (n + 1) o (ts ++ rest) = .ok (e, rest)
  rw [ternary]
  simp only [bind_apply, htest, skip_of_ne (hf.ne (.punct .question) rfl (by decide)),
    Bool.false_eq_true, if_false, pure_apply]

/-- What is read at the next tighter level is read at a level of operators. -/
theorem reads_binary {level : Nat} {e : Expr} {ts : List Token}
    (h : (Level.binary level).tighter.Reads o e ts) : (Level.binary level).Reads o e ts := by
  intro n rest hn hf _
  simp only [Level.cost, Level.limit, levels] at hn hf ⊢
  obtain ⟨n, rfl⟩ := Nat.exists_eq_add_one.2 (by omega : 0 < n)
  -- one step is spent on this level, and its loop takes over
  refine ⟨n, by omega, ?_⟩
  change binary (n + 1) level o (ts ++ rest) = binaryRest n level e o rest
  rw [Level.tighter] at h
  split at h
  · -- The next tighter level has binary operators too.
    rename_i hl
    have hleft : binary n (level + 1) o (ts ++ rest) = .ok (e, rest) := by
      simp only [levels] at hl
      refine h.complete ?_ (hf.mono ?_) ?_ <;>
        simp only [Level.cost, Level.rank, levels] <;> omega
    rw [binary]
    simp only [bind_apply, hl, if_true, hleft]
  -- behind the tightest operators come the `??`s
  · rename_i hl
    have hleft : coalesce n o (ts ++ rest) = .ok (e, rest) := by
      simp only [levels] at hl
      refine h.complete ?_ (hf.mono ?_) ?_ <;> simp only [Level.cost, Level.rank] <;> omega
    rw [binary]
    simp only [hl, if_false, hleft]
    exact (binaryRest_stops (hf.mono (by simp only [levels] at hl; omega)) n e).symm

/-- What is read as an operand is read with `??`s. -/
theorem reads_coalesce {e : Expr} {ts : List Token} (h : Level.unary.Reads o e ts) :
    Level.coalesce.Reads o e ts := by
  intro n rest hn hf _
  simp only [Level.cost] at hn ⊢
  obtain ⟨n, rfl⟩ := Nat.exists_eq_add_one.2 (by omega : 0 < n)
  have hleft : unary n o (ts ++ rest) = .ok (e, rest) :=
    h.complete (by simp only [Level.cost]; omega) hf (by decide)
  -- the loop of `??`s goes on where the operand ends
  refine ⟨n, by omega, ?_⟩
  change coalesce (n + 1) o (ts ++ rest) = coalesceRest n e o rest
  rw [coalesce]
  simp only [bind_apply, hleft]

/-- Without an operator in front, the operand is left to the next level. -/
theorem unary_of_operand {n : Nat} {t : Token} {tail : List Token}
    (h : t.lexeme.isUnaryOp = false) : unary (n + 1) o (t :: tail) = postfixed n o (t :: tail) := by
  obtain ⟨lexeme, r⟩ := t
  rw [unary]
  simp only [bind_apply, here_apply_cons, peek_apply, nextLexeme_cons]
  cases lexeme with
  | punct mark => cases mark <;> first | rfl | simp [Lexeme.isUnaryOp, sign?, step?] at h
  | _ => rfl

/-- What is read with steps is read with signs, if no sign begins it. -/
theorem reads_unary {e : Expr} {ts : List Token} (h : Level.postfixed.Reads o e ts)
    (hb : Phrase.Begins (.expr .postfixed e) ts) : Level.unary.Reads o e ts := by
  intro n rest hn hf _
  simp only [Level.cost] at hn ⊢
  obtain ⟨n, rfl⟩ := Nat.exists_eq_add_one.2 (by omega : 0 < n)
  refine ⟨n, by omega, ?_⟩
  have hoperand : postfixed n o (ts ++ rest) = .ok (e, rest) :=
    h.complete (by simp only [Level.cost]; omega) (hf.mono (by decide)) (by decide)
  -- a phrase that begins with no sign is passed on to the level of steps
  obtain ⟨t, tail, rfl, -, hunary⟩ := hb
  change unary (n + 1) o (t :: (tail ++ rest)) = .ok (e, rest)
  rw [unary_of_operand (hunary (by decide))]
  exact hoperand

/-- No step follows where it may not. -/
theorem step?_eq_none {rank : Nat} {rest : List Token} (h : Follows rank rest) (hr : rank ≤ 11) :
    ∀ lexeme ∈ nextLexeme rest, step? lexeme = none := by
  intro lexeme hl
  have hgrip := h lexeme hl
  cases lexeme with
  | punct mark => cases mark <;> simp_all [step?, Lexeme.grip] <;> omega
  | _ => rfl

/-- What is read as a member is read with steps. -/
theorem reads_postfixed {e : Expr} {ts : List Token} (h : Level.member.Reads o e ts) :
    Level.postfixed.Reads o e ts := by
  intro n rest hn hf _
  simp only [Level.cost] at hn ⊢
  obtain ⟨n, rfl⟩ := Nat.exists_eq_add_one.2 (by omega : 0 < n)
  have hoperand : member n o (ts ++ rest) = .ok (e, rest) :=
    h.complete (by simp only [Level.cost]; omega) (hf.mono (by decide)) (by decide)
  obtain ⟨location, hl⟩ := here_apply o (ts ++ rest)
  have hstep := step?_eq_none hf (by decide)
  refine ⟨n, by omega, ?_⟩
  change postfixed (n + 1) o (ts ++ rest) = .ok (e, rest)
  rw [postfixed]
  simp only [bind_apply, hl, hoperand, peek_apply]
  -- the token behind the operand is no step
  cases hnext : nextLexeme rest with
  | none => rfl
  | some lexeme =>
    dsimp only
    rw [hstep lexeme hnext]
    rfl

/-- Tokens that begin neither with a namespace nor with a call are a primary expression and its
chain. -/
theorem member_of_primary {n : Nat} {ts : List Token} (hs : namespace? ts = none)
    (hc : ∀ x r r' tail, ts ≠ ⟨.name x, r⟩ :: ⟨.punct .lparen, r'⟩ :: tail) :
    member (n + 1) o ts = (primary n >>= chain n) o ts := by
  obtain ⟨location, hl⟩ := here_apply o ts
  rw [member]
  simp only [bind_apply, hl, get_apply, hs]

/-- No namespace begins with anything but a name. -/
theorem namespace?_of_head {t : Token} {tail : List Token}
    (h : ∀ x, t.lexeme ≠ .name x) : namespace? (t :: tail) = none := by
  rw [namespace?]
  · rintro x r r' rest ⟨⟩
    exact h x rfl
  · rintro x r r' rest ⟨⟩
    exact h x rfl

/-- What is read as a primary is read as a member, if it is a name or begins with none. -/
theorem reads_member {e : Expr} {ts : List Token} (h : Level.primary.Reads o e ts)
    (hb : (∃ x r, ts = [⟨.name x, r⟩] ∧ e = .var x) ∨
      ∃ t tail, ts = t :: tail ∧ ∀ x, t.lexeme ≠ .name x) : Level.member.Reads o e ts := by
  intro n rest hn hf hname
  simp only [Level.cost] at hn ⊢
  obtain ⟨n, rfl⟩ := Nat.exists_eq_add_one.2 (by omega : 0 < n)
  have hprimary : primary n o (ts ++ rest) = .ok (e, rest) := by
    obtain ⟨m, -, hm⟩ := h n rest (by simp only [Level.cost]; omega)
      (hf.mono (by decide)) hname
    exact hm
  refine ⟨n, by omega, ?_⟩
  change member (n + 1) o (ts ++ rest) = chain n e o rest
  rw [member_of_primary]
  -- the primary is read as such if neither a namespace nor a call begins here
  · simp only [bind_apply, hprimary]
  · rcases hb with ⟨x, r, rfl, -⟩ | ⟨t, tail, rfl, ht⟩
    · exact hname x r
    · exact namespace?_of_head ht
  · rintro x r r' tail heq
    rcases hb with ⟨x', r'', rfl, -⟩ | ⟨t, tail', rfl, ht⟩
    · obtain ⟨-, rfl⟩ := List.cons_eq_cons.1 heq
      exact hf.ne (.punct .lparen) rfl (Nat.le_refl _) rfl
    · obtain ⟨rfl, -⟩ := List.cons_eq_cons.1 heq
      exact ht x rfl

end Stencil
