import Stencil.Proofs.Expr.Levels

/-!
# The parsers of phrases

One statement for every form of phrase: when the parsers read its parts, they read the whole. The
statements about expressions are statements about the parser of their level (`Level.Reads`), and
three more predicates say what it is to read a part of an expression: `ItemsRead`,
`ArgumentsRead` and `EntriesRead`.

In chains, in `??` and between binary operators, the left operand is what a loop has read so far.
-/

namespace Stencil

open Parse

variable {o : Origin}

/-! ### Lists of expressions -/

/-- What the parsers of lists do with items that have a comma in front of each, up to a closing
mark: behind an expression, and in a list literal. -/
structure ItemsRead (o : Origin) (es : List Expr) (ts : List Token) : Prop where
  begins : ts = [] ∨ ∃ r tail, ts = ⟨.punct .comma, r⟩ :: tail
  moreItems : ∀ n rest, 16 * ts.length + 1 ≤ n → Follows 0 rest →
    nextLexeme rest ≠ some (.punct .comma) → moreItems n o (ts ++ rest) = .ok (es, rest)
  exprs : ∀ n first toks rest, 16 * ts.length + 1 ≤ n → Follows 0 rest →
    nextLexeme rest ≠ some (.punct .comma) → expr n o toks = .ok (first, ts ++ rest) →
      exprs (n + 1) o toks = .ok (first :: es, rest)

/-- Items go on with a comma, which has no grip on what is in front of them. -/
theorem ItemsRead.follows {es : List Expr} {ts rest : List Token} (h : ItemsRead o es ts)
    (hf : Follows 0 rest) : Follows 0 (ts ++ rest) := by
  rcases h.begins with rfl | ⟨r, tail, rfl⟩
  · exact hf
  · exact follows_cons (by simp [Lexeme.grip])

/-- There are no items in front of a closing mark. -/
theorem itemsRead_nil : ItemsRead o [] [] where
  begins := .inl rfl
  moreItems := by
    intro n rest hn _ hc
    -- a closing mark ends the items at once
    obtain ⟨n, rfl⟩ := Nat.exists_eq_add_one.2 (by omega : 0 < n)
    rw [List.nil_append, Parse.moreItems, bind_apply, skip_of_ne hc]
    rfl
  exprs := by
    intro n first toks rest _ _ hc hfirst
    rw [Parse.exprs]
    simp only [bind_apply, hfirst, List.nil_append, skip_of_ne hc, Bool.false_eq_true, if_false,
      pure_apply]

/-- One item more, behind a comma. -/
theorem itemsRead_cons {e : Expr} {es : List Expr} {ts us : List Token} (r : Nat)
    (he : Level.assignment.Reads o e ts) (hes : ItemsRead o es us) :
    ItemsRead o (e :: es) (⟨.punct .comma, r⟩ :: (ts ++ us)) where
  begins := .inr ⟨_, _, rfl⟩
  moreItems := by
    intro n rest hn hf hc
    simp only [List.length_cons, List.length_append] at hn
    obtain ⟨n, rfl⟩ := Nat.exists_eq_add_one.2 (by omega : 0 < n)
    -- the first item is read up to the comma, and the items behind it with the rest of the fuel
    have hitem := he.expr (n := n) _ (by omega) (hes.follows hf)
    have hrest := hes.moreItems n rest (by omega) hf hc
    rw [List.cons_append, List.append_assoc, Parse.moreItems]
    simp only [bind_apply, skip_cons, if_true, hitem, hrest, pure_apply]
  exprs := by
    intro n first toks rest hn hf hc hfirst
    simp only [List.length_cons, List.length_append] at hn
    obtain ⟨n, rfl⟩ := Nat.exists_eq_add_one.2 (by omega : 0 < n)
    have hitem := he.expr (n := n) _ (by omega) (hes.follows hf)
    have hrest := hes.exprs n e (ts ++ (us ++ rest)) rest (by omega) hf hc hitem
    rw [List.cons_append, List.append_assoc] at hfirst
    rw [Parse.exprs]
    simp only [bind_apply, hfirst, skip_cons, if_true, hrest, pure_apply]

/-- What the parser of arguments does with their tokens, whatever follows. -/
def ArgumentsRead (o : Origin) (es : List Expr) (ts : List Token) : Prop :=
  ∀ n rest, 16 * ts.length ≤ n → arguments n o (ts ++ rest) = .ok (es, rest)

/-- No arguments between the parentheses. -/
theorem argumentsRead_nil (r r' : Nat) :
    ArgumentsRead o [] [⟨.punct .lparen, r⟩, ⟨.punct .rparen, r'⟩] := by
  intro n rest hn
  simp only [List.length_cons, List.length_nil] at hn
  obtain ⟨n, rfl⟩ : ∃ k, n = k + 2 := ⟨n - 2, by omega⟩
  simp only [List.cons_append, List.nil_append, arguments, exprsBefore, bind_apply, expect_cons,
    nextIs_cons, if_true, pure_apply]

/-- A phrase that is an expression does not begin with a closing mark. -/
theorem Phrase.Begins.ne {level : Level} {e : Expr} {ts : List Token} {mark : Punct}
    (h : Phrase.Begins (.expr level e) ts) (rest : List Token)
    (hm : (Lexeme.punct mark).startsOperand = false) (hs : sign? (.punct mark) = none) :
    nextLexeme (ts ++ rest) ≠ some (.punct mark) := by
  obtain ⟨t, tail, rfl, hstart, -⟩ := h
  intro heq
  rw [show t.lexeme = .punct mark from Option.some.inj heq, hm, hs] at hstart
  simp at hstart

/-- One argument, and the items behind it. -/
theorem argumentsRead_cons {level : Level} {e : Expr} {es : List Expr} {ts us : List Token}
    (r r' : Nat) (hb : Phrase.Begins (.expr level e) ts) (he : Level.assignment.Reads o e ts)
    (hes : ItemsRead o es us) :
    ArgumentsRead o (e :: es)
      (⟨.punct .lparen, r⟩ :: (ts ++ us ++ [⟨.punct .rparen, r'⟩])) := by
  intro n rest hn
  simp only [List.length_cons, List.length_append, List.length_nil] at hn
  obtain ⟨n, rfl⟩ : ∃ k, n = k + 3 := ⟨n - 3, by omega⟩
  have hf : Follows 0 (⟨.punct .rparen, r'⟩ :: rest) := follows_cons (by simp [Lexeme.grip])
  -- what follows an argument is a comma or the parenthesis
  have hfirst := he.expr (n := n) _ (by omega) (hes.follows hf)
  have hlist := hes.exprs n e _ _ (by omega) hf (by simp) hfirst
  have hopen := nextIs_of_ne (o := o) (m := .rparen)
    (hb.ne (us ++ ⟨.punct .rparen, r'⟩ :: rest) rfl rfl)
  simp only [List.cons_append, List.append_assoc, List.nil_append, arguments, exprsBefore,
    bind_apply, expect_cons, hopen, Bool.false_eq_true, if_false, hlist, pure_apply]

/-! ### Maps -/

/-- What the parser of map entries does with their tokens, up to the closing mark. -/
def EntriesRead (o : Origin) (keys : List String) (values : List Expr) (ts : List Token) : Prop :=
  ∀ n rest, 16 * ts.length ≤ n → Follows 0 rest → nextLexeme rest ≠ some (.punct .comma) →
    entries n o (ts ++ rest) = .ok ((keys, values), rest)

/-- A map of one entry. -/
theorem entriesRead_single {lexeme : Lexeme} {key : String} {value : Expr} {ts : List Token}
    (r r' : Nat) (hkey : mapKey? lexeme = some key) (hv : Level.assignment.Reads o value ts) :
    EntriesRead o [key] [value] (⟨lexeme, r⟩ :: ⟨.punct .colon, r'⟩ :: ts) := by
  intro n rest hn hf hc
  simp only [List.length_cons] at hn
  obtain ⟨n, rfl⟩ := Nat.exists_eq_add_one.2 (by omega : 0 < n)
  have hvalue := hv.expr (n := n) rest (by omega) hf
  have hcolon : (Lexeme.punct .colon).continues = false := rfl
  simp only [List.cons_append, entries, bind_apply, peek_apply, drop_apply, nextLexeme_cons,
    List.tail_cons, hkey, hcolon, Bool.false_eq_true, if_false, pure_apply, expect_cons, hvalue,
    skip_of_ne hc]

/-- One entry more, with a comma behind it. -/
theorem entriesRead_cons {lexeme : Lexeme} {key : String} {keys : List String} {value : Expr}
    {values : List Expr} {ts us : List Token} (r r' r'' : Nat) (hkey : mapKey? lexeme = some key)
    (hv : Level.assignment.Reads o value ts) (hrest : EntriesRead o keys values us) :
    EntriesRead o (key :: keys) (value :: values)
      (⟨lexeme, r⟩ :: ⟨.punct .colon, r'⟩ :: (ts ++ ⟨.punct .comma, r''⟩ :: us)) := by
  intro n rest hn hf hc
  simp only [List.length_cons, List.length_append] at hn
  obtain ⟨n, rfl⟩ := Nat.exists_eq_add_one.2 (by omega : 0 < n)
  have hvalue := hv.expr (n := n) (⟨.punct .comma, r''⟩ :: (us ++ rest)) (by omega)
    (follows_cons (by simp [Lexeme.grip]))
  -- a colon does not go on with the key
  have hcolon : (Lexeme.punct .colon).continues = false := rfl
  simp only [List.cons_append, List.append_assoc, entries, bind_apply, peek_apply, drop_apply,
    nextLexeme_cons, List.tail_cons, hkey, hcolon, Bool.false_eq_true, if_false, if_true,
    pure_apply, expect_cons, hvalue, skip_cons, hrest n rest (by omega) hf hc]

/-! ### Primary expressions -/

/-- The parser of primary expressions has no loop. -/
theorem reads_primary {e : Expr} {ts : List Token}
    (h : ∀ n rest, 16 * ts.length ≤ n → primary (n + 1) o (ts ++ rest) = .ok (e, rest)) :
    Level.primary.Reads o e ts := by
  intro n rest hn _ _
  simp only [Level.cost] at hn ⊢
  obtain ⟨n, rfl⟩ := Nat.exists_eq_add_one.2 (by omega : 0 < n)
  exact ⟨n, by omega, h n rest (by omega)⟩

/-- A group is read as what it is around. -/
theorem reads_group {e : Expr} {ts : List Token} (r r' : Nat)
    (he : Level.assignment.Reads o e ts) :
    Level.primary.Reads o e (⟨.punct .lparen, r⟩ :: (ts ++ [⟨.punct .rparen, r'⟩])) := by
  refine reads_primary fun n rest hn => ?_
  simp only [List.length_cons, List.length_append, List.length_nil] at hn
  have hinner := he.expr (n := n) (⟨.punct .rparen, r'⟩ :: rest) (by omega)
    (follows_cons (by simp [Lexeme.grip]))
  simp only [List.cons_append, List.append_assoc, List.nil_append, primary, bind_apply,
    here_apply_cons, peek_apply, nextLexeme_cons, drop_apply, List.tail_cons, hinner, expect_cons,
    pure_apply]

/-- A map literal is read by reading its entries. -/
theorem reads_map {keys : List String} {values : List Expr} {ts : List Token} (r r' : Nat)
    (hb : Phrase.Begins (.entries keys values) ts) (he : EntriesRead o keys values ts) :
    Level.primary.Reads o (.map keys values)
      (⟨.punct .lbrace, r⟩ :: (ts ++ [⟨.punct .rbrace, r'⟩])) := by
  refine reads_primary fun n rest hn => ?_
  simp only [List.length_cons, List.length_append, List.length_nil] at hn
  have hentries := he n (⟨.punct .rbrace, r'⟩ :: rest) (by omega)
    (follows_cons (by simp [Lexeme.grip])) (by simp)
  -- the first entry begins with a key, so the map does not close at once
  have hopen : skip .rbrace o (ts ++ ⟨.punct .rbrace, r'⟩ :: rest) =
      .ok (false, ts ++ ⟨.punct .rbrace, r'⟩ :: rest) := by
    obtain ⟨t, tail, rfl, hkey⟩ := hb
    refine skip_of_ne fun heq => ?_
    rw [show t.lexeme = .punct .rbrace from Option.some.inj heq] at hkey
    simp [mapKey?] at hkey
  simp only [List.cons_append, List.append_assoc, List.nil_append, primary, bind_apply,
    here_apply_cons, peek_apply, nextLexeme_cons, drop_apply, List.tail_cons, hopen,
    Bool.false_eq_true, if_false, hentries, expect_cons, pure_apply]

/-- A list literal is read by reading its first item and those behind it. -/
theorem reads_list {level : Level} {first : Expr} {rest : List Expr} {ts us : List Token}
    (r r' : Nat) (hb : Phrase.Begins (.expr level first) ts)
    (he : Level.assignment.Reads o first ts) (hes : ItemsRead o rest us) :
    Level.primary.Reads o (.list (first :: rest))
      (⟨.punct .lbracket, r⟩ :: (ts ++ us ++ [⟨.punct .rbracket, r'⟩])) := by
  refine reads_primary fun n tail hn => ?_
  simp only [List.length_cons, List.length_append, List.length_nil] at hn
  have hf : Follows 0 (⟨.punct .rbracket, r'⟩ :: tail) := follows_cons (by simp [Lexeme.grip])
  have hfirst := he.expr (n := n) _ (by omega) (hes.follows hf)
  have hitems := hes.moreItems n _ (by omega) hf (by simp)
  have hopen := skip_of_ne (o := o) (m := .rbracket)
    (hb.ne (us ++ ⟨.punct .rbracket, r'⟩ :: tail) rfl rfl)
  -- the first item is followed by a comma or by the bracket, so the list is no range
  have hrange : skip .range o (us ++ ⟨.punct .rbracket, r'⟩ :: tail) =
      .ok (false, us ++ ⟨.punct .rbracket, r'⟩ :: tail) := by
    rcases hes.begins with rfl | ⟨r'', us, rfl⟩ <;> exact skip_of_ne (by simp)
  simp only [List.cons_append, List.append_assoc, List.nil_append, primary, bind_apply,
    here_apply_cons, peek_apply, nextLexeme_cons, drop_apply, List.tail_cons, hopen,
    Bool.false_eq_true, if_false, hfirst, hrange, hitems, expect_cons, pure_apply]

/-- A range is read by reading its two ends. -/
theorem reads_range {level : Level} {first last : Expr} {ts us : List Token} (r r' r'' : Nat)
    (hb : Phrase.Begins (.expr level first) ts) (hfirst : Level.assignment.Reads o first ts)
    (hlast : Level.assignment.Reads o last us) :
    Level.primary.Reads o (.range first last ⟨o.file, r⟩)
      (⟨.punct .lbracket, r⟩ :: (ts ++ ⟨.punct .range, r'⟩ :: (us ++ [⟨.punct .rbracket, r''⟩]))) := by
  refine reads_primary fun n rest hn => ?_
  simp only [List.length_cons, List.length_append, List.length_nil] at hn
  -- in front of the range mark, and behind it
  have hleft := hfirst.expr (n := n)
    (⟨.punct .range, r'⟩ :: (us ++ ⟨.punct .rbracket, r''⟩ :: rest)) (by omega)
    (follows_cons (by simp [Lexeme.grip]))
  have hright := hlast.expr (n := n) (⟨.punct .rbracket, r''⟩ :: rest) (by omega)
    (follows_cons (by simp [Lexeme.grip]))
  have hopen := skip_of_ne (o := o) (m := .rbracket)
    (hb.ne (⟨.punct .range, r'⟩ :: (us ++ ⟨.punct .rbracket, r''⟩ :: rest)) rfl rfl)
  simp only [List.cons_append, List.append_assoc, List.nil_append, primary, bind_apply,
    here_apply_cons, peek_apply, nextLexeme_cons, drop_apply, List.tail_cons, hopen,
    Bool.false_eq_true, if_false, if_true, hleft, skip_cons, hright, expect_cons, pure_apply]

/-! ### Members, calls and chains -/

/-- Names with points between them, in front of a double colon, are a namespace. -/
theorem SpellsNamespace.namespace?_eq {space : String} {r : Nat} {ts : List Token}
    (h : SpellsNamespace space r ts) (r' : Nat) (rest : List Token) :
    Parse.namespace? (ts ++ ⟨.punct .doubleColon, r'⟩ :: rest) =
      some (space, ⟨.punct .doubleColon, r'⟩ :: rest) := by
  induction h with
  | word => rfl
  | dot word r r'' h ih =>
    rw [List.cons_append, List.cons_append, Parse.namespace?, ih]
    rfl

/-- Behind a namespace and a double colon stands a member, with arguments or without. -/
theorem member_of_namespace {n : Nat} {space x : String} {r r' r'' : Nat} {ts : List Token}
    (h : SpellsNamespace space r ts) (rest : List Token) :
    member (n + 1) o (ts ++ ⟨.punct .doubleColon, r'⟩ :: ⟨.name x, r''⟩ :: rest) =
      (do
        if ← nextIs .lparen then
          chain n (.staticCall space x (← arguments n) ⟨o.file, r⟩)
        else chain n (.staticField space x ⟨o.file, r⟩)) o rest := by
  have hspace := h.namespace?_eq r' (⟨.name x, r''⟩ :: rest)
  have hhere : here o (ts ++ ⟨.punct .doubleColon, r'⟩ :: ⟨.name x, r''⟩ :: rest) =
      .ok (⟨o.file, r⟩, ts ++ ⟨.punct .doubleColon, r'⟩ :: ⟨.name x, r''⟩ :: rest) := by
    obtain ⟨y, tail, rfl⟩ := h.begins
    rfl
  rw [member]
  simp only [bind_apply, hhere, get_apply, hspace, set_apply, expect_cons, name_cons]

/-- A field of a namespace. -/
theorem reads_staticField {space : String} {r : Nat} {ts : List Token} (x : String) (r' r'' : Nat)
    (h : SpellsNamespace space r ts) :
    Level.member.Reads o (.staticField space x ⟨o.file, r⟩)
      (ts ++ [⟨.punct .doubleColon, r'⟩, ⟨.name x, r''⟩]) := by
  intro n rest hn hf _
  simp only [Level.cost, List.length_append, List.length_cons] at hn ⊢
  obtain ⟨n, rfl⟩ := Nat.exists_eq_add_one.2 (by omega : 0 < n)
  refine ⟨n, by omega, ?_⟩
  -- without a parenthesis the name is a field
  have hparen := nextIs_of_ne (o := o) (hf.ne (.punct .lparen) rfl (Nat.le_refl _))
  rw [List.append_assoc]
  change member (n + 1) o (ts ++ ⟨.punct .doubleColon, r'⟩ :: ⟨.name x, r''⟩ :: rest) =
    chain n _ o rest
  rw [member_of_namespace h]
  simp only [bind_apply, hparen, Bool.false_eq_true, if_false]

/-- Arguments begin with a parenthesis, also for a parser that only looks at it. -/
theorem Spells.arguments_begin {file : Option String} {args : List Expr} {ts : List Token}
    (h : Spells file (.arguments args) ts) : ∃ r tail, ts = ⟨.punct .lparen, r⟩ :: tail := by
  cases h with
  | noArguments => exact ⟨_, _, rfl⟩
  | arguments => exact ⟨_, _, rfl⟩

/-- A method of a namespace. -/
theorem reads_staticCall {space : String} {r : Nat} {ts us : List Token} {args : List Expr}
    (x : String) (r' r'' : Nat) (h : SpellsNamespace space r ts)
    (hb : ∃ r tail, us = ⟨.punct .lparen, r⟩ :: tail) (hargs : ArgumentsRead o args us) :
    Level.member.Reads o (.staticCall space x args ⟨o.file, r⟩)
      (ts ++ ⟨.punct .doubleColon, r'⟩ :: ⟨.name x, r''⟩ :: us) := by
  intro n rest hn _ _
  simp only [Level.cost, List.length_append, List.length_cons] at hn ⊢
  obtain ⟨n, rfl⟩ := Nat.exists_eq_add_one.2 (by omega : 0 < n)
  refine ⟨n, by omega, ?_⟩
  have hread := hargs n rest (by omega)
  obtain ⟨r₃, tail, rfl⟩ := hb
  rw [List.append_assoc]
  change member (n + 1) o (ts ++ ⟨.punct .doubleColon, r'⟩ :: ⟨.name x, r''⟩ :: _) = chain n _ o rest
  rw [member_of_namespace h]
  rw [List.cons_append] at hread
  simp only [bind_apply, List.append_eq, List.cons_append, nextIs_cons, if_true, hread]

/-- A call by name. -/
theorem reads_call {ts : List Token} {args : List Expr} (x : String) (r : Nat)
    (hb : ∃ r tail, ts = ⟨.punct .lparen, r⟩ :: tail) (hargs : ArgumentsRead o args ts) :
    Level.member.Reads o (.call x args ⟨o.file, r⟩) (⟨.name x, r⟩ :: ts) := by
  intro n rest hn _ _
  simp only [Level.cost, List.length_cons] at hn ⊢
  obtain ⟨n, rfl⟩ := Nat.exists_eq_add_one.2 (by omega : 0 < n)
  refine ⟨n, by omega, ?_⟩
  have hread := hargs n rest (by omega)
  -- the arguments begin with their parenthesis
  obtain ⟨r', tail, rfl⟩ := hb
  rw [List.cons_append] at hread
  change member (n + 1) o (⟨.name x, r⟩ :: ⟨.punct .lparen, r'⟩ :: (tail ++ rest)) = chain n _ o rest
  rw [member]
  simp only [bind_apply, here_apply_cons, get_apply, namespace?, drop_apply, List.tail_cons, hread]

/-- What a chain goes on with does not make a namespace of a name in front of it. -/
theorem endsName_dot {x : String} {r r' : Nat} {rest : List Token} (h : EndsName rest) :
    EndsName (⟨.punct .dot, r⟩ :: ⟨.name x, r'⟩ :: rest) := by
  intro y r''
  rw [namespace?, h x r']
  rfl

/-- A name ends at any mark but these two. -/
theorem endsName_of_mark {mark : Punct} {r : Nat} {rest : List Token} (hd : mark ≠ .dot)
    (hc : mark ≠ .doubleColon) : EndsName (⟨.punct mark, r⟩ :: rest) := by
  intro x r'
  rw [namespace?]
  · rintro _ _ _ _ ⟨⟩
    exact hc rfl
  · rintro _ _ _ _ ⟨⟩
    exact hd rfl

/-- A key in brackets behind a target. -/
theorem reads_index {target key : Expr} {ts us : List Token} (r r' : Nat)
    (ht : Level.member.Reads o target ts) (hk : Level.assignment.Reads o key us) :
    Level.member.Reads o (.index target key ⟨o.file, r⟩)
      (ts ++ ⟨.punct .lbracket, r⟩ :: (us ++ [⟨.punct .rbracket, r'⟩])) := by
  intro n rest hn _ _
  simp only [Level.cost, List.length_append, List.length_cons, List.length_nil] at hn ⊢
  -- the target leaves enough steps for the bracket
  obtain ⟨m, hm, htarget⟩ := ht n (⟨.punct .lbracket, r⟩ :: (us ++ ⟨.punct .rbracket, r'⟩ :: rest))
    (by simp only [Level.cost]; omega) (follows_cons (by simp [Lexeme.grip, Level.limit]))
    (endsName_of_mark (by decide) (by decide))
  simp only [Level.cost] at hm
  obtain ⟨m, rfl⟩ := Nat.exists_eq_add_one.2 (by omega : 0 < m)
  have hkey := hk.expr (n := m) (⟨.punct .rbracket, r'⟩ :: rest) (by omega)
    (follows_cons (by simp [Lexeme.grip]))
  have hdot : skip .dot o (⟨.punct .lbracket, r⟩ :: (us ++ ⟨.punct .rbracket, r'⟩ :: rest)) =
      .ok (false, ⟨.punct .lbracket, r⟩ :: (us ++ ⟨.punct .rbracket, r'⟩ :: rest)) :=
    skip_of_ne (by simp)
  refine ⟨m, by omega, ?_⟩
  simp only [List.append_assoc, List.cons_append, List.nil_append]
  rw [htarget]
  -- the loop of the target goes on with the whole index
  change chain (m + 1) target o _ = chain m _ o rest
  rw [chain]
  simp only [bind_apply, here_apply_cons, hdot, Bool.false_eq_true, if_false, skip_cons, if_true,
    hkey, expect_cons]

/-- A field behind a target. -/
theorem reads_field {target : Expr} {ts : List Token} (x : String) (r r' : Nat)
    (ht : Level.member.Reads o target ts) :
    Level.member.Reads o (.field target x ⟨o.file, r⟩)
      (ts ++ [⟨.punct .dot, r⟩, ⟨.name x, r'⟩]) := by
  intro n rest hn hf hname
  simp only [Level.cost, List.length_append, List.length_cons, List.length_nil] at hn ⊢
  obtain ⟨m, hm, htarget⟩ := ht n (⟨.punct .dot, r⟩ :: ⟨.name x, r'⟩ :: rest)
    (by simp only [Level.cost]; omega) (follows_cons (by simp [Lexeme.grip, Level.limit]))
    (endsName_dot hname)
  simp only [Level.cost] at hm
  obtain ⟨m, rfl⟩ := Nat.exists_eq_add_one.2 (by omega : 0 < m)
  refine ⟨m, by omega, ?_⟩
  -- no parenthesis follows, or it would be a method
  have hparen := nextIs_of_ne (o := o) (hf.ne (.punct .lparen) rfl (Nat.le_refl _))
  simp only [List.append_assoc, List.cons_append, List.nil_append]
  rw [htarget]
  change chain (m + 1) target o _ = chain m _ o rest
  rw [chain]
  simp only [bind_apply, here_apply_cons, skip_cons, if_true, name_cons, hparen,
    Bool.false_eq_true, if_false]

/-- A method behind a target. -/
theorem reads_method {target : Expr} {ts us : List Token} {args : List Expr} (x : String)
    (r r' : Nat) (ht : Level.member.Reads o target ts)
    (hb : ∃ r tail, us = ⟨.punct .lparen, r⟩ :: tail) (hargs : ArgumentsRead o args us) :
    Level.member.Reads o (.method target x args ⟨o.file, r⟩)
      (ts ++ ⟨.punct .dot, r⟩ :: ⟨.name x, r'⟩ :: us) := by
  intro n rest hn _ _
  simp only [Level.cost, List.length_append, List.length_cons] at hn ⊢
  -- the parenthesis is no mark that a name could go on with
  have hname : EndsName (us ++ rest) := by
    obtain ⟨r₂, tail, rfl⟩ := hb
    exact endsName_of_mark (by decide) (by decide)
  obtain ⟨m, hm, htarget⟩ := ht n (⟨.punct .dot, r⟩ :: ⟨.name x, r'⟩ :: (us ++ rest))
    (by simp only [Level.cost]; omega) (follows_cons (by simp [Lexeme.grip, Level.limit]))
    (endsName_dot hname)
  simp only [Level.cost] at hm
  obtain ⟨m, rfl⟩ := Nat.exists_eq_add_one.2 (by omega : 0 < m)
  refine ⟨m, by omega, ?_⟩
  have hread := hargs m rest (by omega)
  obtain ⟨r₂, tail, rfl⟩ := hb
  simp only [List.append_assoc, List.cons_append] at htarget hread ⊢
  rw [htarget]
  change chain (m + 1) target o _ = chain m _ o rest
  rw [chain]
  simp only [bind_apply, here_apply_cons, skip_cons, if_true, name_cons, nextIs_cons, hread]

/-! ### Operators -/

/-- A step behind a variable. -/
theorem reads_stepAfter {lexeme : Lexeme} {step : Step} {x : String} {t : Token}
    {ts : List Token} (r : Nat) (h : step? lexeme = some step)
    (hx : Level.member.Reads o (.var x) (t :: ts)) :
    Level.postfixed.Reads o (.step step false x ⟨o.file, t.row⟩) (t :: (ts ++ [⟨lexeme, r⟩])) := by
  intro n rest hn _ _
  simp only [Level.cost, List.length_cons, List.length_append, List.length_nil] at hn ⊢
  obtain ⟨n, rfl⟩ := Nat.exists_eq_add_one.2 (by omega : 0 < n)
  -- a step has no grip on a member, so the variable is read without it
  have hfollows : Follows 12 (⟨lexeme, r⟩ :: rest) := by
    intro lexeme' hl grip hg
    obtain rfl : lexeme = lexeme' := by simpa using hl
    cases lexeme with
    | punct mark => cases mark <;> simp_all [step?, Lexeme.grip] <;> omega
    | _ => simp [step?] at h
  have hoperand : member n o ((t :: ts) ++ ⟨lexeme, r⟩ :: rest) = .ok (.var x, ⟨lexeme, r⟩ :: rest) :=
    hx.complete (by simp only [Level.cost, List.length_cons]; omega) hfollows (by decide)
  rw [List.cons_append] at hoperand
  refine ⟨n, by omega, ?_⟩
  rw [List.cons_append, List.append_assoc, List.singleton_append]
  change postfixed (n + 1) o (t :: (ts ++ ⟨lexeme, r⟩ :: rest)) = .ok (_, rest)
  rw [postfixed]
  simp only [bind_apply, here_apply_cons, hoperand, peek_apply, nextLexeme_cons, h, drop_apply,
    List.tail_cons, pure_apply]

/-- A step in front of a variable. -/
theorem reads_stepBefore {lexeme : Lexeme} {step : Step} (x : String) (r r' : Nat)
    (h : step? lexeme = some step) :
    Level.unary.Reads o (.step step true x ⟨o.file, r⟩) [⟨lexeme, r⟩, ⟨.name x, r'⟩] := by
  intro n rest hn _ _
  simp only [Level.cost, List.length_cons, List.length_nil] at hn ⊢
  obtain ⟨n, rfl⟩ := Nat.exists_eq_add_one.2 (by omega : 0 < n)
  refine ⟨n, by omega, ?_⟩
  cases lexeme with
  | punct mark => cases mark <;> first | (obtain rfl := Option.some.inj h; rfl) | simp [step?] at h
  | _ => simp [step?] at h

/-- A negation. -/
theorem reads_not {e : Expr} {ts : List Token} (r : Nat) (he : Level.unary.Reads o e ts) :
    Level.unary.Reads o (.not e) (⟨.punct .not, r⟩ :: ts) := by
  intro n rest hn hf _
  simp only [Level.cost, List.length_cons] at hn ⊢
  obtain ⟨n, rfl⟩ := Nat.exists_eq_add_one.2 (by omega : 0 < n)
  have hoperand : unary n o (ts ++ rest) = .ok (e, rest) :=
    he.complete (by simp only [Level.cost]; omega) hf (by decide)
  refine ⟨n, by omega, ?_⟩
  change unary (n + 1) o (⟨.punct .not, r⟩ :: (ts ++ rest)) = .ok (_, rest)
  rw [unary]
  simp only [bind_apply, here_apply_cons, peek_apply, nextLexeme_cons, drop_apply, List.tail_cons,
    hoperand, pure_apply]

/-- A sign in front of an operand. -/
theorem reads_sign {lexeme : Lexeme} {sign : Sign} {e : Expr} {ts : List Token} (r : Nat)
    (h : sign? lexeme = some sign) (he : Level.unary.Reads o e ts) :
    Level.unary.Reads o (.ofSign sign e ⟨o.file, r⟩) (⟨lexeme, r⟩ :: ts) := by
  intro n rest hn hf _
  simp only [Level.cost, List.length_cons] at hn ⊢
  obtain ⟨n, rfl⟩ := Nat.exists_eq_add_one.2 (by omega : 0 < n)
  have hoperand : unary n o (ts ++ rest) = .ok (e, rest) :=
    he.complete (by simp only [Level.cost]; omega) hf (by decide)
  refine ⟨n, by omega, ?_⟩
  change unary (n + 1) o (⟨lexeme, r⟩ :: (ts ++ rest)) = .ok (_, rest)
  -- a sign is neither a negation nor a step
  have hnot : lexeme ≠ .punct .not := by
    rintro rfl
    simp [sign?] at h
  rw [unary]
  simp only [bind_apply, here_apply_cons, peek_apply, nextLexeme_cons, h, drop_apply,
    List.tail_cons, hoperand, pure_apply]

/-- Behind an operand without a tighter grip comes no token that begins another operand. -/
theorem startsOperand_of_follows {rest : List Token} (h : Follows 10 rest) :
    ∀ lexeme ∈ nextLexeme rest, lexeme.startsOperand = false := by
  intro lexeme hl
  have hgrip := h lexeme hl
  cases lexeme with
  | punct mark => cases mark <;> simp_all [Lexeme.startsOperand, Lexeme.grip, BinaryOp.ofPunct?]
  | _ => simp [Lexeme.grip] at hgrip

/-- A `??` that stands alone. -/
theorem reads_quiet {e : Expr} {ts : List Token} (r : Nat) (he : Level.coalesce.Reads o e ts) :
    Level.coalesce.Reads o (.quiet e) (ts ++ [⟨.punct .coalesce, r⟩]) := by
  intro n rest hn hf _
  simp only [Level.cost, List.length_append, List.length_cons, List.length_nil] at hn ⊢
  obtain ⟨m, hm, hleft⟩ := he n (⟨.punct .coalesce, r⟩ :: rest) (by simp only [Level.cost]; omega)
    (follows_cons (by simp [Lexeme.grip, Level.limit])) (endsName_of_mark (by decide) (by decide))
  simp only [Level.cost] at hm
  obtain ⟨m, rfl⟩ := Nat.exists_eq_add_one.2 (by omega : 0 < m)
  refine ⟨m, by omega, ?_⟩
  rw [List.append_assoc, List.singleton_append, hleft]
  change coalesceRest (m + 1) e o _ = coalesceRest m _ o rest
  rw [coalesceRest]
  simp only [bind_apply, skip_cons, if_true, peek_apply]
  -- What follows is no operand, so that the mark stands alone.
  cases hnext : nextLexeme rest with
  | none => rfl
  | some lexeme =>
    have hstart := startsOperand_of_follows hf lexeme hnext
    simp only [hstart, Bool.false_eq_true, if_false]

/-- A `??` with an operand behind it, which begins with no sign. -/
theorem reads_coalesce_operands {e fallback : Expr} {ts us : List Token} (r : Nat)
    (he : Level.coalesce.Reads o e ts) (hfallback : Level.unary.Reads o fallback us)
    (hus : us ≠ []) (hstart : ∀ t ∈ us.head?, t.lexeme.startsOperand = true) :
    Level.coalesce.Reads o (.coalesce e fallback) (ts ++ ⟨.punct .coalesce, r⟩ :: us) := by
  intro n rest hn hf _
  simp only [Level.cost, List.length_append, List.length_cons] at hn ⊢
  obtain ⟨m, hm, hleft⟩ := he n (⟨.punct .coalesce, r⟩ :: (us ++ rest))
    (by simp only [Level.cost]; omega) (follows_cons (by simp [Lexeme.grip, Level.limit]))
    (endsName_of_mark (by decide) (by decide))
  simp only [Level.cost] at hm
  obtain ⟨m, rfl⟩ := Nat.exists_eq_add_one.2 (by omega : 0 < m)
  have hright : unary m o (us ++ rest) = .ok (fallback, rest) :=
    hfallback.complete (by simp only [Level.cost]; omega) hf (by decide)
  refine ⟨m, by omega, ?_⟩
  rw [List.append_assoc, List.cons_append, hleft]
  change coalesceRest (m + 1) e o _ = coalesceRest m _ o rest
  -- the operand begins with a token that may start one, so the mark does not stand alone
  obtain ⟨t, tail, rfl⟩ := List.exists_cons_of_ne_nil hus
  rw [List.cons_append] at hright
  rw [coalesceRest]
  simp only [bind_apply, skip_cons, if_true, peek_apply, List.cons_append, nextLexeme_cons,
    hstart t rfl, hright]

theorem grip_of_ofPunct? {mark : Punct} {op : BinaryOp} (h : BinaryOp.ofPunct? mark = some op) :
    (Lexeme.punct mark).grip = some (2 + op.level) := by
  cases mark <;> simp_all [BinaryOp.ofPunct?, Lexeme.grip]

/-- **A binary operator.** Its left operand is what the loop has read so far. -/
theorem reads_operands {op : BinaryOp} {mark : Punct} {left right : Expr} {ts us : List Token}
    (r : Nat) (hop : BinaryOp.ofPunct? mark = some op)
    (hl : (Level.binary op.level).Reads o left ts)
    (hr : (Level.binary (op.level + 1)).Reads o right us) :
    (Level.binary op.level).Reads o (op.build left right ⟨o.file, r⟩)
      (ts ++ ⟨.punct mark, r⟩ :: us) := by
  intro n rest hn hf _
  have hlevel := op.level_lt
  have hgrip := grip_of_ofPunct? hop
  simp only [Level.cost, Level.limit, levels, List.length_append, List.length_cons] at hn hf hlevel ⊢
  obtain ⟨m, hm, hleft⟩ := hl n (⟨.punct mark, r⟩ :: (us ++ rest))
    (by simp only [Level.cost, levels]; omega)
    (follows_cons (by
      intro grip hg
      obtain rfl := Option.some.inj (hgrip.symm.trans hg)
      simp only [Level.limit, levels]
      omega))
    (endsName_of_mark (by rintro rfl; simp [BinaryOp.ofPunct?] at hop)
      (by rintro rfl; simp [BinaryOp.ofPunct?] at hop))
  simp only [Level.cost, levels] at hm
  obtain ⟨m, rfl⟩ := Nat.exists_eq_add_one.2 (by omega : 0 < m)
  -- The right operand is tighter, so an operator of the same level that follows goes to the loop.
  have hright : binary m (op.level + 1) o (us ++ rest) = .ok (right, rest) := by
    refine hr.complete ?_ (hf.mono ?_) ?_ <;>
      simp only [Level.cost, Level.rank, levels] <;> omega
  refine ⟨m, by omega, ?_⟩
  rw [List.append_assoc, List.cons_append, hleft]
  change binaryRest (m + 1) op.level left o _ = binaryRest m op.level _ o rest
  rw [binaryRest]
  simp only [bind_apply, get_apply, operator?_cons, hop, Option.filter_some, beq_self_eq_true,
    if_true, here_apply_cons, drop_apply, List.tail_cons, hright]

/-- A ternary operator and its three operands. -/
theorem reads_ternary_operands {test yes no : Expr} {ts us vs : List Token} (r r' : Nat)
    (ht : (Level.binary 0).Reads o test ts) (hy : Level.assignment.Reads o yes us)
    (hn : Level.assignment.Reads o no vs) :
    Level.ternary.Reads o (.ternary test yes no)
      (ts ++ ⟨.punct .question, r⟩ :: (us ++ ⟨.punct .colon, r'⟩ :: vs)) := by
  intro n rest hlen hf _
  simp only [Level.cost, List.length_append, List.length_cons] at hlen ⊢
  obtain ⟨n, rfl⟩ := Nat.exists_eq_add_one.2 (by omega : 0 < n)
  have htest : binary n 0 o
      (ts ++ ⟨.punct .question, r⟩ :: (us ++ ⟨.punct .colon, r'⟩ :: (vs ++ rest))) =
        .ok (test, ⟨.punct .question, r⟩ :: (us ++ ⟨.punct .colon, r'⟩ :: (vs ++ rest))) :=
    ht.complete (by simp only [Level.cost]; omega)
      (follows_cons (by simp [Lexeme.grip, Level.rank])) (by decide)
  -- the colon ends the first branch, as it has no grip on anything
  have hyes := hy.expr (n := n) (⟨.punct .colon, r'⟩ :: (vs ++ rest)) (by omega)
    (follows_cons (by simp [Lexeme.grip]))
  have hno := hn.expr (n := n) rest (by omega) hf.zero
  refine ⟨n, by omega, ?_⟩
  simp only [List.append_assoc, List.cons_append]
  change ternary (n + 1) o _ = .ok (_, rest)
  rw [ternary]
  simp only [bind_apply, htest, skip_cons, if_true, hyes, expect_cons, hno, pure_apply]

/-! ### Assignments -/

/-- An assignment to a variable. -/
theorem reads_assign {value : Expr} {ts : List Token} (x : String) (r r' : Nat)
    (hv : Level.assignment.Reads o value ts) :
    Level.assignment.Reads o (.assign x value ⟨o.file, r⟩)
      (⟨.name x, r⟩ :: ⟨.punct .assign, r'⟩ :: ts) := by
  intro n rest hn hf _
  simp only [Level.cost, List.length_cons] at hn ⊢
  obtain ⟨n, rfl⟩ := Nat.exists_eq_add_one.2 (by omega : 0 < n)
  have hvalue := hv.expr (n := n) rest (by omega) hf
  refine ⟨n, by omega, ?_⟩
  change expr (n + 1) o (⟨.name x, r⟩ :: ⟨.punct .assign, r'⟩ :: (ts ++ rest)) = .ok (_, rest)
  rw [expr]
  simp only [bind_apply, get_apply, here_apply_cons, set_apply, hvalue, pure_apply]

/-- An assignment to a key. -/
theorem reads_assignAt {key value : Expr} {ts us : List Token} (x : String) (r r₁ r₂ r₃ : Nat)
    (hk : Level.assignment.Reads o key ts) (hv : Level.assignment.Reads o value us) :
    Level.assignment.Reads o (.assignAt x key value ⟨o.file, r⟩)
      (⟨.name x, r⟩ :: ⟨.punct .lbracket, r₁⟩ ::
        (ts ++ ⟨.punct .rbracket, r₂⟩ :: ⟨.punct .assign, r₃⟩ :: us)) := by
  intro n rest hn hf _
  simp only [Level.cost, List.length_cons, List.length_append] at hn ⊢
  obtain ⟨n, rfl⟩ := Nat.exists_eq_add_one.2 (by omega : 0 < n)
  have hkey := hk.expr (n := n)
    (⟨.punct .rbracket, r₂⟩ :: ⟨.punct .assign, r₃⟩ :: (us ++ rest)) (by omega)
    (follows_cons (by simp [Lexeme.grip]))
  have hvalue := hv.expr (n := n) rest (by omega) hf
  refine ⟨n, by omega, ?_⟩
  simp only [List.cons_append, List.append_assoc]
  change expr (n + 1) o _ = .ok (_, rest)
  rw [expr]
  simp only [bind_apply, get_apply, here_apply_cons, set_apply, hkey, expect_cons, skip_cons,
    if_true, hvalue, pure_apply]

end Stencil
