import Stencil.Proofs.Expr.Phrases

/-!
# The parsers of expressions read what the grammar spells

`Phrase.ReadBy` says for each kind of phrase what the parsers do with its tokens, and
`Spells.readBy` proves it for everything that the grammar spells, by induction on how it is
spelled. With the fuel that whole texts are given, `parseExprs_of_spells` follows.
-/

namespace Stencil

open Parse

variable {o : Origin}

/-- What the parsers do with the tokens of a phrase. -/
def Phrase.ReadBy (o : Origin) : Phrase → List Token → Prop
  | .expr level e, ts => level.Reads o e ts ∧ (level ≠ .assignment → Lead o ts)
  | .items es, ts => ItemsRead o es ts
  | .arguments es, ts => ArgumentsRead o es ts
  | .entries keys values, ts => EntriesRead o keys values ts

/-- An expression is spelled by at least one token. -/
theorem Spells.ne_nil {file : Option String} {level : Level} {e : Expr} {ts : List Token}
    (h : Spells file (.expr level e) ts) : ts ≠ [] := by
  obtain ⟨t, tail, rfl, -⟩ := h.begins
  simp

/-- What is read at a level is read at the next looser one. -/
theorem readBy_loosen {level : Level} {e : Expr} {ts : List Token}
    (h : Spells o.file (.expr level.tighter e) ts) (ih : Phrase.ReadBy o (.expr level.tighter e) ts) :
    Phrase.ReadBy o (.expr level e) ts := by
  obtain ⟨hreads, hlead⟩ := ih
  -- one lemma about each level; tokens that could be taken for an assignment matter at the last one
  -- only
  cases level with
  | assignment => exact ⟨reads_assignment hreads (hlead (by decide)) h.ne_nil, fun h => absurd rfl h⟩
  | ternary => exact ⟨reads_ternary hreads, fun _ => hlead (by decide)⟩
  | binary level =>
    refine ⟨reads_binary hreads, fun _ => hlead ?_⟩
    rw [Level.tighter]
    split <;> simp
  | coalesce => exact ⟨reads_coalesce hreads, fun _ => hlead (by decide)⟩
  | unary => exact ⟨reads_unary hreads h.begins, fun _ => hlead (by decide)⟩
  | postfixed => exact ⟨reads_postfixed hreads, fun _ => hlead (by decide)⟩
  | member => exact ⟨reads_member hreads h.primary_begins, fun _ => hlead (by decide)⟩
  | primary => exact ⟨hreads, fun _ => hlead (by decide)⟩

/-- A left operand goes on with an operator. -/
theorem Lead.append_mark {ts us : List Token} {mark : Punct} {r : Nat} (h : Lead o ts)
    (hts : ts ≠ []) (ha : mark ≠ .assign) (hb : mark ≠ .lbracket) :
    Lead o (ts ++ ⟨.punct mark, r⟩ :: us) :=
  h.append hts (by simpa using ha) fun h => absurd (Lexeme.punct.inj h) hb

/-- A namespace is followed by a point or a double colon, so it does not begin an assignment. -/
theorem lead_namespace {space : String} {r : Nat} {ts us : List Token} {r' : Nat}
    (h : SpellsNamespace space r ts) : Lead o (ts ++ ⟨.punct .doubleColon, r'⟩ :: us) := by
  cases h with
  | word => exact lead_of_second (by simp) (by simp)
  | dot => exact lead_of_second (by simp) (by simp)

/-- **The parsers read what the grammar spells.** -/
theorem Spells.readBy {phrase : Phrase} {ts : List Token} (h : Spells o.file phrase ts) :
    phrase.ReadBy o ts := by
  generalize hfile : o.file = file at h
  -- By induction on the derivation, with one reading lemma for each rule. Below the level of
  -- assignments a reading also tells how its tokens begin, so that the parser of assignments, which
  -- looks ahead, does not take them for the left side of one.
  induction h with
  | loosen h ih =>
    subst hfile
    exact readBy_loosen h ih
  | number | text | keyword =>
    exact ⟨reads_primary fun n rest _ => rfl, fun _ => lead_of_head (by simp)⟩
  | var x r =>
    exact ⟨reads_primary fun n rest _ => rfl, fun _ => lead_of_second nofun nofun⟩
  | group r r' _ ih => exact ⟨reads_group r r' ih.1, fun _ => lead_of_head (by simp)⟩
  | emptyMap r r' =>
    exact ⟨reads_primary fun n rest _ => rfl, fun _ => lead_of_head (by simp)⟩
  | map r r' h ih => exact ⟨reads_map r r' h.begins ih, fun _ => lead_of_head (by simp)⟩
  | emptyList r r' =>
    exact ⟨reads_primary fun n rest _ => rfl, fun _ => lead_of_head (by simp)⟩
  | list r r' h _ ih ihs =>
    exact ⟨reads_list r r' h.begins ih.1 ihs, fun _ => lead_of_head (by simp)⟩
  | range r r' r'' h _ ih ih' =>
    subst hfile
    exact ⟨reads_range r r' r'' h.begins ih.1 ih'.1, fun _ => lead_of_head (by simp)⟩
  | staticField x r' r'' h =>
    subst hfile
    exact ⟨reads_staticField x r' r'' h, fun _ => lead_namespace h⟩
  | staticCall x r' r'' h hargs ih =>
    subst hfile
    exact ⟨reads_staticCall x r' r'' h hargs.arguments_begin ih, fun _ => lead_namespace h⟩
  | call x r hargs ih =>
    subst hfile
    refine ⟨reads_call x r hargs.arguments_begin ih, fun _ => ?_⟩
    obtain ⟨r', tail, rfl⟩ := hargs.arguments_begin
    exact lead_of_second (by simp) (by simp)
  | index r r' h _ ih ihk =>
    -- Its tokens may be the front of an assignment to an index.
    subst hfile
    exact ⟨reads_index r r' ih.1 ihk.1, fun _ => (ih.2 (by decide)).append h.ne_nil (by simp)
      fun _ => ⟨_, _, r', [], rfl, ihk.1, nofun⟩⟩
  | field x r r' h ih =>
    subst hfile
    exact ⟨reads_field x r r' ih.1,
      fun _ => (ih.2 (by decide)).append_mark h.ne_nil (by decide) (by decide)⟩
  | method x r r' h hargs ih ihs =>
    subst hfile
    exact ⟨reads_method x r r' ih.1 hargs.arguments_begin ihs,
      fun _ => (ih.2 (by decide)).append_mark h.ne_nil (by decide) (by decide)⟩
  | @stepAfter lexeme step x t ts r h _ ih =>
    subst hfile
    refine ⟨reads_stepAfter r h ih.1, fun _ => (ih.2 (by decide)).append (by simp) ?_ ?_⟩
    · rintro rfl
      simp [step?] at h
    · rintro rfl
      simp [step?] at h
  | @stepBefore lexeme step x r r' h =>
    subst hfile
    refine ⟨reads_stepBefore x r r' h, fun _ => lead_of_head ?_⟩
    rintro y rfl
    simp [step?] at h
  | not r _ ih => exact ⟨reads_not r ih.1, fun _ => lead_of_head (by simp)⟩
  | @sign lexeme sign e ts r h _ ih =>
    subst hfile
    refine ⟨reads_sign r h ih.1, fun _ => lead_of_head ?_⟩
    rintro y rfl
    simp [sign?] at h
  | quiet r h ih =>
    exact ⟨reads_quiet r ih.1,
      fun _ => (ih.2 (by decide)).append_mark h.ne_nil (by decide) (by decide)⟩
  | coalesce r h hf hstart ih ihf =>
    exact ⟨reads_coalesce_operands r ih.1 ihf.1 hf.ne_nil hstart,
      fun _ => (ih.2 (by decide)).append_mark h.ne_nil (by decide) (by decide)⟩
  | binary r hop h _ ih ihr =>
    subst hfile
    refine ⟨reads_operands r hop ih.1 ihr.1, fun _ => (ih.2 (by simp)).append_mark h.ne_nil ?_ ?_⟩ <;>
      · rintro rfl
        simp [BinaryOp.ofPunct?] at hop
  | ternary r r' h _ _ ih ihy ihn =>
    exact ⟨reads_ternary_operands r r' ih.1 ihy.1 ihn.1,
      fun _ => (ih.2 (by simp)).append_mark h.ne_nil (by decide) (by decide)⟩
  | assign x r r' _ ih =>
    subst hfile
    exact ⟨reads_assign x r r' ih.1, fun h => absurd rfl h⟩
  | assignAt x r r₁ r₂ r₃ _ _ ihk ihv =>
    subst hfile
    exact ⟨reads_assignAt x r r₁ r₂ r₃ ihk.1 ihv.1, fun h => absurd rfl h⟩
  | noItems => exact itemsRead_nil
  | moreItems r _ _ ih ihs => exact itemsRead_cons r ih.1 ihs
  | noArguments r r' => exact argumentsRead_nil r r'
  | arguments r r' h _ ih ihs => exact argumentsRead_cons r r' h.begins ih.1 ihs
  | entry r r' hkey _ ih => exact entriesRead_single r r' hkey ih.1
  | moreEntries r r' r'' hkey _ _ ih ihs => exact entriesRead_cons r r' r'' hkey ih.1 ihs

/-- **Whole texts.** A text with the tokens of expressions, with commas between them, is parsed as
these expressions. -/
theorem parseExprs_of_spells {file : Option String} {row last : Nat} {text : String} {e : Expr}
    {es : List Expr} {ts us : List Token} (hscan : scanTokens row text.toList = .ok (ts ++ us, last))
    (he : Spells file (.expr .assignment e) ts) (hes : Spells file (.items es) us) :
    parseExprs file row text = .ok (e :: es) := by
  have hfirst : Phrase.ReadBy ⟨file, last⟩ (.expr .assignment e) ts := Spells.readBy he
  have hrest : Phrase.ReadBy ⟨file, last⟩ (.items es) us := Spells.readBy hes
  -- The fuel that the parser starts with suffices for the first expression and for all others.
  obtain ⟨n, hn⟩ : ∃ n, 16 * ((ts ++ us).length + 2) = n + 2 :=
    ⟨16 * (ts ++ us).length + 30, by omega⟩
  have hlist : exprs (n + 1) ⟨file, last⟩ (ts ++ us) = .ok (e :: es, []) := by
    rw [List.length_append] at hn
    refine hrest.exprs n e (ts ++ us) [] (by omega) (follows_nil 0) nofun ?_
    simpa using hfirst.1.expr (n := n) (us ++ []) (by omega) (hrest.follows (follows_nil 0))
  have hopen : (nextLexeme (ts ++ us)).isNone = false := by
    obtain ⟨t, tail, rfl, -⟩ := he.begins
    rfl
  refine parseWith_eq_ok [] hscan ?_
  rw [hn]
  simp only [wholeList, exprsBefore, bind_apply, peek_apply, pure_apply, hopen,
    Bool.false_eq_true, if_false, hlist, finish_nil]

end Stencil
