import Stencil.Expr.Eval
import Stencil.Proofs.Expr.Derivation
import Stencil.Proofs.Render.NullSafety

/-!
# Locations of expressions

An expression carries the locations that its errors name. The grammar gives each of them the row of
a token of the expression: of an operator, a dot, an opening bracket, or the name that the
expression begins with (`Lexeme.isAnchor`). What is evaluated fails at one of these locations and
nowhere else.

Main definition: `Eval.FailsAt`.
Main statements: `Spells.locations` (locations are those of tokens), `Expr.eval_failsAt`.
-/

namespace Stencil

/-! ### What an expression carries -/

namespace Expr

/-- A sign that becomes part of a number has no location. -/
theorem locations_ofSign (s : Sign) (e : Expr) (location : Location) :
    (ofSign s e location).locations ⊆ location :: e.locations := by
  unfold ofSign
  split
  · split
    · exact List.nil_subset _
    · exact List.Subset.refl _
  · exact List.Subset.refl _

/-- The locations of an operation are its own and those of its operands. -/
theorem locations_build (op : Parse.BinaryOp) (left right : Expr) (location : Location) :
    (op.build left right location).locations ⊆
      location :: (left.locations ++ right.locations) := by
  cases op with
  | or | and => exact List.subset_cons_self _ _
  | compare | arith => exact List.Subset.refl _

/-- A sign makes no variable of an operand. -/
theorem ofSign_ne_var (s : Sign) (e : Expr) (location : Location) (x : String) :
    ofSign s e location ≠ var x := by
  unfold ofSign
  split
  · split <;> exact Expr.noConfusion
  · exact Expr.noConfusion

/-- Nor does it make a call of it. -/
theorem ofSign_ne_call (s : Sign) (e : Expr) (location : Location) (x : String) (args : List Expr)
    (location' : Location) : ofSign s e location ≠ call x args location' := by
  unfold ofSign
  split
  · split <;> exact Expr.noConfusion
  · exact Expr.noConfusion

end Expr

/-- The locations in a phrase. -/
def Phrase.locations : Phrase → List Location
  | .expr _ e => e.locations
  | .items es | .arguments es => Expr.allLocations es
  | .entries _ values => Expr.allLocations values

/-! ### Tokens that locations are taken from -/

/-- Whether a location may be that of a token: an operator, a dot, an opening bracket or a name. -/
def Lexeme.isAnchor : Lexeme → Bool
  | .name _ | .punct .dot | .punct .lbracket | .punct .lparen => true
  | lexeme@(.punct mark) =>
    (Parse.BinaryOp.ofPunct? mark).isSome || (Parse.step? lexeme).isSome
  | _ => false

theorem Lexeme.isAnchor_of_ofPunct? {mark : Punct} {op : Parse.BinaryOp}
    (h : Parse.BinaryOp.ofPunct? mark = some op) : (Lexeme.punct mark).isAnchor = true := by
  cases mark <;> first | rfl | cases h

/-- Every sign is an anchor. -/
theorem Lexeme.isAnchor_of_sign? {lexeme : Lexeme} {s : Sign} (h : Parse.sign? lexeme = some s) :
    lexeme.isAnchor = true := by
  cases lexeme with
  | punct mark => cases mark <;> first | rfl | cases h
  | _ => cases h

/-- Every step is an anchor. -/
theorem Lexeme.isAnchor_of_step? {lexeme : Lexeme} {s : Step} (h : Parse.step? lexeme = some s) :
    lexeme.isAnchor = true := by
  cases lexeme with
  | punct mark => cases mark <;> first | rfl | cases h
  | _ => cases h

variable {file : Option String} {ts : List Token}

/-- A variable begins with its name, or with a parenthesis. -/
theorem Spells.isAnchor_of_var {level : Level} {x : String} {t : Token}
    (h : Spells file (.expr level (.var x)) (t :: ts)) : t.lexeme.isAnchor = true := by
  generalize hp : Phrase.expr level (.var x) = phrase at h
  generalize hts : t :: ts = us at h
  -- by induction on how it is spelled; only a name, or a group of one, is a variable
  induction h generalizing level with
  | loosen _ ih =>
    cases hp
    exact ih rfl hts
  | var | group =>
    obtain ⟨rfl, -⟩ := List.cons.inj hts
    rfl
  | sign _ _ _ =>
    obtain ⟨-, he⟩ := Phrase.expr.inj hp
    exact absurd he.symm (Expr.ofSign_ne_var _ _ _ x)
  | @binary op =>
    obtain ⟨-, he⟩ := Phrase.expr.inj hp
    cases op <;> cases he
  | _ => cases hp

/-- The places of the anchors among tokens. -/
def anchors (file : Option String) (ts : List Token) : List Location :=
  (ts.filter (·.lexeme.isAnchor)).map fun t => ⟨file, t.row⟩

/-- An anchor's location is that of a token that may have one. -/
theorem mem_anchors {l : Location} :
    l ∈ anchors file ts ↔ ∃ t ∈ ts, t.lexeme.isAnchor = true ∧ l = ⟨file, t.row⟩ := by
  simp only [anchors, List.mem_map, List.mem_filter, and_assoc, eq_comm]

/-- The anchors of tokens in a row are those of both parts. -/
@[simp] theorem mem_anchors_append {l : Location} {us vs : List Token} :
    l ∈ anchors file (us ++ vs) ↔ l ∈ anchors file us ∨ l ∈ anchors file vs := by
  rw [anchors, List.filter_append, List.map_append, List.mem_append]
  rfl

/-- A token has its location if it is an anchor. -/
@[simp] theorem mem_anchors_cons {l : Location} {t : Token} :
    l ∈ anchors file (t :: ts) ↔
      (t.lexeme.isAnchor = true ∧ l = ⟨file, t.row⟩) ∨ l ∈ anchors file ts := by
  rw [mem_anchors, mem_anchors, List.exists_mem_cons_iff]

/-- A namespace begins with an anchor. -/
theorem SpellsNamespace.mem_anchors {space : String} {r : Nat} (h : SpellsNamespace space r ts) :
    ⟨file, r⟩ ∈ anchors file ts := by
  obtain ⟨x, tail, rfl⟩ := h.begins
  exact mem_anchors_cons.2 (.inl ⟨rfl, rfl⟩)

/-- **The locations of an expression are those of its tokens.** -/
theorem Spells.locations {phrase : Phrase} (h : Spells file phrase ts) :
    phrase.locations ⊆ anchors file ts := by
  -- by induction on the phrase; forms without a location first, then by the number of their parts
  induction h with
  | loosen _ ih => exact ih
  | number | text | keyword | var | emptyMap | emptyList | noItems | noArguments =>
    exact List.nil_subset _
  | group _ _ _ ih | map _ _ _ ih | not _ _ ih | quiet _ _ ih =>
    intro l hl
    simp [ih hl]
  | list _ _ _ _ ih ih' | arguments _ _ _ _ ih ih' | moreItems _ _ _ ih ih' 
  | moreEntries _ _ _ _ _ _ ih ih' | coalesce _ _ _ _ ih ih' => 
    intro l hl
    rcases List.mem_append.1 hl with hl | hl
    · simp [ih hl]
    · simp [ih' hl]
  -- a location of its own, and two parts
  | range _ _ _ _ _ ih ih' | index _ _ _ _ ih ih' | assignAt _ _ _ _ _ _ _ ih ih'
  | method _ _ _ _ _ ih ih' =>
    intro l hl
    rcases List.mem_cons.1 hl with rfl | hl
    · simp [Lexeme.isAnchor]
    · rcases List.mem_append.1 hl with hl | hl
      · simp [ih hl]
      · simp [ih' hl]
  -- a location of its own, and one part
  | field _ _ _ _ ih | assign _ _ _ _ ih | call _ _ _ ih =>
    intro l hl
    rcases List.mem_cons.1 hl with rfl | hl
    · simp [Lexeme.isAnchor]
    · simp [ih hl]
  -- a namespace is located at its first name
  | staticField _ _ _ hs =>
    intro l hl
    obtain rfl := List.mem_singleton.1 hl
    simp [hs.mem_anchors]
  | staticCall _ _ _ hs _ ih =>
    intro l hl
    rcases List.mem_cons.1 hl with rfl | hl
    · simp [hs.mem_anchors]
    · simp [ih hl]
  -- a step has its location at the first of the two tokens
  | stepAfter _ _ hx ih =>
    intro l hl
    obtain rfl := List.mem_singleton.1 hl
    simp [hx.isAnchor_of_var]
  | stepBefore _ _ _ hstep =>
    intro l hl
    obtain rfl := List.mem_singleton.1 hl
    simp [Lexeme.isAnchor_of_step? hstep]
  -- a sign may be folded into a constant, and then it leaves no location behind
  | sign _ hsign _ ih =>
    intro l hl
    rcases List.mem_cons.1 (Expr.locations_ofSign _ _ _ hl) with rfl | hl
    · simp [Lexeme.isAnchor_of_sign? hsign]
    · simp [ih hl]
  | binary _ hop _ _ ih ih' =>
    intro l hl
    rcases List.mem_cons.1 (Expr.locations_build _ _ _ _ hl) with rfl | hl
    · simp [Lexeme.isAnchor_of_ofPunct? hop]
    · rcases List.mem_append.1 hl with hl | hl
      · simp [ih hl]
      · simp [ih' hl]
  | ternary _ _ _ _ _ ih ih' ih'' =>
    intro l hl
    rcases List.mem_append.1 hl with hl | hl
    · rcases List.mem_append.1 hl with hl | hl
      · simp [ih hl]
      · simp [ih' hl]
    · simp [ih'' hl]
  | entry _ _ _ _ ih =>
    intro l hl
    rw [Phrase.locations, Expr.allLocations, Expr.allLocations, List.append_nil] at hl
    simp [ih hl]

/-! ### Expressions among tokens -/

/-- Some of the tokens, next to one another, spell an expression. -/
def SpelledIn (file : Option String) (ts : List Token) (e : Expr) : Prop :=
  ∃ us, us <:+: ts ∧ Spells file (.expr .assignment e) us

/-- An expression of some tokens is one of more tokens. -/
theorem SpelledIn.mono {us : List Token} {e : Expr} (h : SpelledIn file us e) (hts : us <:+: ts) :
    SpelledIn file ts e := by
  obtain ⟨vs, hvs, he⟩ := h
  exact ⟨vs, hvs.trans hts, he⟩

/-- The locations of an expression are taken from the tokens that it is spelled among. -/
theorem SpelledIn.locations {e : Expr} (h : SpelledIn file ts e) :
    e.locations ⊆ anchors file ts := by
  obtain ⟨us, hus, he⟩ := h
  intro l hl
  obtain ⟨t, ht, hanchor, rfl⟩ := mem_anchors.1 (he.locations hl)
  exact mem_anchors.2 ⟨t, hus.subset ht, hanchor, rfl⟩

/-- Every item of a list is spelled among the tokens of the list. -/
theorem Spells.spelledIn_items {es : List Expr} (h : Spells file (.items es) ts) {e : Expr}
    (he : e ∈ es) : SpelledIn file ts e := by
  induction es generalizing ts with
  | nil => exact absurd he List.not_mem_nil
  | cons first es ih =>
    cases h with
    | @moreItems _ _ us vs r hfirst hmore =>
      rcases List.mem_cons.1 he with rfl | he
      · exact ⟨us, ⟨[⟨.punct .comma, r⟩], vs, rfl⟩, hfirst⟩
      · exact (ih hmore he).mono ⟨⟨.punct .comma, r⟩ :: us, [], by simp⟩

/-- So is every expression of a list without marks around it. -/
theorem SpellsList.spelledIn {es : List Expr} (h : SpellsList file es ts) {e : Expr}
    (he : e ∈ es) : SpelledIn file ts e := by
  cases es with
  | nil => exact absurd he List.not_mem_nil
  | cons first es =>
    obtain ⟨us, vs, rfl, hfirst, hmore⟩ := h
    rcases List.mem_cons.1 he with rfl | he
    · exact ⟨us, List.infix_append' [] us vs, hfirst⟩
    · exact (hmore.spelledIn_items he).mono (List.infix_append_right ..)

/-- So is every argument among the tokens of its call. -/
theorem Spells.spelledIn_arguments {args : List Expr} (h : Spells file (.arguments args) ts)
    {e : Expr} (he : e ∈ args) : SpelledIn file ts e := by
  cases h with
  | noArguments => exact absurd he List.not_mem_nil
  | @arguments _ _ us vs r r' hfirst hmore =>
    have hlist : SpellsList file (_ :: _) (us ++ vs) := ⟨us, vs, rfl, hfirst, hmore⟩
    exact (hlist.spelledIn he).mono ⟨[⟨.punct .lparen, r⟩], [⟨.punct .rparen, r'⟩], rfl⟩

/-- The arguments of a call are spelled among its tokens, also if the call stands in
parentheses. -/
theorem Spells.spelledIn_call {level : Level} {x : String} {args : List Expr} {location : Location}
    (h : Spells file (.expr level (.call x args location)) ts) {e : Expr} (he : e ∈ args) :
    SpelledIn file ts e := by
  generalize hp : Phrase.expr level (.call x args location) = phrase at h
  -- by induction on how it is spelled; a sign or an operator is no call
  induction h generalizing level with
  | loosen _ ih =>
    cases hp
    exact ih rfl
  | group r r' _ ih =>
    cases hp
    exact (ih rfl).mono ⟨[⟨.punct .lparen, r⟩], [⟨.punct .rparen, r'⟩], rfl⟩
  | call x r hargs =>
    cases hp
    exact (hargs.spelledIn_arguments he).mono ⟨[⟨.name x, r⟩], [], by simp⟩
  | sign =>
    obtain ⟨-, hcall⟩ := Phrase.expr.inj hp
    exact absurd hcall.symm (Expr.ofSign_ne_call _ _ _ x args location)
  | @binary op =>
    obtain ⟨-, hcall⟩ := Phrase.expr.inj hp
    cases op <;> cases hcall
  | _ => cases hp

/-- The arguments of a call that is spelled among some tokens are, too. -/
theorem SpelledIn.call {x : String} {args : List Expr} {location : Location}
    (h : SpelledIn file ts (.call x args location)) {e : Expr} (he : e ∈ args) :
    SpelledIn file ts e := by
  obtain ⟨us, hus, hcall⟩ := h
  exact (hcall.spelledIn_call he).mono hus

/-- The expressions in the head of a loop. -/
def LoopHead.exprs : LoopHead → List Expr
  | .each _ collection => [collection]
  | .counting start test update => start ++ test.toList ++ update

/-- The expressions of the head of a loop are spelled among its tokens. -/
theorem SpellsLoopHead.spelledIn {head : LoopHead} (h : SpellsLoopHead file head ts) {e : Expr}
    (he : e ∈ head.exprs) : SpelledIn file ts e := by
  cases head with
  | each item collection =>
    obtain ⟨r, r', us, rfl, hcollection⟩ := h
    obtain rfl := List.mem_singleton.1 he
    exact ⟨us, ⟨[⟨.name item, r⟩, ⟨.punct .colon, r'⟩], [], by simp⟩, hcollection⟩
  | counting start test update =>
    -- three lists of expressions, with a semicolon behind the first and the second
    obtain ⟨r, r', us, vs, ws, rfl, hstart, htest, hupdate⟩ := h
    rcases List.mem_append.1 he with he | he
    · rcases List.mem_append.1 he with he | he
      · exact (hstart.spelledIn he).mono ⟨[], _, rfl⟩
      · exact (htest.spelledIn he).mono
          ⟨us ++ [⟨.punct .semicolon, r⟩], ⟨.punct .semicolon, r'⟩ :: ws, by simp⟩
    · exact (hupdate.spelledIn he).mono
        ⟨us ++ ⟨.punct .semicolon, r⟩ :: (vs ++ [⟨.punct .semicolon, r'⟩]), [], by simp⟩

/-! ### Where evaluations fail -/

/-- An action fails at one of some locations, if it fails. -/
def Eval.FailsAt {α : Type} (places : List Location) (act : Eval α) : Prop :=
  ∀ (m after : Memory) (error : Error), act.runOn m = (.error error, after) →
    ∃ fault, ∃ location ∈ places, error = .template fault location

namespace Eval.FailsAt

variable {α β : Type} {places more : List Location}

/-- A failure comes from the first part or from the second. -/
theorem bind {x : Eval α} {f : α → Eval β} (hx : x.FailsAt places)
    (hf : ∀ a, (f a).FailsAt places) : (x >>= f).FailsAt places := by
  intro m after error h
  rw [runOn_bind] at h
  rcases hrun : x.runOn m with ⟨_ | a, mid⟩
  · rw [hrun] at h
    cases h
    exact hx m after error hrun
  · rw [hrun] at h
    exact hf a mid after error h

/-- An action that never fails. -/
theorem of_ok {act : Eval α} (h : ∀ m, ∃ a, (act.runOn m).1 = .ok a) : act.FailsAt places := by
  intro m after error hrun
  obtain ⟨a, ha⟩ := h m
  rw [hrun] at ha
  cases ha

/-- A value does not fail. -/
theorem pure (a : α) : (Pure.pure a : Eval α).FailsAt places := of_ok fun _ => ⟨a, rfl⟩

theorem heap : Eval.heap.FailsAt places := of_ok fun m => ⟨m.heap, rfl⟩

theorem get : (MonadState.get : Eval Memory).FailsAt places := of_ok fun m => ⟨m, rfl⟩

theorem onHeap (f : Heap → α × Heap) : (Eval.onHeap f).FailsAt places := of_ok fun _ => ⟨_, rfl⟩

theorem lookup (host : Host) (scope : ScopeId) (name : String) :
    (Eval.lookup host scope name).FailsAt places := of_ok fun _ => ⟨_, rfl⟩

theorem assign (scope : ScopeId) (name : String) (value : Value) :
    (Eval.assign scope name value).FailsAt places := of_ok fun _ => ⟨(), rfl⟩

/-- What is raised fails at its location. -/
theorem raise (fault : Fault) {location : Location} (h : location ∈ places) :
    (Eval.raise fault location : Eval α).FailsAt places := by
  intro m after error hrun
  cases hrun
  exact ⟨fault, location, h, rfl⟩

/-- A result that may be a fault fails at the location it is given. -/
theorem ofExcept {location : Location} (h : location ∈ places) (result : Except Fault α) :
    (Eval.ofExcept location result).FailsAt places := by
  cases result with
  | ok a => exact pure a
  | error fault => exact raise fault h

/-- Forgiving reads of null changes no location. -/
theorem withNullSafe {act : Eval α} (h : act.FailsAt places) :
    (Eval.withNullSafe act).FailsAt places := by
  intro m after error hrun
  have hresult : (act.runOn m.forgiving).1 = .error error := congrArg Prod.fst hrun
  exact h m.forgiving _ error (Prod.ext hresult rfl)

/-- An operation of the host fails at the location of its call. -/
theorem runOperation (operation : Operation) (args : List Value) (callee : String)
    {location : Location} (h : location ∈ places) :
    (Eval.runOperation operation args callee location).FailsAt places := by
  refine bind (onHeap _) fun result => ?_
  cases result with
  | ok v => exact pure v
  | error message => exact raise _ h

/-- So does a method. -/
theorem callMethod (host : Host) (target : Value) (name : String) (args : List Value)
    {location : Location} (h : location ∈ places) :
    (host.callMethod target name args location).FailsAt places := by
  refine bind (onHeap _) fun result => ?_
  split
  · exact pure _
  · exact raise _ h
  · exact raise _ h

/-- The rules of evaluations: they fail at the locations of the vocabulary. -/
theorem logic (host : Host) (scope : ScopeId) (places : List Location) :
    EvalLogic host scope scope { places := (· ∈ places) } (fun _ _ => True)
      fun _ _ _ y => y.FailsAt places where
  -- of values nothing is asked here, so the rules about them are trivial
  mono _ _ := ⟨⟩
  const _ := ⟨⟩
  computed _ := ⟨⟩
  pure a _ := .pure a
  bind {_ _ n} _ _ _ _ _ _ hx hf := .bind hx fun a => hf a n (Nat.le_refl n) fun _ _ => ⟨⟩
  raise fault hlocation := .raise fault hlocation
  heap := .heap
  lookup _ := .lookup host scope _
  assign name _ := .assign scope name _
  withNullSafe h := .withNullSafe h
  noting h := h
  readIndex _ _ hlocation := .bind .get fun _ => .ofExcept hlocation _
  readField _ _ hlocation := .bind .get fun _ => .ofExcept hlocation _
  -- a method of null is forgiven, or raised where it is called
  methodOfNull _ hlocation := by
    refine .bind .get fun m => ?_
    split
    · exact .pure _
    · exact .raise _ hlocation
  writeIndex _ _ _ _ := .onHeap _
  newMap _ _ := .onHeap _
  newList _ := .onHeap _
  member _ := .pure _
  operation callee _ hlocation _ := .runOperation _ _ callee hlocation
  callMethod name hlocation _ _ := .callMethod host _ name _ hlocation

end Eval.FailsAt

namespace Expr

/-- **An evaluation fails at a location of its expression**, if it fails. -/
theorem eval_failsAt (host : Host) (scope : ScopeId) (e : Expr) :
    (e.eval host scope).FailsAt e.locations :=
  (Eval.FailsAt.logic host scope e.locations).eval e ⟨fun _ _ => ⟨⟩, fun _ _ => ⟨⟩, fun _ => id⟩ 0

end Expr

end Stencil
