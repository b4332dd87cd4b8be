import Stencil.Json.Read

/-!
# Written documents read back

A document is read back from its compact text (`Json.read?_write`) if its numerals are spelled as
documents spell them and its strings have a text (`Json.WellFormed`). What is written of a part is
read as that part, whatever stands behind it (`Reads`): behind a numeral this must be a divider, or
nothing, since otherwise more of the text would belong to the numeral.

The reader goes down with one unit of fuel for each part, and each part is written in at least one
character. So the length of a text bounds the fuel that its parts need, and the induction is on the
fuel.
-/

namespace Stencil

/-! ### Documents that can be read -/

/-- A numeral as documents spell it: it has digits in front of the point, and these begin with a
zero only if there are no more of them. -/
structure Numeral.WellFormed (n : Numeral) : Prop where
  whole : ∀ c ∈ n.whole, c.isDigit = true
  lead : ∃ c cs, n.whole = c :: cs ∧ (c = '0' → cs = [])
  fraction : ∀ c ∈ n.fraction, c.isDigit = true

/-- The numeral of an integer is spelled as documents spell it. -/
theorem Numeral.wellFormed_ofInt (i : Int) : (Numeral.ofInt i).WellFormed where
  whole _ hc := Decimal.isDigit_of_mem_digits hc
  lead := Decimal.exists_digits i.natAbs
  fraction := List.forall_mem_nil _

namespace Json

/-- A document whose numerals can be read, and whose strings and names have a text. -/
inductive WellFormed : Json → Prop
  | null : WellFormed null
  | bool (b : Bool) : WellFormed (bool b)
  | number {n : Numeral} (h : n.WellFormed) : WellFormed (number n)
  | string (s : String) : WellFormed (ofString s)
  | array {items : List Json} (h : ∀ item ∈ items, WellFormed item) : WellFormed (array items)
  | object {members : List (String × Json)} (h : ∀ m ∈ members, WellFormed m.2) :
      WellFormed (ofMembers members)

variable {rest : List Char}

/-! ### Numerals -/

/-- What may stand behind a value: nothing, or what divides it from what follows. -/
def Divides (rest : List Char) : Prop := ∀ c ∈ rest.head?, c = ',' ∨ c = ']' ∨ c = '\x7d'

/-- Digits are read up to what is no digit. -/
theorem readDigits?_append {digits : List Char} (hdigits : ∀ c ∈ digits, c.isDigit = true)
    (hne : digits ≠ []) (hrest : ∀ c ∈ rest.head?, c.isDigit = false) :
    readDigits? (digits ++ rest) = some (digits, rest) := by
  have htake : (digits ++ rest).takeWhile Char.isDigit = digits := by
    rw [List.takeWhile_append_of_pos hdigits]
    cases rest with
    | nil => exact List.append_nil _
    | cons c rest => rw [List.takeWhile_cons_of_neg (by simp [hrest c rfl]), List.append_nil]
  have hdrop : (digits ++ rest).dropWhile Char.isDigit = rest := by
    rw [List.dropWhile_append_of_pos hdigits]
    cases rest with
    | nil => rfl
    | cons c rest => exact List.dropWhile_cons_of_neg (by simp [hrest c rfl])
  rw [readDigits?, htake, hdrop]
  cases digits with
  | nil => exact absurd rfl hne
  | cons => rfl

/-- The digits in front of the point are read back. -/
theorem readWhole?_append {n : Numeral} (hn : n.WellFormed)
    (hrest : ∀ c ∈ rest.head?, c.isDigit = false) :
    readWhole? (n.whole ++ rest) = some (n.whole, rest) := by
  obtain ⟨c, cs, hwhole, hzero⟩ := hn.lead
  rw [readWhole?, readDigits?_append hn.whole (by simp [hwhole]) hrest, hwhole]
  split
  · -- The reader refuses a zero in front of more digits.
    rename_i heq
    simp only [Option.some.injEq, Prod.mk.injEq, List.cons.injEq] at heq
    simp [hzero heq.1.1] at heq
  · rfl

/-- A fraction is read back, or that there is none. -/
theorem readFraction?_append {fraction : List Char}
    (hfraction : ∀ c ∈ fraction, c.isDigit = true)
    (hrest : ∀ c ∈ rest.head?, c.isDigit = false ∧ c ≠ '.') :
    readFraction? (Numeral.fractionText fraction ++ rest) = some (fraction, rest) := by
  cases fraction with
  | nil =>
    show readFraction? rest = some ([], rest)
    rw [readFraction?]
    rintro cs rfl
    exact (hrest '.' rfl).2 rfl
  | cons c cs =>
    show readDigits? (c :: cs ++ rest) = _
    exact readDigits?_append hfraction (List.cons_ne_nil c cs) fun c hc => (hrest c hc).1

/-- So is an exponent. -/
theorem readExponent?_append {exponent : Option Int}
    (hrest : ∀ c ∈ rest.head?, c.isDigit = false ∧ c ≠ 'e' ∧ c ≠ 'E') :
    readExponent? (Numeral.exponentText ['+'] exponent ++ rest) = some (exponent, rest) := by
  -- without an exponent, nothing behind may be taken for one
  cases exponent with
  | none =>
    cases rest with
    | nil => rfl
    | cons c rest =>
      show readExponent? (c :: rest) = _
      rw [readExponent?, if_neg (by simp [hrest c rfl])]
  | some e =>
    obtain ⟨c, cs, hdigits, -⟩ := Decimal.exists_digits e.natAbs
    have hread : readDigits? (Decimal.digits e.natAbs ++ rest) =
        some (Decimal.digits e.natAbs, rest) :=
      readDigits?_append (fun _ => Decimal.isDigit_of_mem_digits) (by simp [hdigits])
        fun c hc => (hrest c hc).1
    -- the sign of the exponent is always written
    by_cases hneg : e < 0
    · have hsign : Numeral.exponentText ['+'] (some e) ++ rest =
          'e' :: '-' :: (Decimal.digits e.natAbs ++ rest) := by
        simp [Numeral.exponentText, hneg]
      have hvalue : -(e.natAbs : Int) = e := by omega
      have hbody : readExponent? ('e' :: '-' :: (Decimal.digits e.natAbs ++ rest)) =
          some (some (-(Decimal.ofDigits (Decimal.digits e.natAbs) : Int)), rest) := by
        simp [readExponent?, readSign, hread]
      rw [hsign, hbody, Decimal.ofDigits_digits, hvalue]
    · have hsign : Numeral.exponentText ['+'] (some e) ++ rest =
          'e' :: '+' :: (Decimal.digits e.natAbs ++ rest) := by
        simp [Numeral.exponentText, hneg]
      have hvalue : (e.natAbs : Int) = e := by omega
      have hbody : readExponent? ('e' :: '+' :: (Decimal.digits e.natAbs ++ rest)) =
          some (some (Decimal.ofDigits (Decimal.digits e.natAbs) : Int), rest) := by
        simp [readExponent?, readSign, hread]
      rw [hsign, hbody, Decimal.ofDigits_digits, hvalue]

/-- The characters behind the digits in front of the point of a numeral. -/
theorem head?_behind_whole (fraction : List Char) (exponent : Option Int) (hrest : Divides rest) :
    ∀ c ∈ (Numeral.fractionText fraction ++ (Numeral.exponentText ['+'] exponent ++ rest)).head?,
      c.isDigit = false ∧ (c = '.' → fraction ≠ []) := by
  intro c hc
  -- a fraction begins with the point, an exponent with its `e`, and without both comes what divides
  cases fraction with
  | cons d ds =>
    obtain rfl : '.' = c := Option.some.inj hc
    exact ⟨by decide, fun _ => List.cons_ne_nil d ds⟩
  | nil =>
    cases exponent with
    | some e =>
      obtain rfl : 'e' = c := Option.some.inj hc
      exact ⟨by decide, fun h => absurd h (by decide)⟩
    | none =>
      rcases hrest c hc with rfl | rfl | rfl
      all_goals exact ⟨by decide, fun h => absurd h (by decide)⟩

/-- A numeral is read back behind its sign. -/
theorem readUnsigned?_append {n : Numeral} (hn : n.WellFormed) (hrest : Divides rest) :
    readUnsigned? n.negative (n.whole ++ (Numeral.fractionText n.fraction ++
      (Numeral.exponentText ['+'] n.exponent ++ rest))) = some (n, rest) := by
  -- part by part from the end: what is behind each part does not go on with it
  have hexponent : readExponent? (Numeral.exponentText ['+'] n.exponent ++ rest) =
      some (n.exponent, rest) := by
    refine readExponent?_append fun c hc => ?_
    rcases hrest c hc with rfl | rfl | rfl <;> decide
  have hfraction : readFraction? (Numeral.fractionText n.fraction ++
      (Numeral.exponentText ['+'] n.exponent ++ rest)) =
        some (n.fraction, Numeral.exponentText ['+'] n.exponent ++ rest) := by
    refine readFraction?_append hn.fraction fun c hc => ?_
    have hhead := head?_behind_whole [] n.exponent hrest c hc
    exact ⟨hhead.1, fun hpoint => hhead.2 hpoint rfl⟩
  have hwhole := readWhole?_append hn fun c hc =>
    (head?_behind_whole n.fraction n.exponent hrest c hc).1
  simp [readUnsigned?, hwhole, hfraction, hexponent]

/-- A numeral is read back, whatever stands behind its divider. -/
theorem readNumeral?_append {n : Numeral} (hn : n.WellFormed) (hrest : Divides rest) :
    readNumeral? (n.chars ['+'] ++ rest) = some (n, rest) := by
  have hread := readUnsigned?_append hn hrest
  cases hneg : n.negative with
  | true =>
    have hchars : n.chars ['+'] ++ rest = '-' :: (n.whole ++ (Numeral.fractionText n.fraction ++
        (Numeral.exponentText ['+'] n.exponent ++ rest))) := by
      simp [Numeral.chars, hneg]
    rw [hchars, readNumeral?, ← hneg, hread]
  | false =>
    have hchars : n.chars ['+'] ++ rest = n.whole ++ (Numeral.fractionText n.fraction ++
        (Numeral.exponentText ['+'] n.exponent ++ rest)) := by
      simp [Numeral.chars, hneg]
    obtain ⟨c, cs, hwhole, -⟩ := hn.lead
    rw [hchars, readNumeral?, ← hneg, hread]
    -- A digit is no minus.
    intro tail heq
    rw [hwhole] at heq
    have hminus : c = '-' := (List.cons.inj heq).1
    have hdigit := hn.whole c (by simp [hwhole])
    rw [hminus] at hdigit
    exact absurd hdigit (by decide)

/-! ### Strings -/

theorem hexValue?_hexDigit {d : Nat} (h : d < 16) : hexValue? (hexDigit d) = some d := by
  revert d
  decide

/-- The escape of a control character by its number spells that character. -/
theorem unitOf?_control {c : Char} (h : c.toNat < 32) :
    unitOf? '0' '0' (hexDigit (c.toNat / 16)) (hexDigit (c.toNat % 16)) = some c.toNat := by
  have hzero : hexValue? '0' = some 0 := by decide
  have hhigh : hexValue? (hexDigit (c.toNat / 16)) = some (c.toNat / 16) :=
    hexValue?_hexDigit (by omega)
  have hlow : hexValue? (hexDigit (c.toNat % 16)) = some (c.toNat % 16) :=
    hexValue?_hexDigit (by omega)
  have hvalue : c.toNat / 16 * 16 + c.toNat % 16 = c.toNat := by omega
  simp [unitOf?, hzero, hhigh, hlow, hvalue]

/-- A letter behind a backslash stands for its character. -/
theorem readString?_letter (p : StringDraft) {e c : Char} (hletter : e ≠ 'u')
    (he : escaped? e = some c) (cs : List Char) :
    readString? p ('\\' :: e :: cs) = readString? (p.push c) cs := by
  rw [readString?, he]
  rintro _ _ _ _ _ rfl
  exact absurd rfl hletter

/-- A character is read back from its spelling inside a string. -/
theorem readString?_escapeChar (p : StringDraft) (c : Char) (cs : List Char) :
    readString? p (escapeChar c ++ cs) = readString? (p.push c) cs := by
  unfold escapeChar
  -- seven characters have a letter of their own
  iterate 7
    split
    · rename_i h
      subst h
      exact readString?_letter p (by decide) rfl cs
  -- other control characters are written by their number
  split
  · rename_i h
    have hunit : p.pushUnit c.toNat = p.push c := by
      rw [StringDraft.pushUnit, if_neg (by omega), if_neg (by omega), Char.ofNat_toNat]
    simp [readString?, unitOf?_control h, hunit]
  -- all else is written as it is
  · rename_i hquote hslash _ _ _ _ _ hvisible
    rw [List.singleton_append, readString?, if_neg hquote, if_neg (by simp [hvisible, hslash])]
    · rintro _ _ _ _ _ rfl
      exact absurd rfl hslash
    · rintro _ _ rfl
      exact absurd rfl hslash

/-- The characters of a string are read back up to its quote. -/
theorem readString?_chars (read s rest : List Char) :
    readString? ⟨read, none, true⟩ (s.flatMap escapeChar ++ '\x22' :: rest) =
      some (some (String.ofList (read.reverse ++ s)), rest) := by
  induction s generalizing read with
  | nil => simp [readString?, StringDraft.text?]
  | cons c s ih =>
    rw [List.flatMap_cons, List.append_assoc, readString?_escapeChar]
    show readString? ⟨c :: read, none, true⟩ _ = _
    rw [ih, List.reverse_cons, List.append_assoc, List.singleton_append]

/-- A string is read back. -/
theorem readString?_append (s : String) (rest : List Char) :
    readString? {} (s.toList.flatMap escapeChar ++ '\x22' :: rest) = some (some s, rest) := by
  simpa using readString?_chars [] s.toList rest

/-! ### The first character of a value -/

/-- Whether a numeral may begin with a character. -/
def StartsNumeral (c : Char) : Prop := c.isDigit = true ∨ c = '-'

/-- A character that is neither a digit nor a minus does not begin a numeral. -/
theorem StartsNumeral.ne {c d : Char} (h : StartsNumeral c) (hdigit : d.isDigit = false)
    (hminus : d ≠ '-') : c ≠ d := by
  rintro rfl
  rcases h with h | h
  · rw [hdigit] at h
    cases h
  · exact hminus h

/-- No blank begins a numeral. -/
theorem StartsNumeral.isSpace {c : Char} (h : StartsNumeral c) : isSpace c = false := by
  have hblank : c ≠ ' ' ∧ c ≠ '\n' ∧ c ≠ '\t' ∧ c ≠ '\r' :=
    ⟨h.ne rfl (by decide), h.ne rfl (by decide), h.ne rfl (by decide), h.ne rfl (by decide)⟩
  simp [Json.isSpace, hblank]

/-- Every numeral begins with a digit or a minus. -/
theorem exists_startsNumeral {n : Numeral} (hn : n.WellFormed) :
    ∃ c cs, n.chars ['+'] = c :: cs ∧ StartsNumeral c := by
  obtain ⟨c, cs, hwhole, -⟩ := hn.lead
  cases hneg : n.negative with
  | true => exact ⟨'-', _, by rw [Numeral.chars, hneg]; rfl, .inr rfl⟩
  | false =>
    refine ⟨c, _, by rw [Numeral.chars, hneg, hwhole]; rfl, .inl (hn.whole c ?_)⟩
    rw [hwhole]
    exact List.mem_cons_self

/-- What is written of a document begins with a character that is neither a space nor the end of an
array. -/
theorem WellFormed.head {j : Json} (h : j.WellFormed) :
    ∃ c cs, j.chars = c :: cs ∧ isSpace c = false ∧ c ≠ ']' := by
  cases h with
  | number hn =>
    obtain ⟨c, cs, hchars, hc⟩ := exists_startsNumeral hn
    exact ⟨c, cs, hchars, hc.isSpace, hc.ne rfl (by decide)⟩
  | bool b => cases b <;> exact ⟨_, _, rfl, by decide, by decide⟩
  | null | string | array | object => exact ⟨_, _, rfl, by decide, by decide⟩

theorem skipSpaces_cons {c : Char} (h : isSpace c = false) (cs : List Char) :
    skipSpaces (c :: cs) = c :: cs :=
  List.dropWhile_cons_of_neg (by simp [h])

/-! ### Values -/

/-- Members with their names, as the text of an object has them. -/
def named (members : List (String × Json)) : List (Option String × Json) :=
  members.map fun m => (some m.1, m.2)

/-- What the readers do with `n` of fuel, on the text of parts that are shorter. -/
structure Reads (n : Nat) : Prop where
  value : ∀ {j : Json} {rest : List Char}, j.WellFormed → j.chars.length < n → Divides rest →
    readValue? n (j.chars ++ rest) = some (j, rest)
  items : ∀ {items : List Json} {rest : List Char}, items ≠ [] → (∀ j ∈ items, j.WellFormed) →
    (charsOfItems items).length < n →
      readItems? n (charsOfItems items ++ rest) = some (items, rest)
  members : ∀ {members : List (String × Json)} {rest : List Char}, members ≠ [] →
    (∀ m ∈ members, m.2.WellFormed) → (charsOfMembers (named members)).length < n →
      readMembers? n (charsOfMembers (named members) ++ rest) = some (named members, rest)

theorem charsOfItems_cons (item next : Json) (items : List Json) :
    charsOfItems (item :: next :: items) = item.chars ++ ',' :: charsOfItems (next :: items) := rfl

theorem charsOfMembers_single (m : String × Json) :
    charsOfMembers (named [m]) = quote? (some m.1) ++ ':' :: (m.2.chars ++ ['\x7d']) := rfl

/-- A member in front of other members. -/
theorem charsOfMembers_cons (m next : String × Json) (members : List (String × Json)) :
    charsOfMembers (named (m :: next :: members)) =
      quote? (some m.1) ++ ':' :: (m.2.chars ++ ',' :: charsOfMembers (named (next :: members))) :=
  rfl

/-- A comma and both closing marks divide values. -/
theorem divides_cons {c : Char} (h : c = ',' ∨ c = ']' ∨ c = '\x7d') (cs : List Char) :
    Divides (c :: cs) := by
  rintro _ ⟨⟩
  exact h

/-- The name of a member is read back, up to its colon. -/
theorem readName?_append (name : String) (cs : List Char) :
    readName? (quote? (some name) ++ ':' :: cs) = some (some name, cs) := by
  have hchars : quote? (some name) ++ ':' :: cs =
      '\x22' :: (name.toList.flatMap escapeChar ++ '\x22' :: ':' :: cs) := by
    simp [quote?, quote]
  rw [hchars, readName?, skipSpaces_cons (by decide)]
  simp [readString?_append, skipSpaces_cons, isSpace]

namespace Reads

/-- With no steps left nothing is asked. -/
theorem zero : Reads 0 where
  value _ hlength := absurd hlength (Nat.not_lt_zero _)
  items _ _ hlength := absurd hlength (Nat.not_lt_zero _)
  members _ _ hlength := absurd hlength (Nat.not_lt_zero _)

variable {n : Nat}

/-- A numeral is read back in one step. -/
theorem numeral_succ {m : Numeral} (hm : m.WellFormed) (hrest : Divides rest) :
    readValue? (n + 1) (m.chars ['+'] ++ rest) = some (.number m, rest) := by
  obtain ⟨c, cs, hchars, hc⟩ := exists_startsNumeral hm
  have hread := readNumeral?_append hm hrest
  rw [hchars, List.cons_append] at hread ⊢
  rw [readValue?, skipSpaces_cons hc.isSpace]
  -- All other values begin with another character.
  split
  case h_7 => simp [hread]
  all_goals
    rename_i heq
    exact absurd (List.cons.inj heq).1 (hc.ne rfl (by decide))

/-- So is a string. -/
theorem string_succ (s : String) :
    readValue? (n + 1) ((ofString s).chars ++ rest) = some (ofString s, rest) := by
  have hchars : (ofString s).chars ++ rest =
      '\x22' :: (s.toList.flatMap escapeChar ++ '\x22' :: rest) := by
    simp [ofString, chars, quote?, quote]
  rw [hchars, readValue?, skipSpaces_cons (by decide)]
  simp [readString?_append, ofString]

/-- An array is read back if its items are with one step less. -/
theorem array_succ (h : Reads n) {items : List Json} (hitems : ∀ j ∈ items, j.WellFormed)
    (hlength : (array items).chars.length < n + 1) :
    readValue? (n + 1) ((array items).chars ++ rest) = some (array items, rest) := by
  cases items with
  | nil => rfl
  | cons item items =>
    obtain ⟨c, cs, hchars, hspace, hclose⟩ := (hitems item List.mem_cons_self).head
    have hread : readItems? n (charsOfItems (item :: items) ++ rest) = some (item :: items, rest) :=
      h.items (List.cons_ne_nil item items) hitems (Nat.lt_of_succ_lt_succ hlength)
    -- The first item does not begin with the end of the array.
    obtain ⟨ds, hds⟩ : ∃ ds, charsOfItems (item :: items) ++ rest = c :: ds := by
      cases items with
      | nil => exact ⟨_, by rw [charsOfItems, hchars]; rfl⟩
      | cons => exact ⟨_, by rw [charsOfItems_cons, hchars]; rfl⟩
    show readValue? (n + 1) ('[' :: (charsOfItems (item :: items) ++ rest)) = _
    rw [hds] at hread ⊢
    rw [readValue?, skipSpaces_cons (by decide)]
    simp only [skipSpaces_cons hspace]
    split
    · rename_i heq
      exact absurd (List.cons.inj heq).1 hclose
    · simp [hread]

/-- Likewise an object. -/
theorem object_succ (h : Reads n) {members : List (String × Json)}
    (hmembers : ∀ m ∈ members, m.2.WellFormed)
    (hlength : (ofMembers members).chars.length < n + 1) :
    readValue? (n + 1) ((ofMembers members).chars ++ rest) = some (ofMembers members, rest) := by
  cases members with
  | nil => rfl
  | cons m members =>
    have hread : readMembers? n (charsOfMembers (named (m :: members)) ++ rest) =
        some (named (m :: members), rest) :=
      h.members (List.cons_ne_nil m members) hmembers (Nat.lt_of_succ_lt_succ hlength)
    -- A member begins with the quote of its name.
    obtain ⟨ds, hds⟩ : ∃ ds, charsOfMembers (named (m :: members)) ++ rest = '\x22' :: ds := by
      cases members <;> exact ⟨_, rfl⟩
    show readValue? (n + 1) ('\x7b' :: (charsOfMembers (named (m :: members)) ++ rest)) = _
    rw [hds] at hread ⊢
    rw [readValue?, skipSpaces_cons (by decide)]
    simp only [skipSpaces_cons (c := '\x22') (by decide)]
    simp [hread, ofMembers, named]

/-- Likewise every value. -/
theorem value_succ (h : Reads n) {j : Json} (hj : j.WellFormed)
    (hlength : j.chars.length < n + 1) (hrest : Divides rest) :
    readValue? (n + 1) (j.chars ++ rest) = some (j, rest) := by
  cases hj with
  | null => rfl
  | bool b => cases b <;> rfl
  | number hn => exact numeral_succ hn hrest
  | string s => exact string_succ s
  | array hitems => exact h.array_succ hitems hlength
  | object hmembers => exact h.object_succ hmembers hlength

/-- Items are read back if the first and the rest are. -/
theorem items_succ (h : Reads n) {item : Json} {items : List Json}
    (hitems : ∀ j ∈ item :: items, j.WellFormed)
    (hlength : (charsOfItems (item :: items)).length < n + 1) :
    readItems? (n + 1) (charsOfItems (item :: items) ++ rest) = some (item :: items, rest) := by
  obtain ⟨hitem, hitems⟩ := List.forall_mem_cons.1 hitems
  -- behind the last item stands the bracket, and behind any other a comma
  cases items with
  | nil =>
    rw [charsOfItems, List.length_append, List.length_singleton] at hlength
    have hread : readValue? n (item.chars ++ ']' :: rest) = some (item, ']' :: rest) :=
      h.value hitem (by omega) (divides_cons (by simp) rest)
    simp [charsOfItems, readItems?, hread, readDivider?, skipSpaces_cons, isSpace]
  | cons next items =>
    rw [charsOfItems_cons, List.length_append, List.length_cons] at hlength
    have hread := h.value hitem (by omega)
      (divides_cons (.inl rfl) (charsOfItems (next :: items) ++ rest))
    have hmore : readItems? n (charsOfItems (next :: items) ++ rest) = some (next :: items, rest) :=
      h.items (List.cons_ne_nil next items) hitems (by omega)
    simp [charsOfItems_cons, readItems?, hread, readDivider?, skipSpaces_cons, isSpace, hmore]

/-- Likewise members. -/
theorem members_succ (h : Reads n) {m : String × Json} {members : List (String × Json)}
    (hmembers : ∀ p ∈ m :: members, p.2.WellFormed)
    (hlength : (charsOfMembers (named (m :: members))).length < n + 1) :
    readMembers? (n + 1) (charsOfMembers (named (m :: members)) ++ rest) =
      some (named (m :: members), rest) := by
  obtain ⟨hm, hmembers⟩ := List.forall_mem_cons.1 hmembers
  -- behind the last member stands the brace, and behind any other a comma
  cases members with
  | nil =>
    rw [charsOfMembers_single, List.length_append, List.length_cons, List.length_append] at hlength
    have hread : readValue? n (m.2.chars ++ '\x7d' :: rest) = some (m.2, '\x7d' :: rest) :=
      h.value hm (by omega) (divides_cons (by simp) rest)
    have hname := readName?_append m.1 (m.2.chars ++ '\x7d' :: rest)
    simp [charsOfMembers_single, readMembers?, hname, hread, readDivider?, skipSpaces_cons, isSpace]
    rfl
  | cons next members =>
    rw [charsOfMembers_cons, List.length_append, List.length_cons, List.length_append,
      List.length_cons] at hlength
    have hread := h.value hm (by omega)
      (divides_cons (.inl rfl) (charsOfMembers (named (next :: members)) ++ rest))
    have hname := readName?_append m.1
      (m.2.chars ++ ',' :: (charsOfMembers (named (next :: members)) ++ rest))
    have hmore : readMembers? n (charsOfMembers (named (next :: members)) ++ rest) =
        some (named (next :: members), rest) :=
      h.members (List.cons_ne_nil next members) hmembers (by omega)
    simp [charsOfMembers_cons, readMembers?, hname, hread, readDivider?, skipSpaces_cons, isSpace,
      hmore]
    rfl

end Reads

/-- **The readers read what is written**, with as much fuel as there are characters. -/
theorem reads : ∀ n, Reads n
  | 0 => .zero
  | n + 1 =>
    have h := reads n
    { value := h.value_succ
      items := fun {items _} hne hitems hlength => by
        cases items with
        | nil => exact absurd rfl hne
        | cons => exact h.items_succ hitems hlength
      members := fun {members _} hne hmembers hlength => by
        cases members with
        | nil => exact absurd rfl hne
        | cons => exact h.members_succ hmembers hlength }

/-- **A document reads back from its text.** -/
theorem read?_write {j : Json} (h : j.WellFormed) : read? j.write = some j := by
  have hread : readValue? (j.chars.length + 1) (j.chars ++ []) = some (j, []) :=
    (reads (j.chars.length + 1)).value h (Nat.lt_succ_self _) (by simp [Divides])
  rw [List.append_nil] at hread
  rw [read?, write, String.toList_ofList, hread]
  rfl

end Json

end Stencil
