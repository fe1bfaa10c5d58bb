import Solr.Json.Decode
import Solr.Proofs.Json.Numerals

/-! The compact text of a value is read back as this value, by every reader that admits
the value's numbers and its nesting. A reader that takes the numbers for others reads the
same value with those numbers. -/
namespace Solr.Json

theorem hexValue?_hexDigit {n : Nat} (small : n < 16) :
    Text.hexValue? (hexDigit n) = some n := by
  revert n
  decide

/-- A character is read from its escape, whether or not surrogates have to pair. -/
theorem scanString_escape (paired : Bool) (c : Char) (s : List Char) :
    scanString paired .none (escape c ++ s) = push c (scanString paired .none s) := by
  by_cases short : c ∈ ['\"', '\\', '\x08', '\x0c', '\n', '\r', '\t']
  · simp only [List.mem_cons, List.not_mem_nil, or_false] at short
    rcases short with rfl | rfl | rfl | rfl | rfl | rfl | rfl <;> rfl
  · simp only [List.mem_cons, List.not_mem_nil, or_false, not_or] at short
    by_cases control : c.toNat < 32
    · have high := hexValue?_hexDigit (n := c.toNat / 16) (by omega)
      have low := hexValue?_hexDigit (n := c.toNat % 16) (by omega)
      have zero : Text.hexValue? '0' = some 0 := by decide
      have value : 16 * (c.toNat / 16) + c.toNat % 16 = c.toNat := Nat.div_add_mod ..
      have noTrail : ¬ (0xDC00 ≤ c.toNat ∧ c.toNat ≤ 0xDFFF) := by omega
      have noLead : ¬ (0xD800 ≤ c.toNat ∧ c.toNat ≤ 0xDBFF) := by omega
      cases paired <;>
        simp [escape, short, control, scanString, zero, high, low, value, noTrail, noLead]
    · simp [escape, short, control, scanString]

theorem scanString_escapes (paired : Bool) (text rest : List Char) :
    scanString paired .none (text.flatMap escape ++ '\"' :: rest) = .ok (text, rest) := by
  induction text with
  | nil => rfl
  | cons c text ih =>
    rw [List.flatMap_cons, List.append_assoc, scanString_escape, ih]
    rfl

theorem scanText_quoted (s : String) (rest : List Char) :
    scanText (s.toList.flatMap escape ++ '\"' :: rest) = .ok (.ok s, rest) := by
  simp [scanText, scanString_escapes, Except.map]

mutual

/-- A reader admits the numbers of a value, each from its own text, and its nesting. -/
def Legible (d : Dialect) (depth : Option Nat) : Json → Prop
  | .number n => ∃ numeral : Numeral, numeral.WellFormed ∧ numeral.text = numberText n ∧
      d.number numeral = some n
  | .array items => depth ≠ some 0 ∧ LegibleItems d (depth.map (· - 1)) items
  | .object members => depth ≠ some 0 ∧ LegibleMembers d (depth.map (· - 1)) members
  | .null | .boolean _ | .string _ => True

def LegibleItems (d : Dialect) (depth : Option Nat) : List Json → Prop
  | [] => True
  | j :: rest => Legible d depth j ∧ LegibleItems d depth rest

def LegibleMembers (d : Dialect) (depth : Option Nat) : List (String × Json) → Prop
  | [] => True
  | (_, j) :: rest => Legible d depth j ∧ LegibleMembers d depth rest

end

mutual

/-- A reader admits the nesting of a value, and takes the text of each number for the one
that `f` gives. -/
def LegibleAs (d : Dialect) (f : Number → Number) (depth : Option Nat) : Json → Prop
  | .number n => ∃ numeral : Numeral, numeral.WellFormed ∧ numeral.text = numberText n ∧
      d.number numeral = some (f n)
  | .array items => depth ≠ some 0 ∧ LegibleItemsAs d f (depth.map (· - 1)) items
  | .object members => depth ≠ some 0 ∧ LegibleMembersAs d f (depth.map (· - 1)) members
  | .null | .boolean _ | .string _ => True

def LegibleItemsAs (d : Dialect) (f : Number → Number) (depth : Option Nat) : List Json → Prop
  | [] => True
  | j :: rest => LegibleAs d f depth j ∧ LegibleItemsAs d f depth rest

def LegibleMembersAs (d : Dialect) (f : Number → Number) (depth : Option Nat) :
    List (String × Json) → Prop
  | [] => True
  | (_, j) :: rest => LegibleAs d f depth j ∧ LegibleMembersAs d f depth rest

end

mutual

/-- The same value with other numbers. -/
def mapNumbers (f : Number → Number) : Json → Json
  | .number n => .number (f n)
  | .array items => .array (mapNumbersItems f items)
  | .object members => .object (mapNumbersMembers f members)
  | .null => .null
  | .boolean b => .boolean b
  | .string s => .string s

def mapNumbersItems (f : Number → Number) : List Json → List Json
  | [] => []
  | j :: rest => mapNumbers f j :: mapNumbersItems f rest

def mapNumbersMembers (f : Number → Number) : List (String × Json) → List (String × Json)
  | [] => []
  | (key, j) :: rest => (key, mapNumbers f j) :: mapNumbersMembers f rest

end

mutual

/-- Every number in the value is such. -/
def Every (p : Number → Bool) : Json → Prop
  | .number n => p n
  | .array items => EveryItem p items
  | .object members => EveryMember p members
  | .null | .boolean _ | .string _ => True

def EveryItem (p : Number → Bool) : List Json → Prop
  | [] => True
  | j :: rest => Every p j ∧ EveryItem p rest

def EveryMember (p : Number → Bool) : List (String × Json) → Prop
  | [] => True
  | (_, j) :: rest => Every p j ∧ EveryMember p rest

end

mutual

def decEvery (p : Number → Bool) : (j : Json) → Decidable (j.Every p)
  | .number n => inferInstanceAs (Decidable (p n = true))
  | .array items => decEveryItem p items
  | .object members => decEveryMember p members
  | .null | .boolean _ | .string _ => isTrue trivial

def decEveryItem (p : Number → Bool) : (items : List Json) → Decidable (EveryItem p items)
  | [] => isTrue trivial
  | j :: rest => @instDecidableAnd _ _ (decEvery p j) (decEveryItem p rest)

def decEveryMember (p : Number → Bool) :
    (members : List (String × Json)) → Decidable (EveryMember p members)
  | [] => isTrue trivial
  | (_, j) :: rest => @instDecidableAnd _ _ (decEvery p j) (decEveryMember p rest)

end

instance (p : Number → Bool) (j : Json) : Decidable (j.Every p) :=
  decEvery p j

theorem everyItem_iff {p : Number → Bool} {items : List Json} :
    EveryItem p items ↔ ∀ j ∈ items, Every p j := by
  induction items with
  | nil => simp [EveryItem]
  | cons j rest ih => simp [EveryItem, ih]

theorem everyMember_iff {p : Number → Bool} {members : List (String × Json)} :
    EveryMember p members ↔ ∀ m ∈ members, Every p m.2 := by
  induction members with
  | nil => simp [EveryMember]
  | cons m rest ih => simp [EveryMember, ih]

mutual

theorem Legible.as {d : Dialect} : ∀ {depth : Option Nat} {j : Json}, Legible d depth j →
    LegibleAs d id depth j
  | _, .null, _ | _, .boolean _, _ | _, .string _, _ => trivial
  | _, .number _, legible => legible
  | _, .array _, ⟨admitted, legible⟩ => ⟨admitted, LegibleItems.as legible⟩
  | _, .object _, ⟨admitted, legible⟩ => ⟨admitted, LegibleMembers.as legible⟩

theorem LegibleItems.as {d : Dialect} : ∀ {depth : Option Nat} {items : List Json},
    LegibleItems d depth items → LegibleItemsAs d id depth items
  | _, [], _ => trivial
  | _, _ :: _, ⟨first, others⟩ => ⟨first.as, LegibleItems.as others⟩

theorem LegibleMembers.as {d : Dialect} : ∀ {depth : Option Nat}
    {members : List (String × Json)}, LegibleMembers d depth members →
    LegibleMembersAs d id depth members
  | _, [], _ => trivial
  | _, (_, _) :: _, ⟨first, others⟩ => ⟨first.as, LegibleMembers.as others⟩

end

mutual

theorem mapNumbers_id : ∀ j : Json, mapNumbers id j = j
  | .null | .boolean _ | .number _ | .string _ => rfl
  | .array items => by rw [mapNumbers, mapNumbersItems_id items]
  | .object members => by rw [mapNumbers, mapNumbersMembers_id members]

theorem mapNumbersItems_id : ∀ items : List Json, mapNumbersItems id items = items
  | [] => rfl
  | j :: rest => by rw [mapNumbersItems, mapNumbers_id j, mapNumbersItems_id rest]

theorem mapNumbersMembers_id : ∀ members : List (String × Json),
    mapNumbersMembers id members = members
  | [] => rfl
  | (key, j) :: rest => by rw [mapNumbersMembers, mapNumbers_id j, mapNumbersMembers_id rest]

end

/-- What stands between the items, and between the members. -/
def comma : Place → List Char
  | .first => []
  | .next => [',']

/-- The text of the items that are due at a place. -/
def itemsFrom (place : Place) : List Json → List Char
  | [] => []
  | j :: rest => comma place ++ j.compactChars ++ itemsFrom .next rest

def membersFrom (place : Place) : List (String × Json) → List Char
  | [] => []
  | (key, j) :: rest =>
    comma place ++ quoted key ++ ':' :: j.compactChars ++ membersFrom .next rest

theorem compactItems_eq (items : List Json) : compactItems items = itemsFrom .first items := by
  have others (j : Json) (rest : List Json) :
      compactItems (j :: rest) = j.compactChars ++ itemsFrom .next rest := by
    induction rest generalizing j with
    | nil => simp [compactItems, itemsFrom]
    | cons k rest ih =>
      rw [compactItems, ih k]
      · simp [itemsFrom, comma]
      · simp
  cases items with
  | nil => rfl
  | cons j rest => exact others j rest

theorem compactMembers_eq (members : List (String × Json)) :
    compactMembers members = membersFrom .first members := by
  have others (key : String) (j : Json) (rest : List (String × Json)) :
      compactMembers ((key, j) :: rest) =
        quoted key ++ ':' :: j.compactChars ++ membersFrom .next rest := by
    induction rest generalizing key j with
    | nil => simp [compactMembers, membersFrom]
    | cons p rest ih =>
      obtain ⟨nextKey, k⟩ := p
      rw [compactMembers, ih nextKey k]
      · simp [membersFrom, comma]
      · simp
  cases members with
  | nil => rfl
  | cons p rest => exact others p.1 p.2 rest

theorem Numeral.text_cons {n : Numeral} (wellFormed : n.WellFormed) :
    ∃ c s, n.text = c :: s ∧ (c = '-' ∨ c.isDigit) := by
  obtain ⟨c, whole, same⟩ := List.exists_cons_of_ne_nil wellFormed.whole
  have digit : c.isDigit := wellFormed.wholeDigits c (by simp [same])
  let others := fractionText n.fraction ++ exponentText n.exponent
  by_cases negative : n.negative
  · exact ⟨'-', n.whole ++ others, by simp [Numeral.text, negative, others], .inl rfl⟩
  · exact ⟨c, whole ++ others, by simp [Numeral.text, negative, same, others], .inr digit⟩

/-- A numeral begins with nothing that means something else. -/
theorem numeralStart_ne {c : Char} (start : c = '-' ∨ c.isDigit) :
    isBlank c = false ∧ c ≠ ']' ∧ c ≠ 'n' ∧ c ≠ 't' ∧ c ≠ 'f' ∧ c ≠ '\"' := by
  rcases start with rfl | digit
  · decide
  · refine ⟨?_, ?_, ?_, ?_, ?_, ?_⟩
    · by_contra blank
      simp only [isBlank, Bool.not_eq_false, Bool.or_eq_true, decide_eq_true_eq] at blank
      rcases blank with ((rfl | rfl) | rfl) | rfl <;> exact absurd digit (by decide)
    all_goals
      rintro rfl
      exact absurd digit (by decide)

theorem compactChars_cons {d : Dialect} {f : Number → Number} {depth : Option Nat} {j : Json}
    (legible : LegibleAs d f depth j) :
    ∃ c s, j.compactChars = c :: s ∧ isBlank c = false ∧ c ≠ ']' := by
  cases j with
  | null => exact ⟨_, _, rfl, by decide, by decide⟩
  | boolean b => cases b <;> exact ⟨_, _, rfl, by decide, by decide⟩
  | number n =>
    obtain ⟨numeral, wellFormed, same, -⟩ := legible
    obtain ⟨c, s, text, start⟩ := Numeral.text_cons wellFormed
    obtain ⟨notBlank, notEnd, -⟩ := numeralStart_ne start
    exact ⟨c, s, by rw [compactChars, ← same, text], notBlank, notEnd⟩
  | string s => exact ⟨_, _, rfl, by decide, by decide⟩
  | array items => exact ⟨_, _, rfl, by decide, by decide⟩
  | object members => exact ⟨_, _, rfl, by decide, by decide⟩

/-- A numeral at the front of a text is read as far as it goes. -/
theorem scanValue_numeral (d : Dialect) (fuel : Nat) (depth : Option Nat) {n : Numeral}
    (wellFormed : n.WellFormed) {rest : List Char} (closes : Closes rest) {value : Number}
    (admitted : d.number n = some value) :
    scanValue d (fuel + 1) depth (n.text ++ rest) = (.number value, some rest) := by
  obtain ⟨c, s, text, start⟩ := Numeral.text_cons wellFormed
  obtain ⟨notBlank, -, notNull, notTrue, notFalse, notQuote⟩ := numeralStart_ne start
  have scanned := Numeral.scan_text wellFormed closes
  rw [text, List.cons_append] at scanned ⊢
  have skipped : skipBlank (c :: (s ++ rest)) = c :: (s ++ rest) := by simp [skipBlank, notBlank]
  simp only [scanValue, skipped, if_neg notNull, if_neg notTrue, if_neg notFalse,
    if_neg notQuote, if_pos start, scanned, admitted]

theorem Closes.itemsFrom (items : List Json) (rest : List Char) :
    Closes (Json.itemsFrom .next items ++ ']' :: rest) := by
  cases items with
  | nil => exact .inr (.inl rfl)
  | cons j items => exact .inl rfl

theorem Closes.membersFrom (members : List (String × Json)) (rest : List Char) :
    Closes (Json.membersFrom .next members ++ '}' :: rest) := by
  cases members with
  | nil => exact .inr (.inr (.inl rfl))
  | cons p members => exact .inl rfl

theorem nextItem_comma (place : Place) {c : Char} {s : List Char} (notBlank : isBlank c = false)
    (notEnd : c ≠ ']') : nextItem place (comma place ++ c :: s) = .ok (some (c :: s), []) := by
  have separator : isBlank ',' = false := by decide
  cases place <;> simp [nextItem, comma, skipBlank, separator, notBlank, notEnd]

theorem nextItem_end (place : Place) (rest : List Char) :
    nextItem place (']' :: rest) = .ok (none, rest) := by
  have bracket : isBlank ']' = false := by decide
  simp [nextItem, skipBlank, bracket]

theorem nextKey_comma (place : Place) (s : List Char) :
    nextKey place (comma place ++ '\"' :: s) = .ok (some s, []) := by
  have separator : isBlank ',' = false := by decide
  have quote : isBlank '\"' = false := by decide
  cases place <;> simp [nextKey, comma, skipBlank, separator, quote]

theorem nextKey_end (place : Place) (rest : List Char) :
    nextKey place ('}' :: rest) = .ok (none, rest) := by
  have brace : isBlank '}' = false := by decide
  simp [nextKey, skipBlank, brace]

theorem afterColon_colon (s : List Char) : afterColon (':' :: s) = .ok s := by
  have colon : isBlank ':' = false := by decide
  simp [afterColon, skipBlank, colon]

theorem not_limited {depth : Option Nat} (admitted : depth ≠ some 0) (n : Node) :
    limited depth n = n := by
  rw [limited, if_neg admitted]

mutual

/-- A value is read from its text, up to what follows it. -/
theorem scanValue_compact (d : Dialect) (f : Number → Number) : ∀ (j : Json) (fuel : Nat)
    (depth : Option Nat) (rest : List Char), LegibleAs d f depth j →
    2 * j.compactChars.length ≤ fuel → Closes rest →
    scanValue d fuel depth (j.compactChars ++ rest) = (Node.ofJson (j.mapNumbers f), some rest)
  | .null, fuel, depth, rest, _, enough, _ => by
    obtain ⟨fuel, rfl⟩ : ∃ n, fuel = n + 1 := ⟨fuel - 1, by simp [compactChars] at enough; omega⟩
    simp [compactChars, scanValue, skipBlank, isBlank, scanWord, mapNumbers, Node.ofJson]
  | .boolean b, fuel, depth, rest, _, enough, _ => by
    obtain ⟨fuel, rfl⟩ : ∃ n, fuel = n + 1 :=
      ⟨fuel - 1, by cases b <;> simp [compactChars] at enough <;> omega⟩
    cases b <;>
      simp [compactChars, scanValue, skipBlank, isBlank, scanWord, mapNumbers, Node.ofJson]
  | .number n, fuel, depth, rest, legible, enough, closes => by
    obtain ⟨numeral, wellFormed, same, admitted⟩ := legible
    obtain ⟨c, s, text, -⟩ := Numeral.text_cons wellFormed
    rw [compactChars, ← same] at enough ⊢
    obtain ⟨fuel, rfl⟩ : ∃ n, fuel = n + 1 := ⟨fuel - 1, by simp [text] at enough; omega⟩
    exact scanValue_numeral d fuel depth wellFormed closes admitted
  | .string s, fuel, depth, rest, _, enough, _ => by
    obtain ⟨fuel, rfl⟩ : ∃ n, fuel = n + 1 :=
      ⟨fuel - 1, by simp [compactChars, quoted] at enough; omega⟩
    simp [compactChars, quoted, scanValue, skipBlank, isBlank, scanText_quoted, mapNumbers,
      Node.ofJson]
  | .array items, fuel, depth, rest, ⟨admitted, legible⟩, enough, _ => by
    have room : 2 * (itemsFrom .first items).length + 4 ≤ fuel := by
      simp [compactChars, compactItems_eq] at enough
      omega
    obtain ⟨fuel, rfl⟩ : ∃ n, fuel = n + 1 := ⟨fuel - 1, by omega⟩
    have scanned := scanItems_from d f items .first fuel (depth.map (· - 1)) rest legible (by omega)
    simp [compactChars, compactItems_eq, scanValue, skipBlank, isBlank, scanned,
      not_limited admitted, mapNumbers, Node.ofJson]
  | .object members, fuel, depth, rest, ⟨admitted, legible⟩, enough, _ => by
    have room : 2 * (membersFrom .first members).length + 4 ≤ fuel := by
      simp [compactChars, compactMembers_eq] at enough
      omega
    obtain ⟨fuel, rfl⟩ : ∃ n, fuel = n + 1 := ⟨fuel - 1, by omega⟩
    have scanned := scanMembers_from d f members .first fuel (depth.map (· - 1)) rest legible
      (by omega)
    simp [compactChars, compactMembers_eq, scanValue, skipBlank, isBlank, scanned,
      not_limited admitted, mapNumbers, Node.ofJson]

theorem scanItems_from (d : Dialect) (f : Number → Number) : ∀ (items : List Json)
    (place : Place) (fuel : Nat) (depth : Option Nat) (rest : List Char),
    LegibleItemsAs d f depth items → 2 * (itemsFrom place items).length + 3 ≤ fuel →
    scanItems d fuel depth place (itemsFrom place items ++ ']' :: rest) =
      (ofItems (mapNumbersItems f items), .closed, some rest)
  | [], place, fuel, depth, rest, _, enough => by
    obtain ⟨fuel, rfl⟩ : ∃ n, fuel = n + 1 := ⟨fuel - 1, by omega⟩
    simp [itemsFrom, scanItems, nextItem_end, mapNumbersItems, ofItems]
  | j :: items, place, fuel, depth, rest, ⟨first, others⟩, enough => by
    obtain ⟨fuel, rfl⟩ : ∃ n, fuel = n + 1 := ⟨fuel - 1, by omega⟩
    obtain ⟨c, s, text, notBlank, notEnd⟩ := compactChars_cons first
    simp only [itemsFrom, List.length_append] at enough
    have used : 1 ≤ j.compactChars.length := by simp [text]
    have scanned := scanValue_compact d f j fuel depth (itemsFrom .next items ++ ']' :: rest) first
      (by omega) (.itemsFrom items rest)
    have tail := scanItems_from d f items .next fuel depth rest others (by omega)
    rw [text] at scanned
    simp only [List.cons_append] at scanned
    simp only [itemsFrom, text, List.append_assoc, List.cons_append, scanItems,
      nextItem_comma place notBlank notEnd, scanned, tail, mapNumbersItems, ofItems]

theorem scanMembers_from (d : Dialect) (f : Number → Number) : ∀ (members : List (String × Json))
    (place : Place) (fuel : Nat) (depth : Option Nat) (rest : List Char),
    LegibleMembersAs d f depth members → 2 * (membersFrom place members).length + 3 ≤ fuel →
    scanMembers d fuel depth place (membersFrom place members ++ '}' :: rest) =
      (ofMembers (mapNumbersMembers f members), .closed, some rest)
  | [], place, fuel, depth, rest, _, enough => by
    obtain ⟨fuel, rfl⟩ : ∃ n, fuel = n + 1 := ⟨fuel - 1, by omega⟩
    simp [membersFrom, scanMembers, nextKey_end, mapNumbersMembers, ofMembers]
  | (key, j) :: members, place, fuel, depth, rest, ⟨first, others⟩, enough => by
    obtain ⟨fuel, rfl⟩ : ∃ n, fuel = n + 1 := ⟨fuel - 1, by omega⟩
    simp only [membersFrom, List.length_append, List.length_cons] at enough
    have scanned := scanValue_compact d f j fuel depth (membersFrom .next members ++ '}' :: rest)
      first (by omega) (.membersFrom members rest)
    have tail := scanMembers_from d f members .next fuel depth rest others (by omega)
    simp [membersFrom, quoted, scanMembers, nextKey_comma, scanText_quoted, afterColon_colon,
      scanned, tail, mapNumbersMembers, ofMembers]

end

/-- The outline of the compact text of a value is the value, with nothing after it. -/
theorem outline_compactAs {d : Dialect} {f : Number → Number} {j : Json}
    (legible : LegibleAs d f d.nesting j) :
    outline d j.compact = ⟨Node.ofJson (j.mapNumbers f), none⟩ := by
  have scanned := scanValue_compact d f j (2 * j.compactChars.length + 2) d.nesting [] legible
    (by omega) trivial
  rw [List.append_nil] at scanned
  simp [outline, compact, scanned, skipBlank]

theorem outline_compact {d : Dialect} {j : Json} (legible : Legible d d.nesting j) :
    outline d j.compact = ⟨Node.ofJson j, none⟩ := by
  rw [outline_compactAs legible.as, mapNumbers_id]

end Solr.Json
