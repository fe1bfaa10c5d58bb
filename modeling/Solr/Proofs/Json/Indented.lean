import Solr.Proofs.Json.Outlines

/-! The indented text of a value. It is read as the same value as the compact one: nothing
but blanks is added, and none of them stands within a token. -/
namespace Solr.Json

/-- The text of the items that are due at a place, each on a line of its own. -/
def indentedFrom (level : Nat) (place : Place) : List Json → List Char
  | [] => []
  | j :: rest =>
    comma place ++ newline level ++ j.indentedChars level ++ indentedFrom level .next rest

def indentedMembersFrom (level : Nat) (place : Place) : List (String × Json) → List Char
  | [] => []
  | (key, j) :: rest =>
    comma place ++ newline level ++ quoted key ++ ':' :: ' ' :: j.indentedChars level ++
      indentedMembersFrom level .next rest

theorem indentedItems_eq (level : Nat) (items : List Json) :
    indentedItems level items = indentedFrom level .first items := by
  have others (j : Json) (rest : List Json) : indentedItems level (j :: rest) =
      newline level ++ j.indentedChars level ++ indentedFrom level .next rest := by
    induction rest generalizing j with
    | nil => simp [indentedItems, indentedFrom]
    | cons k rest ih =>
      rw [indentedItems, ih k]
      · simp [indentedFrom, comma]
      · simp
  cases items with
  | nil => rfl
  | cons j rest => exact others j rest

theorem indentedMembers_eq (level : Nat) (members : List (String × Json)) :
    indentedMembers level members = indentedMembersFrom level .first members := by
  have others (key : String) (j : Json) (rest : List (String × Json)) :
      indentedMembers level ((key, j) :: rest) =
        newline level ++ quoted key ++ ':' :: ' ' :: j.indentedChars level ++
          indentedMembersFrom level .next rest := by
    induction rest generalizing key j with
    | nil => simp [indentedMembers, indentedMembersFrom]
    | cons p rest ih =>
      obtain ⟨nextKey, k⟩ := p
      rw [indentedMembers, ih nextKey k]
      · simp [indentedMembersFrom, comma]
      · simp
  cases members with
  | nil => rfl
  | cons p rest => exact others p.1 p.2 rest

theorem skipBlank_newline (level : Nat) (s : List Char) :
    skipBlank (newline level ++ s) = skipBlank s := by
  have blanks : ∀ c ∈ newline level, isBlank c = true := by
    simp [newline, isBlank]
  simp only [skipBlank, List.dropWhile_append_of_pos blanks]

theorem skipBlank_solid {c : Char} (solid : isBlank c = false) (s : List Char) :
    skipBlank (c :: s) = c :: s := by
  simp [skipBlank, solid]

theorem scanValue_blank (d : Dialect) (fuel : Nat) (depth : Option Nat) (s : List Char) :
    scanValue d fuel depth (' ' :: s) = scanValue d fuel depth s := by
  cases fuel with
  | zero => rfl
  | succ fuel => rfl

theorem nextItem_newline (place : Place) (level : Nat) {c : Char} {s : List Char}
    (solid : isBlank c = false) (notEnd : c ≠ ']') :
    nextItem place (comma place ++ newline level ++ c :: s) = .ok (some (c :: s), []) := by
  have separator : isBlank ',' = false := by decide
  cases place with
  | first => simp [nextItem, comma, skipBlank_newline, skipBlank_solid solid, notEnd]
  | next =>
    simp [nextItem, comma, skipBlank_newline, skipBlank_solid solid, skipBlank_solid separator,
      notEnd]

theorem nextItem_close (place : Place) (level : Nat) (rest : List Char) :
    nextItem place (newline level ++ ']' :: rest) = .ok (none, rest) := by
  have bracket : isBlank ']' = false := by decide
  simp [nextItem, skipBlank_newline, skipBlank_solid bracket]

theorem nextKey_newline (place : Place) (level : Nat) (s : List Char) :
    nextKey place (comma place ++ newline level ++ '\"' :: s) = .ok (some s, []) := by
  have separator : isBlank ',' = false := by decide
  have quote : isBlank '\"' = false := by decide
  cases place with
  | first => simp [nextKey, comma, skipBlank_newline, skipBlank_solid quote]
  | next =>
    simp [nextKey, comma, skipBlank_newline, skipBlank_solid quote, skipBlank_solid separator]

theorem nextKey_close (place : Place) (level : Nat) (rest : List Char) :
    nextKey place (newline level ++ '}' :: rest) = .ok (none, rest) := by
  have brace : isBlank '}' = false := by decide
  simp [nextKey, skipBlank_newline, skipBlank_solid brace]

theorem Closes.newline (level : Nat) (rest : List Char) : Closes (Json.newline level ++ rest) :=
  .inr (.inr (.inr rfl))

theorem Closes.indentedFrom (level under : Nat) (items : List Json) (rest : List Char) :
    Closes (Json.indentedFrom level .next items ++ (Json.newline under ++ rest)) := by
  cases items with
  | nil => exact .newline under rest
  | cons j items => exact .inl rfl

theorem Closes.indentedMembersFrom (level under : Nat) (members : List (String × Json))
    (rest : List Char) :
    Closes (Json.indentedMembersFrom level .next members ++ (Json.newline under ++ rest)) := by
  cases members with
  | nil => exact .newline under rest
  | cons p members => exact .inl rfl

theorem indentedChars_cons {d : Dialect} {f : Number → Number} {depth : Option Nat} {j : Json}
    (level : Nat) (legible : LegibleAs d f depth j) :
    ∃ c s, j.indentedChars level = c :: s ∧ isBlank c = false ∧ c ≠ ']' := by
  cases j with
  | null | boolean | number | string =>
    have same := compactChars_cons legible
    simpa only [indentedChars, compactChars] using same
  | array items => cases items <;> exact ⟨'[', _, rfl, by decide, by decide⟩
  | object members => cases members <;> exact ⟨_, _, rfl, by decide, by decide⟩

mutual

/-- A value is read from its indented text, at whatever level it stands. -/
theorem scanValue_indented (d : Dialect) (f : Number → Number) : ∀ (j : Json) (level fuel : Nat)
    (depth : Option Nat) (rest : List Char), LegibleAs d f depth j →
    2 * (j.indentedChars level).length ≤ fuel → Closes rest →
    scanValue d fuel depth (j.indentedChars level ++ rest) =
      (Node.ofJson (j.mapNumbers f), some rest)
  | .null, level, fuel, depth, rest, legible, enough, closes =>
    scanValue_compact d f .null fuel depth rest legible enough closes
  | .boolean b, level, fuel, depth, rest, legible, enough, closes =>
    scanValue_compact d f (.boolean b) fuel depth rest legible enough closes
  | .number n, level, fuel, depth, rest, legible, enough, closes =>
    scanValue_compact d f (.number n) fuel depth rest legible enough closes
  | .string s, level, fuel, depth, rest, legible, enough, closes =>
    scanValue_compact d f (.string s) fuel depth rest legible enough closes
  | .array [], level, fuel, depth, rest, legible, enough, closes =>
    scanValue_compact d f (.array []) fuel depth rest legible enough closes
  | .object [], level, fuel, depth, rest, legible, enough, closes =>
    scanValue_compact d f (.object []) fuel depth rest legible enough closes
  | .array (j :: items), level, fuel, depth, rest, ⟨admitted, legible⟩, enough, _ => by
    simp only [indentedChars, indentedItems_eq, List.length_append, List.length_cons] at enough
    obtain ⟨fuel, rfl⟩ : ∃ n, fuel = n + 1 := ⟨fuel - 1, by omega⟩
    have scanned := scanItems_indented d f (j :: items) .first (level + 1) level fuel
      (depth.map (· - 1)) rest legible (by omega)
    simp [indentedChars, indentedItems_eq, scanValue, skipBlank, isBlank, scanned,
      not_limited admitted, mapNumbers, Node.ofJson]
  | .object (p :: members), level, fuel, depth, rest, ⟨admitted, legible⟩, enough, _ => by
    simp only [indentedChars, indentedMembers_eq, List.length_append, List.length_cons] at enough
    obtain ⟨fuel, rfl⟩ : ∃ n, fuel = n + 1 := ⟨fuel - 1, by omega⟩
    have scanned := scanMembers_indented d f (p :: members) .first (level + 1) level fuel
      (depth.map (· - 1)) rest legible (by omega)
    simp [indentedChars, indentedMembers_eq, scanValue, skipBlank, isBlank, scanned,
      not_limited admitted, mapNumbers, Node.ofJson]

theorem scanItems_indented (d : Dialect) (f : Number → Number) : ∀ (items : List Json)
    (place : Place) (level under fuel : Nat) (depth : Option Nat) (rest : List Char),
    LegibleItemsAs d f depth items → 2 * (indentedFrom level place items).length + 3 ≤ fuel →
    scanItems d fuel depth place
      (indentedFrom level place items ++ (newline under ++ ']' :: rest)) =
      (ofItems (mapNumbersItems f items), .closed, some rest)
  | [], place, level, under, fuel, depth, rest, _, enough => by
    obtain ⟨fuel, rfl⟩ : ∃ n, fuel = n + 1 := ⟨fuel - 1, by omega⟩
    simp [indentedFrom, scanItems, nextItem_close, mapNumbersItems, ofItems]
  | j :: items, place, level, under, fuel, depth, rest, ⟨first, others⟩, enough => by
    obtain ⟨fuel, rfl⟩ : ∃ n, fuel = n + 1 := ⟨fuel - 1, by omega⟩
    obtain ⟨c, s, text, solid, notEnd⟩ := indentedChars_cons level first
    simp only [indentedFrom, List.length_append] at enough
    have used : 1 ≤ (j.indentedChars level).length := by simp [text]
    have scanned := scanValue_indented d f j level fuel depth
      (indentedFrom level .next items ++ (newline under ++ ']' :: rest)) first (by omega)
      (.indentedFrom level under items _)
    have tail := scanItems_indented d f items .next level under fuel depth rest others (by omega)
    rw [text, List.cons_append] at scanned
    have found := nextItem_newline place level (s := s ++
      (indentedFrom level .next items ++ (newline under ++ ']' :: rest))) solid notEnd
    simp only [List.append_assoc] at found
    simp only [indentedFrom, text, List.append_assoc, List.cons_append, scanItems, found, scanned,
      tail, mapNumbersItems, ofItems]

theorem scanMembers_indented (d : Dialect) (f : Number → Number) :
    ∀ (members : List (String × Json)) (place : Place) (level under fuel : Nat)
    (depth : Option Nat) (rest : List Char), LegibleMembersAs d f depth members →
    2 * (indentedMembersFrom level place members).length + 3 ≤ fuel →
    scanMembers d fuel depth place
      (indentedMembersFrom level place members ++ (newline under ++ '}' :: rest)) =
      (ofMembers (mapNumbersMembers f members), .closed, some rest)
  | [], place, level, under, fuel, depth, rest, _, enough => by
    obtain ⟨fuel, rfl⟩ : ∃ n, fuel = n + 1 := ⟨fuel - 1, by omega⟩
    simp [indentedMembersFrom, scanMembers, nextKey_close, mapNumbersMembers, ofMembers]
  | (key, j) :: members, place, level, under, fuel, depth, rest, ⟨first, others⟩, enough => by
    obtain ⟨fuel, rfl⟩ : ∃ n, fuel = n + 1 := ⟨fuel - 1, by omega⟩
    simp only [indentedMembersFrom, List.length_append, List.length_cons] at enough
    have scanned := scanValue_indented d f j level fuel depth
      (indentedMembersFrom level .next members ++ (newline under ++ '}' :: rest)) first (by omega)
      (.indentedMembersFrom level under members _)
    have tail := scanMembers_indented d f members .next level under fuel depth rest others
      (by omega)
    have found := nextKey_newline place level (key.toList.flatMap escape ++ '\"' :: ':' :: ' ' ::
      (j.indentedChars level ++
        (indentedMembersFrom level .next members ++ (newline under ++ '}' :: rest))))
    simp only [List.append_assoc] at found
    simp [indentedMembersFrom, quoted, scanMembers, found, scanText_quoted, afterColon_colon,
      scanValue_blank, scanned, tail, mapNumbersMembers, ofMembers]

end

/-- The outline of the indented text of a value, on lines of its own, is the value. -/
theorem outline_indentedAs {d : Dialect} {f : Number → Number} {j : Json}
    (legible : LegibleAs d f d.nesting j) :
    outline d (j.indented ++ "\n") = ⟨Node.ofJson (j.mapNumbers f), none⟩ := by
  have chars : (j.indented ++ "\n").toList = j.indentedChars 0 ++ ['\n'] := by simp [indented]
  have scanned := scanValue_indented d f j 0 (2 * (j.indentedChars 0 ++ ['\n']).length + 2)
    d.nesting ['\n'] legible (by simp; omega) (.inr (.inr (.inr rfl)))
  rw [outline, chars, scanned]
  rfl

mutual

/-- What an outline of an answer can hold is read back without bounds. -/
theorem unbounded_of_within : ∀ {depth : Nat} {j : Json}, (Node.ofJson j).Within depth →
    Legible .unbounded none j
  | _, .null, _ | _, .boolean _, _ | _, .string _, _ => trivial
  | _, .number (.integer i), _ => legible_ofInt none i
  | _, .number (.double x), finite => by
    have finite : x.isFinite = true := finite
    have legible := legible_ofDouble none x
    rwa [ofDouble, if_pos finite] at legible
  | _, .number (.single _), plain => plain.elim
  | _, .array _, ⟨_, within⟩ => ⟨by simp, unbounded_items within⟩
  | _, .object _, ⟨_, within⟩ => ⟨by simp, unbounded_members within⟩

theorem unbounded_items : ∀ {depth : Nat} {items : List Json},
    WithinItems depth (ofItems items) → LegibleItems .unbounded none items
  | _, [], _ => trivial
  | _, _ :: _, ⟨first, others⟩ => ⟨unbounded_of_within first, unbounded_items others⟩

theorem unbounded_members : ∀ {depth : Nat} {members : List (String × Json)},
    WithinMembers depth (ofMembers members) → LegibleMembers .unbounded none members
  | _, [], _ => trivial
  | _, (_, _) :: _, ⟨first, others⟩ => ⟨unbounded_of_within first, unbounded_members others⟩

end

/-- The indented text of a value stands for the same value as its compact text. -/
theorem read?_indented {j : Json} (legible : Legible .unbounded none j) :
    read? (j.indented ++ "\n") = some j := by
  have outlined : outline .unbounded (j.indented ++ "\n") = ⟨Node.ofJson (j.mapNumbers id), none⟩ :=
    outline_indentedAs legible.as
  rw [mapNumbers_id] at outlined
  simp [read?, outlined, json?_ofJson]

end Solr.Json
