import Mathlib.Data.List.Forall2
import Solr.Proofs.Entries
import Solr.Proofs.Json.Outlines

/-! Values that are read, written, and read again. What is written for a value that was read
needs no more levels than the outline that it was read from, and stands for the same value. -/
namespace Solr.Json

section Steps

variable {ε α β : Type}

/-- Two steps succeed when both do. -/
theorem bind_eq_ok {x : Except ε α} {f : α → Except ε β} {b : β} :
    x >>= f = .ok b ↔ ∃ a, x = .ok a ∧ f a = .ok b := by
  cases x <;> simp [bind, Except.bind]

theorem map_eq_ok {x : Except ε α} {f : α → β} {b : β} :
    x.map f = .ok b ↔ ∃ a, x = .ok a ∧ f a = b := by
  cases x <;> simp [Except.map]

theorem mapError_eq_ok {δ : Type} {x : Except ε α} {f : ε → δ} {a : α} :
    x.mapError f = .ok a ↔ x = .ok a := by
  cases x <;> simp [Except.mapError]

/-- A list is gone through when every item is. -/
theorem mapM_eq_ok {f : α → Except ε β} {l : List α} {r : List β} :
    l.mapM f = .ok r ↔ List.Forall₂ (fun a b => f a = .ok b) l r := by
  induction l generalizing r with
  | nil => simp [pure, Except.pure, eq_comm]
  | cons a l ih =>
    simp only [List.mapM_cons, bind_eq_ok, ih, List.forall₂_cons_left_iff, pure, Except.pure,
      Except.ok.injEq]
    constructor
    · rintro ⟨b, first, rest, others, rfl⟩
      exact ⟨b, rest, first, others, rfl⟩
    · rintro ⟨b, rest, first, others, rfl⟩
      exact ⟨b, first, rest, others, rfl⟩

theorem exists_of_mem_forall₂ {R : α → β → Prop} {l : List α} {r : List β}
    (related : List.Forall₂ R l r) {b : β} (member : b ∈ r) : ∃ a ∈ l, R a b := by
  induction related with
  | nil => cases member
  | cons first _ ih =>
    rcases List.mem_cons.mp member with rfl | member
    · exact ⟨_, List.mem_cons_self, first⟩
    · obtain ⟨a, inside, holds⟩ := ih member
      exact ⟨a, List.mem_cons_of_mem _ inside, holds⟩

theorem exists_forall₂_iff {R : α → β → Prop} {l : List α} :
    (∃ r, List.Forall₂ R l r) ↔ ∀ a ∈ l, ∃ b, R a b := by
  constructor
  · rintro ⟨r, related⟩ a member
    obtain ⟨b, -, holds⟩ := exists_of_mem_forall₂ related.flip member
    exact ⟨b, holds⟩
  · intro each
    induction l with
    | nil => exact ⟨[], .nil⟩
    | cons a l ih =>
      obtain ⟨⟨b, first⟩, others⟩ := List.forall_mem_cons.mp each
      obtain ⟨r, related⟩ := ih others
      exact ⟨b :: r, .cons first related⟩

/-- One item may be replaced by another that is related to as much. -/
theorem forall₂_replace {R : α → β → Prop} {before after : List α} {a a' : α} {l : List β}
    (as : ∀ b, R a b → R a' b) (related : List.Forall₂ R (before ++ a :: after) l) :
    List.Forall₂ R (before ++ a' :: after) l := by
  induction before generalizing l with
  | nil =>
    obtain ⟨b, l, first, others, rfl⟩ := List.forall₂_cons_left_iff.mp related
    exact .cons (as b first) others
  | cons c before ih =>
    obtain ⟨b, l, first, others, rfl⟩ := List.forall₂_cons_left_iff.mp related
    exact .cons first (ih others)

/-- Lists that differ at one place have related items at all places. -/
theorem rel_replace {R : α → α → Prop} (refl : ∀ a, R a a) {before after : List α} {a a' : α}
    {index : Nat} (here : index = before.length → R a a') :
    Option.Rel R (before ++ a :: after)[index]? (before ++ a' :: after)[index]? := by
  have same (o : Option α) : Option.Rel R o o := by
    cases o with
    | none => exact .none
    | some b => exact .some (refl b)
  induction before generalizing index with
  | nil =>
    cases index with
    | zero => exact .some (here rfl)
    | succ index => exact same _
  | cons b before ih =>
    cases index with
    | zero => exact .some (refl b)
    | succ index => exact ih fun place => here (congrArg (· + 1) place)

theorem rel_getElem? {R : α → β → Prop} {l : List α} {r : List β}
    (related : List.Forall₂ R l r) (index : Nat) : Option.Rel R l[index]? r[index]? := by
  induction related generalizing index with
  | nil => exact .none
  | cons first _ ih =>
    cases index with
    | zero => exact .some first
    | succ index => simpa using ih index

end Steps

theorem ofItems_eq_map (items : List Json) : ofItems items = items.map Node.ofJson := by
  induction items with
  | nil => rfl
  | cons j rest ih => rw [ofItems, ih, List.map_cons]

theorem ofMembers_eq_map (members : List (String × Json)) :
    ofMembers members = members.map fun p => (.ok p.1, Node.ofJson p.2) := by
  induction members with
  | nil => rfl
  | cons p rest ih => rw [ofMembers, ih, List.map_cons]

theorem within_ofArray {depth : Nat} {items : List Json} :
    (Node.ofJson (.array items)).Within (depth + 1) ↔
      ∀ j ∈ items, (Node.ofJson j).Within depth := by
  rw [Node.ofJson, Node.Within, withinItems_iff, ofItems_eq_map]
  simp only [Nat.zero_lt_succ, true_and, Nat.add_sub_cancel, List.forall_mem_map]

theorem within_ofObject {depth : Nat} {members : List (String × Json)} :
    (Node.ofJson (.object members)).Within (depth + 1) ↔
      ∀ p ∈ members, (Node.ofJson p.2).Within depth := by
  rw [Node.ofJson, Node.Within, withinMembers_iff, ofMembers_eq_map]
  simp only [Nat.zero_lt_succ, true_and, Nat.add_sub_cancel, List.forall_mem_map]

theorem check_eq_ok {ending : Ending} {u : Unit} : ending.check = .ok u ↔ ending = .closed := by
  cases ending <;> simp [Ending.check]

theorem Node.unexpected_ne_ok {α : Type} (n : Node) (expected : String) (a : α) :
    n.unexpected expected ≠ .ok a := by
  unfold Node.unexpected
  split <;> simp [Node.refuse]

namespace Decode

variable {α : Type}

theorem boolean_eq_ok {n : Node} {b : Bool} : boolean n = .ok b ↔ n = .boolean b := by
  unfold boolean
  split
  · simp
  · rename_i other
    simp only [Node.unexpected_ne_ok, false_iff]
    exact other b

theorem integer_eq_ok {name : String} {low high : Int} {n : Node} {i : Int} :
    integer name low high n = .ok i ↔ n = .number (.integer i) ∧ low ≤ i ∧ i ≤ high := by
  unfold integer
  split
  · rename_i other
    by_cases bounds : low ≤ other ∧ other ≤ high
    · simp only [bounds, and_self, if_true, Except.ok.injEq, Node.number.injEq,
        Number.integer.injEq]
      constructor
      · rintro rfl
        exact ⟨rfl, bounds⟩
      · rintro ⟨rfl, -⟩
        rfl
    · simp only [bounds, if_false, reduceCtorEq, Node.number.injEq, Number.integer.injEq,
        false_iff, not_and]
      rintro rfl least greatest
      exact bounds ⟨least, greatest⟩
  · rename_i other
    simp only [Node.unexpected_ne_ok, false_iff, not_and]
    intro same
    exact absurd same (other i)

theorem nat64_eq_ok {n : Node} {m : Nat} :
    nat64 n = .ok m ↔ n = .number (.integer m) ∧ m ≤ 0xffffffffffffffff := by
  unfold nat64
  rw [Json.map_eq_ok]
  simp only [integer_eq_ok]
  constructor
  · rintro ⟨i, ⟨rfl, least, greatest⟩, rfl⟩
    rw [Int.toNat_of_nonneg least]
    exact ⟨rfl, by omega⟩
  · rintro ⟨rfl, small⟩
    exact ⟨m, ⟨rfl, by omega, by omega⟩, Int.toNat_natCast m⟩

theorem double_cases {n : Node} {x : Double} (read : double n = .ok x) :
    (∃ i, n = .number (.integer i) ∧ x = .ofInt i) ∨ n = .number (.double x) ∨
      ∃ y, n = .number (.single y) := by
  unfold double at read
  split at read
  · rename_i i
    exact .inl ⟨i, rfl, (Except.ok.inj read).symm⟩
  · obtain rfl := Except.ok.inj read
    exact .inr (.inl rfl)
  · rename_i y
    exact .inr (.inr ⟨y, rfl⟩)
  · exact absurd read (Node.unexpected_ne_ok _ _ _)

/-- Null is the absent value, and nothing else is. -/
theorem optional_eq_ok {d : Decoder α} {n : Node} {o : Option α} :
    optional d n = .ok o ↔
      (n = .null ∧ o = none) ∨ n ≠ .null ∧ ∃ a, d n = .ok a ∧ o = some a := by
  by_cases null : n = .null
  · subst null
    simp [optional, eq_comm]
  · have present : optional d n = (d n).map some := by
      cases n <;> first | rfl | exact absurd rfl null
    rw [present, Json.map_eq_ok]
    simp only [null, false_and, false_or, ne_eq, not_false_eq_true, true_and, eq_comm (b := o)]

/-- Null is none of these. -/
theorem integer_null (name : String) (low high i : Int) : integer name low high .null ≠ .ok i := by
  simp [integer, Node.unexpected]

theorem nat64_null (n : Nat) : nat64 .null ≠ .ok n := by
  simp [nat64, integer, Node.unexpected, Except.map]

theorem double_null (x : Double) : double .null ≠ .ok x := by
  simp [double, Node.unexpected]

theorem boolean_null (b : Bool) : boolean .null ≠ .ok b := by
  simp [boolean, Node.unexpected]

theorem list_eq_ok {d : Decoder α} {n : Node} {values : List α} :
    list d n = .ok values ↔
      ∃ items, n = .array items .closed ∧
        List.Forall₂ (fun n a => d n = .ok a) items values := by
  unfold list
  split
  · rename_i items ending
    simp only [bind_eq_ok, check_eq_ok, pure, Except.pure, Except.ok.injEq, each, mapM_eq_ok,
      Node.array.injEq]
    constructor
    · rintro ⟨_, read, _, rfl, rfl⟩
      exact ⟨items, ⟨rfl, rfl⟩, read⟩
    · rintro ⟨_, ⟨rfl, rfl⟩, read⟩
      exact ⟨values, read, (), rfl, rfl⟩
  · rename_i other
    simp only [Node.unexpected_ne_ok, false_iff, not_exists, not_and]
    intro items same
    exact absurd same (other items .closed)

theorem map_eq_ok {d : Decoder α} {n : Node} {entries : Entries α} :
    map d n = .ok entries ↔
      ∃ members pairs, n = .object members .closed ∧
        List.Forall₂ (fun m p => m.1 = .ok p.1 ∧ d m.2 = .ok p.2) members pairs ∧
        entries = Entries.ofList pairs := by
  have step (m : Except Fault String × Node) (p : String × α) :
      (do let key ← m.1.mapError ReadError.fault; return (key, ← d m.2)) = Except.ok p ↔
        m.1 = .ok p.1 ∧ d m.2 = .ok p.2 := by
    simp only [bind_eq_ok, mapError_eq_ok, pure, Except.pure, Except.ok.injEq]
    constructor
    · rintro ⟨key, named, a, read, rfl⟩
      exact ⟨named, read⟩
    · rintro ⟨named, read⟩
      exact ⟨_, named, _, read, rfl⟩
  unfold map
  split
  · rename_i members ending
    simp only [bind_eq_ok, check_eq_ok, mapM_eq_ok, pure, Except.pure, Except.ok.injEq,
      Node.object.injEq] at step ⊢
    simp only [step]
    constructor
    · rintro ⟨pairs, read, _, rfl, rfl⟩
      exact ⟨members, pairs, ⟨rfl, rfl⟩, read, rfl⟩
    · rintro ⟨_, pairs, ⟨rfl, rfl⟩, read, rfl⟩
      exact ⟨pairs, read, (), rfl, rfl⟩
  · rename_i other
    simp only [Node.unexpected_ne_ok, false_iff, not_exists, not_and]
    intro members pairs same
    exact absurd same (other members .closed)

end Decode

/-- What is read from an outline can be written within the same depth, and what is written
is read as the same value. -/
def Recodes {α : Type} (depth : Nat) (decode : Decoder α) (encode : α → Json) : Prop :=
  ∀ n a, n.Within depth → decode n = .ok a →
    (Node.ofJson (encode a)).Within depth ∧ decode (.ofJson (encode a)) = .ok a

section Recodes

variable {α : Type} {depth : Nat} {d : Decoder α} {encode : α → Json}

theorem recodes_string : Recodes depth Decode.string .string :=
  fun _ _ _ _ => ⟨trivial, rfl⟩

theorem recodes_boolean : Recodes depth Decode.boolean .boolean :=
  fun _ _ _ _ => ⟨trivial, rfl⟩

theorem recodes_integer {name : String} {low high : Int} (least : -0x8000000000000000 ≤ low)
    (greatest : high ≤ 0xffffffffffffffff) :
    Recodes depth (Decode.integer name low high) .ofInt := by
  intro n i _ read
  obtain ⟨-, atLeast, atMost⟩ := Decode.integer_eq_ok.mp read
  exact ⟨⟨le_trans least atLeast, le_trans atMost greatest⟩,
    Decode.integer_eq_ok.mpr ⟨rfl, atLeast, atMost⟩⟩

theorem recodes_int64 : Recodes depth Decode.int64 .ofInt :=
  recodes_integer le_rfl (by decide)

theorem recodes_nat64 : Recodes depth Decode.nat64 .ofNat := by
  intro n m _ read
  obtain ⟨-, small⟩ := Decode.nat64_eq_ok.mp read
  exact ⟨⟨by omega, by exact_mod_cast small⟩, Decode.nat64_eq_ok.mpr ⟨rfl, small⟩⟩

/-- A number that is read as a double is finite. -/
theorem finite_double {n : Node} {x : Double} (within : n.Within depth)
    (read : Decode.double n = .ok x) : x.isFinite := by
  rcases Decode.double_cases read with ⟨i, rfl, rfl⟩ | rfl | ⟨y, rfl⟩
  · have bounds : -0x8000000000000000 ≤ i ∧ i ≤ 0xffffffffffffffff := within
    exact Binary.isFinite_ofInt (by omega)
  · exact within
  · exact within.elim

theorem recodes_double : Recodes depth Decode.double .ofDouble := by
  intro n x within read
  have finite := finite_double within read
  rw [ofDouble, if_pos finite]
  exact ⟨finite, rfl⟩

/-- The absent value is null, which stands for nothing else. -/
theorem recodes_ofOption (codes : Recodes depth d encode) (present : ∀ a, d .null ≠ .ok a) :
    Recodes depth (Decode.optional d) (.ofOption encode) := by
  intro n o within read
  rcases Decode.optional_eq_ok.mp read with ⟨-, rfl⟩ | ⟨-, a, found, rfl⟩
  · exact ⟨trivial, rfl⟩
  · obtain ⟨within, again⟩ := codes n a within found
    refine ⟨within, Decode.optional_eq_ok.mpr (.inr ⟨?_, a, again, rfl⟩)⟩
    intro null
    have absent : d .null = .ok a := null ▸ again
    exact present a absent

theorem recodes_list (codes : Recodes depth d encode) :
    Recodes (depth + 1) (Decode.list d) fun values => .array (values.map encode) := by
  intro n values within read
  obtain ⟨items, rfl, each⟩ := Decode.list_eq_ok.mp read
  have recoded : ∀ a ∈ values,
      (Node.ofJson (encode a)).Within depth ∧ d (.ofJson (encode a)) = .ok a := by
    intro a member
    obtain ⟨n, inside, read⟩ := exists_of_mem_forall₂ each member
    exact codes n a (withinItems_iff.mp within.2 n inside) read
  constructor
  · apply within_ofArray.mpr
    intro j member
    obtain ⟨a, inside, rfl⟩ := List.mem_map.mp member
    exact (recoded a inside).1
  · refine Decode.list_eq_ok.mpr ⟨_, rfl, ?_⟩
    rw [ofItems_eq_map, List.map_map, List.forall₂_map_left_iff]
    exact List.forall₂_same.mpr fun a member => (recoded a member).2

theorem recodes_map (codes : Recodes depth d encode) :
    Recodes (depth + 1) (Decode.map d)
      fun entries => .object (entries.map fun p => (p.1, encode p.2)) := by
  intro n entries within read
  obtain ⟨members, pairs, rfl, each, rfl⟩ := Decode.map_eq_ok.mp read
  have recoded : ∀ p ∈ Entries.ofList pairs,
      (Node.ofJson (encode p.2)).Within depth ∧ d (.ofJson (encode p.2)) = .ok p.2 := by
    intro p member
    obtain ⟨m, inside, -, read⟩ := exists_of_mem_forall₂ each (Entries.mem_ofList member)
    exact codes m.2 p.2 (withinMembers_iff.mp within.2 m inside) read
  constructor
  · apply within_ofObject.mpr
    intro q member
    obtain ⟨p, inside, rfl⟩ := List.mem_map.mp member
    exact (recoded p inside).1
  · refine Decode.map_eq_ok.mpr ⟨_, Entries.ofList pairs, rfl, ?_, ?_⟩
    · rw [ofMembers_eq_map, List.map_map, List.forall₂_map_left_iff]
      exact List.forall₂_same.mpr fun p member => ⟨rfl, (recoded p member).2⟩
    · exact (Entries.ofList_of_sorted (Entries.ofList_sorted pairs)).symm

end Recodes

theorem valueItems_eq_ok {items : List Node} {values : List Json} :
    valueItems items = .ok values ↔
      List.Forall₂ (fun n j => Decode.value n = .ok j) items values := by
  induction items generalizing values with
  | nil => simp [valueItems, eq_comm]
  | cons n rest ih =>
    simp only [valueItems, bind_eq_ok, ih, List.forall₂_cons_left_iff, pure, Except.pure,
      Except.ok.injEq]
    constructor
    · rintro ⟨j, first, values, others, rfl⟩
      exact ⟨j, values, first, others, rfl⟩
    · rintro ⟨j, values, first, others, rfl⟩
      exact ⟨j, first, values, others, rfl⟩

theorem valueMembers_eq_ok {members : List (Except Fault String × Node)}
    {pairs : List (String × Json)} :
    valueMembers members = .ok pairs ↔
      List.Forall₂ (fun m p => m.1 = .ok p.1 ∧ Decode.value m.2 = .ok p.2) members pairs := by
  induction members generalizing pairs with
  | nil => simp [valueMembers, eq_comm]
  | cons m rest ih =>
    simp only [valueMembers, bind_eq_ok, mapError_eq_ok, ih, List.forall₂_cons_left_iff, pure,
      Except.pure, Except.ok.injEq]
    constructor
    · rintro ⟨key, named, j, first, pairs, others, rfl⟩
      exact ⟨(key, j), pairs, ⟨named, first⟩, others, rfl⟩
    · rintro ⟨p, pairs, ⟨named, first⟩, others, rfl⟩
      exact ⟨p.1, named, p.2, first, pairs, others, rfl⟩

namespace Decode

theorem value_array_eq_ok {items : List Node} {ending : Ending} {j : Json} :
    value (.array items ending) = .ok j ↔
      ending = .closed ∧ ∃ values, j = .array values ∧
        List.Forall₂ (fun n j => value n = .ok j) items values := by
  simp only [value, bind_eq_ok, check_eq_ok, valueItems_eq_ok, pure, Except.pure, Except.ok.injEq]
  constructor
  · rintro ⟨values, each, _, rfl, rfl⟩
    exact ⟨rfl, values, rfl, each⟩
  · rintro ⟨rfl, values, rfl, each⟩
    exact ⟨values, each, (), rfl, rfl⟩

theorem value_object_eq_ok {members : List (Except Fault String × Node)} {ending : Ending}
    {j : Json} :
    value (.object members ending) = .ok j ↔
      ending = .closed ∧ ∃ pairs, j = .object (Entries.ofList pairs) ∧
        List.Forall₂ (fun m p => m.1 = .ok p.1 ∧ value m.2 = .ok p.2) members pairs := by
  simp only [value, bind_eq_ok, check_eq_ok, valueMembers_eq_ok, pure, Except.pure,
    Except.ok.injEq]
  constructor
  · rintro ⟨pairs, each, _, rfl, rfl⟩
    exact ⟨rfl, pairs, rfl, each⟩
  · rintro ⟨rfl, pairs, rfl, each⟩
    exact ⟨pairs, each, (), rfl, rfl⟩

end Decode

theorem valueItems_ofItems {items : List Json}
    (each : ∀ j ∈ items, Decode.value (.ofJson j) = .ok j) :
    valueItems (ofItems items) = .ok items := by
  induction items with
  | nil => rfl
  | cons j rest ih =>
    obtain ⟨first, others⟩ := List.forall_mem_cons.mp each
    simp only [ofItems, valueItems, first, ih others, bind, Except.bind, pure, Except.pure]

theorem valueMembers_ofMembers {members : List (String × Json)}
    (each : ∀ p ∈ members, Decode.value (.ofJson p.2) = .ok p.2) :
    valueMembers (ofMembers members) = .ok members := by
  induction members with
  | nil => rfl
  | cons p rest ih =>
    obtain ⟨first, others⟩ := List.forall_mem_cons.mp each
    simp only [ofMembers, valueMembers, Except.mapError, first, ih others, bind, Except.bind,
      pure, Except.pure]

mutual

theorem recoded_value : ∀ (n : Node) {depth : Nat} {j : Json}, n.Within depth →
    Decode.value n = .ok j →
    (Node.ofJson j).Within depth ∧ Decode.value (.ofJson j) = .ok j
  | .null, _, _, _, read | .boolean _, _, _, _, read | .string _, _, _, _, read => by
    obtain rfl := Except.ok.inj read
    exact ⟨trivial, rfl⟩
  | .number _, _, _, plain, read => by
    obtain rfl := Except.ok.inj read
    exact ⟨plain, rfl⟩
  | .array items ending, depth, j, ⟨positive, within⟩, read => by
    rw [Decode.value, bind_eq_ok] at read
    obtain ⟨values, read, closed⟩ := read
    obtain ⟨-, -, same⟩ := bind_eq_ok.mp closed
    obtain rfl := Except.ok.inj same
    have each := recoded_items items within read
    obtain ⟨depth, rfl⟩ : ∃ less, depth = less + 1 := ⟨depth - 1, by omega⟩
    refine ⟨within_ofArray.mpr fun j member => (each j member).1, ?_⟩
    rw [Node.ofJson, Decode.value, valueItems_ofItems fun j member => (each j member).2]
    rfl
  | .object members ending, depth, j, ⟨positive, within⟩, read => by
    rw [Decode.value, bind_eq_ok] at read
    obtain ⟨pairs, read, closed⟩ := read
    obtain ⟨-, -, same⟩ := bind_eq_ok.mp closed
    obtain rfl := Except.ok.inj same
    have all := recoded_members members within read
    have each : ∀ p ∈ Entries.ofList pairs, _ := fun p member =>
      all p (Entries.mem_ofList member)
    obtain ⟨depth, rfl⟩ : ∃ less, depth = less + 1 := ⟨depth - 1, by omega⟩
    refine ⟨within_ofObject.mpr fun p member => (each p member).1, ?_⟩
    rw [Node.ofJson, Decode.value, valueMembers_ofMembers fun p member => (each p member).2]
    simp only [Ending.check, bind, Except.bind, pure, Except.pure,
      Entries.ofList_of_sorted (Entries.ofList_sorted pairs)]
  | .unreadable _ _, _, _, _, read => by cases read

theorem recoded_items : ∀ (items : List Node) {depth : Nat} {values : List Json},
    WithinItems depth items → valueItems items = .ok values →
    ∀ j ∈ values, (Node.ofJson j).Within depth ∧ Decode.value (.ofJson j) = .ok j
  | [], _, _, _, read => by
    obtain rfl := Except.ok.inj read
    simp
  | n :: rest, _, _, ⟨first, others⟩, read => by
    simp only [valueItems, bind_eq_ok] at read
    obtain ⟨j, readFirst, values, readOthers, same⟩ := read
    obtain rfl := Except.ok.inj same
    exact List.forall_mem_cons.mpr
      ⟨recoded_value n first readFirst, recoded_items rest others readOthers⟩

theorem recoded_members : ∀ (members : List (Except Fault String × Node)) {depth : Nat}
    {pairs : List (String × Json)}, WithinMembers depth members →
    valueMembers members = .ok pairs →
    ∀ p ∈ pairs, (Node.ofJson p.2).Within depth ∧ Decode.value (.ofJson p.2) = .ok p.2
  | [], _, _, _, read => by
    obtain rfl := Except.ok.inj read
    simp
  | (key, n) :: rest, _, _, ⟨first, others⟩, read => by
    simp only [valueMembers, bind_eq_ok] at read
    obtain ⟨key, -, j, readFirst, pairs, readOthers, same⟩ := read
    obtain rfl := Except.ok.inj same
    exact List.forall_mem_cons.mpr
      ⟨recoded_value n first readFirst, recoded_members rest others readOthers⟩

end

mutual

/-- A value can be read from what is written for it. -/
theorem value_ofJson : ∀ j : Json, ∃ k, Decode.value (.ofJson j) = .ok k
  | .null | .boolean _ | .number _ | .string _ => ⟨_, rfl⟩
  | .array items => by
    obtain ⟨values, read⟩ := valueItems_ofJson items
    exact ⟨.array values, by simp only [Node.ofJson, Decode.value, read]; rfl⟩
  | .object members => by
    obtain ⟨pairs, read⟩ := valueMembers_ofJson members
    exact ⟨.object (Entries.ofList pairs), by simp only [Node.ofJson, Decode.value, read]; rfl⟩

theorem valueItems_ofJson : ∀ items : List Json, ∃ values, valueItems (ofItems items) = .ok values
  | [] => ⟨[], rfl⟩
  | j :: rest => by
    obtain ⟨k, first⟩ := value_ofJson j
    obtain ⟨values, others⟩ := valueItems_ofJson rest
    exact ⟨k :: values, by simp only [ofItems, valueItems, first, others]; rfl⟩

theorem valueMembers_ofJson : ∀ members : List (String × Json),
    ∃ pairs, valueMembers (ofMembers members) = .ok pairs
  | [] => ⟨[], rfl⟩
  | (key, j) :: rest => by
    obtain ⟨k, first⟩ := value_ofJson j
    obtain ⟨pairs, others⟩ := valueMembers_ofJson rest
    exact ⟨(key, k) :: pairs, by simp only [ofMembers, valueMembers, first, others]; rfl⟩

end

theorem recodes_value (depth : Nat) : Recodes depth Decode.value id :=
  fun n _ within read => recoded_value n within read

section Texts

variable {α : Type} {d : Decoder α} {encode : α → Json} {text : String} {a : α}

/-- A text is read when its value is, and nothing follows. -/
theorem decodeText_eq_ok {dialect : Dialect} :
    decodeText d dialect text = .ok a ↔
      d (outline dialect text).root = .ok a ∧ (outline dialect text).trailing = none := by
  unfold decodeText
  simp only [bind_eq_ok]
  cases (outline dialect text).trailing <;> simp [pure, Except.pure]

/-- From the compact text of a value is read what is read from the value. -/
theorem decodeText_service {j : Json} (within : (Node.ofJson j).Within 127)
    (steady : j.Every Number.isSteady) :
    decodeText d .service j.compact = .ok a ↔ d (.ofJson j) = .ok a := by
  rw [decodeText_eq_ok, outline_service within steady]
  exact and_iff_left rfl

/-- What is written for a value that was read from a text is a text of the same value, if each
double in it is read as itself. -/
theorem decodeText_compact (codes : Recodes 127 d encode)
    (read : decodeText d .service text = .ok a) (steady : (encode a).Every Number.isSteady) :
    decodeText d .service (encode a).compact = .ok a := by
  obtain ⟨found, -⟩ := decodeText_eq_ok.mp read
  obtain ⟨within, again⟩ := codes _ a (within_outline text) found
  exact (decodeText_service within steady).mpr again

end Texts

end Solr.Json
