import Solr.Proofs.Json.Records

/-! Declared shapes of values, and what is left of a value when all that its shape does not
declare is taken away. Records that are read are left with just this. -/
namespace Solr.Json

/-- What stands for a member that is absent. -/
inductive Presence where
  | required
  /-- Nothing, as for one that is null. -/
  | optional
  | defaulted (absent : Json)

namespace Presence

/-- What is written under a name for a member that is found, or not. -/
def members (presence : Presence) (name : String) (restrict : Node → Option Json) :
    Option Node → Option (List (String × Json))
  | none =>
    match presence with
    | .required => none
    | .optional => some []
    | .defaulted absent => some [(name, absent)]
  | some n =>
    match presence, n with
    | .optional, .null => some []
    | _, n => (restrict n).map fun j => [(name, j)]

end Presence

inductive Shape where
  | any
  | integer (low high : Int)
  | double
  | boolean
  | list (item : Shape)
  | map (value : Shape)
  | record (members : List (String × Presence × Shape))

namespace Shape

def int64 : Shape :=
  integer (-0x8000000000000000) 0x7fffffffffffffff

def nat64 : Shape :=
  integer 0 0xffffffffffffffff

end Shape

mutual

/-- The value without what the shape does not declare; none if it has not this shape. Whole
numbers keep their value, within the bounds of the shape; a double is always written as one. -/
def Shape.restrict : Shape → Node → Option Json
  | .any, n => n.json?.map canonical
  | .integer low high, .number (.integer i) =>
    if low ≤ i ∧ i ≤ high then some (.number (.integer i)) else none
  | .double, .number (.integer i) => some (.number (.double (.ofInt i)))
  | .double, .number (.double x) => some (.number (.double x))
  | .boolean, .boolean b => some (.boolean b)
  | .list item, .array items .closed => (items.mapM item.restrict).map .array
  | .map value, .object members .closed => do
    let pairs ← members.mapM fun m => do return (← m.1.toOption, ← value.restrict m.2)
    return .object (Entries.ofList pairs)
  | .record members, n => do
    let found ← Record.fields? (members.map (·.1)) n
    return .object (← restrictMembers members (Record.find? found))
  | _, _ => none

/-- The declared members, in the order in which they are declared. -/
def restrictMembers : List (String × Presence × Shape) → (String → Option Node) →
    Option (List (String × Json))
  | [], _ => some []
  | (name, presence, shape) :: rest, find => do
    let first ← presence.members name shape.restrict (find name)
    return first ++ (← restrictMembers rest find)

end

attribute [local simp] Shape.restrict restrictMembers

theorem mapM_eq_some {α β : Type} {f : α → Option β} {l : List α} {r : List β} :
    l.mapM f = some r ↔ List.Forall₂ (fun a b => f a = some b) l r := by
  induction l generalizing r with
  | nil => simp [eq_comm]
  | cons a l ih =>
    simp only [List.mapM_cons, Option.bind_eq_bind, Option.bind_eq_some_iff, ih,
      List.forall₂_cons_left_iff, Option.pure_def, Option.some.injEq]
    constructor
    · rintro ⟨b, first, rest, others, rfl⟩
      exact ⟨b, rest, first, others, rfl⟩
    · rintro ⟨b, rest, first, others, rfl⟩
      exact ⟨b, first, rest, others, rfl⟩

mutual

/-- A value is read in its canonical form. -/
theorem canonical_of_value : ∀ (n : Node) {depth : Nat} {j : Json}, n.Within depth →
    Decode.value n = .ok j → n.json?.map canonical = some j
  | .null, _, _, _, read | .boolean _, _, _, _, read | .string _, _, _, _, read => by
    obtain rfl := Except.ok.inj read
    rfl
  | .number v, _, _, plain, read => by
    obtain rfl := Except.ok.inj read
    cases v with
    | integer | double => rfl
    | single => exact plain.elim
  | .array items ending, _, _, ⟨_, within⟩, read => by
    rw [Decode.value, bind_eq_ok] at read
    obtain ⟨values, read, closed⟩ := read
    obtain ⟨_, ended, same⟩ := bind_eq_ok.mp closed
    obtain rfl := Except.ok.inj same
    obtain rfl := check_eq_ok.mp ended
    obtain ⟨raw, shown, rfl⟩ := Option.map_eq_some_iff.mp (canonical_of_items items within read)
    simp only [Node.json?, shown, Option.map_some, canonical]
  | .object members ending, _, _, ⟨_, within⟩, read => by
    rw [Decode.value, bind_eq_ok] at read
    obtain ⟨pairs, read, closed⟩ := read
    obtain ⟨_, ended, same⟩ := bind_eq_ok.mp closed
    obtain rfl := Except.ok.inj same
    obtain rfl := check_eq_ok.mp ended
    obtain ⟨raw, shown, rfl⟩ :=
      Option.map_eq_some_iff.mp (canonical_of_members members within read)
    simp only [Node.json?, shown, Option.map_some, canonical]
  | .unreadable _ _, _, _, _, read => by cases read

theorem canonical_of_items : ∀ (items : List Node) {depth : Nat} {values : List Json},
    WithinItems depth items → valueItems items = .ok values →
    (items? items).map canonicalItems = some values
  | [], _, _, _, read => by
    obtain rfl := Except.ok.inj read
    rfl
  | n :: rest, _, _, ⟨first, others⟩, read => by
    simp only [valueItems, bind_eq_ok] at read
    obtain ⟨j, readFirst, values, readOthers, same⟩ := read
    obtain rfl := Except.ok.inj same
    obtain ⟨raw, shown, rfl⟩ := Option.map_eq_some_iff.mp (canonical_of_value n first readFirst)
    obtain ⟨more, shownOthers, rfl⟩ :=
      Option.map_eq_some_iff.mp (canonical_of_items rest others readOthers)
    simp [items?, shown, shownOthers, canonicalItems]

theorem canonical_of_members : ∀ (members : List (Except Fault String × Node)) {depth : Nat}
    {pairs : List (String × Json)}, WithinMembers depth members →
    valueMembers members = .ok pairs → (members? members).map canonicalMembers = some pairs
  | [], _, _, _, read => by
    obtain rfl := Except.ok.inj read
    rfl
  | (key, n) :: rest, _, _, ⟨first, others⟩, read => by
    simp only [valueMembers, bind_eq_ok, mapError_eq_ok] at read
    obtain ⟨key, rfl, j, readFirst, pairs, readOthers, same⟩ := read
    obtain rfl := Except.ok.inj same
    obtain ⟨raw, shown, rfl⟩ := Option.map_eq_some_iff.mp (canonical_of_value n first readFirst)
    obtain ⟨more, shownOthers, rfl⟩ :=
      Option.map_eq_some_iff.mp (canonical_of_members rest others readOthers)
    simp [members?, shown, shownOthers, canonicalMembers]

end

/-- What is written for a value that was read is what its shape leaves of it. -/
def Restricts {α : Type} (shape : Shape) (decode : Decoder α) (encode : α → Json) : Prop :=
  ∀ depth n a, n.Within depth → decode n = .ok a → shape.restrict n = some (encode a)

section Restricts

variable {α : Type} {shape : Shape} {d : Decoder α} {encode : α → Json}

theorem restricts_value : Restricts .any Decode.value id := by
  intro depth n j within read
  simp only [Shape.restrict]
  exact canonical_of_value n within read

theorem restricts_integer (name : String) (low high : Int) :
    Restricts (.integer low high) (Decode.integer name low high) .ofInt := by
  intro depth n i _ read
  obtain ⟨rfl, bounds⟩ := Decode.integer_eq_ok.mp read
  simp only [Shape.restrict, bounds, and_self, if_true, ofInt]

theorem restricts_int64 : Restricts .int64 Decode.int64 .ofInt :=
  restricts_integer _ _ _

theorem restricts_nat64 : Restricts .nat64 Decode.nat64 .ofNat := by
  intro depth n m _ read
  obtain ⟨rfl, small⟩ := Decode.nat64_eq_ok.mp read
  have bounds : (0 : Int) ≤ m ∧ (m : Int) ≤ 0xffffffffffffffff := by omega
  simp only [Shape.nat64, Shape.restrict, bounds, and_self, if_true, ofNat]

theorem restricts_double : Restricts .double Decode.double .ofDouble := by
  intro depth n x within read
  rw [ofDouble, if_pos (finite_double within read)]
  rcases Decode.double_cases read with ⟨i, rfl, rfl⟩ | rfl | ⟨y, rfl⟩
  · simp
  · simp
  · exact within.elim

theorem restricts_boolean : Restricts .boolean Decode.boolean .boolean := by
  intro depth n b _ read
  obtain rfl := Decode.boolean_eq_ok.mp read
  simp

theorem restricts_list (restricts : Restricts shape d encode) :
    Restricts (.list shape) (Decode.list d) fun values => .array (values.map encode) := by
  intro depth n values within read
  obtain ⟨items, rfl, each⟩ := Decode.list_eq_ok.mp read
  have all : items.mapM shape.restrict = some (values.map encode) := by
    apply mapM_eq_some.mpr
    rw [List.forall₂_map_right_iff]
    apply ((List.forall₂_and_left _ _).mpr ⟨withinItems_iff.mp within.2, each⟩).imp
    intro n a h
    exact restricts _ n a h.1 h.2
  simp only [Shape.restrict, all, Option.map_some]

theorem restricts_map (restricts : Restricts shape d encode) :
    Restricts (.map shape) (Decode.map d)
      fun entries => .object (entries.map fun p => (p.1, encode p.2)) := by
  intro depth n entries within read
  obtain ⟨members, pairs, rfl, each, rfl⟩ := Decode.map_eq_ok.mp read
  have all : (members.mapM fun m => do return (← m.1.toOption, ← shape.restrict m.2)) =
      some (pairs.map fun p => (p.1, encode p.2)) := by
    apply mapM_eq_some.mpr
    rw [List.forall₂_map_right_iff]
    apply ((List.forall₂_and_left _ _).mpr ⟨withinMembers_iff.mp within.2, each⟩).imp
    rintro ⟨key, n⟩ p ⟨inside, rfl, read⟩
    simp [Except.toOption, restricts _ n p.2 inside read]
  rw [Shape.restrict, all]
  exact congrArg (fun entries => some (object entries)) (Entries.ofList_map (fun _ => encode) pairs)

section Members

open Members

variable {key : String} {depth : Nat} {find : String → Option Node}
  {rest : List (String × Presence × Shape)}

theorem members_required (restricts : Restricts shape d encode) (shallow : Shallow depth find)
    {a : α} (built : (required key d).build find = .ok a) :
    Presence.required.members key shape.restrict (find key) = some [(key, encode a)] := by
  obtain ⟨n, found, read⟩ := build_required_eq_ok.mp built
  have written := restricts depth n a (shallow key n found) read
  simp only [found, Presence.members, written, Option.map_some]

theorem members_defaulted {absent : α} (restricts : Restricts shape d encode)
    (shallow : Shallow depth find) {a : α} (built : (defaulted key absent d).build find = .ok a) :
    (Presence.defaulted (encode absent)).members key shape.restrict (find key) =
      some [(key, encode a)] := by
  rcases build_defaulted_eq_ok.mp built with ⟨missing, rfl⟩ | ⟨n, found, read⟩
  · simp only [missing, Presence.members]
  · have written := restricts depth n a (shallow key n found) read
    simp only [found, Presence.members, written, Option.map_some]

theorem members_optional (restricts : Restricts shape d encode) (shallow : Shallow depth find)
    {a : Option α} (built : (Members.optional key d).build find = .ok a) :
    Presence.optional.members key shape.restrict (find key) =
      some (Json.optional key encode a) := by
  rcases build_defaulted_eq_ok.mp built with ⟨missing, rfl⟩ | ⟨n, found, read⟩
  · rw [missing]
    rfl
  · rcases Decode.optional_eq_ok.mp read with ⟨rfl, rfl⟩ | ⟨present, a, some, rfl⟩
    · rw [found]
      rfl
    · have written := restricts depth n a (shallow key n found) some
      rw [found]
      unfold Presence.members
      dsimp only
      split
      · exact absurd rfl present
      · rw [written]
        rfl

end Members

theorem restricts_closed {name : String} {m : Members α} (write : α → List (String × Json))
    {members : List (String × Presence × Shape)}
    (declared : m.slots.map (·.key) = members.map (·.1))
    (restricts : ∀ depth find a, Members.Shallow depth find → m.build find = .ok a →
      restrictMembers members find = some (write a)) :
    Restricts (.record members) (Record.closed name m) fun a => .object (write a) := by
  intro depth n a within read
  obtain ⟨found, fields, built, inside⟩ := Record.closed_eq_ok read
  rw [declared] at fields
  have written := restricts _ _ a (shallow_find? (inside depth within)) built
  rw [Shape.restrict, fields]
  simp only [Option.bind_eq_bind, Option.bind_some, written, Option.pure_def]

end Restricts

end Solr.Json
