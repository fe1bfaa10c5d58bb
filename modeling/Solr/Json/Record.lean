import Solr.Json.Decode

/-! Records: objects with declared members. A closed record ignores other members and
may also be written as an array of the values in the order of declaration; an open
record keeps the other members and has no array form. Values are checked in the order
of the text, absent members are reported afterwards, in the order of declaration. -/
namespace Solr.Json

/-- A declared member, and the fault of its value, if any. -/
structure Slot where
  key : String
  required : Bool
  check : Node → Except ReadError Unit

/-- Declared members, and the value that is made of those found. -/
structure Members (α : Type) where
  slots : List Slot
  build : (String → Option Node) → Except ReadError α

namespace Members

variable {α β : Type}

def required (key : String) (d : Decoder α) : Members α where
  slots := [⟨key, true, fun n => (d n).map fun _ => ()⟩]
  build find :=
    match find key with
    | some n => d n
    | none => .error (.mismatch (.missingField key))

/-- A member that may be left out; `absent` stands for it. -/
def defaulted (key : String) (absent : α) (d : Decoder α) : Members α where
  slots := [⟨key, false, fun n => (d n).map fun _ => ()⟩]
  build find :=
    match find key with
    | some n => d n
    | none => .ok absent

/-- A member that may be null or left out. -/
def optional (key : String) (d : Decoder α) : Members (Option α) :=
  defaulted key none (Decode.optional d)

instance : Applicative Members where
  pure a := ⟨[], fun _ => .ok a⟩
  seq f x := ⟨f.slots ++ (x ()).slots, fun find => do
    let g ← f.build find
    let a ← (x ()).build find
    return g a⟩

@[simp] theorem slots_seq (f : Members (α → β)) (x : Members α) :
    (f <*> x).slots = f.slots ++ x.slots := rfl

@[simp] theorem slots_map (f : α → β) (x : Members α) : (f <$> x).slots = x.slots := rfl

/-- Members are built one after the other, and all of them have to be found. -/
theorem build_seq_eq_ok {f : Members (α → β)} {x : Members α} {find : String → Option Node}
    {b : β} :
    (f <*> x).build find = .ok b ↔
      ∃ g a, f.build find = .ok g ∧ x.build find = .ok a ∧ g a = b := by
  simp only [Seq.seq, bind, Except.bind, pure, Except.pure]
  cases f.build find with
  | error e => simp
  | ok g =>
    cases x.build find with
    | error e => simp
    | ok a => simp

theorem build_required_eq_ok {key : String} {d : Decoder α} {find : String → Option Node}
    {a : α} :
    (required key d).build find = .ok a ↔ ∃ n, find key = some n ∧ d n = .ok a := by
  cases h : find key <;> simp [required, h]

theorem build_defaulted_eq_ok {key : String} {absent : α} {d : Decoder α}
    {find : String → Option Node} {a : α} :
    (defaulted key absent d).build find = .ok a ↔
      (find key = none ∧ a = absent) ∨ ∃ n, find key = some n ∧ d n = .ok a := by
  cases h : find key <;> simp [defaulted, h, eq_comm]

end Members

namespace Record

/-- A value that is not kept need only be well formed. -/
def ignored (n : Node) : Except ReadError Unit :=
  match n.skip with
  | none => .ok ()
  | some f => .error (.fault f)

/-- A value that is kept as it is. -/
def kept (n : Node) : Except ReadError Unit :=
  (Decode.value n).map fun _ => ()

def declares (slots : List Slot) (key : String) : Bool :=
  slots.any (·.key = key)

/-- Checks the members in the order of the text. A declared key stands once at most. -/
def sweep (slots : List Slot) (other : Node → Except ReadError Unit) :
    List String → List (Except Fault String × Node) → Except ReadError (List (String × Node))
  | _, [] => .ok []
  | seen, (key, n) :: rest => do
    let key ← key.mapError ReadError.fault
    match slots.find? (·.key = key) with
    | none =>
      other n
      return (key, n) :: (← sweep slots other seen rest)
    | some slot =>
      if key ∈ seen then throw (.mismatch (.duplicateField key))
      slot.check n
      return (key, n) :: (← sweep slots other (key :: seen) rest)

def find? (found : List (String × Node)) (key : String) : Option Node :=
  (found.find? (·.1 = key)).map (·.2)

/-- After the last value nothing but the end of the array may follow. -/
def atEnd : Ending → Except ReadError Unit
  | .closed => .ok ()
  | .stopped stop =>
    match stop.reading with
    | .endInList => .error (.fault .endInList)
    | .trailingComma => .error (.fault .trailingComma)
    | _ => .error (.fault .trailingCharacters)

/-- The values of an array by the names of the slots; `index` counts those before. -/
def arrange (expected : String) (ending : Ending) :
    Nat → List Slot → List Node → Except ReadError (List (String × Node))
  | _, [], [] => do
    atEnd ending
    return []
  | index, [], n :: rest =>
    .error (.surplus .trailingCharacters (index + (n :: rest).length) index)
  | index, slot :: slots, [] => do
    ending.check
    if slot.required then throw (.mismatch (.invalidLength index expected))
    arrange expected ending (index + 1) slots []
  | index, slot :: slots, n :: rest => do
    slot.check n
    return (slot.key, n) :: (← arrange expected ending (index + 1) slots rest)

variable {α : Type}

def closed (name : String) (m : Members α) : Decoder α
  | .object members ending => do
    let found ← sweep m.slots ignored [] members
    ending.check
    m.build (find? found)
  | .array items ending => do
    let expected := "struct " ++ name ++ " with " ++ ReadError.elements m.slots.length
    let found ← arrange expected ending 0 m.slots items
    m.build (find? found)
  | n => n.unexpected ("struct " ++ name)

/-- The members of an open record, and those that it does not declare, in the order
of the text. -/
def opened (name : String) (m : Members α) : Decoder (α × List (String × Node))
  | .object members ending => do
    let found ← sweep m.slots kept [] members
    ending.check
    let a ← m.build (find? found)
    return (a, found.filter fun p => !declares m.slots p.1)
  | n => n.unexpected ("struct " ++ name)

/-- The members that are not declared, by name, of equal names the last. -/
def rest (others : List (String × Node)) : Except ReadError (Entries Json) := do
  let pairs ← others.mapM fun (key, n) => do return (key, ← Decode.value n)
  return Entries.ofList pairs

end Record
end Solr.Json
