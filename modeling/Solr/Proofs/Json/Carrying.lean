import Solr.Proofs.Json.Records

/-! Readers that make the same of two values. What is made of a record depends on what stands
under the names that it declares, if each of them stands once and the rest can be skipped or,
for an open record, is kept. -/
namespace Solr.Json

/-- What is read from the first of two related values is read from the second. -/
def Carries {α : Type} (R : Node → Node → Prop) (d : Decoder α) : Prop :=
  ∀ n n' a, R n n' → d n = .ok a → d n' = .ok a

section Carries

variable {α β : Type} {R : Node → Node → Prop} {d : Decoder α}

theorem carries_eq (d : Decoder α) : Carries Eq d :=
  fun _ _ _ same read => same ▸ read

theorem Carries.map (carries : Carries R d) (f : α → β) :
    Carries R fun n => (d n).map f := by
  intro n n' b step mapped
  obtain ⟨a, read, rfl⟩ := map_eq_ok.mp mapped
  exact map_eq_ok.mpr ⟨a, carries n n' a step read, rfl⟩

/-- Only null is related to null. -/
theorem carries_optional (carries : Carries R d)
    (null : ∀ n n', R n n' → (n = .null ↔ n' = .null)) : Carries R (Decode.optional d) := by
  intro n n' o step read
  rcases Decode.optional_eq_ok.mp read with ⟨absent, rfl⟩ | ⟨present, a, some, rfl⟩
  · exact Decode.optional_eq_ok.mpr (.inl ⟨(null n n' step).mp absent, rfl⟩)
  · exact Decode.optional_eq_ok.mpr
      (.inr ⟨fun absent => present ((null n n' step).mpr absent), a, carries n n' a step some, rfl⟩)

end Carries

section Skip

theorem skipItems_eq_none {ending : Ending} {items : List Node} :
    skipItems ending items = none ↔ ending = .closed ∧ ∀ n ∈ items, n.skip = none := by
  induction items with
  | nil => cases ending <;> simp [skipItems]
  | cons n rest ih => cases skipped : n.skip <;> simp [skipItems, skipped, ih]

theorem skipMembers_eq_none {ending : Ending} {members : List (Except Fault String × Node)} :
    skipMembers ending members = none ↔ ending = .closed ∧ ∀ m ∈ members, m.2.skip = none := by
  induction members with
  | nil => cases ending <;> simp [skipMembers]
  | cons m rest ih => cases skipped : m.2.skip <;> simp [skipMembers, skipped, ih]

mutual

/-- What can be read can be skipped. -/
theorem skip_of_value : ∀ {n : Node} {j : Json}, Decode.value n = .ok j → n.skip = none
  | .null, _, _ | .boolean _, _, _ | .number _, _, _ | .string _, _, _ => rfl
  | .array _ _, _, read => by
    obtain ⟨closed, _, -, each⟩ := Decode.value_array_eq_ok.mp read
    exact skipItems_eq_none.mpr ⟨closed, skip_of_items each⟩
  | .object _ _, _, read => by
    obtain ⟨closed, _, -, each⟩ := Decode.value_object_eq_ok.mp read
    exact skipMembers_eq_none.mpr ⟨closed, skip_of_members each⟩
  | .unreadable _ _, _, read => by cases read

theorem skip_of_items : ∀ {items : List Node} {values : List Json},
    List.Forall₂ (fun n j => Decode.value n = .ok j) items values → ∀ n ∈ items, n.skip = none
  | [], _, _ => by simp
  | _ :: _, _, .cons first others =>
    List.forall_mem_cons.mpr ⟨skip_of_value first, skip_of_items others⟩

theorem skip_of_members : ∀ {members : List (Except Fault String × Node)}
    {pairs : List (String × Json)},
    List.Forall₂ (fun m p => m.1 = .ok p.1 ∧ Decode.value m.2 = .ok p.2) members pairs →
    ∀ m ∈ members, m.2.skip = none
  | [], _, _ => by simp
  | (_, _) :: _, _, .cons first others =>
    List.forall_mem_cons.mpr ⟨skip_of_value first.2, skip_of_members others⟩

end

end Skip

namespace Members

variable {α β : Type}

/-- What is built has passed the checks. -/
class Checked (m : Members α) : Prop where
  checks : ∀ find a, m.build find = .ok a →
    ∀ slot ∈ m.slots, ∀ n, find slot.key = some n → slot.check n = .ok ()

instance checked_required (key : String) (d : Decoder α) : (required key d).Checked where
  checks find a built slot member n found := by
    obtain rfl := List.mem_singleton.mp member
    obtain ⟨n', found', read⟩ := build_required_eq_ok.mp built
    obtain rfl : n = n' := Option.some.inj (found.symm.trans found')
    simp only [read, Except.map]

instance checked_defaulted (key : String) (absent : α) (d : Decoder α) :
    (defaulted key absent d).Checked where
  checks find a built slot member n found := by
    obtain rfl := List.mem_singleton.mp member
    rcases build_defaulted_eq_ok.mp built with ⟨missing, -⟩ | ⟨n', found', read⟩
    · cases found.symm.trans missing
    · obtain rfl : n = n' := Option.some.inj (found.symm.trans found')
      simp only [read, Except.map]

instance checked_optional (key : String) (d : Decoder α) : (optional key d).Checked :=
  checked_defaulted key none (Decode.optional d)

instance checked_seq (f : Members (α → β)) (x : Members α) [f.Checked] [x.Checked] :
    (f <*> x).Checked where
  checks find b built slot member n found := by
    obtain ⟨g, a, first, second, rfl⟩ := build_seq_eq_ok.mp built
    rcases List.mem_append.mp member with member | member
    · exact Checked.checks find g first slot member n found
    · exact Checked.checks find a second slot member n found

instance checked_map (f : α → β) (x : Members α) [x.Checked] : (f <$> x).Checked where
  checks find b whole slot member n found := by
    obtain ⟨a, built, rfl⟩ := build_map_eq_ok.mp whole
    exact Checked.checks find a built slot member n found

/-- What is built from the first of two findings is built from the second, where these are
related under every declared name. -/
def Carries (R : String → Node → Node → Prop) (m : Members α) : Prop :=
  ∀ find find' a, (∀ slot ∈ m.slots, Option.Rel (R slot.key) (find slot.key) (find' slot.key)) →
    m.build find = .ok a → m.build find' = .ok a

section Carries

variable {R : String → Node → Node → Prop} {key : String} {d : Decoder α}

theorem carries_required (carries : Json.Carries (R key) d) : (required key d).Carries R := by
  intro find find' a related built
  obtain ⟨n, found, read⟩ := build_required_eq_ok.mp built
  have rel := related _ (List.mem_singleton_self _)
  rw [found] at rel
  cases h : find' key with
  | none => rw [h] at rel; cases rel
  | some n' =>
    rw [h] at rel
    exact build_required_eq_ok.mpr ⟨n', h, carries n n' a (Option.rel_some_some.mp rel) read⟩

theorem carries_defaulted {absent : α} (carries : Json.Carries (R key) d) :
    (defaulted key absent d).Carries R := by
  intro find find' a related built
  have rel := related _ (List.mem_singleton_self _)
  rcases build_defaulted_eq_ok.mp built with ⟨missing, rfl⟩ | ⟨n, found, read⟩
  · rw [missing] at rel
    cases h : find' key with
    | none => exact build_defaulted_eq_ok.mpr (.inl ⟨h, rfl⟩)
    | some n' => rw [h] at rel; cases rel
  · rw [found] at rel
    cases h : find' key with
    | none => rw [h] at rel; cases rel
    | some n' =>
      rw [h] at rel
      exact build_defaulted_eq_ok.mpr
        (.inr ⟨n', h, carries n n' a (Option.rel_some_some.mp rel) read⟩)

theorem Carries.seq {f : Members (α → β)} {x : Members α} (left : f.Carries R)
    (right : x.Carries R) : (f <*> x).Carries R := by
  intro find find' b related built
  obtain ⟨g, a, first, second, rfl⟩ := build_seq_eq_ok.mp built
  obtain ⟨relatedLeft, relatedRight⟩ := List.forall_mem_append.mp related
  exact build_seq_eq_ok.mpr ⟨g, a, left find find' g relatedLeft first,
    right find find' a relatedRight second, rfl⟩

theorem Carries.map {x : Members α} (carries : x.Carries R) (f : α → β) :
    (f <$> x).Carries R := by
  intro find find' b related whole
  obtain ⟨a, built, rfl⟩ := build_map_eq_ok.mp whole
  exact build_map_eq_ok.mpr ⟨a, carries find find' a related built, rfl⟩

end Carries
end Members

namespace Record

variable {α : Type} {name : String}

/-- Declared names stand once at most. -/
def Once (slots : List Slot) (found : List (String × Node)) : Prop :=
  ∀ key, declares slots key = true → (found.map (·.1)).count key ≤ 1

theorem find?_cons (p : String × Node) (found : List (String × Node)) (key : String) :
    find? (p :: found) key = if p.1 = key then some p.2 else find? found key :=
  Entries.get?_cons p found key

/-- What is built from members that stand once has passed their checks. -/
theorem passes_of_build {m : Members α} [m.Checked] {other : Node → Except ReadError Unit}
    {found : List (String × Node)} {a : α} (single : Once m.slots found)
    (built : m.build (find? found) = .ok a)
    (others : ∀ p ∈ found, declares m.slots p.1 = false → other p.2 = .ok ()) :
    Passes m.slots other [] found where
  once key declared := by simpa using single key declared
  declared p member slot known := by
    have same : slot.key = p.1 := by simpa using List.find?_some known
    have declared : declares m.slots p.1 = true := by rw [declares_eq_isSome, known]; rfl
    have found := Entries.get?_of_count (single p.1 declared) member
    exact Members.Checked.checks _ a built slot (List.mem_of_find?_eq_some known) p.2 (same ▸ found)
  others := others

theorem Passes.allOnce {slots : List Slot} {other : Node → Except ReadError Unit}
    {found : List (String × Node)} (passes : Passes slots other [] found) :
    Once slots found := by
  intro key declared
  simpa using passes.once key declared

theorem ignored_eq_ok {n : Node} {u : Unit} : ignored n = .ok u ↔ n.skip = none := by
  unfold ignored
  split <;> simp_all

theorem kept_eq_ok {n : Node} {u : Unit} : kept n = .ok u ↔ ∃ j, Decode.value n = .ok j := by
  simp [kept, map_eq_ok]

/-- Objects are closed records when each declared name stands once at most, and the values of
all others can be skipped. -/
theorem closed_object_iff {m : Members α} [m.Checked]
    {members : List (Except Fault String × Node)} {ending : Ending} {a : α} :
    closed name m (.object members ending) = .ok a ↔
      ending = .closed ∧ ∃ found, members = named found ∧ Once m.slots found ∧
        (∀ p ∈ found, declares m.slots p.1 = false → p.2.skip = none) ∧
        m.build (find? found) = .ok a := by
  simp only [closed, bind_eq_ok, sweep_eq_ok_iff, check_eq_ok]
  constructor
  · rintro ⟨found, ⟨rfl, passes⟩, _, rfl, built⟩
    refine ⟨rfl, found, rfl, passes.allOnce, fun p member undeclared => ?_, built⟩
    exact ignored_eq_ok.mp (passes.others p member undeclared)
  · rintro ⟨rfl, found, rfl, single, others, built⟩
    have passes : Passes m.slots ignored [] found := passes_of_build single built
      fun p member undeclared => ignored_eq_ok.mpr (others p member undeclared)
    exact ⟨found, ⟨rfl, passes⟩, (), rfl, built⟩

/-- Members that are not declared, and can be skipped, may as well be left out. -/
theorem closed_filter {m : Members α} [m.Checked] (carries : m.Carries fun _ => Eq)
    (keep : String → Bool) (keeps : ∀ key, declares m.slots key = true → keep key = true)
    {found : List (String × Node)} (skips : ∀ p ∈ found, p.2.skip = none) {a : α} :
    closed name m (.object (named (found.filter fun p => keep p.1)) .closed) = .ok a ↔
      closed name m (.object (named found) .closed) = .ok a := by
  have single : Once m.slots (found.filter fun p => keep p.1) ↔ Once m.slots found := by
    refine forall₂_congr fun key declared => ?_
    have same := List.count_filter (l := found.map (·.1)) (keeps key declared)
    rw [← same, List.filter_map]
    rfl
  have lookups (slot : Slot) (member : slot ∈ m.slots) :
      find? (found.filter fun p => keep p.1) slot.key = find? found slot.key :=
    Entries.get?_filter keep (keeps _ (declares_of_mem (List.mem_map_of_mem member))) found
  have related (find find' : String → Option Node) (same : ∀ slot ∈ m.slots,
      find slot.key = find' slot.key) (built : m.build find = .ok a) : m.build find' = .ok a := by
    refine carries find find' a (fun slot member => ?_) built
    rw [same slot member]
    cases find' slot.key with
    | none => exact .none
    | some n => exact .some rfl
  simp only [closed_object_iff, true_and, named_inj, exists_eq_left', single]
  refine and_congr_right fun _ => and_congr ?_ ?_
  · exact iff_of_true (fun p member _ => skips p (List.mem_filter.mp member).1)
      fun p member _ => skips p member
  · exact ⟨related _ _ lookups, related _ _ fun slot member => (lookups slot member).symm⟩

/-- Under the name of a place stands the value at this place. -/
theorem find?_zip {keys : List String} (distinct : keys.Nodup) {items : List Node} {index : Nat}
    {key : String} (place : keys[index]? = some key) :
    find? (keys.zip items) key = items[index]? := by
  induction keys generalizing items index with
  | nil => simp at place
  | cons first keys ih =>
    obtain ⟨new, distinct⟩ := List.nodup_cons.mp distinct
    cases items with
    | nil => rfl
    | cons n items =>
      rw [List.zip_cons_cons, find?_cons]
      cases index with
      | zero =>
        obtain rfl : first = key := by simpa using place
        simp
      | succ index =>
        have later : keys[index]? = some key := by simpa using place
        have other : first ≠ key := fun same => new (same ▸ List.mem_of_getElem? later)
        rw [if_neg other, ih distinct later, List.getElem?_cons_succ]

/-- Arrays are closed records when they have no more values than there are names, and those
that have none are not required. -/
theorem closed_array_iff {m : Members α} [m.Checked] (distinct : (m.slots.map (·.key)).Nodup)
    {items : List Node} {ending : Ending} {a : α} :
    closed name m (.array items ending) = .ok a ↔
      ending = .closed ∧ items.length ≤ m.slots.length ∧
        (∀ slot ∈ m.slots.drop items.length, slot.required = false) ∧
        m.build (find? ((m.slots.map (·.key)).zip items)) = .ok a := by
  simp only [closed, bind_eq_ok, arrange_eq_ok_iff]
  constructor
  · rintro ⟨_, ⟨⟨rfl, short, absent, -⟩, rfl⟩, built⟩
    exact ⟨rfl, short, absent, built⟩
  · rintro ⟨rfl, short, absent, built⟩
    refine ⟨_, ⟨⟨rfl, short, absent, fun p member => ?_⟩, rfl⟩, built⟩
    obtain ⟨index, place⟩ := List.mem_iff_getElem?.mp member
    obtain ⟨slot, value⟩ := List.getElem?_zip_eq_some.mp place
    have named : (m.slots.map (·.key))[index]? = some p.1.key := by simp [slot]
    exact Members.Checked.checks _ a built p.1 (List.mem_of_getElem? slot) p.2
      ((find?_zip distinct named).trans value)

/-- Nothing but an object or an array is a closed record. -/
theorem closed_cases {m : Members α} {n : Node} {a : α} (read : closed name m n = .ok a) :
    (∃ members ending, n = .object members ending) ∨ ∃ items ending, n = .array items ending := by
  unfold closed at read
  split at read
  · exact .inl ⟨_, _, rfl⟩
  · exact .inr ⟨_, _, rfl⟩
  · exact absurd read (Node.unexpected_ne_ok _ _ _)

theorem opened_eq_ok_iff {m : Members α} [m.Checked] {n : Node} {a : α}
    {others : List (String × Node)} :
    opened name m n = .ok (a, others) ↔
      ∃ found, n = .object (named found) .closed ∧ Once m.slots found ∧
        (∀ p ∈ others, ∃ j, Decode.value p.2 = .ok j) ∧ m.build (find? found) = .ok a ∧
        others = found.filter fun p => !declares m.slots p.1 := by
  constructor
  · intro read
    unfold opened at read
    split at read
    · simp only [bind_eq_ok, sweep_eq_ok_iff, check_eq_ok] at read
      obtain ⟨found, ⟨rfl, passes⟩, -, rfl, b, built, same⟩ := read
      obtain ⟨rfl, rfl⟩ := Prod.mk.inj (Except.ok.inj same)
      refine ⟨found, rfl, passes.allOnce, fun p member => ?_, built, rfl⟩
      obtain ⟨member, undeclared⟩ := List.mem_filter.mp member
      exact kept_eq_ok.mp (passes.others p member (by simpa using undeclared))
    · exact absurd read (Node.unexpected_ne_ok _ _ _)
  · rintro ⟨found, rfl, single, others, built, rfl⟩
    have passes : Passes m.slots kept [] found := passes_of_build single built
      fun p member undeclared =>
        kept_eq_ok.mpr (others p (List.mem_filter.mpr ⟨member, by simp [undeclared]⟩))
    simp only [opened, sweep_eq_ok_iff.mpr ⟨rfl, passes⟩, bind, Except.bind, Ending.check, built,
      pure, Except.pure]

/-- Where the members of an object have been read as values, their keys have been read. -/
theorem named_of_value {members : List (Except Fault String × Node)}
    {pairs : List (String × Json)}
    (each : List.Forall₂ (fun m p => m.1 = .ok p.1 ∧ Decode.value m.2 = .ok p.2) members pairs) :
    ∃ found, members = named found ∧
      List.Forall₂ (fun p q => p.1 = q.1 ∧ Decode.value p.2 = .ok q.2) found pairs := by
  induction each with
  | nil => exact ⟨[], rfl, .nil⟩
  | @cons m p _ _ first _ ih =>
    obtain ⟨found, rfl, others⟩ := ih
    obtain ⟨key, read⟩ := first
    exact ⟨(p.1, m.2) :: found, by rw [← Prod.eta m, key]; rfl, .cons ⟨rfl, read⟩ others⟩

theorem readable_of_rest {others : List (String × Node)} {entries : Entries Json}
    (kept : rest others = .ok entries) : ∀ p ∈ others, ∃ j, Decode.value p.2 = .ok j := by
  intro p member
  obtain ⟨pairs, each, -⟩ := rest_eq_ok.mp kept
  obtain ⟨q, -, -, read⟩ := exists_of_mem_forall₂ each.flip member
  exact ⟨q.2, read⟩

/-- An open record, with the members that it does not declare. -/
def extended (name : String) (m : Members (Entries Json → α)) : Decoder α := fun n => do
  let (make, others) ← opened name m n
  return make (← rest others)

theorem extended_eq_ok_iff {m : Members (Entries Json → α)} [m.Checked] {n : Node} {a : α} :
    extended name m n = .ok a ↔
      ∃ found make entries, n = .object (named found) .closed ∧ Once m.slots found ∧
        m.build (find? found) = .ok make ∧
        rest (found.filter fun p => !declares m.slots p.1) = .ok entries ∧ make entries = a := by
  simp only [extended, bind_eq_ok, Prod.exists, opened_eq_ok_iff]
  constructor
  · rintro ⟨make, _, ⟨found, rfl, single, -, built, rfl⟩, entries, kept, same⟩
    exact ⟨found, make, entries, rfl, single, built, kept, Except.ok.inj same⟩
  · rintro ⟨found, make, entries, rfl, single, built, kept, rfl⟩
    exact ⟨make, _, ⟨found, rfl, single, readable_of_rest kept, built, rfl⟩, entries, kept, rfl⟩

end Record
end Solr.Json
