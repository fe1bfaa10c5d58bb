import Solr.Proofs.Json.Canonical
import Solr.Proofs.Json.Carrying
import Solr.Proofs.Json.Shape

/-! Values that are read first as they are, and then as something else. An open record keeps
what it does not declare, so that nothing is lost on the way. -/
namespace Solr.Json

mutual

/-- A canonical value is read as itself. -/
theorem IsCanonical.value : ∀ {j : Json}, j.IsCanonical → Decode.value (.ofJson j) = .ok j
  | .null, _ | .boolean _, _ | .number _, _ | .string _, _ => rfl
  | .array _, canonical => Decode.value_array_eq_ok.mpr
      ⟨rfl, _, rfl, canonical_items (isCanonical_array.mp canonical)⟩
  | .object _, canonical => by
    obtain ⟨sorted, each⟩ := isCanonical_object.mp canonical
    exact Decode.value_object_eq_ok.mpr
      ⟨rfl, _, by rw [Entries.ofList_of_sorted sorted], canonical_members each⟩

theorem canonical_items : ∀ {items : List Json}, (∀ j ∈ items, j.IsCanonical) →
    List.Forall₂ (fun n j => Decode.value n = .ok j) (ofItems items) items
  | [], _ => .nil
  | _ :: _, each => .cons (each _ List.mem_cons_self).value
      (canonical_items fun j member => each j (List.mem_cons_of_mem _ member))

theorem canonical_members : ∀ {members : List (String × Json)}, (∀ p ∈ members, p.2.IsCanonical) →
    List.Forall₂ (fun m p => m.1 = .ok p.1 ∧ Decode.value m.2 = .ok p.2) (ofMembers members) members
  | [], _ => .nil
  | (_, _) :: _, each => .cons ⟨rfl, (each _ List.mem_cons_self).value⟩
      (canonical_members fun p member => each p (List.mem_cons_of_mem _ member))

end

/-- What is read from the outline of a text is canonical. -/
theorem isCanonical_of_value {n : Node} {depth : Nat} {j : Json} (within : n.Within depth)
    (read : Decode.value n = .ok j) : j.IsCanonical := by
  obtain ⟨raw, -, rfl⟩ := Option.map_eq_some_iff.mp (canonical_of_value n within read)
  exact isCanonical_canonical raw

/-- The second is the value that the first is read as. -/
def Reads (depth : Nat) (n n' : Node) : Prop :=
  n.Within depth ∧ ∃ v, Decode.value n = .ok v ∧ n' = .ofJson v

/-- What is read can be read as a value before. -/
def Settles {α : Type} (d : Decoder α) : Prop :=
  ∀ depth n a, n.Within depth → d n = .ok a →
    ∃ v, Decode.value n = .ok v ∧ d (.ofJson v) = .ok a

section Settles

variable {α β : Type} {d : Decoder α}

theorem Settles.carries (settles : Settles d) (depth : Nat) : Carries (Reads depth) d := by
  rintro n _ a ⟨within, v, value, rfl⟩ read
  obtain ⟨w, again, settled⟩ := settles depth n a within read
  obtain rfl : v = w := Except.ok.inj (value.symm.trans again)
  exact settled

theorem Settles.map (settles : Settles d) (f : α → β) : Settles fun n => (d n).map f := by
  intro depth n b within mapped
  obtain ⟨a, read, rfl⟩ := map_eq_ok.mp mapped
  obtain ⟨v, value, settled⟩ := settles depth n a within read
  exact ⟨v, value, map_eq_ok.mpr ⟨a, settled, rfl⟩⟩

/-- The value that a text has is canonical, and what is read from the text is read from it. -/
theorem Settles.text (settles : Settles d) {text : String} {a : α}
    (read : decodeText d .service text = .ok a) :
    ∃ v, decodeText Decode.value .service text = .ok v ∧ v.IsCanonical ∧ d (.ofJson v) = .ok a := by
  obtain ⟨root, trailing⟩ := decodeText_eq_ok.mp read
  have within := within_outline text
  obtain ⟨v, value, settled⟩ := settles 127 _ a within root
  exact ⟨v, decodeText_eq_ok.mpr ⟨value, trailing⟩, isCanonical_of_value within value, settled⟩

theorem settles_value : Settles Decode.value := by
  intro depth n v within read
  exact ⟨v, read, (isCanonical_of_value within read).value⟩

theorem settles_nat64 : Settles Decode.nat64 := by
  intro depth n m _ read
  obtain ⟨rfl, -⟩ := Decode.nat64_eq_ok.mp read
  exact ⟨.ofNat m, rfl, read⟩

theorem settles_optional (settles : Settles d) (present : ∀ a, d .null ≠ .ok a) :
    Settles (Decode.optional d) := by
  intro depth n o within read
  rcases Decode.optional_eq_ok.mp read with ⟨rfl, rfl⟩ | ⟨-, a, some, rfl⟩
  · exact ⟨.null, rfl, read⟩
  · obtain ⟨v, value, settled⟩ := settles depth n a within some
    refine ⟨v, value, Decode.optional_eq_ok.mpr (.inr ⟨fun null => ?_, a, settled, rfl⟩)⟩
    exact present a (null ▸ settled)

theorem settles_list (settles : Settles d) : Settles (Decode.list d) := by
  intro depth n values within read
  obtain ⟨items, rfl, each⟩ := Decode.list_eq_ok.mp read
  obtain ⟨shown, shows, settled⟩ : ∃ shown,
      List.Forall₂ (fun n j => Decode.value n = .ok j) items shown ∧
        List.Forall₂ (fun j a => d (.ofJson j) = .ok a) shown values := by
    have inside := withinItems_iff.mp within.2
    clear read within
    induction each with
    | nil => exact ⟨[], .nil, .nil⟩
    | cons first _ ih =>
      obtain ⟨here, others⟩ := List.forall_mem_cons.mp inside
      obtain ⟨v, value, read⟩ := settles _ _ _ here first
      obtain ⟨shown, shows, settled⟩ := ih others
      exact ⟨v :: shown, .cons value shows, .cons read settled⟩
  refine ⟨.array shown, Decode.value_array_eq_ok.mpr ⟨rfl, shown, rfl, shows⟩,
    Decode.list_eq_ok.mpr ⟨_, rfl, ?_⟩⟩
  rwa [ofItems_eq_map, List.forall₂_map_left_iff]

end Settles

/-- What the members of a record are read from can be read as values before. -/
structure Members.Settles {α : Type} (m : Members α) : Prop where
  readable : ∀ slot ∈ m.slots, ∀ depth n, n.Within depth → slot.check n = .ok () →
    ∃ v, Decode.value n = .ok v
  carries : ∀ depth, m.Carries fun _ => Reads depth

namespace Members

variable {α β : Type} {d : Decoder α}

theorem settles_single {m : Members α} {key : String} {required : Bool}
    (slots : m.slots = [⟨key, required, fun n => (d n).map fun _ => ()⟩])
    (settles : Json.Settles d) (carries : ∀ depth, m.Carries fun _ => Reads depth) :
    m.Settles where
  readable slot member depth n within checked := by
    rw [slots] at member
    obtain rfl := List.mem_singleton.mp member
    obtain ⟨a, read, -⟩ := map_eq_ok.mp checked
    obtain ⟨v, value, -⟩ := settles depth n a within read
    exact ⟨v, value⟩
  carries := carries

theorem settles_required (key : String) (settles : Json.Settles d) : (required key d).Settles :=
  settles_single rfl settles fun depth => carries_required (settles.carries depth)

theorem settles_defaulted (key : String) (absent : α) (settles : Json.Settles d) :
    (defaulted key absent d).Settles :=
  settles_single rfl settles fun depth => carries_defaulted (settles.carries depth)

theorem Settles.seq {f : Members (α → β)} {x : Members α} (left : f.Settles)
    (right : x.Settles) : (f <*> x).Settles where
  readable := List.forall_mem_append.mpr ⟨left.readable, right.readable⟩
  carries depth := (left.carries depth).seq (right.carries depth)

theorem Settles.map {x : Members α} (settles : x.Settles) (f : α → β) : (f <$> x).Settles where
  readable := settles.readable
  carries depth := (settles.carries depth).map f

end Members

namespace Record

variable {α : Type} {name : String} {m : Members (Entries Json → α)}

/-- Of a canonical value the members that are not declared are kept as they are. -/
theorem extended_canonical [m.Checked] {members : Entries Json} {a : α}
    (canonical : (object members).IsCanonical) :
    extended name m (.ofJson (.object members)) = .ok a ↔
      ∃ make, m.build (fun key => (members.get? key).map Node.ofJson) = .ok make ∧
        make (members.filter fun p => !declares m.slots p.1) = a := by
  obtain ⟨sorted, each⟩ := isCanonical_object.mp canonical
  let found := members.map fun p => (p.1, Node.ofJson p.2)
  have lookups : find? found = fun key => (members.get? key).map Node.ofJson :=
    funext fun key => find?_ofJson members key
  have single : Once m.slots found := by
    intro key _
    rw [List.map_map]
    exact List.nodup_iff_count_le_one.mp sorted.nodup_keys key
  have kept : rest (found.filter fun p => !declares m.slots p.1) =
      .ok (members.filter fun p => !declares m.slots p.1) := by
    have ordered : Entries.Sorted (members.filter fun p => !declares m.slots p.1) :=
      List.Pairwise.filter _ sorted
    refine rest_eq_ok.mpr ⟨_, ?_, (Entries.ofList_of_sorted ordered).symm⟩
    rw [List.filter_map, List.forall₂_map_left_iff]
    exact List.forall₂_same.mpr fun p member => ⟨rfl, (each p (List.mem_filter.mp member).1).value⟩
  rw [Node.ofJson, named_ofMembers, extended_eq_ok_iff]
  constructor
  · rintro ⟨_, make, entries, same, -, built, rested, rfl⟩
    obtain rfl : found = _ := named_inj.mp (Node.object.inj same).1
    obtain rfl := Except.ok.inj (kept.symm.trans rested)
    exact ⟨make, lookups ▸ built, rfl⟩
  · rintro ⟨make, built, rfl⟩
    exact ⟨found, make, _, rfl, single, lookups ▸ built, kept, rfl⟩

/-- All that an open record is read from can be read as a value. -/
theorem readable_of_extended [m.Checked] (settles : m.Settles) {depth : Nat}
    {found : List (String × Node)} {make : Entries Json → α} {entries : Entries Json}
    (inside : ∀ p ∈ found, p.2.Within depth) (single : Once m.slots found)
    (built : m.build (find? found) = .ok make)
    (rested : rest (found.filter fun p => !declares m.slots p.1) = .ok entries) :
    ∀ p ∈ found, ∃ v, Decode.value p.2 = .ok v := by
  have passes : Passes m.slots kept [] found := by
    refine passes_of_build single built fun p member undeclared => kept_eq_ok.mpr ?_
    exact readable_of_rest rested p (List.mem_filter.mpr ⟨member, by simp [undeclared]⟩)
  intro p member
  cases known : m.slots.find? (·.key = p.1) with
  | none =>
    have undeclared : declares m.slots p.1 = false := by simp [declares_eq_isSome, known]
    exact kept_eq_ok.mp (passes.others p member undeclared)
  | some slot =>
    exact settles.readable slot (List.mem_of_find?_eq_some known) depth p.2 (inside p member)
      (passes.declared p member slot known)

/-- Under a name that stands once, the value read is the one that stands there. -/
theorem rel_find?_ofList {depth : Nat} {found : List (String × Node)}
    {pairs : List (String × Json)} (inside : ∀ p ∈ found, p.2.Within depth)
    (each : List.Forall₂ (fun p q => p.1 = q.1 ∧ Decode.value p.2 = .ok q.2) found pairs)
    {key : String} (once : (found.map (·.1)).count key ≤ 1) :
    Option.Rel (Reads depth) (find? found key)
      (((Entries.ofList pairs).get? key).map Node.ofJson) := by
  have keys : found.map (·.1) = Entries.keys pairs := by
    rw [Entries.keys, ← List.forall₂_eq_eq_eq, List.forall₂_map_left_iff,
      List.forall₂_map_right_iff]
    exact each.imp fun _ _ h => h.1
  have reads : List.Forall₂ (fun p q => p.1 = q.1 ∧ Reads depth p.2 q.2) found
      (pairs.map fun p => (p.1, Node.ofJson p.2)) := by
    rw [List.forall₂_map_right_iff]
    apply ((List.forall₂_and_left _ _).mpr ⟨inside, each⟩).imp
    rintro p q ⟨within, same, value⟩
    exact ⟨same, within, q.2, value, rfl⟩
  rw [Entries.get?_ofList, Entries.get?_reverse (keys ▸ once), ← Entries.get?_map]
  exact Entries.rel_get? (R := fun _ => Reads depth) reads key

theorem settles_extended [m.Checked] (settles : m.Settles) : Settles (extended name m) := by
  intro depth n a within read
  obtain ⟨found, make, entries, rfl, single, built, rested, rfl⟩ := extended_eq_ok_iff.mp read
  have inside := within_named within
  obtain ⟨pairs, each⟩ : ∃ pairs : List (String × Json),
      List.Forall₂ (fun p q => p.1 = q.1 ∧ Decode.value p.2 = .ok q.2) found pairs := by
    refine exists_forall₂_iff.mpr fun p member => ?_
    obtain ⟨v, value⟩ := readable_of_extended settles inside single built rested p member
    exact ⟨(p.1, v), rfl, value⟩
  have value : Decode.value (.object (named found) .closed) =
      .ok (.object (Entries.ofList pairs)) := by
    refine Decode.value_object_eq_ok.mpr ⟨rfl, pairs, rfl, ?_⟩
    rw [named, List.forall₂_map_left_iff]
    exact each.imp fun p q h => ⟨congrArg Except.ok h.1, h.2⟩
  have others : entries = (Entries.ofList pairs).filter fun p => !declares m.slots p.1 := by
    have kept := List.rel_filter (p := fun p => !declares m.slots p.1)
      (q := fun p => !declares m.slots p.1) (fun p q h => by simp only [h.1]) each
    rw [Entries.filter_ofList fun key => !declares m.slots key]
    exact Except.ok.inj (rested.symm.trans (rest_eq_ok.mpr ⟨_, kept, rfl⟩))
  refine ⟨_, value, (extended_canonical (isCanonical_of_value within value)).mpr
    ⟨make, ?_, congrArg make others.symm⟩⟩
  refine settles.carries (depth - 1) (find? found) _ make (fun slot member => ?_) built
  have declared := declares_of_mem (List.mem_map_of_mem (f := (·.key)) member)
  exact rel_find?_ofList inside each (single slot.key declared)

end Record
end Solr.Json
