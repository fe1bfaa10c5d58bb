import Solr.Proofs.Json.Sweeps

/-! Records that are read, written, and read again. What a record is built from is found under
the names of its members, in an object or in an array; what is written of it are its members,
each once, and of an open record also those that it does not declare. -/
namespace Solr.Json

namespace Record

/-- What stands under each name: a value of an array stands under the name at its place. -/
def fields? (names : List String) : Node → Option (List (String × Node))
  | .object members _ => members.mapM fun m => m.1.toOption.map (·, m.2)
  | .array items _ => some (names.zip items)
  | _ => none

theorem fields?_named (names : List String) (found : List (String × Node)) (ending : Ending) :
    fields? names (.object (named found) ending) = some found := by
  rw [fields?, named, List.mapM_map]
  exact List.mapM_pure.trans (congrArg some (List.map_id found))

theorem within_named {depth : Nat} {found : List (String × Node)} {ending : Ending}
    (within : (Node.object (named found) ending).Within depth) :
    ∀ p ∈ found, p.2.Within (depth - 1) := by
  intro p member
  exact withinMembers_iff.mp within.2 (.ok p.1, p.2) (List.mem_map_of_mem member)

variable {α : Type} {m : Members α} {name : String} {n : Node}

theorem closed_eq_ok {a : α} (read : closed name m n = .ok a) :
    ∃ found, fields? (m.slots.map (·.key)) n = some found ∧ m.build (find? found) = .ok a ∧
      ∀ depth, n.Within depth → ∀ p ∈ found, p.2.Within (depth - 1) := by
  unfold closed at read
  split at read
  · simp only [bind_eq_ok] at read
    obtain ⟨found, swept, -, -, built⟩ := read
    rw [(sweep_eq_ok_iff.mp swept).1]
    exact ⟨found, fields?_named _ found _, built, fun depth => within_named⟩
  · simp only [bind_eq_ok] at read
    obtain ⟨found, arranged, built⟩ := read
    obtain ⟨-, rfl⟩ := arrange_eq_ok_iff.mp arranged
    refine ⟨_, rfl, built, ?_⟩
    intro depth within p member
    exact withinItems_iff.mp within.2 p.2 (List.of_mem_zip member).2
  · exact absurd read (Node.unexpected_ne_ok _ _ _)

theorem closed_named {found : List (String × Node)} (once : (found.map (·.1)).Nodup)
    (declared : ∀ p ∈ found, ∀ slot ∈ m.slots, slot.key = p.1 → slot.check p.2 = .ok ())
    (known : ∀ p ∈ found, declares m.slots p.1 = true) :
    closed name m (.object (named found) .closed) = m.build (find? found) := by
  have passes : Passes m.slots ignored [] found := .of_nodup once declared
    fun p member undeclared => by simp [known p member] at undeclared
  simp only [closed, sweep_eq_ok_iff.mpr ⟨rfl, passes⟩, bind, Except.bind, Ending.check]

theorem opened_eq_ok {a : α} {others : List (String × Node)}
    (read : opened name m n = .ok (a, others)) :
    ∃ found, n = .object (named found) .closed ∧ m.build (find? found) = .ok a ∧
      others = found.filter fun p => !declares m.slots p.1 := by
  unfold opened at read
  split at read
  · simp only [bind_eq_ok, check_eq_ok] at read
    obtain ⟨found, swept, -, rfl, b, built, same⟩ := read
    obtain ⟨rfl, rfl⟩ := Prod.mk.inj (Except.ok.inj same)
    exact ⟨found, by rw [(sweep_eq_ok_iff.mp swept).1], built, rfl⟩
  · exact absurd read (Node.unexpected_ne_ok _ _ _)

theorem opened_named {found : List (String × Node)} (once : (found.map (·.1)).Nodup)
    (declared : ∀ p ∈ found, ∀ slot ∈ m.slots, slot.key = p.1 → slot.check p.2 = .ok ())
    (others : ∀ p ∈ found, declares m.slots p.1 = false → kept p.2 = .ok ()) {a : α}
    (built : m.build (find? found) = .ok a) :
    opened name m (.object (named found) .closed) =
      .ok (a, found.filter fun p => !declares m.slots p.1) := by
  have swept := sweep_eq_ok_iff.mpr ⟨rfl, Passes.of_nodup once declared others⟩
  simp only [opened, swept, bind, Except.bind, Ending.check, built, pure, Except.pure]

theorem rest_eq_ok {others : List (String × Node)} {entries : Entries Json} :
    rest others = .ok entries ↔ ∃ pairs : List (String × Json),
      List.Forall₂ (fun p q => p.1 = q.1 ∧ Decode.value p.2 = .ok q.2) others pairs ∧
      entries = Entries.ofList pairs := by
  have step (p : String × Node) (q : String × Json) :
      (do return (p.1, ← Decode.value p.2)) = Except.ok q ↔
        p.1 = q.1 ∧ Decode.value p.2 = .ok q.2 := by
    simp only [bind_eq_ok, pure, Except.pure, Except.ok.injEq]
    constructor
    · rintro ⟨j, read, rfl⟩
      exact ⟨rfl, read⟩
    · rintro ⟨same, read⟩
      exact ⟨q.2, read, by rw [same]⟩
  have all (pairs : List (String × Json)) :
      (others.mapM fun (p : String × Node) => do return (p.1, ← Decode.value p.2)) =
        Except.ok pairs ↔ List.Forall₂ (fun p q => p.1 = q.1 ∧ Decode.value p.2 = .ok q.2)
          others pairs := by
    simp only [mapM_eq_ok, step]
  unfold rest
  rw [bind_eq_ok]
  constructor
  · rintro ⟨pairs, read, same⟩
    exact ⟨pairs, (all pairs).mp read, (Except.ok.inj same).symm⟩
  · rintro ⟨pairs, read, rfl⟩
    exact ⟨pairs, (all pairs).mpr read, rfl⟩

end Record

namespace Members

open Record

variable {α β : Type} {depth : Nat}

theorem build_map_eq_ok {f : α → β} {x : Members α} {find : String → Option Node} {b : β} :
    (f <$> x).build find = .ok b ↔ ∃ a, x.build find = .ok a ∧ f a = b := by
  change ((pure f : Members (α → β)) <*> x).build find = .ok b ↔ _
  rw [build_seq_eq_ok]
  constructor
  · rintro ⟨g, a, same, built, rfl⟩
    obtain rfl := Except.ok.inj same
    exact ⟨a, built, rfl⟩
  · rintro ⟨a, built, rfl⟩
    exact ⟨f, a, rfl, built, rfl⟩

/-- Nothing is found that is nested too deep. -/
def Shallow (depth : Nat) (find : String → Option Node) : Prop :=
  ∀ key n, find key = some n → n.Within depth

/-- These members are written for a value, and from them the value is built. -/
structure Rebuilds (depth : Nat) (m : Members α) (a : α) (written : List (String × Json)) :
    Prop where
  within : ∀ p ∈ written, (Node.ofJson p.2).Within depth
  keys : (written.map (·.1)).Sublist (m.slots.map (·.key))
  checks : (m.slots.map (·.key)).Nodup → ∀ p ∈ written, ∀ slot ∈ m.slots, slot.key = p.1 →
    slot.check (.ofJson p.2) = .ok ()
  build : (m.slots.map (·.key)).Nodup → ∀ find, (∀ slot ∈ m.slots,
    find slot.key = (Entries.get? written slot.key).map Node.ofJson) → m.build find = .ok a

theorem Rebuilds.map {m : Members α} {a : α} {written : List (String × Json)}
    (rebuilds : m.Rebuilds depth a written) (f : α → β) :
    (f <$> m).Rebuilds depth (f a) written where
  within := rebuilds.within
  keys := rebuilds.keys
  checks := rebuilds.checks
  build distinct find same := build_map_eq_ok.mpr ⟨a, rebuilds.build distinct find same, rfl⟩

theorem Rebuilds.seq {f : Members (α → β)} {x : Members α} {g : α → β} {a : α}
    {first second : List (String × Json)} (left : f.Rebuilds depth g first)
    (right : x.Rebuilds depth a second) : (f <*> x).Rebuilds depth (g a) (first ++ second) where
  within := List.forall_mem_append.mpr ⟨left.within, right.within⟩
  keys := by
    rw [slots_seq, List.map_append, List.map_append]
    exact left.keys.append right.keys
  checks := by
    rw [slots_seq, List.map_append]
    intro distinct p member slot inside same
    obtain ⟨distinctLeft, distinctRight, apart⟩ := List.nodup_append'.mp distinct
    rcases List.mem_append.mp member with member | member
    · have key := left.keys.subset (List.mem_map_of_mem member)
      rcases List.mem_append.mp inside with inside | inside
      · exact left.checks distinctLeft p member slot inside same
      · exact (apart key (same ▸ List.mem_map_of_mem inside)).elim
    · have key := right.keys.subset (List.mem_map_of_mem member)
      rcases List.mem_append.mp inside with inside | inside
      · exact (apart (same ▸ List.mem_map_of_mem inside) key).elim
      · exact right.checks distinctRight p member slot inside same
  build := by
    rw [slots_seq, List.map_append]
    intro distinct find found
    obtain ⟨distinctLeft, distinctRight, apart⟩ := List.nodup_append'.mp distinct
    obtain ⟨foundLeft, foundRight⟩ := List.forall_mem_append.mp found
    refine build_seq_eq_ok.mpr ⟨g, a, left.build distinctLeft find ?_,
      right.build distinctRight find ?_, rfl⟩
    · intro slot inside
      have absent : Entries.get? second slot.key = none := Entries.get?_eq_none fun key =>
        apart (List.mem_map_of_mem inside) (right.keys.subset key)
      rw [foundLeft slot inside, Entries.get?_append, absent, Option.or_none]
    · intro slot inside
      have absent : Entries.get? first slot.key = none := Entries.get?_eq_none fun key =>
        apart (left.keys.subset key) (List.mem_map_of_mem inside)
      rw [foundRight slot inside, Entries.get?_append, absent, Option.none_or]

section Single

variable {d : Decoder α} {encode : α → Json} {key : String} {find : String → Option Node}

/-- One member, which is written. -/
theorem Rebuilds.single {m : Members α} {required : Bool} {a : α} {j : Json}
    (slots : m.slots = [⟨key, required, fun n => (d n).map fun _ => ()⟩])
    (within : (Node.ofJson j).Within depth) (again : d (.ofJson j) = .ok a)
    (build : ∀ find n, find key = some n → m.build find = d n) :
    m.Rebuilds depth a [(key, j)] where
  within := by simpa using within
  keys := by simp [slots]
  checks := by
    intro _ p member slot inside _
    obtain rfl := List.mem_singleton.mp member
    rw [slots] at inside
    obtain rfl := List.mem_singleton.mp inside
    simp only [again, Except.map]
  build := by
    intro _ find same
    rw [slots] at same
    have found : find key = some (.ofJson j) := by
      simpa [Entries.get?_cons] using same _ (List.mem_singleton_self _)
    rw [build find _ found, again]

theorem rebuilds_required (codes : Recodes depth d encode) (shallow : Shallow depth find) {a : α}
    (built : (required key d).build find = .ok a) :
    (required key d).Rebuilds depth a [(key, encode a)] := by
  obtain ⟨n, found, read⟩ := build_required_eq_ok.mp built
  obtain ⟨within, again⟩ := codes n a (shallow key n found) read
  exact .single rfl within again fun find n found => by simp only [required, found]

/-- What stands for an absent member can be left to the reader, or written. -/
theorem rebuilds_defaulted {absent a : α} (codes : Recodes depth d encode)
    (standsFor : a = absent →
      (Node.ofJson (encode a)).Within depth ∧ d (.ofJson (encode a)) = .ok a)
    (shallow : Shallow depth find) (built : (defaulted key absent d).build find = .ok a) :
    (defaulted key absent d).Rebuilds depth a [(key, encode a)] := by
  have recoded : (Node.ofJson (encode a)).Within depth ∧ d (.ofJson (encode a)) = .ok a := by
    rcases build_defaulted_eq_ok.mp built with ⟨-, same⟩ | ⟨n, found, read⟩
    · exact standsFor same
    · exact codes n a (shallow key n found) read
  exact .single rfl recoded.1 recoded.2 fun find n found => by simp only [defaulted, found]

/-- One member, which is left out. -/
theorem rebuilds_nothing (key : String) (absent : α) (d : Decoder α) :
    (defaulted key absent d).Rebuilds depth absent [] where
  within := by simp
  keys := List.nil_sublist _
  checks := by simp
  build := by
    intro _ find same
    have missing : find key = none := same _ (List.mem_singleton_self _)
    simp only [defaulted, missing]

theorem rebuilds_optional (codes : Recodes depth d encode) (present : ∀ a, d .null ≠ .ok a)
    (shallow : Shallow depth find) {a : Option α} (built : (optional key d).build find = .ok a) :
    (optional key d).Rebuilds depth a (Json.optional key encode a) := by
  cases a with
  | none => exact rebuilds_nothing key none (Decode.optional d)
  | some a =>
    rcases build_defaulted_eq_ok.mp built with ⟨-, same⟩ | ⟨n, found, read⟩
    · cases same
    · obtain ⟨within, again⟩ := recodes_ofOption codes present n _ (shallow key n found) read
      exact .single rfl within again fun find n found => by simp only [optional, defaulted, found]

end Single

end Members

open Members Record

variable {α : Type} {depth : Nat} {name : String}

theorem shallow_find? {found : List (String × Node)} (within : ∀ p ∈ found, p.2.Within depth) :
    Shallow depth (find? found) := by
  intro key n same
  exact within (key, n) (Entries.mem_of_get? same)

theorem declares_of_mem {slots : List Slot} {key : String} (declared : key ∈ slots.map (·.key)) :
    declares slots key = true := by
  obtain ⟨slot, inside, same⟩ := List.mem_map.mp declared
  exact List.any_eq_true.mpr ⟨slot, inside, decide_eq_true same⟩

theorem named_ofMembers (members : List (String × Json)) :
    ofMembers members = named (members.map fun p => (p.1, Node.ofJson p.2)) := by
  rw [ofMembers_eq_map, named, List.map_map]
  rfl

theorem find?_ofJson (members : List (String × Json)) (key : String) :
    find? (members.map fun p => (p.1, Node.ofJson p.2)) key =
      (Entries.get? members key).map Node.ofJson :=
  Entries.get?_map Node.ofJson members key

theorem recodes_closed {m : Members α} (write : α → List (String × Json))
    (distinct : (m.slots.map (·.key)).Nodup)
    (rebuilds : ∀ find a, Shallow depth find → m.build find = .ok a →
      m.Rebuilds depth a (write a)) :
    Recodes (depth + 1) (closed name m) fun a => .object (write a) := by
  intro n a within read
  obtain ⟨found, -, built, inside⟩ := closed_eq_ok read
  have rebuilds := rebuilds _ a (shallow_find? (inside (depth + 1) within)) built
  refine ⟨within_ofObject.mpr rebuilds.within, ?_⟩
  rw [Node.ofJson, named_ofMembers, closed_named]
  · exact rebuilds.build distinct _ fun slot _ => find?_ofJson (write a) slot.key
  · rw [List.map_map]
    exact distinct.sublist rebuilds.keys
  · rw [List.forall_mem_map]
    exact fun p member => rebuilds.checks distinct p member
  · rw [List.forall_mem_map]
    exact fun p member => declares_of_mem (rebuilds.keys.subset (List.mem_map_of_mem member))

/-- Members that are not declared are kept, wherever they stand. -/
theorem opened_ofObject (name : String) {m : Members α} {a : α} {members : List (String × Json)}
    (distinct : (m.slots.map (·.key)).Nodup) (once : (members.map (·.1)).Nodup)
    (rebuilds : m.Rebuilds depth a (members.filter fun p => declares m.slots p.1))
    (others : ∀ p ∈ members, declares m.slots p.1 = false →
      ∃ j, Decode.value (.ofJson p.2) = .ok j) :
    opened name m (.ofJson (.object members)) =
      .ok (a, (members.filter fun p => !declares m.slots p.1).map
        fun p => (p.1, Node.ofJson p.2)) := by
  rw [Node.ofJson, named_ofMembers, opened_named (a := a), List.filter_map]
  · rfl
  · rw [List.map_map]
    exact once
  · rw [List.forall_mem_map]
    intro p member slot inside same
    have declared := declares_of_mem (List.mem_map.mpr ⟨slot, inside, same⟩)
    exact rebuilds.checks distinct p (List.mem_filter.mpr ⟨member, declared⟩) slot inside same
  · rw [List.forall_mem_map]
    intro p member undeclared
    obtain ⟨j, read⟩ := others p member undeclared
    simp only [kept, read, Except.map]
  · refine rebuilds.build distinct _ fun slot inside => ?_
    have declared := declares_of_mem (List.mem_map_of_mem (f := (·.key)) inside)
    rw [find?_ofJson, Entries.get?_filter (declares m.slots) declared]

/-- What is kept of the others can be written, and read again. -/
theorem rest_recodes {others : List (String × Node)} {entries : Entries Json}
    (within : ∀ p ∈ others, p.2.Within depth) (read : rest others = .ok entries) :
    entries.Sorted ∧
      (∀ p ∈ entries, p.1 ∈ others.map (·.1) ∧ (Node.ofJson p.2).Within depth ∧
        Decode.value (.ofJson p.2) = .ok p.2) ∧
      rest (entries.map fun p => (p.1, Node.ofJson p.2)) = .ok entries := by
  obtain ⟨pairs, each, rfl⟩ := rest_eq_ok.mp read
  have sorted := Entries.ofList_sorted pairs
  have recoded : ∀ p ∈ Entries.ofList pairs, p.1 ∈ others.map (·.1) ∧
      (Node.ofJson p.2).Within depth ∧ Decode.value (.ofJson p.2) = .ok p.2 := by
    intro p member
    obtain ⟨q, other, same, read⟩ := exists_of_mem_forall₂ each (Entries.mem_ofList member)
    exact ⟨List.mem_map.mpr ⟨q, other, same⟩, recoded_value q.2 (within q other) read⟩
  refine ⟨sorted, recoded, rest_eq_ok.mpr
    ⟨Entries.ofList pairs, ?_, (Entries.ofList_of_sorted sorted).symm⟩⟩
  rw [List.forall₂_map_left_iff]
  exact List.forall₂_same.mpr fun p member => ⟨rfl, (recoded p member).2.2⟩

theorem filter_append_apart {keep : String → Bool} {a b : List (String × Json)}
    (first : ∀ p ∈ a, keep p.1 = true) (second : ∀ p ∈ b, keep p.1 = false) :
    (a ++ b).filter (fun p => keep p.1) = a ∧ (a ++ b).filter (fun p => !keep p.1) = b := by
  have firstKept : a.filter (fun p => keep p.1) = a := List.filter_eq_self.mpr first
  have secondKept : b.filter (fun p => !keep p.1) = b :=
    List.filter_eq_self.mpr fun p member => by rw [second p member, Bool.not_false]
  have firstLeft : a.filter (fun p => !keep p.1) = [] :=
    List.filter_eq_nil_iff.mpr fun p member => by simp [first p member]
  have secondLeft : b.filter (fun p => keep p.1) = [] :=
    List.filter_eq_nil_iff.mpr fun p member => by simp [second p member]
  rw [List.filter_append, List.filter_append, firstKept, secondLeft, firstLeft, secondKept,
    List.append_nil, List.nil_append]
  exact ⟨rfl, rfl⟩

/-- Of an open record the members that it does not declare are written after the others. -/
theorem recodes_opened {m : Members (Entries Json → α)} {encode : α → Json}
    (distinct : (m.slots.map (·.key)).Nodup)
    (rebuilds : ∀ find make, Shallow depth find → m.build find = .ok make →
      ∃ written, m.Rebuilds depth make written ∧
        ∀ others, encode (make others) = .object (written ++ others)) :
    Recodes (depth + 1)
      (fun n => do
        let (make, others) ← opened name m n
        return make (← rest others)) encode := by
  intro n a within read
  simp only [bind_eq_ok] at read
  obtain ⟨⟨make, others⟩, opened, entries, rested, same⟩ := read
  obtain rfl := Except.ok.inj same
  obtain ⟨found, rfl, built, rfl⟩ := opened_eq_ok opened
  have inside := within_named within
  obtain ⟨written, rebuilds, encoded⟩ := rebuilds _ make (shallow_find? inside) built
  obtain ⟨sorted, kept, again⟩ :=
    rest_recodes (fun p member => inside p (List.mem_filter.mp member).1) rested
  have declared : ∀ p ∈ written, declares m.slots p.1 = true := fun p member =>
    declares_of_mem (rebuilds.keys.subset (List.mem_map_of_mem member))
  have undeclared : ∀ p ∈ entries, declares m.slots p.1 = false := by
    intro p member
    obtain ⟨q, other, same⟩ := List.mem_map.mp (kept p member).1
    rw [← same]
    simpa using (List.mem_filter.mp other).2
  have once : ((written ++ entries).map (·.1)).Nodup := by
    rw [List.map_append]
    refine List.nodup_append'.mpr ⟨distinct.sublist rebuilds.keys, sorted.nodup_keys, ?_⟩
    intro key left right
    obtain ⟨p, member, rfl⟩ := List.mem_map.mp left
    obtain ⟨q, other, same⟩ := List.mem_map.mp right
    have absent := undeclared q other
    rw [same, declared p member] at absent
    cases absent
  obtain ⟨front, back⟩ := filter_append_apart declared undeclared
  have reopened := opened_ofObject name distinct once (front.symm ▸ rebuilds)
    fun p member absent => by
      rcases List.mem_append.mp member with member | member
      · rw [declared p member] at absent
        cases absent
      · exact ⟨p.2, (kept p member).2.2⟩
  rw [encoded]
  refine ⟨within_ofObject.mpr (List.forall_mem_append.mpr
    ⟨rebuilds.within, fun p member => (kept p member).2.1⟩), ?_⟩
  simp only [reopened, back, again, bind, Except.bind, pure, Except.pure]

end Solr.Json
