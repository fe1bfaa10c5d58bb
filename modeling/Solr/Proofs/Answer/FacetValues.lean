import Solr.Answer.Facets
import Solr.Proofs.Json.Settling

/-! Facet counts as values. A level of the counts has the members that it declares, and keeps
all others as they are; so what is written for it is the value that it was read from, but for
a count or buckets that were left out. -/
namespace Solr

namespace Json

theorem ofJson_eq_null {j : Json} : Node.ofJson j = .null ↔ j = .null := by
  cases j <;> simp [Node.ofJson]

theorem ofJson_eq_number {j : Json} {n : Number} : Node.ofJson j = .number n ↔ j = .number n := by
  cases j <;> simp [Node.ofJson]

theorem ofJson_eq_array {j : Json} {items : List Node} {ending : Ending} :
    Node.ofJson j = .array items ending ↔
      ending = .closed ∧ ∃ values, j = .array values ∧ items = values.map Node.ofJson := by
  cases j <;> simp [Node.ofJson, ofItems_eq_map, eq_comm, and_comm]

theorem object_of_ofJson {j : Json} {members : List (Except Fault String × Node)}
    {ending : Ending} (shown : Node.ofJson j = .object members ending) :
    ∃ values, j = .object values := by
  cases j <;> simp_all [Node.ofJson]

/-- A member that was left out is written with the value that stands for it. -/
def withDefault (key : String) (absent : Json) (members : Entries Json) : Entries Json :=
  if (members.get? key).isSome then members else members.insert key absent

/-- A member that is null is left out. -/
def withoutNull (key : String) (members : Entries Json) : Entries Json :=
  if members.get? key = some .null then members.filter fun p => p.1 ≠ key else members

section Edits

variable {key other : String} {absent : Json} {members : Entries Json}

theorem withDefault_sorted (sorted : members.Sorted) : (withDefault key absent members).Sorted := by
  unfold withDefault
  split
  · exact sorted
  · exact Entries.insert_sorted sorted

theorem withoutNull_sorted (sorted : members.Sorted) : (withoutNull key members).Sorted := by
  unfold withoutNull
  split
  · exact List.Pairwise.filter _ sorted
  · exact sorted

theorem get?_withDefault :
    (withDefault key absent members).get? key = some ((members.get? key).getD absent) := by
  unfold withDefault
  cases found : members.get? key with
  | none => simp
  | some j => simpa using found

theorem get?_withDefault_of_ne (different : key ≠ other) :
    (withDefault key absent members).get? other = members.get? other := by
  unfold withDefault
  split
  · rfl
  · exact Entries.get?_insert_of_ne different members absent

theorem get?_withoutNull :
    (withoutNull key members).get? key =
      if members.get? key = some .null then none else members.get? key := by
  unfold withoutNull
  split
  · apply Entries.get?_eq_none
    simp [Entries.keys]
  · rfl

theorem get?_withoutNull_of_ne (different : key ≠ other) :
    (withoutNull key members).get? other = members.get? other := by
  unfold withoutNull
  split
  · exact Entries.get?_filter (fun k => k ≠ key) (by simpa using different.symm) members
  · rfl

end Edits

namespace Record

theorem declares_iff {slots : List Slot} {key : String} :
    declares slots key = true ↔ key ∈ slots.map (·.key) := by
  simp [declares]

section Extended

variable {slots : List Slot} {declared members : Entries Json}

theorem nodup_extended (sorted : members.Sorted) (once : declared.keys.Nodup)
    (known : ∀ key ∈ declared.keys, key ∈ slots.map (·.key)) :
    (Entries.keys (declared ++ members.filter fun p => !declares slots p.1)).Nodup := by
  rw [Entries.keys, List.map_append]
  refine List.nodup_append'.mpr ⟨once, ?_, ?_⟩
  · exact Entries.Sorted.nodup_keys (List.Pairwise.filter _ sorted)
  · intro key left right
    obtain ⟨p, member, rfl⟩ := List.mem_map.mp right
    simpa [declares_iff.mpr (known _ left)] using (List.mem_filter.mp member).2

theorem distinct_extended (declared : Entries Json) (canonical : (object members).IsCanonical)
    (once : declared.keys.Nodup) (known : ∀ key ∈ declared.keys, key ∈ slots.map (·.key))
    (each : ∀ p ∈ declared, p.2.Distinct) :
    (object (declared ++ members.filter fun p => !declares slots p.1)).Distinct := by
  obtain ⟨sorted, inside⟩ := isCanonical_object.mp canonical
  refine ⟨nodup_extended sorted once known, distinctMembers_iff.mpr ?_⟩
  refine List.forall_mem_append.mpr ⟨each, fun p member => ?_⟩
  exact (inside p (List.mem_filter.mp member).1).distinct

/-- What is written for an open record has under each name what stands there in the end. -/
theorem canonical_extended (declared : Entries Json) {edited : Entries Json}
    (canonical : (object members).IsCanonical) (once : declared.keys.Nodup)
    (known : ∀ key ∈ declared.keys, key ∈ slots.map (·.key)) (sorted : edited.Sorted)
    (same : ∀ key ∈ slots.map (·.key), (declared.get? key).map Json.canonical = edited.get? key)
    (others : ∀ key ∉ slots.map (·.key), edited.get? key = members.get? key) :
    (object (declared ++ members.filter fun p => !declares slots p.1)).canonical =
      object edited := by
  obtain ⟨ordered, each⟩ := isCanonical_object.mp canonical
  let kept : Entries Json := members.filter fun p => !declares slots p.1
  have lookups (key : String) :
      (Entries.get? (declared ++ kept) key).map Json.canonical = edited.get? key := by
    rw [Entries.get?_append]
    by_cases declares : key ∈ slots.map (·.key)
    · have absent : key ∉ kept.keys := by
        intro member
        obtain ⟨p, inside, rfl⟩ := List.mem_map.mp member
        simpa [declares_iff.mpr declares] using (List.mem_filter.mp inside).2
      rw [Entries.get?_eq_none absent, Option.or_none, same key declares]
    · have found : kept.get? key = members.get? key :=
        Entries.get?_filter (fun key => !Record.declares slots key)
          (by simpa [← declares_iff] using declares) members
      rw [Entries.get?_eq_none fun member => declares (known key member), Option.none_or, found,
        others key declares]
      cases stands : members.get? key with
      | none => rfl
      | some j => exact congrArg some (each _ (Entries.mem_of_get? stands))
  rw [Json.canonical, canonicalMembers_eq_map]
  refine congrArg object (Entries.Sorted.ext (Entries.ofList_sorted _) sorted fun key => ?_)
  rw [Entries.get?_ofList, Entries.get?_reverse, Entries.get?_map, lookups]
  rw [Entries.keys, List.map_map]
  exact List.nodup_iff_count_le_one.mp (nodup_extended ordered once known) key

end Extended

/-- An open record is read from an object. -/
theorem object_of_extended {α : Type} {name : String} {m : Members (Entries Json → α)} [m.Checked]
    {j : Json} {a : α} (canonical : j.IsCanonical) (read : extended name m (.ofJson j) = .ok a) :
    ∃ members, j = .object members ∧ ∃ make,
      m.build (fun key => (Entries.get? members key).map Node.ofJson) = .ok make ∧
        make (members.filter fun p => !declares m.slots p.1) = a := by
  obtain ⟨_, _, _, shown, _⟩ := extended_eq_ok_iff.mp read
  obtain ⟨members, rfl⟩ := object_of_ofJson shown
  exact ⟨members, rfl, (extended_canonical canonical).mp read⟩

end Record

namespace Members

variable {α : Type} {members : Entries Json} {key : String} {d : Decoder α} {a : α}

theorem build_required_value :
    (required key d).build (fun key => (members.get? key).map Node.ofJson) = .ok a ↔
      ∃ j, members.get? key = some j ∧ d (.ofJson j) = .ok a := by
  simp [build_required_eq_ok]

theorem build_defaulted_value {absent : α} :
    (defaulted key absent d).build (fun key => (members.get? key).map Node.ofJson) = .ok a ↔
      (members.get? key = none ∧ a = absent) ∨
        ∃ j, members.get? key = some j ∧ d (.ofJson j) = .ok a := by
  simp [build_defaulted_eq_ok]

end Members

theorem nat64_value {j : Json} {n : Nat} (read : Decode.nat64 (.ofJson j) = .ok n) :
    j = .ofNat n :=
  ofJson_eq_number.mp (Decode.nat64_eq_ok.mp read).1

theorem value_value {j k : Json} (canonical : j.IsCanonical)
    (read : Decode.value (.ofJson j) = .ok k) : j = k :=
  Except.ok.inj (canonical.value.symm.trans read)

end Json

namespace Answer

open Json Members Record

/-- What is written stands for the value with an edit, and names no member twice. -/
def Returned (edit : Json → Json) (j written : Json) : Prop :=
  written.Distinct ∧ written.canonical = edit j

namespace Bucket

instance : members.Checked := by
  unfold members
  infer_instance

theorem settles : Settles decode :=
  settles_extended (((settles_required "val" settles_value).map _).seq
    (settles_required "count" settles_nat64))

/-- What a bucket has of the members of a value. -/
structure Of (b : Bucket) (members : Entries Json) : Prop where
  value : members.get? "val" = some b.value
  count : members.get? "count" = some (.ofNat b.count)
  facets : b.facets = members.filter fun p => !declares Bucket.members.slots p.1

theorem of_decode {j : Json} {b : Bucket} (canonical : j.IsCanonical)
    (read : decode (.ofJson j) = .ok b) : ∃ members, j = .object members ∧ b.Of members := by
  obtain ⟨members, rfl, make, built, rfl⟩ := object_of_extended canonical read
  obtain ⟨_, count, toValue, second, rfl⟩ := build_seq_eq_ok.mp built
  obtain ⟨value, first, rfl⟩ := build_map_eq_ok.mp toValue
  obtain ⟨j, stands, readValue⟩ := build_required_value.mp first
  obtain ⟨k, counted, readCount⟩ := build_required_value.mp second
  have inside := (isCanonical_object.mp canonical).2 _ (Entries.mem_of_get? stands)
  obtain rfl := value_value inside readValue
  obtain rfl := nat64_value readCount
  exact ⟨members, rfl, stands, counted, rfl⟩

/-- The value itself is written. -/
theorem encode_returned {j : Json} {b : Bucket} (canonical : j.IsCanonical)
    (read : decode (.ofJson j) = .ok b) : Returned id j b.encode := by
  obtain ⟨members, rfl, of⟩ := of_decode canonical read
  obtain ⟨sorted, each⟩ := isCanonical_object.mp canonical
  have value : b.value.IsCanonical := each _ (Entries.mem_of_get? of.value)
  have once : ["val", "count"].Nodup := by decide
  rw [encode, of.facets]
  constructor
  · refine distinct_extended _ canonical once (fun key => id) ?_
    simp [value.distinct, ofNat, Distinct]
  · refine canonical_extended _ canonical once (fun key => id) sorted ?_ fun _ _ => rfl
    have same : b.value.canonical = b.value := value
    change ∀ key ∈ ["val", "count"], _
    simp [Entries.get?_cons, of.value, of.count, same, ofNat, Json.canonical]

theorem encodes_returned {items : List Json} {buckets : List Bucket}
    (canonical : ∀ j ∈ items, j.IsCanonical)
    (each : List.Forall₂ (fun j b => decode (.ofJson j) = .ok b) items buckets) :
    Returned id (.array items) (.array (buckets.map encode)) := by
  have returned : List.Forall₂ (fun j written => Returned id j written) items
      (buckets.map encode) := by
    rw [List.forall₂_map_right_iff]
    apply ((List.forall₂_and_left _ _).mpr ⟨canonical, each⟩).imp
    exact fun j b h => encode_returned h.1 h.2
  constructor
  · refine distinctItems_iff.mpr fun written member => ?_
    obtain ⟨j, -, distinct, -⟩ := exists_of_mem_forall₂ returned member
    exact distinct
  · rw [Json.canonical, canonicalItems_eq_map]
    congr 1
    rw [← List.forall₂_eq_eq_eq, List.forall₂_map_left_iff]
    exact returned.flip.imp fun written j h => h.2

end Bucket

namespace FacetNode

instance : members.Checked := by
  unfold members
  infer_instance

theorem settles : Settles decode :=
  settles_extended (((settles_defaulted "count" none
    (settles_optional settles_nat64 Decode.nat64_null)).map _).seq
    (settles_defaulted "buckets" [] (settles_list Bucket.settles)))

/-- What a facet has of the members of a value. -/
structure Of (f : FacetNode) (members : Entries Json) : Prop where
  count : members.get? "count" = f.count.map .ofNat ∨
    members.get? "count" = some .null ∧ f.count = none
  buckets : (members.get? "buckets" = none ∧ f.buckets = []) ∨
    ∃ items, members.get? "buckets" = some (.array items) ∧
      List.Forall₂ (fun j b => Bucket.decode (.ofJson j) = .ok b) items f.buckets
  facets : f.facets = members.filter fun p => !declares FacetNode.members.slots p.1

theorem of_decode {j : Json} {f : FacetNode} (canonical : j.IsCanonical)
    (read : decode (.ofJson j) = .ok f) : ∃ members, j = .object members ∧ f.Of members := by
  obtain ⟨members, rfl, make, built, rfl⟩ := object_of_extended canonical read
  obtain ⟨_, buckets, toCount, second, rfl⟩ := build_seq_eq_ok.mp built
  obtain ⟨count, first, rfl⟩ := build_map_eq_ok.mp toCount
  refine ⟨members, rfl, ?_, ?_, rfl⟩
  · rcases build_defaulted_value.mp first with ⟨absent, rfl⟩ | ⟨j, stands, read⟩
    · exact .inl absent
    · rcases Decode.optional_eq_ok.mp read with ⟨null, rfl⟩ | ⟨-, n, counted, rfl⟩
      · exact .inr ⟨ofJson_eq_null.mp null ▸ stands, rfl⟩
      · obtain rfl := nat64_value counted
        exact .inl stands
  · rcases build_defaulted_value.mp second with ⟨absent, rfl⟩ | ⟨j, stands, read⟩
    · exact .inl ⟨absent, rfl⟩
    · obtain ⟨nodes, shown, each⟩ := Decode.list_eq_ok.mp read
      obtain ⟨-, items, rfl, rfl⟩ := ofJson_eq_array.mp shown
      exact .inr ⟨items, stands, List.forall₂_map_left_iff.mp each⟩

/-- The value, but that a null count is no count and there always are buckets. -/
def restated : Json → Json
  | .object members => .object (withDefault "buckets" (.array []) (withoutNull "count" members))
  | j => j

/-- The members that a facet declares, as they are written. -/
def declared (f : FacetNode) : Entries Json :=
  Json.optional "count" .ofNat f.count ++ [("buckets", .array (f.buckets.map Bucket.encode))]

theorem keys_declared (f : FacetNode) :
    f.declared.keys = if f.count.isSome then ["count", "buckets"] else ["buckets"] := by
  unfold declared
  cases f.count <;> rfl

theorem get?_declared_count (f : FacetNode) : f.declared.get? "count" = f.count.map .ofNat := by
  unfold declared
  cases f.count <;> rfl

theorem get?_declared_buckets (f : FacetNode) :
    f.declared.get? "buckets" = some (.array (f.buckets.map Bucket.encode)) := by
  unfold declared
  cases f.count <;> rfl

theorem encode_returned {j : Json} {f : FacetNode} (canonical : j.IsCanonical)
    (read : decode (.ofJson j) = .ok f) : Returned restated j f.encode := by
  obtain ⟨members, rfl, of⟩ := of_decode canonical read
  obtain ⟨sorted, each⟩ := isCanonical_object.mp canonical
  have listed : Returned id ((Entries.get? members "buckets").getD (.array []))
      (.array (f.buckets.map Bucket.encode)) := by
    rcases of.buckets with ⟨absent, none⟩ | ⟨items, stands, read⟩
    · rw [absent, none]
      exact ⟨trivial, rfl⟩
    · have inside := isCanonical_array.mp (each _ (Entries.mem_of_get? stands))
      exact stands ▸ Bucket.encodes_returned inside read
  have once : f.declared.keys.Nodup := by
    rw [keys_declared]
    split <;> decide
  have known : ∀ key ∈ f.declared.keys, key ∈ FacetNode.members.slots.map (·.key) := by
    change ∀ key ∈ _, key ∈ ["count", "buckets"]
    rw [keys_declared]
    split <;> decide
  rw [encode, of.facets]
  constructor
  · refine distinct_extended f.declared canonical once known ?_
    refine List.forall_mem_append.mpr ⟨?_, by simpa using listed.1⟩
    cases f.count <;> simp [Json.optional, ofNat, Distinct]
  · refine canonical_extended f.declared canonical once known
      (withDefault_sorted (withoutNull_sorted sorted)) ?_ ?_
    · change ∀ key ∈ ["count", "buckets"], _
      simp only [List.forall_mem_cons]
      refine ⟨?_, ?_, by simp⟩
      · rw [get?_withDefault_of_ne (by decide), get?_withoutNull, get?_declared_count]
        rcases of.count with same | ⟨null, absent⟩
        · rw [same]
          cases f.count <;> rfl
        · rw [null, absent]
          rfl
      · rw [get?_withDefault, get?_withoutNull_of_ne (by decide), get?_declared_buckets]
        exact congrArg some listed.2
    · intro key undeclared
      change key ∉ ["count", "buckets"] at undeclared
      have notCount := List.ne_of_not_mem_cons undeclared
      have notBuckets := List.ne_of_not_mem_cons (List.not_mem_of_not_mem_cons undeclared)
      rw [get?_withDefault_of_ne (Ne.symm notBuckets), get?_withoutNull_of_ne (Ne.symm notCount)]

end FacetNode

namespace FacetCounts

instance : members.Checked := by
  unfold members
  infer_instance

theorem settles : Settles decode :=
  settles_extended ((settles_defaulted "count" 0 settles_nat64).map _)

/-- What the counts have of the members of a value. -/
structure Of (c : FacetCounts) (members : Entries Json) : Prop where
  count : (members.get? "count").getD (.ofNat 0) = .ofNat c.count
  facets : c.facets = members.filter fun p => !declares FacetCounts.members.slots p.1

theorem of_decode {j : Json} {c : FacetCounts} (canonical : j.IsCanonical)
    (read : decode (.ofJson j) = .ok c) : ∃ members, j = .object members ∧ c.Of members := by
  obtain ⟨members, rfl, make, built, rfl⟩ := object_of_extended canonical read
  obtain ⟨count, first, rfl⟩ := build_map_eq_ok.mp built
  refine ⟨members, rfl, ?_, rfl⟩
  rcases build_defaulted_value.mp first with ⟨absent, rfl⟩ | ⟨j, stands, read⟩
  · rw [absent, Option.getD_none]
  · rw [stands, Option.getD_some, nat64_value read]

/-- The value, but that there always is a count. -/
def restated : Json → Json
  | .object members => .object (withDefault "count" (.ofNat 0) members)
  | j => j

theorem encode_returned {j : Json} {c : FacetCounts} (canonical : j.IsCanonical)
    (read : decode (.ofJson j) = .ok c) : Returned restated j c.encode := by
  obtain ⟨members, rfl, of⟩ := of_decode canonical read
  obtain ⟨sorted, -⟩ := isCanonical_object.mp canonical
  have once : ["count"].Nodup := by decide
  rw [encode, of.facets]
  constructor
  · refine distinct_extended [("count", .ofNat c.count)] canonical once
      (fun key => id) ?_
    simp [ofNat, Distinct]
  · refine canonical_extended [("count", .ofNat c.count)] canonical once
      (fun key => id) (withDefault_sorted sorted) ?_ ?_
    · change ∀ key ∈ ["count"], _
      simp only [List.forall_mem_singleton, Entries.get?_cons, if_true, Option.map_some,
        get?_withDefault, of.count]
      rfl
    · intro key undeclared
      change key ∉ ["count"] at undeclared
      exact get?_withDefault_of_ne (Ne.symm (List.ne_of_not_mem_cons undeclared))

end FacetCounts

/-- What is written for facets that are read, from a text or from a value, stands for the free
value that the text has, with an edit. -/
def Returns {α : Type} (edit : Json → Json) (decode : Decoder α) (encode : α → Json) : Prop :=
  (∀ text a, decodeText decode .service text = .ok a →
    ∃ v, decodeText Decode.value .service text = .ok v ∧ Returned edit v (encode a)) ∧
  ∀ v a, decodeValue decode v = .ok a → Returned edit v.canonical (encode a)

theorem returns_of {α : Type} {edit : Json → Json} {decode : Decoder α} {encode : α → Json}
    (settles : Settles decode)
    (returned : ∀ {j a}, j.IsCanonical → decode (.ofJson j) = .ok a → Returned edit j (encode a)) :
    Returns edit decode encode := by
  constructor
  · intro text a read
    obtain ⟨v, value, canonical, settled⟩ := settles.text read
    exact ⟨v, value, returned canonical settled⟩
  · intro v a read
    exact returned (isCanonical_canonical v) (mapError_eq_ok.mp read)

/-- Facets are written as they were read. A bucket is not changed; of a facet a null count is
left out and missing buckets are none; counts without a number have the number zero. -/
theorem facets_returned :
    Returns id Bucket.decode Bucket.encode ∧
      Returns FacetNode.restated FacetNode.decode FacetNode.encode ∧
      Returns FacetCounts.restated FacetCounts.decode FacetCounts.encode :=
  ⟨returns_of Bucket.settles Bucket.encode_returned,
    returns_of FacetNode.settles FacetNode.encode_returned,
    returns_of FacetCounts.settles FacetCounts.encode_returned⟩

/-- A facet of a range has a null count and no buckets; what stands beside them is kept. -/
theorem facets_returned_range :
    ∃ f : FacetNode, decodeText FacetNode.decode .service (Json.object
        [("gap", .ofDouble (.ofDecimal false ⟨15, -1⟩)), ("count", .null),
          ("after", .object [("count", .ofNat 2)])]).compact = .ok f ∧
      Returned id (.object [("after", .object [("count", .ofNat 2)]), ("buckets", .array []),
        ("gap", .ofDouble (.ofDecimal false ⟨15, -1⟩))]) f.encode := by
  let after : Json := .object [("count", .ofNat 2)]
  let gap : Json := .ofDouble (.ofDecimal false ⟨15, -1⟩)
  let f : FacetNode := ⟨none, [], [("after", after), ("gap", gap)]⟩
  let text := (Json.object [("gap", gap), ("count", .null), ("after", after)]).compact
  have read : decodeText FacetNode.decode .service text = .ok f := by decide +kernel
  obtain ⟨v, value, returned⟩ := facets_returned.2.1.1 text f read
  obtain rfl : v = .object [("after", after), ("count", .null), ("gap", gap)] :=
    Except.ok.inj (value.symm.trans (by decide +kernel))
  exact ⟨f, read, returned.1, returned.2.trans (by decide +kernel)⟩

end Answer
end Solr
