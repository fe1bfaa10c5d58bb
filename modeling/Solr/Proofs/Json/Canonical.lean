import Solr.Json.Basic
import Solr.Proofs.Entries

/-! Canonical values: keys in order at every depth, each once, and numbers that are integers or
doubles. Every value has one canonical form. -/
namespace Solr

namespace Entries

variable {α : Type _}

/-- What stands in the place of one value does not change the order of the keys. -/
theorem sorted_map {f : α → α} {entries : Entries α} :
    Sorted (entries.map fun p => (p.1, f p.2)) ↔ entries.Sorted :=
  List.pairwise_map

/-- Lists in order that have the same under each key are the same. -/
theorem Sorted.ext {a b : Entries α} (left : a.Sorted) (right : b.Sorted)
    (same : ∀ key, get? a key = get? b key) : a = b := by
  rw [← ofList_of_sorted right]
  refine listing_iff.mp ⟨left.before, fun key => ?_⟩
  rw [same, ← get?_ofList, ofList_of_sorted right]

theorem ofList_perm {a b : List (String × α)} (once : (keys a).Nodup) (perm : a.Perm b) :
    ofList a = ofList b := by
  have onceThere : (keys b).Nodup := (perm.map _).nodup_iff.mp once
  refine Sorted.ext (ofList_sorted a) (ofList_sorted b) fun key => ?_
  rw [get?_ofList, get?_ofList, get?_reverse (List.nodup_iff_count_le_one.mp once key),
    get?_reverse (List.nodup_iff_count_le_one.mp onceThere key)]
  exact get?_perm once perm key

end Entries

namespace Json

theorem canonicalItems_eq_map (items : List Json) : canonicalItems items = items.map canonical := by
  induction items with
  | nil => rfl
  | cons j items ih => rw [canonicalItems, ih, List.map_cons]

theorem canonicalMembers_eq_map (members : List (String × Json)) :
    canonicalMembers members = members.map fun p => (p.1, p.2.canonical) := by
  induction members with
  | nil => rfl
  | cons p members ih => rw [canonicalMembers, ih, List.map_cons]

/-- The value is its own canonical form. -/
def IsCanonical (j : Json) : Prop :=
  j.canonical = j

theorem isCanonical_array {items : List Json} :
    (array items).IsCanonical ↔ ∀ j ∈ items, j.IsCanonical := by
  rw [IsCanonical, canonical, canonicalItems_eq_map, array.injEq]
  have alike := List.map_inj_left (f := canonical) (g := id) (l := items)
  simpa only [IsCanonical, List.map_id, id] using alike

theorem isCanonical_object {members : List (String × Json)} :
    (object members).IsCanonical ↔
      Entries.Sorted members ∧ ∀ p ∈ members, p.2.IsCanonical := by
  rw [IsCanonical, canonical, canonicalMembers_eq_map, object.injEq]
  have each : (members.map fun p => (p.1, p.2.canonical)) = members ↔
      ∀ p ∈ members, p.2.IsCanonical := by
    have alike := List.map_inj_left (f := fun p => (p.1, p.2.canonical)) (g := id) (l := members)
    simpa only [IsCanonical, List.map_id, id, Prod.ext_iff, true_and] using alike
  constructor
  · intro same
    have sorted : Entries.Sorted members := same ▸ Entries.ofList_sorted _
    rw [Entries.ofList_of_sorted (Entries.sorted_map.mpr sorted)] at same
    exact ⟨sorted, each.mp same⟩
  · rintro ⟨sorted, inside⟩
    rw [each.mpr inside, Entries.ofList_of_sorted sorted]

mutual

theorem isCanonical_canonical : ∀ j : Json, j.canonical.IsCanonical
  | .null | .boolean _ | .string _ | .number (.integer _) | .number (.double _)
  | .number (.single _) => rfl
  | .array items => isCanonical_array.mpr (isCanonical_canonicalItems items)
  | .object members => isCanonical_object.mpr ⟨Entries.ofList_sorted _, fun p member =>
      isCanonical_canonicalMembers members p (Entries.mem_ofList member)⟩

theorem isCanonical_canonicalItems : ∀ items : List Json,
    ∀ j ∈ canonicalItems items, j.IsCanonical
  | [] => by simp [canonicalItems]
  | j :: rest => List.forall_mem_cons.mpr
      ⟨isCanonical_canonical j, isCanonical_canonicalItems rest⟩

theorem isCanonical_canonicalMembers : ∀ members : List (String × Json),
    ∀ p ∈ canonicalMembers members, p.2.IsCanonical
  | [] => by simp [canonicalMembers]
  | (_, j) :: rest => List.forall_mem_cons.mpr
      ⟨isCanonical_canonical j, isCanonical_canonicalMembers rest⟩

end

mutual

/-- No object in the value has two members of one key. -/
def Distinct : Json → Prop
  | .array items => DistinctItems items
  | .object members => (members.map (·.1)).Nodup ∧ DistinctMembers members
  | .null | .boolean _ | .number _ | .string _ => True

def DistinctItems : List Json → Prop
  | [] => True
  | j :: rest => Distinct j ∧ DistinctItems rest

def DistinctMembers : List (String × Json) → Prop
  | [] => True
  | (_, j) :: rest => Distinct j ∧ DistinctMembers rest

end

theorem distinctItems_iff {items : List Json} : DistinctItems items ↔ ∀ j ∈ items, j.Distinct := by
  induction items with
  | nil => simp [DistinctItems]
  | cons j rest ih => simp [DistinctItems, ih]

theorem distinctMembers_iff {members : List (String × Json)} :
    DistinctMembers members ↔ ∀ p ∈ members, p.2.Distinct := by
  induction members with
  | nil => simp [DistinctMembers]
  | cons p rest ih => simp [DistinctMembers, ih]

mutual

theorem IsCanonical.distinct : ∀ {j : Json}, j.IsCanonical → j.Distinct
  | .null, _ | .boolean _, _ | .number _, _ | .string _, _ => trivial
  | .array _, canonical => distinct_items (isCanonical_array.mp canonical)
  | .object _, canonical => by
    obtain ⟨sorted, each⟩ := isCanonical_object.mp canonical
    exact ⟨sorted.nodup_keys, distinct_members each⟩

theorem distinct_items : ∀ {items : List Json}, (∀ j ∈ items, j.IsCanonical) →
    DistinctItems items
  | [], _ => trivial
  | _ :: _, each => ⟨(each _ List.mem_cons_self).distinct,
      distinct_items fun j member => each j (List.mem_cons_of_mem _ member)⟩

theorem distinct_members : ∀ {members : List (String × Json)}, (∀ p ∈ members, p.2.IsCanonical) →
    DistinctMembers members
  | [], _ => trivial
  | (_, _) :: _, each => ⟨(each _ List.mem_cons_self).distinct,
      distinct_members fun p member => each p (List.mem_cons_of_mem _ member)⟩

end

end Json
end Solr
