import Mathlib.Data.List.Basic
import Solr.Parameters
import Solr.Proofs.Json.Canonical

/-! Which values have parameters, and what these are; for the others, the fault that is
reported. The members of an object count as they stand in its canonical form: in key order,
and of equal keys the last. -/
namespace Solr

namespace Json

/-- A value that has at most one text. -/
def Simple : Json → Prop
  | .array _ | .object _ => False
  | _ => True

/-- A value that can be flattened: one that is simple, or a list of such. -/
def Flat : Json → Prop
  | .array items => ∀ j ∈ items, j.Simple
  | j => j.Simple

theorem Flat.of_simple {j : Json} (simple : j.Simple) : j.Flat := by
  cases j with
  | array | object => cases simple
  | null | boolean | number | string => trivial

theorem flat_ofStrings (texts : List String) : (ofStrings texts).Flat := by
  intro j member
  obtain ⟨s, -, rfl⟩ := List.mem_map.mp member
  trivial

theorem simple_ofOption {α : Type} (encode : α → Json) (simple : ∀ a, (encode a).Simple)
    (o : Option α) : (ofOption encode o).Simple := by
  cases o with
  | none => trivial
  | some a => exact simple a

theorem simple_ofDouble (x : Double) : (ofDouble x).Simple := by
  unfold ofDouble
  split <;> trivial

end Json

namespace Parameters

/-- The text of a simple value; a null has none. -/
def itemTexts : Json → List String
  | .boolean b => [if b then "true" else "false"]
  | .number n => [String.ofList (numberText n)]
  | .string s => [s]
  | .null | .array _ | .object _ => []

def texts : Json → List String
  | .array items => items.flatMap itemTexts
  | j => itemTexts j

/-- The pairs of members, in their order. -/
def pairs (members : List (String × Json)) : Parameters :=
  members.flatMap fun p => (texts p.2).map (p.1, ·)

theorem ofItem_eq {j : Json} (simple : j.Simple) (key : String) :
    ofItem key j = .ok ((itemTexts j).map (key, ·)) := by
  cases j with
  | array | object => cases simple
  | null | boolean | number | string => rfl

theorem ofItems_eq {items : List Json} (simple : ∀ j ∈ items, j.Simple) (key : String) :
    ofItems key items = .ok ((items.flatMap itemTexts).map (key, ·)) := by
  induction items with
  | nil => rfl
  | cons j items ih =>
    obtain ⟨first, others⟩ := List.forall_mem_cons.mp simple
    rw [ofItems, ofItem_eq first, ih others, List.flatMap_cons, List.map_append]
    rfl

theorem ofMember_eq {j : Json} (flat : j.Flat) (key : String) :
    ofMember key j = .ok ((texts j).map (key, ·)) := by
  cases j with
  | array items => exact ofItems_eq flat key
  | object => cases flat
  | null | boolean | number | string => rfl

theorem ofMembers_eq {members : List (String × Json)} (flat : ∀ p ∈ members, p.2.Flat) :
    ofMembers members = .ok (pairs members) := by
  induction members with
  | nil => rfl
  | cons p members ih =>
    obtain ⟨first, others⟩ := List.forall_mem_cons.mp flat
    rw [ofMembers, ofMember_eq first, ih others]
    rfl

theorem ofItem_refused {j : Json} (nested : ¬ j.Simple) (key : String) :
    ofItem key j = .error ⟨key, .nested⟩ := by
  cases j with
  | array | object => rfl
  | null | boolean | number | string => exact absurd trivial nested

theorem ofItems_refused {items : List Json} (nested : ¬ ∀ j ∈ items, j.Simple) (key : String) :
    ofItems key items = .error ⟨key, .nested⟩ := by
  induction items with
  | nil => exact absurd (List.forall_mem_nil _) nested
  | cons j items ih =>
    by_cases first : j.Simple
    · have others : ¬ ∀ k ∈ items, k.Simple := fun simple =>
        nested (List.forall_mem_cons.mpr ⟨first, simple⟩)
      rw [ofItems, ofItem_eq first, ih others]
      rfl
    · rw [ofItems, ofItem_refused first]
      rfl

theorem ofMember_refused {j : Json} (nested : ¬ j.Flat) (key : String) :
    ofMember key j = .error ⟨key, .nested⟩ := by
  cases j with
  | array items => exact ofItems_refused nested key
  | object => rfl
  | null | boolean | number | string => exact absurd trivial nested

/-- What is refused is the first member that is not flat; those after it are not looked at. -/
theorem ofMembers_eq_error_iff {members : List (String × Json)} {e : FlattenError} :
    ofMembers members = .error e ↔
      ∃ before key j after, members = before ++ (key, j) :: after ∧
        (∀ p ∈ before, p.2.Flat) ∧ ¬ j.Flat ∧ e = ⟨key, .nested⟩ := by
  induction members with
  | nil =>
    constructor
    · intro refused
      cases refused
    · rintro ⟨before, key, j, after, same, -⟩
      cases before <;> cases same
  | cons p members ih =>
    obtain ⟨k, first⟩ := p
    by_cases flat : first.Flat
    · have later : ofMembers ((k, first) :: members) = .error e ↔ ofMembers members = .error e := by
        rw [ofMembers, ofMember_eq flat]
        cases ofMembers members <;> simp [bind, Except.bind, pure, Except.pure]
      rw [later, ih]
      constructor
      · rintro ⟨before, key, j, after, rfl, all, nested, rfl⟩
        exact ⟨(k, first) :: before, key, j, after, rfl,
          List.forall_mem_cons.mpr ⟨flat, all⟩, nested, rfl⟩
      · rintro ⟨before, key, j, after, same, all, nested, rfl⟩
        cases before with
        | nil =>
          cases same
          exact absurd flat nested
        | cons q before =>
          cases same
          exact ⟨before, key, j, after, rfl, (List.forall_mem_cons.mp all).2, nested, rfl⟩
    · have refused : ofMembers ((k, first) :: members) = .error ⟨k, .nested⟩ := by
        rw [ofMembers, ofMember_refused flat]
        rfl
      rw [refused]
      constructor
      · intro same
        exact ⟨[], k, first, members, rfl, List.forall_mem_nil _, flat,
          (Except.error.inj same).symm⟩
      · rintro ⟨before, key, j, after, same, all, nested, rfl⟩
        cases before with
        | nil =>
          cases same
          rfl
        | cons q before =>
          cases same
          exact absurd (List.forall_mem_cons.mp all).1 flat

theorem ofMembers_eq_ok_iff {members : List (String × Json)} {parameters : Parameters} :
    ofMembers members = .ok parameters ↔
      (∀ p ∈ members, p.2.Flat) ∧ parameters = pairs members := by
  constructor
  · intro done
    have flat : ∀ p ∈ members, p.2.Flat := by
      induction members generalizing parameters with
      | nil => exact List.forall_mem_nil _
      | cons p members ih =>
        by_cases first : p.2.Flat
        · rw [ofMembers, ofMember_eq first] at done
          cases rest : ofMembers members with
          | error e =>
            rw [rest] at done
            cases done
          | ok pairs => exact List.forall_mem_cons.mpr ⟨first, ih rest⟩
        · rw [ofMembers, ofMember_refused first] at done
          cases done
    rw [ofMembers_eq flat] at done
    exact ⟨flat, (Except.ok.inj done).symm⟩
  · rintro ⟨flat, rfl⟩
    exact ofMembers_eq flat

/-- A value and its canonical form have the same pairs, or the same fault. -/
theorem ofItem_canonical (key : String) (j : Json) : ofItem key j.canonical = ofItem key j := by
  cases j with
  | number n => cases n <;> rfl
  | null | boolean | string | array | object => rfl

theorem ofItems_canonical (key : String) (items : List Json) :
    ofItems key (items.map Json.canonical) = ofItems key items := by
  induction items with
  | nil => rfl
  | cons j items ih => rw [List.map_cons, ofItems, ofItems, ofItem_canonical, ih]

theorem ofMember_canonical (key : String) (j : Json) :
    ofMember key j.canonical = ofMember key j := by
  cases j with
  | array items =>
    rw [Json.canonical, Json.canonicalItems_eq_map]
    exact ofItems_canonical key items
  | number n => cases n <;> rfl
  | null | boolean | string | object => rfl

theorem ofMembers_canonical (members : List (String × Json)) :
    ofMembers (members.map fun p => (p.1, p.2.canonical)) = ofMembers members := by
  induction members with
  | nil => rfl
  | cons p members ih => rw [List.map_cons, ofMembers, ofMembers, ofMember_canonical, ih]

theorem flatten_object (members : List (String × Json)) :
    flatten (.object members) = ofMembers (Entries.ofList members) := by
  rw [flatten, Json.canonical, Json.canonicalMembers_eq_map,
    Entries.ofList_map fun _ => Json.canonical]
  exact ofMembers_canonical _

/-- Members with flat values have parameters, in key order. -/
theorem flatten_flat {members : List (String × Json)} (flat : ∀ p ∈ members, p.2.Flat) :
    flatten (.object members) = .ok (pairs (Entries.ofList members)) := by
  rw [flatten_object]
  exact ofMembers_eq fun p member => flat p (Entries.mem_ofList member)

theorem filter_texts (keep : String → Bool) (p : String × Json) :
    ((texts p.2).map (p.1, ·)).filter (fun q => keep q.1) =
      if keep p.1 then (texts p.2).map (p.1, ·) else [] := by
  cases kept : keep p.1 <;> simp [List.filter_map, Function.comp_def, kept]

/-- To leave out keys is to leave out the members that have them. -/
theorem filter_pairs (keep : String → Bool) (members : List (String × Json)) :
    (pairs members).filter (fun p => keep p.1) = pairs (members.filter fun p => keep p.1) := by
  induction members with
  | nil => rfl
  | cons p members ih =>
    rw [pairs, List.flatMap_cons, List.filter_append, filter_texts, List.filter_cons]
    cases keep p.1 with
    | true => exact congrArg _ ih
    | false => exact ih

/-- The pairs stand in the order of their keys, those of one key together. -/
theorem pairs_ordered {entries : Entries Json} (sorted : entries.Sorted) :
    (pairs entries).Pairwise fun a b => a.1 = b.1 ∨ Text.Before a.1 b.1 := by
  apply List.pairwise_flatMap.mpr
  constructor
  · intro p _
    apply List.pairwise_map.mpr
    exact List.pairwise_of_forall fun _ _ => .inl rfl
  · apply sorted.before.imp
    intro p q before a here b there
    obtain ⟨s, -, rfl⟩ := List.mem_map.mp here
    obtain ⟨t, -, rfl⟩ := List.mem_map.mp there
    exact .inr before

/-- The pairs of a key are those of the value that stands under it. -/
theorem filter_pairs_sorted {entries : Entries Json} (sorted : entries.Sorted) (key : String) :
    (pairs entries).filter (fun p => p.1 = key) =
      ((entries.get? key).elim [] texts).map (key, ·) := by
  rw [filter_pairs fun k => decide (k = key), Entries.filter_key sorted]
  cases entries.get? key with
  | none => rfl
  | some j => simp [pairs]

/-- The pairs of members with distinct keys, once the keys are put in order. -/
theorem pairs_listed {members : List (String × Json)} {keys : List String}
    (once : (Entries.keys members).Nodup) (increasing : keys.Pairwise (· < ·))
    (perm : keys.Perm (Entries.keys members)) :
    pairs (Entries.ofList members) = keys.flatMap fun key =>
      (texts ((Entries.get? members key).getD .null)).map (key, ·) := by
  let under (key : String) : String × Json := (key, (Entries.get? members key).getD .null)
  have listed : (Entries.keys members).map under = members := by
    rw [Entries.keys, List.map_map]
    refine (List.map_congr_left fun p member => ?_).trans (List.map_id _)
    have there : Entries.get? members p.1 = some p.2 := Entries.get?_of_mem once member
    simp [under, there]
  have sorted : Entries.Sorted (keys.map under) := List.pairwise_map.mpr increasing
  have arranged : (keys.map under).Perm members := listed ▸ perm.map under
  rw [← Entries.ofList_perm (a := keys.map under) sorted.nodup_keys arranged,
    Entries.ofList_of_sorted sorted, pairs, List.flatMap_map]

/-- The first key, in the order of the bytes, of a member that is not flat. -/
structure FirstFault (entries : List (String × Json)) (key : String) : Prop where
  faulty : ∃ j, (key, j) ∈ entries ∧ ¬ j.Flat
  least : ∀ p ∈ entries, ¬ p.2.Flat → ¬ Text.Before p.1 key

theorem firstFault_iff {entries : Entries Json} (sorted : entries.Sorted) {key : String} :
    FirstFault entries key ↔ ∃ before j after, entries = before ++ (key, j) :: after ∧
      (∀ p ∈ before, p.2.Flat) ∧ ¬ j.Flat := by
  constructor
  · rintro ⟨⟨j, member, nested⟩, least⟩
    obtain ⟨before, after, rfl⟩ := List.append_of_mem member
    refine ⟨before, j, after, rfl, fun p earlier => ?_, nested⟩
    by_contra faulty
    apply least p (List.mem_append_left _ earlier) faulty
    exact (List.pairwise_append.mp sorted.before).2.2 p earlier _ List.mem_cons_self
  · rintro ⟨before, j, after, rfl, flat, nested⟩
    obtain ⟨-, tail, -⟩ := List.pairwise_append.mp sorted
    refine ⟨⟨j, List.mem_append_right _ List.mem_cons_self, nested⟩, fun p member faulty less => ?_⟩
    rw [Text.before_iff_lt] at less
    rcases List.mem_append.mp member with earlier | member
    · exact faulty (flat p earlier)
    · rcases List.mem_cons.mp member with rfl | later
      · exact String.lt_irrefl _ less
      · exact String.lt_asymm less ((List.pairwise_cons.mp tail).1 p later)

theorem flatten_notObject {j : Json} (other : ∀ members, j ≠ .object members) :
    flatten j = .error ⟨"", .notAnObject j.canonical⟩ := by
  cases j with
  | object members => exact absurd rfl (other members)
  | number n => cases n <;> rfl
  | null | boolean | string | array => rfl

theorem flatten_eq_ok_iff {j : Json} {parameters : Parameters} :
    flatten j = .ok parameters ↔
      ∃ members entries, j = .object members ∧ Entries.Listing members entries ∧
        (∀ p ∈ entries, p.2.Flat) ∧ parameters = pairs entries := by
  constructor
  · intro done
    by_cases object : ∃ members, j = .object members
    · obtain ⟨members, rfl⟩ := object
      rw [flatten_object] at done
      obtain ⟨flat, rfl⟩ := ofMembers_eq_ok_iff.mp done
      exact ⟨members, _, rfl, Entries.listing_iff.mpr rfl, flat, rfl⟩
    · rw [flatten_notObject fun members same => object ⟨members, same⟩] at done
      cases done
  · rintro ⟨members, entries, rfl, listing, flat, rfl⟩
    obtain rfl := Entries.listing_iff.mp listing
    rw [flatten_object]
    exact ofMembers_eq flat

theorem flatten_eq_error_iff {j : Json} {e : FlattenError} :
    flatten j = .error e ↔
      ((∀ members, j ≠ .object members) ∧ e = ⟨"", .notAnObject j.canonical⟩) ∨
      ∃ members entries key, j = .object members ∧ Entries.Listing members entries ∧
        FirstFault entries key ∧ e = ⟨key, .nested⟩ := by
  constructor
  · intro refused
    by_cases object : ∃ members, j = .object members
    · obtain ⟨members, rfl⟩ := object
      rw [flatten_object] at refused
      obtain ⟨before, key, value, after, split, flat, nested, rfl⟩ :=
        ofMembers_eq_error_iff.mp refused
      have first : FirstFault (Entries.ofList members) key :=
        (firstFault_iff (Entries.ofList_sorted members)).mpr
          ⟨before, value, after, split, flat, nested⟩
      exact .inr ⟨members, _, key, rfl, Entries.listing_iff.mpr rfl, first, rfl⟩
    · have other : ∀ members, j ≠ .object members := fun members same => object ⟨members, same⟩
      rw [flatten_notObject other] at refused
      exact .inl ⟨other, (Except.error.inj refused).symm⟩
  · rintro (⟨other, rfl⟩ | ⟨members, entries, key, rfl, listing, first, rfl⟩)
    · exact flatten_notObject other
    · obtain rfl := Entries.listing_iff.mp listing
      obtain ⟨before, value, after, split, flat, nested⟩ :=
        (firstFault_iff (Entries.ofList_sorted members)).mp first
      rw [flatten_object]
      exact ofMembers_eq_error_iff.mpr ⟨before, key, value, after, split, flat, nested, rfl⟩

/-- An object of flat values, and nothing else, has parameters: in the order of the bytes of
the keys, those of each member. What is no object is refused under no key, and an object
under the first of the keys whose values are not flat. -/
theorem flatten_exactly (j : Json) :
    (∀ parameters, flatten j = .ok parameters ↔
      ∃ members entries, j = .object members ∧ Entries.Listing members entries ∧
        (∀ p ∈ entries, p.2.Flat) ∧ parameters = pairs entries) ∧
    (∀ e, flatten j = .error e ↔
      ((∀ members, j ≠ .object members) ∧ e = ⟨"", .notAnObject j.canonical⟩) ∨
      ∃ members entries key, j = .object members ∧ Entries.Listing members entries ∧
        FirstFault entries key ∧ e = ⟨key, .nested⟩) := by
  constructor
  · intro parameters
    exact flatten_eq_ok_iff
  · intro e
    exact flatten_eq_error_iff

end Parameters
end Solr
