import Mathlib.Data.List.Induction
import Mathlib.Data.List.Sort
import Solr.Entries
import Solr.Proofs.Text.Order

/-! What stands under one key of a keyed list, and what the list is as a whole: the pairs
that it is made of, in the order of the bytes of their keys. -/
namespace Solr.Entries

variable {α β : Type _}

theorem ofList_concat (pairs : List (String × α)) (key : String) (value : α) :
    ofList (pairs ++ [(key, value)]) = (ofList pairs).insert key value := by
  simp [ofList, addAll]

theorem mem_addAll {entries : Entries α} {pairs : List (String × α)} {p : String × α}
    (member : p ∈ entries.addAll pairs) : p ∈ pairs ∨ p ∈ entries := by
  induction pairs generalizing entries with
  | nil => exact .inr member
  | cons q rest ih =>
    rcases ih member with later | before
    · exact .inl (List.mem_cons_of_mem _ later)
    · rcases mem_insert before with rfl | inside
      · exact .inl List.mem_cons_self
      · exact .inr inside

theorem mem_ofList {pairs : List (String × α)} {p : String × α} (member : p ∈ ofList pairs) :
    p ∈ pairs :=
  (mem_addAll member).resolve_right List.not_mem_nil

theorem insert_ne_nil (key : String) (value : α) (entries : Entries α) :
    entries.insert key value ≠ [] := by
  cases entries with
  | nil => exact List.cons_ne_nil _ _
  | cons p rest =>
    rw [insert]
    split
    · exact List.cons_ne_nil _ _
    · split <;> exact List.cons_ne_nil _ _

theorem ofList_eq_nil_iff {pairs : List (String × α)} : ofList pairs = [] ↔ pairs = [] := by
  cases pairs using List.reverseRecOn with
  | nil => exact Iff.rfl
  | append_singleton pairs p =>
    obtain ⟨key, value⟩ := p
    rw [ofList_concat]
    exact iff_of_false (insert_ne_nil _ _ _) (List.append_ne_nil_of_right_ne_nil _ (by simp))

/-- A change of the values leaves the order alone. -/
theorem insert_map (f : String → α → β) (key : String) (value : α) (entries : Entries α) :
    insert key (f key value) (entries.map fun p => (p.1, f p.1 p.2)) =
      (entries.insert key value).map fun p => (p.1, f p.1 p.2) := by
  induction entries with
  | nil => rfl
  | cons p rest ih =>
    simp only [List.map_cons, insert]
    split
    · rfl
    · split
      · rfl
      · rw [ih, List.map_cons]

theorem ofList_map (f : String → α → β) (pairs : List (String × α)) :
    ofList (pairs.map fun p => (p.1, f p.1 p.2)) =
      (ofList pairs).map fun p => (p.1, f p.1 p.2) := by
  induction pairs using List.reverseRecOn with
  | nil => rfl
  | append_singleton pairs p ih =>
    obtain ⟨key, value⟩ := p
    rw [List.map_append, List.map_singleton, ofList_concat, ih, insert_map, ofList_concat]

theorem get?_eq_none {entries : Entries α} {key : String} (absent : key ∉ entries.keys) :
    entries.get? key = none := by
  simp only [get?, Option.map_eq_none_iff, List.find?_eq_none, decide_eq_true_eq]
  intro p member same
  exact absent (same ▸ List.mem_map_of_mem member)

theorem get?_append (a b : Entries α) (key : String) :
    get? (a ++ b) key = (a.get? key).or (b.get? key) := by
  rw [get?, List.find?_append, Option.map_or, get?, get?]

theorem get?_map (f : α → β) (entries : List (String × α)) (key : String) :
    get? (entries.map fun p => (p.1, f p.2)) key = (get? entries key).map f := by
  induction entries with
  | nil => rfl
  | cons p rest ih =>
    rw [List.map_cons, get?_cons, get?_cons, ih]
    split <;> rfl

theorem get?_filter (keep : String → Bool) {key : String} (kept : keep key)
    (entries : List (String × α)) :
    get? (entries.filter fun p => keep p.1) key = get? entries key := by
  induction entries with
  | nil => rfl
  | cons p rest ih =>
    by_cases same : p.1 = key
    · rw [List.filter_cons_of_pos (same ▸ kept), get?_cons, get?_cons, if_pos same, if_pos same]
    · rw [List.filter_cons, get?_cons, if_neg same]
      split
      · rw [get?_cons, if_neg same, ih]
      · exact ih

/-- A key that is less than all others is put first. -/
theorem insert_of_lt {key : String} {entries : Entries α} (least : ∀ p ∈ entries, key < p.1)
    (value : α) : entries.insert key value = (key, value) :: entries := by
  cases entries with
  | nil => rfl
  | cons p rest => exact if_pos (least p List.mem_cons_self)

/-- Keys that are left out do not disturb the order of the others. -/
theorem filter_insert (keep : String → Bool) {entries : Entries α} (sorted : entries.Sorted)
    (key : String) (value : α) :
    (entries.insert key value).filter (fun p => keep p.1) =
      if keep key then insert key value (entries.filter fun p => keep p.1)
      else entries.filter fun p => keep p.1 := by
  induction entries with
  | nil => cases kept : keep key <;> simp [insert, kept]
  | cons q rest ih =>
    obtain ⟨k, v⟩ := q
    obtain ⟨above, tail⟩ := List.pairwise_cons.mp sorted
    rcases Std.lt_trichotomy key k with less | rfl | greater
    · have least : ∀ p ∈ ((k, v) :: rest).filter (fun p => keep p.1), key < p.1 := by
        intro p member
        rcases List.mem_cons.mp (List.mem_filter.mp member).1 with rfl | inside
        · exact less
        · exact String.lt_trans less (above p inside)
      rw [insert_of_lt least, insert, if_pos less, List.filter_cons]
    · have irreflexive : ¬ key < key := String.lt_irrefl key
      rw [insert, if_neg irreflexive, if_pos rfl, List.filter_cons, List.filter_cons]
      cases keep key with
      | true => simp only [if_true, insert, if_neg irreflexive]
      | false => rfl
    · have notLess : ¬ key < k := String.lt_asymm greater
      have other : key ≠ k := fun same => String.lt_irrefl key (same ▸ greater)
      rw [insert, if_neg notLess, if_neg other, List.filter_cons, List.filter_cons, ih tail]
      cases keep k with
      | true => cases keep key <;> simp [insert, notLess, other]
      | false => rfl

theorem filter_ofList (keep : String → Bool) (pairs : List (String × α)) :
    (ofList pairs).filter (fun p => keep p.1) = ofList (pairs.filter fun p => keep p.1) := by
  induction pairs using List.reverseRecOn with
  | nil => rfl
  | append_singleton pairs p ih =>
    obtain ⟨key, value⟩ := p
    rw [ofList_concat, filter_insert keep (ofList_sorted pairs), ih, List.filter_append]
    cases kept : keep key <;> simp [kept, ofList_concat]

/-- A value has one place under its key, whatever value it is. -/
theorem insert_around (key : String) {entries : Entries α} (sorted : entries.Sorted) :
    ∃ before after, entries.filter (fun p => p.1 ≠ key) = before ++ after ∧
      ∀ value, entries.insert key value = before ++ (key, value) :: after := by
  induction entries with
  | nil => exact ⟨[], [], rfl, fun _ => rfl⟩
  | cons p rest ih =>
    obtain ⟨k, v⟩ := p
    obtain ⟨above, tail⟩ := List.pairwise_cons.mp sorted
    have others (least : ∀ q ∈ rest, key < q.1) : rest.filter (fun q => q.1 ≠ key) = rest := by
      apply List.filter_eq_self.mpr
      intro q member
      exact decide_eq_true fun same => String.lt_irrefl key (same ▸ least q member)
    rcases Std.lt_trichotomy key k with less | rfl | greater
    · have different : k ≠ key := fun same => String.lt_irrefl k (same ▸ less)
      refine ⟨[], (k, v) :: rest, ?_, fun value => if_pos less⟩
      rw [List.filter_cons_of_pos (by simpa using different),
        others fun q member => String.lt_trans less (above q member)]
      rfl
    · refine ⟨[], rest, ?_, fun value => ?_⟩
      · rw [List.filter_cons_of_neg (by simp), others above]
        rfl
      · rw [insert, if_neg (String.lt_irrefl key), if_pos rfl]
        rfl
    · have different : k ≠ key := fun same => String.lt_irrefl k (same ▸ greater)
      obtain ⟨before, after, kept, placed⟩ := ih tail
      refine ⟨(k, v) :: before, after, ?_, fun value => ?_⟩
      · rw [List.filter_cons_of_pos (by simpa using different), kept]
        rfl
      · rw [insert, if_neg (String.lt_asymm greater), if_neg different.symm, placed]
        rfl

/-- Of the pairs that are added the last one with a key counts; it goes before what was there. -/
theorem get?_addAll (entries : Entries α) (pairs : List (String × α)) (key : String) :
    (entries.addAll pairs).get? key = (get? pairs.reverse key).or (entries.get? key) := by
  induction pairs generalizing entries with
  | nil => rfl
  | cons p rest ih =>
    obtain ⟨k, value⟩ := p
    have added : (entries.addAll ((k, value) :: rest)).get? key =
        (get? rest.reverse key).or ((entries.insert k value).get? key) := ih _
    rw [added, List.reverse_cons, get?_append, Option.or_assoc]
    by_cases same : k = key
    · subst same
      rw [get?_insert_self, get?_cons, if_pos rfl, Option.some_or]
    · rw [get?_insert_of_ne same, get?_cons, if_neg same]
      rfl

theorem get?_ofList (pairs : List (String × α)) (key : String) :
    (ofList pairs).get? key = get? pairs.reverse key :=
  (get?_addAll [] pairs key).trans Option.or_none

theorem mem_of_get? {entries : Entries α} {key : String} {value : α}
    (found : entries.get? key = some value) : (key, value) ∈ entries := by
  induction entries with
  | nil => cases found
  | cons p rest ih =>
    obtain ⟨k, v⟩ := p
    rw [get?_cons] at found
    by_cases same : k = key
    · rw [if_pos same] at found
      obtain rfl : v = value := Option.some.inj found
      exact same ▸ List.mem_cons_self
    · rw [if_neg same] at found
      exact List.mem_cons_of_mem _ (ih found)

/-- Where a key stands once, its pair is found. -/
theorem get?_of_count {entries : Entries α} {key : String} (once : entries.keys.count key ≤ 1)
    {value : α} (member : (key, value) ∈ entries) : entries.get? key = some value := by
  induction entries with
  | nil => cases member
  | cons p rest ih =>
    rw [get?_cons]
    change (p.1 :: keys rest).count key ≤ 1 at once
    rcases List.mem_cons.mp member with rfl | member
    · exact if_pos rfl
    · have inside : key ∈ keys rest := List.mem_map_of_mem (f := (·.1)) member
      have again : 0 < (keys rest).count key := List.count_pos_iff.mpr inside
      have other : p.1 ≠ key := by
        intro same
        rw [same, List.count_cons_self] at once
        omega
      rw [List.count_cons_of_ne other] at once
      rw [if_neg other]
      exact ih once member

theorem get?_of_mem {entries : Entries α} (once : entries.keys.Nodup) {key : String} {value : α}
    (member : (key, value) ∈ entries) : entries.get? key = some value :=
  get?_of_count (List.nodup_iff_count_le_one.mp once key) member

theorem Sorted.nodup_keys {entries : Entries α} (sorted : entries.Sorted) :
    entries.keys.Nodup := by
  apply List.pairwise_map.mpr
  apply sorted.imp
  intro a b less same
  exact String.lt_irrefl b.1 (same ▸ less)

/-- Pairs whose keys differ are all kept. -/
theorem mem_ofList_iff {pairs : List (String × α)} (once : (keys pairs).Nodup)
    {p : String × α} : p ∈ ofList pairs ↔ p ∈ pairs := by
  refine ⟨mem_ofList, fun member => mem_of_get? ?_⟩
  rw [get?_ofList]
  apply get?_of_mem
  · rw [keys, List.map_reverse]
    exact List.nodup_reverse.mpr once
  · exact List.mem_reverse.mpr member

/-- What is in order is its own list of entries. -/
theorem ofList_of_sorted {entries : Entries α} (sorted : entries.Sorted) :
    ofList entries = entries := by
  have irreflexive : Std.Irrefl fun a b : String × α => a.1 < b.1 :=
    ⟨fun a => String.lt_irrefl a.1⟩
  apply (ofList_sorted entries).eq_of_mem_iff sorted
  intro p
  exact mem_ofList_iff sorted.nodup_keys

/-- The pairs as a map: in the order of the bytes of the keys, each of these once, with the
last of its values. -/
structure Listing (pairs entries : List (String × α)) : Prop where
  ordered : entries.Pairwise fun a b => Text.Before a.1 b.1
  last : ∀ key, get? entries key = get? pairs.reverse key

theorem Sorted.before {entries : Entries α} (sorted : entries.Sorted) :
    entries.Pairwise fun a b => Text.Before a.1 b.1 :=
  sorted.imp (Text.before_iff_lt _ _).mpr

/-- What stands around a pair of a list in order. -/
theorem Sorted.around {entries : Entries α} (sorted : entries.Sorted) {p : String × α}
    (member : p ∈ entries) :
    ∃ earlier later, entries = earlier ++ p :: later ∧
      (∀ q ∈ earlier, Text.Before q.1 p.1) ∧ ∀ q ∈ later, Text.Before p.1 q.1 := by
  obtain ⟨earlier, later, split⟩ := List.append_of_mem member
  have ordered := sorted.before
  rw [split] at ordered
  obtain ⟨-, tail, across⟩ := List.pairwise_append.mp ordered
  exact ⟨earlier, later, split, fun q inside => across q inside p List.mem_cons_self,
    (List.pairwise_cons.mp tail).1⟩

/-- There is one such map. -/
theorem listing_iff {pairs entries : List (String × α)} :
    Listing pairs entries ↔ entries = ofList pairs := by
  constructor
  · intro listing
    have sorted : Sorted entries := listing.ordered.imp (Text.before_iff_lt _ _).mp
    have irreflexive : Std.Irrefl fun a b : String × α => a.1 < b.1 :=
      ⟨fun a => String.lt_irrefl a.1⟩
    apply sorted.eq_of_mem_iff (ofList_sorted pairs)
    rintro ⟨key, value⟩
    have same : get? entries key = get? (ofList pairs) key := by
      rw [listing.last, get?_ofList]
    constructor
    · intro member
      exact mem_of_get? (same ▸ get?_of_mem sorted.nodup_keys member)
    · intro member
      exact mem_of_get? (same ▸ get?_of_mem (ofList_sorted pairs).nodup_keys member)
  · rintro rfl
    exact ⟨(ofList_sorted pairs).before, get?_ofList pairs⟩

/-- Lists with the same keys in the same order have related values under each of them, if they
have in each place. -/
theorem rel_get? {R : String → α → β → Prop} {a : Entries α} {b : Entries β}
    (related : List.Forall₂ (fun p q => p.1 = q.1 ∧ R p.1 p.2 q.2) a b) (key : String) :
    Option.Rel (R key) (a.get? key) (b.get? key) := by
  induction related with
  | nil => exact .none
  | @cons p q a b first _ ih =>
    obtain ⟨same, holds⟩ := first
    rw [get?_cons, get?_cons, ← same]
    by_cases found : p.1 = key
    · rw [if_pos found, if_pos found]
      exact .some (found ▸ holds)
    · rw [if_neg found, if_neg found]
      exact ih

/-- The first pair of a key that stands once is the last as well. -/
theorem get?_reverse {pairs : List (String × α)} {key : String}
    (once : (keys pairs).count key ≤ 1) : get? pairs.reverse key = get? pairs key := by
  induction pairs with
  | nil => rfl
  | cons p rest ih =>
    rw [List.reverse_cons, get?_append, get?_cons, get?_cons]
    rw [keys, List.map_cons] at once
    by_cases same : p.1 = key
    · rw [same, List.count_cons_self] at once
      have absent : key ∉ keys rest.reverse := by
        rw [keys, List.map_reverse, List.mem_reverse]
        exact List.count_eq_zero.mp (by omega)
      rw [if_pos same, if_pos same, get?_eq_none absent, Option.none_or]
    · rw [List.count_cons_of_ne same] at once
      rw [if_neg same, if_neg same, ih once]
      exact Option.or_none

/-- The order does not matter where no key stands twice. -/
theorem get?_perm {a b : Entries α} (once : a.keys.Nodup) (perm : a.Perm b) (key : String) :
    a.get? key = b.get? key := by
  have onceThere : b.keys.Nodup := (perm.map _).nodup_iff.mp once
  cases there : b.get? key with
  | some value => exact get?_of_mem once (perm.mem_iff.mpr (mem_of_get? there))
  | none =>
    cases here : a.get? key with
    | none => rfl
    | some value =>
      have found := get?_of_mem onceThere (perm.mem_iff.mp (mem_of_get? here))
      rw [there] at found
      cases found

/-- A key stands once, or not at all. -/
theorem filter_key {entries : Entries α} (sorted : entries.Sorted) (key : String) :
    entries.filter (fun p => p.1 = key) = ((entries.get? key).map (key, ·)).toList := by
  induction entries with
  | nil => rfl
  | cons p rest ih =>
    obtain ⟨above, sorted⟩ := List.pairwise_cons.mp sorted
    rw [get?_cons]
    by_cases same : p.1 = key
    · have alone : rest.filter (fun q => q.1 = key) = [] := by
        rw [List.filter_eq_nil_iff]
        intro q member found
        have less := above q member
        rw [same, of_decide_eq_true found] at less
        exact absurd less (String.lt_irrefl key)
      rw [List.filter_cons_of_pos (by simpa using same), alone, if_pos same]
      simp [← same]
    · rw [List.filter_cons_of_neg (by simpa using same), if_neg same]
      exact ih sorted

end Solr.Entries
