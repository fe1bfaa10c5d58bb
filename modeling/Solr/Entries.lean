/-! Keyed lists in increasing key order. Keys are compared by code point, which is
the order of their UTF-8 bytes; a key stored twice keeps its last value. -/
namespace Solr

abbrev Entries (α : Type _) := List (String × α)

namespace Entries

variable {α β : Type _}

/-- Puts `value` under `key`, in key order, replacing what stood there. -/
def insert (key : String) (value : α) : Entries α → Entries α
  | [] => [(key, value)]
  | (k, v) :: rest =>
    if key < k then (key, value) :: (k, v) :: rest
    else if key = k then (key, value) :: rest
    else (k, v) :: insert key value rest

/-- Adds the pairs one after the other. -/
def addAll (entries : Entries α) (pairs : List (String × α)) : Entries α :=
  pairs.foldl (fun acc p => acc.insert p.1 p.2) entries

def ofList (pairs : List (String × α)) : Entries α :=
  addAll [] pairs

def get? (entries : Entries α) (key : String) : Option α :=
  (entries.find? (fun p => p.1 = key)).map (·.2)

def keys (entries : Entries α) : List String :=
  entries.map (·.1)

/-- Keys strictly increase, so each stands once. -/
def Sorted (entries : Entries α) : Prop :=
  entries.Pairwise (fun a b => a.1 < b.1)

instance (entries : Entries α) : Decidable entries.Sorted :=
  inferInstanceAs (Decidable (List.Pairwise _ _))

theorem mem_insert {key : String} {value : α} {entries : Entries α} {p : String × α}
    (h : p ∈ entries.insert key value) : p = (key, value) ∨ p ∈ entries := by
  induction entries with
  | nil => exact .inl (by simpa [insert] using h)
  | cons q rest ih =>
    simp only [insert] at h
    split at h
    · simpa using h
    · split at h
      · rcases List.mem_cons.mp h with rfl | h
        · exact .inl rfl
        · exact .inr (List.mem_cons_of_mem _ h)
      · rcases List.mem_cons.mp h with rfl | h
        · exact .inr (List.mem_cons_self ..)
        · exact (ih h).imp id (List.mem_cons_of_mem _)

theorem insert_sorted {key : String} {value : α} {entries : Entries α}
    (sorted : entries.Sorted) : (entries.insert key value).Sorted := by
  induction entries with
  | nil => exact List.pairwise_singleton _ _
  | cons q rest ih =>
    obtain ⟨head, tail⟩ := List.pairwise_cons.mp sorted
    simp only [insert]
    split
    · rename_i less
      refine List.pairwise_cons.mpr ⟨fun p hp => ?_, sorted⟩
      rcases List.mem_cons.mp hp with rfl | hp
      · exact less
      · exact String.lt_trans less (head p hp)
    · split
      · rename_i _ same
        exact List.pairwise_cons.mpr ⟨fun p hp => same ▸ head p hp, tail⟩
      · rename_i notLess notSame
        refine List.pairwise_cons.mpr ⟨fun p hp => ?_, ih tail⟩
        rcases mem_insert hp with rfl | hp
        · rcases Std.lt_trichotomy q.1 key with h | h | h
          · exact h
          · exact absurd h.symm notSame
          · exact absurd h notLess
        · exact head p hp

theorem addAll_sorted {entries : Entries α} (pairs : List (String × α))
    (sorted : entries.Sorted) : (entries.addAll pairs).Sorted := by
  induction pairs generalizing entries with
  | nil => exact sorted
  | cons p rest ih => exact ih (insert_sorted sorted)

theorem ofList_sorted (pairs : List (String × α)) : (ofList pairs).Sorted :=
  addAll_sorted pairs List.Pairwise.nil

theorem get?_cons (p : String × α) (entries : Entries α) (key : String) :
    get? (p :: entries) key = if p.1 = key then some p.2 else get? entries key := by
  by_cases h : p.1 = key <;> simp [get?, h]

@[simp] theorem get?_insert_self (entries : Entries α) (key : String) (value : α) :
    (entries.insert key value).get? key = some value := by
  induction entries with
  | nil => simp [insert, get?]
  | cons p rest ih =>
    simp only [insert]
    split
    · simp [get?_cons]
    · split
      · simp [get?_cons]
      · rename_i other
        simp [get?_cons, ih, Ne.symm other]

theorem get?_insert_of_ne {key other : String} (different : key ≠ other) (entries : Entries α)
    (value : α) : (entries.insert key value).get? other = entries.get? other := by
  induction entries with
  | nil => simp [insert, get?, different]
  | cons p rest ih =>
    simp only [insert]
    split
    · simp [get?_cons, different]
    · split
      · rename_i same
        subst same
        simp [get?_cons, different]
      · simp [get?_cons, ih]

end Entries
end Solr
