import Solr.Proofs.Parameters
import Solr.Query.Compile

/-! The parameters of a description: each kind of query has them, whatever it asks for.
Only two keys can stand more than once. -/
namespace Solr.Query

/-- The keys under which there are lists of texts. -/
def repeated : List String :=
  ["fq", "group.field"]

/-- Such a list, or a value that has at most one text. -/
def Sendable (p : String × Json) : Prop :=
  p.2.Simple ∨ p.1 ∈ repeated ∧ ∃ texts, p.2 = .ofStrings texts

theorem Sendable.flat {p : String × Json} (sendable : Sendable p) : p.2.Flat := by
  rcases sendable with simple | ⟨-, texts, list⟩
  · exact .of_simple simple
  · rw [list]
    exact Json.flat_ofStrings texts

theorem sendable_texts {key : String} (member : key ∈ repeated) (texts : List String) :
    Sendable (key, .ofStrings texts) :=
  .inr ⟨member, texts, rfl⟩

theorem sendable_text (key : String) (s : Option String) : Sendable (key, ofText s) :=
  .inl (Json.simple_ofOption .string (fun _ => trivial) s)

theorem sendable_boolean (key : String) (b : Option Bool) :
    Sendable (key, .ofOption .boolean b) :=
  .inl (Json.simple_ofOption .boolean (fun _ => trivial) b)

theorem sendable_nat (key : String) (n : Option Nat) : Sendable (key, .ofOption .ofNat n) :=
  .inl (Json.simple_ofOption .ofNat (fun _ => trivial) n)

theorem sendable_int (key : String) (i : Option Int) : Sendable (key, .ofOption .ofInt i) :=
  .inl (Json.simple_ofOption .ofInt (fun _ => trivial) i)

theorem sendable_double (key : String) (x : Option Double) :
    Sendable (key, .ofOption .ofDouble x) :=
  .inl (Json.simple_ofOption .ofDouble Json.simple_ofDouble x)

theorem Search.sendable_members (grouped : Bool) (s : Search) :
    ∀ p ∈ s.members grouped, Sendable p := by
  simp only [Search.members, List.forall_mem_cons]
  exact ⟨.inl trivial, .inl trivial, sendable_texts (by decide) _, sendable_nat _ _,
    sendable_nat _ _, sendable_text _ _, sendable_text _ _, .inl trivial, sendable_boolean _ _,
    .inl trivial, sendable_boolean _ _, sendable_text _ _, sendable_double _ _,
    sendable_text _ _, List.forall_mem_nil _⟩

theorem Ranking.sendable_members (r : Ranking) : ∀ p ∈ r.members, Sendable p := by
  simp only [Ranking.members, List.forall_mem_cons]
  exact ⟨sendable_text _ _, sendable_text _ _, sendable_double _ _, sendable_text _ _,
    sendable_text _ _, sendable_text _ _, .inl trivial, List.forall_mem_nil _⟩

theorem Grouping.sendable_members (g : Grouping) : ∀ p ∈ g.members, Sendable p := by
  simp only [Grouping.members, List.forall_mem_cons]
  exact ⟨.inl trivial, sendable_texts (by decide) _, sendable_text _ _, sendable_boolean _ _,
    sendable_int _ _, sendable_nat _ _, List.forall_mem_nil _⟩

theorem sendable_facetMembers (truncate : Option Bool) (facets : Entries Facet) :
    ∀ p ∈ facetMembers truncate facets, Sendable p := by
  simp only [facetMembers, List.forall_mem_cons]
  exact ⟨sendable_boolean _ _, .inl trivial, List.forall_mem_nil _⟩

def Search.keys : List String :=
  ["q", "q.op", "fq", "start", "rows", "sort", "fl", "group", "indent", "wt", "spatial", "pt",
    "d", "shield"]

def Ranking.keys : List String :=
  ["qf", "mm", "tie", "bq", "bf", "q.alt", "defType"]

def Grouping.keys : List String :=
  ["group.format", "group.field", "group.sort", "group.ngroups", "group.limit", "group.offset"]

def facetKeys : List String :=
  ["group.truncate", "json.facet"]

def Kind.keys : Kind → List String
  | .standard => Search.keys
  | .ranked => Search.keys ++ Ranking.keys
  | .grouped => Search.keys ++ Grouping.keys
  | .faceted => Search.keys ++ Grouping.keys ++ facetKeys

/-- No part of a description has a key of another part. -/
theorem Kind.nodup_keys (kind : Kind) : kind.keys.Nodup := by
  cases kind <;> decide

namespace Description

theorem keys_members (d : Description) (kind : Kind) :
    Entries.keys (d.members kind) = kind.keys := by
  cases kind <;> rfl

theorem sendable_members (d : Description) (kind : Kind) :
    ∀ p ∈ d.members kind, Sendable p := by
  have search (grouped : Bool) := d.search.sendable_members grouped
  cases kind with
  | standard => exact search false
  | ranked => exact List.forall_mem_append.mpr ⟨search false, d.ranking.sendable_members⟩
  | grouped => exact List.forall_mem_append.mpr ⟨search true, d.grouping.sendable_members⟩
  | faceted =>
    exact List.forall_mem_append.mpr
      ⟨List.forall_mem_append.mpr ⟨search true, d.grouping.sendable_members⟩,
        sendable_facetMembers _ _⟩

/-- No description is refused. -/
theorem parameters_eq (d : Description) (kind : Kind) :
    d.parameters kind = .ok (Parameters.pairs (Entries.ofList (d.members kind))) :=
  Parameters.flatten_flat fun p member => (d.sendable_members kind p member).flat

/-- The members keep their values, since each has a key of its own. -/
theorem mem_entries_iff (d : Description) (kind : Kind) {p : String × Json} :
    p ∈ Entries.ofList (d.members kind) ↔ p ∈ d.members kind := by
  apply Entries.mem_ofList_iff
  rw [keys_members]
  exact kind.nodup_keys

/-- The pairs of a key are the texts of its member. -/
theorem filter_parameters (d : Description) (kind : Kind) {key : String} {j : Json}
    (member : (key, j) ∈ d.members kind) :
    (Parameters.pairs (Entries.ofList (d.members kind))).filter (fun p => p.1 = key) =
      (Parameters.texts j).map (key, ·) := by
  have sorted := Entries.ofList_sorted (d.members kind)
  have found := Entries.get?_of_mem sorted.nodup_keys ((d.mem_entries_iff kind).mpr member)
  rw [Parameters.filter_pairs_sorted sorted, found]
  rfl

/-- The parameters once the keys of a kind are put in order. -/
theorem parameters_listed (d : Description) (kind : Kind) (keys : List String)
    (increasing : keys.Pairwise (· < ·)) (perm : keys.Perm kind.keys) :
    Parameters.pairs (Entries.ofList (d.members kind)) = keys.flatMap fun key =>
      (Parameters.texts ((Entries.get? (d.members kind) key).getD .null)).map (key, ·) := by
  apply Parameters.pairs_listed _ increasing
  · rwa [keys_members]
  · rw [keys_members]
    exact kind.nodup_keys

end Description
end Solr.Query
