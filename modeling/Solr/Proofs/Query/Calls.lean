import Solr.Proofs.Query.Keys
import Solr.Query.Call

/-! The parameters of descriptions that are built by calls: what each call adds and takes
away, and from this what a run of calls comes to. -/
namespace Solr.Query

open Parameters (pairs)

namespace Call

/-- The clause that a call adds to those that all have to match. -/
def clause? : Call → Option String
  | .filter clause => some clause
  | _ => none

/-- The names of the fields that groups are formed by, after a call. -/
def regroup (names : List String) : Call → List String
  | .groupBy f => [f.name]
  | .groupAlsoBy f => names ++ [f.name]
  | _ => names

/-- The keys that a call has to do with, and whether they are sent after it. -/
def settles : Call → List (String × Bool)
  | .query _ | .operator _ | .writer _ | .facet .. => []
  | .filter _ => [("fq", true)]
  | .field _ => [("fl", true)]
  | .sort _ => [("sort", true)]
  | .start _ => [("start", true)]
  | .rows _ => [("rows", true)]
  | .indent _ => [("indent", true)]
  | .spatial _ _ x => [("spatial", true), ("shield", true), ("pt", true), ("d", x.isFinite)]
  | .searchField _ => [("qf", true)]
  | .minimumMatch _ => [("mm", true)]
  | .tie x => [("tie", x.isFinite)]
  | .boostQuery _ => [("bq", true)]
  | .boostFunction _ => [("bf", true)]
  | .fallback _ => [("q.alt", true)]
  | .groupBy _ =>
    [("group.field", true), ("group.sort", false), ("group.ngroups", false),
      ("group.limit", false), ("group.offset", false), ("group.truncate", false)]
  | .groupAlsoBy _ => [("group.field", true)]
  | .countGroups _ => [("group.ngroups", true)]
  | .groupSort _ => [("group.sort", true)]
  | .groupLimit _ => [("group.limit", true)]
  | .groupOffset _ => [("group.offset", true)]
  | .truncate _ => [("group.truncate", true)]
  | .assignSpatial flag => [("spatial", flag.isSome)]
  | .assignPoint p => [("pt", p.isSome)]
  | .assignDistance x => [("d", x.any Binary.isFinite)]
  | .assignShield f => [("shield", f.isSome)]

/-- A key with what is known of it after a call. -/
def settle (c : Call) (p : String × Bool) : String × Bool :=
  (p.1, (c.settles.lookup p.1).getD p.2)

end Call

/-- The names of the fields that groups are formed by, after some calls. -/
def groupNames (calls : List Call) : List String :=
  calls.foldl Call.regroup []

/-- What the last of the calls that have to do with a key says of it. -/
def lastSaid (calls : List Call) (key : String) : Option Bool :=
  calls.reverse.findSome? fun c => c.settles.lookup key

/-- The keys that are sent whatever is asked for. -/
def Kind.always : Kind → List String
  | .standard => ["q", "q.op", "group", "wt"]
  | .ranked => ["q", "q.op", "group", "wt", "defType"]
  | .grouped => ["q", "q.op", "group", "wt", "group.format"]
  | .faceted => ["q", "q.op", "group", "wt", "group.format", "json.facet"]

/-- No call has to do with them. -/
theorem Call.lookup_settles (c : Call) (kind : Kind) {key : String} (always : key ∈ kind.always) :
    c.settles.lookup key = none := by
  have among : ∀ key ∈ kind.always,
      key ∈ ["q", "q.op", "group", "wt", "defType", "group.format", "json.facet"] := by
    cases kind <;> decide
  have apart : ∀ key ∈ ["q", "q.op", "group", "wt", "defType", "group.format", "json.facet"],
      ∀ p ∈ c.settles, key ≠ p.1 := by
    cases c <;> simp [Call.settles]
  apply List.lookup_eq_none_iff.mpr
  intro p member
  exact bne_iff_ne.mpr (apart key (among key always) p member)

theorem lastSaid_concat (calls : List Call) (c : Call) (key : String) :
    lastSaid (calls ++ [c]) key = (c.settles.lookup key).or (lastSaid calls key) := by
  rw [lastSaid, List.reverse_append, List.reverse_singleton, List.singleton_append,
    List.findSome?_cons]
  cases c.settles.lookup key <;> rfl

theorem lastSaid_always (calls : List Call) (kind : Kind) {key : String}
    (always : key ∈ kind.always) : lastSaid calls key = none := by
  apply List.findSome?_eq_none_iff.mpr
  intro c _
  exact c.lookup_settles kind always

theorem Search.given_apply (s : Search) (c : Call) :
    (s.apply c).given = s.given.map c.settle := by
  cases c <;> simp [Search.given, Search.apply, Call.settle, Call.settles, List.lookup_cons]

theorem Ranking.given_apply (r : Ranking) (c : Call) :
    (r.apply c).given = r.given.map c.settle := by
  cases c <;> simp [Ranking.given, Ranking.apply, Call.settle, Call.settles, List.lookup_cons]

theorem Grouping.given_apply (g : Grouping) (c : Call) :
    (g.apply c).given = g.given.map c.settle := by
  cases c <;> simp [Grouping.given, Grouping.apply, Grouping.byField, Grouping.empty,
    Call.settle, Call.settles, List.lookup_cons]

theorem givenFacets_apply (g : Grouping) (c : Call) :
    givenFacets (g.apply c).truncate = (givenFacets g.truncate).map c.settle := by
  cases c <;> simp [givenFacets, Grouping.apply, Grouping.byField, Grouping.empty,
    Call.settle, Call.settles, List.lookup_cons]

theorem Search.filters_apply (s : Search) (c : Call) :
    (s.apply c).filters = s.filters ++ c.clause?.toList := by
  cases c <;> simp [Search.apply, Call.clause?]

theorem Grouping.names_apply (g : Grouping) (c : Call) :
    (g.apply c).fields.map Field.name = c.regroup (g.fields.map Field.name) := by
  cases c <;> simp [Grouping.apply, Grouping.byField, Call.regroup]

/-- A value under a key that does not repeat gives one pair at most. -/
theorem Sendable.length_texts_le {p : String × Json} (sendable : Sendable p)
    (single : p.1 ∉ repeated) : (Parameters.texts p.2).length ≤ 1 := by
  rcases sendable with simple | ⟨repeats, -⟩
  · obtain ⟨key, j⟩ := p
    cases j with
    | array | object => cases simple
    | null => exact Nat.zero_le 1
    | boolean | number | string => exact Nat.le_refl 1
  · exact absurd repeats single

namespace Description

theorem build_concat (calls : List Call) (c : Call) :
    build (calls ++ [c]) = (build calls).apply c := by
  rw [build, List.foldl_append]
  rfl

theorem search_apply (d : Description) (c : Call) : (d.apply c).search = d.search.apply c :=
  rfl

theorem grouping_apply (d : Description) (c : Call) :
    (d.apply c).grouping = d.grouping.apply c :=
  rfl

theorem given_apply (d : Description) (c : Call) (kind : Kind) :
    (d.apply c).given kind = (d.given kind).map c.settle := by
  cases kind <;>
    simp only [given, apply, List.map_append, Search.given_apply, Ranking.given_apply,
      Grouping.given_apply, givenFacets_apply]

theorem given_build (calls : List Call) (kind : Kind) :
    (build calls).given kind =
      (empty.given kind).map fun p => (p.1, (lastSaid calls p.1).getD p.2) := by
  induction calls using List.reverseRecOn with
  | nil => simp [build, lastSaid]
  | append_singleton calls c ih =>
    rw [build_concat, given_apply, ih, List.map_map]
    apply List.map_congr_left
    intro p _
    rw [lastSaid_concat]
    cases said : c.settles.lookup p.1 <;> simp [Call.settle, said]

theorem given_empty (kind : Kind) :
    empty.given kind = kind.keys.map fun key => (key, decide (key ∈ kind.always)) := by
  cases kind <;> rfl

/-- What is sent, from the calls alone. -/
theorem mem_given_build (calls : List Call) (kind : Kind) {key : String}
    (optional : key ∉ kind.always) :
    (key, true) ∈ (build calls).given kind ↔
      key ∈ kind.keys ∧ lastSaid calls key = some true := by
  rw [given_build, given_empty, List.map_map, List.mem_map]
  constructor
  · rintro ⟨k, member, same⟩
    obtain ⟨rfl, said⟩ := Prod.mk.inj same
    cases last : lastSaid calls k with
    | none =>
      rw [last, Option.getD_none, decide_eq_true_iff] at said
      exact absurd said optional
    | some b =>
      rw [last, Option.getD_some] at said
      exact ⟨member, congrArg some said⟩
  · rintro ⟨member, said⟩
    exact ⟨key, member, by simp [said]⟩

theorem mem_given_always (calls : List Call) (kind : Kind) {key : String}
    (always : key ∈ kind.always) : (key, true) ∈ (build calls).given kind := by
  have inside : ∀ key ∈ kind.always, key ∈ kind.keys := by cases kind <;> decide
  rw [given_build, given_empty, List.map_map]
  refine List.mem_map.mpr ⟨key, inside key always, ?_⟩
  simp [lastSaid_always calls kind always, always]

theorem filters_build (calls : List Call) :
    (build calls).search.filters = calls.filterMap Call.clause? := by
  induction calls using List.reverseRecOn with
  | nil => rfl
  | append_singleton calls c ih =>
    rw [build_concat, search_apply, Search.filters_apply, ih, List.filterMap_append]
    cases added : c.clause? <;> simp [added]

theorem names_build (calls : List Call) :
    (build calls).grouping.fields.map Field.name = groupNames calls := by
  induction calls using List.reverseRecOn with
  | nil => rfl
  | append_singleton calls c ih =>
    rw [build_concat, grouping_apply, Grouping.names_apply, ih, groupNames, groupNames,
      List.foldl_append]
    rfl

theorem filter_strings (d : Description) (kind : Kind) {key : String} {strings : List String}
    (member : (key, .ofStrings strings) ∈ d.members kind) :
    (pairs (Entries.ofList (d.members kind))).filter (fun p => p.1 = key) =
      strings.map (key, ·) := by
  rw [d.filter_parameters kind member, texts_ofStrings]

theorem filter_absent (d : Description) (kind : Kind) {key : String} (absent : key ∉ kind.keys) :
    (pairs (Entries.ofList (d.members kind))).filter (fun p => p.1 = key) = [] := by
  have without : (Entries.ofList (d.members kind)).filter (fun p => p.1 = key) = [] := by
    apply List.filter_eq_nil_iff.mpr
    intro p member same
    apply absent
    rw [← d.keys_members kind, ← of_decide_eq_true same]
    exact List.mem_map_of_mem ((d.mem_entries_iff kind).mp member)
  rw [Parameters.filter_pairs fun k => decide (k = key), without]
  rfl

theorem filter_single (d : Description) (kind : Kind) {key : String} (single : key ∉ repeated) :
    ((pairs (Entries.ofList (d.members kind))).filter (fun p => p.1 = key)).length ≤ 1 := by
  by_cases inside : key ∈ kind.keys
  · rw [← d.keys_members kind] at inside
    obtain ⟨⟨key, j⟩, member, rfl⟩ := List.mem_map.mp inside
    rw [d.filter_parameters kind member, List.length_map]
    exact (d.sendable_members kind _ member).length_texts_le single
  · rw [d.filter_absent kind inside]
    exact Nat.zero_le 1

end Description

/-- What holds of the parameters that come of some calls. Those of one key stand together.
Only clauses, and the fields that groups are formed by, can be several. -/
structure Disciplined (calls : List Call) (kind : Kind) (parameters : Parameters) : Prop where
  ordered : parameters.Pairwise fun a b => a.1 = b.1 ∨ Text.Before a.1 b.1
  single : ∀ key, key ≠ "fq" → key ≠ "group.field" →
    (parameters.filter fun p => p.1 = key).length ≤ 1
  clauses : parameters.filter (fun p => p.1 = "fq") =
    (calls.filterMap Call.clause?).map ("fq", ·)
  groups : parameters.filter (fun p => p.1 = "group.field") =
    if kind = .grouped ∨ kind = .faceted then (groupNames calls).map ("group.field", ·) else []
  always : ∀ key ∈ kind.always, key ∈ parameters.map (·.1)
  given : ∀ key, key ∈ parameters.map (·.1) ↔ (key, true) ∈ (Description.build calls).given kind
  called : ∀ key, key ∉ kind.always →
    (key ∈ parameters.map (·.1) ↔ key ∈ kind.keys ∧ lastSaid calls key = some true)

/-- Whatever the calls, a query of each kind has parameters, and they are disciplined. -/
theorem parameters_disciplined (calls : List Call) (kind : Kind) :
    ∃ parameters, (Description.build calls).parameters kind = .ok parameters ∧
      Disciplined calls kind parameters := by
  have sorted := Entries.ofList_sorted ((Description.build calls).members kind)
  refine ⟨_, (Description.build calls).parameters_eq kind, ?_⟩
  constructor
  case ordered => exact Parameters.pairs_ordered sorted
  case single =>
    intro key notClause notGroup
    apply Description.filter_single
    simp [repeated, notClause, notGroup]
  case clauses =>
    rw [← Description.filters_build]
    apply Description.filter_strings
    cases kind <;> simp [Description.members, Search.members]
  case groups =>
    rw [← Description.names_build]
    cases kind with
    | standard | ranked => exact Description.filter_absent _ _ (by decide)
    | grouped | faceted =>
      apply Description.filter_strings
      simp [Description.members, Grouping.members]
  case always =>
    intro key always
    rw [Description.mem_keys_iff]
    exact Description.mem_given_always calls kind always
  case given =>
    intro key
    exact Description.mem_keys_iff _ kind
  case called =>
    intro key optional
    rw [Description.mem_keys_iff]
    exact Description.mem_given_build calls kind optional

end Solr.Query
