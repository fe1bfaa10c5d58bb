import Solr.Proofs.CommandLine.Checks
import Solr.Proofs.Query.Keys
import Solr.Proofs.Service.Sending

/-! The query of a command line, as the service receives it: nothing that was given is lost
or changed on the way, and nothing is added but what stands here and what the URL has of its
own. -/
namespace Solr.CommandLine

open Http (received)
open Query (Description Kind Search SearchedField SortKey joined)
open Parameters (pairs texts)

/-- A text under its key, if there is one. -/
def under (key : String) (text : Option String) : Parameters :=
  text.toList.map (key, ·)

def numeral (i : Int) : String :=
  String.ofList (Text.integer i)

/-- What the options of a grouped query add to a query. -/
def groupParameters (given : List Given) (n : Numbers) : Parameters :=
  (values given "group-field").map ("group.field", ·) ++ [("group.format", "grouped")] ++
    under "group.limit" (n.limit.map numeral) ++
    under "group.ngroups" (if isGiven given "ngroups" then some "true" else none)

/-- What options ask for, in the order of the keys. The fields that are searched have the
texts that are given for them here. -/
def Verb.parameters (verb : Verb) (given : List Given) (n : Numbers) (searched : List String) :
    Parameters :=
  (if verb = .ranked then [("defType", "edismax")] else []) ++
    under "fl" (joined "," (values given "fl")) ++
    (values given "fq").map ("fq", ·) ++
    [("group", if verb = .grouped then "true" else "false")] ++
    (if verb = .grouped then groupParameters given n else []) ++
    [("q", (value? given "q").getD "*:*"), ("q.op", "OR")] ++
    (if verb = .ranked then under "qf" (joined " " searched) else []) ++
    under "rows" (n.rows.map fun n => numeral n) ++
    under "sort" (joined "," ((values given "sort").map spaced)) ++
    under "start" (n.start.map fun n => numeral n) ++
    [("wt", "json")]

section Parameters

@[simp]
theorem texts_absent {α : Type} (encode : α → Json) : texts (.ofOption encode none) = [] := rfl

@[simp]
theorem texts_ofNat (n : Option Nat) :
    texts (.ofOption .ofNat n) = (n.map fun n => numeral n).toList := by
  cases n <;> rfl

@[simp]
theorem texts_ofInt (i : Option Int) : texts (.ofOption .ofInt i) = (i.map numeral).toList := by
  cases i <;> rfl

@[simp]
theorem texts_ofBoolean (b : Bool) :
    texts (.ofOption .boolean (if b then some true else none)) =
      (if b then some "true" else none).toList := by
  cases b <;> rfl

/-- The pieces of one list, joined again. -/
theorem intercalate_pieces (l : String) :
    ",".intercalate ((Text.splitAt ',' l.toList).map String.ofList) = l := by
  rw [← String.toList_inj, String.toList_intercalate, List.map_map]
  have same : (Text.splitAt ',' l.toList).map (String.toList ∘ String.ofList) =
      Text.splitAt ',' l.toList :=
    (List.map_congr_left fun _ _ => String.toList_ofList).trans (List.map_id _)
  rw [same]
  exact Text.intercalate_splitAt ',' l.toList

theorem splitFields_ne_nil (l : String) (lists : List String) :
    Arguments.splitFields (l :: lists) ≠ [] := by
  simp [Arguments.splitFields, Text.splitAt_ne_nil]

theorem intercalate_splitFields (lists : List String) :
    ",".intercalate (Arguments.splitFields lists) = ",".intercalate lists := by
  induction lists with
  | nil => rfl
  | cons l lists ih =>
    have first := intercalate_pieces l
    have some : (Text.splitAt ',' l.toList).map String.ofList ≠ [] := by
      simp [Text.splitAt_ne_nil]
    have divided : Arguments.splitFields (l :: lists) =
        (Text.splitAt ',' l.toList).map String.ofList ++ Arguments.splitFields lists := rfl
    cases lists with
    | nil =>
      rw [divided, String.intercalate_singleton]
      simpa [Arguments.splitFields] using first
    | cons other others =>
      rw [divided, String.intercalate_append_of_ne_nil some (splitFields_ne_nil other others),
        first, ih, String.intercalate_cons_cons]

/-- To split at the separator and to join again loses nothing, empty pieces included. -/
theorem joined_splitFields (lists : List String) :
    joined "," (Arguments.splitFields lists) = joined "," lists := by
  cases lists with
  | nil => rfl
  | cons l lists =>
    rw [joined, joined, if_neg (splitFields_ne_nil l lists), if_neg (List.cons_ne_nil l lists),
      intercalate_splitFields]

theorem texts_spaced {texts : List String} {keys : List SortKey}
    (read : List.Forall₂ (fun t k => readSort t = .ok k) texts keys) :
    keys.map SortKey.text = texts.map spaced := by
  induction read with
  | nil => rfl
  | cons first _ ih => rw [List.map_cons, List.map_cons, ih, text_eq_spaced first]

theorem pairs_describe {verb : Verb} {kind : Kind} (asks : verb.kind = some kind)
    (given : List Given) (n : Numbers) {sorts : List SortKey}
    (spacing : sorts.map SortKey.text = (values given "sort").map spaced)
    (searched : List SearchedField) :
    pairs (Entries.ofList ((describe given n sorts searched).members kind)) =
      verb.parameters given n (searched.map SearchedField.text) := by
  have fields : (Arguments.splitFields (values given "fl")).map (Field.name ∘ Field.mk) =
      Arguments.splitFields (values given "fl") := List.map_id _
  have names : (values given "group-field").map (Field.name ∘ Field.mk) =
      values given "group-field" := List.map_id _
  cases verb with
  | select =>
    cases asks
    rw [Description.parameters_listed _ _ ["d", "fl", "fq", "group", "indent", "pt", "q", "q.op",
      "rows", "shield", "sort", "spatial", "start", "wt"] (by decide) (by decide)]
    simp [Entries.get?, Description.members, Search.members, describe, Search.empty, spacing,
      fields, joined_splitFields, Query.texts_ofStrings, Query.Writer.name, Query.Operator.name,
      Verb.parameters, under]
  | ranked =>
    cases asks
    rw [Description.parameters_listed _ _ ["bf", "bq", "d", "defType", "fl", "fq", "group",
      "indent", "mm", "pt", "q", "q.alt", "q.op", "qf", "rows", "shield", "sort", "spatial",
      "start", "tie", "wt"] (by decide) (by decide)]
    simp [Entries.get?, Description.members, Search.members, describe, Search.empty, spacing,
      fields, joined_splitFields, Query.texts_ofStrings, Query.Writer.name, Query.Operator.name,
      Verb.parameters, under, Query.Ranking.members, Query.Ranking.empty]
  | grouped =>
    cases asks
    rw [Description.parameters_listed _ _ ["d", "fl", "fq", "group", "group.field",
      "group.format", "group.limit", "group.ngroups", "group.offset", "group.sort", "indent", "pt",
      "q", "q.op", "rows", "shield", "sort", "spatial", "start", "wt"] (by decide) (by decide)]
    simp [Entries.get?, Description.members, Search.members, describe, Search.empty, spacing,
      fields, joined_splitFields, Query.texts_ofStrings, Query.Writer.name, Query.Operator.name,
      Verb.parameters, under, Query.Grouping.members, Query.Grouping.empty, groupParameters, names]
  | update => cases asks
  | remove => cases asks

end Parameters

/-- Arguments that spell a query with nothing at fault, with the numbers and the texts of the
searched fields that they give. -/
structure Line.Asks (l : Line) (arguments : List String) (n : Numbers) (searched : List String) :
    Prop where
  spelled : l.Spells arguments
  formed : l.Formed n
  asks : l.verb.kind.isSome
  sorts : ∀ t ∈ values l.given "sort", IsSort t
  searched : List.Forall₂ SearchedText (values l.given "qf") searched

theorem forall₂_searched {texts searched : List String} :
    List.Forall₂ SearchedText texts searched ↔
      ∃ fields, List.Forall₂ (fun t f => readSearched t = .ok f) texts fields ∧
        fields.map SearchedField.text = searched := by
  constructor
  · intro each
    induction each with
    | nil => exact ⟨[], .nil, rfl⟩
    | cons first _ ih =>
      obtain ⟨f, read, rfl⟩ := searchedText_iff.mp first
      obtain ⟨fields, others, rfl⟩ := ih
      exact ⟨f :: fields, .cons read others, rfl⟩
  · rintro ⟨fields, each, rfl⟩
    apply List.forall₂_map_right_iff.mpr
    exact each.imp fun t f read => searchedText_iff.mpr ⟨f, read, rfl⟩

section Runs

variable {s : Surroundings} {arguments : List String} {l : Line} {n : Numbers}

/-- A line that asks orders its query. -/
theorem Line.Asks.orders {searched : List String} (asks : l.Asks arguments n searched)
    (s : Surroundings) :
    ∃ operation, l.Orders n s arguments operation ∧ operation.isChange = false ∧
      operation.parameters = .ok (l.verb.parameters l.given n searched) := by
  obtain ⟨kind, found⟩ := Option.isSome_iff_exists.mp asks.asks
  obtain ⟨rest, -, given⟩ := asks.spelled
  obtain ⟨sorts, sorted⟩ := Json.exists_forall₂_iff.mpr fun t member =>
    isSort_iff.mp (asks.sorts t member)
  obtain ⟨fields, read, rfl⟩ := forall₂_searched.mp asks.searched
  refine ⟨asking kind ((describe l.given n sorts fields).compile kind),
    ⟨asks.spelled, asks.formed, ?_⟩, isChange_asking kind _, ?_⟩
  · exact (operation_asking found given asks.formed.complete).mpr
      ⟨sorts, fields, ⟨sorted, read⟩, rfl⟩
  · rw [parameters_asking, pairs_describe found l.given n (texts_spaced sorted)]

/-- A line that orders a query asks it. -/
theorem asks_of_orders {operation : Service.Operation Json}
    (orders : l.Orders n s arguments operation) (isQuery : operation.isChange = false) :
    ∃ searched, l.Asks arguments n searched ∧
      operation.parameters = .ok (l.verb.parameters l.given n searched) := by
  obtain ⟨rest, globals, given⟩ := orders.spelled
  have change := isChange_ordered given orders.formed.complete orders.ordered
  cases found : l.verb.kind with
  | none =>
    rw [found, isQuery] at change
    cases change
  | some kind =>
    obtain ⟨sorts, fields, ⟨sorted, read⟩, rfl⟩ :=
      (operation_asking found given orders.formed.complete).mp orders.ordered
    refine ⟨fields.map SearchedField.text, ⟨orders.spelled, orders.formed, by simp [found], ?_,
      forall₂_searched.mpr ⟨fields, read, rfl⟩⟩, ?_⟩
    · intro t member
      exact isSort_iff.mpr (Json.exists_forall₂_iff.mp ⟨sorts, sorted⟩ t member)
    · rw [parameters_asking, pairs_describe found l.given n (texts_spaced sorted)]

end Runs

/-- A command line asks exactly what it says: for arguments that spell a query with nothing at
fault, one request with just these parameters is sent, and for no other arguments is a query sent.
They are received behind the pairs that base URL and collection bring along, which are none without
a question mark. A sort key is a name without a colon, and one of two orders. -/
theorem queries_sent (s : Surroundings) (arguments : List String) :
    (∀ parameters,
      (∃ r, (run s arguments).request = some r ∧ r.method = .get ∧ r.parameters = parameters) ↔
      ∃ l n searched, Line.Asks l arguments n searched ∧
        parameters = l.verb.parameters l.given n searched) ∧
    (∀ r, (run s arguments).request = some r →
      (run s arguments).seen s = (if s.delivery.arrives then [r] else []) ∧
      ∃ l n, Line.Spells l arguments ∧ l.Formed n ∧ (l.target s).Reaches r ∧
        ∀ target, r.target? = some target →
          received target = r.ownPairs ++ r.parameters ∧
          ('?' ∉ (l.target s).settings.baseUrl.toList → '?' ∉ (l.target s).name.toList →
            received target = r.parameters)) ∧
    ∀ argument, (∃ key, readSort argument = .ok key) ↔ IsSort argument := by
  have sent {l : Line} {n : Numbers} {operation : Service.Operation Json} {r : Http.Request}
      {parameters : Parameters} (orders : l.Orders n s arguments operation)
      (issued : (run s arguments).request = some r)
      (flattened : operation.parameters = .ok parameters) :
      r.parameters = parameters ∧ (r.method = .get ↔ operation.isChange = false) := by
    obtain ⟨others, same, request⟩ := request_orders orders
    obtain rfl := Except.ok.inj (flattened.symm.trans same)
    obtain rfl := Option.some.inj (issued.symm.trans request)
    have due := (stepOf s operation).due (l.target s) .empty parameters
    refine ⟨(stepOf s operation).request_parameters (l.target s) flattened, ?_⟩
    rw [due.method, stepOf]
    cases operation.isChange <;> simp
  refine ⟨fun parameters => ⟨?_, ?_⟩, fun r issued => ⟨?_, ?_⟩, fun argument => isSort_iff.symm⟩
  · rintro ⟨r, issued, method, rfl⟩
    obtain ⟨l, n, operation, orders⟩ := orders_of_issued issued
    obtain ⟨parameters, flattened, -⟩ := request_orders orders
    have query := (sent orders issued flattened).2.mp method
    obtain ⟨searched, asks, flattened⟩ := asks_of_orders orders query
    exact ⟨l, n, searched, asks, (sent orders issued flattened).1⟩
  · rintro ⟨l, n, searched, asks, rfl⟩
    obtain ⟨operation, orders, query, flattened⟩ := asks.orders s
    obtain ⟨_, _, request⟩ := request_orders orders
    obtain ⟨target, method⟩ := sent orders request flattened
    exact ⟨_, request, method.mpr query, target⟩
  · rw [Run.seen, issued]
    rfl
  · obtain ⟨l, n, operation, orders⟩ := orders_of_issued issued
    obtain ⟨parameters, _, request⟩ := request_orders orders
    obtain rfl := Option.some.inj (issued.symm.trans request)
    have reaches := (stepOf s operation).reaches (l.target s) parameters
    refine ⟨l, n, orders.spelled, orders.formed, reaches, fun target goes => ?_⟩
    have received := reaches.pairs target goes
    refine ⟨received, fun base name => ?_⟩
    rw [received, reaches.own base name, List.nil_append]

/-- A collection with a question mark adds a pair to the query. -/
theorem queries_sent_under_mark :
    ∃ (r : Http.Request) (target : List Char),
      (run ⟨none, fun _ => .ok "", .dropped⟩ ["--collection", "a?b", "select"]).request = some r ∧
      r.method = .get ∧ r.target? = some target ∧
      r.parameters = [("group", "false"), ("q", "*:*"), ("q.op", "OR"), ("wt", "json")] ∧
      received target = ("b/select", "") :: r.parameters := by
  let asked : Http.Request := ⟨"http://localhost:8983/solr/a?b/select", .get,
    [("group", "false"), ("q", "*:*"), ("q.op", "OR"), ("wt", "json")], [], none, none⟩
  have issued : (run ⟨none, fun _ => .ok "", .dropped⟩ ["--collection", "a?b", "select"]).request =
      some asked := by decide +kernel
  have parsed : Url.parse? asked.url.toList =
      some ⟨"localhost:8983".toList, "/solr/a".toList, some "b/select".toList⟩ := by decide +kernel
  have sent : asked.target? =
      some "/solr/a?b/select&group=false&q=*%3A*&q.op=OR&wt=json".toList := by decide +kernel
  have text : Url.Form.decodeText "b/select".toList = "b/select" := by
    have bytes : Url.unescape ("b/select".toList.map fun c => if c = '+' then ' ' else c) =
        Text.utf8 "b/select".toList := by decide +kernel
    rw [Url.Form.decodeText, bytes, Text.readUtf8_utf8, String.ofList_toList]
  have own : asked.ownPairs = [("b/select", "")] := by
    have divided : Text.splitAt '&' "b/select".toList = ["b/select".toList] := by decide +kernel
    have noValue : Text.splitOnce? '=' "b/select".toList = none := by decide +kernel
    have pair : Url.Form.decodePair "b/select".toList = ("b/select", "") := by
      rw [Url.Form.decodePair, noValue, text]
    rw [Http.Request.ownPairs, parsed]
    change Url.Form.decode "b/select".toList = [("b/select", "")]
    rw [Url.Form.decode, divided, ← pair]
    rfl
  refine ⟨asked, _, issued, rfl, sent, rfl, ?_⟩
  rw [Http.received_target sent, own]
  rfl

example : (run ⟨none, fun _ => .ok "", .dropped⟩ ["-cfilms", "edismax", "--fl", "id,,name",
    "--qf=title^2.50", "--qf", "plot^0", "--sort=year:desc"]).request.map (·.parameters) =
    some [("defType", "edismax"), ("fl", "id,,name"), ("group", "false"), ("q", "*:*"),
      ("q.op", "OR"), ("qf", "title^2.5 plot"), ("sort", "year desc"), ("wt", "json")] := by
  decide +kernel

end Solr.CommandLine
