import Solr.CommandLine.Run
import Solr.Proofs.CommandLine.Lines
import Solr.Proofs.Service.Sending

/-! What is checked of a command once its line is formed well: sort keys, weights, and the
file of documents. A command asks something of the service exactly when nothing is at fault. -/
namespace Solr.CommandLine

open Query (Search SearchedField SortKey Description Kind)
open Service (Operation)

/-- A name without a colon, and an order after it. -/
def IsSort (argument : String) : Prop :=
  ∃ name : String, ':' ∉ name.toList ∧ (argument = name ++ ":asc" ∨ argument = name ++ ":desc")

/-- The colon makes room for a space. -/
def spaced (argument : String) : String :=
  String.ofList (argument.toList.map fun c => if c = ':' then ' ' else c)

/-- An argument, and how it is sent: what follows the first caret is a weight, which is left
out if it is zero or no number. -/
inductive SearchedText : String → String → Prop
  | bare {argument : String} (plain : '^' ∉ argument.toList) : SearchedText argument argument
  | weightless {name weight : String} {w : Double} (plain : '^' ∉ name.toList)
    (read : Binary.read weight.toList = .ok w) (nothing : w.isZero = true ∨ w.isNaN = true) :
    SearchedText (name ++ "^" ++ weight) name
  | weighted {name weight : String} {w : Double} (plain : '^' ∉ name.toList)
    (read : Binary.read weight.toList = .ok w) (some : w.isZero = false ∧ w.isNaN = false) :
    SearchedText (name ++ "^" ++ weight) (name ++ "^" ++ String.ofList w.plainText)

section Texts

/-- A text that has a sign is divided at the first one. -/
theorem divided_or_plain (sign : Char) (argument : String) :
    sign ∉ argument.toList ∨ ∃ name rest : String, sign ∉ name.toList ∧
      argument = name ++ String.singleton sign ++ rest := by
  cases divided : Text.splitOnce? sign argument.toList with
  | none => exact .inl (Text.splitOnce?_eq_none_iff.mp divided)
  | some p =>
    obtain ⟨whole, plain⟩ := Text.splitOnce?_eq_some_iff.mp divided
    refine .inr ⟨String.ofList p.1, String.ofList p.2, by simpa using plain, ?_⟩
    simp [← String.toList_inj, whole]

theorem splitOnce?_text {sign : Char} {name : String} (plain : sign ∉ name.toList)
    (rest : String) :
    Text.splitOnce? sign (name ++ String.singleton sign ++ rest).toList =
      some (name.toList, rest.toList) := by
  have chars : (name ++ String.singleton sign ++ rest).toList =
      name.toList ++ sign :: rest.toList := by
    simp
  rw [chars, Text.splitOnce?_append plain]

theorem readSort_plain {argument : String} (plain : ':' ∉ argument.toList) :
    readSort argument = .error (.sortForm argument) := by
  rw [readSort, Text.splitOnce?_eq_none_iff.mpr plain]

theorem readSort_divided {name : String} (plain : ':' ∉ name.toList) (order : String) :
    readSort (name ++ ":" ++ order) =
      if order = "asc" then .ok ⟨⟨name⟩, .ascending⟩
      else if order = "desc" then .ok ⟨⟨name⟩, .descending⟩
      else .error (.sortOrder order) := by
  have divided : Text.splitOnce? ':' (name ++ ":" ++ order).toList =
      some (name.toList, order.toList) := splitOnce?_text plain order
  rw [readSort, divided]
  simp only [String.ofList_toList]

/-- Nothing but the name before the colon and one of two orders after it is a sort key. -/
theorem readSort_eq_ok_iff {argument : String} {key : SortKey} :
    readSort argument = .ok key ↔
      ':' ∉ key.field.name.toList ∧ argument = key.field.name ++ ":" ++ key.order.name := by
  constructor
  · intro read
    obtain plain | ⟨name, order, plain, rfl⟩ := divided_or_plain ':' argument
    · rw [readSort_plain plain] at read
      cases read
    · have read := (readSort_divided plain order).symm.trans read
      split at read
      · rename_i same
        cases read
        exact ⟨plain, by rw [same]; rfl⟩
      · split at read
        · rename_i same
          cases read
          exact ⟨plain, by rw [same]; rfl⟩
        · cases read
  · rintro ⟨plain, rfl⟩
    obtain ⟨field, order⟩ := key
    rw [readSort_divided plain]
    cases order <;> rfl

theorem isSort_iff {argument : String} :
    IsSort argument ↔ ∃ key, readSort argument = .ok key := by
  simp only [readSort_eq_ok_iff]
  constructor
  · rintro ⟨name, plain, rfl | rfl⟩
    · exact ⟨⟨⟨name⟩, .ascending⟩, plain, by simp [← String.toList_inj, Query.Order.name]⟩
    · exact ⟨⟨⟨name⟩, .descending⟩, plain, by simp [← String.toList_inj, Query.Order.name]⟩
  · rintro ⟨⟨field, order⟩, plain, rfl⟩
    refine ⟨field.name, plain, ?_⟩
    cases order
    · exact .inl (by simp [← String.toList_inj, Query.Order.name])
    · exact .inr (by simp [← String.toList_inj, Query.Order.name])

theorem text_eq_spaced {argument : String} {key : SortKey} (read : readSort argument = .ok key) :
    key.text = spaced argument := by
  obtain ⟨plain, rfl⟩ := readSort_eq_ok_iff.mp read
  obtain ⟨⟨name⟩, order⟩ := key
  -- No colon stands in the name, so only the one behind it makes room.
  have kept : name.toList.map (fun c => if c = ':' then ' ' else c) = name.toList := by
    refine (List.map_congr_left fun c member => ?_).trans (List.map_id _)
    rw [id, if_neg]
    rintro rfl
    exact plain member
  cases order
  · simp [← String.toList_inj, spaced, SortKey.text, Query.Order.name, kept]
  · simp [← String.toList_inj, spaced, SortKey.text, Query.Order.name, kept]

theorem readSearched_plain {argument : String} (plain : '^' ∉ argument.toList) :
    readSearched argument = .ok ⟨⟨argument⟩, none⟩ := by
  rw [readSearched, Text.splitOnce?_eq_none_iff.mpr plain]

theorem readSearched_divided {name : String} (plain : '^' ∉ name.toList) (weight : String) :
    readSearched (name ++ "^" ++ weight) =
      match Binary.read weight.toList with
      | .ok w => .ok ⟨⟨name⟩, some w⟩
      | .error e => .error (.weight (name ++ "^" ++ weight) e) := by
  have divided : Text.splitOnce? '^' (name ++ "^" ++ weight).toList =
      some (name.toList, weight.toList) := splitOnce?_text plain weight
  cases read : Binary.read (f := .double) weight.toList with
  | ok w => simp only [readSearched, divided, read, String.ofList_toList]
  | error e => simp only [readSearched, divided, read]

theorem text_weightless (name : String) {w : Double} (nothing : w.isZero = true ∨ w.isNaN = true) :
    SearchedField.text ⟨⟨name⟩, some w⟩ = name := by
  simp [SearchedField.text, nothing]

theorem text_weighted (name : String) {w : Double}
    (some : w.isZero = false ∧ w.isNaN = false) :
    SearchedField.text ⟨⟨name⟩, .some w⟩ = name ++ "^" ++ String.ofList w.plainText := by
  simp [SearchedField.text, some]

theorem searchedText_iff {argument text : String} :
    SearchedText argument text ↔ ∃ f, readSearched argument = .ok f ∧ f.text = text := by
  constructor
  · intro searched
    cases searched with
    | bare plain => exact ⟨_, readSearched_plain plain, rfl⟩
    | weightless plain read nothing =>
      refine ⟨_, ?_, text_weightless text nothing⟩
      rw [readSearched_divided plain, read]
    | @weighted name _ _ plain read some =>
      refine ⟨_, ?_, text_weighted name some⟩
      rw [readSearched_divided plain, read]
  · rintro ⟨f, read, rfl⟩
    obtain plain | ⟨name, weight, plain, rfl⟩ := divided_or_plain '^' argument
    · rw [readSearched_plain plain] at read
      cases read
      exact .bare plain
    · have read := (readSearched_divided plain weight).symm.trans read
      cases found : Binary.read (f := .double) weight.toList with
      | error e =>
        rw [found] at read
        cases read
      | ok w =>
        rw [found] at read
        cases read
        by_cases nothing : w.isZero = true ∨ w.isNaN = true
        · rw [text_weightless name nothing]
          exact .weightless plain found nothing
        · have some : w.isZero = false ∧ w.isNaN = false := by simpa using nothing
          rw [text_weighted name some]
          exact .weighted plain found some

end Texts

/-- What options ask for. -/
def describe (given : List Given) (n : Numbers) (sorts : List SortKey)
    (searched : List SearchedField) : Description where
  search := { Search.empty with
    query := value? given "q"
    filters := values given "fq"
    fields := (Arguments.splitFields (values given "fl")).map Field.mk
    sorts
    start := n.start
    rows := n.rows }
  ranking := { Query.Ranking.empty with fields := searched }
  grouping := { Query.Grouping.empty with
    fields := (values given "group-field").map Field.mk
    limit := n.limit
    countGroups := if isGiven given "ngroups" then some true else none }
  facets := []

/-- The kind of query that a command asks, if it asks one. -/
def Verb.kind : Verb → Option Kind
  | .select => some .standard
  | .ranked => some .ranked
  | .grouped => some .grouped
  | .update | .remove => none

/-- The operation that asks a query of a kind. -/
def asking (kind : Kind) (query : Json) : Operation Json :=
  if kind = .grouped then .selectGroups query else .select query

theorem parameters_asking (kind : Kind) (d : Description) :
    (asking kind (d.compile kind)).parameters =
      .ok (Parameters.pairs (Entries.ofList (d.members kind))) := by
  rw [← d.parameters_eq kind]
  unfold asking
  split <;> rfl

theorem isChange_asking (kind : Kind) (query : Json) : (asking kind query).isChange = false := by
  unfold asking
  split <;> rfl

section Operations

variable {given : List Given} {n : Numbers} {file : String → Except FileFault String}
  {operation : Operation Json}

/-- The sort keys and the fields that are searched, when all of them can be read. -/
def Readable (given : List Given) (sorts : List SortKey) (searched : List SearchedField) : Prop :=
  List.Forall₂ (fun t k => readSort t = .ok k) (values given "sort") sorts ∧
    List.Forall₂ (fun t f => readSearched t = .ok f) (values given "qf") searched

theorem search_eq_ok_iff {s : Search} :
    (queryOf given n).search = .ok s ↔
      ∃ sorts, List.Forall₂ (fun t k => readSort t = .ok k) (values given "sort") sorts ∧
        s = (describe given n sorts []).search := by
  simp only [QueryArguments.search, Json.bind_eq_ok, Json.mapM_eq_ok, pure, Except.pure,
    Except.ok.injEq, queryOf]
  constructor
  · rintro ⟨sorts, read, rfl⟩
    exact ⟨sorts, read, rfl⟩
  · rintro ⟨sorts, read, rfl⟩
    exact ⟨sorts, read, rfl⟩

/-- A command that asks a query asks it exactly when its texts can be read. -/
theorem operation_asking {verb : Verb} {kind : Kind} (asks : verb.kind = some kind)
    {arguments rest : List String} (spelled : Spelled verb.forms given arguments rest)
    (complete : verb.Complete given n) :
    (verb.command given n).operation file = .ok operation ↔
      ∃ sorts searched, Readable given sorts searched ∧
        operation = asking kind ((describe given n sorts searched).compile kind) := by
  have unsearched (other : ∀ form ∈ verb.forms, form.name ≠ "qf") (sorts : List SortKey)
      (searched : List SearchedField) : Readable given sorts searched ↔
        List.Forall₂ (fun t k => readSort t = .ok k) (values given "sort") sorts ∧
          searched = [] := by
    rw [Readable, spelled.values_other other, List.forall₂_nil_left_iff]
  cases verb with
  | select =>
    cases asks
    simp only [Verb.command, Command.operation, Json.bind_eq_ok, search_eq_ok_iff, pure,
      Except.pure, Except.ok.injEq, unsearched (by decide)]
    constructor
    · rintro ⟨_, ⟨sorts, read, rfl⟩, rfl⟩
      exact ⟨sorts, [], ⟨read, rfl⟩, rfl⟩
    · rintro ⟨sorts, _, ⟨read, rfl⟩, rfl⟩
      exact ⟨_, ⟨sorts, read, rfl⟩, rfl⟩
  | ranked =>
    cases asks
    simp only [Verb.command, Command.operation, Json.bind_eq_ok, search_eq_ok_iff, pure,
      Except.pure, Except.ok.injEq, Json.mapM_eq_ok]
    constructor
    · rintro ⟨_, ⟨sorts, read, rfl⟩, searched, also, rfl⟩
      exact ⟨sorts, searched, ⟨read, also⟩, rfl⟩
    · rintro ⟨sorts, searched, ⟨read, also⟩, rfl⟩
      exact ⟨_, ⟨sorts, read, rfl⟩, searched, also, rfl⟩
  | grouped =>
    cases asks
    simp only [Verb.command, Command.operation, Json.bind_eq_ok, search_eq_ok_iff, pure,
      Except.pure, Except.ok.injEq, unsearched (by decide)]
    have fields : (values given "group-field").headD "" :: (values given "group-field").tail =
        values given "group-field" := by
      cases found : values given "group-field" with
      | nil => exact absurd found (complete.group rfl)
      | cons field others => rfl
    rw [fields]
    constructor
    · rintro ⟨_, ⟨sorts, read, rfl⟩, rfl⟩
      exact ⟨sorts, [], ⟨read, rfl⟩, rfl⟩
    · rintro ⟨sorts, _, ⟨read, rfl⟩, rfl⟩
      exact ⟨_, ⟨sorts, read, rfl⟩, rfl⟩
  | update => cases asks
  | remove => cases asks

/-- A change is ordered without regard to anything but the file. -/
theorem operation_update :
    (Verb.update.command given n).operation file = .ok operation ↔
      ∃ text documents, file ((value? given "file").getD "") = .ok text ∧
        Json.decodeText (Json.Decode.list Json.Decode.value) .service text = .ok documents ∧
        operation = .update (documents.map .document) := by
  simp only [Verb.command, Command.operation, readDocuments, Json.bind_eq_ok, Json.mapError_eq_ok,
    pure, Except.pure, Except.ok.injEq]
  constructor
  · rintro ⟨documents, ⟨text, found, read⟩, rfl⟩
    exact ⟨text, documents, found, read, rfl⟩
  · rintro ⟨text, documents, found, read, rfl⟩
    exact ⟨documents, ⟨text, found, read⟩, rfl⟩

theorem operation_remove :
    (Verb.remove.command given n).operation file = .ok operation ↔
      operation = .remove (.matching ((value? given "query").getD "")) := by
  simp [Verb.command, Command.operation, eq_comm]

/-- The commands that do not ask are those that change. -/
theorem isChange_ordered {verb : Verb} {arguments rest : List String}
    (spelled : Spelled verb.forms given arguments rest) (complete : verb.Complete given n)
    (ordered : (verb.command given n).operation file = .ok operation) :
    operation.isChange = verb.kind.isNone := by
  cases asks : verb.kind with
  | some kind =>
    obtain ⟨sorts, searched, -, rfl⟩ := (operation_asking asks spelled complete).mp ordered
    exact isChange_asking kind _
  | none =>
    cases verb with
    | select | ranked | grouped => cases asks
    | update =>
      obtain ⟨text, documents, -, -, rfl⟩ := operation_update.mp ordered
      rfl
    | remove =>
      obtain rfl := operation_remove.mp ordered
      rfl

/-- Whatever is ordered has parameters to be sent with. -/
theorem parameters_ordered {verb : Verb} {arguments rest : List String}
    (spelled : Spelled verb.forms given arguments rest) (complete : verb.Complete given n)
    (ordered : (verb.command given n).operation file = .ok operation) :
    ∃ parameters, operation.parameters = .ok parameters := by
  cases asks : verb.kind with
  | some kind =>
    obtain ⟨sorts, searched, -, rfl⟩ := (operation_asking asks spelled complete).mp ordered
    exact ⟨_, parameters_asking kind _⟩
  | none =>
    have change := isChange_ordered spelled complete ordered
    rw [asks] at change
    exact ⟨_, Operation.parameters_change change⟩

end Operations

section Runs

variable {l : Line} {n : Numbers} {arguments : List String}

/-- The collection that a line names. -/
def Line.target (l : Line) (s : Surroundings) : Service.Collection :=
  ⟨(value? l.globals "collection").getD "",
    match value? l.globals "base-url" with
    | some url => .ofBaseUrl url
    | none => .ofEnvironment s.baseUrl⟩

/-- The step that carries out an operation: nothing is said of its request, and it waits for
its reply as long as the settings let it. -/
def stepOf (s : Surroundings) (operation : Operation Json) : Service.Step Json :=
  ⟨operation, .empty, s.delivery⟩

/-- Arguments that spell a line, and the operation that it orders. -/
structure Line.Orders (l : Line) (n : Numbers) (s : Surroundings) (arguments : List String)
    (operation : Operation Json) : Prop where
  spelled : l.Spells arguments
  formed : l.Formed n
  ordered : (l.verb.command l.given n).operation s.file = .ok operation

variable {s : Surroundings} {operation : Operation Json}

theorem run_line (spelled : l.Spells arguments) (formed : l.Formed n) :
    run s arguments = runArguments s (l.arguments n) := by
  rw [run, Line.read_eq_ok_iff.mpr ⟨l, n, spelled, formed, rfl⟩]

theorem run_orders (orders : l.Orders n s arguments operation) :
    (run s arguments).request = ((stepOf s operation).perform (l.target s)).request ∧
    (run s arguments).ending = match ((stepOf s operation).perform (l.target s)).result with
      | .ok answer => .succeeded (report (l.target s).name operation answer)
      | .error f => .failed (.service f) := by
  rw [run_line orders.spelled orders.formed, runArguments]
  have ordered : (l.arguments n).command.operation s.file = .ok operation := orders.ordered
  have performed : Service.Step.perform ⟨(l.arguments n).collection,
      (l.arguments n).settings s.baseUrl⟩ ⟨operation, .empty, s.delivery⟩ =
        (stepOf s operation).perform (l.target s) := rfl
  rw [ordered]
  dsimp only
  rw [performed]
  cases ((stepOf s operation).perform (l.target s)).result with
  | ok answer => exact ⟨rfl, rfl⟩
  | error f => exact ⟨rfl, rfl⟩

/-- A run that orders no operation issues nothing, and does not succeed. -/
theorem orders_or_fails (s : Surroundings) (arguments : List String) :
    (∃ l n operation, Line.Orders l n s arguments operation) ∨
      ((run s arguments).request = none ∧ (run s arguments).ending.exitCode ≠ 0) := by
  cases read : Arguments.read arguments with
  | error e =>
    right
    rw [run, read]
    exact ⟨rfl, nofun⟩
  | ok a =>
    obtain ⟨l, n, spelled, formed, rfl⟩ := Line.read_eq_ok_iff.mp read
    cases ordered : (l.arguments n).command.operation s.file with
    | error c =>
      right
      rw [run_line spelled formed, runArguments, ordered]
      exact ⟨rfl, nofun⟩
    | ok operation => exact .inl ⟨l, n, operation, spelled, formed, ordered⟩

theorem orders_of_issued {r : Http.Request} (issued : (run s arguments).request = some r) :
    ∃ l n operation, Line.Orders l n s arguments operation := by
  obtain orders | ⟨nothing, -⟩ := orders_or_fails s arguments
  · exact orders
  · rw [nothing] at issued
    cases issued

/-- What is ordered is sent as one request. -/
theorem request_orders (orders : l.Orders n s arguments operation) :
    ∃ parameters, operation.parameters = .ok parameters ∧
      (run s arguments).request = some ((stepOf s operation).request (l.target s) parameters) := by
  obtain ⟨rest, -, given⟩ := orders.spelled
  obtain ⟨parameters, flattened⟩ :=
    parameters_ordered given orders.formed.complete orders.ordered
  refine ⟨parameters, flattened, ?_⟩
  rw [(run_orders orders).1]
  exact (stepOf s operation).perform_request (l.target s) flattened

end Runs

end Solr.CommandLine
