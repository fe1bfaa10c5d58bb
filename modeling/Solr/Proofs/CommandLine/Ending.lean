import Solr.Proofs.Answer.Recoding
import Solr.Proofs.CommandLine.Asking
import Solr.Proofs.Json.Agreement
import Solr.Proofs.Json.Indented

/-! How a run ends. One request is sent at most, and none unless all checks are passed; a run
succeeds when its reply does, and prints only then. What is complained of otherwise is not
looked at. -/
namespace Solr.CommandLine

open Answer (Selection Grouped Acknowledgement)
open Json (readIn? decodeText)
open Service (Operation resultOf)

section Spelling

variable {forms : List OptionForm} {arguments : List String}

/-- Arguments spell one list of options at most. -/
theorem Spelled.unique (clear : Clear forms) {given given' : List Given} {rest rest' : List String}
    (spelled : Spelled forms given arguments rest) (other : Spelled forms given' arguments rest') :
    given = given' ∧ rest = rest' := by
  have same := (spelled.read clear).symm.trans (other.read clear)
  simpa using same

theorem Verb.name_injective {verb verb' : Verb} (same : verb.name = verb'.name) :
    verb = verb' := by
  revert same
  cases verb <;> cases verb' <;> decide

theorem Line.Spells.unique {l l' : Line} (spells : l.Spells arguments)
    (other : l'.Spells arguments) : l = l' := by
  obtain ⟨rest, globals, given⟩ := spells
  obtain ⟨rest', globals', given'⟩ := other
  obtain ⟨sameGlobals, sameRest⟩ := globals.unique clear_globalForms globals'
  obtain ⟨sameName, rfl⟩ := List.cons.inj sameRest
  have sameVerb := Verb.name_injective sameName
  rw [← sameVerb] at given'
  have sameGiven := (given.unique l.verb.clear_forms given').1
  cases l
  cases l'
  simp_all

end Spelling

namespace Line

def file (l : Line) : String :=
  (value? l.given "file").getD ""

/-- Nothing is at fault with what a line says beyond its form. -/
structure Sound (l : Line) (s : Surroundings) : Prop where
  sorts : ∀ t ∈ values l.given "sort", IsSort t
  searched : ∀ t ∈ values l.given "qf", ∃ text, SearchedText t text
  documents : l.verb = .update → ∃ text items, s.file l.file = .ok text ∧
    readIn? .service text = some (.array items)

/-- What can be at fault with a line, whatever else it says. -/
inductive Faulty (l : Line) (s : Surroundings) : Prop
  | sort {t : String} (given : t ∈ values l.given "sort") (fault : ¬ IsSort t)
  | weight {t : String} (given : t ∈ values l.given "qf") (fault : ∀ text, ¬ SearchedText t text)
  | unreadable {fault : FileFault} (update : l.verb = .update)
    (missing : s.file l.file = .error fault)
  | format {text : String} (update : l.verb = .update) (found : s.file l.file = .ok text)
    (other : ∀ items, readIn? .service text ≠ some (.array items))

theorem Faulty.not_sound {l : Line} {s : Surroundings} (faulty : l.Faulty s) : ¬ l.Sound s := by
  intro sound
  cases faulty with
  | sort given fault => exact fault (sound.sorts _ given)
  | weight given fault =>
    obtain ⟨text, searched⟩ := sound.searched _ given
    exact fault text searched
  | unreadable update missing =>
    obtain ⟨text, items, found, -⟩ := sound.documents update
    rw [missing] at found
    cases found
  | format update found other =>
    obtain ⟨text, items, there, read⟩ := sound.documents update
    rw [found] at there
    cases there
    exact other items read

end Line

section Ordering

variable {l : Line} {n : Numbers} {s : Surroundings} {arguments : List String}
  {operation : Operation Json}

theorem orders_update (update : l.verb = .update) :
    (l.verb.command l.given n).operation s.file = .ok operation ↔
      ∃ text items, s.file l.file = .ok text ∧ readIn? .service text = some (.array items) ∧
        operation = .update (items.map fun j => .document j.canonical) := by
  rw [update, operation_update]
  constructor
  · rintro ⟨text, _, found, read, rfl⟩
    obtain ⟨items, shown, rfl⟩ := Json.decodeText_values.mp read
    exact ⟨text, items, found, shown, by rw [List.map_map]; rfl⟩
  · rintro ⟨text, items, found, shown, rfl⟩
    refine ⟨text, items.map Json.canonical, found, Json.decodeText_values.mpr ⟨items, shown, rfl⟩, ?_⟩
    rw [List.map_map]
    rfl

theorem sorts_read {texts : List String} :
    (∃ sorts, List.Forall₂ (fun t k => readSort t = .ok k) texts sorts) ↔
      ∀ t ∈ texts, IsSort t := by
  simp only [Json.exists_forall₂_iff, isSort_iff]

theorem searched_read {texts : List String} :
    (∃ searched, List.Forall₂ (fun t f => readSearched t = .ok f) texts searched) ↔
      ∀ t ∈ texts, ∃ text, SearchedText t text := by
  simp [Json.exists_forall₂_iff, searchedText_iff]

/-- A command that asks nothing has nothing to sort or to search. -/
theorem untexted (kind : l.verb.kind = none) {arguments rest : List String}
    (spelled : Spelled l.verb.forms l.given arguments rest) :
    values l.given "sort" = [] ∧ values l.given "qf" = [] := by
  revert spelled kind
  generalize l.verb = verb
  intro kind spelled
  cases verb with
  | select | ranked | grouped => cases kind
  | update | remove => exact ⟨spelled.values_other (by decide), spelled.values_other (by decide)⟩

/-- A line that is formed well orders an operation exactly when it is sound. -/
theorem ordered_iff_sound {rest : List String} (spelled : Spelled l.verb.forms l.given rest [])
    (complete : l.verb.Complete l.given n) :
    (∃ operation, (l.verb.command l.given n).operation s.file = .ok operation) ↔ l.Sound s := by
  cases asks : l.verb.kind with
  | some kind =>
    have notUpdate : l.verb ≠ .update := fun update => by
      rw [update] at asks
      cases asks
    simp only [operation_asking asks spelled complete]
    constructor
    · rintro ⟨_, sorts, searched, ⟨sorted, read⟩, -⟩
      exact ⟨sorts_read.mp ⟨sorts, sorted⟩, searched_read.mp ⟨searched, read⟩,
        fun update => absurd update notUpdate⟩
    · intro sound
      obtain ⟨sorts, sorted⟩ := sorts_read.mpr sound.sorts
      obtain ⟨searched, read⟩ := searched_read.mpr sound.searched
      exact ⟨_, sorts, searched, ⟨sorted, read⟩, rfl⟩
  | none =>
    obtain ⟨noSorts, noSearched⟩ := untexted asks spelled
    have texts : (∀ t ∈ values l.given "sort", IsSort t) ∧
        ∀ t ∈ values l.given "qf", ∃ text, SearchedText t text := by
      simp [noSorts, noSearched]
    by_cases update : l.verb = .update
    · simp only [orders_update update]
      constructor
      · rintro ⟨_, text, items, found, shown, -⟩
        exact ⟨texts.1, texts.2, fun _ => ⟨text, items, found, shown⟩⟩
      · intro sound
        obtain ⟨text, items, found, shown⟩ := sound.documents update
        exact ⟨_, text, items, found, shown, rfl⟩
    · have remove : l.verb = .remove := by
        cases found : l.verb <;> simp_all [Verb.kind]
      rw [remove]
      exact iff_of_true ⟨_, operation_remove.mpr rfl⟩
        ⟨texts.1, texts.2, fun other => absurd other update⟩

/-- A request is issued for a sound line, and for no other. -/
theorem issued_iff :
    (∃ r, (run s arguments).request = some r) ↔
      ∃ l n, Line.Spells l arguments ∧ l.Formed n ∧ l.Sound s := by
  constructor
  · rintro ⟨r, issued⟩
    obtain ⟨l, n, operation, orders⟩ := orders_of_issued issued
    obtain ⟨rest, -, given⟩ := orders.spelled
    exact ⟨l, n, orders.spelled, orders.formed,
      (ordered_iff_sound given orders.formed.complete).mp ⟨operation, orders.ordered⟩⟩
  · rintro ⟨l, n, ⟨rest, globals, given⟩, formed, sound⟩
    obtain ⟨operation, ordered⟩ := (ordered_iff_sound given formed.complete).mpr sound
    obtain ⟨_, -, request⟩ :=
      request_orders (s := s) ⟨⟨rest, globals, given⟩, formed, ordered⟩
    exact ⟨_, request⟩

/-- A line with a fault is not sent, whatever else it says. -/
theorem unissued (spelled : l.Spells arguments) (faulty : l.Faulty s) :
    (run s arguments).request = none := by
  cases issued : (run s arguments).request with
  | none => rfl
  | some r =>
    obtain ⟨other, n, also, -, sound⟩ := issued_iff.mp ⟨r, issued⟩
    obtain rfl := spelled.unique also
    exact absurd sound faulty.not_sound

end Ordering

/-- A value, on lines of its own, that is read back from there, and from its compact text. -/
structure Pretty (j : Json) (output : String) : Prop where
  text : output = j.indented ++ "\n"
  same : Json.read? output = some j
  compact : Json.read? j.compact = some j

/-- What is printed once documents are updated. -/
def updated (count : Nat) (collection : String) : String :=
  "Updated " ++ Service.Event.numeral count ++ " documents in " ++ collection ++ "\n"

/-- What a line prints for the body of a reply that it understands. -/
inductive Line.Prints (l : Line) (s : Surroundings) (body : String) : String → Prop
  | selected {a : Selection Json} {output : String} (verb : l.verb = .select ∨ l.verb = .ranked)
    (read : decodeText Selection.decode .service body = .ok a) (pretty : Pretty a.encode output) :
    Prints l s body output
  | grouped {a : Grouped Json} {output : String} (verb : l.verb = .grouped)
    (read : decodeText Grouped.decode .service body = .ok a) (pretty : Pretty a.encode output) :
    Prints l s body output
  | updated {a : Acknowledgement} {text : String} {items : List Json} (verb : l.verb = .update)
    (read : decodeText Acknowledgement.decode .service body = .ok a)
    (found : s.file l.file = .ok text) (shown : readIn? .service text = some (.array items)) :
    Prints l s body (updated items.length (l.target s).name)
  | removed {a : Acknowledgement} (verb : l.verb = .remove)
    (read : decodeText Acknowledgement.decode .service body = .ok a) :
    Prints l s body ("Removed matching documents from " ++ (l.target s).name ++ "\n")

section Printing

variable {l : Line} {n : Numbers} {s : Surroundings} {arguments : List String}
  {operation : Operation Json}

theorem pretty_of_recodes {α : Type} {decode : Json.Decoder α} {encode : α → Json}
    (codes : Json.Recodes 127 decode encode) {body : String} {a : α}
    (read : decodeText decode .service body = .ok a) :
    Pretty (encode a) ((encode a).indented ++ "\n") := by
  obtain ⟨found, -⟩ := Json.decodeText_eq_ok.mp read
  obtain ⟨within, -⟩ := codes _ a (Json.within_outline body) found
  have legible := Json.unbounded_of_within within
  exact ⟨rfl, Json.read?_indented legible, Json.read?_compact legible⟩

theorem query_of_orders (orders : l.Orders n s arguments operation) (kind : Query.Kind)
    (asks : l.verb.kind = some kind) : ∃ query, operation = asking kind query := by
  obtain ⟨rest, -, given⟩ := orders.spelled
  obtain ⟨_, _, -, same⟩ :=
    (operation_asking asks given orders.formed.complete).mp orders.ordered
  exact ⟨_, same⟩

/-- What is reported of an operation that succeeds is what its line prints. -/
theorem prints_of_report (orders : l.Orders n s arguments operation) {body : String}
    {answer : Option Json} (answered : operation.answer body = .ok answer) :
    l.Prints s body (report (l.target s).name operation answer) := by
  cases verb : l.verb with
  | select =>
    obtain ⟨query, rfl⟩ := query_of_orders orders .standard (by rw [verb]; rfl)
    obtain ⟨a, read, rfl⟩ := Json.map_eq_ok.mp answered
    exact .selected (.inl verb) read
      (pretty_of_recodes (Selection.recodes (Json.recodes_value 124)) read)
  | ranked =>
    obtain ⟨query, rfl⟩ := query_of_orders orders .ranked (by rw [verb]; rfl)
    obtain ⟨a, read, rfl⟩ := Json.map_eq_ok.mp answered
    exact .selected (.inr verb) read
      (pretty_of_recodes (Selection.recodes (Json.recodes_value 124)) read)
  | grouped =>
    obtain ⟨query, rfl⟩ := query_of_orders orders .grouped (by rw [verb]; rfl)
    obtain ⟨a, read, rfl⟩ := Json.map_eq_ok.mp answered
    exact .grouped verb read (pretty_of_recodes (Grouped.recodes (Json.recodes_value 120)) read)
  | update =>
    obtain ⟨text, items, found, shown, rfl⟩ := (orders_update verb).mp orders.ordered
    obtain ⟨a, read, rfl⟩ := Json.map_eq_ok.mp answered
    have printed := Line.Prints.updated (s := s) verb read found shown
    have count : (items.map fun j => Update.document j.canonical).length = items.length :=
      List.length_map _
    rwa [← count] at printed
  | remove =>
    have ordered := orders.ordered
    rw [verb] at ordered
    obtain rfl := operation_remove.mp ordered
    obtain ⟨a, read, rfl⟩ := Json.map_eq_ok.mp answered
    exact .removed verb read

theorem report_of_prints (orders : l.Orders n s arguments operation) {body output : String}
    (prints : l.Prints s body output) :
    ∃ answer, operation.answer body = .ok answer ∧
      report (l.target s).name operation answer = output := by
  cases prints with
  | @selected a _ verb read pretty =>
    obtain ⟨kind, asks, plain⟩ : ∃ kind, l.verb.kind = some kind ∧ kind ≠ .grouped := by
      obtain verb | verb := verb
      · exact ⟨.standard, by rw [verb]; rfl, nofun⟩
      · exact ⟨.ranked, by rw [verb]; rfl, nofun⟩
    obtain ⟨query, rfl⟩ := query_of_orders orders kind asks
    rw [asking, if_neg plain, pretty.text]
    exact ⟨some a.encode, Json.map_eq_ok.mpr ⟨a, read, rfl⟩, rfl⟩
  | @grouped a _ verb read pretty =>
    obtain ⟨query, rfl⟩ := query_of_orders orders .grouped (by rw [verb]; rfl)
    rw [asking, if_pos rfl, pretty.text]
    exact ⟨some a.encode, Json.map_eq_ok.mpr ⟨a, read, rfl⟩, rfl⟩
  | @updated a text items verb read found shown =>
    obtain ⟨_, _, there, also, rfl⟩ := (orders_update verb).mp orders.ordered
    obtain rfl := Except.ok.inj (found.symm.trans there)
    obtain rfl := Json.array.inj (Option.some.inj (shown.symm.trans also))
    refine ⟨none, Json.map_eq_ok.mpr ⟨a, read, rfl⟩, ?_⟩
    exact congrArg (updated · (l.target s).name)
      (List.length_map fun j : Json => Update.document j.canonical)
  | @removed a verb read =>
    have ordered := orders.ordered
    rw [verb] at ordered
    obtain rfl := operation_remove.mp ordered
    exact ⟨none, Json.map_eq_ok.mpr ⟨a, read, rfl⟩, rfl⟩

theorem Ending.eq_succeeded {ending : Ending} (code : ending.exitCode = 0) :
    ending = .succeeded ending.output := by
  cases ending with
  | succeeded output => rfl
  | failed | refused => cases code

/-- An operation succeeds with what its line prints for a reply of success. -/
theorem succeeded_iff (orders : l.Orders n s arguments operation) {output : String} :
    (run s arguments).ending = .succeeded output ↔
      ∃ reply delay, s.delivery = .answered reply delay ∧
        (200 ≤ reply.status ∧ reply.status ≤ 299) ∧ l.Prints s reply.text output := by
  obtain ⟨rest, -, given⟩ := orders.spelled
  obtain ⟨parameters, flattened⟩ :=
    parameters_ordered given orders.formed.complete orders.ordered
  -- No limit is set from the command line, so that a reply counts whatever its delay.
  have patient : (stepOf s operation).patience (l.target s) = none := by
    rw [Service.Step.patience_eq, stepOf, Line.target]
    cases value? l.globals "base-url" <;> rfl
  have result := (stepOf s operation).perform_result (l.target s)
  have same : (stepOf s operation).operation = operation := rfl
  rw [same, flattened, patient] at result
  have ending := (run_orders orders).2
  rw [result] at ending
  rw [ending]
  constructor
  · intro succeeded
    cases answered : resultOf operation.answer none (stepOf s operation).delivery with
    | error f =>
      rw [answered] at succeeded
      cases succeeded
    | ok answer =>
      rw [answered] at succeeded
      obtain ⟨reply, received, status, read⟩ := Service.resultOf_eq_ok_iff.mp answered
      obtain ⟨delay, delivery, -⟩ := Http.Delivery.receive_eq_ok_iff.mp received
      obtain rfl := Ending.succeeded.inj succeeded
      exact ⟨reply, delay, delivery, status, prints_of_report orders read⟩
  · rintro ⟨reply, delay, delivery, status, prints⟩
    obtain ⟨answer, read, rfl⟩ := report_of_prints orders prints
    have received : s.delivery.receive none = .ok reply :=
      Http.Delivery.receive_eq_ok_iff.mpr ⟨delay, delivery, by simp⟩
    have answered : resultOf operation.answer none (stepOf s operation).delivery = .ok answer :=
      Service.resultOf_eq_ok_iff.mpr ⟨reply, received, status, read⟩
    rw [answered]

end Printing

/-- Of arguments that spell a sound line one request is sent, and of no others. A run succeeds
exactly when this request is answered with success, and in words that its command understands;
it prints the answer then, and nothing otherwise. -/
theorem runs_end (s : Surroundings) (arguments : List String) :
    ((run s arguments).seen s).length ≤ 1 ∧
    ((∃ r, (run s arguments).request = some r) ↔
      ∃ l n, Line.Spells l arguments ∧ l.Formed n ∧ l.Sound s) ∧
    (∀ l, Line.Spells l arguments → l.Faulty s → (run s arguments).request = none) ∧
    (∀ output, (run s arguments).ending.exitCode = 0 ∧ (run s arguments).ending.output = output ↔
      ∃ l n r reply delay, Line.Spells l arguments ∧ l.Formed n ∧
        (run s arguments).seen s = [r] ∧ s.delivery = .answered reply delay ∧
        (200 ≤ reply.status ∧ reply.status ≤ 299) ∧ l.Prints s reply.text output) ∧
    ((run s arguments).ending.exitCode ≠ 0 → (run s arguments).ending.output = "") := by
  refine ⟨?_, issued_iff, fun l => unissued, fun output => ⟨?_, ?_⟩, ?_⟩
  · unfold Run.seen
    cases s.delivery.arrives <;> cases (run s arguments).request <;> simp
  · rintro ⟨code, rfl⟩
    obtain ⟨l, n, operation, orders⟩ | ⟨-, fails⟩ := orders_or_fails s arguments
    · obtain ⟨reply, delay, delivery, status, prints⟩ :=
        (succeeded_iff orders).mp (Ending.eq_succeeded code)
      obtain ⟨r, issued⟩ : ∃ r, (run s arguments).request = some r :=
        let ⟨_, _, issued⟩ := request_orders orders
        ⟨_, issued⟩
      have seen : (run s arguments).seen s = [r] := by
        rw [Run.seen, delivery, issued]
        rfl
      exact ⟨l, n, r, reply, delay, orders.spelled, orders.formed, seen, delivery, status, prints⟩
    · exact absurd code fails
  · rintro ⟨l, n, r, reply, delay, spelled, formed, seen, delivery, status, prints⟩
    have issued : (run s arguments).request = some r := by
      rw [Run.seen, delivery] at seen
      exact Option.toList_eq_singleton_iff.mp seen
    obtain ⟨other, n', operation, orders⟩ := orders_of_issued issued
    obtain rfl := spelled.unique orders.spelled
    rw [(succeeded_iff orders).mpr ⟨reply, delay, delivery, status, prints⟩]
    exact ⟨rfl, rfl⟩
  · intro code
    cases ended : (run s arguments).ending with
    | succeeded output =>
      rw [ended] at code
      exact absurd rfl code
    | failed | refused => rfl

end Solr.CommandLine
