import Solr.Proofs.CommandLine.Options

/-! Whole command lines: the options of all commands, the name of a command, and the options
of that command. A line that is formed well is read as one command. -/
namespace Solr.CommandLine

inductive Verb where
  | select
  | ranked
  | grouped
  | update
  | remove
  deriving DecidableEq

namespace Verb

def name : Verb → String
  | .select => "select"
  | .ranked => "edismax"
  | .grouped => "group"
  | .update => "update"
  | .remove => "remove"

def forms : Verb → List OptionForm
  | .select => Arguments.queryForms
  | .ranked => Arguments.rankedForms
  | .grouped => Arguments.groupedForms
  | .update => Arguments.updateForms
  | .remove => Arguments.removeForms

theorem clear_forms (verb : Verb) : Clear verb.forms := by
  cases verb <;> constructor <;> decide

end Verb

theorem clear_globalForms : Clear Arguments.globalForms := by
  constructor <;> decide

/-- The numbers that options give. -/
structure Numbers where
  start : Option Nat
  rows : Option Nat
  limit : Option Int

/-- A text that may be missing, and what it is read as. -/
def Typed {α : Type} (read : String → Option α) : Option String → Option α → Prop :=
  Option.Rel fun text a => read text = some a

def queryOf (given : List Given) (n : Numbers) : QueryArguments :=
  ⟨value? given "q", values given "fq", values given "sort",
    Arguments.splitFields (values given "fl"), n.start, n.rows⟩

namespace Verb

/-- What options must be for a command, with the numbers that they give. -/
structure Complete (verb : Verb) (given : List Given) (n : Numbers) : Prop where
  once : Once verb.forms given
  start : Typed Arguments.readCount (value? given "start") n.start
  rows : Typed Arguments.readCount (value? given "rows") n.rows
  limit : Typed Arguments.readSigned (value? given "group-limit") n.limit
  group : verb = .grouped → values given "group-field" ≠ []
  file : verb = .update → ∃ name, value? given "file" = some name ∧ name ≠ ""
  query : verb = .remove → value? given "query" ≠ none

def command (verb : Verb) (given : List Given) (n : Numbers) : Command :=
  match verb with
  | .select => .select (queryOf given n)
  | .ranked => .ranked (queryOf given n) (values given "qf")
  | .grouped =>
    .grouped (queryOf given n) ((values given "group-field").headD "")
      (values given "group-field").tail n.limit (isGiven given "ngroups")
  | .update => .update ((value? given "file").getD "")
  | .remove => .remove ((value? given "query").getD "")

end Verb

section Commands

variable {given : List Given} {arguments : List String} {c : Command}

theorem queryArguments_eq_ok_iff {q : QueryArguments} :
    Arguments.queryArguments given = .ok q ↔
      ∃ start rows, Typed Arguments.readCount (value? given "start") start ∧
        Typed Arguments.readCount (value? given "rows") rows ∧
        q = queryOf given ⟨start, rows, none⟩ := by
  simp only [Arguments.queryArguments, Json.bind_eq_ok, typedValue?_eq_ok_iff, pure, Except.pure,
    Except.ok.injEq]
  constructor
  · rintro ⟨start, first, rows, second, rfl⟩
    exact ⟨start, rows, first, second, rfl⟩
  · rintro ⟨start, rows, first, second, rfl⟩
    exact ⟨start, first, rows, second, rfl⟩

/-- A command that is read off a query has the numbers of the query. -/
theorem asked_eq_ok_iff {command : QueryArguments → Command}
    (unlimited : Typed Arguments.readSigned (value? given "group-limit") none) :
    (do return command (← Arguments.queryArguments given) : Except ArgumentError Command) =
        .ok c ↔
      ∃ n : Numbers, Typed Arguments.readCount (value? given "start") n.start ∧
        Typed Arguments.readCount (value? given "rows") n.rows ∧
        Typed Arguments.readSigned (value? given "group-limit") n.limit ∧
        c = command (queryOf given n) := by
  simp only [Json.bind_eq_ok, queryArguments_eq_ok_iff, pure, Except.pure, Except.ok.injEq]
  constructor
  · rintro ⟨_, ⟨start, rows, first, second, rfl⟩, rfl⟩
    exact ⟨⟨start, rows, none⟩, first, second, unlimited, rfl⟩
  · rintro ⟨n, first, second, -, rfl⟩
    exact ⟨_, ⟨n.start, n.rows, first, second, rfl⟩, rfl⟩

/-- An option that a command does not have gives no number. -/
theorem typed_other {α : Type} {read : String → Option α} {forms : List OptionForm}
    {rest : List String} {name : String} (spelled : Spelled forms given arguments rest)
    (other : ∀ form ∈ forms, form.name ≠ name) : Typed read (value? given name) none := by
  rw [value?, spelled.values_other other]
  exact .none

/-- The command that options say, once their uses are checked. -/
def Verb.read (given : List Given) : Verb → Except ArgumentError Command
  | .select => do return .select (← Arguments.queryArguments given)
  | .ranked => do return .ranked (← Arguments.queryArguments given) (values given "qf")
  | .grouped => do
    let query ← Arguments.queryArguments given
    let limit ← typedValue? given "group-limit" Arguments.readSigned
    match values given "group-field" with
    | [] => throw (.missingOption "group-field")
    | field :: others => return .grouped query field others limit (isGiven given "ngroups")
  | .update => do
    match ← typedValue? given "file" Arguments.readFileName with
    | some file => return .update file
    | none => throw (.missingOption "file")
  | .remove => do return .remove (← requiredValue given "query")

theorem readCommand_name (verb : Verb) (arguments : List String) :
    Arguments.readCommand verb.name arguments =
      (Arguments.options verb.forms arguments).bind fun given => verb.read given := by
  cases verb <;> rfl

theorem name_of_readCommand {name : String} (read : Arguments.readCommand name arguments = .ok c) :
    ∃ verb : Verb, verb.name = name := by
  unfold Arguments.readCommand at read
  split at read
  · exact ⟨.select, by simp [*, Verb.name]⟩
  · split at read
    · exact ⟨.ranked, by simp [*, Verb.name]⟩
    · split at read
      · exact ⟨.grouped, by simp [*, Verb.name]⟩
      · split at read
        · exact ⟨.update, by simp [*, Verb.name]⟩
        · split at read
          · exact ⟨.remove, by simp [*, Verb.name]⟩
          · cases read

theorem readFileName_eq_some_iff {text name : String} :
    Arguments.readFileName text = some name ↔ text = name ∧ name ≠ "" := by
  unfold Arguments.readFileName
  by_cases empty : text = ""
  · subst empty
    simp [eq_comm]
  · rw [if_neg empty, Option.some.injEq]
    exact ⟨fun same => ⟨same, same ▸ empty⟩, And.left⟩

theorem typed_file {name : String} :
    Typed Arguments.readFileName (value? given "file") (some name) ↔
      value? given "file" = some name ∧ name ≠ "" := by
  cases value? given "file" with
  | none => simp [Typed]
  | some text => simpa [Typed] using readFileName_eq_some_iff

/-- Options that are spelled right are complete exactly when a command is read off them. -/
theorem Verb.read_eq_ok_iff {verb : Verb} (spelled : Spelled verb.forms given arguments [])
    (once : Once verb.forms given) :
    verb.read given = .ok c ↔ ∃ n, verb.Complete given n ∧ c = verb.command given n := by
  cases verb with
  | select =>
    rw [Verb.read, asked_eq_ok_iff (typed_other spelled (by decide))]
    constructor
    · rintro ⟨n, start, rows, limit, rfl⟩
      exact ⟨n, ⟨once, start, rows, limit, by simp, by simp, by simp⟩, rfl⟩
    · rintro ⟨n, complete, rfl⟩
      exact ⟨n, complete.start, complete.rows, complete.limit, rfl⟩
  | ranked =>
    rw [Verb.read, asked_eq_ok_iff (typed_other spelled (by decide))]
    constructor
    · rintro ⟨n, start, rows, limit, rfl⟩
      exact ⟨n, ⟨once, start, rows, limit, by simp, by simp, by simp⟩, rfl⟩
    · rintro ⟨n, complete, rfl⟩
      exact ⟨n, complete.start, complete.rows, complete.limit, rfl⟩
  | grouped =>
    simp only [Verb.read, Json.bind_eq_ok, queryArguments_eq_ok_iff, typedValue?_eq_ok_iff]
    constructor
    · rintro ⟨_, ⟨start, rows, first, second, rfl⟩, limit, third, read⟩
      refine ⟨⟨start, rows, limit⟩, ?_⟩
      cases fields : values given "group-field" with
      | nil =>
        rw [fields] at read
        cases read
      | cons field others =>
        rw [fields] at read
        refine ⟨⟨once, first, second, third, fun _ => by simp [fields], by simp, by simp⟩, ?_⟩
        rw [Verb.command, fields]
        exact (Except.ok.inj read).symm
    · rintro ⟨n, complete, rfl⟩
      refine ⟨_, ⟨n.start, n.rows, complete.start, complete.rows, rfl⟩, n.limit, complete.limit, ?_⟩
      have some := complete.group rfl
      rw [Verb.command]
      cases fields : values given "group-field" with
      | nil => exact absurd fields some
      | cons field others => rfl
  | update =>
    simp only [Verb.read, Json.bind_eq_ok, typedValue?_eq_ok_iff]
    constructor
    · rintro ⟨name, found, read⟩
      cases name with
      | none => cases read
      | some name =>
        obtain ⟨given?, notEmpty⟩ := typed_file.mp found
        refine ⟨⟨none, none, none⟩, ⟨once, typed_other spelled (by decide),
          typed_other spelled (by decide), typed_other spelled (by decide), by simp,
          fun _ => ⟨name, given?, notEmpty⟩, by simp⟩, ?_⟩
        rw [Verb.command, given?]
        exact (Except.ok.inj read).symm
    · rintro ⟨n, complete, rfl⟩
      obtain ⟨name, given?, notEmpty⟩ := complete.file rfl
      refine ⟨some name, typed_file.mpr ⟨given?, notEmpty⟩, ?_⟩
      rw [Verb.command, given?]
      rfl
  | remove =>
    simp only [Verb.read, Json.bind_eq_ok, requiredValue_eq_ok_iff, pure, Except.pure,
      Except.ok.injEq]
    constructor
    · rintro ⟨query, given?, rfl⟩
      refine ⟨⟨none, none, none⟩, ⟨once, typed_other spelled (by decide),
        typed_other spelled (by decide), typed_other spelled (by decide), by simp, by simp,
        fun _ => by simp [given?]⟩, ?_⟩
      rw [Verb.command, given?]
      rfl
    · rintro ⟨n, complete, rfl⟩
      obtain ⟨query, given?⟩ := Option.ne_none_iff_exists'.mp (complete.query rfl)
      refine ⟨query, given?, ?_⟩
      rw [Verb.command, given?]
      rfl

theorem readCommand_eq_ok_iff {verb : Verb} :
    Arguments.readCommand verb.name arguments = .ok c ↔
      ∃ given n, Spelled verb.forms given arguments [] ∧ verb.Complete given n ∧
        c = verb.command given n := by
  rw [readCommand_name]
  constructor
  · intro read
    obtain ⟨given, options, read⟩ := Json.bind_eq_ok.mp read
    obtain ⟨spelled, once⟩ := (options_eq_ok_iff verb.clear_forms).mp options
    obtain ⟨n, complete, rfl⟩ := (Verb.read_eq_ok_iff spelled once).mp read
    exact ⟨given, n, spelled, complete, rfl⟩
  · rintro ⟨given, n, spelled, complete, rfl⟩
    exact Json.bind_eq_ok.mpr ⟨given,
      (options_eq_ok_iff verb.clear_forms).mpr ⟨spelled, complete.once⟩,
      (Verb.read_eq_ok_iff spelled complete.once).mpr ⟨n, complete, rfl⟩⟩

end Commands

structure Line where
  globals : List Given
  verb : Verb
  given : List Given

namespace Line

/-- The line is written as these arguments. -/
def Spells (l : Line) (arguments : List String) : Prop :=
  ∃ rest, Spelled Arguments.globalForms l.globals arguments (l.verb.name :: rest) ∧
    Spelled l.verb.forms l.given rest []

/-- What a line must have, with the numbers that it gives. -/
structure Formed (l : Line) (n : Numbers) : Prop where
  once : Once Arguments.globalForms l.globals
  collection : value? l.globals "collection" ≠ none
  complete : l.verb.Complete l.given n

def arguments (l : Line) (n : Numbers) : Arguments :=
  ⟨(value? l.globals "collection").getD "", value? l.globals "base-url", l.verb.command l.given n⟩

/-- Arguments are accepted exactly when they spell a line that is formed well. -/
theorem read_eq_ok_iff {arguments : List String} {a : Arguments} :
    Arguments.read arguments = .ok a ↔
      ∃ l n, Spells l arguments ∧ l.Formed n ∧ a = l.arguments n := by
  constructor
  · intro read
    obtain ⟨⟨globals, rest⟩, found, read⟩ := Json.bind_eq_ok.mp read
    obtain ⟨_, once, read⟩ := Json.bind_eq_ok.mp read
    cases rest with
    | nil => cases read
    | cons name rest =>
      obtain ⟨c, command, read⟩ := Json.bind_eq_ok.mp read
      obtain ⟨collection, required, same⟩ := Json.bind_eq_ok.mp read
      obtain ⟨verb, rfl⟩ := name_of_readCommand command
      obtain ⟨given, n, spelled, complete, rfl⟩ := readCommand_eq_ok_iff.mp command
      have named := requiredValue_eq_ok_iff.mp required
      refine ⟨⟨globals, verb, given⟩, n, ⟨rest, spelled_of_read found, spelled⟩,
        ⟨checkUse_eq_ok_iff.mp once, by simp [named], complete⟩, ?_⟩
      rw [Line.arguments, named]
      exact (Except.ok.inj same).symm
  · rintro ⟨l, n, ⟨rest, globals, given⟩, formed, rfl⟩
    obtain ⟨collection, named⟩ := Option.ne_none_iff_exists'.mp formed.collection
    refine Json.bind_eq_ok.mpr ⟨_, (readOptions_eq_ok_iff clear_globalForms).mpr globals, ?_⟩
    refine Json.bind_eq_ok.mpr ⟨(), checkUse_eq_ok_iff.mpr formed.once, ?_⟩
    refine Json.bind_eq_ok.mpr
      ⟨_, readCommand_eq_ok_iff.mpr ⟨l.given, n, given, formed.complete, rfl⟩, ?_⟩
    refine Json.bind_eq_ok.mpr ⟨collection, requiredValue_eq_ok_iff.mpr named, ?_⟩
    rw [Line.arguments, named]
    rfl

end Line
end Solr.CommandLine
