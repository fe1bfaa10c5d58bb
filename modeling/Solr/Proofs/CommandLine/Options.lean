import Mathlib.Data.List.Basic
import Solr.CommandLine.Arguments
import Solr.Proofs.Json.Recoding
import Solr.Proofs.Url.Form

/-! Which arguments spell which options. An option can be spelled in several ways, but
arguments spell one list of options at most. How the refusals are worded is not looked at, and
neither are requests for help or for the version. -/
namespace Solr.CommandLine

/-- A word, or the value of an option that stands by itself. -/
def IsWord (argument : String) : Prop :=
  argument = "-" ∨ argument.toList.head? ≠ some '-'

/-- An argument that gives an option, with the value that is part of it. -/
inductive Opens (form : OptionForm) : String → Option String → Prop
  | long : Opens form ("--" ++ form.name) none
  | longWith (value : String) : Opens form ("--" ++ form.name ++ "=" ++ value) (some value)
  | short {letter : Char} (named : form.letter = some letter) :
    Opens form (String.ofList ['-', letter]) none
  | shortEquals {letter : Char} (named : form.letter = some letter) (value : String) :
    Opens form (String.ofList ['-', letter, '='] ++ value) (some value)
  | shortWith {letter c : Char} (named : form.letter = some letter) (apart : c ≠ '=')
    (rest : List Char) :
    Opens form (String.ofList ('-' :: letter :: c :: rest)) (some (String.ofList (c :: rest)))

/-- The options that arguments spell up to the first word, and what is left from there on. -/
inductive Spelled (forms : List OptionForm) : List Given → List String → List String → Prop
  | nothing : Spelled forms [] [] []
  | word {word : String} (isWord : IsWord word) (rest : List String) :
    Spelled forms [] (word :: rest) (word :: rest)
  | closed : Spelled forms [] ["--"] []
  | flag {form : OptionForm} {argument : String} {given : List Given} {arguments rest : List String}
    (member : form ∈ forms) (use : form.use = .flag) (opens : Opens form argument none)
    (more : Spelled forms given arguments rest) :
    Spelled forms ((form.name, none) :: given) (argument :: arguments) rest
  | within {form : OptionForm} {argument value : String} {given : List Given}
    {arguments rest : List String} (member : form ∈ forms) (use : form.use ≠ .flag)
    (opens : Opens form argument (some value)) (more : Spelled forms given arguments rest) :
    Spelled forms ((form.name, some value) :: given) (argument :: arguments) rest
  | apart {form : OptionForm} {argument value : String} {given : List Given}
    {arguments rest : List String} (member : form ∈ forms) (use : form.use ≠ .flag)
    (opens : Opens form argument none) (isWord : IsWord value)
    (more : Spelled forms given arguments rest) :
    Spelled forms ((form.name, some value) :: given) (argument :: value :: arguments) rest

/-- A name or a letter stands for one option, and all of them can be spelled. -/
structure Clear (forms : List OptionForm) : Prop where
  names : ∀ f ∈ forms, ∀ g ∈ forms, f.name = g.name → f = g
  letters : ∀ f ∈ forms, ∀ g ∈ forms, f.letter = g.letter → f.letter ≠ none → f = g
  spelled : ∀ f ∈ forms, f.name ≠ "" ∧ '=' ∉ f.name.toList ∧ f.letter ≠ some '-'

section Shapes

theorem shape_word {argument : String} (isWord : IsWord argument) :
    Shape.of argument = .word := by
  obtain rfl | undashed := isWord
  · rfl
  · unfold Shape.of
    split <;> simp_all

theorem shape_dashes {s : List Char} (more : s ≠ []) :
    Shape.of (String.ofList ('-' :: '-' :: s)) =
      match Text.splitOnce? '=' s with
      | some (name, value) => .long (String.ofList name) (some (String.ofList value))
      | none => .long (String.ofList s) none := by
  cases s with
  | nil => exact absurd rfl more
  | cons c rest =>
    rw [Shape.of, String.toList_ofList]
    rfl

theorem shape_long {name : String} (notEmpty : name ≠ "") (plain : '=' ∉ name.toList) :
    Shape.of ("--" ++ name) = .long name none := by
  have chars : "--" ++ name = String.ofList ('-' :: '-' :: name.toList) := by
    simp [← String.toList_inj]
  rw [chars, shape_dashes (by simpa using notEmpty), Text.splitOnce?_of_notMem plain]
  simp

theorem shape_longWith {name : String} (plain : '=' ∉ name.toList) (value : String) :
    Shape.of ("--" ++ name ++ "=" ++ value) = .long name (some value) := by
  have chars : "--" ++ name ++ "=" ++ value =
      String.ofList ('-' :: '-' :: (name.toList ++ '=' :: value.toList)) := by
    simp [← String.toList_inj]
  rw [chars, shape_dashes (by simp), Text.splitOnce?_append plain]
  simp

theorem shape_short {letter : Char} (apart : letter ≠ '-') (rest : List Char) :
    Shape.of (String.ofList ('-' :: letter :: rest)) = .short letter rest := by
  unfold Shape.of
  rw [String.toList_ofList]
  split <;> simp_all

/-- Every argument has one of the forms above. -/
theorem shape_forms (argument : String) :
    IsWord argument ∨ argument = "--" ∨
    (∃ name value, '=' ∉ name.toList ∧ argument = "--" ++ name ++ "=" ++ value) ∨
    (∃ name, name ≠ "" ∧ '=' ∉ name.toList ∧ argument = "--" ++ name) ∨
    ∃ letter rest, letter ≠ '-' ∧ argument = String.ofList ('-' :: letter :: rest) := by
  by_cases isWord : IsWord argument
  · exact .inl isWord
  obtain ⟨alone, dashed⟩ := not_or.mp isWord
  refine .inr ?_
  obtain ⟨s, rfl⟩ : ∃ s, argument = String.ofList s := ⟨argument.toList, by simp⟩
  rw [String.toList_ofList, not_not] at dashed
  obtain ⟨rest, rfl⟩ := List.head?_eq_some_iff.mp dashed
  cases rest with
  | nil => exact absurd rfl alone
  | cons c rest =>
    by_cases again : c = '-'
    · subst again
      by_cases ended : rest = []
      · subst ended
        exact .inl rfl
      cases divided : Text.splitOnce? '=' rest with
      | none =>
        refine .inr (.inr (.inl ⟨String.ofList rest, by simpa using ended, ?_, ?_⟩))
        · simpa using Text.splitOnce?_eq_none_iff.mp divided
        · simp [← String.toList_inj]
      | some p =>
        obtain ⟨whole, plain⟩ := Text.splitOnce?_eq_some_iff.mp divided
        refine .inr (.inl ⟨String.ofList p.1, String.ofList p.2, by simpa using plain, ?_⟩)
        rw [whole]
        simp [← String.toList_inj]
    · exact .inr (.inr (.inr ⟨c, rest, again, rfl⟩))

end Shapes

section Reading

variable {forms : List OptionForm} {form : OptionForm} {argument : String} {value : Option String}

theorem find?_unique {p : OptionForm → Bool} (member : form ∈ forms) (holds : p form = true)
    (unique : ∀ f ∈ forms, p f = true → f = form) : forms.find? p = some form := by
  cases found : forms.find? p with
  | none => exact absurd holds (List.find?_eq_none.mp found form member)
  | some f => rw [unique f (List.mem_of_find?_eq_some found) (List.find?_some found)]

theorem find?_name (clear : Clear forms) (member : form ∈ forms) :
    forms.find? (·.name = form.name) = some form := by
  refine find?_unique member (by simp) fun f inside same => ?_
  exact clear.names f inside form member (by simpa using same)

theorem find?_letter (clear : Clear forms) (member : form ∈ forms) {letter : Char}
    (named : form.letter = some letter) :
    forms.find? (·.letter = some letter) = some form := by
  refine find?_unique member (by simp [named]) fun f inside same => ?_
  have same : f.letter = some letter := by simpa using same
  exact clear.letters f inside form member (by rw [same, named]) (by simp [same])

/-- An option that is found, with the arguments after it. -/
def taken (forms : List OptionForm) (form : OptionForm) (value : Option String)
    (rest : List String) : Except ArgumentError (List Given × List String) :=
  match form.use, value with
  | .flag, some _ => .error (.superfluousValue form.name)
  | .flag, none => do
    let (given, rest) ← readOptions forms none rest
    return ((form.name, none) :: given, rest)
  | _, some value => do
    let (given, rest) ← readOptions forms none rest
    return ((form.name, some value) :: given, rest)
  | _, none => readOptions forms (some form.name) rest

theorem taken_flag (use : form.use = .flag) (rest : List String) :
    taken forms form none rest =
      (readOptions forms none rest).map fun p => ((form.name, none) :: p.1, p.2) := by
  unfold taken
  rw [use]
  cases readOptions forms none rest <;> rfl

theorem taken_within (use : form.use ≠ .flag) (value : String) (rest : List String) :
    taken forms form (some value) rest =
      (readOptions forms none rest).map fun p => ((form.name, some value) :: p.1, p.2) := by
  unfold taken
  cases kind : form.use with
  | flag => exact absurd kind use
  | once | repeated => cases readOptions forms none rest <;> rfl

theorem taken_apart (use : form.use ≠ .flag) (rest : List String) :
    taken forms form none rest = readOptions forms (some form.name) rest := by
  unfold taken
  cases kind : form.use with
  | flag => exact absurd kind use
  | once | repeated => rfl

theorem readOptions_cons (forms : List OptionForm) (argument : String) (rest : List String) :
    readOptions forms none (argument :: rest) =
      match Shape.of argument with
      | .word => .ok ([], argument :: rest)
      | .wordsOnly =>
        match rest with
        | [] => .ok ([], [])
        | word :: _ => .error (.unexpectedWord word)
      | .long name value =>
        match forms.find? (·.name = name) with
        | some form => taken forms form value rest
        | none => .error (.unknownOption argument)
      | .short letter text =>
        match forms.find? (·.letter = some letter) with
        | some form => taken forms form (attached text) rest
        | none => .error (.unknownOption argument) := by
  rw [readOptions.eq_def]
  rfl

theorem readOptions_pending (forms : List OptionForm) {value : String} (isWord : IsWord value)
    (option : String) (rest : List String) :
    readOptions forms (some option) (value :: rest) =
      (readOptions forms none rest).map fun p => ((option, some value) :: p.1, p.2) := by
  rw [readOptions.eq_def]
  dsimp only
  rw [shape_word isWord]
  cases readOptions forms none rest <;> rfl

theorem readOptions_long (clear : Clear forms) (member : form ∈ forms)
    (shape : Shape.of argument = .long form.name value) (rest : List String) :
    readOptions forms none (argument :: rest) = taken forms form value rest := by
  rw [readOptions_cons, shape]
  dsimp only
  rw [find?_name clear member]

theorem readOptions_short (clear : Clear forms) (member : form ∈ forms) {letter : Char}
    (named : form.letter = some letter) (text : List Char) (rest : List String) :
    readOptions forms none (String.ofList ('-' :: letter :: text) :: rest) =
      taken forms form (attached text) rest := by
  have apart : letter ≠ '-' := fun same =>
    (clear.spelled form member).2.2 (by rw [named, same])
  rw [readOptions_cons, shape_short apart]
  dsimp only
  rw [find?_letter clear member named]

theorem attached_other {c : Char} (other : c ≠ '=') (rest : List Char) :
    attached (c :: rest) = some (String.ofList (c :: rest)) := by
  unfold attached
  split <;> simp_all

theorem readOptions_opens (clear : Clear forms) (member : form ∈ forms)
    (opens : Opens form argument value) (rest : List String) :
    readOptions forms none (argument :: rest) = taken forms form value rest := by
  obtain ⟨notEmpty, plain, -⟩ := clear.spelled form member
  cases opens with
  | long => exact readOptions_long clear member (shape_long notEmpty plain) rest
  | longWith value => exact readOptions_long clear member (shape_longWith plain value) rest
  | short named => exact readOptions_short clear member named [] rest
  | @shortEquals letter named value =>
    have chars : String.ofList ['-', letter, '='] ++ value =
        String.ofList ('-' :: letter :: '=' :: value.toList) := by
      simp [← String.toList_inj]
    rw [chars, readOptions_short clear member named, attached, String.ofList_toList]
  | shortWith named other text =>
    rw [readOptions_short clear member named, attached_other other]

/-- Arguments are read as the options that they spell. -/
theorem Spelled.read (clear : Clear forms) {given : List Given} {arguments rest : List String}
    (spelled : Spelled forms given arguments rest) :
    readOptions forms none arguments = .ok (given, rest) := by
  induction spelled with
  | nothing => rfl
  | word isWord rest => rw [readOptions_cons, shape_word isWord]
  | closed => rfl
  | flag member use opens _ ih =>
    rw [readOptions_opens clear member opens, taken_flag use, ih]
    rfl
  | within member use opens _ ih =>
    rw [readOptions_opens clear member opens, taken_within use, ih]
    rfl
  | apart member use opens isWord _ ih =>
    rw [readOptions_opens clear member opens, taken_apart use, readOptions_pending forms isWord, ih]
    rfl

theorem opens_long {name : String} (found : forms.find? (·.name = name) = some form) :
    form ∈ forms ∧ form.name = name :=
  ⟨List.mem_of_find?_eq_some found, by simpa using List.find?_some found⟩

theorem opens_short {letter : Char} (found : forms.find? (·.letter = some letter) = some form)
    (text : List Char) :
    form ∈ forms ∧ Opens form (String.ofList ('-' :: letter :: text)) (attached text) := by
  have named : form.letter = some letter := by simpa using List.find?_some found
  refine ⟨List.mem_of_find?_eq_some found, ?_⟩
  cases text with
  | nil => exact .short named
  | cons c text =>
    by_cases equals : c = '='
    · subst equals
      have chars : String.ofList ('-' :: letter :: '=' :: text) =
          String.ofList ['-', letter, '='] ++ String.ofList text := by
        simp [← String.toList_inj]
      rw [chars]
      exact .shortEquals named (String.ofList text)
    · rw [attached_other equals]
      exact .shortWith named equals text

/-- What stands first when arguments are read: a word, the end of the options, or an option. -/
theorem opens_of_read {arguments : List String} {result : List Given × List String}
    (read : readOptions forms none (argument :: arguments) = .ok result) :
    (IsWord argument ∧ result = ([], argument :: arguments)) ∨
    (argument = "--" ∧ arguments = [] ∧ result = ([], [])) ∨
    ∃ form ∈ forms, ∃ value, Opens form argument value ∧
      taken forms form value arguments = .ok result := by
  rw [readOptions_cons] at read
  obtain isWord | rfl | ⟨name, value, plain, rfl⟩ | ⟨name, notEmpty, plain, rfl⟩ |
    ⟨letter, text, apart, rfl⟩ := shape_forms argument
  · rw [shape_word isWord] at read
    exact .inl ⟨isWord, (Except.ok.inj read).symm⟩
  · cases arguments with
    | nil => exact .inr (.inl ⟨rfl, rfl, (Except.ok.inj read).symm⟩)
    | cons word _ => cases read
  · rw [shape_longWith plain] at read
    dsimp only at read
    split at read
    · rename_i form found
      obtain ⟨member, rfl⟩ := opens_long found
      exact .inr (.inr ⟨form, member, some value, .longWith value, read⟩)
    · cases read
  · rw [shape_long notEmpty plain] at read
    dsimp only at read
    split at read
    · rename_i form found
      obtain ⟨member, rfl⟩ := opens_long found
      exact .inr (.inr ⟨form, member, none, .long, read⟩)
    · cases read
  · rw [shape_short apart] at read
    dsimp only at read
    split at read
    · rename_i form found
      obtain ⟨member, opens⟩ := opens_short found text
      exact .inr (.inr ⟨form, member, _, opens, read⟩)
    · cases read

theorem isWord_of_shape (shape : Shape.of argument = .word) : IsWord argument := by
  obtain isWord | rfl | ⟨name, value, plain, rfl⟩ | ⟨name, notEmpty, plain, rfl⟩ |
    ⟨letter, text, apart, rfl⟩ := shape_forms argument
  · exact isWord
  · cases shape
  · rw [shape_longWith plain] at shape
    cases shape
  · rw [shape_long notEmpty plain] at shape
    cases shape
  · rw [shape_short apart] at shape
    cases shape

/-- An option that waits for its value gets a word. -/
theorem pending_of_read {arguments : List String} {option : String}
    {result : List Given × List String}
    (read : readOptions forms (some option) arguments = .ok result) :
    ∃ value rest others, arguments = value :: rest ∧ IsWord value ∧
      readOptions forms none rest = .ok others ∧
      result = ((option, some value) :: others.1, others.2) := by
  cases arguments with
  | nil => cases read
  | cons value rest =>
    by_cases isWord : IsWord value
    · rw [readOptions_pending forms isWord] at read
      obtain ⟨others, found, same⟩ := Json.map_eq_ok.mp read
      exact ⟨value, rest, others, rfl, isWord, found, same.symm⟩
    · rw [readOptions.eq_def] at read
      dsimp only at read
      split at read
      · rename_i shape
        exact absurd (isWord_of_shape shape) isWord
      · cases read

/-- Arguments that are read spell the options that they are read as. -/
theorem spelled_of_read {given : List Given} {arguments rest : List String}
    (read : readOptions forms none arguments = .ok (given, rest)) :
    Spelled forms given arguments rest := by
  -- By the number of arguments: an option takes one or two of them.
  match arguments with
  | [] =>
    cases read
    exact .nothing
  | argument :: arguments =>
    obtain ⟨isWord, same⟩ | ⟨rfl, rfl, same⟩ | ⟨form, member, value, opens, read⟩ :=
      opens_of_read read
    · cases same
      exact .word isWord arguments
    · cases same
      exact .closed
    · by_cases use : form.use = .flag
      · cases value with
        | some value =>
          simp [taken, use] at read
        | none =>
          rw [taken_flag use] at read
          obtain ⟨others, found, same⟩ := Json.map_eq_ok.mp read
          cases same
          exact .flag member use opens (spelled_of_read found)
      · cases value with
        | some value =>
          rw [taken_within use] at read
          obtain ⟨others, found, same⟩ := Json.map_eq_ok.mp read
          cases same
          exact .within member use opens (spelled_of_read found)
        | none =>
          rw [taken_apart use] at read
          obtain ⟨value, _, others, rfl, isWord, found, same⟩ := pending_of_read read
          cases same
          exact .apart member use opens isWord (spelled_of_read found)
  termination_by arguments.length

theorem readOptions_eq_ok_iff (clear : Clear forms) {given : List Given}
    {arguments rest : List String} :
    readOptions forms none arguments = .ok (given, rest) ↔ Spelled forms given arguments rest :=
  ⟨spelled_of_read, Spelled.read clear⟩

end Reading

/-- Each option is given once at most, except those that can be repeated. -/
def Once (forms : List OptionForm) (given : List Given) : Prop :=
  ∀ form ∈ forms, form.use ≠ .repeated → (given.filter (·.1 = form.name)).length ≤ 1

section Values

variable {forms : List OptionForm} {given : List Given} {name : String}

theorem checkUse_eq_ok_iff {u : Unit} : checkUse forms given = .ok u ↔ Once forms given := by
  unfold checkUse
  split
  · rename_i form found
    have fault := List.find?_some found
    simp only [ne_eq, Bool.decide_and, Bool.and_eq_true, decide_eq_true_eq] at fault
    refine iff_of_false (fun done => by cases done) fun once => ?_
    exact absurd (once form (List.mem_of_find?_eq_some found) fault.1) (by omega)
  · rename_i missing
    refine iff_of_true rfl fun form member use => ?_
    have none := List.find?_eq_none.mp missing form member
    simp only [ne_eq, Bool.decide_and, Bool.and_eq_true, decide_eq_true_eq, not_and] at none
    exact Nat.le_of_not_lt (none use)

/-- The options of a command that takes no words. -/
theorem options_eq_ok_iff (clear : Clear forms) {arguments : List String} :
    Arguments.options forms arguments = .ok given ↔
      Spelled forms given arguments [] ∧ Once forms given := by
  rw [← readOptions_eq_ok_iff clear, ← checkUse_eq_ok_iff (u := ())]
  unfold Arguments.options readAll
  cases readOptions forms none arguments with
  | error e => simp [bind, Except.bind]
  | ok p =>
    obtain ⟨read, rest⟩ := p
    cases rest with
    | cons word rest => simp [bind, Except.bind, throw, throwThe, MonadExceptOf.throw]
    | nil =>
      simp only [Json.bind_eq_ok, pure, Except.pure, Except.ok.injEq, Prod.mk.injEq, and_true]
      constructor
      · rintro ⟨_, ⟨_, rfl, same⟩, _, once, rfl⟩
        cases same
        exact ⟨rfl, once⟩
      · rintro ⟨rfl, once⟩
        exact ⟨read, ⟨_, rfl, rfl⟩, (), once, rfl⟩

theorem requiredValue_eq_ok_iff {value : String} :
    requiredValue given name = .ok value ↔ value? given name = some value := by
  unfold requiredValue
  cases value? given name <;> simp

theorem typedValue?_eq_ok_iff {α : Type} {read : String → Option α} {a : Option α} :
    typedValue? given name read = .ok a ↔
      Option.Rel (fun text a => read text = some a) (value? given name) a := by
  unfold typedValue?
  cases value? given name with
  | none => cases a <;> simp
  | some text => cases found : read text <;> cases a <;> simp [found]

/-- What is spelled is among the forms. -/
theorem Spelled.named {arguments rest : List String}
    (spelled : Spelled forms given arguments rest) :
    ∀ g ∈ given, ∃ form ∈ forms, form.name = g.1 := by
  induction spelled with
  | nothing | word | closed => simp
  | flag member _ _ _ ih | within member _ _ _ ih | apart member _ _ _ _ ih =>
    exact List.forall_mem_cons.mpr ⟨⟨_, member, rfl⟩, ih⟩

theorem Spelled.filter_other {arguments rest : List String}
    (spelled : Spelled forms given arguments rest) (other : ∀ form ∈ forms, form.name ≠ name) :
    given.filter (·.1 = name) = [] := by
  refine List.filter_eq_nil_iff.mpr fun g member same => ?_
  obtain ⟨form, inside, named⟩ := spelled.named g member
  exact other form inside (named.trans (by simpa using same))

theorem Spelled.values_other {arguments rest : List String}
    (spelled : Spelled forms given arguments rest) (other : ∀ form ∈ forms, form.name ≠ name) :
    values given name = [] := by
  rw [values, spelled.filter_other other, List.filterMap_nil]

end Values

end Solr.CommandLine
