import Solr.Proofs.Query.Keys
import Solr.Proofs.Text.Numerals
import Solr.Proofs.Url.Form

/-! Lists that are sent as one text. As long as the fields have names that can be declared, no
name and no weight has a separator in it, and the lists are found again in their texts. -/
namespace Solr

namespace Text

variable {separator : Char}

/-- What stands before and after the last separator, if there is one. -/
def splitLast? (separator : Char) (s : List Char) : Option (List Char × List Char) :=
  (splitOnce? separator s.reverse).map fun p => (p.2.reverse, p.1.reverse)

theorem splitLast?_append {after : List Char} (absent : separator ∉ after) (before : List Char) :
    splitLast? separator (before ++ separator :: after) = some (before, after) := by
  have reversed : (before ++ separator :: after).reverse =
      after.reverse ++ separator :: before.reverse := by simp
  rw [splitLast?, reversed, splitOnce?_append (by simpa using absent)]
  simp

/-- The pieces of a text. -/
def pieces (separator : Char) (text : String) : List String :=
  (splitAt separator text.toList).map String.ofList

theorem pieces_intercalate {texts : List String} (some : texts ≠ [])
    (absent : ∀ t ∈ texts, separator ∉ t.toList) :
    pieces separator ((String.singleton separator).intercalate texts) = texts := by
  have each : ∀ p ∈ texts.map String.toList, separator ∉ p := by
    simpa using absent
  rw [pieces, String.toList_intercalate, String.toList_singleton,
    splitAt_intercalate (by simpa using some) each, List.map_map]
  exact (List.map_congr_left fun _ _ => String.ofList_toList).trans (List.map_id texts)

end Text

namespace Query

open Parameters (pairs texts)

/-- What a name that is declared has of ASCII: letters, digits and underscores, and `#` in the
mark of a name that would be a word of the language. -/
def Declarable (name : String) : Prop :=
  ∀ c ∈ name.toList, c.toNat < 128 → c.isAlphanum ∨ c = '_' ∨ c = '#'

instance (name : String) : Decidable (Declarable name) :=
  List.decidableBAll (fun c : Char => c.toNat < 128 → c.isAlphanum ∨ c = '_' ∨ c = '#')
    name.toList

/-- The weight of a field, if it says anything. -/
def SearchedField.counted (f : SearchedField) : Option Double :=
  f.weight.filter fun w => !(w.isZero || w.isNaN)

/-- A field and its order, from the two sides of the last blank. -/
def readSortKey? (text : String) : Option (String × Order) :=
  (Text.splitLast? ' ' text.toList).bind fun p =>
    (Order.names.lookup (String.ofList p.2)).map (String.ofList p.1, ·)

/-- A field and its weight, from the two sides of a caret. -/
def readSearchedField (text : String) : String × Option String :=
  match Text.splitOnce? '^' text.toList with
  | some (name, weight) => (String.ofList name, some (String.ofList weight))
  | none => (text, none)

/-- The texts of a key. -/
def textsOf (parameters : Parameters) (key : String) : List String :=
  (parameters.filter fun p => p.1 = key).map (·.2)

/-- The fields of a description have names that can be declared. -/
structure Description.Declarable (d : Description) : Prop where
  fields : ∀ f ∈ d.search.fields, Query.Declarable f.name
  sorts : ∀ s ∈ d.search.sorts, Query.Declarable s.field.name
  searched : ∀ f ∈ d.ranking.fields, Query.Declarable f.field.name

/-- The characters that stand between the items of lists, and within them. -/
def separators : List Char :=
  [',', ' ', '^']

theorem Declarable.notMem {name : String} (declarable : Declarable name) {c : Char}
    (separator : c ∈ separators) : c ∉ name.toList := by
  have apart : separators.all
      (fun c => c.toNat < 128 ∧ ¬ (c.isAlphanum ∨ c = '_' ∨ c = '#')) = true := by decide
  intro member
  obtain ⟨ascii, other⟩ := of_decide_eq_true (List.all_eq_true.mp apart c separator)
  exact other (declarable c member ascii)

theorem notMem_plainText {c : Char} (separator : c ∈ separators) (w : Double) :
    c ∉ w.plainText := by
  have apart : separators.all (fun c => ¬ NumeralChar c) = true := by decide
  intro member
  have noNumeral := of_decide_eq_true (List.all_eq_true.mp apart c separator)
  exact noNumeral (w.numeralText_plainText.chars c member)

theorem SearchedField.text_eq (f : SearchedField) : f.text =
    f.counted.elim f.field.name fun w => f.field.name ++ "^" ++ String.ofList w.plainText := by
  obtain ⟨field, weight⟩ := f
  cases weight with
  | none => rfl
  | some w =>
    rw [text, counted, Option.filter_some]
    dsimp only
    by_cases idle : (w.isZero || w.isNaN) = true
    · rw [if_pos idle, idle]
      rfl
    · rw [if_neg idle, Bool.eq_false_iff.mpr idle]
      rfl

theorem SortKey.notMem_text {s : SortKey} (declarable : Declarable s.field.name) :
    ',' ∉ s.text.toList := by
  have order : ',' ∉ s.order.name.toList := by cases s.order <;> decide
  simpa [text, declarable.notMem (c := ',') (by decide)] using order

theorem SearchedField.notMem_text {f : SearchedField} (declarable : Declarable f.field.name) :
    ' ' ∉ f.text.toList := by
  have name : ' ' ∉ f.field.name.toList := declarable.notMem (by decide)
  rw [f.text_eq]
  cases f.counted with
  | none => exact name
  | some w => simpa [name] using notMem_plainText (by decide) w

theorem readSortKey?_text (s : SortKey) : readSortKey? s.text = some (s.field.name, s.order) := by
  obtain ⟨field, order⟩ := s
  have blank : ' ' ∉ order.name.toList := by cases order <;> decide
  have named : Order.names.lookup order.name = some order := by cases order <;> decide
  have split : Text.splitLast? ' ' (SortKey.text ⟨field, order⟩).toList =
      some (field.name.toList, order.name.toList) := by
    rw [← Text.splitLast?_append blank, SortKey.text]
    simp
  rw [readSortKey?, split]
  simp [named]

theorem readSearchedField_text {f : SearchedField} (declarable : Declarable f.field.name) :
    readSearchedField f.text =
      (f.field.name, f.counted.map fun w => String.ofList w.plainText) := by
  have plain : '^' ∉ f.field.name.toList := declarable.notMem (by decide)
  rw [readSearchedField, f.text_eq]
  cases f.counted with
  | none => simp [Text.splitOnce?_of_notMem plain]
  | some w =>
    have split := Text.splitOnce?_append plain w.plainText
    simp [split]

/-- A list is read from its one text, and has no text if it is empty. -/
theorem map_joined {α β : Type} (separator : Char) (read : List String → β) {items : List α}
    {text : α → String} (absent : ∀ a ∈ items, separator ∉ (text a).toList) :
    (joined (String.singleton separator) (items.map text)).toList.map
        (fun t => read (Text.pieces separator t)) =
      if items = [] then [] else [read (items.map text)] := by
  by_cases empty : items = []
  · subst empty
    rfl
  · have some : items.map text ≠ [] := by simpa using empty
    rw [joined, if_neg some, if_neg empty, Option.toList_some, List.map_singleton,
      Text.pieces_intercalate some (by simpa using absent)]

namespace Description

theorem textsOf_joined (d : Description) (kind : Kind) {key separator : String}
    {items : List String} (member : (key, ofText (joined separator items)) ∈ d.members kind) :
    textsOf (pairs (Entries.ofList (d.members kind))) key = (joined separator items).toList := by
  rw [textsOf, filter_parameters d kind member, texts_ofText, List.map_map]
  exact List.map_id _

/-- The lists of a description are found again in its parameters: the fields that are shown, the
sort keys, and the fields that are searched, each of these with its weight if it counts. There is
no parameter for an empty list, and one for any other. -/
theorem lists_divided (d : Description) (declarable : d.Declarable) :
    (∀ kind, ∃ parameters, d.parameters kind = .ok parameters ∧
      (textsOf parameters "fl").map (Text.pieces ',') =
        (if d.search.fields = [] then [] else [d.search.fields.map Field.name]) ∧
      (textsOf parameters "sort").map (fun t => (Text.pieces ',' t).map readSortKey?) =
        (if d.search.sorts = [] then []
          else [d.search.sorts.map fun s => some (s.field.name, s.order)])) ∧
    ∃ parameters, d.parameters .ranked = .ok parameters ∧
      (textsOf parameters "qf").map (Text.pieces ' ') =
        (if d.ranking.fields = [] then []
          else [d.ranking.fields.map fun f => f.counted.elim f.field.name
            fun w => f.field.name ++ "^" ++ String.ofList w.plainText]) ∧
      (textsOf parameters "qf").map (fun t => (Text.pieces ' ' t).map readSearchedField) =
        (if d.ranking.fields = [] then []
          else [d.ranking.fields.map fun f =>
            (f.field.name, f.counted.map fun w => String.ofList w.plainText)]) := by
  constructor
  · intro kind
    have fields : ("fl", ofText (joined "," (d.search.fields.map Field.name))) ∈
        d.members kind := by
      cases kind <;> simp [members, Search.members]
    have sorts : ("sort", ofText (joined "," (d.search.sorts.map SortKey.text))) ∈
        d.members kind := by
      cases kind <;> simp [members, Search.members]
    refine ⟨_, d.parameters_eq kind, ?_, ?_⟩
    · rw [d.textsOf_joined kind fields]
      exact map_joined ',' id fun f member => (declarable.fields f member).notMem (by decide)
    · have keys : (d.search.sorts.map SortKey.text).map readSortKey? =
          d.search.sorts.map fun s => some (s.field.name, s.order) := by
        rw [List.map_map]
        exact List.map_congr_left fun s _ => readSortKey?_text s
      rw [d.textsOf_joined kind sorts, ← keys]
      exact map_joined ',' (List.map readSortKey?) fun s member =>
        SortKey.notMem_text (declarable.sorts s member)
  · have searched : ("qf", ofText (joined " " (d.ranking.fields.map SearchedField.text))) ∈
        d.members .ranked := by
      simp [members, Ranking.members]
    have absent : ∀ f ∈ d.ranking.fields, ' ' ∉ f.text.toList := fun f member =>
      SearchedField.notMem_text (declarable.searched f member)
    refine ⟨_, d.parameters_eq .ranked, ?_, ?_⟩
    · have texts : d.ranking.fields.map SearchedField.text = d.ranking.fields.map fun f =>
          f.counted.elim f.field.name fun w => f.field.name ++ "^" ++ String.ofList w.plainText :=
        List.map_congr_left fun f _ => f.text_eq
      rw [d.textsOf_joined .ranked searched, ← texts]
      exact map_joined ' ' id absent
    · have weights : (d.ranking.fields.map SearchedField.text).map readSearchedField =
          d.ranking.fields.map fun f =>
            (f.field.name, f.counted.map fun w => String.ofList w.plainText) := by
        rw [List.map_map]
        exact List.map_congr_left fun f member =>
          readSearchedField_text (declarable.searched f member)
      rw [d.textsOf_joined .ranked searched, ← weights]
      exact map_joined ' ' (List.map readSearchedField) absent

/-- Names beyond ASCII and a name with a mark; no weight, none that counts, and none that is
finite. -/
theorem lists_divided_marked :
    ∃ search ranking parameters,
      search.sorts = [⟨⟨"année"⟩, .descending⟩, ⟨⟨"r#type"⟩, .ascending⟩] ∧
      ranking.fields = [⟨⟨"titre"⟩, none⟩, ⟨⟨"r#type"⟩, some .nan⟩,
        ⟨⟨"année"⟩, some (.infinity true)⟩] ∧
      Description.parameters ⟨search, ranking, .empty, []⟩ .ranked = .ok parameters ∧
      (textsOf parameters "sort").map (fun t => (Text.pieces ',' t).map readSortKey?) =
        [[some ("année", .descending), some ("r#type", .ascending)]] ∧
      (textsOf parameters "qf").map (Text.pieces ' ') = [["titre", "r#type", "année^-inf"]] := by
  let search : Search :=
    { Search.empty with sorts := [⟨⟨"année"⟩, .descending⟩, ⟨⟨"r#type"⟩, .ascending⟩] }
  let ranking : Ranking := { Ranking.empty with fields :=
    [⟨⟨"titre"⟩, none⟩, ⟨⟨"r#type"⟩, some .nan⟩, ⟨⟨"année"⟩, some (.infinity true)⟩] }
  obtain ⟨standard, parameters, sent, pieces, -⟩ :=
    lists_divided ⟨search, ranking, .empty, []⟩ ⟨by decide, by decide, by decide⟩
  obtain ⟨same, ranked, -, sorts⟩ := standard .ranked
  obtain rfl := Except.ok.inj (ranked.symm.trans sent)
  exact ⟨search, ranking, same, rfl, rfl, sent, sorts, pieces.trans (by decide +kernel)⟩

end Description
end Query
end Solr
