import Solr.Proofs.Calendar.Order
import Solr.Proofs.Clause.Values

/-! Dates and instants as the ends of ranges. In years of four digits their texts need no
protection within the quotes, and the order of the bytes is that of time. -/
namespace Solr.Clause

open Text (Cell)

/-- What stands for a value at an end of a range of dates. -/
def bound (v : Scalar) : List Char :=
  Range.endText DateTerm.text (some (.value v))

/-- The texts of two bounds, of which `least` says that the first is not the later one, and
`same` that no text can tell them apart. -/
structure InOrder (a b : Scalar) (cells : List Cell) (parts : List Nat)
    (least same : Prop) : Prop where
  within : ∀ f i j, (withinDates f ⟨i, some (.value a), j, some (.value b)⟩).toList =
    f.name.toList ++ ':' :: (if i then '[' else '{') :: bound a ++ " TO ".toList ++ bound b ++
      [if j then ']' else '}']
  quoted : ∃ s, a.literal = .text s ∧ bound a = '\"' :: s ++ ['\"'] ∧
    Cell.read? cells s = some parts
  ordered : least → bound a = bound b ∨
    Text.Before (String.ofList (bound a)) (String.ofList (bound b))
  same : bound a = bound b ↔ same

/-- The separators of cells that need no protection. -/
def Plain (cells : List Cell) : Prop :=
  ∀ c ∈ cells, ∀ x ∈ c.after, x ≠ '\"' ∧ x ≠ '\\'

theorem quote_plain {s : List Char} (plain : ∀ x ∈ s, x ≠ '\"' ∧ x ≠ '\\') :
    quote s = '\"' :: s ++ ['\"'] := by
  have kept : s.filter (· ≠ '\\') = s :=
    List.filter_eq_self.mpr fun x member => decide_eq_true (plain x member).2
  have unprotected : protect s = s := by
    induction s with
    | nil => rfl
    | cons x s ih =>
      obtain ⟨first, others⟩ := List.forall_mem_cons.mp plain
      have rest : protect s = s := ih others (List.filter_eq_self.mpr fun y member =>
        decide_eq_true (others y member).2)
      rw [protect, List.flatMap_cons, if_neg first.1]
      exact congrArg (x :: ·) rest
  rw [quote, kept, unprotected]

theorem plain_write {cells : List Cell} (plain : Plain cells) (values : List Nat) :
    ∀ x ∈ Cell.write cells values, x ≠ '\"' ∧ x ≠ '\\' := by
  intro x member
  rcases Cell.mem_write member with digit | ⟨c, inside, after⟩
  · constructor
    · rintro rfl
      exact absurd digit (by decide)
    · rintro rfl
      exact absurd digit (by decide)
  · exact plain c inside x after

theorem quoted_lt_iff {s t : List Char} (wide : s.length = t.length) :
    '\"' :: s ++ ['\"'] < '\"' :: t ++ ['\"'] ↔ s < t := by
  rw [Text.append_lt_append_iff (congrArg (· + 1) wide), List.cons_lt_cons_iff]
  simp

/-- A value whose text consists of cells. A text with a dash is no mark. -/
structure Laid (cells : List Cell) (v : Scalar) (parts : List Nat) : Prop where
  literal : v.literal = .text (Cell.write cells parts)
  fit : Cell.Fit cells parts
  dash : '-' ∈ Cell.write cells parts

theorem Laid.bound_eq {cells : List Cell} {v : Scalar} {parts : List Nat}
    (laid : Laid cells v parts) (plain : Plain cells) :
    bound v = '\"' :: Cell.write cells parts ++ ['\"'] := by
  have unmarked : Cell.write cells parts ∉ [now, wildcard] := by
    have apart : ∀ mark ∈ [now, wildcard], '-' ∉ mark := by decide
    exact fun member => apart _ member laid.dash
  rw [← quote_plain (plain_write plain parts)]
  change markedText [now, wildcard] v = _
  rw [markedText, laid.literal]
  exact if_neg unmarked

theorem inOrder {cells : List Cell} {a b : Scalar} {p q : List Nat} {least same : Prop}
    (left : Laid cells a p) (right : Laid cells b q) (plain : Plain cells)
    (ordered : least → ¬ q < p) (alike : p = q ↔ same) : InOrder a b cells p least same := by
  have boundA := left.bound_eq plain
  have boundB := right.bound_eq plain
  have wide : (Cell.write cells p).length = (Cell.write cells q).length := by
    rw [Cell.length_write left.fit, Cell.length_write right.fit]
  constructor
  case within =>
    intro f i j
    simp [withinDates, about, Range.text, bound]
  case quoted => exact ⟨_, left.literal, boundA, Cell.read?_write left.fit⟩
  case ordered =>
    intro holds
    rw [Text.before_iff_lt, String.lt_iff, String.toList_ofList, String.toList_ofList, boundA,
      boundB, quoted_lt_iff wide, Cell.write_lt_iff left.fit right.fit]
    rcases Std.lt_trichotomy p q with less | same | greater
    · exact .inr less
    · exact .inl (by rw [same])
    · exact absurd greater (ordered holds)
  case same =>
    rw [boundA, boundB, ← alike]
    constructor
    · intro texts
      have inner := (List.append_inj texts (congrArg (· + 1) wide)).1
      exact Cell.write_injective left.fit right.fit (List.cons.inj inner).2
    · rintro rfl
      rfl

theorem laid_instant {t : Instant} (four : Date.FourDigits t.date.year) :
    Laid Instant.cells (.instant t) t.parts where
  literal := congrArg _ (Instant.millisecondText_eq four)
  fit := Instant.fit_parts four
  dash := by simp [Instant.cells, Instant.parts, Date.parts, Cell.write]

theorem laid_date {d : Date} (four : Date.FourDigits d.year) :
    Laid Date.cells (.date d) d.parts where
  literal := congrArg _ (Date.filterText_eq four)
  fit := Date.fit_parts four
  dash := by simp [Date.cells, Date.parts, Cell.write]

/-- In years of four digits, the bound of an instant is not after that of a later one, and the
two are the same exactly within a millisecond; what is read off the text is the instant without
the rest of its fraction. Dates have the same law with days. -/
theorem bounds_in_order :
    (∀ a b : Instant, Date.FourDigits a.date.year → Date.FourDigits b.date.year →
      InOrder (.instant a) (.instant b) Instant.cells a.parts (a.position ≤ b.position)
        (a.SameMillisecond b)) ∧
    (∀ d e : Date, Date.FourDigits d.year → Date.FourDigits e.year →
      InOrder (.date d) (.date e) Date.cells d.parts (d.number ≤ e.number) (d = e)) := by
  constructor
  · intro a b left right
    have plain : Plain Instant.cells := by simp [Plain, Instant.cells]
    exact inOrder (laid_instant left) (laid_instant right) plain (Instant.not_parts_lt left right)
      (Instant.parts_eq_iff left right)
  · intro d e left right
    have plain : Plain Date.cells := by simp [Plain, Date.cells, Date.monthAndDayCells]
    refine inOrder (laid_date left) (laid_date right) plain (fun least less => ?_)
      (Date.parts_eq_iff left right)
    have before := (Date.parts_lt_iff right left).mp less
    exact absurd least (not_le.mpr before)

end Solr.Clause
