import Mathlib.Data.Prod.Lex
import Solr.Proofs.Calendar.Dates
import Solr.Proofs.Text.Order

/-! Dates and instants in the order of time: days are counted, and within a day seconds and
nanoseconds. In years of four digits the texts that stand for them in ranges have the same
order, as far as milliseconds go, and can be read back. -/
namespace Solr

open Text (Cell)

namespace Calendar

/-- The days of a year before the first of a month. -/
def daysBeforeMonth (year : Int) : Nat → Nat
  | 0 | 1 => 0
  | month + 2 => daysBeforeMonth year (month + 1) + daysInMonth year (month + 1)

/-- The days before a year, counted from the first of January of year 0. -/
def daysBeforeYear (year : Int) : Int :=
  365 * year + (year + 3) / 4 - (year + 99) / 100 + (year + 399) / 400

def daysInYear (year : Int) : Nat :=
  if isLeap year then 366 else 365

theorem daysBeforeMonth_succ {year : Int} {month : Nat} (first : 1 ≤ month) :
    daysBeforeMonth year (month + 1) = daysBeforeMonth year month + daysInMonth year month := by
  cases month with
  | zero => exact absurd first (Nat.not_succ_le_zero 0)
  | succ month => rfl

theorem daysBeforeMonth_le {year : Int} {m n : Nat} (first : 1 ≤ m) (less : m < n) :
    daysBeforeMonth year m + daysInMonth year m ≤ daysBeforeMonth year n := by
  induction n with
  | zero => exact absurd less (Nat.not_lt_zero m)
  | succ n ih =>
    rw [daysBeforeMonth_succ (by omega)]
    rcases Nat.lt_succ_iff_lt_or_eq.mp less with earlier | rfl
    · exact Nat.le_trans (ih earlier) (Nat.le_add_right _ _)
    · exact Nat.le_refl _

theorem daysInYear_eq (year : Int) :
    daysBeforeMonth year 12 + daysInMonth year 12 = daysInYear year := by
  cases leap : isLeap year <;> simp [daysBeforeMonth, daysInMonth, daysInYear, leap]

theorem daysBeforeYear_succ (year : Int) :
    daysBeforeYear (year + 1) = daysBeforeYear year + daysInYear year := by
  unfold daysBeforeYear daysInYear
  cases leap : isLeap year with
  | true =>
    simp only [isLeap, Bool.and_eq_true, Bool.or_eq_true, decide_eq_true_eq] at leap
    rw [if_pos rfl]
    omega
  | false =>
    simp only [isLeap, Bool.and_eq_false_iff, Bool.or_eq_false_iff, decide_eq_false_iff_not] at leap
    rw [if_neg Bool.false_ne_true]
    omega

theorem daysBeforeYear_le {y z : Int} (least : y ≤ z) : daysBeforeYear y ≤ daysBeforeYear z := by
  unfold daysBeforeYear
  omega

end Calendar

open Calendar

namespace Date

/-- The place of a date among all days. -/
def number (d : Date) : Int :=
  daysBeforeYear d.year + (daysBeforeMonth d.year d.month + d.day : Nat)

theorem ofParts?_eq_some {year : Int} {month day : Nat} (valid : ValidDate year month day) :
    ofParts? year month day = some ⟨year, month, day, valid⟩ :=
  dif_pos valid

theorem ofParts?_eq_none {year : Int} {month day : Nat} (invalid : ¬ ValidDate year month day) :
    ofParts? year month day = none :=
  dif_neg invalid

/-- The day after has the next number, also across months and years. -/
theorem number_next (d : Date) : d.next.number = d.number + 1 := by
  obtain ⟨least, most, first, last⟩ := d.valid
  rw [next]
  by_cases inside : ValidDate d.year d.month (d.day + 1)
  · simp only [ofParts?_eq_some inside, Option.some_or, Option.getD_some, number]
    omega
  have full : d.day = daysInMonth d.year d.month := by
    by_contra short
    exact inside ⟨least, most, by omega, by omega⟩
  rw [ofParts?_eq_none inside, Option.none_or]
  by_cases later : ValidDate d.year (d.month + 1) 1
  · simp only [ofParts?_eq_some later, Option.getD_some, number, daysBeforeMonth_succ least]
    omega
  · have december : d.month = 12 := by
      by_contra early
      exact later ⟨by omega, by omega, le_refl 1, (daysInMonth_bounds d.year (d.month + 1)).1⟩
    have january : daysBeforeMonth (d.year + 1) 1 = 0 := rfl
    have year := daysInYear_eq d.year
    rw [← december] at year
    simp only [ofParts?_eq_none later, Option.getD_none, number, daysBeforeYear_succ, january]
    omega

theorem number_lt_of_lt {d e : Date}
    (less : d.year < e.year ∨ d.year = e.year ∧
      (d.month < e.month ∨ d.month = e.month ∧ d.day < e.day)) : d.number < e.number := by
  obtain ⟨least, most, first, last⟩ := d.valid
  have := e.valid.2.2.1
  unfold number
  rcases less with earlier | ⟨year, earlier | ⟨month, earlier⟩⟩
  · have : daysBeforeMonth d.year d.month + daysInMonth d.year d.month ≤ daysInYear d.year := by
      rw [← daysInYear_eq]
      rcases Nat.lt_or_eq_of_le most with before | december
      · exact Nat.le_trans (daysBeforeMonth_le least before) (Nat.le_add_right _ _)
      · rw [december]
    have := daysBeforeYear_succ d.year
    have := daysBeforeYear_le (show d.year + 1 ≤ e.year by omega)
    omega
  · rw [← year]
    have : daysBeforeMonth d.year d.month + daysInMonth d.year d.month ≤
        daysBeforeMonth d.year e.month := daysBeforeMonth_le least earlier
    omega
  · rw [← year, ← month]
    omega

theorem eq_of_parts {d e : Date} (year : d.year = e.year) (month : d.month = e.month)
    (day : d.day = e.day) : d = e := by
  cases d
  cases e
  cases year
  cases month
  cases day
  rfl

/-- Days are counted in the order of year, month and day. -/
theorem number_lt_iff (d e : Date) :
    d.number < e.number ↔ d.year < e.year ∨ d.year = e.year ∧
      (d.month < e.month ∨ d.month = e.month ∧ d.day < e.day) := by
  refine ⟨fun less => ?_, number_lt_of_lt⟩
  by_contra notBefore
  by_cases same : d = e
  · rw [same] at less
    exact lt_irrefl _ less
  · have other : ¬ (d.year = e.year ∧ d.month = e.month ∧ d.day = e.day) :=
      fun ⟨year, month, day⟩ => same (eq_of_parts year month day)
    have after : e.number < d.number := number_lt_of_lt (by omega)
    omega

theorem number_eq_iff (d e : Date) : d.number = e.number ↔ d = e := by
  refine ⟨fun same => ?_, congrArg number⟩
  have notBefore := mt (number_lt_iff d e).mpr (by omega)
  have notAfter := mt (number_lt_iff e d).mpr (by omega)
  exact eq_of_parts (by omega) (by omega) (by omega)

/-- The years that have four digits and no sign. -/
def FourDigits (year : Int) : Prop :=
  0 ≤ year ∧ year ≤ 9999

def parts (d : Date) : List Nat :=
  [d.year.toNat, d.month, d.day]

/-- A year, a month and a day with dashes between them. -/
def cells : List Cell :=
  ⟨4, ['-']⟩ :: monthAndDayCells

theorem fit_parts {d : Date} (four : FourDigits d.year) : Cell.Fit cells d.parts := by
  obtain ⟨least, most⟩ := four
  have year : d.year.toNat < 10 ^ 4 := by omega
  exact .cons ⟨by decide, year⟩ d.fit_monthAndDay

theorem natAbs_year {d : Date} (four : FourDigits d.year) : d.year.natAbs = d.year.toNat := by
  have := four.1
  omega

theorem filterText_eq {d : Date} (four : FourDigits d.year) :
    d.filterText = Cell.write cells d.parts := by
  have positive : ¬ d.year < 0 := by have := four.1; omega
  simp [filterText, plainYear, positive, natAbs_year four, monthAndDay_eq, Cell.write, cells,
    parts]

theorem text_eq {d : Date} (four : FourDigits d.year) :
    d.text = Cell.write cells d.parts := by
  have plain : 0 ≤ d.year ∧ d.year ≤ 9999 := four
  rw [text, yearText, if_pos plain, natAbs_year four]
  simp [monthAndDay_eq, Cell.write, cells, parts]

theorem parts_lt_iff {d e : Date} (left : FourDigits d.year) (right : FourDigits e.year) :
    d.parts < e.parts ↔ d.number < e.number := by
  obtain ⟨least, -⟩ := left
  obtain ⟨least', -⟩ := right
  rw [number_lt_iff]
  simp only [parts, List.cons_lt_cons_iff, List.lt_irrefl, and_false, or_false]
  constructor <;> intro less <;> omega

theorem parts_eq_iff {d e : Date} (left : FourDigits d.year) (right : FourDigits e.year) :
    d.parts = e.parts ↔ d = e := by
  refine ⟨fun same => ?_, congrArg parts⟩
  obtain ⟨least, -⟩ := left
  obtain ⟨least', -⟩ := right
  simp only [parts, List.cons.injEq] at same
  exact eq_of_parts (by omega) (by omega) (by omega)

end Date

namespace Instant

/-- The place of an instant in time: its day, the second of this day, and the nanosecond,
which goes on counting in a leap second. -/
def position (t : Instant) : Int ×ₗ Nat ×ₗ Nat :=
  toLex (t.date.number, toLex (t.secondOfDay, t.nano))

theorem position_le_iff (a b : Instant) :
    a.position ≤ b.position ↔ a.date.number < b.date.number ∨ a.date.number = b.date.number ∧
      (a.secondOfDay < b.secondOfDay ∨ a.secondOfDay = b.secondOfDay ∧ a.nano ≤ b.nano) := by
  rw [position, position, Prod.Lex.toLex_le_toLex, Prod.Lex.toLex_le_toLex]

/-- Those of a leap second are not those of the second before. -/
structure SameMillisecond (a b : Instant) : Prop where
  day : a.date = b.date
  second : a.secondOfDay = b.secondOfDay
  millisecond : a.nano / 1000000 = b.nano / 1000000

/-- The second that is written; a leap second is the sixtieth. -/
def writtenSecond (t : Instant) : Nat :=
  if 1000000000 ≤ t.nano then 60 else t.second

/-- The parts of the time of day, cut off after the milliseconds. -/
def clockParts (t : Instant) : List Nat :=
  [t.hour, t.minute, t.writtenSecond, t.nano % 1000000000 / 1000000]

def parts (t : Instant) : List Nat :=
  t.date.parts ++ t.clockParts

/-- A date and a time of day, with a letter after each. -/
def cells : List Cell :=
  [⟨4, ['-']⟩, ⟨2, ['-']⟩, ⟨2, ['T']⟩, ⟨2, [':']⟩, ⟨2, [':']⟩, ⟨2, ['.']⟩, ⟨3, ['Z']⟩]

theorem writtenSecond_eq (t : Instant) : t.second + t.nano / 1000000000 = t.writtenSecond := by
  obtain ⟨-, -, -, most, leap⟩ := t.valid
  unfold writtenSecond
  split <;> omega

theorem fit_parts {t : Instant} (four : Date.FourDigits t.date.year) :
    Cell.Fit cells t.parts := by
  obtain ⟨hours, minutes, seconds, -, -⟩ := t.valid
  obtain ⟨least, most⟩ := four
  have year : t.date.year.toNat < 10 ^ 4 := by omega
  have hour : t.hour < 10 ^ 2 := by omega
  have minute : t.minute < 10 ^ 2 := by omega
  have written : t.writtenSecond < 10 ^ 2 := by
    unfold writtenSecond
    split <;> omega
  have millisecond : t.nano % 1000000000 / 1000000 < 10 ^ 3 := by omega
  exact .cons ⟨by decide, year⟩ (.cons ⟨by decide, t.date.month_lt⟩
    (.cons ⟨by decide, t.date.day_lt⟩ (.cons ⟨by decide, hour⟩ (.cons ⟨by decide, minute⟩
      (.cons ⟨by decide, written⟩ (.cons ⟨by decide, millisecond⟩ .nil))))))

theorem millisecondText_eq {t : Instant} (four : Date.FourDigits t.date.year) :
    t.millisecondText = Cell.write cells t.parts := by
  rw [millisecondText, Date.text_eq four, clock, writtenSecond_eq]
  simp [Date.cells, Date.monthAndDayCells, Date.parts, cells, parts, clockParts, Cell.write,
    millisecond, fraction]

theorem clockParts_lt_iff (a b : Instant) :
    a.clockParts < b.clockParts ↔ a.secondOfDay < b.secondOfDay ∨
      a.secondOfDay = b.secondOfDay ∧ a.nano / 1000000 < b.nano / 1000000 := by
  obtain ⟨-, minute, second, most, leap⟩ := a.valid
  obtain ⟨-, minute', second', most', leap'⟩ := b.valid
  simp only [clockParts, List.cons_lt_cons_iff, List.lt_irrefl, and_false, or_false, writtenSecond,
    secondOfDay]
  split <;> split <;> constructor <;> intro less <;> omega

theorem clockParts_eq_iff (a b : Instant) :
    a.clockParts = b.clockParts ↔
      a.secondOfDay = b.secondOfDay ∧ a.nano / 1000000 = b.nano / 1000000 := by
  obtain ⟨-, minute, second, most, leap⟩ := a.valid
  obtain ⟨-, minute', second', most', leap'⟩ := b.valid
  simp only [clockParts, List.cons.injEq, and_true, writtenSecond, secondOfDay]
  split <;> split <;> constructor <;> intro same <;> omega

/-- What the texts say later is not earlier in time. -/
theorem not_parts_lt {a b : Instant} (left : Date.FourDigits a.date.year)
    (right : Date.FourDigits b.date.year) (least : a.position ≤ b.position) :
    ¬ b.parts < a.parts := by
  have wide : b.date.parts.length = a.date.parts.length := rfl
  rw [position_le_iff] at least
  rw [parts, parts, Text.append_lt_append_iff wide, Date.parts_lt_iff right left,
    Date.parts_eq_iff right left, ← Date.number_eq_iff, clockParts_lt_iff]
  omega

theorem parts_eq_iff {a b : Instant} (left : Date.FourDigits a.date.year)
    (right : Date.FourDigits b.date.year) : a.parts = b.parts ↔ SameMillisecond a b := by
  have split : a.parts = b.parts ↔ a.date.parts = b.date.parts ∧ a.clockParts = b.clockParts :=
    ⟨fun same => List.append_inj same rfl, fun ⟨date, clock⟩ => congrArg₂ _ date clock⟩
  rw [split, Date.parts_eq_iff left right, clockParts_eq_iff]
  exact ⟨fun ⟨day, second, millisecond⟩ => ⟨day, second, millisecond⟩,
    fun ⟨day, second, millisecond⟩ => ⟨day, second, millisecond⟩⟩

end Instant
end Solr
