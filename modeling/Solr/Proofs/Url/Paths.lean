import Mathlib.Data.List.Basic
import Mathlib.Data.List.TakeWhile
import Solr.Proofs.Url.Percent
import Solr.Url.Parse

/-! What becomes of the path of a URL. Pieces without dots stand as they are, behind what is left
of those in front of them. Of all that a path may hold with a meaning to a URL nothing keeps its
length but the backslash, so only a path without any of it stands for its own bytes. -/
namespace Solr.Url

open Text (utf8)

section Pieces

theorem joined_splitAt (s : List Char) : joined (Text.splitAt '/' s) = '/' :: s := by
  induction s with
  | nil => rfl
  | cons c s ih =>
    rw [Text.splitAt]
    by_cases slash : c = '/'
    · rw [if_pos slash, slash]
      exact congrArg (List.cons '/') ih
    · rw [if_neg slash]
      cases pieces : Text.splitAt '/' s with
      | nil => exact absurd pieces (Text.splitAt_ne_nil '/' s)
      | cons piece others =>
        rw [pieces] at ih
        exact congrArg (fun rest => '/' :: c :: rest) (List.cons.inj ih).2

theorem joined_append (front back : List (List Char)) :
    joined (front ++ back) = joined front ++ joined back :=
  List.flatMap_append

theorem pieces_append (path rest : List Char) :
    pieces (path ++ '/' :: rest) = pieces path ++ Text.splitAt '/' (rest.map slashed) := by
  have slash : slashed '/' = '/' := rfl
  rw [pieces, List.map_append, List.map_cons, slash, Text.splitAt_append,
    List.tail_append_of_ne_nil (Text.splitAt_ne_nil _ _), pieces]

theorem pieces_cons (rest : List Char) :
    pieces ('/' :: rest) = Text.splitAt '/' (rest.map slashed) :=
  pieces_append [] rest

theorem joined_pieces (rest : List Char) :
    joined (pieces ('/' :: rest)) = ('/' :: rest).map slashed := by
  rw [pieces_cons, joined_splitAt]
  rfl

end Pieces

section Dots

variable {later : List (List Char)}

theorem foldl_enter (plain : ∀ p ∈ later, isDots p = false) (before : List (List Char)) :
    later.foldl enter before = later.reverse ++ before := by
  induction later generalizing before with
  | nil => rfl
  | cons p later ih =>
    obtain ⟨first, others⟩ := List.forall_mem_cons.mp plain
    obtain ⟨single, double⟩ := Bool.or_eq_false_iff.mp first
    have entered : enter before p = p :: before := by
      rw [enter, if_neg (by simp [double]), if_neg (by simp [single])]
    rw [List.foldl_cons, entered, ih others, List.reverse_cons, List.append_assoc,
      List.singleton_append]

theorem settled_eq_self (plain : ∀ p ∈ later, isDots p = false) : settled later = later := by
  rw [settled, foldl_enter plain, List.append_nil, List.reverse_reverse]

/-- Pieces without dots leave alone what stands before them. -/
theorem resolve_append (plain : ∀ p ∈ later, isDots p = false) (some : later ≠ [])
    (front : List (List Char)) : resolve (front ++ later) = settled front ++ later := by
  have last : (front ++ later).getLast?.any isDots = false := by
    rw [List.getLast?_append_of_ne_nil front some, List.getLast?_eq_getLast_of_ne_nil some]
    exact plain _ (List.getLast_mem some)
  rw [resolve, last, if_neg Bool.false_ne_true, settled, settled, List.foldl_append,
    foldl_enter plain, List.reverse_append, List.reverse_reverse]

end Dots

section Sizes

/-- How many bytes there are in a path of these pieces. -/
def size (pieces : List (List Char)) : Nat :=
  (utf8 (joined pieces)).length

theorem utf8_append (s t : List Char) : utf8 (s ++ t) = utf8 s ++ utf8 t :=
  List.flatMap_append

theorem size_append (front back : List (List Char)) :
    size (front ++ back) = size front + size back := by
  rw [size, joined_append, utf8_append, List.length_append, ← size, ← size]

theorem size_cons (p : List Char) (others : List (List Char)) :
    size (p :: others) = (utf8 p).length + 1 + size others := by
  have first : utf8 (joined [p]) = 0x2f :: utf8 p := by
    rw [joined, List.flatMap_cons, List.flatMap_nil, List.append_nil]
    rfl
  rw [← List.singleton_append, size_append, size, first, List.length_cons]

theorem size_reverse (pieces : List (List Char)) : size pieces.reverse = size pieces := by
  induction pieces with
  | nil => rfl
  | cons p others ih =>
    rw [List.reverse_cons, size_append, ih, size_cons, size_cons]
    exact Nat.add_comm _ _

theorem size_tail (pieces : List (List Char)) : size pieces.tail ≤ size pieces := by
  cases pieces with
  | nil => exact Nat.le_refl _
  | cons p others =>
    rw [size_cons]
    exact Nat.le_add_left _ _

theorem length_pos_of_isDots {p : List Char} (dots : isDots p = true) : 0 < (utf8 p).length := by
  cases p with
  | nil => exact absurd dots (by decide)
  | cons c p =>
    rw [utf8_cons, List.length_append]
    exact Nat.add_pos_left (List.length_pos_iff.mpr String.utf8EncodeChar_ne_nil) _

/-- Dots add nothing, and are at least two bytes with their slash. -/
theorem size_enter (before : List (List Char)) (p : List Char) :
    size (enter before p) + (if isDots p then 2 else 0) ≤ size before + ((utf8 p).length + 1) := by
  have taken := size_tail before
  by_cases dots : isDots p = true
  · have bytes := length_pos_of_isDots dots
    have less : size (enter before p) ≤ size before := by
      unfold enter
      split
      · exact taken
      · rename_i double
        rw [isDots, Bool.or_eq_true, or_iff_left double] at dots
        rw [if_pos dots]
    rw [if_pos dots]
    omega
  · have plain := Bool.eq_false_iff.mpr dots
    obtain ⟨single, double⟩ := Bool.or_eq_false_iff.mp plain
    rw [enter, double, single, if_neg Bool.false_ne_true, if_neg Bool.false_ne_true, size_cons,
      if_neg dots]
    omega

theorem size_foldl (pieces before : List (List Char)) :
    size (pieces.foldl enter before) + 2 * pieces.countP isDots ≤ size before + size pieces := by
  induction pieces generalizing before with
  | nil => exact Nat.le_refl _
  | cons p others ih =>
    have here := size_enter before p
    have later := ih (enter before p)
    rw [List.foldl_cons, List.countP_cons, size_cons]
    by_cases dots : isDots p = true
    · rw [if_pos dots] at here ⊢
      omega
    · rw [if_neg dots] at here ⊢
      omega

/-- Every piece of dots makes a path shorter. -/
theorem size_resolve (pieces : List (List Char)) :
    size (resolve pieces) + pieces.countP isDots ≤ size pieces := by
  have bound : size (settled pieces) + 2 * pieces.countP isDots ≤ size pieces := by
    have bound := size_foldl pieces []
    rw [settled, size_reverse]
    rwa [show size [] = 0 from rfl, Nat.zero_add] at bound
  unfold resolve
  split
  · rename_i ends
    -- The empty piece that is added is shorter than the dots that it stands for.
    have some : 0 < pieces.countP isDots := by
      obtain ⟨last, found, dots⟩ := (Option.any_eq_true _ _).mp ends
      exact List.countP_pos_iff.mpr ⟨last, List.mem_of_getLast? found, dots⟩
    rw [size_append, show size [[]] = 1 from rfl]
    omega
  · omega

end Sizes

/-- A text that stands in a path as it is: nothing in it ends the path, is left out or divides
it, and no piece of it is resolved. -/
structure Kept (s : List Char) : Prop where
  characters : ∀ c ∈ s, c ∉ ['?', '#', '\\', '\t', '\n', '\r']
  dotless : ∀ p ∈ Text.splitAt '/' s, isDots p = false

/-- A path up to its end, without what counts for nothing. -/
def cut (path : List Char) : List Char :=
  (path.filter (!isSkipped ·)).takeWhile (!endsPath ·)

/-- A path as it stands in front of more: cut, and resolved. -/
def front (path : List Char) : List Char :=
  joined (settled (pieces (cut path)))

section Characters

theorem cut_eq_self_iff {path : List Char} :
    cut path = path ↔ ∀ c ∈ path, isSkipped c = false ∧ endsPath c = false := by
  constructor
  · intro same c member
    rw [← same] at member
    have before := List.mem_takeWhile_imp member
    have counts := (List.mem_filter.mp ((List.takeWhile_prefix _).mem member)).2
    exact ⟨by simpa using counts, by simpa using before⟩
  · intro each
    have filtered : path.filter (!isSkipped ·) = path :=
      List.filter_eq_self.mpr fun c member => by simp [each c member]
    rw [cut, filtered, List.takeWhile_eq_self_iff]
    exact fun c member => by simp [each c member]

theorem slashed_eq_self_iff {s : List Char} : s.map slashed = s ↔ '\\' ∉ s := by
  induction s with
  | nil => simp
  | cons c s ih =>
    rw [List.map_cons, List.cons.injEq, ih, List.mem_cons, not_or]
    refine and_congr_left fun _ => ?_
    by_cases back : c = '\\'
    · simp [slashed, back]
    · simp [slashed, back, Ne.symm back]

theorem Kept.map_slashed {s : List Char} (kept : Kept s) : s.map slashed = s :=
  slashed_eq_self_iff.mpr fun member => kept.characters _ member (by decide)

theorem kept_append {s rest : List Char} : Kept (s ++ '/' :: rest) ↔ Kept s ∧ Kept rest := by
  have slash : '/' ∉ ['?', '#', '\\', '\t', '\n', '\r'] := by decide
  constructor
  · rintro ⟨characters, dotless⟩
    rw [Text.splitAt_append, List.forall_mem_append] at dotless
    rw [List.forall_mem_append, List.forall_mem_cons] at characters
    exact ⟨⟨characters.1, dotless.1⟩, ⟨characters.2.2, dotless.2⟩⟩
  · rintro ⟨before, after⟩
    constructor
    · rw [List.forall_mem_append, List.forall_mem_cons]
      exact ⟨before.characters, slash, after.characters⟩
    · rw [Text.splitAt_append, List.forall_mem_append]
      exact ⟨before.dotless, after.dotless⟩

theorem kept_cons {rest : List Char} : Kept ('/' :: rest) ↔ Kept rest := by
  have empty : Kept [] := ⟨by simp, by decide⟩
  have divided := @kept_append [] rest
  rwa [List.nil_append, and_iff_right empty] at divided

end Characters

section Fronts

variable {path rest : List Char}

theorem Kept.cut_cons (kept : Kept rest) : cut ('/' :: rest) = '/' :: rest := by
  refine cut_eq_self_iff.mpr (List.forall_mem_cons.mpr ⟨by decide, fun c member => ?_⟩)
  have plain := kept.characters c member
  simp only [List.mem_cons, List.not_mem_nil, or_false, not_or] at plain
  simp [isSkipped, endsPath, plain]

theorem cut_append (unended : ∀ c ∈ path, endsPath c = false) (kept : Kept rest) :
    cut (path ++ '/' :: rest) = cut path ++ '/' :: rest := by
  have each : ∀ c ∈ path.filter (!isSkipped ·), (!endsPath c) = true :=
    fun c member => by simp [unended c (List.mem_filter.mp member).1]
  have filtered : cut path = path.filter (!isSkipped ·) := by
    rw [cut, List.takeWhile_eq_self_iff]
    exact each
  rw [cut, List.filter_append, List.takeWhile_append_of_pos each, ← cut, kept.cut_cons, filtered]

/-- What is kept stands as it is behind any path that has not ended. -/
theorem resolve_cut_append (unended : ∀ c ∈ path, endsPath c = false) (kept : Kept rest) :
    joined (resolve (pieces (cut (path ++ '/' :: rest)))) = front path ++ '/' :: rest := by
  rw [cut_append unended kept, pieces_append, kept.map_slashed,
    resolve_append kept.dotless (Text.splitAt_ne_nil _ _), joined_append, joined_splitAt, front]

example : joined (resolve (pieces "/solr/x/../films\\%2E/update".toList)) =
    "/solr/films/update".toList := by
  decide +kernel

theorem front_nil : front [] = [] :=
  rfl

theorem front_cons (kept : Kept rest) : front ('/' :: rest) = '/' :: rest := by
  rw [front, kept.cut_cons, pieces_cons, kept.map_slashed, settled_eq_self kept.dotless,
    joined_splitAt]

end Fronts

section Bytes

theorem cut_sublist (path : List Char) : (cut path).Sublist path :=
  (List.takeWhile_prefix _).sublist.trans List.filter_sublist

/-- A part of a text has fewer bytes, or is all of it. -/
theorem length_utf8_of_sublist {s t : List Char} (part : s.Sublist t) :
    s = t ∨ (utf8 s).length < (utf8 t).length := by
  induction part with
  | slnil => exact .inl rfl
  | cons c part ih =>
    refine .inr ?_
    have some := List.length_pos_iff.mpr (String.utf8EncodeChar_ne_nil (c := c))
    rw [utf8_cons, List.length_append]
    rcases ih with rfl | shorter <;> omega
  | cons_cons c part ih =>
    rw [utf8_cons, utf8_cons, List.length_append, List.length_append]
    rcases ih with rfl | shorter
    · exact .inl rfl
    · exact .inr (by omega)

theorem length_utf8_slashed (s : List Char) : (utf8 (s.map slashed)).length = (utf8 s).length := by
  induction s with
  | nil => rfl
  | cons c s ih =>
    have same : (String.utf8EncodeChar (slashed c)).length = (String.utf8EncodeChar c).length := by
      by_cases back : c = '\\'
      · rw [back]
        rfl
      · rw [slashed, if_neg back]
    rw [List.map_cons, utf8_cons, utf8_cons, List.length_append, List.length_append, same, ih]

theorem size_pieces (rest : List Char) :
    size (pieces ('/' :: rest)) = (utf8 ('/' :: rest)).length := by
  rw [size, joined_pieces, length_utf8_slashed]

/-- Nothing is longer than before, so if there are as many bytes as at first nothing was cut. -/
theorem cut_of_unescape {rest : List Char}
    (same : unescape (joined (resolve (pieces (cut ('/' :: rest))))) = utf8 ('/' :: rest)) :
    cut ('/' :: rest) = '/' :: rest := by
  have begins : cut ('/' :: rest) = '/' :: cut rest := rfl
  have resolved := size_resolve (pieces (cut ('/' :: rest)))
  rw [begins, size_pieces, ← begins, size] at resolved
  rcases length_utf8_of_sublist (cut_sublist ('/' :: rest)) with uncut | shorter
  · exact uncut
  · rcases unescape_literal (joined (resolve (pieces (cut ('/' :: rest))))) with
      ⟨-, bytes⟩ | ⟨-, bytes⟩
    · have whole := congrArg List.length (bytes.symm.trans same)
      omega
    · rw [same] at bytes
      omega

/-- A path that stands for its own bytes has nothing in it that has a meaning. -/
theorem kept_of_unescape {path rest : List Char} (rooted : path = '/' :: rest)
    (same : unescape (joined (resolve (pieces (cut path)))) = utf8 path) :
    Kept path ∧ ¬HoldsEscape path := by
  subst rooted
  have uncut := cut_of_unescape same
  have resolved := size_resolve (pieces ('/' :: rest))
  rw [uncut] at same
  rw [size_pieces, size] at resolved
  obtain ⟨literal, kept⟩ : ¬HoldsEscape (joined (resolve (pieces ('/' :: rest)))) ∧
      joined (resolve (pieces ('/' :: rest))) = '/' :: rest := by
    rcases unescape_literal (joined (resolve (pieces ('/' :: rest)))) with
      ⟨literal, bytes⟩ | ⟨-, bytes⟩
    · exact ⟨literal, Text.utf8_injective (bytes.symm.trans same)⟩
    · rw [same] at bytes
      omega
  have dotless : ∀ p ∈ pieces ('/' :: rest), isDots p = false := by
    rw [kept] at resolved
    have none : (pieces ('/' :: rest)).countP isDots = 0 := by omega
    simpa using List.countP_eq_zero.mp none
  have some : pieces ('/' :: rest) ≠ [] := by
    rw [pieces_cons]
    exact Text.splitAt_ne_nil _ _
  have forward : ('/' :: rest).map slashed = '/' :: rest := by
    have unresolved : resolve (pieces ('/' :: rest)) = pieces ('/' :: rest) :=
      resolve_append dotless some []
    rw [← joined_pieces, ← unresolved, kept]
  have noBackslash := slashed_eq_self_iff.mp forward
  refine ⟨⟨fun c member => ?_, ?_⟩, kept ▸ literal⟩
  · obtain ⟨counts, unended⟩ := cut_eq_self_iff.mp uncut c member
    have other : c ≠ '\\' := fun back => noBackslash (back ▸ member)
    simp_all [isSkipped, endsPath]
  · rw [List.map_cons, List.cons.injEq] at forward
    rw [pieces_cons, forward.2] at dotless
    rw [Text.splitAt, if_pos rfl]
    exact List.forall_mem_cons.mpr ⟨by decide, dotless⟩

theorem unescape_resolve_eq_iff {path rest : List Char} (rooted : path = '/' :: rest) :
    unescape (joined (resolve (pieces (cut path)))) = utf8 path ↔
      Kept path ∧ ¬HoldsEscape path := by
  refine ⟨kept_of_unescape rooted, fun ⟨kept, literal⟩ => ?_⟩
  subst rooted
  have same := @resolve_cut_append [] rest (by simp) (kept_cons.mp kept)
  rw [front_nil, List.nil_append] at same
  rw [same]
  exact unescape_eq_utf8_iff.mpr literal

end Bytes
end Solr.Url
