import Solr.Http.Request
import Solr.Proofs.Entries

/-! Headers as their receiver looks them up: names in any letter case. Of the values that a
caller gives a name the last counts, and a request's own value goes before it. -/
namespace Solr.Http

def lowered (name : String) : String :=
  String.ofList (name.toList.map Char.toLower)

/-- Letter case makes no difference between names. -/
def SameName (a b : String) : Prop :=
  lowered a = lowered b

instance (a b : String) : Decidable (SameName a b) :=
  inferInstanceAs (Decidable (_ = _))

/-- The values that stand under a name. -/
def Headers.values (h : Headers) (name : String) : List String :=
  (h.filter fun p => SameName p.1 name).map (·.2)

/-- The last value that is given for a name. -/
def lastGiven (given : List (String × String)) (name : String) : Option String :=
  (given.reverse.find? fun p => SameName p.1 name).map (·.2)

/-- Options that a caller arrives at: the headers given on the way, in order. Limits may be
set in between. -/
inductive Options.Given : List (String × String) → Options → Prop
  | empty : Given [] .empty
  | header {given : List (String × String)} {o o' : Options} {name value : String}
    (before : Given given o) (added : o.addHeader name value = .ok o') :
    Given (given ++ [(name, value)]) o'
  | limit {given : List (String × String)} {o : Options} (before : Given given o)
    (milliseconds : Nat) : Given given (o.limitTo milliseconds)

/-- Headers with names in lower case only, each once. -/
structure Headers.Kept (h : Headers) : Prop where
  sorted : h.Sorted
  lower : ∀ p ∈ h, lowered p.1 = p.1

/-- What was made small is no capital. -/
theorem toLower_toLower (c : Char) : c.toLower.toLower = c.toLower := by
  unfold Char.toLower
  split
  · rename_i capital
    refine dif_neg fun again => ?_
    have least : 65 ≤ c.val.toNat := UInt32.le_iff_toNat_le.mp capital.1
    have most : c.val.toNat ≤ 90 := UInt32.le_iff_toNat_le.mp capital.2
    have still : (c.val + 32).toNat ≤ 90 := UInt32.le_iff_toNat_le.mp again.2
    have small : (c.val + 32).toNat = (c.val.toNat + 32) % 2 ^ 32 := UInt32.toNat_add c.val 32
    omega
  · rfl

theorem lowered_lowered (name : String) : lowered (lowered name) = lowered name := by
  rw [lowered, lowered, String.toList_ofList, List.map_map]
  exact congrArg String.ofList (List.map_congr_left fun c _ => toLower_toLower c)

theorem headerName?_eq_some {name name' : String} (valid : headerName? name = some name') :
    name' = lowered name := by
  unfold headerName? at valid
  dsimp only at valid
  split at valid
  · exact (Option.some.inj valid).symm
  · cases valid

namespace Headers

theorem Kept.insert {h : Headers} (kept : h.Kept) {name : String} (lower : lowered name = name)
    (value : String) : Kept (Entries.insert name value h) where
  sorted := Entries.insert_sorted kept.sorted
  lower := by
    intro p member
    rcases Entries.mem_insert member with rfl | member
    · exact lower
    · exact kept.lower p member

/-- A name that is looked up in any letter case is the one that stands there in lower case. -/
theorem Kept.values_eq {h : Headers} (kept : h.Kept) (name : String) :
    h.values name = (Entries.get? h (lowered name)).toList := by
  have same : h.filter (fun p => SameName p.1 name) = h.filter (fun p => p.1 = lowered name) := by
    apply List.filter_congr
    intro p member
    simp only [SameName, kept.lower p member]
  rw [values, same, Entries.filter_key kept.sorted]
  cases Entries.get? h (lowered name) <;> rfl

/-- One header more: it stands alone under its name, and under no other. -/
theorem Kept.values_insert {h : Headers} (kept : h.Kept) {key : String}
    (lower : lowered key = key) (value name : String) :
    values (Entries.insert key value h) name =
      if SameName key name then [value] else h.values name := by
  rw [(kept.insert lower value).values_eq, kept.values_eq]
  simp only [SameName, lower]
  by_cases same : key = lowered name
  · rw [if_pos same, ← same, Entries.get?_insert_self]
    rfl
  · rw [if_neg same, Entries.get?_insert_of_ne same]

end Headers

namespace Options

theorem addHeader_eq_ok {o o' : Options} {name value : String}
    (added : o.addHeader name value = .ok o') :
    o' = { o with headers := o.headers.insert (lowered name) value } := by
  unfold addHeader at added
  cases valid : headerName? name with
  | none =>
    rw [valid] at added
    cases added
  | some key =>
    obtain rfl := headerName?_eq_some valid
    rw [valid] at added
    dsimp only at added
    split at added
    · exact (Except.ok.inj added).symm
    · cases added

theorem Given.kept {given : List (String × String)} {o : Options} (reached : Given given o) :
    Headers.Kept o.headers := by
  induction reached with
  | empty => exact ⟨List.Pairwise.nil, by simp [Options.empty]⟩
  | header _ added ih =>
    rw [addHeader_eq_ok added]
    exact ih.insert (lowered_lowered _) _
  | limit _ _ ih => exact ih

end Options

theorem lastGiven_concat (given : List (String × String)) (key value name : String) :
    lastGiven (given ++ [(key, value)]) name =
      if SameName key name then some value else lastGiven given name := by
  simp only [lastGiven, List.reverse_append, List.reverse_singleton, List.singleton_append,
    List.find?_cons]
  by_cases same : SameName key name <;> simp [same]

/-- Each name given has the last of its values, once; no other name has any. -/
theorem Options.Given.values {given : List (String × String)} {o : Options}
    (reached : Options.Given given o) (name : String) :
    o.headers.values name = (lastGiven given name).toList := by
  induction reached with
  | empty => rfl
  | @header given o o' key value before added ih =>
    rw [Options.addHeader_eq_ok added, before.kept.values_insert (lowered_lowered key),
      lastGiven_concat, ih]
    simp only [SameName, lowered_lowered]
    by_cases same : lowered key = lowered name <;> simp [same]
  | limit _ _ ih => exact ih

namespace Request

/-- A request without headers of its own has those given. -/
theorem values_get {given : List (String × String)} {o : Options} (reached : o.Given given)
    (url : String) (parameters : Parameters) (name : String) :
    (((get url).withParameters parameters).withOptions o).headers.values name =
      (lastGiven given name).toList :=
  reached.values name

/-- The content type of a body is never that of the options. -/
theorem values_postJson {given : List (String × String)} {o : Options}
    (reached : o.Given given) (url body : String) (parameters : Parameters) (name : String) :
    (((postJson url body).withParameters parameters).withOptions o).headers.values name =
      if SameName "content-type" name then ["application/json"]
      else (lastGiven given name).toList := by
  rw [← reached.values name]
  exact reached.kept.values_insert (by decide) "application/json" name

end Request
end Solr.Http
