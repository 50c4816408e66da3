/-!
# JSON values

The values of the data format JSON, with numbers that are integers apart from those that are not. A
record is written as an object; it is read from an object, in which members that the record does not
have count for nothing, or from an array of just its fields in their order. One of a list of names
is written as a string; it is read from a string, or from an object whose only member has that name
and `null`.

* `optional_ofOption`, `list?_ofList`: what may be missing, and a list, are read back as they were
  written.
* `natural?_integer`: so is every number within the bound.
* `required_eq_some_iff`, `exists_of_optional_eq_some`, `exists_of_list?_eq_some`: what is read was
  there.
* `le_of_natural?_eq_some`: no number beyond the bound is read.
-/

set_option autoImplicit false

namespace GitReadout

/-- A value of the data format. -/
inductive Json where
  | null
  | bool (b : Bool)
  /-- A number written without point and exponent. -/
  | integer (n : Int)
  /-- Any other number: `mantissa` over a power of ten. -/
  | fraction (mantissa : Int) (exponent : Nat)
  | string (s : String)
  | array (items : List Json)
  | object (members : List (String × Json))
deriving Inhabited

namespace Json

variable {α : Type}

/-! ## Simple values -/

/-- A truth value. -/
def bool? : Json → Option Bool
  | bool b => some b
  | _ => none

def string? : Json → Option String
  | string s => some s
  | _ => none

/-- A text of one character. -/
def char? : Json → Option Char
  | string s =>
    match s.toList with
    | [c] => some c
    | _ => none
  | _ => none

/-- An integer between two bounds. -/
def integer? (least greatest : Int) : Json → Option Int
  | integer n => if least ≤ n ∧ n ≤ greatest then some n else none
  | _ => none

/-- An integer from zero to a bound. -/
def natural? (greatest : Nat) (value : Json) : Option Nat :=
  (value.integer? 0 greatest).map Int.toNat

/-- The name of an alternative that has nothing but its name. -/
def name? : Json → Option String
  | string s => some s
  | object [(s, null)] => some s
  | _ => none

/-! ## Missing values -/

/-- A value or `null`. -/
def ofOption (encode : α → Json) : Option α → Json
  | none => null
  | some a => encode a

/-- A field that may not be missing. -/
def required (decode : Json → Option α) : Option Json → Option α
  | none => none
  | some value => decode value

/-- A field that may be missing or `null`. -/
def optional (decode : Json → Option α) : Option Json → Option (Option α)
  | none | some null => some none
  | some value => (decode value).map some

/-! ## Lists and records -/

def ofList (encode : α → Json) (list : List α) : Json :=
  array (list.map encode)

def list? (decode : Json → Option α) : Json → Option (List α)
  | array items => items.mapM decode
  | _ => none

/-- The fields of a record, each missing or not. -/
def record? (names : List String) : Json → Option (List (Option Json))
  | object members => some (names.map fun name => members.lookup name)
  | array items => if items.length = names.length then some (items.map some) else none
  | _ => none

/-! ## Reading what was written -/

theorem optional_ofOption {encode : α → Json} {decode : Json → Option α} (value : Option α)
    (h : ∀ a ∈ value, decode (encode a) = some a) (hn : ∀ a, encode a ≠ null) :
    optional decode (some (ofOption encode value)) = some value := by
  cases value with
  | none => rfl
  | some a =>
    have : optional decode (some (encode a)) = (decode (encode a)).map some := by
      have := hn a
      cases he : encode a <;> simp_all [optional]
    rw [ofOption, this, h a rfl, Option.map_some]

theorem list?_ofList {encode : α → Json} {decode : Json → Option α} (list : List α)
    (h : ∀ a ∈ list, decode (encode a) = some a) :
    (ofList encode list).list? decode = some list := by
  rw [ofList, list?]
  induction list with
  | nil => rfl
  | cons a rest ih =>
    obtain ⟨ha, hrest⟩ := List.forall_mem_cons.1 h
    simp [ha, ih hrest]

theorem natural?_integer {n greatest : Nat} (h : n ≤ greatest) :
    (integer n).natural? greatest = some n := by
  have hn : (0 : Int) ≤ n ∧ (n : Int) ≤ greatest := by omega
  simp only [natural?, integer?, hn, and_self, if_true, Option.map_some, Int.toNat_natCast]

/-! ## What was read -/

theorem required_eq_some_iff {decode : Json → Option α} {field : Option Json} {a : α} :
    required decode field = some a ↔ ∃ value, field = some value ∧ decode value = some a := by
  cases field <;> simp [required]

theorem le_of_natural?_eq_some {greatest n : Nat} {value : Json}
    (h : value.natural? greatest = some n) : n ≤ greatest := by
  obtain ⟨i, hi, rfl⟩ := Option.map_eq_some_iff.1 h
  unfold integer? at hi
  split at hi
  · simp only [Option.ite_none_right_eq_some, Option.some.injEq] at hi
    omega
  · cases hi

theorem exists_of_optional_eq_some {decode : Json → Option α} {field : Option Json} {a : α}
    (h : optional decode field = some (some a)) : ∃ value, decode value = some a := by
  unfold optional at h
  split at h
  · cases h
  · cases h
  · rename_i value _
    exact ⟨value, by simpa using h⟩

theorem exists_of_list?_eq_some {decode : Json → Option α} {value : Json} {list : List α}
    (h : value.list? decode = some list) : ∀ a ∈ list, ∃ item, decode item = some a := by
  unfold list? at h
  split at h
  · rename_i items
    induction items generalizing list with
    | nil =>
      cases h
      simp
    | cons item items ih =>
      simp only [List.mapM_cons, Option.pure_def, Option.bind_eq_bind, Option.bind_eq_some_iff,
        Option.some.injEq] at h
      obtain ⟨a, ha, rest, hrest, rfl⟩ := h
      exact List.forall_mem_cons.2 ⟨⟨item, ha⟩, ih hrest⟩
  · cases h

end Json

end GitReadout
