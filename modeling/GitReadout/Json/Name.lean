import GitReadout.RefName
import GitReadout.ObjectName
import GitReadout.Json.Value

/-!
# Names as JSON

The names of commits and branches are texts, which are checked when they are read.

* `ObjectName.ofJson?_eq_some_iff`, `RefName.ofJson?_eq_some_iff`: only what the checks let pass is
  read.
-/

set_option autoImplicit false

namespace GitReadout

def ObjectName.toJson (name : ObjectName) : Json := .string name.value

def ObjectName.ofJson? (value : Json) : Option ObjectName := do
  (ObjectName.parse (← value.string?)).toOption

def RefName.toJson (branch : RefName) : Json := .string branch.value

def RefName.ofJson? (value : Json) : Option RefName := do
  (RefName.parse (← value.string?)).toOption

theorem ObjectName.ofJson?_eq_some_iff {value : Json} {name : ObjectName} :
    ofJson? value = some name ↔
      ∃ text, value.string? = some text ∧ ObjectName.parse text = .ok name := by
  cases h : value.string? with
  | none => simp [ofJson?, h]
  | some text => cases hp : ObjectName.parse text <;> simp [ofJson?, h, hp, Except.toOption]

theorem RefName.ofJson?_eq_some_iff {value : Json} {branch : RefName} :
    ofJson? value = some branch ↔
      ∃ text, value.string? = some text ∧ RefName.parse text = .ok branch := by
  cases h : value.string? with
  | none => simp [ofJson?, h]
  | some text => cases hp : RefName.parse text <;> simp [ofJson?, h, hp, Except.toOption]

end GitReadout
