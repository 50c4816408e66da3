import GitReadout.Json.Value
import GitReadout.Settings
import GitReadout.Text.Numeral

/-!
# Settings as JSON

Settings are an object with a member for each of the two, the limit as a number of 64 bits and the
tolerance by its name.

* `Settings.ofJson?_toJson`: settings whose limit has 64 bits are read back as they were written.
-/

set_option autoImplicit false

namespace GitReadout

def Tolerance.name : Tolerance → String
  | lenient => "Lenient"
  | strict => "Strict"

def Tolerance.ofName? : String → Option Tolerance
  | "Lenient" => some lenient
  | "Strict" => some strict
  | _ => none

def Tolerance.toJson (tolerance : Tolerance) : Json := .string tolerance.name

def Tolerance.ofJson? (value : Json) : Option Tolerance := do
  ofName? (← value.name?)

def Settings.toJson (settings : Settings) : Json :=
  .object [("max_status_bytes", .integer settings.statusLimit),
    ("name_status_mode", settings.unknownCodes.toJson)]

def Settings.ofJson? (value : Json) : Option Settings :=
  match value.record? ["max_status_bytes", "name_status_mode"] with
  | some [statusLimit, unknownCodes] => do
    let statusLimit ← Json.required (Json.natural? Text.maxUnsigned64) statusLimit
    let unknownCodes ← Json.required Tolerance.ofJson? unknownCodes
    return { statusLimit, unknownCodes }
  | _ => none

theorem Tolerance.ofJson?_toJson (tolerance : Tolerance) :
    ofJson? tolerance.toJson = some tolerance := by
  cases tolerance <;> rfl

theorem Settings.ofJson?_toJson {settings : Settings}
    (h : settings.statusLimit ≤ Text.maxUnsigned64) : ofJson? settings.toJson = some settings := by
  simp [toJson, ofJson?, Json.record?, Json.required, List.lookup_cons, Json.natural?_integer h,
    Tolerance.ofJson?_toJson]

end GitReadout
