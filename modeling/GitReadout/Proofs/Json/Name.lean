import GitReadout.Json.Name
import GitReadout.Proofs.ObjectName

/-!
# Names in JSON

A name that was read, from an output or from JSON, is one that reading leaves as it is, so it comes
back from its JSON.

* `ObjectName.isCanonical_of_ofJson?`, `RefName.isAllowed_of_parse`: the names that are read.
* `ObjectName.ofJson?_toJson`, `RefName.ofJson?_toJson`: such names come back.
-/

set_option autoImplicit false

namespace GitReadout

namespace ObjectName

theorem ofJson?_toJson {name : ObjectName} (h : name.IsCanonical) :
    ofJson? name.toJson = some name :=
  ofJson?_eq_some_iff.2 ⟨name.value, rfl, parse_value h⟩

theorem isCanonical_of_ofJson? {value : Json} {name : ObjectName} (h : ofJson? value = some name) :
    name.IsCanonical := by
  obtain ⟨text, -, hparse⟩ := ofJson?_eq_some_iff.1 h
  exact isCanonical_of_parse hparse

end ObjectName

namespace RefName

theorem isAllowed_of_parse {text : String} {branch : RefName} (h : parse text = .ok branch) :
    isAllowed branch.value.toList = true := by
  obtain ⟨hallowed, rfl⟩ := parse_eq_ok_iff.1 h
  exact hallowed

theorem ofJson?_toJson {branch : RefName} (h : isAllowed branch.value.toList = true) :
    ofJson? branch.toJson = some branch :=
  ofJson?_eq_some_iff.2 ⟨branch.value, rfl, parse_eq_ok_iff.2 ⟨h, rfl⟩⟩

theorem isAllowed_of_ofJson? {value : Json} {branch : RefName} (h : ofJson? value = some branch) :
    isAllowed branch.value.toList = true := by
  obtain ⟨text, -, hparse⟩ := ofJson?_eq_some_iff.1 h
  exact isAllowed_of_parse hparse

end RefName

end GitReadout
