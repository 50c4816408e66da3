import GitReadout.Text.Blank

/-!
# Authors without a date

A trailer names a person as `name <email>`. The name ends before the white space in front of the
first `<` that works: from there to the final `>` no line feed may follow.
-/

set_option autoImplicit false

namespace GitReadout.Log

/-- A person, without a date. -/
structure Author where
  name : String
  email : String
deriving DecidableEq

namespace Author

/-- The email that begins here, if white space and `<` stand before it. -/
def emailHere? (s : List Char) : Option (List Char) :=
  match Text.trimStart s with
  | '<' :: email => if '\n' ∈ email then none else some email
  | _ => none

/-- The name, of which `seen` was read in reverse, and the email. -/
def scan? (seen : List Char) : List Char → Option (List Char × List Char)
  | [] => none
  | c :: rest =>
    match emailHere? (c :: rest) with
    | some email => some (seen.reverse, email)
    | none => if c = '\n' then none else scan? (c :: seen) rest

/-- Reads a person. -/
def parse? (text : String) : Option Author :=
  let value := Text.trim text.toList
  if value.getLast? = some '>' then
    (scan? [] value.dropLast).map fun (name, email) =>
      ⟨String.ofList name, String.ofList email⟩
  else none

end Author

end GitReadout.Log
