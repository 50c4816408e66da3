import GitReadout.Text.Blank
import GitReadout.Text.Split

/-!
# Decorations

The log lists the references to a commit with `, ` between them. A tag is written `tag: ` and its
name, which has no white space in it; white space around an entry does not count.
-/

set_option autoImplicit false

namespace GitReadout.Log.Decoration

/-- The name of the tag that an entry stands for. -/
def tagOf? (entry : List Char) : Option (List Char) :=
  match Text.trim entry with
  | 't' :: 'a' :: 'g' :: ':' :: ' ' :: name =>
    if name ≠ [] ∧ !name.any Text.isBlank then some name else none
  | _ => none

/-- The names of the tags of a decoration, in order. -/
def tags (decoration : String) : List String :=
  ((Text.entries decoration.toList).filterMap tagOf?).map String.ofList

end GitReadout.Log.Decoration
