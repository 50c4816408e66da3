import GitReadout.Status.Submodule
import GitReadout.Text.Split

/-!
# Items of a status output

The output of `git status --porcelain=2 --branch -z` is a sequence of items: headers, which describe
the branch, and entries, each of which describes one path.

* `Header.key_append_rest`: the key and the rest are the two parts of a header.
-/

set_option autoImplicit false

namespace GitReadout.Status

/-- A header, without the `# ` it begins with. -/
structure Header where
  value : String
deriving DecidableEq

/-- What kind of record an entry comes from. -/
inductive Entry.Kind where
  | ordinary
  | renamed (oldPath : String)
  | copied (oldPath : String)
  | conflicted
  | untracked
  | ignored
deriving DecidableEq

/-- The description of one path. -/
structure Entry where
  kind : Entry.Kind
  path : String
  /-- The code `XY`; `??` for untracked and `!!` for ignored paths. -/
  code : String
  submodule : Option Submodule
deriving DecidableEq

/-- One item of a status output. -/
inductive Item where
  | header (header : Header)
  | entry (entry : Entry)
deriving DecidableEq

namespace Header

/-- What stands before the first space; the whole header if it has none. -/
def key (header : Header) : String :=
  String.ofList (header.value.toList.takeWhile (· != ' '))

/-- What follows the first space. -/
def rest (header : Header) : String :=
  match Text.cut? ' ' header.value.toList with
  | some (_, after) => String.ofList after
  | none => ""

theorem key_append_rest {header : Header} {key rest : List Char} (h : ' ' ∉ key)
    (hv : header.value.toList = key ++ ' ' :: rest) :
    header.key = String.ofList key ∧ header.rest = String.ofList rest := by
  have hk : ∀ c ∈ key, (c != ' ') = true := fun c hc => by
    simpa using fun e : c = ' ' => h (e ▸ hc)
  simp [Header.key, Header.rest, hv, Text.cut?_append h, List.takeWhile_append_of_pos hk]

end Header

/-- The source of a rename or copy. -/
def Entry.Kind.oldPath? : Entry.Kind → Option String
  | renamed oldPath | copied oldPath => some oldPath
  | _ => none

def Entry.oldPath? (entry : Entry) : Option String :=
  entry.kind.oldPath?

end GitReadout.Status
