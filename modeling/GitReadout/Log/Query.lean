/-!
# Asking for a log

A `Query` says which commits are wanted, and `arguments` is the command that asks for them. The
format it asks for is the one in which commits are read: the nine fields in their order, with the
unit separator between them.
-/

set_option autoImplicit false

namespace GitReadout.Log

/-- The placeholders of the fields of a record, in order. -/
def formatFields : List String :=
  ["%H", "%h", "%s", "%b", "%an <%ae> %ad", "%cn <%ce> %cd", "%P", "%(trailers:unfold,only)", "%D"]

/-- The argument that asks for records of these fields. -/
def formatArgument : String :=
  "--format=" ++ "%x1F".intercalate formatFields

/-- Which commits are wanted. -/
structure Query where
  revisionRange : String
  maxCount : Option Nat := none
  skip : Option Nat := none
  /-- Arguments that are passed on as they are. -/
  extraArguments : List String := []
deriving DecidableEq

namespace Query

def withMaxCount (query : Query) (n : Nat) : Query :=
  { query with maxCount := some n }

def withSkip (query : Query) (n : Nat) : Query :=
  { query with skip := some n }

def withArgument (query : Query) (argument : String) : Query :=
  { query with extraArguments := query.extraArguments ++ [argument] }

/-- The arguments of the command. -/
def arguments (query : Query) : List String :=
  ["log", query.revisionRange, "--date=raw"] ++
    (query.maxCount.map fun n => "--max-count=" ++ toString n).toList ++
    (query.skip.map fun n => "--skip=" ++ toString n).toList ++
    [formatArgument, "-z", "--no-show-signature", "--no-color"] ++ query.extraArguments ++ ["--"]

end Query

end GitReadout.Log
