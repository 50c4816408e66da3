import GitReadout.Repository.Deferred
import GitReadout.Repository.Direct

/-!
# Repositories as text

For people who look for a fault, a repository is shown with its location, what runs git, and its
settings; the sink is left out, as two dots say.
-/

set_option autoImplicit false

namespace GitReadout.Repository.Shown

/-- A record with its fields, of which some may be left out. -/
def ofFields (name : String) (fields : List (String × String)) (isComplete : Bool) : String :=
  name ++ " \x7b " ++
    ", ".intercalate
      ((fields.map fun field => field.1 ++ ": " ++ field.2) ++
        (if isComplete then [] else [".."])) ++ " \x7d"

/-- The name of a tolerance. -/
def ofTolerance : Tolerance → String
  | .lenient => "Lenient"
  | .strict => "Strict"

/-- Settings as text. -/
def ofSettings (settings : Settings) : String :=
  ofFields "ParserConfig"
    [("max_status_bytes", toString settings.statusLimit),
      ("name_status_mode", ofTolerance settings.unknownCodes)] true

/-- A program as text. -/
def ofProgram (git : Run.GitProgram) : String :=
  ofFields "ProcessGitExecutor" [("program", Text.quote git.program)] true

/-- A repository as text. -/
def ofRepository (repository : Repository Run.GitProgram) : String :=
  ofFields "Repository"
    [("location", Text.quote repository.location), ("executor", ofProgram repository.runner),
      ("config", ofSettings repository.settings)] false

/-- A repository that does not wait as text. -/
def ofDeferred (repository : DeferredRepository) : String :=
  ofFields "AsyncRepository"
    [("location", Text.quote repository.location), ("program", Text.quote repository.program),
      ("config", ofSettings repository.settings)] false

end GitReadout.Repository.Shown
