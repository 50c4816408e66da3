import GitReadout.Json.Name
import GitReadout.Log.Commit

/-!
# Commits as JSON

A commit is an object with a member for each of its fields, its dates written as RFC 3339 has it and
its trailers as pairs of a key and its values.

* `Trailers.ofJson?_toJson`: trailers are read back as they were written.
-/

set_option autoImplicit false

namespace GitReadout

namespace Log

def ZonedTime.toJson (time : ZonedTime) : Json := .string time.toText

def ZonedTime.ofJson? (value : Json) : Option ZonedTime := do
  ofText? (← value.string?)

/-- An offset in minutes has 32 bits. -/
def offsetOfJson? (value : Json) : Option Int :=
  value.integer? (-2147483648) 2147483647

def Identity.toJson (identity : Identity) : Json :=
  .object [("name", .string identity.name), ("email", .string identity.email),
    ("date", identity.date.toJson), ("tz_offset_minutes", .integer identity.offsetMinutes)]

def Identity.ofJson? (value : Json) : Option Identity :=
  match value.record? ["name", "email", "date", "tz_offset_minutes"] with
  | some [name, email, date, offsetMinutes] => do
    let name ← Json.required Json.string? name
    let email ← Json.required Json.string? email
    let date ← Json.required ZonedTime.ofJson? date
    let offsetMinutes ← Json.required offsetOfJson? offsetMinutes
    return { name, email, date, offsetMinutes }
  | _ => none

def Author.toJson (author : Author) : Json :=
  .object [("name", .string author.name), ("email", .string author.email)]

def Author.ofJson? (value : Json) : Option Author :=
  match value.record? ["name", "email"] with
  | some [name, email] => do
    let name ← Json.required Json.string? name
    let email ← Json.required Json.string? email
    return { name, email }
  | _ => none

/-! ## Trailers -/

namespace Trailers

def entryToJson (entry : String × List String) : Json :=
  .array [.string entry.1, Json.ofList Json.string entry.2]

def entryOfJson? : Json → Option (String × List String)
  | .array [key, values] => do
    return (← key.string?, ← values.list? Json.string?)
  | _ => none

def toJson (trailers : Trailers) : Json :=
  .object [("entries", Json.ofList entryToJson trailers.entries)]

/-- Reads trailers. The entries are taken as they are. -/
def ofJson? (value : Json) : Option Trailers :=
  match value.record? ["entries"] with
  | some [entries] => do
    let entries ← Json.required (Json.list? entryOfJson?) entries
    return { entries }
  | _ => none

theorem entryOfJson?_entryToJson (entry : String × List String) :
    entryOfJson? (entryToJson entry) = some entry := by
  obtain ⟨key, values⟩ := entry
  have h : (Json.ofList Json.string values).list? Json.string? = some values :=
    Json.list?_ofList values fun _ _ => rfl
  simp [entryToJson, entryOfJson?, Json.string?, h]

theorem ofJson?_toJson (trailers : Trailers) : ofJson? trailers.toJson = some trailers := by
  have h := Json.list?_ofList trailers.entries fun entry _ => entryOfJson?_entryToJson entry
  simp [toJson, ofJson?, Json.record?, Json.required, h]

end Trailers

/-! ## Commits -/

def Commit.toJson (commit : Commit) : Json :=
  .object [("sha", commit.sha.toJson), ("short_sha", commit.shortSha.toJson),
    ("summary", .string commit.summary), ("body", .string commit.body),
    ("author", commit.author.toJson), ("committer", commit.committer.toJson),
    ("parents", Json.ofList ObjectName.toJson commit.parents),
    ("trailers", commit.trailers.toJson), ("tags", Json.ofList Json.string commit.tags)]

def Commit.ofJson? (value : Json) : Option Commit :=
  match value.record? ["sha", "short_sha", "summary", "body", "author", "committer", "parents",
    "trailers", "tags"] with
  | some [sha, shortSha, summary, body, author, committer, parents, trailers, tags] => do
    let sha ← Json.required ObjectName.ofJson? sha
    let shortSha ← Json.required ObjectName.ofJson? shortSha
    let summary ← Json.required Json.string? summary
    let body ← Json.required Json.string? body
    let author ← Json.required Identity.ofJson? author
    let committer ← Json.required Identity.ofJson? committer
    let parents ← Json.required (Json.list? ObjectName.ofJson?) parents
    let trailers ← Json.required Trailers.ofJson? trailers
    let tags ← Json.required (Json.list? Json.string?) tags
    return { sha, shortSha, summary, body, author, committer, parents, trailers, tags }
  | _ => none

end Log

end GitReadout
