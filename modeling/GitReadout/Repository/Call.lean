import GitReadout.Repository.Deferred
import GitReadout.Repository.Direct

/-!
# Sequences of calls

A `Call` is a question to a repository and a `Reply` its answer. Calls are made one after another on
one host, whatever became of those before.

* `Call.replies_cons`: the replies to a sequence of calls.
-/

set_option autoImplicit false

namespace GitReadout.Repository

open Run (Deferred GitRunner Host Session)

/-- A question to a repository. -/
inductive Call where
  | status
  | commits (query : Log.Query)
  | commit (reference : String)
  | separators
  | filesChangedBy (sha : String)
  | filesChangedBetween (base head : String)
deriving DecidableEq

/-- The answer to a question. -/
inductive Reply where
  | status (report : Option Status.Report)
  | commits (commits : List Log.Commit)
  | commit (commit : Option Log.Commit)
  | separators (separators : String)
  | changes (changes : List NameStatus.Change)
deriving DecidableEq

namespace Call

/-- Puts a question to a repository. -/
def ask {ρ : Type} [GitRunner ρ] (repository : Repository ρ) : Call → Session Reply
  | status => do return .status (← repository.status)
  | commits query => do return .commits (← repository.commits query)
  | commit reference => do return .commit (← repository.commit? reference)
  | separators => do return .separators (← repository.separators)
  | filesChangedBy sha => do return .changes (← repository.filesChangedBy sha)
  | filesChangedBetween base head => do
    return .changes (← repository.filesChangedBetween base head)

/-- Puts a question to a repository that does not wait. -/
def defer (repository : DeferredRepository) : Call → Deferred Reply
  | status => do return .status (← repository.status)
  | commits query => do return .commits (← repository.commits query)
  | commit reference => do return .commit (← repository.commit? reference)
  | separators => do return .separators (← repository.separators)
  | filesChangedBy sha => do return .changes (← repository.filesChangedBy sha)
  | filesChangedBetween base head => do
    return .changes (← repository.filesChangedBetween base head)

/-- The replies to calls made one after another, each with the host after it. -/
def replies (answer : Call → Session Reply) (host : Host) :
    List Call → List (Except Failure Reply × Host)
  | [] => []
  | call :: rest => answer call host :: replies answer (answer call host).2 rest

@[simp] theorem replies_cons (answer : Call → Session Reply) (host : Host) (call : Call)
    (rest : List Call) :
    replies answer host (call :: rest) =
      answer call host :: replies answer (answer call host).2 rest := rfl

end Call

end GitReadout.Repository
