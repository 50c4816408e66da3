import GitReadout.Repository.Call

/-!
# Deferred and direct repositories

A repository that does not wait and one that does are written apart. Carried out on a host, though,
each call of the first is the call of the second: it makes the same runs in the same order, ends
with the same reply or error, and leaves the same logbook.

* `perform_bind`: carrying out is done part by part, so each call follows from its parts.
* `perform_git`, `perform_exists?`: the two parts that are really written twice, a run of git and
  the question whether something stands at a path.
* `perform_defer`: one call.
* `replies_defer`: any sequence of calls.
-/

set_option autoImplicit false

namespace GitReadout

open Run (Deferred ExitPolicy GitProgram GitRunner Host Output Session Shared)

/-! ## Carrying out -/

namespace Run.Deferred

variable {α β : Type}

theorem perform_pure (a : α) : (pure a : Deferred α).perform = pure a := rfl

theorem perform_result (result : Except Failure α) :
    (done result).perform = Session.lift result := rfl

theorem perform_bind (first : Deferred α) (next : α → Deferred β) :
    (first >>= next).perform = first.perform >>= fun a => (next a).perform :=
  perform_andThen first next

theorem perform_start {program directory : String} {arguments : List String} {host after : Host}
    {outcome : Outcome} (h : host.start program directory arguments = (outcome, after))
    (resume : Outcome → Deferred α) :
    (start program directory arguments resume).perform host = (resume outcome).perform after := by
  show (resume (host.start program directory arguments).1).perform
    (host.start program directory arguments).2 = _
  rw [h]

theorem perform_note (entry : JournalEntry) (next : Deferred α) (host : Host) :
    (note entry next).perform host = next.perform (host.note entry) := rfl

theorem perform_ofReported (sink : Sink) (reported : Reported α) :
    (ofReported sink reported).perform = Session.ofReported sink reported := rfl

end Run.Deferred

open Run.Deferred

/-! ## Paths -/

theorem Run.Lookup.presence?_getD (answer : Lookup) :
    answer.presence?.getD false = answer.isFound := by
  cases answer <;> rfl

namespace DeferredRepository

theorem perform_exists? (path : String) : (exists? path).perform = Repository.exists? path := by
  funext host
  show (Except.ok ((host.files.lookup path).presence?.getD false), host) = _
  rw [Run.Lookup.presence?_getD]
  rfl

theorem perform_anyExists? (paths : List String) :
    (anyExists? paths).perform = Repository.anyExists? paths := by
  induction paths with
  | nil => rfl
  | cons path rest ih =>
    rw [anyExists?, Repository.anyExists?, perform_bind, perform_exists?]
    congr 1
    funext isFound
    cases isFound with
    | false => exact ih
    | true => rfl

/-! ## Questions -/

/-- The repository at the same place with the same settings that waits for git. -/
def direct (repository : DeferredRepository) : Repository GitProgram :=
  { repository with runner := ⟨repository.program⟩ }

variable (repository : DeferredRepository)

theorem perform_git (arguments : List String) (policy : ExitPolicy) :
    (repository.git arguments policy).perform = repository.direct.git arguments policy := by
  funext host
  let git : GitProgram := ⟨repository.program⟩
  show (_ : Except Failure Output × Host) = git.run repository.location arguments policy host
  rcases hstart : host.start git.program repository.location arguments with ⟨outcome, after⟩
  cases outcome with
  | finished exitCode stdout stderr =>
    rw [Run.run_of_finished hstart, DeferredRepository.git, perform_start hstart, perform_done]
  | notStarted fault =>
    rw [Run.run_of_notStarted hstart, DeferredRepository.git, perform_start hstart, perform_note,
      perform_done]

theorem perform_status : repository.status.perform = repository.direct.status := by
  simp only [DeferredRepository.status, Repository.status, perform_bind, perform_git,
    perform_result, perform_ofReported]
  congr 1
  funext output
  congr 1
  funext text
  congr 1
  funext report
  cases report with
  | none => rfl
  | some report =>
    simp only [perform_bind, perform_git, perform_result, perform_exists?, perform_anyExists?,
      perform_pure]
    rfl

theorem perform_separators : repository.separators.perform = repository.direct.separators := by
  simp only [DeferredRepository.separators, Repository.separators, perform_bind, perform_git,
    perform_result]

theorem perform_commits (query : Log.Query) :
    (repository.commits query).perform = repository.direct.commits query := by
  simp only [DeferredRepository.commits, Repository.commits, perform_bind, perform_git]
  congr 1
  funext output
  split
  · rfl
  · simp only [perform_bind, perform_separators, perform_result]

theorem perform_commit? (reference : String) :
    (repository.commit? reference).perform = repository.direct.commit? reference := by
  simp only [DeferredRepository.commit?, Repository.commit?, perform_bind, perform_commits,
    perform_pure]

theorem perform_readChanges (output : Output) (commitish : String) :
    (repository.readChanges output commitish).perform =
      repository.direct.readChanges output commitish := by
  simp only [DeferredRepository.readChanges, Repository.readChanges, perform_bind, perform_result,
    perform_ofReported]
  rfl

theorem perform_filesChangedBy (sha : String) :
    (repository.filesChangedBy sha).perform = repository.direct.filesChangedBy sha := by
  simp only [DeferredRepository.filesChangedBy, Repository.filesChangedBy, perform_bind,
    perform_git, perform_readChanges]

theorem perform_filesChangedBetween (base head : String) :
    (repository.filesChangedBetween base head).perform =
      repository.direct.filesChangedBetween base head := by
  simp only [DeferredRepository.filesChangedBetween, Repository.filesChangedBetween, perform_bind,
    perform_git, perform_readChanges]

end DeferredRepository

namespace Repository

open DeferredRepository

/-! ## Calls -/

theorem Call.perform_defer (repository : DeferredRepository) (call : Call) :
    (call.defer repository).perform = call.ask repository.direct := by
  cases call with
  | status => simp only [defer, ask, perform_bind, perform_status, perform_pure]
  | commits query => simp only [defer, ask, perform_bind, perform_commits, perform_pure]
  | commit reference => simp only [defer, ask, perform_bind, perform_commit?, perform_pure]
  | separators => simp only [defer, ask, perform_bind, perform_separators, perform_pure]
  | filesChangedBy sha => simp only [defer, ask, perform_bind, perform_filesChangedBy, perform_pure]
  | filesChangedBetween base head =>
    simp only [defer, ask, perform_bind, perform_filesChangedBetween, perform_pure]

/-- Sharing what runs git changes no call. -/
theorem Call.ask_shared {ρ : Type} [GitRunner ρ] (location : String) (runner : ρ)
    (settings : Settings) (sink : Sink) :
    Call.ask ⟨location, Shared.mk runner, settings, sink⟩ =
      Call.ask ⟨location, runner, settings, sink⟩ := by
  funext call
  cases call <;> rfl

/-- **A repository that does not wait answers as one that does**, whether that one has git to itself
or shares it: for any sequence of calls the replies are the same, and so are the runs, the logbook
and the rest of the surroundings after each call. -/
theorem replies_defer (location program : String) (settings : Settings) (sink : Sink) (host : Host)
    (calls : List Call) :
    let deferred := Call.replies
      (fun call => (call.defer ⟨location, program, settings, sink⟩).perform) host calls
    deferred = Call.replies (Call.ask ⟨location, GitProgram.mk program, settings, sink⟩) host
        calls ∧
      deferred = Call.replies (Call.ask ⟨location, Shared.mk (GitProgram.mk program), settings,
        sink⟩) host calls := by
  have hdirect : Call.replies
      (fun call => (call.defer ⟨location, program, settings, sink⟩).perform) host calls =
      Call.replies (Call.ask ⟨location, GitProgram.mk program, settings, sink⟩) host calls := by
    induction calls generalizing host with
    | nil => rfl
    | cons call rest ih =>
      have hcall := Call.perform_defer ⟨location, program, settings, sink⟩ call
      rw [Call.replies_cons, Call.replies_cons, ih, hcall]
      rfl
  refine ⟨hdirect, ?_⟩
  rw [Call.ask_shared]
  exact hdirect

end Repository

end GitReadout
