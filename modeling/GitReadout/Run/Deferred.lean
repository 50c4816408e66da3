import GitReadout.Run.Session

/-!
# Deferred calls

A `Deferred` call is a call laid out as data: it stops whenever it needs something of its
surroundings, says what, and goes on when it is told. `perform` carries it out on a host.

* `perform_andThen`: one call after another is carried out one after the other.
-/

set_option autoImplicit false

namespace GitReadout.Run

/-- A call that asks its surroundings for what it needs. -/
inductive Deferred (α : Type) : Type where
  /-- It is over. -/
  | done (result : Except Failure α)
  /-- It needs a program to be run. -/
  | start (program directory : String) (arguments : List String) (resume : Outcome → Deferred α)
  /-- It needs to know where a path leads. -/
  | lookup (path : String) (resume : Lookup → Deferred α)
  /-- It has soft failures to report. -/
  | report (sink : Sink) (notices : List Notice) (next : Deferred α)
  /-- It has something to write into the journal. -/
  | note (entry : JournalEntry) (next : Deferred α)

namespace Deferred

variable {α β : Type}

/-- Goes on with the answer of a call. -/
def andThen : Deferred α → (α → Deferred β) → Deferred β
  | done (.ok a), next => next a
  | done (.error e), _ => done (.error e)
  | start program directory arguments resume, next =>
    start program directory arguments fun outcome => (resume outcome).andThen next
  | lookup path resume, next => lookup path fun answer => (resume answer).andThen next
  | report sink notices rest, next => report sink notices (rest.andThen next)
  | note entry rest, next => note entry (rest.andThen next)

instance : Monad Deferred where
  pure a := done (.ok a)
  bind := andThen

/-- Carries a call out on a host. -/
def perform : Deferred α → Session α
  | done result => fun host => (result, host)
  | start program directory arguments resume => fun host =>
    (resume (host.start program directory arguments).1).perform
      (host.start program directory arguments).2
  | lookup path resume => fun host => (resume (host.files.lookup path)).perform host
  | report sink notices next => fun host => next.perform (host.reportAll sink notices)
  | note entry next => fun host => next.perform (host.note entry)

/-- Reports the soft failures of a reader and goes on with its answer. -/
def ofReported (sink : Sink) (reported : Reported α) : Deferred α :=
  report sink reported.notices (done reported.result)

@[simp] theorem perform_done (result : Except Failure α) (host : Host) :
    (done result).perform host = (result, host) := rfl

theorem perform_andThen (first : Deferred α) (next : α → Deferred β) :
    (first.andThen next).perform = Session.andThen first.perform fun a => (next a).perform := by
  induction first with
  | done result => cases result <;> rfl
  | start program directory arguments resume ih =>
    funext host
    exact congrFun (ih _) _
  | lookup path resume ih =>
    funext host
    exact congrFun (ih _) _
  | report sink notices rest ih =>
    funext host
    exact congrFun ih _
  | note entry rest ih =>
    funext host
    exact congrFun ih _

end Deferred

end GitReadout.Run
