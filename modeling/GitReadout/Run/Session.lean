import GitReadout.Run.Host

/-!
# Calls

A `Session` is a call: it sees and changes the host and ends in an answer or an error. An error ends
the whole call, and what was done before it stays done.

* `bind_ok`, `bind_error`: what follows an answer and what follows an error.
* `bind_assoc`: calls made one after another may be grouped.
-/

set_option autoImplicit false

namespace GitReadout.Run

/-- A call that answers with an `α`. -/
def Session (α : Type) : Type := Host → Except Failure α × Host

namespace Session

variable {α β γ : Type}

/-- Ends with an answer or an error and changes nothing. -/
def lift (result : Except Failure α) : Session α :=
  fun host => (result, host)

/-- Goes on with the answer of a call. -/
def andThen (call : Session α) (next : α → Session β) : Session β :=
  fun host =>
    match call host with
    | (.ok a, host) => next a host
    | (.error e, host) => (.error e, host)

instance : Monad Session where
  pure a := lift (.ok a)
  bind := andThen

/-- Hands soft failures to a sink. -/
def reportAll (sink : Sink) (notices : List Notice) : Session Unit :=
  fun host => (.ok (), host.reportAll sink notices)

/-- Hands the soft failures of a reader to a sink and goes on with its answer. -/
def ofReported (sink : Sink) (reported : Reported α) : Session α :=
  fun host => (reported.result, host.reportAll sink reported.notices)

/-- Where a path leads. -/
def lookup (path : String) : Session Lookup :=
  fun host => (.ok (host.files.lookup path), host)

theorem pure_apply (a : α) (host : Host) : (pure a : Session α) host = (.ok a, host) := rfl

theorem bind_ok {call : Session α} {host after : Host} {a : α} (h : call host = (.ok a, after))
    (next : α → Session β) : (call >>= next) host = next a after := by
  show andThen call next host = _
  simp [andThen, h]

theorem bind_error {call : Session α} {host after : Host} {e : Failure}
    (h : call host = (.error e, after)) (next : α → Session β) :
    (call >>= next) host = (.error e, after) := by
  show andThen call next host = _
  simp [andThen, h]

theorem bind_assoc (call : Session α) (next : α → Session β) (last : β → Session γ) :
    (call >>= next) >>= last = call >>= fun a => next a >>= last := by
  funext host
  rcases hcall : call host with ⟨_ | _, after⟩
  · rw [bind_error hcall, bind_error (bind_error hcall next)]
  · rw [bind_ok hcall]
    rcases hnext : next _ after with ⟨_ | _, _⟩
    · rw [bind_error hnext, bind_error ((bind_ok hcall next).trans hnext)]
    · rw [bind_ok hnext, bind_ok ((bind_ok hcall next).trans hnext)]

theorem lift_bind_lift (result : Except Failure α) (f : α → Except Failure β) :
    (lift result >>= fun a => lift (f a)) = lift (result >>= f) := by
  cases result <;> rfl

theorem lift_bind_pure (result : Except Failure α) (f : α → β) :
    (lift result >>= fun a => pure (f a)) = lift (result.map f) := by
  cases result <;> rfl

theorem ofReported_bind_pure (sink : Sink) (reported : Reported α) (f : α → β) :
    (ofReported sink reported >>= fun a => pure (f a)) =
      ofReported sink ⟨reported.result.map f, reported.notices⟩ := by
  obtain ⟨_ | _, notices⟩ := reported <;> rfl

end Session

end GitReadout.Run
