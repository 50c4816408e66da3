import GitReadout.Repository.Direct
import Mathlib.Data.List.DropRight

/-!
# Courses of runs

A call makes its runs one after another, each on the host that the one before left. A run that fails
ends the call at once, with the error of that run and nothing reported.

* `Course`: the runs that a call makes of a plan, one constructor for each way a run can go.
* `Leaves`: what runs and reports leave of a host, field by field.
* `Course.leaves`, `Course.failed`: what a whole course leaves, and where it fails.
* `Course.outcomes_unique`: which runs were tried can be told from the surroundings afterwards.
* `git_cases`: one run of git, which every step of a course comes from.
* `Follows`: a call that takes a course of a plan, with a rule for each step it can take.
-/

set_option autoImplicit false

namespace GitReadout.Repository

open Run (ExitPolicy GitProgram Host Outcome Output Session StartFault)

/-! ## Planned runs -/

/-- A run that a call plans, and the exit codes that count as success in it. -/
structure PlannedRun where
  arguments : List String
  accepted : List Int := [0]

/-- What an error says of an output: its text without the white space at the end, if it is text. -/
def shown (name : String) (written : ByteArray) : String :=
  match String.fromUTF8? written with
  | some text => String.ofList (text.toList.rdropWhile Text.isBlank)
  | none => "[" ++ name ++ ": undecodable UTF-8]"

theorem shownText_eq (name : String) (written : ByteArray) :
    Run.shownText name written = shown name written := rfl

/-- The error with which an outcome ends the call: git was not found or not started for another
reason, or it ended with an exit code that is not accepted, or with none. -/
def PlannedRun.failure? (run : PlannedRun) : Outcome → Option Failure
  | .notStarted fault => some (if fault = .notFound then .noGit else .cannotStart)
  | .finished exitCode stdout stderr =>
    if ∃ code ∈ run.accepted, exitCode = some code then none
    else some (.rejectedExit exitCode (shown "stdout" stdout) (shown "stderr" stderr))

/-- Whether the system takes the texts that a run needs: none of them holds a NUL. -/
def PlannedRun.IsPassable (program directory : String) (run : PlannedRun) : Prop :=
  ∀ text ∈ program :: directory :: run.arguments, '\x00' ∉ text.toList

instance (program directory : String) : DecidablePred (PlannedRun.IsPassable program directory) :=
  fun run => inferInstanceAs
    (Decidable (∀ text ∈ program :: directory :: run.arguments, '\x00' ∉ text.toList))

/-- The entry that an outcome leaves in the journal. -/
def faultNote? : Outcome → Option JournalEntry
  | .notStarted fault => some fault.journalEntry
  | .finished .. => none

/-- A run that was not started leaves an entry in the journal. -/
def noteFault (host : Host) : Outcome → Host
  | .notStarted fault => host.note fault.journalEntry
  | .finished .. => host

/-! ## Courses -/

/-- The course of a session: the runs it makes of a plan and what becomes of them, the soft failures
it reports, its result, and the surroundings after it. -/
inductive Course {α : Type} (program directory : String) (sink : Sink) :
    List PlannedRun → Host → List Outcome → List Notice → Except Failure α → Host → Prop
  /-- No further run is made. -/
  | finish {plan : List PlannedRun} {host : Host} {notices : List Notice}
      {result : Except Failure α} :
    Course program directory sink plan host [] notices result (host.reportAll sink notices)
  /-- A run fails. -/
  | fail {run : PlannedRun} {plan : List PlannedRun} {host after : Host} {outcome : Outcome}
      {failure : Failure} :
    host.start program directory run.arguments = (outcome, after) →
    run.failure? outcome = some failure →
    Course program directory sink (run :: plan) host [outcome] [] (.error failure)
      (noteFault after outcome)
  /-- A run is accepted. -/
  | pass {run : PlannedRun} {plan : List PlannedRun} {host next after : Host} {outcome : Outcome}
      {outcomes : List Outcome} {notices : List Notice} {result : Except Failure α} :
    host.start program directory run.arguments = (outcome, next) →
    run.failure? outcome = none →
    Course program directory sink plan next outcomes notices result after →
    Course program directory sink (run :: plan) host (outcome :: outcomes) notices result after

/-- What is left of a host after runs of a plan, with the outcomes that they had, and after the soft
failures reported then. -/
structure Leaves (program directory : String) (sink : Sink) (plan : List PlannedRun) (host : Host)
    (outcomes : List Outcome) (notices : List Notice) (after : Host) : Prop where
  /-- The runs that are tried are the first of the plan. -/
  length_le : outcomes.length ≤ plan.length
  /-- Each has the next outcome of the script, if it can be passed on. -/
  outcome_eq : ∀ (i : Nat) (run : PlannedRun) (outcome : Outcome),
    plan[i]? = some run → outcomes[i]? = some outcome →
      outcome = if run.IsPassable program directory then host.script[i]?.getD host.afterwards
        else .notStarted .nulByte
  script_eq : after.script = host.script.drop
    ((plan.take outcomes.length).countP fun run => PlannedRun.IsPassable program directory run)
  afterwards_eq : after.afterwards = host.afterwards
  /-- Those that are started are recorded in the order of the plan. -/
  runs_eq : after.runs.toList = host.runs.toList ++
    (plan.take (outcomes.countP Outcome.isStarted)).map PlannedRun.arguments
  /-- The soft failures are where the sink puts them. -/
  notices_eq : after.logbook.notices.toList = host.logbook.notices.toList ++ sink.kept notices
  /-- In the journal there is, besides, only why a run was not started. -/
  journal_eq : after.logbook.journal.toList = host.logbook.journal.toList ++ sink.entries notices ++
    outcomes.filterMap faultNote?
  files_eq : after.files = host.files

theorem failure?_of_mem {run : PlannedRun} {code : Int} (h : code ∈ run.accepted)
    (stdout stderr : ByteArray) : run.failure? (.finished (some code) stdout stderr) = none :=
  if_pos ⟨code, h, rfl⟩

theorem failure?_ne_some_of_mem {run : PlannedRun} {code : Int} {failure : Failure}
    (h : code ∈ run.accepted) (stdout stderr : ByteArray) :
    run.failure? (.finished (some code) stdout stderr) ≠ some failure := by
  simp [failure?_of_mem h]

theorem isStarted_of_failure?_eq_none {run : PlannedRun} {outcome : Outcome}
    (h : run.failure? outcome = none) : outcome.isStarted := by
  cases outcome with
  | notStarted fault => cases h
  | finished => rfl

section
variable {program directory : String} {sink : Sink} {run : PlannedRun} {plan : List PlannedRun}
  {host next after : Host} {outcome : Outcome} {outcomes : List Outcome} {notices : List Notice}

theorem noteFault_eq (host : Host) (outcome : Outcome) :
    noteFault host outcome = { host with
      logbook := { host.logbook with
        journal := host.logbook.journal ++ (faultNote? outcome).toArray } } := by
  cases outcome <;> simp [noteFault, faultNote?, Host.note, Logbook.note]

/-! ## One start -/

/-- What it does to a host to start a run. -/
structure PlannedRun.StartedOn (program directory : String) (run : PlannedRun) (host : Host)
    (outcome : Outcome) (next : Host) : Prop where
  outcome_eq : outcome = if run.IsPassable program directory then
    host.script.head?.getD host.afterwards else .notStarted .nulByte
  script_eq : next.script =
    if run.IsPassable program directory then host.script.tail else host.script
  afterwards_eq : next.afterwards = host.afterwards
  runs_eq : next.runs.toList = host.runs.toList ++ if outcome.isStarted then [run.arguments] else []
  logbook_eq : next.logbook = host.logbook
  files_eq : next.files = host.files

theorem PlannedRun.isPassable_iff :
    run.IsPassable program directory ↔
      ¬(program :: directory :: run.arguments).any Host.hasNul := by
  simp [PlannedRun.IsPassable, Host.hasNul]

theorem PlannedRun.startedOn (h : host.start program directory run.arguments = (outcome, next)) :
    run.StartedOn program directory host outcome next := by
  obtain ⟨hnul, rfl, rfl⟩ | ⟨hnul, hnext, rfl⟩ := Host.start_cases h
  · have hpassable : ¬run.IsPassable program directory := fun h => isPassable_iff.1 h hnul
    exact ⟨(if_neg hpassable).symm, (if_neg hpassable).symm, rfl,
      by simp [Outcome.isStarted], rfl, rfl⟩
  · have hpassable : run.IsPassable program directory := isPassable_iff.2 hnul
    refine ⟨hnext.trans (if_pos hpassable).symm, (if_pos hpassable).symm, rfl, ?_, rfl, rfl⟩
    cases outcome <;> simp [Outcome.isStarted]

/-- A process that could not be started leaves a graver entry than soft failures do. -/
theorem reportAll_ne_noteFault {fault : StartFault}
    (h : host.start program directory run.arguments = (.notStarted fault, after)) :
    host.reportAll sink notices ≠ noteFault after (.notStarted fault) := by
  intro he
  have hjournal : (host.reportAll sink notices).logbook.journal.toList =
      host.logbook.journal.toList ++ [fault.journalEntry] := by
    rw [he, ← (run.startedOn h).logbook_eq]
    exact Array.toList_push
  have hentries : sink.entries notices = [fault.journalEntry] :=
    List.append_cancel_left ((host.logbook.journal_reportAll sink notices).symm.trans hjournal)
  have hmem : fault.journalEntry ∈ sink.entries notices := by
    rw [hentries]
    exact List.mem_singleton_self _
  refine Sink.severity_ne_error_of_mem_entries hmem ?_
  cases fault <;> rfl

/-! ## What is left -/

namespace Leaves

/-- No further run is tried. -/
theorem finish : Leaves program directory sink plan host [] notices (host.reportAll sink notices)
    where
  length_le := Nat.zero_le _
  outcome_eq := by simp
  script_eq := rfl
  afterwards_eq := rfl
  runs_eq := by simp [Host.reportAll]
  notices_eq := host.logbook.notices_reportAll sink notices
  journal_eq := by
    rw [List.filterMap_nil, List.append_nil]
    exact host.logbook.journal_reportAll sink notices
  files_eq := rfl

/-- A run is the last that is tried. -/
theorem fail (h : run.StartedOn program directory host outcome after) :
    Leaves program directory sink (run :: plan) host [outcome] [] (noteFault after outcome) where
  length_le := by simp
  outcome_eq := by
    rintro (_ | i) run' outcome' hrun houtcome
    · cases hrun
      cases houtcome
      rw [← List.head?_eq_getElem?]
      exact h.outcome_eq
    · cases houtcome
  script_eq := by
    rw [noteFault_eq]
    by_cases hpassable : run.IsPassable program directory <;> simp [h.script_eq, hpassable]
  afterwards_eq := by rw [noteFault_eq, h.afterwards_eq]
  runs_eq := by
    rw [noteFault_eq, h.runs_eq]
    cases hstarted : outcome.isStarted <;> simp [hstarted]
  notices_eq := by
    rw [noteFault_eq, h.logbook_eq]
    cases sink <;> exact (List.append_nil _).symm
  journal_eq := by
    rw [noteFault_eq, h.logbook_eq]
    cases sink <;> cases outcome <;> simp [Sink.entries, faultNote?]
  files_eq := by rw [noteFault_eq, h.files_eq]

/-- A run is accepted, and others may follow. -/
theorem pass (h : run.StartedOn program directory host outcome next)
    (haccepted : run.failure? outcome = none)
    (hrest : Leaves program directory sink plan next outcomes notices after) :
    Leaves program directory sink (run :: plan) host (outcome :: outcomes) notices after := by
  have hstarted := isStarted_of_failure?_eq_none haccepted
  have hpassable : run.IsPassable program directory := by
    refine Decidable.byContradiction fun hnot => ?_
    rw [h.outcome_eq, if_neg hnot] at hstarted
    cases hstarted
  have hscript : next.script = host.script.tail := by rw [h.script_eq, if_pos hpassable]
  exact {
    length_le := Nat.succ_le_succ hrest.length_le
    outcome_eq := by
      rintro (_ | i) run' outcome' hrun houtcome
      · cases hrun
        cases houtcome
        rw [← List.head?_eq_getElem?]
        exact h.outcome_eq
      · rw [hrest.outcome_eq i run' outcome' hrun houtcome, hscript, h.afterwards_eq,
          List.getElem?_tail]
    script_eq := by
      rw [hrest.script_eq, hscript]
      simp [hpassable]
    afterwards_eq := hrest.afterwards_eq.trans h.afterwards_eq
    runs_eq := by
      rw [hrest.runs_eq, h.runs_eq]
      simp [hstarted]
    notices_eq := by rw [hrest.notices_eq, h.logbook_eq]
    journal_eq := by
      rw [hrest.journal_eq, h.logbook_eq]
      cases outcome with
      | notStarted fault => cases hstarted
      | finished => rfl
    files_eq := hrest.files_eq.trans h.files_eq }

end Leaves
end

/-! ## Whole courses -/

namespace Course

variable {α : Type} {program directory : String} {sink : Sink} {plan : List PlannedRun}
  {host after : Host} {outcomes others : List Outcome} {notices : List Notice}
  {result : Except Failure α}

theorem leaves (h : Course program directory sink plan host outcomes notices result after) :
    Leaves program directory sink plan host outcomes notices after := by
  induction h with
  | finish => exact .finish
  | fail hstart _ => exact .fail (PlannedRun.startedOn hstart)
  | pass hstart haccepted _ ih => exact .pass (PlannedRun.startedOn hstart) haccepted ih

/-- A run that fails is the last, and its error is the result. -/
theorem failed (h : Course program directory sink plan host outcomes notices result after)
    {i : Nat} {run : PlannedRun} {outcome : Outcome} {failure : Failure}
    (hrun : plan[i]? = some run) (houtcome : outcomes[i]? = some outcome)
    (hfailure : run.failure? outcome = some failure) :
    outcomes.length = i + 1 ∧ result = .error failure ∧ notices = [] := by
  induction h generalizing i with
  | finish => cases houtcome
  | fail hstart hfail =>
    cases i with
    | zero =>
      cases hrun
      cases houtcome
      rw [hfail] at hfailure
      cases hfailure
      exact ⟨rfl, rfl, rfl⟩
    | succ i => cases houtcome
  | pass hstart haccepted _ ih =>
    cases i with
    | zero =>
      cases hrun
      cases houtcome
      rw [haccepted] at hfailure
      cases hfailure
    | succ i =>
      obtain ⟨hlength, hresult⟩ := ih hrun houtcome
      exact ⟨congrArg (· + 1) hlength, hresult⟩

/-- Where nothing was done but reporting, no run was tried. -/
theorem eq_nil_of_reportAll {reported : List Notice}
    (h : Course program directory sink plan host outcomes notices result
      (host.reportAll sink reported)) : outcomes = [] := by
  have hruns := congrArg List.length h.leaves.runs_eq
  generalize hafter : host.reportAll sink reported = final at h
  cases h with
  | finish => rfl
  | @fail _ _ _ _ outcome _ hstart hfailure =>
    cases outcome with
    | notStarted fault =>
      exact absurd hafter (reportAll_ne_noteFault hstart)
    | finished => simp [Host.reportAll, Outcome.isStarted] at hruns
  | pass hstart haccepted _ =>
    simp [Host.reportAll, isStarted_of_failure?_eq_none haccepted] at hruns

/-- Which runs a call tried, and with which outcomes, can be told from the surroundings before and
after it. -/
theorem outcomes_unique {reported : List Notice} {other : Except Failure α}
    (h : Course program directory sink plan host outcomes notices result after)
    (hother : Course program directory sink plan host others reported other after) :
    others = outcomes := by
  induction h generalizing others reported other with
  | finish => exact hother.eq_nil_of_reportAll
  | @fail run plan host after outcome failure hstart hfailure =>
    have hfail : Course program directory sink (run :: plan) host [outcome] []
        (.error failure : Except Failure α) (noteFault after outcome) := .fail hstart hfailure
    generalize hafter : noteFault _ _ = final at hother hfail
    cases hother with
    | finish => exact absurd hfail.eq_nil_of_reportAll (by simp)
    | fail hstart' hfailure' =>
      cases hstart.symm.trans hstart'
      rfl
    | pass hstart' haccepted' _ =>
      cases hstart.symm.trans hstart'
      cases hfailure.symm.trans haccepted'
  | pass hstart haccepted hrest ih =>
    cases hother with
    | finish => exact absurd (Course.pass hstart haccepted hrest).eq_nil_of_reportAll (by simp)
    | fail hstart' hfailure' =>
      cases hstart.symm.trans hstart'
      cases haccepted.symm.trans hfailure'
    | pass hstart' _ hrest' =>
      cases hstart.symm.trans hstart'
      rw [ih hrest']

end Course

/-! ## One run -/

/-- One run of git: it ends what was to follow, or hands an output with an accepted exit code on. -/
theorem git_cases {α : Type} (repository : Repository GitProgram) (run : PlannedRun)
    (next : Output → Session α) (host : Host) :
    (∃ outcome after failure,
      host.start repository.runner.program repository.location run.arguments = (outcome, after) ∧
        run.failure? outcome = some failure ∧
        (repository.git run.arguments (.ofCodes run.accepted) >>= next) host =
          (.error failure, noteFault after outcome)) ∨
    ∃ code stdout stderr after, code ∈ run.accepted ∧
      host.start repository.runner.program repository.location run.arguments =
        (.finished (some code) stdout stderr, after) ∧
      (repository.git run.arguments (.ofCodes run.accepted) >>= next) host =
        next ⟨some code, stdout, stderr⟩ after := by
  rcases hstart : host.start repository.runner.program repository.location run.arguments with
    ⟨outcome, after⟩
  cases outcome with
  | notStarted fault =>
    refine .inl ⟨_, _, _, rfl, rfl, ?_⟩
    refine (Session.bind_error (Run.run_of_notStarted hstart _) next).trans ?_
    cases fault <;> rfl
  | finished exitCode stdout stderr =>
    have hrun := Run.run_of_finished hstart (.ofCodes run.accepted)
    by_cases haccepted : ∃ code ∈ run.accepted, exitCode = some code
    · rw [Run.conclude, if_pos (ExitPolicy.accepts_ofCodes_iff.2 haccepted)] at hrun
      obtain ⟨code, hcode, rfl⟩ := haccepted
      exact .inr ⟨code, stdout, stderr, after, hcode, rfl, Session.bind_ok hrun next⟩
    · rw [Run.conclude, if_neg (mt ExitPolicy.accepts_ofCodes_iff.1 haccepted), shownText_eq,
        shownText_eq] at hrun
      exact .inl ⟨_, _, _, rfl, if_neg haccepted, Session.bind_error hrun next⟩

/-! ## Steps without a run -/

/-- A call that leaves the host as it is. -/
def Quiet {α : Type} (call : Session α) : Prop :=
  ∀ host, (call host).2 = host

theorem quiet_lift {α : Type} (result : Except Failure α) : Quiet (Session.lift result) :=
  fun _ => rfl

theorem Quiet.bind {α β : Type} {call : Session α} {next : α → Session β} (h : Quiet call)
    (hnext : ∀ a, Quiet (next a)) : Quiet (call >>= next) := by
  intro host
  rcases hcall : call host with ⟨result, after⟩
  obtain rfl : after = host := by rw [← h host, hcall]
  cases result with
  | error e => rw [Session.bind_error hcall]
  | ok a =>
    rw [Session.bind_ok hcall]
    exact hnext a after

/-- A call that answers and leaves the host as it is. -/
def Answers {α : Type} (call : Session α) : Prop :=
  ∀ host, ∃ a, call host = (.ok a, host)

section
variable {α β : Type} {call : Session α}

theorem Answers.quiet (h : Answers call) : Quiet call := by
  intro host
  obtain ⟨a, ha⟩ := h host
  rw [ha]

theorem answers_pure (a : α) : Answers (pure a : Session α) :=
  fun _ => ⟨a, rfl⟩

theorem Answers.bind {next : α → Session β} (h : Answers call) (hnext : ∀ a, Answers (next a)) :
    Answers (call >>= next) := by
  intro host
  obtain ⟨a, ha⟩ := h host
  rw [Session.bind_ok ha]
  exact hnext a host

end

theorem answers_exists? (path : String) : Answers (exists? path) :=
  fun _ => ⟨_, rfl⟩

theorem answers_anyExists? (paths : List String) : Answers (anyExists? paths) := by
  induction paths with
  | nil => exact answers_pure false
  | cons path rest ih =>
    refine (answers_exists? path).bind fun isFound => ?_
    cases isFound with
    | false => exact ih
    | true => exact answers_pure true

/-- Whatever stands in the git directory, a status gets its answer from there. -/
theorem answers_marks (marks : Marks) (report : Status.Report) :
    Answers (do
      let merging ← exists? marks.merge
      let rebasing ← anyExists? marks.rebases
      let cherryPicking ← exists? marks.cherryPick
      return some { report with merging, rebasing, cherryPicking }) :=
  (answers_exists? _).bind fun _ => (answers_anyExists? _).bind fun _ =>
    (answers_exists? _).bind fun _ => answers_pure _

/-! ## Following a plan -/

/-- A call follows a plan on a host if it takes a course of the plan, and `P` holds of the outcomes
of its runs, of the soft failures it reports and of its result. -/
def Follows {α : Type} (repository : Repository GitProgram) (plan : List PlannedRun)
    (call : Session α) (host : Host)
    (P : List Outcome → List Notice → Except Failure α → Prop) : Prop :=
  ∃ outcomes notices,
    Course repository.runner.program repository.location repository.sink plan host outcomes notices
      (call host).1 (call host).2 ∧ P outcomes notices (call host).1

namespace Follows

variable {α β γ : Type} {repository : Repository GitProgram} {plan : List PlannedRun} {host : Host}
  {P : List Outcome → List Notice → Except Failure α → Prop}

/-- A run of git is the first of the plan, and what comes after it follows the rest. -/
theorem git {run : PlannedRun} {next : Output → Session α}
    (hfail : ∀ outcome failure, run.failure? outcome = some failure →
      P [outcome] [] (.error failure))
    (hpass : ∀ code ∈ run.accepted, ∀ stdout stderr after,
      Follows repository plan (next ⟨some code, stdout, stderr⟩) after
        fun outcomes => P (.finished (some code) stdout stderr :: outcomes)) :
    Follows repository (run :: plan)
      (repository.git run.arguments (.ofCodes run.accepted) >>= next) host P := by
  rcases repository.git_cases run next host with
    ⟨outcome, after, failure, hstart, hfailure, hcall⟩ |
    ⟨code, stdout, stderr, after, hcode, hstart, hcall⟩
  · refine ⟨[outcome], [], ?_⟩
    rw [hcall]
    exact ⟨.fail hstart hfailure, hfail outcome failure hfailure⟩
  · obtain ⟨outcomes, notices, hcourse, hP⟩ := hpass code hcode stdout stderr after
    refine ⟨.finished (some code) stdout stderr :: outcomes, notices, ?_⟩
    rw [hcall]
    exact ⟨.pass hstart (failure?_of_mem hcode stdout stderr) hcourse, hP⟩

/-- What only reports needs no more of the plan. -/
theorem finish {call : Session α} (notices : List Notice) (result : Except Failure α)
    (hcall : call host = (result, host.reportAll repository.sink notices))
    (hP : P [] notices result) : Follows repository plan call host P := by
  refine ⟨[], notices, ?_⟩
  rw [hcall]
  exact ⟨.finish, hP⟩

theorem of_quiet {call : Session α} (h : Quiet call) (hP : ∀ result, P [] [] result) :
    Follows repository plan call host P :=
  finish [] _ (Prod.ext rfl (h host)) (hP _)

theorem bind_ok {first : Session β} {next : β → Session α} {b : β}
    (hfirst : first host = (.ok b, host)) (h : Follows repository plan (next b) host P) :
    Follows repository plan (first >>= next) host P := by
  unfold Follows
  rw [Session.bind_ok hfirst]
  exact h

theorem bind_error {first : Session β} {next : β → Session α} {e : Failure}
    (hfirst : first host = (.error e, host)) (hP : P [] [] (.error e)) :
    Follows repository plan (first >>= next) host P :=
  finish [] _ (Session.bind_error hfirst next) hP

theorem assoc {first : Session β} {next : β → Session γ} {last : γ → Session α}
    (h : Follows repository plan (first >>= fun b => next b >>= last) host P) :
    Follows repository plan ((first >>= next) >>= last) host P := by
  rwa [Session.bind_assoc]

end Follows

end GitReadout.Repository
