import GitReadout.Proofs.Malformed
import GitReadout.Proofs.Repository.Plan

/-!
# What the error of a call says

An error is either about a run of git or about what git wrote. A call that fails says which of the
two it is: the error is one of a reader if and only if each run that was tried was answered, which
is to say that it was started, ended with an accepted exit code and, where its output is decoded,
wrote text.

* `Judged`: what an error says of the runs still to come, while some were made before.
* `Tells.git`, `Tells.text`, `Tells.separators`: a run, the text that a run wrote, and the run that
  asks for separators, with what follows.
* `isMalformed_iff_answered`: all readers and all calls.
-/

set_option autoImplicit false

namespace GitReadout

namespace Repository

open Run (GitProgram Host Outcome Output Session)

/-! ## Answered runs -/

/-- A run is answered if it is started, ends with an accepted exit code and, if that is 0, writes
text. Any other accepted code is an answer by itself, and the output is not decoded. -/
def PlannedRun.IsAnsweredBy (run : PlannedRun) : Outcome → Prop
  | .notStarted _ => False
  | .finished exitCode stdout _ =>
    ∃ code ∈ run.accepted, exitCode = some code ∧ (code = 0 → (String.fromUTF8? stdout).isSome)

theorem not_isAnsweredBy_of_failure? {run : PlannedRun} {outcome : Outcome} {failure : Failure}
    (h : run.failure? outcome = some failure) : ¬run.IsAnsweredBy outcome := by
  cases outcome with
  | notStarted fault => exact id
  | finished exitCode stdout stderr =>
    rintro ⟨code, hcode, rfl, -⟩
    exact failure?_ne_some_of_mem hcode stdout stderr h

/-- The error of a run that fails is about the run. -/
theorem not_isMalformed_of_failure? {run : PlannedRun} {outcome : Outcome} {failure : Failure}
    (h : run.failure? outcome = some failure) : ¬failure.isMalformed := by
  cases outcome with
  | notStarted fault =>
    cases h
    cases fault <;> decide
  | finished exitCode stdout stderr =>
    simp only [PlannedRun.failure?, Option.ite_none_left_eq_some, Option.some.injEq] at h
    obtain ⟨-, rfl⟩ := h
    exact Bool.false_ne_true

/-- An error is one of a reader if and only if the runs made before are `answered` and so are those
that are still tried of a plan. -/
def Judged {α : Type} (answered : Prop) (plan : List PlannedRun) (outcomes : List Outcome)
    (result : Except Failure α) : Prop :=
  ∀ e, result = .error e →
    (e.isMalformed ↔ answered ∧ ∀ pair ∈ plan.zip outcomes, pair.1.IsAnsweredBy pair.2)

theorem judged_cons_iff {α : Type} {answered : Prop} {run : PlannedRun} {plan : List PlannedRun}
    {outcome : Outcome} {outcomes : List Outcome} {result : Except Failure α} :
    Judged answered (run :: plan) (outcome :: outcomes) result ↔
      Judged (answered ∧ run.IsAnsweredBy outcome) plan outcomes result := by
  simp only [Judged, List.zip_cons_cons, List.forall_mem_cons, and_assoc]

/-- A call that keeps to a plan, and whose error tells of runs that are still tried and of those
made before, which are `answered`. -/
def Tells {α : Type} (repository : Repository GitProgram) (answered : Prop)
    (plan : List PlannedRun) (call : Session α) (host : Host) : Prop :=
  Follows repository plan call host fun outcomes _ => Judged answered plan outcomes

/-! ## The steps of a call -/

namespace Tells

variable {α β γ : Type} {repository : Repository GitProgram} {answered : Prop}
  {plan : List PlannedRun} {host : Host}

/-- A run is answered or ends the call. -/
theorem git {run : PlannedRun} {next : Output → Session α}
    (h : ∀ code ∈ run.accepted, ∀ stdout stderr after,
      Tells repository (answered ∧ run.IsAnsweredBy (.finished (some code) stdout stderr)) plan
        (next ⟨some code, stdout, stderr⟩) after) :
    Tells repository answered (run :: plan)
      (repository.git run.arguments (.ofCodes run.accepted) >>= next) host := by
  refine Follows.git (fun outcome failure hfailure => ?_) fun code hcode stdout stderr after => ?_
  · rintro _ ⟨⟩
    refine iff_of_false (not_isMalformed_of_failure? hfailure) fun ⟨_, hall⟩ => ?_
    exact not_isAnsweredBy_of_failure? hfailure (hall (run, outcome) (by simp))
  · obtain ⟨outcomes, notices, hcourse, hjudged⟩ := h code hcode stdout stderr after
    exact ⟨outcomes, notices, hcourse, judged_cons_iff.2 hjudged⟩

theorem assoc {first : Session β} {next : β → Session γ} {last : γ → Session α}
    (h : Tells repository answered plan (first >>= fun b => next b >>= last) host) :
    Tells repository answered plan ((first >>= next) >>= last) host :=
  Follows.assoc h

theorem bind_ok {first : Session β} {next : β → Session α} {b : β}
    (hfirst : first host = (.ok b, host)) (h : Tells repository answered plan (next b) host) :
    Tells repository answered plan (first >>= next) host :=
  Follows.bind_ok hfirst h

/-- No further run is tried. -/
theorem finish {call : Session α} (notices : List Notice) (result : Except Failure α)
    (hcall : call host = (result, host.reportAll repository.sink notices))
    (h : ∀ e, result = .error e → (e.isMalformed ↔ answered)) :
    Tells repository answered plan call host :=
  Follows.finish notices result hcall fun e he => by simpa using h e he

theorem of_answers {call : Session α} (h : Answers call) :
    Tells repository answered plan call host := by
  obtain ⟨a, ha⟩ := h host
  exact finish [] (.ok a) ha (by rintro _ ⟨⟩)

theorem of_isAnsweredBy {run : PlannedRun} {outcome : Outcome} {call : Session α}
    (hrun : run.IsAnsweredBy outcome) (h : Tells repository answered plan call host) :
    Tells repository (answered ∧ run.IsAnsweredBy outcome) plan call host := by
  rwa [and_iff_left hrun]

/-- The output of a run that ended with 0 is decoded: if it is no text, the run was not answered. -/
theorem text {run : PlannedRun} {stdout stderr : ByteArray} {next : String → Session α}
    (hzero : 0 ∈ run.accepted) (h : ∀ text, Tells repository answered plan (next text) host) :
    Tells repository (answered ∧ run.IsAnsweredBy (.finished (some 0) stdout stderr)) plan
      (Session.lift (Output.text ⟨some 0, stdout, stderr⟩) >>= next) host := by
  unfold Output.text
  cases htext : String.fromUTF8? stdout with
  | none =>
    refine finish [] (.error .notText) rfl ?_
    rintro _ ⟨⟩
    refine iff_of_false (by decide) ?_
    rintro ⟨-, _, -, hcode, hdecoded⟩
    cases hcode
    simp [htext] at hdecoded
  | some text =>
    exact of_isAnsweredBy ⟨0, hzero, rfl, fun _ => by simp [htext]⟩ (bind_ok rfl (h text))

/-- The run that asks for the separators of trailers. -/
theorem separators {next : String → Session α}
    (h : ∀ separators after, Tells repository answered plan (next separators) after) :
    Tells repository answered (⟨separatorArguments, [0, 1]⟩ :: plan)
      (repository.separators >>= next) host := by
  refine .assoc (.git ?_)
  intro code hcode stdout stderr after
  obtain rfl | rfl : code = 0 ∨ code = 1 := by simpa using hcode
  · have hzero : (some 0 : Option Int) ≠ some notSetExitCode := by decide
    rw [separatorsOf, if_neg hzero, ← Session.lift_bind_pure]
    exact .assoc (.text (by simp) fun text => .bind_ok rfl (h _ after))
  · have hone : PlannedRun.IsAnsweredBy ⟨separatorArguments, [0, 1]⟩
        (.finished (some 1) stdout stderr) := ⟨1, by simp, rfl, fun h => absurd h (by decide)⟩
    exact .of_isAnsweredBy hone (.bind_ok rfl (h ":" after))

end Tells

/-! ## The calls -/

section
variable (repository : Repository GitProgram) (host : Host)

theorem tells_status :
    Tells repository True Call.status.plan (Call.status.ask repository) host := by
  refine .assoc (.git ?_)
  intro code hcode stdout stderr after
  obtain rfl := List.mem_singleton.1 hcode
  refine .assoc (.text hcode fun text => .assoc ?_)
  by_cases hsize : text.utf8ByteSize ≤ repository.settings.statusLimit
  · rw [Status.Report.parse_of_size_le hsize]
    rcases hreport : Status.Report.ofItems (Status.items text) with e | report
    · refine .finish [] (.error e) rfl ?_
      rintro _ ⟨⟩
      have hparse : (Status.Report.parse text repository.settings).result = .error e := by
        rw [Status.Report.parse_of_size_le hsize, hreport]
        rfl
      exact iff_of_true (Status.isMalformed_of_parse hparse) trivial
    · refine .bind_ok (b := some report) rfl (.assoc (.git ?_))
      intro code hcode stdout stderr after
      obtain rfl := List.mem_singleton.1 hcode
      refine .assoc (.text hcode fun directory => .of_answers ?_)
      exact (answers_marks _ report).bind fun report => answers_pure _
  · rw [Status.Report.parse_of_limit_lt (Nat.not_le.1 hsize)]
    exact .finish [.statusTooLarge text.utf8ByteSize repository.settings.statusLimit]
      (.ok (.status none)) rfl (by rintro _ ⟨⟩)

theorem tells_log (query : Log.Query) (reply : List Log.Commit → Reply) :
    Tells repository True (logPlan query)
      (repository.commits query >>= fun commits => pure (reply commits)) host := by
  rw [logPlan_eq]
  refine .assoc (.git ?_)
  intro code hcode log error after
  obtain rfl | rfl : code = 0 ∨ code = 128 := by simpa using hcode
  · have hzero : (some 0 : Option Int) ≠ some noCommitExitCode := by decide
    rw [if_neg hzero]
    refine .assoc (.separators fun separators after => .assoc (.text hcode fun text => ?_))
    rw [Session.lift_bind_pure]
    refine .finish [] _ rfl fun e he => ?_
    exact iff_of_true (Log.isMalformed_of_parseLog (map_eq_error_iff.1 he)) trivial
  · exact .finish [.noCommits "log"] (.ok (reply [])) rfl (by rintro _ ⟨⟩)

theorem tells_changes (arguments : List String) (commitish : String) :
    Tells repository True [{ arguments }]
      (repository.git arguments .strict >>= fun output =>
        repository.readChanges output commitish >>= fun changes =>
          pure (Reply.changes changes)) host := by
  refine .git ?_
  intro code hcode stdout stderr after
  obtain rfl := List.mem_singleton.1 hcode
  refine .assoc (.text hcode fun text => ?_)
  rw [Session.ofReported_bind_pure]
  refine .finish _ _ rfl fun e he => ?_
  exact iff_of_true (NameStatus.isMalformed_of_parse (map_eq_error_iff.1 he)) trivial

/-- Every call keeps to its plan, and its error tells of the runs that it tries. -/
theorem Call.tells (call : Call) : Tells repository True call.plan (call.ask repository) host := by
  cases call with
  | status => exact tells_status repository host
  | commits query => exact tells_log repository host query .commits
  | commit reference =>
    exact .assoc (tells_log repository host { revisionRange := reference, maxCount := some 1 }
      fun commits => .commit commits.head?)
  | separators => exact .separators fun separators after => .of_answers (answers_pure _)
  | filesChangedBy sha => exact .assoc (tells_changes repository host _ sha)
  | filesChangedBetween base head => exact .assoc (tells_changes repository host _ head)

/-- `outcomes` are those of the runs that a call tries, one after another. -/
def Call.Tries (call : Call) (outcomes : List Outcome) : Prop :=
  ∃ notices, Course repository.runner.program repository.location repository.sink call.plan host
    outcomes notices (call.ask repository host).1 (call.ask repository host).2

end

/-- **Errors of readers and errors of runs.** Whatever is read as a status, as a log, as the record
of a commit or as changed files, an error is one of the reader. And whatever becomes of the runs of
a call, the error that it ends with is one of a reader if and only if each run that was tried, of
which the outcomes are determined, was answered. -/
theorem isMalformed_iff_answered :
    (∀ output settings e, (Status.Report.parse output settings).result = .error e →
      e.isMalformed) ∧
    (∀ output separators e, Log.Commit.parseLog output separators = .error e → e.isMalformed) ∧
    (∀ record separators e, Log.Commit.parse record separators = .error e → e.isMalformed) ∧
    (∀ output commitish tolerance e,
      (NameStatus.Change.parse output commitish tolerance).result = .error e → e.isMalformed) ∧
    ∀ (repository : Repository GitProgram) (call : Call) (host : Host),
      ∃ outcomes, (∀ others, call.Tries repository host others ↔ others = outcomes) ∧
        ∀ e, (call.ask repository host).1 = .error e →
          (e.isMalformed ↔ ∀ pair ∈ call.plan.zip outcomes, pair.1.IsAnsweredBy pair.2) := by
  refine ⟨fun _ _ _ => Status.isMalformed_of_parse, fun _ _ _ => Log.isMalformed_of_parseLog,
    fun _ _ _ => Log.isMalformed_of_parse, fun _ _ _ _ => NameStatus.isMalformed_of_parse, ?_⟩
  intro repository call host
  obtain ⟨outcomes, notices, hcourse, hjudged⟩ := call.tells repository host
  refine ⟨outcomes, fun others => ⟨fun ⟨_, hothers⟩ => hcourse.outcomes_unique hothers, ?_⟩,
    fun e he => by simpa using hjudged e he⟩
  rintro rfl
  exact ⟨notices, hcourse⟩

/-- A status that is no status, and one that is no text. -/
example :
    let host (stdout : ByteArray) : Host :=
      { script := [.finished (some 0) stdout .empty], afterwards := .notStarted .notFound }
    let repository : Repository GitProgram := { location := "", runner := {}, sink := .memory }
    (Call.status.ask repository (host ⟨#[120]⟩)).1 =
        .error (.badStatus "x" "unknown record type") ∧
      (Call.status.ask repository (host ⟨#[255]⟩)).1 = .error .notText := by
  decide +kernel

end Repository

end GitReadout
