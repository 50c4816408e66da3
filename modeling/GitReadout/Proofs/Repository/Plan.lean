import GitReadout.Proofs.NameStatus.Tolerance
import GitReadout.Proofs.Repository.Course
import GitReadout.Repository.Call

/-!
# The plans of the calls

Each call has a plan of one or two runs and accepts the exit code 0 in each of them. One other code
is accepted in the run of a log, one in the run that asks for the separators of trailers; everywhere
else they end the call as any code does.

* `Call.plan`: the commands of a call and the exit codes accepted in them.
* `Call.Rules`: when the second run is made, and what the two other codes come to.
* `timesNoCommits`: how often a logbook tells of a log that has no commit to start from.
* `follows_status`, `follows_log`, `follows_separators`, `follows_changes`: the kinds of calls.
* `exists_obeys`: every call on every host.
-/

set_option autoImplicit false

namespace GitReadout.Repository

open Run (GitProgram Host Outcome Output Session)

/-! ## Plans and rules -/

/-- The command of a log: the range, the limits that are set, the nine fields of a record, and the
further arguments of the query before the mark that no more options follow. -/
def logCommand (query : Log.Query) : List String :=
  ["log", query.revisionRange, "--date=raw"] ++
    (query.maxCount.toList.map fun n => "--max-count=" ++ toString n) ++
    (query.skip.toList.map fun n => "--skip=" ++ toString n) ++
    ["--format=%H%x1F%h%x1F%s%x1F%b%x1F%an <%ae> %ad%x1F%cn <%ce> %cd%x1F%P%x1F" ++
        "%(trailers:unfold,only)%x1F%D", "-z", "--no-show-signature", "--no-color"] ++
    query.extraArguments ++ ["--"]

/-- The runs of a log: the log itself, and then the separators of trailers, once for all commits. -/
def logPlan (query : Log.Query) : List PlannedRun :=
  [⟨logCommand query, [0, 128]⟩, ⟨["config", "trailer.separators"], [0, 1]⟩]

/-- The entry of the journal about a log that has no commit to start from. -/
def noCommitsEntry : JournalEntry :=
  ⟨.debug, "git exited with 128 (unborn HEAD or unknown revision), returning no commits",
    [("command", .text "log")]⟩

/-- What becomes of a logbook when a log has no commit to start from: one more entry, where the sink
puts it. -/
def withNoCommits (log : Logbook) : Sink → Logbook
  | .memory => { log with notices := log.notices.push (.noCommits "log") }
  | .journal => { log with journal := log.journal.push noCommitsEntry }

/-- Whether a soft failure is that a log has no commit to start from. -/
def isNoCommits : Notice → Bool
  | .noCommits _ => true
  | _ => false

/-- How often a logbook tells of a log that has no commit to start from. -/
def timesNoCommits (log : Logbook) : Nat :=
  log.notices.toList.countP isNoCommits +
    log.journal.toList.countP (·.message = noCommitsEntry.message)

namespace Call

/-- The runs that a call plans, each with the command as git is given it. -/
def plan : Call → List PlannedRun
  | status => [
      { arguments := ["--no-optional-locks", "status", "--untracked-files=all", "--branch",
          "--porcelain=2", "-z"] },
      { arguments := ["rev-parse", "--absolute-git-dir"] }]
  | commits query => logPlan query
  | commit reference => logPlan { revisionRange := reference, maxCount := some 1 }
  | separators => [⟨["config", "trailer.separators"], [0, 1]⟩]
  | filesChangedBy sha => [
      { arguments := ["log", sha, "-C", "-M", "-m", "-1", "--no-show-signature", "--first-parent",
          "--name-status", "--format=format:", "-z", "--"] }]
  | filesChangedBetween base head => [
      { arguments := ["diff", "--name-status", "-z", "-M", "-C", base, head, "--"] }]

/-- What a call that reads a log replies with its commits. -/
def ofLog? : Call → Option (List Log.Commit → Reply)
  | commits _ => some .commits
  | commit _ => some fun commits => .commit commits.head?
  | _ => none

/-- After which outcome of its first run a call makes the second. -/
def GoesOn (settings : Settings) (call : Call) (first : Outcome) : Prop :=
  ∃ stdout stderr, first = .finished (some 0) stdout stderr ∧
    match call with
    | status => ∃ text report, String.fromUTF8? stdout = some text ∧
        text.utf8ByteSize ≤ settings.statusLimit ∧
        Status.Report.ofItems (Status.items text) = .ok report
    | commits _ | commit _ => True
    | separators | filesChangedBy _ | filesChangedBetween _ _ => False

/-- What the outcomes of its runs say of the soft failures that a call reports and of its result. -/
structure Rules (settings : Settings) (call : Call) (outcomes : List Outcome)
    (notices : List Notice) (result : Except Failure Reply) : Prop where
  outcomes_ne_nil : outcomes ≠ []
  goesOn_iff : 1 < outcomes.length ↔
    ∃ first, outcomes.head? = some first ∧ call.GoesOn settings first
  /-- A log without a commit to start from is empty, and this is reported once. -/
  noCommits : ∀ reply, call.ofLog? = some reply → ∀ stdout stderr,
    outcomes.head? = some (.finished (some 128) stdout stderr) →
      outcomes.length = 1 ∧ result = .ok (reply []) ∧ notices = [.noCommits "log"]
  /-- Nothing else is reported so. -/
  noCommits_only : ∀ command, .noCommits command ∈ notices →
    call.ofLog?.isSome ∧ ∃ stdout stderr, outcomes = [.finished (some 128) stdout stderr]
  /-- Separators that are not set are `:` when they are asked for. -/
  notSet : call = separators → ∀ stdout stderr,
    outcomes = [.finished (some 1) stdout stderr] → result = .ok (.separators ":")
  /-- And so they are when a log is read. -/
  notSet_log : ∀ reply, call.ofLog? = some reply → ∀ log error stdout stderr,
    outcomes = [.finished (some 0) log error, .finished (some 1) stdout stderr] →
      result = (Output.text ⟨some 0, log, error⟩ >>= fun text =>
        Log.Commit.parseLog text ":").map reply

/-- Whether the first run is that of a log and ends with 128. -/
def FindsNoCommits (call : Call) (outcomes : List Outcome) : Prop :=
  call.ofLog?.isSome ∧ ∃ stdout stderr, outcomes.head? = some (.finished (some 128) stdout stderr)

/-- What holds of a call on a host, where `outcomes` are those of the runs that it tries and
`notices` the soft failures that it reports. -/
structure Obeys (call : Call) (repository : Repository GitProgram) (host : Host)
    (outcomes : List Outcome) (notices : List Notice) : Prop extends
    Rules repository.settings call outcomes notices (call.ask repository host).1,
    Leaves repository.runner.program repository.location repository.sink call.plan host outcomes
      notices (call.ask repository host).2 where
  /-- A run that is not started, or ends with a code that is not accepted in it, ends the call. -/
  failed : ∀ i run outcome failure, call.plan[i]? = some run → outcomes[i]? = some outcome →
    run.failure? outcome = some failure →
      outcomes.length = i + 1 ∧ (call.ask repository host).1 = .error failure ∧ notices = []
  /-- A log without a commit to start from adds one entry to the logbook, -/
  reported : call.FindsNoCommits outcomes →
    (call.ask repository host).2.logbook = withNoCommits host.logbook repository.sink
  /-- and nothing else adds such an entry. -/
  unreported : ¬call.FindsNoCommits outcomes →
    timesNoCommits (call.ask repository host).2.logbook = timesNoCommits host.logbook

end Call

/-! ## Reports of a log without commits -/

theorem message_eq_iff_isNoCommits (notice : Notice) :
    notice.journalEntry.message = noCommitsEntry.message ↔ isNoCommits notice := by
  cases notice <;> simp [Notice.journalEntry, noCommitsEntry, isNoCommits]

theorem message_ne_of_faultNote? {outcome : Outcome} {entry : JournalEntry}
    (h : faultNote? outcome = some entry) : entry.message ≠ noCommitsEntry.message := by
  cases outcome with
  | finished => cases h
  | notStarted fault =>
    cases h
    cases fault <;> decide

/-- A logbook tells of such a log once more for each report of it. -/
theorem Leaves.timesNoCommits_eq {program directory : String} {sink : Sink}
    {plan : List PlannedRun} {host after : Host} {outcomes : List Outcome} {notices : List Notice}
    (h : Leaves program directory sink plan host outcomes notices after) :
    timesNoCommits after.logbook = timesNoCommits host.logbook + notices.countP isNoCommits := by
  have hfaults : (outcomes.filterMap faultNote?).countP
      (·.message = noCommitsEntry.message) = 0 := by
    refine List.countP_eq_zero.2 fun entry hentry => ?_
    obtain ⟨outcome, -, hfault⟩ := List.mem_filterMap.1 hentry
    simpa using message_ne_of_faultNote? hfault
  simp only [timesNoCommits, h.notices_eq, h.journal_eq, List.countP_append, hfaults]
  cases sink with
  | memory =>
    simp only [Sink.kept, Sink.entries, List.countP_nil]
    omega
  | journal =>
    have hentries : (notices.map Notice.journalEntry).countP
        (·.message = noCommitsEntry.message) = notices.countP isNoCommits := by
      simp only [List.countP_map, Function.comp_def, message_eq_iff_isNoCommits,
        Bool.decide_eq_true]
    simp only [Sink.kept, Sink.entries, List.countP_nil, hentries]
    omega

section
variable {settings : Settings} {call : Call}

/-! ## When a call goes on -/

theorem Call.goesOn_status_iff {stdout stderr : ByteArray} :
    status.GoesOn settings (.finished (some 0) stdout stderr) ↔
      ∃ text report, String.fromUTF8? stdout = some text ∧
        text.utf8ByteSize ≤ settings.statusLimit ∧
        Status.Report.ofItems (Status.items text) = .ok report := by
  constructor
  · rintro ⟨_, _, hfirst, hgoesOn⟩
    cases hfirst
    exact hgoesOn
  · exact fun hgoesOn => ⟨stdout, stderr, rfl, hgoesOn⟩

theorem Call.goesOn_of_log {reply : List Log.Commit → Reply} (h : call.ofLog? = some reply)
    (stdout stderr : ByteArray) : call.GoesOn settings (.finished (some 0) stdout stderr) := by
  cases call <;> cases h <;> exact ⟨_, _, rfl, trivial⟩

theorem Call.not_goesOn_of_plan {run : PlannedRun} (h : call.plan = [run]) (first : Outcome) :
    ¬call.GoesOn settings first := by
  rintro ⟨_, _, -, hgoesOn⟩
  cases call <;> cases h <;> exact hgoesOn

theorem Call.eq_of_goesOn {first : Outcome} (h : call.GoesOn settings first) :
    ∃ stdout stderr, first = .finished (some 0) stdout stderr :=
  ⟨_, _, h.choose_spec.choose_spec.1⟩

/-! ## Rules, by the runs made -/

namespace Call.Rules

/-- The first run fails. -/
theorem of_failure {run : PlannedRun} {outcome : Outcome} {failure : Failure}
    (hrun : call.plan.head? = some run) (hfailure : run.failure? outcome = some failure) :
    call.Rules settings [outcome] [] (.error failure) where
  outcomes_ne_nil := List.cons_ne_nil _ _
  goesOn_iff := by
    have hzero : (0 : Int) ∈ run.accepted := by
      cases call <;> cases hrun <;> simp
    refine iff_of_false (by simp) ?_
    rintro ⟨_, hfirst, hgoesOn⟩
    cases hfirst
    obtain ⟨stdout, stderr, rfl⟩ := eq_of_goesOn hgoesOn
    exact failure?_ne_some_of_mem hzero stdout stderr hfailure
  noCommits := by
    intro reply hreply stdout stderr hfirst
    have haccepted : (128 : Int) ∈ run.accepted := by
      cases call <;> cases hreply <;> cases hrun <;> simp
    cases hfirst
    exact absurd hfailure (failure?_ne_some_of_mem haccepted stdout stderr)
  noCommits_only := by simp
  notSet := by
    rintro rfl stdout stderr houtcomes
    cases houtcomes
    cases hrun
    exact absurd hfailure (failure?_ne_some_of_mem (by decide) stdout stderr)
  notSet_log := by simp

/-- The first run is accepted and no other is made, in a call that reads no log. -/
theorem of_first {first : Outcome} {notices : List Notice} {result : Except Failure Reply}
    (hlog : call.ofLog? = none) (hgoesOn : ¬call.GoesOn settings first)
    (hnotices : ∀ command, .noCommits command ∉ notices)
    (hnotSet : call = separators → ∀ stdout stderr, first = .finished (some 1) stdout stderr →
      result = .ok (.separators ":")) :
    call.Rules settings [first] notices result where
  outcomes_ne_nil := List.cons_ne_nil _ _
  goesOn_iff := by simpa using hgoesOn
  noCommits := by simp [hlog]
  noCommits_only command h := absurd h (hnotices command)
  notSet := by simpa using hnotSet
  notSet_log := by simp

/-- The log has no commit to start from. -/
theorem of_noCommits {reply : List Log.Commit → Reply} (hreply : call.ofLog? = some reply)
    (stdout stderr : ByteArray) :
    call.Rules settings [.finished (some 128) stdout stderr] [.noCommits "log"]
      (.ok (reply [])) where
  outcomes_ne_nil := List.cons_ne_nil _ _
  goesOn_iff := by
    refine iff_of_false (by simp) ?_
    rintro ⟨_, hfirst, hgoesOn⟩
    cases hfirst
    obtain ⟨_, _, hfirst⟩ := eq_of_goesOn hgoesOn
    cases hfirst
  noCommits := by
    intro reply' hreply' _ _ _
    cases hreply.symm.trans hreply'
    exact ⟨rfl, rfl, rfl⟩
  noCommits_only _ _ := ⟨by simp [hreply], stdout, stderr, rfl⟩
  notSet := by
    rintro rfl
    cases hreply
  notSet_log := by simp

/-- There is a second run. -/
theorem of_second {first second : Outcome} {result : Except Failure Reply}
    (hfirst : call.GoesOn settings first)
    (hnotSet : ∀ reply, call.ofLog? = some reply → ∀ log error stdout stderr,
      first = .finished (some 0) log error → second = .finished (some 1) stdout stderr →
        result = (Output.text ⟨some 0, log, error⟩ >>= fun text =>
          Log.Commit.parseLog text ":").map reply) :
    call.Rules settings [first, second] [] result where
  outcomes_ne_nil := List.cons_ne_nil _ _
  goesOn_iff := iff_of_true (by simp) ⟨first, rfl, hfirst⟩
  noCommits := by
    obtain ⟨stdout, stderr, rfl⟩ := eq_of_goesOn hfirst
    intro reply hreply _ _ houtcome
    cases houtcome
  noCommits_only := by simp
  notSet := by simp
  notSet_log := by
    intro reply hreply log error stdout stderr houtcomes
    cases houtcomes
    exact hnotSet reply hreply log error stdout stderr rfl rfl

/-- The second run fails. -/
theorem of_failure_second {first second : Outcome} {run : PlannedRun} {failure : Failure}
    (hfirst : call.GoesOn settings first) (hrun : call.plan[1]? = some run)
    (hfailure : run.failure? second = some failure) :
    call.Rules settings [first, second] [] (.error failure) := by
  refine of_second hfirst fun reply hreply log error stdout stderr _ hsecond => ?_
  have haccepted : (1 : Int) ∈ run.accepted := by
    cases call <;> cases hreply <;> cases hrun <;> simp
  rw [hsecond] at hfailure
  exact absurd hfailure (failure?_ne_some_of_mem haccepted stdout stderr)

/-! ## What the logbook gains, by the rules -/

/-- The logbook gains one entry from a log without a commit to start from. -/
theorem logbook_eq {program directory : String} {sink : Sink} {plan : List PlannedRun}
    {host after : Host} {outcomes : List Outcome} {notices : List Notice}
    {result : Except Failure Reply} (h : call.Rules settings outcomes notices result)
    (hleaves : Leaves program directory sink plan host outcomes notices after)
    (hfinds : call.FindsNoCommits outcomes) :
    after.logbook = withNoCommits host.logbook sink := by
  obtain ⟨hlog, stdout, stderr, hfirst⟩ := hfinds
  obtain ⟨reply, hreply⟩ := Option.isSome_iff_exists.1 hlog
  obtain ⟨hlength, -, rfl⟩ := h.noCommits reply hreply stdout stderr hfirst
  obtain ⟨outcome, rfl⟩ := List.length_eq_one_iff.1 hlength
  cases hfirst
  have hnotices := hleaves.notices_eq
  have hjournal : after.logbook.journal.toList =
      host.logbook.journal.toList ++ sink.entries [.noCommits "log"] :=
    hleaves.journal_eq.trans (List.append_nil _)
  cases sink <;> refine Logbook.ext (Array.toList_inj.1 ?_) (Array.toList_inj.1 ?_)
  case memory.refine_1 => exact hnotices.trans Array.toList_push.symm
  case memory.refine_2 => exact hjournal.trans (List.append_nil _)
  case journal.refine_1 => exact hnotices.trans (List.append_nil _)
  case journal.refine_2 => exact hjournal.trans Array.toList_push.symm

/-- No other course of a call reports such a log. -/
theorem countP_eq_zero {outcomes : List Outcome} {notices : List Notice}
    {result : Except Failure Reply} (h : call.Rules settings outcomes notices result)
    (hother : ¬call.FindsNoCommits outcomes) : notices.countP isNoCommits = 0 := by
  refine List.countP_eq_zero.2 fun notice hnotice htells => hother ?_
  cases notice with
  | noCommits command =>
    obtain ⟨hlog, stdout, stderr, rfl⟩ := h.noCommits_only command hnotice
    exact ⟨hlog, stdout, stderr, rfl⟩
  | statusTooLarge | unknownCode => cases htells

end Call.Rules

/-! ## The kinds of calls -/

theorem logPlan_eq (query : Log.Query) :
    logPlan query = [⟨query.arguments, [0, 128]⟩, ⟨separatorArguments, [0, 1]⟩] := by
  have hformat : Log.formatArgument =
      "--format=%H%x1F%h%x1F%s%x1F%b%x1F%an <%ae> %ad%x1F%cn <%ce> %cd%x1F%P%x1F" ++
        "%(trailers:unfold,only)%x1F%D" := by decide
  obtain ⟨_, _ | _, _ | _, _⟩ := query <;>
    simp [logPlan, logCommand, Log.Query.arguments, hformat, separatorArguments]

variable (repository : Repository GitProgram) (host : Host)

theorem follows_status :
    Follows repository Call.status.plan (Call.status.ask repository) host
      (Call.status.Rules repository.settings) := by
  refine .assoc (.git (fun outcome failure => .of_failure rfl) ?_)
  intro code hcode stdout stderr after
  obtain rfl := List.mem_singleton.1 hcode
  have hends {notices : List Notice} {result : Except Failure Reply}
      (hstays : ¬Call.status.GoesOn repository.settings (.finished (some 0) stdout stderr))
      (hnotices : ∀ command, .noCommits command ∉ notices) :
      Call.status.Rules repository.settings [.finished (some 0) stdout stderr] notices result :=
    .of_first rfl hstays hnotices (by simp)
  rw [Call.goesOn_status_iff] at hends
  refine .assoc ?_
  rcases htext : String.fromUTF8? stdout with _ | text
  · have hread : Output.text ⟨some 0, stdout, stderr⟩ = .error .notText := by
      simp [Output.text, htext]
    rw [hread]
    exact .bind_error rfl (hends (by simp [htext]) (by simp))
  · have hread : Output.text ⟨some 0, stdout, stderr⟩ = .ok text := by
      simp [Output.text, htext]
    rw [hread]
    refine .bind_ok rfl (.assoc ?_)
    by_cases hsize : text.utf8ByteSize ≤ repository.settings.statusLimit
    · rw [Status.Report.parse_of_size_le hsize]
      rcases hreport : Status.Report.ofItems (Status.items text) with e | report
      · exact .bind_error rfl (hends (by simp [htext, hreport]) (by simp))
      · have hgoesOn : Call.status.GoesOn repository.settings (.finished (some 0) stdout stderr) :=
          Call.goesOn_status_iff.2 ⟨text, report, htext, hsize, hreport⟩
        refine .bind_ok (b := some report) rfl (.assoc ?_)
        refine .git (fun outcome failure => .of_failure_second hgoesOn rfl) ?_
        intro code _ stdout stderr after
        refine .of_quiet ?_ fun result => .of_second hgoesOn (by simp [Call.ofLog?])
        -- only the marks of the git directory are looked for
        refine ((quiet_lift _).bind fun directory => ?_).bind fun report => quiet_lift _
        exact (answers_marks _ report).quiet
    · rw [Status.Report.parse_of_limit_lt (Nat.not_le.1 hsize)]
      exact .finish [.statusTooLarge text.utf8ByteSize repository.settings.statusLimit]
        (.ok (.status none)) rfl (hends (by simp [htext, hsize]) (by simp))

/-- The calls that read a log. -/
theorem follows_log {reply : List Log.Commit → Reply} (hreply : call.ofLog? = some reply)
    {query : Log.Query} (hplan : call.plan = logPlan query)
    (hask : call.ask repository =
      repository.commits query >>= fun commits => pure (reply commits)) :
    Follows repository call.plan (call.ask repository) host (call.Rules repository.settings) := by
  have hgoesOn : ∀ stdout stderr,
      call.GoesOn repository.settings (.finished (some 0) stdout stderr) :=
    Call.goesOn_of_log hreply
  rw [logPlan_eq] at hplan
  rw [hask, hplan]
  refine .assoc (.git (fun outcome failure => .of_failure (by rw [hplan]; rfl)) ?_)
  intro code hcode log error after
  obtain rfl | rfl : code = 0 ∨ code = 128 := by simpa using hcode
  · have hcommit : (some 0 : Option Int) ≠ some noCommitExitCode := by decide
    rw [if_neg hcommit]
    refine .assoc (.assoc ?_)
    refine .git (fun outcome failure =>
      .of_failure_second (hgoesOn log error) (by rw [hplan]; rfl)) ?_
    intro code hcode stdout stderr after
    obtain rfl | rfl : code = 0 ∨ code = 1 := by simpa using hcode
    · refine .of_quiet ?_ fun result => .of_second (hgoesOn log error) (by simp)
      refine (quiet_lift _).bind fun separators => ?_
      exact ((quiet_lift _).bind fun text => quiet_lift _).bind fun commits => quiet_lift _
    · refine .bind_ok (b := ":") rfl ?_
      rw [Session.lift_bind_lift, Session.lift_bind_pure]
      refine .finish [] _ rfl (.of_second (hgoesOn log error) ?_)
      intro reply' hreply' _ _ _ _ hfirst _
      cases hfirst
      cases hreply.symm.trans hreply'
      rfl
  · exact .finish [.noCommits "log"] (.ok (reply [])) rfl (.of_noCommits hreply log error)

theorem follows_separators :
    Follows repository Call.separators.plan (Call.separators.ask repository) host
      (Call.separators.Rules repository.settings) := by
  refine .assoc (.git (fun outcome failure => .of_failure rfl) ?_)
  intro code hcode stdout stderr after
  have hgoesOn : ∀ first, ¬Call.separators.GoesOn repository.settings first :=
    Call.not_goesOn_of_plan rfl
  obtain rfl | rfl : code = 0 ∨ code = 1 := by simpa using hcode
  · refine .of_quiet ((quiet_lift _).bind fun separators => quiet_lift _) fun result => ?_
    exact .of_first rfl (hgoesOn _) (by simp) (by simp)
  · exact .finish [] (.ok (.separators ":")) rfl (.of_first rfl (hgoesOn _) (by simp) (by simp))

/-- The calls that read changed files. -/
theorem follows_changes {run : PlannedRun} {commitish : String} (hplan : call.plan = [run])
    (hlog : call.ofLog? = none) (hcall : call ≠ .separators)
    (hask : call.ask repository = repository.git run.arguments (.ofCodes run.accepted) >>=
      fun output => repository.readChanges output commitish >>= fun changes =>
        pure (Reply.changes changes)) :
    Follows repository call.plan (call.ask repository) host (call.Rules repository.settings) := by
  rw [hask, hplan]
  refine .git (fun outcome failure => .of_failure (by rw [hplan]; rfl)) ?_
  intro code hcode stdout stderr after
  have hends {notices : List Notice} {result : Except Failure Reply}
      (hnotices : ∀ command, .noCommits command ∉ notices) :
      call.Rules repository.settings [.finished (some code) stdout stderr] notices result :=
    .of_first hlog (Call.not_goesOn_of_plan hplan _) hnotices (by simp [hcall])
  refine .assoc ?_
  rcases Output.text ⟨some code, stdout, stderr⟩ with e | text
  · exact .bind_error rfl (hends (by simp))
  · refine .bind_ok rfl ?_
    rw [Session.ofReported_bind_pure]
    refine .finish _ _ rfl (hends fun command hcommand => ?_)
    obtain ⟨_, _, hnotice⟩ := NameStatus.exists_unknownCode_of_mem_parse _ hcommand
    cases hnotice

theorem follows (call : Call) :
    Follows repository call.plan (call.ask repository) host (call.Rules repository.settings) := by
  cases call with
  | status => exact follows_status repository host
  | commits query => exact follows_log repository host rfl rfl rfl
  | commit reference => exact follows_log repository host rfl rfl (Session.bind_assoc _ _ _)
  | separators => exact follows_separators repository host
  | filesChangedBy sha =>
    exact follows_changes repository host rfl rfl (by simp) (Session.bind_assoc _ _ _)
  | filesChangedBetween base head =>
    exact follows_changes repository host rfl rfl (by simp) (Session.bind_assoc _ _ _)

end

/-- **Every call keeps to its plan, on every host.** The runs that it tries are the first of the
plan, with the outcomes that the host has for them, and the host is left as they leave it. A call
goes on after the first exactly where it may; a run that fails ends it with the error of that run
and nothing reported; of the two codes accepted beside 0, the one makes an empty log, of which the
logbook tells once, and the other the separators `:`. -/
theorem exists_obeys (repository : Repository GitProgram) (call : Call) (host : Host) :
    ∃ outcomes notices, call.Obeys repository host outcomes notices := by
  obtain ⟨outcomes, notices, hcourse, hrules⟩ := follows repository host call
  have hleaves := hcourse.leaves
  refine ⟨outcomes, notices,
    { toRules := hrules
      toLeaves := hleaves
      failed := fun _ _ _ _ => hcourse.failed
      reported := hrules.logbook_eq hleaves
      unreported := fun hother => ?_ }⟩
  rw [hleaves.timesNoCommits_eq, hrules.countP_eq_zero hother, Nat.add_zero]

/-- The exit code 128 in the first run: a log goes without commits, a status fails. -/
example :
    let host : Host :=
      { script := [.finished (some 128) .empty .empty], afterwards := .notStarted .notFound }
    let repository : Repository GitProgram := { location := "", runner := {}, sink := .memory }
    ((Call.commit "HEAD").ask repository host).1 = .ok (.commit none) ∧
      (Call.status.ask repository host).1 = .error (.rejectedExit (some 128) "" "") := by
  decide +kernel

end GitReadout.Repository
