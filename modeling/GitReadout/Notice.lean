import GitReadout.Failure

/-!
# Soft failures

Some conditions degrade an answer without failing the call: a status output over the limit, a log of
no commit, an unknown name-status code. Each is a `Notice`. A reader returns those it met beside
its answer (`Reported`); a call hands them to a sink, which either keeps them or writes them to the
journal (`Logbook.report`).

* `Logbook.notices_report_memory`, `Logbook.journal_report_journal`: a report adds one entry at the
  end of the place its sink writes to.
* `Logbook.report_memory_journal`, `Logbook.report_journal_notices`: and leaves the other place as
  it is.
* `Logbook.notices_reportAll`, `Logbook.journal_reportAll`: so a logbook gains all that is reported,
  in order.
* `Sink.severity_ne_error_of_mem_entries`: no soft failure is an error in the journal.
-/

set_option autoImplicit false

namespace GitReadout

/-- A soft failure met while git was run or its output was read. -/
inductive Notice where
  /-- A status output of `size` bytes is over the limit and was not read. -/
  | statusTooLarge (size limit : Nat)
  /-- The command found no commit to start from. -/
  | noCommits (command : String)
  /-- A name-status code has no meaning and was read as a modification. -/
  | unknownCode (code path : String)
deriving DecidableEq

/-- The answer of a reader and the soft failures it met, in order. -/
structure Reported (α : Type) where
  result : Except Failure α
  notices : List Notice

/-! ## The journal -/

/-- How grave a journal entry is. -/
inductive Severity where
  | debug
  | warning
  | error
deriving DecidableEq

/-- A value that a journal entry names. -/
inductive Detail where
  | number (n : Nat)
  | text (s : String)
deriving DecidableEq

/-- An entry of the journal. -/
structure JournalEntry where
  severity : Severity
  message : String
  details : List (String × Detail)
deriving DecidableEq

/-- How the journal records a soft failure. -/
def Notice.journalEntry : Notice → JournalEntry
  | statusTooLarge size limit =>
    ⟨.warning, "git status output too large, skipping parse",
      [("size", .number size), ("limit", .number limit)]⟩
  | noCommits command =>
    ⟨.debug, "git exited with 128 (unborn HEAD or unknown revision), returning no commits",
      [("command", .text command)]⟩
  | unknownCode code path =>
    ⟨.warning, "unknown name-status code, treating as modified",
      [("code", .text code), ("path", .text path)]⟩

/-! ## Sinks -/

/-- Where soft failures go. -/
inductive Sink where
  /-- They are kept as they are. -/
  | memory
  /-- They become entries of the journal. -/
  | journal
deriving DecidableEq

/-- Everything reported so far. -/
@[ext]
structure Logbook where
  notices : Array Notice := #[]
  journal : Array JournalEntry := #[]
deriving DecidableEq

namespace Logbook

/-- Adds an entry to the journal. -/
def note (log : Logbook) (entry : JournalEntry) : Logbook :=
  { log with journal := log.journal.push entry }

/-- Hands a soft failure to a sink. -/
def report (log : Logbook) (sink : Sink) (notice : Notice) : Logbook :=
  match sink with
  | .memory => { log with notices := log.notices.push notice }
  | .journal => log.note notice.journalEntry

/-- Hands soft failures to a sink, one after another. -/
def reportAll (log : Logbook) (sink : Sink) (notices : List Notice) : Logbook :=
  notices.foldl (fun log notice => log.report sink notice) log

@[simp] theorem notices_report_memory (log : Logbook) (notice : Notice) :
    (log.report .memory notice).notices = log.notices.push notice := rfl

@[simp] theorem report_memory_journal (log : Logbook) (notice : Notice) :
    (log.report .memory notice).journal = log.journal := rfl

@[simp] theorem journal_report_journal (log : Logbook) (notice : Notice) :
    (log.report .journal notice).journal = log.journal.push notice.journalEntry := rfl

@[simp] theorem report_journal_notices (log : Logbook) (notice : Notice) :
    (log.report .journal notice).notices = log.notices := rfl

theorem reportAll_cons (log : Logbook) (sink : Sink) (notice : Notice) (rest : List Notice) :
    log.reportAll sink (notice :: rest) = (log.report sink notice).reportAll sink rest := rfl

end Logbook

/-! ## What a logbook gains -/

namespace Sink

/-- The soft failures that a sink keeps as they are. -/
def kept (sink : Sink) (notices : List Notice) : List Notice :=
  match sink with
  | memory => notices
  | journal => []

/-- The entries of the journal that a sink makes of soft failures. -/
def entries (sink : Sink) (notices : List Notice) : List JournalEntry :=
  match sink with
  | memory => []
  | journal => notices.map Notice.journalEntry

/-- Soft failures leave no entries as grave as those of errors. -/
theorem severity_ne_error_of_mem_entries {sink : Sink} {notices : List Notice}
    {entry : JournalEntry} (h : entry ∈ sink.entries notices) : entry.severity ≠ .error := by
  cases sink with
  | memory => cases h
  | journal =>
    obtain ⟨notice, -, rfl⟩ := List.mem_map.1 h
    cases notice <;> exact Severity.noConfusion

end Sink

namespace Logbook

theorem notices_reportAll (log : Logbook) (sink : Sink) (notices : List Notice) :
    (log.reportAll sink notices).notices.toList = log.notices.toList ++ sink.kept notices := by
  induction notices generalizing log with
  | nil => cases sink <;> exact (List.append_nil _).symm
  | cons notice rest ih =>
    rw [reportAll_cons, ih]
    cases sink with
    | memory =>
      rw [notices_report_memory, Array.toList_push, List.append_assoc]
      rfl
    | journal =>
      rw [report_journal_notices]
      rfl

theorem journal_reportAll (log : Logbook) (sink : Sink) (notices : List Notice) :
    (log.reportAll sink notices).journal.toList = log.journal.toList ++ sink.entries notices := by
  induction notices generalizing log with
  | nil => cases sink <;> exact (List.append_nil _).symm
  | cons notice rest ih =>
    rw [reportAll_cons, ih]
    cases sink with
    | memory =>
      rw [report_memory_journal]
      rfl
    | journal =>
      rw [journal_report_journal, Array.toList_push, List.append_assoc]
      rfl

end Logbook

end GitReadout
