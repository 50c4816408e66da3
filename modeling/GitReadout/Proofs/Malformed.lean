import GitReadout.Proofs.Log.Batch
import GitReadout.Proofs.NameStatus.Tolerance
import GitReadout.Proofs.Status.Header
import GitReadout.Proofs.Status.Walk

/-!
# Errors of the readers

The readers of a status, of a log and of changed files meet names that break the rules, numbers that
are none and records that end too early. Each of them turns what it meets into an error of its own
that names the record, so `Failure.isMalformed` holds of all errors of readers.

* `Status.exists_badStatus_of_parse`: the errors of a status.
* `Log.isMalformed_of_parse`, `Log.isMalformed_of_parseLog`: the errors of a commit and of a log.
* `NameStatus.isMalformed_of_parse`: the errors of changed files.
-/

set_option autoImplicit false

namespace GitReadout

/-! ## Status outputs -/

namespace Status

theorem exists_badStatus_of_mem_items {output : String} {e : Failure}
    (h : .error e ∈ items output) : ∃ record reason, e = .badStatus record reason := by
  obtain ⟨ws, rest, -, ⟨-, hitems⟩ | ⟨record, more, fault, -, -, hitems⟩⟩ := exists_walk output
  · rw [hitems] at h
    simp at h
  · rw [hitems] at h
    exact ⟨_, _, by simpa using h⟩

/-- Every error of a header names the header. -/
theorem exists_fault_of_applyHeader {report : Report} {header : Header} {e : Failure}
    (h : report.applyHeader header = .error e) : ∃ fault, e = header.fault fault := by
  unfold Report.applyHeader at h
  split at h
  · exact ⟨_, ((header.tip_reads.2 e).1 (map_eq_error_iff.1 h)).2⟩
  · exact ⟨_, ((header.branch_reads.2 e).1 (map_eq_error_iff.1 h)).2⟩
  · cases h
  · exact ⟨_, ((header.divergence_reads.2 e).1 (map_eq_error_iff.1 h)).2⟩
  · exact ⟨_, ((header.stashes_reads.2 e).1 (map_eq_error_iff.1 h)).2⟩
  · cases h

theorem exists_badStatus_of_applyAll {items : List (Except Failure Item)} {report : Report}
    {e : Failure} (hitems : ∀ e, .error e ∈ items → ∃ record reason, e = .badStatus record reason)
    (h : report.applyAll items = .error e) : ∃ record reason, e = .badStatus record reason := by
  induction items generalizing report with
  | nil => cases h
  | cons item rest ih =>
    have hrest := fun e he => hitems e (List.mem_cons_of_mem _ he)
    cases item with
    | error fault =>
      cases h
      exact hitems e List.mem_cons_self
    | ok item =>
      unfold Report.applyAll at h
      split at h
      · exact ih hrest h
      · rename_i fault happly
        cases h
        cases item with
        | entry entry => cases happly
        | header header =>
          obtain ⟨fault, rfl⟩ := exists_fault_of_applyHeader happly
          exact ⟨_, _, rfl⟩

theorem exists_badStatus_of_parse {output : String} {settings : Settings} {e : Failure}
    (h : (Report.parse output settings).result = .error e) :
    ∃ record reason, e = .badStatus record reason := by
  unfold Report.parse at h
  split at h
  · cases h
  · rw [map_eq_error_iff, Report.ofItems] at h
    exact exists_badStatus_of_applyAll (fun _ => exists_badStatus_of_mem_items) h

theorem isMalformed_of_parse {output : String} {settings : Settings} {e : Failure}
    (h : (Report.parse output settings).result = .error e) : e.isMalformed := by
  obtain ⟨record, reason, rfl⟩ := exists_badStatus_of_parse h
  rfl

end Status

/-! ## Logs -/

namespace Log

theorem Refuses.isMalformed {record : List Char} {e : Failure} (h : Refuses record e) :
    e.isMalformed := by
  cases h <;> rfl

theorem isMalformed_of_parse {record separators : String} {e : Failure}
    (h : Commit.parse record separators = .error e) : e.isMalformed := by
  rw [← String.ofList_toList (s := record), parse_eq_error_iff] at h
  exact h.isMalformed

theorem isMalformed_of_parseLog {output separators : String} {e : Failure}
    (h : Commit.parseLog output separators = .error e) : e.isMalformed := by
  obtain ⟨_, record, _, -, -, hrecord⟩ := mapM_eq_error_iff.1 h
  exact isMalformed_of_parse hrecord

end Log

/-! ## Changed files -/

namespace NameStatus

theorem exists_unknownCode_of_toChange {record : Record} {commitish : String}
    {tolerance : Tolerance} {e : Failure} (h : record.toChange commitish tolerance = .error e) :
    ∃ code, e = .unknownCode code := by
  rw [Record.toChange, map_eq_error_iff] at h
  unfold ofCode at h
  split at h <;> cases h
  exact ⟨_, rfl⟩

theorem isMalformed_of_collect {commitish : String} {tolerance : Tolerance} {fault : Option Failure}
    {records : List Record} {e : Failure} (hfault : ∀ e, fault = some e → e.isMalformed)
    (h : (Change.collect commitish tolerance fault records).result = .error e) : e.isMalformed := by
  induction records with
  | nil =>
    cases fault with
    | none => cases h
    | some fault =>
      cases h
      exact hfault e rfl
  | cons record rest ih =>
    cases hchange : record.toChange commitish tolerance with
    | error fault =>
      rw [Change.collect_cons_error hchange] at h
      cases h
      obtain ⟨code, rfl⟩ := exists_unknownCode_of_toChange hchange
      rfl
    | ok change =>
      rw [Change.collect_cons_ok hchange, map_eq_error_iff] at h
      exact ih h

theorem isMalformed_of_parse {output commitish : String} {tolerance : Tolerance} {e : Failure}
    (h : (Change.parse output commitish tolerance).result = .error e) : e.isMalformed := by
  refine isMalformed_of_collect (fun fault hfault => ?_) h
  have hwalks := walks_records output
  rw [hfault] at hwalks
  obtain ⟨index, reason, rfl⟩ := hwalks.exists_badNameStatus
  rfl

end NameStatus

end GitReadout
