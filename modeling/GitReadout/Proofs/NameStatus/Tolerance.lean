import GitReadout.Proofs.NameStatus.Encoding

/-!
# Tolerant and strict reading

The two ways to read a name-status output take the same walk over its tokens and only part at codes
without a meaning. The tolerant one reports each of them and goes on to the end or the fault of the
walk; the strict one fails at the first and never reports anything.

* `walks_records`: the records of an output are those that the cursor reads from the start, one by
  one, up to the end or a fault.
* `isSome_oldPath_of_next?`: a record has a source exactly when its code is scored, which is why the
  two notions of a known code agree on every record that is read.
* `collect_strict`: strict reading, from the tolerant reading of the same records.
* `parse_strict_parse_lenient`: both readings of a whole output.
-/

set_option autoImplicit false

namespace GitReadout.NameStatus

/-! ## Codes with a meaning -/

/-- The codes that have a meaning: five letters, and `R` or `C` with decimal digits or nothing after
it. -/
def HasMeaning (code : String) : Prop :=
  code ∈ ["M", "T", "A", "D", "?"] ∨
    ∃ letter score, code.toList = letter :: score ∧ letter ∈ ['R', 'C'] ∧
      ∀ digit ∈ score, Text.isDecimalDigit digit

theorem isSome_ofLetter?_iff {code : String} :
    (ofLetter? code).isSome ↔ code ∈ ["M", "T", "A", "D", "?"] := by
  unfold ofLetter?
  split <;> simp_all

theorem isScored_iff {code : String} :
    isScored code ↔ ∃ letter score, code.toList = letter :: score ∧ letter ∈ ['R', 'C'] ∧
      ∀ digit ∈ score, Text.isDecimalDigit digit := by
  unfold isScored
  split <;> simp_all

theorem isKnown_iff {code : String} : isKnown code ↔ HasMeaning code := by
  rw [isKnown, Bool.or_eq_true, isSome_ofLetter?_iff, isScored_iff, HasMeaning]

instance (code : String) : Decidable (HasMeaning code) :=
  decidable_of_iff _ isKnown_iff

section
variable {code : String} {oldPath : Option String}

theorem ofCode_of_hasMeaning (h : HasMeaning code) (hsource : oldPath.isSome = isScored code) :
    ∃ status, ∀ tolerance, ofCode code oldPath tolerance = .ok status := by
  rcases hletter : ofLetter? code with _ | status
  · -- then the code is scored, so its source is there
    have hscored : isScored code := by
      simpa [isKnown, hletter] using isKnown_iff.2 h
    obtain ⟨source, rfl⟩ := Option.isSome_iff_exists.1 (hsource.trans hscored)
    refine ⟨if code.toList.head? = some 'R' then .renamed source else .copied source,
      fun tolerance => ?_⟩
    simp [ofCode, hletter, ofScore?, hscored]
  · exact ⟨status, fun tolerance => by simp [ofCode, hletter]⟩

theorem ofCode_of_not_hasMeaning (h : ¬HasMeaning code) (oldPath : Option String) :
    ofCode code oldPath .lenient = .ok .modified ∧
      ofCode code oldPath .strict = .error (.unknownCode code) := by
  rw [← isKnown_iff, isKnown, Bool.or_eq_true, not_or] at h
  have hletter : ofLetter? code = none := by simpa using h.1
  simp [ofCode, hletter, ofScore?, h.2]

end

/-! ## The walk -/

/-- The walk of the cursor over tokens from a position: the records it reads, one by one, and the
fault that ends it unless it comes to the end. -/
inductive Walks (tokens : Array String) : Nat → List Record → Option Failure → Prop
  | done {index : Nat} : next? tokens index = .ok none → Walks tokens index [] none
  | fault {index : Nat} {e : Failure} :
    next? tokens index = .error e → Walks tokens index [] (some e)
  | step {index after : Nat} {record : Record} {rest : List Record} {fault : Option Failure} :
    next? tokens index = .ok (some (record, after)) → Walks tokens after rest fault →
      Walks tokens index (record :: rest) fault

theorem exists_walks (tokens : Array String) (index : Nat) (found : Array Record) :
    ∃ rest, (recordsFrom tokens index found).1 = found.toList ++ rest ∧
      Walks tokens index rest (recordsFrom tokens index found).2 := by
  fun_induction recordsFrom tokens index found with
  | case1 index found e h => exact ⟨[], by simp, .fault h⟩
  | case2 index found h => exact ⟨[], by simp, .done h⟩
  | case3 index found record after h ih =>
    obtain ⟨rest, hrest, hwalks⟩ := ih
    exact ⟨record :: rest, by rw [hrest]; simp, .step h hwalks⟩

theorem walks_records (output : String) :
    Walks (tokensOf output) 0 (records output).1 (records output).2 := by
  obtain ⟨rest, hrest, hwalks⟩ := exists_walks (tokensOf output) 0 #[]
  rw [records, hrest]
  exact hwalks

section
variable {tokens : Array String} {index : Nat}

theorem isSome_oldPath_of_next? {record : Record} {after : Nat}
    (h : next? tokens index = .ok (some (record, after))) :
    record.oldPath.isSome = isScored record.code := by
  unfold next? at h
  split at h
  · cases h
  · obtain ⟨read, hread, h⟩ := map_eq_ok_iff.1 h
    obtain rfl : read = (record, after) := by simpa using h
    obtain ⟨hcode, hsource, -⟩ := readAt_eq_ok_iff.1 hread
    rw [hcode, hsource]

theorem Walks.isSome_oldPath {found : List Record} {fault : Option Failure}
    (h : Walks tokens index found fault) :
    ∀ record ∈ found, record.oldPath.isSome = isScored record.code := by
  induction h with
  | done => simp
  | fault => simp
  | step hnext _ ih => exact List.forall_mem_cons.2 ⟨isSome_oldPath_of_next? hnext, ih⟩

theorem Walks.exists_badNameStatus {found : List Record} {e : Failure}
    (h : Walks tokens index found (some e)) : ∃ index reason, e = .badNameStatus index reason := by
  generalize hfault : some e = fault at h
  induction h with
  | done => cases hfault
  | fault hnext =>
    cases hfault
    obtain ⟨index, reason, he, -⟩ := fault_of_next? hnext
    exact ⟨index, reason, he⟩
  | step _ _ ih => exact ih hfault

end

/-! ## The two readings -/

/-- The records whose code has no meaning. -/
def unknownOf (found : List Record) : List Record :=
  found.filter fun record => ¬HasMeaning record.code

/-- The report that a record with an unknown code is worth. -/
def Record.warning (record : Record) : Notice :=
  .unknownCode record.code record.path

section
variable (commitish : String) (fault : Option Failure) {found : List Record}

theorem Record.toChange_of_hasMeaning {record : Record} (h : HasMeaning record.code)
    (hsource : record.oldPath.isSome = isScored record.code) (commitish : String) :
    record.notice? = none ∧
      ∃ change, ∀ tolerance, record.toChange commitish tolerance = .ok change := by
  obtain ⟨status, hstatus⟩ := ofCode_of_hasMeaning h hsource
  exact ⟨by rw [Record.notice?, if_pos (isKnown_iff.2 h)], ⟨record.path, status, commitish⟩,
    fun tolerance => toChange_of_ok (hstatus tolerance) commitish⟩

theorem Record.toChange_of_not_hasMeaning {record : Record} (h : ¬HasMeaning record.code)
    (commitish : String) :
    record.notice? = some record.warning ∧
      record.toChange commitish .lenient = .ok ⟨record.path, .modified, commitish⟩ ∧
      record.toChange commitish .strict = .error (.unknownCode record.code) := by
  obtain ⟨hlenient, hstrict⟩ := ofCode_of_not_hasMeaning h record.oldPath
  refine ⟨?_, toChange_of_ok hlenient commitish, ?_⟩
  · rw [Record.notice?, if_neg (by rwa [isKnown_iff])]
    rfl
  · rw [Record.toChange, hstrict]
    rfl

theorem notices_collect_lenient
    (h : ∀ record ∈ found, record.oldPath.isSome = isScored record.code) :
    (Change.collect commitish .lenient fault found).notices =
      (unknownOf found).map Record.warning := by
  induction found with
  | nil => rfl
  | cons record rest ih =>
    obtain ⟨hsource, hrest⟩ := List.forall_mem_cons.1 h
    by_cases hmeaning : HasMeaning record.code
    · obtain ⟨hnotice, change, hchange⟩ := record.toChange_of_hasMeaning hmeaning hsource commitish
      rw [Change.collect_cons_ok (hchange .lenient), hnotice, ih hrest]
      simp [unknownOf, hmeaning]
    · obtain ⟨hnotice, hchange, -⟩ := record.toChange_of_not_hasMeaning hmeaning commitish
      rw [Change.collect_cons_ok hchange, hnotice, ih hrest]
      simp [unknownOf, hmeaning]

/-- Strict reading ends with the first unknown code, and is tolerant reading when there is none. -/
theorem collect_strict (h : ∀ record ∈ found, record.oldPath.isSome = isScored record.code) :
    Change.collect commitish .strict fault found =
      ⟨(unknownOf found).head?.elim (Change.collect commitish .lenient fault found).result
        fun record => .error (.unknownCode record.code), []⟩ := by
  induction found with
  | nil => rfl
  | cons record rest ih =>
    obtain ⟨hsource, hrest⟩ := List.forall_mem_cons.1 h
    by_cases hmeaning : HasMeaning record.code
    · obtain ⟨hnotice, change, hchange⟩ := record.toChange_of_hasMeaning hmeaning hsource commitish
      have hunknown : unknownOf (record :: rest) = unknownOf rest := by
        simp [unknownOf, hmeaning]
      rw [Change.collect_cons_ok (hchange .strict), Change.collect_cons_ok (hchange .lenient),
        hnotice, ih hrest, hunknown]
      cases (unknownOf rest).head? <;> rfl
    · obtain ⟨-, -, hchange⟩ := record.toChange_of_not_hasMeaning hmeaning commitish
      rw [Change.collect_cons_error hchange]
      simp [unknownOf, hmeaning]

/-- Whatever the tolerance, only unknown codes are reported. -/
theorem exists_unknownCode_of_mem_parse {output : String} {tolerance : Tolerance} {notice : Notice}
    (h : notice ∈ (Change.parse output commitish tolerance).notices) :
    ∃ code path, notice = .unknownCode code path := by
  have hsource := (walks_records output).isSome_oldPath
  cases tolerance with
  | lenient =>
    rw [Change.parse, notices_collect_lenient commitish _ hsource] at h
    obtain ⟨record, -, rfl⟩ := List.mem_map.1 h
    exact ⟨record.code, record.path, rfl⟩
  | strict =>
    rw [Change.parse, collect_strict commitish _ hsource] at h
    cases h

variable {commitish fault}

theorem result_collect_lenient_eq_error_iff {e : Failure} :
    (Change.collect commitish .lenient fault found).result = .error e ↔ fault = some e := by
  cases fault with
  | none =>
    obtain ⟨changes, hall⟩ := exists_describes commitish found
    rw [(collect_lenient changes).2 ⟨rfl, hall⟩]
    simp
  | some other =>
    -- a fault leaves no changes, so the reading fails, and with the fault of the end
    induction found with
    | nil => simp [Change.collect_nil]
    | cons record rest ih =>
      obtain ⟨status, hstatus⟩ := ofCode_lenient record.code record.oldPath
      rw [Change.collect_cons_ok (Record.toChange_of_ok hstatus commitish), map_eq_error_iff, ih]

theorem forall₂_modified {changes : List Change}
    (h : (Change.collect commitish .lenient fault found).result = .ok changes) :
    List.Forall₂ (fun record change => ¬HasMeaning record.code →
      change = ⟨record.path, .modified, commitish⟩) found changes := by
  refine ((collect_lenient changes).1 h).2.imp ?_
  rintro record ⟨path, status, commit⟩ ⟨rfl, rfl, hstatus⟩ hmeaning
  obtain ⟨hlenient, -⟩ := ofCode_of_not_hasMeaning hmeaning record.oldPath
  rw [Except.ok.inj (hlenient.symm.trans hstatus)]

end

/-- **Tolerant and strict reading of one output.** They take the same walk. The strict one reports
nothing. Where the tolerant one reports nothing either, they give the same; where it reports
something, the strict one fails with the code of the first report. The tolerant one fails only
where the walk does, and reports exactly the records read whose code has no meaning, each of which
it gives as a modification. -/
theorem parse_strict_parse_lenient (output commitish : String) :
    ∃ found fault, Walks (tokensOf output) 0 found fault ∧
      (Change.parse output commitish .strict).notices = [] ∧
      ((Change.parse output commitish .lenient).notices = [] →
        (Change.parse output commitish .strict).result =
          (Change.parse output commitish .lenient).result) ∧
      (∀ notice rest, (Change.parse output commitish .lenient).notices = notice :: rest →
        ∃ code path, notice = .unknownCode code path ∧
          (Change.parse output commitish .strict).result = .error (.unknownCode code)) ∧
      (∀ e, (Change.parse output commitish .lenient).result = .error e →
        fault = some e ∧ ∃ index reason, e = .badNameStatus index reason) ∧
      (Change.parse output commitish .lenient).notices =
        (unknownOf found).map Record.warning ∧
      ∀ changes, (Change.parse output commitish .lenient).result = .ok changes →
        List.Forall₂ (fun record change => ¬HasMeaning record.code →
          change = ⟨record.path, .modified, commitish⟩) found changes := by
  have hwalks := walks_records output
  have hstrict := collect_strict commitish (records output).2 hwalks.isSome_oldPath
  have hnotices := notices_collect_lenient commitish (records output).2 hwalks.isSome_oldPath
  refine ⟨_, _, hwalks, ?_, ?_, ?_, ?_, hnotices, fun changes => forall₂_modified⟩
  · rw [Change.parse, hstrict]
  · intro hnone
    rw [Change.parse, hnotices, List.map_eq_nil_iff] at hnone
    rw [Change.parse, hstrict, hnone]
    rfl
  · intro notice rest hfirst
    rw [Change.parse, hnotices] at hfirst
    obtain ⟨record, others, hunknown, rfl, -⟩ := List.map_eq_cons_iff.1 hfirst
    refine ⟨record.code, record.path, rfl, ?_⟩
    rw [Change.parse, hstrict, hunknown]
    rfl
  · intro e herror
    have hfault := result_collect_lenient_eq_error_iff.1 herror
    rw [hfault] at hwalks
    exact ⟨hfault, hwalks.exists_badNameStatus⟩

/-- An unknown code before a record without a path: the tolerant reading gets to the record, the
strict one does not. -/
example : let tolerant := Change.parse "X\x00a\x00M\x00" "HEAD" .lenient
    tolerant.result = .error (.badNameStatus 3 "missing path for status \"M\"") ∧
      tolerant.notices = [.unknownCode "X" "a"] ∧
      (Change.parse "X\x00a\x00M\x00" "HEAD" .strict).result = .error (.unknownCode "X") := by
  decide +kernel

end GitReadout.NameStatus
