import GitReadout.Log.Commit
import GitReadout.Proofs.Except
import GitReadout.Proofs.Text.Pieces

/-!
# Reading a whole log

A log is read as a whole or not at all. Which records are good is said of their nine fields, and so
is the error of a record that is not: the first of its faults, in a fixed order. Neither depends on
the separators of trailers, which decide over the trailers of a commit and nothing else. What the
records of a log are and what the words of the field of parents, is said by `Text.records_eq_iff`
and `Text.words_eq_iff` without cutting.

* `parse_of_isGood`, `parse_of_refuses`: what is read of one record.
* `isGood_or_refuses`: every record is one or the other.
* `parseLog_outcome`: what is read of a log.
-/

set_option autoImplicit false

namespace GitReadout.Log

/-- The nine fields of a record. -/
structure RecordFields where
  sha : String
  shortSha : String
  summary : String
  body : String
  author : String
  committer : String
  parents : String
  trailers : String
  decoration : String

namespace RecordFields

def toList (fields : RecordFields) : List String :=
  [fields.sha, fields.shortSha, fields.summary, fields.body, fields.author, fields.committer,
    fields.parents, fields.trailers, fields.decoration]

/-- The record consists of these fields, with unit separators between them. -/
def AreOf (fields : RecordFields) (record : List Char) : Prop :=
  record.splitOn '\x1F' = fields.toList.map String.toList

/-- All that is read of the fields can be read. -/
structure AreGood (fields : RecordFields) : Prop where
  sha : ObjectName.isName fields.sha.toList
  shortSha : ObjectName.isName fields.shortSha.toList
  author : (Identity.parse? fields.author).isSome
  committer : (Identity.parse? fields.committer).isSome
  parents : ∀ word ∈ Text.words fields.parents.toList, ObjectName.isName word

/-- The name of a commit that is kept for one that is written. -/
def canonical (name : List Char) : String :=
  String.ofList (name.map Char.toLower)

/-- The commit that the fields describe. -/
structure Describe (fields : RecordFields) (separators : String) (commit : Commit) : Prop where
  sha : commit.sha.value = canonical fields.sha.toList
  shortSha : commit.shortSha.value = canonical fields.shortSha.toList
  summary : commit.summary = fields.summary
  body : commit.body = fields.body
  author : Identity.parse? fields.author = some commit.author
  committer : Identity.parse? fields.committer = some commit.committer
  parents : commit.parents.map ObjectName.value =
    (Text.words fields.parents.toList).map canonical
  trailers : commit.trailers = TrailerBlock.parse fields.trailers separators
  tags : commit.tags = Decoration.tags fields.decoration

end RecordFields

open RecordFields

/-- A record that is read: it has nine fields, and they are good. -/
def IsGood (record : List Char) : Prop :=
  ∃ fields : RecordFields, fields.AreOf record ∧ fields.AreGood

/-- The error of a record: the first fault, in the order number of fields, name, short name, author,
committer, parents. -/
inductive Refuses (record : List Char) : Failure → Prop
  | fieldCount : (record.splitOn '\x1F').length ≠ 9 →
    Refuses record (.badCommit (String.ofList record)
      ("expected 9 fields, found " ++ toString (record.splitOn '\x1F').length))
  | sha {fields : RecordFields} : fields.AreOf record → ¬ObjectName.isName fields.sha.toList →
    Refuses record (.badCommit (String.ofList record) "invalid sha")
  | shortSha {fields : RecordFields} : fields.AreOf record → ObjectName.isName fields.sha.toList →
    ¬ObjectName.isName fields.shortSha.toList →
    Refuses record (.badCommit (String.ofList record) "invalid short sha")
  | author {fields : RecordFields} : fields.AreOf record → ObjectName.isName fields.sha.toList →
    ObjectName.isName fields.shortSha.toList → Identity.parse? fields.author = none →
    Refuses record (.badIdentity (canonical fields.sha.toList) fields.author)
  | committer {fields : RecordFields} : fields.AreOf record →
    ObjectName.isName fields.sha.toList → ObjectName.isName fields.shortSha.toList →
    (Identity.parse? fields.author).isSome → Identity.parse? fields.committer = none →
    Refuses record (.badIdentity (canonical fields.sha.toList) fields.committer)
  | parents {fields : RecordFields} {word : List Char} : fields.AreOf record →
    ObjectName.isName fields.sha.toList → ObjectName.isName fields.shortSha.toList →
    (Identity.parse? fields.author).isSome → (Identity.parse? fields.committer).isSome →
    word ∈ Text.words fields.parents.toList → ¬ObjectName.isName word →
    Refuses record (.badCommit (String.ofList record) "invalid parent sha")

/-- The commit with no trailers. -/
def Commit.withoutTrailers (commit : Commit) : Commit :=
  { commit with trailers := {} }

variable {record : List Char} {fields : RecordFields}

/-! ## One record -/

theorem exists_areOf_iff :
    (∃ fields : RecordFields, fields.AreOf record) ↔ (record.splitOn '\x1F').length = 9 := by
  constructor
  · rintro ⟨fields, h⟩
    rw [h, List.length_map]
    rfl
  · intro h
    obtain ⟨a, b, c, d, e, f, g, i, j, hfields⟩ :
        ∃ a b c d e f g i j, record.splitOn '\x1F' = [a, b, c, d, e, f, g, i, j] := by
      match hsplit : record.splitOn '\x1F', h with
      | [a, b, c, d, e, f, g, i, j], _ => exact ⟨a, b, c, d, e, f, g, i, j, rfl⟩
    refine ⟨⟨String.ofList a, String.ofList b, String.ofList c, String.ofList d, String.ofList e,
      String.ofList f, String.ofList g, String.ofList i, String.ofList j⟩, ?_⟩
    simp [AreOf, hfields, toList]

theorem parse_of_isName {text : String} (h : ObjectName.isName text.toList) :
    ObjectName.parse text = .ok ⟨canonical text.toList⟩ :=
  ObjectName.parse_eq_ok_iff.2 ⟨h, rfl⟩

theorem parse_of_not_isName {text : String} (h : ¬ObjectName.isName text.toList) :
    ObjectName.parse text = .error (.badObjectName text) :=
  ObjectName.parse_eq_error_iff.2 ⟨h, rfl⟩

theorem parseParents_of_forall {field : String}
    (h : ∀ word ∈ Text.words field.toList, ObjectName.isName word) :
    Commit.parseParents field =
      .ok ((Text.words field.toList).map fun word => ⟨canonical word⟩) := by
  rw [Commit.parseParents, mapM_eq_ok_iff, List.forall₂_map_right_iff, List.forall₂_same]
  intro word hword
  rw [parse_of_isName (by simpa using h word hword), String.toList_ofList]

theorem exists_parseParents_of_mem {field : String} {word : List Char}
    (hword : word ∈ Text.words field.toList) (h : ¬ObjectName.isName word) :
    ∃ e, Commit.parseParents field = .error e := by
  cases hparse : Commit.parseParents field with
  | error e => exact ⟨e, rfl⟩
  | ok names =>
    obtain ⟨name, -, hname⟩ := exists_mem_of_mapM hparse word hword
    rw [ObjectName.parse_eq_ok_iff, String.toList_ofList] at hname
    exact absurd hname.1 h

theorem parse_of_areOf (h : fields.AreOf record) (separators : String) :
    Commit.parse (String.ofList record) separators = (do
      let sha ← (ObjectName.parse fields.sha).mapError fun _ =>
        Commit.fault (String.ofList record) .badSha
      let shortSha ← (ObjectName.parse fields.shortSha).mapError fun _ =>
        Commit.fault (String.ofList record) .badShortSha
      let author ← Commit.readIdentity sha fields.author
      let committer ← Commit.readIdentity sha fields.committer
      let parents ← (Commit.parseParents fields.parents).mapError fun _ =>
        Commit.fault (String.ofList record) .badParent
      return {
        sha, shortSha, summary := fields.summary, body := fields.body, author, committer, parents
        trailers := TrailerBlock.parse fields.trailers separators
        tags := Decoration.tags fields.decoration }) := by
  have hfields : (record.splitOn '\x1F').map String.ofList = fields.toList := by
    rw [h, List.map_map]
    exact (List.map_congr_left fun s _ => String.ofList_toList).trans (List.map_id _)
  rw [Commit.parse, String.toList_ofList, hfields]
  rfl

theorem parse_of_length_ne (h : (record.splitOn '\x1F').length ≠ 9) (separators : String) :
    Commit.parse (String.ofList record) separators =
      .error (.badCommit (String.ofList record)
        ("expected 9 fields, found " ++ toString (record.splitOn '\x1F').length)) := by
  have hlength : ((record.splitOn '\x1F').map String.ofList).length =
      (record.splitOn '\x1F').length := List.length_map _
  rw [← hlength] at h ⊢
  rw [Commit.parse, String.toList_ofList]
  split
  · rename_i hfields
    rw [hfields] at h
    exact absurd rfl h
  · rfl

theorem readIdentity_of_some {sha : ObjectName} {field : String} {identity : Identity}
    (h : Identity.parse? field = some identity) : Commit.readIdentity sha field = .ok identity := by
  rw [Commit.readIdentity, h]

theorem readIdentity_of_none {sha : ObjectName} {field : String}
    (h : Identity.parse? field = none) :
    Commit.readIdentity sha field = .error (.badIdentity sha.value field) := by
  rw [Commit.readIdentity, h]

/-- A good record is read as the commit that its fields describe. -/
theorem parse_of_isGood (h : fields.AreOf record) (hgood : fields.AreGood) (separators : String) :
    ∃ commit, fields.Describe separators commit ∧
      Commit.parse (String.ofList record) separators = .ok commit := by
  obtain ⟨author, hauthor⟩ := Option.isSome_iff_exists.1 hgood.author
  obtain ⟨committer, hcommitter⟩ := Option.isSome_iff_exists.1 hgood.committer
  refine ⟨⟨⟨canonical fields.sha.toList⟩, ⟨canonical fields.shortSha.toList⟩, fields.summary,
    fields.body, author, committer, (Text.words fields.parents.toList).map fun w => ⟨canonical w⟩,
    TrailerBlock.parse fields.trailers separators, Decoration.tags fields.decoration⟩,
    ⟨rfl, rfl, rfl, rfl, hauthor, hcommitter, by simp, rfl, rfl⟩, ?_⟩
  rw [parse_of_areOf h, parse_of_isName hgood.sha, parse_of_isName hgood.shortSha]
  simp only [Except.mapError, bind, Except.bind, readIdentity_of_some hauthor,
    readIdentity_of_some hcommitter, parseParents_of_forall hgood.parents]
  rfl

/-- A record that is refused fails with its first fault. -/
theorem parse_of_refuses {e : Failure} (h : Refuses record e) (separators : String) :
    Commit.parse (String.ofList record) separators = .error e := by
  cases h with
  | fieldCount hcount => exact parse_of_length_ne hcount separators
  | @sha fields h hsha =>
    rw [parse_of_areOf h, parse_of_not_isName hsha]
    rfl
  | @shortSha fields h hsha hshort =>
    rw [parse_of_areOf h, parse_of_isName hsha, parse_of_not_isName hshort]
    rfl
  | @author fields h hsha hshort hauthor =>
    rw [parse_of_areOf h, parse_of_isName hsha, parse_of_isName hshort]
    simp only [Except.mapError, bind, Except.bind, readIdentity_of_none hauthor]
  | @committer fields h hsha hshort hauthor hcommitter =>
    obtain ⟨author, hauthor⟩ := Option.isSome_iff_exists.1 hauthor
    rw [parse_of_areOf h, parse_of_isName hsha, parse_of_isName hshort]
    simp only [Except.mapError, bind, Except.bind, readIdentity_of_some hauthor,
      readIdentity_of_none hcommitter]
  | @parents fields word h hsha hshort hauthor hcommitter hword hname =>
    obtain ⟨author, hauthor⟩ := Option.isSome_iff_exists.1 hauthor
    obtain ⟨committer, hcommitter⟩ := Option.isSome_iff_exists.1 hcommitter
    obtain ⟨e, hparents⟩ := exists_parseParents_of_mem hword hname
    rw [parse_of_areOf h, parse_of_isName hsha, parse_of_isName hshort]
    simp only [Except.mapError, bind, Except.bind, readIdentity_of_some hauthor,
      readIdentity_of_some hcommitter, hparents]
    rfl

theorem eq_of_value_eq {a b : ObjectName} (h : a.value = b.value) : a = b := by
  cases a
  cases b
  exact congrArg ObjectName.mk h

/-- Two commits that the same fields describe differ at most in their trailers. -/
theorem RecordFields.Describe.withoutTrailers_eq {separators others : String}
    {commit other : Commit} (h : fields.Describe separators commit)
    (hother : fields.Describe others other) : commit.withoutTrailers = other.withoutTrailers := by
  have hsha := eq_of_value_eq (h.sha.trans hother.sha.symm)
  have hshort := eq_of_value_eq (h.shortSha.trans hother.shortSha.symm)
  have hauthor := Option.some.inj (h.author.symm.trans hother.author)
  have hcommitter := Option.some.inj (h.committer.symm.trans hother.committer)
  have hparents : commit.parents = other.parents :=
    (List.map_inj_right fun _ _ => eq_of_value_eq).1 (h.parents.trans hother.parents.symm)
  simp only [Commit.withoutTrailers, hsha, hshort, hauthor, hcommitter, hparents, h.summary,
    hother.summary, h.body, hother.body, h.tags, hother.tags]

theorem RecordFields.Describe.unique {separators : String} {commit other : Commit}
    (h : fields.Describe separators commit) (hother : fields.Describe separators other) :
    commit = other := by
  have hrest := h.withoutTrailers_eq hother
  have htrailers := h.trailers.trans hother.trailers.symm
  cases commit
  cases other
  simp only [Commit.withoutTrailers, Commit.mk.injEq] at hrest htrailers ⊢
  tauto

theorem isGood_or_refuses (record : List Char) : IsGood record ∨ ∃ e, Refuses record e := by
  by_cases hcount : (record.splitOn '\x1F').length = 9
  swap
  · exact .inr ⟨_, .fieldCount hcount⟩
  obtain ⟨fields, h⟩ := exists_areOf_iff.2 hcount
  by_cases hsha : ObjectName.isName fields.sha.toList
  swap
  · exact .inr ⟨_, .sha h hsha⟩
  by_cases hshort : ObjectName.isName fields.shortSha.toList
  swap
  · exact .inr ⟨_, .shortSha h hsha hshort⟩
  cases hauthor : Identity.parse? fields.author with
  | none => exact .inr ⟨_, .author h hsha hshort hauthor⟩
  | some author =>
    have hauthor := Option.isSome_of_eq_some hauthor
    cases hcommitter : Identity.parse? fields.committer with
    | none => exact .inr ⟨_, .committer h hsha hshort hauthor hcommitter⟩
    | some committer =>
      have hcommitter := Option.isSome_of_eq_some hcommitter
      by_cases hparents : ∀ word ∈ Text.words fields.parents.toList, ObjectName.isName word
      · exact .inl ⟨fields, h, hsha, hshort, hauthor, hcommitter, hparents⟩
      · push Not at hparents
        obtain ⟨word, hword, hname⟩ := hparents
        exact .inr ⟨_, .parents h hsha hshort hauthor hcommitter hword hname⟩

theorem parse_eq_ok_iff {separators : String} {commit : Commit} :
    Commit.parse (String.ofList record) separators = .ok commit ↔
      ∃ fields : RecordFields, fields.AreOf record ∧ fields.AreGood ∧
        fields.Describe separators commit := by
  constructor
  · intro hparse
    obtain ⟨fields, h, hgood⟩ | ⟨e, hrefuses⟩ := isGood_or_refuses record
    · obtain ⟨other, hdescribe, hother⟩ := parse_of_isGood h hgood separators
      cases hparse.symm.trans hother
      exact ⟨fields, h, hgood, hdescribe⟩
    · cases hparse.symm.trans (parse_of_refuses hrefuses separators)
  · rintro ⟨fields, h, hgood, hdescribe⟩
    obtain ⟨other, hother, hparse⟩ := parse_of_isGood h hgood separators
    rw [hparse, hdescribe.unique hother]

theorem parse_eq_error_iff {separators : String} {e : Failure} :
    Commit.parse (String.ofList record) separators = .error e ↔ Refuses record e := by
  refine ⟨fun hparse => ?_, fun h => parse_of_refuses h separators⟩
  obtain ⟨fields, h, hgood⟩ | ⟨other, hrefuses⟩ := isGood_or_refuses record
  · obtain ⟨commit, -, hcommit⟩ := parse_of_isGood h hgood separators
    cases hparse.symm.trans hcommit
  · cases hparse.symm.trans (parse_of_refuses hrefuses separators)
    exact hrefuses

theorem isGood_iff (separators : String) :
    IsGood record ↔ ∃ commit, Commit.parse (String.ofList record) separators = .ok commit := by
  constructor
  · rintro ⟨fields, h, hgood⟩
    obtain ⟨commit, -, hparse⟩ := parse_of_isGood h hgood separators
    exact ⟨commit, hparse⟩
  · rintro ⟨commit, hparse⟩
    obtain ⟨fields, h, hgood, -⟩ := parse_eq_ok_iff.1 hparse
    exact ⟨fields, h, hgood⟩

/-- The separators decide over the trailers alone. -/
theorem map_withoutTrailers_parse (record : List Char) (separators others : String) :
    (Commit.parse (String.ofList record) separators).map Commit.withoutTrailers =
      (Commit.parse (String.ofList record) others).map Commit.withoutTrailers := by
  obtain ⟨fields, h, hgood⟩ | ⟨e, hrefuses⟩ := isGood_or_refuses record
  · obtain ⟨commit, hcommit, hparse⟩ := parse_of_isGood h hgood separators
    obtain ⟨other, hother, hparseOther⟩ := parse_of_isGood h hgood others
    rw [hparse, hparseOther, Except.map, Except.map, hcommit.withoutTrailers_eq hother]
  · rw [parse_of_refuses hrefuses, parse_of_refuses hrefuses]

/-! ## The whole log -/

theorem exists_parseLog_iff {output separators : String} :
    (∃ commits, Commit.parseLog output separators = .ok commits) ↔
      ∀ record ∈ Text.records '\x00' output.toList, IsGood record := by
  constructor
  · rintro ⟨commits, hparse⟩ record hrecord
    obtain ⟨commit, -, hcommit⟩ := exists_mem_of_mapM hparse record hrecord
    exact (isGood_iff separators).2 ⟨commit, hcommit⟩
  · intro hgood
    cases hparse : Commit.parseLog output separators with
    | ok commits => exact ⟨commits, rfl⟩
    | error e =>
      obtain ⟨before, record, after, hrecords, -, hfault⟩ := mapM_eq_error_iff.1 hparse
      obtain ⟨commit, hcommit⟩ := (isGood_iff separators).1 (hgood record (by simp [hrecords]))
      cases hcommit.symm.trans hfault

/-- The records, spelled out: an empty log and a NUL alone have none. -/
theorem forall_records_iff {p : List Char → Prop} {output : String} :
    (∀ record ∈ Text.records '\x00' output.toList, p record) ↔ output = "" ∨ output = "\x00" ∨
      ∀ record ∈ (Text.dropTerminator '\x00' output.toList).splitOn '\x00', p record := by
  have hempty : output.toList = [] ↔ output = "" := by rw [← String.toList_inj]; rfl
  have hnul : output.toList = ['\x00'] ↔ output = "\x00" := by rw [← String.toList_inj]; rfl
  rw [← hempty, ← hnul, ← or_assoc, ← Text.dropTerminator_eq_nil_iff]
  by_cases h : Text.dropTerminator '\x00' output.toList = []
  · simp [Text.records, h]
  · rw [Text.records_eq_splitOn h]
    exact ⟨.inr, fun hall => hall.resolve_left h⟩

/-- **What is read of a log.** It is read if and only if it is empty, is a NUL alone, or all of its
records are good; and then it gives, one for each record and in their order, the commits that their
fields describe. Else it fails with the error of its first record that is not good. The separators
of trailers change neither, and nothing of a commit but its trailers. -/
theorem parseLog_outcome (output separators : String) :
    ((∃ commits, Commit.parseLog output separators = .ok commits) ↔
      output = "" ∨ output = "\x00" ∨
        ∀ record ∈ (Text.dropTerminator '\x00' output.toList).splitOn '\x00', IsGood record) ∧
    (∀ commits, Commit.parseLog output separators = .ok commits ↔
      List.Forall₂ (fun record commit => ∃ fields : RecordFields, fields.AreOf record ∧
          fields.AreGood ∧ fields.Describe separators commit)
        (Text.records '\x00' output.toList) commits) ∧
    (∀ e, Commit.parseLog output separators = .error e ↔
      ∃ before record after, Text.records '\x00' output.toList = before ++ record :: after ∧
        (∀ earlier ∈ before, IsGood earlier) ∧ Refuses record e) ∧
    ∀ others, (Commit.parseLog output others).map (List.map Commit.withoutTrailers) =
      (Commit.parseLog output separators).map (List.map Commit.withoutTrailers) := by
  refine ⟨?_, fun commits => ?_, fun e => ?_, fun others => ?_⟩
  · rw [exists_parseLog_iff]
    exact forall_records_iff
  · simp only [Commit.parseLog, mapM_eq_ok_iff, parse_eq_ok_iff]
  · simp only [Commit.parseLog, mapM_eq_error_iff, parse_eq_error_iff, isGood_iff separators]
  · simp only [Commit.parseLog, map_mapM]
    have hrecord := funext fun record => map_withoutTrailers_parse record others separators
    rw [hrecord]

end GitReadout.Log
