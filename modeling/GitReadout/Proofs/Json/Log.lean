import GitReadout.Json.Log
import GitReadout.Json.NameStatus
import GitReadout.Proofs.Except
import GitReadout.Proofs.Json.Status
import GitReadout.Proofs.Log.ZonedTime

/-!
# Commits in JSON

A commit comes back from its JSON if its names are canonical and its two dates have texts that can
be read. Every commit that was read from a log is such a commit, apart from dates that a clock shows
in a year that texts do not have.

* `Identity.isPlain_of_parse?`, `Commit.hasCanonicalNames_of_parse`: what is read from a log.
* `Commit.hasCanonicalNames_of_ofJson?`: what is read from JSON.
* `Commit.ofJson?_toJson`: the commits that come back.
* `Change.ofJson?_toJson`: files changed by commits always come back.
-/

set_option autoImplicit false

namespace GitReadout

theorem NameStatus.Change.ofJson?_toJson (change : Change) :
    ofJson? change.toJson = some change := by
  simp [toJson, ofJson?, Json.record?, List.lookup_cons, Json.required, Json.string?,
    FileStatus.ofJson?_toJson]

namespace Log

/-! ## Authors and committers -/

/-- The date is that of an instant since 1970, on the clock with the offset in minutes. -/
structure Identity.IsPlain (identity : Identity) : Prop where
  date : identity.date.IsPlain
  seconds : 0 ≤ identity.date.seconds
  offset : identity.date.offset = identity.offsetMinutes * 60

theorem Identity.isPlain_of_parse? {text : String} {identity : Identity}
    (h : parse? text = some identity) : identity.IsPlain := by
  simp only [parse?, Option.pure_def, Option.bind_eq_bind, Option.bind_eq_some_iff,
    Option.some.injEq] at h
  obtain ⟨parts, -, cut, -, minutes, -, seconds, -, date, hdate, rfl⟩ := h
  unfold timeOf? at hdate
  simp only [Option.ite_none_right_eq_some, Option.some.injEq] at hdate
  obtain ⟨⟨hmax, hday⟩, rfl⟩ := hdate
  have hmin : ZonedTime.minSeconds ≤ 0 := by decide
  exact ⟨⟨rfl, by dsimp only; omega, hday, by dsimp only; omega, hmax⟩, by dsimp only; omega, rfl⟩

theorem Identity.IsPlain.year_nonneg {identity : Identity} (h : identity.IsPlain) :
    0 ≤ identity.date.date.year := by
  have hoffset := h.date.isOffset
  have hseconds := h.seconds
  simp only [ZonedTime.isOffset, Bool.and_eq_true, decide_eq_true_eq] at hoffset
  exact Date.year_ofDays_nonneg (by omega)

theorem ZonedTime.ofJson?_toJson {time : ZonedTime} (h : time.IsPlain)
    (hyear : minYear ≤ time.date.year ∧ time.date.year ≤ maxYear) :
    ofJson? time.toJson = some time := by
  rw [ofJson?, toJson, Json.string?, Option.bind_eq_bind, Option.bind_some, ofText?_toText h hyear]

theorem Identity.ofJson?_toJson {identity : Identity} (h : identity.IsPlain)
    (hyear : identity.date.date.year ≤ ZonedTime.maxYear) :
    ofJson? identity.toJson = some identity := by
  have hmin : ZonedTime.minYear ≤ 0 := by decide
  have hnonneg := h.year_nonneg
  have hdate := ZonedTime.ofJson?_toJson h.date ⟨by omega, hyear⟩
  have hoffset : offsetOfJson? (.integer identity.offsetMinutes) = some identity.offsetMinutes := by
    have hday := h.date.isOffset
    have hminutes := h.offset
    simp only [ZonedTime.isOffset, Bool.and_eq_true, decide_eq_true_eq] at hday
    rw [offsetOfJson?, Json.integer?, if_pos (by omega)]
  simp [toJson, ofJson?, Json.record?, List.lookup_cons, Json.required, Json.string?, hdate,
    hoffset]

/-! ## Commits -/

/-- The names of a commit are canonical. -/
structure Commit.HasCanonicalNames (commit : Commit) : Prop where
  sha : commit.sha.IsCanonical
  shortSha : commit.shortSha.IsCanonical
  parents : ∀ parent ∈ commit.parents, parent.IsCanonical

theorem Commit.ofJson?_toJson {commit : Commit} (h : commit.HasCanonicalNames)
    (hauthor : Identity.ofJson? commit.author.toJson = some commit.author)
    (hcommitter : Identity.ofJson? commit.committer.toJson = some commit.committer) :
    ofJson? commit.toJson = some commit := by
  have hparents := Json.list?_ofList commit.parents
    fun parent hp => ObjectName.ofJson?_toJson (h.parents parent hp)
  have htags : (Json.ofList Json.string commit.tags).list? Json.string? = some commit.tags :=
    Json.list?_ofList commit.tags fun _ _ => rfl
  simp [toJson, ofJson?, Json.record?, List.lookup_cons, Json.required, Json.string?,
    ObjectName.ofJson?_toJson h.sha, ObjectName.ofJson?_toJson h.shortSha, hauthor, hcommitter,
    hparents, Trailers.ofJson?_toJson, htags]

theorem Commit.hasCanonicalNames_of_ofJson? {value : Json} {commit : Commit}
    (h : ofJson? value = some commit) : commit.HasCanonicalNames := by
  unfold ofJson? at h
  split at h
  · simp only [Option.pure_def, Option.bind_eq_bind, Option.bind_eq_some_iff, Option.some.injEq,
      Json.required_eq_some_iff] at h
    obtain ⟨sha, ⟨_, -, hsha⟩, shortSha, ⟨_, -, hshort⟩, summary, -, body, -, author, -, committer,
      -, parents, ⟨_, -, hparents⟩, trailers, -, tags, -, rfl⟩ := h
    refine ⟨ObjectName.isCanonical_of_ofJson? hsha, ObjectName.isCanonical_of_ofJson? hshort,
      fun parent hp => ?_⟩
    obtain ⟨_, hparent⟩ := Json.exists_of_list?_eq_some hparents parent hp
    exact ObjectName.isCanonical_of_ofJson? hparent
  · cases h

theorem Commit.isCanonical_of_parseParents {field : String} {parents : List ObjectName}
    (h : parseParents field = .ok parents) : ∀ parent ∈ parents, parent.IsCanonical := by
  intro parent hp
  obtain ⟨word, -, hparse⟩ := exists_of_mem_mapM h parent hp
  exact ObjectName.isCanonical_of_parse hparse

theorem Commit.isPlain_of_readIdentity {sha : ObjectName} {field : String} {identity : Identity}
    (h : readIdentity sha field = .ok identity) : identity.IsPlain := by
  unfold readIdentity at h
  split at h
  · rename_i hparse
    obtain rfl := Except.ok.inj h
    exact Identity.isPlain_of_parse? hparse
  · cases h

theorem Commit.hasCanonicalNames_of_parse {record separators : String} {commit : Commit}
    (h : parse record separators = .ok commit) :
    commit.HasCanonicalNames ∧ commit.author.IsPlain ∧ commit.committer.IsPlain := by
  unfold parse at h
  split at h
  · simp only [bind_eq_ok_iff, mapError_eq_ok_iff, pure, Except.pure, Except.ok.injEq] at h
    obtain ⟨sha, hsha, shortSha, hshort, author, hauthor, committer, hcommitter, parents, hparents,
      rfl⟩ := h
    exact ⟨⟨ObjectName.isCanonical_of_parse hsha, ObjectName.isCanonical_of_parse hshort,
      isCanonical_of_parseParents hparents⟩, isPlain_of_readIdentity hauthor,
      isPlain_of_readIdentity hcommitter⟩
  · cases h

end Log

end GitReadout
