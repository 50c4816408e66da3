import GitReadout.Json.Status
import GitReadout.Proofs.Json.Name
import GitReadout.Proofs.Status.WorkingTree

/-!
# Status reports in JSON

A report comes back from its JSON if and only if it is well formed: its names are ones that can be
read, its counts have their bits, and the positions that its working tree keeps are those of its
files. JSON from which a report is read can say nothing else, since names are checked, counts are
bounded and a working tree is made anew.

* `FileStatus.ofJson?_toJson`, `FileChange.ofJson?_toJson`: the parts that always come back.
* `WorkingTree.ofJson?_toJson`: the working trees that come back.
* `Report.isWellFormed_of_ofJson?_eq_some`, `Report.ofJson?_toJson`: the reports that are read, and
  that come back.
-/

set_option autoImplicit false

namespace GitReadout

/-! ## Statuses of files -/

theorem Json.char?_singleton (c : Char) : (Json.string (String.singleton c)).char? = some c := by
  simp [Json.char?]

theorem ConflictKind.ofInnerJson?_toJson (kind : ConflictKind) :
    ofInnerJson? kind.toJson = some kind := by
  cases kind <;> rfl

theorem FileStatus.ofJson?_toJson (status : FileStatus) : ofJson? status.toJson = some status := by
  cases status with
  | conflicted conflict =>
    obtain ⟨us, them, kind⟩ := conflict
    have hkind := Json.optional_ofOption kind
      (fun kind _ => kind.ofInnerJson?_toJson) (fun kind => by simp [ConflictKind.toJson])
    simp [toJson, ofJson?, kindName, payload, Conflict.members, Json.string?, ofPayload?,
      Conflict.ofJsonWith?, Json.record?, List.lookup_cons, Json.required, Json.char?_singleton,
      hkind]
  | _ => rfl

namespace Status

/-! ## Changes -/

theorem SideState.ofJson?_toJson (state : SideState) : ofJson? state.toJson = some state := by
  cases state <;> rfl

theorem Submodule.ofJson?_toJson (submodule : Submodule) :
    ofJson? submodule.toJson = some submodule := rfl

theorem FileChange.ofJson?_toJson (change : FileChange) : ofJson? change.toJson = some change := by
  have hsubmodule := Json.optional_ofOption change.submodule
    (fun submodule _ => submodule.ofJson?_toJson) (fun submodule => by simp [Submodule.toJson])
  simp [toJson, ofJson?, Json.record?, List.lookup_cons, Json.required, Json.string?,
    FileStatus.ofJson?_toJson, SideState.ofJson?_toJson, hsubmodule]

/-! ## Working trees -/

theorem WorkingTree.isIndexed_of_ofJson? {value : Json} {tree : WorkingTree}
    (h : ofJson? value = some tree) : tree.IsIndexed := by
  obtain ⟨changes, -, rfl⟩ := Option.map_eq_some_iff.1 h
  exact isIndexed_ofList changes

theorem WorkingTree.ofJson?_toJson {tree : WorkingTree} (h : tree.IsIndexed) :
    ofJson? tree.toJson = some tree := by
  rw [ofJson?, toJson, Json.list?_ofList _ fun change _ => change.ofJson?_toJson, Option.map_some,
    ofList_toList h]

/-! ## Reports -/

/-- The counts have 32 bits each. -/
def Divergence.IsBounded (counts : Divergence) : Prop :=
  counts.ahead ≤ Text.maxUnsigned32 ∧ counts.behind ≤ Text.maxUnsigned32

theorem Divergence.isBounded_of_ofJson? {value : Json} {counts : Divergence}
    (h : ofJson? value = some counts) : counts.IsBounded := by
  unfold ofJson? at h
  split at h
  · simp only [Option.pure_def, Option.bind_eq_bind, Option.bind_eq_some_iff, Option.some.injEq,
      Json.required_eq_some_iff] at h
    obtain ⟨ahead, ⟨_, -, hahead⟩, behind, ⟨_, -, hbehind⟩, rfl⟩ := h
    exact ⟨Json.le_of_natural?_eq_some hahead, Json.le_of_natural?_eq_some hbehind⟩
  · cases h

theorem Divergence.ofJson?_toJson {counts : Divergence} (h : counts.IsBounded) :
    ofJson? counts.toJson = some counts := by
  simp [toJson, ofJson?, Json.record?, List.lookup_cons, Json.required, Json.natural?_integer h.1,
    Json.natural?_integer h.2]

/-- What every report that is read has, from an output as from JSON. -/
structure Report.IsWellFormed (report : Report) : Prop where
  branch : ∀ branch ∈ report.branch, RefName.isAllowed branch.value.toList = true
  tip : ∀ tip ∈ report.tip, tip.IsCanonical
  divergence : ∀ counts ∈ report.divergence, counts.IsBounded
  stashes : report.stashes ≤ Text.maxUnsigned64
  workingTree : report.workingTree.IsIndexed

theorem Report.ofJson?_toJson {report : Report} (h : report.IsWellFormed) :
    ofJson? report.toJson = some report := by
  have hbranch := Json.optional_ofOption report.branch
    (fun branch hb => RefName.ofJson?_toJson (h.branch branch hb))
    (fun branch => by simp [RefName.toJson])
  have htip := Json.optional_ofOption report.tip
    (fun tip ht => ObjectName.ofJson?_toJson (h.tip tip ht))
    (fun tip => by simp [ObjectName.toJson])
  have htracked : Json.optional Json.string? (some (Json.ofOption Json.string report.tracked)) =
      some report.tracked :=
    Json.optional_ofOption report.tracked (fun _ _ => rfl) (fun _ => by simp)
  have hdivergence := Json.optional_ofOption report.divergence
    (fun counts hc => Divergence.ofJson?_toJson (h.divergence counts hc))
    (fun counts => by simp [Divergence.toJson])
  simp [toJson, ofJson?, Json.record?, List.lookup_cons, Json.required, hbranch, htip, htracked,
    hdivergence, Json.natural?_integer h.stashes, WorkingTree.ofJson?_toJson h.workingTree,
    Json.bool?]

theorem Report.isWellFormed_of_ofJson?_eq_some {value : Json} {report : Report}
    (h : ofJson? value = some report) : report.IsWellFormed := by
  unfold ofJson? at h
  split at h
  · simp only [Option.pure_def, Option.bind_eq_bind, Option.bind_eq_some_iff, Option.some.injEq,
      Json.required_eq_some_iff] at h
    obtain ⟨branch, hbranch, tip, htip, tracked, -, divergence, hdivergence, stashes,
      ⟨_, -, hstashes⟩, tree, ⟨_, -, htree⟩, merging, -, rebasing, -, cherryPicking, -, rfl⟩ := h
    constructor
    case branch =>
      rintro name rfl
      obtain ⟨_, hname⟩ := Json.exists_of_optional_eq_some hbranch
      exact RefName.isAllowed_of_ofJson? hname
    case tip =>
      rintro name rfl
      obtain ⟨_, hname⟩ := Json.exists_of_optional_eq_some htip
      exact ObjectName.isCanonical_of_ofJson? hname
    case divergence =>
      rintro counts rfl
      obtain ⟨_, hcounts⟩ := Json.exists_of_optional_eq_some hdivergence
      exact Divergence.isBounded_of_ofJson? hcounts
    case stashes => exact Json.le_of_natural?_eq_some hstashes
    case workingTree => exact WorkingTree.isIndexed_of_ofJson? htree
  · cases h

end Status

end GitReadout
