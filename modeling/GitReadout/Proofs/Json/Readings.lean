import GitReadout.Json.Settings
import GitReadout.Proofs.Json.Log
import GitReadout.Proofs.Log.Trailers
import GitReadout.Proofs.NameStatus.Encoding
import GitReadout.Proofs.Status.Counts

/-!
# Readings in JSON

What is read from the outputs of git can be written as JSON and read again, with nothing changed.
What is read from JSON that anybody wrote has names and a working tree as they should be, but its
trailers are taken as they are: where one key has several entries, only the values of the first are
found.

* `Report.isWellFormed_of_parse`: a report that is read from an output.
* `ofJson?_toJson_of_parse`: what is read from outputs comes back from its JSON.
* `isWellFormed_of_ofJson?`: what is read from JSON.
* `ofJson?_splitKey`: trailers of JSON with two entries for one key.
-/

set_option autoImplicit false

namespace GitReadout

open Log Status

/-! ## Reports of outputs -/

namespace Status

theorem Header.isAllowed_of_branch {header : Header} {branch : RefName}
    (h : header.branch = .ok (some branch)) : RefName.isAllowed branch.value.toList = true := by
  unfold Header.branch at h
  split at h
  · cases h
  · obtain ⟨name, hname, hsome⟩ := map_eq_ok_iff.1 (mapError_eq_ok_iff.1 h)
    obtain rfl := Option.some.inj hsome
    exact RefName.isAllowed_of_parse hname

theorem Header.isCanonical_of_tip {header : Header} {tip : ObjectName}
    (h : header.tip = .ok (some tip)) : tip.IsCanonical := by
  unfold Header.tip at h
  split at h
  · cases h
  · obtain ⟨name, hname, hsome⟩ := map_eq_ok_iff.1 (mapError_eq_ok_iff.1 h)
    obtain rfl := Option.some.inj hsome
    exact ObjectName.isCanonical_of_parse hname

theorem Header.isBounded_of_divergence {header : Header} {counts : Divergence}
    (h : header.divergence = .ok counts) : counts.IsBounded := by
  obtain ⟨ahead, behind, -, hahead, hbehind⟩ := (header.divergence_reads.1 counts).1 h
  exact ⟨hahead.le, hbehind.le⟩

theorem Header.le_of_stashes {header : Header} {stashes : Nat} (h : header.stashes = .ok stashes) :
    stashes ≤ Text.maxUnsigned64 :=
  ((header.stashes_reads.1 stashes).1 h).le

/-- What is known from the last header of a key, and not without one, was read from a header. -/
theorem exists_read_of_elim {α : Type} {last : Option Header}
    {read : Header → Except Failure (Option α)} {a : α}
    (h : last.elim (.ok none) read = .ok (some a)) : ∃ header, read header = .ok (some a) := by
  cases last with
  | none => cases h
  | some header => exact ⟨header, h⟩

/-- The parts of a report that come from headers were checked when they were read, and its working
tree was made change by change. -/
theorem Report.Summarises.isWellFormed {report : Report} {items : List Item}
    (h : report.Summarises items) : report.IsWellFormed := by
  constructor
  case branch =>
    intro branch hb
    obtain ⟨header, hread⟩ := exists_read_of_elim (Option.mem_def.1 hb ▸ h.branch)
    exact Header.isAllowed_of_branch hread
  case tip =>
    intro tip ht
    obtain ⟨header, hread⟩ := exists_read_of_elim (Option.mem_def.1 ht ▸ h.tip)
    exact Header.isCanonical_of_tip hread
  case divergence =>
    intro counts hc
    obtain ⟨header, hmap⟩ := exists_read_of_elim (Option.mem_def.1 hc ▸ h.divergence)
    obtain ⟨read, hread, hsome⟩ := map_eq_ok_iff.1 hmap
    obtain rfl := Option.some.inj hsome
    exact Header.isBounded_of_divergence hread
  case stashes =>
    have hlast := h.stashes
    cases hheader : lastHeader "stash" items with
    | none =>
      rw [hheader] at hlast
      rw [← Except.ok.inj hlast]
      exact Nat.zero_le _
    | some header => rw [hheader] at hlast; exact Header.le_of_stashes hlast
  case workingTree =>
    rw [← h.workingTree]
    exact WorkingTree.isIndexed_ofList _

theorem Report.isWellFormed_of_parse {output : String} {settings : Settings} {report : Report}
    (h : (parse output settings).result = .ok (some report)) : report.IsWellFormed := by
  obtain ⟨found, -, hsummary⟩ := exists_summary_of_parse h
  exact hsummary.isWellFormed

/-- The operations that are under way are seen in the repository, not in the output. -/
theorem Report.IsWellFormed.withOperations {report : Report} (h : report.IsWellFormed)
    (merging rebasing cherryPicking : Bool) :
    IsWellFormed { report with merging, rebasing, cherryPicking } :=
  ⟨h.branch, h.tip, h.divergence, h.stashes, h.workingTree⟩

end Status

/-! ## Writing and reading again -/

/-- **What was read comes back from its JSON.** This holds of every report on a status output,
whichever operations are under way; of every commit of a log whose dates have texts, which takes a
year on the clock of its author and of its committer that is not beyond the last; of every file
changed by a commit; and of all settings. -/
theorem ofJson?_toJson_of_parse :
    (∀ (output : String) (settings : Settings) (report : Report),
      (Report.parse output settings).result = .ok (some report) →
        ∀ merging rebasing cherryPicking : Bool,
          Report.ofJson? (Report.toJson { report with merging, rebasing, cherryPicking }) =
            some { report with merging, rebasing, cherryPicking }) ∧
    (∀ (record separators : String) (commit : Commit),
      Commit.parse record separators = .ok commit →
        commit.author.date.date.year ≤ ZonedTime.maxYear →
          commit.committer.date.date.year ≤ ZonedTime.maxYear →
            Commit.ofJson? commit.toJson = some commit) ∧
    (∀ (output commitish : String) (tolerance : Tolerance) (changes : List NameStatus.Change),
      (NameStatus.Change.parse output commitish tolerance).result = .ok changes →
        ∀ change ∈ changes, NameStatus.Change.ofJson? change.toJson = some change) ∧
    ∀ settings : Settings, settings.statusLimit ≤ Text.maxUnsigned64 →
      Settings.ofJson? settings.toJson = some settings := by
  refine ⟨fun output settings report h merging rebasing cherryPicking => ?_,
    fun record separators commit h hauthor hcommitter => ?_,
    fun _ _ _ changes _ change _ => change.ofJson?_toJson,
    fun settings h => Settings.ofJson?_toJson h⟩
  · have hwell := Report.isWellFormed_of_parse h
    exact Report.ofJson?_toJson (hwell.withOperations merging rebasing cherryPicking)
  · obtain ⟨hnames, hplain, hplain'⟩ := Commit.hasCanonicalNames_of_parse h
    exact Commit.ofJson?_toJson hnames (Identity.ofJson?_toJson hplain hauthor)
      (Identity.ofJson?_toJson hplain' hcommitter)

/-- A branch with a conflict, in the middle of a merge; a commit with clocks on both sides of UTC,
one of them at the last second that a time may have; a file that a commit renamed; and settings
without a limit to speak of. -/
theorem ofJson?_toJson_of_parse_merge :
    (∃ report,
      (Report.parse "# branch.head a/b\x00# branch.ab +0 -2\x00u AA N... 0 0 0 0 0 0 0 f"
        {}).result = .ok (some report) ∧
      Report.ofJson? (Report.toJson { report with merging := true }) =
        some { report with merging := true }) ∧
    (∃ commit,
      Commit.parse ("01234Def\x1F0123\x1FFix\x1F\x1FJo <jo@b.io> 86400 +0130\x1F" ++
        "Al <al@b.io> 8210266876799 -2359\x1F\x1FK: v\x1Ftag: v1") ":" = .ok commit ∧
      Commit.ofJson? commit.toJson = some commit) ∧
    (∃ change,
      (NameStatus.Change.parse "R100\x00old\x00new\x00" "HEAD" .lenient).result = .ok [change] ∧
      NameStatus.Change.ofJson? change.toJson = some change) ∧
    Settings.ofJson? (Settings.toJson { statusLimit := Text.maxUnsigned64 }) =
      some { statusLimit := Text.maxUnsigned64 } := by
  obtain ⟨hreport, hcommit, hchange, hsettings⟩ := ofJson?_toJson_of_parse
  refine ⟨?_, ?_, ?_, hsettings _ (Nat.le_refl _)⟩
  · have hread : readAll "# branch.head a/b\x00# branch.ab +0 -2\x00u AA N... 0 0 0 0 0 0 0 f" =
        .ok [.header ⟨"branch.head a/b"⟩, .header ⟨"branch.ab +0 -2"⟩,
          .entry ⟨.conflicted, "f", "AA", none⟩] := by rfl
    obtain ⟨report, hparse, -⟩ := @Report.exists_summary _ {} _ (by decide +kernel) hread
      fun header hh _ => by
        obtain rfl | rfl : header = ⟨"branch.head a/b"⟩ ∨ header = ⟨"branch.ab +0 -2"⟩ := by
          simpa [headersOf, Item.header?, eq_comm] using hh
        · exact ⟨{}, _, rfl⟩
        · exact ⟨{}, _, rfl⟩
    have hresult := congrArg Reported.result hparse
    exact ⟨report, hresult, hreport _ _ report hresult true report.rebasing report.cherryPicking⟩
  · have hparse : Commit.parse ("01234Def\x1F0123\x1FFix\x1F\x1FJo <jo@b.io> 86400 +0130\x1F" ++
        "Al <al@b.io> 8210266876799 -2359\x1F\x1FK: v\x1Ftag: v1") ":" =
          .ok { sha := ⟨"01234def"⟩, shortSha := ⟨"0123"⟩, summary := "Fix", body := ""
                author := ⟨"Jo", "jo@b.io", ⟨86400, 0, 5400⟩, 90⟩
                committer := ⟨"Al", "al@b.io", ⟨8210266876799, 0, -86340⟩, -1439⟩
                parents := [], trailers := ⟨[("K", ["v"])]⟩, tags := ["v1"] } := by rfl
    exact ⟨_, hparse, hcommit _ _ _ hparse (by decide) (by decide)⟩
  · have hrecords : NameStatus.records "R100\x00old\x00new\x00" =
        ([⟨"R100", some "old", "new"⟩], none) :=
      @NameStatus.records_placed [⟨⟨"R100", some "old", "new"⟩, by decide +kernel, [], 0⟩] _
        (by decide +kernel)
    have hparse : (NameStatus.Change.parse "R100\x00old\x00new\x00" "HEAD" .lenient).result =
        .ok [⟨"new", .renamed "old", "HEAD"⟩] := by
      rw [NameStatus.Change.parse, hrecords]
      exact (NameStatus.collect_lenient _).2 ⟨rfl, .cons ⟨rfl, rfl, by rfl⟩ .nil⟩
    exact ⟨_, hparse, hchange _ _ _ _ hparse _ (List.mem_singleton_self _)⟩

/-! ## Reading anything -/

/-- **What JSON can give.** Every commit that is read from JSON has canonical names, and every
report a canonical tip, an allowed branch, and a working tree in which each path stands once and is
found. There are as many trailers as keys if and only if no two of them have the same key, and then
all values of a key are found under it; but nothing makes them so. -/
theorem isWellFormed_of_ofJson? (value : Json) :
    (∀ commit, Commit.ofJson? value = some commit →
      commit.HasCanonicalNames ∧
        (commit.trailers.size = commit.trailers.keys.dedup.length ↔ commit.trailers.IsGrouped) ∧
        (commit.trailers.IsGrouped → ∀ key,
          (commit.trailer? key).getD [] = commit.trailers.recorded key)) ∧
    ∀ report, Report.ofJson? value = some report →
      (∀ tip ∈ report.tip, tip.IsCanonical) ∧
        (∀ branch ∈ report.branch, RefName.isAllowed branch.value.toList = true) ∧
        (report.workingTree.toList.map FileChange.path).Nodup ∧
        (∀ change ∈ report.workingTree.toList,
          report.workingTree.get? change.path = some change) ∧
        ∀ path change, report.workingTree.get? path = some change →
          change ∈ report.workingTree.toList ∧ change.path = path := by
  refine ⟨fun commit h => ⟨Commit.hasCanonicalNames_of_ofJson? h, Trailers.size_eq_iff,
    fun hgrouped => Trailers.getD_get?_eq_recorded hgrouped⟩, fun report h => ?_⟩
  have hwell := Report.isWellFormed_of_ofJson?_eq_some h
  refine ⟨hwell.tip, hwell.branch, WorkingTree.nodup_paths hwell.workingTree,
    fun change => WorkingTree.get?_of_mem hwell.workingTree, fun path change hget => ?_⟩
  exact ⟨WorkingTree.mem_toList_of_get? hget, WorkingTree.path_of_get? hwell.workingTree hget⟩

/-- A commit as JSON, with trailers as somebody wrote them. -/
def commitWith (trailers : List Json) : Json :=
  let identity := Json.object [("name", .string "Jo"), ("email", .string "jo@b.io"),
    ("date", .string "1970-01-01T00:00:00Z"), ("tz_offset_minutes", .integer 0)]
  .object [("sha", .string "01234DEF"), ("short_sha", .string "0123"), ("summary", .string "Fix"),
    ("body", .string ""), ("author", identity), ("committer", identity), ("parents", .array []),
    ("trailers", .object [("entries", .array trailers)]), ("tags", .array [])]

/-- The trailers of one key are found under every spelling of it. -/
theorem isWellFormed_of_ofJson?_single :
    ∃ commit, Commit.ofJson? (commitWith [.array [.string "a", .array [.string "1"]]]) =
        some commit ∧
      commit.HasCanonicalNames ∧ commit.trailers.size = commit.trailers.keys.dedup.length ∧
      (commit.trailer? "A").getD [] = commit.trailers.recorded "A" := by
  obtain ⟨hcommit, -⟩ :=
    isWellFormed_of_ofJson? (commitWith [.array [.string "a", .array [.string "1"]]])
  obtain ⟨hnames, hsize, hfound⟩ := hcommit _ (by rfl)
  have hgrouped : Trailers.IsGrouped ⟨[("a", ["1"])]⟩ := List.nodup_singleton _
  exact ⟨_, by rfl, hnames, hsize.2 hgrouped, hfound hgrouped "A"⟩

/-- Two entries whose keys differ in case only are taken as they are. They are counted as two keys,
and of their values only those of the first are found. -/
theorem ofJson?_splitKey :
    ∃ commit, Commit.ofJson? (commitWith [.array [.string "a", .array [.string "1"]],
        .array [.string "A", .array [.string "2"]]]) = some commit ∧
      ¬commit.trailers.IsGrouped ∧ commit.trailers.size = 2 ∧
      commit.trailers.keys.dedup.length = 1 ∧ commit.trailer? "a" = some ["1"] ∧
      commit.trailers.recorded "a" = ["1", "2"] := by
  refine ⟨_, by rfl, ?_, by rfl, by rfl, by rfl, by rfl⟩
  unfold Trailers.IsGrouped
  decide

end GitReadout
