import GitReadout.Proofs.Status.Header
import GitReadout.Proofs.Status.Shown

/-!
# What a report says

A report is known from the items it was made of. Each part of it that comes from headers is decided
by the last header of one key; headers of other keys say nothing, and what stands between headers
does not matter. The files are those of the entries that are shown.

* `Report.Summarises`: what a report holds after items. `Summarises.apply` takes one more item,
  `Summarises.applyAll` all that follow.
* `Summarises.isToldBy`: what it holds of the headers, said by their texts.
* `exists_applyAll`: a report is made if every header can be taken by itself.
* `Summarises.unique`: the entries and the headers of each key leave no choice.
* `exists_parse_eq`: the report of a whole output.
-/

set_option autoImplicit false

namespace GitReadout.Status

/-! ## Headers -/

def Item.header? : Item → Option Header
  | .header h => some h
  | .entry _ => none

def headersOf (items : List Item) : List Header :=
  items.filterMap Item.header?

def headersWith (key : String) (items : List Item) : List Header :=
  (headersOf items).filter fun header => header.key = key

def lastHeader (key : String) (items : List Item) : Option Header :=
  (headersWith key items).getLast?

/-- The keys of headers that may be wrong. -/
def checkedKeys : List String :=
  ["branch.oid", "branch.head", "branch.ab", "stash"]

/-- The keys of headers that say something. -/
def knownKeys : List String :=
  "branch.upstream" :: checkedKeys

/-- A header that is taken, by some report and so by every one. -/
def Header.IsAccepted (header : Header) : Prop :=
  ∃ report after : Report, report.applyHeader header = .ok after

theorem Header.IsAccepted.applyHeader {header : Header} (h : header.IsAccepted) (report : Report) :
    ∃ after, report.applyHeader header = .ok after := by
  obtain ⟨other, after, hother⟩ := h
  unfold Report.applyHeader at hother ⊢
  split at hother
  all_goals
    first
    | exact ⟨_, rfl⟩
    | obtain ⟨value, hvalue, -⟩ := map_eq_ok_iff.1 hother
      rw [hvalue]
      exact ⟨_, rfl⟩

theorem isAccepted_of_not_mem {header : Header} (h : header.key ∉ checkedKeys) :
    header.IsAccepted := by
  refine ⟨{}, ?_⟩
  simp only [checkedKeys, List.mem_cons, List.not_mem_nil, or_false, not_or] at h
  unfold Report.applyHeader
  split
  · rename_i hkey
    exact absurd hkey h.1
  · rename_i hkey
    exact absurd hkey h.2.1
  · exact ⟨_, rfl⟩
  · rename_i hkey
    exact absurd hkey h.2.2.1
  · rename_i hkey
    exact absurd hkey h.2.2.2
  · exact ⟨_, rfl⟩

theorem headersOf_header (items : List Item) (header : Header) :
    headersOf (items ++ [.header header]) = headersOf items ++ [header] := by
  simp [headersOf, Item.header?, List.filterMap_append]

theorem headersOf_entry (items : List Item) (entry : Entry) :
    headersOf (items ++ [.entry entry]) = headersOf items := by
  simp [headersOf, Item.header?, List.filterMap_append]

theorem lastHeader_header (key : String) (items : List Item) (header : Header) :
    lastHeader key (items ++ [.header header]) =
      if header.key = key then some header else lastHeader key items := by
  rw [lastHeader, headersWith, headersOf_header, List.filter_append]
  by_cases h : header.key = key
  · simp [h]
  · simp [h, lastHeader, headersWith]

theorem lastHeader_entry (key : String) (items : List Item) (entry : Entry) :
    lastHeader key (items ++ [.entry entry]) = lastHeader key items := by
  rw [lastHeader, headersWith, headersOf_entry]
  rfl

theorem entriesOf_header (items : List Item) (header : Header) :
    entriesOf (items ++ [.header header]) = entriesOf items := by
  simp [entriesOf, Item.entry?, List.filterMap_append]

theorem entriesOf_entry (items : List Item) (entry : Entry) :
    entriesOf (items ++ [.entry entry]) = entriesOf items ++ [entry] := by
  simp [entriesOf, Item.entry?, List.filterMap_append]

/-! ## Summaries -/

/-- What a report holds after items: what the last header of each key says, or the default where
there is none, and the changes of the entries. -/
structure Report.Summarises (report : Report) (items : List Item) : Prop where
  tip : (lastHeader "branch.oid" items).elim (.ok none) Header.tip = .ok report.tip
  branch : (lastHeader "branch.head" items).elim (.ok none) Header.branch = .ok report.branch
  tracked : (lastHeader "branch.upstream" items).map Header.rest = report.tracked
  divergence : (lastHeader "branch.ab" items).elim (.ok none)
    (fun header => header.divergence.map some) = .ok report.divergence
  stashes : (lastHeader "stash" items).elim (.ok 0) Header.stashes = .ok report.stashes
  workingTree : WorkingTree.ofList ((entriesOf items).filterMap Entry.change?) = report.workingTree
  operations : (report.merging, report.rebasing, report.cherryPicking) = (false, false, false)

/-- What a report holds is what the text of the last header of each key says, or the default where
there is no such header. -/
structure Report.IsToldBy (report : Report) (items : List Item) : Prop where
  tip : (lastHeader "branch.oid" items).elim (report.tip = none) fun header =>
    header.TellsTip report.tip
  branch : (lastHeader "branch.head" items).elim (report.branch = none) fun header =>
    header.TellsBranch report.branch
  tracked : report.tracked = (lastHeader "branch.upstream" items).map Header.rest
  divergence : (lastHeader "branch.ab" items).elim (report.divergence = none) fun header =>
    ∃ counts : Divergence, report.divergence = some counts ∧ counts.IsWritten header.rest
  stashes : (lastHeader "stash" items).elim (report.stashes = 0) fun header =>
    Text.IsCount 18446744073709551615 header.rest.toList report.stashes

/-- What is read of the last header of a key, if there is one, is what its text means. -/
theorem elim_of_reads {α : Type} {last : Option Header} {read : Header → Except Failure α}
    {default value : α} {Means : Header → α → Prop} {fault : Header → Failure}
    (hreads : ∀ header, Reads (read header) (Means header) (fault header))
    (h : last.elim (.ok default) read = .ok value) :
    last.elim (value = default) fun header => Means header value := by
  cases last with
  | none => exact (Except.ok.inj h).symm
  | some header => exact ((hreads header).1 value).1 h

namespace Report

theorem summarises_nil : Summarises {} [] :=
  ⟨rfl, rfl, rfl, rfl, rfl, rfl, rfl⟩

section
variable {report after : Report} {items : List Item}

theorem Summarises.applyEntry (h : report.Summarises items) (entry : Entry) :
    (report.applyEntry entry).Summarises (items ++ [.entry entry]) := by
  have hworking : WorkingTree.ofList ((entriesOf (items ++ [.entry entry])).filterMap
      Entry.change?) = (report.applyEntry entry).workingTree := by
    rw [entriesOf_entry, List.filterMap_append, Report.applyEntry]
    cases hchange : entry.change? with
    | none => simp [hchange, h.workingTree]
    | some change => simp [hchange, h.workingTree]
  have hrest : report.applyEntry entry =
      { report with workingTree := (report.applyEntry entry).workingTree } := by
    unfold Report.applyEntry
    split <;> rfl
  rw [hrest]
  refine ⟨?_, ?_, ?_, ?_, ?_, hworking, h.operations⟩ <;> rw [lastHeader_entry]
  exacts [h.tip, h.branch, h.tracked, h.divergence, h.stashes]

theorem Summarises.applyHeader (h : report.Summarises items) {header : Header}
    (happly : report.applyHeader header = .ok after) :
    after.Summarises (items ++ [.header header]) := by
  obtain ⟨htip, hbranch, htracked, hdivergence, hstashes, hworking, hoperations⟩ := h
  unfold Report.applyHeader at happly
  split at happly
  · rename_i hkey
    obtain ⟨tip, hvalue, rfl⟩ := map_eq_ok_iff.1 happly
    refine ⟨?_, ?_, ?_, ?_, ?_, ?_, hoperations⟩ <;>
      simp [lastHeader_header, entriesOf_header, *]
  · rename_i hkey
    obtain ⟨branch, hvalue, rfl⟩ := map_eq_ok_iff.1 happly
    refine ⟨?_, ?_, ?_, ?_, ?_, ?_, hoperations⟩ <;>
      simp [lastHeader_header, entriesOf_header, *]
  · rename_i hkey
    obtain rfl := Except.ok.inj happly
    refine ⟨?_, ?_, ?_, ?_, ?_, ?_, hoperations⟩ <;>
      simp [lastHeader_header, entriesOf_header, *]
  · rename_i hkey
    obtain ⟨counts, hvalue, rfl⟩ := map_eq_ok_iff.1 happly
    refine ⟨?_, ?_, ?_, ?_, ?_, ?_, hoperations⟩ <;>
      simp [lastHeader_header, entriesOf_header, Except.map, *]
  · rename_i hkey
    obtain ⟨stashes, hvalue, rfl⟩ := map_eq_ok_iff.1 happly
    refine ⟨?_, ?_, ?_, ?_, ?_, ?_, hoperations⟩ <;>
      simp [lastHeader_header, entriesOf_header, *]
  · rename_i hoid hhead hupstream hab hstash
    obtain rfl := Except.ok.inj happly
    refine ⟨?_, ?_, ?_, ?_, ?_, ?_, hoperations⟩
    · rw [lastHeader_header, if_neg hoid]
      exact htip
    · rw [lastHeader_header, if_neg hhead]
      exact hbranch
    · rw [lastHeader_header, if_neg hupstream]
      exact htracked
    · rw [lastHeader_header, if_neg hab]
      exact hdivergence
    · rw [lastHeader_header, if_neg hstash]
      exact hstashes
    · rw [entriesOf_header]
      exact hworking

theorem Summarises.apply (h : report.Summarises items) {item : Item}
    (happly : report.apply item = .ok after) : after.Summarises (items ++ [item]) := by
  cases item with
  | header header => exact h.applyHeader happly
  | entry entry =>
    obtain rfl := Except.ok.inj happly
    exact h.applyEntry entry

theorem Summarises.applyAll {rest : List Item} (h : report.Summarises items)
    (happly : report.applyAll (rest.map .ok) = .ok after) :
    after.Summarises (items ++ rest) := by
  induction rest generalizing report items with
  | nil =>
    obtain rfl := Except.ok.inj happly
    rwa [List.append_nil]
  | cons item rest ih =>
    rw [List.map_cons, Report.applyAll] at happly
    split at happly
    · rename_i next hnext
      -- the item moves from what follows to what is recorded
      rw [← List.singleton_append, ← List.append_assoc]
      exact ih (h.apply hnext) happly
    · cases happly

theorem exists_applyAll (haccepted : ∀ header ∈ headersOf items, header.IsAccepted) :
    ∀ report : Report, ∃ after, report.applyAll (items.map .ok) = .ok after := by
  induction items with
  | nil => exact fun report => ⟨report, rfl⟩
  | cons item rest ih =>
    intro report
    obtain ⟨next, hnext⟩ : ∃ next, report.apply item = .ok next := by
      cases item with
      | header header =>
        exact (haccepted header (by simp [headersOf, Item.header?])).applyHeader report
      | entry entry => exact ⟨_, rfl⟩
    rw [List.map_cons, Report.applyAll, hnext]
    refine ih (fun header hh => haccepted header ?_) next
    obtain ⟨other, hother, hheader⟩ := List.mem_filterMap.1 hh
    exact List.mem_filterMap.2 ⟨other, List.mem_cons_of_mem _ hother, hheader⟩

theorem Summarises.isToldBy (h : report.Summarises items) : report.IsToldBy items where
  tip := elim_of_reads Header.tip_reads h.tip
  branch := elim_of_reads Header.branch_reads h.branch
  tracked := h.tracked.symm
  divergence := by
    have hlast := h.divergence
    cases hheader : lastHeader "branch.ab" items with
    | none =>
      rw [hheader] at hlast
      exact (Except.ok.inj hlast).symm
    | some header =>
      rw [hheader] at hlast
      obtain ⟨counts, hcounts, hsome⟩ := map_eq_ok_iff.1 hlast
      exact ⟨counts, hsome.symm, (header.divergence_reads.1 counts).1 hcounts⟩
  stashes := elim_of_reads Header.stashes_reads h.stashes

/-- The entries, and the last header of each known key, leave no choice. -/
theorem Summarises.unique {report' : Report} {items' : List Item} (h : report.Summarises items)
    (h' : report'.Summarises items') (hentries : entriesOf items' = entriesOf items)
    (hlast : ∀ key ∈ knownKeys, lastHeader key items' = lastHeader key items) :
    report' = report := by
  obtain ⟨htip, hbranch, htracked, hdivergence, hstashes, hworking, hoperations⟩ := h
  obtain ⟨htip', hbranch', htracked', hdivergence', hstashes', hworking', hoperations'⟩ := h'
  rw [hlast _ (by decide)] at htip' hbranch' htracked' hdivergence' hstashes'
  rw [hentries] at hworking'
  have etip := Except.ok.inj (htip'.symm.trans htip)
  have ebranch := Except.ok.inj (hbranch'.symm.trans hbranch)
  have etracked := htracked'.symm.trans htracked
  have edivergence := Except.ok.inj (hdivergence'.symm.trans hdivergence)
  have estashes := Except.ok.inj (hstashes'.symm.trans hstashes)
  have eworking := hworking'.symm.trans hworking
  have eoperations := hoperations'.trans hoperations.symm
  cases report
  cases report'
  simp_all

end

/-! ## Whole outputs -/

theorem items_of_readAll {output : String} {found : List Item} (h : readAll output = .ok found) :
    Status.items output = found.map .ok := by
  have hall : List.Forall₂ (fun yielded item => yielded = .ok item) (Status.items output) found :=
    mapM_eq_ok_iff.1 h
  rw [← List.forall₂_eq_eq_eq, List.forall₂_map_right_iff]
  exact hall

theorem exists_readAll_of_applyAll {yielded : List (Except Failure Item)} {report after : Report}
    (h : report.applyAll yielded = .ok after) : ∃ found, yielded.mapM id = .ok found := by
  induction yielded generalizing report with
  | nil => exact ⟨[], rfl⟩
  | cons first rest ih =>
    cases first with
    | error e => cases h
    | ok item =>
      rw [Report.applyAll] at h
      split at h
      · obtain ⟨found, hfound⟩ := ih h
        exact ⟨item :: found, by rw [List.mapM_cons, hfound]; rfl⟩
      · cases h

theorem exists_summary {output : String} {settings : Settings} {found : List Item}
    (hsize : output.utf8ByteSize ≤ settings.statusLimit) (hread : readAll output = .ok found)
    (haccepted : ∀ header ∈ headersOf found, header.key ∈ checkedKeys → header.IsAccepted) :
    ∃ report, parse output settings = ⟨.ok (some report), []⟩ ∧ report.Summarises found := by
  have hall : ∀ header ∈ headersOf found, header.IsAccepted := fun header hh => by
    by_cases hkey : header.key ∈ checkedKeys
    · exact haccepted header hh hkey
    · exact isAccepted_of_not_mem hkey
  obtain ⟨report, hreport⟩ := exists_applyAll hall {}
  refine ⟨report, ?_, summarises_nil.applyAll hreport⟩
  rw [parse_of_size_le hsize, ofItems, items_of_readAll hread, hreport]
  rfl

/-- What is reported was read, record by record, and is what the items say. -/
theorem exists_summary_of_parse {output : String} {settings : Settings} {report : Report}
    (h : (parse output settings).result = .ok (some report)) :
    ∃ found, readAll output = .ok found ∧ report.Summarises found := by
  unfold parse at h
  split at h
  · cases h
  · obtain ⟨made, hmade, hreport⟩ := map_eq_ok_iff.1 h
    obtain rfl := Option.some.inj hreport
    obtain ⟨found, hfound⟩ := exists_readAll_of_applyAll hmade
    rw [ofItems, items_of_readAll hfound] at hmade
    exact ⟨found, hfound, summarises_nil.applyAll hmade⟩

/-- **What a status output means.** An output within the limit, all of whose records are read and
all of whose headers are taken, gives a report without a notice. Exactly the entries that are
neither ignored nor `AD` are shown; each shown path stands once, in the order of its first shown
entry, with the change of its last; the rest is what the text of the last header of each key says.
So any other output with the same entries and the same headers of each known key gives the same
report. -/
theorem exists_parse_eq {output : String} {settings : Settings} {found : List Item}
    (hsize : output.utf8ByteSize ≤ settings.statusLimit) (hread : readAll output = .ok found)
    (haccepted : ∀ header ∈ headersOf found, header.key ∈ checkedKeys → header.IsAccepted) :
    ∃ report, parse output settings = ⟨.ok (some report), []⟩ ∧
      (∀ entry ∈ entriesOf found, entry.change?.isSome = entry.isShown) ∧
      (∀ path, (∃ change ∈ report.workingTree.toList, change.path = path) ↔
        ∃ entry ∈ entriesOf found, entry.isShown ∧ entry.path = path) ∧
      report.workingTree.Shows ((entriesOf found).filter Entry.isShown) ∧
      report.Summarises found ∧ report.IsToldBy found ∧
      (∀ header, lastHeader "branch.oid" found = some header → header.rest = "(initial)" →
        report.tip = none) ∧
      (∀ header, lastHeader "branch.head" found = some header → header.rest = "(detached)" →
        report.branch = none) ∧
      ∀ (ws : List Written) (output' : String), Written.Writes ws output' →
        output'.utf8ByteSize ≤ settings.statusLimit →
        entriesOf (ws.map Written.item) = entriesOf found →
        (∀ key ∈ knownKeys, headersWith key (ws.map Written.item) = headersWith key found) →
        parse output' settings = parse output settings := by
  obtain ⟨report, hparse, hsummary⟩ := exists_summary hsize hread haccepted
  have hchange := isSome_change?_of_readAll hread
  have hshows : report.workingTree.Shows ((entriesOf found).filter Entry.isShown) := by
    rw [← hsummary.workingTree]
    exact shows_ofList hchange
  refine ⟨report, hparse, hchange, fun path => ?_, hshows, hsummary, hsummary.isToldBy, ?_, ?_, ?_⟩
  · have hmem : path ∈ report.workingTree.toList.map FileChange.path ↔
        path ∈ ((entriesOf found).filter Entry.isShown).map Entry.path := by
      rw [hshows.paths, List.mem_eraseDups]
    simpa [and_assoc] using hmem
  · intro header hlast hrest
    have htip := hsummary.tip
    rw [hlast, Option.elim_some, Header.tip, if_pos hrest] at htip
    exact (Except.ok.inj htip).symm
  · intro header hlast hrest
    have hbranch := hsummary.branch
    rw [hlast, Option.elim_some, Header.branch, if_pos hrest] at hbranch
    exact (Except.ok.inj hbranch).symm
  · intro ws output' hwrites hsize' hentries hheaders
    -- every checked header of the other output is one of this output
    have haccepted' : ∀ header ∈ headersOf (ws.map Written.item), header.key ∈ checkedKeys →
        header.IsAccepted := by
      intro header hh hkey
      have hwith : header ∈ headersWith header.key (ws.map Written.item) := by
        simp [headersWith, hh]
      rw [hheaders _ (List.mem_cons_of_mem _ hkey)] at hwith
      exact haccepted header (List.mem_of_mem_filter hwith) hkey
    obtain ⟨report', hparse', hsummary'⟩ :=
      exists_summary hsize' (readAll_of_writes hwrites) haccepted'
    have hlast : ∀ key ∈ knownKeys, lastHeader key (ws.map Written.item) = lastHeader key found :=
      fun key hk => by rw [lastHeader, hheaders key hk, lastHeader]
    rw [hparse', hparse, hsummary.unique hsummary' hentries hlast]

/-- A branch without a commit, two counts of stashes of which the second decides, an ignored path
and a path that is described twice. -/
theorem exists_parse_eq_initial :
    ∃ report,
      parse "# branch.oid (initial)\x00# stash 1\x00? a\x00! b\x00# stash 2\x00? a" {} =
        ⟨.ok (some report), []⟩ ∧
      report.tip = none ∧ report.stashes = 2 ∧
      report.workingTree.toList.map FileChange.path = ["a"] := by
  have hsize :
      "# branch.oid (initial)\x00# stash 1\x00? a\x00! b\x00# stash 2\x00? a".utf8ByteSize ≤
        ({} : Settings).statusLimit := by decide +kernel
  have hread : readAll "# branch.oid (initial)\x00# stash 1\x00? a\x00! b\x00# stash 2\x00? a" =
      .ok [.header ⟨"branch.oid (initial)"⟩, .header ⟨"stash 1"⟩,
        .entry ⟨.untracked, "a", "??", none⟩, .entry ⟨.ignored, "b", "!!", none⟩,
        .header ⟨"stash 2"⟩, .entry ⟨.untracked, "a", "??", none⟩] := by rfl
  obtain ⟨report, hparse, -, -, hshows, hsummary, -, htip, -, -⟩ :=
    exists_parse_eq hsize hread fun header hh _ => by
      obtain rfl | rfl | rfl : header = ⟨"branch.oid (initial)"⟩ ∨ header = ⟨"stash 1"⟩ ∨
          header = ⟨"stash 2"⟩ := by
        simpa [headersOf, Item.header?, eq_comm] using hh
      · exact ⟨{}, _, rfl⟩
      · exact ⟨{}, _, rfl⟩
      · exact ⟨{}, _, rfl⟩
  refine ⟨report, hparse, htip _ rfl rfl, ?_, ?_⟩
  · exact (Except.ok.inj hsummary.stashes).symm
  · exact hshows.paths

end Report

end GitReadout.Status
