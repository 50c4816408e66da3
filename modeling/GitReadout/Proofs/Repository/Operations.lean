import GitReadout.Proofs.Except
import GitReadout.Proofs.Run.FileTree
import GitReadout.Repository.Direct

/-!
# Operations under way

A status says whether a merge, a rebase or a cherry-pick is under way. It tells so from the files in
the git directory, which git is asked for, and takes the rest from the output of the status.

* `isBare_bareOf`: every answer is a text with line ends, perhaps none, behind it.
* `lookup_mark_of_respelled`: the git directory is the same one if the answer is written in another
  way.
* `status_of_answered`: a status call whose two questions are answered ends in a report with marks.
* `status_shows_marks`: what the marks show.
* `exists_answered`: which runs of git are answers.
-/

set_option autoImplicit false

namespace GitReadout.Repository

open Run (FileTree GitProgram GitRunner Host IsName IsPath Output Session components isAbsolute join
  stem)

/-! ## Answers -/

/-- An answer is a text with line ends behind it, of which the text itself has none at its end. -/
structure IsBare (answer bare : String) : Prop where
  ends : ∃ ends, answer = bare ++ ends ∧ ∀ c ∈ ends.toList, c = '\r' ∨ c = '\n'
  last : ∀ c ∈ bare.toList.getLast?, c ≠ '\r' ∧ c ≠ '\n'

/-- An answer written in another way: with a line end behind it, or, where it is a relative path
and the location is not, below the location. There a second slash may stand, which makes paths
longer, so they must not get too long. -/
inductive Respelled (location : String) : String → String → Prop
  | feed {answer : String} : Respelled location answer (answer ++ "\n")
  | returnFeed {answer : String} : Respelled location answer (answer ++ "\r\n")
  | below {answer : String} :
    isAbsolute location = true → ¬isAbsolute answer = true →
    Respelled location answer (join location answer)
  | behindSlash {answer : String} :
    isAbsolute location = true → ¬isAbsolute answer = true →
    (location ++ "/" ++ answer ++ "/CHERRY_PICK_HEAD").utf8ByteSize < FileTree.maxPathBytes →
    Respelled location answer (location ++ "/" ++ answer)

/-- An answer without the line ends at its end. -/
def bareOf (answer : String) : String :=
  String.ofList (Text.dropLineEnds answer.toList)

theorem isBare_bareOf (answer : String) : IsBare answer (bareOf answer) := by
  obtain ⟨ends, hanswer, hends, hlast⟩ := Text.exists_eq_dropLineEnds_append answer.toList
  refine ⟨⟨String.ofList ends, ?_, by simpa using hends⟩, by simpa [bareOf] using hlast⟩
  rw [bareOf, ← String.ofList_append, ← hanswer, String.ofList_toList]

theorem utf8ByteSize_bareOf_le (answer : String) :
    (bareOf answer).utf8ByteSize ≤ answer.utf8ByteSize := by
  obtain ⟨⟨ends, hanswer, -⟩, -⟩ := isBare_bareOf answer
  conv => rhs; rw [hanswer, String.utf8ByteSize_append]
  omega

theorem bareOf_append {ends : String} (h : ∀ c ∈ ends.toList, c = '\r' ∨ c = '\n')
    (answer : String) : bareOf (answer ++ ends) = bareOf answer := by
  rw [bareOf, String.toList_append, Text.dropLineEnds_append h, bareOf]

theorem gitDirectoryOf_eq (location answer : String) :
    gitDirectoryOf location answer = join location (bareOf answer) := rfl

theorem not_isAbsolute_bareOf {answer : String} (h : ¬isAbsolute answer = true) :
    ¬isAbsolute (bareOf answer) = true := by
  obtain ⟨⟨ends, hanswer, -⟩, -⟩ := isBare_bareOf answer
  rw [Run.isAbsolute_iff] at h ⊢
  intro hhead
  refine h ?_
  rw [hanswer, String.toList_append, List.head?_append, hhead, Option.some_or]

/-! ## Answers below the location -/

theorem ne_empty_of_isAbsolute {path : String} (h : isAbsolute path = true) : path ≠ "" := by
  rintro rfl
  cases h

section
variable {location answer : String} (hlocation : isAbsolute location = true)
  (hanswer : ¬isAbsolute answer = true)
include hlocation hanswer

/-- The text begins behind a slash, which the line ends at the end of the answer do not reach. -/
theorem bareOf_join : bareOf (join location answer) = join location (bareOf answer) := by
  have hne := ne_empty_of_isAbsolute hlocation
  have hbare := not_isAbsolute_bareOf hanswer
  rw [bareOf, Run.toList_join hne hanswer, Text.dropLineEnds_append_cons (by decide),
    ← String.toList_inj, String.toList_ofList, Run.toList_join hne hbare, bareOf,
    String.toList_ofList]

theorem gitDirectoryOf_join :
    gitDirectoryOf location (join location answer) = gitDirectoryOf location answer := by
  have habsolute : isAbsolute (join location (bareOf answer)) = true :=
    (Run.isAbsolute_join_iff (ne_empty_of_isAbsolute hlocation)
      (not_isAbsolute_bareOf hanswer)).2 hlocation
  rw [gitDirectoryOf_eq, bareOf_join hlocation hanswer, Run.join_of_absolute habsolute,
    gitDirectoryOf_eq]

end

theorem toList_behindSlash (location rest : String) :
    (location ++ "/" ++ rest).toList = location.toList ++ '/' :: rest.toList := by
  simp

theorem isAbsolute_behindSlash {location : String} (h : isAbsolute location = true)
    (rest : String) : isAbsolute (location ++ "/" ++ rest) = true := by
  rw [Run.isAbsolute_iff] at h ⊢
  rw [toList_behindSlash, List.head?_append, h, Option.some_or]

theorem gitDirectoryOf_behindSlash {location : String} (h : isAbsolute location = true)
    (answer : String) :
    gitDirectoryOf location (location ++ "/" ++ answer) = location ++ "/" ++ bareOf answer := by
  have hbare : bareOf (location ++ "/" ++ answer) = location ++ "/" ++ bareOf answer := by
    rw [bareOf, toList_behindSlash, Text.dropLineEnds_append_cons (by decide), ← String.toList_inj,
      toList_behindSlash, bareOf, String.toList_ofList, String.toList_ofList]
  rw [gitDirectoryOf_eq, hbare, Run.join_of_absolute (isAbsolute_behindSlash h _)]

/-! ## Marks -/

/-- The names that show what is under way. -/
def markNames : List String :=
  ["MERGE_HEAD", "rebase-apply", "rebase-merge", "CHERRY_PICK_HEAD"]

theorem isName_of_mem_markNames {name : String} (h : name ∈ markNames) : IsName name := by
  simp only [markNames, List.mem_cons, List.not_mem_nil, or_false] at h
  rcases h with rfl | rfl | rfl | rfl <;>
    exact ⟨by decide, by decide, by decide, by decide⟩

theorem utf8ByteSize_le_of_mem_markNames {name : String} (h : name ∈ markNames) :
    name.utf8ByteSize ≤ 16 := by
  revert name
  decide

/-- A second slash makes no difference to what is found, only to the size of the path. -/
theorem has_behindSlash_iff {files : FileTree} {location bare name : String}
    (hlocation : isAbsolute location = true) (hbare : ¬isAbsolute bare = true) (hname : IsName name)
    (hsize : (location ++ "/" ++ bare ++ "/" ++ name).utf8ByteSize < FileTree.maxPathBytes) :
    files.Has (location ++ "/" ++ bare) name ↔ files.Has (join location bare) name := by
  have hne := ne_empty_of_isAbsolute hlocation
  have hjoin : (join location bare).toList = stem location ++ '/' :: bare.toList :=
    Run.toList_join hne hbare
  have htext := toList_behindSlash location bare
  rcases Run.toList_eq_stem location with hstem | ⟨hstem, -⟩
  · rw [hstem] at htext
    have habsolute := isAbsolute_behindSlash hlocation bare
    have habsolute' : isAbsolute (join location bare) = true :=
      (Run.isAbsolute_join_iff hne hbare).2 hlocation
    have hsize' : (join location bare ++ "/" ++ name).utf8ByteSize < FileTree.maxPathBytes := by
      have hle := Run.utf8ByteSize_join_le location bare
      simp only [String.utf8ByteSize_append] at hle hsize ⊢
      omega
    have hpath : IsPath (join (location ++ "/" ++ bare) name) ↔
        IsPath (join (join location bare) name) := by
      rw [Run.isPath_join_iff (ne_empty_of_isAbsolute habsolute) hname.not_isAbsolute hsize,
        Run.isPath_join_iff (ne_empty_of_isAbsolute habsolute') hname.not_isAbsolute hsize', htext,
        hjoin]
      simp
    have hwalks : ∀ last, files.Walks [] (components (location ++ "/" ++ bare).toList) last ↔
        files.Walks [] (components (join location bare).toList) last := by
      intro last
      rw [htext, hjoin, List.append_assoc]
      exact FileTree.walks_components_slash_iff (stem location) bare.toList
    simp only [FileTree.Has, hpath, FileTree.start, habsolute, habsolute', if_true, hwalks]
  · have hsame : location ++ "/" ++ bare = join location bare := by
      rw [← String.toList_inj, htext, hjoin, ← hstem]
    rw [hsame]

/-- However an answer is spelled, the same is found in the directory that it names. -/
theorem lookup_mark_of_respelled {files : FileTree} {location answer other name : String}
    (h : Respelled location answer other) (hname : name ∈ markNames) :
    (files.lookup (join (gitDirectoryOf location other) name)).isFound =
      (files.lookup (join (gitDirectoryOf location answer) name)).isFound := by
  cases h with
  | feed => rw [gitDirectoryOf_eq, bareOf_append (by simp), ← gitDirectoryOf_eq]
  | returnFeed => rw [gitDirectoryOf_eq, bareOf_append (by simp), ← gitDirectoryOf_eq]
  | below hlocation hanswer => rw [gitDirectoryOf_join hlocation hanswer]
  | behindSlash hlocation hanswer hsize =>
    have hname' := isName_of_mem_markNames hname
    rw [Bool.eq_iff_iff, FileTree.isFound_lookup_join hname', FileTree.isFound_lookup_join hname',
      gitDirectoryOf_behindSlash hlocation, gitDirectoryOf_eq]
    refine has_behindSlash_iff hlocation (not_isAbsolute_bareOf hanswer) hname' ?_
    have hle := utf8ByteSize_bareOf_le answer
    have hmark := utf8ByteSize_le_of_mem_markNames hname
    have hslash : "/".utf8ByteSize = 1 := by decide
    have hlongest : "/CHERRY_PICK_HEAD".utf8ByteSize = 17 := by decide
    simp only [String.utf8ByteSize_append, hslash, hlongest] at hsize ⊢
    omega

/-! ## Status calls -/

section
variable {ρ : Type} [GitRunner ρ] {repository : Repository ρ} {host after : Host}
  {text answer : String} {report : Status.Report}

/-- Git answers both questions of a status call: what the status is and where the git directory is.
This leaves the surroundings `after`. -/
def Answered (repository : Repository ρ) (host : Host) (text answer : String) (after : Host) :
    Prop :=
  ∃ output middle reply, repository.git statusArguments .strict host = (.ok output, middle) ∧
    output.text = .ok text ∧
    repository.git gitDirectoryArguments .strict middle = (.ok reply, after) ∧
    reply.text = .ok answer

/-- A report with what the marks in a directory show. -/
def marked (report : Status.Report) (files : FileTree) (directory : String) : Status.Report :=
  { report with
    merging := (files.lookup (join directory "MERGE_HEAD")).isFound
    rebasing := (files.lookup (join directory "rebase-apply")).isFound ||
      (files.lookup (join directory "rebase-merge")).isFound
    cherryPicking := (files.lookup (join directory "CHERRY_PICK_HEAD")).isFound }

/-- What is shown of a report: what exists in the directory, and the rest as it was. -/
structure Shows (files : FileTree) (directory : String) (report shown : Status.Report) : Prop where
  merging_iff : shown.merging ↔ files.Has directory "MERGE_HEAD"
  rebasing_iff :
    shown.rebasing ↔ files.Has directory "rebase-apply" ∨ files.Has directory "rebase-merge"
  cherryPicking_iff : shown.cherryPicking ↔ files.Has directory "CHERRY_PICK_HEAD"
  rest_eq : shown = { report with
    merging := shown.merging, rebasing := shown.rebasing, cherryPicking := shown.cherryPicking }

theorem shows_marked (files : FileTree) (directory : String) (report : Status.Report) :
    Shows files directory report (marked report files directory) := by
  have hmark : ∀ name ∈ markNames,
      ((files.lookup (join directory name)).isFound ↔ files.Has directory name) :=
    fun name hname => FileTree.isFound_lookup_join (isName_of_mem_markNames hname) directory
  exact {
    merging_iff := hmark "MERGE_HEAD" (by decide)
    rebasing_iff := by
      rw [← hmark "rebase-apply" (by decide), ← hmark "rebase-merge" (by decide), marked,
        Bool.or_eq_true]
    cherryPicking_iff := hmark "CHERRY_PICK_HEAD" (by decide)
    rest_eq := rfl }

theorem exists?_apply (path : String) (host : Host) :
    exists? path host = (.ok (host.files.lookup path).isFound, host) := rfl

theorem anyExists?_apply (paths : List String) (host : Host) :
    anyExists? paths host =
      (.ok (paths.any fun path => (host.files.lookup path).isFound), host) := by
  induction paths with
  | nil => rfl
  | cons path rest ih =>
    rw [anyExists?, Session.bind_ok (exists?_apply path host), List.any_cons]
    cases (host.files.lookup path).isFound
    · exact ih
    · rfl

/-- An output that gives a report is within the limit, and nothing is reported of it. -/
theorem notices_eq_nil {output : String} {settings : Settings}
    (h : (Status.Report.parse output settings).result = .ok (some report)) :
    (Status.Report.parse output settings).notices = [] := by
  rcases Nat.lt_or_ge settings.statusLimit output.utf8ByteSize with hlt | hle
  · rw [Status.Report.parse_of_limit_lt hlt] at h
    cases h
  · rw [Status.Report.parse_of_size_le hle]

theorem status_of_answered (h : Answered repository host text answer after)
    (hreport : (Status.Report.parse text repository.settings).result = .ok (some report)) :
    repository.status host = (.ok (some (marked report after.files
      (gitDirectoryOf repository.location answer))), after) := by
  obtain ⟨output, middle, reply, hstatus, htext, hdirectory, hanswer⟩ := h
  have hlift : Session.lift output.text middle = (.ok text, middle) := by rw [htext]; rfl
  have hparse : Session.ofReported repository.sink
      (Status.Report.parse text repository.settings) middle = (.ok (some report), middle) := by
    rw [Session.ofReported, hreport, notices_eq_nil hreport]
    rfl
  have hreply : Session.lift reply.text after = (.ok answer, after) := by rw [hanswer]; rfl
  rw [status, Session.bind_ok hstatus, Session.bind_ok hlift, Session.bind_ok hparse]
  refine (Session.bind_ok hdirectory _).trans ?_
  rw [Session.bind_ok hreply, Session.bind_ok (exists?_apply _ _),
    Session.bind_ok (anyExists?_apply _ _), Session.bind_ok (exists?_apply _ _)]
  simp [marked, marksOf, Session.pure_apply]

/-- **Operations under way.** A status whose output gives a report is that report with what stands
in the git directory: the text that git answers without its line ends, if this is an absolute path,
and otherwise the path that it is below the location. An answer that names this directory in another
way gives the same status, if the files are the same. -/
theorem status_shows_marks (h : Answered repository host text answer after)
    (hreport : (Status.Report.parse text repository.settings).result = .ok (some report)) :
    (∃ bare shown, IsBare answer bare ∧ repository.status host = (.ok (some shown), after) ∧
      Shows after.files (if isAbsolute bare then bare else join repository.location bare) report
        shown) ∧
    ∀ other otherHost otherAfter, Respelled repository.location answer other →
      Answered repository otherHost text other otherAfter → otherAfter.files = after.files →
      (repository.status otherHost).1 = (repository.status host).1 := by
  have hstatus := status_of_answered h hreport
  constructor
  · refine ⟨bareOf answer, _, isBare_bareOf answer, hstatus, ?_⟩
    have hdirectory : (if isAbsolute (bareOf answer) then bareOf answer
        else join repository.location (bareOf answer)) =
          gitDirectoryOf repository.location answer := by
      split
      · rename_i habsolute
        rw [gitDirectoryOf_eq, Run.join_of_absolute habsolute]
      · rfl
    rw [hdirectory]
    exact shows_marked _ _ _
  · intro other otherHost otherAfter hother hanswered hfiles
    have hmark : ∀ name ∈ markNames,
        (after.files.lookup (join (gitDirectoryOf repository.location other) name)).isFound =
          (after.files.lookup (join (gitDirectoryOf repository.location answer) name)).isFound :=
      fun _ => lookup_mark_of_respelled hother
    rw [hstatus, status_of_answered hanswered hreport, hfiles]
    simp only [marked, hmark "MERGE_HEAD" (by decide), hmark "rebase-apply" (by decide),
      hmark "rebase-merge" (by decide), hmark "CHERRY_PICK_HEAD" (by decide)]

end

/-- A run of git that ends with the exit code zero is accepted. -/
theorem git_of_script {repository : Repository GitProgram} {arguments : List String} {host : Host}
    {stdout stderr : ByteArray} {rest : List Run.Outcome}
    (hnul : ¬(repository.runner.program :: repository.location :: arguments).any Host.hasNul)
    (hscript : host.script = .finished (some 0) stdout stderr :: rest) :
    ∃ after, repository.git arguments .strict host = (.ok ⟨some 0, stdout, stderr⟩, after) ∧
      after.script = rest ∧ after.files = host.files :=
  ⟨_, Run.run_of_finished (Host.start_cons hnul hscript) .strict, rfl, rfl⟩

/-- So both questions are answered if both runs end so and write UTF-8. -/
theorem exists_answered {repository : Repository GitProgram} {host : Host} {text answer : String}
    {stdout stderr stdout' stderr' : ByteArray} {rest : List Run.Outcome}
    (hnul : ¬[repository.runner.program, repository.location].any Host.hasNul)
    (hscript : host.script =
      .finished (some 0) stdout stderr :: .finished (some 0) stdout' stderr' :: rest)
    (htext : String.fromUTF8? stdout = some text)
    (hanswer : String.fromUTF8? stdout' = some answer) :
    ∃ after, Answered repository host text answer after ∧ after.files = host.files := by
  have hnul' : ∀ arguments : List String, ¬arguments.any Host.hasNul →
      ¬(repository.runner.program :: repository.location :: arguments).any Host.hasNul := by
    intro arguments harguments
    simp only [List.any_cons, List.any_nil, Bool.or_false, Bool.or_eq_true, not_or] at hnul ⊢
    exact ⟨hnul.1, hnul.2, harguments⟩
  obtain ⟨middle, hstatus, hmiddle, hfiles⟩ :=
    git_of_script (hnul' statusArguments (by decide)) hscript
  obtain ⟨after, hdirectory, -, hfiles'⟩ :=
    git_of_script (hnul' gitDirectoryArguments (by decide)) hmiddle
  refine ⟨after, ⟨_, middle, _, hstatus, ?_, hdirectory, ?_⟩, hfiles'.trans hfiles⟩
  · simp only [Output.text, htext]
  · simp only [Output.text, hanswer]

/-- A repository in the directory `/w`. -/
def mergeRepository : Repository GitProgram := { location := "/w", runner := {} }

/-- A merge is under way in it, and git tells of nothing else than the git directory. -/
def mergeHost (answer : ByteArray) : Host where
  script := [.finished (some 0) .empty .empty, .finished (some 0) answer .empty]
  afterwards := .notStarted .notFound
  files :=
    { directories := [["w"], ["w", ".git"]], plainFiles := [["w", ".git", "MERGE_HEAD"]] }

/-- The relative answer `.git` with a line feed, and the same directory as an absolute path. -/
theorem status_merge :
    (∃ bare, IsBare ".git\n" bare ∧
      (mergeHost .empty).files.Has (if isAbsolute bare then bare else join "/w" bare)
        "MERGE_HEAD") ∧
    (mergeRepository.status (mergeHost ⟨#[47, 119, 47, 46, 103, 105, 116, 10]⟩)).1 =
      .ok (some { merging := true }) := by
  have hreport : (Status.Report.parse "" mergeRepository.settings).result = .ok (some {}) := by
    decide +kernel
  have hnul : ¬[mergeRepository.runner.program, mergeRepository.location].any Host.hasNul := by
    decide
  obtain ⟨after, hanswered, hfiles⟩ : ∃ after, Answered mergeRepository
      (mergeHost ⟨#[46, 103, 105, 116, 10]⟩) "" ".git\n" after ∧
        after.files = (mergeHost .empty).files :=
    exists_answered hnul rfl (by decide +kernel) (by decide +kernel)
  obtain ⟨other, hother, hfiles'⟩ : ∃ after, Answered mergeRepository
      (mergeHost ⟨#[47, 119, 47, 46, 103, 105, 116, 10]⟩) "" "/w/.git\n" after ∧
        after.files = (mergeHost .empty).files :=
    exists_answered hnul rfl (by decide +kernel) (by decide +kernel)
  obtain ⟨⟨bare, shown, hbare, hstatus, hshows⟩, hsame⟩ := status_shows_marks hanswered hreport
  have hresult : (mergeRepository.status (mergeHost ⟨#[46, 103, 105, 116, 10]⟩)).1 =
      .ok (some { merging := true }) := by
    decide +kernel
  have hrespelled : Respelled "/w" ".git\n" "/w/.git\n" := by
    have hjoin : join "/w" ".git\n" = "/w/.git\n" := by decide
    exact hjoin ▸ .below (by decide) (by decide)
  have hmerging : shown.merging := by
    rw [hstatus] at hresult
    cases hresult
    rfl
  refine ⟨⟨bare, hbare, ?_⟩, ?_⟩
  · rw [← hfiles]
    exact hshows.merging_iff.1 hmerging
  · rw [← hresult]
    exact hsame _ _ other hrespelled hother (hfiles'.trans hfiles.symm)

end GitReadout.Repository
