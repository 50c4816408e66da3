import GitReadout.Json.FileStatus
import GitReadout.Json.Name
import GitReadout.Status.Report
import GitReadout.Text.Numeral

/-!
# Status reports as JSON

A report is an object with a member for each of its fields. A working tree is the array of its
changes; when it is read the changes are inserted one by one, so that each path is there once.
-/

set_option autoImplicit false

namespace GitReadout.Status

/-! ## States -/

namespace SideState

def name : SideState → String
  | unmodified => "Unmodified"
  | modified => "Modified"
  | typeChanged => "TypeChanged"
  | added => "Added"
  | deleted => "Deleted"
  | renamed => "Renamed"
  | copied => "Copied"
  | updatedButUnmerged => "UpdatedButUnmerged"
  | untracked => "Untracked"
  | ignored => "Ignored"

def ofName? : String → Option SideState
  | "Unmodified" => some unmodified
  | "Modified" => some modified
  | "TypeChanged" => some typeChanged
  | "Added" => some added
  | "Deleted" => some deleted
  | "Renamed" => some renamed
  | "Copied" => some copied
  | "UpdatedButUnmerged" => some updatedButUnmerged
  | "Untracked" => some untracked
  | "Ignored" => some ignored
  | _ => none

def toJson (state : SideState) : Json := .string state.name

def ofJson? (value : Json) : Option SideState := do
  ofName? (← value.name?)

end SideState

/-! ## Changes -/

def Submodule.toJson (submodule : Submodule) : Json :=
  .object [("commit_changed", .bool submodule.newCommit),
    ("modified_changes", .bool submodule.modifiedFiles),
    ("untracked_changes", .bool submodule.untrackedFiles)]

def Submodule.ofJson? (value : Json) : Option Submodule :=
  match value.record? ["commit_changed", "modified_changes", "untracked_changes"] with
  | some [commit, changes, files] => do
    let newCommit ← Json.required Json.bool? commit
    let modifiedFiles ← Json.required Json.bool? changes
    let untrackedFiles ← Json.required Json.bool? files
    return { newCommit, modifiedFiles, untrackedFiles }
  | _ => none

def FileChange.toJson (change : FileChange) : Json :=
  .object [("path", .string change.path), ("status", change.status.toJson),
    ("index", change.index.toJson), ("worktree", change.worktree.toJson),
    ("submodule", Json.ofOption Submodule.toJson change.submodule)]

def FileChange.ofJson? (value : Json) : Option FileChange :=
  match value.record? ["path", "status", "index", "worktree", "submodule"] with
  | some [path, status, index, worktree, submodule] => do
    let path ← Json.required Json.string? path
    let status ← Json.required FileStatus.ofJson? status
    let index ← Json.required SideState.ofJson? index
    let worktree ← Json.required SideState.ofJson? worktree
    let submodule ← Json.optional Submodule.ofJson? submodule
    return { path, status, index, worktree, submodule }
  | _ => none

def WorkingTree.toJson (tree : WorkingTree) : Json :=
  Json.ofList FileChange.toJson tree.toList

def WorkingTree.ofJson? (value : Json) : Option WorkingTree :=
  (value.list? FileChange.ofJson?).map WorkingTree.ofList

/-! ## Reports -/

def Divergence.toJson (counts : Divergence) : Json :=
  .object [("ahead", .integer counts.ahead), ("behind", .integer counts.behind)]

def Divergence.ofJson? (value : Json) : Option Divergence :=
  match value.record? ["ahead", "behind"] with
  | some [ahead, behind] => do
    let ahead ← Json.required (Json.natural? Text.maxUnsigned32) ahead
    let behind ← Json.required (Json.natural? Text.maxUnsigned32) behind
    return { ahead, behind }
  | _ => none

def Report.toJson (report : Report) : Json :=
  .object [("current_branch", Json.ofOption RefName.toJson report.branch),
    ("current_tip", Json.ofOption ObjectName.toJson report.tip),
    ("current_upstream_branch", Json.ofOption Json.string report.tracked),
    ("branch_ahead_behind", Json.ofOption Divergence.toJson report.divergence),
    ("stash_count", .integer report.stashes),
    ("working_directory", report.workingTree.toJson),
    ("merging", .bool report.merging), ("rebasing", .bool report.rebasing),
    ("cherry_picking", .bool report.cherryPicking)]

def Report.ofJson? (value : Json) : Option Report :=
  match value.record? ["current_branch", "current_tip", "current_upstream_branch",
    "branch_ahead_behind", "stash_count", "working_directory", "merging", "rebasing",
    "cherry_picking"] with
  | some [branch, tip, tracked, divergence, stashes, workingTree, merging, rebasing,
      cherryPicking] => do
    let branch ← Json.optional RefName.ofJson? branch
    let tip ← Json.optional ObjectName.ofJson? tip
    let tracked ← Json.optional Json.string? tracked
    let divergence ← Json.optional Divergence.ofJson? divergence
    let stashes ← Json.required (Json.natural? Text.maxUnsigned64) stashes
    let workingTree ← Json.required WorkingTree.ofJson? workingTree
    let merging ← Json.required Json.bool? merging
    let rebasing ← Json.required Json.bool? rebasing
    let cherryPicking ← Json.required Json.bool? cherryPicking
    return { branch, tip, tracked, divergence, stashes, workingTree, merging, rebasing,
             cherryPicking }
  | _ => none

end GitReadout.Status
