import GitReadout.Proofs.Text.Pieces
import GitReadout.Run.FileTree

/-!
# Where paths lead

What is found at a path is described by the way to it: from the root or the current directory a walk
goes through directories only, component by component, and the last component is a name that stands
in the directory where the walk ends.

* `FileTree.walks_cons_iff`, `FileTree.walks_append_iff`: walks by their first component, and walks
  that go on where others end.
* `FileTree.follow_concat_eq_found_iff`: following components finds something if and only if a walk
  along all but the last of them ends in a directory that holds the last one.
* `toList_join`, `isAbsolute_join_iff`: the path of something below another path.
* `FileTree.isFound_lookup_join`: what is found below a path.
-/

set_option autoImplicit false

namespace GitReadout.Run

/-! ## Paths below paths -/

/-- A name that can stand in a directory. -/
structure IsName (name : String) : Prop where
  ne_empty : name ≠ ""
  ne_here : name ≠ "."
  ne_up : name ≠ ".."
  slash_not_mem : '/' ∉ name.toList

/-- A path that can be followed at all. -/
structure IsPath (path : String) : Prop where
  ne_empty : path ≠ ""
  size_lt : path.utf8ByteSize < FileTree.maxPathBytes
  nul_not_mem : '\x00' ∉ path.toList

/-- The components of a path. -/
def components (path : List Char) : List String :=
  (path.splitOn '/').map String.ofList

/-- A path without the slash at its end, behind which others below it go on. -/
def stem (path : String) : List Char :=
  Text.dropTerminator '/' path.toList

section
variable {base path : String}

theorem isAbsolute_iff : isAbsolute path = true ↔ path.toList.head? = some '/' := by
  simp [isAbsolute]

theorem IsName.not_isAbsolute {name : String} (h : IsName name) : ¬isAbsolute name = true := by
  rw [isAbsolute_iff]
  exact fun hhead => h.slash_not_mem (List.mem_of_head? hhead)

theorem components_append_slash (front rest : List Char) :
    components (front ++ '/' :: rest) = components front ++ components rest := by
  rw [components, Text.splitOn_append_cons, List.map_append]
  rfl

theorem components_name {name : String} (h : IsName name) : components name.toList = [name] := by
  rw [components, List.splitOn_eq_singleton h.slash_not_mem]
  simp

theorem toList_eq_stem (path : String) :
    path.toList = stem path ++ ['/'] ∨
      path.toList = stem path ∧ path.toList.getLast? ≠ some '/' := by
  unfold stem Text.dropTerminator
  split
  · rename_i h
    obtain ⟨front, hpath⟩ := List.getLast?_eq_some_iff.1 h
    exact .inl (by simp [hpath])
  · rename_i h
    exact .inr ⟨rfl, h⟩

theorem toList_join (hbase : base ≠ "") (hpath : ¬isAbsolute path = true) :
    (join base path).toList = stem base ++ '/' :: path.toList := by
  rw [join, if_neg hpath]
  rcases toList_eq_stem base with hstem | ⟨hstem, hlast⟩
  · have hslash : ¬base.toList.getLast?.any (· ≠ '/') = true := by simp [hstem]
    rw [if_neg hslash, String.toList_append, hstem]
    simp
  · obtain ⟨c, hc⟩ : ∃ c, base.toList.getLast? = some c := by
      rw [← Option.isSome_iff_exists, List.getLast?_isSome]
      simpa using hbase
    have hslash : base.toList.getLast?.any (· ≠ '/') = true := by
      rw [hc] at hlast ⊢
      simpa using hlast
    rw [if_pos hslash, String.toList_append, String.toList_append, ← hstem]
    simp

theorem mem_join_iff {c : Char} (hc : c ≠ '/') (hbase : base ≠ "")
    (hpath : ¬isAbsolute path = true) :
    c ∈ (join base path).toList ↔ c ∈ base.toList ∨ c ∈ path.toList := by
  rw [toList_join hbase hpath]
  rcases toList_eq_stem base with hstem | ⟨hstem, -⟩
  · rw [hstem]
    simp [hc]
  · rw [← hstem]
    simp [hc]

theorem utf8ByteSize_join_le (base path : String) :
    (join base path).utf8ByteSize ≤ (base ++ "/" ++ path).utf8ByteSize := by
  unfold join
  split
  · simp only [String.utf8ByteSize_append]
    omega
  · split <;> simp only [String.utf8ByteSize_append] <;> omega

theorem isPath_join_iff (hbase : base ≠ "") (hpath : ¬isAbsolute path = true)
    (hsize : (base ++ "/" ++ path).utf8ByteSize < FileTree.maxPathBytes) :
    IsPath (join base path) ↔ '\x00' ∉ base.toList ∧ '\x00' ∉ path.toList := by
  rw [← not_or, ← mem_join_iff (by decide) hbase hpath]
  refine ⟨IsPath.nul_not_mem, fun hnul => ⟨?_, ?_, hnul⟩⟩
  · intro hempty
    have hjoin := toList_join hbase hpath
    rw [hempty] at hjoin
    simp at hjoin
  · exact Nat.lt_of_le_of_lt (utf8ByteSize_join_le base path) hsize

theorem isAbsolute_join_iff (hbase : base ≠ "") (hpath : ¬isAbsolute path = true) :
    isAbsolute (join base path) = true ↔ isAbsolute base = true := by
  rw [isAbsolute_iff, isAbsolute_iff, toList_join hbase hpath]
  rcases toList_eq_stem base with hstem | ⟨hstem, -⟩
  · rw [hstem]
    simp [List.head?_append]
  · obtain ⟨c, rest, hrest⟩ := List.exists_cons_of_ne_nil (l := base.toList) (by simpa using hbase)
    rw [← hstem, hrest]
    simp

end

namespace FileTree

/-! ## Walks -/

/-- The directory from which a path is followed. -/
def start (tree : FileTree) (path : String) : List String :=
  if isAbsolute path then [] else tree.current

/-- A walk along components through directories, from the first directory to the last. -/
inductive Walks (tree : FileTree) : List String → List String → List String → Prop
  /-- There is no component left. -/
  | done {directory : List String} : Walks tree directory [] directory
  /-- An empty component, as a second slash makes it, and `.` lead nowhere else. -/
  | stay {directory rest last : List String} {component : String} :
    component = "" ∨ component = "." → Walks tree directory rest last →
    Walks tree directory (component :: rest) last
  /-- The component `..` leads to the directory above, and from the root to the root. -/
  | up {directory rest last : List String} {component : String} :
    component = ".." → Walks tree directory.dropLast rest last →
    Walks tree directory (component :: rest) last
  /-- Any other leads to the directory of that name. -/
  | down {directory rest last : List String} {component : String} :
    ¬(component = "" ∨ component = ".") → component ≠ ".." →
    directory ++ [component] ∈ tree.directories → Walks tree (directory ++ [component]) rest last →
    Walks tree directory (component :: rest) last

/-- A directory or a plain file of the name stands in the directory. -/
def Holds (tree : FileTree) (directory : List String) (name : String) : Prop :=
  directory ++ [name] ∈ tree.directories ∨ directory ++ [name] ∈ tree.plainFiles

/-- Something of the name exists below a path: the path leads to a directory that holds it. -/
def Has (tree : FileTree) (path name : String) : Prop :=
  IsPath (join path name) ∧
    ∃ last, tree.Walks (tree.start path) (components path.toList) last ∧ tree.Holds last name

variable {tree : FileTree} {directory last rest : List String} {component : String}

theorem walks_nil_iff : tree.Walks directory [] last ↔ directory = last := by
  constructor
  · intro h
    cases h
    rfl
  · rintro rfl
    exact .done

theorem walks_cons_iff :
    tree.Walks directory (component :: rest) last ↔
      if component = "" ∨ component = "." then tree.Walks directory rest last
      else if component = ".." then tree.Walks directory.dropLast rest last
      else directory ++ [component] ∈ tree.directories ∧
        tree.Walks (directory ++ [component]) rest last := by
  constructor
  · intro h
    cases h with
    | stay hstay h => rwa [if_pos hstay]
    | up hup h =>
      subst hup
      exact h
    | down hname hup hmem h =>
      rw [if_neg hname, if_neg hup]
      exact ⟨hmem, h⟩
  · intro h
    split at h
    · rename_i hstay
      exact .stay hstay h
    · rename_i hname
      split at h
      · rename_i hup
        exact .up hup h
      · rename_i hup
        exact .down hname hup h.1 h.2

theorem walks_append_iff {front : List String} :
    tree.Walks directory (front ++ rest) last ↔
      ∃ middle, tree.Walks directory front middle ∧ tree.Walks middle rest last := by
  induction front generalizing directory with
  | nil => simp only [List.nil_append, walks_nil_iff, exists_eq_left']
  | cons component front ih =>
    simp only [List.cons_append, walks_cons_iff, ih]
    split
    · rfl
    · split
      · rfl
      · simp only [and_assoc, exists_and_left]

/-- An empty component may be left out. -/
theorem walks_empty_cons_iff :
    tree.Walks directory ("" :: rest) last ↔ tree.Walks directory rest last := by
  rw [walks_cons_iff, if_pos (.inl rfl)]

/-! ## Following components -/

theorem follow_singleton_eq_found_iff {name : String} (hname : IsName name) :
    tree.follow directory [name] = .found ↔ tree.Holds directory name := by
  have hstay : ¬(name = "" ∨ name = ".") := not_or.2 ⟨hname.ne_empty, hname.ne_here⟩
  rw [follow, if_neg hstay, if_neg hname.ne_up]
  by_cases hdirectory : directory ++ [name] ∈ tree.directories <;>
    by_cases hplain : directory ++ [name] ∈ tree.plainFiles <;>
      simp [Holds, follow, hdirectory, hplain]

/-- A plain file on the way is refused, since the name is still to come. -/
theorem follow_concat_eq_found_iff {name : String} (hname : IsName name) (front : List String) :
    tree.follow directory (front ++ [name]) = .found ↔
      ∃ last, tree.Walks directory front last ∧ tree.Holds last name := by
  induction front generalizing directory with
  | nil => simp only [List.nil_append, follow_singleton_eq_found_iff hname, walks_nil_iff,
      exists_eq_left']
  | cons component front ih =>
    simp only [List.cons_append, follow, walks_cons_iff]
    split
    · exact ih
    · split
      · exact ih
      · by_cases hmem : directory ++ [component] ∈ tree.directories
        · simp only [List.contains_iff_mem, hmem, if_true, true_and, ih]
        · by_cases hplain : directory ++ [component] ∈ tree.plainFiles <;> simp [hmem, hplain]

/-! ## Looking up -/

theorem isFound_iff {answer : Lookup} : answer.isFound = true ↔ answer = .found := by
  cases answer <;> simp [Lookup.isFound]

theorem isFound_lookup_iff {path : String} :
    (tree.lookup path).isFound = true ↔
      IsPath path ∧ tree.follow (tree.start path) (components path.toList) = .found := by
  rw [isFound_iff, lookup]
  by_cases hempty : path = ""
  · rw [if_pos hempty]
    exact ⟨nofun, fun h => absurd hempty h.1.ne_empty⟩
  · rw [if_neg hempty]
    by_cases hbad : maxPathBytes ≤ path.utf8ByteSize ∨ path.toList.contains '\x00'
    · rw [if_pos hbad]
      refine ⟨nofun, fun h => ?_⟩
      rcases hbad with hsize | hnul
      · exact absurd h.1.size_lt (Nat.not_lt.2 hsize)
      · exact absurd (by simpa using hnul) h.1.nul_not_mem
    · rw [if_neg hbad]
      simp only [not_or, Nat.not_le, List.contains_iff_mem] at hbad
      exact ⟨fun h => ⟨⟨hempty, hbad.1, hbad.2⟩, h⟩, fun h => h.2⟩

/-- The slash at the end of a path makes no difference to the walk. -/
theorem walks_components_iff {path : String} :
    tree.Walks directory (components path.toList) last ↔
      tree.Walks directory (components (stem path)) last := by
  rcases toList_eq_stem path with hstem | ⟨hstem, -⟩
  · have hcomponents : components path.toList = components (stem path) ++ [""] := by
      rw [hstem, components_append_slash]
      rfl
    simp only [hcomponents, walks_append_iff, walks_empty_cons_iff, walks_nil_iff, exists_eq_right]
  · rw [hstem]

/-- Nor does a second slash. -/
theorem walks_components_slash_iff (front rest : List Char) :
    tree.Walks directory (components (front ++ '/' :: '/' :: rest)) last ↔
      tree.Walks directory (components (front ++ '/' :: rest)) last := by
  have hslash : components ('/' :: rest) = "" :: components rest := components_append_slash [] rest
  simp only [components_append_slash, hslash, walks_append_iff, walks_empty_cons_iff]

theorem isFound_lookup_join {name : String} (hname : IsName name) (path : String) :
    (tree.lookup (join path name)).isFound = true ↔ tree.Has path name := by
  rw [isFound_lookup_iff, Has]
  refine and_congr_right fun _ => ?_
  by_cases hempty : path = ""
  · subst hempty
    have hjoin : join "" name = name := by
      rw [join, if_neg hname.not_isAbsolute]
      simp
    have hstart : tree.start name = tree.start "" := by
      rw [start, if_neg hname.not_isAbsolute]
      rfl
    rw [hjoin, hstart, components_name hname, follow_singleton_eq_found_iff hname]
    simp [components, walks_empty_cons_iff, walks_nil_iff]
  · have hcomponents : components (join path name).toList = components (stem path) ++ [name] := by
      rw [toList_join hempty hname.not_isAbsolute, components_append_slash, components_name hname]
    have hstart : tree.start (join path name) = tree.start path := by
      simp only [start, isAbsolute_join_iff hempty hname.not_isAbsolute]
    rw [hcomponents, hstart, follow_concat_eq_found_iff hname]
    simp only [walks_components_iff]

end FileTree

end GitReadout.Run
