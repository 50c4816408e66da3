import GitReadout.NameStatus.Record
import GitReadout.Proofs.Except
import GitReadout.Proofs.Text.Joined
import Mathlib.Data.List.TakeWhile
import Mathlib.Data.Set.List

/-!
# Reading name-status tokens

The tokens of a record and of what may stand before it, and the walk of the reader over them. A
position is read through the tokens from there on (`tokens.toList.drop index`), so that what is read
does not depend on what stands before.

* `next?_of_drop`, `exists_placed_of_next?`: one step reads exactly a record with blank tokens
  before it and line feeds in front of its code.
* `fault_of_next?`: a fault is at a position where the tokens end or an empty token stands.
* `recordsFrom_of_drop`, `exists_placed_of_recordsFrom`: so does the whole walk, with any blank
  tokens at the end.
* `bareTokens_placed`: what is left when the blank tokens and the line feeds are taken away.
-/

set_option autoImplicit false

namespace GitReadout.NameStatus

/-! ## Written records -/

/-- The tokens of a record: its code, its source if it has one, its path. -/
def Record.tokens (record : Record) : List String :=
  record.code :: (record.oldPath.toList ++ [record.path])

/-- A record that can be written: it has a code, which a line feed does not begin, and one path or
two as the code asks for, and NUL is in none of them. -/
structure Record.IsWritable (record : Record) : Prop where
  code_ne : record.code ≠ ""
  code_nul : '\x00' ∉ record.code.toList
  code_head : record.code.toList.head? ≠ some '\n'
  path_ne : record.path ≠ ""
  path_nul : '\x00' ∉ record.path.toList
  source_ne : record.oldPath ≠ some ""
  source_nul : ∀ source ∈ record.oldPath, '\x00' ∉ source.toList
  hasSource : record.oldPath.isSome = isScored record.code

instance (record : Record) : Decidable record.IsWritable :=
  decidable_of_iff
    ((record.code ≠ "" ∧ '\x00' ∉ record.code.toList ∧ record.code.toList.head? ≠ some '\n') ∧
      (record.path ≠ "" ∧ '\x00' ∉ record.path.toList) ∧
      record.oldPath ≠ some "" ∧ (∀ source ∈ record.oldPath, '\x00' ∉ source.toList) ∧
      record.oldPath.isSome = isScored record.code)
    ⟨fun ⟨⟨a, b, c⟩, ⟨d, e⟩, f, g, h⟩ => ⟨a, b, c, d, e, f, g, h⟩,
      fun ⟨a, b, c, d, e, f, g, h⟩ => ⟨⟨a, b, c⟩, ⟨d, e⟩, f, g, h⟩⟩

def feeds (n : Nat) : List Char :=
  List.replicate n '\n'

/-- A record where it stands in an output: after blank tokens, each of which is some number of line
feeds, and with some number of line feeds in front of its code. -/
structure Placed where
  record : Record
  isWritable : record.IsWritable
  blanks : List Nat
  leading : Nat

def Placed.codeToken (p : Placed) : String :=
  String.ofList (feeds p.leading ++ p.record.code.toList)

def Placed.blankTokens (p : Placed) : List String :=
  p.blanks.map fun n => String.ofList (feeds n)

/-- The tokens of a record and of what stands before it. -/
def Placed.tokens (p : Placed) : List String :=
  p.blankTokens ++ p.codeToken :: (p.record.oldPath.toList ++ [p.record.path])

/-- The tokens without the blank ones at the place of a code and without the line feeds in front of
codes. A code takes one path after it, or two when it is scored. -/
def bareTokens : List String → List String
  | [] => []
  | token :: rest =>
    if codeOf token = "" then bareTokens rest
    else
      let paths := if isScored (codeOf token) then 2 else 1
      codeOf token :: (rest.take paths ++ bareTokens (rest.drop paths))
termination_by tokens => tokens.length
decreasing_by
  all_goals simp only [List.length_drop, List.length_cons]; omega

/-! ## Codes and blank tokens -/

theorem codeOf_feeds_append (n : Nat) {code : String} (h : code.toList.head? ≠ some '\n') :
    codeOf (String.ofList (feeds n ++ code.toList)) = code := by
  have hdrop : (feeds n ++ code.toList).dropWhile (· == '\n') = code.toList := by
    rw [List.dropWhile_append_of_pos fun c hc => by simp [List.eq_of_mem_replicate hc]]
    cases hcode : code.toList with
    | nil => rfl
    | cons c rest => exact List.dropWhile_cons_of_neg (by simpa [hcode] using h)
  rw [codeOf, String.toList_ofList, hdrop, String.ofList_toList]

theorem codeOf_eq_empty_iff {token : String} :
    codeOf token = "" ↔ ∃ n, token = String.ofList (feeds n) := by
  constructor
  · intro h
    refine ⟨token.toList.length, ?_⟩
    have hdrop : token.toList.dropWhile (· == '\n') = [] := by simpa [codeOf] using h
    have hall : ∀ c ∈ token.toList, c = '\n' := by
      simpa [List.dropWhile_eq_nil_iff] using hdrop
    rw [feeds, ← List.eq_replicate_of_mem hall, String.ofList_toList]
  · rintro ⟨n, rfl⟩
    have hhead : "".toList.head? ≠ some '\n' := by simp
    simpa using codeOf_feeds_append n hhead

/-- A token is line feeds and its code, with which no line feed begins. -/
theorem eq_feeds_append_codeOf (token : String) :
    (∃ n, token = String.ofList (feeds n ++ (codeOf token).toList)) ∧
      (codeOf token).toList.head? ≠ some '\n' := by
  have hcode : (codeOf token).toList = token.toList.dropWhile (· == '\n') := by simp [codeOf]
  rw [hcode]
  constructor
  · refine ⟨(token.toList.takeWhile (· == '\n')).length, ?_⟩
    have hall : ∀ c ∈ token.toList.takeWhile (· == '\n'), c = '\n' := fun c hc => by
      simpa using List.mem_takeWhile_imp hc
    rw [feeds, ← List.eq_replicate_of_mem hall, List.takeWhile_append_dropWhile,
      String.ofList_toList]
  · intro h
    have := List.head?_dropWhile_not (· == '\n') token.toList
    rw [h] at this
    simp at this

theorem Placed.codeOf_codeToken (p : Placed) : codeOf p.codeToken = p.record.code :=
  codeOf_feeds_append _ p.isWritable.code_head

theorem Placed.codeOf_blankTokens (p : Placed) : ∀ b ∈ p.blankTokens, codeOf b = "" := by
  intro b hb
  obtain ⟨n, -, rfl⟩ := List.mem_map.1 hb
  exact codeOf_eq_empty_iff.2 ⟨n, rfl⟩

/-! ## One record -/

section
variable {tokens : Array String} {index : Nat}

theorem getElem?_of_drop {token : String} {rest : List String}
    (h : tokens.toList.drop index = token :: rest) :
    tokens[index]? = some token ∧ tokens.toList.drop (index + 1) = rest := by
  constructor
  · rw [← Array.getElem?_toList]
    have := congrArg (·[0]?) h
    simpa [List.getElem?_drop] using this
  · rw [← List.tail_drop, h, List.tail_cons]

theorem findCode_of_drop {blanks rest : List String} {token : String}
    (h : tokens.toList.drop index = blanks ++ token :: rest)
    (hblanks : ∀ b ∈ blanks, codeOf b = "") (htoken : codeOf token ≠ "") :
    findCode tokens index = some (index + blanks.length, codeOf token) := by
  induction blanks generalizing index with
  | nil =>
    obtain ⟨hlt, hget⟩ := Array.getElem?_eq_some_iff.1 (getElem?_of_drop h).1
    rw [findCode, dif_pos hlt, hget, if_neg htoken]
    rfl
  | cons b blanks ih =>
    obtain ⟨hb, hrest⟩ := getElem?_of_drop h
    obtain ⟨hlt, hget⟩ := Array.getElem?_eq_some_iff.1 hb
    rw [findCode, dif_pos hlt, hget, if_pos (hblanks b (by simp)),
      ih hrest fun b hb => hblanks b (List.mem_cons_of_mem _ hb), List.length_cons]
    simp only [Option.some.injEq, Prod.mk.injEq, and_true]
    omega

theorem findCode_of_blank (h : ∀ b ∈ tokens.toList.drop index, codeOf b = "") :
    findCode tokens index = none := by
  fun_induction findCode tokens index with
  | case1 index hlt hblank ih =>
    exact ih fun b hb => h b (List.mem_of_mem_drop (i := 1) (by rwa [List.drop_drop]))
  | case2 index hlt hcode =>
    refine absurd (h tokens[index] ?_) hcode
    rw [List.drop_eq_getElem_cons (by simpa using hlt)]
    simp
  | case3 => rfl

theorem drop_of_findCode {found : Nat} {code : String}
    (h : findCode tokens index = some (found, code)) :
    ∃ blanks token, tokens.toList.drop index = blanks ++ token :: tokens.toList.drop (found + 1) ∧
      (∀ b ∈ blanks, codeOf b = "") ∧ codeOf token = code ∧ code ≠ "" := by
  fun_induction findCode tokens index with
  | case1 index hlt hblank ih =>
    obtain ⟨blanks, token, hdrop, hblanks, htoken⟩ := ih h
    refine ⟨tokens[index] :: blanks, token, ?_, ?_, htoken⟩
    · rw [List.drop_eq_getElem_cons (by simpa using hlt), hdrop]
      simp
    · intro b hb
      rcases List.mem_cons.1 hb with rfl | hb
      · exact hblank
      · exact hblanks b hb
  | case2 index hlt hcode =>
    simp only [Option.some.injEq, Prod.mk.injEq] at h
    obtain ⟨rfl, rfl⟩ := h
    refine ⟨[], tokens[index], ?_, by simp, rfl, hcode⟩
    rw [List.drop_eq_getElem_cons (by simpa using hlt)]
    simp
  | case3 => cases h

theorem blank_of_findCode (h : findCode tokens index = none) :
    ∀ b ∈ tokens.toList.drop index, codeOf b = "" := by
  fun_induction findCode tokens index with
  | case1 index hlt hblank ih =>
    intro b hb
    rw [List.drop_eq_getElem_cons (by simpa using hlt)] at hb
    rcases List.mem_cons.1 hb with rfl | hb
    · simpa using hblank
    · exact ih h b hb
  | case2 => cases h
  | case3 index hge =>
    intro b hb
    rw [List.drop_eq_nil_of_le (by simpa using hge)] at hb
    cases hb

theorem pathAt_eq_ok_iff {what code path : String} :
    pathAt tokens index what code = .ok path ↔ tokens[index]? = some path ∧ path ≠ "" := by
  unfold pathAt
  split
  · simp_all
  · rename_i hget
    simp only [hget, Option.some.injEq, reduceCtorEq, false_iff, not_and]
    exact fun e hne => hne e.symm
  · rename_i read hne hget
    simp only [hget, Except.ok.injEq, Option.some.injEq]
    exact ⟨fun e => ⟨e, fun hpath => hne (e.trans hpath)⟩, fun h => h.1⟩

theorem drop_eq_cons_iff {token : String} :
    tokens.toList.drop index = token :: tokens.toList.drop (index + 1) ↔
      tokens[index]? = some token := by
  constructor
  · exact fun h => (getElem?_of_drop h).1
  · intro h
    obtain ⟨hlt, rfl⟩ := Array.getElem?_eq_some_iff.1 h
    rw [List.drop_eq_getElem_cons (by simpa using hlt), Array.getElem_toList]

theorem readAt_eq_ok_iff {code : String} {record : Record} {after : Nat} :
    readAt tokens index code = .ok (record, after) ↔
      record.code = code ∧ record.oldPath.isSome = isScored code ∧
        record.path ≠ "" ∧ record.oldPath ≠ some "" ∧
        tokens.toList.drop (index + 1) =
          record.oldPath.toList ++ record.path :: tokens.toList.drop after ∧
        after = index + record.tokens.length := by
  obtain ⟨code', source, path⟩ := record
  unfold readAt
  split
  · rename_i hscored
    simp only [bind_eq_ok_iff, pathAt_eq_ok_iff, pure, Except.pure, Except.ok.injEq,
      Prod.mk.injEq, Record.mk.injEq]
    constructor
    · rintro ⟨s, ⟨hs, hsne⟩, p, ⟨hp, hpne⟩, ⟨rfl, rfl, rfl⟩, rfl⟩
      have hdrop := drop_eq_cons_iff.2 hs
      rw [drop_eq_cons_iff.2 hp] at hdrop
      exact ⟨rfl, hscored.symm, hpne, by simpa using hsne, hdrop, rfl⟩
    · rintro ⟨rfl, hsome, hpne, hsne, hdrop, rfl⟩
      obtain ⟨s, rfl⟩ := Option.isSome_iff_exists.1 (hsome.trans hscored)
      obtain ⟨hs, hrest⟩ := getElem?_of_drop hdrop
      exact ⟨s, ⟨hs, by simpa using hsne⟩, path, ⟨(getElem?_of_drop hrest).1, hpne⟩, by simp,
        rfl⟩
  · rename_i hscored
    simp only [bind_eq_ok_iff, pathAt_eq_ok_iff, pure, Except.pure, Except.ok.injEq,
      Prod.mk.injEq, Record.mk.injEq]
    constructor
    · rintro ⟨p, ⟨hp, hpne⟩, ⟨rfl, rfl, rfl⟩, rfl⟩
      exact ⟨rfl, by simpa using hscored, hpne, by simp, drop_eq_cons_iff.2 hp, rfl⟩
    · rintro ⟨rfl, hsome, hpne, hsne, hdrop, rfl⟩
      obtain rfl : source = none := by simpa [hscored] using hsome
      exact ⟨path, ⟨(getElem?_of_drop hdrop).1, hpne⟩, by simp, rfl⟩

theorem next?_of_drop {p : Placed} {rest : List String}
    (h : tokens.toList.drop index = p.tokens ++ rest) :
    next? tokens index = .ok (some (p.record, index + p.tokens.length)) := by
  have hcode := p.codeOf_codeToken
  have hdrop : tokens.toList.drop index =
      p.blankTokens ++ p.codeToken :: (p.record.oldPath.toList ++ p.record.path :: rest) := by
    rw [h, Placed.tokens]
    simp
  have hfind : findCode tokens index = some (index + p.blankTokens.length, p.record.code) := by
    rw [findCode_of_drop hdrop p.codeOf_blankTokens (hcode ▸ p.isWritable.code_ne), hcode]
  have hafter : tokens.toList.drop (index + p.tokens.length) = rest := by
    rw [← List.drop_drop, h, List.drop_left]
  have hpaths : tokens.toList.drop (index + p.blankTokens.length + 1) =
      p.record.oldPath.toList ++ p.record.path :: rest := by
    rw [Nat.add_assoc, ← List.drop_drop, hdrop, ← List.drop_drop, List.drop_left]
    rfl
  have hread : readAt tokens (index + p.blankTokens.length) p.record.code =
      .ok (p.record, index + p.tokens.length) := by
    refine readAt_eq_ok_iff.2 ⟨rfl, p.isWritable.hasSource, p.isWritable.path_ne,
      p.isWritable.source_ne, by rw [hafter, hpaths], ?_⟩
    simp [Placed.tokens, Record.tokens, Nat.add_assoc]
  rw [next?, hfind]
  simp only [hread, Except.map]

theorem exists_placed_of_next? (hnul : ∀ t ∈ tokens.toList, '\x00' ∉ t.toList) {record : Record}
    {after : Nat} (h : next? tokens index = .ok (some (record, after))) :
    ∃ p : Placed, p.record = record ∧
      tokens.toList.drop index = p.tokens ++ tokens.toList.drop after := by
  unfold next? at h
  split at h
  · cases h
  · rename_i found code hfind
    obtain ⟨read, hread, h⟩ := map_eq_ok_iff.1 h
    obtain rfl : read = (record, after) := by simpa using h
    obtain ⟨blanks, token, hdrop, hblanks, rfl, hne⟩ := drop_of_findCode hfind
    obtain ⟨hcode, hsource, hpathne, hsourcene, hpaths, rfl⟩ := readAt_eq_ok_iff.1 hread
    have hread : tokens.toList.drop index =
        (blanks ++ token :: (record.oldPath.toList ++ [record.path])) ++
          tokens.toList.drop (found + record.tokens.length) := by
      rw [hdrop, hpaths]
      simp
    -- NUL ends every token, so no part of the record can hold one
    have hmem : ∀ t ∈ blanks ++ token :: (record.oldPath.toList ++ [record.path]),
        '\x00' ∉ t.toList := by
      intro t ht
      refine hnul t (List.mem_of_mem_drop (i := index) ?_)
      rw [hread]
      exact List.mem_append_left _ ht
    obtain ⟨⟨n, htoken⟩, hhead⟩ := eq_feeds_append_codeOf token
    have hwritable : record.IsWritable := {
      code_ne := hcode ▸ hne
      code_nul := fun hc => by
        refine hmem token (by simp) ?_
        rw [htoken, String.toList_ofList]
        exact List.mem_append_right _ (hcode ▸ hc)
      code_head := hcode ▸ hhead
      path_ne := hpathne
      path_nul := hmem _ (by simp)
      source_ne := hsourcene
      source_nul := fun source hs => hmem source (by simp [Option.mem_def.1 hs])
      hasSource := hcode ▸ hsource }
    obtain ⟨counts, hcounts⟩ : ∃ counts : List Nat,
        counts.map (fun n => String.ofList (feeds n)) = blanks := by
      rw [← Set.mem_range, Set.range_list_map]
      intro b hb
      obtain ⟨n, rfl⟩ := codeOf_eq_empty_iff.1 (hblanks b hb)
      exact ⟨n, rfl⟩
    refine ⟨⟨record, hwritable, counts, n⟩, rfl, ?_⟩
    rw [hread, ← hcounts, htoken, ← hcode]
    simp [Placed.tokens, Placed.blankTokens, Placed.codeToken]

/-! ## Faults -/

theorem fault_of_pathAt {what code : String} {e : Failure}
    (h : pathAt tokens index what code = .error e) (hle : index ≤ tokens.size) :
    ∃ reason, e = .badNameStatus index reason ∧
      (index = tokens.size ∨ tokens[index]? = some "") := by
  unfold pathAt at h
  split at h
  · rename_i hnone
    cases h
    exact ⟨_, rfl, .inl (Nat.le_antisymm hle (Array.getElem?_eq_none_iff.1 hnone))⟩
  · rename_i hempty
    cases h
    exact ⟨_, rfl, .inr hempty⟩
  · cases h

/-- A fault of a record is at one of the two positions behind its code. -/
theorem fault_of_readAt {code : String} {e : Failure} (h : readAt tokens index code = .error e)
    (hlt : index < tokens.size) :
    ∃ i reason, e = .badNameStatus i reason ∧ index < i ∧ i ≤ tokens.size ∧
      (i = tokens.size ∨ tokens[i]? = some "") := by
  unfold readAt at h
  split at h
  · rcases bind_eq_error_iff.1 h with h | ⟨source, hsource, h⟩
    · obtain ⟨reason, he, hmissing⟩ := fault_of_pathAt h hlt
      exact ⟨index + 1, reason, he, by omega, hlt, hmissing⟩
    · have hlt : index + 1 < tokens.size := lt_size_of_pathAt hsource
      rcases bind_eq_error_iff.1 h with h | ⟨_, -, h⟩
      · obtain ⟨reason, he, hmissing⟩ := fault_of_pathAt h hlt
        exact ⟨index + 2, reason, he, by omega, hlt, hmissing⟩
      · cases h
  · rcases bind_eq_error_iff.1 h with h | ⟨_, -, h⟩
    · obtain ⟨reason, he, hmissing⟩ := fault_of_pathAt h hlt
      exact ⟨index + 1, reason, he, by omega, hlt, hmissing⟩
    · cases h

theorem fault_of_next? {e : Failure} (h : next? tokens index = .error e) :
    ∃ i reason, e = .badNameStatus i reason ∧ index < i ∧ i ≤ tokens.size ∧
      (i = tokens.size ∨ tokens[i]? = some "") := by
  unfold next? at h
  split at h
  · cases h
  · rename_i place code hfind
    obtain ⟨hle, hlt⟩ := le_of_findCode hfind
    obtain ⟨i, reason, he, hi, hfault⟩ := fault_of_readAt (map_eq_error_iff.1 h) hlt
    exact ⟨i, reason, he, by omega, hfault⟩

/-! ## All records -/

theorem recordsFrom_of_drop {placed : List Placed} {rest : List String}
    (h : tokens.toList.drop index = placed.flatMap Placed.tokens ++ rest)
    (hrest : ∀ b ∈ rest, codeOf b = "") (found : Array Record) :
    recordsFrom tokens index found = (found.toList ++ placed.map Placed.record, none) := by
  induction placed generalizing index found with
  | nil =>
    have hend : next? tokens index = .ok none := by
      have hblank : findCode tokens index = none :=
        findCode_of_blank fun b hb => hrest b (by rw [h] at hb; simpa using hb)
      rw [next?, hblank]
    rw [recordsFrom_of_end hend]
    simp
  | cons p placed ih =>
    rw [List.flatMap_cons, List.append_assoc] at h
    -- one step leads from the tokens of this record to those of the next
    have hafter : tokens.toList.drop (index + p.tokens.length) =
        placed.flatMap Placed.tokens ++ rest := by
      rw [← List.drop_drop, h, List.drop_left]
    rw [recordsFrom_of_record (next?_of_drop h), ih hafter]
    simp

theorem exists_placed_of_recordsFrom (hnul : ∀ t ∈ tokens.toList, '\x00' ∉ t.toList)
    {found : Array Record} {all : List Record}
    (h : recordsFrom tokens index found = (all, none)) :
    ∃ (placed : List Placed) (rest : List String),
      tokens.toList.drop index = placed.flatMap Placed.tokens ++ rest ∧
      (∀ b ∈ rest, codeOf b = "") ∧ all = found.toList ++ placed.map Placed.record := by
  fun_induction recordsFrom tokens index found with
  | case1 => simp at h
  | case2 index found hend =>
    obtain rfl : found.toList = all := by simpa using h
    refine ⟨[], tokens.toList.drop index, by simp, blank_of_findCode ?_, by simp⟩
    unfold next? at hend
    split at hend
    · assumption
    · obtain ⟨_, -, h⟩ := map_eq_ok_iff.1 hend
      cases h
  | case3 index found record after hnext ih =>
    obtain ⟨placed, rest, hdrop, hrest, rfl⟩ := ih h
    obtain ⟨p, rfl, hp⟩ := exists_placed_of_next? hnul hnext
    refine ⟨p :: placed, rest, ?_, hrest, by simp⟩
    rw [hp, hdrop, List.flatMap_cons, List.append_assoc]

end

/-! ## Bare tokens -/

theorem bareTokens_blank_append {blanks : List String} (h : ∀ b ∈ blanks, codeOf b = "")
    (rest : List String) : bareTokens (blanks ++ rest) = bareTokens rest := by
  induction blanks with
  | nil => rfl
  | cons b blanks ih =>
    rw [List.cons_append, bareTokens, if_pos (h b (by simp))]
    exact ih fun b hb => h b (List.mem_cons_of_mem _ hb)

theorem bareTokens_placed_append (p : Placed) (rest : List String) :
    bareTokens (p.tokens ++ rest) = p.record.tokens ++ bareTokens rest := by
  have hcode := p.codeOf_codeToken
  -- as many paths are taken after the code as the record has
  have hpaths : (if isScored p.record.code then 2 else 1) =
      (p.record.oldPath.toList ++ [p.record.path]).length := by
    rw [← p.isWritable.hasSource]
    cases p.record.oldPath <;> rfl
  rw [Placed.tokens, List.append_assoc, bareTokens_blank_append p.codeOf_blankTokens,
    List.cons_append, bareTokens, hcode, if_neg p.isWritable.code_ne]
  simp only [hpaths, List.take_left, List.drop_left]
  rfl

theorem bareTokens_placed (placed : List Placed) {rest : List String}
    (hrest : ∀ b ∈ rest, codeOf b = "") :
    bareTokens (placed.flatMap Placed.tokens ++ rest) =
      (placed.map Placed.record).flatMap Record.tokens := by
  induction placed with
  | nil =>
    have := bareTokens_blank_append hrest []
    rwa [List.append_nil, bareTokens] at this
  | cons p placed ih =>
    rw [List.flatMap_cons, List.append_assoc, bareTokens_placed_append, ih]
    rfl

end GitReadout.NameStatus
