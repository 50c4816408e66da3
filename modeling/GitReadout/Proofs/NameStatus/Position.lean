import GitReadout.Proofs.NameStatus.Tolerance

/-!
# Positions of the cursor

Where a step of the cursor comes to, said by the tokens at positions and for every array of tokens
and every position from which the step is taken, also one behind the end.

* `Record.StandsIn`: where a record stands in the tokens between two positions.
* `findCode_eq_some_iff`, `findCode_eq_none_iff`, `readAt_eq_ok_iff_getElem?`: the two parts of a
  step.
* `Walks.length_le`: every record takes two tokens at least, so a walk has as many steps as half of
  the tokens allow.
* `next?_outcome`: the three outcomes of a step, and the walk.
-/

set_option autoImplicit false

namespace GitReadout.NameStatus

/-- A token in which no code stands: it is empty or consists of line feeds. -/
def IsBlank (token : String) : Prop :=
  ∀ c ∈ token.toList, c = '\n'

/-- Where a record stands between two positions: its path at the end, its source in front of the
path if its code is scored, and its code in front of those, behind line feeds. Up to the code there
are only blank tokens. -/
structure Record.StandsIn (record : Record) (tokens : Array String) (index after : Nat) :
    Prop where
  lt_after : index < after
  after_le : after ≤ tokens.size
  path : tokens[after - 1]? = some record.path
  path_ne : record.path ≠ ""
  hasSource : record.oldPath.isSome ↔ ∃ letter score, record.code.toList = letter :: score ∧
    letter ∈ ['R', 'C'] ∧ ∀ digit ∈ score, Text.isDecimalDigit digit
  source : ∀ source ∈ record.oldPath, tokens[after - 2]? = some source ∧ source ≠ ""
  code : ∃ place leading, place + record.tokens.length = after ∧ index ≤ place ∧
    tokens[place]? = some (String.ofList (feeds leading ++ record.code.toList)) ∧
    record.code ≠ "" ∧ record.code.toList.head? ≠ some '\n' ∧
    ∀ i, index ≤ i → i < place → ∃ token, tokens[i]? = some token ∧ IsBlank token

section
variable {tokens : Array String} {index : Nat}

/-! ## The code -/

theorem codeOf_eq_empty_iff_isBlank {token : String} : codeOf token = "" ↔ IsBlank token := by
  simp [codeOf, IsBlank, List.dropWhile_eq_nil_iff]

/-- What the code of a token is: what comes behind its line feeds. -/
theorem codeOf_eq_iff {token code : String} :
    codeOf token = code ↔ (∃ leading, token = String.ofList (feeds leading ++ code.toList)) ∧
      code.toList.head? ≠ some '\n' := by
  constructor
  · rintro rfl
    exact eq_feeds_append_codeOf token
  · rintro ⟨⟨leading, rfl⟩, hhead⟩
    exact codeOf_feeds_append leading hhead

theorem findCode_eq_none_iff : findCode tokens index = none ↔
    ∀ i token, index ≤ i → tokens[i]? = some token → IsBlank token := by
  fun_induction findCode tokens index with
  | case1 index hlt hblank ih =>
    rw [ih]
    refine ⟨fun h i token hi htoken => ?_, fun h i token hi => h i token (by omega)⟩
    rcases Nat.eq_or_lt_of_le hi with rfl | hi
    · rw [Array.getElem?_eq_getElem hlt, Option.some.injEq] at htoken
      exact codeOf_eq_empty_iff_isBlank.1 (htoken ▸ hblank)
    · exact h i token hi htoken
  | case2 index hlt hcode =>
    refine iff_of_false (by simp) fun h => hcode ?_
    exact codeOf_eq_empty_iff_isBlank.2 (h index _ (Nat.le_refl _) (Array.getElem?_eq_getElem hlt))
  | case3 index hge =>
    refine iff_of_true rfl fun i token hi htoken => ?_
    obtain ⟨hlt, -⟩ := Array.getElem?_eq_some_iff.1 htoken
    omega

theorem findCode_eq_some_iff {place : Nat} {code : String} :
    findCode tokens index = some (place, code) ↔ index ≤ place ∧
      (∃ token, tokens[place]? = some token ∧ codeOf token = code) ∧ code ≠ "" ∧
      ∀ i, index ≤ i → i < place → ∃ token, tokens[i]? = some token ∧ IsBlank token := by
  fun_induction findCode tokens index with
  | case1 index hlt hblank ih =>
    rw [ih]
    have hget := Array.getElem?_eq_getElem hlt
    constructor
    · rintro ⟨hle, hplace, hne, hbefore⟩
      refine ⟨by omega, hplace, hne, fun i hi hlt => ?_⟩
      rcases Nat.eq_or_lt_of_le hi with rfl | hi
      · exact ⟨_, hget, codeOf_eq_empty_iff_isBlank.1 hblank⟩
      · exact hbefore i hi hlt
    · rintro ⟨hle, ⟨token, htoken, hcode⟩, hne, hbefore⟩
      -- the code is not at `index`, where there is a blank token
      have hindex : index ≠ place := by
        rintro rfl
        cases hget.symm.trans htoken
        exact hne (hcode.symm.trans hblank)
      exact ⟨by omega, ⟨token, htoken, hcode⟩, hne, fun i hi => hbefore i (by omega)⟩
  | case2 index hlt hcode =>
    have hget := Array.getElem?_eq_getElem hlt
    rw [Option.some.injEq, Prod.mk.injEq]
    constructor
    · rintro ⟨rfl, rfl⟩
      exact ⟨Nat.le_refl _, ⟨_, hget, rfl⟩, hcode, fun i hi hlt => absurd hlt (by omega)⟩
    · rintro ⟨hle, ⟨token, htoken, rfl⟩, -, hbefore⟩
      rcases Nat.eq_or_lt_of_le hle with rfl | hlt
      · cases hget.symm.trans htoken
        exact ⟨rfl, rfl⟩
      · obtain ⟨token, htoken, hblank⟩ := hbefore index (Nat.le_refl _) hlt
        cases hget.symm.trans htoken
        exact absurd (codeOf_eq_empty_iff_isBlank.2 hblank) hcode
  | case3 index hge =>
    refine iff_of_false (by simp) ?_
    rintro ⟨hle, ⟨token, htoken, -⟩, -⟩
    obtain ⟨hlt, -⟩ := Array.getElem?_eq_some_iff.1 htoken
    omega

/-! ## The paths -/

/-- The paths of a record, by their positions. -/
theorem drop_eq_paths_iff {record : Record} :
    tokens.toList.drop (index + 1) = record.oldPath.toList ++
        record.path :: tokens.toList.drop (index + record.tokens.length) ↔
      (∀ source ∈ record.oldPath, tokens[index + 1]? = some source) ∧
        tokens[index + record.tokens.length - 1]? = some record.path := by
  obtain ⟨code, source, path⟩ := record
  cases source with
  | none =>
    have hlength : (⟨code, none, path⟩ : Record).tokens.length = 2 := rfl
    have hpath : tokens.toList.drop (index + 1) = path :: tokens.toList.drop (index + 2) ↔
        tokens[index + 1]? = some path := drop_eq_cons_iff
    simpa [hlength] using hpath
  | some source =>
    have hlength : (⟨code, some source, path⟩ : Record).tokens.length = 3 := rfl
    simp only [hlength, Option.toList_some, List.singleton_append, Option.mem_some_iff, forall_eq']
    constructor
    · intro hdrop
      obtain ⟨hsource, hrest⟩ := getElem?_of_drop hdrop
      exact ⟨hsource, (getElem?_of_drop hrest).1⟩
    · rintro ⟨hsource, hpath⟩
      have hrest : tokens.toList.drop (index + 2) = path :: tokens.toList.drop (index + 3) :=
        drop_eq_cons_iff.2 hpath
      rw [← hrest]
      exact drop_eq_cons_iff.2 hsource

theorem readAt_eq_ok_iff_getElem? {code : String} {record : Record} {after : Nat} :
    readAt tokens index code = .ok (record, after) ↔
      record.code = code ∧ record.oldPath.isSome = isScored code ∧
        index + record.tokens.length = after ∧ tokens[after - 1]? = some record.path ∧
        record.path ≠ "" ∧ ∀ source ∈ record.oldPath, tokens[after - 2]? = some source ∧
          source ≠ "" := by
  have hplace (source : String) (h : source ∈ record.oldPath) :
      index + record.tokens.length - 2 = index + 1 := by
    simp [Record.tokens, Option.mem_def.1 h]
  rw [readAt_eq_ok_iff]
  constructor
  · rintro ⟨hcode, hscored, hpath, hsource, hdrop, rfl⟩
    obtain ⟨hsources, hlast⟩ := drop_eq_paths_iff.1 hdrop
    refine ⟨hcode, hscored, rfl, hlast, hpath, fun source h => ⟨?_, ?_⟩⟩
    · rw [hplace source h, hsources source h]
    · rintro rfl
      exact hsource h
  · rintro ⟨hcode, hscored, rfl, hlast, hpath, hsources⟩
    refine ⟨hcode, hscored, hpath, fun h => (hsources "" h).2 rfl, ?_, rfl⟩
    refine drop_eq_paths_iff.2 ⟨fun source h => ?_, hlast⟩
    rw [← hplace source h]
    exact (hsources source h).1

/-! ## Steps -/

theorem next?_eq_none_iff : next? tokens index = .ok none ↔
    ∀ i token, index ≤ i → tokens[i]? = some token → IsBlank token := by
  rw [← findCode_eq_none_iff, next?]
  split
  · rename_i hnone
    simp [hnone]
  · rename_i hsome
    simp [hsome, map_eq_ok_iff]

theorem next?_eq_some_iff {record : Record} {after : Nat} :
    next? tokens index = .ok (some (record, after)) ↔ ∃ place,
      findCode tokens index = some (place, record.code) ∧
        readAt tokens place record.code = .ok (record, after) := by
  rw [next?]
  split
  · rename_i hnone
    simp [hnone]
  · rename_i place code hsome
    rw [hsome, map_eq_ok_iff]
    constructor
    · rintro ⟨read, hread, h⟩
      cases h
      obtain rfl : record.code = code := (readAt_eq_ok_iff.1 hread).1
      exact ⟨place, rfl, hread⟩
    · rintro ⟨_, h, hread⟩
      cases h
      exact ⟨_, hread, rfl⟩

theorem next?_eq_some_iff_standsIn {record : Record} {after : Nat} :
    next? tokens index = .ok (some (record, after)) ↔ record.StandsIn tokens index after := by
  constructor
  · intro h
    obtain ⟨place, hfind, hread⟩ := next?_eq_some_iff.1 h
    obtain ⟨hle, ⟨token, htoken, hcode⟩, hne, hbefore⟩ := findCode_eq_some_iff.1 hfind
    obtain ⟨-, hscored, hafter, hpath, hpathne, hsource⟩ := readAt_eq_ok_iff_getElem?.1 hread
    obtain ⟨⟨leading, rfl⟩, hhead⟩ := codeOf_eq_iff.1 hcode
    obtain ⟨hlt, hsize⟩ := lt_of_next? h
    exact {
      lt_after := hlt
      after_le := hsize
      path := hpath
      path_ne := hpathne
      hasSource := by rw [hscored, isScored_iff]
      source := hsource
      code := ⟨place, leading, hafter, hle, htoken, hne, hhead, hbefore⟩ }
  · rintro ⟨-, -, hpath, hpathne, hscored, hsource, place, leading, hafter, hle, htoken, hne,
      hhead, hbefore⟩
    refine next?_eq_some_iff.2 ⟨place, ?_, ?_⟩
    · exact findCode_eq_some_iff.2 ⟨hle, ⟨_, htoken, codeOf_eq_iff.2 ⟨⟨leading, rfl⟩, hhead⟩⟩, hne,
        hbefore⟩
    · rw [← isScored_iff, ← Bool.eq_iff_iff] at hscored
      exact readAt_eq_ok_iff_getElem?.2 ⟨rfl, hscored, hafter, hpath, hpathne, hsource⟩

/-! ## Walks -/

theorem add_two_le_of_next? {record : Record} {after : Nat}
    (h : next? tokens index = .ok (some (record, after))) : index + 2 ≤ after := by
  obtain ⟨place, -, hafter, hle, -⟩ := (next?_eq_some_iff_standsIn.1 h).code
  have hlength : 2 ≤ record.tokens.length := by simp [Record.tokens]
  omega

theorem Walks.length_le {found : List Record} {fault : Option Failure}
    (h : Walks tokens index found fault) : 2 * found.length ≤ tokens.size - index := by
  induction h with
  | done => exact Nat.zero_le _
  | fault => exact Nat.zero_le _
  | step hnext _ ih =>
    have hstep := add_two_le_of_next? hnext
    have hsize := (lt_of_next? hnext).2
    rw [List.length_cons]
    omega

end

/-- **What a step of the cursor comes to**, from any position in any tokens. It gives a record and
the position after it if and only if the record stands in the tokens up to there; it comes to the
end if and only if all tokens from its position on are blank; and else it reports a position behind
its own at which the tokens end or an empty token stands. So the records are read in a walk that
ends, with one record for every two tokens at most. -/
theorem next?_outcome (tokens : Array String) (index : Nat) :
    (∀ record after, next? tokens index = .ok (some (record, after)) ↔
      record.StandsIn tokens index after) ∧
    (next? tokens index = .ok none ↔
      ∀ i token, index ≤ i → tokens[i]? = some token → IsBlank token) ∧
    (∀ e, next? tokens index = .error e →
      ∃ i reason, e = .badNameStatus i reason ∧ index < i ∧ i ≤ tokens.size ∧
        (i = tokens.size ∨ tokens[i]? = some "")) ∧
    ∃ found fault, recordsFrom tokens index #[] = (found, fault) ∧
      Walks tokens index found fault ∧ 2 * found.length ≤ tokens.size - index := by
  refine ⟨fun record after => next?_eq_some_iff_standsIn, next?_eq_none_iff,
    fun e => fault_of_next?, ?_⟩
  obtain ⟨found, hfound, hwalks⟩ := exists_walks tokens index #[]
  have hrecords : recordsFrom tokens index #[] = (found, (recordsFrom tokens index #[]).2) :=
    Prod.ext (by simpa using hfound) rfl
  exact ⟨found, _, hrecords, hwalks, hwalks.length_le⟩

/-- A blank token, a code with a line feed in front, and a destination that is empty. -/
example : next? #["\n", "\nR1", "a", "", "b"] 0 =
    .error (.badNameStatus 3 "missing destination path for status \"R1\"") := by
  decide +kernel

end GitReadout.NameStatus
