import GitReadout.Proofs.Text.Pair
import GitReadout.Proofs.Text.Pieces
import GitReadout.RefName

/-!
# Branch names by their components

git states its rules for the components of a name, which slashes separate; the check looks at the
ends of the whole name and at pairs of neighbours. A component that is empty or begins with a dot
shows in the pairs and at the ends, wherever it stands. One that ends with `.lock` shows at the end
of the name only.

* `component_ne_nil_iff`, `component_start_iff`, `component_end_iff`: each rule on components, as a
  rule on the whole name.
* `parse_eq_ok_iff_obeys`: the names that are read, and those of them that git allows.
-/

set_option autoImplicit false

namespace GitReadout.RefName

/-- The components of a name, which slashes separate. -/
def components (name : List Char) : List (List Char) :=
  name.splitOn '/'

/-- How no component may end. -/
def lock : List Char := ['.', 'l', 'o', 'c', 'k']

/-- git's rules for the name of a branch, with `ending` for the components of which the end is
looked at. -/
structure Obeys (name : List Char) (ending : List (List Char)) : Prop where
  ne_nil : name ≠ []
  ne_at : name ≠ ['@']
  chars : ∀ c ∈ name, 0x20 < c.toNat ∧ c.toNat ≠ 0x7F ∧ c ∉ ['~', '^', ':', '?', '*', '[', '\\']
  no_dots : ¬['.', '.'] <:+: name
  no_brace : ¬['@', '{'] <:+: name
  component_ne_nil : ∀ part ∈ components name, part ≠ []
  component_start : ∀ part ∈ components name, part.head? ≠ some '.'
  component_end : ∀ part ∈ ending, ¬lock <:+ part
  last_ne : name.getLast? ≠ some '.'
  head_ne : name.head? ≠ some '-'

/-- git's rules for the name of a branch. -/
def IsGitName (name : List Char) : Prop :=
  Obeys name (components name)

variable {name : List Char}

/-! ## Components and the whole name -/

theorem component_ne_nil_iff : (∀ part ∈ components name, part ≠ []) ↔
    name ≠ [] ∧ name.head? ≠ some '/' ∧ name.getLast? ≠ some '/' ∧ ¬['/', '/'] <:+: name := by
  have hmem : (∀ part ∈ components name, part ≠ []) ↔ [] ∉ components name :=
    ⟨fun h hnil => h [] hnil rfl, fun h part hpart he => h (he ▸ hpart)⟩
  rw [hmem, components, Text.mem_splitOn_iff]
  constructor
  · intro h
    -- an empty component at either end, or between two slashes
    refine ⟨?_, fun hhead => h ?_, fun hlast => h ?_, fun hpair => h ?_⟩
    · rintro rfl
      exact h ⟨by simp, [], [], rfl, .inl rfl, .inl rfl⟩
    · exact ⟨by simp, [], name, rfl, .inl rfl, .inr hhead⟩
    · exact ⟨by simp, name, [], by simp, .inr hlast, .inl rfl⟩
    · obtain ⟨before, after, rfl⟩ := hpair
      exact ⟨by simp, before ++ ['/'], '/' :: after, by simp, .inr (by simp), .inr rfl⟩
  · rintro ⟨hne, hhead, hlast, hpair⟩ ⟨-, before, after, rfl, hbefore, hafter⟩
    rw [List.append_nil] at hne hhead hlast hpair
    rcases hbefore with rfl | hbefore
    · rcases hafter with rfl | hafter
      · exact hne rfl
      · exact hhead hafter
    · obtain ⟨front, rfl⟩ := List.getLast?_eq_some_iff.1 hbefore
      rcases hafter with rfl | hafter
      · exact hlast (by simp)
      · obtain ⟨rest, rfl⟩ := List.head?_eq_some_iff.1 hafter
        exact hpair ⟨front, rest, by simp⟩

theorem component_start_iff : (∀ part ∈ components name, part.head? ≠ some '.') ↔
    name.head? ≠ some '.' ∧ ¬['/', '.'] <:+: name := by
  constructor
  · intro h
    -- the component that begins with the dot goes on to the next slash
    have hpiece (before rest : List Char) (hname : name = before ++ '.' :: rest)
        (hbefore : before = [] ∨ before.getLast? = some '/') : False := by
      have hpart : ('.' :: rest).takeWhile (· != '/') ∈ components name := by
        refine Text.mem_splitOn_iff.2
          ⟨fun hslash => ?_, before, ('.' :: rest).dropWhile (· != '/'), ?_, hbefore, ?_⟩
        · simpa using List.all_eq_true.1 List.all_takeWhile _ hslash
        · rw [hname, List.append_assoc, List.takeWhile_append_dropWhile]
        · cases hdrop : ('.' :: rest).dropWhile (· != '/') with
          | nil => exact .inl rfl
          | cons c after =>
            have hc := List.head?_dropWhile_not (· != '/') ('.' :: rest)
            rw [hdrop] at hc
            exact .inr (by simpa using hc)
      exact h _ hpart (by simp)
    refine ⟨fun hhead => ?_, fun hpair => ?_⟩
    · obtain ⟨rest, hname⟩ := List.head?_eq_some_iff.1 hhead
      exact hpiece [] rest hname (.inl rfl)
    · obtain ⟨before, after, hname⟩ := hpair
      exact hpiece (before ++ ['/']) after (by simp [← hname]) (.inr (by simp))
  · rintro ⟨hhead, hpair⟩ part hpart hdot
    obtain ⟨-, before, after, rfl, hbefore, -⟩ := Text.mem_splitOn_iff.1 hpart
    obtain ⟨rest, rfl⟩ := List.head?_eq_some_iff.1 hdot
    rcases hbefore with rfl | hbefore
    · exact hhead (by simp)
    · obtain ⟨front, rfl⟩ := List.getLast?_eq_some_iff.1 hbefore
      exact hpair ⟨front, rest ++ after, by simp⟩

/-- No slash stands in `.lock`, so where a name ends with it the last component does. -/
theorem component_end_iff :
    (∀ part ∈ (components name).getLast?.toList, ¬lock <:+ part) ↔ ¬lock <:+ name := by
  obtain ⟨front, last, hname, hfront, hlast⟩ := Text.exists_getLast?_splitOn '/' name
  have hpart : last <:+ name := ⟨front, hname.symm⟩
  have hend : lock <:+ name → lock <:+ last := by
    intro h
    rcases List.suffix_or_suffix_of_suffix h hpart with hlock | hshort
    · exact hlock
    rcases hfront with rfl | hfront
    · rwa [hname, List.nil_append] at h
    -- else the slash in front of the last component would stand in `.lock`
    obtain ⟨rest, rfl⟩ := List.getLast?_eq_some_iff.1 hfront
    have hslash : '/' :: last <:+ name := ⟨rest, by simp [hname]⟩
    rcases List.suffix_or_suffix_of_suffix h hslash with hlock | hlong
    · rcases List.suffix_cons_iff.1 hlock with he | hlock
      · cases he
      · exact hlock
    · exact absurd (hlong.subset List.mem_cons_self) (by decide)
  rw [components, hlast]
  simp only [Option.toList_some, List.mem_singleton, forall_eq]
  exact not_congr ⟨fun h => h.trans hpart, hend⟩

/-! ## The check -/

theorem not_isForbidden_iff {c : Char} : ¬isForbidden c ↔
    0x20 < c.toNat ∧ c.toNat ≠ 0x7F ∧ c ∉ ['~', '^', ':', '?', '*', '[', '\\'] := by
  have hspace : c = ' ' ↔ c.toNat = 0x20 := ⟨fun h => h ▸ rfl, fun h => Char.toNat_inj.1 h⟩
  simp only [isForbidden, List.contains_eq_mem, List.mem_cons, List.not_mem_nil, or_false,
    Bool.or_eq_true, decide_eq_true_eq, not_or, hspace]
  constructor
  · rintro ⟨⟨hlow, hdel⟩, hne, htilde, hcaret, hcolon, hslash, hstar, hmark, hopen⟩
    exact ⟨by omega, hdel, htilde, hcaret, hcolon, hmark, hstar, hopen, hslash⟩
  · rintro ⟨hlow, hdel, htilde, hcaret, hcolon, hmark, hstar, hopen, hslash⟩
    exact ⟨⟨by omega, hdel⟩, by omega, htilde, hcaret, hcolon, hslash, hstar, hmark, hopen⟩

theorem hasForbiddenEnd_iff : hasForbiddenEnd name ↔
    name.getLast? = some '.' ∨ name.getLast? = some '/' ∨ lock <:+ name := by
  have hlock : ".lock".toList = lock := rfl
  rw [hasForbiddenEnd, Bool.or_eq_true, hlock, List.isSuffixOf_iff_suffix, ← or_assoc]
  refine or_congr_left ?_
  cases name.getLast? with
  | none => simp
  | some c => simp

theorem isAllowed_iff : isAllowed name ↔
    name ≠ [] ∧ name ≠ ['@'] ∧
      (name.head? ≠ some '-' ∧ name.head? ≠ some '.' ∧ name.head? ≠ some '/') ∧
      (name.getLast? ≠ some '.' ∧ name.getLast? ≠ some '/' ∧ ¬lock <:+ name) ∧
      (∀ c ∈ name, ¬isForbidden c) ∧
      ¬['.', '.'] <:+: name ∧ ¬['@', '{'] <:+: name ∧ ¬['/', '/'] <:+: name ∧
        ¬['/', '.'] <:+: name := by
  have hstart : name.head?.any isForbiddenStart ↔
      name.head? = some '-' ∨ name.head? = some '.' ∨ name.head? = some '/' := by
    cases name.head? <;> simp [isForbiddenStart]
  have hpairs : (forbiddenPairs.any fun pair => Text.hasPair pair.1 pair.2 name) ↔
      ['.', '.'] <:+: name ∨ ['@', '{'] <:+: name ∨ ['/', '/'] <:+: name ∨
        ['/', '.'] <:+: name := by
    simp [forbiddenPairs, Text.hasPair_iff]
  simp only [isAllowed, Bool.and_eq_true, Bool.not_eq_true', ← Bool.not_eq_true, hstart, hpairs,
    hasForbiddenEnd_iff, decide_eq_true_eq, List.any_eq_true, not_or, not_exists, not_and, ne_eq,
    and_assoc]

/-- The check asks for git's rules, but looks at the end of the last component alone. -/
theorem isAllowed_iff_obeys :
    isAllowed name ↔ Obeys name (components name).getLast?.toList := by
  rw [isAllowed_iff]
  simp only [not_isForbidden_iff]
  constructor
  · rintro ⟨hne, hat, ⟨hdash, hdot, hslash⟩, ⟨hlastDot, hlastSlash, hlock⟩, hchars, hdots, hbrace,
      hdouble, hinner⟩
    exact ⟨hne, hat, hchars, hdots, hbrace,
      component_ne_nil_iff.2 ⟨hne, hslash, hlastSlash, hdouble⟩,
      component_start_iff.2 ⟨hdot, hinner⟩, component_end_iff.2 hlock, hlastDot, hdash⟩
  · intro h
    obtain ⟨-, hslash, hlastSlash, hdouble⟩ := component_ne_nil_iff.1 h.component_ne_nil
    obtain ⟨hdot, hinner⟩ := component_start_iff.1 h.component_start
    exact ⟨h.ne_nil, h.ne_at, ⟨h.head_ne, hdot, hslash⟩,
      ⟨h.last_ne, hlastSlash, component_end_iff.1 h.component_end⟩, h.chars, h.no_dots, h.no_brace,
      hdouble, hinner⟩

theorem Obeys.congr_ending {ending others : List (List Char)} (h : Obeys name ending)
    (hothers : ∀ part ∈ others, ¬lock <:+ part) : Obeys name others :=
  { h with component_end := hothers }

/-- **Which names are read, and which git allows.** A text is read, and kept as it is, if and only
if it obeys git's rules with the ends of all components but the last left out. So git allows
those of the names read of which no component in front of the last ends with `.lock`. -/
theorem parse_eq_ok_iff_obeys (text : String) :
    (∀ branch, parse text = .ok branch ↔
      branch.value = text ∧ Obeys text.toList (components text.toList).getLast?.toList) ∧
    (IsGitName text.toList ↔ (∃ branch, parse text = .ok branch) ∧
      ∀ part ∈ (components text.toList).dropLast, ¬lock <:+ part) := by
  have hread (branch : RefName) : parse text = .ok branch ↔
      branch.value = text ∧ Obeys text.toList (components text.toList).getLast?.toList := by
    rw [parse_eq_ok_iff, isAllowed_iff_obeys, and_comm]
  have hsome : (∃ branch, parse text = .ok branch) ↔
      Obeys text.toList (components text.toList).getLast?.toList := by
    simp only [hread]
    exact ⟨fun ⟨_, _, h⟩ => h, fun h => ⟨⟨text⟩, rfl, h⟩⟩
  refine ⟨hread, ?_⟩
  obtain ⟨front, last, hparts⟩ := List.eq_nil_or_concat (components text.toList) |>.resolve_left
    (List.splitOn_ne_nil '/' text.toList)
  have hlast : (components text.toList).getLast?.toList = [last] := by simp [hparts]
  have hfront : (components text.toList).dropLast = front := by simp [hparts]
  rw [hsome, hlast, hfront, IsGitName]
  constructor
  · intro h
    have hend := h.component_end
    rw [hparts] at hend
    exact ⟨h.congr_ending fun part hpart => hend part (by simp_all),
      fun part hpart => hend part (by simp [hpart])⟩
  · rintro ⟨h, hrest⟩
    refine h.congr_ending fun part hpart => ?_
    rw [hparts, List.concat_eq_append, List.mem_append] at hpart
    exact hpart.elim (hrest part) (h.component_end part)

/-- A component that ends with `.lock` in front of another is read, against git's rules. -/
theorem parse_locked_component :
    parse "a.lock/b" = .ok ⟨"a.lock/b"⟩ ∧ ¬IsGitName "a.lock/b".toList := by
  refine ⟨parse_eq_ok_iff.2 ⟨by decide +kernel, rfl⟩, fun h => ?_⟩
  exact h.component_end "a.lock".toList (by decide +kernel) (by decide +kernel)

end GitReadout.RefName
