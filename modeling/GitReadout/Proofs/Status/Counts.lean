import GitReadout.Proofs.Status.Summary

/-!
# Counts in headers

Two headers hold numbers: by how many commits the branch and the one it tracks differ, and how many
stashes there are. Each number is written in ASCII digits up to a limit of its own, and one plus
sign may stand in front of the digits, also behind the sign that the header asks for.

* `parse_of_reads`: what is read of a stream of one header, from what is read of the header.
* `parse_counts`: which numbers are read in either header, and the error of every other text.
-/

set_option autoImplicit false

namespace GitReadout.Status

/-- The stream of one header, with or without a last NUL. -/
def IsHeaderStream (key value output : String) : Prop :=
  output = "# " ++ key ++ " " ++ value ∨ output = "# " ++ key ++ " " ++ value ++ "\x00"

/-! ## Streams of one header -/

theorem IsHeaderStream.writes {key value output : String} (h : IsHeaderStream key value output)
    (hnul : '\x00' ∉ (key ++ " " ++ value).toList) :
    Written.Writes [.header ⟨key ++ " " ++ value, hnul⟩] output := by
  obtain rfl | rfl := h
  · exact .inl (by simp [Written.stream, Written.texts, Written.text, Written.source?])
  · exact .inr (by simp [Written.stream, Written.texts, Written.text, Written.source?])

theorem Report.ofItems_header (header : Header) :
    ofItems [.ok (.header header)] = applyHeader {} header := by
  rw [ofItems, applyAll]
  simp only [Report.apply]
  cases applyHeader {} header <;> rfl

/-- A stream of one header gives what is made of the value of the header, where it has a meaning. -/
theorem parse_of_reads {α : Type} {settings : Settings} {key value output : String}
    {read : Header → Except Failure α} {make : α → Report} (Means : α → String → Prop)
    (fault : Fault) (hsize : output.utf8ByteSize ≤ settings.statusLimit)
    (hkey : '\x00' ∉ key.toList ∧ ' ' ∉ key.toList) (hnul : '\x00' ∉ value.toList)
    (happly : ∀ header : Header, header.key = key →
      Report.applyHeader {} header = (read header).map make)
    (hread : ∀ header, Reads (read header) (Means · header.rest) (header.fault fault))
    (h : IsHeaderStream key value output) :
    (∀ report, (Report.parse output settings).result = .ok report ↔
      ∃ a, Means a value ∧ report = some (make a)) ∧
    ∀ e, (Report.parse output settings).result = .error e ↔
      (∀ a, ¬Means a value) ∧ e = .badStatus ("# " ++ key ++ " " ++ value) fault.reason := by
  have hvalue : '\x00' ∉ (key ++ " " ++ value).toList := by
    simpa using ⟨hkey.1, hnul⟩
  let header : Header := ⟨key ++ " " ++ value⟩
  have hparts : header.value.toList = key.toList ++ ' ' :: value.toList := by simp [header]
  obtain ⟨hk, hr⟩ := Header.key_append_rest hkey.2 hparts
  rw [String.ofList_toList] at hk hr
  have hitems : readAll output = .ok [.header header] := readAll_of_writes (h.writes hvalue)
  have hparse : Report.parse output settings =
      ⟨(read header).map fun a => some (make a), []⟩ := by
    rw [Report.parse_of_size_le hsize, Report.items_of_readAll hitems, List.map_singleton,
      Report.ofItems_header, happly header hk, map_map]
  have hfault : header.fault fault = .badStatus ("# " ++ key ++ " " ++ value) fault.reason := by
    rw [Header.fault, ← String.append_assoc, ← String.append_assoc]
  rw [hparse, ← hfault, ← hr]
  exact (hread header).map fun a => some (make a)

/-- **Which numbers a header may hold.** A stream of the header of a divergence is taken if and only
if its text is `+`, a count of 32 bits, a space, `-` and another such count; one of the header of
the stashes if and only if its text is a count of 64 bits. The report then holds exactly these
numbers; any other text is an error that names the header. -/
theorem parse_counts {settings : Settings} {output value : String}
    (hsize : output.utf8ByteSize ≤ settings.statusLimit) (hnul : '\x00' ∉ value.toList) :
    (IsHeaderStream "branch.ab" value output →
      (∀ report, (Report.parse output settings).result = .ok report ↔
        ∃ counts : Divergence, counts.IsWritten value ∧
          report = some { divergence := some counts }) ∧
      ∀ e, (Report.parse output settings).result = .error e ↔
        (∀ counts : Divergence, ¬counts.IsWritten value) ∧
          e = .badStatus ("# branch.ab " ++ value) "invalid ahead/behind counts") ∧
    (IsHeaderStream "stash" value output →
      (∀ report, (Report.parse output settings).result = .ok report ↔
        ∃ count, Text.IsCount 18446744073709551615 value.toList count ∧
          report = some { stashes := count }) ∧
      ∀ e, (Report.parse output settings).result = .error e ↔
        (∀ count, ¬Text.IsCount 18446744073709551615 value.toList count) ∧
          e = .badStatus ("# stash " ++ value) "invalid stash count") := by
  have hdivergence (header : Header) (hkey : header.key = "branch.ab") :
      Report.applyHeader {} header =
        header.divergence.map fun counts => { divergence := some counts } := by
    simp [Report.applyHeader, hkey]
  have hstashes (header : Header) (hkey : header.key = "stash") :
      Report.applyHeader {} header = header.stashes.map fun stashes => { stashes } := by
    simp [Report.applyHeader, hkey]
  refine ⟨parse_of_reads Divergence.IsWritten .badDivergence hsize (by decide +kernel) hnul
    hdivergence Header.divergence_reads, ?_⟩
  exact parse_of_reads (fun count text => Text.IsCount 18446744073709551615 text.toList count)
    .badStashes hsize (by decide +kernel) hnul hstashes Header.stashes_reads

/-- Two commits ahead and one behind, and two stashes. -/
theorem parse_counts_written :
    (Report.parse "# branch.ab +2 -1" {}).result = .ok (some { divergence := some ⟨2, 1⟩ }) ∧
      (Report.parse "# stash 2\x00" {}).result = .ok (some { stashes := 2 }) := by
  have hdivergence := (@parse_counts {} "# branch.ab +2 -1" "+2 -1" (by decide +kernel)
    (by decide +kernel)).1 (.inl (by decide +kernel))
  have hstashes := (@parse_counts {} "# stash 2\x00" "2" (by decide +kernel)
    (by decide +kernel)).2 (.inr (by decide +kernel))
  have hone {limit : Nat} (h : 1 ≤ limit) : Text.IsNumeral limit ['1'] 1 :=
    ⟨by decide, by simp, by decide, h⟩
  have htwo {limit : Nat} (h : 2 ≤ limit) : Text.IsNumeral limit ['2'] 2 :=
    ⟨by decide, by simp, by decide, h⟩
  have hcounts : Divergence.IsWritten ⟨2, 1⟩ "+2 -1" :=
    ⟨['2'], ['1'], by decide +kernel, .inl (htwo (by decide)), .inl (hone (by decide))⟩
  exact ⟨(hdivergence.1 _).2 ⟨⟨2, 1⟩, hcounts, rfl⟩,
    (hstashes.1 _).2 ⟨2, .inl (htwo (by decide)), rfl⟩⟩

/-- The numbers in these headers are not written in digits alone, and they are read all the same:
one more plus sign stands in front of each. -/
theorem parse_signed_counts :
    ((∀ n, ¬Text.IsNumeral 18446744073709551615 "+5".toList n) ∧
      (Report.parse "# stash +5" {}).result = .ok (some { stashes := 5 })) ∧
    (∀ ahead behind n, "++1 -+2".toList = '+' :: ahead ++ ' ' :: '-' :: behind →
      ¬Text.IsNumeral 4294967295 ahead n) ∧
      (Report.parse "# branch.ab ++1 -+2" {}).result =
        .ok (some { divergence := some ⟨1, 2⟩ }) := by
  refine ⟨⟨fun n h => h.head?_ne_plus rfl, by decide +kernel⟩, fun ahead behind n htext h => ?_,
    by decide +kernel⟩
  rcases ahead with _ | ⟨c, ahead⟩
  · exact h.1 rfl
  · have hc : '+' = c := (List.cons.inj (List.cons.inj htext).2).1
    exact h.head?_ne_plus (by rw [← hc, List.head?_cons])

end GitReadout.Status
