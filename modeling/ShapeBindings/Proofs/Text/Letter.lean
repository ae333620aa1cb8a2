import ShapeBindings.Proofs.Text.Splitting
import ShapeBindings.Text.Letter

/-!
# Headings of one line

No letter has a line feed as a case, so a name without line feeds has none as a heading (`oneLine_titleCase`).
-/

namespace ShapeBindings.Text

/-! ### Single characters -/

theorem ofNat_ne_newline {n : Nat} (h : n ≠ 10) : Char.ofNat n ≠ '\n' := by
  intro heq
  by_cases hn : n.isValidChar
  · rw [Char.ofNat, dif_pos hn] at heq
    exact h (congrArg Char.toNat heq)
  · rw [Char.ofNat, dif_neg hn] at heq
    cases heq

theorem mapCase_ne_newline {runs : List CaseRun} (hruns : ∀ r ∈ runs, 10 < r.first + r.offset) {c : Char}
    (hc : c ≠ '\n') : mapCase runs c ≠ '\n' := by
  unfold mapCase
  split
  · next r hfind =>
    have hr := hruns r (List.mem_of_find?_eq_some hfind)
    have hfirst : r.first ≤ c.toNat := by
      have hcontains := List.find?_some hfind
      simp only [CaseRun.contains, Bool.and_eq_true, decide_eq_true_eq] at hcontains
      exact hcontains.1.1
    exact ofNat_ne_newline (by omega)
  · exact hc

theorem newline_not_mem_lower {c : Char} (hc : c ≠ '\n') : '\n' ∉ lower c := by
  have hruns : ∀ r ∈ lowerRuns, 10 < r.first + r.offset := by decide +kernel
  unfold lower
  split
  · decide
  · rw [List.mem_singleton]
    exact (mapCase_ne_newline hruns hc).symm

theorem newline_not_mem_upper {c : Char} (hc : c ≠ '\n') : '\n' ∉ upper c := by
  have hruns : ∀ r ∈ upperRuns, 10 < r.first + r.offset := by decide +kernel
  have hexpansions : ∀ e ∈ upperExpansions, 10 ∉ e.2 := by decide +kernel
  unfold upper
  split
  · next codes hcodes =>
    obtain ⟨before, after, hentries, -⟩ := List.lookup_eq_some_iff.1 hcodes
    have hten := hexpansions (c.toNat, codes) (by simp [hentries])
    rw [List.mem_map]
    rintro ⟨n, hn, heq⟩
    refine ofNat_ne_newline ?_ heq
    rintro rfl
    exact hten hn
  · rw [List.mem_singleton]
    exact (mapCase_ne_newline hruns hc).symm

/-! ### Names -/

theorem newline_not_mem_titleFrom {s : List Char} (h : '\n' ∉ s) (inRun : Bool) : '\n' ∉ titleFrom inRun s := by
  induction s generalizing inRun with
  | nil => exact h
  | cons c s ih =>
    rw [List.mem_cons, not_or] at h
    have hc := Ne.symm h.1
    rw [titleFrom]
    split
    · rw [List.mem_append, not_or]
      refine ⟨?_, ih h.2 true⟩
      cases inRun
      · exact newline_not_mem_upper hc
      · exact newline_not_mem_lower hc
    · rw [List.mem_cons, not_or]
      exact ⟨h.1, ih h.2 false⟩

theorem oneLine_titleCase {name : String} (h : OneLine name) : OneLine (titleCase name) :=
  oneLine_ofList.2 (newline_not_mem_titleFrom h false)

end ShapeBindings.Text
