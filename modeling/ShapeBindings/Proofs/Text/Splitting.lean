import Mathlib.Data.List.Basic
import ShapeBindings.Proofs.Text.Writing

/-!
# Texts between line feeds

* `splitLines s`: the texts between the line feeds of `s`, also the one after the last;
* `splitLines_unlines`: what is written line by line is split into what the lines are split into;
* `map_trimEnd_lines`: up to blanks at their ends, the lines of a text are what it is split into.
-/

namespace ShapeBindings.Text

/-- A text without line feeds. -/
def OneLine (s : String) : Prop := '\n' ∉ s.toList

instance (s : String) : Decidable (OneLine s) := inferInstanceAs (Decidable ('\n' ∉ s.toList))

/-- The texts between the line feeds of a text. -/
def splitLines (s : String) : List String := (s.toList.splitOn '\n').map String.ofList

/-! ### Texts without line feeds -/

@[simp] theorem oneLine_append {s t : String} : OneLine (s ++ t) ↔ OneLine s ∧ OneLine t := by
  rw [OneLine, String.toList_append, List.mem_append, not_or]
  rfl

theorem oneLine_ofList {s : List Char} : OneLine (String.ofList s) ↔ '\n' ∉ s := by
  rw [OneLine, String.toList_ofList]

theorem not_mem_intercalate {c : Char} {sep : String} {ss : List String} (hsep : c ∉ sep.toList)
    (h : ∀ s ∈ ss, c ∉ s.toList) : c ∉ (sep.intercalate ss).toList := by
  induction ss with
  | nil =>
    rw [String.intercalate_nil]
    exact List.not_mem_nil
  | cons s ss ih =>
    have hs := h s List.mem_cons_self
    cases ss with
    | nil => rwa [String.intercalate_singleton]
    | cons t ss =>
      rw [String.intercalate_cons_cons, String.toList_append, String.toList_append, List.mem_append, List.mem_append,
        not_or, not_or]
      exact ⟨⟨hs, hsep⟩, ih fun u hu => h u (List.mem_cons_of_mem s hu)⟩

theorem oneLine_intercalate {sep : String} {ss : List String} (hsep : OneLine sep) (h : ∀ s ∈ ss, OneLine s) :
    OneLine (sep.intercalate ss) :=
  not_mem_intercalate hsep h

/-! ### Splitting -/

theorem splitLines_of_oneLine {s : String} (h : OneLine s) : splitLines s = [s] := by
  rw [splitLines, List.splitOn_eq_singleton h, List.map_singleton, String.ofList_toList]

theorem not_mem_of_mem_splitOn {x : Char} {s u : List Char} (h : u ∈ s.splitOn x) : x ∉ u := by
  induction s generalizing u with
  | nil =>
    rw [List.splitOn_nil, List.mem_singleton] at h
    simp [h]
  | cons c s ih =>
    rw [List.splitOn_cons_eq_if_modifyHead] at h
    by_cases hc : c = x
    · rw [if_pos (beq_iff_eq.2 hc)] at h
      rcases List.mem_cons.1 h with rfl | h
      · exact List.not_mem_nil
      · exact ih h
    · rw [if_neg (by simpa using hc)] at h
      obtain ⟨v, vs, hv⟩ := List.exists_cons_of_ne_nil (List.splitOn_ne_nil x s)
      rw [hv, List.modifyHead_cons] at h
      rcases List.mem_cons.1 h with rfl | h
      · rw [List.mem_cons, not_or]
        exact ⟨Ne.symm hc, ih (by simp [hv])⟩
      · exact ih (by simp [hv, h])

theorem length_splitOn (x : Char) (s : List Char) : (s.splitOn x).length = s.count x + 1 := by
  induction s with
  | nil => simp
  | cons c s ih =>
    rw [List.splitOn_cons_eq_if_modifyHead, List.count_cons]
    by_cases hc : c = x
    · simp [hc, ih]
    · simp [hc, ih]

theorem splitOn_append_of_not_mem {x : Char} {a : List Char} (ha : x ∉ a) (s : List Char) :
    ∃ u us, s.splitOn x = u :: us ∧ (a ++ s).splitOn x = (a ++ u) :: us := by
  induction a with
  | nil =>
    obtain ⟨u, us, h⟩ := List.exists_cons_of_ne_nil (List.splitOn_ne_nil x s)
    exact ⟨u, us, h, h⟩
  | cons c a ih =>
    have hcx : (c == x) = false := by
      rw [beq_eq_false_iff_ne]
      rintro rfl
      exact ha List.mem_cons_self
    obtain ⟨u, us, h1, h2⟩ := ih fun h => ha (List.mem_cons_of_mem _ h)
    refine ⟨u, us, h1, ?_⟩
    rw [List.cons_append, List.splitOn_cons_eq_if_modifyHead, h2]
    simp [hcx]

theorem splitOn_append_right {x : Char} {a : List Char} (ha : x ∉ a) (s : List Char) :
    ∃ us u, s.splitOn x = us ++ [u] ∧ (s ++ a).splitOn x = us ++ [u ++ a] := by
  induction s with
  | nil => exact ⟨[], [], by simp, by simpa using List.splitOn_eq_singleton ha⟩
  | cons c s ih =>
    obtain ⟨us, u, h1, h2⟩ := ih
    rw [List.cons_append, List.splitOn_cons_eq_if_modifyHead, List.splitOn_cons_eq_if_modifyHead, h1, h2]
    by_cases hcx : c == x
    · exact ⟨[] :: us, u, by simp [hcx], by simp [hcx]⟩
    · cases us with
      | nil => exact ⟨[], c :: u, by simp [hcx], by simp [hcx]⟩
      | cons v us => exact ⟨(c :: v) :: us, u, by simp [hcx], by simp [hcx]⟩

/-- A list with commas, of which the blanks after them are lost. -/
theorem map_trimStart_splitOn {ss : List String} (hne : ss ≠ []) (hcomma : ∀ s ∈ ss, ',' ∉ s.toList)
    (hstart : ∀ s ∈ ss, trimStart s.toList = s.toList) :
    ((", ".intercalate ss).toList.splitOn ',').map trimStart = ss.map String.toList := by
  induction ss with
  | nil => exact absurd rfl hne
  | cons s ss ih =>
    have hs := hcomma s List.mem_cons_self
    have htrim := hstart s List.mem_cons_self
    cases ss with
    | nil =>
      rw [String.intercalate_singleton, List.splitOn_eq_singleton hs, List.map_singleton, htrim, List.map_singleton]
    | cons t ss =>
      have hrest := ih (List.cons_ne_nil t ss) (fun u hu => hcomma u (List.mem_cons_of_mem s hu))
        fun u hu => hstart u (List.mem_cons_of_mem s hu)
      have htext : (", ".intercalate (s :: t :: ss)).toList =
          s.toList ++ ',' :: (' ' :: (", ".intercalate (t :: ss)).toList) := by
        rw [String.intercalate_cons_cons, String.toList_append, String.toList_append, List.append_assoc]
        rfl
      have hblank : ∀ u : List Char, trimStart (' ' :: u) = trimStart u :=
        trimStart_blanks_append (b := [' ']) (by decide)
      obtain ⟨u, us, hu⟩ := List.exists_cons_of_ne_nil (List.splitOn_ne_nil ',' (", ".intercalate (t :: ss)).toList)
      rw [htext, List.splitOn_append_cons_self_of_not_mem hs, List.splitOn_cons_eq_if_modifyHead, if_neg (by decide),
        hu, List.modifyHead_cons, List.map_cons, List.map_cons, hblank, ← List.map_cons, ← hu, hrest, htrim]
      rfl

theorem oneLine_of_mem_splitLines {s l : String} (h : l ∈ splitLines s) : OneLine l := by
  obtain ⟨cs, hcs, rfl⟩ := List.mem_map.1 h
  exact oneLine_ofList.2 (not_mem_of_mem_splitOn hcs)

theorem splitLines_unlines (ls : List String) : splitLines (unlines ls) = ls.flatMap splitLines ++ [""] := by
  induction ls with
  | nil => decide
  | cons l ls ih =>
    rw [List.flatMap_cons, List.append_assoc, ← ih, splitLines, toList_unlines_cons, List.splitOn_append_cons_self,
      List.map_append]
    rfl

theorem flatMap_splitLines {ls : List String} (h : ∀ l ∈ ls, OneLine l) : ls.flatMap splitLines = ls := by
  induction ls with
  | nil => rfl
  | cons l ls ih =>
    rw [List.flatMap_cons, splitLines_of_oneLine (h l List.mem_cons_self),
      ih fun l' hl' => h l' (List.mem_cons_of_mem l hl')]
    rfl

/-! ### Lines -/

theorem trimEnd_chomp (s : List Char) : trimEnd (chomp s) = trimEnd s := by
  obtain ⟨b, hb, hs⟩ := exists_chomp s
  conv_rhs => rw [hs, trimEnd_append_blanks _ hb]

/-- Up to blanks at their ends, the lines of a text that does not end with a line feed are what it is split into. -/
theorem map_trimEnd_lines {s : List Char} (hne : s ≠ []) (hlast : s.getLast? ≠ some '\n') :
    (lines s).map trimEnd = (s.splitOn '\n').map trimEnd := by
  induction hn : s.length using Nat.strong_induction_on generalizing s with
  | _ n ih =>
    subst hn
    by_cases hs : '\n' ∈ s
    · obtain ⟨a, b, ha, rfl⟩ := exists_newline_split hs
      have hb : b ≠ [] := by
        rintro rfl
        simp at hlast
      have hlast' : b.getLast? ≠ some '\n' := by
        obtain ⟨c, b, rfl⟩ := List.exists_cons_of_ne_nil hb
        rwa [List.getLast?_append_of_ne_nil _ (List.cons_ne_nil _ _), List.getLast?_cons_cons] at hlast
      rw [lines_append_newline ha, List.splitOn_append_cons_self_of_not_mem ha, List.map_cons, List.map_cons,
        trimEnd_chomp, ih b.length (by simp; omega) hb hlast' rfl]
    · rw [lines_eq_singleton hs hne, List.splitOn_eq_singleton hs]

end ShapeBindings.Text
