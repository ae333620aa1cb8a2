import ShapeBindings.Proofs.Text.Trim
import ShapeBindings.Text.Lines

/-!
# The lines of a text, one at a time

* `chomp` takes the carriage return off the end of a line;
* `lines_append_newline`: the first line of a text, and the lines after it;
* `lines_append`: a text that ends with a line feed can be read before the text that follows.
-/

namespace ShapeBindings.Text

/-- A line without a carriage return at its end. -/
def chomp : List Char → List Char
  | [] => []
  | [c] => if c = '\r' then [] else [c]
  | c :: d :: s => c :: chomp (d :: s)

theorem exists_chomp (s : List Char) : ∃ b, Blanks b ∧ s = chomp s ++ b := by
  induction s using chomp.induct with
  | case1 => exact ⟨[], by simp, rfl⟩
  | case2 => exact ⟨['\r'], by decide, rfl⟩
  | case3 c hc => exact ⟨[], by simp, by simp [chomp, hc]⟩
  | case4 c d s ih =>
    obtain ⟨b, hb, h⟩ := ih
    refine ⟨b, hb, ?_⟩
    rw [chomp, List.cons_append, ← h]

/-- The carriage return that a line loses is not in what the line starts with. -/
theorem chomp_append {s : List Char} (hs : s.getLast? ≠ some '\r') (a : List Char) : chomp (s ++ a) = s ++ chomp a := by
  induction s with
  | nil => rfl
  | cons c s ih =>
    cases s with
    | nil =>
      have hc : c ≠ '\r' := by simpa using hs
      cases a with
      | nil => simp [chomp, hc]
      | cons d a => rfl
    | cons d s =>
      rw [List.getLast?_cons_cons] at hs
      rw [List.cons_append, List.cons_append, chomp, ← List.cons_append, ih hs]
      rfl

theorem lines_cons {c : Char} {s : List Char} (hc : c ≠ '\n') (hcr : c = '\r' → s.head? ≠ some '\n')
    {l : List Char} {ls : List (List Char)} (h : lines s = l :: ls) :
    lines (c :: s) = (c :: l) :: ls := by
  have hs : s ≠ [] := by rintro rfl; simp [lines] at h
  obtain ⟨d, t, rfl⟩ := List.exists_cons_of_ne_nil hs
  rw [lines.eq_5 c d t hc (by rintro t' rfl ht; exact hcr rfl (by simp [ht]))]
  simp only [h]

theorem lines_append_newline {a : List Char} (ha : '\n' ∉ a) (b : List Char) :
    lines (a ++ '\n' :: b) = chomp a :: lines b := by
  induction a using chomp.induct with
  | case1 => rfl
  | case2 => rfl
  | case3 c hc =>
    have : lines ('\n' :: b) = [] :: lines b := rfl
    simp only [chomp, hc, if_false, List.singleton_append]
    exact lines_cons (by rintro rfl; simp at ha) (fun h => absurd h hc) this
  | case4 c d s ih =>
    have hd : d ≠ '\n' := by rintro rfl; simp at ha
    have hr := ih (fun h => ha (List.mem_cons_of_mem _ h))
    rw [chomp, List.cons_append]
    exact lines_cons (by rintro rfl; simp at ha) (by simp [hd]) hr

theorem lines_eq_singleton {a : List Char} (ha : '\n' ∉ a) (hne : a ≠ []) : lines a = [a] := by
  induction a with
  | nil => exact absurd rfl hne
  | cons c s ih =>
    have hc : c ≠ '\n' := by rintro rfl; simp at ha
    cases s with
    | nil => exact lines.eq_4 c hc (by simp)
    | cons d t =>
      have hd : d ≠ '\n' := by rintro rfl; simp at ha
      exact lines_cons hc (by simp [hd]) (ih (fun h => ha (List.mem_cons_of_mem _ h)) (by simp))

/-- The text before the first line feed, and what follows it. -/
theorem exists_newline_split {s : List Char} (h : '\n' ∈ s) :
    ∃ a b, '\n' ∉ a ∧ s = a ++ '\n' :: b := by
  obtain ⟨a, b, rfl, ha⟩ := List.eq_append_cons_of_mem h
  exact ⟨a, b, ha, rfl⟩

/-- A text that is empty or ends with a line feed. -/
def Ended (u : List Char) : Prop := u = [] ∨ ∃ w, u = w ++ ['\n']

theorem Ended.induction {P : List Char → Prop} {u : List Char} (h : Ended u) (nil : P [])
    (line : ∀ a b, '\n' ∉ a → Ended b → P b → P (a ++ '\n' :: b)) : P u := by
  obtain rfl | ⟨w, rfl⟩ := h
  · exact nil
  induction hn : w.length using Nat.strong_induction_on generalizing w with
  | _ n ih =>
    subst hn
    by_cases hw : '\n' ∈ w
    · obtain ⟨a, b, ha, rfl⟩ := exists_newline_split hw
      rw [List.append_assoc, List.cons_append]
      refine line a (b ++ ['\n']) ha (.inr ⟨b, rfl⟩) (ih b.length ?_ b rfl)
      simp only [List.length_append, List.length_cons]
      omega
    · exact line w [] hw (.inl rfl) nil

theorem lines_append {u : List Char} (hu : Ended u) (v : List Char) :
    lines (u ++ v) = lines u ++ lines v := by
  refine Ended.induction (P := fun u => lines (u ++ v) = lines u ++ lines v) hu rfl ?_
  intro a b ha _ ih
  rw [List.append_assoc, List.cons_append, lines_append_newline ha, lines_append_newline ha, ih,
    List.cons_append]

theorem length_lines {u : List Char} (hu : Ended u) : (lines u).length = u.count '\n' := by
  refine Ended.induction (P := fun u => (lines u).length = u.count '\n') hu rfl ?_
  intro a b ha _ ih
  rw [lines_append_newline ha, List.length_cons, ih, List.count_append, List.count_eq_zero.2 ha, List.count_cons_self,
    Nat.zero_add]

/-- A text is cut behind its last line feed. -/
theorem exists_ended_append (s : List Char) : ∃ u v, Ended u ∧ '\n' ∉ v ∧ s = u ++ v := by
  induction s with
  | nil => exact ⟨[], [], .inl rfl, by simp, rfl⟩
  | cons c s ih =>
    obtain ⟨u, v, hu, hv, hs⟩ := ih
    by_cases hc : c = '\n'
    · refine ⟨c :: u, v, ?_, hv, by rw [hs]; rfl⟩
      rcases hu with rfl | ⟨w, rfl⟩
      · exact .inr ⟨[], by rw [hc]; rfl⟩
      · exact .inr ⟨c :: w, rfl⟩
    · rcases hu with rfl | ⟨w, rfl⟩
      · exact ⟨[], c :: v, .inl rfl, by simp [hv, Ne.symm hc], by rw [hs]; rfl⟩
      · exact ⟨c :: (w ++ ['\n']), v, .inr ⟨c :: w, rfl⟩, hv, by rw [hs]; rfl⟩

end ShapeBindings.Text
