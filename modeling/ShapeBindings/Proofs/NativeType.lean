import ShapeBindings.NativeType

/-!
# The words of a type

* `words_intercalate`: words that are written with blanks between them are read back;
* `normalizeType_intercalate`: the normal spelling of a type is made of its words;
* `normalizeType_normalizeType`: a normal spelling is its own normal spelling.
-/

namespace ShapeBindings

open Text

namespace Text

/-- A run of characters that are not blank. -/
def IsRun (w : List Char) : Prop := w ≠ [] ∧ ∀ c ∈ w, isBlank c = false

theorem words_singleton (c : Char) : words [c] = if isBlank c then [] else [[c]] := by rfl

theorem words_cons_cons (c d : Char) (s : List Char) :
    words (c :: d :: s) =
      if isBlank c then words (d :: s)
      else if isBlank d then [c] :: words (d :: s)
      else
        match words (d :: s) with
        | [] => [[c]]
        | w :: ws => (c :: w) :: ws := by rfl

theorem words_cons_of_blank {c : Char} (hc : isBlank c = true) (s : List Char) : words (c :: s) = words s := by
  cases s with
  | nil => exact if_pos hc
  | cons d s => exact if_pos hc

theorem words_run_append {w s : List Char} (hw : IsRun w) (hs : ∀ c ∈ s.head?, isBlank c = true) :
    words (w ++ s) = w :: words s := by
  obtain ⟨hne, hw⟩ := hw
  induction w with
  | nil => exact absurd rfl hne
  | cons c w ih =>
    have hc := hw c List.mem_cons_self
    cases w with
    | nil =>
      cases s with
      | nil => rw [List.append_nil, words_singleton, if_neg (by simp [hc])]; rfl
      | cons d s =>
        have hd : isBlank d = true := hs d rfl
        rw [List.singleton_append, words_cons_cons]
        simp [hc, hd]
    | cons d w =>
      have hd : isBlank d = false := hw d (by simp)
      have h := ih (by simp) fun e he => hw e (List.mem_cons_of_mem _ he)
      rw [List.cons_append] at h
      rw [List.cons_append, List.cons_append, words_cons_cons, h]
      simp [hc, hd]

/-- Words with one blank between them. -/
theorem words_intercalate {ws : List (List Char)} (h : ∀ w ∈ ws, IsRun w) : words ([' '].intercalate ws) = ws := by
  induction ws with
  | nil => rfl
  | cons w ws ih =>
    have hw := h w List.mem_cons_self
    have ih := ih fun v hv => h v (List.mem_cons_of_mem _ hv)
    by_cases hne : ws = []
    · subst hne
      have hone := words_run_append (s := []) hw (by simp)
      rw [List.append_nil] at hone
      rw [List.intercalate_singleton, hone]
      rfl
    · have hb : isBlank ' ' = true := by decide
      rw [List.intercalate_cons_of_ne_nil hne, List.append_assoc, words_run_append hw (by simpa using hb),
        List.singleton_append, words_cons_of_blank hb, ih]

theorem isRun_cons {c : Char} {w : List Char} (hc : isBlank c = false) (hw : IsRun w) : IsRun (c :: w) :=
  ⟨List.cons_ne_nil c w, List.forall_mem_cons.2 ⟨hc, hw.2⟩⟩

theorem isRun_singleton {c : Char} (hc : isBlank c = false) : IsRun [c] := ⟨List.cons_ne_nil c [], by simpa using hc⟩

theorem IsRun.append {v w : List Char} (hv : IsRun v) (hw : IsRun w) : IsRun (v ++ w) :=
  ⟨by simp [hv.1], fun c hc => (List.mem_append.1 hc).elim (hv.2 c) (hw.2 c)⟩

theorem isRun_of_mem_words {s w : List Char} (h : w ∈ words s) : IsRun w := by
  fun_induction words s generalizing w with
  | case1 => simp at h
  | case2 c s hc ih => exact ih h
  | case3 c hc =>
    obtain rfl := List.mem_singleton.1 h
    exact isRun_singleton (by simpa using hc)
  | case4 c hc d s hd ih =>
    rcases List.mem_cons.1 h with rfl | h
    · exact isRun_singleton (by simpa using hc)
    · exact ih h
  | case5 c hc d s hd hw ih =>
    rw [hw] at h
    obtain rfl := List.mem_singleton.1 h
    exact isRun_singleton (by simpa using hc)
  | case6 c hc d s hd v vs hw ih =>
    rw [hw] at h
    rcases List.mem_cons.1 h with rfl | h
    · exact isRun_cons (by simpa using hc) (ih (hw ▸ List.mem_cons_self))
    · exact ih (hw ▸ List.mem_cons_of_mem v h)

end Text

theorem normalizeType_intercalate {ws : List (List Char)} (h : ∀ w ∈ ws, IsRun w) :
    normalizeType (" ".intercalate (ws.map String.ofList)) = String.ofList (joinTypeWords ws) := by
  have hlist : (" ".intercalate (ws.map String.ofList)).toList = [' '].intercalate ws := by
    simp [String.toList_intercalate, Function.comp_def]
  rw [normalizeType, hlist, words_intercalate h]

/-! ### Normal spellings -/

theorem joinTypeWords_cons (w : List Char) (ws : List (List Char)) :
    joinTypeWords (w :: ws) = w ++ ws.flatMap fun v => if v.head? = some '*' then v else ' ' :: v := rfl

theorem joinTypeWords_cons_star {v : List Char} (hv : v.head? = some '*') (w : List Char) (ws : List (List Char)) :
    joinTypeWords (w :: v :: ws) = joinTypeWords ((w ++ v) :: ws) := by
  simp [joinTypeWords_cons, hv]

theorem joinTypeWords_cons_word {v : List Char} (hv : v.head? ≠ some '*') (w : List Char) (ws : List (List Char)) :
    joinTypeWords (w :: v :: ws) = w ++ ' ' :: joinTypeWords (v :: ws) := by
  simp [joinTypeWords_cons, hv]

/-- A spelling of words is made of other words with one blank between them, stars being part of the words that they are
glued to. -/
theorem exists_glued {w : List Char} {ws : List (List Char)} (hw : IsRun w) (hws : ∀ v ∈ ws, IsRun v) :
    ∃ g gs, g.head? = w.head? ∧ (∀ v ∈ g :: gs, IsRun v) ∧ joinTypeWords (w :: ws) = [' '].intercalate (g :: gs) ∧
      joinTypeWords (g :: gs) = joinTypeWords (w :: ws) := by
  induction ws generalizing w with
  | nil => exact ⟨w, [], rfl, by simpa using hw, by simp [joinTypeWords], rfl⟩
  | cons v ws ih =>
    obtain ⟨hv, hws⟩ := List.forall_mem_cons.1 hws
    by_cases hstar : v.head? = some '*'
    · obtain ⟨g, gs, hhead, hruns, hspell, hjoin⟩ := ih (hw.append hv) hws
      obtain ⟨c, r, rfl⟩ := List.exists_cons_of_ne_nil hw.1
      rw [joinTypeWords_cons_star hstar]
      exact ⟨g, gs, hhead, hruns, hspell, hjoin⟩
    · obtain ⟨g, gs, hhead, hruns, hspell, hjoin⟩ := ih hv hws
      refine ⟨w, g :: gs, rfl, List.forall_mem_cons.2 ⟨hw, hruns⟩, ?_, ?_⟩
      · rw [joinTypeWords_cons_word hstar, hspell, List.intercalate_cons_of_ne_nil (List.cons_ne_nil g gs)]
        simp
      · rw [joinTypeWords_cons_word (hhead ▸ hstar), joinTypeWords_cons_word hstar, hjoin]

theorem normalizeType_normalizeType (type : String) : normalizeType (normalizeType type) = normalizeType type := by
  unfold normalizeType
  rw [String.toList_ofList]
  cases hws : words type.toList with
  | nil => rfl
  | cons w ws =>
    have hruns : ∀ v ∈ w :: ws, IsRun v := fun v hv => isRun_of_mem_words (hws ▸ hv)
    obtain ⟨hw, hrest⟩ := List.forall_mem_cons.1 hruns
    obtain ⟨g, gs, -, hglued, hspell, hjoin⟩ := exists_glued hw hrest
    rw [hspell, words_intercalate hglued, hjoin, hspell]

theorem joinTypeWords_ne_nil {w : List Char} (hw : IsRun w) (ws : List (List Char)) : joinTypeWords (w :: ws) ≠ [] := by
  rw [joinTypeWords_cons, Ne, List.append_eq_nil_iff]
  exact fun h => hw.1 h.1

end ShapeBindings
