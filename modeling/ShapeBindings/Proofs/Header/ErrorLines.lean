import ShapeBindings.Proofs.Header.Reading

/-!
# The lines that errors point to

Reading keeps a declaration that has not ended, and blames an error, on one of the lines that were read
(`withinLines_readLines`), so every error points to a line of its text (`line_of_parse_eq_error`).
-/

namespace ShapeBindings.Header

open Text Reader

/-- The lines that a declaration that has not ended, or an error, points to are among the first `n`. -/
def WithinLines (n : Nat) : Except HeaderError Reader → Prop
  | .ok r => ∀ d ∈ r.pending, 1 ≤ d.line ∧ d.line ≤ n
  | .error e => 1 ≤ e.line ∧ e.line ≤ n

variable {p : String} {n : Nat} {r : Reader}

theorem WithinLines.mono {x : Except HeaderError Reader} (h : WithinLines n x) {m : Nat} (hm : n ≤ m) :
    WithinLines m x := by
  cases x with
  | ok r => exact fun d hd => ⟨(h d hd).1, (h d hd).2.trans hm⟩
  | error e => exact ⟨h.1, h.2.trans hm⟩

theorem withinLines_openSection (hn : 1 ≤ n) (hr : WithinLines n (.ok r)) (text : List Char) :
    WithinLines n (r.openSection n text) := by
  cases h : r.openSection n text with
  | ok r' =>
    obtain ⟨name, -, rfl⟩ := exists_of_openSection h
    exact hr
  | error e =>
    unfold openSection at h
    dsimp only at h
    split at h
    · cases h
      exact ⟨hn, le_rfl⟩
    · split at h
      · cases h
        exact ⟨hn, le_rfl⟩
      · cases h

theorem withinLines_close {d : OpenDeclaration} (hd : 1 ≤ d.line ∧ d.line ≤ n) : WithinLines n (r.close p d) := by
  unfold close
  split
  · exact hd
  · split
    · exact fun d hd => absurd hd (by simp)
    · exact hd

theorem line_of_continuation (hn : 1 ≤ n) (hr : WithinLines n (.ok r)) {trimmed : Bool} {piece code : List Char}
    {x : Continuation} (h : r.continuation n trimmed piece code = some x) :
    1 ≤ x.declaration.line ∧ x.declaration.line ≤ n := by
  unfold continuation at h
  split at h
  · next d hd =>
    cases h
    exact hr d hd
  · split at h
    · cases h
      exact ⟨hn, le_rfl⟩
    · cases h

theorem withinLines_readPieces (hn : 1 ≤ n) (hr : WithinLines n (.ok r)) (pieces : List (List Char))
    (remark : Option (List Char)) (ended trimmed : Bool) :
    WithinLines n (readPieces p n pieces r remark ended trimmed) := by
  induction pieces generalizing r remark ended trimmed with
  | nil => exact hr
  | cons piece later ih =>
    rw [readPieces]
    dsimp only
    split
    · next x hx =>
      have hline := line_of_continuation hn hr hx
      split
      · rintro _ ⟨⟩
        exact hline
      · have hclose := withinLines_close (p := p) (r := r) (d := x.declaration.extend x.piece remark) hline
        cases hc : r.close p (x.declaration.extend x.piece remark) with
        | ok r' =>
          rw [hc] at hclose
          exact ih hclose none true x.trimmed
        | error e =>
          rw [hc] at hclose
          exact hclose
    · split
      · exact withinLines_openSection hn hr _
      · split
        · exact ⟨hn, le_rfl⟩
        · exact hr

theorem withinLines_readLines (hr : WithinLines n (.ok r)) (ls : List (List Char)) :
    WithinLines (n + ls.length) ((numbered n ls).foldlM (Reader.readLine p) r) := by
  induction ls generalizing n r with
  | nil => exact hr
  | cons l ls ih =>
    have hnumber : (Line.ofText (n + 1) l).number = n + 1 := Line.number_ofText (n + 1) l
    have hread : WithinLines (n + 1) (r.readLine p (.ofText (n + 1) l)) := by
      rw [readLine, hnumber]
      exact withinLines_readPieces (by omega) (hr.mono (by omega)) _ _ false false
    have hlength : n + (l :: ls).length = n + 1 + ls.length := by
      rw [List.length_cons]
      omega
    rw [numbered_cons, List.foldlM_cons, hlength]
    cases h : r.readLine p (.ofText (n + 1) l) with
    | ok r' =>
      rw [h] at hread
      exact ih hread
    | error e =>
      rw [h] at hread
      exact hread.mono (by omega)

/-! ### Whole headers -/

/-- An error points to a line of the text. -/
theorem line_of_parse_eq_error {p : String} {s : List Char} {e : HeaderError} (h : parse p (String.ofList s) = .error e) :
    1 ≤ e.line ∧ e.line ≤ (lines s).length := by
  have hstart : WithinLines 0 (.ok {}) := fun d hd => absurd hd (by simp)
  have hread : WithinLines (lines s).length (readFrom p 0 {} (blankComments false s)) :=
    (withinLines_readLines hstart _).mono ((Nat.zero_add _).le.trans (length_lines_blankComments_le s))
  rw [parse_eq] at h
  rcases bind_eq_error_iff.1 h with h | ⟨r, hr, h⟩
  · rw [h] at hread
    exact hread
  · rw [hr] at hread
    unfold finish at h
    split at h
    · next d hd =>
      cases h
      exact hread d hd
    · cases h

end ShapeBindings.Header
