import ShapeBindings.Proofs.Header.Reading

/-!
# Line comments outside declarations

Block comments are blanked before line comments are looked for, so a line comment can open a block comment.  That is
the only way in which its text matters: `parse_line_comment_congr_iff` says that two line comments after a text `u`
can be exchanged, whatever follows them, exactly when both or neither of them leaves a block comment open (or `u` is
wrong already).
-/

namespace ShapeBindings.Header

open Text Reader

/-- The code of a line that starts with a slash is empty or starts with it. -/
theorem head?_code_ofText_slash (n : Nat) (t : List Char) :
    (Line.ofText n ('/' :: t)).code = [] ∨ ∃ s, (Line.ofText n ('/' :: t)).code = '/' :: s := by
  unfold Line.ofText
  split
  · exact .inr ⟨t, rfl⟩
  · next code after h =>
    cases code with
    | nil => exact .inl rfl
    | cons c s =>
      have hc := (List.cons.inj (eq_of_cutAt h)).1
      exact .inr ⟨s, by rw [← hc]⟩

theorem head?_trim_slash (s : List Char) : (trim ('/' :: s)).head? = some '/' := by
  rw [trim, trimStart_cons_of_not_blank (by decide), trimEnd_cons_of_not_blank (by decide)]
  rfl

/-- Outside declarations a line that starts with a slash changes nothing. -/
theorem readLine_slash {r : Reader} (hr : r.pending = none) (p : String) (n : Nat) (t : List Char) :
    r.readLine p (.ofText n ('/' :: t)) = .ok r := by
  rw [readLine_eq]
  rcases head?_code_ofText_slash n t with h | ⟨s, h⟩
  · rw [h]
    exact readRest_blanks hr blanks_nil
  · rw [h]
    have hh : (trim ('/' :: s)).head? ≠ some 'L' := by rw [head?_trim_slash]; decide
    exact readRest_skip hr (opensDeclaration_eq_false hh) (after?_sectionMarker_eq_none hh) (.inl rfl)

theorem exists_chomp_slash (t : List Char) : ∃ s, chomp ('/' :: t) = '/' :: s := by
  cases t with
  | nil => exact ⟨[], by decide⟩
  | cons d t => exact ⟨chomp (d :: t), rfl⟩

theorem exists_blankComments_slashes (c : List Char) :
    ∃ t, blankComments false ('/' :: '/' :: c) = '/' :: t :=
  ⟨blankComments false ('/' :: c), blankComments_cons_of_closed (by simp)⟩

/-- A text that does not end in a declaration leaves none open. -/
theorem pending_eq_none {p : String} {u : List Char}
    (hd : ∀ n, parse p (String.ofList u) ≠ .error ⟨n, .unterminated⟩) {r : Reader}
    (h : readFrom p 0 {} (blankComments false u) = .ok r) : r.pending = none := by
  cases hp : r.pending with
  | none => rfl
  | some d =>
    refine absurd ?_ (hd d.line)
    rw [parse_eq, h, ok_bind]
    simp [finish, hp]

/-- What follows a comment line is read from where the text before it leaves off. -/
theorem parse_comment_line {p : String} {u c : List Char} (hu : Ended u) (ho : commentOpen false u = false)
    (hd : ∀ n, parse p (String.ofList u) ≠ .error ⟨n, .unterminated⟩) (hc : '\n' ∉ c) (v : List Char) :
    parse p (String.ofList (u ++ ('/' :: '/' :: c ++ '\n' :: v))) =
      (readFrom p 0 {} (blankComments false u)).bind fun r =>
        (readFrom p ((lines (blankComments false u)).length + 1) r
          (blankComments (commentOpen false ('/' :: '/' :: c)) v)).bind finish := by
  obtain ⟨t, ht⟩ := exists_blankComments_slashes c
  have hn : '\n' ∉ '/' :: t := by
    rw [← ht, newline_mem_blankComments]
    simp [hc]
  obtain ⟨s, hs⟩ := exists_chomp_slash t
  rw [parse_eq, blankComments_append hu, ho, blankComments_append_newline, ht,
    readFrom_append (ended_blankComments hu false)]
  cases h : readFrom p 0 {} (blankComments false u) with
  | error e => rfl
  | ok r =>
    have hr := pending_eq_none hd h
    rw [ok_bind, ok_bind, readFrom_line hn, hs, readLine_slash hr, ok_bind, Nat.zero_add]

/-- A section marker alone on the last line is an error, unless a block comment hides it. -/
theorem readFrom_sectionMarker {r : Reader} (hr : r.pending = none) (p : String) (n : Nat) (b : Bool) :
    (readFrom p n r (blankComments b sectionMarker.toList)).bind finish =
      if b then .ok r.table else .error ⟨n + 1, .malformedSection⟩ := by
  cases b with
  | true =>
    have hs : blankComments true sectionMarker.toList = List.replicate 15 ' ' := by decide
    have hb : Blanks (List.replicate 15 ' ') := by decide
    rw [hs, readFrom_last (by decide) (by decide), Line.ofText_of_slash_not_mem (by decide), readLine_eq,
      readRest_blanks hr hb, ok_bind]
    simp [finish, hr]
  | false =>
    have hs : blankComments false sectionMarker.toList = sectionMarker.toList := by decide
    have ha : after? sectionMarker.toList (trim sectionMarker.toList) = some [] := by decide
    rw [hs, readFrom_last (by decide) (by decide), Line.ofText_of_slash_not_mem (by decide), readLine_eq,
      readRest_section hr ha]
    rfl

/-- **Two line comments can be exchanged** before every text just when they leave a block comment open alike, unless
the text before them is wrong already. -/
theorem parse_line_comment_congr_iff (p : String) {u c₁ c₂ : String} (hu : Ended u.toList)
    (ho : commentOpen false u.toList = false) (hd : ∀ n, parse p u ≠ .error ⟨n, .unterminated⟩)
    (h₁ : '\n' ∉ c₁.toList) (h₂ : '\n' ∉ c₂.toList) :
    (∀ v, parse p (u ++ "//" ++ c₁ ++ "\n" ++ v) = parse p (u ++ "//" ++ c₂ ++ "\n" ++ v)) ↔
      (∃ e, parse p u = .error e) ∨
        commentOpen false ("//" ++ c₁).toList = commentOpen false ("//" ++ c₂).toList := by
  have htext : ∀ c v : String, u ++ "//" ++ c ++ "\n" ++ v =
      String.ofList (u.toList ++ ('/' :: '/' :: c.toList ++ '\n' :: v.toList)) := by
    intro c v
    rw [← String.toList_inj]
    simp
  have hlist : ∀ c : String, ("//" ++ c).toList = '/' :: '/' :: c.toList := fun c => by simp
  have hparse : parse p u = (readFrom p 0 {} (blankComments false u.toList)).bind finish := by
    rw [← parse_eq, String.ofList_toList]
  have hd' : ∀ n, parse p (String.ofList u.toList) ≠ .error ⟨n, .unterminated⟩ := by
    rwa [String.ofList_toList]
  simp only [htext, hlist, parse_comment_line hu ho hd' h₁, parse_comment_line hu ho hd' h₂, hparse]
  cases h : readFrom p 0 {} (blankComments false u.toList) with
  | error e =>
    simp only [error_bind, implies_true, true_iff]
    exact .inl ⟨e, rfl⟩
  | ok r =>
    have hr := pending_eq_none hd' h
    have hok : ¬ ∃ e, r.finish = .error e := by simp [finish, hr]
    simp only [ok_bind, hok, false_or]
    constructor
    · intro hv
      -- a section marker that a comment hides or not tells the two apart
      have hs := hv sectionMarker
      rw [readFrom_sectionMarker hr, readFrom_sectionMarker hr] at hs
      generalize commentOpen false ('/' :: '/' :: c₁.toList) = b₁ at hs ⊢
      generalize commentOpen false ('/' :: '/' :: c₂.toList) = b₂ at hs ⊢
      cases b₁ <;> cases b₂ <;> simp_all
    · intro he v
      rw [he]

/-- After a section, a comment that opens and closes a block comment can be replaced by nothing. -/
theorem parse_line_comment_congr_section :
    Ended "LIBFIVE_SECTION(m)\n".toList ∧ commentOpen false "LIBFIVE_SECTION(m)\n".toList = false ∧
      (∀ n, parse "p_" "LIBFIVE_SECTION(m)\n" ≠ .error ⟨n, .unterminated⟩) ∧
      ∀ v, parse "p_" ("LIBFIVE_SECTION(m)\n" ++ "//" ++ " a; /* b */ (" ++ "\n" ++ v) =
        parse "p_" ("LIBFIVE_SECTION(m)\n" ++ "//" ++ "" ++ "\n" ++ v) := by
  have hu : Ended "LIBFIVE_SECTION(m)\n".toList := .inr ⟨"LIBFIVE_SECTION(m)".toList, by decide⟩
  have ho : commentOpen false "LIBFIVE_SECTION(m)\n".toList = false := by decide
  have hd : ∀ n, parse "p_" "LIBFIVE_SECTION(m)\n" ≠ .error ⟨n, .unterminated⟩ := by
    have : parse "p_" "LIBFIVE_SECTION(m)\n" = .ok ⟨[⟨"m", []⟩]⟩ := by decide +kernel
    simp [this]
  exact ⟨hu, ho, hd, (parse_line_comment_congr_iff "p_" hu ho hd (by decide) (by decide)).2 (.inr (by decide))⟩

/-- A line comment can hide the declarations after it. -/
theorem line_comment_hides_declarations :
    parse "p_" ("" ++ "//" ++ " /*" ++ "\n" ++ "LIBFIVE_SECTION(m)\nLIBFIVE_STDLIB f();\n") ≠
      parse "p_" ("" ++ "//" ++ "" ++ "\n" ++ "LIBFIVE_SECTION(m)\nLIBFIVE_STDLIB f();\n") := by
  decide +kernel

end ShapeBindings.Header
