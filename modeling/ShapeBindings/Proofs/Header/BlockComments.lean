import ShapeBindings.Proofs.Header.Gaps

/-!
# Block comments as blanks

A block comment on one line becomes as many blanks as it has characters between its delimiters (`blankComments_body`).
So `parse_block_comment_congr_iff`: it can stand for a blank everywhere outside comments, just when it has some.
-/

namespace ShapeBindings.Header

open Text Reader

theorem blankComments_body {c : List Char} (hline : '\n' ∉ c) (hc : ¬ ['*', '/'] <:+: c) (v : List Char) :
    blankComments true (c ++ '*' :: '/' :: v) = List.replicate c.length ' ' ++ blankComments false v := by
  induction c with
  | nil => rfl
  | cons d c ih =>
    rw [List.mem_cons, not_or] at hline
    have hpair : ∀ t, d = '*' → c ++ '*' :: '/' :: v = '/' :: t → False := by
      rintro t rfl ht
      cases c with
      | nil => cases ht
      | cons e c =>
        obtain ⟨rfl, -⟩ := List.cons.inj ht
        exact hc ⟨[], c, rfl⟩
    have hrest : ¬ ['*', '/'] <:+: c := fun h => hc (h.trans (List.infix_cons (List.infix_refl _)))
    rw [List.cons_append, blankComments_cons_of_open hpair, if_neg (Ne.symm hline.1), ih hline.2 hrest,
      List.length_cons, List.replicate_succ, List.cons_append]

/-- A block comment behind a text that ends outside comments. -/
theorem blankComments_append_comment {u c : List Char} (hu : commentOpen false u = false) (hline : '\n' ∉ c)
    (hc : ¬ ['*', '/'] <:+: c) (v : List Char) :
    blankComments false (u ++ '/' :: '*' :: (c ++ '*' :: '/' :: v)) =
      blankComments false u ++ (List.replicate c.length ' ' ++ blankComments false v) := by
  rw [blankComments_append_of_closed hu (by simp), blankComments_slash_star, blankComments_body hline hc]

/-- A section and the marker of a declaration. -/
def bareMarker : String := "LIBFIVE_SECTION(m)\nLIBFIVE_STDLIB"

theorem bareMarker_outside : commentOpen false bareMarker.toList = false ∧ ¬ slashes <:+: lastLine bareMarker.toList :=
  outside_of_slash_not_mem (by simp [bareMarker])

/-- An empty comment joins the marker and the name of a declaration. -/
theorem parse_bareMarker :
    parse "p_" (bareMarker ++ "/*" ++ "" ++ "*/" ++ "f();\n") = .ok ⟨[⟨"m", []⟩]⟩ ∧
      parse "p_" (bareMarker ++ " " ++ "f();\n") = .ok ⟨[⟨"m", [⟨"f", "p_f", "m", [], none⟩]⟩]⟩ := by
  decide +kernel

/-- **A block comment counts as a blank just when it is not empty.**  Where no comment is open, a one-line block comment
and a blank lead to the same table, or to an error on the same line, in every header and for every prefix, unless
nothing stands between the delimiters of the comment. -/
theorem parse_block_comment_congr_iff {c : String} (hline : '\n' ∉ c.toList) (hc : ¬ ['*', '/'] <:+: c.toList) :
    (∀ p u v : String, commentOpen false u.toList = false → ¬ slashes <:+: lastLine u.toList →
      (parse p (u ++ "/*" ++ c ++ "*/" ++ v)).mapError HeaderError.line =
        (parse p (u ++ " " ++ v)).mapError HeaderError.line) ↔ c ≠ "" := by
  constructor
  · rintro h rfl
    have hjoined := h "p_" bareMarker "f();\n" bareMarker_outside.1 bareMarker_outside.2
    rw [parse_bareMarker.1, parse_bareMarker.2] at hjoined
    cases hjoined
  · intro hne p u v hu hslashes
    have hcomment : u ++ "/*" ++ c ++ "*/" ++ v =
        String.ofList (u.toList ++ '/' :: '*' :: (c.toList ++ '*' :: '/' :: v.toList)) := by
      rw [← String.toList_inj]
      simp
    have hblank : u ++ " " ++ v = String.ofList (u.toList ++ ([' '] ++ v.toList)) := by
      rw [← String.toList_inj]
      simp
    have hspace : blankComments false ([' '] ++ v.toList) = [' '] ++ blankComments false v.toList :=
      transparent_of_slash_not_mem (by decide) v.toList
    have hspaces : Blanks (List.replicate c.toList.length ' ') := fun d hd => by
      rw [List.eq_of_mem_replicate hd]
      decide
    have hsome : List.replicate c.toList.length ' ' ≠ [] := by
      rwa [Ne, List.replicate_eq_nil_iff, List.length_eq_zero_iff, String.toList_eq_nil_iff]
    have hfeed : '\n' ∉ List.replicate c.toList.length ' ' := fun h => absurd (List.eq_of_mem_replicate h) (by decide)
    have hanswer : ∀ s, (parse p (String.ofList s)).mapError HeaderError.line =
        answer id (readFrom p 0 {} (blankComments false s)) := mapError_parse id p
    obtain ⟨w, x, hwx, hw, hx, hcode⟩ := exists_blankComments_lastLine hslashes
    rw [hcomment, hblank, hanswer, hanswer, blankComments_append_comment hu hline hc,
      blankComments_append_of_closed hu (by simp), hspace, hwx, List.append_assoc, List.append_assoc]
    refine answer_append_congr hw fun r _ => ?_
    exact answer_gap hx hcode hspaces hsome hfeed (by decide) (by decide) (by decide) _ r _

/-- A declaration that goes on behind the type of its parameter. -/
def openParameter : String := "LIBFIVE_SECTION(m)\nLIBFIVE_STDLIB f(\ntfloat"

theorem parse_block_comment_congr_iff_parameter :
    commentOpen false openParameter.toList = false ∧ ¬ slashes <:+: lastLine openParameter.toList ∧
      ∀ v, (parse "p_" (openParameter ++ "/*" ++ "a radius" ++ "*/" ++ v)).mapError HeaderError.line =
        (parse "p_" (openParameter ++ " " ++ v)).mapError HeaderError.line := by
  have hslash : '/' ∉ openParameter.toList := by simp [openParameter]
  obtain ⟨hu, hslashes⟩ := outside_of_slash_not_mem hslash
  have hline : '\n' ∉ "a radius".toList := by decide
  have hstar : '*' ∉ "a radius".toList := by decide
  have hbody : ¬ ['*', '/'] <:+: "a radius".toList := fun h => hstar (h.subset List.mem_cons_self)
  exact ⟨hu, hslashes, fun v => (parse_block_comment_congr_iff hline hbody).2 (by decide) "p_" _ v hu hslashes⟩

/-- An empty comment joins a marker and a name, and the declaration is lost. -/
theorem empty_comment_loses_declaration :
    commentOpen false bareMarker.toList = false ∧ ¬ slashes <:+: lastLine bareMarker.toList ∧
      parse "p_" (bareMarker ++ "/*" ++ "" ++ "*/" ++ "f();\n") = .ok ⟨[⟨"m", []⟩]⟩ ∧
      parse "p_" (bareMarker ++ " " ++ "f();\n") = .ok ⟨[⟨"m", [⟨"f", "p_f", "m", [], none⟩]⟩]⟩ :=
  ⟨bareMarker_outside.1, bareMarker_outside.2, parse_bareMarker.1, parse_bareMarker.2⟩

end ShapeBindings.Header
