import ShapeBindings.Proofs.Header.Comments
import ShapeBindings.Proofs.Header.Outline

/-!
# What the readers see of a layout

* `Layout.transparent`: no block comment opens in a layout;
* `Stripped x code remarks`: what the lines of `x` hold before and after two slashes.  Stripping a list of tokens leaves
  the same tokens, and its documentation as the remarks (`Spelled.exists_stripsTo`);
* `map_tokens_splitOn_of_spelled`: a list without documentation is cut at the commas into the tokens it is made of.
-/

namespace ShapeBindings.Header

open Text

/-! ### Code and remarks -/

/-- A part of a line that no comment or semicolon interrupts. -/
def Plain (a : List Char) : Prop := '\n' ∉ a ∧ '/' ∉ a ∧ ';' ∉ a

instance (a : List Char) : Decidable (Plain a) := by unfold Plain; infer_instance

/-- `Stripped x code remarks`: without its line comments the text `x` is `code`, and the comments are `remarks`. -/
inductive Stripped : List Char → List Char → List (List Char) → Prop
  | last {a} (ha : Plain a) : Stripped a a []
  | line {a x code remarks} (ha : Plain a) (hx : Stripped x code remarks) :
      Stripped (a ++ '\n' :: x) (a ++ '\n' :: code) remarks
  | remark {a y x code remarks} (ha : Plain a) (hy : '\n' ∉ y) (hne : trim y ≠ []) (hx : Stripped x code remarks) :
      Stripped (a ++ '/' :: '/' :: (y ++ '\n' :: x)) (a ++ '\n' :: code) (trim y :: remarks)

theorem plain_nil : Plain [] := by decide

theorem plain_append {a b : List Char} : Plain (a ++ b) ↔ Plain a ∧ Plain b := by
  simp only [Plain, List.mem_append, not_or]
  constructor
  · rintro ⟨⟨h1, h2⟩, ⟨h3, h4⟩, h5, h6⟩
    exact ⟨⟨h1, h3, h5⟩, h2, h4, h6⟩
  · rintro ⟨⟨h1, h3, h5⟩, h2, h4, h6⟩
    exact ⟨⟨h1, h2⟩, ⟨h3, h4⟩, h5, h6⟩

theorem plain_blanks {a : List Char} (ha : Blanks a) (hn : '\n' ∉ a) : Plain a :=
  ⟨hn, ha.not_mem (by decide), ha.not_mem (by decide)⟩

theorem plain_identifier {name : String} (h : isIdentifier name = true) : Plain name.toList :=
  ⟨not_mem_of_isIdentifier h (by decide), not_mem_of_isIdentifier h (by decide),
    not_mem_of_isIdentifier h (by decide)⟩

theorem Stripped.cons {c : Char} {x code : List Char} {remarks : List (List Char)} (hs : c ≠ '/') (hc : c ≠ ';')
    (h : Stripped x code remarks) : Stripped (c :: x) (c :: code) remarks := by
  by_cases hn : c = '\n'
  · subst hn
    exact .line plain_nil h
  · have hplain : Plain [c] := by simp [Plain, Ne.symm hn, Ne.symm hs, Ne.symm hc]
    cases h with
    | last ha => exact .last (plain_append.2 ⟨hplain, ha⟩)
    | line ha hx => exact .line (plain_append.2 ⟨hplain, ha⟩) hx
    | remark ha hy hne hx => exact .remark (plain_append.2 ⟨hplain, ha⟩) hy hne hx

/-- `StripsTo ds s c`: in every text, stripping replaces a part `s` by `c` and leaves the remarks `ds`. -/
def StripsTo (ds : List (List Char)) (s c : List Char) : Prop :=
  ∀ ⦃x code remarks⦄, Stripped x code remarks → Stripped (s ++ x) (c ++ code) (ds ++ remarks)

theorem StripsTo.append {ds es : List (List Char)} {s t c d : List Char} (hs : StripsTo ds s c)
    (ht : StripsTo es t d) : StripsTo (ds ++ es) (s ++ t) (c ++ d) := by
  intro x code remarks h
  rw [List.append_assoc, List.append_assoc, List.append_assoc]
  exact hs (ht h)

theorem stripsTo_self {a : List Char} (hs : '/' ∉ a) (hc : ';' ∉ a) : StripsTo [] a a := by
  intro x code remarks h
  induction a with
  | nil => exact h
  | cons c a ih =>
    rw [List.mem_cons, not_or] at hs hc
    exact (ih hs.2 hc.2).cons (Ne.symm hs.1) (Ne.symm hc.1)

theorem stripsTo_blanks {a : List Char} (ha : Blanks a) : StripsTo [] a a :=
  stripsTo_self (ha.not_mem (by decide)) (ha.not_mem (by decide))

theorem trim_docLine {d b : List Char} (hd : IsDocLine d) (hb : Blanks b) : trim (' ' :: (d ++ b)) = d := by
  have hs : Blanks [' '] := by decide
  have h : ' ' :: (d ++ b) = [' '] ++ (d ++ b) := rfl
  rw [h, trim_blanks_append hs, trim_append_blanks _ hb, hd.trim_eq]

theorem DocLines.exists_stripsTo {ds : List (List Char)} {s : List Char} (h : DocLines ds s)
    (hd : ∀ d ∈ ds, IsDocLine d) : ∃ c, Blanks c ∧ StripsTo ds s c := by
  induction h with
  | blanks ha => exact ⟨_, ha, stripsTo_blanks ha⟩
  | @cons d a b ds s ha hb hline _ ih =>
    obtain ⟨c, hc, hs⟩ := ih fun e he => hd e (List.mem_cons_of_mem _ he)
    have hd := hd d List.mem_cons_self
    have htrim := trim_docLine hd hb
    have hn : Blanks ['\n'] := by decide
    refine ⟨a ++ ('\n' :: c), blanks_append.2 ⟨ha, blanks_append.2 ⟨hn, hc⟩⟩, (stripsTo_blanks ha).append ?_⟩
    intro x code remarks hx
    have hy : '\n' ∉ ' ' :: (d ++ b) := by simp [hd.newline, hline]
    have := Stripped.remark plain_nil hy (by rw [htrim]; exact hd.ne_nil) (hs hx)
    rw [htrim] at this
    simpa using this

theorem Gap.exists_stripsTo {ds : List (List Char)} {g : List Char} (h : Gap ds g) (hd : ∀ d ∈ ds, IsDocLine d) :
    ∃ c, Blanks c ∧ (g ≠ [] → c ≠ []) ∧ StripsTo ds g c := by
  cases h with
  | blanks ha => exact ⟨_, ha, id, stripsTo_blanks ha⟩
  | @lines a _ s ha hs =>
    obtain ⟨c, hc, h⟩ := hs.exists_stripsTo hd
    have hn : Blanks ['\n'] := by decide
    refine ⟨a ++ ('\n' :: c), blanks_append.2 ⟨ha, blanks_append.2 ⟨hn, hc⟩⟩, by simp, (stripsTo_blanks ha).append ?_⟩
    exact (stripsTo_blanks hn).append h

/-! ### Token lists -/

/-- A token between the parentheses of a declaration. -/
def IsListToken (t : List Char) : Prop := t = [','] ∨ IsTypeToken t

theorem IsListToken.not_mem {t : List Char} (ht : IsListToken t) : '/' ∉ t ∧ ';' ∉ t := by
  obtain rfl | rfl | ⟨-, ht⟩ := ht
  · decide
  · decide
  · exact ⟨fun h => (ht _ h).2 (by decide), fun h => (ht _ h).2 (by decide)⟩

/-- Stripping leaves the tokens of a list as they are. -/
theorem Spelled.exists_stripsTo {after : Bool} {ts ds : List (List Char)} {s : List Char} (h : Spelled after ts ds s)
    (ht : ∀ t ∈ ts, IsListToken t) (hd : ∀ d ∈ ds, IsDocLine d) :
    ∃ c, Spelled after ts [] c ∧ StripsTo ds s c := by
  induction h with
  | gap hg =>
    obtain ⟨c, hc, -, h⟩ := hg.exists_stripsTo hd
    exact ⟨c, .gap (.blanks hc), h⟩
  | @token after t ts ds es g s hg hne _ ih =>
    obtain ⟨c, hc, hgc, h1⟩ := hg.exists_stripsTo fun d hm => hd d (List.mem_append_left _ hm)
    obtain ⟨e, he, h2⟩ := ih (fun u hu => ht u (List.mem_cons_of_mem _ hu))
      fun d hm => hd d (List.mem_append_right _ hm)
    obtain ⟨h3, h4⟩ := (ht t List.mem_cons_self).not_mem
    refine ⟨c ++ (t ++ e), .token (.blanks hc) (fun ha hw => hgc (hne ha hw)) he, h1.append ?_⟩
    exact (stripsTo_self h3 h4).append h2

theorem Gap.blanks_of_nil {g : List Char} (h : Gap [] g) : Blanks g := by
  cases h with
  | blanks ha => exact ha
  | lines ha hs =>
    cases hs with
    | blanks hb => exact blanks_append.2 ⟨ha, blanks_cons.2 ⟨by decide, hb⟩⟩

/-- After a word a list goes on with a blank, a star or a comma. -/
theorem Spelled.head_of_word {ts : List (List Char)} {s : List Char} (h : Spelled true ts [] s) :
    ∀ c ∈ s.head?, isBlank c = true ∨ c = '*' ∨ c = ',' := by
  generalize hds : ([] : List (List Char)) = ds at h
  cases h with
  | gap hg =>
    subst hds
    intro c hc
    exact .inl (hg.blanks_of_nil c (List.mem_of_mem_head? hc))
  | @token _ t ts ds es g s hg hne _ =>
    obtain ⟨rfl, -⟩ := List.append_eq_nil_iff.1 hds.symm
    intro c hc
    cases g with
    | cons d g =>
      obtain rfl : d = c := by simpa using hc
      exact .inl (hg.blanks_of_nil d List.mem_cons_self)
    | nil =>
      have hw : isWord t = false := by
        rw [← Bool.not_eq_true]
        exact fun hw => hne rfl hw rfl
      obtain rfl | rfl : t = ['*'] ∨ t = [','] := by
        rw [isWord, decide_eq_false_iff_not, not_and_or, not_not, not_not] at hw
        exact hw
      · exact .inr (.inl (by simpa using hc.symm))
      · exact .inr (.inr (by simpa using hc.symm))

/-- The first piece of such a text does not start with a word. -/
theorem startsWord_of_splitOn {s u : List Char} {us : List (List Char)}
    (h : ∀ c ∈ s.head?, isBlank c = true ∨ c = '*' ∨ c = ',') (hs : s.splitOn ',' = u :: us) :
    startsWord u = false := by
  cases s with
  | nil =>
    rw [List.splitOn_nil] at hs
    obtain ⟨rfl, -⟩ := List.cons.inj hs
    rfl
  | cons c s =>
    rw [List.splitOn_cons_eq_if_modifyHead] at hs
    by_cases hc : c = ','
    · rw [if_pos (by simpa using hc)] at hs
      obtain ⟨rfl, -⟩ := List.cons.inj hs
      rfl
    · rw [if_neg (by simpa using hc)] at hs
      obtain ⟨v, vs, hv⟩ := List.exists_cons_of_ne_nil (List.splitOn_ne_nil ',' s)
      rw [hv] at hs
      obtain ⟨rfl, -⟩ := List.cons.inj hs
      have hc := (h c rfl).imp_right (Or.resolve_right · hc)
      simp only [startsWord, isWordChar, Bool.and_eq_false_iff, Bool.not_eq_false', bne_eq_false_iff_eq]
      exact hc

/-- A list without documentation is cut at the commas into the tokens it is made of. -/
theorem map_tokens_splitOn_of_spelled {after : Bool} {ts : List (List Char)} {s : List Char}
    (h : Spelled after ts [] s) (ht : ∀ t ∈ ts, IsListToken t) :
    (s.splitOn ',').map tokens = ts.splitOn [','] := by
  generalize hds : ([] : List (List Char)) = ds at h
  induction h with
  | gap hg =>
    subst hds
    have hb := hg.blanks_of_nil
    rw [List.splitOn_eq_singleton (hb.not_mem (by decide)), List.map_singleton, tokens_blanks hb, List.splitOn_nil]
  | @token after t ts ds es g s hg _ hs ih =>
    obtain ⟨rfl, rfl⟩ := List.append_eq_nil_iff.1 hds.symm
    have hb := hg.blanks_of_nil
    have ih := ih (fun u hu => ht u (List.mem_cons_of_mem _ hu)) rfl
    have hgc : ',' ∉ g := hb.not_mem (by decide)
    by_cases htc : t = [',']
    · subst htc
      rw [List.singleton_append, List.splitOn_append_cons_self_of_not_mem hgc, List.map_cons, tokens_blanks hb, ih,
        List.splitOn_cons_eq_if_modifyHead]
      rfl
    · have htype : IsTypeToken t := (ht t List.mem_cons_self).resolve_left htc
      have hmem : ',' ∉ t := by
        obtain rfl | ⟨-, hw⟩ := htype
        · decide
        · exact fun h => (hw _ h).2 (by decide)
      obtain ⟨u, us, h1, h2⟩ := splitOn_append_of_not_mem hmem s
      obtain ⟨v, vs, h3, h4⟩ := splitOn_append_of_not_mem hgc (t ++ s)
      obtain ⟨rfl, rfl⟩ := List.cons.inj (h3.symm.trans h2)
      have htokens : tokens (g ++ (t ++ u)) = t :: tokens u := by
        rw [tokens_blanks_append hb]
        obtain rfl | ⟨hne, hw⟩ := htype
        · exact tokens_star u
        · have hword : isWord t = true := by
            rw [isWord, decide_eq_true_iff]
            refine ⟨?_, htc⟩
            rintro rfl
            exact (hw '*' (by simp)).2 (by decide)
          refine tokens_word_append (fun c hc => ?_) hne ?_
          · exact isWordChar_iff.2 ⟨(hw c hc).1, fun h => (hw c hc).2 (by simp [h])⟩
          · exact startsWord_of_splitOn (hword ▸ hs).head_of_word h1
      rw [h4, List.map_cons, htokens, List.splitOn_cons_eq_if_modifyHead, ← ih, h1]
      simp [htc]

/-! ### Block comments -/

theorem transparent_blanks {a : List Char} (ha : Blanks a) : Transparent a :=
  transparent_of_slash_not_mem (ha.not_mem (by decide))

theorem transparent_identifier {name : String} (h : isIdentifier name = true) : Transparent name.toList :=
  transparent_of_slash_not_mem (not_mem_of_isIdentifier h (by decide))

theorem transparent_lineComment : Transparent "// ".toList := by
  intro t
  have h1 : blankComments false ('/' :: '/' :: ' ' :: t) = '/' :: blankComments false ('/' :: ' ' :: t) :=
    blankComments_cons_of_closed (by simp)
  have h2 : blankComments false ('/' :: ' ' :: t) = '/' :: blankComments false (' ' :: t) :=
    blankComments_cons_of_closed (by simp)
  exact h1.trans (by rw [h2, blankComments_cons_of_ne (by decide)]; rfl)

theorem DocLines.transparent {ds : List (List Char)} {s : List Char} (h : DocLines ds s)
    (hd : ∀ d ∈ ds, IsDocLine d) : Transparent s := by
  induction h with
  | blanks ha => exact transparent_blanks ha
  | @cons d a b ds s ha hb _ _ ih =>
    have hs := ih fun e he => hd e (List.mem_cons_of_mem _ he)
    have hend : Transparent (b ++ '\n' :: s) := (transparent_blanks hb).append (hs.cons (by decide))
    have hhead : (b ++ '\n' :: s).head? ≠ some '*' := by
      cases b with
      | nil => simp
      | cons c b => simpa using isBlank_ne (hb c List.mem_cons_self) (by decide)
    refine (transparent_blanks ha).append (transparent_lineComment.append ?_)
    exact hend.append_of_no_opening (hd d List.mem_cons_self).comment (by simp) hhead

theorem Gap.transparent {ds : List (List Char)} {g : List Char} (h : Gap ds g) (hd : ∀ d ∈ ds, IsDocLine d) :
    Transparent g := by
  cases h with
  | blanks ha => exact transparent_blanks ha
  | lines ha hs => exact (transparent_blanks ha).append ((hs.transparent hd).cons (by decide))

theorem Spelled.transparent {after : Bool} {ts ds : List (List Char)} {s : List Char} (h : Spelled after ts ds s)
    (ht : ∀ t ∈ ts, IsListToken t) (hd : ∀ d ∈ ds, IsDocLine d) : Transparent s := by
  induction h with
  | gap hg => exact hg.transparent hd
  | @token after t ts ds es g s hg _ _ ih =>
    have hs := ih (fun u hu => ht u (List.mem_cons_of_mem _ hu)) fun d hm => hd d (List.mem_append_right _ hm)
    have htok := transparent_of_slash_not_mem (ht t List.mem_cons_self).not_mem.1
    exact (hg.transparent fun d hm => hd d (List.mem_append_left _ hm)).append (htok.append hs)

end ShapeBindings.Header
