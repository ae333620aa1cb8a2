import ShapeBindings.Header.Reader
import ShapeBindings.Proofs.Header.Layouts
import ShapeBindings.Proofs.WellFormed

/-!
# What the text of a function states

* `FunctionItem.Sound.stated_eq`: the name, the parameters and the documentation of a function make up its descriptor;
* `ListText.parameters_eq`: every way to write a list of parameters, without its documentation, states these parameters.
-/

namespace ShapeBindings.Header

open Text

/-! ### What a function states -/

theorem Formal.Sound.normalizeType_typeText {f : Formal} (hf : f.Sound) : normalizeType f.typeText = f.spelling := by
  refine normalizeType_intercalate fun t ht => ?_
  obtain rfl | ⟨hne, h⟩ := hf.token t ht
  · exact ⟨by decide, forall_mem_of_all (by decide)⟩
  · exact ⟨hne, fun c hc => (h c hc).1⟩

theorem intercalate_eq_nil_iff {ds : List (List Char)} (h : ∀ d ∈ ds, d ≠ []) :
    ['\n'].intercalate ds = [] ↔ ds = [] := by
  cases ds with
  | nil => simp
  | cons d ds =>
    obtain ⟨c, d, rfl⟩ := List.exists_cons_of_ne_nil (h d List.mem_cons_self)
    simp

/-- Documentation is trimmed as a whole, for its lines are. -/
theorem trim_intercalate {ds : List (List Char)} (h : ∀ d ∈ ds, trim d = d) (hne : ∀ d ∈ ds, d ≠ []) :
    trim (['\n'].intercalate ds) = ['\n'].intercalate ds := by
  rw [trim_eq_self_iff]
  induction ds with
  | nil => simp
  | cons d ds ih =>
    have hds : ∀ e ∈ ds, trim e = e := fun e he => h e (List.mem_cons_of_mem d he)
    have hne' : ∀ e ∈ ds, e ≠ [] := fun e he => hne e (List.mem_cons_of_mem d he)
    obtain ⟨h1, h2⟩ := trim_eq_self_iff.1 (h d List.mem_cons_self)
    obtain ⟨c, d, rfl⟩ := List.exists_cons_of_ne_nil (hne d List.mem_cons_self)
    by_cases hnil : ds = []
    · subst hnil
      rw [List.intercalate_singleton]
      exact ⟨h1, h2⟩
    · have hlast := (intercalate_eq_nil_iff hne').not.2 hnil
      rw [List.intercalate_cons_of_ne_nil hnil, List.getLast?_append, List.getLast?_eq_some_getLast hlast]
      refine ⟨h1, ?_⟩
      rw [Option.some_or, ← List.getLast?_eq_some_getLast hlast]
      exact (ih hds hne').2

theorem FunctionItem.Sound.stated_eq {f : FunctionItem} (hf : f.Sound) (p m : String) {d : OpenDeclaration}
    (hd : d.remarks = f.doc) :
    stated p m d.doc f.name (f.params.map fun q => (q.typeText, q.name)) = f.descriptor p m := by
  have hargs : ((f.params.map fun q => (q.typeText, q.name)).mapIdx fun i q =>
      (⟨q.2, normalizeType q.1, 0 + i⟩ : Argument)) = f.params.mapIdx fun i q => ⟨q.name, q.spelling, i⟩ := by
    rw [List.mapIdx_eq_iff]
    intro i
    rw [List.getElem?_mapIdx, List.getElem?_map]
    cases h : f.params[i]? with
    | none => rfl
    | some q =>
      have hq := (hf.params q (List.mem_of_getElem? h)).normalizeType_typeText
      simp [hq]
  have hdoc : trim d.doc.toList = ['\n'].intercalate f.doc := by
    rw [OpenDeclaration.doc, hd, String.toList_ofList, trim_intercalate (fun d hm => (hf.doc d hm).trim_eq)
      fun d hm => (hf.doc d hm).ne_nil]
  have hempty : (['\n'].intercalate f.doc).isEmpty = true ↔ f.doc = [] := by
    rw [List.isEmpty_iff, intercalate_eq_nil_iff fun d hm => (hf.doc d hm).ne_nil]
  rw [stated, foldl_arg, Descriptor.withDoc, hdoc]
  simp only [hempty, List.length_nil, List.nil_append, hargs]
  rfl

/-! ### Parameter lists -/

theorem mem_listTokens {fs : List Formal} {t : List Char} (h : t ∈ listTokens fs) :
    t = [','] ∨ ∃ f ∈ fs, t ∈ f.tokens := by
  unfold listTokens at h
  induction fs with
  | nil => simp at h
  | cons f fs ih =>
    by_cases hfs : fs = []
    · subst hfs
      rw [List.map_singleton, List.intercalate_singleton] at h
      exact .inr ⟨f, List.mem_cons_self, h⟩
    · rw [List.map_cons, List.intercalate_cons_of_ne_nil (by simpa using hfs), List.mem_append, List.mem_append,
        List.mem_singleton] at h
      rcases h with (h | h) | h
      · exact .inr ⟨f, List.mem_cons_self, h⟩
      · exact .inl h
      · exact (ih h).imp_right fun ⟨g, hg, ht⟩ => ⟨g, List.mem_cons_of_mem _ hg, ht⟩

theorem isTypeToken_of_isIdentifier {name : String} (h : isIdentifier name = true) : IsTypeToken name.toList := by
  refine .inr ⟨toList_ne_nil_of_isIdentifier h, fun c hc => ?_⟩
  refine ⟨isBlank_of_isIdentifierPart (isIdentifierPart_of_mem h hc), fun hm => ?_⟩
  have hpart : ∀ d ∈ ['*', ',', ';', '/'], isIdentifierPart d = false := forall_mem_of_all (by decide)
  exact not_mem_of_isIdentifier h (hpart c hm) hc

theorem isTypeToken_of_mem_tokens {f : Formal} (hf : f.Sound) {t : List Char} (h : t ∈ f.tokens) : IsTypeToken t := by
  rw [Formal.tokens, List.mem_append, List.mem_singleton] at h
  rcases h with h | rfl
  · exact hf.token t h
  · exact isTypeToken_of_isIdentifier hf.name

theorem isListToken_of_mem_listTokens {fs : List Formal} (hf : ∀ f ∈ fs, f.Sound) {t : List Char}
    (h : t ∈ listTokens fs) : IsListToken t :=
  (mem_listTokens h).imp_right fun ⟨f, hm, ht⟩ => isTypeToken_of_mem_tokens (hf f hm) ht

theorem isListToken_void {t : List Char} (h : t ∈ ["void".toList]) : IsListToken t := by
  obtain rfl := List.mem_singleton.1 h
  exact .inr (isTypeToken_of_isIdentifier (by decide))

theorem ListText.exists_stripsTo {fs : List Formal} {ds : List (List Char)} {s : List Char} (h : ListText fs ds s)
    (hf : ∀ f ∈ fs, f.Sound) (hd : ∀ d ∈ ds, IsDocLine d) : ∃ c, ListText fs [] c ∧ StripsTo ds s c := by
  cases h with
  | tokens hs =>
    obtain ⟨c, hc, h⟩ := hs.exists_stripsTo (fun t ht => isListToken_of_mem_listTokens hf ht) hd
    exact ⟨c, .tokens hc, h⟩
  | void hs =>
    obtain ⟨c, hc, h⟩ := hs.exists_stripsTo (fun t ht => isListToken_void ht) hd
    exact ⟨c, .void hc, h⟩

theorem ListText.transparent {fs : List Formal} {ds : List (List Char)} {s : List Char} (h : ListText fs ds s)
    (hf : ∀ f ∈ fs, f.Sound) (hd : ∀ d ∈ ds, IsDocLine d) : Transparent s := by
  cases h with
  | tokens hs => exact hs.transparent (fun t ht => isListToken_of_mem_listTokens hf ht) hd
  | void hs => exact hs.transparent (fun t ht => isListToken_void ht) hd

theorem Spelled.exists_token {after : Bool} {t s : List Char} {ts : List (List Char)}
    (h : Spelled after (t :: ts) [] s) : ∃ g u, Blanks g ∧ Spelled (isWord t) ts [] u ∧ s = g ++ (t ++ u) := by
  generalize hds : ([] : List (List Char)) = ds at h
  cases h with
  | token hg _ hs =>
    obtain ⟨rfl, rfl⟩ := List.append_eq_nil_iff.1 hds.symm
    exact ⟨_, _, hg.blanks_of_nil, hs, rfl⟩

theorem Spelled.blanks {after : Bool} {s : List Char} (h : Spelled after [] [] s) : Blanks s := by
  cases h with
  | gap hg => exact hg.blanks_of_nil

/-- A list without documentation states its parameters. -/
theorem ListText.parameters_eq {fs : List Formal} {s : List Char} (h : ListText fs [] s) (hf : ∀ f ∈ fs, f.Sound) :
    parameters s = .ok (fs.map fun f => (f.typeText, f.name)) := by
  cases h with
  | void hs =>
    obtain ⟨a, u, ha, hu, rfl⟩ := hs.exists_token
    exact parameters_of_void ha hu.blanks
  | tokens hs =>
    by_cases hfs : fs = []
    · subst hfs
      exact parameters_of_blanks (Spelled.blanks hs)
    · refine parameters_eq_ok ?_ (fun f hm => (hf f hm).type_ne_nil) fun f hm => (hf f hm).name
      rw [map_tokens_splitOn_of_spelled hs fun t ht => isListToken_of_mem_listTokens hf ht, listTokens]
      refine List.splitOn_intercalate _ (fun ts hts hmem => ?_) (by simpa using hfs)
      obtain ⟨f, hm, rfl⟩ := List.mem_map.1 hts
      obtain h | ⟨-, h⟩ := isTypeToken_of_mem_tokens (hf f hm) hmem
      · cases h
      · exact (h ',' List.mem_cons_self).2 (by decide)

end ShapeBindings.Header
