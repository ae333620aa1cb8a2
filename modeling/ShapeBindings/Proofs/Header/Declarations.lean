import ShapeBindings.Proofs.Header.Tokens
import ShapeBindings.Proofs.Steps
import ShapeBindings.Proofs.WellFormed

/-!
# The text of a declaration

* `parameters_eq_ok`, `declaration_eq_ok`: what a declaration with given tokens states;
* `exists_of_declaration`: what is stated has identifiers as its names, and types that are not empty;
* `declaration_congr`: whether a declaration is right, and what it states, does not depend on how its text is spaced.
-/

namespace ShapeBindings.Header

open Text

/-! ### Parameters -/

/-- A type and a name, the type as tokens. -/
structure Formal where
  /-- The tokens of the type. -/
  type : List (List Char)
  /-- The name. -/
  name : String
  deriving DecidableEq

namespace Formal

/-- The tokens of a parameter. -/
def tokens (f : Formal) : List (List Char) := f.type ++ [f.name.toList]

/-- The type as a text. -/
def typeText (f : Formal) : String := " ".intercalate (f.type.map String.ofList)

end Formal

theorem parameter_eq_ok {s : List Char} {f : Formal} (h : tokens s = f.tokens) (ht : f.type ≠ [])
    (hn : isIdentifier f.name = true) : parameter s = .ok (f.typeText, f.name) := by
  have hl : (f.type.map String.ofList).isEmpty = false := by simpa using ht
  simp [parameter, h, Formal.tokens, Formal.typeText, hn, ht]

theorem mapM_parameter_eq_ok {pieces : List (List Char)} {fs : List Formal}
    (h : pieces.map tokens = fs.map Formal.tokens) (ht : ∀ f ∈ fs, f.type ≠ [])
    (hn : ∀ f ∈ fs, isIdentifier f.name = true) :
    pieces.mapM parameter = .ok (fs.map fun f => (f.typeText, f.name)) := by
  induction pieces generalizing fs with
  | nil =>
    obtain rfl : fs = [] := by simpa using h
    rfl
  | cons s pieces ih =>
    cases fs with
    | nil => simp at h
    | cons f fs =>
      rw [List.map_cons, List.map_cons, List.cons.injEq] at h
      rw [List.mapM_cons, parameter_eq_ok h.1 (ht f (by simp)) (hn f (by simp)),
        ih h.2 (fun g hg => ht g (List.mem_cons_of_mem _ hg)) fun g hg => hn g (List.mem_cons_of_mem _ hg)]
      rfl

theorem parameters_of_blanks {s : List Char} (hs : Blanks s) : parameters s = .ok [] := by
  simp [parameters, trim_eq_nil_iff.2 hs]

theorem parameters_of_void {a b : List Char} (ha : Blanks a) (hb : Blanks b) :
    parameters (a ++ ("void".toList ++ b)) = .ok [] := by
  have : trim (a ++ ("void".toList ++ b)) = "void".toList := by
    rw [trim_blanks_append ha, trim_append_blanks _ hb]
    decide
  unfold parameters
  rw [this]
  rfl

/-- A list in which a piece has two tokens is neither empty nor a lone word. -/
theorem parameters_eq_mapM {s : List Char} {ts : List (List Char)} (h : ts ∈ (s.splitOn ',').map tokens)
    (hlen : 2 ≤ ts.length) : parameters s = ((trim s).splitOn ',').mapM parameter := by
  rw [← map_tokens_splitOn_trim (by decide) s] at h
  have hne : ∀ w : List Char, ',' ∉ w → (tokens w).length ≤ 1 → trim s ≠ w := by
    rintro w hw hl rfl
    rw [List.splitOn_eq_singleton hw, List.map_singleton, List.mem_singleton] at h
    rw [h] at hlen
    omega
  have h1 : (trim s).isEmpty = false := by simpa using hne [] (by simp) (by decide)
  have h2 : trim s ≠ "void".toList := hne _ (by decide) (by decide)
  unfold parameters
  rw [if_neg (by rw [h1, decide_eq_false h2]; decide)]

theorem Formal.two_le_length_tokens {f : Formal} (ht : f.type ≠ []) : 2 ≤ f.tokens.length := by
  have hpos := List.length_pos_iff.2 ht
  rw [Formal.tokens, List.length_append, List.length_singleton]
  omega

/-- A list of parameters is read off its tokens. -/
theorem parameters_eq_ok {s : List Char} {fs : List Formal} (h : (s.splitOn ',').map tokens = fs.map Formal.tokens)
    (ht : ∀ f ∈ fs, f.type ≠ []) (hn : ∀ f ∈ fs, isIdentifier f.name = true) :
    parameters s = .ok (fs.map fun f => (f.typeText, f.name)) := by
  obtain ⟨u, us, hu⟩ := List.exists_cons_of_ne_nil (List.splitOn_ne_nil ',' s)
  have hmem : tokens u ∈ (s.splitOn ',').map tokens := by simp [hu]
  have hlen : 2 ≤ (tokens u).length := by
    rw [h] at hmem
    obtain ⟨f, hf, hfu⟩ := List.mem_map.1 hmem
    rw [← hfu]
    exact Formal.two_le_length_tokens (ht f hf)
  rw [parameters_eq_mapM hmem hlen]
  rw [← map_tokens_splitOn_trim (by decide) s] at h
  exact mapM_parameter_eq_ok h ht hn

/-- The name of a parameter is its last token, and its type the others. -/
theorem exists_of_parameter {s : List Char} {q : String × String} (h : parameter s = .ok q) :
    isIdentifier q.2 = true ∧ normalizeType q.1 ≠ "" := by
  unfold parameter at h
  dsimp only at h
  split at h
  · next name _ =>
    split at h
    · cases h
    · next hcond =>
      obtain rfl := Except.ok.inj h
      rw [Bool.or_eq_true, not_or, Bool.not_eq_true, Bool.not_eq_true, Bool.not_eq_false'] at hcond
      refine ⟨hcond.2, ?_⟩
      have hruns : ∀ w ∈ (tokens s).dropLast, IsRun w := fun w hw =>
        isRun_of_mem_tokens (List.dropLast_subset _ hw)
      rw [← List.map_dropLast] at hcond ⊢
      rw [normalizeType_intercalate hruns]
      obtain ⟨w, ws, hws⟩ : ∃ w ws, (tokens s).dropLast = w :: ws :=
        List.exists_cons_of_ne_nil fun he => by simp [he] at hcond
      rw [hws] at hruns ⊢
      exact fun he => joinTypeWords_ne_nil (hruns w List.mem_cons_self) ws (String.ofList_eq_empty_iff.1 he)
  · cases h

theorem exists_of_parameters {s : List Char} {params : List (String × String)} (h : parameters s = .ok params) :
    ∀ q ∈ params, isIdentifier q.2 = true ∧ normalizeType q.1 ≠ "" := by
  unfold parameters at h
  dsimp only at h
  split at h
  · obtain rfl := Except.ok.inj h
    simp
  · intro q hq
    obtain ⟨piece, -, hpiece⟩ := exists_of_mem_of_mapM_eq_ok h hq
    exact exists_of_parameter hpiece

/-! ### Declarations -/

/-- What a function of a name and with some parameters states in a module. -/
def stated (symbolPrefix moduleName doc name : String) (params : List (String × String)) : Descriptor :=
  (params.foldl (fun d (type, name) => d.arg name type)
    ({ publicName := name, rawName := symbolPrefix ++ name, moduleName } : Descriptor)).withDoc doc

/-- The checks of a declaration, in their order. -/
theorem declaration_eq (p m doc : String) (s : List Char) :
    declaration p m doc s =
      match cutAt ['('] (trim s) with
      | none => .error .missingOpen
      | some (before, after) =>
        let name := String.ofList (trim before)
        if (trim s).getLast? ≠ some ')' then .error .missingClose
        else if isIdentifier name = false then .error (.functionName name)
        else if isIdentifier (p ++ name) = false then .error (.linkageName (p ++ name))
        else (parameters after.dropLast).map (stated p m doc name) := by
  unfold declaration
  dsimp only
  cases cutAt ['('] (trim s) with
  | none => rfl
  | some q =>
    obtain ⟨before, after⟩ := q
    dsimp only
    by_cases hlast : (trim s).getLast? ≠ some ')'
    · rw [if_pos hlast, if_pos hlast]
      rfl
    · rw [if_neg hlast, if_neg hlast]
      cases isIdentifier (String.ofList (trim before)) with
      | false => rfl
      | true =>
        cases isIdentifier (p ++ String.ofList (trim before)) with
        | false => rfl
        | true => cases parameters after.dropLast <;> rfl

theorem declaration_eq_ok {p m doc name : String} {a g inner b : List Char} {params : List (String × String)}
    (ha : Blanks a) (hg : Blanks g) (hb : Blanks b) (hn : isIdentifier name = true)
    (hp : isIdentifier (p ++ name) = true) (hi : parameters inner = .ok params) :
    declaration p m doc (a ++ (name.toList ++ (g ++ '(' :: (inner ++ ')' :: b)))) =
      .ok (stated p m doc name params) := by
  obtain ⟨d, ds, hd, hds, -⟩ := isIdentifier_iff.1 hn
  have hlast : (name.toList ++ g ++ '(' :: (inner ++ [')'])).getLast? = some ')' := by
    rw [← List.cons_append, ← List.append_assoc, List.getLast?_concat]
  have hbody : trim (a ++ (name.toList ++ (g ++ '(' :: (inner ++ ')' :: b)))) =
      name.toList ++ g ++ '(' :: (inner ++ [')']) := by
    have hs : a ++ (name.toList ++ (g ++ '(' :: (inner ++ ')' :: b))) =
        a ++ ((name.toList ++ g ++ '(' :: (inner ++ [')'])) ++ b) := by simp
    rw [hs, trim_blanks_append ha, trim_append_blanks _ hb]
    refine trim_eq_self ?_ ?_
    · simp only [hd, List.cons_append, List.head?_cons, Option.mem_def, Option.some.injEq, forall_eq']
      exact isBlank_of_isIdentifierPart (isIdentifierPart_of_start hds)
    · rw [hlast]
      simp only [Option.mem_def, Option.some.injEq, forall_eq']
      decide
  have hopen : '(' ∉ name.toList ++ g := by
    rw [List.mem_append, not_or]
    exact ⟨not_mem_of_isIdentifier hn (by decide), hg.not_mem (by decide)⟩
  have hcut : cutAt ['('] (name.toList ++ g ++ '(' :: (inner ++ [')'])) =
      some (name.toList ++ g, inner ++ [')']) := cutAt_append hopen [] _
  have hname : String.ofList (trim (name.toList ++ g)) = name := by
    rw [trim_append_blanks _ hg, trim_identifier hn, String.ofList_toList]
  rw [declaration_eq, hbody, hcut]
  simp only [hlast, hname, hn, hp, List.dropLast_concat, hi]
  rfl

theorem stated_eq_build (p m doc name : String) (params : List (String × String)) :
    stated p m doc name params = Descriptor.build name (p ++ name) m doc params := rfl

theorem exists_of_declaration {p m doc : String} {s : List Char} {d : Descriptor} (h : declaration p m doc s = .ok d) :
    ∃ name params, isIdentifier name = true ∧ isIdentifier (p ++ name) = true ∧
      (∀ q ∈ params, isIdentifier q.2 = true ∧ normalizeType q.1 ≠ "") ∧ d = stated p m doc name params := by
  rw [declaration_eq] at h
  split at h
  · cases h
  · dsimp only at h
    split at h
    · cases h
    · split at h
      · cases h
      · next hname =>
        split at h
        · cases h
        · next hraw =>
          obtain ⟨params, hparams, rfl⟩ := exists_of_map_eq_ok h
          exact ⟨_, params, by simpa using hname, by simpa using hraw, exists_of_parameters hparams, rfl⟩

theorem moduleName_of_declaration {p m doc : String} {s : List Char} {d : Descriptor}
    (h : declaration p m doc s = .ok d) : d.moduleName = m := by
  obtain ⟨name, params, -, -, -, rfl⟩ := exists_of_declaration h
  rw [stated_eq_build, Descriptor.moduleName_build]

/-- Whether a declaration is right does not depend on its documentation. -/
theorem declaration_eq_map (p m doc : String) (s : List Char) :
    declaration p m doc s = (declaration p m "" s).map (·.withDoc doc) := by
  rw [declaration_eq, declaration_eq]
  cases cutAt ['('] (trim s) with
  | none => rfl
  | some q =>
    obtain ⟨before, after⟩ := q
    dsimp only
    split
    · rfl
    · split
      · rfl
      · split
        · rfl
        · cases parameters after.dropLast <;> rfl

/-! ### Spacing -/

theorem parameter_squeeze (b : Bool) (s : List Char) :
    (parameter (squeeze b s)).toOption = (parameter s).toOption := by
  unfold parameter
  rw [tokens_squeeze]
  dsimp only
  split
  · split <;> rfl
  · rfl

theorem parameters_squeeze (b : Bool) (s : List Char) :
    (parameters (squeeze b s)).toOption = (parameters s).toOption := by
  have hempty : (squeeze false (trim s)).isEmpty = (trim s).isEmpty := by
    rw [Bool.eq_iff_iff, List.isEmpty_iff, List.isEmpty_iff, squeeze_false_eq_nil_iff]
  have hvoid : squeeze false (trim s) = "void".toList ↔ trim s = "void".toList := by
    have hv : ∀ c ∈ "void".toList, isBlank c = false := forall_mem_of_all (by decide)
    exact ⟨eq_of_squeeze_eq hv, fun h => by rw [h, squeeze_eq_self hv]⟩
  unfold parameters
  rw [trim_squeeze b false]
  simp only [hempty, hvoid]
  split
  · rfl
  · obtain ⟨u, us, h1, h2⟩ := splitOn_squeeze (x := ',') (by decide) false (trim s)
    rw [h1, h2, toOption_mapM, toOption_mapM]
    simp only [List.mapM_cons, List.mapM_map, Function.comp_def, parameter_squeeze]

theorem isIdentifier_squeeze (s : List Char) :
    isIdentifier (String.ofList (squeeze false s)) = isIdentifier (String.ofList s) := by
  have hb : ∀ t, isIdentifier (String.ofList t) = true → ∀ c ∈ t, isBlank c = false := fun t ht c hc =>
    isBlank_of_isIdentifierPart (isIdentifierPart_of_mem ht (by rwa [String.toList_ofList]))
  rw [Bool.eq_iff_iff]
  constructor
  · intro h
    rwa [eq_of_squeeze_eq (hb _ h) rfl]
  · intro h
    rwa [squeeze_eq_self (hb _ h)]

theorem declaration_squeeze (p m doc : String) (b : Bool) (s : List Char) :
    (declaration p m doc (squeeze b s)).toOption = (declaration p m doc s).toOption := by
  rw [declaration_eq, declaration_eq, trim_squeeze b false, cutAt_squeeze (by decide), getLast?_squeeze_trim]
  cases hcut : cutAt ['('] (trim s) with
  | none => rfl
  | some q =>
    obtain ⟨before, after⟩ := q
    simp only [Option.map_some, trim_squeeze false false, isIdentifier_squeeze]
    by_cases hlast : (trim s).getLast? = some ')'
    · obtain ⟨inner, rfl⟩ : ∃ inner, after = inner ++ [')'] := by
        rw [eq_of_cutAt hcut] at hlast
        rcases List.eq_nil_or_concat after with rfl | ⟨inner, c, rfl⟩
        · simp at hlast
        · rw [List.concat_eq_append, ← List.append_assoc, ← List.append_assoc, List.getLast?_concat] at hlast
          exact ⟨inner, by rw [List.concat_eq_append, Option.some.inj hlast]⟩
      by_cases hn : isIdentifier (String.ofList (trim before)) = true
      · -- an identifier has no blanks to squeeze
        have hname : squeeze false (trim before) = trim before := squeeze_eq_self
          (fun c hc => isBlank_of_isIdentifierPart (isIdentifierPart_of_mem hn (by rwa [String.toList_ofList]))) false
        rw [squeeze_concat (by decide), List.dropLast_concat, List.dropLast_concat, hname]
        split
        · rfl
        · split
          · rfl
          · split
            · rfl
            · rw [toOption_map, toOption_map, parameters_squeeze]
      · simp [hlast, hn, Except.toOption]
    · simp [hlast, Except.toOption]

/-- Whether a declaration is right, and what it states, does not depend on how its text is spaced. -/
theorem declaration_congr {p m doc : String} {s t : List Char} (h : Respaced s t) :
    (declaration p m doc s).toOption = (declaration p m doc t).toOption := by
  rw [← declaration_squeeze p m doc false s, h, declaration_squeeze]

end ShapeBindings.Header
