import ShapeBindings.Proofs.Header.Kinds
import ShapeBindings.Proofs.Header.OpenText
import ShapeBindings.Proofs.TableFile

/-!
# The kinds of parameters

A parameter of a header and an argument of a table file are of the kind that their type has as a text.

* `WrittenParameter`: a type and a name with blanks around them, as they stand in a header;
* `exists_declaration_of_code`: in an accepted header, code that stands in a declaration is a part of its text;
* `kind_of_written_parameter`: the kind of a parameter, wherever in a header it stands, and the tokens that decide on it.
-/

namespace ShapeBindings.Header

open Text Reader

variable {p m doc : String} {u v s t a b x : List Char}

/-! ### Written parameters -/

/-- A parameter as it stands in a header: a type and a name, and blanks. -/
structure WrittenParameter where
  before : List Char
  type : String
  /-- What stands between the type and the name. -/
  gap : List Char
  name : String
  after : List Char

namespace WrittenParameter

/-- A type with a word or a star in it, and a name that is apart from it. -/
structure Sound (q : WrittenParameter) : Prop where
  before : Blanks q.before
  type_not_blank : ¬ Blanks q.type.toList
  type_plain : ∀ c ∈ [',', ';', '/'], c ∉ q.type.toList
  gap : Blanks q.gap
  apart : q.gap ≠ [] ∨ q.type.toList.getLast? = some '*'
  name : isIdentifier q.name = true
  after : Blanks q.after

def text (q : WrittenParameter) : List Char :=
  q.before ++ (q.type.toList ++ (q.gap ++ (q.name.toList ++ q.after)))

/-- The tokens of the type, and the name. -/
def formal (q : WrittenParameter) : Formal := ⟨tokens q.type.toList, q.name⟩

variable {q : WrittenParameter}

theorem Sound.not_mem (h : q.Sound) {c : Char} (hc : c ∈ [',', ';', '/']) : c ∉ q.text := by
  have hblank : isBlank c = false := forall_mem_of_all (by decide) c hc
  have hident : isIdentifierPart c = false := forall_mem_of_all (by decide) c hc
  have hname : c ∉ q.name.toList := not_mem_of_isIdentifier h.name hident
  simp [text, h.before.not_mem hblank, h.type_plain c hc, h.gap.not_mem hblank, hname, h.after.not_mem hblank]

theorem Sound.tokens_text (h : q.Sound) (hb : Blanks b) : tokens (b ++ q.text) = q.formal.tokens := by
  have hname : tokens (q.name.toList ++ q.after) = [q.name.toList] := by
    have hword : ∀ c ∈ q.name.toList, isWordChar c = true := fun c hc => by
      have hpart := isIdentifierPart_of_mem h.name hc
      refine isWordChar_iff.2 ⟨isBlank_of_isIdentifierPart hpart, ?_⟩
      rintro rfl
      exact absurd hpart (by decide)
    have hafter : startsWord q.after = false := by
      cases hq : q.after with
      | nil => rfl
      | cons c after => simp [startsWord, isWordChar, h.after c (by simp [hq])]
    rw [tokens_word_append hword (toList_ne_nil_of_isIdentifier h.name) hafter, tokens_blanks h.after]
  have hrest : tokens (q.gap ++ (q.name.toList ++ q.after)) = [q.name.toList] := by
    rw [tokens_blanks_append h.gap, hname]
  rw [tokens_blanks_append hb, text, tokens_blanks_append h.before, formal, Formal.tokens]
  dsimp only
  rcases h.apart with hgap | hstar
  · obtain ⟨c, g, hg⟩ := List.exists_cons_of_ne_nil hgap
    have hstart : startsWord (q.gap ++ (q.name.toList ++ q.after)) = false := by
      simp [hg, startsWord, isWordChar, h.gap c (by simp [hg])]
    rw [tokens_append _ hstart, hrest]
  · -- the star ends the type
    obtain ⟨t, ht⟩ := List.getLast?_eq_some_iff.1 hstar
    have hone : tokens ['*'] = [['*']] := by decide
    rw [ht, List.append_assoc, List.singleton_append, tokens_append _ rfl, tokens_star, hrest, tokens_append _ rfl, hone,
      List.append_assoc]
    rfl

theorem Sound.type_ne_nil (h : q.Sound) : q.formal.type ≠ [] := mt tokens_eq_nil_iff.1 h.type_not_blank

/-- The type that a header states for a parameter is of the kind of the written one. -/
theorem classify_typeText (q : WrittenParameter) : ArgKind.classify q.formal.typeText = ArgKind.classify q.type := by
  refine classify_congr ?_
  have hlist : q.formal.typeText.toList = [' '].intercalate (tokens q.type.toList) := by
    simp [Formal.typeText, formal, String.toList_intercalate, Function.comp_def]
  rw [hlist, tokens_intercalate fun t => tokens_of_mem_tokens]

theorem Sound.parameter_eq (h : q.Sound) : parameter q.text = .ok (q.formal.typeText, q.name) :=
  parameter_eq_ok (h.tokens_text blanks_nil) h.type_ne_nil h.name

end WrittenParameter

/-! ### Parameters of a declaration -/

theorem exists_of_getElem?_of_forall₂ {α β : Type} {R : α → β → Prop} {xs : List α} {ys : List β}
    (h : List.Forall₂ R xs ys) {i : Nat} {x : α} (hx : xs[i]? = some x) : ∃ y, ys[i]? = some y ∧ R x y := by
  induction h generalizing i with
  | nil => cases hx
  | cons hxy _ ih =>
    cases i with
    | zero =>
      cases hx
      exact ⟨_, rfl, hxy⟩
    | succ i => exact ih hx

/-- The parameter at an index is what stands between two commas. -/
theorem getElem?_of_parameters {params : List (String × String)} (h : parameters s = .ok params) {f : Formal} {i : Nat}
    (hi : ((s.splitOn ',').map tokens)[i]? = some f.tokens) (ht : f.type ≠ []) (hn : isIdentifier f.name = true) :
    params[i]? = some (f.typeText, f.name) := by
  rw [parameters_eq_mapM (List.mem_of_getElem? hi) (Formal.two_le_length_tokens ht)] at h
  rw [← map_tokens_splitOn_trim (by decide) s] at hi
  rw [List.getElem?_map, Option.map_eq_some_iff] at hi
  obtain ⟨piece, hpiece, htokens⟩ := hi
  obtain ⟨y, hy, hparam⟩ := exists_of_getElem?_of_forall₂ (forall₂_of_mapM_eq_ok h) hpiece
  rw [parameter_eq_ok htokens ht hn] at hparam
  rw [hy, Except.ok.inj hparam]

/-- A declaration that is right ends with a closing parenthesis. -/
theorem exists_parameters_of_declaration {D : Descriptor} (ha : '(' ∉ a) (h : declaration p m doc (a ++ '(' :: s) = .ok D) :
    ∃ inner b name params, s = inner ++ ')' :: b ∧ Blanks b ∧ parameters inner = .ok params ∧
      D = stated p m doc name params := by
  obtain ⟨g, b, hg, hb, hsplit⟩ := exists_trim (a ++ '(' :: s)
  obtain ⟨before, after, htrim, hbefore⟩ : ∃ before after, trim (a ++ '(' :: s) = before ++ '(' :: after ∧ '(' ∉ before := by
    refine List.eq_append_cons_of_mem ?_
    have hmem : '(' ∈ g ++ trim (a ++ '(' :: s) ++ b := by
      rw [← hsplit]
      simp
    rw [List.mem_append, List.mem_append] at hmem
    exact (hmem.resolve_right (hb.not_mem (by decide))).resolve_left (hg.not_mem (by decide))
  have hs : s = after ++ b := by
    rw [htrim] at hsplit
    have hopen : '(' ∉ g ++ before := by simp [hbefore, hg.not_mem (show isBlank '(' = false by decide)]
    have happend : g ++ (before ++ '(' :: after) ++ b = g ++ before ++ '(' :: (after ++ b) := by simp
    rw [happend] at hsplit
    exact (eq_of_append_cons_eq ha hopen hsplit).2
  have hcut : cutAt ['('] (trim (a ++ '(' :: s)) = some (before, after) := by
    rw [htrim]
    exact cutAt_append hbefore [] after
  rw [declaration_eq, hcut] at h
  dsimp only at h
  split at h
  · cases h
  next hlast =>
  rw [not_not, htrim, List.getLast?_append_cons] at hlast
  split at h
  · cases h
  split at h
  · cases h
  obtain ⟨params, hparams, rfl⟩ := exists_of_map_eq_ok h
  cases hafter : after.getLast? with
  | none =>
    rw [List.getLast?_eq_none_iff.1 hafter] at hlast
    cases hlast
  | some c =>
    obtain ⟨inner, rfl⟩ := List.getLast?_eq_some_iff.1 hafter
    rw [List.getLast?_cons, hafter] at hlast
    obtain rfl : c = ')' := Option.some.inj hlast
    rw [List.dropLast_concat] at hparams
    exact ⟨inner, b, _, params, by rw [hs]; simp, hb, hparams, rfl⟩

/-! ### Code in a declaration -/

/-- The text so far of the declaration that a text ends in. -/
def openText (p : String) (u : List Char) : Option (List Char) :=
  ((readBehind p u).bind Reader.pending).map OpenDeclaration.text

theorem exists_within_of_openText (hu : EndsInCode u) (h : openText p u = some t) :
    ∃ w y r q b, blankComments false u = w ++ y ∧ Ended w ∧ '\n' ∉ y ∧ NoSlashes y ∧ readFrom p 0 {} w = .ok r ∧
      r.HoldsRemarks ∧ nextPlace p u = some q ∧ Blanks b ∧ r.Within p ((lines w).length + 1) y q (t ++ b) := by
  obtain ⟨w, y, hw, hy, hwy⟩ := exists_ended_append (blankComments false u)
  have hcode := hu.noSlashes
  rw [hwy, lastLine_append hw hy] at hcode
  unfold openText at h
  unfold nextPlace
  cases hbehind : readBehind p u with
  | none =>
    rw [hbehind] at h
    cases h
  | some r₁ =>
    rw [hbehind, Option.bind_some] at h
    obtain ⟨d, hd, rfl⟩ := Option.map_eq_some_iff.1 h
    rw [readBehind, toOption_eq_some_iff, hwy, readFrom_append hw, Nat.zero_add] at hbehind
    obtain ⟨r, hr, hlast⟩ := exists_of_bind_eq_ok hbehind
    have hholds : r.HoldsRemarks := holdsRemarks_readFrom (holdsRemarks_of_none rfl) hr
    refine ⟨w, y, r, r₁.place, ?_⟩
    by_cases hne : y = []
    · subst hne
      cases hlast
      obtain ⟨b, hb, -, hwithin⟩ := within_of_next_line (p := p) hholds hd ((lines w).length + 1)
      exact ⟨b, hwy, hw, hy, hcode, hr, hholds, rfl, hb, hwithin⟩
    · rw [readFrom_last hy hne, ofText_of_not_slashes hcode.no_slashes, readLine_eq] at hlast
      obtain ⟨b, hb, hwithin⟩ := within_of_pending hholds hlast hd
      exact ⟨b, hwy, hw, hy, hcode, hr, hholds, rfl, hb, hwithin⟩

/-- Code without semicolons that stands in a declaration is a part of the declaration's text, and with a semicolon behind
it, it is the end of the text. -/
theorem exists_declaration_of_code (hu : EndsInCode u) (h : openText p u = some t) (ha : ';' ∉ a) (hslash : '/' ∉ a)
    {T : Table} (hparse : parse p (String.ofList (u ++ (a ++ v))) = .ok T) :
    ∃ q D m doc b x, nextPlace p u = some q ∧ T.function? q = some D ∧ Blanks b ∧
      declaration p m doc (t ++ (b ++ (a ++ x))) = .ok D ∧ (v.head? = some ';' → x = []) := by
  obtain ⟨w, y, r, q, b, hwy, hw, hy, hcode, hr, hholds, hq, hb, hwithin⟩ := exists_within_of_openText hu h
  have hlast : (blankComments false u).getLast? ≠ some '/' := by
    rw [hwy]
    by_cases hne : y = []
    · rw [hne, List.append_nil]
      rcases hw with rfl | ⟨w, rfl⟩
      · simp
      · simp
    · rw [List.getLast?_append_of_ne_nil _ hne]
      exact hcode.getLast?
  have hblank : blankComments false (u ++ (a ++ v)) = w ++ (y ++ (a ++ blankComments false v)) := by
    rw [blankComments_append_of_closed hu.closed fun h => absurd h hlast, transparent_of_slash_not_mem hslash, hwy,
      List.append_assoc]
  have hanswer : answer anyLine (readFrom p (lines w).length r (y ++ (a ++ blankComments false v))) = .ok T := by
    have hmap := mapError_parse anyLine p (u ++ (a ++ v))
    rw [hparse, hblank, readFrom_append hw, hr, ok_bind, Nat.zero_add] at hmap
    exact hmap.symm
  obtain ⟨n', r', y', t', hr', hwithin', hy', hcode', hwords, hread⟩ :=
    exists_within_append hholds hwithin hy hcode ha hslash
  rw [hread] at hanswer
  have hright : ∀ {m doc s x D}, declaration p m doc s = .ok D → words s = words (t' ++ x) →
      declaration p m doc (t ++ (b ++ (a ++ x))) = .ok D := by
    intro m doc s x D hs hsx
    rw [hwords, List.append_assoc] at hsx
    rw [← toOption_eq_some_iff, ← declaration_words m doc hsx, toOption_eq_some_iff, hs]
  by_cases hsemi : v.head? = some ';'
  · obtain ⟨v, rfl⟩ := List.head?_eq_some_iff.1 hsemi
    rw [blankComments_cons_of_ne (by decide)] at hanswer
    obtain ⟨D, m, doc, hD, hs⟩ := exists_declaration_of_semicolon hwithin' hy' hcode' hanswer
    exact ⟨q, D, m, doc, b, [], hq, hD, hb, hright hs (by rw [List.append_nil]), fun _ => rfl⟩
  · obtain ⟨D, m, doc, s, x, hD, hs, htext⟩ := exists_declaration_of_within hwithin' hy' hcode' hanswer
    exact ⟨q, D, m, doc, b, x, hq, hD, hb, hright hs htext, fun h => absurd h hsemi⟩

/-! ### Parameters of a header -/

/-- Behind a text a parameter starts, the one behind `i` commas of a declaration. -/
structure StartsParameter (p : String) (u : List Char) (i : Nat) : Prop where
  code : EndsInCode u
  text : ∃ head inner, openText p u = some (head ++ '(' :: inner) ∧ '(' ∉ head ∧ inner.count ',' = i ∧
    (trimEnd inner = [] ∨ (trimEnd inner).getLast? = some ',')

/-- What a parameter ends with: a comma, or a parenthesis and the semicolon of the declaration. -/
def EndsParameter (e : List Char) : Prop := e = [','] ∨ ∃ b, Blanks b ∧ e = ')' :: (b ++ [';'])

/-- A list that ends with a comma, or is empty, is a number of pieces, and another one starts behind it. -/
theorem exists_splitOn_of_trimEnd (h : trimEnd s = [] ∨ (trimEnd s).getLast? = some ',') :
    ∃ pieces b, pieces.length = s.count ',' ∧ Blanks b ∧ ∀ z, (s ++ z).splitOn ',' = pieces ++ (b ++ z).splitOn ',' := by
  obtain ⟨b, hb, hs⟩ := exists_trimEnd s
  have hcount : b.count ',' = 0 := List.count_eq_zero.2 (hb.not_mem (by decide))
  rcases h with h | h
  · rw [h, List.nil_append] at hs
    exact ⟨[], b, by rw [hs, hcount]; rfl, hb, fun z => by rw [hs]; rfl⟩
  · obtain ⟨t, ht⟩ := List.getLast?_eq_some_iff.1 h
    rw [ht] at hs
    refine ⟨t.splitOn ',', b, ?_, hb, fun z => ?_⟩
    · rw [hs, List.count_append, List.count_append, hcount, length_splitOn]
      rfl
    · have happend : s ++ z = t ++ ',' :: (b ++ z) := by rw [hs]; simp
      rw [happend, List.splitOn_append_cons_self]

/-- The list of a declaration goes on behind a part of it with a comma, or it ends there. -/
theorem exists_more_of_split {g list rest : List Char} (hg : Blanks g)
    (hrest : (∃ y, rest = ',' :: y) ∨ ∃ g', Blanks g' ∧ rest = ')' :: g') (h : x ++ rest = list ++ ')' :: g) :
    ∃ more, list = x ++ more ∧ (more = [] ∨ ∃ y, more = ',' :: y) := by
  rcases hrest with ⟨y, rfl⟩ | ⟨g', hg', rfl⟩
  · -- the closing parenthesis stands behind the comma
    rcases List.append_eq_append_iff.1 h with ⟨c, hlist, hrest⟩ | ⟨c, -, hrest⟩
    · cases c with
      | nil => exact absurd (List.cons.inj hrest).1 (by decide)
      | cons d c =>
        obtain ⟨rfl, -⟩ := List.cons.inj hrest
        exact ⟨_, hlist, .inr ⟨c, rfl⟩⟩
    · have hmem : ',' ∈ ')' :: g := by
        rw [hrest]
        simp
      exact absurd ((List.mem_cons.1 hmem).resolve_left (by decide)) (hg.not_mem (by decide))
  · -- both texts end with blanks behind their last parenthesis
    have hreverse : g'.reverse ++ ')' :: x.reverse = g.reverse ++ ')' :: list.reverse := by
      simpa using congrArg List.reverse h
    have hclose : ∀ {g : List Char}, Blanks g → ')' ∉ g.reverse := fun hg => by
      rw [List.mem_reverse]
      exact hg.not_mem (by decide)
    have hlist := List.reverse_inj.1 (eq_of_append_cons_eq (hclose hg') (hclose hg) hreverse).2
    exact ⟨[], by rw [List.append_nil, hlist], .inl rfl⟩

theorem exists_splitOn_append {more : List Char} (hs : ',' ∉ s) (h : more = [] ∨ ∃ y, more = ',' :: y) :
    ∃ us, (s ++ more).splitOn ',' = s :: us := by
  rcases h with rfl | ⟨y, rfl⟩
  · exact ⟨[], by rw [List.append_nil, List.splitOn_eq_singleton hs]⟩
  · exact ⟨_, List.splitOn_append_cons_self_of_not_mem hs y⟩

/-- The argument that a parameter states, before a comma or before the end of the declaration. -/
theorem getElem?_args_of_declaration {q : WrittenParameter} (hq : q.Sound) {head inner rest : List Char} {D : Descriptor}
    (hhead : '(' ∉ head) (hinner : trimEnd inner = [] ∨ (trimEnd inner).getLast? = some ',') (hb : Blanks b)
    (hrest : (∃ x, rest = ',' :: x) ∨ ∃ g, Blanks g ∧ rest = ')' :: g)
    (h : declaration p m doc (head ++ '(' :: (inner ++ (b ++ (q.text ++ rest)))) = .ok D) :
    D.args[inner.count ',']? = some ⟨q.name, normalizeType q.formal.typeText, inner.count ','⟩ := by
  obtain ⟨list, g, name, params, hsplit, hg, hparams, rfl⟩ := exists_parameters_of_declaration hhead h
  rw [← List.append_assoc b, ← List.append_assoc inner] at hsplit
  obtain ⟨more, hlist, hmore⟩ := exists_more_of_split hg hrest hsplit
  obtain ⟨pieces, c, hlength, hc, hpieces⟩ := exists_splitOn_of_trimEnd hinner
  have hcomma : ',' ∉ c ++ (b ++ q.text) := by
    simp [hc.not_mem (show isBlank ',' = false by decide), hb.not_mem (show isBlank ',' = false by decide),
      hq.not_mem (c := ',') (by decide)]
  have htokens : tokens (c ++ (b ++ q.text)) = q.formal.tokens := by
    rw [← List.append_assoc]
    exact hq.tokens_text (blanks_append.2 ⟨hc, hb⟩)
  obtain ⟨us, hus⟩ := exists_splitOn_append hcomma hmore
  have hpiece : ((list.splitOn ',').map tokens)[inner.count ',']? = some q.formal.tokens := by
    rw [hlist, List.append_assoc, hpieces, ← List.append_assoc c, hus, ← hlength, List.map_append, List.map_cons, htokens,
      ← List.length_map (f := tokens), List.getElem?_append_right le_rfl, Nat.sub_self]
    rfl
  have hparam := getElem?_of_parameters hparams hpiece hq.type_ne_nil hq.name
  rw [stated_eq_build, Descriptor.args_build, List.getElem?_mapIdx, hparam]
  rfl

theorem classify_argument (q : WrittenParameter) :
    ArgKind.classify (normalizeType q.formal.typeText) = ArgKind.classify q.type := by
  rw [classify_normalizeType, q.classify_typeText]

/-- **The kind of a parameter is the kind of its type.**  A type and a name are a parameter, and wherever they stand as one
in an accepted header, the argument of the function has this name and the kind of the type as a text, the kind that an
argument of a table file with this type has.  The tokens of a type decide on its kind. -/
theorem kind_of_written_parameter {q : WrittenParameter} (hq : q.Sound) :
    (∃ type, parameter q.text = .ok (type, q.name) ∧ ArgKind.classify type = ArgKind.classify q.type) ∧
      (∀ p u i e v T, StartsParameter p u i → EndsParameter e →
        parse p (String.ofList (u ++ (q.text ++ (e ++ v)))) = .ok T →
          ∃ place D a, nextPlace p u = some place ∧ T.function? place = some D ∧ D.args[i]? = some a ∧
            a.name = q.name ∧ a.kind = ArgKind.classify q.type) ∧
      (∀ (file : TableFile) (f : StatedFunction) (i : Nat) (a : StatedArgument), f.args[i]? = some a → a.type = q.type →
        ((file.descriptorOf f).args[i]?).map Argument.kind = some (ArgKind.classify q.type)) ∧
      ∀ (type : String) (k : ArgKind),
        ArgKind.classify type = some k ↔ tokens type.toList = tokens k.typeName.toList := by
  refine ⟨⟨_, hq.parameter_eq, q.classify_typeText⟩, ?_, ?_, fun _ _ => classify_eq_some_iff⟩
  · intro p u i e v T hu he hparse
    obtain ⟨hcode, head, inner, htext, hhead, rfl, hinner⟩ := hu
    have hsemi : ';' ∉ q.text := hq.not_mem (by decide)
    have hslash : '/' ∉ q.text := hq.not_mem (by decide)
    rcases he with rfl | ⟨g, hg, rfl⟩
    · have hsplit : u ++ (q.text ++ ([','] ++ v)) = u ++ ((q.text ++ [',']) ++ v) := by simp
      rw [hsplit] at hparse
      obtain ⟨place, D, m, doc, b, x, hplace, hD, hb, hs, -⟩ :=
        exists_declaration_of_code hcode htext (by simp [hsemi]) (by simp [hslash]) hparse
      have hs' : declaration p m doc (head ++ '(' :: (inner ++ (b ++ (q.text ++ ',' :: x)))) = .ok D := by
        rw [← hs]
        simp
      exact ⟨place, D, _, hplace, hD, getElem?_args_of_declaration hq hhead hinner hb (.inl ⟨x, rfl⟩) hs', rfl,
        classify_argument q⟩
    · have hsplit : u ++ (q.text ++ (')' :: (g ++ [';']) ++ v)) = u ++ ((q.text ++ ')' :: g) ++ ';' :: v) := by simp
      rw [hsplit] at hparse
      have hg1 : ';' ∉ g := hg.not_mem (by decide)
      have hg2 : '/' ∉ g := hg.not_mem (by decide)
      obtain ⟨place, D, m, doc, b, x, hplace, hD, hb, hs, hx⟩ :=
        exists_declaration_of_code hcode htext (by simp [hsemi, hg1]) (by simp [hslash, hg2]) hparse
      obtain rfl := hx rfl
      have hs' : declaration p m doc (head ++ '(' :: (inner ++ (b ++ (q.text ++ ')' :: g)))) = .ok D := by
        rw [← hs]
        simp
      exact ⟨place, D, _, hplace, hD, getElem?_args_of_declaration hq hhead hinner hb (.inr ⟨g, hg, rfl⟩) hs', rfl,
        classify_argument q⟩
  · intro file f i a ha htype
    rw [TableFile.args_descriptorOf, List.getElem?_mapIdx, ha, ← htype]
    exact congrArg some (classify_normalizeType a.type)

/-- A pointer with blanks in its type and none before its name. -/
def writtenPointer : WrittenParameter := ⟨['\n', ' '], "const\tchar  *", [], "s", []⟩

/-- A declaration that goes on behind its first parameter. -/
def openList : String := "LIBFIVE_SECTION(m)\nLIBFIVE_STDLIB f(tfloat x, // a radius\n  int n,"

/-- A pointer as the third parameter of a declaration over three lines. -/
theorem kind_of_written_parameter_pointer :
    writtenPointer.Sound ∧ StartsParameter "p_" openList.toList 2 ∧ EndsParameter [')', ';'] ∧
      parse "p_" (String.ofList (openList.toList ++ (writtenPointer.text ++ ([')', ';'] ++ ['\n'])))) =
        .ok ⟨[⟨"m", [⟨"f", "p_f", "m", [⟨"x", "tfloat", 0⟩, ⟨"n", "int", 1⟩, ⟨"s", "const char*", 2⟩],
          some "a radius"⟩]⟩]⟩ ∧
      ∃ place D a, nextPlace "p_" openList.toList = some place ∧
        (⟨[⟨"m", [⟨"f", "p_f", "m", [⟨"x", "tfloat", 0⟩, ⟨"n", "int", 1⟩, ⟨"s", "const char*", 2⟩],
          some "a radius"⟩]⟩]⟩ : Table).function? place = some D ∧ D.args[2]? = some a ∧ a.name = "s" ∧
        a.kind = ArgKind.classify "const\tchar  *" := by
  have hq : writtenPointer.Sound :=
    { before := by decide
      type_not_blank := by decide
      type_plain := by simp [writtenPointer]
      gap := by decide
      apart := .inr (by decide)
      name := by decide
      after := by decide }
  have hu : StartsParameter "p_" openList.toList 2 :=
    { code := ⟨by decide +kernel, by decide +kernel⟩
      text := ⟨"  f".toList, "tfloat x,   int n,".toList, by decide +kernel, by decide, by decide, .inr (by decide)⟩ }
  have he : EndsParameter [')', ';'] := .inr ⟨[], blanks_nil, rfl⟩
  have hparse : parse "p_" (String.ofList (openList.toList ++ (writtenPointer.text ++ ([')', ';'] ++ ['\n'])))) =
      .ok ⟨[⟨"m", [⟨"f", "p_f", "m", [⟨"x", "tfloat", 0⟩, ⟨"n", "int", 1⟩, ⟨"s", "const char*", 2⟩],
        some "a radius"⟩]⟩]⟩ := by decide +kernel
  exact ⟨hq, hu, he, hparse, (kind_of_written_parameter hq).2.1 _ _ _ _ _ _ hu he hparse⟩

end ShapeBindings.Header
