import ShapeBindings.Proofs.Header.Multiline
import ShapeBindings.Proofs.Header.Stated

/-!
# Headers can be read back

* `readFrom_marker`, `readFrom_function`: what a reader knows after an item;
* `readFrom_layout`: what it knows after the whole layout of some items;
* `parse_layout`: every layout of an outline is read as the table of the outline.
-/

namespace ShapeBindings.Header

open Text Reader

variable {p : String} {n : Nat} {r : Reader} {s a b e t : List Char}

/-! ### Blank lines -/

/-- Blank lines before a text. -/
theorem readFrom_blanks_append (hr : r.pending = none) (ha : Blanks a) (n : Nat) (s : List Char) :
    ∃ m b, Blanks b ∧ '\n' ∉ b ∧ readFrom p n r (a ++ s) = readFrom p m r (b ++ s) := by
  induction hlen : a.length using Nat.strong_induction_on generalizing a n with
  | _ l ih =>
    by_cases hn : '\n' ∈ a
    · obtain ⟨b, c, hb, rfl⟩ := exists_newline_split hn
      obtain ⟨hb', hc⟩ := blanks_append.1 ha
      obtain ⟨-, hc⟩ := blanks_cons.1 hc
      obtain ⟨m, d, hd, hdn, h⟩ := ih c.length (by rw [← hlen]; simp; omega) hc (n + 1) rfl
      refine ⟨m, d, hd, hdn, ?_⟩
      obtain ⟨x, -, hx⟩ := exists_chomp b
      rw [hx] at hb'
      have hch := (blanks_append.1 hb').1
      rw [List.append_assoc, List.cons_append, readFrom_line hb,
        Line.ofText_of_slash_not_mem (hch.not_mem (by decide)), readLine_eq, readRest_blanks hr hch, ok_bind, h]
    · exact ⟨n, a, ha, hn, rfl⟩

theorem readFrom_blanks (hr : r.pending = none) (ha : Blanks a) (n : Nat) : readFrom p n r a = .ok r := by
  obtain ⟨m, b, hb, hn, h⟩ := readFrom_blanks_append (p := p) hr ha n []
  rw [List.append_nil, List.append_nil] at h
  rw [h]
  by_cases hne : b = []
  · rw [hne, readFrom_nil]
  · rw [readFrom_last hn hne, Line.ofText_of_slash_not_mem (hb.not_mem (by decide)), readLine_eq,
      readRest_blanks hr hb]

/-! ### Items -/

theorem openSection_eq_ok {name : String} {c : List Char} (hn : isIdentifier name = true) (ha : Blanks a)
    (hb : Blanks b) (hc : Blanks c) (n : Nat) :
    r.openSection n (a ++ '(' :: (b ++ (name.toList ++ (c ++ [')'])))) =
      .ok { r with table := r.table.ensure name, current := some (name, n) } := by
  have htrim : trim (a ++ '(' :: (b ++ (name.toList ++ (c ++ [')'])))) = '(' :: (b ++ name.toList ++ c ++ [')']) := by
    have hlast : ('(' :: (b ++ name.toList ++ c ++ [')'])).getLast? = some ')' := by
      rw [← List.cons_append, List.getLast?_concat]
    rw [trim_blanks_append ha, ← List.append_assoc, ← List.append_assoc]
    refine trim_eq_self (fun x hx => ?_) fun x hx => ?_
    · obtain rfl : '(' = x := by simpa using hx
      decide
    · rw [hlast] at hx
      obtain rfl : ')' = x := by simpa using hx
      decide
  have hclose : ')' ∉ b ++ name.toList ++ c := by
    have h1 : ')' ∉ b := hb.not_mem (by decide)
    have h2 : ')' ∉ c := hc.not_mem (by decide)
    have h3 : ')' ∉ name.toList := not_mem_of_isIdentifier hn (by decide)
    simp [h1, h2, h3]
  have hcut : cutAt [')'] (b ++ name.toList ++ c ++ [')']) = some (b ++ name.toList ++ c, []) :=
    cutAt_append hclose [] []
  have hafter : after? ['('] ('(' :: (b ++ name.toList ++ c ++ [')'])) = some (b ++ name.toList ++ c ++ [')']) :=
    after?_append ['('] _
  have hname : String.ofList (trim (b ++ name.toList ++ c)) = name := by
    rw [trim_append_blanks _ hc, trim_blanks_append hb, trim_identifier hn, String.ofList_toList]
  unfold openSection
  rw [htrim, hafter, Option.bind_some, hcut]
  simp only [hname, hn]
  rfl

theorem readFrom_marker {name : String} (hn : isIdentifier name = true) (ht : ItemText (.marker name) t) (ha : Blanks a)
    (han : '\n' ∉ a) (hb : Blanks b) (hline : '\n' ∉ b) (he : LineEnd e s) (hr : r.pending = none) (n : Nat) :
    readFrom p n r (a ++ (t ++ (b ++ e))) =
      readFrom p (n + 1) { r with table := r.table.ensure name, current := some (name, n + 1) } s := by
  cases ht with
  | @marker _ u v w hu hv hw hline' =>
    simp only [List.mem_append, not_or] at hline'
    obtain ⟨hun, hvn, hwn⟩ := hline'
    -- the text of the marker is not blank at its ends
    have hclose : Plain (name.toList ++ (w ++ [')'])) :=
      plain_append.2 ⟨plain_identifier hn, plain_append.2 ⟨plain_blanks hw hwn, by decide⟩⟩
    have hopen : Plain ('(' :: (v ++ (name.toList ++ (w ++ [')'])))) :=
      plain_append (a := ['(']).2 ⟨by decide, plain_append.2 ⟨plain_blanks hv hvn, hclose⟩⟩
    have htail : Plain (u ++ '(' :: (v ++ (name.toList ++ (w ++ [')'])))) :=
      plain_append.2 ⟨plain_blanks hu hun, hopen⟩
    have hlast : (u ++ '(' :: (v ++ (name.toList ++ (w ++ [')'])))).getLast? = some ')' := by
      have hend : u ++ '(' :: (v ++ (name.toList ++ (w ++ [')']))) =
          u ++ '(' :: (v ++ (name.toList ++ w)) ++ [')'] := by simp
      rw [hend, List.getLast?_concat]
    have hsection := openSection_eq_ok (r := r) hn hu hv hw (n + 1)
    generalize u ++ '(' :: (v ++ (name.toList ++ (w ++ [')']))) = tail at htail hlast hsection ⊢
    have hmarker : Plain sectionMarker.toList := by decide
    obtain ⟨h1, h2, -⟩ := plain_append.2 ⟨plain_blanks ha han, plain_append.2 ⟨hmarker, htail⟩⟩
    have hlast' : (a ++ (sectionMarker.toList ++ tail)).getLast? = some ')' := by simp [List.getLast?_append, hlast]
    obtain ⟨c, hc, hread⟩ := readFrom_code (p := p) h1 h2 (by simp [sectionMarker]) (by simp [hlast']) hb hline he n r
    have htrim : trim (a ++ (sectionMarker.toList ++ tail) ++ c) = sectionMarker.toList ++ tail := by
      rw [trim_append_blanks _ hc, trim_blanks_append ha]
      refine trim_eq_self (fun x hx => ?_) fun x hx => ?_
      · obtain rfl : 'L' = x := by simpa [sectionMarker] using hx
        decide
      · obtain rfl : ')' = x := by simpa [List.getLast?_append, hlast] using hx
        decide
    have hafter := after?_append sectionMarker.toList tail
    rw [← htrim] at hafter
    rw [← List.append_assoc, hread, readRest_section hr hafter, hsection, ok_bind]

theorem close_eq_ok {d : OpenDeclaration} {D : Descriptor} {m : String} {k : Nat} (hr : r.pending = none)
    (hm : r.current = some (m, k)) (h : (declaration p m d.doc d.text).toOption = some D) :
    r.close p d = .ok { r with table := r.table.push D } := by
  have hd := toOption_eq_some_iff.1 h
  simp [close, hm, hd, hr]

/-- The line of a function's marker, up to the first character of the name, opens a declaration that goes on. -/
theorem opening_of_name {c x : Char} {w : List Char} (hr : r.pending = none) (ha : Blanks a) (han : '\n' ∉ a)
    (hw : Blanks (c :: w)) (hwn : '\n' ∉ c :: w) (hx : isIdentifierPart x = true) (n : Nat) :
    Plain (a ++ (declarationMarker.toList ++ c :: (w ++ [x]))) ∧
      (a ++ (declarationMarker.toList ++ c :: (w ++ [x]))).getLast? ≠ some '\r' ∧
      r.Continues n (a ++ (declarationMarker.toList ++ c :: (w ++ [x]))) { line := n } (c :: (w ++ [x])) true := by
  have hxb : isBlank x = false := isBlank_of_isIdentifierPart hx
  have hend : a ++ (declarationMarker.toList ++ c :: (w ++ [x])) = a ++ (declarationMarker.toList ++ c :: w) ++ [x] := by
    simp
  refine ⟨?_, ?_, continues_opening hr ha (blanks_cons.1 hw).1 (fun hu => by simpa [hxb] using hu x (by simp)) n⟩
  · have hne : ∀ {y : Char}, isIdentifierPart y = false → y ∉ [x] := fun hy h => by
      rw [← List.mem_singleton.1 h, hy] at hx
      cases hx
    rw [hend, plain_append, plain_append, plain_append]
    exact ⟨⟨plain_blanks ha han, by decide, plain_blanks hw hwn⟩, hne (by decide), hne (by decide), hne (by decide)⟩
  · rw [hend, List.getLast?_concat]
    rintro ⟨⟩
    exact absurd hxb (by decide)

/-- Stripping leaves a list in parentheses without the documentation in it and behind it. -/
theorem exists_stripsTo_list {fs : List Formal} {ds es : List (List Char)} {g h inner : List Char}
    (hf : ∀ f ∈ fs, f.Sound) (hs : ListText fs ds inner) (hds : ∀ d ∈ ds, IsDocLine d) (hh : Gap es h)
    (hes : ∀ d ∈ es, IsDocLine d) (hg : Blanks g) :
    ∃ list gap, ListText fs [] list ∧ Blanks gap ∧
      StripsTo (ds ++ es) (g ++ '(' :: (inner ++ ')' :: h)) (g ++ '(' :: (list ++ ')' :: gap)) := by
  obtain ⟨list, hlist, h1⟩ := hs.exists_stripsTo hf hds
  obtain ⟨gap, hgap, -, h2⟩ := hh.exists_stripsTo hes
  have h3 : StripsTo [] ['('] ['('] := stripsTo_self (by decide) (by decide)
  have h4 : StripsTo [] [')'] [')'] := stripsTo_self (by decide) (by decide)
  exact ⟨list, gap, hlist, hgap, (stripsTo_blanks hg).append (h3.append (h1.append (h4.append h2)))⟩

/-- A text without documentation states its function, whatever the blanks in it. -/
theorem toOption_declaration {f : FunctionItem} {m : String} {d : OpenDeclaration} {w g gap list : List Char}
    (hf : f.Sound) (hp : isIdentifier (p ++ f.name) = true) (hw : Blanks w) (hg : Blanks g) (hgap : Blanks gap)
    (hlist : ListText f.params [] list) (hremarks : d.remarks = f.doc)
    (htext : Respaced d.text (w ++ (f.name.toList ++ (g ++ '(' :: (list ++ ')' :: gap))))) :
    (declaration p m d.doc d.text).toOption = some (f.descriptor p m) := by
  rw [declaration_congr htext, declaration_eq_ok hw hg hgap hf.name hp (hlist.parameters_eq hf.params),
    hf.stated_eq p m hremarks]
  rfl

theorem readFrom_function {f : FunctionItem} {m : String} {k : Nat} (hf : f.Sound)
    (hp : isIdentifier (p ++ f.name) = true) (ht : ItemText (.function f) t) (ha : Blanks a) (han : '\n' ∉ a)
    (hb : Blanks b) (hline : '\n' ∉ b) (he : LineEnd e s) (hr : r.pending = none) (hm : r.current = some (m, k))
    (n : Nat) :
    ∃ n', readFrom p n r (a ++ (t ++ (b ++ e))) =
      readFrom p n' { r with table := r.table.push (f.descriptor p m) } s := by
  cases ht with
  | @function _ w g ds es h inner hw hne hwn hg hs hh hdoc =>
    have hds : ∀ d ∈ ds, IsDocLine d := fun d hd => hf.doc d (by simp [hdoc, hd])
    have hes : ∀ d ∈ es, IsDocLine d := fun d hd => hf.doc d (by simp [hdoc, hd])
    -- the line of the marker goes on with the function's name
    obtain ⟨x, xs, hname, hx, -⟩ := isIdentifier_iff.1 hf.name
    obtain ⟨c, w, rfl⟩ := List.exists_cons_of_ne_nil hne
    obtain ⟨hpre, hcr, hopens⟩ := opening_of_name hr ha han hw hwn (isIdentifierPart_of_start hx) (n + 1)
    -- the documentation stands in the rest
    obtain ⟨list, gap, hlist, hgap, hrest⟩ := exists_stripsTo_list hf.params hs hds hh hes hg
    have hplain := plain_identifier hf.name
    rw [hname, ← List.singleton_append, plain_append] at hplain
    have hstrips := (stripsTo_self hplain.2.2.1 hplain.2.2.2).append hrest (.last plain_nil)
    obtain ⟨n', d, htext, hremarks, hread⟩ := readFrom_stripped (p := p) hstrips hopens hpre hcr hb hline he
    simp only [List.append_nil, List.nil_append, ← hdoc] at htext hremarks hread
    have hspaced : ' ' :: (c :: (w ++ [x]) ++ (xs ++ (g ++ '(' :: (list ++ ')' :: gap)))) =
        (' ' :: c :: w) ++ (f.name.toList ++ (g ++ '(' :: (list ++ ')' :: gap))) := by
      simp [hname]
    rw [hspaced] at htext
    have hdecl := toOption_declaration (m := m) hf hp (blanks_cons.2 ⟨by decide, hw⟩) hg hgap hlist hremarks htext
    refine ⟨n', ?_⟩
    rw [close_eq_ok hr hm hdecl, ok_bind] at hread
    rw [← hread]
    simp [hname]

/-! ### Whole layouts -/

/-- A function stands in a section, or the next item opens one. -/
def Reader.InSection (r : Reader) (moduleName : String) (items : List Item) : Prop :=
  (∃ k, r.current = some (moduleName, k)) ∨ ∀ i ∈ items.head?, ∃ name, i = .marker name

theorem readFrom_layout {items : List Item} (h : Layout items t) (hs : ∀ i ∈ items, i.Sound)
    (hl : ∀ i ∈ items, i.Linkable p) (hr : r.pending = none) {m : String} (hm : r.InSection m items) (n : Nat) :
    ∃ r', readFrom p n r t = .ok r' ∧ r'.pending = none ∧
      r'.table = (items.foldl (Item.record p) (r.table, m)).1 := by
  induction h generalizing r m n with
  | blanks ha => exact ⟨r, readFrom_blanks hr ha n, hr, rfl⟩
  | @item i is a t b e s ha hi hb hline he _ ih =>
    have hs' : ∀ i ∈ is, i.Sound := fun i hi => hs i (List.mem_cons_of_mem _ hi)
    have hl' : ∀ i ∈ is, i.Linkable p := fun i hi => hl i (List.mem_cons_of_mem _ hi)
    obtain ⟨l, a', ha', han, hread⟩ := readFrom_blanks_append (p := p) hr ha n (t ++ (b ++ e))
    rw [hread, List.foldl_cons]
    cases i with
    | marker name =>
      have hn : isIdentifier name = true := hs _ List.mem_cons_self
      rw [readFrom_marker hn hi ha' han hb hline he hr]
      exact ih (r := { r with table := r.table.ensure name, current := some (name, l + 1) }) hs' hl' hr
        (.inl ⟨l + 1, rfl⟩) (l + 1)
    | function f =>
      have hf : f.Sound := hs _ List.mem_cons_self
      have hp : isIdentifier (p ++ f.name) = true := hl _ List.mem_cons_self
      obtain ⟨k, hk⟩ : ∃ k, r.current = some (m, k) := hm.resolve_right fun h => by
        obtain ⟨name, hname⟩ := h _ rfl
        cases hname
      obtain ⟨l', hread'⟩ := readFrom_function hf hp hi ha' han hb hline he hr hk l
      rw [hread']
      exact ih (r := { r with table := r.table.push (f.descriptor p m) }) hs' hl' hr (.inl ⟨k, hk⟩) l'

theorem Layout.transparent {items : List Item} (h : Layout items t) (hs : ∀ i ∈ items, i.Sound) : Transparent t := by
  induction h with
  | blanks ha => exact transparent_blanks ha
  | @item i is a t b e s ha hi hb _ he _ ih =>
    have hrest := ih fun i hi => hs i (List.mem_cons_of_mem _ hi)
    have hend : Transparent e := by
      cases he with
      | last => exact transparent_nil
      | newline s => exact hrest.cons (by decide)
    have hitem : Transparent t := by
      have hi' := hs i List.mem_cons_self
      cases hi with
      | @marker name u v w hu hv hw _ =>
        have hn := transparent_identifier hi'
        have hclose : Transparent (name.toList ++ (w ++ [')'])) :=
          hn.append ((transparent_blanks hw).append (transparent_of_slash_not_mem (by decide)))
        have hopen : Transparent ('(' :: (v ++ (name.toList ++ (w ++ [')'])))) :=
          Transparent.cons (by decide) ((transparent_blanks hv).append hclose)
        exact (transparent_of_slash_not_mem (by decide)).append ((transparent_blanks hu).append hopen)
      | @function f w g ds es k inner hw _ _ hg hlist hgap hdoc =>
        have hf : f.Sound := hi'
        have h1 := hlist.transparent hf.params fun d hd => hf.doc d (by simp [hdoc, hd])
        have h2 := hgap.transparent fun d hd => hf.doc d (by simp [hdoc, hd])
        have hclose : Transparent (')' :: (k ++ [';'])) :=
          Transparent.cons (by decide) (h2.append (transparent_of_slash_not_mem (by decide)))
        have hlist : Transparent ('(' :: (inner ++ ')' :: (k ++ [';']))) :=
          Transparent.cons (by decide) (h1.append hclose)
        exact (transparent_of_slash_not_mem (by decide)).append ((transparent_blanks hw).append
          ((transparent_identifier hf.name).append ((transparent_blanks hg).append hlist)))
    exact (transparent_blanks ha).append (hitem.append ((transparent_blanks hb).append hend))

/-- **Headers can be read back**: whatever the layout of an outline, its table is found. -/
theorem parse_layout {p text : String} {o : Outline} (hp : ∀ i ∈ o.items, i.Linkable p)
    (h : Layout o.items text.toList) : parse p text = .ok (o.table p) := by
  have hblank : blankComments false text.toList = text.toList := by
    have := h.transparent o.sound []
    rwa [List.append_nil, blankComments_nil, List.append_nil] at this
  obtain ⟨r, hread, hr, htable⟩ := readFrom_layout (r := {}) h o.sound hp rfl (m := "") (.inr o.opening) 0
  rw [← String.ofList_toList (s := text), parse_eq, hblank, hread, ok_bind, finish, hr, htable]
  rfl

/-- A function with a parameter and documentation. -/
def documented : FunctionItem := ⟨"f", [⟨["char".toList, ['*']], "s"⟩], ["doc".toList]⟩

theorem documented_sound : documented.Sound := by
  have hdoc : IsDocLine "doc".toList := ⟨by decide, by decide, by decide, by decide⟩
  have hparam : (⟨["char".toList, ['*']], "s"⟩ : Formal).Sound :=
    ⟨by decide, by simp [IsTypeToken]; decide, by decide⟩
  exact ⟨by decide, by simpa [documented] using hparam, by simpa [documented] using hdoc⟩

/-- A section with that function. -/
def documentedOutline : Outline where
  items := [.marker "m", .function documented]
  sound := by
    have hm : isIdentifier "m" = true := by decide
    simp [Item.Sound, hm, documented_sound]
  opening := by simp

/-- Documentation before a parameter, on lines of their own. -/
theorem parse_layout_documented :
    parse "p_" "LIBFIVE_SECTION( m )\nLIBFIVE_STDLIB f(\n // doc\n char *s);\n" =
      .ok ⟨[⟨"m", [⟨"f", "p_f", "m", [⟨"s", "char*", 0⟩], some "doc"⟩]⟩]⟩ := by
  have hb : Blanks [' '] := by decide
  have hgap : Gap ["doc".toList] ("\n // doc\n ".toList) :=
    .lines (a := []) blanks_nil (.cons (a := [' ']) (b := []) hb blanks_nil (by decide) (.blanks hb))
  have hlist : Spelled false (listTokens documented.params) ["doc".toList] "\n // doc\n char *s".toList :=
    .token hgap (by decide) (.token (g := [' ']) (.blanks hb) (by decide)
      (.token (g := []) (.blanks blanks_nil) (by decide) (.gap (.blanks blanks_nil))))
  have hfunction : ItemText (.function documented) "LIBFIVE_STDLIB f(\n // doc\n char *s);".toList :=
    .function (a := [' ']) (b := []) (g := []) hb (by decide) (by decide) blanks_nil (.tokens hlist)
      (.blanks blanks_nil) rfl
  have hmarker : ItemText (.marker "m") "LIBFIVE_SECTION( m )".toList :=
    .marker (a := []) (b := [' ']) (c := [' ']) blanks_nil hb hb (by decide)
  have hlayout : Layout documentedOutline.items
      "LIBFIVE_SECTION( m )\nLIBFIVE_STDLIB f(\n // doc\n char *s);\n".toList :=
    .item (a := []) (b := []) blanks_nil hmarker blanks_nil (by decide) (.newline _)
      (.item (a := []) (b := []) blanks_nil hfunction blanks_nil (by decide) (.newline _) (.blanks blanks_nil))
  have hp : ∀ i ∈ documentedOutline.items, i.Linkable "p_" := by
    simp only [documentedOutline, List.forall_mem_cons, Item.Linkable, true_and]
    exact ⟨by decide, by simp⟩
  have htable : documentedOutline.table "p_" =
      ⟨[⟨"m", [⟨"f", "p_f", "m", [⟨"s", "char*", 0⟩], some "doc"⟩]⟩]⟩ := by decide
  rw [parse_layout hp hlayout, htable]

end ShapeBindings.Header
