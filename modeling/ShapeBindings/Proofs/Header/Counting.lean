import ShapeBindings.Proofs.Header.Markers
import ShapeBindings.Proofs.Header.Multiline
import ShapeBindings.Proofs.Text.Words

/-!
# Every marker that opens a declaration becomes one function

* `readRest_matches`: reading a line opens as many declarations as the line has markers that open one;
* `readFrom_opened`: so does reading any number of lines;
* `functionCount_eq_openings`: the functions of a table are as many as the markers that open a declaration.
-/

namespace ShapeBindings.Header

open Text Reader

variable {p : String} {n : Nat} {r r' : Reader} {d : OpenDeclaration} {s a b : List Char} {c : Char}

/-! ### Markers that open a declaration -/

/-- The markers behind the one that opens a declaration are found from there. -/
theorem scan_opening (ha : Blanks a) (hc : isBlank c = true) (hs : ¬ Blanks s) :
    ∃ t, ';' ∉ t ∧ scan .start false (a ++ (declarationMarker.toList ++ c :: s)) =
      (.opens :: (scan .inside true (t ++ s)).1, (scan .inside true (t ++ s)).2) := by
  have hpart : isIdentifierPart c = false := isIdentifierPart_of_isBlank hc
  have hmarker : markerRest false (declarationMarker.toList ++ c :: s) = some (c :: s) := by
    simp [markerRest, hpart]
  have hfate : Mode.start.fate (c :: s) = .opens := by
    have hcs : ¬ Blanks (c :: s) := fun h => hs (blanks_cons.1 h).2
    have hany : (c :: s).head?.any isBlank = true := hc
    rw [fate_start, if_neg hcs, if_pos hany]
  refine ⟨declarationMarker.toList.tail ++ [c], ?_, ?_⟩
  · rw [List.mem_append, List.mem_singleton, not_or]
    exact ⟨by decide, (isBlank_ne hc (by decide)).symm⟩
  · have htail : declarationMarker.toList ++ c :: s = 'L' :: (declarationMarker.toList.tail ++ [c] ++ s) := by
      rw [List.append_assoc]
      rfl
    rw [scan_blanks_append ha, htail, scan_cons_of_some (by rw [← htail]; exact hmarker), hfate]
    rfl

/-- A line that opens no declaration has no marker that does. -/
theorem scan_of_not_opens (ho : opensDeclaration (trim s) = false) (hs : Fate.unsettled ∉ (scan .start false s).1) :
    Fate.opens ∉ (scan .start false s).1 ∧ (scan .start false s).2 ≠ .inside := by
  obtain ⟨a, ha, htrim⟩ := exists_trimStart s
  rw [htrim, scan_blanks_append ha] at hs ⊢
  cases hstart : trimStart s with
  | nil => exact ⟨List.not_mem_nil, by decide⟩
  | cons c t =>
    rw [hstart] at htrim hs
    cases h : markerRest false (c :: t) with
    | none =>
      have hnext : Mode.start.next c t = .behindSection ∨ Mode.start.next c t = .behindText := by
        rw [next_start, if_neg (by rw [isBlank_of_trimStart hstart]; decide)]
        split
        · exact .inl rfl
        · exact .inr rfl
      rw [scan_cons_of_none h]
      exact scan_behind hnext (isIdentifierPart c) t
    | some rest =>
      rw [scan_cons_of_some h] at hs ⊢
      have hrest : ¬ Blanks rest := fun hb => hs (by rw [fate_start, if_pos hb]; exact List.mem_cons_self)
      -- a blank behind the marker would make it open a declaration
      have hany : rest.head?.any isBlank = false := by
        rw [← Bool.not_eq_true]
        intro hany
        obtain ⟨e, u, rfl⟩ : ∃ e u, rest = e :: u := List.exists_cons_of_ne_nil (by rintro rfl; simp at hany)
        have hu : ¬ Blanks u := fun hu => hrest (blanks_cons.2 ⟨hany, hu⟩)
        rw [htrim, eq_of_markerRest h, opensDeclaration_trim ha hany hu] at ho
        cases ho
      have hfate : Mode.start.fate rest = .skipped := by
        rw [fate_start, if_neg hrest, if_neg (by rw [hany]; decide)]
      obtain ⟨h1, h2⟩ := scan_behind (m := .behindText) (.inr rfl) true t
      rw [hfate]
      exact ⟨List.not_mem_cons_of_ne_of_not_mem (by decide) h1, h2⟩

/-! ### One line -/

/-- The declarations that have opened: those that have ended, and the one that has not. -/
def Reader.opened (r : Reader) : Nat := r.table.functionCount + if r.pending.isSome then 1 else 0

/-- From `r` to `r'`, declarations open as the markers of a line have it. -/
def Reader.Matches (r r' : Reader) (q : List Fate × Mode) : Prop :=
  r'.opened = r.opened + q.1.count .opens ∧ r'.pending.isSome = decide (q.2 = .inside)

theorem functionCount_close (h : r.close p d = .ok r') :
    r'.table.functionCount = r.table.functionCount + 1 := by
  obtain ⟨_, _, descriptor, -, -, rfl⟩ := exists_of_close h
  exact Table.functionCount_push r.table descriptor

theorem opened_openSection {text : List Char} (h : r.openSection n text = .ok r') :
    r'.opened = r.opened ∧ r'.pending = r.pending := by
  obtain ⟨name, -, rfl⟩ := exists_of_openSection h
  exact ⟨by simp [opened], rfl⟩

theorem count_within {fs : List Fate} (h : ∀ f ∈ fs, f = .within) : fs.count .opens = 0 := by
  rw [List.count_eq_zero]
  intro hm
  cases h _ hm

/-- What stands before the line that is read next. -/
def Reader.mode (r : Reader) : Mode := .ofPending r.pending.isSome

theorem mode_of_none (h : r.pending = none) : r.mode = .start := by
  rw [mode, h]
  rfl

theorem mode_of_some (h : r.pending = some d) : r.mode = .inside := by
  rw [mode, h]
  rfl

/-- A declaration ends before the text `b`, and the markers before its end are `fs`. -/
theorem matches_close {fs : List Fate} {q : List Fate × Mode} {trimmed : Bool}
    (h : ((r.close p d).bind fun r => readRest p n b r none true trimmed) = .ok r')
    (hq : q = (fs ++ (scan .start false b).1, (scan .start false b).2)) (hs : Fate.unsettled ∉ q.1)
    (hfs : r.opened + fs.count .opens = r.table.functionCount + 1)
    (ih : ∀ r : Reader, readRest p n b r none true trimmed = .ok r' → Fate.unsettled ∉ (scan r.mode false b).1 →
      r.Matches r' (scan r.mode false b)) : r.Matches r' q := by
  subst hq
  cases hclose : r.close p d with
  | error e =>
    rw [hclose] at h
    cases h
  | ok r₁ =>
    rw [hclose, ok_bind] at h
    have hpending := pending_close hclose
    have ih := ih r₁ h
    rw [mode_of_none hpending] at ih
    obtain ⟨h1, h2⟩ := ih fun hm => hs (List.mem_append_right _ hm)
    have hopened : r₁.opened = r.table.functionCount + 1 := by simp [opened, functionCount_close hclose, hpending]
    refine ⟨?_, h2⟩
    rw [h1, hopened, ← hfs, List.count_append, Nat.add_assoc]

section Rest

variable {remark : Option (List Char)} {ended trimmed : Bool}

/-- Behind the end of a declaration, any shorter text than `s` opens declarations as its markers have it. -/
def MatchesBehind (p : String) (n : Nat) (s : List Char) (r' : Reader) : Prop :=
  ∀ b, b.length < s.length → ∀ (r : Reader) (trimmed : Bool), readRest p n b r none true trimmed = .ok r' →
    Fate.unsettled ∉ (scan r.mode false b).1 → r.Matches r' (scan r.mode false b)

theorem matches_pending (hp : r.pending = some d) (h : readRest p n s r remark ended trimmed = .ok r')
    (hs : Fate.unsettled ∉ (scan .inside false s).1) (ih : MatchesBehind p n s r') :
    r.Matches r' (scan .inside false s) := by
  by_cases hsemi : ';' ∈ s
  · obtain ⟨a, b, rfl, ha⟩ := List.eq_append_cons_of_mem hsemi
    obtain ⟨fs, hfs, hscan⟩ := scan_inside_semicolon ha false b
    have hb : b.length < (a ++ ';' :: b).length := by rw [List.length_append, List.length_cons]; omega
    rw [Reader.readRest_close ha (continuation_pending hp _ _)] at h
    refine matches_close h hscan hs ?_ fun r => ih b hb r _
    simp [opened, hp, count_within hfs]
  · obtain ⟨fs, hfs, hscan⟩ := scan_inside_of_not_mem hsemi false
    rw [Reader.readRest_last hsemi (continuation_pending hp _ _)] at h
    cases h
    rw [hscan]
    exact ⟨by simp [opened, hp, count_within hfs], rfl⟩

theorem matches_opening (hp : r.pending = none) (ho : opensDeclaration (trim s) = true)
    (h : readRest p n s r remark ended trimmed = .ok r') (hs : Fate.unsettled ∉ (scan .start false s).1)
    (ih : MatchesBehind p n s r') : r.Matches r' (scan .start false s) := by
  obtain ⟨a, c, u, ha, hc, hu, rfl⟩ := exists_opening ho
  obtain ⟨t, ht, hscan⟩ := scan_opening ha hc hu
  have hmarker : ';' ∉ a ++ (declarationMarker.toList ++ [c]) := by
    have h1 : ';' ∉ a := ha.not_mem (by decide)
    have h2 : ';' ≠ c := (isBlank_ne hc (by decide)).symm
    simp [h1, h2, declarationMarker]
  by_cases hsemi : ';' ∈ u
  · obtain ⟨v, b, rfl, hv⟩ := List.eq_append_cons_of_mem hsemi
    have hsplit : a ++ (declarationMarker.toList ++ c :: (v ++ ';' :: b)) =
        (a ++ (declarationMarker.toList ++ [c]) ++ v) ++ ';' :: b := by simp
    have hav : ';' ∉ a ++ (declarationMarker.toList ++ [c]) ++ v := fun h => (List.mem_append.1 h).elim hmarker hv
    have htv : ';' ∉ t ++ v := fun h => (List.mem_append.1 h).elim ht hv
    obtain ⟨fs, hfs, hrest⟩ := scan_inside_semicolon htv true b
    rw [List.append_assoc] at hrest
    rw [hrest, hsplit] at hscan
    have hscan : scan .start false _ = ((.opens :: fs) ++ (scan .start false b).1, _) := hscan
    rw [hsplit] at h ho hs ih ⊢
    have hb : b.length < (a ++ (declarationMarker.toList ++ [c]) ++ v ++ ';' :: b).length := by
      rw [List.length_append, List.length_cons]
      omega
    rw [Reader.readRest_close hav (continuation_opening hp ho _)] at h
    refine matches_close h hscan hs ?_ fun r => ih b hb r _
    simp [opened, hp, count_within hfs]
  · have htu : ';' ∉ t ++ u := fun h => (List.mem_append.1 h).elim ht hsemi
    obtain ⟨fs, hfs, hrest⟩ := scan_inside_of_not_mem htu true
    rw [hrest] at hscan
    have hsplit : a ++ (declarationMarker.toList ++ c :: u) = a ++ (declarationMarker.toList ++ [c]) ++ u := by simp
    have hau : ';' ∉ a ++ (declarationMarker.toList ++ c :: u) := by
      rw [hsplit]
      exact fun h => (List.mem_append.1 h).elim hmarker hsemi
    rw [Reader.readRest_last hau (continuation_opening hp ho _)] at h
    cases h
    rw [hscan]
    exact ⟨by simp [opened, hp, count_within hfs], rfl⟩

theorem matches_skipped (hp : r.pending = none) (ho : opensDeclaration (trim s) = false)
    (h : readRest p n s r remark ended trimmed = .ok r') (hs : Fate.unsettled ∉ (scan .start false s).1) :
    r.Matches r' (scan .start false s) := by
  obtain ⟨h1, h2⟩ := scan_of_not_opens ho hs
  have hr' : r'.opened = r.opened ∧ r'.pending = r.pending := by
    rw [readRest_none hp ho] at h
    split at h
    · exact opened_openSection h
    · split at h
      · cases h
      · cases h
        exact ⟨rfl, rfl⟩
  refine ⟨by rw [hr'.1, List.count_eq_zero.2 h1, Nat.add_zero], ?_⟩
  rw [hr'.2, hp]
  exact (decide_eq_false h2).symm

/-- A line, or the rest of a line, opens as many declarations as it has markers that open one. -/
theorem readRest_matches (h : readRest p n s r remark ended trimmed = .ok r')
    (hs : Fate.unsettled ∉ (scan r.mode false s).1) : r.Matches r' (scan r.mode false s) := by
  induction hl : s.length using Nat.strong_induction_on generalizing s r remark ended trimmed with
  | _ l ih =>
    have behind : MatchesBehind p n s r' := fun b hb r trimmed h hs => ih b.length (hl ▸ hb) h hs rfl
    cases hp : r.pending with
    | some d =>
      rw [mode_of_some hp] at hs ⊢
      exact matches_pending hp h hs behind
    | none =>
      rw [mode_of_none hp] at hs ⊢
      cases ho : opensDeclaration (trim s) with
      | true => exact matches_opening hp ho h hs behind
      | false => exact matches_skipped hp ho h hs

end Rest

/-! ### All lines -/

theorem codeOf_append_blanks (hb : Blanks b) (s : List Char) : ∃ c, Blanks c ∧ codeOf (s ++ b) = codeOf s ++ c := by
  unfold codeOf Line.ofText
  rw [cutAt_append_blanks (forall_mem_of_all (by decide)) hb]
  cases cutAt ['/', '/'] s with
  | none => exact ⟨b, hb, rfl⟩
  | some q => exact ⟨[], blanks_nil, (List.append_nil _).symm⟩

/-- A line is read like the code that its row holds, up to the end of the line. -/
theorem readLine_matches {row : List Char} (hrow : ∃ b, Blanks b ∧ row = a ++ b)
    (h : r.readLine p (.ofText n a) = .ok r')
    (hs : Fate.unsettled ∉ (scan r.mode false (codeOf row)).1) : r.Matches r' (scan r.mode false (codeOf row)) := by
  obtain ⟨b, hb, rfl⟩ := hrow
  obtain ⟨c, hc, hcode⟩ := codeOf_append_blanks hb a
  rw [hcode, scan_append_blanks hc] at hs ⊢
  rw [readLine_eq, code_ofText] at h
  exact readRest_matches h hs

theorem openings_append (ms ns : List Marker) : openings (ms ++ ns) = openings ms + openings ns := List.countP_append

theorem openings_map (fs : List Fate) (directive : Bool) :
    openings (fs.map (⟨·, directive⟩)) = fs.count .opens := by
  rw [openings, List.countP_map, List.count]
  congr 1

theorem readFrom_opened (h : readFrom p n r s = .ok r')
    (hs : ∀ m ∈ markersFrom r.pending.isSome ((s.splitOn '\n').map codeOf), m.fate ≠ .unsettled) :
    r'.opened = r.opened + openings (markersFrom r.pending.isSome ((s.splitOn '\n').map codeOf)) := by
  induction hl : s.length using Nat.strong_induction_on generalizing s r n with
  | _ l ih =>
    -- the markers of the first line and those of the others
    have first : ∀ {row rows}, (∀ m ∈ markersFrom r.pending.isSome (row :: rows), m.fate ≠ .unsettled) →
        Fate.unsettled ∉ (scan r.mode false row).1 := by
      intro row rows hm hu
      exact hm ⟨.unsettled, isDirective row⟩ (List.mem_append_left _ (List.mem_map_of_mem hu)) rfl
    by_cases hn : '\n' ∈ s
    · obtain ⟨a, b, ha, rfl⟩ := exists_newline_split hn
      obtain ⟨c, hc, hch⟩ := exists_chomp a
      rw [List.splitOn_append_cons_self_of_not_mem ha, List.map_cons] at hs ⊢
      rw [readFrom_line ha] at h
      cases hline : r.readLine p (.ofText (n + 1) (chomp a)) with
      | error e => rw [hline] at h; cases h
      | ok r₁ =>
        rw [hline, ok_bind] at h
        obtain ⟨h1, h2⟩ := readLine_matches ⟨c, hc, hch⟩ hline (first hs)
        have hb : b.length < l := by rw [← hl, List.length_append, List.length_cons]; omega
        rw [markersFrom] at hs ⊢
        rw [show Mode.ofPending r.pending.isSome = r.mode from rfl, ← h2] at hs ⊢
        have hb := ih b.length hb h (fun m hm => hs m (List.mem_append_right _ hm)) rfl
        rw [hb, h1, openings_append, openings_map, Nat.add_assoc]
    · rw [List.splitOn_eq_singleton hn, List.map_singleton] at hs ⊢
      have hmarkers : openings (markersFrom r.pending.isSome [codeOf s]) =
          (scan r.mode false (codeOf s)).1.count .opens := by
        rw [markersFrom, openings_append, openings_map]
        rfl
      rw [hmarkers]
      by_cases hnil : s = []
      · subst hnil
        cases h
        rfl
      · rw [readFrom_last hn hnil] at h
        exact (readLine_matches ⟨[], blanks_nil, (List.append_nil s).symm⟩ h (first hs)).1

/-- **Every marker that opens a declaration becomes one function** of the table, and nothing else does. -/
theorem functionCount_eq_openings {p text : String} {t : Table} (hc : plainComments .code false text.toList = true)
    (hs : ∀ m ∈ markers text.toList, m.fate ≠ .unsettled) (h : parse p text = .ok t) :
    t.functionCount = openings (markers text.toList) := by
  rw [← String.ofList_toList (s := text), parse_eq] at h
  cases hread : readFrom p 0 {} (blankComments false text.toList) with
  | error e => rw [hread] at h; cases h
  | ok r =>
    rw [hread, ok_bind] at h
    unfold markers at hs ⊢
    rw [markersFrom_widens (widens_visible hc)] at hs ⊢
    have hopened := readFrom_opened hread hs
    unfold finish at h
    split at h
    · cases h
    · next hp =>
      cases h
      simpa [opened, hp, Table.functionCount] using hopened

/-- A header with markers of every kind: on a line for the preprocessor, in a comment, in a declaration and behind
other text. -/
def mixedMarkers : String :=
  "#LIBFIVE_STDLIB\nLIBFIVE_SECTION(m)/**/ // as /* LIBFIVE_STDLIB */ f\n" ++
    "LIBFIVE_STDLIB f(LIBFIVE_STDLIB a);LIBFIVE_STDLIB g(\n);\nx LIBFIVE_STDLIB"

theorem functionCount_eq_openings_mixed :
    ∃ t, parse "p_" mixedMarkers = .ok t ∧ t.functionCount = openings (markers mixedMarkers.toList) ∧
      (markers mixedMarkers.toList).length = 5 ∧ t.functionCount = 2 := by
  have h : parse "p_" mixedMarkers = .ok ⟨[⟨"m", [⟨"f", "p_f", "m", [⟨"a", "LIBFIVE_STDLIB", 0⟩], none⟩,
      ⟨"g", "p_g", "m", [], none⟩]⟩]⟩ := by decide +kernel
  have hm : markers mixedMarkers.toList =
      [⟨.skipped, true⟩, ⟨.opens, false⟩, ⟨.within, false⟩, ⟨.opens, false⟩, ⟨.skipped, false⟩] := by decide +kernel
  have hs : ∀ m ∈ markers mixedMarkers.toList, m.fate ≠ .unsettled := by
    rw [hm]
    decide
  exact ⟨_, h, functionCount_eq_openings (by decide +kernel) hs h, by rw [hm]; rfl, rfl⟩

/-- A declaration behind other text is lost. -/
theorem marker_behind_text_is_lost :
    ∃ t, parse "p_" "LIBFIVE_SECTION(m)\nextern LIBFIVE_STDLIB f();\n" = .ok t ∧
      t.functionCount ≠ (markers "LIBFIVE_SECTION(m)\nextern LIBFIVE_STDLIB f();\n".toList).countP (!·.directive) := by
  have h : parse "p_" "LIBFIVE_SECTION(m)\nextern LIBFIVE_STDLIB f();\n" = .ok ⟨[⟨"m", []⟩]⟩ := by decide +kernel
  exact ⟨_, h, by decide +kernel⟩

end ShapeBindings.Header
