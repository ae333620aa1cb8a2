import ShapeBindings.Proofs.Header.Visible
import ShapeBindings.Proofs.Identifier
import ShapeBindings.Proofs.Table

/-!
# The declaration markers of a header

`markers` lists the markers of declarations that stand outside comments, as whole words, and what becomes of each:

* a marker *opens* a declaration if only blanks and whole declarations stand before it on its line and a blank follows;
* up to the next semicolon a marker is *within* the declaration that is open;
* a marker is *skipped* if other text stands before it on its line, or right behind it.

Nothing is said of a marker that ends its line or stands behind a section marker.  The lemmas follow `scan`, which finds
the markers of one line; more blanks on it, where a word ends already, move none of them (`scan_widens`).
-/

namespace ShapeBindings.Header

open Text

/-! ### Definitions -/

/-- What stands before a place on its line. -/
inductive Mode where
  /-- Blanks and declarations that have ended. -/
  | start
  /-- A declaration that has not ended. -/
  | inside
  /-- A section marker. -/
  | behindSection
  /-- Some other text. -/
  | behindText
  deriving DecidableEq

/-- What becomes of a marker. -/
inductive Fate where
  | opens
  | within
  | skipped
  | unsettled
  deriving DecidableEq

/-- What follows a marker that starts a text.  `word` says that the text continues a word. -/
def markerRest (word : Bool) (s : List Char) : Option (List Char) :=
  (after? declarationMarker.toList s).filter fun rest => !word && !rest.head?.any isIdentifierPart

/-- The fate of a marker with the text `rest` behind it on its line. -/
def Mode.fate : Mode → List Char → Fate
  | start, rest => if Blanks rest then .unsettled else if rest.head?.any isBlank then .opens else .skipped
  | inside, _ => .within
  | behindSection, _ => .unsettled
  | behindText, _ => .skipped

/-- What stands before the text behind a marker. -/
def Mode.mark : Mode → Fate → Mode
  | start, .skipped => behindText
  | start, _ => inside
  | m, _ => m

/-- What stands before the text `s` that follows the character `c`, which is not the first one of a marker. -/
def Mode.next : Mode → Char → List Char → Mode
  | start, c, s =>
    if isBlank c then start
    else if (after? sectionMarker.toList (c :: s)).isSome then behindSection else behindText
  | inside, c, _ => if c = ';' then start else inside
  | m, _, _ => m

/-- The fates of the markers of a line, or of the rest of a line, and what stands before its end. -/
def scan : Mode → Bool → List Char → List Fate × Mode
  | m, _, [] => ([], m)
  | m, word, c :: s =>
    match markerRest word (c :: s) with
    | some rest => ((m.fate rest) :: (scan (m.mark (m.fate rest)) true s).1, (scan (m.mark (m.fate rest)) true s).2)
    | none => scan (m.next c s) (isIdentifierPart c) s

/-- A marker of a header. -/
structure Marker where
  /-- What becomes of it. -/
  fate : Fate
  /-- Whether it stands on a line for the preprocessor. -/
  directive : Bool
  deriving DecidableEq

/-- A line for the preprocessor. -/
def isDirective (s : List Char) : Bool := (trimStart s).head? = some '#'

/-- What stands before a line. -/
def Mode.ofPending (pending : Bool) : Mode := if pending then inside else start

/-- The markers of some lines.  `pending` says that a declaration goes on. -/
def markersFrom : Bool → List (List Char) → List Marker
  | _, [] => []
  | pending, row :: rows =>
    (scan (.ofPending pending) false row).1.map (⟨·, isDirective row⟩) ++
      markersFrom ((scan (.ofPending pending) false row).2 = .inside) rows

/-- The markers of a header. -/
def markers (text : List Char) : List Marker := markersFrom false ((visible .code text).splitOn '\n')

/-- The number of markers that open a declaration. -/
def openings (ms : List Marker) : Nat := ms.countP (·.fate = .opens)

/-! ### One line -/

variable {m : Mode} {word : Bool} {c : Char} {s a b rest : List Char}

theorem fate_start (rest : List Char) :
    Mode.start.fate rest =
      if Blanks rest then .unsettled else if rest.head?.any isBlank then .opens else .skipped := rfl

theorem next_start (c : Char) (s : List Char) :
    Mode.start.next c s = if isBlank c then .start
      else if (after? sectionMarker.toList (c :: s)).isSome then .behindSection else .behindText := rfl

theorem scan_cons_of_some (h : markerRest word (c :: s) = some rest) :
    scan m word (c :: s) =
      ((m.fate rest) :: (scan (m.mark (m.fate rest)) true s).1, (scan (m.mark (m.fate rest)) true s).2) := by
  rw [scan, h]

theorem scan_cons_of_none (h : markerRest word (c :: s) = none) :
    scan m word (c :: s) = scan (m.next c s) (isIdentifierPart c) s := by
  rw [scan, h]

theorem markerRest_cons_of_ne (hc : c ≠ 'L') (word : Bool) (s : List Char) : markerRest word (c :: s) = none := by
  have h : after? declarationMarker.toList (c :: s) = none := after?_cons_of_ne (Ne.symm hc) _ _
  rw [markerRest, h]
  rfl

/-- A blank ends a word, and nothing else. -/
theorem scan_blank_cons (hc : isBlank c = true) (m : Mode) (word : Bool) (s : List Char) :
    scan m word (c :: s) = scan m false s := by
  have hnext : m.next c s = m := by
    cases m with
    | start => exact if_pos hc
    | inside => exact if_neg (isBlank_ne hc (by decide))
    | behindSection => rfl
    | behindText => rfl
  rw [scan_cons_of_none (markerRest_cons_of_ne (isBlank_ne hc (by decide)) _ _), hnext, isIdentifierPart_of_isBlank hc]

theorem scan_blanks_append (ha : Blanks a) (m : Mode) (s : List Char) : scan m false (a ++ s) = scan m false s := by
  induction a with
  | nil => rfl
  | cons c a ih =>
    obtain ⟨hc, ha⟩ := blanks_cons.1 ha
    rw [List.cons_append, scan_blank_cons hc, ih ha]

theorem eq_of_markerRest (h : markerRest word s = some rest) : s = declarationMarker.toList ++ rest := by
  unfold markerRest at h
  exact after?_eq_some_iff.1 (Option.filter_eq_some_iff.1 h).1

/-- Behind a text that is no declaration, no declaration opens. -/
theorem scan_behind (hm : m = .behindSection ∨ m = .behindText) (word : Bool) (s : List Char) :
    Fate.opens ∉ (scan m word s).1 ∧ (scan m word s).2 ≠ .inside := by
  induction s generalizing word with
  | nil =>
    refine ⟨List.not_mem_nil, ?_⟩
    obtain rfl | rfl := hm <;> simp [scan]
  | cons c s ih =>
    cases h : markerRest word (c :: s) with
    | none =>
      have hnext : m.next c s = m := by obtain rfl | rfl := hm <;> rfl
      rw [scan_cons_of_none h, hnext]
      exact ih _
    | some rest =>
      have hfate : m.fate rest ≠ .opens := by obtain rfl | rfl := hm <;> simp [Mode.fate]
      have hmark : m.mark (m.fate rest) = m := by obtain rfl | rfl := hm <;> rfl
      rw [scan_cons_of_some h, hmark]
      exact ⟨List.not_mem_cons_of_ne_of_not_mem hfate.symm (ih true).1, (ih true).2⟩

/-- A declaration goes on up to a semicolon. -/
theorem scan_inside_append (ha : ';' ∉ a) (word : Bool) (s : List Char) :
    ∃ fs word', (∀ f ∈ fs, f = Fate.within) ∧
      scan .inside word (a ++ s) = (fs ++ (scan .inside word' s).1, (scan .inside word' s).2) := by
  induction a generalizing word with
  | nil => exact ⟨[], word, by simp, rfl⟩
  | cons c a ih =>
    rw [List.mem_cons, not_or] at ha
    cases h : markerRest word (c :: (a ++ s)) with
    | none =>
      have hnext : Mode.inside.next c (a ++ s) = .inside := if_neg (Ne.symm ha.1)
      obtain ⟨fs, word', hfs, hscan⟩ := ih ha.2 (isIdentifierPart c)
      exact ⟨fs, word', hfs, by rw [List.cons_append, scan_cons_of_none h, hnext, hscan]⟩
    | some rest =>
      obtain ⟨fs, word', hfs, hscan⟩ := ih ha.2 true
      have hmark : Mode.inside.mark (Mode.inside.fate rest) = .inside := rfl
      refine ⟨.within :: fs, word', by simpa using hfs, ?_⟩
      rw [List.cons_append, scan_cons_of_some h, hmark, hscan]
      rfl

theorem scan_inside_of_not_mem (hs : ';' ∉ s) (word : Bool) :
    ∃ fs, (∀ f ∈ fs, f = Fate.within) ∧ scan .inside word s = (fs, .inside) := by
  obtain ⟨fs, word', hfs, hscan⟩ := scan_inside_append hs word []
  rw [List.append_nil] at hscan
  exact ⟨fs, hfs, by rw [hscan, scan, List.append_nil]⟩

theorem scan_inside_semicolon (ha : ';' ∉ a) (word : Bool) (s : List Char) :
    ∃ fs, (∀ f ∈ fs, f = Fate.within) ∧
      scan .inside word (a ++ ';' :: s) = (fs ++ (scan .start false s).1, (scan .start false s).2) := by
  obtain ⟨fs, word', hfs, hscan⟩ := scan_inside_append ha word (';' :: s)
  have hnext : Mode.inside.next ';' s = .start := rfl
  have hpart : isIdentifierPart ';' = false := by decide
  rw [scan_cons_of_none (markerRest_cons_of_ne (by decide) _ _), hnext, hpart] at hscan
  exact ⟨fs, hfs, hscan⟩

/-! ### More blanks -/

variable {glued : Bool} {x y : List Char}

/-- A word at the start of a line is at the start of the line with more blanks, and the rests are alike. -/
theorem after?_widens {w : List Char} (hw : ∀ c ∈ w, isBlank c = false) (h : Widens true x y) :
    (after? w x = none ∧ after? w y = none) ∨
      ∃ r r', after? w x = some r ∧ after? w y = some r' ∧ Widens true r r' := by
  induction w generalizing x y with
  | nil => exact .inr ⟨x, y, rfl, rfl, h⟩
  | cons d w ih =>
    rw [List.forall_mem_cons] at hw
    cases h with
    | nil => exact .inl ⟨rfl, rfl⟩
    | @cons _ c x y h =>
      by_cases hc : d = c
      · subst hc
        rw [hw.1] at h
        rw [after?_cons_self, after?_cons_self]
        exact ih hw.2 h
      · exact .inl ⟨after?_cons_of_ne hc _ _, after?_cons_of_ne hc _ _⟩
    | @blank _ c _ y hc hx h =>
      have hne : ∀ e, isBlank e = true → d ≠ e := fun e he => (isBlank_ne he hw.1).symm
      refine .inl ⟨?_, after?_cons_of_ne (hne c hc) _ _⟩
      cases x with
      | nil => rfl
      | cons e x => exact after?_cons_of_ne (hne e (hx rfl)) _ _

theorem any_head?_widens {q : Char → Bool} (hq : ∀ c, isBlank c = true → q c = false) (h : Widens true x y) :
    y.head?.any q = x.head?.any q := by
  cases h with
  | nil => rfl
  | cons h => rfl
  | @blank _ c _ y hc hx h =>
    have hy : (c :: y).head?.any q = false := hq c hc
    rw [hy]
    cases x with
    | nil => rfl
    | cons e x => exact (hq e (hx rfl)).symm

theorem markerRest_widens (h : Widens true x y) (word : Bool) :
    (markerRest word x = none ∧ markerRest word y = none) ∨
      ∃ r r', markerRest word x = some r ∧ markerRest word y = some r' ∧ Widens true r r' := by
  have hmarker : ∀ c ∈ declarationMarker.toList, isBlank c = false := forall_mem_of_all (by decide)
  unfold markerRest
  rcases after?_widens hmarker h with ⟨hx, hy⟩ | ⟨r, r', hx, hy, hr⟩
  · rw [hx, hy]
    exact .inl ⟨rfl, rfl⟩
  · rw [hx, hy, Option.filter_some, Option.filter_some, any_head?_widens (fun c => isIdentifierPart_of_isBlank) hr]
    split
    · exact .inr ⟨r, r', rfl, rfl, hr⟩
    · exact .inl ⟨rfl, rfl⟩

theorem blanks_widens_iff (h : Widens glued x y) : Blanks y ↔ Blanks x := by
  induction h with
  | nil => rfl
  | cons _ ih => rw [blanks_cons, blanks_cons, ih]
  | blank hc _ _ ih => rw [blanks_cons, ih, and_iff_right hc]

theorem fate_widens (h : Widens true x y) (m : Mode) : m.fate y = m.fate x := by
  cases m with
  | start =>
    rw [fate_start, fate_start]
    by_cases hx : Blanks x
    · rw [if_pos hx, if_pos ((blanks_widens_iff h).2 hx)]
    · rw [if_neg hx, if_neg (mt (blanks_widens_iff h).1 hx)]
      cases h with
      | nil => rfl
      | cons h => rfl
      | @blank _ c _ y hc hbreak h =>
        obtain ⟨e, x, rfl⟩ := List.exists_cons_of_ne_nil (by rintro rfl; exact hx blanks_nil : x ≠ [])
        have he : isBlank e = true := hbreak rfl
        have hleft : (c :: y).head?.any isBlank = true := hc
        have hright : (e :: x).head?.any isBlank = true := he
        rw [hleft, hright]
  | inside => rfl
  | behindSection => rfl
  | behindText => rfl

theorem next_widens (h : Widens (!isBlank c) x y) (m : Mode) : m.next c y = m.next c x := by
  cases m with
  | start =>
    have hmarker : ∀ c ∈ sectionMarker.toList, isBlank c = false := forall_mem_of_all (by decide)
    have hsection : (after? sectionMarker.toList (c :: y)).isSome = (after? sectionMarker.toList (c :: x)).isSome := by
      rcases after?_widens hmarker (.cons h) with ⟨hx, hy⟩ | ⟨r, r', hx, hy, -⟩ <;> rw [hx, hy]
      rfl
    rw [next_start, next_start, hsection]
  | inside => rfl
  | behindSection => rfl
  | behindText => rfl

theorem scan_of_breaksOff (h : breaksOff s = true) (m : Mode) (word : Bool) : scan m word s = scan m false s := by
  cases s with
  | nil => rfl
  | cons c s => rw [scan_blank_cons h, scan_blank_cons h]

/-- More blanks, where there are some, move no marker. -/
theorem scan_widens (h : Widens glued x y) (m : Mode) {word : Bool} (hword : word = true → glued = true) :
    scan m word y = scan m word x := by
  induction h generalizing m word with
  | nil => rfl
  | @cons glued c x y h ih =>
    rcases markerRest_widens (.cons h) word with ⟨hx, hy⟩ | ⟨r, r', hx, hy, hr⟩
    · rw [scan_cons_of_none hx, scan_cons_of_none hy, next_widens h]
      refine ih _ fun hpart => ?_
      rw [Bool.not_eq_true', ← Bool.not_eq_true]
      intro hblank
      rw [isIdentifierPart_of_isBlank hblank] at hpart
      cases hpart
    · have hc : isBlank c = false := by
        obtain rfl : c = 'L' := (List.cons.inj (eq_of_markerRest hx)).1
        decide
      rw [scan_cons_of_some hx, scan_cons_of_some hy, fate_widens hr, ih _ fun _ => by rw [hc]; rfl]
  | @blank glued c x y hc hx _ ih =>
    rw [scan_blank_cons hc, ih m (fun hfalse => absurd hfalse Bool.false_ne_true)]
    cases word with
    | false => rfl
    | true => exact (scan_of_breaksOff (hx (hword rfl)) m true).symm

theorem widens_append_blanks (hb : Blanks b) (glued : Bool) (s : List Char) : Widens glued s (s ++ b) := by
  induction s generalizing glued with
  | nil =>
    induction b with
    | nil => exact .nil
    | cons c b ih =>
      obtain ⟨hc, hb⟩ := blanks_cons.1 hb
      exact .blank hc (fun _ => rfl) (ih hb)
  | cons c s ih => exact .cons (ih _)

theorem scan_append_blanks (hb : Blanks b) (m : Mode) (word : Bool) (s : List Char) :
    scan m word (s ++ b) = scan m word s :=
  scan_widens (widens_append_blanks hb true s) m fun _ => rfl

theorem isDirective_widens (h : Widens glued x y) : isDirective y = isDirective x := by
  unfold isDirective
  congr 2
  induction h with
  | nil => rfl
  | @cons glued c x y h ih =>
    cases hc : isBlank c with
    | true => rw [trimStart_cons_of_blank hc, trimStart_cons_of_blank hc, ih]
    | false => rw [trimStart_cons_of_not_blank hc, trimStart_cons_of_not_blank hc]; rfl
  | blank hc _ _ ih => rw [trimStart_cons_of_blank hc, ih]

theorem markersFrom_widens {rows rows' : List (List Char)} (h : List.Forall₂ (Widens false) rows rows')
    (pending : Bool) : markersFrom pending rows' = markersFrom pending rows := by
  induction h generalizing pending with
  | nil => rfl
  | cons hrow _ ih =>
    rw [markersFrom, markersFrom, scan_widens hrow _ fun hfalse => absurd hfalse Bool.false_ne_true,
      isDirective_widens hrow, ih]

end ShapeBindings.Header
