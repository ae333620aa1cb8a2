import ShapeBindings.Proofs.Header.ErrorLines
import ShapeBindings.Proofs.Table.Merging

/-!
# Headers one after the other

A header that ends with a line feed and in no block comment can stand before any other.

* `Reader.after`: the reader of a text, seen from where some lines stand before it;
* `Follows`: what is read of a text behind such lines is what is read of it alone, with the lines counted on;
* `parse_append`: the table of two headers is the one of the first with the modules of the second merged into it, and
  the first error decides.
-/

namespace ShapeBindings.Header

open Text Reader

/-- A text that is empty or ends with a line feed, and leaves no block comment open. -/
def Closed (u : List Char) : Prop := Ended u ∧ commentOpen false u = false

/-! ### A reader behind other lines -/

/-- An error behind `k` lines. -/
def HeaderError.after (k : Nat) (e : HeaderError) : HeaderError := { e with line := e.line + k }

/-- A declaration behind `k` lines. -/
def OpenDeclaration.after (k : Nat) (d : OpenDeclaration) : OpenDeclaration := { d with line := d.line + k }

/-- A reader behind `k` lines that leave a table and a section. -/
def Reader.after (t : Table) (section? : Option (String × Nat)) (k : Nat) (r : Reader) : Reader where
  table := t.merge r.table
  current := (r.current.map fun (name, n) => (name, n + k)).or section?
  pending := r.pending.map (OpenDeclaration.after k)

/-- What is read behind `k` lines, where a first result is what is read alone.  A declaration that is in no section alone
may be in one behind other lines, so nothing is said then. -/
inductive Follows {α β : Type} (k : Nat) (place : α → β) : Except HeaderError α → Except HeaderError β → Prop
  | ok {a : α} {b : β} (h : b = place a) : Follows k place (.ok a) (.ok b)
  | error {e : HeaderError} {y : Except HeaderError β} (h : e.fault ≠ .outsideSection → y = .error (e.after k)) :
      Follows k place (.error e) y

theorem Follows.eq_of_ok {α β : Type} {k : Nat} {place : α → β} {a : α} {y : Except HeaderError β}
    (h : Follows k place (.ok a) y) : y = .ok (place a) := by
  cases h with
  | ok h => rw [h]

theorem Follows.eq_of_error {α β : Type} {k : Nat} {place : α → β} {e : HeaderError} {y : Except HeaderError β}
    (h : Follows k place (.error e) y) (he : e.fault ≠ .outsideSection) : y = .error (e.after k) := by
  cases h with
  | error h => exact h he

theorem Follows.bind {α β γ δ : Type} {k : Nat} {place : α → β} {place' : γ → δ} {x : Except HeaderError α}
    {y : Except HeaderError β} (h : Follows k place x y) {f : α → Except HeaderError γ} {g : β → Except HeaderError δ}
    (hfg : ∀ a, x = .ok a → Follows k place' (f a) (g (place a))) : Follows k place' (x.bind f) (y.bind g) := by
  cases h with
  | ok h =>
    rw [h]
    exact hfg _ rfl
  | error h =>
    refine .error fun he => ?_
    rw [h he]
    rfl

section After

variable {p : String} {t : Table} {c : Option (String × Nat)} {k n : Nat} {r : Reader}

theorem follows_openSection (text : List Char) :
    Follows k (Reader.after t c k) (r.openSection n text) ((r.after t c k).openSection (n + k) text) := by
  unfold openSection
  dsimp only
  split
  · exact .error fun _ => rfl
  · next inner _ _ =>
    cases hi : isIdentifier (String.ofList (trim inner)) with
    | false => exact .error fun _ => rfl
    | true =>
      let name := String.ofList (trim inner)
      have hafter : Reader.after t c k { r with table := r.table.ensure name, current := some (name, n) } =
          { r.after t c k with table := (t.merge r.table).ensure name, current := some (name, n + k) } := by
        simp [Reader.after, Table.merge_ensure]
      exact .ok hafter.symm

theorem follows_close (hr : r.table.Built) (d : OpenDeclaration) :
    Follows k (Reader.after t c k) (r.close p d) ((r.after t c k).close p (d.after k)) := by
  unfold close
  cases hcurrent : r.current with
  | none => exact .error fun h => absurd rfl h
  | some q =>
    obtain ⟨name, line⟩ := q
    have hafter : (r.after t c k).current = some (name, line + k) := by simp [Reader.after, hcurrent]
    have hdoc : (d.after k).doc = d.doc := rfl
    have htext : (d.after k).text = d.text := rfl
    simp only [hafter, hdoc, htext]
    cases declaration p name d.doc d.text with
    | error fault => exact .error fun _ => rfl
    | ok descriptor => exact .ok (by simp [Reader.after, Table.merge_push hr, hcurrent])

/-- A declaration goes on or opens behind other lines as it does alone. -/
theorem continuation_after (trimmed : Bool) (piece code : List Char) :
    (r.after t c k).continuation (n + k) trimmed piece code =
      (r.continuation n trimmed piece code).map fun x => { x with declaration := x.declaration.after k } := by
  unfold continuation
  cases hp : r.pending with
  | some d => simp [Reader.after, hp]
  | none =>
    simp only [Reader.after, hp, Option.map_none]
    split <;> rfl

theorem follows_readPieces (hr : r.table.Built) (pieces : List (List Char)) (remark : Option (List Char))
    (ended trimmed : Bool) :
    Follows k (Reader.after t c k) (readPieces p n pieces r remark ended trimmed)
      (readPieces p (n + k) pieces (r.after t c k) remark ended trimmed) := by
  induction pieces generalizing r remark ended trimmed with
  | nil => exact .ok rfl
  | cons piece later ih =>
    rw [readPieces, readPieces]
    dsimp only
    rw [continuation_after]
    cases hc : r.continuation n trimmed piece (trim ([';'].intercalate (piece :: later))) with
    | some x =>
      rw [Option.map_some]
      dsimp only
      split
      · exact .ok rfl
      · refine (follows_close hr _).bind fun r' hclose => ?_
        obtain ⟨name, line, descriptor, -, -, rfl⟩ := exists_of_close hclose
        exact ih (hr.push descriptor) none true x.trimmed
    | none =>
      rw [Option.map_none]
      dsimp only
      split
      · exact follows_openSection _
      · split
        · exact .error fun _ => rfl
        · exact .ok rfl

/-! ### Lines behind other lines -/

theorem Line.ofText_add (n k : Nat) (text : List Char) :
    Line.ofText (n + k) text = { Line.ofText n text with number := n + k } := by
  unfold Line.ofText
  split <;> rfl

theorem follows_readLine (hr : r.table.Built) (text : List Char) :
    Follows k (Reader.after t c k) (r.readLine p (.ofText n text))
      ((r.after t c k).readLine p (.ofText (n + k) text)) := by
  rw [Line.ofText_add, readLine, readLine, Line.number_ofText]
  exact follows_readPieces hr _ _ false false

theorem kept_built : Kept p fun r => r.table.Built where
  goOn _ _ h := h
  openSection _ name _ h _ := h.ensure name
  close _ _ _ _ descriptor h _ _ := h.push descriptor

theorem follows_readLines (hr : r.table.Built) (ls : List (List Char)) :
    Follows k (Reader.after t c k) ((numbered n ls).foldlM (Reader.readLine p) r)
      ((numbered (n + k) ls).foldlM (Reader.readLine p) (r.after t c k)) := by
  induction ls generalizing n r with
  | nil => exact .ok rfl
  | cons l ls ih =>
    have hnumber : n + k + 1 = n + 1 + k := by omega
    rw [numbered_cons, numbered_cons, List.foldlM_cons, List.foldlM_cons, hnumber]
    refine (follows_readLine hr l).bind fun r' hread => ?_
    exact ih (kept_built.readPieces hr hread)

theorem follows_finish : Follows k (Table.merge t) r.finish (r.after t c k).finish := by
  unfold finish
  cases hp : r.pending with
  | none =>
    have hafter : (r.after t c k).pending = none := by simp [Reader.after, hp]
    rw [hafter]
    exact .ok rfl
  | some d =>
    have hafter : (r.after t c k).pending = some (d.after k) := by simp [Reader.after, hp]
    rw [hafter]
    exact .error fun _ => rfl

end After

/-! ### Whole headers -/

/-- What an accepted header leaves. -/
theorem exists_readFrom {p : String} {s : List Char} {t : Table} (h : parse p (String.ofList s) = .ok t) :
    ∃ c, readFrom p 0 {} (blankComments false s) = .ok ⟨t, c, none⟩ := by
  rw [parse_eq] at h
  obtain ⟨⟨t', c, pending⟩, hread, h⟩ := exists_of_bind_eq_ok h
  cases pending with
  | some d => cases h
  | none =>
    cases h
    exact ⟨c, hread⟩

/-- Behind a header that is accepted, a text is read as it is read alone. -/
theorem follows_parse {p : String} {u : List Char} (hu : Closed u) {t : Table}
    (h : parse p (String.ofList u) = .ok t) (v : List Char) :
    Follows (lines u).length (Table.merge t) (parse p (String.ofList v)) (parse p (String.ofList (u ++ v))) := by
  obtain ⟨hended, hopen⟩ := hu
  obtain ⟨c, hread⟩ := exists_readFrom h
  have hstart : (⟨t, c, none⟩ : Reader) = Reader.after t c (lines u).length {} := rfl
  rw [parse_eq, parse_eq, blankComments_append hended, hopen, readFrom_append (ended_blankComments hended false), hread,
    ok_bind, length_lines_blankComments hended, hstart]
  exact (follows_readLines .empty _).bind fun r _ => follows_finish

/-- Behind a header with an error nothing is read. -/
theorem parse_append_error {p : String} {u : List Char} (hu : Closed u) {e : HeaderError}
    (h : parse p (String.ofList u) = .error e) (he : e.fault ≠ .unterminated) (v : List Char) :
    parse p (String.ofList (u ++ v)) = .error e := by
  rw [parse_eq] at h ⊢
  rw [blankComments_append hu.1, readFrom_append (ended_blankComments hu.1 false)]
  rcases bind_eq_error_iff.1 h with h | ⟨r, -, h⟩
  · rw [h]
    rfl
  · unfold finish at h
    split at h
    · cases h
      exact absurd rfl he
    · cases h

/-- **Headers compose.**  Behind a closed header that is accepted, another one adds its modules to the table, or fails
as it does alone, with its line counted on.  The error of a closed header is not changed by what follows, unless its last
declaration does not end.  Every error points to a line of its text. -/
theorem parse_append (p : String) {u : String} (hu : Closed u.toList) (v : String) :
    (∀ t t', parse p u = .ok t → parse p v = .ok t' → parse p (u ++ v) = .ok (t.merge t')) ∧
      (∀ t e, parse p u = .ok t → parse p v = .error e → e.fault ≠ .outsideSection →
        parse p (u ++ v) = .error ⟨e.line + (lines u.toList).length, e.fault⟩) ∧
      (∀ e, parse p u = .error e → e.fault ≠ .unterminated → parse p (u ++ v) = .error e) ∧
      ∀ e, parse p v = .error e → 1 ≤ e.line ∧ e.line ≤ (lines v.toList).length := by
  have htext : u ++ v = String.ofList (u.toList ++ v.toList) := by
    rw [← String.toList_inj]
    simp
  rw [htext, ← String.ofList_toList (s := u), ← String.ofList_toList (s := v)]
  simp only [String.toList_ofList]
  refine ⟨fun t t' ht ht' => ?_, fun t e ht he hfault => ?_, fun e he hfault => parse_append_error hu he hfault _,
    fun e he => line_of_parse_eq_error he⟩
  · have hfollows := follows_parse hu ht v.toList
    rw [ht'] at hfollows
    exact hfollows.eq_of_ok
  · have hfollows := follows_parse hu ht v.toList
    rw [he] at hfollows
    exact hfollows.eq_of_error hfault

/-- A comment over two lines before a section, and a text that comes back to the section. -/
theorem parse_append_comment :
    Closed "/* a\n*/LIBFIVE_SECTION(a)\nLIBFIVE_STDLIB f();\n".toList ∧
      parse "p_" ("/* a\n*/LIBFIVE_SECTION(a)\nLIBFIVE_STDLIB f();\n" ++
          "LIBFIVE_SECTION(b)\nLIBFIVE_SECTION(a)\nLIBFIVE_STDLIB g();") =
        .ok ⟨[⟨"a", [⟨"f", "p_f", "a", [], none⟩, ⟨"g", "p_g", "a", [], none⟩]⟩, ⟨"b", []⟩]⟩ ∧
      parse "p_" ("/* a\n*/LIBFIVE_SECTION(a)\nLIBFIVE_STDLIB f();\n" ++ "\nLIBFIVE_SECTION(1)") =
        .error ⟨5, .sectionName "1"⟩ ∧
      parse "p_" ("\nLIBFIVE_SECTION\n" ++ "LIBFIVE_SECTION(1)") = .error ⟨2, .malformedSection⟩ := by
  have hu : Closed "/* a\n*/LIBFIVE_SECTION(a)\nLIBFIVE_STDLIB f();\n".toList :=
    ⟨.inr ⟨"/* a\n*/LIBFIVE_SECTION(a)\nLIBFIVE_STDLIB f();".toList, by decide⟩, by decide⟩
  have hmarker : Closed "\nLIBFIVE_SECTION\n".toList := ⟨.inr ⟨"\nLIBFIVE_SECTION".toList, by decide⟩, by decide⟩
  have hparse : parse "p_" "/* a\n*/LIBFIVE_SECTION(a)\nLIBFIVE_STDLIB f();\n" =
      .ok ⟨[⟨"a", [⟨"f", "p_f", "a", [], none⟩]⟩]⟩ := by decide +kernel
  refine ⟨hu, ?_, ?_, ?_⟩
  · exact (parse_append "p_" hu _).1 _ ⟨[⟨"b", []⟩, ⟨"a", [⟨"g", "p_g", "a", [], none⟩]⟩]⟩ hparse (by decide +kernel)
  · exact (parse_append "p_" hu _).2.1 _ ⟨2, .sectionName "1"⟩ hparse (by decide +kernel) (by decide)
  · exact (parse_append "p_" hmarker _).2.2.1 _ (by decide +kernel) (by decide)

end ShapeBindings.Header
