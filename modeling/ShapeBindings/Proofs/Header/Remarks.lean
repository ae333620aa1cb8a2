import ShapeBindings.Proofs.Header.Stated
import ShapeBindings.Proofs.Header.Whitespace
import ShapeBindings.Proofs.Table.Place

/-!
# Which function a remark documents

The remark of a line goes to the first declaration that has a part on the line.

* `nextPlace p u`: the place, in the table, of the function whose declaration ends next behind the text `u`; behind a
  text that ends within a declaration this is the place of that declaration's function;
* `Reader.Remarked q before x r r'`: the two readers know the same, but for the remark `x` that the function at the
  place `q` has in the second one, behind the remarks `before`;
* `alike_readPieces_remark`: reading on keeps that, and `alike_readRest_remark`: a line with a remark starts it;
* `remark_of_comment`: in an accepted header a remark is a line of the documentation of one function, and of no other.
  It is the function whose declaration the remark stands in just when no declaration ends before it on its line.
-/

namespace ShapeBindings

open Text

/-! ### The lines of a documentation -/

namespace Descriptor

/-- The lines of the documentation. -/
def remarks (d : Descriptor) : List (List Char) := d.doc.elim [] (·.toList.splitOn '\n')

/-- Puts a line into the documentation, behind some others. -/
def insertRemark (i : Nat) (x : List Char) (d : Descriptor) : Descriptor :=
  { d with doc := some (String.ofList (['\n'].intercalate (d.remarks.insertIdx i x))) }

end Descriptor

namespace Header

open Reader

/-- A line that a documentation is made of. -/
structure IsRemark (x : List Char) : Prop where
  trim_eq : trim x = x
  ne_nil : x ≠ []
  newline : '\n' ∉ x

theorem IsRemark.of_not_blanks {x : List Char} (h : ¬ Blanks x) (hline : '\n' ∉ x) : IsRemark (trim x) where
  trim_eq := trim_trim x
  ne_nil := mt trim_eq_nil_iff.1 h
  newline := by
    obtain ⟨a, b, -, -, hx⟩ := exists_trim x
    rw [hx] at hline
    exact fun hm => hline (List.mem_append_left _ (List.mem_append_right _ hm))

variable {x : List Char} {xs before later : List (List Char)}

theorem withDoc_intercalate (h : ∀ y ∈ xs, IsRemark y) (d : Descriptor) :
    d.withDoc (String.ofList (['\n'].intercalate xs)) =
      { d with doc := if xs = [] then none else some (String.ofList (['\n'].intercalate xs)) } := by
  have htrim := trim_intercalate (fun y hy => (h y hy).trim_eq) fun y hy => (h y hy).ne_nil
  have hempty : (['\n'].intercalate xs).isEmpty = true ↔ xs = [] := by
    rw [List.isEmpty_iff, intercalate_eq_nil_iff fun y hy => (h y hy).ne_nil]
  unfold Descriptor.withDoc
  simp only [String.toList_ofList, htrim, hempty]

theorem remarks_withDoc (h : ∀ y ∈ xs, IsRemark y) (d : Descriptor) :
    (d.withDoc (String.ofList (['\n'].intercalate xs))).remarks = xs := by
  rw [withDoc_intercalate h, Descriptor.remarks]
  split
  · next hnil => exact hnil.symm
  · next hne =>
    rw [Option.elim_some, String.toList_ofList]
    exact List.splitOn_intercalate _ (fun y hy => (h y hy).newline) hne

theorem insertIdx_length_append (before : List (List Char)) (x : List Char) (later : List (List Char)) :
    (before ++ later).insertIdx before.length x = before ++ x :: later := by
  induction before with
  | nil => rfl
  | cons y before ih => rw [List.cons_append, List.length_cons, List.insertIdx_succ_cons, ih, List.cons_append]

theorem forall_isRemark_insert (h : ∀ y ∈ before ++ later, IsRemark y) (hx : IsRemark x) :
    ∀ y ∈ before ++ x :: later, IsRemark y := by
  intro y hy
  rcases List.mem_append.1 hy with hy | hy
  · exact h y (List.mem_append_left _ hy)
  · rcases List.mem_cons.1 hy with rfl | hy
    · exact hx
    · exact h y (List.mem_append_right _ hy)

/-- A remark more in the text of a documentation is a line more in the documentation. -/
theorem insertRemark_withDoc (h : ∀ y ∈ before ++ later, IsRemark y) (hx : IsRemark x) (d : Descriptor) :
    (d.withDoc (String.ofList (['\n'].intercalate (before ++ later)))).insertRemark before.length x =
      d.withDoc (String.ofList (['\n'].intercalate (before ++ x :: later))) := by
  have hne : before ++ x :: later ≠ [] := by simp
  rw [Descriptor.insertRemark, remarks_withDoc h, insertIdx_length_append, withDoc_intercalate h,
    withDoc_intercalate (forall_isRemark_insert h hx), if_neg hne]

theorem remarks_insertRemark {d : Descriptor} (hd : d.remarks = before ++ later) (hx : '\n' ∉ x) :
    (d.insertRemark before.length x).remarks = before ++ x :: later := by
  have hlines : ∀ y ∈ before ++ x :: later, '\n' ∉ y := by
    have hremarks : ∀ y ∈ d.remarks, '\n' ∉ y := by
      intro y hy
      unfold Descriptor.remarks at hy
      cases hdoc : d.doc with
      | none => simp [hdoc] at hy
      | some doc =>
        rw [hdoc] at hy
        exact not_mem_of_mem_splitOn hy
    rw [hd] at hremarks
    intro y hy
    rcases List.mem_append.1 hy with hy | hy
    · exact hremarks y (List.mem_append_left _ hy)
    · rcases List.mem_cons.1 hy with rfl | hy
      · exact hx
      · exact hremarks y (List.mem_append_right _ hy)
  rw [Descriptor.insertRemark, Descriptor.remarks, Option.elim_some, String.toList_ofList, hd, insertIdx_length_append]
  exact List.splitOn_intercalate _ hlines (by simp)

theorem remarks_of_declaration (h : ∀ y ∈ xs, IsRemark y) {p m : String} {s : List Char} {D : Descriptor}
    (hD : declaration p m (String.ofList (['\n'].intercalate xs)) s = .ok D) : D.remarks = xs := by
  rw [declaration_eq_map] at hD
  obtain ⟨D₀, -, rfl⟩ := exists_of_map_eq_ok hD
  exact remarks_withDoc h D₀

/-- A remark more is all that a declaration with a remark more states. -/
theorem declaration_insertRemark (h : ∀ y ∈ before ++ later, IsRemark y) (hx : IsRemark x) (p m : String) (s : List Char) :
    declaration p m (String.ofList (['\n'].intercalate (before ++ x :: later))) s =
      (declaration p m (String.ofList (['\n'].intercalate (before ++ later))) s).map
        (·.insertRemark before.length x) := by
  rw [declaration_eq_map, declaration_eq_map p m (String.ofList (['\n'].intercalate (before ++ later)))]
  cases declaration p m "" s with
  | error fault => rfl
  | ok D => exact congrArg Except.ok (insertRemark_withDoc h hx D).symm

/-! ### Readers that differ by a remark -/

/-- The place of the function that is stated next. -/
def Reader.place (r : Reader) : Table.Place := r.table.nextPlace ((r.current.map Prod.fst).getD "")

/-- The readers know the same, but for the remark `x` that the function at the place `q` has in the second one, behind
the remarks `before`. -/
inductive Reader.Remarked (q : Table.Place) (before : List (List Char)) (x : List Char) : Reader → Reader → Prop
  /-- The function's declaration has not ended. -/
  | within {r : Reader} {d : OpenDeclaration} {later : List (List Char)} (hplace : r.place = q)
      (hpending : r.pending = some d) (hd : d.remarks = before ++ later) (hremarks : ∀ y ∈ d.remarks, IsRemark y) :
      Remarked q before x r { r with pending := some { d with remarks := before ++ x :: later } }
  /-- The function is in the table. -/
  | ended {r : Reader} {D : Descriptor} {later : List (List Char)} (hD : r.table.function? q = some D)
      (hremarks : D.remarks = before ++ later) :
      Remarked q before x r { r with table := r.table.modify q (·.insertRemark before.length x) }

variable {p : String} {n : Nat} {r r' r₁ r₁' : Reader} {d : OpenDeclaration} {q : Table.Place} {remark : Option (List Char)}

/-- The declaration that the remark stands in ends. -/
theorem alike_close_remark (hplace : r.place = q) (hd : d.remarks = before ++ later)
    (hremarks : ∀ y ∈ d.remarks, IsRemark y) (hx : IsRemark x) :
    Alike (Reader.Remarked q before x) (r.close p d) (r.close p { d with remarks := before ++ x :: later }) := by
  rw [hd] at hremarks
  have hdoc : d.doc = String.ofList (['\n'].intercalate (before ++ later)) := by rw [OpenDeclaration.doc, hd]
  unfold close
  cases hcurrent : r.current with
  | none => exact .error _
  | some current =>
    obtain ⟨name, line⟩ := current
    dsimp only
    have hdoc' : { d with remarks := before ++ x :: later }.doc =
        String.ofList (['\n'].intercalate (before ++ x :: later)) := rfl
    rw [hdoc', declaration_insertRemark hremarks hx, ← hdoc]
    cases hD : declaration p name d.doc d.text with
    | error fault => exact .error _
    | ok D =>
      have hq : q = r.table.nextPlace D.moduleName := by
        rw [← hplace, Reader.place, hcurrent, moduleName_of_declaration hD]
        rfl
      have hpush : r.table.push (D.insertRemark before.length x) =
          (r.table.push D).modify q (·.insertRemark before.length x) := by
        rw [hq]
        exact (Table.modify_push_self rfl).symm
      have hself : (r.table.push D).function? q = some D := by rw [Table.function?_push, if_pos hq]
      rw [hdoc] at hD
      refine .ok ?_
      rw [hpush]
      exact .ended (r := ⟨r.table.push D, some (name, line), none⟩) hself (remarks_of_declaration hremarks hD)

/-- Another declaration ends. -/
theorem alike_close_ended {D : Descriptor} (hD : r.table.function? q = some D) (hremarks : D.remarks = before ++ later)
    (d : OpenDeclaration) :
    Alike (Reader.Remarked q before x) (r.close p d)
      ({ r with table := r.table.modify q (·.insertRemark before.length x) }.close p d) := by
  unfold close
  dsimp only
  cases r.current with
  | none => exact .error _
  | some current =>
    obtain ⟨name, line⟩ := current
    dsimp only
    cases declaration p name d.doc d.text with
    | error fault => exact .error _
    | ok E =>
      refine .ok ?_
      rw [← Table.modify_push_of_isSome (by rw [hD]; rfl)]
      exact .ended (r := ⟨r.table.push E, some (name, line), none⟩) (Table.function?_push_of_eq_some hD E) hremarks

theorem alike_openSection_ended {D : Descriptor} (hD : r.table.function? q = some D)
    (hremarks : D.remarks = before ++ later) (text : List Char) :
    Alike (Reader.Remarked q before x) (r.openSection n text)
      ({ r with table := r.table.modify q (·.insertRemark before.length x) }.openSection n text) := by
  unfold openSection
  dsimp only
  split
  · exact .error _
  · next inner _ _ =>
    cases isIdentifier (String.ofList (trim inner)) with
    | false => exact .error _
    | true =>
      let name := String.ofList (trim inner)
      refine .ok ?_
      rw [← Table.modify_ensure]
      exact .ended (r := { r with table := r.table.ensure name, current := some (name, n) })
        (by rw [Table.function?_ensure, hD]) hremarks

/-- Reading on keeps two readers that differ by a remark so. -/
theorem alike_readPieces_remark (hx : IsRemark x) (h : Reader.Remarked q before x r r') (hremark : ∀ y ∈ remark, IsRemark y)
    (pieces : List (List Char)) (ended trimmed : Bool) :
    Alike (Reader.Remarked q before x) (readPieces p n pieces r remark ended trimmed)
      (readPieces p n pieces r' remark ended trimmed) := by
  induction pieces generalizing r r' remark ended trimmed with
  | nil => exact .ok h
  | cons piece more ih =>
    have ih : ∀ {r r'}, Reader.Remarked q before x r r' → ∀ ended trimmed, Alike (Reader.Remarked q before x)
        (readPieces p n more r none ended trimmed) (readPieces p n more r' none ended trimmed) := fun h => ih h (by simp)
    rw [readPieces, readPieces]
    dsimp only
    cases h with
    | @within d later hplace hpending hd hremarks =>
      rw [continuation_pending hpending, continuation_pending rfl]
      dsimp only
      have hextend : ∀ piece, (d.extend piece remark).remarks = before ++ (later ++ remark.toList) := fun piece => by
        rw [OpenDeclaration.extend, hd, List.append_assoc]
      have hsame : ∀ piece, { d with remarks := before ++ x :: later }.extend piece remark =
          { d.extend piece remark with remarks := before ++ x :: (later ++ remark.toList) } := fun piece => by
        simp [OpenDeclaration.extend]
      have hall : ∀ piece, ∀ y ∈ (d.extend piece remark).remarks, IsRemark y := fun piece y hy => by
        rcases List.mem_append.1 hy with hy | hy
        · exact hremarks y hy
        · exact hremark y (by simpa using hy)
      split
      · rw [hsame]
        exact .ok (.within (r := { r with pending := some (d.extend _ remark) }) hplace rfl (hextend _) (hall _))
      · rw [hsame, close_pending]
        exact (alike_close_remark hplace (hextend _) (hall _) hx).bind fun r₁ r₁' h => ih h _ _
    | @ended D later hD hremarks =>
      have hcontinuation : ∀ code, { r with table := r.table.modify q (·.insertRemark before.length x) }.continuation n
          trimmed piece code = r.continuation n trimmed piece code := fun code => rfl
      rw [hcontinuation]
      split
      · split
        · exact .ok (.ended (r := { r with pending := _ }) hD hremarks)
        · exact (alike_close_ended hD hremarks _).bind fun r₁ r₁' h => ih h _ _
      · split
        · exact alike_openSection_ended hD hremarks _
        · split
          · exact .error _
          · exact .ok (.ended hD hremarks)

/-! ### Remarks of lines -/

/-- The remarks that a reader holds are lines of documentation. -/
def Reader.HoldsRemarks (r : Reader) : Prop := ∀ d ∈ r.pending, ∀ y ∈ d.remarks, IsRemark y

theorem holdsRemarks_of_none (h : r.pending = none) : r.HoldsRemarks := by
  intro d hd
  rw [h] at hd
  cases hd

theorem isRemark_of_continuation (hr : r.HoldsRemarks) {trimmed : Bool} {piece code : List Char} {c : Continuation}
    (hc : r.continuation n trimmed piece code = some c) :
    c.declaration.remarks = (r.pending.elim [] (·.remarks)) ∧ ∀ y ∈ c.declaration.remarks, IsRemark y := by
  unfold continuation at hc
  split at hc
  · next d hd =>
    cases hc
    rw [hd]
    exact ⟨rfl, hr d hd⟩
  · next hnone =>
    split at hc
    · cases hc
      rw [hnone]
      exact ⟨rfl, by simp⟩
    · cases hc

theorem holdsRemarks_readPieces (hr : r.HoldsRemarks) (hremark : ∀ y ∈ remark, IsRemark y) {pieces : List (List Char)}
    {ended trimmed : Bool} (h : readPieces p n pieces r remark ended trimmed = .ok r₁) : r₁.HoldsRemarks := by
  induction pieces generalizing r remark ended trimmed with
  | nil =>
    cases h
    exact hr
  | cons piece more ih =>
    rw [readPieces] at h
    dsimp only at h
    split at h
    · next c hc =>
      split at h
      · cases h
        rintro _ ⟨⟩ y hy
        rcases List.mem_append.1 hy with hy | hy
        · exact (isRemark_of_continuation hr hc).2 y hy
        · exact hremark y (by simpa using hy)
      · obtain ⟨r₂, hclose, h⟩ := exists_of_bind_eq_ok h
        exact ih (holdsRemarks_of_none (pending_close hclose)) (by simp) h
    · split at h
      · obtain ⟨name, -, rfl⟩ := exists_of_openSection h
        exact hr
      · split at h
        · cases h
        · cases h
          exact hr

theorem isRemark_of_ofText {l : List Char} (hl : '\n' ∉ l) : ∀ y ∈ (Line.ofText n l).remark, IsRemark y := by
  unfold Line.ofText
  cases hcut : cutAt ['/', '/'] l with
  | none => simp
  | some q =>
    obtain ⟨code, after⟩ := q
    have hafter : '\n' ∉ after := by
      rw [eq_of_cutAt hcut] at hl
      exact fun hm => hl (List.mem_append_right _ (List.mem_append_right _ hm))
    dsimp only
    split
    · simp
    · next hne =>
      rintro _ ⟨⟩
      rw [List.isEmpty_iff, trim_eq_nil_iff] at hne
      exact .of_not_blanks hne hafter

theorem newline_not_mem_of_mem_lines {s l : List Char} (h : l ∈ lines s) : '\n' ∉ l := by
  induction hl : s.length using Nat.strong_induction_on generalizing s with
  | _ k ih =>
    by_cases hs : '\n' ∈ s
    · obtain ⟨a, b, ha, rfl⟩ := exists_newline_split hs
      rw [lines_append_newline ha] at h
      rcases List.mem_cons.1 h with rfl | h
      · obtain ⟨c, -, hc⟩ := exists_chomp a
        rw [hc] at ha
        exact fun hm => ha (List.mem_append_left _ hm)
      · exact ih b.length (by rw [← hl, List.length_append, List.length_cons]; omega) h rfl
    · by_cases hne : s = []
      · rw [hne] at h
        cases h
      · rw [lines_eq_singleton hs hne, List.mem_singleton] at h
        rwa [h]

theorem isRemark_of_mem_numbered (n : Nat) (s : List Char) : ∀ l ∈ numbered n (lines s), ∀ y ∈ l.remark, IsRemark y := by
  intro l hl
  obtain ⟨⟨text, i⟩, hi, rfl⟩ := List.mem_map.1 hl
  exact isRemark_of_ofText (newline_not_mem_of_mem_lines (List.fst_mem_of_mem_zipIdx hi))

/-! ### All lines -/

theorem holdsRemarks_readFrom (hr : r.HoldsRemarks) {s : List Char} (h : readFrom p n r s = .ok r₁) :
    r₁.HoldsRemarks := by
  have hls := isRemark_of_mem_numbered n s
  unfold readFrom at h
  generalize numbered n (lines s) = ls at h hls
  induction ls generalizing r with
  | nil =>
    cases h
    exact hr
  | cons l ls ih =>
    rw [List.foldlM_cons] at h
    obtain ⟨r₂, hl, h⟩ := exists_of_bind_eq_ok h
    exact ih (holdsRemarks_readPieces hr (hls l List.mem_cons_self) hl) h fun l hl => hls l (List.mem_cons_of_mem _ hl)

theorem alike_readFrom_remark (hx : IsRemark x) (h : Reader.Remarked q before x r r') (s : List Char) :
    Alike (Reader.Remarked q before x) (readFrom p n r s) (readFrom p n r' s) := by
  have hls := isRemark_of_mem_numbered n s
  unfold readFrom
  generalize numbered n (lines s) = ls at hls
  induction ls generalizing r r' with
  | nil => exact .ok h
  | cons l ls ih =>
    rw [List.foldlM_cons, List.foldlM_cons]
    refine (alike_readPieces_remark hx h (hls l List.mem_cons_self) _ _ _).bind fun r₁ r₁' h => ?_
    exact ih h fun l hl => hls l (List.mem_cons_of_mem _ hl)

/-- At the end the tables differ by the remark. -/
theorem finish_remark (hx : IsRemark x) (h : Reader.Remarked q before x r r') (s : List Char) :
    (readFrom p n r' s).bind finish =
        ((readFrom p n r s).bind finish).map (·.modify q (·.insertRemark before.length x)) ∧
      ∀ t, (readFrom p n r s).bind finish = .ok t →
        ∃ D later, t.function? q = some D ∧ D.remarks = before ++ later := by
  have halike := alike_readFrom_remark (p := p) (n := n) hx h s
  generalize readFrom p n r s = y at halike
  generalize readFrom p n r' s = y' at halike
  cases halike with
  | error e => exact ⟨rfl, fun t ht => by cases ht⟩
  | @ok r₁ _ h =>
    rw [ok_bind, ok_bind]
    cases h with
    | within _ hpending => simp [finish, hpending, Except.map]
    | @ended D later hD hremarks =>
      unfold finish
      dsimp only
      cases r₁.pending with
      | some d => exact ⟨rfl, fun t ht => by cases ht⟩
      | none =>
        refine ⟨rfl, ?_⟩
        rintro _ ⟨⟩
        exact ⟨D, later, hD, hremarks⟩

/-! ### The line of a remark -/

theorem OpenDeclaration.remarks_extend_none (d : OpenDeclaration) (piece : List Char) :
    (d.extend piece none).remarks = d.remarks ++ [] := rfl

theorem alike_readRest_remark (hr : r.HoldsRemarks) (hx : IsRemark x) {s : List Char}
    (hs : ¬ (r.pending = none ∧ opensDeclaration (trim s) = false)) :
    Alike (Reader.Remarked r.place (r.pending.elim [] (·.remarks)) x) (readRest p n s r none false false)
      (readRest p n s r (some x) false false) := by
  -- the first declaration with a part on the line gets the remark
  have hextend : ∀ (d : OpenDeclaration) (piece : List Char),
      d.extend piece (some x) = { d.extend piece none with remarks := d.remarks ++ [x] } := fun d piece => rfl
  by_cases hsemi : ';' ∈ s
  · obtain ⟨a, b, rfl, ha⟩ := List.eq_append_cons_of_mem hsemi
    cases hc : r.continuation n false a (trim (a ++ ';' :: b)) with
    | none => exact absurd (continuation_eq_none_iff.1 hc) hs
    | some c =>
      obtain ⟨hbefore, hremarks⟩ := isRemark_of_continuation hr hc
      have hclose : Alike (Reader.Remarked r.place c.declaration.remarks x)
          (r.close p (c.declaration.extend c.piece none)) (r.close p (c.declaration.extend c.piece (some x))) :=
        alike_close_remark rfl (OpenDeclaration.remarks_extend_none _ _)
          (by simpa [OpenDeclaration.extend] using hremarks) hx
      rw [readRest_close ha hc, readRest_close ha hc, ← hbefore]
      exact hclose.bind fun r₁ r₁' h => alike_readPieces_remark hx h (by simp) _ _ _
  · cases hc : r.continuation n false s (trim s) with
    | none => exact absurd (continuation_eq_none_iff.1 hc) hs
    | some c =>
      obtain ⟨hbefore, hremarks⟩ := isRemark_of_continuation hr hc
      rw [readRest_last hsemi hc, readRest_last hsemi hc, hextend, ← hbefore]
      exact .ok (.within (r := { r with pending := some (c.declaration.extend _ none) }) rfl rfl
        (OpenDeclaration.remarks_extend_none _ _)
        (by simpa [OpenDeclaration.extend] using hremarks))

/-- A function that is in the table stays there. -/
theorem kept_function (p : String) (q : Table.Place) (D : Descriptor) :
    Kept p fun r => r.table.function? q = some D where
  goOn _ _ h := h
  openSection _ _ _ h _ := by rwa [Table.function?_ensure]
  close _ _ _ _ _ h _ _ := Table.function?_push_of_eq_some h _

/-- The function that a declaration states stands at the place that is next before the declaration ends. -/
theorem exists_function_of_close (h : r.close p d = .ok r') :
    ∃ D m doc, r'.table.function? r.place = some D ∧ declaration p m doc d.text = .ok D := by
  obtain ⟨m, line, D, hcurrent, hD, rfl⟩ := exists_of_close h
  refine ⟨D, m, d.doc, ?_, hD⟩
  dsimp only
  rw [Table.function?_push, if_pos]
  rw [Reader.place, hcurrent, moduleName_of_declaration hD]
  rfl

/-- Where the next function stands changes just with the end of a declaration. -/
theorem place_eq_iff {s : List Char} (h : readRest p n s r none false false = .ok r₁) (hp : r₁.pending = some d) :
    r₁.place = r.place ↔ ';' ∉ s := by
  constructor
  · intro hplace hsemi
    obtain ⟨a, b, rfl, ha⟩ := List.eq_append_cons_of_mem hsemi
    obtain ⟨c, hc⟩ := exists_continuation_of_pending h hp (a := a)
    rw [readRest_close ha hc] at h
    obtain ⟨r₂, hclose, h⟩ := exists_of_bind_eq_ok h
    -- the function that is stated there keeps its place
    obtain ⟨D, -, -, hD, -⟩ := exists_function_of_close hclose
    have hthere := (kept_function p _ D).readPieces hD h
    rw [← hplace, Reader.place, Table.function?_nextPlace] at hthere
    cases hthere
  · intro hsemi
    obtain ⟨c, hc⟩ := exists_continuation_of_pending h hp (a := s)
    rw [readRest_last hsemi hc] at h
    cases h
    rfl

/-- A declaration that has not ended gets the place that is next when it ends. -/
theorem isSome_function?_of_pending (hr : r.HoldsRemarks) (hp : r.pending = some d) {s : List Char} {t : Table}
    (h : (readFrom p n r s).bind finish = .ok t) : (t.function? r.place).isSome := by
  have hx : IsRemark ['.'] := ⟨by decide, by decide, by decide⟩
  have hwithin := Reader.Remarked.within (x := ['.']) rfl hp (List.append_nil d.remarks).symm (hr d hp)
  obtain ⟨D, -, hD, -⟩ := (finish_remark hx hwithin s).2 t h
  rw [hD]
  rfl

/-! ### Comments in declarations -/

/-- What is known behind a text. -/
def readBehind (p : String) (u : List Char) : Option Reader := (readFrom p 0 {} (blankComments false u)).toOption

/-- The place of the function whose declaration ends next behind a text. -/
def nextPlace (p : String) (u : List Char) : Option Table.Place := (readBehind p u).map Reader.place

/-- The remarks so far of the declaration that a text ends in. -/
def openRemarks (p : String) (u : List Char) : List (List Char) :=
  ((readBehind p u).bind Reader.pending).elim [] OpenDeclaration.remarks

/-- Two slashes behind the part `y` of a line are the first ones on the line. -/
def NoSlashes (y : List Char) : Prop := ¬ slashes <:+: y ++ ['/']

instance (y : List Char) : Decidable (NoSlashes y) :=
  @instDecidableNot _ (List.instDecidableIsInfixOfDecidableEq slashes (y ++ ['/']))

/-- A text that ends outside comments, and not with a slash: two slashes behind it open a comment. -/
structure EndsInCode (u : List Char) : Prop where
  closed : commentOpen false u = false
  noSlashes : NoSlashes (lastLine (blankComments false u))

/-- The remark that a comment makes. -/
def remarkOf (c : List Char) : Option (List Char) := if (trim c).isEmpty then none else some (trim c)

variable {u v c : List Char}

namespace NoSlashes

variable {y a : List Char}

theorem no_slashes (h : NoSlashes y) : ¬ slashes <:+: y := fun hi =>
  h (hi.trans (List.prefix_append y ['/']).isInfix)

theorem getLast? (h : NoSlashes y) : y.getLast? ≠ some '/' := by
  intro hlast
  obtain ⟨s, rfl⟩ := List.getLast?_eq_some_iff.1 hlast
  exact h ⟨s, [], by simp⟩

theorem concat (h : NoSlashes y) {c : Char} (hc : c ≠ '/') : NoSlashes (y ++ [c]) := by
  -- the last two characters are no slashes
  have hlast : ∀ t : List Char, t ++ ['/'] ≠ y ++ [c] := fun t ht =>
    hc (List.cons.inj (List.append_inj' ht rfl).2).1.symm
  intro hi
  rcases List.infix_concat_iff.1 hi with ⟨t, ht⟩ | hi
  · have hdrop := congrArg List.dropLast ht
    rw [List.dropLast_concat] at hdrop
    exact hlast t (by simpa using hdrop)
  · rcases List.infix_concat_iff.1 hi with ⟨t, ht⟩ | hi
    · exact hlast (t ++ ['/']) (by simpa using ht)
    · exact h.no_slashes hi

theorem append (h : NoSlashes y) (ha : '/' ∉ a) : NoSlashes (y ++ a) := by
  induction a generalizing y with
  | nil => rwa [List.append_nil]
  | cons c a ih =>
    rw [List.mem_cons, not_or] at ha
    have happend : y ++ c :: a = y ++ [c] ++ a := by simp
    rw [happend]
    exact ih (h.concat (Ne.symm ha.1)) ha.2

end NoSlashes

/-- Two slashes on a line, and what stands before and behind them. -/
theorem ofText_comment (hx : NoSlashes x) (c : List Char) :
    Line.ofText n (chomp (x ++ '/' :: '/' :: c)) = ⟨n, x, remarkOf c⟩ := by
  have hchomp : chomp (x ++ '/' :: '/' :: c) = x ++ '/' :: '/' :: chomp c := by
    have happend := chomp_append (s := x ++ slashes) (by simp) c
    rwa [List.append_assoc, List.append_assoc] at happend
  have htrim : trim (chomp c) = trim c := by
    obtain ⟨b, hb, hc⟩ := exists_chomp c
    conv_rhs => rw [hc, trim_append_blanks _ hb]
  have hcut : cutAt slashes ('/' :: '/' :: chomp c) = some ([], chomp c) := rfl
  unfold Line.ofText remarkOf
  rw [hchomp, cutAt_slashes_append hx.no_slashes hx.getLast?, hcut, Option.map_some]
  dsimp only
  rw [htrim, List.append_nil]

/-- A line with a comment is read as the code before it, with a remark. -/
theorem readFrom_comment (hu : EndsInCode u) (hc : '\n' ∉ c) (hblock : ¬ ['/', '*'] <:+: '/' :: '/' :: c) (v : List Char) :
    readFrom p 0 {} (blankComments false (u ++ ('/' :: '/' :: c ++ '\n' :: v))) =
      (readFrom p 0 {} (blankComments false (firstLines u))).bind fun r =>
        (readRest p ((firstLines u).count '\n' + 1) (lastLine (blankComments false u)) r (remarkOf c) false false).bind
          fun r => readFrom p ((firstLines u).count '\n' + 1) r (blankComments false v) := by
  obtain ⟨w, x, hw, hx, rfl⟩ := exists_ended_append u
  have hx' : '\n' ∉ blankComments (commentOpen false w) x := mt newline_mem_blankComments.1 hx
  have hw' := ended_blankComments hw false
  obtain ⟨hclosed, hfirst⟩ := hu
  have hcomment : Transparent ('/' :: '/' :: c ++ ['\n']) :=
    (transparent_of_slash_not_mem (by simp)).append_of_no_opening hblock (by simp) (by simp)
  have htext : blankComments false (w ++ x ++ ('/' :: '/' :: c ++ '\n' :: v)) =
      blankComments false w ++
        ((blankComments (commentOpen false w) x ++ '/' :: '/' :: c) ++ '\n' :: blankComments false v) := by
    have hrest := hcomment v
    rw [List.append_assoc, List.singleton_append, List.append_assoc, List.singleton_append] at hrest
    rw [blankComments_append_of_closed hclosed (by simp), blankComments_append hw, hrest]
    simp
  have hline : '\n' ∉ blankComments (commentOpen false w) x ++ '/' :: '/' :: c := by simp [hx', hc]
  have hcount : (lines (blankComments false w)).length = w.count '\n' := by
    rw [length_lines_blankComments hw, length_lines hw]
  rw [blankComments_append hw, lastLine_append hw' hx'] at hfirst ⊢
  rw [htext, firstLines_append hw hx, readFrom_append hw', Nat.zero_add, hcount]
  congr 1
  funext r
  rw [readFrom_line hline, ofText_comment hfirst, readLine_eq]

/-- A text that ends in a declaration: its last line, read as a line, leaves the declaration open as well. -/
theorem exists_pending_of_unterminated (hopen : parse p (String.ofList u) = .error ⟨n', .unterminated⟩)
    (hu : EndsInCode u) (hr : readFrom p 0 {} (blankComments false (firstLines u)) = .ok r)
    (hline : readRest p ((firstLines u).count '\n' + 1) (lastLine (blankComments false u)) r none false false = .ok r₁) :
    nextPlace p u = some r₁.place ∧ ∃ d, r₁.pending = some d := by
  obtain ⟨w, x, hw, hx, rfl⟩ := exists_ended_append u
  have hw' := ended_blankComments hw false
  have hx' : '\n' ∉ blankComments (commentOpen false w) x := mt newline_mem_blankComments.1 hx
  have hcount : (lines (blankComments false w)).length = w.count '\n' := by
    rw [length_lines_blankComments hw, length_lines hw]
  have hfirst := hu.noSlashes
  rw [firstLines_append hw hx] at hr hline
  rw [blankComments_append hw, lastLine_append hw' hx'] at hline hfirst
  rw [parse_eq, blankComments_append hw, readFrom_append hw', hr, ok_bind, hcount] at hopen
  rw [nextPlace, readBehind, blankComments_append hw, readFrom_append hw', hr, ok_bind, hcount]
  generalize blankComments (commentOpen false w) x = y at *
  have hpending : ∀ {r : Reader}, r.finish = .error ⟨n', .unterminated⟩ → ∃ d, r.pending = some d := by
    intro r h
    cases hp : r.pending with
    | some d => exact ⟨d, rfl⟩
    | none => simp [finish, hp] at h
  by_cases hne : y = []
  · subst hne
    rw [readFrom_nil, ok_bind] at hopen
    obtain ⟨d, hd⟩ := hpending hopen
    rw [readRest_last (by simp) (continuation_pending hd _ _)] at hline
    cases hline
    exact ⟨rfl, _, rfl⟩
  · rw [readFrom_last hx' hne, ofText_of_not_slashes hfirst.no_slashes, readLine_eq, Nat.zero_add] at hopen ⊢
    rw [hline] at hopen ⊢
    exact ⟨rfl, hpending hopen⟩

/-- The line of a comment in a declaration, read with its remark and without. -/
theorem exists_remarked_line (hopen : parse p (String.ofList u) = .error ⟨n', .unterminated⟩) (hu : EndsInCode u)
    (hr : readFrom p 0 {} (blankComments false (firstLines u)) = .ok r) (hx : IsRemark x)
    (hline : readRest p ((firstLines u).count '\n' + 1) (lastLine (blankComments false u)) r (some x) false false = .ok r') :
    ∃ r₁ d, readRest p ((firstLines u).count '\n' + 1) (lastLine (blankComments false u)) r none false false = .ok r₁ ∧
      r₁.pending = some d ∧ nextPlace p u = some r₁.place ∧
      Reader.Remarked r.place (r.pending.elim [] (·.remarks)) x r₁ r' := by
  have hholds : r.HoldsRemarks := holdsRemarks_readFrom (holdsRemarks_of_none rfl) hr
  have halike := alike_readRest_remark (p := p) (n := (firstLines u).count '\n' + 1) (s := lastLine (blankComments false u))
    hholds hx
  by_cases hs : r.pending = none ∧ opensDeclaration (trim (lastLine (blankComments false u))) = false
  · -- a line without a declaration would leave none open
    have hplain : readRest p ((firstLines u).count '\n' + 1) (lastLine (blankComments false u)) r none false false =
        .ok r' := by
      rw [readRest_none hs.1 hs.2] at hline ⊢
      exact hline
    obtain ⟨-, d, hd⟩ := exists_pending_of_unterminated hopen hu hr hplain
    obtain ⟨c, hc⟩ := exists_continuation_of_pending hplain hd (a := [])
    rw [continuation_eq_none_iff.2 hs] at hc
    cases hc
  · have hremarked := halike hs
    rw [hline] at hremarked
    cases hplain : readRest p ((firstLines u).count '\n' + 1) (lastLine (blankComments false u)) r none false false with
    | error e =>
      rw [hplain] at hremarked
      cases hremarked
    | ok r₁ =>
      rw [hplain] at hremarked
      obtain ⟨hplace, d, hd⟩ := exists_pending_of_unterminated hopen hu hr hplain
      cases hremarked with
      | ok hremarked => exact ⟨r₁, d, rfl, hd, hplace, hremarked⟩

/-- **A remark is a line of the documentation of one function**, behind the remarks on the lines before, and changes
nothing else in the table.  The function is the one whose declaration the comment stands in just when no declaration
ends before the comment on its line. -/
theorem remark_of_comment {p u c v : String} {t : Table} (hu : EndsInCode u.toList)
    (hopen : ∃ n, parse p u = .error ⟨n, .unterminated⟩) (hc : '\n' ∉ c.toList)
    (hblock : ¬ ['/', '*'] <:+: '/' :: '/' :: c.toList) (hblank : ¬ Blanks c.toList)
    (h : parse p (u ++ "//" ++ c ++ "\n" ++ v) = .ok t) :
    ∃ owner container t₀ D later, nextPlace p (firstLines u.toList) = some owner ∧
      nextPlace p u.toList = some container ∧
      (container = owner ↔ ';' ∉ lastLine (blankComments false u.toList)) ∧ (t.function? container).isSome ∧
      t.function? owner = some D ∧ D.remarks = openRemarks p (firstLines u.toList) ++ trim c.toList :: later ∧
      parse p (u ++ "//" ++ "\n" ++ v) = .ok t₀ ∧
      t = t₀.modify owner (·.insertRemark (openRemarks p (firstLines u.toList)).length (trim c.toList)) := by
  obtain ⟨m, hopen⟩ := hopen
  rw [← String.ofList_toList (s := u)] at hopen
  have htext : u ++ "//" ++ c ++ "\n" ++ v = String.ofList (u.toList ++ ('/' :: '/' :: c.toList ++ '\n' :: v.toList)) := by
    rw [← String.toList_inj]
    simp
  have htext₀ : u ++ "//" ++ "\n" ++ v = String.ofList (u.toList ++ ('/' :: '/' :: [] ++ '\n' :: v.toList)) := by
    rw [← String.toList_inj]
    simp
  have hremark : remarkOf c.toList = some (trim c.toList) := by
    rw [remarkOf, if_neg (by rwa [List.isEmpty_iff, trim_eq_nil_iff])]
  have hx : IsRemark (trim c.toList) := .of_not_blanks hblank hc
  rw [htext, parse_eq, readFrom_comment hu hc hblock, hremark] at h
  -- the lines before the comment, and its line with and without the remark
  obtain ⟨_, hread, hfinish⟩ := exists_of_bind_eq_ok h
  obtain ⟨r, hr, hread⟩ := exists_of_bind_eq_ok hread
  obtain ⟨r', hline, hread⟩ := exists_of_bind_eq_ok hread
  obtain ⟨r₁, d, hplain, hd, hcontainer, hremarked⟩ := exists_remarked_line hopen hu hr hx hline
  have hbehind : readBehind p (firstLines u.toList) = some r := by
    rw [readBehind, hr]
    rfl
  have hbefore : openRemarks p (firstLines u.toList) = r.pending.elim [] (·.remarks) := by
    rw [openRemarks, hbehind]
    rfl
  rw [← hbefore] at hremarked
  -- the lines behind it
  obtain ⟨hsame, hfunction⟩ := finish_remark (p := p) (n := (firstLines u.toList).count '\n' + 1) hx hremarked
    (blankComments false v.toList)
  rw [hread, ok_bind, hfinish] at hsame
  obtain ⟨t₀, ht₀, rfl⟩ := exists_of_map_eq_ok hsame.symm
  obtain ⟨D, later, hD, hremarks⟩ := hfunction t₀ ht₀
  have hholds : r₁.HoldsRemarks := holdsRemarks_readPieces (holdsRemarks_readFrom (holdsRemarks_of_none rfl) hr)
    (by simp) hplain
  have hthere := isSome_function?_of_pending hholds hd ht₀
  refine ⟨r.place, r₁.place, t₀, D.insertRemark _ _, later, ?_, hcontainer, place_eq_iff hplain hd, ?_, ?_,
    remarks_insertRemark hremarks hx.newline, ?_, rfl⟩
  · rw [nextPlace, hbehind]
    rfl
  · rw [Table.function?_modify]
    split
    · rwa [Option.isSome_map]
    · exact hthere
  · rw [Table.function?_modify, if_pos rfl, hD]
    rfl
  · have hnone : remarkOf [] = none := rfl
    rw [htext₀, parse_eq, readFrom_comment hu (by simp) (by decide), hr, ok_bind, hnone, hplain, ok_bind]
    exact ht₀

/-- The remark of a declaration that goes on behind its opening parenthesis. -/
theorem remark_of_comment_circle :
    EndsInCode openDeclaration.toList ∧ parse "p_" openDeclaration = .error ⟨2, .unterminated⟩ ∧
      ∃ owner container t₀ D later, nextPlace "p_" (firstLines openDeclaration.toList) = some owner ∧
        nextPlace "p_" openDeclaration.toList = some container ∧
        (container = owner ↔ ';' ∉ lastLine (blankComments false openDeclaration.toList)) ∧
        ((⟨[⟨"m", [⟨"f", "p_f", "m", [], some "A circle."⟩]⟩]⟩ : Table).function? container).isSome ∧
        (⟨[⟨"m", [⟨"f", "p_f", "m", [], some "A circle."⟩]⟩]⟩ : Table).function? owner = some D ∧
        D.remarks = openRemarks "p_" (firstLines openDeclaration.toList) ++ trim " A circle.".toList :: later ∧
        parse "p_" (openDeclaration ++ "//" ++ "\n" ++ ");\n") = .ok t₀ ∧
        ⟨[⟨"m", [⟨"f", "p_f", "m", [], some "A circle."⟩]⟩]⟩ = t₀.modify owner
          (·.insertRemark (openRemarks "p_" (firstLines openDeclaration.toList)).length (trim " A circle.".toList)) := by
  have hu : EndsInCode openDeclaration.toList := ⟨by decide +kernel, by decide +kernel⟩
  have hopen : parse "p_" openDeclaration = .error ⟨2, .unterminated⟩ := by decide +kernel
  exact ⟨hu, hopen, remark_of_comment hu ⟨2, hopen⟩ (by simp) (by simp; decide) (by decide +kernel)
    (by decide +kernel)⟩

/-- A remark behind the end of another declaration on its line documents the other one, and one that holds a block
comment loses what stands in it. -/
theorem remark_of_other_declaration :
    parse "p_" "LIBFIVE_SECTION(m)\nLIBFIVE_STDLIB a(); LIBFIVE_STDLIB b( // about b\n  tfloat y);\n" =
        .ok ⟨[⟨"m", [⟨"a", "p_a", "m", [], some "about b"⟩,
          ⟨"b", "p_b", "m", [⟨"y", "tfloat", 0⟩], none⟩]⟩]⟩ ∧
      parse "p_" "LIBFIVE_SECTION(m)\nLIBFIVE_STDLIB a( // about /* all */ a\n);\n" =
        .ok ⟨[⟨"m", [⟨"a", "p_a", "m", [], some "about       a"⟩]⟩]⟩ := by
  decide +kernel

end Header

end ShapeBindings
