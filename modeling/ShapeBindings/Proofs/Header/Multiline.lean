import ShapeBindings.Proofs.Header.Layouts
import ShapeBindings.Proofs.Header.Reading

/-!
# Declarations over several lines

`readFrom_stripped`: a declaration that goes on over any number of lines ends with the code of those lines for its text,
up to spacing, and with their line comments for its remarks.
-/

namespace ShapeBindings.Header

open Text Reader

variable {p : String} {n : Nat} {r : Reader} {s a b e : List Char} {d : OpenDeclaration}

namespace Reader

/-! ### Lines that continue a declaration -/

/-- A line that starts with `pre` continues the declaration `d` with `start` and what follows on the line. -/
def Continues (r : Reader) (n : Nat) (pre : List Char) (d : OpenDeclaration) (start : List Char) (trimmed : Bool) :
    Prop :=
  ∀ a t, r.continuation n false (pre ++ a) (trim (pre ++ (a ++ t))) = some ⟨d, start ++ a, trimmed⟩

theorem continues_pending (h : r.pending = some d) (n : Nat) : r.Continues n [] d [] false :=
  fun a _ => continuation_pending h a _

theorem continues_opening {c : Char} {u : List Char} (h : r.pending = none) (ha : Blanks a) (hc : isBlank c = true)
    (hu : ¬ Blanks u) (n : Nat) :
    r.Continues n (a ++ (declarationMarker.toList ++ c :: u)) { line := n } (c :: u) true := by
  intro x t
  have hrest : ¬ Blanks (u ++ (x ++ t)) := fun hb => hu (blanks_append.1 hb).1
  have hcode : a ++ (declarationMarker.toList ++ c :: u) ++ (x ++ t) =
      a ++ (declarationMarker.toList ++ c :: (u ++ (x ++ t))) := by simp
  rw [hcode, continuation_opening h (opensDeclaration_trim ha hc hrest), List.append_assoc,
    trimStart_blanks_append ha]
  rfl

theorem Continues.readRest_last {pre start : List Char} {trimmed : Bool} (hc : r.Continues n pre d start trimmed)
    (hpre : Plain pre) (ha : Plain a) (hb : Blanks b) (remark : Option (List Char)) :
    ∃ q c, Blanks c ∧ start ++ (a ++ b) = q ++ c ∧
      readRest p n (pre ++ a) r remark false false = .ok { r with pending := some (d.extend q remark) } := by
  have hs : ';' ∉ pre ++ a := (plain_append.2 ⟨hpre, ha⟩).2.2
  have h := hc a []
  rw [List.append_nil] at h
  rw [Reader.readRest_last hs h]
  cases trimmed with
  | true =>
    obtain ⟨c, hc, hq⟩ := exists_trimEnd (start ++ a)
    refine ⟨trimEnd (start ++ a), c ++ b, blanks_append.2 ⟨hc, hb⟩, ?_, rfl⟩
    rw [← List.append_assoc, ← List.append_assoc, ← hq]
  | false => exact ⟨start ++ a, b, hb, by rw [List.append_assoc], rfl⟩

theorem close_pending (q : Option OpenDeclaration) : { r with pending := q }.close p d = r.close p d := rfl

theorem pending_close {r' : Reader} (h : r.close p d = .ok r') : r'.pending = none := by
  obtain ⟨_, _, _, -, -, rfl⟩ := exists_of_close h
  rfl

/-- A declaration ends on a line, and nothing follows it there. -/
theorem Continues.readRest_close {pre start : List Char} {trimmed : Bool} (hc : r.Continues n pre d start trimmed)
    (hpre : Plain pre) (ha : Plain a) (hb : Blanks b) (remark : Option (List Char)) :
    readRest p n (pre ++ (a ++ ';' :: b)) r remark false false = r.close p (d.extend (start ++ a) remark) := by
  have hs : ';' ∉ pre ++ a := (plain_append.2 ⟨hpre, ha⟩).2.2
  have h := hc a (';' :: b)
  rw [← List.append_assoc] at h ⊢
  rw [Reader.readRest_close hs h]
  cases hr : r.close p (d.extend (start ++ a) remark) with
  | error e => rfl
  | ok r' =>
    rw [ok_bind]
    exact readRest_blanks (pending_close hr) hb

end Reader

/-! ### Whole declarations -/

/-- A line of code and blanks after it. -/
theorem readFrom_code (hn : '\n' ∉ a) (hs : '/' ∉ a) (hne : a ≠ []) (hcr : a.getLast? ≠ some '\r') (hb : Blanks b)
    (hline : '\n' ∉ b) (he : LineEnd e s) (n : Nat) (r : Reader) :
    ∃ c, Blanks c ∧ readFrom p n r (a ++ (b ++ e)) =
      (readRest p (n + 1) (a ++ c) r none false false).bind fun r => readFrom p (n + 1) r s := by
  have hab : '\n' ∉ a ++ b := by simp [hn, hline]
  have hsb : '/' ∉ a ++ b := by simp [hs, hb.not_mem (show isBlank '/' = false by decide)]
  obtain ⟨c, hc, hch⟩ := exists_chomp b
  rw [← List.append_assoc]
  cases he with
  | last =>
    refine ⟨b, hb, ?_⟩
    rw [List.append_nil, readFrom_last hab (by simp [hne]), Line.ofText_of_slash_not_mem hsb, readLine_eq]
    cases readRest p (n + 1) (a ++ b) r none false false <;> rfl
  | newline s =>
    have hsc : '/' ∉ a ++ chomp b := by
      rw [hch, ← List.append_assoc] at hsb
      exact fun h => hsb (List.mem_append_left _ h)
    rw [hch] at hb
    refine ⟨chomp b, (blanks_append.1 hb).1, ?_⟩
    rw [readFrom_line hab, chomp_append hcr, Line.ofText_of_slash_not_mem hsc, readLine_eq]

/-- A line of a declaration without a comment. -/
theorem Reader.Continues.readFrom_line {pre start x : List Char} {trimmed : Bool}
    (hc : r.Continues (n + 1) pre d start trimmed) (hpre : Plain pre) (hcr : pre.getLast? ≠ some '\r') (ha : Plain a) :
    ∃ q c, Blanks c ∧ start ++ a = q ++ c ∧ readFrom p n r (pre ++ (a ++ '\n' :: x)) =
      readFrom p (n + 1) { r with pending := some (d.extend q none) } x := by
  obtain ⟨b, hb, hch⟩ := exists_chomp a
  have hn : '\n' ∉ pre ++ a := by simp [hpre.1, ha.1]
  have ha' : Plain (chomp a) := by
    rw [hch] at ha
    exact (plain_append.1 ha).1
  have hs : '/' ∉ pre ++ chomp a := by simp [hpre.2.1, ha'.2.1]
  obtain ⟨q, c, hcb, hq, hrest⟩ := hc.readRest_last (p := p) hpre ha' hb none
  rw [← hch] at hq
  refine ⟨q, c, hcb, hq, ?_⟩
  rw [← List.append_assoc, Header.readFrom_line hn, chomp_append hcr, Line.ofText_of_slash_not_mem hs, readLine_eq]
  dsimp only
  rw [hrest, ok_bind]

/-- A line of a declaration with a comment. -/
theorem Reader.Continues.readFrom_remark {pre start x y : List Char} {trimmed : Bool}
    (hc : r.Continues (n + 1) pre d start trimmed) (hpre : Plain pre) (ha : Plain a) (hy : '\n' ∉ y)
    (hne : trim y ≠ []) :
    ∃ q c, Blanks c ∧ start ++ a = q ++ c ∧ readFrom p n r (pre ++ (a ++ '/' :: '/' :: (y ++ '\n' :: x))) =
      readFrom p (n + 1) { r with pending := some (d.extend q (some (trim y))) } x := by
  obtain ⟨b, hb, hch⟩ := exists_chomp y
  have hn : '\n' ∉ (pre ++ a ++ ['/', '/']) ++ y := by simp [hpre.1, ha.1, hy]
  have hs : '/' ∉ pre ++ a := by simp [hpre.2.1, ha.2.1]
  have htext : pre ++ (a ++ '/' :: '/' :: (y ++ '\n' :: x)) = (pre ++ a ++ ['/', '/']) ++ y ++ '\n' :: x := by simp
  have hline : pre ++ a ++ ['/', '/'] ++ chomp y = pre ++ a ++ '/' :: '/' :: chomp y := by simp
  have htrim : trim (chomp y) = trim y := by
    conv_rhs => rw [hch, trim_append_blanks _ hb]
  have hne : (trim y).isEmpty = false := by simpa using hne
  obtain ⟨q, c, hcb, hq, hrest⟩ := hc.readRest_last (p := p) hpre ha blanks_nil (some (trim y))
  rw [List.append_nil] at hq
  refine ⟨q, c, hcb, hq, ?_⟩
  rw [htext, Header.readFrom_line hn, chomp_append (by simp), hline, Line.ofText_remark hs, htrim, hne, readLine_eq]
  simp only [Bool.false_eq_true, if_false]
  rw [hrest, ok_bind]

/-- The end of a line is like any other blanks. -/
theorem respaced_line {start a q c : List Char} (h : start ++ a = q ++ c) (hc : Blanks c) (t code : List Char) :
    Respaced (t ++ ' ' :: q ++ ' ' :: code) (t ++ ' ' :: (start ++ (a ++ '\n' :: code))) := by
  have h1 : t ++ ' ' :: q ++ ' ' :: code = (t ++ ' ' :: q) ++ ([' '] ++ code) := rfl
  have h2 : t ++ ' ' :: (start ++ (a ++ '\n' :: code)) = (t ++ ' ' :: q) ++ ((c ++ ['\n']) ++ code) := by
    rw [← List.append_assoc start, h]
    simp
  rw [h1, h2]
  have hb : Blanks [' '] := by decide
  have hn : Blanks (c ++ ['\n']) := blanks_append.2 ⟨hc, by decide⟩
  exact (respaced_blanks hb hn (by simp) (by simp) code).append_left _

/-- **A declaration over any number of lines** is read as the code of its lines. -/
theorem readFrom_stripped {x code pre start : List Char} {remarks : List (List Char)} {trimmed : Bool}
    (h : Stripped x code remarks) (hc : r.Continues (n + 1) pre d start trimmed) (hpre : Plain pre)
    (hcr : pre.getLast? ≠ some '\r') (hb : Blanks b) (hline : '\n' ∉ b) (he : LineEnd e s) :
    ∃ m d', Respaced d'.text (d.text ++ ' ' :: (start ++ code)) ∧ d'.remarks = d.remarks ++ remarks ∧
      readFrom p n r (pre ++ (x ++ ';' :: (b ++ e))) = (r.close p d').bind fun r => readFrom p m r s := by
  induction h generalizing n r pre d start trimmed with
  | @last a ha =>
    have hn : '\n' ∉ pre ++ (a ++ [';']) := by simp [hpre.1, ha.1]
    have hs : '/' ∉ pre ++ (a ++ [';']) := by simp [hpre.2.1, ha.2.1]
    have hlast : (pre ++ (a ++ [';'])).getLast? ≠ some '\r' := by simp
    obtain ⟨c, hcb, hread⟩ := readFrom_code (p := p) hn hs (by simp) hlast hb hline he n r
    refine ⟨n + 1, d.extend (start ++ a) none, fun _ => rfl, rfl, ?_⟩
    have htext : pre ++ (a ++ ';' :: (b ++ e)) = pre ++ (a ++ [';']) ++ (b ++ e) := by simp
    have hrest : pre ++ (a ++ [';']) ++ c = pre ++ (a ++ ';' :: c) := by simp
    rw [htext, hread, hrest, hc.readRest_close hpre ha hcb]
  | line ha _ ih =>
    obtain ⟨q, c, hcb, hq, hread⟩ := hc.readFrom_line hpre hcr ha
    obtain ⟨m, d', h1, h2, h3⟩ := ih (r := { r with pending := some (d.extend q none) }) (continues_pending rfl _)
      plain_nil (by simp)
    rw [List.nil_append] at h1 h3
    refine ⟨m, d', h1.trans (respaced_line hq hcb _ _), by simpa [OpenDeclaration.extend] using h2, ?_⟩
    rw [List.append_assoc, List.cons_append, hread, h3, close_pending]
  | remark ha hy hne _ ih =>
    obtain ⟨q, c, hcb, hq, hread⟩ := hc.readFrom_remark hpre ha hy hne
    obtain ⟨m, d', h1, h2, h3⟩ := ih (r := { r with pending := some (d.extend q (some (trim _))) })
      (continues_pending rfl _) plain_nil (by simp)
    rw [List.nil_append] at h1 h3
    refine ⟨m, d', h1.trans (respaced_line hq hcb _ _), by simpa [OpenDeclaration.extend] using h2, ?_⟩
    rw [List.append_assoc, List.cons_append, List.cons_append, List.append_assoc, List.cons_append, hread, h3,
      close_pending]

end ShapeBindings.Header
