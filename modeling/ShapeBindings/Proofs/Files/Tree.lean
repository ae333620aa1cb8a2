import ShapeBindings.Proofs.Dictionary
import ShapeBindings.Proofs.Files.Location
import ShapeBindings.Proofs.Steps

/-!
# Trees of files

What stands where after a change (`at?_set`, `at?_erase`), and where paths lead: to their own location if they lead
anywhere (`resolve_eq_location`), and as long as no directory is lost they go on to lead there (`resolve_mono`).  A name
in a directory leads to a place in it (`resolve_join`).
-/

namespace ShapeBindings.FileTree

variable {t t' : FileTree}

/-! ### Changes -/

theorem lookup_setEntry (loc l : Location) (node : Node) (es : List (Location × Node)) :
    (setEntry loc node es).lookup l = if l = loc then some node else es.lookup l := by
  induction es with
  | nil => rw [setEntry, lookup_cons_eq_ite]
  | cons e es ih =>
    obtain ⟨k, n⟩ := e
    rw [setEntry]
    by_cases hk : k = loc
    · rw [if_pos hk, lookup_cons_eq_ite, lookup_cons_eq_ite, hk]
      split <;> rfl
    · rw [if_neg hk, lookup_cons_eq_ite, lookup_cons_eq_ite, ih]
      by_cases h : l = k
      · rw [if_pos h, if_pos h, if_neg fun hl => hk (h.symm.trans hl)]
      · rw [if_neg h, if_neg h]

@[simp] theorem at?_nil (t : FileTree) : t.at? [] = some .dir := rfl

theorem at?_set {loc : Location} (hloc : loc ≠ []) (node : Node) (l : Location) :
    (t.set loc node).at? l = if l = loc then some node else t.at? l := by
  unfold at?
  by_cases h : l = []
  · rw [if_pos h, if_pos h, if_neg fun hl => hloc (hl.symm.trans h)]
  · rw [if_neg h, if_neg h, set, lookup_setEntry]

theorem at?_erase {loc : Location} (hloc : loc ≠ []) (l : Location) :
    (t.erase loc).at? l = if l = loc then none else t.at? l := by
  have hfilter : t.entries.filter (·.1 ≠ loc) = t.entries.filter (·.1 != loc) :=
    List.filter_congr fun e _ => by by_cases he : e.1 = loc <;> simp [he]
  unfold at?
  by_cases h : l = []
  · rw [if_pos h, if_pos h, if_neg fun hl => hloc (hl.symm.trans h)]
  · rw [if_neg h, if_neg h, erase, hfilter, lookup_filter_ne]

theorem ne_nil_of_at? {loc : Location} (h : t.at? loc ≠ some .dir) : loc ≠ [] := by
  rintro rfl
  exact h rfl

/-! ### Where paths lead -/

/-- The directories of one tree are directories of another. -/
def KeepsDirs (t t' : FileTree) : Prop := ∀ l, t.at? l = some .dir → t'.at? l = some .dir

theorem KeepsDirs.trans {t'' : FileTree} (h : KeepsDirs t t') (h' : KeepsDirs t' t'') : KeepsDirs t t'' :=
  fun l hl => h' l (h l hl)

theorem walk_cons_eq_ok {loc l : Location} {part : String} {parts : List String}
    (h : t.walk loc (part :: parts) = .ok l) : t.at? loc = some .dir ∧ t.walk (loc.step part) parts = .ok l := by
  rw [walk] at h
  split at h
  · cases h
  · cases h
  · next hdir =>
    refine ⟨hdir, ?_⟩
    unfold Location.step
    split at h
    · next hv => rwa [if_pos hv]
    · next hv =>
      rw [if_neg hv]
      split at h
      · next hd => rwa [if_pos hd]
      · next hd =>
        rw [if_neg hd]
        split at h
        · cases h
        · exact h

theorem walk_eq_foldl {loc l : Location} {parts : List String} (h : t.walk loc parts = .ok l) :
    l = parts.foldl Location.step loc := by
  induction parts generalizing loc with
  | nil =>
    cases h
    rfl
  | cons part parts ih => exact ih (walk_cons_eq_ok h).2

theorem walk_mono (hk : KeepsDirs t t') {loc l : Location} {parts : List String} (h : t.walk loc parts = .ok l) :
    t'.walk loc parts = .ok l := by
  induction parts generalizing loc with
  | nil => exact h
  | cons part parts ih =>
    have hdir := (walk_cons_eq_ok h).1
    rw [walk, hdir] at h
    rw [walk, hk loc hdir]
    dsimp only at h ⊢
    split at h
    · next hv => rw [if_pos hv, ih h]
    · next hv =>
      rw [if_neg hv]
      split at h
      · next hd => rw [if_pos hd, ih h]
      · next hd =>
        rw [if_neg hd]
        split at h
        · cases h
        · next hsize => rw [if_neg hsize, ih h]

variable {workingDir : Location} {p : Path}

theorem resolve_eq_ok_iff {l : Location} :
    t.resolve workingDir p = .ok l ↔
      (Char.ofNat 0 ∉ p.text.toList ∧ p.text ≠ "" ∧ p.text.utf8ByteSize ≤ maxPathSize) ∧
        t.walk (if p.isAbsolute then [] else workingDir) p.parts = .ok l := by
  unfold resolve
  split
  · next hnul => simp_all
  · next hnul =>
    split
    · next hempty => simp_all
    · next hempty =>
      split
      · next hsize => simp [Nat.not_le.2 hsize]
      · next hsize =>
        have htext : Char.ofNat 0 ∉ p.text.toList ∧ p.text ≠ "" ∧ p.text.utf8ByteSize ≤ maxPathSize :=
          ⟨by simpa using hnul, by simpa using hempty, Nat.not_lt.1 hsize⟩
        rw [and_iff_right htext]

theorem resolve_eq_location {l : Location} (h : t.resolve workingDir p = .ok l) : l = p.location workingDir :=
  walk_eq_foldl (resolve_eq_ok_iff.1 h).2

theorem resolve_mono (hk : KeepsDirs t t') {l : Location} (h : t.resolve workingDir p = .ok l) :
    t'.resolve workingDir p = .ok l := by
  obtain ⟨htext, hwalk⟩ := resolve_eq_ok_iff.1 h
  exact resolve_eq_ok_iff.2 ⟨htext, walk_mono hk hwalk⟩

/-! ### Names in a directory -/

theorem walk_append (loc : Location) (parts parts' : List String) :
    t.walk loc (parts ++ parts') = (t.walk loc parts).bind fun l => t.walk l parts' := by
  induction parts generalizing loc with
  | nil => rfl
  | cons part parts ih =>
    rw [List.cons_append, walk, walk]
    split
    · rfl
    · rfl
    · split
      · exact ih loc
      · split
        · exact ih _
        · split
          · rfl
          · exact ih _

theorem walk_name {name : String} {loc : Location} (hname : IsFileName name) (hsize : name.utf8ByteSize ≤ maxNameSize)
    (hdir : t.at? loc = some .dir) : t.walk loc [name] = .ok (loc ++ [name]) := by
  obtain ⟨-, hempty, hdot, hdots⟩ := hname
  have hv : Path.isVacant name = false := by simp [Path.isVacant, hempty, hdot]
  rw [walk, hdir]
  dsimp only
  rw [hv, if_neg Bool.false_ne_true, if_neg hdots, if_neg (Nat.not_lt.2 hsize), walk]

/-- A name in a directory leads to a place in it, if the path is not too long. -/
theorem resolve_join {name : String} {loc : Location} (hname : IsFileName name)
    (hsize : name.utf8ByteSize ≤ maxNameSize) (hnul : Char.ofNat 0 ∉ name.toList)
    (h : t.resolve workingDir p = .ok loc) (hdir : t.at? loc = some .dir)
    (hpath : (p.join name).text.utf8ByteSize ≤ maxPathSize) :
    t.resolve workingDir (p.join name) = .ok (loc ++ [name]) := by
  obtain ⟨⟨hpnul, hp, -⟩, hwalk⟩ := resolve_eq_ok_iff.1 h
  obtain ⟨ps, hparts, hjoin, habsolute⟩ := Path.exists_parts_join hname p
  have hparent : t.walk (if p.isAbsolute then [] else workingDir) ps = .ok loc := by
    rcases hparts with hparts | hparts
    · rwa [hparts] at hwalk
    · -- the empty part leads nowhere
      rw [hparts, walk_append] at hwalk
      obtain ⟨l, hl, hlast⟩ := exists_of_bind_eq_ok hwalk
      rw [hl, walk_eq_foldl hlast]
      rfl
  have htext : (p.join name).text = p.text ++ name ∨ (p.join name).text = p.text ++ "/" ++ name := by
    rw [Path.join, Path.isAbsolute_of_isFileName hname, if_neg Bool.false_ne_true]
    split
    · exact .inl rfl
    · exact .inr rfl
  refine resolve_eq_ok_iff.2 ⟨⟨?_, ?_, hpath⟩, ?_⟩
  · rcases htext with htext | htext
    · simp [htext, hpnul, hnul]
    · have hslash : Char.ofNat 0 ≠ '/' := by decide
      simp [htext, hpnul, hnul, hslash]
  · rcases htext with htext | htext <;> simp [htext, hp]
  · rw [habsolute, hjoin, walk_append, hparent]
    exact walk_name hname hsize hdir

end ShapeBindings.FileTree
