import ShapeBindings.Proofs.Files.Tree
import ShapeBindings.Proofs.Text.Utf8

/-!
# What a machine does

Each request that changes files either fails and leaves them alone (a refused write may touch its own file), or makes one
change (`makeTemp_cases`, `write_cases`, `rename_cases`, `makeDir_cases`).  Two machines are compared by what stands
where: `SameFiles` for no change, `HasFile` for one file.
-/

namespace ShapeBindings.Machine

open FileTree

variable {m m' m'' : Machine} {loc : Location} {content : List UInt8}

/-! ### Comparing machines -/

/-- The same stands everywhere on two machines. -/
structure SameFiles (m m' : Machine) : Prop where
  workingDir : m'.workingDir = m.workingDir
  at? : ∀ l, m'.tree.at? l = m.tree.at? l

/-- One machine has a file at a location, and everywhere else what another has. -/
structure HasFile (m : Machine) (loc : Location) (content : List UInt8) (m' : Machine) : Prop where
  workingDir : m'.workingDir = m.workingDir
  at? : ∀ l, m'.tree.at? l = if l = loc then some (.file content) else m.tree.at? l

theorem SameFiles.refl (m : Machine) : SameFiles m m := ⟨rfl, fun _ => rfl⟩

theorem SameFiles.keepsDirs (h : SameFiles m m') : KeepsDirs m.tree m'.tree := fun l hl => by rw [h.at?, hl]

theorem HasFile.keepsDirs (h : HasFile m loc content m') (hloc : m.tree.at? loc ≠ some .dir) :
    KeepsDirs m.tree m'.tree := by
  intro l hl
  have hne : l ≠ loc := by
    rintro rfl
    exact hloc hl
  rw [h.at?, if_neg hne, hl]

theorem HasFile.trans {content' : List UInt8} (h : HasFile m loc content m') (h' : HasFile m' loc content' m'') :
    HasFile m loc content' m'' := by
  refine ⟨h'.workingDir.trans h.workingDir, fun l => ?_⟩
  rw [h'.at?, h.at?]
  split <;> rfl

theorem HasFile.of_sameFiles (h : HasFile m loc content m') (h' : SameFiles m' m'') : HasFile m loc content m'' :=
  ⟨h'.workingDir.trans h.workingDir, fun l => (h'.at? l).trans (h.at? l)⟩

/-! ### Changes -/

theorem bind_cases {α β : Type} {x : StateM Machine α} {f : α → StateM Machine β} {b : β}
    (h : (x >>= f) m = (b, m')) : ∃ a m₁, x m = (a, m₁) ∧ f a m₁ = (b, m') :=
  ⟨_, _, rfl, h⟩

theorem change_cases {α : Type} {f : FileTree → Location → Except OsError (α × FileTree)} {refused : Machine → FileTree}
    {res : Except OsError α} (h : change f refused m = (res, m')) :
    m'.workingDir = m.workingDir ∧
      ((∃ e, res = .error e ∧ (m'.tree = refused m ∨ m'.tree = m.tree)) ∨
        ∃ a tree, f m.tree m.workingDir = .ok (a, tree) ∧ res = .ok a ∧ m'.tree = tree) := by
  unfold change at h
  dsimp only at h
  split at h
  · next e _ =>
    cases h
    exact ⟨rfl, .inl ⟨e, rfl, .inl rfl⟩⟩
  · split at h
    · next e _ =>
      cases h
      exact ⟨rfl, .inl ⟨e, rfl, .inr rfl⟩⟩
    · next a tree hf =>
      cases h
      exact ⟨rfl, .inr ⟨a, tree, hf, rfl, rfl⟩⟩

theorem sameFiles_of_tree (hw : m'.workingDir = m.workingDir) (ht : m'.tree = m.tree) : SameFiles m m' :=
  ⟨hw, fun l => by rw [ht]⟩

theorem hasFile_of_set (hw : m'.workingDir = m.workingDir) (hloc : m.tree.at? loc ≠ some .dir)
    (ht : m'.tree = m.tree.set loc (.file content)) : HasFile m loc content m' :=
  ⟨hw, fun l => by rw [ht, at?_set (ne_nil_of_at? hloc)]⟩

/-! ### Temporary files -/

theorem makeTempFrom_eq_ok {dir path : Path} {t tree : FileTree} {workingDir : Location} {names : List String}
    (h : makeTempFrom dir t workingDir names = .ok (path, tree)) :
    ∃ name ∈ names, path = dir.join name ∧
      ∃ loc, t.resolve workingDir path = .ok loc ∧ t.at? loc = none ∧ tree = t.set loc (.file []) := by
  induction names with
  | nil => cases h
  | cons name names ih =>
    rw [makeTempFrom] at h
    cases hr : t.resolve workingDir (dir.join name) with
    | error e =>
      rw [hr] at h
      cases h
    | ok loc =>
      rw [hr] at h
      replace h : (if (t.at? loc).isSome then makeTempFrom dir t workingDir names
        else .ok (dir.join name, t.set loc (.file []))) = .ok (path, tree) := h
      split at h
      · obtain ⟨name', hname', hpath⟩ := ih h
        exact ⟨name', List.mem_cons_of_mem name hname', hpath⟩
      · next hnone =>
        cases h
        exact ⟨name, List.mem_cons_self, rfl, loc, hr, by simpa using hnone, rfl⟩

/-- A temporary file is made where nothing stands, or nothing is done. -/
theorem makeTemp_cases {dir : Path} {res : Except OsError Path}
    (h : (Disk.makeTemp dir : StateM Machine _) m = (res, m')) :
    (∃ e, res = .error e ∧ SameFiles m m') ∨
      ∃ i loc, res = .ok (dir.join (tempName i)) ∧ m.tree.resolve m.workingDir (dir.join (tempName i)) = .ok loc ∧
        m.tree.at? loc = none ∧ HasFile m loc [] m' := by
  obtain ⟨hw, ⟨e, he, ht⟩ | ⟨path, tree, hf, hres, ht⟩⟩ := change_cases h
  · exact .inl ⟨e, he, sameFiles_of_tree hw (ht.elim id id)⟩
  · obtain ⟨name, hname, rfl, loc, hr, hnone, htree⟩ := makeTempFrom_eq_ok hf
    obtain ⟨i, -, rfl⟩ := List.mem_map.1 hname
    exact .inr ⟨_, loc, hres, hr, hnone, hasFile_of_set hw (by simp [hnone]) (ht.trans htree)⟩

/-! ### Writing, moving and removing a file -/

theorem run_remove (p : Path) (m : Machine) : (Disk.remove p : StateM Machine _) m = ((), m.removeFile p) := rfl

section File

variable {p q : Path} (hp : m.tree.resolve m.workingDir p = .ok loc)
include hp

theorem writeFile_eq_ok (hloc : m.tree.at? loc ≠ some .dir) (content : List UInt8) :
    writeFile p content m.tree m.workingDir = .ok ((), m.tree.set loc (.file content)) := by
  rw [writeFile, hp]
  dsimp only [bind, Except.bind]
  rw [if_neg hloc]
  rfl

/-- A write that fails may leave a part in the file, and nothing anywhere else. -/
theorem write_cases (hloc : m.tree.at? loc ≠ some .dir) {res : Except OsError Unit}
    (h : (Disk.write p content : StateM Machine _) m = (res, m')) :
    (∃ e, res = .error e ∧ (SameFiles m m' ∨ ∃ part, HasFile m loc part m')) ∨
      res = .ok () ∧ HasFile m loc content m' := by
  obtain ⟨hw, ⟨e, he, ht⟩ | ⟨a, tree, hf, hres, ht⟩⟩ := change_cases h
  · refine .inl ⟨e, he, ?_⟩
    rcases ht with ht | ht
    · unfold refusedWrite at ht
      split at ht
      · exact .inl (sameFiles_of_tree hw ht)
      · next size _ =>
        rw [writeFile_eq_ok hp hloc] at ht
        exact .inr ⟨content.take size, hasFile_of_set hw hloc ht⟩
    · exact .inl (sameFiles_of_tree hw ht)
  · rw [writeFile_eq_ok hp hloc] at hf
    cases hf
    exact .inr ⟨hres, hasFile_of_set hw hloc ht⟩

/-- A machine that does not refuse it writes a file wherever there is no directory. -/
theorem exists_write_eq_ok (hloc : m.tree.at? loc ≠ some .dir) (haccepted : m.faults m.requests = none)
    (content : List UInt8) : ∃ m', (Disk.write p content : StateM Machine _) m = (.ok (), m') := by
  have hchange : (Disk.write p content : StateM Machine _) m = change (writeFile p content) (refusedWrite p content) m := rfl
  rw [hchange, change, haccepted]
  dsimp only
  rw [writeFile_eq_ok hp hloc]
  exact ⟨_, rfl⟩

/-- A text is read from the file that it was written to. -/
theorem readText_eq_ok {text : String} (hfile : m.tree.at? loc = some (.file (Text.encode text))) :
    (Disk.readText p : StateM Machine _) m = (.ok text, m) := by
  have hread : m.read p = .ok (Text.encode text) := by
    rw [read, hp]
    dsimp only [bind, Except.bind]
    rw [hfile]
    rfl
  cases hrun : (Disk.readText p : StateM Machine _) m with
  | mk res m' =>
    obtain ⟨content, m₁, hm₁, hrun⟩ := bind_cases hrun
    obtain rfl : m.read p = content := congrArg Prod.fst hm₁
    obtain rfl : m = m₁ := congrArg Prod.snd hm₁
    rw [hread] at hrun
    dsimp only at hrun
    rw [Text.decode?_encode] at hrun
    cases hrun
    rw [String.ofList_toList]

theorem rename_cases (hfile : m.tree.at? loc = some (.file content)) {res : Except OsError Unit}
    (h : (Disk.rename p q : StateM Machine _) m = (res, m')) :
    (∃ e, res = .error e ∧ SameFiles m m') ∨
      ∃ target, res = .ok () ∧ m.tree.resolve m.workingDir q = .ok target ∧ m.tree.at? target ≠ some .dir ∧
        m'.workingDir = m.workingDir ∧
        ∀ l, m'.tree.at? l =
          if l = target then some (.file content) else if l = loc then none else m.tree.at? l := by
  obtain ⟨hw, ⟨e, he, ht⟩ | ⟨a, tree, hf, hres, ht⟩⟩ := change_cases h
  · exact .inl ⟨e, he, sameFiles_of_tree hw (ht.elim id id)⟩
  · rw [renameFile, hp] at hf
    cases hq : m.tree.resolve m.workingDir q with
    | error e =>
      rw [hq] at hf
      cases hf
    | ok target =>
      rw [hq] at hf
      dsimp only [bind, Except.bind] at hf
      rw [hfile] at hf
      dsimp only at hf
      split at hf
      · cases hf
      · next htarget =>
        cases hf
        refine .inr ⟨target, hres, rfl, htarget, hw, fun l => ?_⟩
        rw [ht, at?_set (ne_nil_of_at? htarget), at?_erase (ne_nil_of_at? (t := m.tree) (by simp [hfile]))]

theorem remove_eq (hloc : loc ≠ []) (h : (Disk.remove p : StateM Machine _) m = ((), m')) :
    m'.workingDir = m.workingDir ∧ ∀ l, m'.tree.at? l = if l = loc then none else m.tree.at? l := by
  obtain rfl : m.removeFile p = m' := congrArg Prod.snd h
  rw [removeFile, hp]
  exact ⟨rfl, fun l => at?_erase hloc l⟩

end File

/-! ### A new file -/

theorem exists_of_node? {p : Path} {node : Node} (h : m.node? p = some node) :
    ∃ loc, m.tree.resolve m.workingDir p = .ok loc ∧ m.tree.at? loc = some node := by
  unfold node? at h
  split at h
  · next loc hloc => exact ⟨loc, hloc, h⟩
  · cases h

/-- A file can be written into a directory that has none of its name. -/
theorem exists_write_join {dir : Path} {name : String} (hname : IsFileName name) (hshort : name.utf8ByteSize ≤ maxNameSize)
    (hnul : Char.ofNat 0 ∉ name.toList) (hdir : m.node? dir = some .dir) (hfree : m.node? (dir.join name) = none)
    (hsize : (dir.join name).text.utf8ByteSize ≤ maxPathSize) (haccepted : m.faults m.requests = none)
    (content : List UInt8) : ∃ m', (Disk.write (dir.join name) content : StateM Machine _) m = (.ok (), m') := by
  obtain ⟨loc, hloc, hat⟩ := exists_of_node? hdir
  have hpath := resolve_join hname hshort hnul hloc hat hsize
  have hnone : m.tree.at? (loc ++ [name]) = none := by
    rw [node?, hpath] at hfree
    exact hfree
  exact exists_write_eq_ok hpath (by simp [hnone]) haccepted content

theorem exists_of_writeFile {p : Path} {t tree : FileTree} {workingDir : Location}
    (h : writeFile p content t workingDir = .ok ((), tree)) :
    ∃ loc, t.resolve workingDir p = .ok loc ∧ t.at? loc ≠ some .dir ∧ tree = t.set loc (.file content) := by
  unfold writeFile at h
  obtain ⟨loc, hloc, h⟩ := exists_of_bind_eq_ok h
  split at h
  · cases h
  · next hdir =>
    cases h
    exact ⟨loc, hloc, hdir, rfl⟩

/-- A text that has been written is read back, and nothing else has changed. -/
theorem hasFile_of_write {p : Path} {text : String}
    (h : (Disk.write p (Text.encode text) : StateM Machine _) m = (.ok (), m')) :
    HasFile m (p.location m.workingDir) (Text.encode text) m' ∧
      (Disk.readText p : StateM Machine _) m' = (.ok text, m') := by
  obtain ⟨hw, ⟨e, he, -⟩ | ⟨a, tree, hf, -, ht⟩⟩ := change_cases h
  · cases he
  · obtain ⟨loc, hloc, hdir, htree⟩ := exists_of_writeFile hf
    have hfile := hasFile_of_set hw hdir (ht.trans htree)
    have hpath : m'.tree.resolve m'.workingDir p = .ok loc := by
      rw [hfile.workingDir]
      exact resolve_mono (hfile.keepsDirs hdir) hloc
    refine ⟨?_, readText_eq_ok hpath (by rw [hfile.at?, if_pos rfl])⟩
    rw [← resolve_eq_location hloc]
    exact hfile

/-! ### Making directories -/

/-- The directories of some paths may be new on a machine, and nothing else is. -/
structure GrownBy (ps : List Path) (m m' : Machine) : Prop where
  workingDir : m'.workingDir = m.workingDir
  at? : ∀ l, m'.tree.at? l = m.tree.at? l ∨
    m.tree.at? l = none ∧ m'.tree.at? l = some .dir ∧ ∃ p ∈ ps, p.location m.workingDir = l

theorem SameFiles.grownBy (h : SameFiles m m') (ps : List Path) : GrownBy ps m m' :=
  ⟨h.workingDir, fun l => .inl (h.at? l)⟩

theorem GrownBy.mono {ps qs : List Path} (h : GrownBy ps m m') (hsub : ps ⊆ qs) : GrownBy qs m m' := by
  refine ⟨h.workingDir, fun l => (h.at? l).imp_right ?_⟩
  rintro ⟨hnone, hdir, p, hp, hl⟩
  exact ⟨hnone, hdir, p, hsub hp, hl⟩

theorem GrownBy.trans {ps : List Path} (h : GrownBy ps m m') (h' : GrownBy ps m' m'') : GrownBy ps m m'' := by
  refine ⟨h'.workingDir.trans h.workingDir, fun l => ?_⟩
  rcases h'.at? l with hl' | ⟨hnone', hdir', p, hp, hl'⟩
  · rw [hl']
    exact h.at? l
  · rw [h.workingDir] at hl'
    rcases h.at? l with hl | ⟨hnone, hdir, -⟩
    · exact .inr ⟨by rw [← hl, hnone'], hdir', p, hp, hl'⟩
    · rw [hdir] at hnone'
      cases hnone'

theorem makeDirectory_eq_ok {p : Path} {t tree : FileTree} {workingDir : Location}
    (h : makeDirectory p t workingDir = .ok ((), tree)) :
    t.at? (p.location workingDir) = none ∧ tree = t.set (p.location workingDir) .dir := by
  unfold makeDirectory at h
  extract_lets trimmed at h
  cases hr : t.resolve workingDir (if trimmed.isEmpty then p else ⟨String.ofList trimmed⟩) with
  | error e =>
    rw [hr] at h
    cases h
  | ok loc =>
    have hloc : loc = p.location workingDir := by
      rw [resolve_eq_location hr]
      split
      · rfl
      · next hne => exact p.location_trimmed workingDir rfl (by simpa using hne)
    rw [hr] at h
    dsimp only [bind, Except.bind] at h
    split at h
    · cases h
    · next hnone =>
      cases h
      rw [← hloc]
      exact ⟨by simpa using hnone, rfl⟩

theorem makeDir_cases {p : Path} {res : Except OsError Unit}
    (h : (Disk.makeDir p : StateM Machine _) m = (res, m')) : GrownBy [p] m m' := by
  obtain ⟨hw, ⟨e, he, ht⟩ | ⟨a, tree, hf, hres, ht⟩⟩ := change_cases h
  · exact (sameFiles_of_tree hw (ht.elim id id)).grownBy _
  · obtain ⟨hnone, rfl⟩ := makeDirectory_eq_ok hf
    refine ⟨hw, fun l => ?_⟩
    rw [ht, at?_set (ne_nil_of_at? (t := m.tree) (by simp [hnone]))]
    by_cases hl : l = p.location m.workingDir
    · exact .inr ⟨by rw [hl, hnone], if_pos hl, p, List.mem_singleton_self p, hl.symm⟩
    · exact .inl (if_neg hl)

/-- What failed may be there already; to look for it changes nothing. -/
theorem eq_of_isDir_or_error {p : Path} {e : OsError} {res : Except OsError Unit}
    (h : ((do if ← Disk.isDir p then return .ok () else return .error e) : StateM Machine _) m = (res, m')) :
    m' = m := by
  obtain ⟨there, m₁, hm₁, h⟩ := bind_cases h
  cases hm₁
  split at h <;> cases h <;> rfl

/-- Making a directory with those above it makes nothing but some of these. -/
theorem makeDirsFrom_cases {p : Path} {above : List Path} {res : Except OsError Unit}
    (h : (Disk.makeDirsFrom p above : StateM Machine _) m = (res, m')) : GrownBy (p :: above) m m' := by
  induction above generalizing p m m' res with
  | nil =>
    rw [Disk.makeDirsFrom] at h
    split at h
    · cases h
      exact (SameFiles.refl m).grownBy _
    · obtain ⟨made, m₁, hm, h⟩ := bind_cases h
      have hgrown := makeDir_cases hm
      split at h
      · cases h
        exact hgrown
      · cases h
        exact hgrown
      · obtain rfl := eq_of_isDir_or_error h
        exact hgrown
  | cons q further ih =>
    rw [Disk.makeDirsFrom] at h
    split at h
    · cases h
      exact (SameFiles.refl m).grownBy _
    · obtain ⟨made, m₁, hm, h⟩ := bind_cases h
      have hgrown : GrownBy (p :: q :: further) m m₁ := (makeDir_cases hm).mono (by simp)
      split at h
      · cases h
        exact hgrown
      · -- the directory above is missing
        obtain ⟨above, m₂, hm₂, h⟩ := bind_cases h
        have hgrown₂ := hgrown.trans ((ih hm₂).mono (List.subset_cons_self p _))
        split at h
        · cases h
          exact hgrown₂
        · obtain ⟨again, m₃, hm₃, h⟩ := bind_cases h
          have hgrown₃ := hgrown₂.trans ((makeDir_cases hm₃).mono (by simp))
          split at h
          · cases h
            exact hgrown₃
          · obtain rfl := eq_of_isDir_or_error h
            exact hgrown₃
      · obtain rfl := eq_of_isDir_or_error h
        exact hgrown

end ShapeBindings.Machine
