import ShapeBindings.Project.Command
import ShapeBindings.Proofs.Project.Job

/-!
# What is written

The outputs of a run are its units and then the index (`Config.outputs`).  Each is written as a whole or not at all
(`writeOutput_cases`), one after the other (`writeUnits_cases`); where two of them go to one place the later one is
found there (`Wrote`).  A failure may leave a temporary file (`LeftBy`).  `generate_cases` tells how a run can end:
before anything is written, or with the first of its outputs written, or with all of them.
-/

namespace ShapeBindings

open FileTree Machine

/-- A text and the name of the file that it is written to. -/
structure Output where
  name : String
  text : String
  deriving DecidableEq

def SourceUnit.output (u : SourceUnit) : Output := ⟨u.fileName, u.source⟩

/-- The index of a configuration's modules as it is written. -/
def Config.indexOutput (c : Config) (t : Table) : Output := ⟨indexFileName, renderIndex (c.plannedModules t)⟩

/-- What a run writes that makes some units. -/
def Config.outputs (c : Config) (t : Table) (us : List SourceUnit) : List Output :=
  us.map (·.output) ++ if c.output.index then [c.indexOutput t] else []

namespace Output

/-- Where an output goes. -/
def target (dir : Path) (workingDir : Location) (o : Output) : Location := (dir.join o.name).location workingDir

def node (o : Output) : Node := .file (Text.encode o.text)

/-- The last of some outputs that goes to a location. -/
def lastAt? (dir : Path) (workingDir : Location) (os : List Output) (l : Location) : Option Output :=
  os.reverse.find? fun o => o.target dir workingDir = l

theorem lastAt?_append (dir : Path) (workingDir : Location) (os os' : List Output) (l : Location) :
    lastAt? dir workingDir (os ++ os') l = (lastAt? dir workingDir os' l).or (lastAt? dir workingDir os l) := by
  rw [lastAt?, List.reverse_append, List.find?_append]
  rfl

theorem lastAt?_singleton (dir : Path) (workingDir : Location) (o : Output) (l : Location) :
    lastAt? dir workingDir [o] l = if l = o.target dir workingDir then some o else none := by
  by_cases h : l = o.target dir workingDir
  · simp [lastAt?, h]
  · simp [lastAt?, h, Ne.symm h]

end Output

/-! ### One output after the other -/

/-- Some outputs are written to a directory: the last to a place is found there, and elsewhere what was there before.
Their paths lead to their places. -/
structure Wrote (dir : Path) (os : List Output) (m m' : Machine) : Prop where
  workingDir : m'.workingDir = m.workingDir
  at? : ∀ l, m'.tree.at? l = ((Output.lastAt? dir m.workingDir os l).map Output.node).or (m.tree.at? l)
  keepsDirs : KeepsDirs m.tree m'.tree
  resolve : ∀ o ∈ os, m'.tree.resolve m'.workingDir (dir.join o.name) = .ok (o.target dir m'.workingDir)

section

variable {dir : Path} {m m' m'' : Machine}

theorem Machine.SameFiles.wrote (h : SameFiles m m') (dir : Path) : Wrote dir [] m m' where
  workingDir := h.workingDir
  at? l := h.at? l
  keepsDirs := h.keepsDirs
  resolve := by simp

theorem Wrote.append {os os' : List Output} (h : Wrote dir os m m') (h' : Wrote dir os' m' m'') :
    Wrote dir (os ++ os') m m'' where
  workingDir := h'.workingDir.trans h.workingDir
  at? l := by
    rw [h'.at?, h.at?, h.workingDir, Output.lastAt?_append, ← Option.or_assoc]
    congr 1
    cases Output.lastAt? dir m.workingDir os' l <;> rfl
  keepsDirs := h.keepsDirs.trans h'.keepsDirs
  resolve o ho := by
    rcases List.mem_append.1 ho with ho | ho
    · have hres := resolve_mono h'.keepsDirs (h.resolve o ho)
      rwa [← h'.workingDir] at hres
    · exact h'.resolve o ho

theorem sameFiles_of_remove {temp : Path} {loc : Location} {part : List UInt8} (hfile : HasFile m loc part m')
    (hnone : m.tree.at? loc = none) (htemp : m'.tree.resolve m'.workingDir temp = .ok loc)
    (h : (Disk.remove temp : StateM Machine _) m' = ((), m'')) : SameFiles m m'' := by
  have hloc : loc ≠ [] := ne_nil_of_at? (t := m.tree) (by simp [hnone])
  obtain ⟨hw, hat⟩ := remove_eq htemp hloc h
  refine ⟨hw.trans hfile.workingDir, fun l => ?_⟩
  rw [hat, hfile.at?]
  by_cases hl : l = loc
  · rw [if_pos hl, hl, hnone]
  · rw [if_neg hl, if_neg hl]

/-- An output is there once its temporary file has taken its place. -/
theorem wrote_of_rename {name text : String} {loc target : Location} (hfile : HasFile m loc (Text.encode text) m')
    (hnone : m.tree.at? loc = none) (htarget : m'.tree.resolve m'.workingDir (dir.join name) = .ok target)
    (hnotdir : m'.tree.at? target ≠ some .dir) (hw : m''.workingDir = m'.workingDir)
    (hat : ∀ l, m''.tree.at? l =
      if l = target then some (.file (Text.encode text)) else if l = loc then none else m'.tree.at? l) :
    Wrote dir [⟨name, text⟩] m m'' := by
  have hkeeps : KeepsDirs m'.tree m''.tree := by
    intro l hl
    have htarget : l ≠ target := by
      rintro rfl
      exact hnotdir hl
    have hloc : l ≠ loc := by
      rintro rfl
      rw [hfile.at?, if_pos rfl] at hl
      cases hl
    rw [hat, if_neg htarget, if_neg hloc, hl]
  have hplace : target = Output.target dir m.workingDir ⟨name, text⟩ := by
    rw [resolve_eq_location htarget, hfile.workingDir]
    rfl
  refine ⟨hw.trans hfile.workingDir, fun l => ?_, (hfile.keepsDirs (by simp [hnone])).trans hkeeps, fun o ho => ?_⟩
  · rw [hat, Output.lastAt?_singleton, ← hplace]
    by_cases hl : l = target
    · rw [if_pos hl, if_pos hl]
      rfl
    · rw [if_neg hl, if_neg hl]
      by_cases hloc : l = loc
      · rw [if_pos hloc, hloc, hnone]
        rfl
      · rw [if_neg hloc, hfile.at?, if_neg hloc]
        rfl
  · obtain rfl := List.mem_singleton.1 ho
    rw [hw, resolve_mono hkeeps htarget, hplace, hfile.workingDir]

/-- What the failure of an output leaves: the files as they were, or a temporary file with the whole text of the output
that the failure keeps. -/
inductive LeftBy (dir : Path) (o : Output) (m : Machine) (e : Failure) (m' : Machine) : Prop
  | nothing (hkept : e.temp? = none) (hsame : SameFiles m m')
  | temporary {i : Nat} {loc : Location} (hkept : e.temp? = some (dir.join (tempName i)))
      (htemp : m'.tree.resolve m'.workingDir (dir.join (tempName i)) = .ok loc) (hnone : m.tree.at? loc = none)
      (hfile : HasFile m loc (Text.encode o.text) m')

/-- An output is written as a whole, or its failure leaves at most a temporary file. -/
theorem writeOutput_cases {name text : String} {res : Except Failure Path}
    (h : (writeOutput dir name text : Job (StateM Machine) Path).Ends m res m') :
    (∃ e, res = .error e ∧ LeftBy dir ⟨name, text⟩ m e m') ∨ ∃ path, res = .ok path ∧ Wrote dir [⟨name, text⟩] m m' := by
  unfold writeOutput at h
  extract_lets path at h
  obtain ⟨made, m₁, hmade, h⟩ := h.request_bind
  rcases makeTemp_cases hmade with ⟨e, rfl, hsame⟩ | ⟨i, loc, rfl, htemp, hnone, hmade⟩
  · -- no temporary file can be made
    rcases h.orFail_bind with ⟨e, -, rfl, rfl⟩ | ⟨_, he, -⟩
    · exact .inl ⟨_, rfl, .nothing rfl hsame⟩
    · cases he
  rcases h.orFail_bind with ⟨_, he, -⟩ | ⟨_, htempeq, h⟩
  · cases he
  cases htempeq
  have hdir : m.tree.at? loc ≠ some .dir := by simp [hnone]
  have htemp_of : ∀ {part m₂}, HasFile m loc part m₂ →
      m₂.tree.resolve m₂.workingDir (dir.join (tempName i)) = .ok loc := by
    intro part m₂ hfile
    rw [hfile.workingDir]
    exact resolve_mono (hfile.keepsDirs hdir) htemp
  have hdir₁ : m₁.tree.at? loc ≠ some .dir := by simp [hmade.at?]
  obtain ⟨written, m₂, hwrite, h⟩ := h.request_bind
  rcases write_cases (htemp_of hmade) hdir₁ hwrite with ⟨e, rfl, hpart⟩ | ⟨rfl, hfile⟩
  · -- whatever part of the text is there, the temporary file is removed with it
    obtain ⟨part, hpart⟩ : ∃ part, HasFile m loc part m₂ := by
      rcases hpart with hsame | ⟨part, hpart⟩
      · exact ⟨_, hmade.of_sameFiles hsame⟩
      · exact ⟨part, hmade.trans hpart⟩
    obtain ⟨_, m₃, hrm, h⟩ := h.request_bind
    obtain ⟨rfl, rfl⟩ := h.throw_eq
    exact .inl ⟨_, rfl, .nothing rfl (sameFiles_of_remove hpart hnone (htemp_of hpart) hrm)⟩
  · have hfile₂ := hmade.trans hfile
    have hat₂ : m₂.tree.at? loc = some (.file (Text.encode text)) := by rw [hfile₂.at?, if_pos rfl]
    obtain ⟨moved, m₃, hmove, h⟩ := h.request_bind
    rcases rename_cases (htemp_of hfile₂) hat₂ hmove with ⟨e, rfl, hsame⟩ | ⟨target, rfl, htarget, hnotdir, hw, hat⟩
    · rcases h.orFail_bind with ⟨e, -, rfl, rfl⟩ | ⟨_, he, -⟩
      · have hfile₃ := hfile₂.of_sameFiles hsame
        exact .inl ⟨_, rfl, .temporary rfl (htemp_of hfile₃) hnone hfile₃⟩
      · cases he
    · rcases h.orFail_bind with ⟨e, he, -⟩ | ⟨_, -, h⟩
      · cases he
      · obtain ⟨rfl, rfl⟩ := h.pure_eq
        exact .inr ⟨path, rfl, wrote_of_rename hfile₂ hnone htarget hnotdir hw hat⟩

/-- How a job ends that writes some outputs in order: with all of them, or before the first that fails. -/
inductive Writes {α : Type} (dir : Path) (os : List Output) (m : Machine) : Except Failure α → Machine → Prop
  | all {a : α} {m' : Machine} (hwrote : Wrote dir os m m') : Writes dir os m (.ok a) m'
  | upTo {written rest : List Output} {o : Output} {e : Failure} {m₁ m' : Machine} (hos : os = written ++ o :: rest)
      (hwrote : Wrote dir written m m₁) (hleft : LeftBy dir o m₁ e m') : Writes dir os m (.error e) m'

namespace Writes

variable {α β : Type} {os os' : List Output} {res : Except Failure α}

theorem of_writeOutput {name text : String} {res : Except Failure Path}
    (h : (writeOutput dir name text : Job (StateM Machine) Path).Ends m res m') : Writes dir [⟨name, text⟩] m res m' := by
  rcases writeOutput_cases h with ⟨e, rfl, hleft⟩ | ⟨path, rfl, hwrote⟩
  · exact .upTo (List.nil_append _).symm ((SameFiles.refl m).wrote dir) hleft
  · exact .all hwrote

/-- A failure is the failure of whatever the job was to go on with. -/
theorem append_of_error {e : Failure} (h : Writes dir os m (.error e : Except Failure α) m') (os' : List Output) :
    Writes dir (os ++ os') m (.error e : Except Failure β) m' := by
  cases h with
  | @upTo written rest o _ _ _ hos hwrote hleft =>
    exact .upTo (by rw [hos, List.append_assoc, List.cons_append]) hwrote hleft

theorem append {a : α} {res : Except Failure β} (h : Writes dir os m (.ok a) m') (h' : Writes dir os' m' res m'') :
    Writes dir (os ++ os') m res m'' := by
  cases h with
  | all hwrote =>
    cases h' with
    | all hwrote' => exact .all (hwrote.append hwrote')
    | @upTo written rest o _ _ _ hos hwrote' hleft =>
      exact .upTo (by rw [hos, List.append_assoc]) (hwrote.append hwrote') hleft

end Writes

/-- Units are written in order, up to the first that cannot be written. -/
theorem writeUnits_cases {us : List SourceUnit} {res : Except Failure Unit}
    (h : (writeUnits dir us : Job (StateM Machine) Unit).Ends m res m') : Writes dir (us.map (·.output)) m res m' := by
  induction us generalizing m with
  | nil =>
    obtain ⟨rfl, rfl⟩ := h.pure_eq
    exact .all ((SameFiles.refl m').wrote dir)
  | cons u us ih =>
    rw [writeUnits] at h
    rcases h.bind_cases with ⟨e, rfl, he⟩ | ⟨path, m₁, hu, h⟩
    · exact (Writes.of_writeOutput he).append_of_error (us.map (·.output))
    · exact (Writes.of_writeOutput hu).append (ih h.report_bind)

end

/-! ### A whole run -/

section Run

variable {c : Config} {base : Path} {r : GenerateRequest} {provenance : Provenance} {m m' : Machine}
  {res : Except Failure Unit}

/-- The directory that a run writes to. -/
def Config.outputDir (c : Config) (base : Path) (output : Option Path) : Path := output.getD (base.join c.output.dir)

/-- How a run can end. Nothing is written if the table cannot be loaded, a unit cannot be made or there is nothing to
write; else the outputs are, up to the first that fails. -/
inductive Generates (c : Config) (base : Path) (r : GenerateRequest) (provenance : Provenance) (m : Machine) :
    Except Failure Unit → Machine → Prop
  | unloaded {e : Failure} (ht : (c.loadTable base).outcome m = (.error e, m)) :
      Generates c base r provenance m (.error e) m
  | unmade {t : Table} {e : Failure} (ht : (c.loadTable base).outcome m = (.ok t, m))
      (hus : c.units t r.selected provenance = .error e) : Generates c base r provenance m (.error e) m
  | idle {t : Table} {us : List SourceUnit} (ht : (c.loadTable base).outcome m = (.ok t, m))
      (hus : c.units t r.selected provenance = .ok us) (hidle : us = [] ∨ r.dryRun = true) :
      Generates c base r provenance m (.ok ()) m
  | writing {t : Table} {us : List SourceUnit} {m₁ m' : Machine} {res : Except Failure Unit}
      (ht : (c.loadTable base).outcome m = (.ok t, m)) (hus : c.units t r.selected provenance = .ok us)
      (hne : us ≠ []) (hdry : r.dryRun = false)
      (hgrown : GrownBy (c.outputDir base r.output :: (c.outputDir base r.output).parents) m m₁)
      (hwrites : Writes (c.outputDir base r.output) (c.outputs t us) m₁ res m') : Generates c base r provenance m res m'

theorem makeUnits_eq {t : Table} {selected : List String} {res : Except Failure (List SourceUnit)}
    (h : (makeUnits c t selected provenance : Job (StateM Machine) _).Ends m res m') :
    res = c.units t selected provenance ∧ m' = m := by
  obtain ⟨hres, hm⟩ := h.report_bind.orFail_cases
  refine ⟨hres.trans ?_, hm⟩
  cases c.units t selected provenance <;> rfl

theorem index_cases {dir : Path} {t : Table} {last : Unit → Job (StateM Machine) Unit}
    (hlast : ∀ {m res m'}, (last ()).Ends m res m' → res = .ok () ∧ m' = m)
    (h : (if c.output.index = true then
        discard (writeOutput dir indexFileName (renderIndex (c.plannedModules t))) >>= last
      else last () : Job (StateM Machine) Unit).Ends m res m') :
    Writes dir (if c.output.index then [c.indexOutput t] else []) m res m' := by
  split at h
  · next hindex =>
    rw [if_pos hindex]
    rcases h.discard_bind with ⟨e, rfl, he⟩ | ⟨path, m₁, hindex, h⟩
    · exact (Writes.of_writeOutput he).append_of_error []
    · obtain ⟨rfl, rfl⟩ := hlast h
      exact (Writes.of_writeOutput hindex).append (.all ((SameFiles.refl _).wrote dir))
  · next hindex =>
    rw [if_neg hindex]
    obtain ⟨rfl, rfl⟩ := hlast h
    exact .all ((SameFiles.refl m').wrote dir)

theorem generate_cases (h : (generate c base r provenance : Job (StateM Machine) Unit).Ends m res m') :
    Generates c base r provenance m res m' := by
  unfold generate at h
  rcases h.bind_cases with ⟨e, rfl, he⟩ | ⟨t, m₁, ht, htable⟩
  · obtain ⟨houtcome, rfl⟩ := Config.outcome_loadTable he
    exact .unloaded houtcome
  obtain ⟨ht, rfl⟩ := Config.outcome_loadTable ht
  rcases htable.bind_cases with ⟨e, rfl, he⟩ | ⟨us, m₂, hends, hmade⟩
  · obtain ⟨hus, rfl⟩ := makeUnits_eq he
    exact .unmade ht hus.symm
  obtain ⟨hus, rfl⟩ := makeUnits_eq hends
  clear h htable
  split at hmade
  · next hempty =>
    obtain ⟨rfl, rfl⟩ := hmade.print_eq
    exact .idle ht hus.symm (.inl (List.isEmpty_iff.1 hempty))
  next hempty =>
  split at hmade
  · next hdry =>
    obtain ⟨rfl, rfl⟩ := hmade.print_eq
    exact .idle ht hus.symm (.inr hdry)
  next hdry =>
  have hne : us ≠ [] := mt List.isEmpty_iff.2 hempty
  rw [Bool.not_eq_true] at hdry
  extract_lets dir last at hmade
  obtain ⟨made, m₃, hdirs, hrest⟩ := hmade.request_bind
  have hgrown := makeDirsFrom_cases hdirs
  rcases hrest.orFail_bind with ⟨e, -, rfl, rfl⟩ | ⟨_, -, hwriting⟩
  · -- the directory cannot be made, and the first output fails with it
    obtain ⟨u, us, rfl⟩ := List.exists_cons_of_ne_nil hne
    exact .writing ht hus.symm hne hdry hgrown
      (.upTo (List.nil_append _).symm ((SameFiles.refl _).wrote dir) (.nothing rfl (.refl _)))
  refine .writing ht hus.symm hne hdry hgrown ?_
  rcases hwriting.bind_cases with ⟨e, rfl, he⟩ | ⟨_, m₄, hunits, hindex⟩
  · exact (writeUnits_cases he).append_of_error _
  · exact (writeUnits_cases hunits).append (index_cases (fun h => h.print_eq) hindex)

theorem wrote_outputs {t : Table} {us : List SourceUnit} (ht : ((c.loadTable base).outcome m).1 = .ok t)
    (hus : c.units t r.selected provenance = .ok us) (hne : us ≠ []) (hdry : r.dryRun = false)
    (h : ((generate c base r provenance).outcome m).1 = .ok ()) :
    ∃ m₁, GrownBy (c.outputDir base r.output :: (c.outputDir base r.output).parents) m m₁ ∧
      Wrote (c.outputDir base r.output) (c.outputs t us) m₁ ((generate c base r provenance).outcome m).2 := by
  have hends := generate_cases (Job.ends_outcome (generate c base r provenance) m)
  rw [h] at hends
  generalize ((generate c base r provenance).outcome m).2 = m' at hends ⊢
  cases hends with
  | idle ht' hus' hidle =>
    rw [ht'] at ht
    cases ht
    rw [hus'] at hus
    cases hus
    rcases hidle with rfl | hdry'
    · exact absurd rfl hne
    · rw [hdry] at hdry'
      cases hdry'
  | writing ht' hus' _ _ hgrown hwrites =>
    rw [ht'] at ht
    cases ht
    rw [hus'] at hus
    cases hus
    cases hwrites with
    | all hwrote => exact ⟨_, hgrown, hwrote⟩

end Run

end ShapeBindings
