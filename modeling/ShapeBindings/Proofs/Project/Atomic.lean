import ShapeBindings.CommandLine
import ShapeBindings.Proofs.Project.Outputs

/-!
# Runs that fail

A machine may refuse any request that changes its files, and may leave a part of what it refuses to write.  Whatever it
does, a run leaves none of its outputs half written, and no temporary file but one that its failure keeps
(`generate_atomic`).  The command line never lets go of a failure, so there that file stays (`temporary_file_stays`).
-/

namespace ShapeBindings

open FileTree Machine

variable {c : Config} {dir : Path} {os : List Output} {m m₁ m' : Machine}

/-- A location after outputs are written to a directory that was made for them: what the last output to it holds, or
what was there before, or one of the directories on the way. -/
theorem Wrote.at?_of_grown {l : Location} (hgrown : GrownBy (dir :: dir.parents) m m₁) (h : Wrote dir os m₁ m') :
    match Output.lastAt? dir m.workingDir os l with
    | some o => m'.tree.at? l = some (.file (Text.encode o.text))
    | none => m'.tree.at? l = m.tree.at? l ∨
        m.tree.at? l = none ∧ m'.tree.at? l = some .dir ∧ ∃ p ∈ dir :: dir.parents, p.location m.workingDir = l := by
  have hat := h.at? l
  rw [hgrown.workingDir] at hat
  cases hlast : Output.lastAt? dir m.workingDir os l with
  | some o =>
    rw [hlast] at hat
    exact hat
  | none =>
    rw [hlast, Option.map_none, Option.none_or] at hat
    rw [hat]
    exact hgrown.at? l

/-! ### What a failure keeps -/

/-- The temporary file that a result keeps. -/
def keptTemp? (res : Except Failure Unit) : Option Path :=
  match res with
  | .ok _ => none
  | .error e => e.temp?

/-- A machine once a result is let go of. -/
def Machine.afterDrop (res : Except Failure Unit) (m : Machine) : Machine :=
  match res with
  | .ok _ => m
  | .error e => ((e.drop : StateM Machine Unit) m).2

theorem afterDrop_of_temp?_eq_none {e : Failure} (h : e.temp? = none) (m : Machine) : m.afterDrop (.error e) = m := by
  rw [afterDrop, Failure.drop, h]
  rfl

theorem afterDrop_of_temp?_eq_some {e : Failure} {temp : Path} (h : e.temp? = some temp) (m : Machine) :
    m.afterDrop (.error e) = m.removeFile temp := by
  rw [afterDrop, Failure.drop, h]
  rfl

/-- To let go of a failure takes away what it has left. -/
theorem LeftBy.sameFiles {o : Output} {e : Failure} (h : LeftBy dir o m e m') : SameFiles m (m'.afterDrop (.error e)) := by
  cases h with
  | nothing hkept hsame =>
    rw [afterDrop_of_temp?_eq_none hkept]
    exact hsame
  | temporary hkept htemp hnone hfile =>
    rw [afterDrop_of_temp?_eq_some hkept]
    exact sameFiles_of_remove hfile hnone htemp (run_remove _ m')

/-- The outputs that are there once the result is let go of, and the temporary file that is there until then. -/
theorem Writes.exists_written {res : Except Failure Unit} (h : Writes dir os m res m') :
    ∃ written, written <+: os ∧ (res = .ok () ↔ written = os) ∧ Wrote dir written m (m'.afterDrop res) ∧
      match keptTemp? res with
      | none => m'.afterDrop res = m'
      | some temp =>
        ∃ o i, written ++ [o] <+: os ∧ temp = dir.join (tempName i) ∧
          (m'.afterDrop res).tree.at? (temp.location m.workingDir) = none ∧
            ∀ l, m'.tree.at? l =
              if l = temp.location m.workingDir then some (.file (Text.encode o.text))
              else (m'.afterDrop res).tree.at? l := by
  cases h with
  | all hwrote => exact ⟨os, List.prefix_rfl, by simp, hwrote, rfl⟩
  | @upTo written rest o e m₁ _ hos hwrote hleft =>
    have hsame := hleft.sameFiles
    have hwrote' := hwrote.append (hsame.wrote dir)
    rw [List.append_nil] at hwrote'
    refine ⟨written, ⟨o :: rest, hos.symm⟩, ?_, hwrote', ?_⟩
    · rw [hos]
      simp
    · cases hleft with
      | nothing hkept _ =>
        have hkept' : keptTemp? (.error e) = none := hkept
        rw [hkept']
        exact afterDrop_of_temp?_eq_none hkept m'
      | @temporary i loc hkept htemp hnone hfile =>
        have hkept' : keptTemp? (.error e) = some (dir.join (tempName i)) := hkept
        have hloc : (dir.join (tempName i)).location m.workingDir = loc := by
          rw [resolve_eq_location htemp, hfile.workingDir, hwrote.workingDir]
        rw [hkept']
        dsimp only
        rw [hloc]
        refine ⟨o, i, ⟨rest, by rw [hos, List.append_assoc]; rfl⟩, rfl, ?_, fun l => ?_⟩
        · rw [hsame.at?, hnone]
        · rw [hsame.at?, hfile.at?]

/-! ### Whole runs -/

/-- **A run writes its outputs as a whole, in order, or not at all.** If the table cannot be loaded, a unit cannot be
made, or nothing is to be written, the machine stays as it is. Else, once the result is let go of, the outputs up to one
of them are in their places, all of them if the run succeeds, and everywhere else is what was there before or a new
directory on the way to the outputs. Until then a failure can keep one temporary file in the directory of the outputs,
which holds the whole text of the first output that is not in its place. -/
theorem generate_atomic (c : Config) (base : Path) (r : GenerateRequest) (provenance : Provenance) (m : Machine) :
    let dir := c.outputDir base r.output
    let res := ((generate c base r provenance).outcome m).1
    let m' := ((generate c base r provenance).outcome m).2
    match ((c.loadTable base).outcome m).1 with
    | .error e => res = .error e ∧ m' = m
    | .ok t =>
      match c.units t r.selected provenance with
      | .error e => res = .error e ∧ m' = m
      | .ok us =>
        if us = [] ∨ r.dryRun = true then res = .ok () ∧ m' = m
        else
          ∃ written, written <+: c.outputs t us ∧ (res = .ok () ↔ written = c.outputs t us) ∧
            (∀ l, match Output.lastAt? dir m.workingDir written l with
              | some o => (m'.afterDrop res).tree.at? l = some (.file (Text.encode o.text))
              | none => (m'.afterDrop res).tree.at? l = m.tree.at? l ∨
                  m.tree.at? l = none ∧ (m'.afterDrop res).tree.at? l = some .dir ∧
                    ∃ p ∈ dir :: dir.parents, p.location m.workingDir = l) ∧
              match keptTemp? res with
              | none => m'.afterDrop res = m'
              | some temp =>
                ∃ o i, written ++ [o] <+: c.outputs t us ∧ temp = dir.join (tempName i) ∧
                  (m'.afterDrop res).tree.at? (temp.location m.workingDir) = none ∧
                    ∀ l, m'.tree.at? l =
                      if l = temp.location m.workingDir then some (.file (Text.encode o.text))
                      else (m'.afterDrop res).tree.at? l := by
  intro dir res m'
  have hends : Generates c base r provenance m res m' := generate_cases (Job.ends_outcome _ m)
  generalize res = res, m' = m' at hends
  cases hends with
  | unloaded ht =>
    rw [ht]
    exact ⟨rfl, rfl⟩
  | unmade ht hus =>
    rw [ht]
    dsimp only
    rw [hus]
    exact ⟨rfl, rfl⟩
  | idle ht hus hidle =>
    rw [ht]
    dsimp only
    rw [hus]
    dsimp only
    rw [if_pos hidle]
    exact ⟨rfl, rfl⟩
  | writing ht hus hne hdry hgrown hwrites =>
    rw [ht]
    dsimp only
    rw [hus]
    dsimp only
    rw [if_neg (by simp [hne, hdry])]
    obtain ⟨written, hinit, hres, hwrote, htemp⟩ := hwrites.exists_written
    rw [hgrown.workingDir] at htemp
    exact ⟨written, hinit, hres, fun l => hwrote.at?_of_grown hgrown, htemp⟩

/-- A project whose second unit cannot take its place, because a directory stands there. -/
def blockedMachine : Machine where
  tree := ⟨[(["fivebind.toml"], .file (Text.encode
      "[source]\nheader=\"h\"\n[output]\nindex=true\ntext=false\ndefault-convention=\"free\"\n")),
    (["h"], .file (Text.encode "LIBFIVE_SECTION(mod)\nLIBFIVE_SECTION(b)\n")),
    (["generated"], .dir), (["generated", "b.rs"], .dir)]⟩

def blockedRun : Outcome × Machine :=
  (runCommandLine ["generate"] ⟨"/"⟩ ⟨"now", "me"⟩ : StateM Machine Outcome) blockedMachine

/-- A command line that fails while a unit takes its place leaves the temporary file of that unit.  A unit that is named
as the index is there by then. -/
theorem temporary_file_stays :
    blockedRun.1.code = 1 ∧
      blockedMachine.tree.at? ["generated", ".tmp100000"] = none ∧
        blockedRun.2.tree.at? ["generated", ".tmp100000"] ≠ none ∧
          blockedMachine.tree.at? ["generated", "mod.rs"] = none ∧
            blockedRun.2.tree.at? ["generated", "mod.rs"] ≠ none := by
  decide +kernel

end ShapeBindings
