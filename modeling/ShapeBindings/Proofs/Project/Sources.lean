import ShapeBindings.Proofs.Header.Declarations
import ShapeBindings.Proofs.Header.Reading
import ShapeBindings.Proofs.Project.Job
import ShapeBindings.Proofs.Steps
import ShapeBindings.Proofs.Table
import ShapeBindings.Proofs.TableFile

/-!
# The tables of sources

The modules of a table have names of their own, and these are identifiers, whether the table is read from a header
(`wellNamed_of_parse`) or from a table file (`TableFile.wellNamed_descriptors`), and so for every table that is loaded
(`Config.wellNamed_of_loadTable`).
-/

namespace ShapeBindings

/-- Tables that are built module by module, with identifiers as their names. -/
structure Table.WellNamed (t : Table) : Prop where
  built : t.Built
  isIdentifier : ∀ name ∈ t.names, isIdentifier name = true

namespace Table.WellNamed

variable {t : Table}

theorem empty : ({} : Table).WellNamed := ⟨.empty, by simp [names]⟩

theorem push (h : t.WellNamed) {d : Descriptor} (hd : ShapeBindings.isIdentifier d.moduleName = true) :
    (t.push d).WellNamed := by
  refine ⟨h.built.push d, fun name hname => ?_⟩
  rw [names_push] at hname
  split at hname
  · exact h.isIdentifier name hname
  · rcases List.mem_append.1 hname with hname | hname
    · exact h.isIdentifier name hname
    · rwa [List.mem_singleton.1 hname]

theorem ensure (h : t.WellNamed) {name : String} (hn : ShapeBindings.isIdentifier name = true) :
    (t.ensure name).WellNamed := by
  refine ⟨h.built.ensure name, fun name' hname => ?_⟩
  rw [names_ensure] at hname
  split at hname
  · exact h.isIdentifier name' hname
  · rcases List.mem_append.1 hname with hname | hname
    · exact h.isIdentifier name' hname
    · rwa [List.mem_singleton.1 hname]

end Table.WellNamed

theorem Table.wellNamed_ofList {ds : List Descriptor} (h : ∀ d ∈ ds, isIdentifier d.moduleName = true) :
    (Table.ofList ds).WellNamed := by
  unfold ofList
  generalize ht : ({} : Table) = t
  have hwell : t.WellNamed := ht ▸ .empty
  clear ht
  induction ds generalizing t with
  | nil => exact hwell
  | cons d ds ih =>
    exact ih (fun d' hd' => h d' (List.mem_cons_of_mem d hd')) (t.push d) (hwell.push (h d List.mem_cons_self))

/-! ### Headers -/

namespace Header

open Text

namespace Reader

/-- What holds between two lines: the table and the current section are well named. -/
structure WellNamed (r : Reader) : Prop where
  table : r.table.WellNamed
  current : ∀ name line, r.current = some (name, line) → isIdentifier name = true

theorem kept_wellNamed (p : String) : Kept p WellNamed where
  goOn r d h := ⟨h.table, h.current⟩
  openSection r name n h hname := by
    refine ⟨h.table.ensure hname, fun name' line hcurrent => ?_⟩
    cases hcurrent
    exact hname
  close r name n d descriptor h hcurrent hd := by
    refine ⟨h.table.push ?_, h.current⟩
    rw [moduleName_of_declaration hd]
    exact h.current name n hcurrent

end Reader

theorem wellNamed_of_parse {p text : String} {t : Table} (h : parse p text = .ok t) : t.WellNamed := by
  obtain ⟨r, hr, rfl⟩ := (Reader.kept_wellNamed p).parse ⟨.empty, fun _ _ h => by cases h⟩ h
  exact hr.table

end Header

/-! ### Table files -/

namespace TableFile

variable {file : TableFile}

theorem wellNamed_descriptors (h : file.check = .ok ()) : file.descriptors.WellNamed := by
  refine Table.wellNamed_ofList fun d hd => ?_
  obtain ⟨f, hf, rfl⟩ := List.mem_map.1 hd
  rw [moduleName_descriptorOf]
  exact (identifiers_of_checkFunction (checkFunction_of_check h f (List.mem_filter.1 hf).1)).2.1

end TableFile

theorem Config.wellNamed_of_loadTable {c : Config} {base : Path} {m m' : Machine} {t : Table}
    (h : (c.loadTable base : Job (StateM Machine) Table).Ends m (.ok t) m') : t.WellNamed := by
  rcases source_of_loadTable h with ⟨text, hparse⟩ | ⟨text, file, hparse, rfl⟩
  · exact Header.wellNamed_of_parse hparse
  · exact TableFile.wellNamed_descriptors (TableFile.check_of_parse hparse)

end ShapeBindings
