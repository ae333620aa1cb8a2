import Mathlib.Data.List.ReduceOption
import ShapeBindings.Proofs.Project.Names
import ShapeBindings.Proofs.Unit.Types

/-!
# The tables that are loaded

Both kinds of source give well-formed tables: `Header.functions_of_parse` tells what is known of a function from a
header, `TableFile.functions_of_check` of one from a table file.  `wellFormed_of_sources` puts them together with what
follows for the units that are made of such a table.
-/

namespace ShapeBindings

/-! ### Headers -/

namespace Header

variable {p text : String} {t : Table}

theorem Reader.kept_declared (p : String) :
    Kept p fun r => ∀ d ∈ r.table.functions, ∃ m doc s, declaration p m doc s = .ok d where
  goOn _ _ h := h
  openSection r name n h _ := by
    rw [Table.functions_ensure]
    exact h
  close r name n d descriptor h _ hd e he := by
    rcases Table.mem_functions_of_push he with rfl | he
    · exact ⟨name, d.doc, d.text, hd⟩
    · exact h e he

/-- Every function of a header is stated by a declaration. -/
theorem exists_declaration_of_parse (h : parse p text = .ok t) :
    ∀ d ∈ t.functions, ∃ m doc s, declaration p m doc s = .ok d := by
  obtain ⟨r, hr, rfl⟩ := (Reader.kept_declared p).parse (by simp [Table.functions]) h
  exact hr

theorem functions_of_parse (h : parse p text = .ok t) {d : Descriptor} (hd : d ∈ t.functions) :
    d.WellFormed ∧ d.rawName = p ++ d.publicName ∧ ∀ a ∈ d.args, a.declaredType ≠ "" := by
  obtain ⟨m, doc, s, hstated⟩ := exists_declaration_of_parse h d hd
  obtain ⟨name, params, hname, hraw, hparams, rfl⟩ := exists_of_declaration hstated
  rw [stated_eq_build]
  refine ⟨Descriptor.wellFormed_build hname hraw (fun q hq => (hparams q hq).1) m doc, by simp, fun a ha => ?_⟩
  obtain ⟨q, hq, -, htype⟩ := Descriptor.exists_of_mem_args_build ha
  rw [htype]
  exact (hparams q hq).2

theorem wellFormed_of_parse (h : parse p text = .ok t) : t.WellFormed :=
  Table.wellFormed_of_built (wellNamed_of_parse h).built (wellNamed_of_parse h).isIdentifier
    fun _ hd => (functions_of_parse h hd).1

end Header

/-! ### Table files -/

namespace TableFile

variable {file : TableFile}

theorem functions_of_check (h : file.check = .ok ()) {d : Descriptor} (hd : d ∈ file.descriptors.functions) :
    d.WellFormed ∧ ∃ f ∈ file.active, f.name = d.publicName ∧
      d.rawName = f.rawName.getD (file.library.symbolPrefix ++ d.publicName) := by
  obtain ⟨f, hf, rfl⟩ := List.mem_map.1 (Table.mem_of_mem_functions_ofList hd)
  obtain ⟨hname, -, hsymbol, hargs⟩ :=
    identifiers_of_checkFunction (checkFunction_of_check h f (List.mem_filter.1 hf).1)
  rw [descriptorOf_eq]
  refine ⟨Descriptor.wellFormed_build hname hsymbol (fun q hq => ?_) f.moduleName _, f, hf, by simp, by simp [symbolOf]⟩
  obtain ⟨a, ha, rfl⟩ := List.mem_map.1 hq
  exact hargs a ha

theorem wellFormed_descriptors (h : file.check = .ok ()) : file.descriptors.WellFormed :=
  Table.wellFormed_of_built (wellNamed_descriptors h).built (wellNamed_descriptors h).isIdentifier
    fun _ hd => (functions_of_check h hd).1

end TableFile

/-- The tables of sources: of headers, and of table files in which the names are right. -/
inductive Table.OfSource : Table → Prop
  | header {symbolPrefix text : String} {t : Table} (h : Header.parse symbolPrefix text = .ok t) : OfSource t
  | tableFile {file : TableFile} (h : file.check = .ok ()) : OfSource file.descriptors

theorem Table.OfSource.wellFormed {t : Table} (h : t.OfSource) : t.WellFormed := by
  cases h with
  | header h => exact Header.wellFormed_of_parse h
  | tableFile h => exact TableFile.wellFormed_descriptors h

/-! ### Units -/

namespace Config

variable {c : Config} {t : Table} {selected : List String} {provenance : Provenance} {us : List SourceUnit}

theorem exists_module_of_unit? {p : Plan} {options : UnitOptions} {ms : List Module} {made : List (Option SourceUnit)}
    (h : ms.mapM (p.unit? options) = .ok made) {u : SourceUnit} (hu : u ∈ made.reduceOption) :
    ∃ m ∈ ms, ∃ convention, m.unit convention options = .ok u := by
  obtain ⟨m, hm, hmu⟩ := exists_of_mem_of_mapM_eq_ok h (List.reduceOption_mem_iff.1 hu)
  unfold Plan.unit? at hmu
  split at hmu
  · next convention _ =>
    obtain ⟨made, hmade, hsome⟩ := exists_of_map_eq_ok hmu
    obtain rfl := Option.some.inj hsome
    exact ⟨m, hm, convention, hmade⟩
  · cases hmu

/-- The units of a run are those of modules of the table, and the one that is written by hand. -/
theorem exists_module_of_mem_units (h : c.units t selected provenance = .ok us) {u : SourceUnit} (hu : u ∈ us) :
    (∃ m ∈ t.modules, ∃ convention, m.unit convention (c.unitOptions provenance) = .ok u) ∨
      u = textUnit (c.unitOptions provenance) := by
  unfold units at h
  obtain ⟨tableUnits, htable, h⟩ := exists_of_bind_eq_ok h
  obtain rfl := Except.ok.inj h
  rcases List.mem_append.1 hu with hu | hu
  · left
    unfold Config.tableUnits at htable
    split at htable
    · have hplan := exists_of_mapError_eq_ok htable
      unfold Plan.units at hplan
      obtain ⟨_, -, hplan⟩ := exists_of_bind_eq_ok hplan
      obtain ⟨made, hmade, hplan⟩ := exists_of_bind_eq_ok hplan
      obtain rfl := Except.ok.inj hplan
      exact exists_module_of_unit? hmade hu
    · obtain ⟨p, -, htable⟩ := exists_of_bind_eq_ok htable
      obtain ⟨made, hmade, htable⟩ := exists_of_bind_eq_ok htable
      obtain rfl := Except.ok.inj htable
      obtain ⟨m, hm, hmu⟩ := exists_module_of_unit? (exists_of_mapError_eq_ok hmade) hu
      exact ⟨m, (List.mem_filter.1 hm).1, hmu⟩
  · right
    split at hu
    · exact List.mem_singleton.1 hu
    · simp at hu

theorem isFileName_of_mem_units (ht : t.WellFormed) (h : c.units t selected provenance = .ok us) {u : SourceUnit}
    (hu : u ∈ us) : IsFileName u.fileName := by
  refine isFileName_of_isIdentifier ?_
  rcases exists_module_of_mem_units h hu with ⟨m, hm, convention, hunit⟩ | rfl
  · obtain ⟨source, -, rfl⟩ := exists_of_map_eq_ok hunit
    exact (ht.modules m hm).name
  · have htext : isIdentifier textModuleName = true := by decide
    exact htext

end Config

/-- **Every table of a source is well formed.**  A function of a header has the symbol prefix and its name as its symbol
and no empty types; one of a table file has the symbol of its entry, or the prefix and its name.  So units have the
names of files, and the names of kinds can stand for all types of a module without a change to its unit: of the texts of
a table, only its identifiers and its documentation reach the code. -/
theorem wellFormed_of_sources :
    (∀ symbolPrefix text t, Header.parse symbolPrefix text = .ok t →
      t.WellFormed ∧ ∀ d ∈ t.functions, d.rawName = symbolPrefix ++ d.publicName ∧ ∀ a ∈ d.args, a.declaredType ≠ "") ∧
    (∀ file : TableFile, file.check = .ok () →
      file.descriptors.WellFormed ∧ ∀ d ∈ file.descriptors.functions, ∃ f ∈ file.active, f.name = d.publicName ∧
        d.rawName = f.rawName.getD (file.library.symbolPrefix ++ d.publicName)) ∧
    ∀ t : Table, t.WellFormed →
      (∀ (c : Config) selected provenance us, c.units t selected provenance = .ok us →
        ∀ u ∈ us, IsFileName u.fileName) ∧
      ∀ m ∈ t.modules, ∀ convention options,
        (m.plain.unit convention options).toOption = (m.unit convention options).toOption := by
  refine ⟨fun symbolPrefix text t h => ?_, fun file h => ?_, fun t ht => ⟨?_, ?_⟩⟩
  · exact ⟨Header.wellFormed_of_parse h, fun d hd => (Header.functions_of_parse h hd).2⟩
  · exact ⟨TableFile.wellFormed_descriptors h, fun d hd => (TableFile.functions_of_check h hd).2⟩
  · exact fun c selected provenance us h u hu => c.isFileName_of_mem_units ht h hu
  · exact fun m _ convention options => m.toOption_unit_plain convention options

/-- A section with a documented function. -/
def circleText : String := "LIBFIVE_SECTION(shapes)\nLIBFIVE_STDLIB circle(\n // A circle.\n tfloat r);\n"

def circleTable : Table :=
  ⟨[⟨"shapes", [⟨"circle", "p_circle", "shapes", [⟨"r", "tfloat", 0⟩], some "A circle."⟩]⟩]⟩

theorem parse_circleText : Header.parse "p_" circleText = .ok circleTable := by
  rw [Header.parse, circleText, String.toList_ofList]
  rfl

/-- An entry with a symbol of its own and a type that is not supported, and one that is left out. -/
def labelFile : TableFile where
  library := ⟨"labels", "p_"⟩
  functions := [
    ⟨"label", "labels", some "native_label", some " A label. ", [⟨"s", "const  char *"⟩, ⟨"m", "mesh"⟩], false⟩,
    ⟨"old", "labels", none, none, [], true⟩]

def labelTable : Table :=
  ⟨[⟨"labels", [⟨"label", "native_label", "labels", [⟨"s", "const char*", 0⟩, ⟨"m", "mesh", 1⟩], some "A label."⟩]⟩]⟩

/-- A header with the run for its table, and a table file. -/
theorem wellFormed_of_sources_documented :
    Header.parse "p_" circleText = .ok circleTable ∧ circleTable.WellFormed ∧
      (∃ us, Config.drawingConfig.units circleTable [] ⟨"now", "me"⟩ = .ok us ∧
        us.map (·.moduleName) = ["shapes", "text"] ∧ ∀ u ∈ us, IsFileName u.fileName) ∧
      labelFile.check = .ok () ∧ labelFile.descriptors = labelTable ∧ labelTable.WellFormed := by
  obtain ⟨hheader, hfile, htable⟩ := wellFormed_of_sources
  have hparse := parse_circleText
  have hcheck : labelFile.check = .ok () := rfl
  have hdescriptors : labelFile.descriptors = labelTable := rfl
  have hcircle := (hheader _ _ _ hparse).1
  have hnames : (Config.drawingConfig.units circleTable [] ⟨"now", "me"⟩).toOption.map (·.map (·.moduleName)) =
      some ["shapes", "text"] := rfl
  obtain ⟨us, hus, hnames⟩ := exists_of_toOption_map_eq_some hnames
  exact ⟨hparse, hcircle, ⟨us, hus, hnames, (htable _ hcircle).1 _ _ _ us hus⟩, hcheck, hdescriptors,
    hdescriptors ▸ (hfile _ hcheck).1⟩

end ShapeBindings
