import Mathlib.Data.List.Indexes
import ShapeBindings.Proofs.Identifier
import ShapeBindings.Proofs.NativeType
import ShapeBindings.Proofs.Table

/-!
# Well-formed tables

What everything that is made of a table relies on.

* `Descriptor.WellFormed`: names are identifiers, arguments are numbered in their order, and types and documentation are
  in their normal form;
* `Descriptor.wellFormed_build`: so are the descriptors that are built of identifiers;
* `Table.wellFormed_of_built`: a table that is built of such descriptors is well formed.
-/

namespace ShapeBindings

open Text

/-! ### Descriptors -/

theorem foldl_arg (params : List (String × String)) (d : Descriptor) :
    params.foldl (fun d (type, name) => d.arg name type) d =
      { d with args := d.args ++ params.mapIdx fun i q => ⟨q.2, normalizeType q.1, d.args.length + i⟩ } := by
  induction params generalizing d with
  | nil => simp
  | cons q params ih =>
    obtain ⟨type, name⟩ := q
    rw [List.foldl_cons, ih]
    simp [Descriptor.arg, List.mapIdx_cons, Nat.add_assoc, Nat.add_comm 1]

namespace Descriptor

/-- The descriptor of a function with some parameters, each a type and a name. -/
def build (publicName rawName moduleName doc : String) (params : List (String × String)) : Descriptor :=
  (params.foldl (fun d (type, name) => d.arg name type)
    ({ publicName, rawName, moduleName } : Descriptor)).withDoc doc

section Build

variable (publicName rawName moduleName doc : String) (params : List (String × String))

theorem build_eq :
    build publicName rawName moduleName doc params =
      ({ publicName, rawName, moduleName,
         args := params.mapIdx fun i q => ⟨q.2, normalizeType q.1, i⟩ } : Descriptor).withDoc doc := by
  rw [build, foldl_arg]
  simp

@[simp] theorem publicName_build : (build publicName rawName moduleName doc params).publicName = publicName := by
  rw [build_eq]
  rfl

@[simp] theorem rawName_build : (build publicName rawName moduleName doc params).rawName = rawName := by
  rw [build_eq]
  rfl

@[simp] theorem moduleName_build : (build publicName rawName moduleName doc params).moduleName = moduleName := by
  rw [build_eq]
  rfl

theorem args_build : (build publicName rawName moduleName doc params).args =
    params.mapIdx fun i q => ⟨q.2, normalizeType q.1, i⟩ := by
  rw [build_eq]
  rfl

end Build

theorem exists_of_mem_args_build {publicName rawName moduleName doc : String} {params : List (String × String)}
    {a : Argument} (h : a ∈ (build publicName rawName moduleName doc params).args) :
    ∃ q ∈ params, a.name = q.2 ∧ a.declaredType = normalizeType q.1 := by
  rw [args_build, List.mem_mapIdx] at h
  obtain ⟨i, hi, rfl⟩ := h
  exact ⟨params[i], List.getElem_mem hi, rfl, rfl⟩

/-- A descriptor with identifiers as its names, numbered arguments, and types and documentation in their normal form. -/
structure WellFormed (d : Descriptor) : Prop where
  publicName : isIdentifier d.publicName = true
  rawName : isIdentifier d.rawName = true
  argName : ∀ a ∈ d.args, isIdentifier a.name = true
  index : d.args.map (·.index) = List.range d.arity
  declaredType : ∀ a ∈ d.args, normalizeType a.declaredType = a.declaredType
  doc : ∀ doc, d.doc = some doc → doc ≠ "" ∧ trim doc.toList = doc.toList

theorem index_eq_of_map {d : Descriptor} (h : d.args.map (·.index) = List.range d.arity) (i : Nat) (a : Argument)
    (ha : d.args[i]? = some a) : a.index = i := by
  have hi : (d.args.map (·.index))[i]? = some a.index := by rw [List.getElem?_map, ha]; rfl
  rw [h, List.getElem?_eq_some_iff] at hi
  obtain ⟨_, hi⟩ := hi
  rw [← hi, List.getElem_range]

theorem WellFormed.index_eq {d : Descriptor} (h : d.WellFormed) (i : Nat) (a : Argument) (ha : d.args[i]? = some a) :
    a.index = i :=
  index_eq_of_map h.index i a ha

theorem doc_withDoc {d : Descriptor} {doc text : String} (h : (d.withDoc doc).doc = some text) :
    text ≠ "" ∧ trim text.toList = text.toList := by
  unfold withDoc at h
  dsimp only at h
  split at h
  · cases h
  · next hne =>
    obtain rfl := Option.some.inj h
    rw [List.isEmpty_iff] at hne
    rw [String.toList_ofList, trim_trim]
    exact ⟨fun he => hne (by rw [← String.toList_ofList (l := trim doc.toList), he]; rfl), rfl⟩

theorem wellFormed_build {publicName rawName : String} {params : List (String × String)}
    (hpublic : isIdentifier publicName = true) (hraw : isIdentifier rawName = true)
    (hparams : ∀ q ∈ params, isIdentifier q.2 = true) (moduleName doc : String) :
    (build publicName rawName moduleName doc params).WellFormed where
  publicName := by rwa [publicName_build]
  rawName := by rwa [rawName_build]
  argName a ha := by
    obtain ⟨q, hq, hname, -⟩ := exists_of_mem_args_build ha
    rw [hname]
    exact hparams q hq
  index := by
    rw [arity, args_build]
    refine List.ext_getElem (by simp) fun i h _ => ?_
    simp
  declaredType a ha := by
    obtain ⟨q, -, -, htype⟩ := exists_of_mem_args_build ha
    rw [htype, normalizeType_normalizeType]
  doc text h := doc_withDoc h

end Descriptor

/-! ### Modules and tables -/

/-- A module with an identifier as its name that holds well-formed descriptors of its own. -/
structure Module.WellFormed (m : Module) : Prop where
  name : isIdentifier m.name = true
  moduleName : ∀ d ∈ m.functions, d.moduleName = m.name
  functions : ∀ d ∈ m.functions, d.WellFormed

/-- A table of well-formed modules with names of their own. -/
structure Table.WellFormed (t : Table) : Prop where
  nodup : t.names.Nodup
  modules : ∀ m ∈ t.modules, m.WellFormed

theorem Table.wellFormed_of_built {t : Table} (hbuilt : t.Built) (hnames : ∀ name ∈ t.names, isIdentifier name = true)
    (hfunctions : ∀ d ∈ t.functions, d.WellFormed) : t.WellFormed where
  nodup := hbuilt.nodup_names
  modules m hm :=
    { name := hnames m.name (List.mem_map_of_mem hm)
      moduleName := hbuilt.moduleName_eq m hm
      functions := fun d hd => hfunctions d (Table.mem_functions.2 ⟨m, hm, hd⟩) }

end ShapeBindings
