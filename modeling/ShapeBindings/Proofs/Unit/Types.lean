import ShapeBindings.Proofs.Steps
import ShapeBindings.SourceUnit

/-!
# Declared types in units

The declared types of a module's arguments reach its unit by their kinds only: with the name of its kind in the place of
each type, the module has the same unit (`Module.toOption_unit_plain`).
-/

namespace ShapeBindings

/-! ### Types that are named by their kinds -/

/-- An argument with the name of its kind as its type, or with no type if that is not supported. -/
def Argument.plain (a : Argument) : Argument := { a with declaredType := (a.kind.map ArgKind.typeName).getD "" }

def Descriptor.plain (d : Descriptor) : Descriptor := { d with args := d.args.map Argument.plain }

/-- A module in which kinds stand for types. -/
def Module.plain (m : Module) : Module := { m with functions := m.functions.map Descriptor.plain }

theorem ArgKind.classify_typeName (k : ArgKind) : classify k.typeName = some k := by
  cases k <;> decide

theorem Argument.kind_plain (a : Argument) : a.plain.kind = a.kind := by
  have hnone : ArgKind.classify "" = none := by decide
  unfold plain kind
  cases ArgKind.classify a.declaredType with
  | none => exact hnone
  | some k => exact k.classify_typeName

/-! ### Wrappers -/

theorem Argument.toOption_kindFor (a : Argument) (function : String) : (a.kindFor function).toOption = a.kind := by
  unfold kindFor
  cases a.kind <;> rfl

theorem Argument.toOption_marshal_plain (a : Argument) (convention : Convention) (function : String) :
    (a.plain.marshal convention function).toOption = (a.marshal convention function).toOption := by
  unfold marshal
  rw [toOption_bind, toOption_bind, toOption_kindFor, toOption_kindFor, kind_plain]
  rfl

namespace Descriptor

theorem toOption_checkReceiver_plain (d : Descriptor) : d.plain.checkReceiver.toOption = d.checkReceiver.toOption := by
  unfold checkReceiver plain
  dsimp only
  cases d.args with
  | nil => rfl
  | cons a as =>
    simp only [List.map_cons, List.head?_cons]
    rw [toOption_bind, toOption_bind, Argument.toOption_kindFor, Argument.toOption_kindFor, Argument.kind_plain]

theorem signature_eq (d : Descriptor) (convention : Convention) (naming : NamingPolicy) :
    d.signature convention naming =
      (if convention.usesReceiver then d.checkReceiver else .ok ()) >>= fun _ =>
        (d.args.mapM fun (a : Argument) => a.marshal convention d.publicName).map fun ms =>
          ⟨naming.functionName d.publicName, ms.filterMap (·.param), ms.map (·.call), convention.usesReceiver⟩ := by
  unfold signature
  cases convention with
  | receiver => cases d.checkReceiver <;> rfl
  | free => rfl

theorem toOption_signature_plain (d : Descriptor) (convention : Convention) (naming : NamingPolicy) :
    (d.plain.signature convention naming).toOption = (d.signature convention naming).toOption := by
  have hcheck : (if convention.usesReceiver then d.plain.checkReceiver else .ok ()).toOption =
      (if convention.usesReceiver then d.checkReceiver else .ok ()).toOption := by
    split
    · exact d.toOption_checkReceiver_plain
    · rfl
  have hargs : (d.plain.args.mapM fun (a : Argument) => a.marshal convention d.plain.publicName).toOption =
      (d.args.mapM fun (a : Argument) => a.marshal convention d.publicName).toOption := by
    rw [toOption_mapM, toOption_mapM, plain, List.mapM_map]
    simp only [Function.comp_def, Argument.toOption_marshal_plain]
  rw [signature_eq, signature_eq, toOption_bind, toOption_bind, hcheck]
  simp only [toOption_map, hargs]
  rfl

theorem toOption_wrapper_plain (d : Descriptor) (convention : Convention) (naming : NamingPolicy) :
    (d.plain.wrapper convention naming).toOption = (d.wrapper convention naming).toOption := by
  rw [wrapper, wrapper, toOption_map, toOption_map, toOption_signature_plain]
  rfl

end Descriptor

/-! ### Units -/

namespace Module

theorem paramKinds_plain (m : Module) (convention : Convention) :
    m.plain.paramKinds convention = m.paramKinds convention := by
  have hargs : ∀ d : Descriptor,
      (d.plain.args.filter fun a => !(convention.usesReceiver && a.index == 0)).filterMap (·.kind) =
        (d.args.filter fun a => !(convention.usesReceiver && a.index == 0)).filterMap (·.kind) := by
    intro d
    rw [Descriptor.plain, List.filter_map, List.filterMap_map]
    simp only [Function.comp_def, Argument.kind_plain]
    rfl
  simp only [paramKinds, plain, List.flatMap_map, hargs]

theorem imports_plain (m : Module) (convention : Convention) : m.plain.imports convention = m.imports convention := by
  have hempty : m.plain.functions.isEmpty = m.functions.isEmpty := by simp [plain]
  simp only [imports, hempty, paramKinds_plain]

theorem toOption_assemble_plain (m : Module) (convention : Convention) (options : UnitOptions) :
    (m.plain.assemble convention options).toOption = (m.assemble convention options).toOption := by
  have hlines : ∀ wrappers,
      m.plain.unitLines convention options wrappers = m.unitLines convention options wrappers := by
    intro wrappers
    rw [unitLines, unitLines, imports_plain]
    rfl
  have hwrappers : (m.plain.functions.mapM fun (d : Descriptor) => d.wrapper convention options.naming).toOption =
      (m.functions.mapM fun (d : Descriptor) => d.wrapper convention options.naming).toOption := by
    rw [toOption_mapM, toOption_mapM, plain, List.mapM_map]
    simp only [Function.comp_def, Descriptor.toOption_wrapper_plain]
  rw [assemble, assemble, toOption_bind, toOption_bind, hwrappers]
  simp only [hlines]

theorem toOption_unit_plain (m : Module) (convention : Convention) (options : UnitOptions) :
    (m.plain.unit convention options).toOption = (m.unit convention options).toOption := by
  have hsize : m.plain.size = m.size := List.length_map _
  rw [unit, unit, toOption_map, toOption_map, toOption_assemble_plain, hsize]
  rfl

end Module

end ShapeBindings
