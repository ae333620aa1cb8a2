import ShapeBindings.Proofs.Steps
import ShapeBindings.Proofs.WellFormed
import ShapeBindings.TableFile

/-!
# What a table file states

* `TableFile.identifiers_of_checkFunction`: the names of a function that passes the check are identifiers;
* `TableFile.descriptorOf_eq`: its descriptor is built of them, and of its types and documentation.
-/

namespace ShapeBindings.TableFile

variable {file : TableFile}

theorem checkIdentifier_eq_ok {what value function : String} (h : checkIdentifier what value function = .ok ()) :
    isIdentifier value = true := by
  unfold checkIdentifier at h
  split at h
  · assumption
  · cases h

theorem identifiers_of_checkFunction {f : StatedFunction} (h : file.checkFunction f = .ok ()) :
    isIdentifier f.name = true ∧ isIdentifier f.moduleName = true ∧ isIdentifier (file.symbolOf f) = true ∧
      ∀ a ∈ f.args, isIdentifier a.name = true := by
  unfold checkFunction at h
  dsimp only at h
  by_cases hempty : (f.name.isEmpty || f.moduleName.isEmpty) = true
  · rw [if_pos hempty] at h
    cases h
  · rw [if_neg hempty] at h
    obtain ⟨_, hname, h⟩ := exists_of_bind_eq_ok h
    obtain ⟨_, hmodule, h⟩ := exists_of_bind_eq_ok h
    obtain ⟨_, hsymbol, h⟩ := exists_of_bind_eq_ok h
    exact ⟨checkIdentifier_eq_ok hname, checkIdentifier_eq_ok hmodule, checkIdentifier_eq_ok hsymbol,
      fun a ha => checkIdentifier_eq_ok (forM_eq_ok h a ha)⟩

theorem checkFunction_of_check (h : file.check = .ok ()) : ∀ f ∈ file.functions, file.checkFunction f = .ok () := by
  unfold check at h
  split at h
  · cases h
  · exact forM_eq_ok h

theorem descriptorOf_eq (file : TableFile) (f : StatedFunction) :
    file.descriptorOf f = Descriptor.build f.name (file.symbolOf f) f.moduleName (f.doc.getD "")
      (f.args.map fun a => (a.type, a.name)) := by
  rw [Descriptor.build, List.foldl_map]
  rfl

theorem moduleName_descriptorOf (file : TableFile) (f : StatedFunction) : (file.descriptorOf f).moduleName = f.moduleName := by
  rw [descriptorOf_eq, Descriptor.moduleName_build]

theorem args_descriptorOf (file : TableFile) (f : StatedFunction) :
    (file.descriptorOf f).args = f.args.mapIdx fun i a => ⟨a.name, normalizeType a.type, i⟩ := by
  rw [descriptorOf_eq, Descriptor.args_build, List.mapIdx_eq_iff]
  intro i
  rw [List.getElem?_mapIdx, List.getElem?_map, Option.map_map]
  rfl

theorem check_of_parse {text : String} (h : parse text = .ok file) : file.check = .ok () := by
  unfold parse at h
  split at h
  · cases h
  · next stated _ =>
    cases hc : stated.check <;> rw [hc] at h <;> cases h
    exact hc

end ShapeBindings.TableFile
