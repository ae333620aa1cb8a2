import ShapeBindings.Config
import ShapeBindings.Proofs.Dictionary
import ShapeBindings.Proofs.Steps

/-!
# The plans of a configuration

A configuration has one convention for a module, by name or by default (`Config.conventionOf`).  The plan of a full run
uses it for every module but the one that is written by hand (`convention?_plan`), the plan of a selection for the
modules that are selected (`convention?_of_planFor`), and a selection has a plan just when each of them has a convention
(`exists_planFor_iff`).
-/

namespace ShapeBindings

/-! ### What the operations do to a plan -/

namespace Plan

theorem isExcluded_exclude (p : Plan) (name other : String) :
    (p.exclude name).isExcluded other = (other == name || p.isExcluded other) :=
  Dictionary.contains_insert p.excluded name other ()

theorem convention?_exclude (p : Plan) (name other : String) :
    (p.exclude name).convention? other = if other = name then none else p.convention? other := by
  unfold convention?
  rw [isExcluded_exclude, exclude, Dictionary.get?_erase]
  by_cases hn : other = name <;> simp [hn]

theorem convention?_of_isExcluded {p : Plan} {name : String} (h : p.isExcluded name = true) :
    p.convention? name = none := if_pos h

theorem convention?_of_excluded_empty {p : Plan} (h : p.excluded = {}) (name : String) :
    p.convention? name = (p.conventions.get? name).or p.fallback := by
  unfold convention? isExcluded
  rw [h]
  rfl

/-! ### Entries given one after the other -/

section Entries

variable (es : List (String × Convention)) (p : Plan)

theorem fallback_foldl_assign : (es.foldl (fun p e => p.assign e.1 e.2) p).fallback = p.fallback := by
  induction es generalizing p with
  | nil => rfl
  | cons e es ih => exact ih (p.assign e.1 e.2)

theorem excluded_foldl_assign : (es.foldl (fun p e => p.assign e.1 e.2) p).excluded = p.excluded := by
  induction es generalizing p with
  | nil => rfl
  | cons e es ih => exact ih (p.assign e.1 e.2)

/-- Entries for different modules count before those that a plan has. -/
theorem get?_foldl_assign (hes : (es.map (·.1)).Nodup) (name : String) :
    (es.foldl (fun p e => p.assign e.1 e.2) p).conventions.get? name =
      (es.lookup name).or (p.conventions.get? name) := by
  induction es generalizing p with
  | nil => rfl
  | cons e es ih =>
    obtain ⟨n, conv⟩ := e
    rw [List.map_cons, List.nodup_cons] at hes
    rw [List.foldl_cons, ih _ hes.2, lookup_cons_eq_ite, assign, Dictionary.get?_insert]
    by_cases hn : name = n
    · -- no later entry has the name
      have hnone : es.lookup n = none := by
        rw [List.lookup_eq_none_iff]
        intro e he
        rw [bne_iff_ne]
        rintro rfl
        exact hes.1 (List.mem_map_of_mem (f := (·.1)) he)
      rw [if_pos hn, if_pos hn, hn, hnone]
      rfl
    · rw [if_neg hn, if_neg hn]

end Entries

end Plan

namespace Config

theorem nodup_names (d : Dictionary Convention) : (d.entries.map (·.1)).Nodup := by
  rw [List.Nodup, List.pairwise_map]
  refine d.increasing.imp ?_
  intro a b h he
  exact String.lt_irrefl b.1 (he ▸ h)

/-! ### The plan of a full run -/

/-- A plan that gives each module its convention, less the module that is written by hand. -/
theorem convention?_without_text {c : Config} {p : Plan} (he : p.excluded = {})
    (hp : ∀ name, (p.conventions.get? name).or p.fallback = c.conventionOf name) (name : String) :
    (if c.output.text then p.exclude textModuleName else p).convention? name =
      if c.output.text && name == textModuleName then none else c.conventionOf name := by
  have hname : p.convention? name = c.conventionOf name := by
    rw [Plan.convention?_of_excluded_empty he, hp]
  cases c.output.text with
  | false => exact hname
  | true =>
    simp only [if_true, Bool.true_and, beq_iff_eq]
    rw [Plan.convention?_exclude, hname]

/-- The plan that has the entries of a configuration and nothing else. -/
def assigned (c : Config) : Plan := c.modules.entries.foldl (fun p e => p.assign e.1 e.2) {}

theorem get?_assigned (c : Config) (name : String) : c.assigned.conventions.get? name = c.modules.get? name := by
  rw [assigned, Plan.get?_foldl_assign _ _ (nodup_names c.modules)]
  exact Option.or_none

theorem convention?_plan (c : Config) (name : String) :
    c.plan.convention? name = if c.output.text && name == textModuleName then none else c.conventionOf name := by
  have hf : c.assigned.fallback = none := Plan.fallback_foldl_assign c.modules.entries {}
  have he : c.assigned.excluded = {} := Plan.excluded_foldl_assign c.modules.entries {}
  unfold plan
  cases hd : c.output.defaultConvention with
  | some conv =>
    refine convention?_without_text (p := c.assigned.withFallback conv) he (fun n => ?_) name
    rw [conventionOf, hd, ← get?_assigned]
    rfl
  | none =>
    refine convention?_without_text (p := c.assigned) he (fun n => ?_) name
    rw [conventionOf, hd, ← get?_assigned, ← hf]

theorem isExcluded_plan (c : Config) (name : String) :
    c.plan.isExcluded name = (c.output.text && name == textModuleName) := by
  have he : c.assigned.excluded = {} := Plan.excluded_foldl_assign c.modules.entries {}
  have hfew : ∀ p : Plan, p.excluded = {} →
      (if c.output.text then p.exclude textModuleName else p).isExcluded name =
        (c.output.text && name == textModuleName) := by
    intro p hp
    have hnone : p.isExcluded name = false := by
      rw [Plan.isExcluded, hp]
      rfl
    cases c.output.text with
    | false => exact hnone
    | true => rw [if_pos rfl, Plan.isExcluded_exclude, hnone, Bool.or_false, Bool.true_and]
  unfold plan
  cases c.output.defaultConvention with
  | some conv => exact hfew (c.assigned.withFallback conv) he
  | none => exact hfew c.assigned he

/-! ### The plan of a selection -/

/-- The entry of a selected module, added to a plan. -/
def addSelected (c : Config) (p : Plan) (name : String) : Except String Plan :=
  match c.conventionOf name with
  | some conv => .ok (p.assign name conv)
  | none => .error name

theorem planFor_eq (c : Config) (selected : List String) : c.planFor selected = selected.foldlM c.addSelected {} := rfl

theorem addSelected_eq_ok {c : Config} {p q : Plan} {name : String} (h : c.addSelected p name = .ok q) :
    ∃ conv, c.conventionOf name = some conv ∧ q = p.assign name conv := by
  unfold addSelected at h
  split at h
  · next conv hconv => exact ⟨conv, hconv, by cases h; rfl⟩
  · cases h

theorem foldlM_addSelected {c : Config} {selected : List String} {p q : Plan}
    (h : selected.foldlM c.addSelected p = .ok q) :
    q.fallback = p.fallback ∧ q.excluded = p.excluded ∧ (∀ name ∈ selected, (c.conventionOf name).isSome) ∧
      ∀ name, q.conventions.get? name = if name ∈ selected then c.conventionOf name else p.conventions.get? name := by
  induction selected generalizing p with
  | nil =>
    cases h
    simp
  | cons n ns ih =>
    rw [List.foldlM_cons] at h
    obtain ⟨p', hn, h⟩ := exists_of_bind_eq_ok h
    obtain ⟨conv, hconv, rfl⟩ := addSelected_eq_ok hn
    obtain ⟨hf, he, hall, hget⟩ := ih h
    refine ⟨hf, he, ?_, fun name => ?_⟩
    · intro name hname
      rcases List.mem_cons.1 hname with rfl | hname
      · simp [hconv]
      · exact hall name hname
    · rw [hget, Plan.assign, Dictionary.get?_insert]
      by_cases hns : name ∈ ns
      · rw [if_pos hns, if_pos (List.mem_cons_of_mem n hns)]
      · rw [if_neg hns]
        by_cases hnn : name = n
        · rw [if_pos hnn, if_pos (by simp [hnn]), hnn, hconv]
        · rw [if_neg hnn, if_neg (by simp [hns, hnn])]

theorem convention?_of_planFor {c : Config} {selected : List String} {p : Plan} (h : c.planFor selected = .ok p)
    (name : String) : p.convention? name = if name ∈ selected then c.conventionOf name else none := by
  obtain ⟨hf, he, -, hget⟩ := foldlM_addSelected (c.planFor_eq selected ▸ h)
  rw [Plan.convention?_of_excluded_empty he, hf, hget]
  split <;> simp

theorem exists_planFor_iff {c : Config} {selected : List String} :
    (∃ p, c.planFor selected = .ok p) ↔ ∀ name ∈ selected, (c.conventionOf name).isSome := by
  constructor
  · rintro ⟨p, h⟩
    exact (foldlM_addSelected (c.planFor_eq selected ▸ h)).2.2.1
  · intro h
    rw [planFor_eq]
    generalize ({} : Plan) = p
    induction selected generalizing p with
    | nil => exact ⟨p, rfl⟩
    | cons n ns ih =>
      obtain ⟨conv, hconv⟩ := Option.isSome_iff_exists.1 (h n List.mem_cons_self)
      have hn : c.addSelected p n = .ok (p.assign n conv) := by rw [addSelected, hconv]
      rw [List.foldlM_cons, hn]
      exact ih (fun name hname => h name (List.mem_cons_of_mem n hname)) (p.assign n conv)

end Config

end ShapeBindings
