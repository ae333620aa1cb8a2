import Mathlib.Data.List.Induction
import Mathlib.Data.List.ReduceOption
import ShapeBindings.Plan
import ShapeBindings.Proofs.Dictionary
import ShapeBindings.Proofs.Steps
import ShapeBindings.Proofs.Text.Order

/-!
# The history of a plan

A plan is built from the empty one by operations (`ofOperations`), and what it says of a module can be told from them.

* `isExcluded_ofOperations`: a module that was ever excluded stays so;
* `get?_ofOperations`, `fallback_ofOperations`: of entries for one module, and of fallbacks, the last one counts;
* `mem_explicitModules_ofOperations`: an entry is there until its module is excluded, and again behind that;
* `resolves_ofOperations`: all of these for every history, and the units that come of it.
-/

namespace ShapeBindings

/-- What can be done to a plan. -/
inductive PlanOperation where
  /-- A module gets a convention. -/
  | assign (name : String) (convention : Convention)
  /-- The modules without an entry get a convention. -/
  | withFallback (convention : Convention)
  /-- A module is removed. -/
  | exclude (name : String)
  deriving DecidableEq

namespace PlanOperation

/-- The plan after an operation. -/
def apply (p : Plan) : PlanOperation → Plan
  | assign name convention => p.assign name convention
  | withFallback convention => p.withFallback convention
  | exclude name => p.exclude name

/-- The convention that an operation assigns to a module. -/
def assigned? (name : String) : PlanOperation → Option Convention
  | assign other convention => if other = name then some convention else none
  | _ => none

/-- The fallback that an operation sets. -/
def fallback? : PlanOperation → Option Convention
  | withFallback convention => some convention
  | _ => none

end PlanOperation

/-- The convention that a module is assigned last. -/
def lastAssigned? (ops : List PlanOperation) (name : String) : Option Convention :=
  (ops.filterMap (·.assigned? name)).getLast?

/-- The fallback that is set last. -/
def lastFallback? (ops : List PlanOperation) : Option Convention := (ops.filterMap (·.fallback?)).getLast?

/-- A module is assigned a convention, and is not excluded behind that. -/
def Standing (ops : List PlanOperation) (name : String) : Prop :=
  ∃ before convention after, ops = before ++ .assign name convention :: after ∧ PlanOperation.exclude name ∉ after

theorem lastAssigned?_concat (ops : List PlanOperation) (op : PlanOperation) (name : String) :
    lastAssigned? (ops ++ [op]) name = (op.assigned? name).or (lastAssigned? ops name) := by
  unfold lastAssigned?
  cases h : op.assigned? name <;> simp [List.filterMap_append, h]

theorem lastFallback?_concat (ops : List PlanOperation) (op : PlanOperation) :
    lastFallback? (ops ++ [op]) = op.fallback?.or (lastFallback? ops) := by
  unfold lastFallback?
  cases h : op.fallback? <;> simp [List.filterMap_append, h]

theorem not_standing_nil (name : String) : ¬ Standing [] name := by
  rintro ⟨before, convention, after, h, -⟩
  simp at h

theorem standing_concat_iff {ops : List PlanOperation} {op : PlanOperation} {name : String} :
    Standing (ops ++ [op]) name ↔
      (∃ convention, op = .assign name convention) ∨ op ≠ .exclude name ∧ Standing ops name := by
  constructor
  · rintro ⟨before, convention, after, h, hafter⟩
    rcases List.eq_nil_or_concat after with rfl | ⟨rest, last, rfl⟩
    · obtain ⟨-, hop⟩ := List.append_inj' h rfl
      exact .inl ⟨convention, (List.cons.inj hop).1⟩
    · rw [List.concat_eq_append, ← List.cons_append, ← List.append_assoc] at h
      obtain ⟨hops, hop⟩ := List.append_inj' h rfl
      obtain rfl : op = last := (List.cons.inj hop).1
      rw [List.concat_eq_append, List.mem_append, List.mem_singleton, not_or] at hafter
      exact .inr ⟨Ne.symm hafter.2, before, convention, rest, hops, hafter.1⟩
  · rintro (⟨convention, rfl⟩ | ⟨hop, before, convention, after, rfl, hafter⟩)
    · exact ⟨ops, convention, [], rfl, List.not_mem_nil⟩
    · refine ⟨before, convention, after ++ [op], by simp, ?_⟩
      rw [List.mem_append, List.mem_singleton, not_or]
      exact ⟨hafter, Ne.symm hop⟩

namespace Plan

/-- The plan that operations build from the empty one. -/
def ofOperations (ops : List PlanOperation) : Plan := ops.foldl PlanOperation.apply {}

@[simp] theorem ofOperations_concat (ops : List PlanOperation) (op : PlanOperation) :
    ofOperations (ops ++ [op]) = op.apply (ofOperations ops) := by
  simp [ofOperations]

/-! ### What the parts of a plan say -/

theorem isExcluded_ofOperations {ops : List PlanOperation} {name : String} :
    (ofOperations ops).isExcluded name = true ↔ .exclude name ∈ ops := by
  induction ops using List.reverseRecOn with
  | nil => simp [ofOperations, isExcluded, Dictionary.contains]
  | append_singleton ops op ih =>
    rw [ofOperations_concat, List.mem_append, List.mem_singleton, ← ih]
    cases op with
    | assign other convention => simp [PlanOperation.apply, assign, isExcluded]
    | withFallback convention => simp [PlanOperation.apply, withFallback, isExcluded]
    | exclude other => simp [PlanOperation.apply, exclude, isExcluded, Dictionary.contains_insert, or_comm]

theorem fallback_ofOperations (ops : List PlanOperation) : (ofOperations ops).fallback = lastFallback? ops := by
  induction ops using List.reverseRecOn with
  | nil => rfl
  | append_singleton ops op ih =>
    rw [ofOperations_concat, lastFallback?_concat, ← ih]
    cases op <;> rfl

theorem get?_apply (p : Plan) (op : PlanOperation) (name : String) :
    (op.apply p).conventions.get? name =
      if op = .exclude name then none else (op.assigned? name).or (p.conventions.get? name) := by
  cases op with
  | assign other convention =>
    have hassign : PlanOperation.assign other convention ≠ .exclude name := PlanOperation.noConfusion
    rw [PlanOperation.apply, assign, Dictionary.get?_insert, if_neg hassign, PlanOperation.assigned?]
    by_cases h : name = other
    · rw [if_pos h, if_pos h.symm, Option.some_or]
    · rw [if_neg h, if_neg (Ne.symm h), Option.none_or]
  | withFallback convention => rfl
  | exclude other =>
    rw [PlanOperation.apply, exclude, Dictionary.get?_erase]
    by_cases h : name = other
    · rw [if_pos h, if_pos (by rw [h])]
    · rw [if_neg h, if_neg (by simpa using Ne.symm h)]
      rfl

/-- The entry of a module that is never excluded is the last one. -/
theorem get?_ofOperations {ops : List PlanOperation} {name : String} (h : .exclude name ∉ ops) :
    (ofOperations ops).conventions.get? name = lastAssigned? ops name := by
  induction ops using List.reverseRecOn with
  | nil => rfl
  | append_singleton ops op ih =>
    rw [List.mem_append, List.mem_singleton, not_or] at h
    rw [ofOperations_concat, get?_apply, if_neg (Ne.symm h.2), ih h.1, lastAssigned?_concat]

theorem mem_explicitModules_ofOperations {ops : List PlanOperation} {name : String} :
    name ∈ (ofOperations ops).explicitModules ↔ Standing ops name := by
  rw [explicitModules, Dictionary.mem_names_iff]
  induction ops using List.reverseRecOn with
  | nil => simp [not_standing_nil, ofOperations]
  | append_singleton ops op ih =>
    rw [ofOperations_concat, get?_apply, standing_concat_iff, ← ih]
    cases op with
    | assign other convention => by_cases h : other = name <;> simp [PlanOperation.assigned?, h]
    | withFallback convention => simp [PlanOperation.assigned?]
    | exclude other => by_cases h : other = name <;> simp [PlanOperation.assigned?, h]

theorem convention?_ofOperations (ops : List PlanOperation) (name : String) :
    (ofOperations ops).convention? name =
      if .exclude name ∈ ops then none else (lastAssigned? ops name).or (lastFallback? ops) := by
  rw [convention?, fallback_ofOperations]
  by_cases h : .exclude name ∈ ops
  · rw [if_pos h, if_pos (isExcluded_ofOperations.2 h)]
  · rw [if_neg h, if_neg (mt isExcluded_ofOperations.1 h), get?_ofOperations h]

/-! ### The units under a plan -/

variable {p : Plan} {t : Table} {options : UnitOptions} {us : List SourceUnit}

theorem convention_of_unit? {m : Module} {u : SourceUnit} (h : p.unit? options m = .ok (some u)) :
    u.moduleName = m.name ∧ ∃ convention, u.convention = some convention ∧ p.convention? m.name = some convention := by
  unfold unit? at h
  split at h
  · next convention hconvention =>
    obtain ⟨v, hv, hsome⟩ := exists_of_map_eq_ok h
    obtain rfl : v = u := Option.some.inj hsome
    obtain ⟨source, -, rfl⟩ := exists_of_map_eq_ok hv
    exact ⟨rfl, convention, rfl, hconvention⟩
  · cases h

/-- Every unit is that of a module that has a convention, and is written with it. -/
theorem convention?_of_mem_units (h : p.units t options = .ok us) {u : SourceUnit} (hu : u ∈ us) :
    (∃ m ∈ t.modules, m.name = u.moduleName) ∧
      ∃ convention, u.convention = some convention ∧ p.convention? u.moduleName = some convention := by
  obtain ⟨-, -, h⟩ := exists_of_bind_eq_ok h
  obtain ⟨made, hmade, h⟩ := exists_of_bind_eq_ok h
  cases h
  obtain ⟨m, hm, hunit⟩ := exists_of_mem_of_mapM_eq_ok hmade (List.reduceOption_mem_iff.1 hu)
  obtain ⟨hname, hconvention⟩ := convention_of_unit? hunit
  rw [hname]
  exact ⟨⟨m, hm, rfl⟩, hconvention⟩

/-! ### All together -/

/-- A plan says of modules what the operations of a history say. -/
structure Resolves (p : Plan) (ops : List PlanOperation) : Prop where
  isExcluded_iff : ∀ name, p.isExcluded name = true ↔ .exclude name ∈ ops
  convention?_eq : ∀ name, p.convention? name =
    if .exclude name ∈ ops then none else (lastAssigned? ops name).or (lastFallback? ops)
  mem_explicitModules_iff : ∀ name, name ∈ p.explicitModules ↔ Standing ops name
  nodup_explicitModules : p.explicitModules.Nodup
  order_explicitModules : p.explicitModules.Pairwise fun a b => Text.encode a < Text.encode b
  units : ∀ t options us, p.units t options = .ok us → ∀ u ∈ us, PlanOperation.exclude u.moduleName ∉ ops

/-- **A plan says what its history says.**  A module that was ever excluded is, whatever stands before or behind that,
and never gets a unit.  Any other one has the convention that it was assigned last, or else the last fallback.  The
entries are those that no exclusion follows, in the order of the octets of their names. -/
theorem resolves_ofOperations (ops : List PlanOperation) : (ofOperations ops).Resolves ops := by
  have horder : (ofOperations ops).explicitModules.Pairwise (· < ·) := Dictionary.pairwise_names _
  constructor
  case isExcluded_iff => exact fun name => isExcluded_ofOperations
  case convention?_eq => exact convention?_ofOperations ops
  case mem_explicitModules_iff => exact fun name => mem_explicitModules_ofOperations
  case nodup_explicitModules =>
    refine horder.imp ?_
    rintro a b h rfl
    exact String.lt_irrefl a h
  case order_explicitModules => exact horder.imp Text.encode_lt_encode_iff.2
  case units =>
    intro t options us h u hu hexcluded
    obtain ⟨-, convention, -, hconvention⟩ := convention?_of_mem_units h hu
    rw [convention?_ofOperations, if_pos hexcluded] at hconvention
    cases hconvention

/-- A module is excluded between two entries of its own, and there is a fallback. -/
def textHistory : List PlanOperation :=
  [.assign "text" .free, .withFallback .receiver, .exclude "text", .assign "text" .receiver, .assign "csg" .free]

/-- Sections of which one is excluded, one has an entry and one has none. -/
def textTable : Table := ⟨[⟨"text", []⟩, ⟨"csg", []⟩, ⟨"shapes", []⟩]⟩

theorem resolves_ofOperations_text :
    (ofOperations textHistory).explicitModules = ["csg", "text"] ∧
      (ofOperations textHistory).convention? "text" = none ∧
      (ofOperations textHistory).convention? "shapes" = some .receiver ∧
      ∃ us, (ofOperations textHistory).units textTable { source := "stdlib.h", provenance := ⟨"", ""⟩ } = .ok us ∧
        us.map (·.moduleName) = ["csg", "shapes"] ∧ ∀ u ∈ us, PlanOperation.exclude u.moduleName ∉ textHistory := by
  have h := resolves_ofOperations textHistory
  have hmade : ∃ us, (ofOperations textHistory).units textTable { source := "stdlib.h", provenance := ⟨"", ""⟩ } = .ok us ∧
      us.map (·.moduleName) = ["csg", "shapes"] := ⟨_, rfl, by decide⟩
  obtain ⟨us, hus, hnames⟩ := hmade
  refine ⟨by decide, ?_, ?_, us, hus, hnames, h.units _ _ us hus⟩
  · rw [h.convention?_eq]
    decide
  · rw [h.convention?_eq]
    decide

end Plan

end ShapeBindings
