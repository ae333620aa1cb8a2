import Mathlib.Data.List.Basic
import Mathlib.Data.List.Induction
import ShapeBindings.Proofs.Table

/-!
# The history of a table

A table is built from the empty one by operations (`ofOperations`), and all that it holds can be told from them.

* `module?_ofOperations`: a module is there if an operation mentions it, and has the functions that were added for it;
* `pairwise_names_ofOperations`: modules stand in the order in which they are first mentioned;
* `push_push_comm`: functions of different modules can be added in either order once one of the modules is there;
* `groups_ofOperations`: all of these for every history.
-/

namespace ShapeBindings

/-- What can be done to a table. -/
inductive TableOperation where
  /-- A descriptor is added to its module. -/
  | push (d : Descriptor)
  /-- A module gets its place. -/
  | ensure (name : String)
  deriving DecidableEq

namespace TableOperation

/-- The module that an operation mentions. -/
def moduleName : TableOperation → String
  | push d => d.moduleName
  | ensure name => name

/-- The descriptor that an operation adds. -/
def pushed? : TableOperation → Option Descriptor
  | push d => some d
  | ensure _ => none

/-- The table after an operation. -/
def apply (t : Table) : TableOperation → Table
  | push d => t.push d
  | ensure name => t.ensure name

end TableOperation

/-- The names that operations mention, with repetitions. -/
def mentions (ops : List TableOperation) : List String := ops.map (·.moduleName)

/-- The descriptors that operations add. -/
def pushes (ops : List TableOperation) : List Descriptor := ops.filterMap (·.pushed?)

@[simp] theorem mentions_concat (ops : List TableOperation) (op : TableOperation) :
    mentions (ops ++ [op]) = mentions ops ++ [op.moduleName] := by
  simp [mentions]

@[simp] theorem pushes_concat_push (ops : List TableOperation) (d : Descriptor) :
    pushes (ops ++ [TableOperation.push d]) = pushes ops ++ [d] := by
  simp [pushes, TableOperation.pushed?]

@[simp] theorem pushes_concat_ensure (ops : List TableOperation) (name : String) :
    pushes (ops ++ [TableOperation.ensure name]) = pushes ops := by
  simp [pushes, TableOperation.pushed?]

/-- Nothing is added for a module that is not mentioned. -/
theorem filter_pushes_eq_nil {ops : List TableOperation} {name : String} (h : name ∉ mentions ops) :
    (pushes ops).filter (·.moduleName = name) = [] := by
  rw [List.filter_eq_nil_iff]
  intro d hd hname
  obtain ⟨op, hop, hpushed⟩ := List.mem_filterMap.1 hd
  cases op with
  | push e =>
    obtain rfl : e = d := Option.some.inj hpushed
    rw [decide_eq_true_eq] at hname
    exact h (hname ▸ List.mem_map_of_mem hop)
  | ensure n => cases hpushed

namespace Table

/-- The table that operations build from the empty one. -/
def ofOperations (ops : List TableOperation) : Table := ops.foldl TableOperation.apply {}

@[simp] theorem ofOperations_nil : ofOperations [] = {} := rfl

@[simp] theorem ofOperations_concat (ops : List TableOperation) (op : TableOperation) :
    ofOperations (ops ++ [op]) = op.apply (ofOperations ops) := by
  simp [ofOperations]

theorem ofList_eq_ofOperations (ds : List Descriptor) : ofList ds = ofOperations (ds.map .push) := by
  unfold ofList ofOperations
  rw [List.foldl_map]
  rfl

theorem built_ofOperations (ops : List TableOperation) : (ofOperations ops).Built := by
  induction ops using List.reverseRecOn with
  | nil => exact .empty
  | append_singleton ops op ih =>
    rw [ofOperations_concat]
    cases op with
    | push d => exact ih.push d
    | ensure name => exact ih.ensure name

/-! ### Looking a module up -/

theorem module?_push (t : Table) (d : Descriptor) (name : String) :
    (t.push d).module? name =
      if name = d.moduleName then some ⟨name, ((t.module? name).map (·.functions)).getD [] ++ [d]⟩
      else t.module? name := by
  obtain ⟨ms⟩ := t
  unfold push module?
  induction ms with
  | nil =>
    by_cases hd : d.moduleName = name
    · simp [Module.insert, hd]
    · simp [Module.insert, hd, Ne.symm hd]
  | cons m ms ih =>
    simp only [Module.insert] at ih ⊢
    by_cases hname : m.name = name
    · by_cases hm : m.name = d.moduleName
      · simp [hm, ← hname]
      · simp [hm, ← hname]
    · by_cases hm : m.name = d.moduleName
      · have hd : ¬ name = d.moduleName := fun h => hname (hm.trans h.symm)
        simp [hm, hd, Ne.symm hd]
      · simp [hm, hname, ih]

theorem module?_ensure (t : Table) (n name : String) :
    (t.ensure n).module? name = if name = n then some ((t.module? name).getD ⟨name, []⟩) else t.module? name := by
  have happend : (⟨t.modules ++ [⟨n, []⟩]⟩ : Table).module? name =
      (t.module? name).or (if n = name then some ⟨n, []⟩ else none) := by
    by_cases hname : n = name <;> simp [module?, List.find?_append, hname]
  unfold ensure
  by_cases hname : name = n
  · subst hname
    cases hn : t.module? name with
    | some m => simp [hn]
    | none =>
      rw [hn] at happend
      simp [happend]
  · cases t.module? n with
    | some m => simp [hname]
    | none =>
      rw [if_neg (Ne.symm hname), Option.or_none] at happend
      simp [happend, hname]

/-- What a module holds is told by the operations alone. -/
theorem module?_ofOperations (ops : List TableOperation) (name : String) :
    (ofOperations ops).module? name =
      if name ∈ mentions ops then some ⟨name, (pushes ops).filter (·.moduleName = name)⟩ else none := by
  induction ops using List.reverseRecOn with
  | nil => rfl
  | append_singleton ops op ih =>
    rw [ofOperations_concat, mentions_concat]
    cases op with
    | push d =>
      rw [pushes_concat_push, TableOperation.apply, module?_push, ih, List.filter_append]
      by_cases hd : name = d.moduleName
      · by_cases hm : name ∈ mentions ops
        · simp [TableOperation.moduleName, ← hd, hm]
        · simp [TableOperation.moduleName, ← hd, hm, filter_pushes_eq_nil hm]
      · simp [TableOperation.moduleName, hd, Ne.symm hd]
    | ensure n =>
      rw [pushes_concat_ensure, TableOperation.apply, module?_ensure, ih]
      by_cases hn : name = n
      · by_cases hm : name ∈ mentions ops
        · simp [TableOperation.moduleName, ← hn, hm]
        · simp [TableOperation.moduleName, ← hn, hm, filter_pushes_eq_nil hm]
      · simp [TableOperation.moduleName, hn]

theorem module?_eq_some_iff {t : Table} (ht : t.names.Nodup) {name : String} {m : Module} :
    t.module? name = some m ↔ m ∈ t.modules ∧ m.name = name := by
  obtain ⟨ms⟩ := t
  unfold names at ht
  unfold module?
  dsimp only at ht ⊢
  induction ms with
  | nil => simp
  | cons n ms ih =>
    rw [List.map_cons, List.nodup_cons] at ht
    by_cases hn : n.name = name
    · rw [List.find?_cons_of_pos (by simpa using hn), Option.some_inj, List.mem_cons]
      constructor
      · rintro rfl
        exact ⟨.inl rfl, hn⟩
      · rintro ⟨rfl | hm, hname⟩
        · rfl
        · -- no later module has the name
          exact absurd (List.mem_map_of_mem hm) (hname ▸ hn ▸ ht.1)
    · rw [List.find?_cons_of_neg (by simpa using hn), ih ht.2, List.mem_cons]
      constructor
      · rintro ⟨hm, hname⟩
        exact ⟨.inr hm, hname⟩
      · rintro ⟨rfl | hm, hname⟩
        · exact absurd hname hn
        · exact ⟨hm, hname⟩

/-! ### The order of the modules -/

theorem names_apply (op : TableOperation) (t : Table) :
    (op.apply t).names = if op.moduleName ∈ t.names then t.names else t.names ++ [op.moduleName] := by
  cases op with
  | push d => exact names_push t d
  | ensure name => exact names_ensure t name

theorem mem_names_ofOperations {ops : List TableOperation} {name : String} :
    name ∈ (ofOperations ops).names ↔ name ∈ mentions ops := by
  rw [← isSome_module?_iff, module?_ofOperations]
  by_cases h : name ∈ mentions ops <;> simp [h]

/-- Modules stand in the order in which operations first mention them. -/
theorem pairwise_names_ofOperations (ops : List TableOperation) :
    (ofOperations ops).names.Pairwise fun a b => (mentions ops).idxOf a < (mentions ops).idxOf b := by
  induction ops using List.reverseRecOn with
  | nil => exact List.Pairwise.nil
  | append_singleton ops op ih =>
    -- the places of the names that are there do not change
    have hidx : ∀ a ∈ (ofOperations ops).names,
        (mentions (ops ++ [op])).idxOf a = (mentions ops).idxOf a := by
      intro a ha
      rw [mentions_concat, List.idxOf_append_of_mem (mem_names_ofOperations.1 ha)]
    have hold : (ofOperations ops).names.Pairwise
        fun a b => (mentions (ops ++ [op])).idxOf a < (mentions (ops ++ [op])).idxOf b := by
      refine ih.imp_of_mem ?_
      intro a b ha hb hlt
      rwa [hidx a ha, hidx b hb]
    rw [ofOperations_concat, names_apply]
    split
    · exact hold
    · next hnew =>
      rw [mem_names_ofOperations] at hnew
      refine List.pairwise_append.2 ⟨hold, List.pairwise_singleton _ _, ?_⟩
      intro a ha b hb
      obtain rfl := List.mem_singleton.1 hb
      rw [hidx a ha, mentions_concat, List.idxOf_append_of_notMem hnew]
      have hlt := List.idxOf_lt_length_of_mem (mem_names_ofOperations.1 ha)
      omega

/-! ### Counting -/

theorem functionCount_ofOperations (ops : List TableOperation) :
    (ofOperations ops).functionCount = (pushes ops).length := by
  induction ops using List.reverseRecOn with
  | nil => rfl
  | append_singleton ops op ih =>
    rw [ofOperations_concat]
    cases op with
    | push d => simp [TableOperation.apply, ih]
    | ensure name => simp [TableOperation.apply, ih]

theorem isEmpty_ofOperations_iff {ops : List TableOperation} :
    (ofOperations ops).isEmpty = true ↔ pushes ops = [] := by
  rw [isEmpty, functionCount_ofOperations, beq_iff_eq, List.length_eq_zero_iff]

/-! ### Two operations in either order -/

theorem Module.insert_insert_comm {d e : Descriptor} (hne : d.moduleName ≠ e.moduleName) {ms : List Module}
    (h : d.moduleName ∈ ms.map (·.name) ∨ e.moduleName ∈ ms.map (·.name)) :
    Module.insert e (Module.insert d ms) = Module.insert d (Module.insert e ms) := by
  induction ms with
  | nil => simp at h
  | cons m ms ih =>
    by_cases hd : m.name = d.moduleName
    · have he : ¬ d.moduleName = e.moduleName := hne
      simp [Module.insert, hd, he]
    · by_cases he : m.name = e.moduleName
      · simp [Module.insert, he, Ne.symm hne]
      · have hrest : d.moduleName ∈ ms.map (·.name) ∨ e.moduleName ∈ ms.map (·.name) := by
          simpa [Ne.symm hd, Ne.symm he] using h
        simp [Module.insert, hd, he, ih hrest]

theorem push_push_comm {t : Table} {d e : Descriptor} (hne : d.moduleName ≠ e.moduleName)
    (h : d.moduleName ∈ t.names ∨ e.moduleName ∈ t.names) : (t.push d).push e = (t.push e).push d :=
  congrArg Table.mk (Module.insert_insert_comm hne h)

theorem ofOperations_swap {before after : List TableOperation} {d e : Descriptor}
    (hne : d.moduleName ≠ e.moduleName) (h : d.moduleName ∈ mentions before ∨ e.moduleName ∈ mentions before) :
    ofOperations (before ++ .push d :: .push e :: after) = ofOperations (before ++ .push e :: .push d :: after) := by
  rw [← mem_names_ofOperations, ← mem_names_ofOperations] at h
  have hcomm : ((ofOperations before).push d).push e = ((ofOperations before).push e).push d := push_push_comm hne h
  unfold ofOperations at hcomm ⊢
  rw [List.foldl_append, List.foldl_append, List.foldl_cons, List.foldl_cons, List.foldl_cons, List.foldl_cons]
  exact congrArg (after.foldl TableOperation.apply) hcomm

/-! ### All together -/

/-- A table holds what the operations of a history added, grouped by modules in the order in which it first mentions
them. -/
structure Groups (t : Table) (ops : List TableOperation) : Prop where
  nodup_names : t.names.Nodup
  order : t.names.Pairwise fun a b => (mentions ops).idxOf a < (mentions ops).idxOf b
  mem_names : ∀ name, name ∈ t.names ↔ name ∈ mentions ops
  functions : ∀ m ∈ t.modules, m.functions = (pushes ops).filter (·.moduleName = m.name)
  module?_eq_some_iff : ∀ name m, t.module? name = some m ↔ m ∈ t.modules ∧ m.name = name
  isSome_module?_iff : ∀ name, (t.module? name).isSome = true ↔ name ∈ mentions ops
  functionCount : t.functionCount = (pushes ops).length
  isEmpty_iff : t.isEmpty = true ↔ pushes ops = []

theorem functions_ofOperations (ops : List TableOperation) :
    ∀ m ∈ (ofOperations ops).modules, m.functions = (pushes ops).filter (·.moduleName = m.name) := by
  intro m hm
  have hlookup := (module?_eq_some_iff (built_ofOperations ops).nodup_names).2 ⟨hm, rfl⟩
  rw [module?_ofOperations] at hlookup
  split at hlookup
  · exact congrArg Module.functions (Option.some.inj hlookup).symm
  · cases hlookup

/-- **A table groups what its history adds.**  Its modules are those that some operation mentions, each once and in the
order of the first mention, and hold what was added for them, each function once and in order.  Adding a list of
descriptors is one of these histories.  Two functions of different modules that are added one after the other can change
places if one of the modules was mentioned before. -/
theorem groups_ofOperations :
    (∀ ops : List TableOperation, (ofOperations ops).Groups ops) ∧
      (∀ ds : List Descriptor, ofList ds = ofOperations (ds.map .push)) ∧
      ∀ (before after : List TableOperation) (d e : Descriptor), d.moduleName ≠ e.moduleName →
        d.moduleName ∈ mentions before ∨ e.moduleName ∈ mentions before →
        ofOperations (before ++ .push d :: .push e :: after) =
          ofOperations (before ++ .push e :: .push d :: after) := by
  refine ⟨fun ops => ?_, ofList_eq_ofOperations, fun before after d e hne h => ofOperations_swap hne h⟩
  have hnodup := (built_ofOperations ops).nodup_names
  constructor
  case nodup_names => exact hnodup
  case order => exact pairwise_names_ofOperations ops
  case mem_names => exact fun name => mem_names_ofOperations
  case functions => exact functions_ofOperations ops
  case module?_eq_some_iff => exact fun name m => module?_eq_some_iff hnodup
  case isSome_module?_iff => exact fun name => isSome_module?_iff.trans mem_names_ofOperations
  case functionCount => exact functionCount_ofOperations ops
  case isEmpty_iff => exact isEmpty_ofOperations_iff

/-- A section that is mentioned before it has functions, and two functions that change places. -/
def circleHistory : List TableOperation :=
  [.ensure "csg", .push ⟨"circle", "p_circle", "shapes", [], none⟩, .push ⟨"union", "p_union", "csg", [], none⟩]

theorem groups_ofOperations_circle :
    (ofOperations circleHistory).names = ["csg", "shapes"] ∧
      ofOperations circleHistory = ofOperations
        [.ensure "csg", .push ⟨"union", "p_union", "csg", [], none⟩, .push ⟨"circle", "p_circle", "shapes", [], none⟩] ∧
      (ofOperations circleHistory).Groups circleHistory := by
  obtain ⟨hgroups, -, hswap⟩ := groups_ofOperations
  refine ⟨by decide, ?_, hgroups circleHistory⟩
  exact hswap [.ensure "csg"] [] _ _ (by decide) (.inr (by decide))

end Table

end ShapeBindings
