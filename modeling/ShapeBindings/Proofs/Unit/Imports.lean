import ShapeBindings.Proofs.Unit.Faults

/-!
# The imports of a unit

* `exists_foldl_pushName`, `pairwise_sortNames`, `eraseReps_of_nodup`: names are added once and sorted;
* `exists_imports`: behind the module of native functions, what is imported are wrapper types, in increasing order;
* `paramKinds_eq`: the kinds that the imports are chosen by are those of the parameters of the wrappers;
* `imports_of_assemble`: the imports of a unit are what its wrappers use.
-/

namespace ShapeBindings

/-! ### Names in order -/

/-- What is new among names that are added one by one stands behind the old ones. -/
theorem exists_foldl_pushName {names : List String} (h : names.Nodup) (xs : List String) :
    ∃ added, xs.foldl pushName names = names ++ added ∧ (names ++ added).Nodup ∧
      ∀ x, x ∈ added ↔ x ∈ xs ∧ x ∉ names := by
  induction xs generalizing names with
  | nil => exact ⟨[], (List.append_nil _).symm, by rwa [List.append_nil], by simp⟩
  | cons x xs ih =>
    rw [List.foldl_cons, pushName]
    by_cases hx : x ∈ names
    · obtain ⟨added, hadded, hnodup, hmem⟩ := ih h
      rw [if_pos hx]
      exact ⟨added, hadded, hnodup, by grind⟩
    · have hconcat : (names ++ [x]).Nodup := by grind
      obtain ⟨added, hadded, hnodup, hmem⟩ := ih hconcat
      rw [List.append_assoc, List.singleton_append] at hadded hnodup
      rw [if_neg hx]
      exact ⟨x :: added, hadded, hnodup, by grind⟩

theorem mem_insertName {name n : String} {names : List String} :
    n ∈ insertName name names ↔ n = name ∨ n ∈ names := by
  induction names with
  | nil => simp [insertName]
  | cons first rest ih =>
    rw [insertName]
    split
    · rw [List.mem_cons, ih, List.mem_cons, or_left_comm]
    · rw [List.mem_cons]

theorem mem_sortNames {n : String} {names : List String} : n ∈ sortNames names ↔ n ∈ names := by
  induction names with
  | nil => rfl
  | cons name names ih =>
    rw [sortNames, List.foldr_cons, mem_insertName, List.mem_cons]
    exact or_congr_right ih

theorem pairwise_insertName {name : String} {names : List String} (h : names.Pairwise (· < ·)) (hn : name ∉ names) :
    (insertName name names).Pairwise (· < ·) := by
  induction names with
  | nil => exact List.pairwise_singleton _ _
  | cons n rest ih =>
    rw [List.mem_cons, not_or] at hn
    obtain ⟨hless, hrest⟩ := List.pairwise_cons.1 h
    rw [insertName]
    split
    · next hlt =>
      refine List.pairwise_cons.2 ⟨fun x hx => ?_, ih hrest hn.2⟩
      rcases mem_insertName.1 hx with rfl | hx
      · exact hlt
      · exact hless x hx
    · next hle =>
      have hlt : name < n := Std.lt_of_le_of_ne (String.not_lt.1 hle) hn.1
      refine List.pairwise_cons.2 ⟨fun x hx => ?_, h⟩
      rcases List.mem_cons.1 hx with rfl | hx
      · exact hlt
      · exact String.lt_trans hlt (hless x hx)

theorem pairwise_sortNames {names : List String} (h : names.Nodup) : (sortNames names).Pairwise (· < ·) := by
  induction names with
  | nil => exact .nil
  | cons name names ih =>
    obtain ⟨hname, hnames⟩ := List.nodup_cons.1 h
    exact pairwise_insertName (ih hnames) fun hmem => hname (mem_sortNames.1 hmem)

/-- Among distinct names there is nothing to drop. -/
theorem eraseReps_of_nodup {names : List String} (h : names.Nodup) : names.eraseReps = names := by
  have hloop : ∀ (rest acc : List String) (name : String), (name :: rest).Nodup →
      List.eraseRepsBy.loop (· == ·) name rest acc = acc.reverse ++ name :: rest := by
    intro rest
    induction rest with
    | nil => simp [List.eraseRepsBy.loop]
    | cons n rest ih =>
      intro acc name hnodup
      obtain ⟨hname, hrest⟩ := List.nodup_cons.1 hnodup
      have hne : (name == n) = false := beq_eq_false_iff_ne.2 fun heq => hname (heq ▸ List.mem_cons_self)
      rw [List.eraseRepsBy.loop, hne]
      dsimp only
      rw [ih (name :: acc) n hrest, List.reverse_cons, List.append_assoc, List.singleton_append]
  cases names with
  | nil => rfl
  | cons name names => exact hloop names [] name h

namespace Module

variable {m : Module} {c : Convention} {options : UnitOptions}

/-! ### The names that are imported -/

/-- The wrapper types in increasing order. -/
def allTypes : List String := [treeType, "TreeFloat", "TreeVec2", "TreeVec3"]

theorem mem_allTypes_of_wrapperType? {k : ArgKind} {type : String} (h : k.wrapperType? = some type) :
    type ∈ allTypes := by
  cases k <;> cases h <;> decide

/-- Behind the module of native functions, the types of trees and of the parameters stand in increasing order. -/
theorem exists_imports (m : Module) (c : Convention) :
    ∃ types, m.imports c = (if m.functions = [] then [] else ["sys"]) ++ types ∧ types.Pairwise (· < ·) ∧
      ∀ type, type ∈ types ↔ type = treeType ∨ ∃ k ∈ m.paramKinds c, k.wrapperType? = some type := by
  by_cases h : m.functions = []
  · have hkinds : m.paramKinds c = [] := by rw [paramKinds, h, List.flatMap_nil]
    refine ⟨[treeType], ?_, List.pairwise_singleton _ _, by simp [hkinds]⟩
    rw [imports, hkinds, h]
    rfl
  · have hempty : m.functions.isEmpty = false := by rwa [← Bool.not_eq_true, List.isEmpty_iff]
    have halways : ["sys", treeType].Nodup := by decide
    obtain ⟨added, hadded, hnodup, hmem⟩ :=
      exists_foldl_pushName halways ((m.paramKinds c).filterMap (·.wrapperType?))
    obtain ⟨hsys, htypes⟩ := List.nodup_cons.1 hnodup
    have hsorted := pairwise_sortNames htypes
    refine ⟨sortNames (treeType :: added), ?_, hsorted, fun type => ?_⟩
    · have hall : ("sys" :: sortNames (treeType :: added)).Nodup :=
        List.nodup_cons.2 ⟨fun hs => hsys (mem_sortNames.1 hs), hsorted.imp fun hlt => Std.ne_of_lt hlt⟩
      rw [imports, hempty, if_neg h, if_neg Bool.false_ne_true, List.singleton_append, hadded]
      exact eraseReps_of_nodup hall
    · rw [mem_sortNames, List.mem_cons, hmem, List.mem_filterMap]
      constructor
      · exact Or.imp_right And.left
      · rintro (htree | ⟨k, hk, htype⟩)
        · exact .inl htree
        · -- no wrapper type is named as the module of native functions
          have hne : type ≠ "sys" := ne_of_mem_of_not_mem (mem_allTypes_of_wrapperType? htype) (by decide)
          refine or_iff_not_imp_left.2 fun htree => ⟨⟨k, hk, htype⟩, ?_⟩
          simp [hne, htree]

theorem mem_imports_iff {name : String} :
    name ∈ m.imports c ↔ name = "sys" ∧ m.functions ≠ [] ∨
      name = treeType ∨ ∃ k ∈ m.paramKinds c, k.wrapperType? = some name := by
  obtain ⟨types, heq, -, hmem⟩ := m.exists_imports c
  rw [heq, List.mem_append, hmem]
  refine or_congr_left ?_
  by_cases h : m.functions = [] <;> simp [h]

theorem sys_mem_imports_iff : "sys" ∈ m.imports c ↔ m.functions ≠ [] := by
  have htypes : ¬ ("sys" = treeType ∨ ∃ k ∈ m.paramKinds c, k.wrapperType? = some "sys") := by
    rintro (htree | ⟨k, -, hk⟩)
    · exact absurd htree (by decide)
    · exact absurd (mem_allTypes_of_wrapperType? hk) (by decide)
  rw [mem_imports_iff, or_iff_left htypes, and_iff_right rfl]

theorem nodup_imports (m : Module) (c : Convention) : (m.imports c).Nodup := by
  obtain ⟨types, heq, hsorted, hmem⟩ := m.exists_imports c
  have htypes : types.Nodup := hsorted.imp fun hlt => Std.ne_of_lt hlt
  rw [heq]
  split
  · exact htypes
  · refine List.nodup_cons.2 ⟨fun hsys => ?_, htypes⟩
    rcases (hmem "sys").1 hsys with htree | ⟨k, -, hk⟩
    · exact absurd htree (by decide)
    · exact absurd (mem_allTypes_of_wrapperType? hk) (by decide)

theorem mem_of_mem_imports {name : String} (h : name ∈ m.imports c) : name ∈ "sys" :: allTypes := by
  rcases mem_imports_iff.1 h with ⟨rfl, -⟩ | rfl | ⟨k, -, hk⟩
  · exact List.mem_cons_self
  · exact List.mem_cons_of_mem _ List.mem_cons_self
  · exact List.mem_cons_of_mem _ (mem_allTypes_of_wrapperType? hk)

end Module

/-! ### The kinds of the parameters -/

theorem ArgKind.paramType_injective : Function.Injective ArgKind.paramType := by
  intro j k
  cases j <;> cases k <;> decide

theorem ArgKind.paramType_of_wrapperType? {k : ArgKind} {name : String} (h : k.wrapperType? = some name) :
    k.paramType = name := by
  cases k <;> cases h <;> rfl

/-- A kind of parameter that is imported by its type. -/
theorem Module.paramType_mem_imports_iff {m : Module} {c : Convention} {k : ArgKind}
    (hk : k ∈ [ArgKind.float, .vec2, .vec3]) : k.paramType ∈ m.imports c ↔ k ∈ m.paramKinds c := by
  have hnames : k.paramType ≠ "sys" ∧ k.paramType ≠ treeType ∧ k.wrapperType? = some k.paramType := by
    revert k
    decide
  obtain ⟨hsys, htree, htype⟩ := hnames
  rw [mem_imports_iff, or_iff_right fun h => hsys h.1, or_iff_right htree]
  constructor
  · rintro ⟨j, hj, hwrapper⟩
    rwa [← ArgKind.paramType_injective (ArgKind.paramType_of_wrapperType? hwrapper)]
  · exact fun hmem => ⟨k, hmem, htype⟩

namespace Descriptor

variable {d : Descriptor} {c : Convention} {naming : NamingPolicy} {s : Signature}

/-- The arguments that the imports are chosen by are those that become parameters. -/
theorem paramKinds_eq (hi : ∀ i (a : Argument), d.args[i]? = some a → a.index = i)
    (h : d.signature c naming = .ok s) :
    (d.args.filter fun a => !(c.usesReceiver && a.index == 0)).filterMap (·.kind) = s.params.map Param.kind := by
  obtain ⟨as, ms, hms, hparams, hcases⟩ := exists_handedOver hi h
  have hargs : (d.args.filter fun a => !(c.usesReceiver && a.index == 0)) = as := by
    rcases hcases with ⟨rfl, hargs, -⟩ | ⟨rfl, ⟨a, hargs, -⟩, -⟩
    · rw [hargs]
      exact List.filter_eq_self.2 fun _ _ => rfl
    · rw [hargs, List.filter_cons_of_neg]
      · refine List.filter_eq_self.2 fun b hb => ?_
        simpa [Convention.usesReceiver] using index_ne_zero_of_mem hi hargs b hb
      · rw [hi 0 a (by rw [hargs]; rfl)]
        simp [Convention.usesReceiver]
  have hkinds := congrArg (List.filterMap id) (map_kind_params hms)
  rw [List.filterMap_map, List.filterMap_map, ← hparams] at hkinds
  rw [hargs]
  exact hkinds.symm.trans (congrFun List.filterMap_eq_map s.params)

end Descriptor

/-! ### Units -/

namespace Module

variable {m : Module} {c : Convention} {options : UnitOptions} {source : String}

/-- The imports are chosen by the kinds of the parameters of the wrappers. -/
theorem mem_paramKinds_iff (hi : ∀ d ∈ m.functions, d.args.map (·.index) = List.range d.arity)
    (h : m.assemble c options = .ok source) {k : ArgKind} :
    k ∈ m.paramKinds c ↔
      ∃ d ∈ m.functions, ∃ s, d.signature c options.naming = .ok s ∧ ∃ p ∈ s.params, p.kind = k := by
  have hsupported := exists_assemble_iff.1 ⟨source, h⟩
  rw [paramKinds, List.mem_flatMap]
  refine exists_congr fun d => and_congr_right fun hd => ?_
  obtain ⟨s, hs⟩ := Descriptor.exists_signature_iff.2 (hsupported d hd)
  rw [Descriptor.paramKinds_eq (Descriptor.index_eq_of_map (hi d hd)) hs, List.mem_map]
  constructor
  · exact fun hp => ⟨s, hs, hp⟩
  · rintro ⟨s', hs', hp⟩
    obtain rfl := Except.ok.inj (hs.symm.trans hs')
    exact hp

theorem render_eq_iff {p : Param} {k : ArgKind} : p.render = p.name ++ ": " ++ k.paramType ↔ p.kind = k := by
  have hrender : p.render = p.name ++ ": " ++ p.kind.paramType := rfl
  rw [hrender, String.append_right_inj]
  exact ArgKind.paramType_injective.eq_iff

/-- **The imports of a unit are what its wrappers use**, each once: the module of native functions if there is a
function, the type of trees, and the other wrapper types of which a wrapper declares a parameter.  The types stand in
increasing order behind the module. -/
theorem imports_of_assemble (hi : ∀ d ∈ m.functions, d.args.map (·.index) = List.range d.arity)
    (h : m.assemble c options = .ok source) :
    (m.imports c).Nodup ∧
      treeType ∈ m.imports c ∧
      ("sys" ∈ m.imports c ↔ m.functions ≠ []) ∧
      (∀ type ∈ ["TreeFloat", "TreeVec2", "TreeVec3"], type ∈ m.imports c ↔
        ∃ d ∈ m.functions, ∃ s, d.signature c options.naming = .ok s ∧
          ∃ p ∈ s.params, p.render = p.name ++ ": " ++ type) ∧
      (∀ name ∈ m.imports c, name ∈ ["sys", treeType, "TreeFloat", "TreeVec2", "TreeVec3"]) ∧
      ∃ types, m.imports c = (if m.functions = [] then [] else ["sys"]) ++ types ∧ types.Pairwise (· < ·) := by
  obtain ⟨types, heq, hsorted, -⟩ := m.exists_imports c
  refine ⟨m.nodup_imports c, mem_imports_iff.2 (.inr (.inl rfl)), sys_mem_imports_iff, ?_,
    fun _ => mem_of_mem_imports, types, heq, hsorted⟩
  intro type htype
  obtain ⟨k, hk, rfl⟩ : ∃ k ∈ [ArgKind.float, .vec2, .vec3], k.paramType = type :=
    List.mem_map.1 (show type ∈ [ArgKind.float, .vec2, .vec3].map ArgKind.paramType from htype)
  simp only [paramType_mem_imports_iff hk, mem_paramKinds_iff hi h, render_eq_iff]

/-- A function of two handles, and one of a handle, a scalar and a count. -/
def arrayModule : Module where
  name := "csg"
  functions := [unionFunction,
    ⟨"array", "p_array", "csg", [⟨"t", "libfive_tree", 0⟩, ⟨"dx", "tfloat", 1⟩, ⟨"n", "int", 2⟩], none⟩]

theorem imports_of_assemble_array :
    (∀ d ∈ arrayModule.functions, d.args.map (·.index) = List.range d.arity) ∧
      ∃ source, arrayModule.assemble .receiver moveOptions = .ok source ∧
        arrayModule.imports .receiver = ["sys", "Tree", "TreeFloat"] ∧
        (∃ d ∈ arrayModule.functions, ∃ s, d.signature .receiver .standard = .ok s ∧
          ∃ p ∈ s.params, p.render = p.name ++ ": " ++ "TreeFloat") ∧
        ¬ ∃ d ∈ arrayModule.functions, ∃ s, d.signature .receiver .standard = .ok s ∧
          ∃ p ∈ s.params, p.render = p.name ++ ": " ++ "TreeVec2" := by
  have hi : ∀ d ∈ arrayModule.functions, d.args.map (·.index) = List.range d.arity := by decide
  have hok : (arrayModule.assemble .receiver moveOptions).toOption.isSome = true := by decide +kernel
  have himports : arrayModule.imports .receiver = ["sys", "Tree", "TreeFloat"] := by decide
  obtain ⟨source, hsource⟩ := exists_of_isSome_toOption hok
  obtain ⟨-, -, -, htypes, -⟩ := imports_of_assemble hi hsource
  refine ⟨hi, source, hsource, himports, (htypes "TreeFloat" (by decide)).1 ?_, fun h => ?_⟩
  · rw [himports]
    decide
  · have hmem := (htypes "TreeVec2" (by decide)).2 h
    rw [himports] at hmem
    exact absurd hmem (by decide)

end Module

end ShapeBindings
