import ShapeBindings.Proofs.Marshal.Soundness
import ShapeBindings.Proofs.NativeRecord.Stdlib
import ShapeBindings.Proofs.Unit.Lines

/-!
# What a call hands over

* `runTexts_eq_outcome`: a wrapper hands over the values of its function's arguments;
* `WrapperCall.values`: the caller's values, in the order in which the bundled header declares the arguments;
* `WrapperCall.nativeArgs_eq`: a call hands these values over, or is refused for the first one that no native function
  gets;
* `WrapperCall.handsOver`: so does the wrapper that is generated for the function.
-/

namespace ShapeBindings

open Text

/-! ### Wrappers and the values of arguments -/

section Given

variable {H S : Type} {d : Descriptor} {c : Convention} {naming : NamingPolicy} {s : Signature} {receiver : H}
  {vals : List (CallerValue H S)}

/-- Values of all arguments give the parameters values of their kinds. -/
theorem map_kind_of_given (hd : d.WellFormed) (h : d.signature c naming = .ok s)
    (hk : (c.given receiver vals).map (some ·.kind) = d.args.map Argument.kind) :
    vals.map CallerValue.kind = s.params.map Param.kind := by
  obtain ⟨as, ms, hms, hparams, hcases⟩ := exists_handedOver hd.index_eq h
  have hvals : vals.map (some ·.kind) = as.map Argument.kind := by
    rcases hcases with ⟨rfl, hargs, -⟩ | ⟨rfl, ⟨a, hargs, -⟩, -⟩
    · rw [hargs] at hk
      exact hk
    · rw [hargs] at hk
      exact (List.cons.inj hk).2
  rw [← map_kind_params hms, ← hparams] at hvals
  refine List.map_injective_iff.2 (fun _ _ h => Option.some.inj h) ?_
  rw [List.map_map, List.map_map]
  exact hvals

/-- Values of all arguments are the receiver and values of the parameters. -/
theorem exists_given [Inhabited H] (hd : d.WellFormed) (h : d.signature c naming = .ok s)
    {given : List (CallerValue H S)} (hk : given.map (some ·.kind) = d.args.map Argument.kind) :
    ∃ receiver vals, c.given receiver vals = given := by
  obtain ⟨as, ms, -, -, ⟨rfl, -⟩ | ⟨rfl, ⟨a, hargs, ha⟩, -⟩⟩ := exists_handedOver hd.index_eq h
  · exact ⟨default, given, rfl⟩
  · rw [hargs, List.map_cons, ha] at hk
    cases given with
    | nil => cases hk
    | cons v vals =>
      cases v with
      | tree receiver => exact ⟨receiver, vals, rfl⟩
      | _ => cases (List.cons.inj hk).1

/-- The texts of a wrapper hand over the values of the arguments. -/
theorem runTexts_eq_outcome (hd : d.WellFormed)
    (hn : (d.args.map fun a => escapeKeyword a.name).Nodup ∧ "_" ∉ d.args.map fun a => escapeKeyword a.name)
    (h : d.signature c naming = .ok s)
    (hk : (c.given receiver vals).map (some ·.kind) = d.args.map Argument.kind) :
    runTexts (s.params.map Param.render) (s.calls.map NativeExpr.render) s.receiver receiver vals =
      d.outcome (c.given receiver vals) := by
  have hsub : (s.params.map Param.name).Sublist (d.args.map fun a => escapeKeyword a.name) := by
    rw [map_name_signature hd.index_eq h]
    exact (List.drop_sublist _ d.args).map _
  have hu : "_" ∉ s.params.map Param.name := fun hmem => hn.2 (hsub.mem hmem)
  rw [runTexts_eq hd.index_eq h hu hd.publicName fun a ha => hd.argName a (List.mem_of_mem_drop ha)]
  exact run_eq_outcome hd.index_eq h (map_kind_of_given hd h hk) (hn.1.sublist hsub) hu receiver

end Given

/-! ### The values of a call -/

/-- A native value as it is put on record. -/
def NativeArg.ofNative : NativeValue Handle (List UInt8) → NativeArg
  | .tree h => .tree h
  | .vec2 x y => .vec2 ⟨x, y⟩
  | .vec3 x y z => .vec3 ⟨x, y, z⟩
  | .int i => .int i
  | .string bytes => .str (String.ofList (decodeLossy bytes))

namespace CallerValue

/-- The value as it is put on record. -/
def recorded (v : CallerValue Handle (List UInt8)) : NativeArg := .ofNative v.native

/-- Whether no native function gets the value: a count is too large, or a text holds a NUL. -/
def refused : CallerValue Handle (List UInt8) → Bool
  | text bytes => bytes.contains 0
  | v => v.tooLarge

theorem refused_count_iff {n : UInt32} :
    (count n : CallerValue Handle (List UInt8)).refused = true ↔ maxNativeInt < n.toNat := by
  simp only [refused, tooLarge, decide_eq_true_eq, maxNativeInt]
  omega

theorem refused_text_iff {bytes : List UInt8} :
    (text bytes : CallerValue Handle (List UInt8)).refused = true ↔ 0 ∈ bytes :=
  List.contains_iff_mem

/-- How the call fails if the value of an argument is refused. -/
def failure (function argument : String) : CallerValue Handle (List UInt8) → CallFailure
  | text bytes => .interiorNul (bytes.idxOf 0)
  | _ => .countTooLarge function argument

end CallerValue

namespace WrapperCall

/-- The function that the wrapper is made for. -/
def descriptor : WrapperCall → Descriptor
  | circle .. => Stdlib.circle
  | sphere .. => Stdlib.sphere
  | polygon .. => Stdlib.polygon
  | emptiness => Stdlib.emptiness
  | union .. => Stdlib.union
  | inverse .. => Stdlib.inverse
  | blend .. => Stdlib.blend
  | moveit .. => Stdlib.move
  | scaleX .. => Stdlib.scaleX
  | arrayX .. => Stdlib.arrayX
  | extrudeZ .. => Stdlib.extrudeZ
  | text .. => Stdlib.text

/-- The name of the wrapper. -/
def wrapperName : WrapperCall → String
  | circle .. => "circle"
  | sphere .. => "sphere"
  | polygon .. => "polygon"
  | emptiness => "emptiness"
  | union .. => "union"
  | inverse .. => "inverse"
  | blend .. => "blend"
  | moveit .. => "moveit"
  | scaleX .. => "scale_x"
  | arrayX .. => "array_x"
  | extrudeZ .. => "extrude_z"
  | text .. => "text"

/-- The caller's values in the order of the declared arguments. -/
def values : WrapperCall → List (CallerValue Handle (List UInt8))
  | circle r center => [.float r, .vec2 center.x center.y]
  | sphere radius center => [.float radius, .vec3 center.x center.y center.z]
  | polygon r n center => [.float r, .count n, .vec2 center.x center.y]
  | emptiness => []
  | union a b => [.tree a, .tree b]
  | inverse a => [.tree a]
  | blend a b m => [.tree a, .tree b, .float m]
  | moveit t offset => [.tree t, .vec3 offset.x offset.y offset.z]
  | scaleX t sx x0 => [.tree t, .float sx, .float x0]
  | arrayX shape nx dx => [.tree shape, .count nx, .float dx]
  | extrudeZ t zmin zmax => [.tree t, .float zmin, .float zmax]
  | text txt pos => [.text txt, .vec2 pos.x pos.y]

/-- Why the call fails, if it does: what is said about the first value that is refused. -/
def refusal? (c : WrapperCall) : Option CallFailure :=
  ((c.descriptor.args.zip c.values).find? (·.2.refused)).map fun q => q.2.failure c.descriptor.publicName q.1.name

variable (c : WrapperCall)

theorem descriptor_mem : c.descriptor ∈ Stdlib.table.functions := by
  cases c <;> simp [descriptor, Stdlib.table, Table.functions]

theorem rawName_descriptor : c.descriptor.rawName = c.symbol := by
  cases c <;> simp only [descriptor, symbol] <;> decide

theorem functionName_descriptor : NamingPolicy.standard.functionName c.descriptor.publicName = c.wrapperName := by
  cases c <;> simp only [descriptor, wrapperName] <;> decide

theorem map_kind_values : c.values.map (some ·.kind) = c.descriptor.args.map Argument.kind := by
  cases c <;> simp only [descriptor, values, List.map_cons, List.map_nil, CallerValue.kind] <;> decide

end WrapperCall

/-! ### What is handed over -/

/-- The native argument for a value, or the failure of the call. -/
def CallerValue.handed (v : CallerValue Handle (List UInt8)) (function argument : String) :
    Except CallFailure NativeArg :=
  if v.refused then .error (v.failure function argument) else .ok v.recorded

theorem nativeInt_eq (f a : String) (n : UInt32) : nativeInt f a n = (CallerValue.count n).handed f a := by
  unfold nativeInt CallerValue.handed
  by_cases hn : n.toNat ≤ maxNativeInt
  · rw [if_pos hn, if_neg (CallerValue.refused_count_iff.not.2 (not_lt.2 hn))]
    rfl
  · rw [if_neg hn, if_pos (CallerValue.refused_count_iff.2 (not_le.1 hn))]
    rfl

theorem nativeString_eq (bytes : List UInt8) (f a : String) :
    nativeString bytes = (CallerValue.text bytes).handed f a := by
  have hfind : bytes.findIdx? (· == 0) = bytes.idxOf? 0 := rfl
  unfold nativeString CallerValue.handed
  rw [hfind]
  by_cases h0 : 0 ∈ bytes
  · obtain ⟨i, hi⟩ : ∃ i, bytes.idxOf? 0 = some i := by
      rw [← Option.isSome_iff_exists, Option.isSome_iff_ne_none, Ne, List.idxOf?_eq_none_iff, not_not]
      exact h0
    rw [if_pos (CallerValue.refused_text_iff.2 h0), CallerValue.failure, List.idxOf_eq_getD_idxOf?, hi]
    rfl
  · rw [if_neg (CallerValue.refused_text_iff.not.2 h0), List.idxOf?_eq_none_iff.2 h0]
    rfl

namespace WrapperCall

theorem nativeArgs_eq_mapM (c : WrapperCall) :
    c.nativeArgs =
      (c.descriptor.args.zip c.values).mapM fun q => q.2.handed c.descriptor.publicName q.1.name := by
  cases c with
  | polygon r n center =>
    rw [nativeArgs, nativeInt_eq]
    rfl
  | arrayX shape nx dx =>
    rw [nativeArgs, nativeInt_eq]
    rfl
  | text txt pos =>
    rw [nativeArgs, nativeString_eq txt "text" "txt"]
    rfl
  | _ => rfl

variable {c : WrapperCall}

theorem length_values (c : WrapperCall) : c.values.length = c.descriptor.args.length := by
  simpa using congrArg List.length c.map_kind_values

/-- A call hands the caller's values over in the declared order, unless one of them is refused. -/
theorem nativeArgs_eq (c : WrapperCall) :
    c.nativeArgs =
      match c.refusal? with
      | none => .ok (c.values.map CallerValue.recorded)
      | some e => .error e := by
  rw [nativeArgs_eq_mapM]
  unfold CallerValue.handed refusal?
  rw [mapM_ite_error, map_zip_snd c.length_values]
  cases (c.descriptor.args.zip c.values).find? (·.2.refused) <;> rfl

/-! ### Which calls fail -/

theorem refusal?_eq_none_iff :
    c.refusal? = none ↔
      (∀ n, .count n ∈ c.values → n.toNat ≤ maxNativeInt) ∧ ∀ bytes, .text bytes ∈ c.values → 0 ∉ bytes := by
  have hnone : c.refusal? = none ↔ ∀ v ∈ c.values, ¬ v.refused = true := by
    rw [refusal?, Option.map_eq_none_iff, List.find?_eq_none]
    conv_rhs => rw [← List.map_snd_zip c.length_values.le, List.forall_mem_map]
  rw [hnone]
  constructor
  · intro h
    constructor
    · intro n hn
      exact not_lt.1 (CallerValue.refused_count_iff.not.1 (h _ hn))
    · intro bytes hbytes
      exact CallerValue.refused_text_iff.not.1 (h _ hbytes)
  · rintro ⟨hcount, htext⟩ v hv
    cases v with
    | count n =>
      rw [CallerValue.refused_count_iff]
      exact not_lt.2 (hcount n hv)
    | text bytes =>
      rw [CallerValue.refused_text_iff]
      exact htext bytes hv
    | _ => exact Bool.false_ne_true

/-- A failure names the argument with the count, or the place of the first NUL of the text. -/
theorem of_refusal?_eq_some {e : CallFailure} (h : c.refusal? = some e) :
    (∃ a n, (a, .count n) ∈ c.descriptor.args.zip c.values ∧ maxNativeInt < n.toNat ∧
        e = .countTooLarge c.descriptor.publicName a.name) ∨
      ∃ bytes, .text bytes ∈ c.values ∧ 0 ∈ bytes ∧ e = .interiorNul (bytes.idxOf 0) := by
  obtain ⟨⟨a, v⟩, hfind, rfl⟩ := Option.map_eq_some_iff.1 h
  have hmem := List.mem_of_find?_eq_some hfind
  have hrefused := List.find?_some hfind
  cases v with
  | count n => exact .inl ⟨a, n, hmem, CallerValue.refused_count_iff.1 hrefused, rfl⟩
  | text bytes =>
    exact .inr ⟨bytes, (List.of_mem_zip hmem).2, CallerValue.refused_text_iff.1 hrefused, rfl⟩
  | _ => cases hrefused

/-! ### The generated wrappers -/

/-- A wrapper that ends with `outcome` does what the call does: it hands the same arguments over, or stops with the
complaint about the same count. -/
def Does (c : WrapperCall) (outcome : Except Trap (List (NativeValue Handle (List UInt8)))) : Prop :=
  match c.nativeArgs with
  | .ok args => outcome.map (·.map NativeArg.ofNative) = .ok args
  | .error (.countTooLarge function argument) => outcome = .error (.panic (countComplaint function argument))
  | .error (.interiorNul _) => False

theorem find?_refused {qs : List (Argument × CallerValue Handle (List UInt8))} (h : ∀ q ∈ qs, q.2.kind ≠ .str) :
    qs.find? (·.2.refused) = qs.find? (·.2.tooLarge) := by
  induction qs with
  | nil => rfl
  | cons q qs ih =>
    have hq : q.2.refused = q.2.tooLarge := by
      obtain ⟨a, v⟩ := q
      cases v with
      | text bytes => exact absurd rfl (h _ List.mem_cons_self)
      | _ => rfl
    rw [List.find?_cons, List.find?_cons, hq, ih fun p hp => h p (List.mem_cons_of_mem q hp)]

theorem does_outcome (h : ∀ v ∈ c.values, v.kind ≠ .str) : c.Does (c.descriptor.outcome c.values) := by
  have hzip : ∀ q ∈ c.descriptor.args.zip c.values, q.2.kind ≠ .str := fun q hq => h q.2 (List.of_mem_zip hq).2
  unfold Does Descriptor.outcome
  rw [nativeArgs_eq, refusal?, find?_refused hzip]
  cases hfind : (c.descriptor.args.zip c.values).find? (·.2.tooLarge) with
  | none => exact congrArg Except.ok List.map_map
  | some q =>
    obtain ⟨a, v⟩ := q
    have hkind := hzip _ (List.mem_of_find?_eq_some hfind)
    cases v with
    | text bytes => exact absurd rfl hkind
    | _ => rfl

/-- The wrapper that is generated for the function of a call does what the call does, whatever way the values reach
it. -/
def Generated (c : WrapperCall) : Prop :=
  ∃ convention s, Stdlib.plan.convention? c.descriptor.moduleName = some convention ∧
    c.descriptor.signature convention .standard = .ok s ∧ s.name = c.wrapperName ∧
    (∃ receiver vals, convention.given receiver vals = c.values) ∧
    ∀ receiver vals, convention.given receiver vals = c.values →
      c.Does (runTexts (s.params.map Param.render) (s.calls.map NativeExpr.render) s.receiver receiver vals)

theorem generated_of_moduleName_ne (h : c.descriptor.moduleName ≠ textModuleName) : c.Generated := by
  have hd := c.descriptor_mem
  have hkinds := c.map_kind_values
  have hnostr : ∀ v ∈ c.values, v.kind ≠ .str := by
    intro v hv hstr
    have hkind : some v.kind ∈ c.descriptor.args.map Argument.kind := hkinds ▸ List.mem_map_of_mem hv
    obtain ⟨a, ha, hak⟩ := List.mem_map.1 hkind
    exact Stdlib.kind_ne_str _ hd h a ha (hak.trans (congrArg some hstr))
  obtain ⟨convention, s, hconvention, hs⟩ := Stdlib.exists_signature hd h
  have hname : s.name = c.wrapperName := (name_of_signature hs).trans c.functionName_descriptor
  refine ⟨convention, s, hconvention, hs, hname, exists_given (Stdlib.wellFormed hd) hs hkinds, ?_⟩
  intro receiver vals hgiven
  have hk : (convention.given receiver vals).map (some ·.kind) = c.descriptor.args.map Argument.kind := by
    rw [hgiven]
    exact hkinds
  rw [runTexts_eq_outcome (Stdlib.wellFormed hd) (Stdlib.paramNames _ hd) hs hk, hgiven]
  exact does_outcome hnostr

/-- All that is known of what a call hands over. -/
structure HandsOver (c : WrapperCall) : Prop where
  /-- The wrapper is made for a function of the bundled header, and calls its symbol. -/
  declared : c.descriptor ∈ Stdlib.table.functions ∧ c.descriptor.rawName = c.symbol
  /-- There is a value for every declared argument, in the declared order. -/
  kinds : c.values.map (some ·.kind) = c.descriptor.args.map Argument.kind
  /-- The wrapper hands these values over, or fails. -/
  nativeArgs :
    c.nativeArgs =
      match c.refusal? with
      | none => .ok (c.values.map CallerValue.recorded)
      | some e => .error e
  /-- It does not fail if every count fits a native `int` and no text holds a NUL. -/
  refusal?_eq_none_iff :
    c.refusal? = none ↔
      (∀ n, .count n ∈ c.values → n.toNat ≤ maxNativeInt) ∧ ∀ bytes, .text bytes ∈ c.values → 0 ∉ bytes
  /-- A failure names the argument with the count, or the place of the first NUL. -/
  of_refusal?_eq_some :
    ∀ e, c.refusal? = some e →
      (∃ a n, (a, .count n) ∈ c.descriptor.args.zip c.values ∧ maxNativeInt < n.toNat ∧
          e = .countTooLarge c.descriptor.publicName a.name) ∨
        ∃ bytes, .text bytes ∈ c.values ∧ 0 ∈ bytes ∧ e = .interiorNul (bytes.idxOf 0)
  /-- The wrappers that are generated do the same. -/
  generated : c.descriptor.moduleName ≠ textModuleName → c.Generated

theorem handsOver (c : WrapperCall) : c.HandsOver where
  declared := ⟨c.descriptor_mem, c.rawName_descriptor⟩
  kinds := c.map_kind_values
  nativeArgs := nativeArgs_eq c
  refusal?_eq_none_iff := refusal?_eq_none_iff
  of_refusal?_eq_some _ h := of_refusal?_eq_some h
  generated h := generated_of_moduleName_ne h

end WrapperCall

end ShapeBindings
