import ShapeBindings.Proofs.Marshal.Soundness
import ShapeBindings.Proofs.Unit.Lines

/-!
# When a module has no unit

* `Descriptor.Supported`: what a function must be for a wrapper of a convention, and `Descriptor.Fault`: why it has none.
  `exists_signature_iff` and `signature_eq_error_iff` say that there is nothing else;
* `length_params`: how many parameters a wrapper has;
* `Module.assemble_outcome`: a unit is assembled just when all functions are supported, and the first one that is not
  decides what is reported.
-/

namespace ShapeBindings

open Text

/-- A function has a wrapper of a convention: all its arguments are of supported types, and there is a handle to be the
receiver. -/
structure Descriptor.Supported (d : Descriptor) (c : Convention) : Prop where
  kinds : ∀ a ∈ d.args, a.kind.isSome = true
  receiver : c = .receiver → ∃ a, d.args.head? = some a ∧ a.kind = some .handle

/-- Why a function has no wrapper of a convention.  The receiver is looked at before the other arguments. -/
inductive Descriptor.Fault (d : Descriptor) : Convention → WrapperError → Prop
  /-- Nothing can be the receiver. -/
  | noReceiver (h : d.args = []) : d.Fault .receiver (.missingReceiver d.publicName)
  /-- The receiver is of no supported type. -/
  | receiverType {a : Argument} (h : d.args.head? = some a) (hk : a.kind = none) :
      d.Fault .receiver (.unsupportedType d.publicName a.name a.declaredType)
  /-- The receiver is no handle, whatever the other arguments are. -/
  | receiverKind {a : Argument} {k : ArgKind} (h : d.args.head? = some a) (hk : a.kind = some k) (hne : k ≠ .handle) :
      d.Fault .receiver (.receiverNotHandle d.publicName k)
  /-- The first argument of no supported type, behind the receiver if there is one. -/
  | argumentType {c : Convention} {before after : List Argument} {a : Argument} (h : d.args = before ++ a :: after)
      (hbefore : ∀ b ∈ before, b.kind.isSome = true) (hk : a.kind = none)
      (hreceiver : c = .receiver → ∃ b, d.args.head? = some b ∧ b.kind = some .handle) :
      d.Fault c (.unsupportedType d.publicName a.name a.declaredType)

/-! ### One argument -/

namespace Argument

variable {a : Argument} {c : Convention} {f : String} {e : WrapperError}

theorem kindFor_eq_error_iff :
    a.kindFor f = .error e ↔ a.kind = none ∧ e = .unsupportedType f a.name a.declaredType := by
  unfold kindFor
  cases a.kind with
  | none => simp [eq_comm]
  | some k => simp

theorem marshal_eq (a : Argument) (c : Convention) (f : String) :
    a.marshal c f = (a.kindFor f).map fun k =>
      if k = .handle ∧ c.usesReceiver ∧ a.index = 0 then ⟨none, .handle .self⟩ else k.marshalled f a.name := by
  unfold marshal
  cases a.kindFor f with
  | error e => rfl
  | ok k => exact (apply_ite (Except.ok (ε := WrapperError)) _ _ _).symm

theorem exists_marshal_iff : (∃ m, a.marshal c f = .ok m) ↔ a.kind.isSome = true := by
  rw [marshal_eq, exists_map_eq_ok_iff, Option.isSome_iff_exists]
  exact exists_congr fun k => kindFor_eq_ok

theorem marshal_eq_error_iff :
    a.marshal c f = .error e ↔ a.kind = none ∧ e = .unsupportedType f a.name a.declaredType := by
  rw [marshal_eq, map_eq_error_iff, kindFor_eq_error_iff]

end Argument

/-! ### One function -/

namespace Descriptor

variable {d : Descriptor} {c : Convention} {naming : NamingPolicy} {e : WrapperError}

theorem checkReceiver_eq_ok_iff :
    d.checkReceiver = .ok () ↔ ∃ a, d.args.head? = some a ∧ a.kind = some .handle := by
  constructor
  · intro h
    obtain ⟨a, as, hargs, ha⟩ := checkReceiver_eq_ok h
    exact ⟨a, by rw [hargs]; rfl, ha⟩
  · rintro ⟨a, hargs, ha⟩
    unfold checkReceiver
    rw [hargs]
    dsimp only
    rw [kindFor_eq_ok.2 ha]
    rfl

theorem fault_of_checkReceiver (h : d.checkReceiver = .error e) : d.Fault .receiver e := by
  unfold checkReceiver at h
  cases hargs : d.args.head? with
  | none =>
    rw [hargs] at h
    cases h
    exact .noReceiver (List.head?_eq_none_iff.1 hargs)
  | some a =>
    rw [hargs] at h
    rcases bind_eq_error_iff.1 h with h | ⟨k, hk, h⟩
    · obtain ⟨hk, rfl⟩ := Argument.kindFor_eq_error_iff.1 h
      exact .receiverType hargs hk
    · split at h
      · cases h
      · next hne =>
        cases h
        exact .receiverKind hargs (kindFor_eq_ok.1 hk) hne

theorem checkReceiver_of_kind {a : Argument} {k : ArgKind} (h : d.args.head? = some a) (hk : a.kind = some k)
    (hne : k ≠ .handle) : d.checkReceiver = .error (.receiverNotHandle d.publicName k) := by
  unfold checkReceiver
  rw [h]
  refine bind_eq_error_iff.2 (.inr ⟨k, kindFor_eq_ok.2 hk, ?_⟩)
  rw [if_neg hne]
  rfl

theorem checkReceiver_of_type {a : Argument} (h : d.args.head? = some a) (hk : a.kind = none) :
    d.checkReceiver = .error (.unsupportedType d.publicName a.name a.declaredType) := by
  unfold checkReceiver
  rw [h]
  exact bind_eq_error_iff.2 (.inl (Argument.kindFor_eq_error_iff.2 ⟨hk, rfl⟩))

/-- What is asked of the receiver. -/
theorem receiver_check_iff :
    (if c.usesReceiver then d.checkReceiver else .ok ()) = .ok () ↔
      (c = .receiver → ∃ a, d.args.head? = some a ∧ a.kind = some .handle) := by
  cases c with
  | receiver => simpa [Convention.usesReceiver] using checkReceiver_eq_ok_iff
  | free => simp [Convention.usesReceiver]

theorem exists_signature_iff : (∃ s, d.signature c naming = .ok s) ↔ d.Supported c := by
  have hargs : (∃ ms, d.args.mapM (·.marshal c d.publicName) = .ok ms) ↔ ∀ a ∈ d.args, a.kind.isSome = true := by
    rw [exists_mapM_eq_ok_iff]
    exact forall₂_congr fun a _ => Argument.exists_marshal_iff
  rw [signature_eq]
  constructor
  · rintro ⟨s, h⟩
    obtain ⟨⟨⟩, hreceiver, h⟩ := exists_of_bind_eq_ok h
    exact ⟨hargs.1 (exists_map_eq_ok_iff.1 ⟨s, h⟩), receiver_check_iff.1 hreceiver⟩
  · rintro ⟨hkinds, hreceiver⟩
    rw [receiver_check_iff.2 hreceiver]
    exact exists_map_eq_ok_iff.2 (hargs.2 hkinds)

theorem signature_of_fault (h : d.Fault c e) : d.signature c naming = .error e := by
  rw [signature_eq, bind_eq_error_iff]
  cases h with
  | noReceiver h =>
    refine .inl ?_
    unfold checkReceiver
    rw [h]
    rfl
  | receiverType h hk => exact .inl (checkReceiver_of_type h hk)
  | receiverKind h hk hne => exact .inl (checkReceiver_of_kind h hk hne)
  | argumentType h hbefore hk hreceiver =>
    refine .inr ⟨(), receiver_check_iff.2 hreceiver, map_eq_error_iff.2 ?_⟩
    rw [h]
    exact mapM_eq_error (fun b hb => Argument.exists_marshal_iff.2 (hbefore b hb))
      (Argument.marshal_eq_error_iff.2 ⟨hk, rfl⟩)

theorem fault_of_signature (h : d.signature c naming = .error e) : d.Fault c e := by
  rw [signature_eq] at h
  rcases bind_eq_error_iff.1 h with h | ⟨⟨⟩, hreceiver, h⟩
  · cases c with
    | receiver => exact fault_of_checkReceiver h
    | free => cases h
  · obtain ⟨before, a, after, hargs, hbefore, ha⟩ := mapM_eq_error_iff.1 (map_eq_error_iff.1 h)
    obtain ⟨hk, rfl⟩ := Argument.marshal_eq_error_iff.1 ha
    exact .argumentType hargs (fun b hb => Argument.exists_marshal_iff.1 (hbefore b hb)) hk
      (receiver_check_iff.1 hreceiver)

theorem signature_eq_error_iff : d.signature c naming = .error e ↔ d.Fault c e :=
  ⟨fault_of_signature, signature_of_fault⟩

theorem length_params (hi : ∀ i (a : Argument), d.args[i]? = some a → a.index = i) {s : Signature}
    (h : d.signature c naming = .ok s) : s.params.length + (if c.usesReceiver then 1 else 0) = d.arity := by
  have hnames := congrArg List.length (map_name_signature hi h)
  rw [List.length_map, List.length_map, List.length_drop] at hnames
  have harity : (if c.usesReceiver then 1 else 0) ≤ d.arity := by
    cases c with
    | free => exact Nat.zero_le _
    | receiver =>
      -- there is an argument to be the receiver
      obtain ⟨a, ha, -⟩ := (exists_signature_iff.1 ⟨s, h⟩).receiver rfl
      obtain ⟨as, has⟩ := List.head?_eq_some_iff.1 ha
      simp [arity, has, Convention.usesReceiver]
  rw [hnames]
  exact Nat.sub_add_cancel harity

end Descriptor

/-! ### Modules -/

namespace Module

variable {m : Module} {c : Convention} {options : UnitOptions}

theorem assemble_eq (m : Module) (c : Convention) (options : UnitOptions) :
    m.assemble c options =
      (m.functions.mapM fun (d : Descriptor) => d.wrapper c options.naming).map fun wrappers =>
        unlines (m.unitLines c options wrappers) := rfl

theorem exists_assemble_iff : (∃ source, m.assemble c options = .ok source) ↔ ∀ d ∈ m.functions, d.Supported c := by
  rw [assemble_eq, exists_map_eq_ok_iff, exists_mapM_eq_ok_iff]
  refine forall₂_congr fun d _ => ?_
  rw [Descriptor.wrapper, exists_map_eq_ok_iff, Descriptor.exists_signature_iff]

/-- The first function that has no wrapper decides. -/
theorem assemble_eq_error_iff {e : WrapperError} :
    m.assemble c options = .error e ↔
      ∃ before d after, m.functions = before ++ d :: after ∧ (∀ b ∈ before, b.Supported c) ∧ d.Fault c e := by
  rw [assemble_eq, map_eq_error_iff, mapM_eq_error_iff]
  simp only [Descriptor.wrapper, exists_map_eq_ok_iff, map_eq_error_iff, Descriptor.exists_signature_iff,
    Descriptor.signature_eq_error_iff]

/-- **When a module has a unit.**  A unit is assembled just when all arguments of all functions are of supported types
and, where there is a receiver, every function has a handle first.  Otherwise the first function that has no wrapper
decides what is reported.  The wrappers of a unit hand over an expression for each argument and have a parameter for
each argument that is not the receiver. -/
theorem assemble_outcome (m : Module) (c : Convention) (options : UnitOptions)
    (hi : ∀ d ∈ m.functions, d.args.map (·.index) = List.range d.arity) :
    ((∃ source, m.assemble c options = .ok source) ↔
        (∀ d ∈ m.functions, ∀ a ∈ d.args, a.kind.isSome = true) ∧
          (c = .receiver → ∀ d ∈ m.functions, ∃ a, d.args.head? = some a ∧ a.kind = some .handle)) ∧
      (∀ e, m.assemble c options = .error e ↔
        ∃ before d after, m.functions = before ++ d :: after ∧ (∀ b ∈ before, b.Supported c) ∧ d.Fault c e) ∧
      ((∃ source, m.assemble c options = .ok source) →
        ∀ d ∈ m.functions, ∃ s, d.signature c options.naming = .ok s ∧ s.calls.length = d.arity ∧
          s.params.length + (if c.usesReceiver then 1 else 0) = d.arity) := by
  rw [exists_assemble_iff]
  refine ⟨⟨fun h => ?_, fun h d hd => ?_⟩, fun e => assemble_eq_error_iff, fun h d hd => ?_⟩
  · exact ⟨fun d hd => (h d hd).kinds, fun hc d hd => (h d hd).receiver hc⟩
  · exact ⟨h.1 d hd, fun hc => h.2 hc d hd⟩
  · obtain ⟨s, hs⟩ := Descriptor.exists_signature_iff.2 (h d hd)
    have hindex := Descriptor.index_eq_of_map (hi d hd)
    exact ⟨s, hs, length_calls hindex hs, Descriptor.length_params hindex hs⟩

/-- A function of two handles. -/
def unionFunction : Descriptor :=
  ⟨"union", "p_union", "csg", [⟨"a", "libfive_tree", 0⟩, ⟨"b", "libfive_tree", 1⟩], none⟩

/-- Behind it a function that is renamed and has two faults with a receiver, and one without arguments. -/
def moveModule : Module where
  name := "csg"
  functions := [unionFunction, ⟨"move", "p_move", "csg", [⟨"n", "int", 0⟩, ⟨"x", "double", 1⟩], none⟩,
    ⟨"emptiness", "p_emptiness", "csg", [], none⟩]

def moveOptions : UnitOptions where
  source := "moves.h"
  provenance := ⟨"now", "me"⟩

theorem assemble_outcome_move :
    (∀ d ∈ moveModule.functions, d.args.map (·.index) = List.range d.arity) ∧
      moveModule.assemble .receiver moveOptions = .error (.receiverNotHandle "move" .uint) ∧
      moveModule.assemble .free moveOptions = .error (.unsupportedType "move" "x" "double") ∧
      (∃ source, (⟨"csg", [unionFunction]⟩ : Module).assemble .receiver moveOptions = .ok source) ∧
      ∃ s, unionFunction.signature .receiver .standard = .ok s ∧ s.calls.length = 2 ∧ s.params.length + 1 = 2 := by
  have hi : ∀ d ∈ moveModule.functions, d.args.map (·.index) = List.range d.arity := by decide
  have hunion : ∀ c, ∀ d ∈ [unionFunction], d.Supported c := by
    intro c d hd
    obtain rfl := List.mem_singleton.1 hd
    exact ⟨by decide, fun _ => ⟨_, rfl, by decide⟩⟩
  have hnone : (⟨"x", "double", 1⟩ : Argument).kind = none := by decide
  obtain ⟨hok, -, hlengths⟩ := assemble_outcome ⟨"csg", [unionFunction]⟩ .receiver moveOptions (by decide)
  have hsource := hok.2 ⟨fun d hd => (hunion .receiver d hd).kinds, fun hc d hd => (hunion .receiver d hd).receiver hc⟩
  refine ⟨hi, ?_, ?_, hsource, hlengths hsource unionFunction List.mem_cons_self⟩
  · refine ((assemble_outcome moveModule .receiver _ hi).2.1 _).2 ⟨_, _, _, rfl, hunion .receiver, ?_⟩
    exact .receiverKind rfl (by decide) (by decide)
  · refine ((assemble_outcome moveModule .free _ hi).2.1 _).2 ⟨_, _, _, rfl, hunion .free, ?_⟩
    have hargs : [⟨"n", "int", 0⟩, ⟨"x", "double", 1⟩] = [⟨"n", "int", 0⟩] ++ (⟨"x", "double", 1⟩ : Argument) :: [] := rfl
    exact .argumentType hargs (by decide) hnone (by simp)

end Module

end ShapeBindings
