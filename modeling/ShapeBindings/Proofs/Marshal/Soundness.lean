import ShapeBindings.Proofs.Marshal.Reading
import ShapeBindings.Proofs.Steps

/-!
# Wrappers hand over what their callers give

* `marshal_eq_ok`: what the two sides of an argument are;
* `mapM_eval`: an argument list, without the receiver, evaluates to the values of the caller;
* `run_signature`: a wrapper makes its native call with the caller's values in the order of the declared arguments, or
  stops at the first count that is too large.
-/

namespace ShapeBindings

open Text

variable {H S : Type}

/-! ### Lists -/

theorem mapM_read {α β : Type} {read : β → Option α} {render : α → β} {xs : List α}
    (h : ∀ x ∈ xs, read (render x) = some x) : (xs.map render).mapM read = some xs := by
  induction xs with
  | nil => rfl
  | cons x xs ih =>
    rw [List.map_cons, List.mapM_cons, h x List.mem_cons_self, ih fun y hy => h y (List.mem_cons_of_mem _ hy)]
    rfl

theorem lookup_zip {β : Type} {names : List String} (hn : names.Nodup) {vals : List β} {q : String × β}
    (hq : q ∈ names.zip vals) : (names.zip vals).lookup q.1 = some q.2 := by
  induction names generalizing vals with
  | nil => simp at hq
  | cons name names ih =>
    cases vals with
    | nil => simp at hq
    | cons v vals =>
      rw [List.nodup_cons] at hn
      rw [List.zip_cons_cons, List.mem_cons] at hq
      rw [List.zip_cons_cons, List.lookup_cons]
      rcases hq with rfl | hq
      · simp
      · -- a later parameter has another name
        have hne : (q.1 == name) = false := by
          rw [beq_eq_false_iff_ne]
          rintro rfl
          exact hn.1 (List.of_mem_zip hq).1
        rw [hne]
        exact ih hn.2 hq

theorem map_zip_snd {α β γ : Type} {xs : List α} {ys : List β} (h : ys.length = xs.length) (f : β → γ) :
    (xs.zip ys).map (fun q => f q.2) = ys.map f :=
  calc (xs.zip ys).map (fun q => f q.2) = ((xs.zip ys).map Prod.snd).map f := by
        rw [List.map_map]
        rfl
    _ = ys.map f := by rw [List.map_snd_zip h.le]

/-! ### One argument -/

theorem kindFor_eq_ok {a : Argument} {f : String} {k : ArgKind} : a.kindFor f = .ok k ↔ a.kind = some k := by
  unfold Argument.kindFor
  cases a.kind <;> simp

/-- Both sides of an argument that is a parameter. -/
def ArgKind.marshalled (k : ArgKind) (function argument : String) : Marshalled :=
  ⟨some ⟨escapeKeyword argument, k⟩, k.expression (escapeKeyword argument) (countComplaint function argument)⟩

theorem marshal_eq_ok {a : Argument} {c : Convention} {f : String} {m : Marshalled} (h : a.marshal c f = .ok m) :
    ∃ k, a.kind = some k ∧
      m = if k = .handle ∧ c.usesReceiver ∧ a.index = 0 then ⟨none, .handle .self⟩ else k.marshalled f a.name := by
  unfold Argument.marshal at h
  cases hk : a.kindFor f with
  | error e =>
    rw [hk] at h
    cases h
  | ok k =>
    refine ⟨k, kindFor_eq_ok.1 hk, ?_⟩
    rw [hk] at h
    replace h : (if k = .handle ∧ c.usesReceiver ∧ a.index = 0 then Except.ok ⟨none, .handle .self⟩
      else Except.ok (k.marshalled f a.name)) = Except.ok m := h
    split at h <;> rename_i hcond <;> cases h
    · rw [if_pos hcond]
    · rw [if_neg hcond]

namespace CallerValue

/-- What a native function gets for a value, if the complaint about a count is `complaint`. -/
def handOver (v : CallerValue H S) (complaint : String) : Except Trap (NativeValue H S) :=
  if v.tooLarge then .error (.panic complaint) else .ok v.native

theorem eval_expression {env : Env H S} {name : String} {v : CallerValue H S} (h : env.locals.lookup name = some v)
    (complaint : String) : (v.kind.expression name complaint).eval env = v.handOver complaint := by
  have hplace : (Place.param name).value? env = some v := h
  have hcomponent : ∀ field, (Place.component (.param name) field).value? env = v.component? field := by
    intro field
    rw [Place.value?, hplace, Option.bind_some]
  cases v with
  | tree _ =>
    simp [kind, ArgKind.expression, NativeExpr.eval, Place.handle?, hplace, handle?, handOver, tooLarge, native]
  | float _ =>
    simp [kind, ArgKind.expression, NativeExpr.eval, Place.handle?, hplace, handle?, handOver, tooLarge, native]
  | vec2 x y =>
    simp [kind, ArgKind.expression, NativeExpr.eval, Place.handle?, hcomponent, component?, handle?, handOver, tooLarge,
      native]
  | vec3 x y z =>
    simp [kind, ArgKind.expression, NativeExpr.eval, Place.handle?, hcomponent, component?, handle?, handOver, tooLarge,
      native]
  | count n =>
    simp only [kind, ArgKind.expression, NativeExpr.eval, hplace, handOver, tooLarge, native, decide_eq_true_eq]
    by_cases hn : n.toNat < 0x80000000
    · rw [if_pos hn, if_neg (by omega)]
    · rw [if_neg hn, if_pos (by omega)]
  | text _ => simp [kind, ArgKind.expression, NativeExpr.eval, hplace, handOver, tooLarge, native]

end CallerValue

/-! ### The arguments that are parameters -/

/-- An argument of a function is handed over as a parameter. -/
def HandedOver (function : String) (a : Argument) (m : Marshalled) : Prop :=
  ∃ k, a.kind = some k ∧ m = k.marshalled function a.name

section Parameters

variable {f : String} {as : List Argument} {ms : List Marshalled} (h : List.Forall₂ (HandedOver f) as ms)

include h

theorem map_name_params : (ms.filterMap (·.param)).map Param.name = as.map fun a => escapeKeyword a.name := by
  induction h with
  | nil => rfl
  | cons hm _ ih =>
    obtain ⟨k, -, rfl⟩ := hm
    simpa [ArgKind.marshalled] using ih

theorem map_kind_params : (ms.filterMap (·.param)).map (fun p => some p.kind) = as.map Argument.kind := by
  induction h with
  | nil => rfl
  | cons hm _ ih =>
    obtain ⟨k, hk, rfl⟩ := hm
    simpa [ArgKind.marshalled, hk] using ih

/-- The arguments of the call evaluate to the values that their parameters are bound to. -/
theorem mapM_eval {vals : List (CallerValue H S)}
    (hv : vals.map CallerValue.kind = (ms.filterMap (·.param)).map Param.kind) {env : Env H S}
    (henv : ∀ q ∈ ((ms.filterMap (·.param)).map Param.name).zip vals, env.locals.lookup q.1 = some q.2) :
    (ms.map (·.call)).mapM (·.eval env) =
      (as.zip vals).mapM fun q => q.2.handOver (countComplaint f q.1.name) := by
  induction h generalizing vals with
  | nil => rfl
  | @cons a m as ms hm _ ih =>
    obtain ⟨k, -, rfl⟩ := hm
    cases vals with
    | nil => simp [ArgKind.marshalled] at hv
    | cons v vals =>
      have hparams : (k.marshalled f a.name :: ms).filterMap (·.param) =
          ⟨escapeKeyword a.name, k⟩ :: ms.filterMap (·.param) := rfl
      rw [hparams, List.map_cons, List.map_cons, List.cons.injEq] at hv
      rw [hparams, List.map_cons, List.zip_cons_cons, List.forall_mem_cons] at henv
      obtain rfl : v.kind = k := hv.1
      rw [List.map_cons, List.mapM_cons, List.zip_cons_cons, List.mapM_cons, ih hv.2 henv.2]
      exact congrArg (· >>= _) (CallerValue.eval_expression henv.1 _)

end Parameters

/-! ### Whole wrappers -/

/-- The native arguments of a call for the values of a function's arguments.  The first count that is too large is
complained about. -/
def Descriptor.outcome (d : Descriptor) (given : List (CallerValue H S)) : Except Trap (List (NativeValue H S)) :=
  match (d.args.zip given).find? (·.2.tooLarge) with
  | none => .ok (given.map CallerValue.native)
  | some q => .error (.panic (countComplaint d.publicName q.1.name))

/-- The values of a function's arguments: those of the parameters, after the receiver if there is one. -/
def Convention.given (c : Convention) (receiver : H) (vals : List (CallerValue H S)) : List (CallerValue H S) :=
  if c.usesReceiver then .tree receiver :: vals else vals

theorem mapM_handOver (f : String) (qs : List (Argument × CallerValue H S)) :
    (qs.mapM fun q => q.2.handOver (countComplaint f q.1.name)) =
      match qs.find? (·.2.tooLarge) with
      | none => .ok (qs.map (·.2.native))
      | some q => .error (.panic (countComplaint f q.1.name)) := by
  unfold CallerValue.handOver
  rw [mapM_ite_error]
  cases qs.find? (·.2.tooLarge) <;> rfl

theorem outcome_eq {d : Descriptor} {given : List (CallerValue H S)}
    (h : given.map (some ·.kind) = d.args.map Argument.kind) :
    d.outcome given = (d.args.zip given).mapM fun q => q.2.handOver (countComplaint d.publicName q.1.name) := by
  have hlen : given.length = d.args.length := by simpa using congrArg List.length h
  rw [mapM_handOver, map_zip_snd hlen, Descriptor.outcome]

theorem signature_eq_ok {d : Descriptor} {c : Convention} {naming : NamingPolicy} {s : Signature}
    (h : d.signature c naming = .ok s) :
    (c.usesReceiver = true → d.checkReceiver = .ok ()) ∧
      ∃ ms, List.Forall₂ (fun a m => a.marshal c d.publicName = .ok m) d.args ms ∧
        s.params = ms.filterMap (·.param) ∧ s.calls = ms.map (·.call) ∧ s.receiver = c.usesReceiver := by
  unfold Descriptor.signature at h
  cases hms : d.args.mapM (·.marshal c d.publicName) with
  | error e =>
    rw [hms] at h
    cases c with
    | free => cases h
    | receiver => cases hr : d.checkReceiver <;> rw [hr] at h <;> cases h
  | ok ms =>
    rw [hms] at h
    have hall := forall₂_of_mapM_eq_ok hms
    cases c with
    | free =>
      cases h
      exact ⟨by simp [Convention.usesReceiver], ms, hall, rfl, rfl, rfl⟩
    | receiver =>
      cases hr : d.checkReceiver with
      | error e =>
        rw [hr] at h
        cases h
      | ok u =>
        rw [hr] at h
        cases h
        exact ⟨fun _ => rfl, ms, hall, rfl, rfl, rfl⟩

theorem checkReceiver_eq_ok {d : Descriptor} (h : d.checkReceiver = .ok ()) :
    ∃ a as, d.args = a :: as ∧ a.kind = some .handle := by
  unfold Descriptor.checkReceiver at h
  cases hargs : d.args with
  | nil => simp [hargs] at h
  | cons a as =>
    refine ⟨a, as, rfl, ?_⟩
    rw [hargs] at h
    simp only [List.head?_cons] at h
    cases hk : a.kindFor d.publicName with
    | error e =>
      rw [hk] at h
      cases h
    | ok k =>
      rw [hk] at h
      by_cases hh : k = .handle
      · subst hh
        exact kindFor_eq_ok.1 hk
      · simp [bind, Except.bind, hh, throw, throwThe, MonadExceptOf.throw] at h

/-- Arguments of which none is the receiver are parameters. -/
theorem handedOver_of_marshal {c : Convention} {f : String} {as : List Argument} {ms : List Marshalled}
    (h : List.Forall₂ (fun a m => a.marshal c f = .ok m) as ms)
    (hi : c.usesReceiver = true → ∀ a ∈ as, a.index ≠ 0) : List.Forall₂ (HandedOver f) as ms := by
  induction h with
  | nil => exact .nil
  | @cons a m as ms hm _ ih =>
    refine .cons ?_ (ih fun hc b hb => hi hc b (List.mem_cons_of_mem _ hb))
    obtain ⟨k, hk, rfl⟩ := marshal_eq_ok hm
    exact ⟨k, hk, if_neg fun hcond => hi hcond.2.1 a List.mem_cons_self hcond.2.2⟩

section Signature

variable {d : Descriptor} {c : Convention} {naming : NamingPolicy} {s : Signature}

theorem index_ne_zero_of_mem (hi : ∀ i (a : Argument), d.args[i]? = some a → a.index = i) {a : Argument}
    {as : List Argument} (hargs : d.args = a :: as) : ∀ b ∈ as, b.index ≠ 0 := by
  intro b hb
  obtain ⟨i, hget⟩ := List.getElem?_of_mem hb
  rw [hi (i + 1) b (by rw [hargs, List.getElem?_cons_succ, hget])]
  omega

/-- The parameters of a wrapper are the arguments without the receiver. -/
theorem exists_handedOver (hi : ∀ i (a : Argument), d.args[i]? = some a → a.index = i)
    (h : d.signature c naming = .ok s) :
    ∃ as ms, List.Forall₂ (HandedOver d.publicName) as ms ∧ s.params = ms.filterMap (·.param) ∧
      (c = .free ∧ d.args = as ∧ s.calls = ms.map (·.call) ∧ s.receiver = false ∨
        c = .receiver ∧ (∃ a, d.args = a :: as ∧ a.kind = some .handle) ∧
          s.calls = .handle .self :: ms.map (·.call) ∧ s.receiver = true) := by
  obtain ⟨hcheck, ms, hms, hparams, hcalls, hreceiver⟩ := signature_eq_ok h
  cases c with
  | free => exact ⟨d.args, ms, handedOver_of_marshal hms (by simp [Convention.usesReceiver]), hparams,
      .inl ⟨rfl, rfl, hcalls, hreceiver⟩⟩
  | receiver =>
    obtain ⟨a, as, hargs, ha⟩ := checkReceiver_eq_ok (hcheck rfl)
    rw [hargs] at hms
    cases hms with
    | @cons _ m _ ms hm hms =>
      have hindex : a.index = 0 := hi 0 a (by rw [hargs]; rfl)
      have hothers := index_ne_zero_of_mem hi hargs
      have hmarshal : m = ⟨none, .handle .self⟩ := by
        obtain ⟨k, hk, rfl⟩ := marshal_eq_ok hm
        obtain rfl : k = .handle := Option.some.inj (hk.symm.trans ha)
        exact if_pos ⟨rfl, rfl, hindex⟩
      subst hmarshal
      exact ⟨as, ms, handedOver_of_marshal hms fun _ => hothers, hparams, .inr ⟨rfl, ⟨a, hargs, ha⟩, hcalls, hreceiver⟩⟩

/-- The texts of both sides of a parameter are read as what they are written for. -/
theorem read_handedOver {a : Argument} {f : String} {m : Marshalled} (h : HandedOver f a m)
    (hf : isIdentifier f = true) (ha : isIdentifier a.name = true) (hu : ∀ p ∈ m.param, p.name ≠ "_") :
    (∀ p ∈ m.param, Param.read p.render.toList = some p) ∧ NativeExpr.read m.call.render.toList = some m.call := by
  obtain ⟨k, -, rfl⟩ := h
  have hname : IsVariable (escapeKeyword a.name) := ⟨isName_escapeKeyword ha, hu _ rfl⟩
  refine ⟨fun p hp => ?_, NativeExpr.read_expression hname (quote_not_mem_countComplaint hf ha) k⟩
  obtain rfl : ⟨escapeKeyword a.name, k⟩ = p := Option.some.inj hp
  exact Param.read_render hname.toIsName

/-- If every parameter can be named, the parameters are bound to the values that are given. -/
theorem locals_env (hu : "_" ∉ s.params.map Param.name) (receiver : H) (vals : List (CallerValue H S)) :
    (s.env receiver vals).locals = (s.params.map Param.name).zip vals :=
  List.filter_eq_self.2 fun _ hq => decide_eq_true (ne_of_mem_of_not_mem (List.of_mem_zip hq).1 hu)

section Call

variable (hi : ∀ i (a : Argument), d.args[i]? = some a → a.index = i) (h : d.signature c naming = .ok s)

include hi h

theorem runTexts_eq (hu : "_" ∉ s.params.map Param.name) (hf : isIdentifier d.publicName = true)
    (ha : ∀ a ∈ d.args.drop (if c.usesReceiver then 1 else 0), isIdentifier a.name = true) (receiver : H)
    (vals : List (CallerValue H S)) :
    runTexts (s.params.map Param.render) (s.calls.map NativeExpr.render) s.receiver receiver vals =
      s.run receiver vals := by
  obtain ⟨as, ms, hms, hparams, hcases⟩ := exists_handedOver hi h
  have has : ∀ a ∈ as, isIdentifier a.name = true := by
    rcases hcases with ⟨rfl, hargs, -⟩ | ⟨rfl, ⟨b, hargs, -⟩, -⟩ <;> rw [hargs] at ha <;> exact ha
  have hread : ∀ m ∈ ms, (∀ p ∈ m.param, Param.read p.render.toList = some p) ∧
      NativeExpr.read m.call.render.toList = some m.call := by
    intro m hm
    obtain ⟨i, hi, rfl⟩ := List.getElem_of_mem hm
    have hlen := hms.length_eq
    refine read_handedOver (hms.get (by omega) hi) hf (has _ (List.getElem_mem _)) fun p hp hname => hu ?_
    rw [hparams]
    exact List.mem_map.2 ⟨p, List.mem_filterMap.2 ⟨ms[i], hm, hp⟩, hname⟩
  have hp : (s.params.map Param.render).mapM (fun t => Param.read t.toList) = some s.params := by
    refine mapM_read fun p hp => ?_
    rw [hparams, List.mem_filterMap] at hp
    obtain ⟨m, hm, hp⟩ := hp
    exact (hread m hm).1 p hp
  have hc : (s.calls.map NativeExpr.render).mapM (fun t => NativeExpr.read t.toList) = some s.calls := by
    refine mapM_read fun e he => ?_
    rcases hcases with ⟨-, -, hcalls, -⟩ | ⟨-, -, hcalls, -⟩
    · rw [hcalls, List.mem_map] at he
      obtain ⟨m, hm, rfl⟩ := he
      exact (hread m hm).2
    · rw [hcalls, List.mem_cons, List.mem_map] at he
      rcases he with rfl | ⟨m, hm, rfl⟩
      · exact NativeExpr.read_self
      · exact (hread m hm).2
  rw [runTexts, hp, hc]
  rfl

theorem length_calls : s.calls.length = d.arity := by
  obtain ⟨as, ms, hms, -, hcases⟩ := exists_handedOver hi h
  have hlen := hms.length_eq
  rcases hcases with ⟨-, hargs, hcalls, -⟩ | ⟨-, ⟨a, hargs, -⟩, hcalls, -⟩
  · rw [hcalls, List.length_map, Descriptor.arity, hargs, hlen]
  · rw [hcalls, List.length_cons, List.length_map, Descriptor.arity, hargs, List.length_cons, hlen]

theorem map_name_signature :
    s.params.map Param.name = (d.args.drop (if c.usesReceiver then 1 else 0)).map fun a => escapeKeyword a.name := by
  obtain ⟨as, ms, hms, hparams, hcases⟩ := exists_handedOver hi h
  rw [hparams, map_name_params hms]
  rcases hcases with ⟨rfl, hargs, -⟩ | ⟨rfl, ⟨a, hargs, -⟩, -⟩
  · rw [hargs]
    rfl
  · rw [hargs]
    rfl

variable {vals : List (CallerValue H S)} (hv : vals.map CallerValue.kind = s.params.map Param.kind)

include hv

theorem map_kind_given (receiver : H) : (c.given receiver vals).map (some ·.kind) = d.args.map Argument.kind := by
  obtain ⟨as, ms, hms, hparams, hcases⟩ := exists_handedOver hi h
  have hkinds : vals.map (some ·.kind) = as.map Argument.kind := by
    have hsome := congrArg (List.map some) hv
    rw [List.map_map, List.map_map, hparams] at hsome
    exact hsome.trans (map_kind_params hms)
  rcases hcases with ⟨rfl, hargs, -⟩ | ⟨rfl, ⟨a, hargs, ha⟩, -⟩
  · rw [hargs]
    exact hkinds
  · rw [hargs, List.map_cons, ha, ← hkinds]
    rfl

theorem run_eq_outcome (hn : (s.params.map Param.name).Nodup) (hu : "_" ∉ s.params.map Param.name) (receiver : H) :
    s.run receiver vals = d.outcome (c.given receiver vals) := by
  rw [outcome_eq (map_kind_given hi h hv receiver)]
  obtain ⟨as, ms, hms, hparams, hcases⟩ := exists_handedOver hi h
  have henv : ∀ q ∈ ((ms.filterMap (·.param)).map Param.name).zip vals,
      (s.env receiver vals).locals.lookup q.1 = some q.2 := by
    rw [locals_env hu, ← hparams]
    exact fun q hq => lookup_zip hn hq
  rw [hparams] at hv
  have heval := mapM_eval hms hv henv
  rcases hcases with ⟨rfl, hargs, hcalls, -⟩ | ⟨rfl, ⟨a, hargs, -⟩, hcalls, hself⟩
  · rw [Signature.run, hcalls, hargs, heval]
    rfl
  · have hgiven : Convention.receiver.given receiver vals = .tree receiver :: vals := rfl
    -- the first native argument is the receiver's handle
    have hfirst : (NativeExpr.handle .self).eval (s.env receiver vals) =
        (CallerValue.tree receiver : CallerValue H S).handOver (countComplaint d.publicName a.name) := by
      simp [NativeExpr.eval, Place.handle?, Place.value?, Signature.env, hself, CallerValue.handle?,
        CallerValue.handOver, CallerValue.tooLarge, CallerValue.native]
    rw [Signature.run, hcalls, hargs, hgiven, List.zip_cons_cons, List.mapM_cons, List.mapM_cons, hfirst, heval]

end Call

/-- **Wrappers hand over what their callers give.**  The native call has an argument for every argument of the function,
and the values of the parameters, after the receiver if there is one, are values of these arguments in their order.  The
wrapper makes its native call with exactly these values, or stops at the first count that is too large; and where the
names in its texts are identifiers, so do the texts.  A parameter that is an underscore has no name for its value. -/
theorem run_signature (hi : ∀ i (a : Argument), d.args[i]? = some a → a.index = i)
    (h : d.signature c naming = .ok s) (hn : (s.params.map Param.name).Nodup) (hu : "_" ∉ s.params.map Param.name)
    (receiver : H) {vals : List (CallerValue H S)} (hv : vals.map CallerValue.kind = s.params.map Param.kind) :
    s.calls.length = d.arity ∧
      s.params.map Param.name = (d.args.drop (if c.usesReceiver then 1 else 0)).map (fun a => escapeKeyword a.name) ∧
      (c.given receiver vals).map (some ·.kind) = d.args.map Argument.kind ∧
      s.run receiver vals = d.outcome (c.given receiver vals) ∧
      (isIdentifier d.publicName = true →
        (∀ a ∈ d.args.drop (if c.usesReceiver then 1 else 0), isIdentifier a.name = true) →
        runTexts (s.params.map Param.render) (s.calls.map NativeExpr.render) s.receiver receiver vals =
          d.outcome (c.given receiver vals)) := by
  have hrun := run_eq_outcome hi h hv hn hu receiver
  exact ⟨length_calls hi h, map_name_signature hi h, map_kind_given hi h hv receiver, hrun,
    fun hf ha => (runTexts_eq hi h hu hf ha receiver vals).trans hrun⟩

end Signature

/-- A function with a receiver, a count whose name is a keyword, and a vector. -/
def arrayed : Descriptor where
  publicName := "arrayed"
  rawName := "libfive_arrayed"
  moduleName := "shapes"
  args := [⟨"shape", "libfive_tree", 0⟩, ⟨"type", "int", 1⟩, ⟨"step", "tvec2", 2⟩]

def arrayedSignature : Signature where
  name := "arrayed"
  params := [⟨"r#type", .uint⟩, ⟨"step", .vec2⟩]
  calls := [.handle .self, .int (.param "r#type") "arrayed: `type` does not fit the native int",
    .vec2 (.component (.param "step") "x") (.component (.param "step") "y")]
  receiver := true

theorem run_signature_arrayed :
    arrayed.signature .receiver .standard = .ok arrayedSignature ∧
      (arrayedSignature.run 0 [.count 3, .vec2 1 2] : Except Trap (List (NativeValue Nat String))) =
        .ok [.tree 0, .int 3, .vec2 1 2] ∧
      (runTexts (arrayedSignature.params.map Param.render) (arrayedSignature.calls.map NativeExpr.render) true 0
          [.count 3000000000, .vec2 1 2] : Except Trap (List (NativeValue Nat String))) =
        .error (.panic "arrayed: `type` does not fit the native int") := by
  have hs : arrayed.signature .receiver .standard = .ok arrayedSignature := by decide
  have hi : ∀ i (a : Argument), arrayed.args[i]? = some a → a.index = i := by
    intro i a h
    match i with
    | 0 | 1 | 2 => cases h; rfl
    | i + 3 => cases h
  refine ⟨hs, ?_, ?_⟩
  · exact (run_signature hi hs (by decide) (by decide) 0 rfl).2.2.2.1
  · exact (run_signature hi hs (by decide) (by decide) 0 rfl).2.2.2.2 (by decide) (by decide)

/-- A function of one scalar. -/
def scaled (argument : String) : Descriptor where
  publicName := "scaled"
  rawName := "libfive_scaled"
  moduleName := "shapes"
  args := [⟨argument, "tfloat", 0⟩]

def scaledSignature (argument : String) : Signature where
  name := "scaled"
  params := [⟨argument, .float⟩]
  calls := [.handle (.param argument)]
  receiver := false

/-- The value of an argument cannot be handed over if it is declared by an underscore, which is accepted as a name, or
by no name at all. -/
theorem runTexts_scaled_stuck :
    isIdentifier "_" = true ∧
      ∀ argument ∈ ["_", "two words"],
        (∀ i (a : Argument), (scaled argument).args[i]? = some a → a.index = i) ∧
          (scaled argument).signature .free .standard = .ok (scaledSignature argument) ∧
          ((scaledSignature argument).params.map Param.name).Nodup ∧
          (runTexts ((scaledSignature argument).params.map Param.render)
              ((scaledSignature argument).calls.map NativeExpr.render) false 0 [.float 7] :
            Except Trap (List (NativeValue Nat String))) = .error .stuck ∧
          (scaled argument).outcome [.float 7] = (.ok [.tree 7] : Except Trap (List (NativeValue Nat String))) := by
  refine ⟨by decide, ?_⟩
  have hi : ∀ argument i (a : Argument), (scaled argument).args[i]? = some a → a.index = i := by
    intro argument i a h
    match i with
    | 0 => cases h; rfl
    | i + 1 => cases h
  simp only [List.mem_cons, List.not_mem_nil, or_false]
  rintro argument (rfl | rfl)
  · exact ⟨hi _, by decide, by decide, rfl, rfl⟩
  · exact ⟨hi _, by decide, by decide, rfl, rfl⟩

end ShapeBindings
