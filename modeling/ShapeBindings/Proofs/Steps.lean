import Mathlib.Data.List.Basic
import Mathlib.Data.List.Forall2

/-!
# Steps that can fail

What is known of steps that are taken one after the other until one fails: of two (`exists_of_bind_eq_ok`), of one for
each element of a list (`mapM`, `forM`), and of a state that goes through a list (`foldlM`).  Where only the failures
differ, `toOption` tells what is left (`toOption_bind`, `toOption_mapM`).  Two runs are `Alike` if they fail in the same
way or have related results, which steps keep (`Alike.bind`, `Alike.mapM`).
-/

namespace ShapeBindings

variable {α β σ ε : Type}

theorem exists_of_bind_eq_ok {x : Except ε α} {f : α → Except ε β} {b : β} (h : x >>= f = .ok b) :
    ∃ a, x = .ok a ∧ f a = .ok b := by
  cases x with
  | error e => cases h
  | ok a => exact ⟨a, rfl, h⟩

theorem bind_eq_error_iff {x : Except ε α} {f : α → Except ε β} {e : ε} :
    x >>= f = .error e ↔ x = .error e ∨ ∃ a, x = .ok a ∧ f a = .error e := by
  cases x with
  | error e' =>
    have hbind : (Except.error e' : Except ε α) >>= f = .error e' := rfl
    simp [hbind]
  | ok a =>
    have hbind : (Except.ok a : Except ε α) >>= f = f a := rfl
    simp [hbind]

theorem map_eq_error_iff {x : Except ε α} {f : α → β} {e : ε} : x.map f = .error e ↔ x = .error e := by
  cases x <;> simp [Except.map]

theorem exists_map_eq_ok_iff {x : Except ε α} {f : α → β} : (∃ b, x.map f = .ok b) ↔ ∃ a, x = .ok a := by
  cases x <;> simp [Except.map]

theorem exists_of_map_eq_ok {x : Except ε α} {f : α → β} {b : β} (h : x.map f = .ok b) : ∃ a, x = .ok a ∧ f a = b := by
  cases x with
  | error e => cases h
  | ok a =>
    cases h
    exact ⟨a, rfl, rfl⟩

theorem exists_of_mapError_eq_ok {δ : Type} {x : Except ε α} {f : ε → δ} {a : α} (h : x.mapError f = .ok a) :
    x = .ok a := by
  cases x with
  | error e => cases h
  | ok b =>
    cases h
    rfl

theorem exists_of_toOption_map_eq_some {x : Except ε α} {f : α → β} {b : β} (h : x.toOption.map f = some b) :
    ∃ a, x = .ok a ∧ f a = b := by
  cases x with
  | error e => cases h
  | ok a => exact ⟨a, rfl, Option.some.inj h⟩

theorem toOption_eq_some_iff {x : Except ε α} {a : α} : x.toOption = some a ↔ x = .ok a := by
  cases x <;> simp [Except.toOption]

theorem exists_of_isSome_toOption {x : Except ε α} (h : x.toOption.isSome = true) : ∃ a, x = .ok a := by
  cases x with
  | error e => cases h
  | ok a => exact ⟨a, rfl⟩

/-- What every step keeps is kept by all of them. -/
theorem foldlM_invariant {f : σ → α → Except ε σ} {P : σ → Prop} (hf : ∀ s a s', P s → f s a = .ok s' → P s')
    {xs : List α} {s s' : σ} (hs : P s) (h : xs.foldlM f s = .ok s') : P s' := by
  induction xs generalizing s with
  | nil =>
    cases h
    exact hs
  | cons x xs ih =>
    rw [List.foldlM_cons] at h
    obtain ⟨s₁, hx, h⟩ := exists_of_bind_eq_ok h
    exact ih (hf s x s₁ hs hx) h

theorem forM_eq_ok {f : α → Except ε Unit} {xs : List α} (h : xs.forM f = .ok ()) : ∀ x ∈ xs, f x = .ok () := by
  induction xs with
  | nil => simp
  | cons x xs ih =>
    rw [List.forM] at h
    obtain ⟨_, hx, h⟩ := exists_of_bind_eq_ok h
    intro y hy
    rcases List.mem_cons.1 hy with rfl | hy
    · exact hx
    · exact ih h y hy

/-! ### Up to the kind of failure -/

theorem toOption_map (f : α → β) (x : Except ε α) : (x.map f).toOption = x.toOption.map f := by
  cases x <;> rfl

theorem toOption_bind (x : Except ε α) (f : α → Except ε β) :
    (x >>= f).toOption = x.toOption.bind fun a => (f a).toOption := by
  cases x <;> rfl

theorem toOption_mapM (f : α → Except ε β) (xs : List α) :
    (xs.mapM f).toOption = xs.mapM fun x => (f x).toOption := by
  induction xs with
  | nil => rfl
  | cons x xs ih =>
    rw [List.mapM_cons, List.mapM_cons, ← ih]
    cases f x with
    | error e => rfl
    | ok y => cases xs.mapM f <;> rfl

/-! ### One step for each element -/

variable {f : α → Except ε β} {xs : List α}

theorem mapM_congr_of_mem {g : α → Except ε β} (h : ∀ x ∈ xs, f x = g x) : xs.mapM f = xs.mapM g := by
  induction xs with
  | nil => rfl
  | cons x xs ih =>
    rw [List.mapM_cons, List.mapM_cons, h x List.mem_cons_self, ih fun y hy => h y (List.mem_cons_of_mem x hy)]

theorem mapM_eq_ok_map {g : α → β} (h : ∀ x ∈ xs, f x = .ok (g x)) : xs.mapM f = .ok (xs.map g) := by
  induction xs with
  | nil => rfl
  | cons x xs ih =>
    rw [List.mapM_cons, h x List.mem_cons_self, ih fun y hy => h y (List.mem_cons_of_mem x hy)]
    rfl

theorem forall₂_of_mapM_eq_ok {ys : List β} (h : xs.mapM f = .ok ys) : List.Forall₂ (fun x y => f x = .ok y) xs ys := by
  induction xs generalizing ys with
  | nil =>
    cases h
    exact .nil
  | cons x xs ih =>
    rw [List.mapM_cons] at h
    obtain ⟨y, hx, h⟩ := exists_of_bind_eq_ok h
    obtain ⟨zs, hxs, h⟩ := exists_of_bind_eq_ok h
    cases h
    exact .cons hx (ih hxs)

theorem flatMap_eq_of_forall₂ {γ : Type} {R : α → β → Prop} {ys : List β} (h : List.Forall₂ R xs ys)
    {value : α → List γ} {read : β → List γ} (hread : ∀ x ∈ xs, ∀ y, R x y → read y = value x) :
    ys.flatMap read = xs.flatMap value := by
  induction h with
  | nil => rfl
  | @cons x y xs ys hxy _ ih =>
    rw [List.flatMap_cons, List.flatMap_cons, hread x List.mem_cons_self y hxy,
      ih fun x' hx' => hread x' (List.mem_cons_of_mem x hx')]

theorem exists_of_mem_of_forall₂ {R : α → β → Prop} {ys : List β} (h : List.Forall₂ R xs ys) {y : β} (hy : y ∈ ys) :
    ∃ x ∈ xs, R x y := by
  obtain ⟨i, hi, rfl⟩ := List.getElem_of_mem hy
  have hlen := h.length_eq
  exact ⟨xs[i], List.getElem_mem _, h.get (by omega) hi⟩

theorem exists_of_mem_of_mapM_eq_ok {ys : List β} (h : xs.mapM f = .ok ys) {y : β} (hy : y ∈ ys) :
    ∃ x ∈ xs, f x = .ok y :=
  exists_of_mem_of_forall₂ (forall₂_of_mapM_eq_ok h) hy

/-- What is made of the results of steps, each with the element that it is for. -/
theorem exists_of_mapM_map_eq_ok {γ : Type} {g : α → β → γ} {zs : List γ}
    (h : (xs.mapM fun x => (f x).map (g x)) = .ok zs) :
    ∃ ys, xs.mapM f = .ok ys ∧ zs = (xs.zip ys).map fun (x, y) => g x y := by
  induction xs generalizing zs with
  | nil =>
    cases h
    exact ⟨[], rfl, rfl⟩
  | cons x xs ih =>
    rw [List.mapM_cons] at h
    obtain ⟨z, hx, h⟩ := exists_of_bind_eq_ok h
    obtain ⟨zs, hxs, h⟩ := exists_of_bind_eq_ok h
    cases h
    obtain ⟨y, hy, rfl⟩ := exists_of_map_eq_ok hx
    obtain ⟨ys, hys, rfl⟩ := ih hxs
    refine ⟨y :: ys, ?_, rfl⟩
    rw [List.mapM_cons, hy, hys]
    rfl

theorem mapM_eq_error {before after : List α} {x : α} {e : ε} (hb : ∀ y ∈ before, ∃ b, f y = .ok b)
    (hx : f x = .error e) : (before ++ x :: after).mapM f = .error e := by
  induction before with
  | nil =>
    rw [List.nil_append, List.mapM_cons, hx]
    rfl
  | cons y before ih =>
    obtain ⟨b, hy⟩ := hb y List.mem_cons_self
    rw [List.cons_append, List.mapM_cons, hy, ih fun z hz => hb z (List.mem_cons_of_mem y hz)]
    rfl

theorem forall_ok_or_first_error (f : α → Except ε β) (xs : List α) :
    (∀ x ∈ xs, ∃ b, f x = .ok b) ∨
      ∃ before x after e, xs = before ++ x :: after ∧ f x = .error e ∧ ∀ y ∈ before, ∃ b, f y = .ok b := by
  induction xs with
  | nil => exact .inl (by simp)
  | cons x xs ih =>
    cases hx : f x with
    | error e => exact .inr ⟨[], x, xs, e, rfl, hx, by simp⟩
    | ok b =>
      have hcons : ∀ ys : List α, (∀ y ∈ ys, ∃ b, f y = .ok b) → ∀ y ∈ x :: ys, ∃ b, f y = .ok b := by
        intro ys hys y hy
        rcases List.mem_cons.1 hy with rfl | hy
        · exact ⟨b, hx⟩
        · exact hys y hy
      rcases ih with h | ⟨before, y, after, e, rfl, hy, hbefore⟩
      · exact .inl (hcons xs h)
      · exact .inr ⟨x :: before, y, after, e, rfl, hy, hcons before hbefore⟩

theorem exists_mapM_eq_ok_iff : (∃ ys, xs.mapM f = .ok ys) ↔ ∀ x ∈ xs, ∃ y, f x = .ok y := by
  constructor
  · rintro ⟨ys, h⟩ x hx
    obtain ⟨i, hi, rfl⟩ := List.getElem_of_mem hx
    have hall := forall₂_of_mapM_eq_ok h
    have hlen := hall.length_eq
    exact ⟨ys[i], hall.get hi (by omega)⟩
  · intro h
    induction xs with
    | nil => exact ⟨[], rfl⟩
    | cons x xs ih =>
      obtain ⟨y, hx⟩ := h x List.mem_cons_self
      obtain ⟨ys, hys⟩ := ih fun z hz => h z (List.mem_cons_of_mem x hz)
      refine ⟨y :: ys, ?_⟩
      rw [List.mapM_cons, hx, hys]
      rfl

/-- Steps fail with the failure of the first one that fails. -/
theorem mapM_eq_error_iff {e : ε} :
    xs.mapM f = .error e ↔
      ∃ before x after, xs = before ++ x :: after ∧ (∀ y ∈ before, ∃ b, f y = .ok b) ∧ f x = .error e := by
  constructor
  · intro h
    rcases forall_ok_or_first_error f xs with hok | ⟨before, x, after, e', rfl, hx, hb⟩
    · obtain ⟨ys, hys⟩ := exists_mapM_eq_ok_iff.2 hok
      rw [hys] at h
      cases h
    · rw [mapM_eq_error hb hx] at h
      cases h
      exact ⟨before, x, after, rfl, hb, hx⟩
  · rintro ⟨before, x, after, rfl, hb, hx⟩
    exact mapM_eq_error hb hx

/-- Steps that each fail or give a value: the first one that fails decides. -/
theorem mapM_ite_error (xs : List α) (p : α → Bool) (e : α → ε) (g : α → β) :
    (xs.mapM fun x => if p x then Except.error (e x) else Except.ok (g x)) =
      match xs.find? p with
      | none => .ok (xs.map g)
      | some x => .error (e x) := by
  induction xs with
  | nil => rfl
  | cons x xs ih =>
    rw [List.mapM_cons, ih, List.find?_cons]
    cases p x with
    | true => rfl
    | false => cases xs.find? p <;> rfl

/-! ### Two runs -/

/-- The same failure twice, or two values that are related. -/
inductive Alike {γ : Type} (R : β → γ → Prop) : Except ε β → Except ε γ → Prop
  | error (e : ε) : Alike R (.error e) (.error e)
  | ok {b : β} {c : γ} (h : R b c) : Alike R (.ok b) (.ok c)

namespace Alike

variable {γ δ ζ : Type} {R : β → γ → Prop} {S : δ → ζ → Prop} {x : Except ε β} {y : Except ε γ}

theorem same {R : β → β → Prop} (h : ∀ b, R b b) (x : Except ε β) : Alike R x x := by
  cases x with
  | error e => exact .error e
  | ok b => exact .ok (h b)

theorem bind (h : Alike R x y) {f : β → Except ε δ} {g : γ → Except ε ζ}
    (hfg : ∀ b c, R b c → Alike S (f b) (g c)) : Alike S (x >>= f) (y >>= g) := by
  cases h with
  | error e => exact .error e
  | ok h => exact hfg _ _ h

theorem map (h : Alike R x y) {f : β → δ} {g : γ → ζ} (hfg : ∀ b c, R b c → S (f b) (g c)) :
    Alike S (x.map f) (y.map g) := by
  cases h with
  | error e => exact .error e
  | ok h => exact .ok (hfg _ _ h)

theorem map_eq_map (h : Alike R x y) {f : β → δ} {g : γ → δ} (hfg : ∀ b c, R b c → f b = g c) :
    x.map f = y.map g := by
  cases h with
  | error e => rfl
  | ok h => exact congrArg Except.ok (hfg _ _ h)

theorem mapM {f : α → Except ε β} {g : α → Except ε γ} {xs : List α} (h : ∀ x ∈ xs, Alike R (f x) (g x)) :
    Alike (List.Forall₂ R) (xs.mapM f) (xs.mapM g) := by
  induction xs with
  | nil => exact .ok .nil
  | cons x xs ih =>
    rw [List.mapM_cons, List.mapM_cons]
    refine (h x List.mem_cons_self).bind ?_
    intro b c hbc
    refine (ih fun y hy => h y (List.mem_cons_of_mem x hy)).bind ?_
    intro bs cs hs
    exact .ok (.cons hbc hs)

end Alike

end ShapeBindings
