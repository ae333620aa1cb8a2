import Mathlib.Data.List.Basic
import ShapeBindings.Text.Search

/-!
# What searching finds

* `after?_eq_some_iff`: a pattern is removed from the texts that start with it;
* `cutAt_append`, `cutAt_eq_none`: a text is cut where the pattern's first character first stands, if the whole pattern
  stands there.
-/

namespace ShapeBindings.Text

theorem after?_eq_some_iff {p s r : List Char} : after? p s = some r ↔ s = p ++ r := by
  rw [after?, List.isPrefixOf?_eq_some_iff_append_eq]
  exact eq_comm

@[simp] theorem after?_append (p r : List Char) : after? p (p ++ r) = some r :=
  after?_eq_some_iff.2 rfl

theorem after?_cons_of_ne {c d : Char} (h : c ≠ d) (p s : List Char) : after? (c :: p) (d :: s) = none := by
  rw [Option.eq_none_iff_forall_ne_some]
  intro r hr
  exact h (List.cons.inj (after?_eq_some_iff.1 hr)).1.symm

theorem after?_cons_self (c : Char) (p s : List Char) : after? (c :: p) (c :: s) = after? p s := by
  simp [after?, List.isPrefixOf?]

theorem cutAt_cons_of_ne {x c : Char} (h : x ≠ c) (p s : List Char) :
    cutAt (x :: p) (c :: s) = (cutAt (x :: p) s).map fun (u, v) => (c :: u, v) := by
  rw [cutAt, after?_cons_of_ne h]

theorem cutAt_append {x : Char} {a : List Char} (ha : x ∉ a) (p b : List Char) :
    cutAt (x :: p) (a ++ (x :: p ++ b)) = some (a, b) := by
  induction a with
  | nil =>
    have : after? (x :: p) (x :: (p ++ b)) = some b := after?_append (x :: p) b
    simp [cutAt, this]
  | cons c a ih =>
    have hc : x ≠ c := by rintro rfl; simp at ha
    rw [List.cons_append, cutAt_cons_of_ne hc, ih fun h => ha (List.mem_cons_of_mem _ h)]
    rfl

theorem cutAt_eq_none {x : Char} {s : List Char} (hs : x ∉ s) (p : List Char) :
    cutAt (x :: p) s = none := by
  induction s with
  | nil => rfl
  | cons c s ih =>
    have hc : x ≠ c := by rintro rfl; simp at hs
    rw [cutAt_cons_of_ne hc, ih fun h => hs (List.mem_cons_of_mem _ h)]
    rfl

theorem cutAt_cons_self (x : Char) (s : List Char) : cutAt [x] (x :: s) = some ([], s) :=
  cutAt_append (List.not_mem_nil) [] s

/-- A cut loses the pattern only. -/
theorem eq_of_cutAt {p s a b : List Char} (h : cutAt p s = some (a, b)) : s = a ++ (p ++ b) := by
  induction s generalizing a with
  | nil =>
    simp only [cutAt, Option.map_eq_some_iff, Prod.mk.injEq] at h
    obtain ⟨r, hr, rfl, rfl⟩ := h
    rw [List.nil_append]
    exact after?_eq_some_iff.1 hr
  | cons c s ih =>
    rw [cutAt] at h
    split at h
    · next r hr =>
      obtain ⟨rfl, rfl⟩ := Prod.mk.inj (Option.some.inj h)
      rw [List.nil_append]
      exact after?_eq_some_iff.1 hr
    · simp only [Option.map_eq_some_iff, Prod.mk.injEq, Prod.exists] at h
      obtain ⟨a', b', h', rfl, rfl⟩ := h
      rw [ih h', List.cons_append]

end ShapeBindings.Text
