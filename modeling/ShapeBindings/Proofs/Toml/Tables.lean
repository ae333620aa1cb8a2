import ShapeBindings.Proofs.Dictionary
import ShapeBindings.Toml.Fields
import ShapeBindings.Toml.Tables

/-!
# What a document goes on to say

A line of a document adds to what the lines before it say and takes nothing of it back: `Says.section_` is what one section
keeps, `says_of_documentOf` what a whole document does.
-/

namespace ShapeBindings.Toml

variable {es es' : Entries} {path : List String} {key v : String}

/-- Some entries have a text at the end of a path of keys. -/
inductive Says : List String → String → Entries → Prop
  | entry {key v : String} {es : Entries} (h : es.lookup key = some (.string v)) : Says [key] v es
  | inside {key v : String} {path : List String} {es sub : Entries} {form : TableForm}
    (h : es.lookup key = some (.table form sub)) (hsub : Says path v sub) : Says (key :: path) v es

/-- Whatever is said somewhere is also said elsewhere. -/
def Extends (es es' : Entries) : Prop := ∀ path v, Says path v es → Says path v es'

theorem Extends.trans {es'' : Entries} (h : Extends es es') (h' : Extends es' es'') : Extends es es'' :=
  fun path v hs => h' path v (h path v hs)

/-! ### One entry -/

theorem lookup_alterEntry {f : Option Value → Option Value} (h : alterEntry key f es = some es') :
    ∃ w, f (es.lookup key) = some w ∧ ∀ k, es'.lookup k = if k = key then some w else es.lookup k := by
  induction es generalizing es' with
  | nil =>
    obtain ⟨w, hw, rfl⟩ := Option.map_eq_some_iff.1 h
    exact ⟨w, hw, fun k => lookup_cons_eq_ite key k w []⟩
  | cons e es ih =>
    obtain ⟨k, old⟩ := e
    rw [alterEntry] at h
    split at h
    · next hk =>
      subst hk
      obtain ⟨w, hw, rfl⟩ := Option.map_eq_some_iff.1 h
      refine ⟨w, by rw [lookup_cons_eq_ite, if_pos rfl, hw], fun k' => ?_⟩
      rw [lookup_cons_eq_ite, lookup_cons_eq_ite]
      split <;> rfl
    · next hk =>
      obtain ⟨es₁, hes, rfl⟩ := Option.map_eq_some_iff.1 h
      obtain ⟨w, hw, hall⟩ := ih hes
      refine ⟨w, by rw [lookup_cons_eq_ite, if_neg (Ne.symm hk), hw], fun k' => ?_⟩
      rw [lookup_cons_eq_ite, lookup_cons_eq_ite, hall]
      by_cases hk' : k' = k
      · rw [if_pos hk', if_pos hk', if_neg fun hkey => hk (hk'.symm.trans hkey)]
      · rw [if_neg hk', if_neg hk']

/-- A change of one value keeps what is said if it refuses texts and keeps what tables say. -/
theorem extends_alterEntry {f : Option Value → Option Value} (htext : ∀ v, f (some (.string v)) = none)
    (htable : ∀ form sub w, f (some (.table form sub)) = some w → ∃ form' sub', w = .table form' sub' ∧ Extends sub sub')
    (h : alterEntry key f es = some es') : Extends es es' := by
  obtain ⟨w, hw, hall⟩ := lookup_alterEntry h
  intro path v hs
  cases hs with
  | @entry k _ _ hk =>
    refine .entry ?_
    rw [hall]
    split
    · next heq =>
      rw [← heq, hk, htext] at hw
      cases hw
    · exact hk
  | @inside k _ path _ sub form hk hsub =>
    by_cases heq : k = key
    · rw [← heq, hk] at hw
      obtain ⟨form', sub', rfl, hext⟩ := htable form sub w hw
      exact .inside (by rw [hall, if_pos heq]) (hext _ _ hsub)
    · exact .inside (by rw [hall, if_neg heq, hk]) hsub

theorem extends_append (es new : Entries) : Extends es (es ++ new) := by
  intro path v hs
  cases hs with
  | entry h => exact .entry (by rw [List.lookup_append, h, Option.some_or])
  | inside h hsub => exact .inside (by rw [List.lookup_append, h, Option.some_or]) hsub

/-! ### One line -/

theorem extends_alterAt {made : TableForm} {f : TableForm → Entries → Option Entries}
    (hf : ∀ form es es', f form es = some es' → Extends es es') {path : List String} {form : TableForm}
    (h : alterAt made f path form es = some es') : Extends es es' := by
  induction path generalizing form es es' with
  | nil => exact hf form es es' h
  | cons part parts ih =>
    refine extends_alterEntry (fun _ => rfl) (fun form sub w hw => ?_) h
    dsimp only at hw
    split at hw
    · obtain ⟨sub', hsub', rfl⟩ := Option.map_eq_some_iff.1 hw
      exact ⟨form, sub', rfl, ih hsub'⟩
    · cases hw

theorem extends_setKey {form : TableForm} {kv : KeyValue} (h : setKey form es kv = some es') : Extends es es' := by
  refine extends_alterAt (fun form es es' hes => ?_) h
  split at hes
  · cases hes
  · cases hes
    exact extends_append es _

theorem extends_foldlM {α : Type} {f : Entries → α → Option Entries} (hf : ∀ es a es', f es a = some es' → Extends es es')
    {xs : List α} (h : xs.foldlM f es = some es') : Extends es es' := by
  induction xs generalizing es with
  | nil =>
    cases h
    exact fun _ _ => id
  | cons x xs ih =>
    rw [List.foldlM_cons] at h
    obtain ⟨es₁, hx, h⟩ := Option.bind_eq_some_iff.1 h
    exact (hf es x es₁ hx).trans (ih h)

theorem extends_setKeys {form : TableForm} {kvs : List KeyValue} (h : setKeys form es kvs = some es') : Extends es es' :=
  extends_foldlM (fun _ _ _ => extends_setKey) h

theorem extends_addTo {s : Section} (h : s.addTo es = some es') : Extends es es' := by
  refine extends_alterAt (fun _ es es' hes => ?_) h
  refine extends_alterEntry (fun _ => rfl) (fun form sub w hw => ?_) hes
  cases form with
  | implied =>
    rw [Section.valueOver] at hw
    split at hw
    · cases hw
    · obtain ⟨sub', hsub', rfl⟩ := Option.map_eq_some_iff.1 hw
      exact ⟨.stated, sub', rfl, extends_setKeys hsub'⟩
  | inline | stated | dotted => cases hw

/-! ### A whole document -/

/-- A document says the first text of its first section. -/
theorem says_of_documentOf {kvs : List KeyValue} {sections : List Section} {part : String}
    (h : documentOf [] (⟨false, [], part, ⟨[], key, .string v⟩ :: kvs⟩ :: sections) = some es) :
    Says [part, key] v es := by
  rw [documentOf] at h
  obtain ⟨start, hstart, h⟩ := Option.bind_eq_some_iff.1 h
  obtain rfl := Option.some.inj hstart
  rw [List.foldlM_cons] at h
  obtain ⟨es₁, hfirst, hrest⟩ := Option.bind_eq_some_iff.1 h
  refine extends_foldlM (fun _ _ _ => extends_addTo) hrest _ _ ?_
  -- the section is new, and so is its key
  obtain ⟨w, hw, rfl⟩ := Option.map_eq_some_iff.1 hfirst
  obtain ⟨sub, hsub, hw⟩ := Option.bind_eq_some_iff.1 hw
  obtain rfl : .table .stated sub = w := Option.some.inj hw
  have hkey : setKey .stated [] ⟨[], key, .string v⟩ = some [(key, .string v)] := rfl
  rw [setKeys, List.foldlM_cons, hkey] at hsub
  exact .inside List.lookup_cons_self (extends_setKeys hsub _ _ (.entry List.lookup_cons_self))

/-! ### Fields -/

theorem lookup_eq_head?_filter (key : String) (es : Entries) :
    es.lookup key = (es.filter (·.1 ∈ [key])).head?.map Prod.snd := by
  induction es with
  | nil => rfl
  | cons e es ih =>
    obtain ⟨k, w⟩ := e
    rw [lookup_cons_eq_ite, ih]
    by_cases hk : key = k
    · simp [hk]
    · simp [hk, Ne.symm hk]

/-- A field that is read is the entry under its key. -/
theorem lookup_of_find? {n : Nat} {found : Option Value} (h : (Fields.named es).find? n [key] = some found) :
    es.lookup key = found := by
  rw [lookup_eq_head?_filter]
  unfold Fields.find? at h
  dsimp only at h
  split at h
  · next hnone =>
    rw [hnone]
    exact Option.some.inj h
  · next k w hone =>
    rw [hone]
    exact Option.some.inj h
  · cases h

theorem exists_of_required {α : Type} {n : Nat} {read : Value → Option α} {a : α}
    (h : (Fields.named es).required n [key] read = some a) : ∃ w, es.lookup key = some w ∧ read w = some a := by
  obtain ⟨found, hfound, h⟩ := Option.bind_eq_some_iff.1 h
  obtain ⟨w, rfl, hw⟩ := Option.bind_eq_some_iff.1 h
  exact ⟨w, lookup_of_find? hfound, hw⟩

theorem eq_of_optional {α : Type} {n : Nat} {read : Value → Option α} {w : Value} {a : Option α}
    (h : (Fields.named es).optional n [key] read = some a) (hw : es.lookup key = some w) : read w = a ∧ a.isSome = true := by
  obtain ⟨found, hfound, h⟩ := Option.bind_eq_some_iff.1 h
  rw [lookup_of_find? hfound] at hw
  subst hw
  obtain ⟨a', ha', h⟩ := Option.bind_eq_some_iff.1 h
  cases h
  exact ⟨ha', rfl⟩

end ShapeBindings.Toml
