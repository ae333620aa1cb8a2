import Mathlib.Data.List.TakeWhile
import ShapeBindings.FileTree

/-!
# Where paths lead

Without links a path can lead to one place only: `Path.location` finds it from the parts of the path alone, whatever
stands there.  A name that is joined to a path is one step more (`location_join`), and slashes at the end of a path lead
nowhere further (`location_trimmed`).
-/

namespace ShapeBindings

/-- Where a part of a path leads from a location. -/
def Location.step (loc : Location) (part : String) : Location :=
  if Path.isVacant part then loc else if part = ".." then loc.dropLast else loc ++ [part]

/-- The names of files in a directory: a path through them is one step long. -/
def IsFileName (name : String) : Prop := '/' ∉ name.toList ∧ name ≠ "" ∧ name ≠ "." ∧ name ≠ ".."

theorem Location.step_of_isFileName {name : String} (h : IsFileName name) (loc : Location) :
    loc.step name = loc ++ [name] := by
  obtain ⟨-, hempty, hdot, hdots⟩ := h
  have hv : Path.isVacant name = false := by
    simp [Path.isVacant, hempty, hdot]
  rw [step, hv, if_neg Bool.false_ne_true, if_neg hdots]

namespace Path

/-- Where a path leads, seen from a working directory, if it leads anywhere. -/
def location (workingDir : Location) (p : Path) : Location :=
  p.parts.foldl Location.step (if p.isAbsolute then [] else workingDir)

section

variable (workingDir : Location) {a : List Char}

theorem isAbsolute_ofList (a : List Char) : isAbsolute ⟨String.ofList a⟩ = decide (a.head? = some '/') := by
  rw [isAbsolute, String.toList_ofList]

theorem parts_ofList (a : List Char) : parts ⟨String.ofList a⟩ = (a.splitOn '/').map String.ofList := by
  rw [parts, String.toList_ofList]

theorem location_ofList (a : List Char) :
    location workingDir ⟨String.ofList a⟩ =
      ((a.splitOn '/').map String.ofList).foldl Location.step (if a.head? = some '/' then [] else workingDir) := by
  rw [location, parts_ofList, isAbsolute_ofList]
  simp only [decide_eq_true_eq]

/-- The parts behind a slash are further steps. -/
theorem location_append_slash (ha : a ≠ []) (b : List Char) :
    location workingDir ⟨String.ofList (a ++ '/' :: b)⟩ =
      ((b.splitOn '/').map String.ofList).foldl Location.step (location workingDir ⟨String.ofList a⟩) := by
  have hhead : (a ++ '/' :: b).head? = a.head? := by
    rw [List.head?_append, Option.or_of_isSome (by simpa [List.isSome_head?] using ha)]
  rw [location_ofList, location_ofList, hhead, List.splitOn_append_cons_self, List.map_append, List.foldl_append]

theorem location_append_singleton_slash (ha : a ≠ []) :
    location workingDir ⟨String.ofList (a ++ ['/'])⟩ = location workingDir ⟨String.ofList a⟩ := by
  rw [location_append_slash workingDir ha]
  rfl

theorem location_append_slashes (ha : a ≠ []) (n : Nat) :
    location workingDir ⟨String.ofList (a ++ List.replicate n '/')⟩ = location workingDir ⟨String.ofList a⟩ := by
  induction n with
  | zero => rw [List.replicate_zero, List.append_nil]
  | succ n ih =>
    have hne : a ++ List.replicate n '/' ≠ [] := fun h => ha (List.append_eq_nil_iff.1 h).1
    rw [List.replicate_succ', ← List.append_assoc, location_append_singleton_slash workingDir hne, ih]

end

theorem eq_ofList (p : Path) : p = ⟨String.ofList p.text.toList⟩ := by rw [String.ofList_toList]

/-- Slashes at the end of a path lead nowhere further. -/
theorem location_trimmed (workingDir : Location) (p : Path) {trimmed : List Char}
    (h : trimmed = (p.text.toList.reverse.dropWhile (· == '/')).reverse) (hne : trimmed ≠ []) :
    location workingDir ⟨String.ofList trimmed⟩ = p.location workingDir := by
  obtain ⟨n, hn⟩ : ∃ n, (p.text.toList.reverse.takeWhile (· == '/')).reverse = List.replicate n '/' := by
    refine ⟨_, List.eq_replicate_of_mem fun c hc => ?_⟩
    have := List.mem_takeWhile_imp (List.mem_reverse.1 hc)
    simpa using this
  have htext : p.text.toList = trimmed ++ List.replicate n '/' := by
    rw [← hn, h, ← List.reverse_append, List.takeWhile_append_dropWhile, List.reverse_reverse]
  rw [p.eq_ofList, htext, location_append_slashes workingDir hne]

theorem isAbsolute_of_isFileName {name : String} (h : IsFileName name) : isAbsolute ⟨name⟩ = false := by
  have hhead : name.toList.head? ≠ some '/' := fun he => h.1 (List.mem_of_head? he)
  simpa [isAbsolute] using hhead

/-- A name that is joined to a path is one part more, or stands for the empty part behind its last slash.  The one part of
the empty path is such a part too. -/
theorem exists_parts_join {name : String} (h : IsFileName name) (p : Path) :
    ∃ ps, (p.parts = ps ∨ p.parts = ps ++ [""]) ∧ (p.join name).parts = ps ++ [name] ∧
      (p.join name).isAbsolute = p.isAbsolute := by
  have hname := isAbsolute_of_isFileName h
  have hsplit : ∀ a : List Char, parts ⟨String.ofList (a ++ '/' :: name.toList)⟩ =
      (a.splitOn '/').map String.ofList ++ [name] := fun a => by
    rw [parts_ofList, List.splitOn_append_cons_self, List.splitOn_eq_singleton h.1, List.map_append, List.map_singleton,
      String.ofList_toList]
  have hsingle : parts ⟨name⟩ = [name] := by
    rw [parts, List.splitOn_eq_singleton h.1, List.map_singleton, String.ofList_toList]
  by_cases hp : p.text = ""
  · obtain rfl : p = ⟨""⟩ := by rw [← hp]
    have hjoin : join ⟨""⟩ name = ⟨name⟩ := by simp [join, hname]
    exact ⟨[], .inr rfl, by rw [hjoin, hsingle, List.nil_append], by rw [hjoin, hname]; rfl⟩
  have hne : p.text.toList ≠ [] := mt String.toList_eq_nil_iff.1 hp
  have habsolute : ∀ b : List Char, isAbsolute ⟨String.ofList (p.text.toList ++ b)⟩ = p.isAbsolute := fun b => by
    rw [isAbsolute_ofList, List.head?_append, Option.or_of_isSome (by simpa [List.isSome_head?] using hne), isAbsolute]
  rw [join, hname, if_neg Bool.false_ne_true]
  split
  · next hend =>
    rw [Bool.or_eq_true, decide_eq_true_eq] at hend
    obtain ⟨a, ha⟩ := List.getLast?_eq_some_iff.1 (hend.resolve_left (by simpa using hp))
    have hjoin : (⟨p.text ++ name⟩ : Path) = ⟨String.ofList (a ++ '/' :: name.toList)⟩ := by
      rw [eq_ofList ⟨p.text ++ name⟩, String.toList_append, ha, List.append_assoc, List.singleton_append]
    refine ⟨(a.splitOn '/').map String.ofList, .inr ?_, by rw [hjoin, hsplit], ?_⟩
    · rw [p.eq_ofList, ha, parts_ofList, List.splitOn_append_cons_self, List.map_append]
      rfl
    · rw [eq_ofList ⟨p.text ++ name⟩, String.toList_append, habsolute]
  · have hjoin : (⟨p.text ++ "/" ++ name⟩ : Path) = ⟨String.ofList (p.text.toList ++ '/' :: name.toList)⟩ := by
      rw [eq_ofList ⟨p.text ++ "/" ++ name⟩]
      simp
    exact ⟨p.parts, .inl rfl, by rw [hjoin, hsplit, parts], by rw [hjoin, habsolute]⟩

theorem location_join {name : String} (h : IsFileName name) (workingDir : Location) (p : Path) :
    (p.join name).location workingDir = p.location workingDir ++ [name] := by
  obtain ⟨ps, hparts, hjoin, habsolute⟩ := exists_parts_join h p
  rw [location, location, hjoin, habsolute, List.foldl_append, List.foldl_cons, List.foldl_nil,
    Location.step_of_isFileName h]
  rcases hparts with hparts | hparts
  · rw [hparts]
  · -- the empty part leads nowhere
    rw [hparts, List.foldl_append]
    rfl

end Path

end ShapeBindings
