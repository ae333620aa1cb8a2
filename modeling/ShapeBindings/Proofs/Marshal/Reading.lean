import ShapeBindings.Proofs.Identifier
import ShapeBindings.Proofs.Marshal.Evaluation
import ShapeBindings.Proofs.Text.Search

/-!
# The texts of a wrapper mean what they are written for

`Param.read_render` and `NativeExpr.read_expression`: the texts of parameters and of native arguments are read as what
they are rendered from, if names are identifiers, and those in native arguments are not the underscore.
-/

namespace ShapeBindings

open Text

/-! ### Names -/

/-- A name as it is written in a wrapper. -/
structure IsName (name : String) : Prop where
  ne_nil : name.toList ≠ []
  chars : ∀ c ∈ name.toList, isNameChar c = true
  ne_self : name ≠ "self"

theorem isNameChar_of_isIdentifierPart {c : Char} (h : isIdentifierPart c = true) : isNameChar c = true := by
  rw [isNameChar, h]
  rfl

/-- An escaped identifier is a name. -/
theorem isName_escapeKeyword {name : String} (h : isIdentifier name = true) : IsName (escapeKeyword name) := by
  have hne := toList_ne_nil_of_isIdentifier h
  have hchars : ∀ c ∈ name.toList, isNameChar c = true := fun c hc =>
    isNameChar_of_isIdentifierPart (isIdentifierPart_of_mem h hc)
  unfold escapeKeyword
  split
  · next hpath =>
    have hall : ∀ k ∈ pathKeywords, IsName (k ++ "_") := by
      intro k hk
      simp only [pathKeywords, List.mem_cons, List.not_mem_nil, or_false] at hk
      rcases hk with rfl | rfl | rfl | rfl <;> exact ⟨by decide, forall_mem_of_all (by decide), by decide⟩
    exact hall name hpath
  · next hpath =>
    split
    · refine ⟨by simp, fun c hc => ?_, fun hself => ?_⟩
      · rw [String.toList_append, List.mem_append] at hc
        rcases hc with hc | hc
        · have hraw : ∀ d ∈ "r#".toList, isNameChar d = true := forall_mem_of_all (by decide)
          exact hraw c hc
        · exact hchars c hc
      · have := congrArg (·.toList.head?) hself
        simp at this
    · refine ⟨hne, hchars, ?_⟩
      rintro rfl
      exact hpath (by decide)

namespace IsName

variable {name : String}

theorem not_mem (h : IsName name) {c : Char} (hc : isNameChar c = false) : c ∉ name.toList := by
  intro hm
  rw [h.chars c hm] at hc
  cases hc

/-- A name is not the start of the path of a native vector. -/
theorem after?_path_eq_none (h : IsName name) (s t : List Char) :
    after? ("sys".toList ++ ':' :: s) (name.toList ++ '.' :: t) = none := by
  rw [Option.eq_none_iff_forall_ne_some]
  intro r hr
  have heq := congrArg (List.dropWhile isNameChar) (after?_eq_some_iff.1 hr)
  have hsys : ∀ c ∈ "sys".toList, isNameChar c = true := forall_mem_of_all (by decide)
  rw [List.append_assoc, List.dropWhile_append_of_pos h.chars, List.dropWhile_append_of_pos hsys] at heq
  have hdot : isNameChar '.' = false := by decide
  have hcolon : isNameChar ':' = false := by decide
  simp [hdot, hcolon] at heq

end IsName

/-- A name that a value can be taken by. -/
structure IsVariable (name : String) : Prop extends IsName name where
  ne_underscore : name ≠ "_"

namespace IsVariable

variable {name : String}

theorem read_eq (h : IsVariable name) : Place.read name.toList = some (.param name) := by
  have hself : name.toList ≠ "self".toList := by
    rw [Ne, String.toList_inj]
    exact h.ne_self
  have hall : name.toList.all isNameChar = true := List.all_eq_true.2 h.chars
  have hunderscore : name.toList ≠ ['_'] := fun hu => h.ne_underscore (String.toList_inj.1 hu)
  rw [Place.read, if_neg hself, if_pos ⟨h.ne_nil, hunderscore, hall⟩, String.ofList_toList]

theorem readComponent_eq (h : IsVariable name) (field : String) (s : List Char) :
    Place.readComponent field (name.toList ++ '.' :: ((field ++ ".0").toList ++ s)) =
      some (.component (.param name) field, s) := by
  have hcut : cutAt ['.'] (name.toList ++ '.' :: ((field ++ ".0").toList ++ s)) =
      some (name.toList, (field ++ ".0").toList ++ s) := cutAt_append (h.not_mem (by decide)) [] _
  simp only [Place.readComponent, hcut, after?_append, h.read_eq, Option.bind_eq_bind, Option.bind_some]
  rfl

/-- What is read of a name and a member of its value. -/
theorem read_member (h : IsVariable name) (s : List Char) :
    NativeExpr.read (name.toList ++ '.' :: s) =
      if s = ['0'] then some (.handle (.param name))
      else if s = "as_ptr()".toList then some (.pointer (.param name))
      else (after? "try_into().expect(\"".toList s).bind fun rest => (cutAt ['"'] rest).bind fun (complaint, rest) =>
        if rest = [')'] then some (.int (.param name) (String.ofList complaint)) else none := by
  have h2 : after? "sys::tvec2 \x7b x: ".toList (name.toList ++ '.' :: s) = none :=
    h.toIsName.after?_path_eq_none ":tvec2 \x7b x: ".toList s
  have h3 : after? "sys::tvec3 \x7b x: ".toList (name.toList ++ '.' :: s) = none :=
    h.toIsName.after?_path_eq_none ":tvec3 \x7b x: ".toList s
  have hcut : cutAt ['.'] (name.toList ++ '.' :: s) = some (name.toList, s) :=
    cutAt_append (h.not_mem (by decide)) [] s
  rw [NativeExpr.read, h2, h3]
  simp only [NativeExpr.readMember, hcut, h.read_eq, Option.bind_eq_bind, Option.bind_some]

end IsVariable

/-! ### NativeValue arguments -/

namespace NativeExpr

variable {name complaint : String}

theorem render_component (p : Place) (field : String) :
    (Place.component p field).render = p.render ++ "." ++ field := rfl

theorem render_handle (p : Place) : (handle p).render = p.render ++ ".0" := rfl

theorem render_pointer (p : Place) : (pointer p).render = p.render ++ ".as_ptr()" := rfl

theorem render_int (p : Place) (complaint : String) :
    (int p complaint).render = p.render ++ ".try_into().expect(\"" ++ complaint ++ "\")" := rfl

theorem render_vec2 (x y : Place) :
    (vec2 x y).render = "sys::tvec2 \x7b x: " ++ x.render ++ ".0, y: " ++ y.render ++ ".0 \x7d" := rfl

theorem render_vec3 (x y z : Place) :
    (vec3 x y z).render =
      "sys::tvec3 \x7b x: " ++ x.render ++ ".0, y: " ++ y.render ++ ".0, z: " ++ z.render ++ ".0 \x7d" := rfl

theorem read_handle (h : IsVariable name) :
    read (render (.handle (.param name))).toList = some (.handle (.param name)) := by
  have ht : (render (.handle (.param name))).toList = name.toList ++ '.' :: ['0'] := by
    rw [render_handle, String.toList_append]
    rfl
  rw [ht, h.read_member, if_pos rfl]

theorem read_self : read (render (.handle .self)).toList = some (.handle .self) := by decide

theorem read_pointer (h : IsVariable name) :
    read (render (.pointer (.param name))).toList = some (.pointer (.param name)) := by
  have ht : (render (.pointer (.param name))).toList = name.toList ++ '.' :: "as_ptr()".toList := by
    rw [render_pointer, String.toList_append]
    rfl
  have hzero : "as_ptr()".toList ≠ ['0'] := by decide
  rw [ht, h.read_member, if_neg hzero, if_pos rfl]

theorem read_int (h : IsVariable name) (hc : '"' ∉ complaint.toList) :
    read (render (.int (.param name) complaint)).toList = some (.int (.param name) complaint) := by
  have ht : (render (.int (.param name) complaint)).toList =
      name.toList ++ '.' :: ("try_into().expect(\"".toList ++ (complaint.toList ++ '"' :: [')'])) := by
    rw [render_int]
    simp only [String.toList_append, List.append_assoc]
    rfl
  have hcut : cutAt ['"'] (complaint.toList ++ '"' :: [')']) = some (complaint.toList, [')']) :=
    cutAt_append hc [] [')']
  -- what follows the name starts with another character
  have hhead : ∀ c s, c ≠ 't' → "try_into().expect(\"".toList ++ (complaint.toList ++ '"' :: [')']) ≠ c :: s :=
    fun c s hct heq => hct (List.cons.inj heq).1.symm
  have hzero := hhead '0' [] (by decide)
  have hptr := hhead 'a' "s_ptr()".toList (by decide)
  have hptr : "try_into().expect(\"".toList ++ (complaint.toList ++ '"' :: [')']) ≠ "as_ptr()".toList := hptr
  rw [ht, h.read_member, if_neg hzero, if_neg hptr, after?_append, Option.bind_some, hcut, Option.bind_some]
  exact (if_pos rfl).trans (by rw [String.ofList_toList])

theorem read_vec2 (h : IsVariable name) :
    read (render (.vec2 (.component (.param name) "x") (.component (.param name) "y"))).toList =
      some (.vec2 (.component (.param name) "x") (.component (.param name) "y")) := by
  have ht : (render (.vec2 (.component (.param name) "x") (.component (.param name) "y"))).toList =
      "sys::tvec2 \x7b x: ".toList ++ (name.toList ++ '.' :: (("x" ++ ".0").toList ++ (", y: ".toList ++
        (name.toList ++ '.' :: (("y" ++ ".0").toList ++ " \x7d".toList))))) := by
    rw [render_vec2, render_component, render_component]
    simp only [String.toList_append, List.append_assoc]
    rfl
  rw [ht, read, after?_append]
  simp only [readVec2, h.readComponent_eq, after?_append, Option.bind_eq_bind, Option.bind_some, if_true]

theorem read_vec3 (h : IsVariable name) :
    read (render (.vec3 (.component (.param name) "x") (.component (.param name) "y")
      (.component (.param name) "z"))).toList =
      some (.vec3 (.component (.param name) "x") (.component (.param name) "y") (.component (.param name) "z")) := by
  have ht : (render (.vec3 (.component (.param name) "x") (.component (.param name) "y")
      (.component (.param name) "z"))).toList =
      "sys::tvec3 \x7b x: ".toList ++ (name.toList ++ '.' :: (("x" ++ ".0").toList ++ (", y: ".toList ++
        (name.toList ++ '.' :: (("y" ++ ".0").toList ++ (", z: ".toList ++
          (name.toList ++ '.' :: (("z" ++ ".0").toList ++ " \x7d".toList)))))))) := by
    rw [render_vec3, render_component, render_component, render_component]
    simp only [String.toList_append, List.append_assoc]
    rfl
  have h2 : ∀ s, after? "sys::tvec2 \x7b x: ".toList ("sys::tvec3 \x7b x: ".toList ++ s) = none := fun _ => rfl
  rw [ht, read, h2, after?_append]
  simp only [readVec3, h.readComponent_eq, after?_append, Option.bind_eq_bind, Option.bind_some, if_true]

/-- The text of every expression that a parameter is handed over with is read as that expression. -/
theorem read_expression (h : IsVariable name) (hc : '"' ∉ complaint.toList) (k : ArgKind) :
    read (k.expression name complaint).render.toList = some (k.expression name complaint) := by
  cases k with
  | handle => exact read_handle h
  | float => exact read_handle h
  | vec2 => exact read_vec2 h
  | vec3 => exact read_vec3 h
  | uint => exact read_int h hc
  | str => exact read_pointer h

end NativeExpr

theorem quote_not_mem_countComplaint {function argument : String} (hf : isIdentifier function = true)
    (ha : isIdentifier argument = true) : '"' ∉ (countComplaint function argument).toList := by
  have h1 : '"' ∉ function.toList := not_mem_of_isIdentifier hf (by decide)
  have h2 : '"' ∉ argument.toList := not_mem_of_isIdentifier ha (by decide)
  have h3 : '"' ∉ ": `".toList := by decide
  have h4 : '"' ∉ "` does not fit the native int".toList := by decide
  have hc : countComplaint function argument = function ++ ": `" ++ argument ++ "` does not fit the native int" := rfl
  rw [hc]
  simp only [String.toList_append, List.mem_append, not_or]
  exact ⟨⟨⟨h1, h3⟩, h2⟩, h4⟩

/-! ### Parameters -/

theorem Param.read_render {p : Param} (h : IsName p.name) : read p.render.toList = some p := by
  have ht : p.render.toList = p.name.toList ++ ':' :: (" " ++ p.kind.paramType).toList := by
    have hr : p.render = p.name ++ ": " ++ p.kind.paramType := rfl
    rw [hr]
    simp only [String.toList_append, List.append_assoc]
    rfl
  have hcut : cutAt [':'] (p.name.toList ++ ':' :: (" " ++ p.kind.paramType).toList) =
      some (p.name.toList, (" " ++ p.kind.paramType).toList) := cutAt_append (h.not_mem (by decide)) [] _
  have hkind : (ArgKind.all.find? fun (k : ArgKind) => (" " ++ k.paramType).toList = (" " ++ p.kind.paramType).toList) =
      some p.kind := by
    cases p.kind <;> decide
  rw [ht, read]
  simp only [hcut, Option.bind_eq_bind, Option.bind_some, hkind]
  split
  · next hu =>
    have hname : "_" = p.name := String.toList_inj.1 hu.symm
    rw [hname]
  · next hu =>
    have hname : IsVariable p.name := ⟨h, fun hn => hu (congrArg String.toList hn)⟩
    rw [hname.read_eq, Option.bind_some]

end ShapeBindings
