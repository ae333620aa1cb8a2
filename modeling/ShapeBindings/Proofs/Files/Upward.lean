import Mathlib.Data.List.Infix
import Mathlib.Data.List.Nodup
import ShapeBindings.Proofs.Files.Location
import ShapeBindings.Proofs.Text.Splitting

/-!
# The way up from a path

A path is a text, but where it leads is told by the names in it (`Path.names`).

* `map_names_upward`: from a path up the last name is taken away again and again, until none is left;
* `location_eq`: without steps back the names are the steps to the place of a path (`mem_locations_upward_iff`);
* `exists_parent?_join`: a name in a directory leads back to the directory, perhaps in another spelling.
-/

namespace ShapeBindings.Path

/-- The names among the parts of a path: all that are not vacant.  A dot in front of a relative path counts. -/
def namesOf : List String → List String
  | [] => []
  | first :: rest => (if first.isEmpty then [] else [first]) ++ rest.filter fun part => !isVacant part

/-- The names in a path. -/
def names (p : Path) : List String := namesOf p.parts

/-- Two spellings of one path start at the same place and go through the same names. -/
structure Same (p q : Path) : Prop where
  isAbsolute : p.isAbsolute = q.isAbsolute
  names : p.names = q.names

/-- A path and those above it, the deepest first. -/
def upward (p : Path) : List Path := p :: p.parents

/-! ### Parts -/

theorem parts_ne_nil (p : Path) : p.parts ≠ [] := by simp [parts, List.splitOn_ne_nil]

theorem slash_not_mem_of_mem_parts {p : Path} {part : String} (h : part ∈ p.parts) : '/' ∉ part.toList := by
  obtain ⟨cs, hcs, rfl⟩ := List.mem_map.1 h
  rw [String.toList_ofList]
  exact Text.not_mem_of_mem_splitOn hcs

theorem exists_parts (p : Path) : ∃ first rest, p.parts = first :: rest ∧ '/' ∉ first.toList ∧
    ∀ part ∈ rest, '/' ∉ part.toList := by
  obtain ⟨first, rest, h⟩ := List.exists_cons_of_ne_nil p.parts_ne_nil
  have hslash : ∀ part ∈ first :: rest, '/' ∉ part.toList := fun part hpart =>
    slash_not_mem_of_mem_parts (h ▸ hpart)
  exact ⟨first, rest, h, hslash first List.mem_cons_self, fun part hpart => hslash part (List.mem_cons_of_mem _ hpart)⟩

theorem eq_intercalate (p : Path) : p = ⟨"/".intercalate p.parts⟩ := by
  have htext : p.text = "/".intercalate p.parts := by
    rw [← String.toList_inj, String.toList_intercalate, parts, List.map_map]
    have hid : String.toList ∘ String.ofList = id := funext fun cs => String.toList_ofList
    rw [hid, List.map_id]
    exact (List.intercalate_splitOn '/').symm
  rw [← htext]

section

variable {first : String} {rest : List String} (hfirst : '/' ∉ first.toList)

include hfirst

theorem isAbsolute_intercalate (rest : List String) :
    isAbsolute ⟨"/".intercalate (first :: rest)⟩ = (first.isEmpty && !rest.isEmpty) := by
  have hhead : first.toList.head? ≠ some '/' := fun h => hfirst (List.mem_of_head? h)
  unfold isAbsolute
  cases rest with
  | nil => simp [hhead]
  | cons part rest =>
    rw [String.intercalate_cons_of_ne_nil (by simp), String.toList_append, String.toList_append, List.append_assoc,
      List.head?_append]
    by_cases hempty : first = ""
    · simp [hempty]
    · have hsome : first.toList.head?.isSome = true := by simpa [List.isSome_head?] using hempty
      rw [Option.or_of_isSome hsome]
      simp [hhead, hempty]

theorem parts_intercalate (hrest : ∀ part ∈ rest, '/' ∉ part.toList) :
    parts ⟨"/".intercalate (first :: rest)⟩ = first :: rest := by
  have hslash : ∀ cs ∈ (first :: rest).map String.toList, '/' ∉ cs := by
    simpa using ⟨hfirst, hrest⟩
  have hid : String.ofList ∘ String.toList = id := funext fun s => String.ofList_toList
  rw [parts, String.toList_intercalate]
  refine (congrArg (List.map String.ofList) (List.splitOn_intercalate '/' hslash (by simp))).trans ?_
  rw [List.map_map, hid, List.map_id]

end

theorem isAbsolute_eq {p : Path} {first : String} {rest : List String} (h : p.parts = first :: rest) :
    p.isAbsolute = (first.isEmpty && !rest.isEmpty) := by
  have hfirst : '/' ∉ first.toList := slash_not_mem_of_mem_parts (h ▸ List.mem_cons_self)
  rw [p.eq_intercalate, h, isAbsolute_intercalate hfirst]

/-! ### Names -/

theorem namesOf_concat (first : String) (rest : List String) (part : String) :
    namesOf (first :: (rest ++ [part])) = namesOf (first :: rest) ++ if isVacant part then [] else [part] := by
  rw [namesOf, namesOf, List.filter_append, List.append_assoc]
  cases h : isVacant part <;> simp [h]

/-- Slashes at the end of a path name nothing. -/
theorem names_append_slashes (a : List Char) (n : Nat) :
    names ⟨String.ofList (a ++ List.replicate n '/')⟩ = names ⟨String.ofList a⟩ := by
  induction n with
  | zero => rw [List.replicate_zero, List.append_nil]
  | succ n ih =>
    obtain ⟨first, rest, hparts, -, -⟩ := exists_parts ⟨String.ofList (a ++ List.replicate n '/')⟩
    have hmore : parts ⟨String.ofList (a ++ List.replicate n '/' ++ ['/'])⟩ = first :: (rest ++ [""]) := by
      rw [parts_ofList] at hparts ⊢
      rw [List.splitOn_append_cons_self, List.map_append, hparts]
      rfl
    rw [names, hparts] at ih
    rw [List.replicate_succ', ← List.append_assoc, names, hmore, namesOf_concat, ih, if_pos (by decide), List.append_nil]

/-- Vacant parts at the end of a path name nothing. -/
theorem namesOf_dropWhile (first : String) (rest : List String) :
    namesOf (first :: (rest.dropWhile isVacant).reverse) = namesOf (first :: rest.reverse) := by
  induction rest with
  | nil => rfl
  | cons part rest ih =>
    cases h : isVacant part with
    | true => rw [List.dropWhile_cons_of_pos h, ih, List.reverse_cons, namesOf_concat, if_pos h, List.append_nil]
    | false => rw [List.dropWhile_cons_of_neg (by simp [h])]

section

variable {first : String} {rest : List String} (hfirst : '/' ∉ first.toList) (hrest : ∀ part ∈ rest, '/' ∉ part.toList)

include hfirst

theorem isAbsolute_ofReverseParts (rest : List String) : (ofReverseParts first rest).isAbsolute = first.isEmpty := by
  unfold ofReverseParts
  split
  · next h =>
    rw [Bool.and_eq_true] at h
    rw [h.1]
    decide
  · next h =>
    rw [isAbsolute_intercalate hfirst, List.isEmpty_reverse]
    cases hf : first.isEmpty with
    | false => rfl
    | true => simpa [hf] using h

include hrest

theorem names_ofReverseParts : (ofReverseParts first rest).names = namesOf (first :: rest.reverse) := by
  unfold ofReverseParts
  split
  · next h =>
    rw [Bool.and_eq_true, String.isEmpty_iff, List.isEmpty_iff] at h
    rw [h.1, h.2]
    decide
  · rw [names, parts_intercalate hfirst fun part hpart => hrest part (List.mem_reverse.1 hpart)]

end

/-! ### The way up -/

theorem reverse_inits_concat {α : Type} (l : List α) (a : α) : (l ++ [a]).inits.reverse = (l ++ [a]) :: l.inits.reverse := by
  simp [List.inits_append]

theorem reverse_inits_eq {α : Type} (l : List α) : l.inits.reverse = l :: l.inits.reverse.tail := by
  rcases List.eq_nil_or_concat l with rfl | ⟨l, a, rfl⟩
  · rfl
  · rw [List.concat_eq_append, reverse_inits_concat, List.tail_cons]

section

variable {first : String} {rest : List String} (hfirst : '/' ∉ first.toList) (hrest : ∀ part ∈ rest, '/' ∉ part.toList)

include hfirst

theorem isAbsolute_of_mem_parentsOf {d : Path} (h : d ∈ parentsOf first rest) : d.isAbsolute = first.isEmpty := by
  induction rest with
  | nil =>
    unfold parentsOf at h
    split at h
    · cases h
    · next hempty =>
      rw [List.mem_singleton] at h
      rw [h, Bool.eq_false_iff.2 hempty]
      decide
  | cons part rest ih =>
    unfold parentsOf at h
    split at h
    · exact ih h
    · rcases List.mem_cons.1 h with rfl | h
      · exact isAbsolute_ofReverseParts hfirst _
      · exact ih h

include hrest

/-- The parts of a path are taken away from its end: a vacant one changes nothing, any other one is a name. -/
theorem map_names_parentsOf :
    (parentsOf first rest).map names = (namesOf (first :: rest.reverse)).inits.reverse.tail := by
  induction rest with
  | nil =>
    unfold parentsOf
    cases h : first.isEmpty with
    | true => simp [namesOf, h]
    | false =>
      have hempty : names ⟨""⟩ = [] := by decide
      simp [namesOf, h, hempty]
  | cons part rest ih =>
    rw [List.forall_mem_cons] at hrest
    have ih := ih hrest.2
    unfold parentsOf
    rw [List.reverse_cons, namesOf_concat]
    cases h : isVacant part with
    | true => simpa using ih
    | false =>
      have hfurther : ∀ part' ∈ rest.dropWhile isVacant, '/' ∉ part'.toList := fun part' hpart' =>
        hrest.2 part' ((List.dropWhile_sublist isVacant).mem hpart')
      have hnames := names_ofReverseParts hfirst hfurther
      rw [namesOf_dropWhile] at hnames
      rw [if_neg Bool.false_ne_true, if_neg Bool.false_ne_true, List.map_cons, hnames, ih, reverse_inits_concat,
        List.tail_cons, ← reverse_inits_eq]

end

theorem pairwise_reverse_inits {α : Type} (l : List α) : l.inits.reverse.Pairwise fun a b => b <+: a ∧ b ≠ a := by
  induction l using List.reverseRecOn with
  | nil => simp
  | append_singleton l a ih =>
    rw [reverse_inits_concat, List.pairwise_cons]
    refine ⟨fun b hb => ?_, ih⟩
    have hinit : b <+: l := by simpa using hb
    refine ⟨hinit.trans (List.prefix_append l [a]), fun heq => ?_⟩
    have hle := hinit.length_le
    rw [heq, List.length_append, List.length_singleton] at hle
    omega

/-- From a path up the last name is taken away again and again, until none is left. -/
theorem map_names_upward (p : Path) : p.upward.map names = p.names.inits.reverse := by
  obtain ⟨first, rest, h, hfirst, hrest⟩ := p.exists_parts
  rw [upward, List.map_cons, parents, h]
  dsimp only
  rw [map_names_parentsOf hfirst fun part hpart => hrest part (List.mem_reverse.1 hpart), List.reverse_reverse, names, h,
    ← reverse_inits_eq]

theorem isAbsolute_of_mem_upward {p d : Path} (h : d ∈ p.upward) : d.isAbsolute = p.isAbsolute := by
  obtain ⟨first, rest, hp, hfirst, hrest⟩ := p.exists_parts
  rcases List.mem_cons.1 h with rfl | h
  · rfl
  · rw [parents, hp] at h
    rw [isAbsolute_of_mem_parentsOf hfirst h, isAbsolute_eq hp]
    cases rest with
    | nil =>
      -- the empty path has none above it
      cases hempty : first.isEmpty with
      | false => rfl
      | true => simp [parentsOf, hempty] at h
    | cons part rest => simp

theorem names_prefix_of_mem_upward {p d : Path} (h : d ∈ p.upward) : d.names <+: p.names := by
  have hmem : d.names ∈ p.names.inits.reverse := map_names_upward p ▸ List.mem_map_of_mem h
  simpa using hmem

theorem exists_mem_upward {p : Path} {ns : List String} (h : ns <+: p.names) : ∃ d ∈ p.upward, d.names = ns := by
  have hmem : ns ∈ p.upward.map names := by
    rw [map_names_upward]
    simpa using h
  exact List.mem_map.1 hmem

/-- On the way up the names become fewer. -/
theorem pairwise_upward (p : Path) : p.upward.Pairwise fun d e => e.names <+: d.names ∧ e.names ≠ d.names := by
  have hnames := pairwise_reverse_inits p.names
  rw [← map_names_upward, List.pairwise_map] at hnames
  exact hnames

theorem eq_of_mem_upward {p d e : Path} (hd : d ∈ p.upward) (he : e ∈ p.upward) (h : d.names = e.names) : d = e := by
  have hnodup : (p.upward.map names).Nodup :=
    List.pairwise_map.2 (p.pairwise_upward.imp fun hde => Ne.symm hde.2)
  exact List.inj_on_of_nodup_map hnodup hd he h

theorem eq_of_names_eq_nil {p : Path} (h : p.names = []) (hrelative : p.isAbsolute = false) : p = ⟨""⟩ := by
  obtain ⟨first, rest, hp, -, -⟩ := p.exists_parts
  rw [isAbsolute_eq hp] at hrelative
  rw [names, hp, namesOf, List.append_eq_nil_iff] at h
  have hfirst : first = "" := by
    by_contra hne
    simp [hne] at h
  subst hfirst
  obtain rfl : rest = [] := by simpa using hrelative
  rw [p.eq_intercalate, hp]
  rfl

/-- The way up ends at the root, or at the empty path. -/
theorem exists_getLast?_upward (p : Path) :
    ∃ top, p.upward.getLast? = some top ∧ top.names = [] ∧ (p.isAbsolute = false → top = ⟨""⟩) := by
  have hlast : (p.upward.map names).getLast? = some [] := by
    rw [map_names_upward, List.getLast?_reverse]
    cases p.names <;> rfl
  rw [List.getLast?_map, Option.map_eq_some_iff] at hlast
  obtain ⟨top, htop, hnames⟩ := hlast
  refine ⟨top, htop, hnames, fun hrelative => eq_of_names_eq_nil hnames ?_⟩
  rw [isAbsolute_of_mem_upward (List.mem_of_getLast? htop), hrelative]

/-! ### The place of a path -/

/-- Where a path starts, seen from a working directory. -/
def origin (workingDir : Location) (p : Path) : Location := if p.isAbsolute then [] else workingDir

/-- Vacant parts lead nowhere. -/
theorem foldl_step_filter (ps : List String) (loc : Location) :
    (ps.filter fun part => !isVacant part).foldl Location.step loc = ps.foldl Location.step loc := by
  induction ps generalizing loc with
  | nil => rfl
  | cons part ps ih =>
    cases h : isVacant part with
    | true =>
      have hstep : loc.step part = loc := if_pos h
      rw [List.filter_cons_of_neg (by simp [h]), ih, List.foldl_cons, hstep]
    | false => rw [List.filter_cons_of_pos (by simp [h]), List.foldl_cons, List.foldl_cons, ih]

theorem location_eq_foldl (workingDir : Location) (p : Path) :
    p.location workingDir = p.names.foldl Location.step (p.origin workingDir) := by
  obtain ⟨first, rest, hp, -, -⟩ := p.exists_parts
  have hfirst : ∀ loc : Location, (if first.isEmpty then [] else [first]).foldl Location.step loc = loc.step first := by
    intro loc
    cases h : first.isEmpty with
    | false => rfl
    | true => exact (if_pos (by simp [isVacant, h])).symm
  rw [location, names, hp, namesOf, List.foldl_append, hfirst, foldl_step_filter, List.foldl_cons]
  rfl

/-- Two spellings of one path lead to the same place. -/
theorem Same.location_eq {p q : Path} (h : p.Same q) (workingDir : Location) :
    p.location workingDir = q.location workingDir := by
  rw [location_eq_foldl, location_eq_foldl, origin, origin, h.isAbsolute, h.names]

/-- Without steps back the names of a path are the steps to its place; a dot is none. -/
theorem foldl_step_of_forward {ns : List String} (h : ".." ∉ ns) (hv : "" ∉ ns) (loc : Location) :
    ns.foldl Location.step loc = loc ++ ns.filter (· ≠ ".") := by
  induction ns generalizing loc with
  | nil => simp
  | cons n ns ih =>
    rw [List.mem_cons, not_or] at h hv
    rw [List.foldl_cons, ih h.2 hv.2]
    by_cases hdot : n = "."
    · simp [Location.step, isVacant, hdot]
    · have hstep : loc.step n = loc ++ [n] := by
        simp [Location.step, isVacant, hdot, Ne.symm h.1, Ne.symm hv.1]
      rw [hstep, List.filter_cons_of_pos (by simpa using hdot), List.append_assoc, List.singleton_append]

theorem mem_parts_of_mem_names {p : Path} {n : String} (h : n ∈ p.names) : n ∈ p.parts ∧ n ≠ "" := by
  obtain ⟨first, rest, hp, -, -⟩ := p.exists_parts
  rw [names, hp, namesOf, List.mem_append] at h
  rw [hp]
  rcases h with h | h
  · by_cases hempty : first = ""
    · simp [hempty] at h
    · rw [if_neg (by simpa using hempty), List.mem_singleton] at h
      exact ⟨h ▸ List.mem_cons_self, h ▸ hempty⟩
  · rw [List.mem_filter] at h
    refine ⟨List.mem_cons_of_mem _ h.1, ?_⟩
    rintro rfl
    simp [isVacant] at h

theorem mem_names_of_mem_parts {p : Path} {n : String} (h : n ∈ p.parts) (hv : isVacant n = false) : n ∈ p.names := by
  obtain ⟨first, rest, hp, -, -⟩ := p.exists_parts
  rw [hp] at h
  rw [names, hp, namesOf, List.mem_append]
  rcases List.mem_cons.1 h with rfl | h
  · have hempty : n.isEmpty = false := by
      rw [isVacant, Bool.or_eq_false_iff] at hv
      exact hv.1
    left
    simp [hempty]
  · exact .inr (List.mem_filter.2 ⟨h, by simp [hv]⟩)

theorem location_eq {p : Path} (h : ".." ∉ p.parts) (workingDir : Location) :
    p.location workingDir = p.origin workingDir ++ p.names.filter (· ≠ ".") := by
  rw [location_eq_foldl]
  exact foldl_step_of_forward (fun hn => h (mem_parts_of_mem_names hn).1) (fun hn => (mem_parts_of_mem_names hn).2 rfl) _

theorem forward_of_mem_upward {start d : Path} (h : ".." ∉ start.parts) (hd : d ∈ start.upward) : ".." ∉ d.parts := by
  intro hdots
  have hnames := mem_names_of_mem_parts hdots (by decide)
  exact h (mem_parts_of_mem_names ((names_prefix_of_mem_upward hd).subset hnames)).1

section

variable {start d : Path} (h : ".." ∉ start.parts) (workingDir : Location)

include h

theorem location_of_mem_upward (hd : d ∈ start.upward) :
    d.location workingDir = start.origin workingDir ++ d.names.filter (· ≠ ".") := by
  have hinit := (names_prefix_of_mem_upward hd).subset
  have horigin : d.origin workingDir = start.origin workingDir := by
    rw [origin, origin, isAbsolute_of_mem_upward hd]
  rw [location_eq_foldl, horigin]
  exact foldl_step_of_forward (fun hn => h (mem_parts_of_mem_names (hinit hn)).1)
    (fun hn => (mem_parts_of_mem_names hn).2 rfl) _

/-- The way up from a path goes through all places between its own and the one that it starts at. -/
theorem mem_locations_upward_iff {loc : Location} :
    (∃ d ∈ start.upward, d.location workingDir = loc) ↔
      start.origin workingDir <+: loc ∧ loc <+: start.location workingDir := by
  constructor
  · rintro ⟨d, hd, rfl⟩
    rw [location_of_mem_upward h workingDir hd, location_eq h]
    refine ⟨List.prefix_append _ _, (List.prefix_append_right_inj _).2 ?_⟩
    exact (names_prefix_of_mem_upward hd).filter _
  · rintro ⟨⟨ns, rfl⟩, hloc⟩
    rw [location_eq h, List.prefix_append_right_inj] at hloc
    obtain ⟨rest, hrest⟩ := hloc
    obtain ⟨ns', rest', hnames, rfl, -⟩ := List.filter_eq_append_iff.1 hrest.symm
    obtain ⟨d, hd, hdnames⟩ := exists_mem_upward (p := start) ⟨rest', hnames.symm⟩
    exact ⟨d, hd, by rw [location_of_mem_upward h workingDir hd, hdnames]⟩

end

/-- The paths from one up are found by taking its names away from the end one by one, until the root or the empty path
is left, and so they lead to all places on the way. -/
structure WayUp (start : Path) (way : List Path) : Prop where
  head : way.head? = some start
  names : way.map Path.names = start.names.inits.reverse
  isAbsolute : ∀ d ∈ way, d.isAbsolute = start.isAbsolute
  top : ∃ top, way.getLast? = some top ∧ top.names = [] ∧ (start.isAbsolute = false → top = ⟨""⟩)
  locations : ∀ workingDir loc, (∃ d ∈ way, d.location workingDir = loc) ↔
    start.origin workingDir <+: loc ∧ loc <+: start.location workingDir

theorem wayUp_upward {start : Path} (h : ".." ∉ start.parts) : WayUp start start.upward where
  head := rfl
  names := map_names_upward start
  isAbsolute _ := isAbsolute_of_mem_upward
  top := exists_getLast?_upward start
  locations workingDir _ := mem_locations_upward_iff h workingDir

/-! ### The directory of a file -/

/-- The path above a name in a directory is that of the directory, perhaps in another spelling. -/
theorem exists_parent?_join {name : String} (h : IsFileName name) (d : Path) :
    ∃ base, (d.join name).parent? = some base ∧ base.Same d := by
  obtain ⟨ps, hparts, hjoin, habsolute⟩ := exists_parts_join h d
  have hv : isVacant name = false := by simp [isVacant, h.2.1, h.2.2.1]
  cases ps with
  | nil =>
    -- there is a part, and a path of one empty part is empty
    have hempty : d.parts = [""] := hparts.resolve_left d.parts_ne_nil
    obtain rfl : d = ⟨""⟩ := by
      rw [d.eq_intercalate, hempty]
      rfl
    refine ⟨⟨""⟩, ?_, ⟨rfl, rfl⟩⟩
    rw [parent?, parents, hjoin]
    simp [parentsOf, h.2.1]
  | cons first rest =>
    have hslash : ∀ part ∈ first :: (rest ++ [name]), '/' ∉ part.toList := fun part hpart =>
      slash_not_mem_of_mem_parts (p := d.join name) (hjoin ▸ hpart)
    rw [List.forall_mem_cons] at hslash
    have hrest : ∀ part ∈ rest.reverse.dropWhile isVacant, '/' ∉ part.toList := fun part hpart =>
      hslash.2 part (List.mem_append_left _ (List.mem_reverse.1 ((List.dropWhile_sublist isVacant).mem hpart)))
    have hnames : d.names = namesOf (first :: rest) := by
      rcases hparts with hparts | hparts
      · rw [names, hparts]
      · rw [names, hparts, List.cons_append, namesOf_concat, if_pos (by decide), List.append_nil]
    refine ⟨ofReverseParts first (rest.reverse.dropWhile isVacant), ?_, ?_, ?_⟩
    · rw [parent?, parents, hjoin, List.cons_append]
      dsimp only
      rw [List.reverse_append, List.reverse_singleton, List.singleton_append, parentsOf, if_neg (by simp [hv]),
        List.head?_cons]
    · rw [isAbsolute_ofReverseParts hslash.1, ← habsolute, isAbsolute_eq hjoin]
      simp
    · rw [names_ofReverseParts hslash.1 hrest, namesOf_dropWhile, List.reverse_reverse, hnames]

end ShapeBindings.Path
