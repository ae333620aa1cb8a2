import Mathlib.Data.List.Infix
import ShapeBindings.Plan
import ShapeBindings.Proofs.Steps
import ShapeBindings.Proofs.Text.Splitting

/-!
# What a provenance changes

The provenance of a run is in one line of each unit and nowhere else: two runs with different ones fail alike, or make
units that are the same but for that line (`units_provenance_congr`).  So the units are the same without the lines that
have the marker (`SameButProvenance.unmarked_eq`).
-/

namespace ShapeBindings

open Text

/-! ### The line of a provenance -/

/-- A provenance of texts without line feeds. -/
structure Provenance.IsOneLine (p : Provenance) : Prop where
  generatedAt : OneLine p.generatedAt
  user : OneLine p.user

namespace Provenance

variable {p : Provenance}

theorem line_eq (p : Provenance) :
    p.line = "// " ++ provenanceMarker ++ " " ++ p.generatedAt ++ " by user " ++ p.user ++ "." := rfl

theorem oneLine_line (hp : p.IsOneLine) : OneLine p.line := by
  simp only [line_eq, oneLine_append, hp.generatedAt, hp.user, and_true]
  decide

theorem getLast?_line (p : Provenance) : p.line.toList.getLast? = some '.' := by
  rw [line_eq, String.toList_append]
  exact List.getLast?_concat

theorem marker_infix_line (p : Provenance) : provenanceMarker.toList <:+: p.line.toList := by
  refine ⟨"// ".toList, (" " ++ p.generatedAt ++ " by user " ++ p.user ++ ".").toList, ?_⟩
  simp only [line_eq, String.toList_append, List.append_assoc]

end Provenance

/-! ### Units that differ in one line -/

/-- The lines of a text that do not have the marker of provenances. -/
def unmarkedLines (text : String) : List (List Char) :=
  (lines text.toList).filter fun l => ¬ provenanceMarker.toList <:+: l

/-- A unit without the lines that have the marker of provenances. -/
def SourceUnit.unmarked (u : SourceUnit) : SourceUnit :=
  { u with source := unlines ((unmarkedLines u.source).map String.ofList) }

/-- Two units that are the same but for the last line but one of their banners, which is that of the provenance. -/
structure SameButProvenance (origin : Origin) (p q : Provenance) (u v : SourceUnit) : Prop where
  moduleName : u.moduleName = v.moduleName
  convention : u.convention = v.convention
  functionCount : u.functionCount = v.functionCount
  source : ∃ before after,
    lines (banner u.moduleName origin p).toList = before ++ [p.line.toList, "//".toList] ∧
      lines (banner u.moduleName origin q).toList = before ++ [q.line.toList, "//".toList] ∧
      lines u.source.toList = before ++ p.line.toList :: "//".toList :: after ∧
      lines v.source.toList = before ++ q.line.toList :: "//".toList :: after

namespace SameButProvenance

variable {origin : Origin} {p q : Provenance} {u v : SourceUnit}

theorem unmarkedLines_eq (h : SameButProvenance origin p q u v) : unmarkedLines u.source = unmarkedLines v.source := by
  obtain ⟨before, after, -, -, hu, hv⟩ := h.source
  have hdrop : ∀ (r : Provenance) (ls : List (List Char)),
      (r.line.toList :: ls).filter (fun l => ¬ provenanceMarker.toList <:+: l) =
        ls.filter fun l => ¬ provenanceMarker.toList <:+: l := by
    intro r ls
    exact List.filter_cons_of_neg (by simp [r.marker_infix_line])
  unfold unmarkedLines
  rw [hu, hv, List.filter_append, List.filter_append, hdrop, hdrop]

theorem unmarked_eq (h : SameButProvenance origin p q u v) : u.unmarked = v.unmarked := by
  unfold SourceUnit.unmarked
  rw [h.unmarkedLines_eq, h.moduleName, h.convention, h.functionCount]

end SameButProvenance

/-! ### What is written with a provenance -/

/-- The lines of a banner above that of the provenance. -/
def bannerHead (moduleName : String) (origin : Origin) : List String :=
  ["//", s!"// Rust API for the libfive standard library's '{moduleName}' module.", "//", "// DO NOT EDIT BY HAND!",
    origin.line, "//"]

theorem bannerLines_eq (moduleName : String) (origin : Origin) (p : Provenance) :
    bannerLines moduleName origin p = bannerHead moduleName origin ++ [p.line, "//"] := rfl

/-- The lines of a text that starts with a banner. -/
theorem lines_bannerLines_append {p : Provenance} (hp : p.IsOneLine) (moduleName : String) (origin : Origin)
    (rest : List String) :
    lines (unlines (bannerLines moduleName origin p ++ rest)).toList =
      lines (unlines (bannerHead moduleName origin)).toList ++
        p.line.toList :: "//".toList :: lines (unlines rest).toList := by
  have hlast : p.line.toList.getLast? ≠ some '\r' := by simp [p.getLast?_line]
  rw [bannerLines_eq, List.append_assoc, lines_unlines_append, List.cons_append,
    lines_unlines_cons (Provenance.oneLine_line hp) hlast, List.cons_append, lines_unlines_cons (by decide) (by decide),
    List.nil_append]

/-- Units that are written alike, below banners with two provenances. -/
theorem sameButProvenance_of_lines {p q : Provenance} (hp : p.IsOneLine) (hq : q.IsOneLine) (origin : Origin)
    (rest : List String) (moduleName : String) (convention : Option Convention) (functionCount : Nat) :
    SameButProvenance origin p q
      ⟨moduleName, convention, functionCount, unlines (bannerLines moduleName origin p ++ rest)⟩
      ⟨moduleName, convention, functionCount, unlines (bannerLines moduleName origin q ++ rest)⟩ := by
  have hbanner : ∀ r : Provenance, r.IsOneLine → lines (banner moduleName origin r).toList =
      lines (unlines (bannerHead moduleName origin)).toList ++ [r.line.toList, "//".toList] := by
    intro r hr
    have hnil : lines (unlines []).toList = [] := rfl
    have hlines := lines_bannerLines_append hr moduleName origin []
    rwa [List.append_nil, hnil] at hlines
  constructor
  case moduleName => rfl
  case convention => rfl
  case functionCount => rfl
  case source =>
    dsimp only
    refine ⟨lines (unlines (bannerHead moduleName origin)).toList, lines (unlines rest).toList, ?_⟩
    exact ⟨hbanner p hp, hbanner q hq, lines_bannerLines_append hp moduleName origin rest,
      lines_bannerLines_append hq moduleName origin rest⟩

/-- The settings of a run with a provenance. -/
def UnitOptions.stamped (options : UnitOptions) (p : Provenance) : UnitOptions := { options with provenance := p }

section Runs

variable (options : UnitOptions) {p q : Provenance} (hp : p.IsOneLine) (hq : q.IsOneLine)
include hp hq

theorem unit_provenance_congr (m : Module) (convention : Convention) :
    Alike (SameButProvenance (.table options.source) p q) (m.unit convention (options.stamped p))
      (m.unit convention (options.stamped q)) := by
  -- the wrappers are made without the provenance
  have hunit : ∀ r : Provenance, m.unit convention (options.stamped r) =
      (m.functions.mapM fun d : Descriptor => d.wrapper convention options.naming).map fun wrappers =>
        ⟨m.name, some convention, m.size, unlines (m.unitLines convention (options.stamped r) wrappers)⟩ := by
    intro r
    have hassemble : m.assemble convention (options.stamped r) =
        (m.functions.mapM fun d : Descriptor => d.wrapper convention options.naming) >>= fun wrappers =>
          .ok (unlines (m.unitLines convention (options.stamped r) wrappers)) := rfl
    rw [Module.unit, hassemble]
    generalize (m.functions.mapM fun d : Descriptor => d.wrapper convention options.naming) = made
    cases made <;> rfl
  rw [hunit p, hunit q]
  refine (Alike.same (R := Eq) (fun _ => rfl) _).map ?_
  rintro wrappers _ rfl
  have hlines : ∀ r : Provenance, m.unitLines convention (options.stamped r) wrappers =
      bannerLines m.name (.table options.source) r ++
        (importLines options.importRoot (m.imports convention) ++
          ["", Module.headingLine m.name, s!"impl {treeType} \x7b"] ++ wrappers.flatMap ("" :: ·) ++ ["\x7d"]) := by
    intro r
    simp only [Module.unitLines, UnitOptions.stamped, List.append_assoc]
  rw [hlines p, hlines q]
  exact sameButProvenance_of_lines hp hq _ _ _ _ _

theorem textUnit_provenance_congr :
    SameButProvenance .template p q (textUnit (options.stamped p)) (textUnit (options.stamped q)) := by
  have htext : ∀ r : Provenance, textUnit (options.stamped r) =
      ⟨textModuleName, none, 1, unlines (bannerLines textModuleName .template r ++
        (importLines options.importRoot ["sys", treeType, "TreeVec2"] ++ "" :: textModuleLines))⟩ := fun _ => rfl
  rw [htext p, htext q]
  exact sameButProvenance_of_lines hp hq _ _ _ _ _

theorem unit?_provenance_congr (plan : Plan) (m : Module) :
    Alike (Option.Rel (SameButProvenance (.table options.source) p q)) (plan.unit? (options.stamped p) m)
      (plan.unit? (options.stamped q) m) := by
  unfold Plan.unit?
  cases plan.convention? m.name with
  | none => exact .ok .none
  | some convention => exact (unit_provenance_congr options hp hq m convention).map fun _ _ h => .some h

theorem alike_units (plan : Plan) (t : Table) :
    Alike (List.Forall₂ (SameButProvenance (.table options.source) p q)) (plan.units t (options.stamped p))
      (plan.units t (options.stamped q)) := by
  unfold Plan.units
  refine (Alike.same (R := Eq) (fun _ => rfl) options.naming.validate).bind ?_
  intro _ _ _
  refine (Alike.mapM fun m _ => unit?_provenance_congr options hp hq plan m).bind ?_
  intro us vs h
  exact .ok (List.rel_filterMap (fun _ _ h => h) h)

/-- **A provenance is in one line of each unit.**  Two runs for a table under a plan fail in the same way whatever their
provenances are, or make units of the same modules that are the same line by line, but for the line of the banner that
holds the provenance; and so it is with the unit that is written by hand.  Without the lines that have the marker, both
runs give the same. -/
theorem units_provenance_congr (plan : Plan) (t : Table) :
    Alike (List.Forall₂ (SameButProvenance (.table options.source) p q)) (plan.units t (options.stamped p))
        (plan.units t (options.stamped q)) ∧
      SameButProvenance .template p q (textUnit (options.stamped p)) (textUnit (options.stamped q)) ∧
      (plan.units t (options.stamped p)).map (·.map SourceUnit.unmarked) =
        (plan.units t (options.stamped q)).map (·.map SourceUnit.unmarked) ∧
      (textUnit (options.stamped p)).unmarked = (textUnit (options.stamped q)).unmarked := by
  have htable := alike_units options hp hq plan t
  have htext := textUnit_provenance_congr options hp hq
  refine ⟨htable, htext, htable.map_eq_map fun us vs h => ?_, htext.unmarked_eq⟩
  rw [← List.forall₂_eq_eq_eq, List.forall₂_map_left_iff, List.forall₂_map_right_iff]
  exact h.imp fun _ _ hunit => hunit.unmarked_eq

end Runs

/-- A function whose documentation has the marker, and one without documentation. -/
def markedTable : Table :=
  .ofList [
    ⟨"circle", "p_circle", "shapes", [⟨"r", "tfloat", 0⟩], some "It was last generated on paper."⟩,
    ⟨"union", "p_union", "csg", [⟨"a", "libfive_tree", 0⟩], none⟩]

theorem units_provenance_congr_marked :
    let plan : Plan := ({} : Plan).withFallback .receiver |>.assign "shapes" .free
    let early : UnitOptions := ⟨"f", none, .standard, ⟨"2020-01-01 00:00:00", "a"⟩⟩
    let late : UnitOptions := ⟨"f", none, .standard, ⟨"2024-02-02 02:02:02", "b c"⟩⟩
    (plan.units markedTable early).toOption.isSome = true ∧
      (plan.units markedTable early).toOption ≠ (plan.units markedTable late).toOption ∧
      (plan.units markedTable early).map (·.map SourceUnit.unmarked) =
        (plan.units markedTable late).map (·.map SourceUnit.unmarked) := by
  intro plan early late
  refine ⟨by decide +kernel, by decide +kernel, ?_⟩
  exact (units_provenance_congr early (p := early.provenance) (q := late.provenance) ⟨by decide, by decide⟩
    ⟨by decide, by decide⟩ plan markedTable).2.2.1

end ShapeBindings
