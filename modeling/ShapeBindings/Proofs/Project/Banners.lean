import ShapeBindings.Project.Command
import ShapeBindings.Proofs.Calendar.Texts
import ShapeBindings.Proofs.Project.Loaded
import ShapeBindings.Proofs.Unit.Preamble

/-!
# Which banners are comments

* `ContinuesComment label`: what stands on a line of its own in a label starts a comment;
* `isComment_unlines`: a text is a comment if its lines are, split wherever they have line feeds;
* `isComment_banner_iff`: a banner is a comment just when the labels in it continue one, for it quotes them as they are.

The time and the name of a module have no line feeds, so only the label of the source and the name of the user matter.
-/

namespace ShapeBindings

open Text

theorem startsComment_iff {line : String} : StartsComment line ↔ "//".toList <+: line.toList :=
  ⟨fun ⟨text, h⟩ => ⟨text, h.symm⟩, fun ⟨text, h⟩ => ⟨text, h.symm⟩⟩

instance (line : String) : Decidable (StartsComment line) := decidable_of_iff _ startsComment_iff.symm

/-- A text of which each line is a comment. -/
def IsComment (text : String) : Prop := ∀ l ∈ lines text.toList, StartsComment (String.ofList l)

instance (text : String) : Decidable (IsComment text) :=
  inferInstanceAs (Decidable (∀ l ∈ lines text.toList, StartsComment (String.ofList l)))

/-- A label that can be quoted in a comment: what follows its line feeds starts comments. -/
def ContinuesComment (label : String) : Prop := ∀ l ∈ (splitLines label).tail, StartsComment l

instance (label : String) : Decidable (ContinuesComment label) :=
  inferInstanceAs (Decidable (∀ l ∈ (splitLines label).tail, StartsComment l))

/-- The texts from outside that the line about an origin quotes. -/
def Origin.labels : Origin → List String
  | .table source => [source]
  | .template => []

/-! ### Lines that are comments -/

theorem startsComment_chomp {l : List Char} :
    StartsComment (String.ofList (chomp l)) ↔ StartsComment (String.ofList l) := by
  simp only [startsComment_iff, String.toList_ofList]
  constructor
  · intro h
    obtain ⟨b, -, hb⟩ := exists_chomp l
    rw [hb]
    exact h.trans (List.prefix_append _ _)
  · rintro ⟨rest, rfl⟩
    rw [chomp_append (by decide)]
    exact List.prefix_append _ _

theorem lines_append_singleton (s : List Char) : lines (s ++ ['\n']) = (s.splitOn '\n').map chomp := by
  induction hn : s.length using Nat.strong_induction_on generalizing s with
  | _ n ih =>
    subst hn
    by_cases hs : '\n' ∈ s
    · obtain ⟨a, b, ha, rfl⟩ := exists_newline_split hs
      rw [List.append_assoc, List.cons_append, lines_append_newline ha, List.splitOn_append_cons_self_of_not_mem ha,
        List.map_cons, ih b.length (by simp; omega) b rfl]
    · rw [lines_append_newline hs, List.splitOn_eq_singleton hs]
      rfl

theorem isComment_unlines {ls : List String} :
    IsComment (unlines ls) ↔ ∀ l ∈ ls, ∀ part ∈ splitLines l, StartsComment part := by
  induction ls with
  | nil => simp [IsComment, unlines, lines]
  | cons l ls ih =>
    have hlines : lines (unlines (l :: ls)).toList =
        (l.toList.splitOn '\n').map chomp ++ lines (unlines ls).toList := by
      rw [toList_unlines_cons, List.append_cons, lines_append (.inr ⟨_, rfl⟩), lines_append_singleton]
    rw [List.forall_mem_cons, ← ih, IsComment, hlines, List.forall_mem_append]
    refine and_congr ?_ Iff.rfl
    simp only [splitLines, List.forall_mem_map, startsComment_chomp]

theorem forall_splitLines_of_oneLine {l : String} (h : OneLine l) :
    (∀ part ∈ splitLines l, StartsComment part) ↔ StartsComment l := by
  rw [splitLines_of_oneLine h, List.forall_mem_singleton]

/-! ### Lines with labels -/

theorem startsComment_append_dot {u : String} : StartsComment (u ++ ".") ↔ StartsComment u := by
  have hdot : (u ++ ".").toList = u.toList ++ ['.'] := String.toList_append
  rw [startsComment_iff, startsComment_iff, hdot, List.prefix_concat_iff]
  refine or_iff_right fun h => ?_
  have hlast := congrArg List.getLast? h
  rw [List.getLast?_concat] at hlast
  revert hlast
  decide

/-- A label that stands in a comment, before a full stop. -/
theorem forall_splitLines_quoted {opening : String} (hone : OneLine opening) (hstart : StartsComment opening)
    (label : String) :
    (∀ part ∈ splitLines (opening ++ label ++ "."), StartsComment part) ↔ ContinuesComment label := by
  obtain ⟨us, u, hlabel, hdot⟩ := splitOn_append_right (x := '\n') (a := ['.']) (by decide) label.toList
  obtain ⟨w, ws, hsplit, hopening⟩ := splitOn_append_of_not_mem hone (label.toList ++ ['.'])
  have htext : (opening ++ label ++ ".").toList = opening.toList ++ (label.toList ++ ['.']) := by
    rw [String.toList_append, String.toList_append, List.append_assoc]
    rfl
  rw [ContinuesComment, splitLines, splitLines, htext, hopening, hlabel]
  rw [hdot] at hsplit
  -- the first part stands behind the opening, the last one before the full stop
  cases us with
  | nil =>
    obtain ⟨rfl, rfl⟩ := List.cons.inj hsplit
    simp [hstart.append]
  | cons v vs =>
    obtain ⟨rfl, rfl⟩ := List.cons.inj hsplit
    simp [hstart.append, or_imp, forall_and, startsComment_append_dot]

/-! ### Banners -/

theorem oneLine_render (t : CivilTime) : OneLine t.render := by
  have hdigits : ∀ width n : ℕ, '\n' ∉ (CivilTime.padded width n).toList := by
    intro width n h
    have hdigit := CivilTime.isDigit_of_mem_padded h
    revert hdigit
    decide
  rw [OneLine, CivilTime.toList_render]
  simp [hdigits]

/-- The lines of a banner without its labels. -/
theorem oneLine_bareBanner {name : String} (hname : OneLine name) :
    ∀ l ∈ bannerLines name (.table "") ⟨"", ""⟩, OneLine l :=
  oneLine_bannerLines hname (by decide) (by decide) (by decide)

theorem of_mem_bannerLines {name : String} {origin : Origin} {provenance : Provenance} {l : String}
    (h : l ∈ bannerLines name origin provenance) :
    l ∈ bannerLines name (.table "") ⟨"", ""⟩ ∨ l = origin.line ∨ l = provenance.line := by
  by_cases hlabelled : l = origin.line ∨ l = provenance.line
  · exact .inr hlabelled
  · obtain ⟨horigin, hprovenance⟩ := not_or.1 hlabelled
    simp only [bannerLines, List.mem_cons, List.not_mem_nil, or_false, horigin, hprovenance, false_or] at h ⊢
    rcases h with h | h | h | h | h | h <;> simp only [h, true_or, or_true]

theorem isComment_originLine (origin : Origin) :
    (∀ part ∈ splitLines origin.line, StartsComment part) ↔ ∀ label ∈ origin.labels, ContinuesComment label := by
  cases origin with
  | table source =>
    have hname : OneLine "" := by decide
    have hline : OneLine (Origin.table "").line := oneLine_bareBanner hname _ (by simp [bannerLines])
    have hopening : OneLine "// This file is automatically generated from " := (oneLine_append.1 (oneLine_append.1 hline).1).1
    rw [Origin.labels, List.forall_mem_singleton]
    exact forall_splitLines_quoted hopening ⟨_, rfl⟩ source
  | template =>
    have hone : OneLine Origin.template.line := by decide
    rw [forall_splitLines_of_oneLine hone]
    exact iff_of_true ⟨_, rfl⟩ (by simp [Origin.labels])

theorem isComment_provenanceLine (secs : Int) (user : String) :
    (∀ part ∈ splitLines (Provenance.atTime secs user).line, StartsComment part) ↔ ContinuesComment user := by
  have hone : OneLine ("// " ++ provenanceMarker ++ " " ++ (Provenance.atTime secs user).generatedAt ++ " by user ") := by
    have htime : OneLine (Provenance.atTime secs user).generatedAt := oneLine_render _
    simp only [oneLine_append, htime, and_true]
    decide
  exact forall_splitLines_quoted hone (.append (.append (.append (.append ⟨_, rfl⟩ _) _) _) _) user

/-- What the labels of a banner must be like, whatever its module is called. -/
theorem IsComment.continuesComment {name user : String} {origin : Origin} {secs : Int}
    (h : IsComment (banner name origin (.atTime secs user))) :
    ∀ label ∈ origin.labels ++ [user], ContinuesComment label := by
  rw [banner, isComment_unlines] at h
  rw [List.forall_mem_append, List.forall_mem_singleton, ← isComment_originLine, ← isComment_provenanceLine secs]
  exact ⟨h _ (by simp [bannerLines]), h _ (by simp [bannerLines])⟩

/-- **A banner is a comment just when its labels let it be one.**  For a module of a source, any origin, any time and any
environment, each line of the banner starts with two slashes exactly if, in the label of the source and in the name of
the user, whatever follows a line feed starts with two slashes. -/
theorem isComment_banner_iff {t : Table} (ht : t.OfSource) {m : Module} (hm : m ∈ t.modules) (origin : Origin)
    (secs : Int) (user username : Option String) :
    IsComment (banner m.name origin (.atTime secs (userName user username))) ↔
      ∀ label ∈ origin.labels ++ [userName user username], ContinuesComment label := by
  refine ⟨IsComment.continuesComment, fun h => ?_⟩
  rw [List.forall_mem_append, List.forall_mem_singleton, ← isComment_originLine, ← isComment_provenanceLine secs] at h
  obtain ⟨horigin, huser⟩ := h
  have hname : OneLine m.name := oneLine_of_isIdentifier (ht.wellFormed.modules m hm).name
  rw [banner, isComment_unlines]
  intro l hl
  rcases of_mem_bannerLines hl with hbare | rfl | rfl
  · exact (forall_splitLines_of_oneLine (oneLine_bareBanner hname l hbare)).2 (startsComment_of_mem_bannerLines hbare)
  · exact horigin
  · exact huser

/-- A table with a module that has no functions. -/
def sectionTable : Table := ⟨[⟨"m", []⟩]⟩

theorem ofSource_sectionTable : sectionTable.OfSource := by
  have hparse : Header.parse "p_" "LIBFIVE_SECTION(m)" = .ok sectionTable := by decide +kernel
  exact .header hparse

theorem isComment_banner_iff_section :
    sectionTable.OfSource ∧ (⟨"m", []⟩ : Module) ∈ sectionTable.modules ∧
      IsComment (banner "m" (.table "stdlib.h") (.atTime 0 (userName none (some "me")))) := by
  have hm : (⟨"m", []⟩ : Module) ∈ sectionTable.modules := List.mem_cons_self
  exact ⟨ofSource_sectionTable, hm,
    (isComment_banner_iff ofSource_sectionTable hm _ 0 none (some "me")).2 (by decide +kernel)⟩

/-- A project with a header whose path has a line feed. -/
def brokenPathText : String := "[source]\nheader=\"a\\nb\"\n[output]\ntext=false\ndefault-convention=\"free\"\n"

def brokenPathConfig : Config where
  source := .header "a\nb"
  output := { text := false, defaultConvention := some .free }

/-- What follows a line feed in a path or in the name of a user is no comment. -/
theorem line_feeds_leave_banners :
    Config.parse brokenPathText = .ok brokenPathConfig ∧ sectionTable.OfSource ∧ ∃ m ∈ sectionTable.modules,
      ¬ IsComment (banner m.name (.table brokenPathConfig.sourceLabel) (.atTime 0 (userName none none))) ∧
      ¬ IsComment (banner m.name .template (.atTime 0 (userName (some "a\nb") none))) := by
  have hparse : Config.parse brokenPathText = .ok brokenPathConfig := by decide +kernel
  have hbroken : ¬ ContinuesComment "a\nb" := by decide +kernel
  refine ⟨hparse, ofSource_sectionTable, _, List.mem_cons_self, fun h => ?_, fun h => ?_⟩
  · exact hbroken (h.continuesComment _ List.mem_cons_self)
  · exact hbroken (h.continuesComment _ List.mem_cons_self)

end ShapeBindings
