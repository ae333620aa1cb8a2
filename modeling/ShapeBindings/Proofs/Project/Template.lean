import ShapeBindings.Project.Command
import ShapeBindings.Proofs.Project.Job
import ShapeBindings.Proofs.Steps
import ShapeBindings.Proofs.Toml.Documents
import ShapeBindings.Proofs.Toml.Tables

/-!
# The configuration that a project starts with

The path of the header stands in the template as it is, without escapes.

* `parse_template`: the template is read as the first configuration, for the text that is read from the quote with the path;
* `isPlain_of_parse_template`: that text is the path only if the path is plain;
* `init_reads_back_iff`: what a new project finds in its file.
-/

namespace ShapeBindings

open Toml

namespace Config

/-- The lines of the first configuration behind the one for the header. -/
def furtherLines : List PlainLine :=
  [.text "symbol-prefix" "libfivestd_",
   .empty,
   .header [] "output",
   .text "dir" "stdlib",
   .text "import-root" "crate",
   .boolean "text" true,
   .empty,
   .header [] "modules",
   .text "csg" "receiver",
   .text "transforms" "receiver",
   .text "shapes" "free",
   .text "generators" "free",
   .empty,
   .header ["naming"] "renames",
   .text "move" "moveit"]

/-- The configuration that a project starts with, for a header. -/
def starting (header : String) : Config where
  source := .header header
  symbolPrefix := "libfivestd_"
  output := { dir := "stdlib", importRoot := some "crate", text := true }
  modules := .ofList
    [("csg", .receiver), ("transforms", .receiver), ("shapes", .free), ("generators", .free)]
  naming := ⟨.ofList [("move", "moveit")]⟩

/-- What the template has from the header on. -/
def behindQuote (header : String) : List Char :=
  header.toList ++ ['"'] ++ '\n' :: PlainLine.renderLines furtherLines

theorem toList_template (header : String) : (template header).toList = openingText "source" "header" (behindQuote header) := by
  have hfurther : ∀ ls : List PlainLine,
      (Text.unlines (ls.map fun l => String.ofList l.render)).toList = PlainLine.renderLines ls := by
    intro ls
    induction ls with
    | nil => rfl
    | cons l ls ih =>
      rw [List.map_cons, Text.toList_unlines_cons, ih, PlainLine.renderLines_cons, String.toList_ofList]
  have htemplate : template header = Text.unlines ("[source]" :: ("header = \"" ++ header ++ "\"") ::
      furtherLines.map fun l => String.ofList l.render) := rfl
  rw [htemplate, Text.toList_unlines_cons, Text.toList_unlines_cons, hfurther]
  simp [openingText, behindQuote]

/-- The template is read as the first configuration for the text that is read from its quote. -/
theorem parse_template {header v : String} (h : quotedString ('"' :: behindQuote header) =
    some (v, '\n' :: PlainLine.renderLines furtherLines)) : parse (template header) = .ok (starting v) := by
  have hsound : ∀ l ∈ furtherLines, l.Sound := by decide
  rw [parse, parse?_openingText (by decide) (by decide) (toList_template header) hsound h]
  rfl

theorem parse_template_of_isPlain {header : String} (h : IsPlain header.toList) :
    parse (template header) = .ok (starting header) := by
  have hquoted := quotedString_quote h (s := '\n' :: PlainLine.renderLines furtherLines) (by simp)
  rw [String.ofList_toList] at hquoted
  refine parse_template ?_
  rw [behindQuote, List.append_assoc]
  exact hquoted

/-! ### What any configuration of the template says -/

theorem header_of_decode? {es : Entries} {stated : StatedConfig} {v : String} (h : StatedConfig.decode? es = some stated)
    (hs : Says ["source", "header"] v es) : stated.source.header = some v := by
  cases hs with
  | @inside _ _ _ _ sub form hsource hsub =>
    cases hsub with
    | inside _ hnone => cases hnone
    | entry hheader =>
      unfold StatedConfig.decode? at h
      obtain ⟨source, hs, h⟩ := Option.bind_eq_some_iff.1 h
      obtain ⟨output, -, h⟩ := Option.bind_eq_some_iff.1 h
      obtain ⟨modules, -, h⟩ := Option.bind_eq_some_iff.1 h
      obtain ⟨naming, -, h⟩ := Option.bind_eq_some_iff.1 h
      cases h
      obtain ⟨w, hw, hread⟩ := exists_of_required hs
      rw [hsource] at hw
      cases hw
      obtain ⟨found, hfound, hread⟩ := Option.bind_eq_some_iff.1 hread
      obtain ⟨table, -, hread⟩ := Option.bind_eq_some_iff.1 hread
      obtain ⟨symbolPrefix, -, hread⟩ := Option.bind_eq_some_iff.1 hread
      cases hread
      exact (eq_of_optional hfound hheader).1.symm

theorem source_of_ofStated {stated : StatedConfig} {c : Config} {v : String} (h : ofStated stated = .ok c)
    (hv : stated.source.header = some v) : c.source = .header v := by
  obtain ⟨source, hsource, h⟩ := exists_of_bind_eq_ok h
  obtain ⟨-, -, h⟩ := exists_of_bind_eq_ok h
  cases h
  rw [StatedSource.source, hv] at hsource
  cases htable : stated.source.table with
  | some path =>
    rw [htable] at hsource
    cases hsource
  | none =>
    rw [htable] at hsource
    cases hsource
    rfl

/-- The header of a configuration is what its document says. -/
theorem exists_of_parse {text : String} {c : Config} (h : parse text = .ok c) :
    ∃ es, Toml.parse? text = some es ∧ ∀ v, Says ["source", "header"] v es → c.source = .header v := by
  unfold parse at h
  split at h
  · next stated hstated =>
    obtain ⟨es, hes, hdecode⟩ := Option.bind_eq_some_iff.1 hstated
    exact ⟨es, hes, fun v hv => source_of_ofStated h (header_of_decode? hdecode hv)⟩
  · cases h

/-- The source of a configuration from the template is the text that is read from its quote. -/
theorem exists_of_parse_template {header : String} {c : Config} (h : parse (template header) = .ok c) :
    ∃ v r, quotedString ('"' :: behindQuote header) = some (v, r) ∧ c.source = .header v := by
  obtain ⟨es, hes, hsource⟩ := exists_of_parse h
  obtain ⟨v, r, hquoted, hsays⟩ := says_of_parse? (by decide) (by decide) (toList_template header) hes
  exact ⟨v, r, hquoted, hsource v hsays⟩

theorem isPlain_of_parse_template {header : String} {c : Config} (h : parse (template header) = .ok c)
    (hlabel : c.sourceLabel = header) : IsPlain header.toList := by
  obtain ⟨v, r, hquoted, hsource⟩ := exists_of_parse_template h
  have hv : v = header := by rw [← hlabel, sourceLabel, hsource, Source.path]
  have hfurther : ¬ ['"', '"', '"'] <:+: PlainLine.renderLines furtherLines := by decide +kernel
  rw [behindQuote, List.append_assoc, hv] at hquoted
  refine isPlain_of_quotedString hfurther (r := r) ?_
  rw [String.ofList_toList]
  exact hquoted

end Config

/-! ### The first configuration of a project -/

section

variable {m m' : Machine}

theorem loadConfig_eq {path : Path} {text : String} {res : Except Failure (Config × Path)}
    (hread : (Disk.readText path : StateM Machine _) m = (.ok text, m))
    (h : (loadConfig path : Job (StateM Machine) _).Ends m res m') :
    res = ((Config.parse text).mapError (.badConfig path)).map (·, path.parent?.getD ⟨"."⟩) := by
  unfold loadConfig at h
  obtain ⟨content, m₁, hcontent, h⟩ := h.request_bind
  rw [hread] at hcontent
  cases hcontent
  rcases h.orFail_bind with ⟨e, he, -⟩ | ⟨_, htext, h⟩
  · cases he
  cases htext
  rcases h.orFail_bind with ⟨e, he, hres, -⟩ | ⟨c, hc, h⟩
  · rw [he, hres]
    rfl
  · rw [hc, h.pure_eq.1]
    rfl

/-- A configuration is never replaced. -/
theorem outcome_initProject (dir : Path) (header : String) (m : Machine) :
    (initProject dir header).outcome m =
      if (m.node? (dir.join configFileName)).isSome then (.error (.configExists (dir.join configFileName)), m)
      else
        let written := (Disk.write (dir.join configFileName) (Text.encode (Config.template header)) : StateM Machine _) m
        (written.1.mapError (.unwritableConfig (dir.join configFileName)), written.2) := by
  have h := Job.ends_outcome (initProject dir header) m
  generalize (initProject dir header).outcome m = out at h ⊢
  obtain ⟨res, m'⟩ := out
  dsimp only at h
  unfold initProject at h
  extract_lets path at h
  obtain ⟨there, m₀, hthere, h⟩ := h.request_bind
  obtain rfl : (m.node? path).isSome = there := congrArg Prod.fst hthere
  obtain rfl : m = m₀ := congrArg Prod.snd hthere
  split at h
  · next hsome =>
    rw [if_pos hsome]
    rcases h.bind_cases with ⟨e, rfl, he⟩ | ⟨_, _, hthrow, -⟩
    · obtain ⟨hres, rfl⟩ := he.throw_eq
      rw [hres]
    · cases hthrow.throw_eq.1
  · next hnone =>
    rw [if_neg hnone]
    obtain ⟨written, m₂, hm₂, h⟩ := h.request_bind
    rw [hm₂]
    rcases h.orFail_bind with ⟨e, rfl, rfl, rfl⟩ | ⟨_, rfl, hprint⟩
    · rfl
    · obtain ⟨rfl, rfl⟩ := hprint.printLine_bind.printLine_bind.print_eq
      rfl

end

namespace Config

section

variable {m m' : Machine} {dir : Path} {header : String}

/-- What is written by a project that starts. -/
theorem write_of_initProject (h : (initProject dir header).outcome m = (.ok (), m')) :
    m.node? (dir.join configFileName) = none ∧
      (Disk.write (dir.join configFileName) (Text.encode (template header)) : StateM Machine _) m = (.ok (), m') := by
  rw [outcome_initProject] at h
  split at h
  · cases h
  · next hfree =>
    refine ⟨by simpa using hfree, ?_⟩
    obtain ⟨hok, hm'⟩ := Prod.ext_iff.1 h
    exact Prod.ext (exists_of_mapError_eq_ok hok) hm'

theorem initProject_eq_ok (hdir : m.node? dir = some .dir) (hfree : m.node? (dir.join configFileName) = none)
    (hsize : (dir.join configFileName).text.utf8ByteSize ≤ FileTree.maxPathSize) (haccepted : m.faults m.requests = none)
    (header : String) : ∃ m', (initProject dir header).outcome m = (.ok (), m') := by
  obtain ⟨m', hwrite⟩ := Machine.exists_write_join (by unfold IsFileName; decide) (by decide) (by decide) hdir hfree hsize
    haccepted (Text.encode (template header))
  rw [outcome_initProject, hfree, hwrite]
  exact ⟨m', rfl⟩

/-- The configuration of a project that has started is what its text says. -/
theorem loadConfig_of_initProject (h : (initProject dir header).outcome m = (.ok (), m')) :
    ((loadConfig (dir.join configFileName)).outcome m').1 =
      ((parse (template header)).mapError (.badConfig (dir.join configFileName))).map
        (·, (dir.join configFileName).parent?.getD ⟨"."⟩) :=
  loadConfig_eq (Machine.hasFile_of_write (write_of_initProject h).2).2 (Job.ends_outcome _ m')

end

/-- **A first configuration reads back just for plain paths.**  A project starts, with any header, in any directory that has
no configuration, and only its new file changes.  If the header's path is plain, the file is read as the configuration that
a project starts with, which differs with the header in nothing else; otherwise it is not read at all, or as one with
another source. -/
theorem init_reads_back_iff (m : Machine) (dir : Path) (header : String) :
    (m.node? dir = some .dir → m.node? (dir.join configFileName) = none →
      (dir.join configFileName).text.utf8ByteSize ≤ FileTree.maxPathSize → m.faults m.requests = none →
        ∃ m', (initProject dir header).outcome m = (.ok (), m')) ∧
    ∀ m', (initProject dir header).outcome m = (.ok (), m') →
      m.node? (dir.join configFileName) = none ∧
      m.HasFile ((dir.join configFileName).location m.workingDir) (Text.encode (template header)) m' ∧
      (IsPlain header.toList → parse (template header) = .ok (starting header) ∧
        ((loadConfig (dir.join configFileName)).outcome m').1 =
          .ok (starting header, (dir.join configFileName).parent?.getD ⟨"."⟩)) ∧
      ((∃ c base, ((loadConfig (dir.join configFileName)).outcome m').1 = .ok (c, base) ∧ c.sourceLabel = header) ↔
        IsPlain header.toList) := by
  refine ⟨fun hdir hfree hsize haccepted => initProject_eq_ok hdir hfree hsize haccepted header, fun m' hinit => ?_⟩
  obtain ⟨hfree, hwrite⟩ := write_of_initProject hinit
  have hload := loadConfig_of_initProject hinit
  have hplain : IsPlain header.toList → ((loadConfig (dir.join configFileName)).outcome m').1 =
      .ok (starting header, (dir.join configFileName).parent?.getD ⟨"."⟩) := by
    intro h
    rw [hload, parse_template_of_isPlain h]
    rfl
  refine ⟨hfree, (Machine.hasFile_of_write hwrite).1, fun h => ⟨parse_template_of_isPlain h, hplain h⟩, ?_,
    fun h => ⟨_, _, hplain h, rfl⟩⟩
  rintro ⟨c, base, hc, hlabel⟩
  rw [hload] at hc
  obtain ⟨c', hc', heq⟩ := exists_of_map_eq_ok hc
  cases heq
  exact isPlain_of_parse_template (exists_of_mapError_eq_ok hc') hlabel

theorem init_reads_back_iff_stdlib :
    ({} : Machine).node? ⟨"/"⟩ = some .dir ∧ ({} : Machine).node? ⟨"/fivebind.toml"⟩ = none ∧
      ∃ m', (initProject ⟨"/"⟩ "include/stdlib.h").outcome {} = (.ok (), m') ∧
        ((loadConfig ⟨"/fivebind.toml"⟩).outcome m').1 = .ok (starting "include/stdlib.h", ⟨"/"⟩) := by
  have hdir : ({} : Machine).node? ⟨"/"⟩ = some .dir := by decide +kernel
  have hfree : ({} : Machine).node? ⟨"/fivebind.toml"⟩ = none := by decide +kernel
  obtain ⟨hstart, hread⟩ := init_reads_back_iff {} ⟨"/"⟩ "include/stdlib.h"
  obtain ⟨m', hinit⟩ := hstart hdir hfree (by decide) rfl
  obtain ⟨-, -, hplain, -⟩ := hread m' hinit
  exact ⟨hdir, hfree, m', hinit, (hplain (by decide)).2⟩

/-- A path with backslashes gives a file that is not read, or is read as another path. -/
theorem backslashes_leave_paths :
    ({} : Machine).node? ⟨"/"⟩ = some .dir ∧ ({} : Machine).node? ⟨"/fivebind.toml"⟩ = none ∧
      (∃ m', (initProject ⟨"/"⟩ "include\\stdlib.h").outcome {} = (.ok (), m') ∧
        ∀ c base, ((loadConfig ⟨"/fivebind.toml"⟩).outcome m').1 ≠ .ok (c, base)) ∧
      ∃ m', (initProject ⟨"/"⟩ "include\\text.h").outcome {} = (.ok (), m') ∧
        ((loadConfig ⟨"/fivebind.toml"⟩).outcome m').1 = .ok (starting "include\text.h", ⟨"/"⟩) := by
  have hdir : ({} : Machine).node? ⟨"/"⟩ = some .dir := by decide +kernel
  have hfree : ({} : Machine).node? ⟨"/fivebind.toml"⟩ = none := by decide +kernel
  have hpath : Path.join ⟨"/"⟩ configFileName = ⟨"/fivebind.toml"⟩ := by decide +kernel
  have hinit := initProject_eq_ok hdir hfree (by decide) rfl
  obtain ⟨m', hrefused⟩ := hinit "include\\stdlib.h"
  obtain ⟨m'', hother⟩ := hinit "include\\text.h"
  have hload := loadConfig_of_initProject hrefused
  have hload' := loadConfig_of_initProject hother
  rw [hpath] at hload hload'
  refine ⟨hdir, hfree, ⟨m', hrefused, fun c base hc => ?_⟩, m'', hother, ?_⟩
  · rw [hload] at hc
    obtain ⟨c', hc', -⟩ := exists_of_map_eq_ok hc
    obtain ⟨v, r, hquoted, -⟩ := exists_of_parse_template (exists_of_mapError_eq_ok hc')
    -- there is no such escape
    cases hquoted
  · have hquoted : quotedString ('"' :: behindQuote "include\\text.h") =
        some ("include\text.h", '\n' :: PlainLine.renderLines furtherLines) := rfl
    rw [hload', parse_template hquoted]
    rfl

end Config

end ShapeBindings
