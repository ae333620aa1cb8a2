import Mathlib.Data.String.Basic
import ShapeBindings.Project.Sources
import ShapeBindings.Proofs.Files.Looking

/-!
# The nearest configuration

The search for a configuration goes the way up from a path, and `NearestConfig` says where it ends: at the deepest
directory in which the file of one stands, good or bad, if the system takes the path of that file
(`find?_upward_eq_some_iff`).  In any file system in which a look changes nothing, the search comes to what is loaded
from there, also if that fails (`discovers_findConfig`).  A configuration with a path that is too long is passed over
(`long_path_is_passed_over`).
-/

namespace ShapeBindings

open Disk FileTree Job

variable {σ : Type}

/-! ### Jobs that only look -/

section

variable {α β : Type} {s : σ} {j : Job (StateM σ) α} {res : Except Failure α}

/-- A job has a result, prints and reports nothing, and leaves the files as they are. -/
def Job.Gives (s : σ) (j : Job (StateM σ) α) (res : Except Failure α) : Prop := j.start s = ((res, {}), s)

theorem Job.Gives.map (h : Gives s j res) (f : α → β) : Gives s (f <$> j) (res.map f) := by
  have hrun : (f <$> j).start s =
      StateT.run (ExceptT.bindCont (fun a => (pure (f a) : Job (StateM σ) β)) (j.start s).1.1) (j.start s).1.2
        (j.start s).2 := rfl
  rw [Gives] at h ⊢
  rw [hrun, h]
  cases res <;> rfl

end

/-! ### The nearest configuration -/

/-- The file of a configuration stands in a directory. -/
def HasConfig (t : FileTree) (workingDir : Location) (d : Path) : Prop :=
  ∃ content, t.at? (d.location workingDir ++ [configFileName]) = some (.file content)

/-- The path of a configuration in a directory is not too long for the system. -/
def ConfigPathFits (d : Path) : Prop := (d.join configFileName).text.utf8ByteSize ≤ maxPathSize

/-- The deepest directory on the way up that has a configuration, of those whose configurations have paths for the
system. -/
structure NearestConfig (t : FileTree) (workingDir : Location) (start d : Path) : Prop where
  mem : d ∈ start.upward
  stands : HasConfig t workingDir d
  fits : ConfigPathFits d
  deepest : ∀ e ∈ start.upward, HasConfig t workingDir e → ConfigPathFits e → e.names <+: d.names

theorem NearestConfig.unique {t : FileTree} {workingDir : Location} {start d e : Path}
    (hd : NearestConfig t workingDir start d) (he : NearestConfig t workingDir start e) : d = e := by
  refine Path.eq_of_mem_upward hd.mem he.mem ?_
  have hle := he.deepest d hd.mem hd.stands hd.fits
  exact hle.eq_of_length_le (hd.deepest e he.mem he.stands he.fits).length_le

theorem isFileName_configFileName : IsFileName configFileName := by
  refine ⟨?_, ?_, ?_, ?_⟩ <;> decide

variable [Disk (StateM σ)]

/-- Whether the search finds the file of a configuration in a directory. -/
def findsConfig (s : σ) (d : Path) : Bool := isFileIn s (d.join configFileName)

section

variable {s : σ} {t : FileTree} {workingDir : Location} (hs : Shows s t workingDir) (ht : t.Grounded) {start d : Path}
  (h : ".." ∉ start.parts)

include hs ht h

theorem findsConfig_iff (hd : d ∈ start.upward) :
    findsConfig s d = true ↔ HasConfig t workingDir d ∧ ConfigPathFits d :=
  hs.isFileIn_join_iff ht isFileName_configFileName (Path.forward_of_mem_upward h hd)

/-- The directories behind the first one that has a configuration are those above it. -/
theorem nearestConfig_of_find? (hfind : start.upward.find? (findsConfig s) = some d) :
    NearestConfig t workingDir start d := by
  have hmem := List.mem_of_find?_eq_some hfind
  obtain ⟨hd, before, after, hway, hbefore⟩ := List.find?_eq_some_iff_append.1 hfind
  obtain ⟨hstands, hfits⟩ := (findsConfig_iff hs ht h hmem).1 hd
  refine ⟨hmem, hstands, hfits, fun e he hstands hfits => ?_⟩
  have hfinds := (findsConfig_iff hs ht h he).2 ⟨hstands, hfits⟩
  have horder := start.pairwise_upward
  rw [hway, List.pairwise_append, List.pairwise_cons] at horder
  rw [hway, List.mem_append, List.mem_cons] at he
  rcases he with he | rfl | he
  · simpa [hfinds] using hbefore e he
  · exact List.prefix_rfl
  · exact (horder.2.1.1 e he).1

theorem find?_upward_eq_some_iff : start.upward.find? (findsConfig s) = some d ↔ NearestConfig t workingDir start d := by
  refine ⟨nearestConfig_of_find? hs ht h, fun hnearest => ?_⟩
  have hfinds := (findsConfig_iff hs ht h hnearest.mem).2 ⟨hnearest.stands, hnearest.fits⟩
  cases hfind : start.upward.find? (findsConfig s) with
  | none => exact absurd hfinds (List.find?_eq_none.1 hfind d hnearest.mem)
  | some e => rw [(nearestConfig_of_find? hs ht h hfind).unique hnearest]

theorem exists_nearestConfig (hd : d ∈ start.upward) (hstands : HasConfig t workingDir d) (hfits : ConfigPathFits d) :
    ∃ e, NearestConfig t workingDir start e := by
  have hsome : (start.upward.find? (findsConfig s)).isSome = true :=
    List.find?_isSome.2 ⟨d, hd, (findsConfig_iff hs ht h hd).2 ⟨hstands, hfits⟩⟩
  obtain ⟨e, he⟩ := Option.isSome_iff_exists.1 hsome
  exact ⟨e, nearestConfig_of_find? hs ht h he⟩

end

/-! ### What the search comes to -/

section

variable [Steady σ] (s : σ)

theorem firstFile_eq (ps : List Path) :
    (firstFile ps : StateM σ (Option Path)) s = (ps.find? (isFileIn s), s) := by
  induction ps with
  | nil => rfl
  | cons p ps ih =>
    have hbind : (firstFile (p :: ps) : StateM σ (Option Path)) s =
        (if ((isFile p : StateM σ Bool) s).1 then pure (some p) else firstFile ps : StateM σ (Option Path))
          ((isFile p : StateM σ Bool) s).2 := rfl
    rw [hbind, isFile_eq, List.find?_cons]
    cases isFileIn s p with
    | true => rfl
    | false => exact ih

/-- What is made of the text of a configuration, and the directory of its file. -/
def readConfig (p : Path) (text : String) : Except Failure (Config × Path) :=
  ((Config.parse text).mapError (.badConfig p)).map (·, p.parent?.getD ⟨"."⟩)

theorem gives_loadConfig (p : Path) :
    Gives s (loadConfig p) ((textIn s p).mapError (.unreadableConfig p) >>= readConfig p) := by
  have hrun : (loadConfig p : Job (StateM σ) (Config × Path)).start s =
      (start (do
        let text ← orFail (.unreadableConfig p) ((readText p : StateM σ (Except OsError String)) s).1
        let config ← orFail (.badConfig p) (Config.parse text)
        return (config, p.parent?.getD ⟨"."⟩) : Job (StateM σ) (Config × Path)))
        ((readText p : StateM σ (Except OsError String)) s).2 := rfl
  rw [Gives, hrun, readText_eq]
  cases textIn s p with
  | error e => rfl
  | ok text =>
    have hparsed : ∀ parsed : Except ConfigError Config,
        Gives s (do
          let config ← orFail (.badConfig p) parsed
          return (config, p.parent?.getD ⟨"."⟩))
        ((parsed.mapError (.badConfig p)).map (·, p.parent?.getD ⟨"."⟩)) := fun parsed => by cases parsed <;> rfl
    exact hparsed (Config.parse text)

/-- The search is for the first directory on the way up that holds a configuration, which is then loaded. -/
theorem start_findConfig (start : Path) :
    (findConfig start : Job (StateM σ) (Option (Config × Path))).start s =
      (start.upward.find? (findsConfig s)).elim ((.ok none, {}), s) fun d =>
        (some <$> loadConfig (d.join configFileName) : Job (StateM σ) (Option (Config × Path))).start s := by
  obtain ⟨rest, hfind, hnone, hsome⟩ : ∃ rest : Option Path → Job (StateM σ) (Option (Config × Path)),
      findConfig start = request (firstFile (configPaths start)) >>= rest ∧ rest none = pure none ∧
        ∀ p, rest (some p) = some <$> loadConfig p := ⟨_, rfl, rfl, fun _ => rfl⟩
  have hbind : (request (firstFile (configPaths start)) >>= rest).start s =
      (rest ((firstFile (configPaths start) : StateM σ (Option Path)) s).1).start
        ((firstFile (configPaths start) : StateM σ (Option Path)) s).2 := rfl
  have hpaths : (configPaths start).find? (isFileIn s) =
      (start.upward.find? (findsConfig s)).map (·.join configFileName) := List.find?_map
  rw [hfind, hbind, firstFile_eq, hpaths]
  cases start.upward.find? (findsConfig s) with
  | none =>
    rw [Option.map_none, hnone]
    rfl
  | some d => rw [Option.map_some, hsome, Option.elim_some]

variable {s} {start d : Path} (hfind : start.upward.find? (findsConfig s) = some d)

include hfind

theorem start_findConfig_of_find? :
    (findConfig start : Job (StateM σ) (Option (Config × Path))).start s =
      (some <$> loadConfig (d.join configFileName) : Job (StateM σ) (Option (Config × Path))).start s := by
  rw [start_findConfig, hfind, Option.elim_some]

theorem gives_findConfig_of_text {text : String} (htext : textIn s (d.join configFileName) = .ok text) :
    Gives s (findConfig start) ((readConfig (d.join configFileName) text).map some) := by
  have hgives := (gives_loadConfig s (d.join configFileName)).map some
  rw [htext] at hgives
  rw [Gives, start_findConfig_of_find? hfind]
  exact hgives

theorem gives_findConfig_of_error {e : OsError} (herror : textIn s (d.join configFileName) = .error e) :
    Gives s (findConfig start) (.error (.unreadableConfig (d.join configFileName) e)) := by
  have hgives := (gives_loadConfig s (d.join configFileName)).map some
  rw [herror] at hgives
  rw [Gives, start_findConfig_of_find? hfind]
  exact hgives

/-- A good configuration is found with its directory, perhaps in another spelling. -/
theorem exists_gives_findConfig {text : String} {c : Config} (htext : textIn s (d.join configFileName) = .ok text)
    (hparse : Config.parse text = .ok c) : ∃ base, base.Same d ∧ Gives s (findConfig start) (.ok (some (c, base))) := by
  obtain ⟨base, hbase, hsame⟩ := Path.exists_parent?_join isFileName_configFileName d
  have hgives := gives_findConfig_of_text hfind htext
  rw [readConfig, hparse, hbase] at hgives
  exact ⟨base, hsame, hgives⟩

end

/-- What the search for a configuration comes to in a state of a file system with a tree. -/
structure Discovers (s : σ) (t : FileTree) (workingDir : Location) (start : Path) : Prop where
  nothing : (∀ d ∈ start.upward, HasConfig t workingDir d → ¬ ConfigPathFits d) → Gives s (findConfig start) (.ok none)
  nearest : (∃ d ∈ start.upward, HasConfig t workingDir d ∧ ConfigPathFits d) → ∃! d, NearestConfig t workingDir start d
  loads : ∀ d, NearestConfig t workingDir start d →
    (findConfig start : Job (StateM σ) (Option (Config × Path))).start s =
      (some <$> loadConfig (d.join configFileName) : Job (StateM σ) (Option (Config × Path))).start s
  good : ∀ d text c, NearestConfig t workingDir start d → textIn s (d.join configFileName) = .ok text →
    Config.parse text = .ok c →
      ∃ base, base.Same d ∧ base.location workingDir = d.location workingDir ∧
        Gives s (findConfig start) (.ok (some (c, base)))
  bad : ∀ d text e, NearestConfig t workingDir start d → textIn s (d.join configFileName) = .ok text →
    Config.parse text = .error e → Gives s (findConfig start) (.error (.badConfig (d.join configFileName) e))
  unreadable : ∀ d e, NearestConfig t workingDir start d → textIn s (d.join configFileName) = .error e →
    Gives s (findConfig start) (.error (.unreadableConfig (d.join configFileName) e))
  directory : ∀ d, t.at? (d.location workingDir ++ [configFileName]) = some .dir → ¬ HasConfig t workingDir d

theorem discovers [Steady σ] {s : σ} {t : FileTree} {workingDir : Location} (hs : Shows s t workingDir)
    (ht : t.Grounded) {start : Path} (h : ".." ∉ start.parts) : Discovers s t workingDir start where
  nothing hall := by
    have hnone : start.upward.find? (findsConfig s) = none := List.find?_eq_none.2 fun d hd hfinds => by
      obtain ⟨hstands, hfits⟩ := (findsConfig_iff hs ht h hd).1 hfinds
      exact hall d hd hstands hfits
    rw [Gives, start_findConfig, hnone, Option.elim_none]
  nearest := by
    rintro ⟨d, hd, hstands, hfits⟩
    obtain ⟨e, he⟩ := exists_nearestConfig hs ht h hd hstands hfits
    exact ⟨e, he, fun e' he' => he'.unique he⟩
  loads d hnearest := start_findConfig_of_find? ((find?_upward_eq_some_iff hs ht h).2 hnearest)
  good d text c hnearest htext hparse := by
    have hfind := (find?_upward_eq_some_iff hs ht h).2 hnearest
    obtain ⟨base, hsame, hgives⟩ := exists_gives_findConfig hfind htext hparse
    exact ⟨base, hsame, hsame.location_eq workingDir, hgives⟩
  bad d text e hnearest htext hparse := by
    have hgives := gives_findConfig_of_text ((find?_upward_eq_some_iff hs ht h).2 hnearest) htext
    rw [readConfig, hparse] at hgives
    exact hgives
  unreadable d e hnearest := gives_findConfig_of_error ((find?_upward_eq_some_iff hs ht h).2 hnearest)
  directory d hdir := by
    rintro ⟨content, hfile⟩
    rw [hdir] at hfile
    cases hfile

/-- **The nearest configuration is the one that counts.**  The way up from a path without steps back goes through all
directories down to the root or to where relative paths start.  If none of them has a configuration, none is found, and
that is no failure.  Else what is found is what is loaded from the deepest one that does, with that directory; if that
cannot be read or is bad, no other one is tried.  A directory in the place of the file does not count, nor does a file
with a path that is too long for the system. -/
theorem discovers_findConfig [Steady σ] {s : σ} {t : FileTree} {workingDir : Location} (hs : Shows s t workingDir)
    (ht : t.Grounded) {start : Path} (h : ".." ∉ start.parts) :
    Path.WayUp start start.upward ∧ Discovers s t workingDir start :=
  ⟨Path.wayUp_upward h, discovers hs ht h⟩

def nestedText : String := "[source]\nheader = \"stdlib.h\"\n"

theorem parse_nestedText : Config.parse nestedText = .ok { source := .header "stdlib.h" } := by decide +kernel

/-- A directory stands where the nearest configuration would be, and one that is bad above the next one. -/
def nestedConfigs : Machine where
  tree := ⟨[(["fivebind.toml"], .file []), (["p"], .dir), (["p", "fivebind.toml"], .file (Text.encode nestedText)),
    (["p", "a"], .dir), (["p", "a", "fivebind.toml"], .dir), (["p", "a", "b"], .dir)]⟩

theorem grounded_nestedConfigs : nestedConfigs.tree.Grounded := .of_entries (by decide +kernel)

theorem discovers_findConfig_nested :
    ".." ∉ Path.parts ⟨"/p/a/b"⟩ ∧ NearestConfig nestedConfigs.tree [] ⟨"/p/a/b"⟩ ⟨"/p"⟩ ∧
      ∃ base c, base.Same ⟨"/p"⟩ ∧ c.sourceLabel = "stdlib.h" ∧
        Gives nestedConfigs (findConfig ⟨"/p/a/b"⟩) (.ok (some (c, base))) := by
  have hforward : ".." ∉ Path.parts ⟨"/p/a/b"⟩ := by decide
  have h := (discovers_findConfig nestedConfigs.shows grounded_nestedConfigs hforward).2
  have hnearest : NearestConfig nestedConfigs.tree [] ⟨"/p/a/b"⟩ ⟨"/p"⟩ :=
    nearestConfig_of_find? nestedConfigs.shows grounded_nestedConfigs hforward (by decide +kernel)
  have htext : textIn nestedConfigs (Path.join ⟨"/p"⟩ configFileName) = .ok nestedText := by decide +kernel
  obtain ⟨base, hsame, -, hgives⟩ := h.good _ _ _ hnearest htext parse_nestedText
  exact ⟨hforward, hnearest, base, _, hsame, rfl, hgives⟩

/-! ### A path that is too long -/

theorem length_le_utf8ByteSize (l : List Char) : l.length ≤ (String.ofList l).utf8ByteSize := by
  rw [String.utf8ByteSize_ofList]
  induction l with
  | nil => exact Nat.zero_le _
  | cons c l ih =>
    have hc := c.utf8Size_pos
    rw [List.length_cons, String.utf8Len_cons]
    omega

theorem utf8ByteSize_le_join {name : String} (h : IsFileName name) (p : Path) :
    p.text.utf8ByteSize ≤ (p.join name).text.utf8ByteSize := by
  rw [Path.join, Path.isAbsolute_of_isFileName h, if_neg Bool.false_ne_true]
  split <;> simp only [String.utf8ByteSize_append] <;> omega

/-- A directory by a path that fills the system's limit with slashes. -/
def slashedPath : Path := ⟨String.ofList (['p'] ++ List.replicate maxPathSize '/')⟩

theorem names_slashedPath : slashedPath.names = ["p"] := by
  rw [slashedPath, Path.names_append_slashes]
  decide

theorem location_slashedPath : slashedPath.location [] = ["p"] := by
  rw [slashedPath, Path.location_append_slashes _ (List.cons_ne_nil _ _)]
  decide

theorem not_configPathFits_slashedPath : ¬ ConfigPathFits slashedPath := by
  intro hfits
  have hlength := length_le_utf8ByteSize (['p'] ++ List.replicate maxPathSize '/')
  have hle := utf8ByteSize_le_join isFileName_configFileName slashedPath
  rw [List.length_append, List.length_replicate, List.length_singleton] at hlength
  unfold ConfigPathFits at hfits
  unfold slashedPath at hfits hle
  dsimp only at hle
  omega

/-- The same configuration in a directory and above it. -/
def doubledConfig : Machine where
  tree := ⟨[(["fivebind.toml"], .file (Text.encode nestedText)), (["p"], .dir),
    (["p", "fivebind.toml"], .file (Text.encode nestedText))]⟩

/-- A configuration in the directory that the search starts at is passed over if its path is too long, and the one above
is found. -/
theorem long_path_is_passed_over :
    ".." ∉ slashedPath.parts ∧ HasConfig doubledConfig.tree [] slashedPath ∧
      ∃ base c, ¬ base.Same slashedPath ∧ Gives doubledConfig (findConfig slashedPath) (.ok (some (c, base))) := by
  have hforward : ".." ∉ slashedPath.parts := by
    intro hdots
    have hnames := Path.mem_names_of_mem_parts hdots (by decide)
    rw [names_slashedPath] at hnames
    exact absurd hnames (by decide)
  have hgrounded : doubledConfig.tree.Grounded := .of_entries (by decide +kernel)
  have hrelative : slashedPath.isAbsolute = false := by
    rw [slashedPath, Path.isAbsolute_ofList]
    rfl
  have htop : ⟨""⟩ ∈ slashedPath.upward := by
    obtain ⟨top, htop, hnames⟩ := Path.exists_mem_upward (List.nil_prefix (l := slashedPath.names))
    rwa [Path.eq_of_names_eq_nil hnames (by rw [Path.isAbsolute_of_mem_upward htop, hrelative])] at htop
  have hfits : ConfigPathFits ⟨""⟩ := by
    unfold ConfigPathFits
    decide
  have hnearest : NearestConfig doubledConfig.tree [] slashedPath ⟨""⟩ := by
    refine ⟨htop, ⟨_, rfl⟩, hfits, fun e he _ hfits => ?_⟩
    have hprefix := Path.names_prefix_of_mem_upward he
    rw [names_slashedPath, List.prefix_cons_iff] at hprefix
    rcases hprefix with hnil | ⟨t, hnames, ht⟩
    · rw [hnil]
      exact List.nil_prefix
    · -- the only path with that name is the one that is too long
      rw [List.prefix_nil.1 ht, ← names_slashedPath] at hnames
      rw [Path.eq_of_mem_upward he List.mem_cons_self hnames] at hfits
      exact absurd hfits not_configPathFits_slashedPath
  have hfind := (find?_upward_eq_some_iff doubledConfig.shows hgrounded hforward).2 hnearest
  have htext : textIn doubledConfig (Path.join ⟨""⟩ configFileName) = .ok nestedText := by decide +kernel
  obtain ⟨base, hsame, hgives⟩ := exists_gives_findConfig hfind htext parse_nestedText
  refine ⟨hforward, ⟨_, by rw [location_slashedPath]; rfl⟩, base, _, fun hslashed => ?_, hgives⟩
  have hnames := hslashed.names
  rw [hsame.names, names_slashedPath] at hnames
  exact absurd hnames (by decide)

end ShapeBindings
