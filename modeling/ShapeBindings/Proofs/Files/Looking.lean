import ShapeBindings.Proofs.Files.Requests
import ShapeBindings.Proofs.Files.Upward

/-!
# Looking at files

What a state of a file system says of a path: whether it leads to a file (`Disk.isFileIn`), and the text there
(`Disk.textIn`).  In a file system that is `Disk.Steady` a look changes nothing.

`Disk.Shows` ties what is said to a tree of files, and a machine shows its own (`Machine.shows`).  If the tree is
`FileTree.Grounded`, a name in a directory leads to a file just if one stands there (`Disk.Shows.isFileIn_join_iff`).
-/

namespace ShapeBindings

namespace Disk

variable {σ : Type} [Disk (StateM σ)]

/-- Whether a path leads to a file. -/
def isFileIn (s : σ) (p : Path) : Bool := ((isFile p : StateM σ Bool) s).1

/-- The text that a path leads to, or why there is none. -/
def textIn (s : σ) (p : Path) : Except OsError String := ((readText p : StateM σ (Except OsError String)) s).1

/-- A look at a file system leaves it as it is. -/
class Steady (σ : Type) [Disk (StateM σ)] : Prop where
  isFile_state (s : σ) (p : Path) : ((isFile p : StateM σ Bool) s).2 = s
  read_state (s : σ) (p : Path) : ((read p : StateM σ (Except OsError (List UInt8))) s).2 = s

/-- A state of a file system with a tree of files.  It may still refuse to read a file. -/
structure Shows (s : σ) (t : FileTree) (workingDir : Location) : Prop where
  isFileIn_iff : ∀ p, isFileIn s p = true ↔
    ∃ loc content, t.resolve workingDir p = .ok loc ∧ t.at? loc = some (.file content)
  content : ∀ p text, textIn s p = .ok text →
    ∃ loc content, t.resolve workingDir p = .ok loc ∧ t.at? loc = some (.file content) ∧
      Text.decode? content = some text.toList

variable [Steady σ] (s : σ) (p : Path)

theorem isFile_eq : (isFile p : StateM σ Bool) s = (isFileIn s p, s) := Prod.ext rfl (Steady.isFile_state s p)

theorem readText_eq : (readText p : StateM σ (Except OsError String)) s = (textIn s p, s) := by
  refine Prod.ext rfl ?_
  -- only the reading is a look, what is made of the content needs none
  obtain ⟨decoded, hread, hdecoded⟩ : ∃ decoded : Except OsError (List UInt8) → StateM σ (Except OsError String),
      readText p = read p >>= decoded ∧ ∀ content, (decoded content s).2 = s := by
    refine ⟨_, rfl, fun content => ?_⟩
    cases content with
    | error e => rfl
    | ok bytes =>
      dsimp only
      cases Text.decode? bytes <;> rfl
  have hbind : (read p >>= decoded) s = decoded ((read p : StateM σ (Except OsError (List UInt8))) s).1
      ((read p : StateM σ (Except OsError (List UInt8))) s).2 := rfl
  rw [hread, hbind, Steady.read_state]
  exact hdecoded _

end Disk

/-! ### Steps without steps back -/

namespace Location

theorem prefix_step {part : String} (h : part ≠ "..") (loc : Location) : loc <+: loc.step part := by
  unfold step
  split
  · exact List.prefix_rfl
  · exact List.prefix_append _ _

theorem prefix_foldl_step {ps : List String} (h : ".." ∉ ps) (loc : Location) : loc <+: ps.foldl step loc := by
  induction ps generalizing loc with
  | nil => exact List.prefix_rfl
  | cons part ps ih =>
    rw [List.mem_cons, not_or] at h
    exact (prefix_step (Ne.symm h.1) loc).trans (ih h.2 _)

theorem mem_foldl_step {ps : List String} (h : ".." ∉ ps) {part : String} (hpart : part ∈ ps)
    (hv : Path.isVacant part = false) {loc : Location} : part ∈ ps.foldl step loc := by
  induction ps generalizing loc with
  | nil => cases hpart
  | cons first ps ih =>
    rw [List.mem_cons, not_or] at h
    rcases List.mem_cons.1 hpart with rfl | hpart
    · have hstep : loc.step part = loc ++ [part] := by
        rw [step, hv, if_neg Bool.false_ne_true, if_neg (Ne.symm h.1)]
      exact (prefix_foldl_step h.2 _).mem (by rw [hstep]; simp)
    · exact ih h.2 hpart

end Location

/-! ### Trees as a system keeps them -/

namespace FileTree

/-- Whatever stands somewhere in a tree has directories above it, and its names may stand in a path. -/
structure Grounded (t : FileTree) : Prop where
  above : ∀ loc name, t.at? (loc ++ [name]) ≠ none → t.at? loc = some .dir
  size : ∀ loc, t.at? loc ≠ none → ∀ name ∈ loc, name.utf8ByteSize ≤ maxNameSize
  nul : ∀ loc, t.at? loc ≠ none → ∀ name ∈ loc, Char.ofNat 0 ∉ name.toList

/-- It is enough to look at the entries. -/
theorem Grounded.of_entries {t : FileTree}
    (h : ∀ e ∈ t.entries, t.at? e.1.dropLast = some .dir ∧
      ∀ name ∈ e.1, name.utf8ByteSize ≤ maxNameSize ∧ Char.ofNat 0 ∉ name.toList) : t.Grounded := by
  have hentry : ∀ loc, loc ≠ [] → t.at? loc ≠ none → ∃ node, (loc, node) ∈ t.entries := by
    intro loc hloc hat
    rw [at?, if_neg hloc] at hat
    obtain ⟨node, hnode⟩ := Option.ne_none_iff_exists'.1 hat
    obtain ⟨before, after, hentries, -⟩ := List.lookup_eq_some_iff.1 hnode
    exact ⟨node, hentries ▸ List.mem_append_right before List.mem_cons_self⟩
  constructor
  case above =>
    intro loc name hat
    obtain ⟨node, hnode⟩ := hentry _ (by simp) hat
    simpa using (h _ hnode).1
  all_goals
    intro loc hat name hmem
    obtain ⟨node, hnode⟩ := hentry loc (List.ne_nil_of_mem hmem) hat
  case size => exact ((h _ hnode).2 name hmem).1
  case nul => exact ((h _ hnode).2 name hmem).2

variable {t : FileTree}

theorem walk_cons_of_dir {loc : Location} {part : String} (hdir : t.at? loc = some .dir) (hpart : part ≠ "..")
    (hsize : Path.isVacant part = false → part.utf8ByteSize ≤ maxNameSize) (ps : List String) :
    t.walk loc (part :: ps) = t.walk (loc.step part) ps := by
  rw [walk, hdir, Location.step]
  dsimp only
  cases hv : Path.isVacant part with
  | true => rfl
  | false =>
    rw [if_neg hpart, if_neg hpart, if_neg (Nat.not_lt.2 (hsize hv))]
    rfl

variable (hg : t.Grounded)

include hg

theorem Grounded.dir_of_prefix {loc l : Location} {name : String} (h : t.at? (l ++ [name]) ≠ none) (hl : loc <+: l) :
    t.at? loc = some .dir := by
  obtain ⟨further, rfl⟩ := hl
  induction further using List.reverseRecOn generalizing name with
  | nil => exact hg.above loc name (by simpa using h)
  | append_singleton further last ih =>
    have hdir := hg.above _ _ h
    rw [← List.append_assoc] at hdir
    exact ih fun hnone => Option.some_ne_none _ (hdir.symm.trans hnone)

/-- What stands at the end of a path is reached step by step. -/
theorem Grounded.walk_concat {name : String} (hname : IsFileName name) {ps : List String} (hps : ".." ∉ ps) {loc : Location}
    (h : t.at? (ps.foldl Location.step loc ++ [name]) ≠ none) :
    t.walk loc (ps ++ [name]) = .ok (ps.foldl Location.step loc ++ [name]) := by
  induction ps generalizing loc with
  | nil => exact walk_name hname (hg.size _ h name (by simp)) (hg.above _ _ h)
  | cons part ps ih =>
    have hdir : t.at? loc = some .dir := hg.dir_of_prefix h (Location.prefix_foldl_step hps loc)
    have hsize : Path.isVacant part = false → part.utf8ByteSize ≤ maxNameSize := fun hv =>
      hg.size _ h part (List.mem_append_left _ (Location.mem_foldl_step hps List.mem_cons_self hv))
    rw [List.mem_cons, not_or] at hps
    rw [List.cons_append, walk_cons_of_dir hdir (Ne.symm hps.1) hsize]
    exact ih hps.2 h

/-- Whatever a path without steps back leads to, there is no NUL in it. -/
theorem Grounded.nul_not_mem_text {p : Path} (hp : ".." ∉ p.parts) {workingDir : Location}
    (h : t.at? (p.location workingDir) ≠ none) : Char.ofNat 0 ∉ p.text.toList := by
  rw [p.eq_intercalate]
  refine Text.not_mem_intercalate (by decide) fun part hpart => ?_
  cases hv : Path.isVacant part with
  | true =>
    rw [Path.isVacant, Bool.or_eq_true, String.isEmpty_iff, beq_iff_eq] at hv
    rcases hv with rfl | rfl <;> decide
  | false => exact hg.nul _ h part (Location.mem_foldl_step hp hpart hv)

theorem Grounded.resolve_join {name : String} (hname : IsFileName name) {d : Path} (hd : ".." ∉ d.parts)
    (hsize : (d.join name).text.utf8ByteSize ≤ maxPathSize) {workingDir : Location}
    (h : t.at? ((d.join name).location workingDir) ≠ none) :
    t.resolve workingDir (d.join name) = .ok ((d.join name).location workingDir) := by
  obtain ⟨ps, hparts, hjoin, -⟩ := Path.exists_parts_join hname d
  have hps : ".." ∉ ps := fun hdots => hd (by rcases hparts with hparts | hparts <;> simp [hparts, hdots])
  have hforward : ".." ∉ (d.join name).parts := by
    rw [hjoin, List.mem_append, List.mem_singleton, not_or]
    exact ⟨hps, hname.2.2.2.symm⟩
  have hlocation : (d.join name).location workingDir =
      ps.foldl Location.step ((d.join name).origin workingDir) ++ [name] := by
    rw [Path.location, hjoin, List.foldl_append, List.foldl_cons, List.foldl_nil, Location.step_of_isFileName hname]
    rfl
  refine resolve_eq_ok_iff.2 ⟨⟨hg.nul_not_mem_text hforward h, ?_, hsize⟩, ?_⟩
  · intro hempty
    have hone : (d.join name).parts = [""] := by
      rw [Path.parts, hempty]
      decide
    rw [hjoin] at hone
    exact hname.2.1 (by simpa using congrArg List.getLast? hone)
  · rw [hlocation] at h ⊢
    rw [hjoin]
    exact hg.walk_concat hname hps h

end FileTree

/-! ### Machines -/

namespace Machine

open Disk FileTree

theorem isFileIn_iff {m : Machine} {p : Path} : isFileIn m p = true ↔ ∃ content, m.node? p = some (.file content) := by
  dsimp only [isFileIn, isFile, bind, StateT.bind, get, getThe, MonadStateOf.get, StateT.get, pure, StateT.pure]
  split
  · next content hnode => exact ⟨fun _ => ⟨content, hnode⟩, fun _ => rfl⟩
  · next hnode => exact ⟨Bool.noConfusion, fun ⟨content, h⟩ => absurd h (hnode content)⟩

theorem node?_eq_some_iff {m : Machine} {p : Path} {node : Node} :
    m.node? p = some node ↔ ∃ loc, m.tree.resolve m.workingDir p = .ok loc ∧ m.tree.at? loc = some node := by
  refine ⟨exists_of_node?, ?_⟩
  rintro ⟨loc, hloc, hat⟩
  rw [node?, hloc]
  exact hat

theorem exists_of_read {m : Machine} {p : Path} {content : List UInt8} (h : m.read p = .ok content) :
    ∃ loc, m.tree.resolve m.workingDir p = .ok loc ∧ m.tree.at? loc = some (.file content) := by
  obtain ⟨loc, hloc, h⟩ := exists_of_bind_eq_ok h
  split at h
  · next hat =>
    cases h
    exact ⟨loc, hloc, hat⟩
  · cases h
  · cases h

theorem exists_of_textIn {m : Machine} {p : Path} {text : String} (h : textIn m p = .ok text) :
    ∃ content, m.read p = .ok content ∧ Text.decode? content = some text.toList := by
  cases hrun : (Disk.readText p : StateM Machine _) m with
  | mk res m' =>
    obtain rfl : res = .ok text := (congrArg Prod.fst hrun).symm.trans h
    obtain ⟨content, m₁, hm₁, hrun⟩ := bind_cases hrun
    obtain rfl : m.read p = content := congrArg Prod.fst hm₁
    cases hread : m.read p with
    | error e =>
      rw [hread] at hrun
      cases hrun
    | ok bytes =>
      rw [hread] at hrun
      dsimp only at hrun
      cases hd : Text.decode? bytes <;> rw [hd] at hrun <;> cases hrun
      exact ⟨bytes, rfl, by rw [hd, String.toList_ofList]⟩

instance : Disk.Steady Machine where
  isFile_state _ _ := rfl
  read_state _ _ := rfl

theorem shows (m : Machine) : Shows m m.tree m.workingDir where
  isFileIn_iff p := by
    rw [isFileIn_iff]
    simp only [node?_eq_some_iff]
    exact exists_comm
  content p text h := by
    obtain ⟨content, hread, hdecode⟩ := exists_of_textIn h
    obtain ⟨loc, hloc, hat⟩ := exists_of_read hread
    exact ⟨loc, content, hloc, hat, hdecode⟩

end Machine

/-- A name in a directory leads to a file just if one stands there, unless the path is too long for the system. -/
theorem Disk.Shows.isFileIn_join_iff {σ : Type} [Disk (StateM σ)] {s : σ} {t : FileTree} {workingDir : Location}
    (hs : Disk.Shows s t workingDir) (hg : t.Grounded) {name : String} (hname : IsFileName name) {d : Path}
    (hd : ".." ∉ d.parts) :
    Disk.isFileIn s (d.join name) = true ↔ (∃ content, t.at? (d.location workingDir ++ [name]) = some (.file content)) ∧
      (d.join name).text.utf8ByteSize ≤ FileTree.maxPathSize := by
  rw [← Path.location_join hname, hs.isFileIn_iff]
  constructor
  · rintro ⟨loc, content, hloc, hat⟩
    rw [← FileTree.resolve_eq_location hloc]
    exact ⟨⟨content, hat⟩, (FileTree.resolve_eq_ok_iff.1 hloc).1.2.2⟩
  · rintro ⟨⟨content, hat⟩, hsize⟩
    exact ⟨_, content, hg.resolve_join hname hd hsize (by simp [hat]), hat⟩

end ShapeBindings
