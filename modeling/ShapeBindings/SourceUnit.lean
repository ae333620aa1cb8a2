import ShapeBindings.Banner
import ShapeBindings.Table
import ShapeBindings.Text.Letter
import ShapeBindings.Wrapper

/-!
# Source units

The unit of a module has a banner, an import of the names that its wrappers use, a heading and one
block with all wrappers. `Module.assemble` makes every wrapper before it writes a line, so a fault
in one function leaves no unit. `textUnit` is the one unit that is written by hand.
-/

namespace ShapeBindings

open Text

/-- Settings for all units of a run. -/
structure UnitOptions where
  source : String
  /-- Where the wrapper types are imported from; nothing is imported without it. -/
  importRoot : Option String := none
  /-- The names of the wrappers. -/
  naming : NamingPolicy := .standard
  /-- The provenance that the banner names. -/
  provenance : Provenance

/-- One finished output file. -/
structure SourceUnit where
  moduleName : String
  /-- The convention of its wrappers; none for a unit that is written by hand. -/
  convention : Option Convention
  functionCount : Nat
  source : String
  deriving DecidableEq

def SourceUnit.fileName (u : SourceUnit) : String := u.moduleName ++ ".rs"

/-- Adds a name behind others, unless it is among them. -/
def pushName (names : List String) (name : String) : List String :=
  if name ∈ names then names else names ++ [name]

/-- Puts a name in front of the first that is not less. -/
def insertName (name : String) : List String → List String
  | [] => [name]
  | n :: rest => if n < name then n :: insertName name rest else name :: n :: rest

/-- Names in increasing order. -/
def sortNames (names : List String) : List String := names.foldr insertName []

def importLine (root : String) : List String → String
  | [name] => s!"use {root}::{name};"
  | names => s!"use {root}::\x7b" ++ ", ".intercalate names ++ "\x7d;"

/-- The lines between the banner and the heading. -/
def importLines (root : Option String) (names : List String) : List String :=
  match root with
  | some root => ["", importLine root names]
  | none => []

namespace Module

/-- The kinds of argument that the wrappers of a module have parameters for. -/
def paramKinds (m : Module) (convention : Convention) : List ArgKind :=
  m.functions.flatMap fun d =>
    (d.args.filter fun a => !(convention.usesReceiver && a.index == 0)).filterMap (·.kind)

/-- The names that the wrappers of a module use. The types are added as they come; then all names
but the first are sorted, and repeated ones are dropped. -/
def imports (m : Module) (convention : Convention) : List String :=
  let always := (if m.functions.isEmpty then [] else ["sys"]) ++ [treeType]
  let names := ((m.paramKinds convention).filterMap (·.wrapperType?)).foldl pushName always
  (names.take 1 ++ sortNames (names.drop 1)).eraseReps

/-- The line above a block of wrappers. -/
def headingLine (name : String) : String := s!"/// # {titleCase name} <a name=\"{name}\"></a>"

def unitLines (m : Module) (convention : Convention) (options : UnitOptions)
    (wrappers : List (List String)) : List String :=
  bannerLines m.name (.table options.source) options.provenance ++
    importLines options.importRoot (m.imports convention) ++
    ["", headingLine m.name, s!"impl {treeType} \x7b"] ++
    wrappers.flatMap ("" :: ·) ++
    ["\x7d"]

def assemble (m : Module) (convention : Convention) (options : UnitOptions) :
    Except WrapperError String := do
  let wrappers ← m.functions.mapM (·.wrapper convention options.naming)
  return unlines (m.unitLines convention options wrappers)

def unit (m : Module) (convention : Convention) (options : UnitOptions) :
    Except WrapperError SourceUnit :=
  (m.assemble convention options).map (⟨m.name, some convention, m.size, ·⟩)

/-- What is reported while a module is assembled. -/
def assemblyRecords (m : Module) (convention : Convention) (options : UnitOptions) :
    List LogRecord :=
  recordsUntilFailure m.functions (·.wrapper convention options.naming)
      (·.wrapperRecords convention options.naming) ++
    match m.assemble convention options with
    | .ok _ =>
      [⟨.debug, .assembly,
        s!"assembled module '{m.name}' ({convention.name}, {m.size} wrappers)"⟩]
    | .error _ => []

end Module

def textModuleName : String := "text"

/-- The block of the text module. A text may hold a NUL, so its wrapper can fail. -/
def textModuleLines : List String :=
  ["/// # Text <a name=\"text\"></a>",
   "impl Tree \x7b",
   "",
   "    /// Renders `txt` as a 2D shape with its baseline starting at `pos`.",
   "    ///",
   "    /// The bytes are copied into a NUL-terminated buffer that lives until the",
   "    /// native call returns. Fails before reaching native code if `txt`",
   "    /// contains an interior NUL byte.",
   "    pub fn text(txt: impl Into<Vec<u8>>, pos: TreeVec2) -> Result<Self, std::ffi::NulError> \x7b",
   "        let txt = std::ffi::CString::new(txt)?;",
   "        let pos = sys::tvec2 \x7b x: pos.x.0, y: pos.y.0 \x7d;",
   "        Ok(Self(unsafe \x7b sys::libfivestd_text(txt.as_ptr(), pos) \x7d))",
   "    \x7d",
   "\x7d"]

/-- The unit that is written by hand. -/
def textUnit (options : UnitOptions) : SourceUnit where
  moduleName := textModuleName
  convention := none
  functionCount := 1
  source := unlines <|
    bannerLines textModuleName .template options.provenance ++
      importLines options.importRoot ["sys", treeType, "TreeVec2"] ++
      "" :: textModuleLines

end ShapeBindings
