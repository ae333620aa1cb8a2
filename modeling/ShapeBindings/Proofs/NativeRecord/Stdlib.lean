import ShapeBindings.NativeRecord
import ShapeBindings.Plan
import ShapeBindings.Proofs.Project.Loaded
import ShapeBindings.Proofs.Text.Writing

/-!
# The bundled header

`Stdlib.header` is the header that the wrappers of the stand-in are made from, with the conventions of `Stdlib.plan`.

* `parse_header`: the header states the functions of `Stdlib.table`;
* `wellFormed`, `exists_signature`, `kind_ne_str`, `paramNames`: what their wrappers rely on.
-/

namespace ShapeBindings.Stdlib

open Text

/-! ### The header -/

def headerLines : List String :=
  ["#pragma once",
   "#include \"libfive.h\"",
   "",
   "typedef libfive_tree tfloat;",
   "typedef struct \x7b tfloat x, y; \x7d tvec2;",
   "typedef struct \x7b tfloat x, y, z; \x7d tvec3;",
   "",
   "#define LIBFIVE_STDLIB libfive_tree",
   "#define LIBFIVE_SECTION(name)",
   "",
   "////////////////////////////////////////////////////////////////////////////////",
   "LIBFIVE_SECTION(shapes)",
   "LIBFIVE_STDLIB circle(",
   "    // A 2D circle with the given radius and optional center",
   "    tfloat r, tvec2 center);",
   "LIBFIVE_STDLIB sphere(",
   "    // A sphere with the given radius and (optional) center",
   "    tfloat radius, tvec3 center);",
   "LIBFIVE_STDLIB polygon(",
   "    // A polygon with center-to-vertex distance r and n sides",
   "    tfloat r, int n, tvec2 center);",
   "LIBFIVE_STDLIB emptiness(",
   "    // A volume that is empty everywhere",
   "    void);",
   "",
   "////////////////////////////////////////////////////////////////////////////////",
   "LIBFIVE_SECTION(csg)",
   "LIBFIVE_STDLIB union(",
   "    // Returns the union of two shapes",
   "    libfive_tree a, libfive_tree b);",
   "LIBFIVE_STDLIB inverse(",
   "    // Returns a shape that's the inverse of the input shape",
   "    libfive_tree a);",
   "LIBFIVE_STDLIB blend(",
   "    // Blends two shapes by the given amount",
   "    libfive_tree a, libfive_tree b, tfloat m);",
   "",
   "////////////////////////////////////////////////////////////////////////////////",
   "LIBFIVE_SECTION(transforms)",
   "LIBFIVE_STDLIB move(",
   "    // Moves the given shape in 2D or 3D space",
   "    libfive_tree t, tvec3 offset);",
   "LIBFIVE_STDLIB scale_x(",
   "    // Scales a shape by sx on the x axis about x0",
   "    libfive_tree t, tfloat sx, tfloat x0);",
   "",
   "////////////////////////////////////////////////////////////////////////////////",
   "LIBFIVE_SECTION(generators)",
   "LIBFIVE_STDLIB array_x(",
   "    // Iterates a part in a 1D array",
   "    libfive_tree shape, int nx, tfloat dx);",
   "LIBFIVE_STDLIB extrude_z(",
   "    // Extrudes a 2D shape between zmin and zmax",
   "    libfive_tree t, tfloat zmin, tfloat zmax);",
   "",
   "////////////////////////////////////////////////////////////////////////////////",
   "LIBFIVE_SECTION(text)",
   "LIBFIVE_STDLIB text(",
   "    // Renders the given text as a 2D shape",
   "    const char* txt, tvec2 pos);"]

/-- The bundled header. -/
def header : String := unlines headerLines

/-! ### What it states -/

/-- A function of the bundled header, with its arguments' names and types. -/
def function (moduleName name doc : String) (params : List (String × String)) : Descriptor where
  publicName := name
  rawName := Header.standardSymbolPrefix ++ name
  moduleName
  args := params.mapIdx fun i q => ⟨q.1, q.2, i⟩
  doc := some doc

def circle : Descriptor :=
  function "shapes" "circle" "A 2D circle with the given radius and optional center"
    [("r", "tfloat"), ("center", "tvec2")]

def sphere : Descriptor :=
  function "shapes" "sphere" "A sphere with the given radius and (optional) center"
    [("radius", "tfloat"), ("center", "tvec3")]

def polygon : Descriptor :=
  function "shapes" "polygon" "A polygon with center-to-vertex distance r and n sides"
    [("r", "tfloat"), ("n", "int"), ("center", "tvec2")]

def emptiness : Descriptor := function "shapes" "emptiness" "A volume that is empty everywhere" []

def union : Descriptor :=
  function "csg" "union" "Returns the union of two shapes" [("a", "libfive_tree"), ("b", "libfive_tree")]

def inverse : Descriptor :=
  function "csg" "inverse" "Returns a shape that's the inverse of the input shape" [("a", "libfive_tree")]

def blend : Descriptor :=
  function "csg" "blend" "Blends two shapes by the given amount"
    [("a", "libfive_tree"), ("b", "libfive_tree"), ("m", "tfloat")]

def move : Descriptor :=
  function "transforms" "move" "Moves the given shape in 2D or 3D space"
    [("t", "libfive_tree"), ("offset", "tvec3")]

def scaleX : Descriptor :=
  function "transforms" "scale_x" "Scales a shape by sx on the x axis about x0"
    [("t", "libfive_tree"), ("sx", "tfloat"), ("x0", "tfloat")]

def arrayX : Descriptor :=
  function "generators" "array_x" "Iterates a part in a 1D array"
    [("shape", "libfive_tree"), ("nx", "int"), ("dx", "tfloat")]

def extrudeZ : Descriptor :=
  function "generators" "extrude_z" "Extrudes a 2D shape between zmin and zmax"
    [("t", "libfive_tree"), ("zmin", "tfloat"), ("zmax", "tfloat")]

def text : Descriptor :=
  function "text" "text" "Renders the given text as a 2D shape" [("txt", "const char*"), ("pos", "tvec2")]

/-- What the bundled header states. -/
def table : Table where
  modules :=
    [⟨"shapes", [circle, sphere, polygon, emptiness]⟩, ⟨"csg", [union, inverse, blend]⟩,
     ⟨"transforms", [move, scaleX]⟩, ⟨"generators", [arrayX, extrudeZ]⟩, ⟨"text", [text]⟩]

/-- The conventions of the modules that are generated from the bundled header. -/
def plan : Plan :=
  ({} : Plan) |>.assign "csg" .receiver |>.assign "transforms" .receiver |>.assign "shapes" .free
    |>.assign "generators" .free

/-! ### Its functions -/

/-- What the functions of the header are checked for. -/
theorem functions_checked : ∀ d ∈ table.functions,
    ((d.args.map fun a => escapeKeyword a.name).Nodup ∧ "_" ∉ d.args.map fun a => escapeKeyword a.name) ∧
    (d.moduleName ≠ textModuleName →
      (∃ c ∈ plan.convention? d.moduleName, (d.signature c .standard).toOption.isSome = true) ∧
        ∀ a ∈ d.args, a.kind ≠ some .str) := by
  decide

/-- Under the bundled plan, a wrapper can be generated for every function outside the text module. -/
theorem exists_signature {d : Descriptor} (hd : d ∈ table.functions) (hm : d.moduleName ≠ textModuleName) :
    ∃ c s, plan.convention? d.moduleName = some c ∧ d.signature c .standard = .ok s := by
  obtain ⟨c, hc, hs⟩ := ((functions_checked d hd).2 hm).1
  obtain ⟨s, hs⟩ := exists_of_isSome_toOption hs
  exact ⟨c, s, hc, hs⟩

/-- Texts are given to the functions of the text module only. -/
theorem kind_ne_str : ∀ d ∈ table.functions, d.moduleName ≠ textModuleName → ∀ a ∈ d.args, a.kind ≠ some .str :=
  fun d hd hm => ((functions_checked d hd).2 hm).2

/-- The names of the parameters are distinct, and each of them can be used. -/
theorem paramNames : ∀ d ∈ table.functions,
    (d.args.map fun a => escapeKeyword a.name).Nodup ∧ "_" ∉ d.args.map fun a => escapeKeyword a.name :=
  fun d hd => (functions_checked d hd).1

/-! ### Its text -/

theorem parse_header : Header.parse Header.standardSymbolPrefix header = .ok table := by
  rw [Header.parse, header, headerLines]
  simp only [toList_unlines_cons]
  -- the characters of a literal take the kernel far longer to compute than the parse
  repeat rw [String.toList_ofList]
  decide +kernel

theorem wellFormed {d : Descriptor} (hd : d ∈ table.functions) : d.WellFormed :=
  (Header.functions_of_parse parse_header hd).1

end ShapeBindings.Stdlib
