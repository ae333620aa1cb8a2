import ShapeBindings.SourceUnit

/-!
# Convention plans

A plan says which modules are generated, and how: by an entry of their own, else by the fallback,
and never if they are excluded. `Plan.units` makes the units of a table under a plan.
-/

namespace ShapeBindings

/-- Which convention each module is generated with. -/
structure Plan where
  conventions : Dictionary Convention := {}
  /-- The convention of the modules without an entry. -/
  fallback : Option Convention := none
  /-- The modules that are never generated. -/
  excluded : Dictionary Unit := {}

namespace Plan

def assign (p : Plan) (name : String) (convention : Convention) : Plan :=
  { p with conventions := p.conventions.insert name convention }

/-- Sets the convention of the modules without an entry. -/
def withFallback (p : Plan) (convention : Convention) : Plan :=
  { p with fallback := some convention }

/-- Removes a module, whatever is said about it before or later. -/
def exclude (p : Plan) (name : String) : Plan :=
  { p with
    conventions := p.conventions.erase name
    excluded := p.excluded.insert name () }

def isExcluded (p : Plan) (name : String) : Bool := p.excluded.contains name

/-- The convention of a module, if it is to be generated. -/
def convention? (p : Plan) (name : String) : Option Convention :=
  if p.isExcluded name then none else (p.conventions.get? name).or p.fallback

/-- The modules with an entry of their own, in increasing order. -/
def explicitModules (p : Plan) : List String := p.conventions.names

/-- The unit of a module, if the plan wants one. -/
def unit? (p : Plan) (options : UnitOptions) (m : Module) :
    Except WrapperError (Option SourceUnit) :=
  match p.convention? m.name with
  | some convention => (m.unit convention options).map some
  | none => .ok none

/-- The units of a table in its order, or the first failure. Renames are checked before. -/
def units (p : Plan) (t : Table) (options : UnitOptions) :
    Except WrapperError (List SourceUnit) := do
  options.naming.validate
  let units ← t.modules.mapM (p.unit? options)
  return units.reduceOption

/-- What is reported about one module. -/
def moduleRecords (p : Plan) (options : UnitOptions) (m : Module) : List LogRecord :=
  if p.isExcluded m.name then
    [⟨.debug, .assembly, s!"module '{m.name}' excluded from generation"⟩]
  else
    match p.convention? m.name with
    | some convention => m.assemblyRecords convention options
    | none =>
      [⟨.warn, .assembly,
        s!"skipping module '{m.name}': no calling convention configured"⟩]

/-- What is reported about the entries for modules that the table does not have. -/
def absentRecords (p : Plan) (t : Table) (options : UnitOptions) : List LogRecord :=
  (p.explicitModules.filter fun name => (t.module? name).isNone).map fun name =>
    ⟨.warn, .assembly,
      s!"module '{name}' is configured but not present in {options.source}"⟩

/-- What is reported while the units of a table are made. -/
def records (p : Plan) (t : Table) (options : UnitOptions) : List LogRecord :=
  match options.naming.validate with
  | .error _ => []
  | .ok _ =>
    p.absentRecords t options ++
      recordsUntilFailure t.modules (p.unit? options) (p.moduleRecords options)

end Plan

end ShapeBindings
