import ShapeBindings.Toml.Value

/-!
# Building tables

A key is a path. `setKey` puts a value below a table; `Section.addTo` puts the table of a header, or
an element of an array of tables, below the document. Both refuse what would define something twice
or add to something that is complete.
-/

namespace ShapeBindings.Toml

/-- Replaces the value of a key, or adds one. -/
def alterEntry (key : String) (f : Option Value → Option Value) : Entries → Option Entries
  | [] => (f none).map fun v => [(key, v)]
  | (k, v) :: es =>
    if k = key then (f (some v)).map fun v => (k, v) :: es
    else (alterEntry key f es).map ((k, v) :: ·)

/-- Whether a path that makes tables of form `made` may lead through a table: never through one
between braces, and with dotted keys not through one that has a header. -/
def TableForm.passes (made : TableForm) : TableForm → Bool
  | .inline => false
  | .stated => made != .dotted
  | .implied => true
  | .dotted => true

/-- Changes the table at the end of a path by `f`, which also sees how that table was written.
Tables that are missing on the way are made in the form `made`; an array of tables stands for its
last element. -/
def alterAt (made : TableForm) (f : TableForm → Entries → Option Entries) :
    List String → TableForm → Entries → Option Entries
  | [], form, es => f form es
  | part :: parts, _, es =>
    alterEntry part (fun
      | none => (alterAt made f parts made []).map (.table made)
      | some (.table form sub) =>
        if made.passes form then (alterAt made f parts form sub).map (.table form) else none
      | some (.array .tables items) =>
        match items.getLast? with
        | some (.table form sub) =>
          (alterAt made f parts form sub).map fun sub =>
            .array .tables (items.dropLast ++ [.table form sub])
        | _ => none
      | some _ => none) es

structure KeyValue where
  /-- The parts of the key before the last one. -/
  path : List String
  key : String
  value : Value

/-- Sets a key below a table of some form. A key of several parts ends in a table that comes from
dotted keys, a key of one part in one that does not. -/
def setKey (form : TableForm) (es : Entries) (kv : KeyValue) : Option Entries :=
  alterAt .dotted (fun form es =>
    if (form == .dotted) == kv.path.isEmpty || (es.lookup kv.key).isSome then none
    else some (es ++ [(kv.key, kv.value)])) kv.path form es

def setKeys (form : TableForm) (es : Entries) (kvs : List KeyValue) : Option Entries :=
  kvs.foldlM (setKey form) es

structure Section where
  /-- Whether the header opens an element of an array of tables. -/
  isElement : Bool
  /-- The parts of the header before the last one. -/
  path : List String
  key : String
  keyValues : List KeyValue

/-- The value that a section leaves where its header leads. A table may exist already if it was only
a part of longer headers. -/
def Section.valueOver (s : Section) : Option Value → Option Value
  | none => do
    let sub ← setKeys .stated [] s.keyValues
    return if s.isElement then .array .tables [.table .stated sub] else .table .stated sub
  | some (.table .implied sub) =>
    if s.isElement then none else (setKeys .stated sub s.keyValues).map (.table .stated)
  | some (.array .tables items) =>
    if s.isElement then
      (setKeys .stated [] s.keyValues).map fun sub =>
        .array .tables (items ++ [.table .stated sub])
    else none
  | some _ => none

def Section.addTo (es : Entries) (s : Section) : Option Entries :=
  alterAt .implied (fun _ es => alterEntry s.key s.valueOver es) s.path .stated es

/-- The entries of a document: the keys before the first header, and the sections. -/
def documentOf (kvs : List KeyValue) (sections : List Section) : Option Entries := do
  sections.foldlM Section.addTo (← setKeys .stated [] kvs)

end ShapeBindings.Toml
