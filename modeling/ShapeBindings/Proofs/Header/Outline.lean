import ShapeBindings.Proofs.Header.Declarations
import ShapeBindings.Table

/-!
# Outlines of headers and their layouts

* `Outline`: what a header states, as a list of section markers and functions;
* `Outline.table`: the table of an outline, section by section and function by function;
* `Layout items s`: the text `s` is a way to write the items down.  Every item starts on a line of its own.  Inside the
  parentheses of a declaration there may be blanks and line breaks at will, and its documentation stands there in
  line comments.
-/

namespace ShapeBindings.Header

open Text

/-! ### Outlines -/

/-- A token of a type: a star, or a word without the characters that mean something in a header. -/
def IsTypeToken (t : List Char) : Prop :=
  t = ['*'] ∨ t ≠ [] ∧ ∀ c ∈ t, isBlank c = false ∧ c ∉ ['*', ',', ';', '/']

/-- A parameter with a type and a name. -/
structure Formal.Sound (f : Formal) : Prop where
  type_ne_nil : f.type ≠ []
  token : ∀ t ∈ f.type, IsTypeToken t
  name : isIdentifier f.name = true

/-- The type of a parameter as one text: one blank between two tokens, and none before a star. -/
def Formal.spelling (f : Formal) : String := String.ofList (joinTypeWords f.type)

/-- A line of documentation. -/
structure IsDocLine (d : List Char) : Prop where
  trim_eq : trim d = d
  ne_nil : d ≠ []
  newline : '\n' ∉ d
  comment : ¬ ['/', '*'] <:+: d

/-- A function of an outline. -/
structure FunctionItem where
  /-- Its name. -/
  name : String
  /-- Its parameters in order. -/
  params : List Formal
  /-- The lines of its documentation. -/
  doc : List (List Char)
  deriving DecidableEq

namespace FunctionItem

structure Sound (f : FunctionItem) : Prop where
  name : isIdentifier f.name = true
  params : ∀ q ∈ f.params, q.Sound
  doc : ∀ d ∈ f.doc, IsDocLine d

/-- What a function states in a module. -/
def descriptor (symbolPrefix moduleName : String) (f : FunctionItem) : Descriptor where
  publicName := f.name
  rawName := symbolPrefix ++ f.name
  moduleName := moduleName
  args := f.params.mapIdx fun i q => ⟨q.name, q.spelling, i⟩
  doc := if f.doc = [] then none else some (String.ofList (['\n'].intercalate f.doc))

end FunctionItem

/-- An item of an outline. -/
inductive Item where
  /-- A section starts. -/
  | marker (name : String)
  /-- A function of the section. -/
  | function (f : FunctionItem)
  deriving DecidableEq

namespace Item

/-- Names are identifiers, and types and documentation can be written in a declaration. -/
def Sound : Item → Prop
  | marker name => isIdentifier name = true
  | function f => f.Sound

/-- Every function's symbol is an identifier. -/
def Linkable (symbolPrefix : String) : Item → Prop
  | marker _ => True
  | function f => isIdentifier (symbolPrefix ++ f.name) = true

/-- Adds an item to a table and the name of the section that the next function belongs to. -/
def record (symbolPrefix : String) : Table × String → Item → Table × String
  | (t, _), marker name => (t.ensure name, name)
  | (t, moduleName), function f => (t.push (f.descriptor symbolPrefix moduleName), moduleName)

end Item

/-- What a header states: sections and functions, a section first. -/
structure Outline where
  /-- The sections and functions in order. -/
  items : List Item
  sound : ∀ i ∈ items, i.Sound
  opening : ∀ i ∈ items.head?, ∃ name, i = .marker name

/-- The table of an outline. -/
def Outline.table (symbolPrefix : String) (o : Outline) : Table :=
  (o.items.foldl (Item.record symbolPrefix) ({}, "")).1

/-! ### Layouts -/

/-- `DocLines ds s`: the text `s`, which starts on a new line, holds a line comment for each line of `ds`. -/
inductive DocLines : List (List Char) → List Char → Prop
  | blanks {a} (ha : Blanks a) : DocLines [] a
  | cons {d a b ds s} (ha : Blanks a) (hb : Blanks b) (hline : '\n' ∉ b) (hs : DocLines ds s) :
      DocLines (d :: ds) (a ++ ("// ".toList ++ (d ++ (b ++ '\n' :: s))))

/-- `Gap ds g`: the text `g` may stand between two tokens of a declaration, with the documentation `ds` in it. -/
inductive Gap : List (List Char) → List Char → Prop
  | blanks {a} (ha : Blanks a) : Gap [] a
  | lines {a ds s} (ha : Blanks a) (hs : DocLines ds s) : Gap ds (a ++ '\n' :: s)

/-- Whether a token of a parameter list is a word. -/
def isWord (t : List Char) : Bool := t ≠ ['*'] ∧ t ≠ [',']

/-- `Spelled after ts ds s`: the text `s` holds the tokens `ts` with gaps around them.  Two words do not touch; `after`
says that a word stands before the text. -/
inductive Spelled : Bool → List (List Char) → List (List Char) → List Char → Prop
  | gap {after ds g} (hg : Gap ds g) : Spelled after [] ds g
  | token {after t ts ds es g s} (hg : Gap ds g) (hne : after = true → isWord t = true → g ≠ [])
      (hs : Spelled (isWord t) ts es s) : Spelled after (t :: ts) (ds ++ es) (g ++ (t ++ s))

/-- The tokens of a parameter list. -/
def listTokens (fs : List Formal) : List (List Char) := [[',']].intercalate (fs.map Formal.tokens)

/-- The text between the parentheses of a declaration. -/
inductive ListText : List Formal → List (List Char) → List Char → Prop
  | tokens {fs ds s} (hs : Spelled false (listTokens fs) ds s) : ListText fs ds s
  | void {ds s} (hs : Spelled false ["void".toList] ds s) : ListText [] ds s

/-- The text of an item. -/
inductive ItemText : Item → List Char → Prop
  | marker {name a b c} (ha : Blanks a) (hb : Blanks b) (hc : Blanks c) (hline : '\n' ∉ a ++ (b ++ c)) :
      ItemText (.marker name) (sectionMarker.toList ++ (a ++ '(' :: (b ++ (name.toList ++ (c ++ [')'])))))
  | function {f a b ds es g s} (ha : Blanks a) (hne : a ≠ []) (hline : '\n' ∉ a) (hb : Blanks b)
      (hs : ListText f.params ds s) (hg : Gap es g) (hdoc : f.doc = ds ++ es) :
      ItemText (.function f)
        (declarationMarker.toList ++ (a ++ (f.name.toList ++ (b ++ '(' :: (s ++ ')' :: (g ++ [';']))))))

/-- A line ends at `e`, where the whole text ends or the lines of `s` follow. -/
inductive LineEnd : List Char → List Char → Prop
  | last : LineEnd [] []
  | newline (s : List Char) : LineEnd ('\n' :: s) s

/-- The text of some items, every one on lines of its own. -/
inductive Layout : List Item → List Char → Prop
  | blanks {a} (ha : Blanks a) : Layout [] a
  | item {i is a t b e s} (ha : Blanks a) (hi : ItemText i t) (hb : Blanks b) (hline : '\n' ∉ b) (he : LineEnd e s)
      (hs : Layout is s) : Layout (i :: is) (a ++ (t ++ (b ++ e)))

end ShapeBindings.Header
