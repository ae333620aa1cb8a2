import ShapeBindings.Calendar
import ShapeBindings.Text.Lines

/-!
# Banners

Every generated unit opens with a comment that says where it comes from, and, on the one line that
holds `provenanceMarker`, when and by whom it was made.
-/

namespace ShapeBindings

open Text

structure Provenance where
  generatedAt : String
  user : String
  deriving DecidableEq

/-- The provenance at a number of seconds since the start of 1970; an earlier time counts as that
start. -/
def Provenance.atTime (secs : Int) (user : String) : Provenance :=
  ⟨(CivilTime.ofSeconds secs.toNat).render, user⟩

/-- Where the content of a unit comes from. -/
inductive Origin where
  /-- The descriptors of a source. -/
  | table (source : String)
  /-- A text written by hand. -/
  | template
  deriving DecidableEq

def Origin.line : Origin → String
  | table source => s!"// This file is automatically generated from {source}."
  | template => "// This file is copied verbatim from the fivebind text template."

/-- The words that the provenance line starts with. -/
def provenanceMarker : String := "It was last generated on"

def Provenance.line (p : Provenance) : String :=
  s!"// {provenanceMarker} {p.generatedAt} by user {p.user}."

def bannerLines (moduleName : String) (origin : Origin) (provenance : Provenance) : List String :=
  ["//",
   s!"// Rust API for the libfive standard library's '{moduleName}' module.",
   "//",
   "// DO NOT EDIT BY HAND!",
   origin.line,
   "//",
   provenance.line,
   "//"]

def banner (moduleName : String) (origin : Origin) (provenance : Provenance) : String :=
  unlines (bannerLines moduleName origin provenance)

end ShapeBindings
