/-!
# Searching in a text

`cutAt` splits a text around the first occurrence of a pattern, `after?` removes a pattern that
the text starts with.
-/

namespace ShapeBindings.Text

/-- What follows `pattern`, if the text starts with it. -/
def after? (pattern s : List Char) : Option (List Char) := pattern.isPrefixOf? s

/-- The texts before and after the first occurrence of `pattern`. -/
def cutAt (pattern : List Char) : List Char → Option (List Char × List Char)
  | [] => (after? pattern []).map ([], ·)
  | c :: s =>
    match after? pattern (c :: s) with
    | some rest => some ([], rest)
    | none => (cutAt pattern s).map fun (before, rest) => (c :: before, rest)

end ShapeBindings.Text
