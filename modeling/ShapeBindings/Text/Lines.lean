/-!
# Lines

A line ends with a line feed, before which one carriage return belongs to the ending. `lines`
reads the lines of a text, `unlines` writes each of its lines with a line feed after it.
-/

namespace ShapeBindings.Text

/-- The lines of a text. The last one needs no ending, and a carriage return that no line feed
follows is an ordinary character. -/
def lines : List Char → List (List Char)
  | [] => []
  | '\n' :: s => [] :: lines s
  | '\r' :: '\n' :: s => [] :: lines s
  | c :: s =>
    match s with
    | [] => [[c]]
    | _ :: _ =>
      match lines s with
      | [] => [[c]]
      | l :: ls => (c :: l) :: ls

/-- Each line followed by a line feed. -/
def unlines (ls : List String) : String :=
  String.join (ls.map (· ++ "\n"))

end ShapeBindings.Text
