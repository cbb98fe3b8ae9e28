/-!
# Indented layout

Containers are laid out with two spaces of indentation for every container
around a line, and with one item on a line.
-/

namespace TemplatedJson.Layout

def indentation (level : Nat) : String :=
  String.ofList (List.replicate (2 * level) ' ')

/-- The items of a container that stands inside `level` others, each on a line
of its own between the two brackets. -/
def block (level : Nat) (opening closing : String) (items : List String) : String :=
  opening ++ "\n" ++
    String.intercalate ",\n" (items.map fun item => indentation (level + 1) ++ item) ++
    "\n" ++ indentation level ++ closing

end TemplatedJson.Layout
