import LayoutRebuild.Diagnostic.Basic

/-!
# The text of a diagnostic in the build log

A headline, the path on a line of its own, then the notes and the suggestions.
-/

namespace LayoutRebuild.Diagnostic

/-- The severity and the code, set off by colour on a terminal. -/
def headline (color : Bool) (d : Diagnostic) : String :=
  let label := d.severity.label ++ "[" ++ d.code.display ++ "]"
  if color then
    "\x1b[1;" ++ toString d.severity.color ++ "m" ++ label ++ "\x1b[0m"
  else label

/-- The lines of one diagnostic, each with its line end. -/
def lines (color : Bool) (d : Diagnostic) : List String :=
  (d.headline color ++ ": " ++ d.message ++ "\n") ::
    (d.path.toList.map fun path => "  --> " ++ path.text ++ "\n") ++
    (d.notes.map fun note => "   = note: " ++ note ++ "\n") ++
    (d.help.map fun help => "   = help: " ++ help ++ "\n")

/-- The text of one diagnostic. -/
def render (color : Bool) (d : Diagnostic) : String := String.join (d.lines color)

/-- The text of several diagnostics. -/
def renderAll (color : Bool) (ds : List Diagnostic) : String := String.join (ds.map (render color))

end LayoutRebuild.Diagnostic
