import SyntaxDiagram.Figure

/-!
# Pages

A page shows drawings one below the other, each under a heading that links can point at.
-/

namespace SyntaxDiagram

namespace Page

/-- The start of a page. -/
def opening (theme : Theme) (title : String) : String :=
  "<!doctype html><title>" ++ Markup.escapeText title ++ "</title>" ++
    "\n<style>\n" ++ theme.style ++ "</style>\n<body>"

/-- The heading of a drawing, and its documentation if there is any. -/
def heading (identifier documentation : String) : String :=
  "\n<h1 id=\"" ++ Markup.escapeAttribute identifier ++ "\">" ++ Markup.escapeText identifier ++
    "</h1>\n" ++
    if documentation.isEmpty then "" else "<p>" ++ Markup.escapeText documentation ++ "</p>\n"

/-- A drawing on a page. -/
def block (m : Metrics) (theme : Theme) (drawing : Drawing) : Except Fault String := do
  let figure ← (← drawing.figure m theme).write
  return heading drawing.diagram.identifier drawing.diagram.documentation ++ figure ++ "\n"

/-- A page with a title and some drawings. -/
def write (m : Metrics) (theme : Theme) (title : String) (drawings : List Drawing) :
    Except Fault String := do
  let blocks ← drawings.mapM (block m theme)
  return opening theme title ++ String.join blocks

end Page

end SyntaxDiagram
