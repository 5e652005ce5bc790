import Restyle.Bundle.Animations
import Restyle.Theme.Tokens

/-!
Stylesheets: blocks of custom properties, one declaration a line.
-/

namespace Restyle

/-- A selector with the custom properties that it declares. -/
structure StyleBlock where
  selector : String
  declarations : List (String × String)
  deriving DecidableEq, Repr

namespace StyleBlock

/-- The line of a declaration. -/
def line (declaration : String × String) : String :=
  "  --" ++ declaration.1 ++ ": " ++ declaration.2 ++ ";\n"

def text (b : StyleBlock) : String :=
  b.selector ++ " \x7b\n" ++ String.join (b.declarations.map line) ++ "\x7d\n"

end StyleBlock

namespace Tokens

/-- Colors as declarations. -/
def colorDeclarations (colors : List (String × Color)) : List (String × String) :=
  colors.map fun (name, c) => (name, c.text)

/-- The radius and the colors of the light theme. -/
def lightDeclarations (t : Tokens) : List (String × String) :=
  ("radius", t.radius.text) :: colorDeclarations t.colors.declared

/-- The colors that the dark theme overrides. -/
def darkDeclarations (t : Tokens) : List (String × String) :=
  colorDeclarations t.darkColors.declared

/-- The fonts. -/
def fontDeclarations (t : Tokens) : List (String × String) :=
  [("font-sans", t.fonts.body), ("font-heading", t.fonts.heading), ("font-mono", t.fonts.mono)]

/-- The blocks of the theme's stylesheet. -/
def styleBlocks (t : Tokens) : List StyleBlock :=
  [⟨":root", t.lightDeclarations⟩, ⟨".dark", t.darkDeclarations⟩,
    ⟨"@theme inline", t.fontDeclarations⟩]

/-- The theme's stylesheet, with an empty line between blocks. -/
def css (t : Tokens) : String :=
  "\n".intercalate (t.styleBlocks.map StyleBlock.text)

end Tokens

namespace Bundle

/-- A name without the dashes, in pairs, that it starts with. -/
def bareName : List Char → List Char
  | '-' :: '-' :: rest => bareName rest
  | cs => cs

/-- The variables of a component as declarations. -/
def declarations (b : Bundle) : List (String × String) :=
  b.cssVars.entries.map fun (name, value) => (String.ofList (bareName name.toList), value)

/-- The stylesheet of a component: its variables and its keyframes. -/
def css (b : Bundle) : String :=
  let vars := if b.declarations.isEmpty then "" else StyleBlock.text ⟨":root", b.declarations⟩
  let keyframes := Animations.keyframesCss b.animations
  let gap := if vars.isEmpty then "" else "\n"
  if keyframes.isEmpty then vars else vars ++ gap ++ keyframes ++ "\n"

end Bundle

end Restyle
