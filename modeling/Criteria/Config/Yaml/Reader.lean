import Criteria.Config.Yaml.Layout
import Criteria.Config.Yaml.Selection

/-!
# Reading YAML

A text is laid out as glyphs, cut into tokens, and read as a tree; an outline says what is looked
for in it.
-/

namespace Criteria.Config.Yaml

/-- The tree of a YAML text. -/
def Node.ofText? (text : String) : Option Node := do
  Node.ofTokens? (← Token.ofGlyphs? (← Glyph.ofText? text))

/-- Reads what is looked for in a YAML text. -/
def read? (outline : Outline) (text : String) : Option Document := do
  (← Node.ofText? text).document? outline

end Criteria.Config.Yaml
