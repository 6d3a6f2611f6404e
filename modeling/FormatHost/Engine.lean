import FormatHost.Buffer
import FormatHost.Render

/-! # Engines

An engine formats whole texts and, if it can, trees. It is started once before it is used. Engines
may keep a state of their own, which every call can change.
-/

namespace FormatHost

def version : String := "0.4.2"

/-- Something that formats. -/
structure Engine (σ : Type) where
  name : String
  /-- Gets the engine ready. -/
  start : σ → Except HostError Unit × σ
  /-- Formats a whole text. -/
  format : σ → Bytes → Except FormatFailure Result × σ
  /-- The tokens of a tree over its source. -/
  render : σ → Bytes → Bytes → Except FormatFailure (List Bytes) × σ

namespace Engine

/-- What an engine says that formats whole texts only. -/
def noTrees : FormatFailure :=
  .unsupported "tree formatting"

/-- The start of the built-in engine, which refuses layouts with too wide an indentation. -/
def startBuiltin (layout : Layout) : Except HostError Unit :=
  if Layout.widestIndent < layout.indentWidth then
    .error (.startFailed ("indent width " ++ toString layout.indentWidth ++ " exceeds " ++
      toString Layout.widestIndent))
  else .ok ()

/-- The built-in engine with a layout. It has no state. -/
def builtin (σ : Type) (layout : Layout) : Engine σ where
  name := "builtin"
  start s := (startBuiltin layout, s)
  format s source := ((layout.formatBytes source).map Result.owned, s)
  render s source tree := (layout.renderBytes source tree, s)

end Engine

end FormatHost
