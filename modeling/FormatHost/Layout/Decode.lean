import FormatHost.Json.Record
import FormatHost.Layout

/-! # Layouts written in JSON

A layout is an object with the members `indent_width` and `max_blank_lines`, both of which may be
absent, or a list of up to two numbers.
-/

namespace FormatHost.Layout

open Json

/-- A layout of which some members have been read. -/
structure Draft where
  indentWidth : Option Nat
  maxBlankLines : Option Nat

def indentWidthSlot : Slot Draft where
  name := "indent_width"
  filled draft := draft.indentWidth.isSome
  read draft s := do
    let (n, rest) ← readOffset s
    .ok ({ draft with indentWidth := some n }, rest)

def maxBlankLinesSlot : Slot Draft where
  name := "max_blank_lines"
  filled draft := draft.maxBlankLines.isSome
  read draft s := do
    let (n, rest) ← readOffset s
    .ok ({ draft with maxBlankLines := some n }, rest)

/-- A draft with what is absent taken from the standard layout. -/
def Draft.fill (draft : Draft) : Layout :=
  ⟨draft.indentWidth.getD standard.indentWidth, draft.maxBlankLines.getD standard.maxBlankLines⟩

def record : Record Draft Layout where
  what := "struct LayoutConfig"
  blank := ⟨none, none⟩
  slots := [indentWidthSlot, maxBlankLinesSlot]
  required := 0
  complete draft := .ok draft.fill

def ofJson (text : Bytes) : Except Fault Layout :=
  readWhole (record.read true) text

def toJson (layout : Layout) : String :=
  "\x7b\"indent_width\":" ++ toString layout.indentWidth ++ ",\"max_blank_lines\":" ++
    toString layout.maxBlankLines ++ "\x7d"

/-- A layout in words, with the names of its fields. -/
def describe (layout : Layout) : String :=
  "LayoutConfig \x7b indent_width: " ++ toString layout.indentWidth ++ ", max_blank_lines: " ++
    toString layout.maxBlankLines ++ " \x7d"

end FormatHost.Layout
