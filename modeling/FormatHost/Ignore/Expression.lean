import FormatHost.Ignore.Glob

/-! # Patterns as regular expressions

Every pattern stands for a regular expression, though the plainest are matched without one.
Expressions may be nested only so deep, and patterns that are used together are of no use if one of
them is nested deeper. How that pattern is matched decides how it is named then: by its number among
the others that are matched at the same time, or by its expression.
-/

namespace FormatHost.Glob

/-- A regular expression for bytes. -/
inductive Expression where
  /-- Something without parts, as it is written. -/
  | atom (text : String)
  /-- One byte in, or outside of, some ranges. -/
  | oneOf (negated : Bool) (ranges : List (UInt8 × UInt8))
  /-- An expression with a mark behind it that says how often it may come. -/
  | repeated (mark : Char) (inner : Expression)
  /-- Sequences of expressions to choose from. -/
  | group (branches : List (List Expression))
deriving Inhabited

namespace Expression

/-! ## Nesting -/

/-- The level that a list of parts adds: none if there is only one part. -/
def level {α : Type} : List α → Nat
  | [] | [_] => 0
  | _ :: _ :: _ => 1

mutual

def nesting : Expression → Nat
  | .atom _ => 0
  | .oneOf _ ranges => 1 + level ranges
  | .repeated _ inner => 1 + inner.nesting
  | .group branches => 1 + level branches + deepestBranch branches

/-- The nesting of the deepest of some expressions. -/
def deepest : List Expression → Nat
  | [] => 0
  | part :: rest => max part.nesting (deepest rest)

def deepestBranch : List (List Expression) → Nat
  | [] => 0
  | branch :: rest => max (level branch + deepest branch) (deepestBranch rest)

end

def sequenceNesting (sequence : List Expression) : Nat :=
  level sequence + deepest sequence

/-! ## Writing -/

/-- The characters that mean something in an expression. -/
def marks : List Char := "\\.+*?()|[]\x7b\x7d^$#&-~".toList

def byteText (b : UInt8) : String :=
  let c := Char.ofNat b.toNat
  if 0x80 ≤ b then "\\x" ++ String.ofList (Nat.toDigits 16 b.toNat)
  else if marks.contains c then "\\" ++ c.toString
  else c.toString

def rangeText (range : UInt8 × UInt8) : String :=
  if range.1 = range.2 then byteText range.1 else byteText range.1 ++ "-" ++ byteText range.2

mutual

def text : Expression → String
  | .atom text => text
  | .oneOf negated ranges =>
    "[" ++ (if negated then "^" else "") ++ String.join (ranges.map rangeText) ++ "]"
  | .repeated mark inner => inner.text ++ mark.toString
  | .group branches => "(?:" ++ branchesText branches ++ ")"

def sequenceText : List Expression → String
  | [] => ""
  | part :: rest => part.text ++ sequenceText rest

def branchesText : List (List Expression) → String
  | [] => ""
  | [branch] => sequenceText branch
  | branch :: rest => sequenceText branch ++ "|" ++ branchesText rest

end

/-! ## Expressions of patterns -/

def notSlash : Expression := .oneOf true [(slash, slash)]

def oneSlash : Expression := .atom "/"

def anything : Expression := .repeated '*' (.atom ".")

end Expression

open Expression in
mutual

/-- The expressions that a part of a pattern stands for, one after another. -/
def Token.expressions : Token → List Expression
  | .literal b => [.atom (byteText b)]
  | .any => [notSlash]
  | .many => [.repeated '*' notSlash]
  | .oneOf negated ranges => [.oneOf negated ranges]
  | .anyDirectories => [.group [[.repeated '?' oneSlash], [anything, oneSlash]]]
  | .everythingBelow => [oneSlash, anything]
  | .anyBetween => [.group [[oneSlash], [oneSlash, anything, oneSlash]]]
  | .alternatives branches =>
    match branchExpressions branches with
    | [] => []
    | choices => [.group choices]

/-- The expressions that the parts of a pattern stand for. -/
def allExpressions : List Token → List Expression
  | [] => []
  | token :: rest => token.expressions ++ allExpressions rest

/-- The expressions of some alternatives. Those with nothing to them do not count. -/
def branchExpressions : List (List Token) → List (List Expression)
  | [] => []
  | branch :: rest =>
    match allExpressions branch with
    | [] => branchExpressions rest
    | sequence => sequence :: branchExpressions rest

end

/-- The expression of a pattern: it is for bytes and for whole paths. -/
def expression (glob : Glob) : List Expression :=
  let inner :=
    match glob.tokens with
    | [.anyDirectories] => [Expression.anything]
    | tokens => allExpressions tokens
  [.atom "(?-u)", .atom "^"] ++ inner ++ [.atom "$"]

def nestingLimit : Nat := 250

def isTooDeep (glob : Glob) : Bool :=
  nestingLimit < Expression.sequenceNesting glob.expression

/-! ## Patterns that are used together -/

/-- How a pattern is matched. -/
inductive Manner where
  /-- Without an expression. -/
  | plain
  /-- By its expression, if a path has its extension. -/
  | byExtension
  /-- By its expression, at the same time as others. -/
  | byExpression
deriving DecidableEq

/-- Whether a part of a pattern stands for itself. -/
def Token.isLiteral : Token → Bool
  | .literal _ => true
  | _ => false

/-- Whether a part of a pattern is a character of a name, a question mark or a star. -/
def Token.isForNames : Token → Bool
  | .literal b => b != slash
  | .any | .many => true
  | _ => false

def dot : UInt8 := 0x2E

/-- Whether a part of a pattern can belong to an extension. -/
def Token.isForExtensions : Token → Bool
  | .literal b => b != slash && b != dot
  | _ => false

/-- Whether a pattern needs no expression: it is a path, the end of a path, a name anywhere, perhaps
with stars and question marks in it, or a directory with everything below it. -/
def isPlain : List Token → Bool
  | [] | [.anyDirectories] => false
  | .anyDirectories :: rest => rest.all Token.isLiteral || rest.all Token.isForNames
  | tokens =>
    match tokens.getLast? with
    | some .everythingBelow => tokens.dropLast.all Token.isLiteral
    | _ => tokens.all Token.isLiteral

def hasExtension (tokens : List Token) : Bool :=
  match tokens.reverse.dropWhile Token.isForExtensions with
  | .literal b :: _ => b == dot
  | _ => false

def manner (glob : Glob) : Manner :=
  if isPlain glob.tokens then .plain
  else if hasExtension glob.tokens then .byExtension
  else .byExpression

/-- Why patterns cannot be used together. -/
inductive SetFault where
  /-- One of those that are matched at the same time is nested too deep. -/
  | deepAmong (number : Nat)
  /-- One that is matched by itself is nested too deep. -/
  | deepAlone (expression : String)

def SetFault.message : SetFault → String
  | .deepAmong number => "error parsing pattern " ++ toString number
  | .deepAlone expression => "error parsing glob '" ++ expression ++ "': error parsing pattern 0"

/-- Why some patterns cannot be used together, if they cannot. Those that are matched by themselves
are looked at first. -/
def setFault? (globs : List Glob) : Option SetFault :=
  match (globs.filter (·.manner == .byExtension)).find? isTooDeep with
  | some glob => some (.deepAlone (Expression.sequenceText glob.expression))
  | none => ((globs.filter (·.manner == .byExpression)).findIdx? isTooDeep).map .deepAmong

end FormatHost.Glob
