import FormatHost.Decimal.Shortest
import FormatHost.Json.Fault

/-! # Reading the parts of a JSON text

Readers take the input and give back what they read with the rest of the input. A problem is
reported either at the place reached or just behind the next byte. Loops are built from a step
that reads something, so they end when the input does.
-/

namespace FormatHost.Json

/-- Reads a value off the front of the input. -/
abbrev Reader (α : Type) := Bytes → Except Fault (α × Bytes)

/-- Reports a problem at the place reached. -/
def here {α : Type} (problem : Problem) (rest : Bytes) : Except Fault α :=
  .error ⟨problem, rest⟩

/-- Reports a problem behind the next byte, if there is one. -/
def peeked {α : Type} (problem : Problem) (rest : Bytes) : Except Fault α :=
  .error ⟨problem, rest.tail⟩

/-- The code of an ASCII character. -/
def byte (c : Char) : UInt8 :=
  c.toNat.toUInt8

/-- Whether a byte is insignificant between the parts of a text. -/
def isSpace (b : UInt8) : Bool :=
  b == byte ' ' || b == byte '\n' || b == byte '\t' || b == byte '\r'

/-- The input without the insignificant bytes in front. -/
def skipSpace (s : Bytes) : Bytes :=
  s.dropWhile isSpace

def isDigit (b : UInt8) : Bool :=
  byte '0' ≤ b && b ≤ byte '9'

def startsWithDigit (s : Bytes) : Bool :=
  match s with
  | [] => false
  | b :: _ => isDigit b

/-- What a step of a loop leads to. -/
inductive Next (σ α : Type) where
  | again (state : σ)
  | done (value : α)

/-- Repeats a step until it is done, at most once more than the bound has bytes. -/
def loopWithin {σ α : Type} (step : σ → Bytes → Except Fault (Next σ α × Bytes)) (bound : Bytes)
    (state : σ) (s : Bytes) : Except Fault (α × Bytes) :=
  match step state s with
  | .error fault => .error fault
  | .ok (.done value, rest) => .ok (value, rest)
  | .ok (.again state', rest) =>
    match bound with
    | [] => here .noValue rest
    | _ :: bound => loopWithin step bound state' rest

/-- Repeats a step until it is done. Every step but the last has to read something, so the input
itself bounds their number. -/
def loop {σ α : Type} (step : σ → Bytes → Except Fault (Next σ α × Bytes)) (state : σ) (s : Bytes) :
    Except Fault (α × Bytes) :=
  loopWithin step s state s

def keyword : Bytes → Bytes → Except Fault Bytes
  | [], s => .ok s
  | _ :: _, [] => here .endInValue []
  | k :: ks, b :: s => if b = k then keyword ks s else here .noKeyword s

/-! ## Strings -/

def hexValue? (b : UInt8) : Option Nat :=
  if isDigit b then some (b.toNat - 48)
  else if byte 'a' ≤ b && b ≤ byte 'f' then some (b.toNat - 87)
  else if byte 'A' ≤ b && b ≤ byte 'F' then some (b.toNat - 55)
  else none

def hexFour : Reader Nat
  | a :: b :: c :: d :: rest =>
    match hexValue? a, hexValue? b, hexValue? c, hexValue? d with
    | some a, some b, some c, some d => .ok (((a * 16 + b) * 16 + c) * 16 + d, rest)
    | _, _, _, _ => here .badEscape rest
  | _ => here .endInString []

/-- What follows a leading surrogate: a backslash, `u` and a trailing surrogate. -/
def trailSurrogate (leading : Nat) (s : Bytes) : Except Fault (Bytes × Bytes) :=
  match s with
  | [] => here .endInString []
  | b :: s =>
    if b != byte '\\' then here .unfinishedSurrogate s
    else
      match s with
      | [] => here .endInString []
      | u :: s =>
        if u != byte 'u' then here .unfinishedSurrogate s
        else do
          let (trailing, s) ← hexFour s
          if trailing < 0xDC00 || 0xDFFF < trailing then here .loneSurrogate s
          else
            let code := 0x10000 + (leading - 0xD800) * 0x400 + (trailing - 0xDC00)
            .ok (Utf8.encode [Char.ofNat code], s)

def unicodeEscape (s : Bytes) : Except Fault (Bytes × Bytes) := do
  let (code, s) ← hexFour s
  if 0xDC00 ≤ code && code ≤ 0xDFFF then here .loneSurrogate s
  else if 0xD800 ≤ code && code ≤ 0xDBFF then trailSurrogate code s
  else .ok (Utf8.encode [Char.ofNat code], s)

/-- What a letter after a backslash stands for. -/
def simpleEscape? (b : UInt8) : Option UInt8 :=
  if b == byte '"' || b == byte '\\' || b == byte '/' then some b
  else if b == byte 'b' then some 0x08
  else if b == byte 'f' then some 0x0C
  else if b == byte 'n' then some 0x0A
  else if b == byte 'r' then some 0x0D
  else if b == byte 't' then some 0x09
  else none

def escape (s : Bytes) : Except Fault (Bytes × Bytes) :=
  match s with
  | [] => here .endInString []
  | b :: s =>
    match simpleEscape? b with
    | some c => .ok ([c], s)
    | none => if b == byte 'u' then unicodeEscape s else here .badEscape s

/-- One step inside a string: the bytes read so far are in reverse order. -/
def stringStep (read : Bytes) (s : Bytes) : Except Fault (Next Bytes Bytes × Bytes) :=
  match s with
  | [] => here .endInString []
  | b :: s =>
    if b == byte '"' then .ok (.done read.reverse, s)
    else if b == byte '\\' then do
      let (bytes, s) ← escape s
      .ok (.again (bytes.reverse ++ read), s)
    else if b < 0x20 then here .controlCharacter s
    else .ok (.again (b :: read), s)

/-- Reads a string whose opening quote has been read. Bytes that are not UTF-8 are reported as many
bytes before the place behind the closing quote as the string has from the first faulty one on,
escapes counted by the bytes that they stand for. -/
def string : Reader String := fun s => do
  let (bytes, rest) ← loop stringStep [] s
  match Utf8.decode bytes with
  | .ok text => .ok (String.ofList text, rest)
  | .error fault =>
    let back := bytes.length - fault.validUpTo
    here .notUnicode (s.drop (s.length - rest.length - back))

/-! ## Numbers -/

/-- A number as it was written. -/
inductive Number where
  | natural (value : Nat)
  /-- A negative integer, by its absolute value. -/
  | negative (value : Nat)
  | float (value : Float)

def greatestWord : Nat := Nat.pow 2 64 - 1

/-- The greatest exponent that is kept as a number. -/
def greatestExponent : Nat := Nat.pow 2 31 - 1

/-- Adds digits to a significand as long as it stays within 64 bits. -/
def gatherDigits : Nat → Bytes → Nat × Bytes
  | significand, [] => (significand, [])
  | significand, b :: s =>
    let next := significand * 10 + (b.toNat - 48)
    if isDigit b && next ≤ greatestWord then gatherDigits next s else (significand, b :: s)

def powerOfTen (n : Nat) : Float :=
  Float.ofScientific 1 false n

def greatestPower : Nat := 308

/-- Divides by a power of ten, by at most the greatest finite one at a time. -/
def divideByPower (f : Float) (n : Nat) : Float :=
  if n ≤ greatestPower then f / powerOfTen n
  else if f == 0.0 then f
  else divideByPower (f / powerOfTen greatestPower) (n - greatestPower)
termination_by n
decreasing_by simp [greatestPower] at *; omega

/-- The float `significand · 10 ^ exponent`, if it is finite. -/
def floatOfParts? (positive : Bool) (significand : Nat) (exponent : Int) : Option Float :=
  let f := significand.toUInt64.toFloat
  let magnitude? : Option Float :=
    if exponent < 0 then some (divideByPower f exponent.natAbs)
    else if exponent.natAbs ≤ greatestPower then
      let product := f * powerOfTen exponent.natAbs
      if product.isInf then none else some product
    else if f == 0.0 then some f
    else none
  magnitude?.map fun f => if positive then f else -f

/-- The float `significand · 10 ^ exponent` as a number that was read. -/
def floatNumber (positive : Bool) (significand : Nat) (exponent : Int) : Reader Number := fun s =>
  match floatOfParts? positive significand exponent with
  | some f => .ok (.float f, s)
  | none => here .numberTooLarge s

/-- Reads the digits of an exponent after the first. Gives nothing for an exponent that is out of
range, with the input behind the digit that made it so. -/
def exponentDigits : Nat → Bytes → Option Nat × Bytes
  | exponent, [] => (some exponent, [])
  | exponent, b :: s =>
    if isDigit b then
      let next := exponent * 10 + (b.toNat - 48)
      if next ≤ greatestExponent then exponentDigits next s else (none, s)
    else (some exponent, b :: s)

def exponent (positive : Bool) (significand : Nat) (shift : Int) : Reader Number := fun s =>
  let (down, s) : Bool × Bytes :=
    match s with
    | b :: rest =>
      if b == byte '+' then (false, rest) else if b == byte '-' then (true, rest) else (false, s)
    | [] => (false, s)
  match s with
  | [] => here .endInValue []
  | b :: s =>
    if !isDigit b then here .badNumber s
    else
      match exponentDigits (b.toNat - 48) s with
      | (some e, s) => floatNumber positive significand (if down then shift - e else shift + e) s
      | (none, s) =>
        if significand != 0 && !down then here .numberTooLarge s
        else .ok (.float (if positive then 0.0 else -0.0), s.dropWhile isDigit)

def maybeExponent (positive : Bool) (significand : Nat) (shift : Int) : Reader Number := fun s =>
  match s with
  | b :: rest =>
    if b == byte 'e' || b == byte 'E' then exponent positive significand shift rest
    else floatNumber positive significand shift s
  | [] => floatNumber positive significand shift s

/-- Reads the digits after a decimal point. Digits that no longer fit are dropped. -/
def fraction (positive : Bool) (significand : Nat) (shift : Int) : Reader Number := fun s =>
  let (gathered, rest) := gatherDigits significand s
  let shift' : Int := shift - (s.length - rest.length : Nat)
  if startsWithDigit rest then maybeExponent positive gathered shift' (rest.dropWhile isDigit)
  else if rest.length = s.length then
    peeked (if rest.isEmpty then .endInValue else .badNumber) rest
  else maybeExponent positive gathered shift' rest

/-- Reads what may follow the integer part of a number. -/
def afterInteger (positive : Bool) (significand : Nat) : Reader Number := fun s =>
  let whole : Number :=
    if positive then .natural significand
    else if significand = 0 || Nat.pow 2 63 < significand then
      .float (-significand.toUInt64.toFloat)
    else .negative significand
  match s with
  | b :: rest =>
    if b == byte '.' then fraction positive significand 0 rest
    else if b == byte 'e' || b == byte 'E' then exponent positive significand 0 rest
    else .ok (whole, s)
  | [] => .ok (whole, s)

/-- Reads on after a significand that takes no more digits: they only count. -/
def longInteger (positive : Bool) (significand : Nat) : Reader Number := fun s =>
  let rest := s.dropWhile isDigit
  let shift : Int := (s.length - rest.length : Nat)
  match rest with
  | b :: after =>
    if b == byte '.' then fraction positive significand shift after
    else maybeExponent positive significand shift rest
  | [] => maybeExponent positive significand shift rest

/-- Reads a number whose sign has been read. -/
def number (positive : Bool) : Reader Number := fun s =>
  match s with
  | [] => here .endInValue []
  | b :: s =>
    if b == byte '0' then
      if startsWithDigit s then peeked .badNumber s else afterInteger positive 0 s
    else if isDigit b then
      let (significand, rest) := gatherDigits (b.toNat - 48) s
      if startsWithDigit rest then longInteger positive significand rest
      else afterInteger positive significand rest
    else here .badNumber s

def shownFloat : Decimal.Style := ⟨-5, 15⟩

def Number.found : Number → Found
  | .natural n => .integer n
  | .negative n => .integer (-n)
  | .float f => .float (shownFloat.writeFloat f)

/-! ## Skipping -/

/-- One step inside a string that is skipped: its escapes are checked, its characters are not. -/
def skipStringStep (_ : Unit) (s : Bytes) : Except Fault (Next Unit Unit × Bytes) :=
  match s with
  | [] => here .endInString []
  | b :: rest =>
    if b == byte '"' then .ok (.done (), rest)
    else if b == byte '\\' then
      match rest with
      | [] => here .endInString []
      | c :: rest =>
        if (simpleEscape? c).isSome then .ok (.again (), rest)
        else if c == byte 'u' then do
          let (_, rest) ← hexFour rest
          .ok (.again (), rest)
        else here .badEscape rest
    else if b < 0x20 then here .controlCharacter s
    else .ok (.again (), rest)

/-- Skips a string whose opening quote has been read. -/
def skipString (s : Bytes) : Except Fault Bytes := do
  let (_, rest) ← loop skipStringStep () s
  .ok rest

def skipExponent (s : Bytes) : Except Fault Bytes :=
  let s :=
    match s with
    | b :: rest => if b == byte '+' || b == byte '-' then rest else s
    | [] => s
  match s with
  | [] => here .badNumber []
  | b :: s => if isDigit b then .ok (s.dropWhile isDigit) else here .badNumber s

def skipMaybeExponent (s : Bytes) : Except Fault Bytes :=
  match s with
  | b :: rest => if b == byte 'e' || b == byte 'E' then skipExponent rest else .ok s
  | [] => .ok s

def skipNumber (s : Bytes) : Except Fault Bytes :=
  let afterInteger (s : Bytes) : Except Fault Bytes :=
    match s with
    | b :: rest =>
      if b == byte '.' then
        if startsWithDigit rest then skipMaybeExponent (rest.dropWhile isDigit)
        else peeked .badNumber rest
      else skipMaybeExponent s
    | [] => .ok s
  match s with
  | [] => here .badNumber []
  | b :: s =>
    if b == byte '0' then
      if startsWithDigit s then peeked .badNumber s else afterInteger s
    else if isDigit b then afterInteger (s.dropWhile isDigit)
    else here .badNumber s

/-- An opened list or object. -/
inductive Bracket where
  | square
  | curly
deriving DecidableEq

def Bracket.close : Bracket → UInt8
  | .square => byte ']'
  | .curly => byte '\x7d'

def Bracket.ended : Bracket → Problem
  | .square => .endInList
  | .curly => .endInObject

def Bracket.noComma : Bracket → Problem
  | .square => .noCommaOrBracket
  | .curly => .noCommaOrBrace

/-- What is read next while a value is skipped, inside the open brackets, the inmost first. -/
inductive Skip where
  | value (stack : List Bracket)
  | opened (top : Bracket) (stack : List Bracket)
  | after (top : Bracket) (stack : List Bracket)

def Skip.ofStack (stack : List Bracket) : Next Skip Unit :=
  match stack with
  | [] => .done ()
  | top :: stack => .again (.after top stack)

def colon (s : Bytes) : Except Fault Bytes :=
  match skipSpace s with
  | [] => peeked .endInObject []
  | b :: rest => if b == byte ':' then .ok rest else peeked .noColon (b :: rest)

/-- Skips the key of a member and the colon behind it. -/
def skipKey (s : Bytes) : Except Fault Bytes :=
  match skipSpace s with
  | [] => peeked .endInObject []
  | b :: rest =>
    if b == byte '"' then do
      let rest ← skipString rest
      colon rest
    else peeked .keyNotString (b :: rest)

def skipOne (stack : List Bracket) (s : Bytes) : Except Fault (Next Skip Unit × Bytes) :=
  let scalar (skipped : Except Fault Bytes) : Except Fault (Next Skip Unit × Bytes) := do
    .ok (Skip.ofStack stack, ← skipped)
  match skipSpace s with
  | [] => peeked .endInValue []
  | b :: rest =>
    if b == byte 'n' then scalar (keyword (Utf8.ofString "ull") rest)
    else if b == byte 't' then scalar (keyword (Utf8.ofString "rue") rest)
    else if b == byte 'f' then scalar (keyword (Utf8.ofString "alse") rest)
    else if b == byte '-' then scalar (skipNumber rest)
    else if isDigit b then scalar (skipNumber (b :: rest))
    else if b == byte '"' then scalar (skipString rest)
    else if b == byte '[' then .ok (.again (.opened .square stack), rest)
    else if b == byte '\x7b' then .ok (.again (.opened .curly stack), rest)
    else peeked .noValue (b :: rest)

def skipStep (state : Skip) (s : Bytes) : Except Fault (Next Skip Unit × Bytes) :=
  let enter (top : Bracket) (stack : List Bracket) (s : Bytes) :
      Except Fault (Next Skip Unit × Bytes) :=
    match top with
    | .square => skipOne (top :: stack) s
    | .curly => do
      let rest ← skipKey s
      .ok (.again (.value (top :: stack)), rest)
  match state with
  | .value stack => skipOne stack s
  | .opened top stack =>
    match skipSpace s with
    | [] => peeked top.ended []
    | b :: rest =>
      if b == top.close then .ok (Skip.ofStack stack, rest) else enter top stack (b :: rest)
  | .after top stack =>
    match skipSpace s with
    | [] => peeked top.ended []
    | b :: rest =>
      if b == byte ',' then enter top stack rest
      else if b == top.close then .ok (Skip.ofStack stack, rest)
      else peeked top.noComma (b :: rest)

/-- Skips a value. Brackets may be nested to any depth. -/
def skipValue (s : Bytes) : Except Fault Bytes := do
  let (_, rest) ← loop skipStep (.value []) s
  .ok rest

end FormatHost.Json
