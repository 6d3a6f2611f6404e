import FormatHost.Text.Blank
import FormatHost.Toml.Value

/-! # The words of TOML

Keys, strings, numbers, dates and comments are read from the front of a text. A reader gives what
it has read and the rest of the text, or nothing if the text is not well formed.
-/

namespace FormatHost.Toml

/-- Reads something from the front of a text. -/
abbrev Reader (α : Type) := Text → Option (α × Text)

/-- Repeats a step until it is done, at most once more than the bound has characters. -/
def loopWithin {σ α : Type} (step : σ → Text → Option (Sum σ α × Text)) (bound : Text)
    (state : σ) (s : Text) : Option (α × Text) :=
  match step state s with
  | none => none
  | some (.inr value, rest) => some (value, rest)
  | some (.inl state', rest) =>
    match bound with
    | [] => none
    | _ :: bound => loopWithin step bound state' rest

/-- Repeats a step until it is done. Every step but the last has to read something, so the text
itself bounds their number. -/
def loop {σ α : Type} (step : σ → Text → Option (Sum σ α × Text)) (state : σ) (s : Text) :
    Option (α × Text) :=
  loopWithin step s state s

/-! ## Space, comments, line ends -/

def isSpace (c : Char) : Bool :=
  c == ' ' || c == '\t'

def skipSpace (s : Text) : Text :=
  s.dropWhile isSpace

/-- Whether a character may stand in comments and strings: no control character but the tab. -/
def isPlain (c : Char) : Bool :=
  c == '\t' || (0x20 ≤ c.toNat && c.toNat != 0x7F)

/-- What follows a line feed, or a carriage return and a line feed. -/
def newline? : Text → Option Text
  | '\n' :: rest => some rest
  | '\r' :: '\n' :: rest => some rest
  | _ => none

/-- The rest of the text behind the end of a line. Only space and a comment may come before it. -/
def endLine? (s : Text) : Option Text :=
  let rest :=
    match skipSpace s with
    | '#' :: comment => comment.dropWhile isPlain
    | rest => rest
  if rest.isEmpty then some [] else newline? rest

/-- Drops space, line ends and comments in front. -/
def skipLines (inComment : Bool) : Text → Option Text
  | [] => some []
  | '\r' :: '\n' :: rest => skipLines false rest
  | c :: rest =>
    if c = '\n' then skipLines false rest
    else if inComment then if isPlain c then skipLines true rest else none
    else if isSpace c then skipLines false rest
    else if c = '#' then skipLines true rest
    else some (c :: rest)

/-! ## Strings -/

def hexValue? (c : Char) : Option Nat :=
  if '0' ≤ c && c ≤ '9' then some (c.toNat - 48)
  else if 'a' ≤ c && c ≤ 'f' then some (c.toNat - 87)
  else if 'A' ≤ c && c ≤ 'F' then some (c.toNat - 55)
  else none

/-- The character whose number is given by so many hexadecimal digits. -/
def hexChar (count : Nat) : Reader Char := fun s => do
  let digits ← (s.take count).mapM hexValue?
  let n := digits.foldl (fun n d => n * 16 + d) 0
  if digits.length = count ∧ n.isValidChar then some (Char.ofNat n, s.drop count) else none

/-- The character that an escape stands for, behind its backslash. -/
def escape : Reader Char
  | 'b' :: rest => some ('\x08', rest)
  | 't' :: rest => some ('\t', rest)
  | 'n' :: rest => some ('\n', rest)
  | 'f' :: rest => some ('\x0C', rest)
  | 'r' :: rest => some ('\r', rest)
  | '"' :: rest => some ('"', rest)
  | '\\' :: rest => some ('\\', rest)
  | 'u' :: rest => hexChar 4 rest
  | 'U' :: rest => hexChar 8 rest
  | _ => none

/-- The next character of a string with escapes. -/
def basicChar : Reader Char
  | '\\' :: rest => escape rest
  | c :: rest => if isPlain c then some (c, rest) else none
  | [] => none

/-- A string with escapes, behind its opening quote. -/
def basicString : Reader String :=
  loop (fun (read : Text) s =>
    match s with
    | '"' :: rest => some (.inr (String.ofList read.reverse), rest)
    | s => do
      let (c, rest) ← basicChar s
      some (.inl (c :: read), rest)) []

/-- A string without escapes, behind its opening apostrophe. -/
def literalString : Reader String := fun s =>
  let isInner (c : Char) := isPlain c && c != '\''
  match s.dropWhile isInner with
  | '\'' :: rest => some (String.ofList (s.takeWhile isInner), rest)
  | _ => none

/-- What follows a backslash at the end of a line: the line ends and the space up to the next
character that is shown. -/
def foldedLine? (s : Text) : Option Text := do
  let rest ← newline? (skipSpace s)
  some (skipAll rest)
where
  /-- Drops space and line ends. -/
  skipAll : Text → Text
    | '\r' :: '\n' :: rest => skipAll rest
    | c :: rest => if isSpace c || c = '\n' then skipAll rest else c :: rest
    | [] => []

/-- A string over several lines, behind its three opening quotes. Up to two quotes in a row belong
to it, also right before the closing ones; line ends are line feeds. -/
def longString (quote : Char) (char : Reader Char) (fold : Text → Option Text) : Reader String :=
  fun s =>
  loop (fun (read : Text) s =>
    let quotes := (s.takeWhile (· == quote)).length
    if quotes = 0 then
      match newline? s, fold s with
      | some rest, _ => some (.inl ('\n' :: read), rest)
      | none, some rest => some (.inl read, rest)
      | none, none => do
        let (c, rest) ← char s
        some (.inl (c :: read), rest)
    else if quotes < 3 then some (.inl (List.replicate quotes quote ++ read), s.drop quotes)
    else if quotes < 6 then
      some (.inr (String.ofList (List.replicate (quotes - 3) quote ++ read).reverse), s.drop quotes)
    else none) [] ((newline? s).getD s)

/-- The next character of a string without escapes. -/
def literalChar : Reader Char
  | c :: rest => if isPlain c then some (c, rest) else none
  | [] => none

/-- What follows a line end that a backslash hides. -/
def hiddenLineEnd? : Text → Option Text
  | '\\' :: rest => foldedLine? rest
  | _ => none

def string : Reader String
  | '"' :: '"' :: '"' :: rest => longString '"' basicChar hiddenLineEnd? rest
  | '"' :: rest => basicString rest
  | '\'' :: '\'' :: '\'' :: rest => longString '\'' literalChar (fun _ => none) rest
  | '\'' :: rest => literalString rest
  | _ => none

/-! ## Keys -/

def isBare (c : Char) : Bool :=
  ('a' ≤ c && c ≤ 'z') || ('A' ≤ c && c ≤ 'Z') || ('0' ≤ c && c ≤ '9') || c == '-' || c == '_'

def keyPart : Reader String
  | '"' :: rest => basicString rest
  | '\'' :: rest => literalString rest
  | s =>
    match s.takeWhile isBare with
    | [] => none
    | name => some (String.ofList name, s.dropWhile isBare)

/-- How many levels values and keys may have, plus one. -/
def depthLimit : Nat := 80

/-- A key: all parts but the last, and the last. -/
def key : Reader (List String × String) := fun s => do
  let (parts, rest) ← loop (fun (parts : List String) s => do
    let (part, rest) ← keyPart (skipSpace s)
    match skipSpace rest with
    | '.' :: rest => some (.inl (part :: parts), rest)
    | rest => some (.inr (part :: parts), rest)) [] s
  match parts with
  | [] => none
  | last :: path => if parts.length < depthLimit then some ((path.reverse, last), rest) else none

/-! ## Numbers -/

def isDigit (c : Char) : Bool :=
  '0' ≤ c && c ≤ '9'

/-- The digits at the front of a text; an underscore may stand between two of them. -/
def moreDigits (isDigit : Char → Bool) : Text → Text × Text
  | '_' :: d :: rest =>
    if isDigit d then
      let (digits, rest) := moreDigits isDigit rest
      (d :: digits, rest)
    else ([], '_' :: d :: rest)
  | d :: rest =>
    if isDigit d then
      let (digits, rest) := moreDigits isDigit rest
      (d :: digits, rest)
    else ([], d :: rest)
  | [] => ([], [])

def digits (isDigit : Char → Bool) : Reader Text
  | d :: rest => if isDigit d then some (moreDigits isDigit (d :: rest)) else none
  | [] => none

def valueOf (base : Nat) (digits : Text) : Nat :=
  digits.foldl (fun n d => n * base + (hexValue? d).getD 0) 0

/-- Whether a number is negative, and what follows its sign. -/
def sign : Text → Bool × Text
  | '-' :: rest => (true, rest)
  | '+' :: rest => (false, rest)
  | rest => (false, rest)

/-- Decimal digits that do not start with a needless zero. -/
def wholePart : Reader Text
  | '0' :: rest => some (['0'], rest)
  | s => digits isDigit s

/-- An integer value. It has 64 bits. -/
def integer : Reader Int := fun s => do
  let based (base : Nat) (isDigit : Char → Bool) (s : Text) : Option (Int × Text) := do
    let (digits, rest) ← digits isDigit s
    let n := valueOf base digits
    if n < Nat.pow 2 63 then some ((n : Int), rest) else none
  match s with
  | '0' :: 'x' :: rest => based 16 (fun c => (hexValue? c).isSome) rest
  | '0' :: 'o' :: rest => based 8 (fun c => '0' ≤ c && c ≤ '7') rest
  | '0' :: 'b' :: rest => based 2 (fun c => c == '0' || c == '1') rest
  | s =>
    let (negative, rest) := sign s
    let (digits, rest) ← wholePart rest
    let n : Int := if negative then -(valueOf 10 digits : Int) else valueOf 10 digits
    if -(Nat.pow 2 63 : Int) ≤ n ∧ n < (Nat.pow 2 63 : Int) then some (n, rest) else none

/-- Whether digits times a power of ten round to something beyond the greatest double. -/
def overflows (digits : Text) (exponent : Int) : Bool :=
  let n := valueOf 10 digits
  let limit := Nat.pow 2 1024 - Nat.pow 2 970
  let width : Int := (Nat.toDigits 10 n).length
  if n = 0 || width + exponent < 309 then false
  else if 310 < width + exponent then true
  else if 0 ≤ exponent then limit ≤ n * Nat.pow 10 exponent.toNat
  else limit * Nat.pow 10 (-exponent).toNat ≤ n

def exponent : Reader Int := fun s =>
  match s with
  | c :: rest =>
    if c = 'e' || c = 'E' then do
      let (negative, rest) := sign rest
      let (digits, rest) ← digits isDigit rest
      let n : Int := valueOf 10 digits
      some (if negative then -n else n, rest)
    else none
  | [] => none

def fraction : Reader Text
  | '.' :: rest => digits isDigit rest
  | _ => none

/-- A floating-point value. Numbers too large are refused, but not negative ones. -/
def float : Reader Unit := fun s => do
  let (negative, rest) := sign s
  match rest with
  | 'i' :: 'n' :: 'f' :: rest => some ((), rest)
  | 'n' :: 'a' :: 'n' :: rest => some ((), rest)
  | rest => do
    let (whole, rest) ← wholePart rest
    let accept (digits : Text) (exponent : Int) (rest : Text) : Option (Unit × Text) :=
      if !negative && overflows digits exponent then none else some ((), rest)
    match fraction rest with
    | some (part, rest) =>
      match exponent rest with
      | some (e, rest) => accept (whole ++ part) (e - part.length) rest
      | none => accept (whole ++ part) (-part.length) rest
    | none => do
      let (e, rest) ← exponent rest
      accept whole e rest

/-! ## Dates and times -/

def fixed (count : Nat) : Reader Nat := fun s =>
  let front := s.take count
  if front.length = count && front.all isDigit then some (valueOf 10 front, s.drop count) else none

/-- A number of two digits between bounds. -/
def pair (low high : Nat) : Reader Nat := fun s => do
  let (n, rest) ← fixed 2 s
  if low ≤ n ∧ n ≤ high then some (n, rest) else none

def mark (c : Char) : Text → Option Text
  | d :: rest => if d = c then some rest else none
  | [] => none

def daysIn (year month : Nat) : Nat :=
  if month = 2 then
    if year % 4 = 0 ∧ (year % 100 ≠ 0 ∨ year % 400 = 0) then 29 else 28
  else if [4, 6, 9, 11].contains month then 30
  else 31

def date (s : Text) : Option Text := do
  let (year, rest) ← fixed 4 s
  let (month, rest) ← pair 1 12 (← mark '-' rest)
  let (_, rest) ← pair 1 (daysIn year month) (← mark '-' rest)
  some rest

/-- A time of the day. A minute may have a leap second. -/
def time (s : Text) : Option Text := do
  let (_, rest) ← pair 0 23 s
  let (_, rest) ← pair 0 59 (← mark ':' rest)
  let (_, rest) ← pair 0 60 (← mark ':' rest)
  match rest with
  | '.' :: d :: more => some (if isDigit d then more.dropWhile isDigit else rest)
  | _ => some rest

/-- The distance from universal time. -/
def offset (s : Text) : Option Text :=
  match s with
  | 'Z' :: rest => some rest
  | 'z' :: rest => some rest
  | c :: rest =>
    if c = '+' || c = '-' then do
      let (_, rest) ← pair 0 23 rest
      let (_, rest) ← pair 0 59 (← mark ':' rest)
      some rest
    else none
  | [] => none

/-- A date, a time of the day, or both, with the distance from universal time if it is given. -/
def moment (s : Text) : Option Text :=
  match date s with
  | none => time s
  | some rest =>
    match rest with
    | c :: clock =>
      if c = 'T' || c = 't' || c = ' ' then
        match time clock with
        | some rest => some ((offset rest).getD rest)
        | none => some rest
      else some rest
    | [] => some []

end FormatHost.Toml
