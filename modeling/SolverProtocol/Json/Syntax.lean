import SolverProtocol.Number.Numeral

/-! JSON text as it is written: strings keep their escapes and numbers their digits, so that only
what is used has to have a meaning. -/

namespace SolverProtocol.Json

open Number

/-- The digits of a number; the fraction is empty if there is no point. -/
structure NumberSyntax where
  negative : Bool
  whole : List Char
  fraction : List Char
  /-- The sign and the digits of the exponent. -/
  exponent : Option (Bool × List Char)

inductive Syntax where
  | null
  | bool (value : Bool)
  | number (digits : NumberSyntax)
  /-- The characters between the quotes. -/
  | string (escaped : List Char)
  | array (items : List Syntax)
  | object (fields : List (List Char × Syntax))

def isBlank (c : Char) : Bool :=
  c == ' ' || c == '\t' || c == '\n' || c == '\r'

def skipBlanks (text : List Char) : List Char :=
  text.dropWhile isBlank

def isHexDigit (c : Char) : Bool :=
  c.isDigit || ('a' ≤ c && c ≤ 'f') || ('A' ≤ c && c ≤ 'F')

/-- The characters up to the closing quote, with the text after it. Controls have to be escaped. -/
def scanString? : List Char → Option (List Char × List Char)
  | [] => none
  | '"' :: rest => some ([], rest)
  | '\\' :: 'u' :: a :: b :: c :: d :: rest =>
    if [a, b, c, d].all isHexDigit then
      (scanString? rest).map fun (escaped, rest) =>
        ('\\' :: 'u' :: a :: b :: c :: d :: escaped, rest)
    else none
  | '\\' :: c :: rest =>
    if ['"', '\\', '/', 'b', 'f', 'n', 'r', 't'].contains c then
      (scanString? rest).map fun (escaped, rest) => ('\\' :: c :: escaped, rest)
    else none
  | c :: rest =>
    if c.toNat < 0x20 then none
    else (scanString? rest).map fun (escaped, rest) => (c :: escaped, rest)

/-- Digits without a needless leading zero. -/
def scanWhole? (text : List Char) : Option (List Char × List Char) :=
  let (digits, rest) := text.span Char.isDigit
  if digits.isEmpty || (1 < digits.length && digits.head? == some '0') then none
  else some (digits, rest)

/-- A point and at least one digit, or nothing. -/
def scanFraction? : List Char → Option (List Char × List Char)
  | '.' :: rest =>
    let (digits, rest) := rest.span Char.isDigit
    if digits.isEmpty then none else some (digits, rest)
  | text => some ([], text)

/-- An `e`, an optional sign and at least one digit, or nothing. -/
def scanExponent? : List Char → Option (Option (Bool × List Char) × List Char)
  | text@(c :: rest) =>
    if c == 'e' || c == 'E' then
      let (negative, rest) := Numeral.splitSign rest
      let (digits, rest) := rest.span Char.isDigit
      if digits.isEmpty then none else some (some (negative, digits), rest)
    else some (none, text)
  | [] => some (none, [])

def scanNumber? (text : List Char) : Option (NumberSyntax × List Char) := do
  let negative := text.head? == some '-'
  let (whole, rest) ← scanWhole? (if negative then text.tail else text)
  let (fraction, rest) ← scanFraction? rest
  let (exponent, rest) ← scanExponent? rest
  return (⟨negative, whole, fraction, exponent⟩, rest)

mutual

/-- A value after optional blanks, with the text after it. The first argument bounds the depth of
the calls. -/
def scanValue? : Nat → List Char → Option (Syntax × List Char)
  | 0, _ => none
  | depth + 1, text =>
    match skipBlanks text with
    | 'n' :: 'u' :: 'l' :: 'l' :: rest => some (.null, rest)
    | 't' :: 'r' :: 'u' :: 'e' :: rest => some (.bool true, rest)
    | 'f' :: 'a' :: 'l' :: 's' :: 'e' :: rest => some (.bool false, rest)
    | '"' :: rest => (scanString? rest).map fun (escaped, rest) => (.string escaped, rest)
    | '[' :: rest =>
      match skipBlanks rest with
      | ']' :: rest => some (.array [], rest)
      | rest => (scanItems? depth rest).map fun (items, rest) => (.array items, rest)
    | '{' :: rest =>
      match skipBlanks rest with
      | '}' :: rest => some (.object [], rest)
      | rest => (scanFields? depth rest).map fun (fields, rest) => (.object fields, rest)
    | text => (scanNumber? text).map fun (digits, rest) => (.number digits, rest)

/-- Values between commas up to the closing bracket. -/
def scanItems? : Nat → List Char → Option (List Syntax × List Char)
  | 0, _ => none
  | depth + 1, text => do
    let (item, rest) ← scanValue? depth text
    match skipBlanks rest with
    | ']' :: rest => return ([item], rest)
    | ',' :: rest =>
      let (items, rest) ← scanItems? depth rest
      return (item :: items, rest)
    | _ => none

/-- Fields between commas up to the closing brace. -/
def scanFields? : Nat → List Char → Option (List (List Char × Syntax) × List Char)
  | 0, _ => none
  | depth + 1, text =>
    match skipBlanks text with
    | '"' :: rest => do
      let (key, rest) ← scanString? rest
      match skipBlanks rest with
      | ':' :: rest =>
        let (value, rest) ← scanValue? depth rest
        match skipBlanks rest with
        | '}' :: rest => return ([(key, value)], rest)
        | ',' :: rest =>
          let (fields, rest) ← scanFields? depth rest
          return ((key, value) :: fields, rest)
        | _ => none
      | _ => none
    | _ => none

end

/-- Reads a text that is one value between blanks. Two calls for each character are enough, as none
is made twice at one place. -/
def Syntax.ofText? (text : String) : Option Syntax := do
  let (value, rest) ← scanValue? (2 * text.length + 2) text.toList
  if (skipBlanks rest).isEmpty then some value else none

def hexValue (digits : List Char) : Nat :=
  digits.foldl (fun n c =>
    16 * n + (if c.isDigit then c.toNat - '0'.toNat else c.toLower.toNat - 'a'.toNat + 10)) 0

def isHighSurrogate (code : Nat) : Bool := 0xD800 ≤ code && code ≤ 0xDBFF

def isLowSurrogate (code : Nat) : Bool := 0xDC00 ≤ code && code ≤ 0xDFFF

/-- The character of a one-letter escape. -/
def escapedChar : Char → Char
  | 'b' => '\x08'
  | 'f' => '\x0c'
  | 'n' => '\n'
  | 'r' => '\r'
  | 't' => '\t'
  | c => c

/-- The characters that stand between quotes. Two escapes for surrogates give one character, and
neither of them gives one alone. -/
def unescape? : List Char → Option (List Char)
  | [] => some []
  | '\\' :: 'u' :: a :: b :: c :: d :: '\\' :: 'u' :: e :: f :: g :: h :: rest =>
    let high := hexValue [a, b, c, d]
    let low := hexValue [e, f, g, h]
    if isHighSurrogate high then
      if isLowSurrogate low then
        (unescape? rest).map
          (Char.ofNat (0x10000 + (high - 0xD800) * 0x400 + (low - 0xDC00)) :: ·)
      else none
    else if isLowSurrogate high then none
    else (unescape? ('\\' :: 'u' :: e :: f :: g :: h :: rest)).map (Char.ofNat high :: ·)
  | '\\' :: 'u' :: a :: b :: c :: d :: rest =>
    let code := hexValue [a, b, c, d]
    if isHighSurrogate code || isLowSurrogate code then none
    else (unescape? rest).map (Char.ofNat code :: ·)
  | '\\' :: c :: rest => (unescape? rest).map (escapedChar c :: ·)
  | c :: rest => (unescape? rest).map (c :: ·)

def decodeString? (escaped : List Char) : Option String :=
  (unescape? escaped).map String.ofList

end SolverProtocol.Json
