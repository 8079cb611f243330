import SolverProtocol.Json.Number
import SolverProtocol.Number.Shortest

namespace SolverProtocol

open Number

namespace Json

mutual

/-- The value, if its strings and numbers have a meaning. -/
def Syntax.toJson? : Syntax → Option Json
  | .null => some .null
  | .bool value => some (.bool value)
  | .number digits => digits.toNumber?.map .number
  | .string escaped => (decodeString? escaped).map .string
  | .array items => (itemsOf? items).map .array
  | .object fields => (fieldsOf? fields).map .object

def itemsOf? : List Syntax → Option (List Json)
  | [] => some []
  | item :: rest => do
    let value ← item.toJson?
    return value :: (← itemsOf? rest)

/-- A field gives way to a later one of its name. -/
def fieldsOf? : List (List Char × Syntax) → Option (List (String × Json))
  | [] => some []
  | (key, item) :: rest => do
    let name ← decodeString? key
    let value ← item.toJson?
    let fields ← fieldsOf? rest
    return if fields.any (·.1 == name) then fields else (name, value) :: fields

end

def ofText? (text : String) : Option Json :=
  (Syntax.ofText? text).bind Syntax.toJson?

/-- A control as four hexadecimal digits. -/
def controlText (c : Char) : String :=
  let digits := Nat.toDigits 16 c.toNat
  "\\u" ++ String.ofList (List.replicate (4 - digits.length) '0' ++ digits)

/-- A character as it stands between quotes. -/
def charText (c : Char) : String :=
  match c with
  | '"' => "\\\""
  | '\\' => "\\\\"
  | '\x08' => "\\b"
  | '\x0c' => "\\f"
  | '\n' => "\\n"
  | '\r' => "\\r"
  | '\t' => "\\t"
  | c => if c.toNat < 0x20 then controlText c else c.toString

def stringText (text : String) : String :=
  "\"" ++ String.join (text.toList.map charText) ++ "\""

/-- A double with a point or an exponent. The exponent is for numbers whose point is far from their
digits. What is not finite has no numeral and is null. -/
def realText : Binary64 → String
  | .finite negative m =>
    if m.units = 0 then if negative then "-0.0" else "0.0"
    else
      let numeral : Numeral := { m.shortest with negative }
      let point : Int := numeral.exponent + Numeral.length numeral.digits
      if point ≤ -5 ∨ 16 < point then numeral.scientific
      else if numeral.exponent < 0 then numeral.positional
      else numeral.positional ++ ".0"
  | _ => "null"

mutual

def toText : Json → String
  | .null => "null"
  | .bool value => toString value
  | .number (.integer value) => toString value
  | .number (.real value) => realText value
  | .string value => stringText value
  | .array items => "[" ++ String.intercalate "," (itemTexts items) ++ "]"
  | .object fields => "\x7b" ++ String.intercalate "," (fieldTexts fields) ++ "\x7d"

def itemTexts : List Json → List String
  | [] => []
  | item :: rest => item.toText :: itemTexts rest

def fieldTexts : List (String × Json) → List String
  | [] => []
  | (name, value) :: rest => (stringText name ++ ":" ++ value.toText) :: fieldTexts rest

end

instance : ToString Json := ⟨toText⟩

end Json

end SolverProtocol
