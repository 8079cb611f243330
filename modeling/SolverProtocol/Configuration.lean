import SolverProtocol.Json.Number
import SolverProtocol.Number.Shortest

namespace SolverProtocol

open Number

/-- How log events are written. -/
inductive LogFormat where
  /-- Lines for human readers. -/
  | pretty
  /-- One JSON object for each event. -/
  | json
deriving DecidableEq, Repr

def LogFormat.name : LogFormat → String
  | .pretty => "pretty"
  | .json => "json"

def LogFormat.ofName? (name : String) : Option LogFormat :=
  [LogFormat.pretty, .json].find? fun format => format.name == name

/-- The settings of a process, replaced as a whole. -/
structure Configuration where
  /-- How far a coefficient may be from the number that stands for it after a conversion. -/
  conversionTolerance : Binary64 := Numeral.toBinary64 ⟨false, 1, -9⟩
  logUnsupportedAccess : Bool := true
  logLevel : String := "info"
  logFormat : LogFormat := .pretty
deriving DecidableEq

inductive ConfigurationError where
  | unableToRead
  | unableToParse
  | invalidTolerance (tolerance : Binary64)
deriving DecidableEq

def ConfigurationError.message : ConfigurationError → String
  | .unableToRead => "Unable to read configuration file"
  | .unableToParse => "Unable to parse configuration json"
  | .invalidTolerance tolerance =>
    s!"conversion_tolerance must be finite and non-negative, got {tolerance}"

namespace Configuration

/-- Finite and not below zero. -/
def isUsable (tolerance : Binary64) : Bool :=
  tolerance.isFinite && !tolerance.lt .zero

def check (c : Configuration) : Except ConfigurationError Configuration :=
  if isUsable c.conversionTolerance then .ok c
  else .error (.invalidTolerance c.conversionTolerance)

/-- The same settings, the tolerances compared as numbers. -/
def equal (c d : Configuration) : Bool :=
  c.conversionTolerance.equal d.conversionTolerance &&
    c.logUnsupportedAccess == d.logUnsupportedAccess && c.logLevel == d.logLevel &&
    c.logFormat == d.logFormat

/-- The settings given so far. -/
structure Builder where
  conversionTolerance : Option Binary64 := none
  logUnsupportedAccess : Option Bool := none
  logLevel : Option String := none
  logFormat : Option LogFormat := none

namespace Builder

/-- What is not given takes its default. -/
def complete (b : Builder) : Configuration :=
  let defaults : Configuration := {}
  { conversionTolerance := b.conversionTolerance.getD defaults.conversionTolerance
    logUnsupportedAccess := b.logUnsupportedAccess.getD defaults.logUnsupportedAccess
    logLevel := b.logLevel.getD defaults.logLevel
    logFormat := b.logFormat.getD defaults.logFormat }

/-- Only a tolerance that is given is looked at. -/
def validate (b : Builder) : Except ConfigurationError Unit :=
  match b.conversionTolerance with
  | some tolerance =>
    if isUsable tolerance then .ok () else .error (.invalidTolerance tolerance)
  | none => .ok ()

def build (b : Builder) : Except ConfigurationError Configuration := do
  b.validate
  return b.complete

end Builder

inductive Field where
  | conversionTolerance
  | logUnsupportedAccess
  | logLevel
  | logFormat
deriving DecidableEq, Repr

namespace Field

def all : List Field :=
  [.conversionTolerance, .logUnsupportedAccess, .logLevel, .logFormat]

def name : Field → String
  | .conversionTolerance => "conversion_tolerance"
  | .logUnsupportedAccess => "log_unsupported_access"
  | .logLevel => "log_level"
  | .logFormat => "log_format"

def ofName? (name : String) : Option Field :=
  all.find? fun field => field.name == name

end Field

/-- A format is its name, or an object whose one field has that name and is null. -/
def formatOf? : Json.Syntax → Option LogFormat
  | .string escaped => (Json.decodeString? escaped).bind LogFormat.ofName?
  | .object [(key, .null)] => (Json.decodeString? key).bind LogFormat.ofName?
  | _ => none

/-- Sets one field from its JSON form. -/
def setField? (b : Builder) : Field → Json.Syntax → Option Builder
  | .conversionTolerance, .number digits =>
    digits.toBinary64?.map fun x => { b with conversionTolerance := some x }
  | .logUnsupportedAccess, .bool value => some { b with logUnsupportedAccess := some value }
  | .logLevel, .string escaped =>
    (Json.decodeString? escaped).map fun text => { b with logLevel := some text }
  | .logFormat, value => (formatOf? value).map fun format => { b with logFormat := some format }
  | _, _ => none

/-- Sets the fields of an object in turn. Unknown ones are passed over, and a known one must not
come twice. -/
def ofFields? (b : Builder) (seen : List Field) : List (List Char × Json.Syntax) → Option Builder
  | [] => some b
  | (key, value) :: rest => do
    match Field.ofName? (← Json.decodeString? key) with
    | none => ofFields? b seen rest
    | some field =>
      if seen.contains field then none
      else ofFields? (← setField? b field value) (field :: seen) rest

/-- Sets the leading fields in their order. -/
def ofItems? (b : Builder) : List Field → List Json.Syntax → Option Builder
  | _, [] => some b
  | [], _ => none
  | field :: fields, item :: items => do ofItems? (← setField? b field item) fields items

/-- The settings that a text gives: an object of fields, or a list of the leading ones. -/
def settings? (text : String) : Option Builder :=
  match Json.Syntax.ofText? text with
  | some (.object fields) => ofFields? {} [] fields
  | some (.array items) => ofItems? {} Field.all items
  | _ => none

/-- The configuration that was read, completed before it is checked. -/
def ofSettings : Option Builder → Except ConfigurationError Configuration
  | some settings => check settings.complete
  | none => .error .unableToParse

/-- Reads a configuration; what the text leaves out takes its default. -/
def ofJson (text : String) : Except ConfigurationError Configuration :=
  ofSettings (settings? text)

/-- Reads the contents of a file, if there are any. -/
def ofFile : Option String → Except ConfigurationError Configuration
  | some text => ofJson text
  | none => .error .unableToRead

/-- The configuration in force after an attempt to replace it, which sets every field anew or fails
and leaves all of them. -/
def adopt (current : Configuration) :
    Except ConfigurationError Configuration → Configuration
  | .ok next => next
  | .error _ => current

end Configuration

end SolverProtocol
