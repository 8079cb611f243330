import Mathlib.Data.List.Induction
import SolverProtocol.Configuration
import SolverProtocol.Proofs.Number.Rational
import SolverProtocol.Proofs.Traversal

namespace SolverProtocol.Configuration

open Number Binary64

/-- A finite number that is not below zero. -/
def IsTolerance (t : Binary64) : Prop :=
  ∃ q, t.toRat? = some q ∧ 0 ≤ q

theorem isUsable_iff {t : Binary64} : isUsable t = true ↔ IsTolerance t := by
  rw [isUsable, Bool.and_eq_true, Bool.not_eq_true']
  cases t with
  | finite negative m =>
    rw [not_lt_iff_covers rfl denotes_zero.toRat?, Int.cast_zero]
    simp [IsTolerance, isFinite, toRat?, Covers]
  | infinite negative => simp [IsTolerance, isFinite, toRat?]
  | nan => simp [IsTolerance, isFinite, toRat?]

theorem isTolerance_default : IsTolerance ({} : Configuration).conversionTolerance :=
  isUsable_iff.mp (by decide +kernel)

theorem check_eq_ok_iff {c d : Configuration} :
    c.check = .ok d ↔ IsTolerance c.conversionTolerance ∧ d = c := by
  rw [← isUsable_iff, check]
  split <;> simp [*, eq_comm]

namespace Builder

/-- The tolerance that is given, if any, is one. -/
def HasTolerance (b : Builder) : Prop :=
  ∀ t, b.conversionTolerance = some t → IsTolerance t

variable {b : Builder} {c : Configuration}

private theorem conversionTolerance_complete (b : Builder) :
    b.complete.conversionTolerance =
      b.conversionTolerance.getD ({} : Configuration).conversionTolerance :=
  rfl

theorem isTolerance_complete_iff :
    IsTolerance b.complete.conversionTolerance ↔ b.HasTolerance := by
  rw [conversionTolerance_complete, HasTolerance]
  cases b.conversionTolerance with
  | none => exact iff_of_true isTolerance_default (by simp)
  | some t => simp

/-- Looking at the tolerance that is given comes to looking at the completed configuration, as the
default passes. -/
theorem build_eq (b : Builder) : b.build = check b.complete := by
  have usable : isUsable ({} : Configuration).conversionTolerance = true :=
    isUsable_iff.mpr isTolerance_default
  rw [build, validate, check, conversionTolerance_complete]
  cases b.conversionTolerance with
  | none => exact (if_pos usable).symm
  | some t =>
    dsimp only [Option.getD_some]
    split <;> rfl

theorem build_eq_ok_iff : b.build = .ok c ↔ b.HasTolerance ∧ c = b.complete := by
  rw [build_eq, check_eq_ok_iff, isTolerance_complete_iff]

end Builder

theorem ofSettings_eq_ok_iff {settings : Option Builder} {c : Configuration} :
    ofSettings settings = .ok c ↔
      ∃ b, settings = some b ∧ b.HasTolerance ∧ c = b.complete := by
  cases settings with
  | none => simp [ofSettings]
  | some b => simp [ofSettings, check_eq_ok_iff, Builder.isTolerance_complete_iff]

namespace Field

@[reducible]
def Carrier : Field → Type
  | .conversionTolerance => Binary64
  | .logUnsupportedAccess => Bool
  | .logLevel => String
  | .logFormat => LogFormat

def value : (f : Field) → Configuration → f.Carrier
  | .conversionTolerance, c => c.conversionTolerance
  | .logUnsupportedAccess, c => c.logUnsupportedAccess
  | .logLevel, c => c.logLevel
  | .logFormat, c => c.logFormat

def given? : (f : Field) → Builder → Option f.Carrier
  | .conversionTolerance, b => b.conversionTolerance
  | .logUnsupportedAccess, b => b.logUnsupportedAccess
  | .logLevel, b => b.logLevel
  | .logFormat, b => b.logFormat

theorem value_complete (f : Field) (b : Builder) :
    f.value b.complete = (f.given? b).getD (f.value {}) := by
  cases f <;> rfl

end Field

section Text

variable {b settings : Builder} {f field : Field}

/-- The field that a key of an object stands for. -/
def Field.ofKey? (key : List Char) : Option Field :=
  (Json.decodeString? key).bind Field.ofName?

/-- The text has a value for the field: an object under a key, a list at its place. -/
def Mentions (text : String) (f : Field) : Prop :=
  match Json.Syntax.ofText? text with
  | some (.object fields) => ∃ entry ∈ fields, Field.ofKey? entry.1 = some f
  | some (.array items) => f ∈ Field.all.take items.length
  | _ => False

private theorem isSome_given?_of_setField? {value : Json.Syntax}
    (set : setField? b field value = some settings) :
    (f.given? settings).isSome = true ↔ (f.given? b).isSome = true ∨ f = field := by
  unfold setField? at set
  split at set <;> simp only [Option.map_eq_some_iff, Option.some.injEq, reduceCtorEq] at set
  case h_2 => subst set; cases f <;> simp [Field.given?]
  all_goals
    obtain ⟨_, -, rfl⟩ := set
    cases f <;> simp [Field.given?]

private theorem isSome_given?_of_ofFields? {seen : List Field}
    {fields : List (List Char × Json.Syntax)} (read : ofFields? b seen fields = some settings) :
    (f.given? settings).isSome = true ↔
      (f.given? b).isSome = true ∨ ∃ entry ∈ fields, Field.ofKey? entry.1 = some f := by
  induction fields generalizing b seen with
  | nil => cases read; simp
  | cons entry rest ih =>
    obtain ⟨key, value⟩ := entry
    obtain ⟨name, decoded, read⟩ := Option.bind_eq_some_iff.mp read
    have key_eq : Field.ofKey? key = Field.ofName? name := by rw [Field.ofKey?, decoded]; rfl
    rw [List.exists_mem_cons_iff, key_eq]
    cases known : Field.ofName? name with
    | none => simpa [known] using ih (by simpa [known] using read)
    | some field =>
      simp only [known, Option.ite_none_left_eq_some] at read
      obtain ⟨next, set, read⟩ := Option.bind_eq_some_iff.mp read.2
      rw [ih read, isSome_given?_of_setField? set, or_assoc, Option.some.injEq, eq_comm (a := f)]

private theorem isSome_given?_of_ofItems? {fields : List Field} {items : List Json.Syntax}
    (read : ofItems? b fields items = some settings) :
    (f.given? settings).isSome = true ↔
      (f.given? b).isSome = true ∨ f ∈ fields.take items.length := by
  induction items generalizing b fields with
  | nil => cases fields <;> cases read <;> simp
  | cons item items ih =>
    cases fields with
    | nil => cases read
    | cons field fields =>
      obtain ⟨next, set, read⟩ := Option.bind_eq_some_iff.mp read
      rw [ih read, isSome_given?_of_setField? set, List.length_cons, List.take_succ_cons,
        List.mem_cons, or_assoc]

theorem isSome_given?_of_settings? {text : String} (read : settings? text = some settings) :
    (f.given? settings).isSome = true ↔ Mentions text f := by
  have nothing : (f.given? {}).isSome = false := by cases f <;> rfl
  unfold settings? at read
  unfold Mentions
  split at read
  · rw [isSome_given?_of_ofFields? read, nothing]; simp [*]
  · rw [isSome_given?_of_ofItems? read, nothing]; simp [*]
  · cases read

end Text

/-- An attempt to replace the configuration. -/
inductive Attempt where
  | read (text : String)
  | install (settings : Builder)

section Runs

variable (parse : String → Option Builder)

namespace Attempt

/-- What the attempt would set. -/
def settings? : Attempt → Option Builder
  | .read text => parse text
  | .install settings => some settings

def outcome : Attempt → Except ConfigurationError Configuration
  | .read text => ofSettings (parse text)
  | .install settings => settings.build

variable {parse} {a : Attempt} {c : Configuration}

theorem outcome_eq_ok_iff :
    a.outcome parse = .ok c ↔
      ∃ b, a.settings? parse = some b ∧ b.HasTolerance ∧ c = b.complete := by
  cases a with
  | read text => exact ofSettings_eq_ok_iff
  | install settings => simp [outcome, settings?, Builder.build_eq_ok_iff]

end Attempt

/-- The configuration in force after the attempts, the default at first. -/
def inForce (attempts : List Attempt) : Configuration :=
  attempts.foldl (fun current a => current.adopt (a.outcome parse)) {}

variable {parse} {attempts : List Attempt} {a : Attempt}

private theorem inForce_concat :
    inForce parse (attempts ++ [a]) = (inForce parse attempts).adopt (a.outcome parse) := by
  simp [inForce]

theorem isTolerance_adopt {current : Configuration}
    (usable : IsTolerance current.conversionTolerance) :
    IsTolerance (current.adopt (a.outcome parse)).conversionTolerance := by
  cases outcome : a.outcome parse with
  | error _ => exact usable
  | ok next =>
    obtain ⟨b, -, given, rfl⟩ := Attempt.outcome_eq_ok_iff.mp outcome
    exact Builder.isTolerance_complete_iff.mpr given

theorem isTolerance_inForce (attempts : List Attempt) :
    IsTolerance (inForce parse attempts).conversionTolerance := by
  induction attempts using List.reverseRecOn with
  | nil => exact isTolerance_default
  | append_singleton attempts a ih =>
    rw [inForce_concat]
    exact isTolerance_adopt ih

variable (parse)

/-- What every run of attempts keeps to, whatever reads the texts. -/
structure Guarded : Prop where
  usable : ∀ attempts, IsTolerance (inForce parse attempts).conversionTolerance
  /-- What is refused changes no setting. -/
  refused : ∀ attempts (a : Attempt) error, a.outcome parse = .error error →
    inForce parse (attempts ++ [a]) = inForce parse attempts
  /-- What is accepted decides every field, those that it leaves out by their defaults. -/
  accepted : ∀ attempts (a : Attempt) c, a.outcome parse = .ok c →
    ∃ b, a.settings? parse = some b ∧ ∀ f : Field,
      f.value (inForce parse (attempts ++ [a])) = (f.given? b).getD (f.value {})

theorem guarded : Guarded parse where
  usable := isTolerance_inForce
  refused attempts a error outcome := by rw [inForce_concat, outcome, adopt]
  accepted attempts a c outcome := by
    obtain ⟨b, given, -, rfl⟩ := Attempt.outcome_eq_ok_iff.mp outcome
    refine ⟨b, given, fun f => ?_⟩
    rw [inForce_concat, outcome, adopt, Field.value_complete]

end Runs

/-- A field that an accepted text has no value for goes back to its default. -/
theorem value_inForce_omitted {text : String} {c : Configuration} (read : ofJson text = .ok c)
    {f : Field} (unmentioned : ¬Mentions text f) (attempts : List Attempt) :
    f.value (inForce settings? (attempts ++ [.read text])) = f.value {} := by
  obtain ⟨b, given, values⟩ := (guarded settings?).accepted attempts (.read text) c read
  have absent : f.given? b = none := by
    rw [← Option.not_isSome_iff_eq_none, isSome_given?_of_settings? given]
    exact unmentioned
  rw [values, absent, Option.getD_none]

/-- The tolerance in force is usable at every point: both ways to a new configuration ask the same
of it, and no run of attempts gets around them. -/
structure StaysUsable : Prop where
  built_iff : ∀ b : Builder, (∃ c, b.build = .ok c) ↔
    ∀ t, b.conversionTolerance = some t → IsTolerance t
  read_iff : ∀ parse text, (∃ c, (Attempt.read text).outcome parse = .ok c) ↔
    ∃ b, parse text = some b ∧ ∀ t, b.conversionTolerance = some t → IsTolerance t
  /-- Settings that were read are refused as those that were given, with the same error. -/
  read_eq : ∀ b : Builder, ofSettings (some b) = b.build
  runs : ∀ parse, Guarded parse

theorem stays_usable : StaysUsable where
  built_iff b := by simp [Builder.build_eq_ok_iff, Builder.HasTolerance]
  read_iff parse text := by simp [Attempt.outcome, ofSettings_eq_ok_iff, Builder.HasTolerance]
  read_eq b := b.build_eq.symm
  runs := guarded

/-- The text that is refused leaves the built configuration in force, of which the next one keeps
nothing. -/
example :
    let built : Attempt := .install { conversionTolerance := some .zero, logLevel := some "warn" }
    let negative : Attempt := .read "[-1]"
    let quiet : Attempt := .read "[0.5, false]"
    inForce settings? [built, negative] = { conversionTolerance := .zero, logLevel := "warn" } ∧
      (inForce settings? [built, negative, quiet]).logLevel = "info" := by
  decide +kernel

end SolverProtocol.Configuration
