namespace SolverProtocol

/-- A finite vocabulary of codes, each with a name and a text, in an order of its own. -/
class StatusCode (α : Type) where
  all : List α
  name : α → String
  text : α → String
  rank : α → Nat

namespace StatusCode

variable {α : Type} [StatusCode α]

def ofName? (text : String) : Option α :=
  (all : List α).find? fun code => name code == text

def order (a b : α) : Ordering := compare (rank a) (rank b)

end StatusCode

inductive OptimizationSense where
  | min
  | max
  /-- Any feasible point will do. -/
  | feasibility
deriving DecidableEq, Repr

/-- The place of a variable or constraint in a basic solution. -/
inductive BasisStatus where
  | basic
  | nonbasic
  | nonbasicAtLower
  | nonbasicAtUpper
  /-- Outside the basis and strictly between the bounds. -/
  | superBasic
deriving DecidableEq, Repr

/-- Why a solver stopped. -/
inductive TerminationStatus where
  | success
  | infeasibleNoResult
  | unboundedNoResult
  | infeasibleOrUnbounded
  | iterationLimit
  | timeLimit
  | nodeLimit
  | solutionLimit
  | memoryLimit
  | objectiveLimit
  | normLimit
  | otherLimit
  | slowProgress
  | almostSuccess
  | numericalError
  | invalidSolverInstance
  | invalidOption
  | interrupted
  | otherError
deriving DecidableEq, Repr

inductive TerminationCategory where
  | normal
  | limit
  | problematic
deriving DecidableEq, Repr

/-- What the values of a result represent. -/
inductive ResultStatus where
  | feasiblePoint
  | nearlyFeasiblePoint
  | infeasiblePoint
  | infeasibilityCertificate
  | nearlyInfeasibilityCertificate
  | reductionCertificate
  | nearlyReductionCertificate
  | unknownResultStatus
  | otherResultStatus
deriving DecidableEq, Repr

instance : StatusCode OptimizationSense where
  all := [.min, .max, .feasibility]
  rank := OptimizationSense.ctorIdx
  name
    | .min => "Min"
    | .max => "Max"
    | .feasibility => "Feasibility"
  text
    | .min => "min"
    | .max => "max"
    | .feasibility => "feasibility"

instance : StatusCode BasisStatus where
  all := [.basic, .nonbasic, .nonbasicAtLower, .nonbasicAtUpper, .superBasic]
  rank := BasisStatus.ctorIdx
  name
    | .basic => "Basic"
    | .nonbasic => "Nonbasic"
    | .nonbasicAtLower => "NonbasicAtLower"
    | .nonbasicAtUpper => "NonbasicAtUpper"
    | .superBasic => "SuperBasic"
  text
    | .basic => "basic"
    | .nonbasic => "nonbasic"
    | .nonbasicAtLower => "nonbasic_at_lower"
    | .nonbasicAtUpper => "nonbasic_at_upper"
    | .superBasic => "super_basic"

instance : StatusCode TerminationStatus where
  all := [.success, .infeasibleNoResult, .unboundedNoResult, .infeasibleOrUnbounded,
    .iterationLimit, .timeLimit, .nodeLimit, .solutionLimit, .memoryLimit, .objectiveLimit,
    .normLimit, .otherLimit, .slowProgress, .almostSuccess, .numericalError,
    .invalidSolverInstance, .invalidOption, .interrupted, .otherError]
  rank := TerminationStatus.ctorIdx
  name
    | .success => "Success"
    | .infeasibleNoResult => "InfeasibleNoResult"
    | .unboundedNoResult => "UnboundedNoResult"
    | .infeasibleOrUnbounded => "InfeasibleOrUnbounded"
    | .iterationLimit => "IterationLimit"
    | .timeLimit => "TimeLimit"
    | .nodeLimit => "NodeLimit"
    | .solutionLimit => "SolutionLimit"
    | .memoryLimit => "MemoryLimit"
    | .objectiveLimit => "ObjectiveLimit"
    | .normLimit => "NormLimit"
    | .otherLimit => "OtherLimit"
    | .slowProgress => "SlowProgress"
    | .almostSuccess => "AlmostSuccess"
    | .numericalError => "NumericalError"
    | .invalidSolverInstance => "InvalidSolverInstance"
    | .invalidOption => "InvalidOption"
    | .interrupted => "Interrupted"
    | .otherError => "OtherError"
  text
    | .success => "success"
    | .infeasibleNoResult => "infeasible_no_result"
    | .unboundedNoResult => "unbounded_no_result"
    | .infeasibleOrUnbounded => "infeasible_or_unbounded"
    | .iterationLimit => "iteration_limit"
    | .timeLimit => "time_limit"
    | .nodeLimit => "node_limit"
    | .solutionLimit => "solution_limit"
    | .memoryLimit => "memory_limit"
    | .objectiveLimit => "objective_limit"
    | .normLimit => "norm_limit"
    | .otherLimit => "other_limit"
    | .slowProgress => "slow_progress"
    | .almostSuccess => "almost_success"
    | .numericalError => "numerical_error"
    | .invalidSolverInstance => "invalid_solver_instance"
    | .invalidOption => "invalid_option"
    | .interrupted => "interrupted"
    | .otherError => "other_error"

instance : StatusCode ResultStatus where
  all := [.feasiblePoint, .nearlyFeasiblePoint, .infeasiblePoint, .infeasibilityCertificate,
    .nearlyInfeasibilityCertificate, .reductionCertificate, .nearlyReductionCertificate,
    .unknownResultStatus, .otherResultStatus]
  rank := ResultStatus.ctorIdx
  name
    | .feasiblePoint => "FeasiblePoint"
    | .nearlyFeasiblePoint => "NearlyFeasiblePoint"
    | .infeasiblePoint => "InfeasiblePoint"
    | .infeasibilityCertificate => "InfeasibilityCertificate"
    | .nearlyInfeasibilityCertificate => "NearlyInfeasibilityCertificate"
    | .reductionCertificate => "ReductionCertificate"
    | .nearlyReductionCertificate => "NearlyReductionCertificate"
    | .unknownResultStatus => "UnknownResultStatus"
    | .otherResultStatus => "OtherResultStatus"
  text
    | .feasiblePoint => "feasible_point"
    | .nearlyFeasiblePoint => "nearly_feasible_point"
    | .infeasiblePoint => "infeasible_point"
    | .infeasibilityCertificate => "infeasibility_certificate"
    | .nearlyInfeasibilityCertificate => "nearly_infeasibility_certificate"
    | .reductionCertificate => "reduction_certificate"
    | .nearlyReductionCertificate => "nearly_reduction_certificate"
    | .unknownResultStatus => "unknown_result_status"
    | .otherResultStatus => "other_result_status"

def TerminationStatus.category : TerminationStatus → TerminationCategory
  | .success | .infeasibleNoResult | .unboundedNoResult | .infeasibleOrUnbounded => .normal
  | .iterationLimit | .timeLimit | .nodeLimit | .solutionLimit | .memoryLimit | .objectiveLimit
  | .normLimit | .otherLimit => .limit
  | .slowProgress | .almostSuccess | .numericalError | .invalidSolverInstance | .invalidOption
  | .interrupted | .otherError => .problematic

def TerminationStatus.isLimit (s : TerminationStatus) : Bool :=
  s.category == .limit

def ResultStatus.isCertificate : ResultStatus → Bool
  | .infeasibilityCertificate | .nearlyInfeasibilityCertificate | .reductionCertificate
  | .nearlyReductionCertificate => true
  | _ => false

end SolverProtocol
