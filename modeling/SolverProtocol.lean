import SolverProtocol.Backend.Access
import SolverProtocol.Store.Instance
import SolverProtocol.Configuration
import SolverProtocol.Json.Text
import SolverProtocol.Proofs.Backend.Read
import SolverProtocol.Proofs.Store.ResultHistory
import SolverProtocol.Proofs.Function.Conversion
import SolverProtocol.Proofs.Store.Objective
import SolverProtocol.Proofs.Number.Widening
import SolverProtocol.Proofs.Function.Distinct
import SolverProtocol.Proofs.Store.IntegerObjective
import SolverProtocol.Proofs.Function.Settled
import SolverProtocol.Proofs.Function.Products
import SolverProtocol.Proofs.Store.Readable
import SolverProtocol.Proofs.Function.NearestInteger
import SolverProtocol.Proofs.Function.Collected
import SolverProtocol.Proofs.Attribute.Indices
import SolverProtocol.Proofs.Configuration
