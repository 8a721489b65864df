import ProofRelay.Contract.Interface
import ProofRelay.Contract.Handle
import ProofRelay.Commitment
import ProofRelay.Request
import ProofRelay.Activity.Pool
import ProofRelay.Client.Submit
import ProofRelay.Pipeline.Relay
import ProofRelay.Prover.Invocation
import ProofRelay.Http.Service
import ProofRelay.Simulation.Session
import ProofRelay.Simulation.Rpc
import ProofRelay.Proofs.Client.NonceSequence
import ProofRelay.Proofs.Client.NonceOrder
import ProofRelay.Proofs.Pipeline.Broadcasts
import ProofRelay.Proofs.Pipeline.Position
import ProofRelay.Proofs.Client.Resync
import ProofRelay.Proofs.Pipeline.Coherence
import ProofRelay.Proofs.Commitment
import ProofRelay.Proofs.Pipeline.RoundTrip
import ProofRelay.Proofs.Activity.Terms
import ProofRelay.Proofs.Files.Tree
import ProofRelay.Proofs.Files.Standing
import ProofRelay.Proofs.Prover.Yard
import ProofRelay.Proofs.Prover.Attempts
import ProofRelay.Proofs.Pipeline.Neighbours
import ProofRelay.Proofs.Prover.Solitude
import ProofRelay.Proofs.Pipeline.Isolation
import ProofRelay.Proofs.Bytes.Utf8
import ProofRelay.Proofs.Contract.Loading
import ProofRelay.Proofs.Client.Effect
import ProofRelay.Proofs.Client.Foreseen
import ProofRelay.Proofs.Client.Guards
import ProofRelay.Proofs.Prover.Foreseen
import ProofRelay.Proofs.Pipeline.Ending
import ProofRelay.Proofs.Http.Responses
import ProofRelay.Proofs.Activity.Retry
import ProofRelay.Proofs.Prover.Discipline
import ProofRelay.Proofs.Pipeline.Retries
import ProofRelay.Proofs.Prover.Housekeeping
import ProofRelay.Proofs.Pipeline.Cleanup
import ProofRelay.Proofs.Prover.Machine
import ProofRelay.Proofs.Prover.LifeCycle
import ProofRelay.Proofs.Bytes.Hex
import ProofRelay.Proofs.Chain.Address
import ProofRelay.Proofs.Request.Signature
import ProofRelay.Proofs.Contract.Grammar
import ProofRelay.Proofs.Request.Acceptance
import ProofRelay.Proofs.Chain.Rlp
import ProofRelay.Proofs.Chain.Transaction
import ProofRelay.Proofs.Commitment.Decoding
import ProofRelay.Proofs.Json.Strings
import ProofRelay.Proofs.Json.Documents
import ProofRelay.Proofs.Json.RoundTrip
import ProofRelay.Proofs.Prover.Input
import ProofRelay.Proofs.Text.Lines
import ProofRelay.Proofs.Text.Summary
import ProofRelay.Proofs.Http.Disclosure
import ProofRelay.Proofs.Pipeline.Transitions
import ProofRelay.Proofs.Client.Inquiries
import ProofRelay.Proofs.Prover.Substitution
import ProofRelay.Proofs.Files.Path
import ProofRelay.Proofs.Prover.Confinement
