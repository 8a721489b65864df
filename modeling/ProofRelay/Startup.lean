import ProofRelay.Pipeline.Relay
import ProofRelay.Settings.Basic

/-!
Starting the relay: its parts from the settings. The key is checked first, then the contract's interface
and address; any failure ends the start.
-/

namespace ProofRelay

/-- The version that the relay reports. -/
def version : String := "0.1.0"

namespace Startup

def proverConfig (s : Settings) : Prover.Config Binary64 :=
  { command := [s.proverBinary], logrows := s.proverLogrows, bits := s.proverBits, timeout := s.proverTimeout,
    root := if s.proverWorkDir.isEmpty then none else some (.ofString s.proverWorkDir), keep := s.proverKeep }

def clientConfig (s : Settings) : Client.Config :=
  { gasFactor := .real s.gasFactor, receiptTimeout := s.receiptTimeout }

/-- The relay that settings describe. -/
def relay (s : Settings) (files : FileTree) : Except Trouble (Relay.Config Binary64) := do
  let key ← PrivateKey.load s.privateKey
  let contract ← Handle.load {} files s.interfacePath (.text s.contractAddress)
  return { prover := proverConfig s, client := clientConfig s, contract := contract, signer := .key (.ofKey key),
           model := .ofString s.proverModel, retries := s.stageRetries, indexOffset := s.indexOffset }

end Startup

end ProofRelay
