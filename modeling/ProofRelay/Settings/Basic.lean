import ProofRelay.Json.Access
import ProofRelay.Settings.EnvFile
import ProofRelay.Validation

/-!
Settings of the relay. They come from the caller, from the environment and from a file, the first of these
that gives a value being the one that counts. Unknown names are refused, except in the environment.
-/

namespace ProofRelay

structure Settings where
  projectName : String := "VERIFIED-CHAIN"
  port : Int := 8080
  logLevel : String := "INFO"
  corsOrigins : List String := ["*"]
  providerUrl : String := "http://127.0.0.1:8545"
  chainId : Option Int := none
  contractAddress : String := ""
  interfacePath : String := "json_abi/Contract.json"
  privateKey : String := ""
  receiptTimeout : Binary64 := Binary64.nearest false 120 1
  receiptPoll : Binary64 := Binary64.nearest false 1 1
  gasFactor : Binary64 := Binary64.nearest false 12 10
  proverBinary : String := "ezkl"
  proverLogrows : Int := 17
  proverBits : Int := 16
  proverModel : String := "ezkl/network.onnx"
  proverWorkDir : String := ""
  proverTimeout : Binary64 := Binary64.nearest false 600 1
  proverKeep : Bool := false
  stageRetries : Int := 0
  indexOffset : Int := 1

namespace Settings

def names : List String :=
  ["PROJECT_NAME", "PORT", "LOG_LEVEL", "CORS_ORIGINS", "WEB3_PROVIDER_URL", "CHAIN_ID", "PROOF_CONTRACT_ADDRESS",
   "CONTRACT_ABI_PATH", "RELAYER_PRIVATE_KEY", "RECEIPT_TIMEOUT_SECONDS", "RECEIPT_POLL_SECONDS", "GAS_LIMIT_MULTIPLIER",
   "PROVER_BINARY", "PROVER_LOGROWS", "PROVER_BITS", "PROVER_MODEL_PATH", "PROVER_WORK_DIR", "PROVER_TIMEOUT_SECONDS",
   "PROVER_KEEP_ARTIFACTS", "STAGE_RETRIES", "COUNTER_INDEX_OFFSET"]

/-- The one setting whose text is a document. -/
def originsName : String := "CORS_ORIGINS"

inductive Source where
  | environment
  | file

def Source.label : Source → String
  | .environment => "EnvSettingsSource"
  | .file => "DotEnvSettingsSource"

def undecodable (source : Source) (name : String) : Fault :=
  ⟨.settings, "error parsing value for field \"" ++ name ++ "\" from source \"" ++ source.label ++ "\""⟩

/-- The value that a source gives to a setting in text. A document that is null gives none. -/
def decode (source : Source) (name text : String) : Except Fault (Option Json) :=
  if name == originsName then
    match Json.readDocument Json.usualLevels (Text.ofString text) with
    | .ok .null => .ok none
    | .ok v => .ok (some v)
    | .error (.nesting holder) => .error (Json.nestedTooDeep holder)
    | .error _ => .error (undecodable source name)
  else .ok (some (.text text))

/-- The known settings among the names of a source, in order. -/
def known (source : Source) (given : EnvFile.Names) : Except Fault (List (String × Json)) := do
  let values ← names.mapM fun name =>
    match given.lookup name with
    | some (some text) => return (← decode source name text).map fun v => (name, v)
    | _ => return none
  return values.filterMap id

/-- The names in a file that are no settings. Those without a value do not count, nor do names that begin
with the name of the setting that is a document. -/
def unknown (given : EnvFile.Names) : List (String × Json) :=
  given.filterMap fun (name, v) =>
    match v with
    | some text =>
      if text.isEmpty || names.contains name || name.startsWith originsName then none
      else some (name, .text text)
    | none => none

/-- Puts values over others, which keep their places. -/
def overlay (lower upper : List (String × Json)) : List (String × Json) :=
  lower.map (fun (name, v) => (name, (upper.lookup name).getD v)) ++
    upper.filter fun (name, _) => !lower.any fun p => p.1 == name

/-- All values that the three sources give. -/
def gather (given : List (String × Json)) (environment : List (String × String)) (file : Option String) :
    Except Fault (List (String × Json)) := do
  let env ← known .environment (environment.map fun (k, v) => (k, some v))
  let named := match file with
    | some text => EnvFile.read environment text
    | none => []
  let fromFile ← known .file named
  return overlay (fromFile ++ unknown named) (overlay env given)

def originErrors (position : Nat) : List Json → List FieldError
  | [] => []
  | v :: rest =>
    (match Validation.text v with
      | .ok _ => []
      | .error r => [{ field := originsName, position := some position, rule := r }]) ++
    originErrors (position + 1) rest

/-- A list of texts. -/
def readOrigins (d : Json) : Except (List FieldError) (List String) :=
  match d.get? originsName with
  | none => .ok ["*"]
  | some (.arr items) =>
    match originErrors 0 items with
    | [] => .ok (items.filterMap fun v => (Validation.text v).toOption)
    | errors => .error errors
  | some _ => .error [{ field := originsName, rule := .list }]

/-- What is wrong with names that are no settings. -/
def extraErrors (values : List (String × Json)) : List FieldError :=
  values.filterMap fun (name, _) =>
    if names.contains name then none else some { field := name, rule := .extra }

def refuseExtra (values : List (String × Json)) : Except (List FieldError) Unit :=
  match extraErrors values with
  | [] => .ok ()
  | errors => .error errors

open Validation in
/-- Settings from values, with all that is wrong with them. -/
def ofValues (values : List (String × Json)) : Except (List FieldError) Settings :=
  let d := Json.record values
  let base : Settings := {}
  let make projectName port logLevel corsOrigins providerUrl chainId contractAddress interfacePath privateKey
      receiptTimeout receiptPoll gasFactor proverBinary proverLogrows proverBits proverModel proverWorkDir
      proverTimeout proverKeep stageRetries indexOffset (_ : Unit) : Settings :=
    ⟨projectName, port, logLevel, corsOrigins, providerUrl, chainId, contractAddress, interfacePath, privateKey,
     receiptTimeout, receiptPoll, gasFactor, proverBinary, proverLogrows, proverBits, proverModel, proverWorkDir,
     proverTimeout, proverKeep, stageRetries, indexOffset⟩
  let s := (fieldOr d "PROJECT_NAME" base.projectName text).map make
  let s := also s (fieldOr d "PORT" base.port integer)
  let s := also s (fieldOr d "LOG_LEVEL" base.logLevel text)
  let s := also s (readOrigins d)
  let s := also s (fieldOr d "WEB3_PROVIDER_URL" base.providerUrl text)
  let s := also s (fieldOr d "CHAIN_ID" base.chainId (optional integer))
  let s := also s (fieldOr d "PROOF_CONTRACT_ADDRESS" base.contractAddress text)
  let s := also s (fieldOr d "CONTRACT_ABI_PATH" base.interfacePath text)
  let s := also s (fieldOr d "RELAYER_PRIVATE_KEY" base.privateKey text)
  let s := also s (fieldOr d "RECEIPT_TIMEOUT_SECONDS" base.receiptTimeout number)
  let s := also s (fieldOr d "RECEIPT_POLL_SECONDS" base.receiptPoll number)
  let s := also s (fieldOr d "GAS_LIMIT_MULTIPLIER" base.gasFactor number)
  let s := also s (fieldOr d "PROVER_BINARY" base.proverBinary text)
  let s := also s (fieldOr d "PROVER_LOGROWS" base.proverLogrows integer)
  let s := also s (fieldOr d "PROVER_BITS" base.proverBits integer)
  let s := also s (fieldOr d "PROVER_MODEL_PATH" base.proverModel text)
  let s := also s (fieldOr d "PROVER_WORK_DIR" base.proverWorkDir text)
  let s := also s (fieldOr d "PROVER_TIMEOUT_SECONDS" base.proverTimeout number)
  let s := also s (fieldOr d "PROVER_KEEP_ARTIFACTS" base.proverKeep truth)
  let s := also s (fieldOr d "STAGE_RETRIES" base.stageRetries integer)
  let s := also s (fieldOr d "COUNTER_INDEX_OFFSET" base.indexOffset integer)
  also s (refuseExtra values)

/-- Settings from the caller's values, the environment and the text of a file. -/
def load (given : List (String × Json)) (environment : List (String × String)) (file : Option String) :
    Except Trouble Settings := do
  let values ← (gather given environment file).mapError .fault
  (ofValues values).mapError .invalid

end Settings

end ProofRelay
