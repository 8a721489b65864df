import ProofRelay.Fault
import ProofRelay.Number.Decimal
import ProofRelay.Text.Summary

/-!
Failures: the errors that the relay itself reports. Each kind has a reason code and an HTTP status; the
summary shows the message and at most one short line of the foreign text behind it.
-/

namespace ProofRelay

namespace Failure

inductive Kind where
  | pipeline
  | load
  | interface
  | key
  | request
  | process (exitCode : Int)
  | artifact
  | proverTimeout
  | estimation
  | submission
  | receiptTimeout
  | call
deriving DecidableEq, Repr

def Kind.label : Kind → String
  | .pipeline => "PipelineError"
  | .load => "LoadError"
  | .interface => "AbiParseError"
  | .key => "InvalidKeyError"
  | .request => "InvalidRequestError"
  | .process _ => "ProcessFailedError"
  | .artifact => "ArtifactMissingError"
  | .proverTimeout => "ProverTimeoutError"
  | .estimation => "EstimationError"
  | .submission => "SubmissionError"
  | .receiptTimeout => "ReceiptTimeoutError"
  | .call => "CallError"

def Kind.reason : Kind → String
  | .pipeline => "PIPELINE_ERROR"
  | .load => "LOAD_ERROR"
  | .interface => "ABI_PARSE_ERROR"
  | .key => "INVALID_KEY"
  | .request => "INVALID_REQUEST"
  | .process _ => "PROCESS_FAILED"
  | .artifact => "ARTIFACT_MISSING"
  | .proverTimeout => "PROVER_TIMEOUT"
  | .estimation => "ESTIMATION_FAILED"
  | .submission => "SUBMISSION_FAILED"
  | .receiptTimeout => "RECEIPT_TIMEOUT"
  | .call => "CALL_FAILED"

def Kind.status : Kind → Int
  | .pipeline | .load | .interface | .key => 500
  | .request => 400
  | .process _ | .artifact | .estimation | .submission | .call => 502
  | .proverTimeout | .receiptTimeout => 504

/-- Whether a kind reports that time ran out. -/
def Kind.isTimeout : Kind → Bool
  | .proverTimeout | .receiptTimeout => true
  | _ => false

/-- Whether a kind reports that the contract interface could not be loaded. -/
def Kind.isLoad : Kind → Bool
  | .load | .interface => true
  | _ => false

end Failure

structure Failure where
  kind : Failure.Kind
  message : Text
  detail : Text := []
  stage : Option String := none
  status : Int := kind.status
deriving DecidableEq, Repr

namespace Failure

/-- One line: the message with the summary of the detail. A failed process is told by the last line of
its error output alone, or by its exit code if it said nothing. -/
def summary (f : Failure) : Text :=
  let line := Text.summarize f.detail
  match f.kind with
  | .process code =>
    if line.isEmpty then f.message ++ Text.ofString (" (exit code " ++ Decimal.ofInt code ++ ")") else line
  | _ => if line.isEmpty then f.message else f.message ++ Text.ofString ": " ++ line

def inStage (f : Failure) (stage : String) : Failure := { f with stage := some stage }

end Failure

/-- The rules that a field of a record may break. -/
inductive Rule where
  | missing
  | extra
  | text
  | unicode
  | tooShort
  | tooLong (limit : Nat)
  | integer
  | integerText
  | integerSize
  | integerPart
  | finite
  | negative
  | number
  | numberText
  | truth
  | truthText
  | list
  | checked (message : String)
deriving DecidableEq, Repr

def Rule.label : Rule → String
  | .missing => "missing"
  | .extra => "extra_forbidden"
  | .text => "string_type"
  | .unicode => "string_unicode"
  | .tooShort => "string_too_short"
  | .tooLong _ => "string_too_long"
  | .integer => "int_type"
  | .integerText => "int_parsing"
  | .integerSize => "int_parsing_size"
  | .integerPart => "int_from_float"
  | .finite => "finite_number"
  | .negative => "greater_than_equal"
  | .number => "float_type"
  | .numberText => "float_parsing"
  | .truth => "bool_type"
  | .truthText => "bool_parsing"
  | .list => "list_type"
  | .checked _ => "value_error"

def Rule.message : Rule → String
  | .missing => "Field required"
  | .extra => "Extra inputs are not permitted"
  | .text => "Input should be a valid string"
  | .unicode => "Input should be a valid string, unable to parse raw data as a unicode string"
  | .tooShort => "String should have at least 1 character"
  | .tooLong n => "String should have at most " ++ Decimal.ofNat n ++ " characters"
  | .integer => "Input should be a valid integer"
  | .integerText => "Input should be a valid integer, unable to parse string as an integer"
  | .integerSize => "Unable to parse input string as an integer, exceeded maximum size"
  | .integerPart => "Input should be a valid integer, got a number with a fractional part"
  | .finite => "Input should be a finite number"
  | .negative => "Input should be greater than or equal to 0"
  | .number => "Input should be a valid number"
  | .numberText => "Input should be a valid number, unable to parse string as a number"
  | .truth => "Input should be a valid boolean"
  | .truthText => "Input should be a valid boolean, unable to interpret input"
  | .list => "Input should be a valid list"
  | .checked m => "Value error, " ++ m

/-- A field that breaks a rule, or, for a list, the item at a position in it. -/
structure FieldError where
  field : String
  position : Option Nat := none
  rule : Rule
deriving DecidableEq, Repr

/-- All that can end an operation early. -/
inductive Trouble where
  | failure (f : Failure)
  | fault (f : Fault)
  | invalid (errors : List FieldError)
deriving DecidableEq, Repr

end ProofRelay
