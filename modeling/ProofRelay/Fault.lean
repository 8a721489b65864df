import ProofRelay.Number.Decimal
import ProofRelay.Text.Quoted

/-!
Faults: errors that come from outside the relay, from a node, a file system or a value of the wrong
shape. A fault has a kind, which decides who handles it, and a text.
-/

namespace ProofRelay

namespace Fault

inductive Kind where
  | contractLogic
  | timeExhausted
  | nodeClient
  | request
  | connection
  | timeout
  | system
  | value
  | type
  | member
  | key
  | index
  | runtime
  | recursion
  | overflow
  | unicodeDecode
  | unicodeEncode
  | nonHex
  | serialization
  | settings
deriving DecidableEq, Repr

/-- The name that reports give a kind. -/
def Kind.label : Kind → String
  | .contractLogic => "ContractLogicError"
  | .timeExhausted => "TimeExhausted"
  | .nodeClient => "Web3Exception"
  | .request => "RequestException"
  | .connection => "ConnectionError"
  | .timeout => "TimeoutError"
  | .system => "OSError"
  | .value => "ValueError"
  | .type => "TypeError"
  | .member => "AttributeError"
  | .key => "KeyError"
  | .index => "IndexError"
  | .runtime => "RuntimeError"
  | .recursion => "RecursionError"
  | .overflow => "OverflowError"
  | .unicodeDecode => "UnicodeDecodeError"
  | .unicodeEncode => "UnicodeEncodeError"
  | .nonHex => "Error"
  | .serialization => "ObjectSerializationError"
  | .settings => "SettingsError"

def Kind.all : List Kind :=
  [.contractLogic, .timeExhausted, .nodeClient, .request, .connection, .timeout, .system, .value, .type, .member,
   .key, .index, .runtime, .recursion, .overflow, .unicodeDecode, .unicodeEncode, .nonHex, .serialization,
   .settings]

def Kind.ofLabel? (s : String) : Option Kind := Kind.all.find? fun k => k.label == s

/-- Kinds of malformed value. -/
def Kind.isValue : Kind → Bool
  | .value | .unicodeDecode | .unicodeEncode | .nonHex | .settings => true
  | _ => false

/-- Kinds of failure of a system call or a transport. -/
def Kind.isSystem : Kind → Bool
  | .system | .request | .connection | .timeout => true
  | _ => false

/-- Kinds with which a round trip to a node may fail. -/
def Kind.isNode : Kind → Bool
  | .contractLogic | .timeExhausted | .nodeClient => true
  | k => k.isValue || k.isSystem

end Fault

structure Fault where
  kind : Fault.Kind
  text : Text
deriving DecidableEq, Repr

namespace Fault

/-- A fault raised with a message: a missing key is quoted, and a contract's refusal is shown with the
data that came with it, which is none. -/
def raised (kind : Kind) (message : Text) : Fault :=
  match kind with
  | .key => ⟨.key, Text.quoted message⟩
  | .contractLogic => ⟨.contractLogic, "(" ++ Text.quoted message ++ ", None)"⟩
  | kind => ⟨kind, message⟩

def value (text : Text) : Fault := ⟨.value, text⟩

def type (text : Text) : Fault := ⟨.type, text⟩

def missingKey (name : String) : Fault := raised .key name

/-- A refused system call, with its number and, if there is one, the file it was about. -/
def system (number : Int) (message : Text) (file : Option Text) : Fault :=
  let head := Text.ofString ("[Errno " ++ Decimal.ofInt number ++ "] ") ++ message
  ⟨.system, match file with
    | none => head
    | some f => head ++ Text.ofString (": " ++ Text.quoted f)⟩

/-- Values that nest deeper than there are levels left for them. -/
def tooDeep (doing : String) : Fault := ⟨.recursion, "maximum recursion depth exceeded while " ++ doing⟩

end Fault

namespace Decimal

/-- The fault of an integer with too many digits to become text. -/
def unwritable : Fault :=
  .value ("Exceeds the limit (" ++ ofNat digitLimit ++
    " digits) for integer string conversion; use sys.set_int_max_str_digits() to increase the limit")

/-- The text of an integer, if it has one. -/
def shown (n : Int) : Except Fault String := if fits n then .ok (ofInt n) else .error unwritable

/-- Makes text of integers, for a line of which only the making matters. -/
def showAll (ns : List Int) : Except Fault Unit := if ns.all fits then .ok () else .error unwritable

end Decimal

end ProofRelay
