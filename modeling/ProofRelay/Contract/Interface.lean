import ProofRelay.Bytes.Encoding
import ProofRelay.Datum
import ProofRelay.Failure
import ProofRelay.Json.Access

/-!
Contract interfaces: lists of entries, each an object with a type. An interface is usable if it has the
three methods that the relay calls. It comes as a bare list or as the `abi` member of an object.
-/

namespace ProofRelay.Interface

/-- The methods that the relay calls. -/
def required : List String := ["create_proof", "verify_proof", "counter"]

def refusal (message : String) (detail : Text) : Trouble :=
  .failure { kind := .interface, message := message, detail := detail }

/-- The list of entries in a document. -/
def entries? : Json → Option (List Json)
  | .obj members =>
    match Json.findMember (Text.ofString "abi") members with
    | some (.arr entries) => some entries
    | _ => none
  | .arr entries => some entries
  | _ => none

def hasType : Json → Bool
  | .obj members => (Json.findMember (Text.ofString "type") members).isSome
  | _ => false

/-- How much of a bad entry a report shows. -/
def shownLimit : Nat := 80

/-- The levels that are left for values where an interface is read and where an entry of it is shown. -/
structure Nesting where
  reading : Nat := Json.usualLevels
  showing : Nat := Json.usualLevels

/-- The report of an entry without a type. The whole entry is made text before it is cut. -/
def untyped (n : Nesting) (entry : Json) : Trouble :=
  match entry.shown n.showing with
  | .ok text => refusal "ABI entry without a type" (String.ofList (text.take shownLimit))
  | .error f => .fault f

/-- Whether an entry describes a function. -/
def isFunction (entry : Json) : Bool :=
  match entry.get? "type" with
  | some (.str s) => s == Text.ofString "function"
  | _ => false

/-- A name in a set of names has to be a simple value. -/
def checkName (name : Json) : Except Fault Json :=
  match name with
  | .arr _ | .obj _ => .error (.type ("unhashable type: " ++ quote name.kindName))
  | name => .ok name

/-- Whether a name is this text. -/
def isNamed (s : String) : Json → Bool
  | .str t => t == Text.ofString s
  | _ => false

/-- The required methods that are not among the names. -/
def missing (names : List Json) : List String :=
  required.filter fun m => !names.any (isNamed m)

/-- The entries of a usable interface, unchanged. -/
def ofDocument (n : Nesting) (d : Json) : Except Trouble (List Json) :=
  match entries? d with
  | none => .error (refusal "Interface description has no ABI list" "")
  | some entries =>
    match entries.find? fun e => !hasType e with
    | some entry => .error (untyped n entry)
    | none =>
      match ((entries.filter isFunction).map fun e => e.get "name").mapM checkName with
      | .error f => .error (.fault f)
      | .ok names =>
        match missing names with
        | [] => .ok entries
        | ms => .error (refusal "ABI is missing required methods" (String.intercalate ", " ms))

/-- An interface from the text of a document. -/
def ofText (n : Nesting) (t : Text) : Except Trouble (List Json) :=
  match Json.readDocument n.reading t with
  | .ok d => ofDocument n d
  | .error (.defect d left) =>
    .error (refusal "Interface description is not valid JSON" (Json.defectReport t d left))
  | .error (.digits count) => .error (.fault (Json.tooManyDigits count))
  | .error (.nesting holder) => .error (.fault (Json.nestedTooDeep holder))

/-- An interface from the bytes of a document. -/
def ofBytes (n : Nesting) (bs : Bytes) : Except Trouble (List Json) :=
  match Encoding.decodeDocument bs with
  | .ok t => ofText n t
  | .error f => .error (.fault f)

/-- An interface from a document, where a string is read as the text of one. -/
def ofDatum (n : Nesting) : Datum → Except Trouble (List Json)
  | .bytes bs => ofBytes n bs
  | .value (.str s) => ofText n s
  | .value d => ofDocument n d

/-- The name of a function, which every function must have; other entries have none. -/
def nameOf (entry : Json) : Except Fault (Option Json) :=
  match entry with
  | .obj _ =>
    if isFunction entry then
      match entry.get? "name" with
      | some name => .ok (some name)
      | none => .error (.missingKey "name")
    else .ok none
  | entry => .error ⟨.member, quote entry.kindName ++ " object has no attribute 'get'"⟩

/-- The names of the functions of an interface. -/
def methodNames (entries : List Json) : Except Fault (List Json) := do
  let names ← entries.mapM nameOf
  return names.filterMap id

end ProofRelay.Interface
