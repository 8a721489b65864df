import ProofRelay.Failure
import ProofRelay.Json.Value

/-!
Requests and responses of the relay's HTTP interface, as the server hands them over and takes them to write, and its
reports of failures to a caller: a status code and five texts, none of which is raw foreign text.
-/

namespace ProofRelay.Http

structure Request where
  method : String := "GET"
  path : String
  /-- The text after the question mark. -/
  query : String := ""
  headers : List (String × String) := []
  /-- The name under which the caller knows the service. -/
  host : String := "localhost"

/-- A header of a request; names of headers have no case. -/
def Request.header? (r : Request) (name : String) : Option String :=
  (r.headers.find? fun h => h.1.toLower == name).map Prod.snd

inductive Body where
  | document (d : Json)
  | text (s : String)
  | empty

structure Response where
  status : Int
  headers : List (String × String) := []
  body : Body

namespace Response

def document (status : Int) (d : Json) : Response :=
  { status := status, headers := [("content-type", "application/json")], body := .document d }

def text (status : Int) (s : String) : Response :=
  { status := status, headers := [("content-type", "text/plain; charset=utf-8")], body := .text s }

/-- A response that tells what is wrong. -/
def refusal (status : Int) (detail : Json) : Response := document status (.record [("detail", detail)])

end Response

structure Report where
  code : Int
  requestId : Option Text
  stage : String
  error : String
  reason : String
  message : Text
deriving DecidableEq, Repr

/-- The report of a failure. A failure never maps to a code of success. -/
def Report.ofFailure (f : Failure) (requestId : Option Text) : Report where
  code := if 400 ≤ f.status then f.status else 500
  requestId := requestId
  stage := match f.stage with
    | none => "Idle"
    | some s => if s.isEmpty then "Idle" else s
  error := f.kind.label
  reason := f.kind.reason
  message := f.summary

end ProofRelay.Http
