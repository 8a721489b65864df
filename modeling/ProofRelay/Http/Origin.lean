import ProofRelay.Http.Message

/-!
Requests from pages of other origins: which origins may read responses, and the questions that browsers
ask beforehand.
-/

namespace ProofRelay.Http.Origin

def allowsAll (origins : List String) : Bool := origins.contains "*"

def isAllowed (origins : List String) (origin : String) : Bool := allowsAll origins || origins.contains origin

/-- What the header that allows an origin says, if the origin is allowed. -/
def allowance (origins : List String) (origin : String) : List (String × String) :=
  if allowsAll origins then [("access-control-allow-origin", "*")]
  else if origins.contains origin then [("access-control-allow-origin", origin)]
  else []

/-- A response to a request of an origin. -/
def mark (origins : List String) (request : Request) (response : Response) : Response :=
  let allowed := match request.header? "origin" with
    | some origin => allowance origins origin
    | none => []
  { response with headers := response.headers ++ [("vary", "Origin")] ++ allowed }

/-- What about an inquiry is not allowed. -/
def objections (origins : List String) (request : Request) (origin method : String) : List String :=
  (if isAllowed origins origin then [] else ["origin"]) ++
  (if method == "GET" then [] else ["method"]) ++
  (if (request.header? "access-control-request-private-network").isSome then ["private-network"] else [])

def inquiryHeaders (origins : List String) (request : Request) (origin : String) : List (String × String) :=
  [("vary", "Origin, Access-Control-Request-Method, Access-Control-Request-Headers, Access-Control-Request-Private-Network"),
   ("access-control-allow-methods", "GET"), ("access-control-max-age", "600")] ++
  allowance origins origin ++
  (match request.header? "access-control-request-headers" with
    | some names => [("access-control-allow-headers", names)]
    | none => [])

/-- The answer to an inquiry. -/
def answer (origins : List String) (request : Request) (origin method : String) : Response :=
  let response := match objections origins request origin method with
    | [] => Response.text 200 "OK"
    | reasons => Response.text 400 ("Disallowed CORS " ++ String.intercalate ", " reasons)
  { response with headers := response.headers ++ inquiryHeaders origins request origin }

end ProofRelay.Http.Origin
