/-
  Requests and responses. Every response names its request: by the id that came with it, or by a new
  one. The service reports an error in an envelope, which repeats that id.
-/
import Tradeflow.Fault
import Tradeflow.Text.Basic

namespace Tradeflow.Service

structure Request where
  method : String
  path : String
  headers : Assoc String
  body : List UInt8

structure Response where
  status : Nat
  requestId : String
  body : Json

/-- The word for the kind of an error that goes with a status. -/
def errorCode (status : Int) : String :=
  if status = 404 then "not_found"
  else if status = 400 then "bad_request"
  else if status = 422 then "validation_error"
  else "http_error"

/-- An error as the service reports it. -/
structure Envelope where
  detail : String
  code : String
  requestId : String

def Envelope.document (e : Envelope) : Json :=
  .obj [("detail", .str e.detail), ("error_code", .str e.code), ("request_id", .str e.requestId)]

/-- The first value of a header; `name` is in lower case. -/
def Request.header? (r : Request) (name : String) : Option String :=
  (r.headers.find? fun h => h.1.toLower == name).map (·.2)

/-- The id that came with a request, unless it is empty. -/
def Request.id? (r : Request) : Option String :=
  match r.header? "x-request-id" with
  | some id => if id.isEmpty then none else some id
  | none => none

/-- Whether a content type is that of a document. What follows a semicolon does not count. -/
def namesDocument (contentType : String) : Bool :=
  let bare := Text.trimBlank (contentType.toList.takeWhile (· != ';'))
  let main := bare.takeWhile (· != '/')
  let sub := (bare.drop (main.length + 1)).map Char.toLower
  main.map Char.toLower == "application".toList && !sub.contains '/' &&
    (sub == "json".toList || "+json".toList.isSuffixOf sub)

/-- Whether the body of a request is meant as a document, as it is unless the request says otherwise. -/
def Request.bringsDocument (r : Request) : Bool :=
  match r.header? "content-type" with
  | some contentType => contentType.isEmpty || namesDocument contentType
  | none => true

end Tradeflow.Service
