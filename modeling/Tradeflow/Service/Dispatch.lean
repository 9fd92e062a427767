/-
  How errors are answered. An error has a class, which is of a kind with wider classes up to that of all
  errors, and it goes to the handler registered for the nearest of these. The service registers handlers
  of its own; the framework adds its own for its errors where the service has none for just that class.
  The handlers of the service answer in an envelope, those of the framework with a bare detail.

  The framework's handlers are taken to manage to write their answers. With its problems it repeats the
  parts of a refused body that they are about, which are left out here; where these hold a number that
  is not finite or half of a surrogate pair, it cannot write them and fails like an endpoint that does,
  with status 500 in the envelope. Such bodies are not covered.
-/
import Tradeflow.Service.Message

namespace Tradeflow.Service

/-- The classes of errors that are told apart. -/
inductive ErrorClass where
  | any
  /-- The errors with a status, which the framework raises. -/
  | http
  /-- The kind of them that is meant for endpoints. -/
  | endpointHttp
  /-- A body does not fit. -/
  | misfit
  /-- An interchange document is refused. -/
  | interchange
  deriving DecidableEq, Repr

/-- A class and those it is of a kind with, the nearest first. -/
def ErrorClass.lineage : ErrorClass → List ErrorClass
  | any => [any]
  | http => [http, any]
  | endpointHttp => [endpointHttp, http, any]
  | misfit => [misfit, any]
  | interchange => [interchange, any]

inductive Handler where
  | httpEnvelope
  | interchangeEnvelope
  | internalEnvelope
  | bareDetail
  | problemList
  deriving DecidableEq, Repr

/-- The handlers that the service registers. -/
def ownHandlers : List (ErrorClass × Handler) :=
  [(.endpointHttp, .httpEnvelope), (.interchange, .interchangeEnvelope), (.any, .internalEnvelope)]

/-- The handlers that the framework comes with. -/
def frameworkHandlers : List (ErrorClass × Handler) :=
  [(.http, .bareDetail), (.misfit, .problemList)]

/-- The handler for a class. What no handler takes is caught outside of them all and answered like an
error of any kind. -/
def ErrorClass.handler (c : ErrorClass) : Handler :=
  (c.lineage.findSome? fun k => (ownHandlers ++ frameworkHandlers).lookup k).getD .internalEnvelope

/-- An error that ends a request. -/
inductive Raised where
  | http (status : Nat) (detail : String)
  | endpointHttp (status : Nat) (detail : String)
  | misfit (problems : List Problem)
  /-- The body is no document; it breaks off at the given place. -/
  | syntaxAt (offset : Nat)
  | interchange (detail : String)
  | other

namespace Raised

def noRoute : Raised := http 404 "Not Found"

def noMethod : Raised := http 405 "Method Not Allowed"

/-- The body is not even text. -/
def unreadable : Raised := http 400 "There was an error parsing the body"

def errorClass : Raised → ErrorClass
  | http _ _ => .http
  | endpointHttp _ _ => .endpointHttp
  | misfit _ | syntaxAt _ => .misfit
  | interchange _ => .interchange
  | other => .any

end Raised

/-- The word for a kind of problem. A record in a request may be given by anything with fields. -/
def problemWord : ProblemKind → String
  | .notARecord => "model_attributes_type"
  | kind => kind.word

def placeDocument : Place → Json
  | .key name => .str name
  | .index n => .int n

/-- A problem with the body, or with something in it: where it is and of what kind, without the part of
the body that it is about. -/
def problemDocument (place : List Place) (word : String) : Json :=
  .obj [("loc", .arr (.str "body" :: place.map placeDocument)), ("type", .str word)]

def detailDocument (detail : Json) : Json := .obj [("detail", detail)]

/-- What a handler makes of an error with a status: its detail, unless that is empty. -/
def httpEnvelope (status : Nat) (detail id : String) : Envelope where
  detail := if detail.isEmpty then "HTTP error" else detail
  code := errorCode status
  requestId := id

def internalEnvelope (id : String) : Envelope where
  detail := "Internal server error"
  code := "internal_error"
  requestId := id

/-- The status and the body with which an error is answered. A handler given an error that it is not
made for fails in its turn. -/
def Raised.answer (id : String) (e : Raised) : Nat × Json :=
  match e.errorClass.handler, e with
  | .httpEnvelope, .http status detail => (status, (httpEnvelope status detail id).document)
  | .httpEnvelope, .endpointHttp status detail => (status, (httpEnvelope status detail id).document)
  | .interchangeEnvelope, .interchange detail => (400, (Envelope.mk detail (errorCode 400) id).document)
  | .bareDetail, .http status detail => (status, detailDocument (.str detail))
  | .bareDetail, .endpointHttp status detail => (status, detailDocument (.str detail))
  | .problemList, .misfit problems =>
    (422, detailDocument
      (.arr (problems.map fun p => problemDocument p.place (problemWord p.kind))))
  | .problemList, .syntaxAt offset =>
    (422, detailDocument (.arr [problemDocument [.index offset] "json_invalid"]))
  | _, _ => (500, (internalEnvelope id).document)

/-- What comes of a request. -/
inductive Reply where
  | done (body : Json)
  | raised (e : Raised)

/-- The status and the body of a response. -/
def Reply.answer (id : String) : Reply → Nat × Json
  | done body => (200, body)
  | raised e => e.answer id

end Tradeflow.Service
