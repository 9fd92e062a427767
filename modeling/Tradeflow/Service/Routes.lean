/-
  The routes of the service and what each of them does. A path with slashes at its end stands for the
  one without. The validator and the engine are those of the settings that come with the program; the
  engine's cache lasts from one request to the next. The framework adds pages of its own, about the
  service.
-/
import Tradeflow.Backtest.Engine
import Tradeflow.Catalog.Core
import Tradeflow.Interchange.Compile
import Tradeflow.Service.Dispatch
import Tradeflow.Service.Payload
import Tradeflow.Settings.Shipped
import Tradeflow.Validation.Verdict

namespace Tradeflow

/-- The service: what it validates and simulates with, and the pages that the framework adds. -/
structure Service where
  validator : Validator
  engine : Engine Float
  pages : Assoc Json

namespace Service

inductive Route where
  | health
  | blocks
  | validate
  | compile
  | decompile
  | backtest
  | monteCarlo
  | sandbox
  | estimate
  deriving DecidableEq, Repr

namespace Route

def all : List Route :=
  [.health, .blocks, .validate, .compile, .decompile, .backtest, .monteCarlo, .sandbox, .estimate]

def path : Route → String
  | health => "/api/health"
  | blocks => "/api/strategy-builder/blocks"
  | validate => "/api/strategy-builder/validate"
  | compile => "/api/strategy-builder/compile"
  | decompile => "/api/strategy-builder/decompile"
  | backtest => "/api/simulation/backtest"
  | monteCarlo => "/api/simulation/monte-carlo"
  | sandbox => "/api/simulation/sandbox"
  | estimate => "/api/simulation/estimate"

def method : Route → String
  | health | blocks => "GET"
  | _ => "POST"

/-- Drops slashes at the end. -/
def trimSlashes (path : String) : String :=
  String.ofList (path.toList.reverse.dropWhile (· == '/')).reverse

/-- The route of a path. -/
def find? (path : String) : Option Route := all.find? fun r => r.path == path

end Route

/-- The document in the body of a request, or the error of there being none. A body that is not meant as
a document is handed on as it is: bytes, for which the empty text stands here, as it fits no route
either. -/
def readBody (r : Request) : Except Raised Json :=
  if r.body = [] then .error (.misfit [⟨[], .missing⟩])
  else if r.bringsDocument then
    match Json.ofBytes r.body with
    | .ok .null => .error (.misfit [⟨[], .missing⟩])
    | .ok doc => .ok doc
    | .error (.notText _) => .error .unreadable
    | .error (.notDocument e) => .error (.syntaxAt e.offset)
  else .ok (.str "")

/-- The error with which a body that cannot be taken is refused. -/
def Raised.ofMisfit : Fault → Raised
  | .rejected ps => .misfit ps
  | _ => .other

/-- The error with which a request that could be taken ends. -/
def Raised.ofFault (f : Fault) : Raised :=
  match f with
  | .interchangeForm _ => .interchange f.message
  | .interchangeText _ => .interchange f.message
  | _ => .other

/-- What is taken from the body of a request. -/
def take {α : Type} (codec : Codec α) (r : Request) : Except Raised α := do
  let doc ← readBody r
  (codec.read doc).mapError Raised.ofMisfit

/-- The service with the given settings. -/
def start (validation : ValidationConfig) (simulation : EngineConfig) (pages : Assoc Json) :
    Service where
  validator := ⟨validation, .core, []⟩
  engine := .start ⟨simulation, .core, none⟩
  pages := pages

/-- The service with the settings in a directory. -/
def ofSettings (d : Settings.Directory) (pages : Assoc Json := []) : Except Fault Service := do
  let validation ← Settings.validation (← d.loadOptional "validation")
  let simulation ← Settings.simulation (← d.loadOptional "simulation")
  return .start validation simulation pages

/-- The outcome of something that changes the engine only if it succeeds. -/
def settle (s : Service) : Except Fault (Json × Engine Float) → Except Fault Json × Engine Float
  | .error f => (.error f, s.engine)
  | .ok (out, e) => (.ok out, e)

def healthDocument : Json :=
  .obj [("status", .str "ok"), ("service", .str "strategy_lab_backend")]

/-- The verdict on a strategy, whether it may be deployed, and a report. -/
def verdictDocument (v : Validator) (r : Verdict Float) : Json :=
  .obj [("result", Verdict.codec.write r), ("deployable", .bool (v.isDeployable r)),
    ("summary", .str r.summary)]

/-- What stands behind a route: it gives a document, or it takes something from the body of a request
and does something with it, which may change the engine. -/
inductive Endpoint where
  | gives (document : Service → Json)
  | takes {α : Type} (codec : Codec α)
      (act : Service → Occasion → α → Except Fault Json × Engine Float)

def Route.endpoint : Route → Endpoint
  | .health => .gives fun _ => healthDocument
  | .blocks => .gives fun s => .arr (s.validator.catalog.all.map BlockType.codec.write)
  | .validate => .takes Strategy.codec fun s _ strategy => s.settle do
    let r ← s.validator.validate Float strategy
    return (verdictDocument s.validator r, s.engine)
  | .compile => .takes Strategy.codec fun s _ strategy =>
    (.ok (CompiledStrategy.codec.write (strategy.compile s.validator.catalog)), s.engine)
  | .decompile => .takes Codec.object fun s _ pairs => s.settle do
    let compiled ← CompiledStrategy.ofDocument (.obj pairs)
    return (Strategy.codec.write compiled.decompile, s.engine)
  | .backtest => .takes BacktestRequest.codec fun s o r => s.settle do
    let (out, e) ← s.engine.backtest o true r.strategy r.config
    return (BacktestResult.codec.write out, e)
  | .monteCarlo => .takes MonteCarloRequest.codec fun s o r => s.settle do
    let (out, e) ← s.engine.monteCarlo o r.strategy r.config r.runs r.seed
    return (MonteCarloResult.codec.write out, e)
  | .sandbox => .takes SandboxRequest.codec fun s o r => s.settle do
    let (out, e) ← s.engine.sandbox o r.strategy r.durationHours r.seed
    return (SandboxResult.codec.write out, e)
  | .estimate => .takes EstimateRequest.codec fun s o r =>
    ((s.engine.estimate o r.strategy r.horizon r.seed).map fun (out, _) =>
      PerformanceEstimate.codec.write out, s.engine.afterEstimate o r.strategy r.horizon r.seed)

/-- The reply of an endpoint, and the service after it. -/
def Endpoint.serve (s : Service) (o : Occasion) (r : Request) : Endpoint → Reply × Service
  | gives document => (.done (document s).nulled, s)
  | takes codec act =>
    match take codec r with
    | .error e => (.raised e, s)
    | .ok a =>
      match act s o a with
      | (.error f, e) => (.raised (.ofFault f), { s with engine := e })
      | (.ok out, e) => (.done out.nulled, { s with engine := e })

/-- The methods by which pages are asked for. -/
def pageMethods : List String := ["GET", "HEAD"]

/-- What comes of a request. -/
def reply (s : Service) (o : Occasion) (r : Request) : Reply × Service :=
  let path := Route.trimSlashes r.path
  match s.pages.get? path, Route.find? path with
  | some page, _ => (if pageMethods.contains r.method then .done page else .raised .noMethod, s)
  | none, some route =>
    if r.method = route.method then route.endpoint.serve s o r else (.raised .noMethod, s)
  | none, none => (.raised .noRoute, s)

/-- Answers a request. `newId` names it if it came without an id. -/
def answer (s : Service) (o : Occasion) (newId : String) (r : Request) : Response × Service :=
  let id := r.id?.getD newId
  let replied := s.reply o r
  let answered := replied.1.answer id
  (⟨answered.1, id, answered.2⟩, replied.2)

end Service

end Tradeflow
