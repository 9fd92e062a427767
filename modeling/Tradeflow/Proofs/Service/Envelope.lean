/-
  Which errors come in the envelope. An error is answered in an envelope with the id of its request
  exactly if the nearest handler for it is one that the service registers (`Raised.enveloped_iff_own`).
  The framework's errors with a status, and those about bodies that do not fit, have their nearest
  handlers in the framework. So a request that is turned away before the service has a say
  (`Service.TurnedAway`: an unknown path, another method, a body that the endpoint does not take) is
  answered with a bare detail, and every other error in the envelope
  (`Service.error_enveloped_unless_turnedAway`). Of bodies that are refused this is said as far as the
  framework can write what it repeats of them: numbers that are not finite and halves of surrogate pairs
  are not covered.
-/
import Tradeflow.Service.Routes

namespace Tradeflow

namespace Service

/-- The body of a response is the envelope of an error of a kind, with the id of the response. -/
def Response.EnvelopedAs (r : Response) (code : String) : Prop :=
  ∃ detail, r.body = (Envelope.mk detail code r.requestId).document

def Response.Enveloped (r : Response) : Prop := ∃ code, r.EnvelopedAs code

/-- A detail alone is no envelope. -/
theorem detailDocument_ne_document (detail : Json) (e : Envelope) :
    detailDocument detail ≠ e.document := by
  intro h
  injection h with hpairs
  injection hpairs with _ hrest
  cases hrest

/-! Who handles an error. -/

/-- The nearest handler for a class is one of the service's. -/
def ErrorClass.Own (c : ErrorClass) : Prop := c.handler ∈ ownHandlers.map (·.2)

/-- The service's handler for errors with a status is not the nearest for those that the framework
raises: it is registered for a kind of them, not for all. -/
theorem ErrorClass.own_iff (c : ErrorClass) : c.Own ↔ c ≠ .http ∧ c ≠ .misfit := by
  unfold ErrorClass.Own
  cases c <;> decide

namespace Raised

def Own (e : Raised) : Prop := e.errorClass.Own

theorem own_iff (e : Raised) : e.Own ↔ e.errorClass ≠ .http ∧ e.errorClass ≠ .misfit :=
  e.errorClass.own_iff

/-- What only the framework handles is answered with nothing but a detail. -/
theorem answer_of_not_own {e : Raised} (h : ¬ e.Own) (id : String) :
    ∃ detail, (e.answer id).2 = detailDocument detail := by
  rw [own_iff] at h
  cases e with
  | http status detail => exact ⟨_, rfl⟩
  | misfit problems => exact ⟨_, rfl⟩
  | syntaxAt offset => exact ⟨_, rfl⟩
  | endpointHttp | interchange | other => exact absurd ⟨nofun, nofun⟩ h

/-- What a handler of the service takes is answered in the envelope. -/
theorem answer_of_own {e : Raised} (h : e.Own) (id : String) :
    ∃ code detail, (e.answer id).2 = (Envelope.mk detail code id).document := by
  rw [own_iff] at h
  cases e with
  | http => exact absurd rfl h.1
  | misfit | syntaxAt => exact absurd rfl h.2
  | endpointHttp status detail => exact ⟨_, _, rfl⟩
  | interchange detail => exact ⟨_, _, rfl⟩
  | other => exact ⟨_, _, rfl⟩

/-- An error is answered in the envelope exactly if its nearest handler is one of the service's. -/
theorem enveloped_iff_own (e : Raised) (id : String) :
    (∃ code detail, (e.answer id).2 = (Envelope.mk detail code id).document) ↔ e.Own := by
  constructor
  · rintro ⟨code, detail, henvelope⟩
    apply Classical.byContradiction
    intro hforeign
    obtain ⟨bare, hbare⟩ := answer_of_not_own hforeign id
    exact detailDocument_ne_document bare _ (hbare.symm.trans henvelope)
  · intro h
    exact answer_of_own h id

end Raised

/-! What a request ends with. -/

/-- An error that only the framework handles, with the status that it gives. -/
def Raised.Foreign (e : Raised) (status : Nat) : Prop := ¬ e.Own ∧ ∀ id, (e.answer id).1 = status

theorem Raised.foreign_http (status : Nat) (detail : String) : (http status detail).Foreign status :=
  ⟨fun h => ((own_iff _).1 h).1 rfl, fun _ => rfl⟩

theorem Raised.foreign_misfit (problems : List Problem) : (misfit problems).Foreign 422 :=
  ⟨fun h => ((own_iff _).1 h).2 rfl, fun _ => rfl⟩

theorem Raised.foreign_syntaxAt (offset : Nat) : (syntaxAt offset).Foreign 422 :=
  ⟨fun h => ((own_iff _).1 h).2 rfl, fun _ => rfl⟩

/-- A body that is no document to a route, and the status with which the framework refuses it. -/
inductive Unread (r : Request) : Nat → Prop where
  | empty (h : r.body = []) : Unread r 422
  | null (hbody : r.body ≠ []) (hkind : r.bringsDocument = true)
      (h : Json.ofBytes r.body = .ok .null) : Unread r 422
  | noText {e : Text.ByteError} (hbody : r.body ≠ []) (hkind : r.bringsDocument = true)
      (h : Json.ofBytes r.body = .error (.notText e)) : Unread r 400
  | noDocument {e : Json.ReadError} (hbody : r.body ≠ []) (hkind : r.bringsDocument = true)
      (h : Json.ofBytes r.body = .error (.notDocument e)) : Unread r 422

/-- An endpoint does not take the body of a request: it is no document, or one that does not fit. -/
inductive Endpoint.Refuses (r : Request) : Endpoint → Nat → Prop where
  | unread {α : Type} {codec : Codec α} {act} {status : Nat} (h : Unread r status) :
      Refuses r (.takes codec act) status
  | misfit {α : Type} {codec : Codec α} {act} {doc : Json} {problems : List Problem}
      (hdoc : readBody r = .ok doc) (h : codec.read doc = .error (.rejected problems)) :
      Refuses r (.takes codec act) 422

theorem Endpoint.Refuses.le_status {r : Request} {endpoint : Endpoint} {status : Nat}
    (h : endpoint.Refuses r status) : 400 ≤ status := by
  cases h with
  | unread h => cases h <;> decide
  | misfit => decide

theorem readBody_of_unread {r : Request} {status : Nat} (h : Unread r status) :
    ∃ e, readBody r = .error e ∧ e.Foreign status := by
  cases h with
  | empty h => exact ⟨_, if_pos h, Raised.foreign_misfit _⟩
  | null hbody hkind h =>
    refine ⟨.misfit [⟨[], .missing⟩], ?_, Raised.foreign_misfit _⟩
    simp only [readBody, hbody, hkind, h, if_false, if_true]
  | noText hbody hkind h =>
    refine ⟨.unreadable, ?_, Raised.foreign_http _ _⟩
    simp only [readBody, hbody, hkind, h, if_false, if_true]
  | @noDocument e hbody hkind h =>
    refine ⟨.syntaxAt e.offset, ?_, Raised.foreign_syntaxAt _⟩
    simp only [readBody, hbody, hkind, h, if_false, if_true]

theorem unread_of_readBody {r : Request} {e : Raised} (h : readBody r = .error e) :
    ∃ status, Unread r status := by
  unfold readBody at h
  split at h
  case isTrue hbody => exact ⟨422, .empty hbody⟩
  case isFalse hbody =>
    split at h
    case isFalse => cases h
    case isTrue hkind =>
      split at h
      case h_1 hnull => exact ⟨422, .null hbody hkind hnull⟩
      case h_2 => cases h
      case h_3 htext => exact ⟨400, .noText hbody hkind htext⟩
      case h_4 hdoc => exact ⟨422, .noDocument hbody hkind hdoc⟩

variable {s : Service} {o : Occasion} {r : Request}

theorem take_of_readBody {α : Type} {codec : Codec α} {doc : Json} (h : readBody r = .ok doc) :
    take codec r = (codec.read doc).mapError Raised.ofMisfit := by
  rw [take, h]
  rfl

/-- A body that is refused ends the request with an error of the framework. -/
theorem Endpoint.Refuses.reply {endpoint : Endpoint} {status : Nat}
    (h : endpoint.Refuses r status) :
    ∃ e, (endpoint.serve s o r).1 = .raised e ∧ e.Foreign status := by
  cases h with
  | @unread _ codec act _ h =>
    obtain ⟨e, he, hforeign⟩ := readBody_of_unread h
    have htake : take codec r = .error e := by rw [take, he]; rfl
    exact ⟨e, by rw [serve, htake], hforeign⟩
  | @misfit _ codec act doc problems hdoc h =>
    have htake : take codec r = .error (.misfit problems) := by
      rw [take_of_readBody hdoc, h]
      rfl
    exact ⟨.misfit problems, by rw [serve, htake], Raised.foreign_misfit problems⟩

/-- The errors that the service itself ends a request with. -/
inductive Raised.Served : Raised → Prop where
  | interchange (detail : String) : Served (.interchange detail)
  | other : Served .other

theorem Raised.served_ofFault (f : Fault) : (Raised.ofFault f).Served := by
  unfold ofFault
  split
  · exact .interchange _
  · exact .interchange _
  · exact .other

/-- What cannot be taken from a body is refused, or the service failed at it. -/
theorem take_error {α : Type} {codec : Codec α} {e : Raised} (h : take codec r = .error e)
    (act : Service → Occasion → α → Except Fault Json × Engine Float) :
    (∃ status, (Endpoint.takes codec act).Refuses r status) ∨ e.Served := by
  cases hread : readBody r with
  | error e' =>
    obtain ⟨status, hunread⟩ := unread_of_readBody hread
    exact .inl ⟨status, .unread hunread⟩
  | ok doc =>
    rw [take_of_readBody hread] at h
    cases hcodec : codec.read doc with
    | ok a => rw [hcodec] at h; cases h
    | error f =>
      rw [hcodec] at h
      cases h
      unfold Raised.ofMisfit
      split
      · exact .inl ⟨422, .misfit hread hcodec⟩
      · exact .inr .other

/-- An endpoint refuses the body, or the error is one of the service. -/
theorem Endpoint.serve_raised {endpoint : Endpoint} {e : Raised}
    (h : (endpoint.serve s o r).1 = .raised e) :
    (∃ status, endpoint.Refuses r status) ∨ e.Served := by
  cases endpoint with
  | gives document => cases h
  | @takes _ codec act =>
    cases htake : take codec r with
    | error e' =>
      rw [serve, htake] at h
      cases h
      exact take_error htake act
    | ok a =>
      rw [serve, htake] at h
      dsimp only at h
      split at h
      · cases h
        exact .inr (Raised.served_ofFault _)
      · cases h

/-- The framework turns a request away with a status, and the service never gets to act on it: its path
leads nowhere, its method is another, or its body is refused. -/
inductive TurnedAway (s : Service) (r : Request) : Nat → Prop where
  | noRoute (hpage : s.pages.get? (Route.trimSlashes r.path) = none)
      (hroute : Route.find? (Route.trimSlashes r.path) = none) : TurnedAway s r 404
  | pageMethod {page : Json} (hpage : s.pages.get? (Route.trimSlashes r.path) = some page)
      (hmethod : r.method ∉ pageMethods) : TurnedAway s r 405
  | routeMethod {route : Route} (hpage : s.pages.get? (Route.trimSlashes r.path) = none)
      (hroute : Route.find? (Route.trimSlashes r.path) = some route)
      (hmethod : r.method ≠ route.method) : TurnedAway s r 405
  | body {route : Route} {status : Nat} (hpage : s.pages.get? (Route.trimSlashes r.path) = none)
      (hroute : Route.find? (Route.trimSlashes r.path) = some route)
      (hmethod : r.method = route.method) (hrefused : route.endpoint.Refuses r status) :
      TurnedAway s r status

theorem TurnedAway.le_status {status : Nat} (h : s.TurnedAway r status) : 400 ≤ status := by
  cases h with
  | noRoute | pageMethod | routeMethod => decide
  | body _ _ _ hrefused => exact hrefused.le_status

/-- A request that is turned away ends with an error of the framework. -/
theorem TurnedAway.reply {status : Nat} (h : s.TurnedAway r status) (o : Occasion) :
    ∃ e, (s.reply o r).1 = .raised e ∧ e.Foreign status := by
  unfold Service.reply
  cases h with
  | noRoute hpage hroute =>
    refine ⟨.noRoute, ?_, Raised.foreign_http _ _⟩
    simp only [hpage, hroute]
  | pageMethod hpage hmethod =>
    refine ⟨.noMethod, ?_, Raised.foreign_http _ _⟩
    simp [hpage, hmethod]
  | routeMethod hpage hroute hmethod =>
    refine ⟨.noMethod, ?_, Raised.foreign_http _ _⟩
    simp only [hpage, hroute, hmethod, if_false]
  | body hpage hroute hmethod hrefused =>
    simp only [hpage, hroute, hmethod, if_true]
    exact hrefused.reply

/-- A request that ends with an error was turned away, or the error is one of the service. -/
theorem reply_raised {e : Raised} (h : (s.reply o r).1 = .raised e) :
    (∃ status, s.TurnedAway r status) ∨ e.Served := by
  unfold Service.reply at h
  dsimp only at h
  split at h
  case h_1 page _ hpage =>
    split at h
    case isTrue => cases h
    case isFalse hmethod => exact .inl ⟨405, .pageMethod hpage (by simpa using hmethod)⟩
  case h_2 route hpage hroute =>
    split at h
    case isFalse hmethod => exact .inl ⟨405, .routeMethod hpage hroute hmethod⟩
    case isTrue hmethod =>
      rcases Endpoint.serve_raised h with ⟨status, hrefused⟩ | hserved
      · exact .inl ⟨status, .body hpage hroute hmethod hrefused⟩
      · exact .inr hserved
  case h_3 hpage hroute => exact .inl ⟨404, .noRoute hpage hroute⟩

/-! Responses. -/

/-- The response carries the id of the request, and what its reply makes of that. -/
theorem answer_of_reply {reply : Reply} (h : (s.reply o r).1 = reply) (newId : String) :
    (s.answer o newId r).1 =
      ⟨(reply.answer (r.id?.getD newId)).1, r.id?.getD newId, (reply.answer (r.id?.getD newId)).2⟩ := by
  subst h
  rfl

/-- A request that is turned away is answered with a bare detail. -/
theorem TurnedAway.answer {status : Nat} (h : s.TurnedAway r status) (o : Occasion) (newId : String) :
    (s.answer o newId r).1.status = status ∧
      ∃ detail, (s.answer o newId r).1.body = detailDocument detail := by
  obtain ⟨e, hreply, hown, hstatus⟩ := h.reply o
  rw [answer_of_reply hreply]
  exact ⟨hstatus _, Raised.answer_of_not_own hown _⟩

theorem TurnedAway.not_enveloped {status : Nat} (h : s.TurnedAway r status) (o : Occasion)
    (newId : String) : ¬ (s.answer o newId r).1.Enveloped := by
  rintro ⟨code, detail, henvelope⟩
  obtain ⟨-, bare, hbare⟩ := h.answer o newId
  exact detailDocument_ne_document bare _ (hbare.symm.trans henvelope)

/-- An error that the service handles means that the request was not turned away. -/
theorem not_turnedAway_of_own {e : Raised} (h : (s.reply o r).1 = .raised e) (hown : e.Own)
    (status : Nat) : ¬ s.TurnedAway r status := by
  intro haway
  obtain ⟨e', hreply, hforeign, -⟩ := haway.reply o
  rw [h] at hreply
  cases hreply
  exact hforeign hown

/-- The statuses of the errors that the service answers, with the words for their kinds. -/
def ownErrors : List (Nat × String) := [(400, "bad_request"), (500, "internal_error")]

theorem Raised.Served.answer {e : Raised} (h : e.Served) (id : String) :
    ∃ code detail, (e.answer id).2 = (Envelope.mk detail code id).document ∧
      ((e.answer id).1, code) ∈ ownErrors := by
  cases h with
  | interchange detail => exact ⟨_, detail, rfl, .head _⟩
  | other => exact ⟨_, _, rfl, .tail _ (.head _)⟩

/-- Whatever else ends with an error is answered in the envelope. -/
theorem enveloped_of_not_turnedAway (haway : ∀ status, ¬ s.TurnedAway r status) (newId : String)
    (hstatus : 400 ≤ (s.answer o newId r).1.status) :
    ∃ code, (s.answer o newId r).1.EnvelopedAs code ∧
      ((s.answer o newId r).1.status, code) ∈ ownErrors := by
  cases hreply : (s.reply o r).1 with
  | done body =>
    rw [answer_of_reply hreply] at hstatus
    exact absurd hstatus (by show ¬ 400 ≤ 200; decide)
  | raised e =>
    rw [answer_of_reply hreply]
    rcases reply_raised hreply with ⟨status, hturned⟩ | hserved
    · exact absurd hturned (haway status)
    · obtain ⟨code, detail, hbody, hcode⟩ := hserved.answer (r.id?.getD newId)
      exact ⟨code, ⟨detail, hbody⟩, hcode⟩

/-- Every response carries the id of its request, or a new one. A request that is turned away is answered
with its status and with a detail alone, which is no envelope. Every other error is answered in the
envelope, with that id: as a bad request, or as an internal error. -/
theorem error_enveloped_unless_turnedAway (s : Service) (o : Occasion) (newId : String) (r : Request) :
    (s.answer o newId r).1.requestId = r.id?.getD newId ∧
    (∀ status, s.TurnedAway r status →
      (s.answer o newId r).1.status = status ∧ 400 ≤ status ∧
      (∃ detail, (s.answer o newId r).1.body = detailDocument detail) ∧
      ¬ (s.answer o newId r).1.Enveloped) ∧
    ((∀ status, ¬ s.TurnedAway r status) → 400 ≤ (s.answer o newId r).1.status →
      ∃ code, (s.answer o newId r).1.EnvelopedAs code ∧
        ((s.answer o newId r).1.status, code) ∈ ownErrors) := by
  refine ⟨rfl, ?_, ?_⟩
  · intro status haway
    obtain ⟨hstatus, hdetail⟩ := haway.answer o newId
    exact ⟨hstatus, haway.le_status, hdetail, haway.not_enveloped o newId⟩
  · intro haway hstatus
    exact enveloped_of_not_turnedAway haway newId hstatus

/-- The service with its standard settings. -/
def standard : Service := start .standard .standard []

def atStart : Occasion := ⟨⟨0⟩, 0, .idle⟩

/-- A request that names itself. -/
def named (method path : String) (body : List UInt8) : Request :=
  ⟨method, path, [("X-Request-ID", "r")], body⟩

/-- The class of the error that a request ends with. -/
def Reply.errorClass? : Reply → Option ErrorClass
  | .done _ => none
  | .raised e => some e.errorClass

theorem Reply.interchange_of_errorClass {reply : Reply}
    (h : reply.errorClass? = some .interchange) : ∃ detail, reply = .raised (.interchange detail) := by
  cases reply with
  | done => cases h
  | raised e =>
    cases e with
    | interchange detail => exact ⟨detail, rfl⟩
    | http | endpointHttp | misfit | syntaxAt | other => cases h

def emptyDocument : Request := named "POST" "/api/strategy-builder/decompile" [123, 125]

/-- An interchange document without its fields is refused in the envelope. -/
theorem emptyDocument_enveloped :
    (standard.answer atStart "" emptyDocument).1.requestId = "r" ∧
    (standard.answer atStart "" emptyDocument).1.status = 400 ∧
    (standard.answer atStart "" emptyDocument).1.EnvelopedAs "bad_request" := by
  have hclass : (standard.reply atStart emptyDocument).1.errorClass? = some .interchange := by
    decide +kernel
  have hname : emptyDocument.id?.getD "" = "r" := by decide +kernel
  obtain ⟨detail, hreply⟩ := Reply.interchange_of_errorClass hclass
  have hown : (Raised.interchange detail).Own := (Raised.own_iff _).2 ⟨nofun, nofun⟩
  have hstatus : (standard.answer atStart "" emptyDocument).1.status = 400 := by
    rw [answer_of_reply hreply]
    rfl
  obtain ⟨hid, -, hserved⟩ := error_enveloped_unless_turnedAway standard atStart "" emptyDocument
  obtain ⟨code, henveloped, hcode⟩ :=
    hserved (not_turnedAway_of_own hreply hown) (Nat.le_of_eq hstatus.symm)
  rw [hstatus] at hcode
  have hword : code = "bad_request" := by simpa [ownErrors] using hcode
  exact ⟨hid.trans hname, hstatus, hword ▸ henveloped⟩

/-- A path that leads nowhere, a method that a route does not have and a body that is missing. -/
theorem stray_requests_not_enveloped :
    (400 ≤ (standard.answer atStart "" (named "GET" "/api/nope" [])).1.status ∧
      ¬ (standard.answer atStart "" (named "GET" "/api/nope" [])).1.Enveloped) ∧
    (400 ≤ (standard.answer atStart "" (named "POST" "/api/health" [])).1.status ∧
      ¬ (standard.answer atStart "" (named "POST" "/api/health" [])).1.Enveloped) ∧
    400 ≤ (standard.answer atStart "" (named "POST" "/api/simulation/backtest" [])).1.status ∧
      ¬ (standard.answer atStart "" (named "POST" "/api/simulation/backtest" [])).1.Enveloped := by
  have hpath : standard.TurnedAway (named "GET" "/api/nope" []) 404 := .noRoute rfl (by decide +kernel)
  have hmethod : standard.TurnedAway (named "POST" "/api/health" []) 405 :=
    .routeMethod rfl (by decide +kernel : _ = some Route.health) (by decide)
  have hbody : standard.TurnedAway (named "POST" "/api/simulation/backtest" []) 422 :=
    .body rfl (by decide +kernel : _ = some Route.backtest) rfl (.unread (.empty rfl))
  refine ⟨⟨?_, hpath.not_enveloped _ _⟩, ⟨?_, hmethod.not_enveloped _ _⟩, ?_, hbody.not_enveloped _ _⟩
  · exact (hpath.answer _ _).1 ▸ hpath.le_status
  · exact (hmethod.answer _ _).1 ▸ hmethod.le_status
  · exact (hbody.answer _ _).1 ▸ hbody.le_status

end Service

end Tradeflow
