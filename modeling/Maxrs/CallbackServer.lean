import Maxrs.CallbackUrl
import Maxrs.CaptchaInv
set_option autoImplicit false

/-! `auth/captcha/http.rs` as `solve_auth_captcha` uses it: the listener of one login, the
connections that it has accepted, the requests on them, and the `solve` call that they answer. -/
namespace Maxrs

structure HttpRequest where
  method : String
  path : String
  deriving DecidableEq

structure HttpResponse where
  status : Nat
  headers : List (String × String)
  body : Value

def jsonResponse (status : Nat) (body : Value) : HttpResponse where
  status := status
  headers := [("content-type", "application/json")]
  body := body

def methodNotAllowed (allowedMethods : String) : HttpResponse :=
  let response := jsonResponse 405 (.object [("error", .string "method not allowed")])
  { response with headers := response.headers ++ [("allow", allowedMethods)] }

/-- `route_request`; `none` where `handle_captcha_callback` is to answer. -/
def routeRequest (request : HttpRequest) : Option HttpResponse :=
  if request.path = DEFAULT_CAPTCHA_CALLBACK_PATH then
    if request.method = "POST" then none else some (methodNotAllowed "POST")
  else some (jsonResponse 404 (.object [("error", .string "not found")]))

abbrev HttpConnId := Nat

inductive HttpConnAt where
  | idle
  /-- A request is with `handle_captcha_callback`. -/
  | handling (k : CallbackId)
  | closed

inductive ServeAt where
  | absent
  | serving
  /-- The listener is gone; `none` when the task was aborted. -/
  | ended (result : Option (Except Error Unit))

/-- The awaits of `solve_auth_captcha` from `HttpServer::bind` on. -/
inductive SolveCaptchaAt where
  | binding
  | solving
  /-- In `HttpServerTask::shutdown`. -/
  | stopping (result : Except Error String)
  | returned (result : Except Error String)
  | dropped

structure Exchange where
  request : HttpRequest
  handler : Option CallbackId
  response : HttpResponse

structure CaptchaLogin where
  world : CaptchaWorld
  flow : SolveCaptchaAt
  serve : ServeAt
  /-- The token `shutdown`. -/
  shutdown : Bool
  /-- The `AbortOnDropHandle` was dropped. -/
  abort : Bool
  conns : HttpConnId → Option HttpConnAt
  accepted : Nat
  /-- The requests that went to `handle_captcha_callback`; activation `k` has the `k`-th. -/
  handled : List HttpRequest
  exchanges : List Exchange

structure CaptchaLoginSetup where
  captcha : AuthCaptchaConfig
  solverUrl : String
  captchaLink : String
  /-- What `bind` and `local_addr` bring. -/
  bound : Except IoErrorKind SocketAddr
  decode : List UInt8 → Except String CaptchaCallback
  display : Error → String

/-- The solver of this login, for `CaptchaSolverConfig::new(solver_url, callback_url)`. -/
def CaptchaLoginSetup.env (setup : CaptchaLoginSetup) : CaptchaEnv where
  config :=
    { solverUrl := some setup.solverUrl
      callbackUrl := setup.bound.toOption.map setup.captcha.callbackUrl }
  decode := setup.decode

inductive CaptchaLoginAct where
  | tick (d : Nat)
  | bind
  | solve (s : SolveStep)
  /-- `solve` has returned: `shutdown` cancels the token of the server. -/
  | solved
  | joined
  | drop
  | accept (result : Except IoErrorKind Unit)
  | stop
  | abort
  | request (c : HttpConnId) (request : HttpRequest)
  | handle (c : HttpConnId) (s : CallbackStep)
  | reply (c : HttpConnId)
  | hangUp (c : HttpConnId)

def SolveStep.isInner : SolveStep → Bool
  | .start _ | .drop => false
  | _ => true

def CallbackStep.isDrop : CallbackStep → Bool
  | .drop => true
  | _ => false

namespace CaptchaLogin

def new : CaptchaLogin where
  world := .new
  flow := .binding
  serve := .absent
  shutdown := false
  abort := false
  conns := fun _ => none
  accepted := 0
  handled := []
  exchanges := []

def setConn (s : CaptchaLogin) (c : HttpConnId) (at_ : HttpConnAt) : CaptchaLogin :=
  { s with conns := Function.update s.conns c (some at_) }

def stepBind (setup : CaptchaLoginSetup) (s : CaptchaLogin) : Option CaptchaLogin :=
  match s.flow with
  | .binding =>
    match setup.bound with
    | .error kind => some { s with flow := .returned (.error (.io kind)) }
    | .ok _ => (s.world.solveStep setup.env 0 (.start setup.captchaLink)).map fun w =>
        { s with world := w, flow := .solving, serve := .serving }
  | _ => none

def stepDrop (setup : CaptchaLoginSetup) (s : CaptchaLogin) : Option CaptchaLogin :=
  match s.flow with
  | .binding => some { s with flow := .dropped }
  | .solving => (s.world.solveStep setup.env 0 .drop).map fun w =>
      { s with world := w, flow := .dropped, abort := true }
  | .stopping _ => some { s with flow := .dropped, abort := true }
  | .returned _ | .dropped => none

def stepRequest (s : CaptchaLogin) (c : HttpConnId) (request : HttpRequest) :
    Option CaptchaLogin :=
  match s.conns c with
  | some .idle =>
    match routeRequest request with
    | some response => some
        { s with exchanges := s.exchanges ++ [⟨request, none, response⟩] }
    | none => some
        { s.setConn c (.handling s.handled.length) with handled := s.handled ++ [request] }
  | _ => none

def stepReply (setup : CaptchaLoginSetup) (s : CaptchaLogin) (c : HttpConnId) :
    Option CaptchaLogin :=
  match s.conns c with
  | some (.handling k) =>
    match s.handled[k]?, (s.world.callbacks k).response setup.display with
    | some request, some (status, body) => some
        { s.setConn c .idle with
          exchanges := s.exchanges ++ [⟨request, some k, jsonResponse status body⟩] }
    | _, _ => none
  | _ => none

/-- The peer is gone: the connection task ends, with the future of the request it was in. -/
def stepHangUp (setup : CaptchaLoginSetup) (s : CaptchaLogin) (c : HttpConnId) :
    Option CaptchaLogin :=
  match s.conns c with
  | some .idle => some (s.setConn c .closed)
  | some (.handling k) =>
    match s.world.callbacks k with
    -- still reading the body
    | .idle => some (s.setConn c .closed)
    | .cleaning _ | .removing _ => (s.world.callbackStep setup.env k .drop).map fun w =>
        { s.setConn c .closed with world := w }
    | _ => none
  | _ => none

def step (setup : CaptchaLoginSetup) (s : CaptchaLogin) : CaptchaLoginAct → Option CaptchaLogin
  | .tick d => some { s with world := { s.world with now := s.world.now + d } }
  | .bind => s.stepBind setup
  | .solve a =>
    match s.flow with
    | .solving =>
      if a.isInner then (s.world.solveStep setup.env 0 a).map fun w => { s with world := w }
      else none
    | _ => none
  | .solved =>
    match s.flow, s.world.solves 0 with
    | .solving, .returned _ _ result => some { s with flow := .stopping result, shutdown := true }
    | _, _ => none
  | .joined =>
    match s.flow, s.serve with
    | .stopping result, .ended _ => some { s with flow := .returned result }
    | _, _ => none
  | .drop => s.stepDrop setup
  | .accept result =>
    match s.serve with
    | .serving =>
      match result with
      | .ok _ => some { s.setConn s.accepted .idle with accepted := s.accepted + 1 }
      | .error kind => some { s with serve := .ended (some (.error (.io kind))) }
    | _ => none
  | .stop =>
    match s.serve with
    | .serving => if s.shutdown then some { s with serve := .ended (some (.ok ())) } else none
    | _ => none
  | .abort =>
    match s.serve with
    | .serving => if s.abort then some { s with serve := .ended none } else none
    | _ => none
  | .request c request => s.stepRequest c request
  | .handle c a =>
    match s.conns c with
    | some (.handling k) =>
      if a.isDrop then none
      else (s.world.callbackStep setup.env k a).map fun w => { s with world := w }
    | _ => none
  | .reply c => s.stepReply setup c
  | .hangUp c => s.stepHangUp setup c

def automaton (setup : CaptchaLoginSetup) : Automaton CaptchaLogin CaptchaLoginAct where
  init := fun s => s = new
  step := step setup

variable {setup : CaptchaLoginSetup} {s t : CaptchaLogin}

inductive Turn (setup : CaptchaLoginSetup) (s : CaptchaLogin) : CaptchaLogin → Prop where
  | tick (d : Nat) : Turn setup s { s with world := { s.world with now := s.world.now + d } }
  | unbound {kind : IoErrorKind} (hf : s.flow = .binding) (hb : setup.bound = .error kind) :
      Turn setup s { s with flow := .returned (.error (.io kind)) }
  | bound {w : CaptchaWorld} (hf : s.flow = .binding)
      (hs : (captcha setup.env).step s.world (.solve 0 (.start setup.captchaLink)) = some w) :
      Turn setup s { s with world := w, flow := .solving, serve := .serving }
  | solve {x : SolveStep} {w : CaptchaWorld} (hf : s.flow = .solving) (hx : x.isInner = true)
      (hs : (captcha setup.env).step s.world (.solve 0 x) = some w) :
      Turn setup s { s with world := w }
  | solved {c : Option Challenge} {taken : Option CaptchaCallback} {r : Except Error String}
      (hf : s.flow = .solving) (hat : s.world.solves 0 = .returned c taken r) :
      Turn setup s { s with flow := .stopping r, shutdown := true }
  | joined {r : Except Error String} {x : Option (Except Error Unit)} (hf : s.flow = .stopping r)
      (hserve : s.serve = .ended x) : Turn setup s { s with flow := .returned r }
  | dropBinding (hf : s.flow = .binding) : Turn setup s { s with flow := .dropped }
  | dropSolving {w : CaptchaWorld} (hf : s.flow = .solving)
      (hs : (captcha setup.env).step s.world (.solve 0 .drop) = some w) :
      Turn setup s { s with world := w, flow := .dropped, abort := true }
  | dropStopping {r : Except Error String} (hf : s.flow = .stopping r) :
      Turn setup s { s with flow := .dropped, abort := true }
  | accept (hserve : s.serve = .serving) :
      Turn setup s { s.setConn s.accepted .idle with accepted := s.accepted + 1 }
  | ended (x : Option (Except Error Unit)) (hserve : s.serve = .serving) :
      Turn setup s { s with serve := .ended x }
  | routed {c : HttpConnId} {q : HttpRequest} {r : HttpResponse} (hc : s.conns c = some .idle)
      (hr : routeRequest q = some r) :
      Turn setup s { s with exchanges := s.exchanges ++ [⟨q, none, r⟩] }
  | handed {c : HttpConnId} {q : HttpRequest} (hc : s.conns c = some .idle)
      (hr : routeRequest q = none) :
      Turn setup s { s.setConn c (.handling s.handled.length) with handled := s.handled ++ [q] }
  | handle {c : HttpConnId} {k : CallbackId} {x : CallbackStep} {w : CaptchaWorld}
      (hc : s.conns c = some (.handling k))
      (hs : (captcha setup.env).step s.world (.callback k x) = some w) :
      Turn setup s { s with world := w }
  | reply {c : HttpConnId} {k : CallbackId} {q : HttpRequest} {status : Nat} {body : Value}
      (hc : s.conns c = some (.handling k)) (hq : s.handled[k]? = some q)
      (hr : (s.world.callbacks k).response setup.display = some (status, body)) :
      Turn setup s { s.setConn c .idle with
        exchanges := s.exchanges ++ [⟨q, some k, jsonResponse status body⟩] }
  | hangUp (c : HttpConnId) : Turn setup s (s.setConn c .closed)
  | hangUpHandled {c : HttpConnId} {k : CallbackId} {w : CaptchaWorld}
      (hc : s.conns c = some (.handling k))
      (hs : (captcha setup.env).step s.world (.callback k .drop) = some w) :
      Turn setup s { s.setConn c .closed with world := w }

theorem turn {a : CaptchaLoginAct} (h : s.step setup a = some t) : Turn setup s t := by
  cases a with
  | tick d =>
    cases h
    exact .tick d
  | bind =>
    simp only [step, stepBind] at h
    split at h
    · split at h
      · cases h
        exact .unbound (by assumption) (by assumption)
      · obtain ⟨w, hw, rfl⟩ := Option.map_eq_some_iff.mp h
        exact .bound (by assumption) hw
    · cases h
  | solve x =>
    simp only [step] at h
    split at h
    · split at h
      · obtain ⟨w, hw, rfl⟩ := Option.map_eq_some_iff.mp h
        exact .solve (x := x) (by assumption) (by assumption) hw
      · cases h
    · cases h
  | solved =>
    simp only [step] at h
    split at h <;> cases h
    exact .solved (by assumption) (by assumption)
  | joined =>
    simp only [step] at h
    split at h <;> cases h
    exact .joined (by assumption) (by assumption)
  | drop =>
    simp only [step, stepDrop] at h
    split at h
    · cases h
      exact .dropBinding (by assumption)
    · obtain ⟨w, hw, rfl⟩ := Option.map_eq_some_iff.mp h
      exact .dropSolving (by assumption) hw
    · cases h
      exact .dropStopping (by assumption)
    · cases h
    · cases h
  | accept result =>
    simp only [step] at h
    split at h
    · split at h <;> cases h
      · exact .accept (by assumption)
      · exact .ended _ (by assumption)
    · cases h
  | stop | abort =>
    simp only [step] at h
    split at h
    · split at h <;> cases h
      exact .ended _ (by assumption)
    · cases h
  | request c request =>
    simp only [step, stepRequest] at h
    split at h
    · split at h <;> cases h
      · exact .routed (by assumption) (by assumption)
      · exact .handed (by assumption) (by assumption)
    · cases h
  | handle c x =>
    simp only [step] at h
    split at h
    · split at h
      · cases h
      · obtain ⟨w, hw, rfl⟩ := Option.map_eq_some_iff.mp h
        exact .handle (x := x) (by assumption) hw
    · cases h
  | reply c =>
    simp only [step, stepReply] at h
    split at h
    · split at h <;> cases h
      exact .reply (by assumption) (by assumption) (by assumption)
    · cases h
  | hangUp c =>
    simp only [step, stepHangUp] at h
    split at h
    · cases h
      exact .hangUp c
    · split at h
      · cases h
        exact .hangUp c
      · obtain ⟨w, hw, rfl⟩ := Option.map_eq_some_iff.mp h
        exact .hangUpHandled (by assumption) hw
      · obtain ⟨w, hw, rfl⟩ := Option.map_eq_some_iff.mp h
        exact .hangUpHandled (by assumption) hw
      · cases h
    · cases h

end CaptchaLogin

end Maxrs
