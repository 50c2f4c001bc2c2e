import Maxrs.Auth
import Maxrs.Kit.Automaton
set_option autoImplicit false

/-! `auth/captcha/solver.rs` and the callback route of `auth/captcha/http.rs`: any number of
`solve` calls and callbacks, split wherever another task can run. -/
namespace Maxrs

/-- Instants and durations are nanoseconds. -/
def DEFAULT_CHALLENGE_TIMEOUT : Nat := 60 * 60 * 1000000000

def DEFAULT_CALLBACK_BODY_LIMIT_BYTES : Nat := 16 * 1024

structure CaptchaSolverConfig where
  solverUrl : Option String
  callbackUrl : Option String

structure SolveRequest where
  challengeId : String
  captchaUrl : String
  callbackUrl : Option String

def SolveRequest.toValue (request : SolveRequest) : Value :=
  .object ([("challengeId", .string request.challengeId),
      ("captchaUrl", .string request.captchaUrl)] ++
    match request.callbackUrl with
    | some callbackUrl => [("callbackUrl", .string callbackUrl)]
    | none => [])

structure CaptchaCallback where
  challengeId : String
  status : String
  token : Option String
  error : Option String

/-- Calls of `solve`; each makes one oneshot channel. -/
abbrev SolveId := Nat

abbrev CallbackId := Nat

structure PendingChallenge where
  createdAt : Nat
  /-- The call whose channel the sender belongs to. -/
  tx : SolveId

/-- The locals of a `solve` call once its challenge has an id. -/
structure Challenge where
  solverUrl : String
  request : SolveRequest
  challengeStartedAt : Nat

abbrev Challenge.id (c : Challenge) : String := c.request.challengeId

def Challenge.url (c : Challenge) : String :=
  String.ofList (trimEndSlashes c.solverUrl.toList) ++ "/solve"

namespace CaptchaCallback

/-- How `solve` reads the callback that it was given. -/
def outcome (callback : CaptchaCallback) : Except Error String :=
  if callback.status = "ok" then
    okOr callback.token (.captchaFailed "solver returned ok without token")
  else if callback.status = "failed" then
    .error (.captchaFailed (callback.error.getD "solver failed"))
  else .error (.captchaFailed ("unknown callback status: " ++ callback.status))

end CaptchaCallback

/-- `Response::error_for_status`. -/
def errorForStatus (status : Nat) : Except HttpError Nat :=
  if 400 ≤ status ∧ status < 600 then
    .error { status := some status, isConnect := false, isTimeout := false, isBody := false }
  else .ok status

def solveRequestError (solverUrl : String) (err : HttpError) : Error :=
  if isTransientHttpError err then .captchaSolverUnavailable solverUrl err
  else .captchaSolverRejected solverUrl err

inductive BodyReadError where
  | tooLarge
  | read (err : String)

/-- `body` is what arrives when nothing limits it. -/
def readLimitedBody (body : Except String (List UInt8)) : Except BodyReadError (List UInt8) :=
  match body with
  | .ok bytes => if bytes.length ≤ DEFAULT_CALLBACK_BODY_LIMIT_BYTES then .ok bytes
      else .error .tooLarge
  | .error err => .error (.read err)

/-- The awaits of `solve`; `polled` stands inside one poll of `timeout(remaining, rx)`, after
the receiver was found empty and before the timer is looked at. -/
inductive SolveAt where
  | idle
  | cleaning (captchaUrl : String)
  | inserting (c : Challenge)
  | requesting (c : Challenge) (deadline : Nat)
  | waiting (c : Challenge) (deadline : Nat)
  | polled (c : Challenge) (deadline : Nat)
  /-- Before the removal on an error path; `rx` says whether the receiver still exists. -/
  | removing (c : Challenge) (err : Error) (rx : Bool)
  /-- `taken` is the callback from which the result was read. -/
  | returned (c : Option Challenge) (taken : Option CaptchaCallback)
      (result : Except Error String)
  | dropped (c : Option Challenge)

namespace SolveAt

def challenge : SolveAt → Option Challenge
  | .idle | .cleaning _ => none
  | .inserting c | .requesting c _ | .waiting c _ | .polled c _ | .removing c _ _ => some c
  | .returned c _ _ | .dropped c => c

def posting : SolveAt → Option (String × Value)
  | .requesting c _ => some (c.url, c.request.toValue)
  | _ => none

def receiving : SolveAt → Bool
  | .inserting _ | .requesting _ _ | .waiting _ _ | .polled _ _ => true
  | .removing _ _ rx => rx
  | .idle | .cleaning _ | .returned _ _ _ | .dropped _ => false

end SolveAt

inductive CallbackAt where
  | idle
  | cleaning (callback : CaptchaCallback)
  | removing (callback : CaptchaCallback)
  | sending (callback : CaptchaCallback) (tx : SolveId)
  /-- Answered before the solver was asked: the body is too large. -/
  | refused
  | returned (callback : Option CaptchaCallback) (result : Except Error Unit)
  | dropped (callback : CaptchaCallback)

namespace CallbackAt

def accepted (cb : CaptchaCallback) : CallbackAt := .returned (some cb) (.ok ())

/-- `error_response`; `display` is `Error::to_string`. -/
def errorResponse (display : Error → String) (err : Error) : Nat × Value :=
  match err with
  | .json _ | .unexpectedResponse _ | .unknownCaptchaChallenge _ | .captchaFailed _ =>
    (400, .object [("error", .string (display err))])
  | _ => (500, .object [("error", .string (display err))])

/-- What `handle_captcha_callback` answers over HTTP. -/
def response (display : Error → String) : CallbackAt → Option (Nat × Value)
  | .refused => some (413, .object [("error", .string "request body too large")])
  | .returned _ (.ok ()) => some (200, .object [("ok", .bool true)])
  | .returned _ (.error err) => some (errorResponse display err)
  | _ => none

theorem response_ok_iff {display : Error → String} {at_ : CallbackAt} {body : Value} :
    at_.response display = some (200, body) ↔
      body = .object [("ok", .bool true)] ∧ ∃ cb, at_ = .returned cb (.ok ()) := by
  cases at_ with
  | returned cb result =>
    cases result with
    | ok u => simp [response, eq_comm]
    | error err =>
      simp only [response, errorResponse, Option.some.injEq]
      cases err <;> simp
  | _ => simp [response]

end CallbackAt

/-- The solver that the calls and callbacks share, the clock, and where each of them is. -/
structure CaptchaWorld where
  now : Nat
  pending : String → Option PendingChallenge
  /-- The ids that `Uuid::new_v4` has given out. -/
  drawn : String → Bool
  solves : SolveId → SolveAt
  callbacks : CallbackId → CallbackAt
  /-- Senders taken out of the map by a callback that has not used them yet. -/
  held : SolveId → Bool
  /-- What was sent over each channel. -/
  sent : SolveId → Option CaptchaCallback

namespace CaptchaWorld

def new : CaptchaWorld where
  now := 0
  pending := fun _ => none
  drawn := fun _ => false
  solves := fun _ => .idle
  callbacks := fun _ => .idle
  held := fun _ => false
  sent := fun _ => none

def setSolve (w : CaptchaWorld) (n : SolveId) (p : SolveAt) : CaptchaWorld :=
  { w with solves := Function.update w.solves n p }

def setCallback (w : CaptchaWorld) (k : CallbackId) (p : CallbackAt) : CaptchaWorld :=
  { w with callbacks := Function.update w.callbacks k p }

def expired (w : CaptchaWorld) (p : PendingChallenge) : Bool :=
  DEFAULT_CHALLENGE_TIMEOUT ≤ w.now - p.createdAt

def cleanupExpired (w : CaptchaWorld) : CaptchaWorld :=
  { w with pending := fun id => (w.pending id).filter fun p => !w.expired p }

def remove (w : CaptchaWorld) (id : String) : CaptchaWorld :=
  { w with pending := Function.update w.pending id none }

/-- The sender of call `n` exists: in the map, where only its own call puts it, or in the hands
of a callback. -/
def sender (w : CaptchaWorld) (n : SolveId) (id : String) : Bool :=
  w.held n || (w.pending id).any fun p => p.tx == n

end CaptchaWorld

/-- `decode` is `serde_json::from_slice::<CaptchaCallback>`. -/
structure CaptchaEnv where
  config : CaptchaSolverConfig
  decode : List UInt8 → Except String CaptchaCallback

inductive SolveStep where
  | start (captchaUrl : String)
  | cleanup (uuid : String)
  | insert
  /-- The inner future of the request is ready. -/
  | respond (result : Except HttpError Nat)
  | requestTimeout
  | pollReceiver
  | pollTimer
  | remove
  | drop

inductive CallbackStep where
  | start (body : Except String (List UInt8))
  | cleanup
  | remove
  | send
  | drop

inductive CaptchaAct where
  | tick (d : Nat)
  | solve (n : SolveId) (step : SolveStep)
  | callback (k : CallbackId) (step : CallbackStep)

namespace CaptchaWorld

def solveStep (env : CaptchaEnv) (w : CaptchaWorld) (n : SolveId) : SolveStep → Option CaptchaWorld
  | .start captchaUrl =>
    match w.solves n with
    | .idle => some (w.setSolve n (.cleaning captchaUrl))
    | _ => none
  | .cleanup uuid =>
    match w.solves n with
    | .cleaning captchaUrl =>
      match env.config.solverUrl with
      | none => some (w.cleanupExpired.setSolve n
          (.returned none none (.error .captchaSolverDisabled)))
      | some solverUrl =>
        let request := { challengeId := uuid, captchaUrl := captchaUrl,
                         callbackUrl := env.config.callbackUrl }
        some { w.cleanupExpired.setSolve n (.inserting
            { solverUrl := solverUrl, request := request, challengeStartedAt := w.now }) with
          drawn := Function.update w.drawn uuid true }
    | _ => none
  | .insert =>
    match w.solves n with
    | .inserting c =>
      some { w.setSolve n (.requesting c (w.now + DEFAULT_CHALLENGE_TIMEOUT)) with
        pending := Function.update w.pending c.id
          (some { createdAt := c.challengeStartedAt, tx := n }) }
    | _ => none
  | .respond result =>
    match w.solves n with
    | .requesting c _ =>
      match result.bind errorForStatus with
      | .ok _ =>
        let remaining := DEFAULT_CHALLENGE_TIMEOUT - (w.now - c.challengeStartedAt)
        some (w.setSolve n (.waiting c (w.now + remaining)))
      | .error err => some (w.setSolve n (.removing c (solveRequestError c.solverUrl err) true))
    | _ => none
  | .requestTimeout =>
    match w.solves n with
    | .requesting c deadline =>
      if deadline ≤ w.now then some (w.setSolve n (.removing c (.captchaTimeout c.id) true))
      else none
    | _ => none
  | .pollReceiver =>
    match w.solves n with
    | .waiting c deadline =>
      match w.sent n with
      | some callback => some (w.setSolve n (.returned (some c) (some callback) callback.outcome))
      | none =>
        if w.sender n c.id then some (w.setSolve n (.polled c deadline))
        else some (w.setSolve n
          (.returned (some c) none (.error (.captchaFailed "callback waiter dropped"))))
    | _ => none
  | .pollTimer =>
    match w.solves n with
    | .polled c deadline =>
      if deadline ≤ w.now then some (w.setSolve n (.removing c (.captchaTimeout c.id) false))
      else some (w.setSolve n (.waiting c deadline))
    | _ => none
  | .remove =>
    match w.solves n with
    | .removing c err _ => some ((w.remove c.id).setSolve n (.returned (some c) none (.error err)))
    | _ => none
  | .drop =>
    match w.solves n with
    | .idle | .polled _ _ | .returned _ _ _ | .dropped _ => none
    | p => some (w.setSolve n (.dropped p.challenge))

def callbackStep (env : CaptchaEnv) (w : CaptchaWorld) (k : CallbackId) :
    CallbackStep → Option CaptchaWorld
  | .start body =>
    match w.callbacks k with
    | .idle =>
      match readLimitedBody body with
      | .error .tooLarge => some (w.setCallback k .refused)
      | .error (.read err) => some (w.setCallback k (.returned none
          (.error (.unexpectedResponse ("failed reading HTTP request body: " ++ err)))))
      | .ok bytes =>
        match env.decode bytes with
        | .error err => some (w.setCallback k (.returned none (.error (.json err))))
        | .ok callback => some (w.setCallback k (.cleaning callback))
    | _ => none
  | .cleanup =>
    match w.callbacks k with
    | .cleaning callback => some (w.cleanupExpired.setCallback k (.removing callback))
    | _ => none
  | .remove =>
    match w.callbacks k with
    | .removing callback =>
      match w.pending callback.challengeId with
      | some p => some { (w.remove callback.challengeId).setCallback k (.sending callback p.tx) with
          held := Function.update w.held p.tx true }
      | none => some (w.setCallback k (.returned (some callback)
          (.error (.unknownCaptchaChallenge callback.challengeId))))
    | _ => none
  | .send =>
    match w.callbacks k with
    | .sending callback tx =>
      if (w.solves tx).receiving then
        some { w.setCallback k (.accepted callback) with
          held := Function.update w.held tx false
          sent := Function.update w.sent tx (some callback) }
      else
        some { w.setCallback k (.returned (some callback)
            (.error (.captchaFailed "callback receiver dropped"))) with
          held := Function.update w.held tx false }
    | _ => none
  | .drop =>
    match w.callbacks k with
    | .cleaning callback | .removing callback => some (w.setCallback k (.dropped callback))
    | _ => none

end CaptchaWorld

def captcha (env : CaptchaEnv) : Automaton CaptchaWorld CaptchaAct where
  init := fun w => w = .new
  step := fun w act =>
    match act with
    | .tick d => some { w with now := w.now + d }
    | .solve n s => w.solveStep env n s
    | .callback k s => w.callbackStep env k s

end Maxrs
