import Maxrs.Auth
import Maxrs.Generation
set_option autoImplicit false

/-! A connection together with the attempt that the runner makes on it: the task of
`run_attempt` inside the `select!` of `run_loop`, then `offline` and `Attempt::close`. -/
namespace Maxrs

/-- The future of `run_attempt`. -/
structure Attempt where
  rest : AttemptScript (Except Error Unit)
  waiting : Option CallId
  /-- The runner polls: the `select!` of `run_loop` went past its look at the token. -/
  polling : Bool
  /-- The `select!` of the dispatcher went past its look at `handler_shutdown`. -/
  checked : Bool

inductive Phase where
  | attempting (a : Attempt)
  | offline (result : Except Error Unit)
  | cancelling (result : Except Error Unit)
  | aborting (result : Except Error Unit)
  | joining (result : Except Error Unit)
  | clearing (result : Except Error Unit)
  | takingSink (result : Except Error Unit)
  | over (result : Except Error Unit)

structure Session where
  generation : Generation
  /-- The configuration with which the attempt began. -/
  config : LoginConfig
  /-- What the attempt has done. -/
  trace : AttemptTrace
  connectedAt : Bool
  phase : Phase

inductive AttemptAction where
  | connectOk
  | connectFailed (error : Error)
  /-- An operation that neither waits nor needs an answer. -/
  | perform
  | issue
  | onInvoke (a : InvokeAction)
  | take
  | answer (result : Except Error String)
  | stored (result : Except IoErrorKind Unit)
  | connected (result : Except Error Unit)
  | dispatchCheck (shutdown : Bool)
  | dispatchRecv
  | dispatchNone

inductive WorkerAction where
  | reader (a : ReaderAction)
  | keepalive (a : KeepaliveAction)

/-- What a send may do to the connection that `Recovery::current` handed to it. -/
inductive SenderAction where
  | invoke (opcode : Nat) (payload : Value)
  | onInvoke (k : CallId) (a : InvokeAction)
  | register (fileId : Int)
  | dropWaiter (w : AttachmentWaiter)

inductive CloseAction where
  | offline
  | cancel
  | abortAll
  | join
  | clear
  | takeSink

inductive SessionAction where
  | poll
  | park
  | attempt (a : AttemptAction)
  | finish
  | close (a : CloseAction)
  | worker (a : WorkerAction)
  | sender (a : SenderAction)
  | shutdown

def WorkerAction.toGeneration : WorkerAction → GenerationAction
  | .reader a => .reader a
  | .keepalive a => .keepalive a

def SenderAction.toGeneration : SenderAction → GenerationAction
  | .invoke opcode payload => .invoke opcode payload
  | .onInvoke k a => .onInvoke k a
  | .register fileId => .register fileId
  | .dropWaiter w => .dropWaiter w

/-- Errors of `Transport::connect`. -/
def isConnectError : Error → Bool
  | .webSocket _ | .webSocketConnectTimeout | .invalidHeaderValue => true
  | _ => false

/-- Operations at which the future can be left pending. -/
def AttemptOp.isAwait : AttemptOp → Bool
  | .connect | .solveCaptcha _ _ _ | .requestSmsCode _ _ | .storeSessionTokenFile _
  | .dispatch => true
  | _ => false

def Attempt.atAwait (a : Attempt) (g : Generation) : Bool :=
  match a.waiting with
  | some k =>
    match g.invokes k with
    | some .parked => true
    | _ => false
  | none =>
    match a.rest with
    | .call op _ => op.isAwait
    | .done _ => false

/-- Without an operator channel there is nobody to answer. -/
def operatorAnswers : OperatorChannel → Except Error String → Bool
  | .none, .error .noOperatorChannel => true
  | .none, _ => false
  | _, _ => true

/-- `recovery.connected` succeeded. -/
def isPublished (tr : AttemptTrace) : Bool :=
  tr.any fun
    | ⟨.connected, .ok ()⟩ => true
    | _ => false

namespace Session

variable (fromStr : String → Except String Packet)

def new (deviceId : String) (config : LoginConfig) (cancelled : Bool) : Session where
  generation := .new cancelled
  config := config
  trace := []
  connectedAt := false
  phase := .attempting
    { rest := runAttempt deviceId config, waiting := none, polling := false, checked := false }

def act (s : Session) (a : GenerationAction) : Option Session :=
  (s.generation.step fromStr a).map fun g => { s with generation := g }

def answer (s : Session) (a : Attempt) (op : AttemptOp) (r : op.Ret)
    (next : op.Ret → AttemptScript (Except Error Unit)) : Session :=
  { s with
    trace := s.trace ++ [⟨op, r⟩]
    phase := .attempting { a with rest := next r, waiting := none, checked := false } }

def withAttempt (s : Session) (a : Attempt) : Session := { s with phase := .attempting a }

def stepAttempt (s : Session) (a : Attempt) : AttemptAction → Option Session
  | .connectOk =>
    match a.rest with
    | .call .connect next => (s.act fromStr .install).map fun s => s.answer a .connect (.ok ()) next
    | _ => none
  | .connectFailed e =>
    match a.rest with
    | .call .connect next =>
      if isConnectError e then some (s.answer a .connect (.error e) next) else none
    | _ => none
  | .perform =>
    match a.rest with
    | .call .spawnReader next =>
      (s.act fromStr .spawnReader).map fun s => s.answer a .spawnReader () next
    | .call .spawnKeepalive next =>
      (s.act fromStr .spawnKeepalive).map fun s => s.answer a .spawnKeepalive () next
    | .call (.setOwnUserId id) next =>
      (s.act fromStr (.setOwnUserId id)).map fun s => s.answer a (.setOwnUserId id) () next
    | .call (.setSessionToken token) next => some (s.answer a (.setSessionToken token) () next)
    | .call .stampConnectedAt next =>
      some { s.answer a .stampConnectedAt () next with connectedAt := true }
    | _ => none
  | .issue =>
    match a.rest, a.waiting with
    | .call (.invoke opcode payload) _, none =>
      (s.act fromStr (.invoke opcode payload)).map fun s' =>
        s'.withAttempt { a with waiting := some s.generation.transport.started }
    | _, _ => none
  | .onInvoke act =>
    match a.waiting, act with
    | some _, .drop => none
    | some k, act => s.act fromStr (.onInvoke k act)
    | none, _ => none
  | .take =>
    match a.rest, a.waiting with
    | .call (.invoke opcode payload) next, some k =>
      match s.generation.invokes k with
      | some (.returned r) => some (s.answer a (.invoke opcode payload) r next)
      | _ => none
    | _, _ => none
  | .answer r =>
    match a.rest with
    | .call (.solveCaptcha url captcha link) next =>
      some (s.answer a (.solveCaptcha url captcha link) r next)
    | .call (.requestSmsCode operator phone) next =>
      if operatorAnswers operator r then some (s.answer a (.requestSmsCode operator phone) r next)
      else none
    | _ => none
  | .stored r =>
    match a.rest with
    | .call (.storeSessionTokenFile contents) next =>
      some (s.answer a (.storeSessionTokenFile contents) r next)
    | _ => none
  | .connected r =>
    match a.rest with
    | .call .connected next => some (s.answer a .connected r next)
    | _ => none
  | .dispatchCheck shutdown =>
    match a.rest with
    | .call .dispatch next =>
      if shutdown then some (s.answer a .dispatch () next)
      else some (s.withAttempt { a with checked := true })
    | _ => none
  | .dispatchRecv =>
    match a.rest with
    | .call .dispatch _ =>
      if a.checked then
        (s.act fromStr .recv).map fun s => s.withAttempt { a with checked := false }
      else none
    | _ => none
  | .dispatchNone =>
    match a.rest with
    | .call .dispatch next =>
      -- the channel is closed once the reader, its only sender, is gone
      if a.checked && s.generation.messages.isEmpty && s.generation.reader.joined then
        some (s.answer a .dispatch () next)
      else none
    | _ => none

/-- The turn of the `select!` in `run_loop`: the token first. -/
def poll (s : Session) : Option Session :=
  match s.phase with
  | .attempting a =>
    if a.polling then none
    else if s.generation.cancelled then
      (s.act fromStr (.dropAttempt a.waiting)).map fun s =>
        { s with phase := .offline (.error .connectionClosed) }
    else some (s.withAttempt { a with polling := true })
  | _ => none

def park (s : Session) : Option Session :=
  match s.phase with
  | .attempting a =>
    if a.polling && a.atAwait s.generation then
      some (s.withAttempt { a with polling := false, checked := false })
    else none
  | _ => none

/-- `run_attempt` returns; its locals go. -/
def finish (s : Session) : Option Session :=
  match s.phase with
  | .attempting { rest := .done r, polling := true, .. } =>
    (s.act fromStr (.dropAttempt none)).map fun s => { s with phase := .offline r }
  | _ => none

/-- From `recovery.offline()` to the end of `Attempt::close`. -/
def stepClose (s : Session) : CloseAction → Option Session
  | .offline =>
    match s.phase with
    | .offline r => some { s with phase := .cancelling r }
    | _ => none
  | .cancel =>
    match s.phase with
    | .cancelling r => (s.act fromStr .cancel).map fun s => { s with phase := .aborting r }
    | _ => none
  | .abortAll =>
    match s.phase with
    | .aborting r => (s.act fromStr .abortAll).map fun s => { s with phase := .joining r }
    | _ => none
  | .join =>
    match s.phase with
    | .joining r =>
      if s.generation.reader.joined && s.generation.keepalive.joined then
        some { s with phase := .clearing r }
      else none
    | _ => none
  | .clear =>
    match s.phase with
    | .clearing r => (s.act fromStr .clear).map fun s => { s with phase := .takingSink r }
    | _ => none
  | .takeSink =>
    match s.phase with
    | .takingSink r => (s.act fromStr .takeSink).map fun s => { s with phase := .over r }
    | _ => none

def step (s : Session) : SessionAction → Option Session
  | .poll => s.poll fromStr
  | .park => s.park
  | .attempt act =>
    match s.phase with
    | .attempting a => if a.polling then s.stepAttempt fromStr a act else none
    | _ => none
  | .finish => s.finish fromStr
  | .close act => s.stepClose fromStr act
  | .worker act => s.act fromStr act.toGeneration
  | .sender act => if isPublished s.trace then s.act fromStr act.toGeneration else none
  | .shutdown => s.act fromStr .cancel

def automaton (deviceId : String) : Automaton Session SessionAction where
  init := fun s => ∃ config cancelled, s = new deviceId config cancelled
  step := step fromStr

end Session

end Maxrs
