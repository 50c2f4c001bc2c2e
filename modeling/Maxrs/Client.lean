import Maxrs.Recovery
import Maxrs.Send
import Maxrs.Session
set_option autoImplicit false

/-! `MaxClient`: any number of `run`, `send_text`, `send_file_bytes` and `disconnect` calls on
clones of one client, the supervisor with `run_loop`, and the sessions it makes. -/
namespace Maxrs

abbrev RunId := Nat
abbrev SendId := Nat
abbrev DisconnectId := Nat

/-- What `MaxClient::new` fixes, and the decoder of frames. -/
structure Setup where
  loginConfig : LoginConfig
  deviceId : String
  fromStr : String → Except String Packet

/-- The owned guard of `run_lock` moves from a run call to its supervisor. -/
inductive LockHolder where
  | run (r : RunId)
  | disconnect (d : DisconnectId)
  deriving DecidableEq

/-- `InnerClient`, with the sessions of all connections made so far. -/
structure Shared where
  recovery : Recovery
  handlerShutdown : Bool
  runLock : Option LockHolder
  cid : Int
  created : Nat
  sessions : ConnId → Session

inductive LoopPc where
  | top
  | begin
  | create
  | attempt (c : ConnId)
  | sleeping (polled : Bool)
  | finished (result : Except Error Unit)

/-- The locals of `run_loop`. -/
structure Runner where
  config : LoginConfig
  /-- `Backoff`, in seconds. -/
  delay : Nat
  pc : LoopPc

inductive RunPc where
  | trying
  | locked
  | joining
  /-- In the drop of the outer `RunGuard`; the result is there unless the future is dropped. -/
  | cancelling (result : Option (Except Error Unit))
  | publishing (result : Option (Except Error Unit))
  | returned (result : Except Error Unit)
  | dropped

inductive SupervisorPc where
  | absent
  | spawned
  | looping (runner : Runner)
  | cancelling (result : Except Error Unit)
  | publishing (result : Except Error Unit)
  | handlers (result : Except Error Unit)
  | unlocking (result : Except Error Unit)
  | finished (result : Except Error Unit)

structure Run where
  call : RunPc
  supervisor : SupervisorPc

inductive SendJob where
  | text (m : TextMessage)
  | file (m : FileMessage)

def SendJob.body (cid : Int) : SendJob → SendScript (Except Error Unit)
  | .text m => textBody m cid
  | .file m => fileBody m cid

/-- One iteration of a retry loop, on the connection it was given. -/
structure SendBody where
  connection : ConnId
  rest : SendScript (Except Error Unit)
  waiting : Option CallId
  waiter : Option AttachmentWaiter
  /-- A `select!` of `send_uploaded_file` went past its look at the token. -/
  polling : Bool
  trace : SendTrace

inductive SendPc where
  | clock
  | cid (now : Int)
  | current (at_ : Current)
  | body (b : SendBody)
  | returned (result : Except Error Unit)
  | dropped

structure Send where
  job : SendJob
  cid : Int
  pc : SendPc
  /-- Connections of the iterations so far. -/
  used : List ConnId
  /-- Requests issued so far. -/
  requests : List (ConnId × CallId)

inductive DisconnectPc where
  | stopping
  | publishing
  | locking
  | locked
  | unlocking
  | returned
  | dropped

structure Client where
  shared : Shared
  runs : RunId → Option Run
  sends : SendId → Option Send
  disconnects : DisconnectId → Option DisconnectPc

inductive LoopAction where
  | checkTop
  | beginCheck
  | beginCreate
  | poll
  | park
  | attempt (a : AttemptAction)
  | connected
  | dispatchCheck
  | finishAttempt
  | offline (elapsed : Nat)
  | close (a : CloseAction)
  | after
  | sleepPoll
  | slept

inductive RunAction where
  | tryLock
  | checkShutdown
  | join
  | drop
  | guardCancel
  | guardPublish
  | start
  | loop (a : LoopAction)
  | loopEnd
  | supervisorCancel
  | supervisorPublish
  | cancelHandlers
  | unlock

inductive SendAction where
  | readClock (millis : Nat)
  | takeCid
  | borrow
  | check
  | wake
  | issue
  | onInvoke (a : InvokeAction)
  | take
  | register
  | selectPoll
  | selectPark
  | uploaded (result : Except HttpError Nat)
  | processed
  | processTimeout
  | dropWaiter
  | finish
  | drop

inductive DisconnectAction where
  | stopCancel
  | stopPublish
  | lock
  | cancelHandlers
  | unlock
  | drop

inductive ClientAction where
  | startRun (r : RunId)
  | run (r : RunId) (a : RunAction)
  | startSend (s : SendId) (job : SendJob)
  | send (s : SendId) (a : SendAction)
  | startDisconnect (d : DisconnectId)
  | disconnect (d : DisconnectId) (a : DisconnectAction)
  | worker (c : ConnId) (a : WorkerAction)

def INITIAL_RECONNECT_DELAY : Nat := 1
def MAX_RECONNECT_DELAY : Nat := 120
def HEALTHY_CONNECTION_INTERVAL : Nat := 60

def nextDelay (delay : Nat) : Nat := min (delay * 2) MAX_RECONNECT_DELAY

def resetIfHealthy (delay connectedFor : Nat) : Nat :=
  if HEALTHY_CONNECTION_INTERVAL ≤ connectedFor then INITIAL_RECONNECT_DELAY else delay

namespace Shared

/-- First half of `recovery.stop()`; the token of every connection is a child of it. -/
def cancelShutdown (sh : Shared) : Shared :=
  { sh with
    recovery := sh.recovery.cancelShutdown
    sessions := fun c =>
      if c < sh.created then
        { sh.sessions c with generation := (sh.sessions c).generation.cancel }
      else sh.sessions c }

def publishStopped (sh : Shared) : Shared := { sh with recovery := sh.recovery.publishStopped }

def setSession (sh : Shared) (c : ConnId) (s : Session) : Shared :=
  { sh with sessions := Function.update sh.sessions c s }

def onSession (sh : Shared) (c : ConnId) (f : Session → Option Session) : Option Shared :=
  (f (sh.sessions c)).map (sh.setSession c)

def isCancelled (sh : Shared) (c : ConnId) : Bool := (sh.sessions c).generation.cancelled

end Shared

/-- The token that the attempt is about to write to the configuration of the runner. -/
def Session.tokenToSet (s : Session) : Option String :=
  match s.phase with
  | .attempting { rest := .call (.setSessionToken token) _, .. } => some token
  | _ => none

def Session.result (s : Session) : Option (Except Error Unit) :=
  match s.phase with
  | .over r => some r
  | _ => none

namespace Runner

variable (setup : Setup)

def goto (run : Runner) (pc : LoopPc) : Runner := { run with pc := pc }

def isLocal : AttemptAction → Bool
  | .connected _ | .dispatchCheck _ => false
  | _ => true

def isOffline : CloseAction → Bool
  | .offline => true
  | _ => false

def step (sh : Shared) (run : Runner) : LoopAction → Option (Shared × Runner)
  | .checkTop =>
    match run.pc with
    | .top => some (sh, run.goto (if sh.recovery.shutdown then .finished (.ok ()) else .begin))
    | _ => none
  | .beginCheck =>
    match run.pc with
    | .begin => some (sh, run.goto (if sh.recovery.shutdown then .finished (.ok ()) else .create))
    | _ => none
  | .beginCreate =>
    match run.pc with
    | .create =>
      let s := Session.new setup.deviceId run.config sh.recovery.shutdown
      some ({ sh.setSession sh.created s with created := sh.created + 1 },
        run.goto (.attempt sh.created))
    | _ => none
  | .poll =>
    match run.pc with
    | .attempt c => (sh.onSession c (Session.poll setup.fromStr)).map fun sh => (sh, run)
    | _ => none
  | .park =>
    match run.pc with
    | .attempt c => (sh.onSession c Session.park).map fun sh => (sh, run)
    | _ => none
  | .attempt a =>
    match run.pc with
    | .attempt c =>
      if isLocal a then
        (sh.onSession c fun s => s.step setup.fromStr (.attempt a)).map fun sh' =>
          match a, (sh.sessions c).tokenToSet with
          | .perform, some token =>
            (sh', { run with config := { run.config with sessionToken := some token } })
          | _, _ => (sh', run)
      else none
    | _ => none
  | .connected =>
    match run.pc with
    | .attempt c =>
      let out := sh.recovery.connected c (sh.isCancelled c)
      (sh.onSession c fun s => s.step setup.fromStr (.attempt (.connected out.2))).map fun sh' =>
        ({ sh' with recovery := out.1 }, run)
    | _ => none
  | .dispatchCheck =>
    match run.pc with
    | .attempt c =>
      (sh.onSession c fun s =>
        s.step setup.fromStr (.attempt (.dispatchCheck sh.handlerShutdown))).map fun sh => (sh, run)
    | _ => none
  | .finishAttempt =>
    match run.pc with
    | .attempt c => (sh.onSession c (Session.finish setup.fromStr)).map fun sh => (sh, run)
    | _ => none
  | .offline elapsed =>
    match run.pc with
    | .attempt c =>
      (sh.onSession c fun s => s.stepClose setup.fromStr .offline).map fun sh' =>
        ({ sh' with recovery := sh.recovery.offline },
          if (sh.sessions c).connectedAt then
            { run with delay := resetIfHealthy run.delay elapsed }
          else run)
    | _ => none
  | .close a =>
    match run.pc with
    | .attempt c =>
      if isOffline a then none
      else (sh.onSession c fun s => s.stepClose setup.fromStr a).map fun sh => (sh, run)
    | _ => none
  | .after =>
    match run.pc with
    | .attempt c =>
      (sh.sessions c).result.map fun result =>
        if sh.recovery.shutdown then (sh, run.goto (.finished (.ok ())))
        else
          let slept := { run with delay := nextDelay run.delay, pc := .sleeping false }
          match result with
          | .ok () => (sh, slept)
          | .error error =>
            if shouldRetryConnection error then (sh, slept)
            else (sh, run.goto (.finished (.error error)))
    | _ => none
  | .sleepPoll =>
    match run.pc with
    | .sleeping _ =>
      some (sh, run.goto (if sh.recovery.shutdown then .finished (.ok ()) else .sleeping true))
    | _ => none
  | .slept =>
    match run.pc with
    | .sleeping true => some (sh, run.goto .top)
    | _ => none

end Runner

namespace Run

variable (setup : Setup)

def startRunner : Runner where
  config := setup.loginConfig
  delay := INITIAL_RECONNECT_DELAY
  pc := .top

/-- `MaxClient::run` and the supervisor it spawns. -/
def step (sh : Shared) (r : RunId) (run : Run) : RunAction → Option (Shared × Run)
  | .tryLock =>
    match run.call with
    | .trying =>
      if sh.runLock = none then
        some ({ sh with runLock := some (.run r) }, { run with call := .locked })
      else some (sh, { run with call := .returned (.error .clientAlreadyRunning) })
    | _ => none
  | .checkShutdown =>
    match run.call with
    | .locked =>
      if sh.recovery.shutdown then
        some ({ sh with runLock := none },
          { run with call := .returned (.error .connectionClosed) })
      else some (sh, { call := .joining, supervisor := .spawned })
    | _ => none
  | .join =>
    match run.call, run.supervisor with
    | .joining, .finished result => some (sh, { run with call := .cancelling (some result) })
    | _, _ => none
  | .drop =>
    match run.call with
    | .trying => some (sh, { run with call := .dropped })
    | .joining => some (sh, { run with call := .cancelling none })
    | _ => none
  | .guardCancel =>
    match run.call with
    | .cancelling result => some (sh.cancelShutdown, { run with call := .publishing result })
    | _ => none
  | .guardPublish =>
    match run.call with
    | .publishing (some result) =>
      some (sh.publishStopped, { run with call := .returned result })
    | .publishing none => some (sh.publishStopped, { run with call := .dropped })
    | _ => none
  | .start =>
    match run.supervisor with
    | .spawned => some (sh, { run with supervisor := .looping (startRunner setup) })
    | _ => none
  | .loop a =>
    match run.supervisor with
    | .looping runner =>
      (runner.step setup sh a).map fun out => (out.1, { run with supervisor := .looping out.2 })
    | _ => none
  | .loopEnd =>
    match run.supervisor with
    | .looping { pc := .finished result, .. } =>
      some (sh, { run with supervisor := .cancelling result })
    | _ => none
  -- the locals of the spawned block, last declared first
  | .supervisorCancel =>
    match run.supervisor with
    | .cancelling result =>
      some (sh.cancelShutdown, { run with supervisor := .publishing result })
    | _ => none
  | .supervisorPublish =>
    match run.supervisor with
    | .publishing result => some (sh.publishStopped, { run with supervisor := .handlers result })
    | _ => none
  | .cancelHandlers =>
    match run.supervisor with
    | .handlers result =>
      some ({ sh with handlerShutdown := true }, { run with supervisor := .unlocking result })
    | _ => none
  | .unlock =>
    match run.supervisor with
    | .unlocking result =>
      some ({ sh with runLock := none }, { run with supervisor := .finished result })
    | _ => none

def new : Run where
  call := .trying
  supervisor := .absent

end Run

namespace Send

variable (setup : Setup)

def new (job : SendJob) : Send where
  job := job
  cid := 0
  pc := .clock
  used := []
  requests := []

def goto (snd : Send) (pc : SendPc) : Send := { snd with pc := pc }

def answer (snd : Send) (b : SendBody) (op : SendOp) (r : op.Ret)
    (next : op.Ret → SendScript (Except Error Unit)) : Send :=
  snd.goto (.body { b with
    rest := next r, waiting := none, polling := false, trace := b.trace ++ [⟨op, r⟩] })

def onConnection (sh : Shared) (b : SendBody) (a : SenderAction) : Option Shared :=
  sh.onSession b.connection fun s => s.act setup.fromStr a.toGeneration

def stepCurrent (sh : Shared) (snd : Send) (f : Current → Option Current) :
    Option (Shared × Send) :=
  match snd.pc with
  | .current p =>
    (f p).map fun
      | .returned (.ok c) => (sh,
          { snd with
            pc := .body
              { connection := c, rest := snd.job.body snd.cid, waiting := none, waiter := none,
                polling := false, trace := [] }
            used := snd.used ++ [c] })
      | .returned (.error e) => (sh, snd.goto (.returned (.error e)))
      | q => (sh, snd.goto (.current q))
  | _ => none

def stepBody (sh : Shared) (snd : Send) (b : SendBody) : SendAction → Option (Shared × Send)
  | .issue =>
    match b.rest, b.waiting with
    | .call (.invoke opcode payload) _, none =>
      let k := (sh.sessions b.connection).generation.transport.started
      (onConnection setup sh b (.invoke opcode payload)).map fun sh => (sh,
        { snd with
          pc := .body { b with waiting := some k }
          requests := snd.requests ++ [(b.connection, k)] })
    | _, _ => none
  | .onInvoke act =>
    match b.waiting, act with
    | some _, .drop => none
    | some k, act => (onConnection setup sh b (.onInvoke k act)).map fun sh => (sh, snd)
    | none, _ => none
  | .take =>
    match b.rest, b.waiting with
    | .call (.invoke opcode payload) next, some k =>
      match (sh.sessions b.connection).generation.invokes k with
      | some (.returned r) => some (sh, snd.answer b (.invoke opcode payload) r next)
      | _ => none
    | _, _ => none
  | .register =>
    match b.rest with
    | .call (.register fileId) next =>
      let out := (sh.sessions b.connection).generation.attachmentRegistry.register fileId
      (onConnection setup sh b (.register fileId)).map fun sh =>
        (sh, snd.answer { b with waiter := out.2 } (.register fileId) out.2 next)
    | _ => none
  | .selectPoll =>
    match b.rest with
    | .call (.upload url headers body) next =>
      if b.polling then none
      else if sh.isCancelled b.connection then
        some (sh, snd.answer b (.upload url headers body) (.error .connectionClosed) next)
      else some (sh, snd.goto (.body { b with polling := true }))
    | .call (.processed w) next =>
      if b.polling then none
      else if sh.isCancelled b.connection then
        (onConnection setup sh b (.dropWaiter w)).map fun sh =>
          (sh, snd.answer { b with waiter := none } (.processed w) (.error .connectionClosed) next)
      else some (sh, snd.goto (.body { b with polling := true }))
    | _ => none
  | .selectPark =>
    if b.polling then some (sh, snd.goto (.body { b with polling := false })) else none
  | .uploaded r =>
    match b.rest with
    | .call (.upload url headers body) next =>
      if b.polling then some (sh, snd.answer b (.upload url headers body) (.ok r) next) else none
    | _ => none
  | .processed =>
    match b.rest with
    | .call (.processed w) next =>
      if b.polling &&
          (sh.sessions b.connection).generation.attachmentRegistry.completed w.identity then
        (onConnection setup sh b (.dropWaiter w)).map fun sh =>
          (sh, snd.answer { b with waiter := none } (.processed w) (.ok true) next)
      else none
    | _ => none
  | .processTimeout =>
    match b.rest with
    | .call (.processed w) next =>
      if b.polling &&
          !(sh.sessions b.connection).generation.attachmentRegistry.completed w.identity then
        (onConnection setup sh b (.dropWaiter w)).map fun sh =>
          (sh, snd.answer { b with waiter := none } (.processed w) (.ok false) next)
      else none
    | _ => none
  | .dropWaiter =>
    match b.rest with
    | .call (.dropWaiter w) next =>
      (onConnection setup sh b (.dropWaiter w)).map fun sh =>
        (sh, snd.answer { b with waiter := none } (.dropWaiter w) () next)
    | _ => none
  | .finish =>
    match b.rest with
    | .done (.ok ()) => some (sh, snd.goto (.returned (.ok ())))
    | .done (.error error) =>
      some (sh, snd.goto
        (if isTransportFailure error then .current .reading else .returned (.error error)))
    | _ => none
  -- an await is the only place at which the future can be dropped
  | .drop =>
    match b.waiting, b.waiter with
    | some k, _ =>
      (onConnection setup sh b (.onInvoke k .drop)).map fun sh => (sh, snd.goto .dropped)
    | none, some w =>
      if b.polling then none
      else
        match b.rest with
        | .call (.upload _ _ _) _ | .call (.processed _) _ =>
          (onConnection setup sh b (.dropWaiter w)).map fun sh => (sh, snd.goto .dropped)
        | _ => none
    | none, none => none
  | _ => none

/-- `send_text` and `send_file_bytes`, which differ in the body of their loops. -/
def step (sh : Shared) (snd : Send) : SendAction → Option (Shared × Send)
  | .readClock millis =>
    match snd.pc with
    | .clock => some (sh, snd.goto (.cid (-(millis : Int))))
    | _ => none
  | .takeCid =>
    match snd.pc with
    | .cid now =>
      let cid := min now (sh.cid - 1)
      some ({ sh with cid := cid }, { snd with cid := cid, pc := .current .reading })
    | _ => none
  | .borrow => stepCurrent sh snd (Current.borrow sh.recovery)
  | .check => stepCurrent sh snd (Current.check sh.isCancelled)
  | .wake => stepCurrent sh snd (Current.wake sh.recovery)
  | .drop =>
    match snd.pc with
    | .clock | .cid _ | .current (.waiting _) => some (sh, snd.goto .dropped)
    | .body b => stepBody setup sh snd b .drop
    | _ => none
  | a =>
    match snd.pc with
    | .body b => stepBody setup sh snd b a
    | _ => none

end Send

namespace DisconnectPc

/-- `MaxClient::disconnect`. -/
def step (sh : Shared) (d : DisconnectId) (pc : DisconnectPc) :
    DisconnectAction → Option (Shared × DisconnectPc)
  | .stopCancel =>
    match pc with
    | .stopping => some (sh.cancelShutdown, .publishing)
    | _ => none
  | .stopPublish =>
    match pc with
    | .publishing => some (sh.publishStopped, .locking)
    | _ => none
  | .lock =>
    match pc with
    | .locking =>
      if sh.runLock = none then some ({ sh with runLock := some (.disconnect d) }, .locked)
      else none
    | _ => none
  | .cancelHandlers =>
    match pc with
    | .locked => some ({ sh with handlerShutdown := true }, .unlocking)
    | _ => none
  | .unlock =>
    match pc with
    | .unlocking => some ({ sh with runLock := none }, .returned)
    | _ => none
  | .drop =>
    match pc with
    | .stopping | .locking => some (sh, .dropped)
    | _ => none

end DisconnectPc

namespace Client

variable (setup : Setup)

/-- `-chrono_millis()` at the creation of the client. -/
def new (millis : Nat) : Client where
  shared :=
    { recovery := .new
      handlerShutdown := false
      runLock := none
      cid := -(millis : Int)
      created := 0
      sessions := fun _ => .new setup.deviceId setup.loginConfig false }
  runs := fun _ => none
  sends := fun _ => none
  disconnects := fun _ => none

def step (w : Client) : ClientAction → Option Client
  | .startRun r =>
    match w.runs r with
    | none => some { w with runs := Function.update w.runs r (some .new) }
    | some _ => none
  | .run r a =>
    (w.runs r).bind fun run => (run.step setup w.shared r a).map fun out =>
      { w with shared := out.1, runs := Function.update w.runs r (some out.2) }
  | .startSend s job =>
    match w.sends s with
    | none => some { w with sends := Function.update w.sends s (some (.new job)) }
    | some _ => none
  | .send s a =>
    (w.sends s).bind fun snd => (snd.step setup w.shared a).map fun out =>
      { w with shared := out.1, sends := Function.update w.sends s (some out.2) }
  | .startDisconnect d =>
    match w.disconnects d with
    | none => some { w with disconnects := Function.update w.disconnects d (some .stopping) }
    | some _ => none
  | .disconnect d a =>
    (w.disconnects d).bind fun pc => (pc.step w.shared d a).map fun out =>
      { w with shared := out.1, disconnects := Function.update w.disconnects d (some out.2) }
  | .worker c a =>
    if c < w.shared.created then
      (w.shared.onSession c fun s => s.act setup.fromStr a.toGeneration).map fun sh =>
        { w with shared := sh }
    else none

def automaton : Automaton Client ClientAction where
  init := fun w => ∃ millis, w = new setup millis
  step := step setup

end Client

/-- A client with a saved token, and a server whose frames are named by their texts. -/
def sampleSetup : Setup where
  loginConfig :=
    { phone := none, password := none, sessionToken := some "T",
      captcha := { solverUrl := none, callbackBind := "", callbackUrlBase := none },
      operator := .none }
  deviceId := "device"
  fromStr
    | "init" => .ok (Packet.response 1 Opcode.SESSION_INIT .null)
    | "login" => .ok (Packet.response 2 Opcode.LOGIN
        (.object [("profile", .object [("contact", .object [("id", .int 7)])])]))
    | "sent" => .ok (Packet.response 3 Opcode.MSG_SEND .null)
    | "own" => .ok (Packet.request 9 Opcode.NOTIF_MESSAGE
        (.object [("chatId", .int 1), ("message", .object [("sender", .int 7)])]))
    | "hello" => .ok (Packet.request 8 Opcode.NOTIF_MESSAGE
        (.object [("chatId", .int 1), ("message", .object [("sender", .int 5)])]))
    | text => .error text

/-- From the first poll of an invoke to the poll that waits for the response. -/
def sampleRequest (act : InvokeAction → ClientAction) : List ClientAction :=
  [.poll, .inner .lockOrder, .inner .allocate, .inner .register, .inner .lockSink, .inner .feed,
    .inner .flushed, .park].map act

def sampleFrame (c : ConnId) (text : String) : List ClientAction :=
  [.worker c (.reader (.frame (some (.text text)))), .worker c (.reader .received)]

def sampleAnswer (act : InvokeAction → ClientAction) : List ClientAction :=
  [.poll, .inner .answered, .finish].map act

/-- The reader reads a message, acknowledges it and looks at the filter. -/
def sampleMessage (c : ConnId) (text : String) : List ClientAction :=
  [.reader (.frame (some (.text text))), .reader (.ack .lockSink), .reader (.ack .feed),
    .reader (.ack .finish), .reader .filter].map (.worker c)

def sampleAttempt (a : AttemptAction) : ClientAction := .run 0 (.loop (.attempt a))

/-- A run call, and its attempt up to the response to `SESSION_INIT`. -/
def sampleOpening : List ClientAction :=
  [.startRun 0, .run 0 .tryLock, .run 0 .checkShutdown, .run 0 .start, .run 0 (.loop .checkTop),
    .run 0 (.loop .beginCheck), .run 0 (.loop .beginCreate), .run 0 (.loop .poll),
    sampleAttempt .connectOk, sampleAttempt .perform, sampleAttempt .issue] ++
  sampleRequest (fun a => sampleAttempt (.onInvoke a)) ++
  [.worker 0 (.reader .start)] ++ sampleFrame 0 "init" ++
  sampleAnswer (fun a => sampleAttempt (.onInvoke a)) ++
  [sampleAttempt .take, sampleAttempt .perform]

/-- The login on connection `c`, up to the published connection. -/
def sampleEntry (c : ConnId) : List ClientAction :=
  [sampleAttempt .issue] ++ sampleRequest (fun a => sampleAttempt (.onInvoke a)) ++
  sampleFrame c "login" ++ sampleAnswer (fun a => sampleAttempt (.onInvoke a)) ++
  [sampleAttempt .take, sampleAttempt .perform, sampleAttempt .perform, .run 0 (.loop .connected),
    sampleAttempt .perform]

def sampleLogin : List ClientAction := sampleOpening ++ sampleEntry 0

/-- The connection is closed, and the runner makes another. -/
def sampleReconnect : List ClientAction :=
  [.run 0 (.loop .park), .worker 0 (.reader (.frame (some (.close none)))), .run 0 (.loop .poll),
    .run 0 (.loop (.offline 0)), .run 0 (.loop (.close .cancel)),
    .run 0 (.loop (.close .abortAll)), .worker 0 (.keepalive .abort),
    .run 0 (.loop (.close .join)), .run 0 (.loop (.close .clear)),
    .run 0 (.loop (.close .takeSink)), .run 0 (.loop .after), .run 0 (.loop .sleepPoll),
    .run 0 (.loop .slept), .run 0 (.loop .checkTop), .run 0 (.loop .beginCheck),
    .run 0 (.loop .beginCreate), .run 0 (.loop .poll), sampleAttempt .connectOk,
    sampleAttempt .perform, sampleAttempt .issue] ++
  sampleRequest (fun a => sampleAttempt (.onInvoke a)) ++
  [.worker 1 (.reader .start)] ++ sampleFrame 1 "init" ++
  sampleAnswer (fun a => sampleAttempt (.onInvoke a)) ++
  [sampleAttempt .take, sampleAttempt .perform]

def sampleText : SendJob := .text { chatId := 1, message := { text := "hi", elements := [] } }

/-- A call of `send_text` on the published connection, up to its wait for the response. -/
def sampleSend : List ClientAction :=
  sampleLogin ++
  [.startSend 0 sampleText, .send 0 (.readClock 0), .send 0 .takeCid, .send 0 .borrow,
    .send 0 .check, .send 0 .issue] ++ sampleRequest (fun a => .send 0 (.onInvoke a))

end Maxrs
