import Maxrs.Replay
set_option autoImplicit false

/-! The tasks of a client: whose steps are whose, which invoke a task awaits, and where it
stands. The future of a `run`, of a send or of a `disconnect` counts as a task, that of the
handler or caller which polls it. -/
namespace Maxrs

inductive Task where
  | reader (c : ConnId)
  | keepalive (c : ConnId)
  | run (r : RunId)
  | supervisor (r : RunId)
  | send (s : SendId)
  | disconnect (d : DisconnectId)
  deriving DecidableEq

inductive Mutex where
  | sendOrder (c : ConnId)
  | sink (c : ConnId)
  | state (c : ConnId)
  | cid
  | runLock
  deriving DecidableEq

inductive Place where
  | running
  /-- At an await that the network, a timer or another event outside ends. -/
  | outside
  | lock (m : Mutex)
  /-- `join_next` in `Attempt::close`. -/
  | join (c : ConnId)
  /-- The handle of the supervisor. -/
  | handle (r : RunId)
  | over
  deriving DecidableEq

/-- Steps of `MaxClient::run` itself; the others are the supervisor's. -/
def RunAction.ofCall : RunAction → Bool
  | .tryLock | .checkShutdown | .join | .drop | .guardCancel | .guardPublish => true
  | _ => false

def ClientAction.task : ClientAction → Task
  | .startRun r => .run r
  | .run r a => if a.ofCall then .run r else .supervisor r
  | .startSend s _ | .send s _ => .send s
  | .startDisconnect d | .disconnect d _ => .disconnect d
  | .worker c (.reader _) => .reader c
  | .worker c (.keepalive _) => .keepalive c

def Generation.pinging (g : Generation) : Option CallId :=
  match g.keepalive with
  | .pinging k => some k
  | _ => none

def Session.waiting (s : Session) : Option CallId :=
  match s.phase with
  | .attempting a => a.waiting
  | _ => none

def Send.waiting (snd : Send) : Option (ConnId × CallId) :=
  match snd.pc with
  | .body b => b.waiting.map fun k => (b.connection, k)
  | _ => none

def SupervisorPc.attempt : SupervisorPc → Option ConnId
  | .looping { pc := .attempt c, .. } => some c
  | _ => none

def Generation.standing (g : Generation) (k : CallId) : Option (InvokePc × CallPc) :=
  (g.invokes k).bind fun i => (g.transport.calls k).map fun c => (i, c.pc)

def CallPc.place (c : ConnId) : CallPc → Place
  | .order => .lock (.sendOrder c)
  | .allocate | .register _ | .unregister _ _ | .forget _ _ => .lock (.state c)
  | .sink _ => .lock (.sink c)
  | .feed _ | .flush _ | .await _ => .outside
  | .returned _ | .dropped => .running

def Generation.readerPlace (g : Generation) (c : ConnId) : Place :=
  match g.reader with
  | .absent | .ended => .over
  | .reading => .outside
  | .receiving => .lock (.state c)
  | .acking _ _ =>
    match g.transport.ack with
    | .sink _ _ => .lock (.sink c)
    | .feed _ _ | .flush _ _ => .outside
    | .idle => .running
  | .spawned | .filtering _ _ | .forwarding _ _ => .running

def KeepalivePc.place : KeepalivePc → Place
  | .absent | .ended => .over
  | .sleeping => .outside
  | .spawned | .pinging _ => .running

def Attempt.place (a : Attempt) (sinkLock : Option SinkHolder) (c : ConnId) : Place :=
  match a.rest with
  -- the handshake, then the sink
  | .call .connect _ => if sinkLock = none then .outside else .lock (.sink c)
  | .call op _ => if op.isAwait then .outside else .running
  | .done _ => .running

def Session.place (s : Session) (c : ConnId) : Place :=
  match s.phase with
  | .attempting a => a.place s.generation.transport.sinkLock c
  | .joining _ => .join c
  | .clearing _ => .lock (.state c)
  | .takingSink _ => .lock (.sink c)
  | .offline _ | .cancelling _ | .aborting _ | .over _ => .running

def RunPc.place (r : RunId) : RunPc → Place
  | .joining => .handle r
  | .returned _ | .dropped => .over
  | .trying | .locked | .cancelling _ | .publishing _ => .running

def SendPc.place : SendPc → Place
  | .cid _ => .lock .cid
  | .current (.waiting _) => .outside
  | .body { rest := .call (.upload _ _ _) _, .. }
  | .body { rest := .call (.processed _) _, .. } => .outside
  | .clock | .current _ | .body _ => .running
  | .returned _ | .dropped => .over

def DisconnectPc.place : DisconnectPc → Place
  | .locking => .lock .runLock
  | .returned | .dropped => .over
  | .stopping | .publishing | .locked | .unlocking => .running

def Shared.standing (sh : Shared) (i : ConnId × CallId) : Option (InvokePc × CallPc) :=
  (sh.sessions i.1).generation.standing i.2

namespace Client

def generation (w : Client) (c : ConnId) : Generation := (w.shared.sessions c).generation

def attemptOf (w : Client) (r : RunId) : Option ConnId :=
  (w.runs r).bind fun run => run.supervisor.attempt

def invoking (w : Client) : Task → Option (ConnId × CallId)
  | .keepalive c => (w.generation c).pinging.map fun k => (c, k)
  | .supervisor r =>
    (w.attemptOf r).bind fun c => (w.shared.sessions c).waiting.map fun k => (c, k)
  | .send s => (w.sends s).bind Send.waiting
  | _ => none

def standing (w : Client) : ConnId × CallId → Option (InvokePc × CallPc) := w.shared.standing

def ownPlace (w : Client) : Task → Place
  | .reader c => (w.generation c).readerPlace c
  | .keepalive c => (w.generation c).keepalive.place
  | .run r =>
    match w.runs r with
    | some run => run.call.place r
    | none => .over
  | .supervisor r =>
    match w.runs r with
    | some run =>
      match run.supervisor with
      | .absent | .finished _ => .over
      | .looping runner =>
        match runner.pc with
        | .attempt c => (w.shared.sessions c).place c
        | .sleeping _ => .outside
        | .top | .begin | .create | .finished _ => .running
      | .spawned | .cancelling _ | .publishing _ | .handlers _ | .unlocking _ => .running
    | none => .over
  | .send s =>
    match w.sends s with
    | some snd => snd.pc.place
    | none => .over
  | .disconnect d =>
    match w.disconnects d with
    | some pc => pc.place
    | none => .over

def place (w : Client) (p : Task) : Place :=
  match w.invoking p with
  | some i =>
    match w.standing i with
    | some s => s.2.place i.1
    | none => .running
  | none => w.ownPlace p

/-- The invoke that the task awaits is inside a poll; one without an invoke is taken to be. -/
def inPoll (w : Client) (p : Task) : Bool :=
  match w.invoking p with
  | some i =>
    match w.standing i with
    | some (.polling, _) => true
    | _ => false
  | none => true

end Client

end Maxrs
