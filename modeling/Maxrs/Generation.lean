import Maxrs.AttachmentRegistry
import Maxrs.ReadLoop
import Maxrs.Transport
set_option autoImplicit false

/-! One socket generation: its `Connection`, the reader and keepalive tasks of its attempt and
the channel from the reader to the dispatcher. Whoever invokes, dispatches or closes is left
open here. -/
namespace Maxrs

/-- `Connection::invoke` between two polls, inside one, or over. -/
inductive InvokePc where
  | parked
  | polling
  | returned (result : Except Error Packet)
  | dropped

inductive ReaderPc where
  | absent
  /-- In the `JoinSet`, not polled yet: its drop guard does not exist. -/
  | spawned
  | reading
  | receiving
  | acking (n : Nat) (message : IncomingMessage)
  | filtering (n : Nat) (message : IncomingMessage)
  | forwarding (n : Nat) (message : IncomingMessage)
  | ended

/-- The reader waits at an await, where `abort` can end it. -/
def ReaderPc.parked : ReaderPc → Bool
  | .spawned | .reading | .receiving | .acking _ _ => true
  | _ => false

/-- `join_next` has nothing to wait for. -/
def ReaderPc.joined : ReaderPc → Bool
  | .absent | .ended => true
  | _ => false

inductive KeepalivePc where
  | absent
  | spawned
  | sleeping
  | pinging (k : CallId)
  | ended

def KeepalivePc.joined : KeepalivePc → Bool
  | .absent | .ended => true
  | _ => false

structure Generation where
  transport : Transport
  attachmentRegistry : AttachmentRegistry
  /-- The token `cancellation`. -/
  cancelled : Bool
  ownUserId : Option Int
  invokes : CallId → Option InvokePc
  reader : ReaderPc
  keepalive : KeepalivePc
  /-- `abort_all` was called on the tasks. -/
  aborted : Bool
  /-- The receiver `incoming` exists. -/
  incoming : Bool
  /-- Messages in the channel, with the numbers of their frames. -/
  messages : List (Nat × IncomingMessage)
  /-- Everything the reader has put into the channel. -/
  forwarded : List (Nat × IncomingMessage)
  /-- Messages for which a `run_handler` task was spawned. -/
  handled : List (Nat × IncomingMessage)
  /-- Messages that the filter held back, with the `own_user_id` it read. -/
  filtered : List (Nat × IncomingMessage × Option Int)

inductive InvokeAction where
  | poll
  | park
  | inner (a : CallAction)
  | finish
  | drop

inductive ReaderAction where
  | start
  | frame (frame : Option Frame)
  | received
  | ack (a : AckAction)
  | filter
  | forward
  | abort

inductive KeepaliveAction where
  | start
  | tick
  | ping (a : InvokeAction)
  | pinged
  | abort

inductive GenerationAction where
  | invoke (opcode : Nat) (payload : Value)
  | onInvoke (k : CallId) (a : InvokeAction)
  | reader (a : ReaderAction)
  | keepalive (a : KeepaliveAction)
  | install
  | spawnReader
  | spawnKeepalive
  | setOwnUserId (id : Int)
  | register (fileId : Int)
  | dropWaiter (w : AttachmentWaiter)
  | recv
  /-- The future of `run_attempt` goes, with the invoke it awaits and its receiver. -/
  | dropAttempt (waiting : Option CallId)
  | cancel
  | abortAll
  | clear
  | takeSink

def pingPayload : Value := .object [("interactive", .bool false)]

/-- The steps of `send` itself; its start and its end by abort belong to the reader. -/
def AckAction.isInner : AckAction → Bool
  | .lockSink | .feed | .finish => true
  | _ => false

def AckPc.isIdle : AckPc → Bool
  | .idle => true
  | _ => false

/-- Drop the future of call `k`; a finished one holds nothing. -/
def Transport.dropCall (t : Transport) (k : CallId) : Transport :=
  (t.step (.call k .drop)).getD t

def Transport.result (t : Transport) (k : CallId) : Option (Except Error Packet) :=
  match t.calls k with
  | some c =>
    match c.pc with
    | .returned r => some r
    | _ => none
  | none => none

/-- `result.as_ref().is_err_and(is_transport_failure)`. -/
def failsTransport : Except Error Packet → Bool
  | .error e => isTransportFailure e
  | .ok _ => false

namespace Generation

/-- `Connection::new` with a token that is cancelled when its parent already is. -/
def new (cancelled : Bool) : Generation where
  transport := .new
  attachmentRegistry := .new
  cancelled := cancelled
  ownUserId := none
  invokes := fun _ => none
  reader := .absent
  keepalive := .absent
  aborted := false
  incoming := false
  messages := []
  forwarded := []
  handled := []
  filtered := []

def cancel (g : Generation) : Generation := { g with cancelled := true }

def setInvoke (g : Generation) (k : CallId) (i : InvokePc) : Generation :=
  { g with invokes := Function.update g.invokes k (some i) }

def onTransport (g : Generation) (a : TransportAction) : Option Generation :=
  (g.transport.step a).map fun t => { g with transport := t }

/-- `Connection::invoke`: the first poll comes later. -/
def invoke (g : Generation) (opcode : Nat) (payload : Value) : Option Generation :=
  (g.onTransport (.start opcode payload)).map fun g' => g'.setInvoke g.transport.started .parked

def stepInvoke (g : Generation) (k : CallId) : InvokeAction → Option Generation
  | .poll =>
    match g.invokes k with
    | some .parked =>
      -- biased: the token is looked at before the inner future
      if g.cancelled then some
        { g.setInvoke k (.returned (.error .connectionClosed)) with
          transport := g.transport.dropCall k }
      else some (g.setInvoke k .polling)
    | _ => none
  | .park =>
    match g.invokes k with
    | some .polling =>
      match g.transport.result k with
      | none => some (g.setInvoke k .parked)
      | some _ => none
    | _ => none
  | .inner a =>
    match g.invokes k with
    | some .polling => if a.isDrop then none else g.onTransport (.call k a)
    | _ => none
  | .finish =>
    match g.invokes k with
    | some .polling =>
      (g.transport.result k).map fun r =>
        { g.setInvoke k (.returned r) with cancelled := g.cancelled || failsTransport r }
    | _ => none
  | .drop =>
    match g.invokes k with
    | some .parked => some
        { g.setInvoke k .dropped with transport := g.transport.dropCall k }
    | _ => none

/-- The reader returns: its drop guard cancels the connection, its sender is gone. -/
def endReader (g : Generation) : Generation := { g with reader := .ended, cancelled := true }

def onFrame (g : Generation) (n : Nat) : FrameAction → Option Packet → Option Generation
  | .notifMessage m, some packet =>
    (g.onTransport (.ack (.start n (ackPacket packet m)))).map fun g =>
      { g with reader := .acking n m }
  | .notifMessage _, none => none
  | .stop, _ => some g.endReader
  | .skip, _ => some g
  | .reconnect, _ => some g.cancel
  | .notifAttach fileId, _ =>
    some { g with attachmentRegistry := g.attachmentRegistry.complete fileId }
  | .response, _ => some { g with reader := .receiving }

def stepReader (fromStr : String → Except String Packet) (g : Generation) :
    ReaderAction → Option Generation
  | .start =>
    match g.reader with
    | .spawned => some { g with reader := .reading }
    | _ => none
  | .frame frame =>
    match g.reader with
    | .reading =>
      match readTurn fromStr frame with
      | (act, none) => g.onFrame g.transport.reads act none
      | (act, some packet) =>
        (g.onTransport (.read packet)).bind fun g' =>
          g'.onFrame g.transport.reads act (some packet)
    | _ => none
  | .received =>
    match g.reader with
    | .receiving => (g.onTransport .receiveResponse).map fun g => { g with reader := .reading }
    | _ => none
  | .ack a =>
    match g.reader with
    | .acking n m =>
      if a.isInner then
        (g.onTransport (.ack a)).map fun g =>
          if g.transport.ack.isIdle then { g with reader := .filtering n m } else g
      else none
    | _ => none
  | .filter =>
    match g.reader with
    | .filtering n m =>
      if isFilteredIncomingMessage m g.ownUserId then some
        { g with
          reader := .reading
          filtered := g.filtered ++ [(n, m, g.ownUserId)] }
      else some { g with reader := .forwarding n m }
    | _ => none
  | .forward =>
    match g.reader with
    | .forwarding n m =>
      if g.incoming then some
        { g with
          reader := .reading
          messages := g.messages ++ [(n, m)]
          forwarded := g.forwarded ++ [(n, m)] }
      else some { g with reader := .reading }
    | _ => none
  | .abort =>
    if g.aborted && g.reader.parked then
      (g.onTransport (.ack .drop)).bind fun g' =>
        (g'.onTransport .abandon).map fun g' =>
          match g.reader with
          | .spawned => { g' with reader := .ended }
          | _ => g'.endReader
    else none

def endKeepalive (g : Generation) : Generation :=
  { g with keepalive := .ended, cancelled := true }

def stepKeepalive (g : Generation) : KeepaliveAction → Option Generation
  | .start =>
    match g.keepalive with
    | .spawned => some { g with keepalive := .sleeping }
    | _ => none
  | .tick =>
    match g.keepalive with
    | .sleeping =>
      (g.invoke Opcode.PING pingPayload).map fun g' =>
        { g' with keepalive := .pinging g.transport.started }
    | _ => none
  | .ping a =>
    match g.keepalive, a with
    | .pinging _, .drop => none
    | .pinging k, a => g.stepInvoke k a
    | _, _ => none
  | .pinged =>
    match g.keepalive with
    | .pinging k =>
      match g.invokes k with
      | some (.returned (.ok _)) => some { g with keepalive := .sleeping }
      | some (.returned (.error _)) => some g.endKeepalive
      | _ => none
    | _ => none
  | .abort =>
    if g.aborted then
      match g.keepalive with
      | .spawned => some { g with keepalive := .ended }
      | .sleeping => some g.endKeepalive
      | .pinging k => (g.stepInvoke k .drop).map endKeepalive
      | _ => none
    else none

def dropIncoming (g : Generation) : Generation := { g with incoming := false, messages := [] }

def step (fromStr : String → Except String Packet) (g : Generation) :
    GenerationAction → Option Generation
  | .invoke opcode payload => g.invoke opcode payload
  | .onInvoke k a => g.stepInvoke k a
  | .reader a => g.stepReader fromStr a
  | .keepalive a => g.stepKeepalive a
  | .install => g.onTransport .install
  | .spawnReader =>
    match g.reader with
    | .absent => some { g with reader := .spawned, incoming := true }
    | _ => none
  | .spawnKeepalive =>
    match g.keepalive with
    | .absent => some { g with keepalive := .spawned }
    | _ => none
  | .setOwnUserId id => some { g with ownUserId := some id }
  | .register fileId =>
    some { g with attachmentRegistry := (g.attachmentRegistry.register fileId).1 }
  | .dropWaiter w => some { g with attachmentRegistry := g.attachmentRegistry.dropWaiter w }
  | .recv =>
    match g.messages with
    | message :: rest =>
      if g.incoming then some { g with messages := rest, handled := g.handled ++ [message] }
      else none
    | [] => none
  | .dropAttempt none => some g.dropIncoming
  | .dropAttempt (some k) => (g.stepInvoke k .drop).map dropIncoming
  | .cancel => some g.cancel
  | .abortAll => some { g with aborted := true }
  | .clear => g.onTransport .clear
  | .takeSink => g.onTransport .takeSink

def automaton (fromStr : String → Except String Packet) :
    Automaton Generation GenerationAction where
  init := fun g => ∃ cancelled, g = new cancelled
  step := step fromStr

end Generation

end Maxrs
