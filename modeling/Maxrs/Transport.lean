import Maxrs.Error
import Maxrs.Kit.Automaton
set_option autoImplicit false

/-! `transport.rs`: one websocket with its `send_order`, `sink` and `state` mutexes. A step is
one critical section of `state`, or one point at which `sink.send` or a timer makes progress. -/
namespace Maxrs

/-- Activations of `Transport::invoke` on one transport, in the order of their starts. -/
abbrev CallId := Nat

/-- Where an activation of `Transport::invoke` stands. -/
inductive CallPc where
  | order
  | allocate
  | register (seq : Nat)
  | sink (seq : Nat)
  /-- Inside `sink.send`, the frame not yet taken by the socket. -/
  | feed (seq : Nat)
  | flush (seq : Nat)
  | unregister (seq : Nat) (error : Error)
  | await (seq : Nat)
  | forget (seq : Nat) (error : Error)
  | returned (result : Except Error Packet)
  | dropped

namespace CallPc

/-- The activation owns the guard of `send_order`. -/
def holdsOrder : CallPc → Bool
  | .allocate | .register _ | .sink _ | .feed _ | .flush _ | .unregister _ _ => true
  | _ => false

def holdsSink : CallPc → Bool
  | .feed _ | .flush _ => true
  | _ => false

/-- The receiver `rx` of the activation is alive. -/
def listening : CallPc → Bool
  | .register _ | .sink _ | .feed _ | .flush _ | .unregister _ _ | .await _ => true
  | _ => false

def finished : CallPc → Bool
  | .returned _ | .dropped => true
  | _ => false

def seq? : CallPc → Option Nat
  | .register s | .sink s | .feed s | .flush s | .unregister s _ | .await s | .forget s _ => some s
  | _ => none

end CallPc

/-- `next_seq` starts at 1 and wraps. -/
def seqOf (turn : Nat) : Nat := (1 + turn) % 2 ^ 32

structure Call where
  opcode : Nat
  payload : Value
  pc : CallPc
  /-- How many sequence numbers had been allocated before this call took its own. -/
  turn : Option Nat
  /-- Content of the oneshot channel: a frame with its number among the frames read. -/
  inbox : Option (Nat × Packet)

/-- The number the call took from `next_seq`. -/
def Call.seq (c : Call) : Option Nat := c.turn.map seqOf

inductive SinkHolder where
  | call (k : CallId)
  | ack
  deriving DecidableEq

/-- `Transport::send` as the reader uses it, to acknowledge frame number `n`. -/
inductive AckPc where
  | idle
  | sink (n : Nat) (packet : Packet)
  | feed (n : Nat) (packet : Packet)
  | flush (n : Nat) (packet : Packet)

def AckPc.holdsSink : AckPc → Bool
  | .feed _ _ | .flush _ _ => true
  | _ => false

inductive TransportEvent where
  | registered (k : CallId) (seq : Nat)
  | wrote (k : CallId) (packet : Packet)
  | acked (n : Nat) (packet : Packet)
  | read (n : Nat) (packet : Packet)
  /-- `receive_response` sent frame `n` to the waiter of call `k`. -/
  | answered (k : CallId) (n : Nat) (packet : Packet)

structure Transport where
  nextSeq : Nat
  pending : Nat → Option CallId
  sendOrder : Option CallId
  sink : Bool
  sinkLock : Option SinkHolder
  calls : CallId → Option Call
  started : Nat
  allocated : Nat
  ack : AckPc
  /-- The frame with which the reader waits in `receive_response` for the `state` mutex. -/
  receiving : Option (Nat × Packet)
  reads : Nat
  log : List TransportEvent

inductive CallAction where
  | lockOrder
  | allocate
  | register
  | lockSink
  | feed
  | flushed
  | sendFailed (reason : String)
  | sendTimedOut
  | unregister
  | answered
  | closed
  | timedOut
  | forget
  | drop

/-- A drop comes from outside the future; the other steps happen while it is polled. -/
def CallAction.isDrop : CallAction → Bool
  | .drop => true
  | _ => false

inductive AckAction where
  | start (n : Nat) (packet : Packet)
  | lockSink
  | feed
  | finish
  | drop

inductive TransportAction where
  | start (opcode : Nat) (payload : Value)
  | call (k : CallId) (a : CallAction)
  | ack (a : AckAction)
  | read (packet : Packet)
  | receiveResponse
  | abandon
  | install
  | clear
  | takeSink

def errorMessage (payload : Value) : String :=
  ((payload.get "error").asStr.or ((payload.get "message").asStr.or
    (payload.get "localizedMessage").asStr)).getD "unknown error"

/-- The end of `await_response`, once a frame has come out of the oneshot. -/
def respond (opcode : Nat) (response : Packet) : Except Error Packet :=
  if response.isError then .error (.server opcode (errorMessage response.payload))
  else .ok response

namespace Transport

def new : Transport where
  nextSeq := 1
  pending := fun _ => none
  sendOrder := none
  sink := false
  sinkLock := none
  calls := fun _ => none
  started := 0
  allocated := 0
  ack := .idle
  receiving := none
  reads := 0
  log := []

/-- `!waiter.is_closed()` for the waiter of call `k`. -/
def listening (t : Transport) (k : CallId) : Bool :=
  match t.calls k with
  | some c => c.pc.listening
  | none => false

def put (t : Transport) (k : CallId) (c : Call) : Transport :=
  { t with calls := Function.update t.calls k (some c) }

def move (t : Transport) (k : CallId) (c : Call) (pc : CallPc) : Transport :=
  t.put k { c with pc := pc }

def record (t : Transport) (e : TransportEvent) : Transport := { t with log := t.log ++ [e] }

/-- `pending.retain(|_, waiter| !waiter.is_closed())`. -/
def retained (t : Transport) (seq : Nat) : Option CallId := (t.pending seq).filter t.listening

def stepCall (t : Transport) (k : CallId) (c : Call) : CallAction → Option Transport
  | .lockOrder =>
    match c.pc with
    | .order =>
      if t.sendOrder = none then some { t.move k c .allocate with sendOrder := some k } else none
    | _ => none
  | .allocate =>
    match c.pc with
    | .allocate => some
        { t.put k { c with pc := .register t.nextSeq, turn := some t.allocated } with
          nextSeq := (t.nextSeq + 1) % 2 ^ 32
          allocated := t.allocated + 1 }
    | _ => none
  | .register =>
    match c.pc with
    | .register seq =>
      if t.retained seq = none then
        some { (t.move k c (.sink seq)).record (.registered k seq) with
          pending := Function.update t.retained seq (some k) }
      else
        some { t.move k c (.returned (.error (.duplicateSequence seq))) with
          pending := t.retained
          sendOrder := none }
    | _ => none
  | .lockSink =>
    match c.pc with
    | .sink seq =>
      if t.sinkLock = none then
        if t.sink then some { t.move k c (.feed seq) with sinkLock := some (.call k) }
        else some (t.move k c (.unregister seq .connectionClosed))
      else none
    | _ => none
  | .feed =>
    match c.pc with
    | .feed seq =>
      some ((t.move k c (.flush seq)).record (.wrote k (Packet.request seq c.opcode c.payload)))
    | _ => none
  | .flushed =>
    match c.pc with
    | .flush seq => some { t.move k c (.await seq) with sinkLock := none, sendOrder := none }
    | _ => none
  | .sendFailed reason =>
    match c.pc with
    | .feed seq | .flush seq =>
      some { t.move k c (.unregister seq (.webSocket reason)) with sinkLock := none }
    | _ => none
  | .sendTimedOut =>
    match c.pc with
    | .feed seq | .flush seq =>
      some { t.move k c (.unregister seq (.timeout c.opcode)) with sinkLock := none }
    | _ => none
  | .unregister =>
    match c.pc with
    | .unregister seq error => some
        { t.move k c (.returned (.error error)) with
          pending := Function.update t.pending seq none
          sendOrder := none }
    | _ => none
  | .answered =>
    match c.pc, c.inbox with
    | .await _, some (_, response) => some (t.move k c (.returned (respond c.opcode response)))
    | _, _ => none
  | .closed =>
    match c.pc, c.inbox with
    | .await seq, none =>
      -- the sender is gone once its entry has left `pending` without a response
      if t.pending seq = some k then none else some (t.move k c (.forget seq .connectionClosed))
    | _, _ => none
  | .timedOut =>
    match c.pc, c.inbox with
    | .await seq, none =>
      if t.pending seq = some k then some (t.move k c (.forget seq (.timeout c.opcode))) else none
    | _, _ => none
  | .forget =>
    match c.pc with
    | .forget seq error => some
        { t.move k c (.returned (.error error)) with
          pending := Function.update t.pending seq none }
    | _ => none
  | .drop =>
    if c.pc.finished then none
    else some { t.move k c .dropped with
      sendOrder := if c.pc.holdsOrder then none else t.sendOrder
      sinkLock := if c.pc.holdsSink then none else t.sinkLock }

def stepAck (t : Transport) : AckAction → Option Transport
  | .start n packet =>
    match t.ack with
    | .idle => some { t with ack := .sink n packet }
    | _ => none
  | .lockSink =>
    match t.ack with
    | .sink n packet =>
      if t.sinkLock = none then
        if t.sink then some { t with ack := .feed n packet, sinkLock := some .ack }
        else some { t with ack := .idle }
      else none
    | _ => none
  | .feed =>
    match t.ack with
    | .feed n packet => some ({ t with ack := .flush n packet }.record (.acked n packet))
    | _ => none
  -- sent, failed or timed out: the reader ignores which
  | .finish =>
    match t.ack with
    | .feed _ _ | .flush _ _ => some { t with ack := .idle, sinkLock := none }
    | _ => none
  | .drop => some
      { t with
        ack := .idle
        sinkLock := if t.ack.holdsSink then none else t.sinkLock }

/-- The critical section of `receive_response`. -/
def deliver (t : Transport) (n : Nat) (packet : Packet) : Transport :=
  match t.pending packet.seq with
  | some k =>
    let rest := { t with pending := Function.update t.pending packet.seq none }
    match t.calls k with
    | some c =>
      if c.pc.listening then
        (rest.put k { c with inbox := some (n, packet) }).record (.answered k n packet)
      else rest
    | none => rest
  | none => t

def step (t : Transport) : TransportAction → Option Transport
  | .start opcode payload => some
      { t.put t.started
          { opcode := opcode, payload := payload, pc := .order, turn := none, inbox := none } with
        started := t.started + 1 }
  | .call k a => (t.calls k).bind fun c => t.stepCall k c a
  | .ack a => t.stepAck a
  | .read packet =>
    if t.receiving = none then some
      { t.record (.read t.reads packet) with
        reads := t.reads + 1
        receiving := if packet.isRequest then none else some (t.reads, packet) }
    else none
  | .receiveResponse =>
    t.receiving.map fun f => { t.deliver f.1 f.2 with receiving := none }
  | .abandon => some { t with receiving := none }
  | .install => if t.sinkLock = none then some { t with sink := true } else none
  | .clear => some { t with pending := fun _ => none }
  | .takeSink => if t.sinkLock = none then some { t with sink := false } else none

def automaton : Automaton Transport TransportAction where
  init := fun t => t = new
  step := step

@[simp] theorem put_calls (t : Transport) (k : CallId) (c : Call) :
    (t.put k c).calls = Function.update t.calls k (some c) := rfl

@[simp] theorem put_pending (t : Transport) (k : CallId) (c : Call) :
    (t.put k c).pending = t.pending := rfl

@[simp] theorem put_log (t : Transport) (k : CallId) (c : Call) : (t.put k c).log = t.log := rfl

@[simp] theorem move_calls (t : Transport) (k : CallId) (c : Call) (pc : CallPc) :
    (t.move k c pc).calls = Function.update t.calls k (some { c with pc := pc }) := rfl

@[simp] theorem move_pending (t : Transport) (k : CallId) (c : Call) (pc : CallPc) :
    (t.move k c pc).pending = t.pending := rfl

@[simp] theorem move_log (t : Transport) (k : CallId) (c : Call) (pc : CallPc) :
    (t.move k c pc).log = t.log := rfl

@[simp] theorem record_calls (t : Transport) (e : TransportEvent) :
    (t.record e).calls = t.calls := rfl

@[simp] theorem record_pending (t : Transport) (e : TransportEvent) :
    (t.record e).pending = t.pending := rfl

@[simp] theorem record_log (t : Transport) (e : TransportEvent) :
    (t.record e).log = t.log ++ [e] := rfl

end Transport

end Maxrs
