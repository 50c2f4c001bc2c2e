import Maxrs.Kit.Lock
import Maxrs.TransportFrame
set_option autoImplicit false

/-! Who owns the guards of `send_order` and of `sink`. -/
namespace Maxrs.Transport

def holdsOrder (t : Transport) (k : CallId) : Bool :=
  ((t.calls k).map Call.pc).any CallPc.holdsOrder

def holdsSink (t : Transport) : SinkHolder → Bool
  | .call k => ((t.calls k).map Call.pc).any CallPc.holdsSink
  | .ack => t.ack.holdsSink

structure LockInv (t : Transport) : Prop where
  order : Lock.Agrees t.sendOrder t.holdsOrder
  sink : Lock.Agrees t.sinkLock t.holdsSink

variable {t t' : Transport} {k : CallId} {c c' : Call}

theorem order_stepCall {a : CallAction} (h : t.stepCall k c a = some t')
    (hk : t'.calls k = some c') :
    Lock.Turn k c.pc.holdsOrder c'.pc.holdsOrder t.sendOrder t'.sendOrder := by
  cases callTurn h hk with
  | lockOrder hp hfree => exact .acquire hfree rfl rfl
  | drop hf =>
    cases hp : c.pc.holdsOrder with
    | true => exact .release rfl rfl rfl
    | false => exact .keep rfl rfl
  | duplicate s hp _ | flushed s hp | unregister s e hp =>
    exact .release (by rw [hp]; rfl) rfl rfl
  | sendFailed s reason hp | sendTimedOut s hp =>
    exact .keep (by rcases hp with hp | hp <;> rw [hp] <;> rfl) rfl
  | allocate hp | register s hp _ | lockSink s hp _ _ | noSink s hp _ _ | feed s hp
  | answered s n p hp _ | closed s hp _ _ | timedOut s hp _ _ | forget s e hp =>
    exact .keep (by rw [hp]; rfl) rfl

theorem sink_stepCall {a : CallAction} (h : t.stepCall k c a = some t')
    (hk : t'.calls k = some c') :
    Lock.Turn (.call k) c.pc.holdsSink c'.pc.holdsSink t.sinkLock t'.sinkLock := by
  cases callTurn h hk with
  | lockSink s hp hfree hs => exact .acquire hfree rfl rfl
  | drop hf =>
    cases hp : c.pc.holdsSink with
    | true => exact .release rfl rfl rfl
    | false => exact .keep rfl rfl
  | flushed s hp => exact .release (by rw [hp]; rfl) rfl rfl
  | sendFailed s reason hp | sendTimedOut s hp =>
    exact .release (by rcases hp with hp | hp <;> rw [hp] <;> rfl) rfl rfl
  | lockOrder hp _ | allocate hp | register s hp _ | duplicate s hp _ | noSink s hp _ _ | feed s hp
  | unregister s e hp | answered s n p hp _ | closed s hp _ _ | timedOut s hp _ _
  | forget s e hp => exact .keep (by rw [hp]; rfl) rfl

theorem lockInv_call {a : CallAction} (hi : LockInv t) (hc : t.calls k = some c)
    (h : t.stepCall k c a = some t') : LockInv t' := by
  obtain ⟨c', hs⟩ := stepCall_callStep h
  have hself : t'.calls k = some c' := by simp [hs.calls]
  have hother : ∀ j, j ≠ k → t'.calls j = t.calls j := fun j hj => by
    rw [hs.calls, Function.update_of_ne hj]
  refine ⟨hi.order.turn k ?_ fun j hj => ?_,
    hi.sink.turn (.call k) ?_ fun j hj => ?_⟩
  · simpa [holdsOrder, hc, hself] using order_stepCall h hself
  · rw [holdsOrder, hother j hj, holdsOrder]
  · simpa [holdsSink, hc, hself] using sink_stepCall h hself
  · cases j with
    | call j =>
      have hj' : j ≠ k := fun he => hj (by rw [he])
      rw [holdsSink, hother j hj', holdsSink]
    | ack => rw [holdsSink, hs.ack, holdsSink]

theorem sink_stepAck {a : AckAction} (h : t.stepAck a = some t') :
    Lock.Turn .ack t.ack.holdsSink t'.ack.holdsSink t.sinkLock t'.sinkLock ∧
      t'.sendOrder = t.sendOrder := by
  cases a with
  | start n packet | feed =>
    simp only [stepAck] at h
    split at h <;> cases h
    rename_i hp
    exact ⟨.keep (by rw [hp]; rfl) rfl, rfl⟩
  | lockSink =>
    simp only [stepAck] at h
    split at h
    · rename_i hp
      split at h
      · split at h <;> cases h
        · exact ⟨.acquire (by assumption) rfl rfl, rfl⟩
        · exact ⟨.keep (by rw [hp]; rfl) rfl, rfl⟩
      · cases h
    · cases h
  | finish =>
    simp only [stepAck] at h
    split at h <;> cases h
    all_goals
      rename_i hp
      exact ⟨.release (by rw [hp]; rfl) rfl rfl, rfl⟩
  | drop =>
    simp only [stepAck, Option.some.injEq] at h
    subst h
    refine ⟨?_, rfl⟩
    cases t.ack.holdsSink with
    | true => exact .release rfl rfl rfl
    | false => exact .keep rfl rfl

theorem LockInv.same (hi : LockInv t) (hp : SamePcs t t') (ha : t'.ack = t.ack)
    (ho : t'.sendOrder = t.sendOrder) (hs : t'.sinkLock = t.sinkLock) : LockInv t' := by
  refine ⟨ho ▸ hi.order.congr fun k => ?_, hs ▸ hi.sink.congr fun j => ?_⟩
  · rw [holdsOrder, hp k, holdsOrder]
  · cases j with
    | call k => rw [holdsSink, hp k, holdsSink]
    | ack => rw [holdsSink, ha, holdsSink]

theorem deliver_locks (t : Transport) (n : Nat) (p : Packet) :
    (t.deliver n p).sendOrder = t.sendOrder ∧ (t.deliver n p).sinkLock = t.sinkLock := by
  rcases t.deliver_cases n p with h | h | ⟨k, c, _, _, _, h⟩ <;> rw [h] <;> exact ⟨rfl, rfl⟩

theorem lockInv_step {a : TransportAction} (h : t.step a = some t') (ht : TransportInv t)
    (hi : LockInv t) : LockInv t' := by
  cases a with
  | start opcode payload =>
    have hnone : t.calls t.started = none := by
      cases hc : t.calls t.started with
      | none => rfl
      | some c => exact absurd (ht.started _ c hc) (Nat.lt_irrefl _)
    cases h
    refine ⟨hi.order.congr fun k => ?_, hi.sink.congr fun j => ?_⟩
    · by_cases hk : k = t.started
      · simp [holdsOrder, hk, hnone, CallPc.holdsOrder]
      · simp [holdsOrder, Function.update_of_ne hk]
    · cases j with
      | call k =>
        by_cases hk : k = t.started
        · simp [holdsSink, hk, hnone, CallPc.holdsSink]
        · simp [holdsSink, Function.update_of_ne hk]
      | ack => rfl
  | call k a =>
    simp only [step, Option.bind_eq_some_iff] at h
    obtain ⟨c, hc, h⟩ := h
    exact lockInv_call hi hc h
  | ack a =>
    obtain ⟨hturn, ho⟩ := sink_stepAck h
    have hcalls : t'.calls = t.calls := (stepAck_frame h).1
    refine ⟨ho ▸ hi.order.congr fun k => ?_, hi.sink.turn .ack hturn fun j hj => ?_⟩
    · rw [holdsOrder, hcalls, holdsOrder]
    · cases j with
      | call k => rw [holdsSink, hcalls, holdsSink]
      | ack => exact absurd rfl hj
  | receiveResponse =>
    simp only [step, Option.map_eq_some_iff] at h
    obtain ⟨⟨n, p⟩, _, rfl⟩ := h
    obtain ⟨ho, hs⟩ := deliver_locks t n p
    exact hi.same (deliver_samePcs t n p) (deliver_frame t n p).2.2.1 ho hs
  | read p | install | takeSink =>
    simp only [step, Option.ite_none_right_eq_some, Option.some.injEq] at h
    obtain ⟨_, rfl⟩ := h
    exact hi.same (fun _ => rfl) rfl rfl rfl
  | abandon | clear =>
    cases h
    exact hi.same (fun _ => rfl) rfl rfl rfl

theorem lockInv_of_reachable (h : automaton.Reachable t) : LockInv t := by
  refine h.invariant_of (fun t ht => ?_) fun _ _ _ hr hs hi =>
    lockInv_step hs (transportInv_of_reachable hr) hi
  cases ht
  refine ⟨Lock.agrees_none fun _ => rfl, Lock.agrees_none fun j => ?_⟩
  cases j <;> rfl

/-- The owner of `send_order` stands between its lock and its drop. -/
theorem LockInv.order_owner (hi : LockInv t) (hk : t.calls k = some c) :
    c.pc.holdsOrder = true ↔ t.sendOrder = some k := by
  have h := hi.order k
  simpa [holdsOrder, hk] using h

end Maxrs.Transport
