import Mathlib.Data.Fintype.Card
import Maxrs.Kit.History
import Maxrs.Transport
set_option autoImplicit false

namespace Maxrs

def CallPc.unregistered : CallPc → Bool
  | .order | .allocate | .register _ => true
  | _ => false

/-- The frame is known to have been taken by the socket. -/
def CallPc.sent : CallPc → Bool
  | .flush _ | .await _ => true
  | _ => false

def Call.request (c : Call) (s : Nat) : Packet := Packet.request s c.opcode c.payload

/-- How `r` came about, given the log: from a frame that was sent to the call's waiter, or
as a failure of the transport. -/
def Outcome (log : List TransportEvent) (k : CallId) (c : Call) (r : Except Error Packet) : Prop :=
  (∃ n p s, c.inbox = some (n, p) ∧ c.seq = some s ∧ .wrote k (c.request s) ∈ log ∧
    r = respond c.opcode p) ∨
  ∃ e, r = .error e ∧ isTransportFailure e = true

def Transport.SendFailure (opcode : Nat) (e : Error) : Prop :=
  e = .connectionClosed ∨ e = .timeout opcode ∨ ∃ reason, e = .webSocket reason

theorem Transport.SendFailure.transport {opcode : Nat} {e : Error}
    (h : Transport.SendFailure opcode e) : isTransportFailure e = true := by
  rcases h with rfl | rfl | ⟨reason, rfl⟩ <;> rfl

@[simp] def CallPc.Cause (opcode : Nat) : CallPc → Prop
  | .unregister _ e => Transport.SendFailure opcode e
  | .forget _ e => e = .connectionClosed ∨ e = .timeout opcode
  | _ => True

structure CallInv (t : Transport) (k : CallId) (c : Call) : Prop where
  seq : ∀ s, c.pc.seq? = some s → c.seq = some s
  fresh : c.pc = .order ∨ c.pc = .allocate → c.turn = none
  turn : ∀ i, c.turn = some i → i < t.allocated
  empty : c.pc.unregistered = true → c.inbox = none
  answered : ∀ n p, c.inbox = some (n, p) → .answered k n p ∈ t.log
  wrote : ∀ s, c.seq = some s → c.pc.sent = true → .wrote k (c.request s) ∈ t.log
  failure : c.pc.Cause c.opcode
  returned : ∀ r, c.pc = .returned r → Outcome t.log k c r

/-- What an event may assume of the events before it. -/
def TransportEvent.justified (before : List TransportEvent) : TransportEvent → Prop
  | .answered k n p => .registered k p.seq ∈ before ∧ .read n p ∈ before
  | _ => True

structure TransportInv (t : Transport) : Prop where
  nextSeq : t.nextSeq = seqOf t.allocated
  started : ∀ k c, t.calls k = some c → k < t.started
  calls : ∀ k c, t.calls k = some c → CallInv t k c
  turns : ∀ k k' c c' i, t.calls k = some c → t.calls k' = some c' → c.turn = some i →
    c'.turn = some i → k = k'
  covered : ∀ i, i < t.allocated → ∃ k c, t.calls k = some c ∧ c.turn = some i
  pending : ∀ s k, t.pending s = some k → ∃ c, t.calls k = some c ∧ c.seq = some s ∧
    c.inbox = none ∧ c.pc.unregistered = false ∧ .registered k s ∈ t.log
  reads : ∀ n p, .read n p ∈ t.log → n < t.reads
  receiving : ∀ n p, t.receiving = some (n, p) →
    .read n p ∈ t.log ∧ p.isRequest = false ∧ ∀ k q, .answered k n q ∉ t.log
  answered : ∀ k n p, .answered k n p ∈ t.log →
    .read n p ∈ t.log ∧ p.isRequest = false ∧
      ∃ c, t.calls k = some c ∧ c.inbox = some (n, p) ∧ c.seq = some p.seq
  once : ∀ k k' n p p', .answered k n p ∈ t.log → .answered k' n p' ∈ t.log → k = k'
  order : History.Justified TransportEvent.justified t.log

theorem Outcome.mono {log log' : List TransportEvent} {k : CallId} {c : Call}
    {r : Except Error Packet} (hl : ∀ e, e ∈ log → e ∈ log') (h : Outcome log k c r) :
    Outcome log' k c r := by
  rcases h with ⟨n, p, s, hi, hs, hw, hr⟩ | h
  · exact .inl ⟨n, p, s, hi, hs, hl _ hw, hr⟩
  · exact .inr h

theorem CallInv.mono {t t' : Transport} {k : CallId} {c : Call} (h : CallInv t k c)
    (hl : ∀ e, e ∈ t.log → e ∈ t'.log) (ha : t.allocated ≤ t'.allocated) :
    CallInv t' k c where
  seq := h.seq
  fresh := h.fresh
  turn := fun i hi => Nat.lt_of_lt_of_le (h.turn i hi) ha
  empty := h.empty
  answered := fun n p hi => hl _ (h.answered n p hi)
  wrote := fun s hs hp => hl _ (h.wrote s hs hp)
  failure := h.failure
  returned := fun r hr => (h.returned r hr).mono hl

theorem CallInv.move {t t' : Transport} {k : CallId} {c : Call} {pc : CallPc}
    (hi : CallInv t k c) (hl : ∀ e, e ∈ t.log → e ∈ t'.log) (ha : t.allocated ≤ t'.allocated)
    (hseq : ∀ s, pc.seq? = some s → c.seq = some s)
    (hfresh : pc = .order ∨ pc = .allocate → c.turn = none)
    (hempty : pc.unregistered = true → c.inbox = none)
    (hwrote : ∀ s, c.seq = some s → pc.sent = true → .wrote k (c.request s) ∈ t'.log)
    (hfail : pc.Cause c.opcode)
    (hret : ∀ r, pc = .returned r → Outcome t'.log k c r) :
    CallInv t' k { c with pc := pc } where
  seq := hseq
  fresh := hfresh
  turn := fun i h => Nat.lt_of_lt_of_le (hi.turn i h) ha
  empty := hempty
  answered := fun n p h => hl _ (hi.answered n p h)
  wrote := hwrote
  failure := hfail
  returned := hret

namespace Transport

structure CallStep (t t' : Transport) (k : CallId) (c c' : Call) : Prop where
  calls : t'.calls = Function.update t.calls k (some c')
  opcode : c'.opcode = c.opcode
  payload : c'.payload = c.payload
  inbox : c'.inbox = c.inbox
  started : t'.started = t.started
  receiving : t'.receiving = t.receiving
  reads : t'.reads = t.reads
  sink : t'.sink = t.sink
  ack : t'.ack = t.ack
  log : t'.log = t.log ∨
    (∃ s, c.pc = .register s ∧ c'.pc = .sink s ∧ t'.log = t.log ++ [.registered k s]) ∨
    (∃ s, c.pc = .feed s ∧ c'.pc = .flush s ∧ t'.log = t.log ++ [.wrote k (c.request s)])
  pending : ∀ s j, t'.pending s = some j → t.pending s = some j ∨
    (j = k ∧ c.pc = .register s ∧ c'.pc = .sink s ∧ t'.log = t.log ++ [.registered k s])
  turn : (c'.turn = c.turn ∧ t'.allocated = t.allocated ∧ t'.nextSeq = t.nextSeq) ∨
    (c.pc = .allocate ∧ c'.pc = .register t.nextSeq ∧ c'.turn = some t.allocated ∧
      t'.allocated = t.allocated + 1 ∧ t'.nextSeq = (t.nextSeq + 1) % 2 ^ 32)
  forward : c.pc.unregistered = false → c'.pc.unregistered = false

theorem of_erased {f : Nat → Option CallId} {q s : Nat} {k : CallId}
    (h : Function.update f q none s = some k) : f s = some k := by
  by_cases hs : s = q
  · simp [hs] at h
  · rwa [Function.update_of_ne hs] at h

inductive CallTurn (t : Transport) (k : CallId) (c : Call) : CallAction → Call → Transport → Prop
  where
  | lockOrder : c.pc = .order → t.sendOrder = none →
      CallTurn t k c .lockOrder { c with pc := .allocate }
        { t.move k c .allocate with sendOrder := some k }
  | allocate : c.pc = .allocate →
      CallTurn t k c .allocate { c with pc := .register t.nextSeq, turn := some t.allocated }
        { t.put k { c with pc := .register t.nextSeq, turn := some t.allocated } with
          nextSeq := (t.nextSeq + 1) % 2 ^ 32
          allocated := t.allocated + 1 }
  | register (s : Nat) : c.pc = .register s → t.retained s = none →
      CallTurn t k c .register { c with pc := .sink s }
        { (t.move k c (.sink s)).record (.registered k s) with
          pending := Function.update t.retained s (some k) }
  | duplicate (s : Nat) : c.pc = .register s → t.retained s ≠ none →
      CallTurn t k c .register { c with pc := .returned (.error (.duplicateSequence s)) }
        { t.move k c (.returned (.error (.duplicateSequence s))) with
          pending := t.retained
          sendOrder := none }
  | lockSink (s : Nat) : c.pc = .sink s → t.sinkLock = none → t.sink = true →
      CallTurn t k c .lockSink { c with pc := .feed s }
        { t.move k c (.feed s) with sinkLock := some (.call k) }
  | noSink (s : Nat) : c.pc = .sink s → t.sinkLock = none → t.sink = false →
      CallTurn t k c .lockSink { c with pc := .unregister s .connectionClosed }
        (t.move k c (.unregister s .connectionClosed))
  | feed (s : Nat) : c.pc = .feed s →
      CallTurn t k c .feed { c with pc := .flush s }
        ((t.move k c (.flush s)).record (.wrote k (c.request s)))
  | flushed (s : Nat) : c.pc = .flush s →
      CallTurn t k c .flushed { c with pc := .await s }
        { t.move k c (.await s) with sinkLock := none, sendOrder := none }
  | sendFailed (s : Nat) (reason : String) : c.pc = .feed s ∨ c.pc = .flush s →
      CallTurn t k c (.sendFailed reason) { c with pc := .unregister s (.webSocket reason) }
        { t.move k c (.unregister s (.webSocket reason)) with sinkLock := none }
  | sendTimedOut (s : Nat) : c.pc = .feed s ∨ c.pc = .flush s →
      CallTurn t k c .sendTimedOut { c with pc := .unregister s (.timeout c.opcode) }
        { t.move k c (.unregister s (.timeout c.opcode)) with sinkLock := none }
  | unregister (s : Nat) (e : Error) : c.pc = .unregister s e →
      CallTurn t k c .unregister { c with pc := .returned (.error e) }
        { t.move k c (.returned (.error e)) with
          pending := Function.update t.pending s none
          sendOrder := none }
  | answered (s n : Nat) (p : Packet) : c.pc = .await s → c.inbox = some (n, p) →
      CallTurn t k c .answered { c with pc := .returned (respond c.opcode p) }
        (t.move k c (.returned (respond c.opcode p)))
  | closed (s : Nat) : c.pc = .await s → c.inbox = none → t.pending s ≠ some k →
      CallTurn t k c .closed { c with pc := .forget s .connectionClosed }
        (t.move k c (.forget s .connectionClosed))
  | timedOut (s : Nat) : c.pc = .await s → c.inbox = none → t.pending s = some k →
      CallTurn t k c .timedOut { c with pc := .forget s (.timeout c.opcode) }
        (t.move k c (.forget s (.timeout c.opcode)))
  | forget (s : Nat) (e : Error) : c.pc = .forget s e →
      CallTurn t k c .forget { c with pc := .returned (.error e) }
        { t.move k c (.returned (.error e)) with pending := Function.update t.pending s none }
  | drop : c.pc.finished = false →
      CallTurn t k c .drop { c with pc := .dropped }
        { t.move k c .dropped with
          sendOrder := if c.pc.holdsOrder then none else t.sendOrder
          sinkLock := if c.pc.holdsSink then none else t.sinkLock }

theorem exists_callTurn {t t' : Transport} {k : CallId} {c : Call} {a : CallAction}
    (h : t.stepCall k c a = some t') : ∃ c', CallTurn t k c a c' t' := by
  cases a with
  | lockOrder =>
    simp only [stepCall] at h
    split at h
    · split at h <;> cases h
      exact ⟨_, .lockOrder (by assumption) (by assumption)⟩
    · cases h
  | allocate =>
    simp only [stepCall] at h
    split at h <;> cases h
    exact ⟨_, .allocate (by assumption)⟩
  | register =>
    simp only [stepCall] at h
    split at h
    · rename_i s hp
      split at h <;> cases h
      · exact ⟨_, .register s hp (by assumption)⟩
      · exact ⟨_, .duplicate s hp (by assumption)⟩
    · cases h
  | lockSink =>
    simp only [stepCall] at h
    split at h
    · rename_i s hp
      split at h
      · rename_i hl
        split at h <;> cases h
        · exact ⟨_, .lockSink s hp hl (by assumption)⟩
        · rename_i hs
          exact ⟨_, .noSink s hp hl (Bool.eq_false_iff.mpr hs)⟩
      · cases h
    · cases h
  | feed =>
    simp only [stepCall] at h
    split at h <;> cases h
    exact ⟨_, .feed _ (by assumption)⟩
  | flushed =>
    simp only [stepCall] at h
    split at h <;> cases h
    exact ⟨_, .flushed _ (by assumption)⟩
  | sendFailed reason =>
    simp only [stepCall] at h
    split at h <;> cases h
    · exact ⟨_, .sendFailed _ reason (.inl (by assumption))⟩
    · exact ⟨_, .sendFailed _ reason (.inr (by assumption))⟩
  | sendTimedOut =>
    simp only [stepCall] at h
    split at h <;> cases h
    · exact ⟨_, .sendTimedOut _ (.inl (by assumption))⟩
    · exact ⟨_, .sendTimedOut _ (.inr (by assumption))⟩
  | unregister =>
    simp only [stepCall] at h
    split at h <;> cases h
    exact ⟨_, .unregister _ _ (by assumption)⟩
  | answered =>
    simp only [stepCall] at h
    split at h <;> cases h
    exact ⟨_, .answered _ _ _ (by assumption) (by assumption)⟩
  | closed =>
    simp only [stepCall] at h
    split at h
    · split at h <;> cases h
      exact ⟨_, .closed _ (by assumption) (by assumption) (by assumption)⟩
    · cases h
  | timedOut =>
    simp only [stepCall] at h
    split at h
    · split at h <;> cases h
      exact ⟨_, .timedOut _ (by assumption) (by assumption) (by assumption)⟩
    · cases h
  | forget =>
    simp only [stepCall] at h
    split at h <;> cases h
    exact ⟨_, .forget _ _ (by assumption)⟩
  | drop =>
    simp only [stepCall] at h
    split at h <;> cases h
    rename_i hf
    exact ⟨_, .drop (Bool.eq_false_iff.mpr hf)⟩

theorem CallTurn.calls {t t' : Transport} {k : CallId} {c c' : Call} {a : CallAction}
    (h : CallTurn t k c a c' t') : t'.calls = Function.update t.calls k (some c') := by
  cases h <;> rfl

theorem callTurn {t t' : Transport} {k : CallId} {c c' : Call} {a : CallAction}
    (h : t.stepCall k c a = some t') (hk : t'.calls k = some c') : CallTurn t k c a c' t' := by
  obtain ⟨d, hd⟩ := exists_callTurn h
  rw [hd.calls, Function.update_self, Option.some.injEq] at hk
  exact hk ▸ hd

theorem pending_of_retained {t : Transport} {s : Nat} {k : CallId}
    (h : t.retained s = some k) : t.pending s = some k := by
  simp only [retained, Option.filter_eq_some_iff] at h
  exact h.1

theorem stepCall_callStep {t t' : Transport} {k : CallId} {c : Call} {a : CallAction}
    (h : t.stepCall k c a = some t') : ∃ c', CallStep t t' k c c' := by
  obtain ⟨c', ht⟩ := exists_callTurn h
  refine ⟨c', ?_⟩
  cases ht with
  | lockOrder hp hfree =>
    exact ⟨rfl, rfl, rfl, rfl, rfl, rfl, rfl, rfl, rfl, .inl rfl, fun _ _ => .inl,
      .inl ⟨rfl, rfl, rfl⟩, by simp [hp, CallPc.unregistered]⟩
  | allocate hp =>
    exact ⟨rfl, rfl, rfl, rfl, rfl, rfl, rfl, rfl, rfl, .inl rfl, fun _ _ => .inl,
      .inr ⟨hp, rfl, rfl, rfl, rfl⟩, by simp [hp, CallPc.unregistered]⟩
  | register s hp hfree =>
    refine ⟨rfl, rfl, rfl, rfl, rfl, rfl, rfl, rfl, rfl, .inr (.inl ⟨s, hp, rfl, rfl⟩),
      fun q j hj => ?_, .inl ⟨rfl, rfl, rfl⟩, by simp [hp, CallPc.unregistered]⟩
    by_cases hq : q = s
    · subst hq
      simp only [Function.update_self, Option.some.injEq] at hj
      exact .inr ⟨hj.symm, hp, rfl, rfl⟩
    · exact .inl (pending_of_retained (by simpa [Function.update_of_ne hq] using hj))
  | duplicate s hp hlive =>
    exact ⟨rfl, rfl, rfl, rfl, rfl, rfl, rfl, rfl, rfl, .inl rfl,
      fun q j hj => .inl (pending_of_retained hj), .inl ⟨rfl, rfl, rfl⟩, fun _ => rfl⟩
  | feed s hp =>
    exact ⟨rfl, rfl, rfl, rfl, rfl, rfl, rfl, rfl, rfl, .inr (.inr ⟨s, hp, rfl, rfl⟩),
      fun _ _ => .inl, .inl ⟨rfl, rfl, rfl⟩, fun _ => rfl⟩
  | unregister s e hp | forget s e hp =>
    exact ⟨rfl, rfl, rfl, rfl, rfl, rfl, rfl, rfl, rfl, .inl rfl,
      fun q j hj => .inl (of_erased hj), .inl ⟨rfl, rfl, rfl⟩, fun _ => rfl⟩
  | _ =>
    exact ⟨rfl, rfl, rfl, rfl, rfl, rfl, rfl, rfl, rfl, .inl rfl, fun _ _ => .inl,
      .inl ⟨rfl, rfl, rfl⟩, fun _ => rfl⟩

theorem callInv_stepCall {t t' : Transport} {k : CallId} {c c' : Call} {a : CallAction}
    (h : t.stepCall k c a = some t') (hk : t'.calls k = some c') (hi : CallInv t k c)
    (hn : t.nextSeq = seqOf t.allocated) : CallInv t' k c' := by
  have hseq : ∀ s, c.pc.seq? = some s → ∀ q, some s = some q → c.seq = some q :=
    fun s hs q hq => hq ▸ hi.seq s hs
  cases callTurn h hk with
  | lockOrder hp hfree =>
    exact hi.move (fun _ => id) (Nat.le_refl _) (by simp [CallPc.seq?])
      (fun _ => hi.fresh (.inl hp)) (fun _ => hi.empty (by simp [hp, CallPc.unregistered]))
      (by simp [CallPc.sent]) trivial (by simp)
  | allocate hp =>
    have hempty : c.inbox = none := hi.empty (by simp [hp, CallPc.unregistered])
    refine ⟨fun s hs => ?_, by simp, fun i hi' => ?_, fun _ => hempty, ?_, by simp [CallPc.sent],
      trivial, by simp⟩
    · simp only [CallPc.seq?, Option.some.injEq] at hs
      simp [Call.seq, ← hs, hn]
    · simp only [Option.some.injEq] at hi'
      simp [← hi']
    · simp [hempty]
  | register s hp hfree =>
    exact hi.move (fun e he => by simp [he]) (Nat.le_refl _)
      (hseq s (by rw [hp, CallPc.seq?])) (by simp) (by simp [CallPc.unregistered])
      (by simp [CallPc.sent]) trivial (by simp)
  | duplicate s hp hlive =>
    refine hi.move (fun _ => id) (Nat.le_refl _) (by simp [CallPc.seq?]) (by simp)
      (by simp [CallPc.unregistered]) (by simp [CallPc.sent]) trivial fun r hr => ?_
    simp only [CallPc.returned.injEq] at hr
    exact .inr ⟨_, hr.symm, rfl⟩
  | lockSink s hp hl hs =>
    exact hi.move (fun _ => id) (Nat.le_refl _) (hseq s (by rw [hp, CallPc.seq?])) (by simp)
      (by simp [CallPc.unregistered]) (by simp [CallPc.sent]) trivial (by simp)
  | noSink s hp hl hs =>
    exact hi.move (fun _ => id) (Nat.le_refl _) (hseq s (by rw [hp, CallPc.seq?])) (by simp)
      (by simp [CallPc.unregistered]) (by simp [CallPc.sent]) (.inl rfl) (by simp)
  | feed s hp =>
    refine hi.move (fun e he => by simp [he]) (Nat.le_refl _)
      (hseq s (by rw [hp, CallPc.seq?])) (by simp) (by simp [CallPc.unregistered])
      (fun q hq _ => ?_) trivial (by simp)
    have hqs : c.seq = some s := hi.seq s (by rw [hp, CallPc.seq?])
    cases hqs.symm.trans hq
    simp
  | flushed s hp =>
    exact hi.move (fun _ => id) (Nat.le_refl _) (hseq s (by rw [hp, CallPc.seq?])) (by simp)
      (by simp [CallPc.unregistered]) (fun q hq _ => hi.wrote q hq (by simp [hp, CallPc.sent]))
      trivial (by simp)
  | sendFailed s reason hp =>
    exact hi.move (fun _ => id) (Nat.le_refl _)
      (hseq s (by rcases hp with hp | hp <;> rw [hp, CallPc.seq?])) (by simp)
      (by simp [CallPc.unregistered]) (by simp [CallPc.sent]) (.inr (.inr ⟨reason, rfl⟩)) (by simp)
  | sendTimedOut s hp =>
    exact hi.move (fun _ => id) (Nat.le_refl _)
      (hseq s (by rcases hp with hp | hp <;> rw [hp, CallPc.seq?])) (by simp)
      (by simp [CallPc.unregistered]) (by simp [CallPc.sent]) (.inr (.inl rfl)) (by simp)
  | unregister s e hp =>
    refine hi.move (fun _ => id) (Nat.le_refl _) (by simp [CallPc.seq?]) (by simp)
      (by simp [CallPc.unregistered]) (by simp [CallPc.sent]) trivial fun r hr => ?_
    simp only [CallPc.returned.injEq] at hr
    have hcause : Transport.SendFailure c.opcode e := by simpa [hp] using hi.failure
    exact .inr ⟨e, hr.symm, hcause.transport⟩
  | forget s e hp =>
    refine hi.move (fun _ => id) (Nat.le_refl _) (by simp [CallPc.seq?]) (by simp)
      (by simp [CallPc.unregistered]) (by simp [CallPc.sent]) trivial fun r hr => ?_
    simp only [CallPc.returned.injEq] at hr
    have hcause : e = .connectionClosed ∨ e = .timeout c.opcode := by simpa [hp] using hi.failure
    rcases hcause with rfl | rfl <;> exact .inr ⟨_, hr.symm, rfl⟩
  | answered s n p hp hin =>
    have hs : c.seq = some s := hi.seq s (by rw [hp, CallPc.seq?])
    refine hi.move (fun _ => id) (Nat.le_refl _) (by simp [CallPc.seq?]) (by simp)
      (by simp [CallPc.unregistered]) (by simp [CallPc.sent]) trivial fun r hr => ?_
    simp only [CallPc.returned.injEq] at hr
    exact .inl ⟨n, p, s, hin, hs, hi.wrote s hs (by simp [hp, CallPc.sent]), hr.symm⟩
  | closed s hp hin hgone =>
    exact hi.move (fun _ => id) (Nat.le_refl _) (hseq s (by rw [hp, CallPc.seq?])) (by simp)
      (by simp [CallPc.unregistered]) (by simp [CallPc.sent]) (.inl rfl) (by simp)
  | timedOut s hp hin hgone =>
    exact hi.move (fun _ => id) (Nat.le_refl _) (hseq s (by rw [hp, CallPc.seq?])) (by simp)
      (by simp [CallPc.unregistered]) (by simp [CallPc.sent]) (.inr rfl) (by simp)
  | drop hf =>
    exact hi.move (fun _ => id) (Nat.le_refl _) (by simp [CallPc.seq?]) (by simp)
      (by simp [CallPc.unregistered]) (by simp [CallPc.sent]) trivial (by simp)

theorem CallStep.log_cases {t t' : Transport} {k : CallId} {c c' : Call}
    (hs : CallStep t t' k c c') : ∃ new, t'.log = t.log ++ new ∧
      (∀ n p, TransportEvent.read n p ∉ new) ∧ (∀ j n p, TransportEvent.answered j n p ∉ new) ∧
      (new = [] ∨ ∃ e, new = [e] ∧ ∀ l, TransportEvent.justified l e) := by
  rcases hs.log with hl | ⟨s, _, _, hl⟩ | ⟨s, _, _, hl⟩
  · exact ⟨[], by simpa using hl, by simp, by simp, .inl rfl⟩
  · exact ⟨_, hl, by simp, by simp, .inr ⟨_, rfl, fun _ => trivial⟩⟩
  · exact ⟨_, hl, by simp, by simp, .inr ⟨_, rfl, fun _ => trivial⟩⟩

theorem CallStep.self {t t' : Transport} {k : CallId} {c c' : Call} (hs : CallStep t t' k c c') :
    t'.calls k = some c' := by
  simp [hs.calls]

theorem CallStep.other {t t' : Transport} {k j : CallId} {c c' : Call} (hs : CallStep t t' k c c')
    (hj : j ≠ k) : t'.calls j = t.calls j := by
  simp [hs.calls, Function.update_of_ne hj]

/-- A call keeps the number that it has. -/
theorem CallStep.keeps_seq {t t' : Transport} {k : CallId} {c c' : Call} {s : Nat}
    (hs : CallStep t t' k c c') (hci : CallInv t k c) (hc : c.seq = some s) : c'.seq = some s := by
  rcases hs.turn with ⟨ht, -⟩ | ⟨hp, -⟩
  · simpa [Call.seq, ht] using hc
  · simp [Call.seq, hci.fresh (.inr hp)] at hc

/-- A number that the step allocates is larger than every turn before. -/
theorem CallStep.turn_ne {t t' : Transport} {k j : CallId} {c c' d : Call} {i : Nat}
    (hs : CallStep t t' k c c') (hi : TransportInv t) (hc : t.calls k = some c) (hjk : j ≠ k)
    (hj : t'.calls j = some d) (hd : d.turn = some i) : c'.turn ≠ some i := by
  intro hd'
  rw [hs.other hjk] at hj
  rcases hs.turn with ⟨ht, -⟩ | ⟨-, -, ht, -⟩
  · exact hjk (hi.turns j k d c i hj hc hd (ht ▸ hd'))
  · have hlt := (hi.calls j d hj).turn i hd
    rw [ht] at hd'
    cases hd'
    omega

theorem CallStep.turns {t t' : Transport} {k j j' : CallId} {c c' d d' : Call} {i : Nat}
    (hs : CallStep t t' k c c') (hi : TransportInv t) (hc : t.calls k = some c)
    (hj : t'.calls j = some d) (hj' : t'.calls j' = some d') (hd : d.turn = some i)
    (hd' : d'.turn = some i) : j = j' := by
  by_cases hjk : j = k
  · by_cases hjk' : j' = k
    · rw [hjk, hjk']
    · subst hjk
      cases hs.self.symm.trans hj
      exact absurd hd (hs.turn_ne hi hc hjk' hj' hd')
  · by_cases hjk' : j' = k
    · subst hjk'
      cases hs.self.symm.trans hj'
      exact absurd hd' (hs.turn_ne hi hc hjk hj hd)
    · exact hi.turns j j' d d' i (hs.other hjk ▸ hj) (hs.other hjk' ▸ hj') hd hd'

theorem CallStep.covered {t t' : Transport} {k : CallId} {c c' : Call} {i : Nat}
    (hs : CallStep t t' k c c') (hi : TransportInv t) (hc : t.calls k = some c)
    (hlt : i < t'.allocated) : ∃ j d, t'.calls j = some d ∧ d.turn = some i := by
  have old : i < t.allocated → ∃ j d, t'.calls j = some d ∧ d.turn = some i := by
    intro hlt'
    obtain ⟨j, d, hj, hd⟩ := hi.covered i hlt'
    by_cases hjk : j = k
    · subst hjk
      cases hc.symm.trans hj
      rcases hs.turn with ⟨ht, -⟩ | ⟨hp, -⟩
      · exact ⟨j, c', hs.self, ht ▸ hd⟩
      · simp [(hi.calls j c hc).fresh (.inr hp)] at hd
    · exact ⟨j, d, hs.other hjk ▸ hj, hd⟩
  rcases hs.turn with ⟨-, ha, -⟩ | ⟨-, -, ht, ha, -⟩
  · exact old (ha ▸ hlt)
  · by_cases he : i = t.allocated
    · exact ⟨k, c', hs.self, he ▸ ht⟩
    · exact old (by omega)

theorem transportInv_call {t t' : Transport} {k : CallId} {c : Call} {a : CallAction}
    (hi : TransportInv t) (hc : t.calls k = some c) (h : t.stepCall k c a = some t') :
    TransportInv t' := by
  obtain ⟨c', hs⟩ := stepCall_callStep h
  obtain ⟨new, hl, hread, hans, hjust⟩ := hs.log_cases
  have hci := hi.calls k c hc
  have hmem : ∀ e, e ∈ t.log → e ∈ t'.log := fun e he => by simp [hl, he]
  have hread' : ∀ n p, TransportEvent.read n p ∈ t'.log → TransportEvent.read n p ∈ t.log :=
    fun n p he => by simpa [hl, hread] using he
  have hans' : ∀ j n p, TransportEvent.answered j n p ∈ t'.log →
      TransportEvent.answered j n p ∈ t.log := fun j n p he => by simpa [hl, hans] using he
  have halloc : t.allocated ≤ t'.allocated := by rcases hs.turn with h | h <;> omega
  have hci' := callInv_stepCall h hs.self hci hi.nextSeq
  refine ⟨?_, fun j d hj => ?_, fun j d hj => ?_, fun j j' d d' i hj hj' hd hd' =>
    hs.turns hi hc hj hj' hd hd', fun i hlt => hs.covered hi hc hlt, fun s j hj => ?_,
    fun n p he => ?_, fun n p he => ?_, fun j n p he => ?_, fun j j' n p p' he he' => ?_, ?_⟩
  · rcases hs.turn with ⟨-, ha, hn⟩ | ⟨-, -, -, ha, hn⟩
    · rw [ha, hn, hi.nextSeq]
    · rw [ha, hn, hi.nextSeq]
      simp only [seqOf]
      omega
  · rw [hs.started]
    by_cases hjk : j = k
    · exact hjk ▸ hi.started k c hc
    · exact hi.started j d (hs.other hjk ▸ hj)
  · by_cases hjk : j = k
    · subst hjk
      cases hs.self.symm.trans hj
      exact hci'
    · exact (hi.calls j d (hs.other hjk ▸ hj)).mono hmem halloc
  · rcases hs.pending s j hj with hold | ⟨rfl, hp, hp', hlog⟩
    · obtain ⟨d, hd, hds, hdi, hdu, hdr⟩ := hi.pending s j hold
      by_cases hjk : j = k
      · subst hjk
        cases hc.symm.trans hd
        exact ⟨c', hs.self, hs.keeps_seq hci hds, hs.inbox ▸ hdi, hs.forward hdu, hmem _ hdr⟩
      · exact ⟨d, hs.other hjk ▸ hd, hds, hdi, hdu, hmem _ hdr⟩
    · refine ⟨c', hs.self, hci'.seq s (by simp [hp', CallPc.seq?]), ?_, by
        simp [hp', CallPc.unregistered], by simp [hlog]⟩
      rw [hs.inbox]
      exact hci.empty (by simp [hp, CallPc.unregistered])
  · rw [hs.reads]
    exact hi.reads n p (hread' n p he)
  · rw [hs.receiving] at he
    obtain ⟨hr, hq, hno⟩ := hi.receiving n p he
    exact ⟨hmem _ hr, hq, fun j q hj => hno j q (hans' j n q hj)⟩
  · obtain ⟨hr, hq, d, hd, hdi, hds⟩ := hi.answered j n p (hans' j n p he)
    refine ⟨hmem _ hr, hq, ?_⟩
    by_cases hjk : j = k
    · subst hjk
      cases hc.symm.trans hd
      exact ⟨c', hs.self, hs.inbox ▸ hdi, hs.keeps_seq hci hds⟩
    · exact ⟨d, hs.other hjk ▸ hd, hdi, hds⟩
  · exact hi.once j j' n p p' (hans' j n p he) (hans' j' n p' he')
  · rw [hl]
    rcases hjust with rfl | ⟨e, rfl, he⟩
    · simpa using hi.order
    · exact History.justified_snoc hi.order (he _)

theorem transportInv_quiet {t t' : Transport} (hi : TransportInv t) (hcalls : t'.calls = t.calls)
    (hstarted : t'.started = t.started) (halloc : t'.allocated = t.allocated)
    (hnext : t'.nextSeq = t.nextSeq) (hreads : t'.reads = t.reads)
    (hrec : ∀ f, t'.receiving = some f → t.receiving = some f)
    (hpending : ∀ s j, t'.pending s = some j → t.pending s = some j)
    (hlog : t'.log = t.log ∨ ∃ n p, t'.log = t.log ++ [.acked n p]) : TransportInv t' := by
  have hmem : ∀ e, e ∈ t.log → e ∈ t'.log := by
    intro e he
    rcases hlog with h | ⟨n, p, h⟩ <;> simp [h, he]
  have hread : ∀ n p, TransportEvent.read n p ∈ t'.log → TransportEvent.read n p ∈ t.log := by
    intro n p he
    rcases hlog with h | ⟨m, q, h⟩ <;> simpa [h] using he
  have hans : ∀ j n p, TransportEvent.answered j n p ∈ t'.log →
      TransportEvent.answered j n p ∈ t.log := by
    intro j n p he
    rcases hlog with h | ⟨m, q, h⟩ <;> simpa [h] using he
  refine ⟨by rw [hnext, halloc, hi.nextSeq], fun k c hk => ?_, fun k c hk => ?_,
    fun k k' c c' i hk hk' => ?_, fun i hlt => ?_, fun s k hk => ?_, fun n p he => ?_,
    fun n p he => ?_, fun k n p he => ?_, fun k k' n p p' he he' => ?_, ?_⟩
  · exact hstarted ▸ hi.started k c (hcalls ▸ hk)
  · exact (hi.calls k c (hcalls ▸ hk)).mono hmem (Nat.le_of_eq halloc.symm)
  · exact hi.turns k k' c c' i (hcalls ▸ hk) (hcalls ▸ hk')
  · rw [hcalls]
    exact hi.covered i (halloc ▸ hlt)
  · obtain ⟨c, hc, hs, hin, hu, hr⟩ := hi.pending s k (hpending s k hk)
    exact ⟨c, hcalls ▸ hc, hs, hin, hu, hmem _ hr⟩
  · exact hreads ▸ hi.reads n p (hread n p he)
  · obtain ⟨hr, hq, hno⟩ := hi.receiving n p (hrec _ he)
    exact ⟨hmem _ hr, hq, fun k q hk => hno k q (hans k n q hk)⟩
  · obtain ⟨hr, hq, hc⟩ := hi.answered k n p (hans k n p he)
    exact ⟨hmem _ hr, hq, hcalls ▸ hc⟩
  · exact hi.once k k' n p p' (hans k n p he) (hans k' n p' he')
  · rcases hlog with h | ⟨n, p, h⟩
    · exact h ▸ hi.order
    · exact h ▸ History.justified_snoc hi.order trivial

theorem transportInv_ack {t t' : Transport} {a : AckAction} (hi : TransportInv t)
    (h : t.stepAck a = some t') : TransportInv t' := by
  cases a with
  | start n p =>
    simp only [stepAck] at h
    split at h <;> cases h
    exact transportInv_quiet hi rfl rfl rfl rfl rfl (fun _ => id) (fun _ _ => id) (.inl rfl)
  | lockSink =>
    simp only [stepAck] at h
    split at h
    · split at h
      · split at h <;> cases h
        all_goals
          exact transportInv_quiet hi rfl rfl rfl rfl rfl (fun _ => id) (fun _ _ => id) (.inl rfl)
      · cases h
    · cases h
  | feed =>
    simp only [stepAck] at h
    split at h <;> cases h
    rename_i n p _
    exact transportInv_quiet hi rfl rfl rfl rfl rfl (fun _ => id) (fun _ _ => id)
      (.inr ⟨n, p, rfl⟩)
  | finish =>
    simp only [stepAck] at h
    split at h <;> cases h
    all_goals
      exact transportInv_quiet hi rfl rfl rfl rfl rfl (fun _ => id) (fun _ _ => id) (.inl rfl)
  | drop =>
    simp only [stepAck, Option.some.injEq] at h
    subst h
    exact transportInv_quiet hi rfl rfl rfl rfl rfl (fun _ => id) (fun _ _ => id) (.inl rfl)

theorem transportInv_start {t : Transport} (hi : TransportInv t) (opcode : Nat) (payload : Value) :
    TransportInv
      { t.put t.started
          { opcode := opcode, payload := payload, pc := .order, turn := none, inbox := none } with
        started := t.started + 1 } := by
  have hnew : t.calls t.started = none := by
    cases hc : t.calls t.started with
    | none => rfl
    | some c => exact absurd (hi.started _ c hc) (Nat.lt_irrefl _)
  have hold : ∀ k c, t.calls k = some c → k ≠ t.started := by
    rintro k c hk rfl
    simp [hnew] at hk
  refine ⟨hi.nextSeq, fun k c hk => ?_, fun k c hk => ?_, fun k k' c c' i hk hk' hc hc' => ?_,
    fun i hlt => ?_, fun s k hk => ?_, hi.reads, hi.receiving, fun k n p he => ?_, hi.once,
    hi.order⟩
  · by_cases he : k = t.started
    · simp [he]
    · exact Nat.lt_succ_of_lt (hi.started k c (by simpa [Function.update_of_ne he] using hk))
  · by_cases he : k = t.started
    · simp only [he, put_calls, Function.update_self, Option.some.injEq] at hk
      subst hk
      exact ⟨by simp [CallPc.seq?], fun _ => rfl, by simp, fun _ => rfl, by simp,
        by simp [CallPc.sent], by simp, by simp⟩
    · exact (hi.calls k c (by simpa [Function.update_of_ne he] using hk)).mono (fun _ he => he)
        (Nat.le_refl t.allocated)
  · by_cases he : k = t.started
    · simp only [he, put_calls, Function.update_self, Option.some.injEq] at hk
      simp [← hk] at hc
    · by_cases he' : k' = t.started
      · simp only [he', put_calls, Function.update_self, Option.some.injEq] at hk'
        simp [← hk'] at hc'
      · exact hi.turns k k' c c' i (by simpa [Function.update_of_ne he] using hk)
          (by simpa [Function.update_of_ne he'] using hk') hc hc'
  · obtain ⟨k, c, hk, hc⟩ := hi.covered i hlt
    exact ⟨k, c, by simpa [Function.update_of_ne (hold k c hk)] using hk, hc⟩
  · obtain ⟨c, hc, hrest⟩ := hi.pending s k hk
    exact ⟨c, by simpa [Function.update_of_ne (hold k c hc)] using hc, hrest⟩
  · obtain ⟨hr, hq, c, hc, hrest⟩ := hi.answered k n p he
    exact ⟨hr, hq, c, by simpa [Function.update_of_ne (hold k c hc)] using hc, hrest⟩

theorem transportInv_read {t : Transport} (hi : TransportInv t) (p : Packet) :
    TransportInv
      { t.record (.read t.reads p) with
        reads := t.reads + 1
        receiving := if p.isRequest then none else some (t.reads, p) } := by
  have hunread : ∀ k n q, TransportEvent.answered k n q ∈ t.log → n < t.reads :=
    fun k n q he => hi.reads n q (hi.answered k n q he).1
  refine ⟨hi.nextSeq, hi.started, fun k c hk => ?_, hi.turns, hi.covered, fun s k hk => ?_,
    fun n q he => ?_, fun n q he => ?_, fun k n q he => ?_, fun k k' n q q' he he' => ?_, ?_⟩
  · exact (hi.calls k c hk).mono (fun e he => List.mem_append_left _ he) (Nat.le_refl t.allocated)
  · obtain ⟨c, hc, hs, hin, hu, hr⟩ := hi.pending s k hk
    exact ⟨c, hc, hs, hin, hu, by simp [hr]⟩
  · simp only [record_log, List.mem_append, List.mem_singleton, TransportEvent.read.injEq] at he
    rcases he with he | ⟨rfl, -⟩
    · exact Nat.lt_succ_of_lt (hi.reads n q he)
    · exact Nat.lt_succ_self _
  · cases hq : p.isRequest with
    | true => simp [hq] at he
    | false =>
      simp only [hq, Bool.false_eq_true, if_false, Option.some.injEq, Prod.mk.injEq] at he
      obtain ⟨rfl, rfl⟩ := he
      refine ⟨by simp, hq, fun k r hk => ?_⟩
      exact absurd (hunread k _ r (by simpa using hk)) (Nat.lt_irrefl _)
  · obtain ⟨hr, hq, hc⟩ := hi.answered k n q (by simpa using he)
    exact ⟨by simp [hr], hq, hc⟩
  · exact hi.once k k' n q q' (by simpa using he) (by simpa using he')
  · exact History.justified_snoc hi.order trivial

theorem transportInv_deliver {t : Transport} {n : Nat} {p : Packet} (hi : TransportInv t)
    (hr : t.receiving = some (n, p)) :
    TransportInv { t.deliver n p with receiving := none } := by
  unfold deliver
  cases hk : t.pending p.seq with
  | none =>
    exact transportInv_quiet hi rfl rfl rfl rfl rfl (by simp) (fun _ _ => id) (.inl rfl)
  | some k =>
    obtain ⟨c, hc, hs, hin, hu, hreg⟩ := hi.pending p.seq k hk
    simp only [hc]
    split
    · obtain ⟨hread, hq, hno⟩ := hi.receiving n p hr
      have hci := hi.calls k c hc
      have hother : ∀ j, j ≠ k →
          Function.update t.calls k (some { c with inbox := some (n, p) }) j = t.calls j :=
        fun j hj => Function.update_of_ne hj _ _
      have hmem : ∀ e, e ∈ t.log → e ∈ t.log ++ [TransportEvent.answered k n p] :=
        fun e he => List.mem_append_left _ he
      refine ⟨hi.nextSeq, fun j d hj => ?_, fun j d hj => ?_, fun j j' d d' i hj hj' hd hd' => ?_,
        fun i hlt => ?_, fun s j hj => ?_, fun m q he => ?_, by simp, fun j m q he => ?_,
        fun j j' m q q' he he' => ?_, ?_⟩
      · by_cases hjk : j = k
        · exact hjk ▸ hi.started k c hc
        · exact hi.started j d (hother j hjk ▸ hj)
      · by_cases hjk : j = k
        · subst hjk
          simp only [record_calls, put_calls, Function.update_self, Option.some.injEq] at hj
          subst hj
          refine ⟨hci.seq, hci.fresh, hci.turn, fun h => ?_, fun m q he => ?_, ?_, hci.failure,
            fun r hret => ?_⟩
          · simp [hu] at h
          · simp only [Option.some.injEq, Prod.mk.injEq] at he
            simp [he.1, he.2]
          · exact fun s hs' hp => hmem _ (hci.wrote s hs' hp)
          · -- a listening call has not returned
            simp only at hret
            simp_all [CallPc.listening]
        · exact (hi.calls j d (hother j hjk ▸ hj)).mono hmem (Nat.le_refl _)
      · have turn : ∀ j d, Function.update t.calls k (some { c with inbox := some (n, p) }) j =
            some d → ∃ d', t.calls j = some d' ∧ d'.turn = d.turn := by
          intro j d hj
          by_cases hjk : j = k
          · subst hjk
            simp only [Function.update_self, Option.some.injEq] at hj
            exact ⟨c, hc, by rw [← hj]⟩
          · exact ⟨d, hother j hjk ▸ hj, rfl⟩
        obtain ⟨e, he, het⟩ := turn j d hj
        obtain ⟨e', he', het'⟩ := turn j' d' hj'
        exact hi.turns j j' e e' i he he' (het ▸ hd) (het' ▸ hd')
      · obtain ⟨j, d, hj, hd⟩ := hi.covered i hlt
        by_cases hjk : j = k
        · subst hjk
          cases hc.symm.trans hj
          exact ⟨j, { c with inbox := some (n, p) }, by simp, hd⟩
        · exact ⟨j, d, (hother j hjk).trans hj, hd⟩
      · obtain ⟨d, hd, hds, hdi, hdu, hdr⟩ := hi.pending s j (of_erased hj)
        have hjk : j ≠ k := by
          rintro rfl
          cases hc.symm.trans hd
          -- the only entry of the call was the one just removed
          have : s = p.seq := Option.some.inj (hds.symm.trans hs)
          simp [this] at hj
        exact ⟨d, (hother j hjk).trans hd, hds, hdi, hdu, hmem _ hdr⟩
      · exact hi.reads m q (by simpa using he)
      · simp only [record_log, put_log, List.mem_append, List.mem_singleton,
          TransportEvent.answered.injEq] at he
        rcases he with he | ⟨rfl, rfl, rfl⟩
        · obtain ⟨hmr, hmq, d, hd, hdi, hds⟩ := hi.answered j m q he
          refine ⟨hmem _ hmr, hmq, d, (hother j ?_).trans hd, hdi, hds⟩
          rintro rfl
          cases hc.symm.trans hd
          simp [hin] at hdi
        · exact ⟨hmem _ hread, hq, { c with inbox := some (m, q) }, by simp, rfl, hs⟩
      · simp only [record_log, put_log, List.mem_append, List.mem_singleton,
          TransportEvent.answered.injEq] at he he'
        rcases he with he | ⟨rfl, rfl, rfl⟩
        · rcases he' with he' | ⟨rfl, rfl, rfl⟩
          · exact hi.once j j' m q q' he he'
          · exact absurd he (hno j q)
        · rcases he' with he' | ⟨rfl, -, rfl⟩
          · exact absurd he' (hno j' q')
          · rfl
      · exact History.justified_snoc hi.order ⟨hreg, hread⟩
    · exact transportInv_quiet hi rfl rfl rfl rfl rfl (by simp)
        (fun _ _ => of_erased) (.inl rfl)

theorem transportInv_step {t t' : Transport} {a : TransportAction} (h : t.step a = some t')
    (hi : TransportInv t) : TransportInv t' := by
  cases a with
  | start opcode payload =>
    cases h
    exact transportInv_start hi opcode payload
  | call k a =>
    simp only [step, Option.bind_eq_some_iff] at h
    obtain ⟨c, hc, h⟩ := h
    exact transportInv_call hi hc h
  | ack a => exact transportInv_ack hi h
  | read p =>
    simp only [step, Option.ite_none_right_eq_some, Option.some.injEq] at h
    obtain ⟨_, rfl⟩ := h
    exact transportInv_read hi p
  | receiveResponse =>
    simp only [step, Option.map_eq_some_iff] at h
    obtain ⟨⟨n, p⟩, hr, rfl⟩ := h
    exact transportInv_deliver hi hr
  | abandon =>
    cases h
    exact transportInv_quiet hi rfl rfl rfl rfl rfl (by simp) (fun _ _ => id) (.inl rfl)
  | install | takeSink =>
    simp only [step, Option.ite_none_right_eq_some, Option.some.injEq] at h
    obtain ⟨_, rfl⟩ := h
    exact transportInv_quiet hi rfl rfl rfl rfl rfl (fun _ => id) (fun _ _ => id) (.inl rfl)
  | clear =>
    cases h
    exact transportInv_quiet hi rfl rfl rfl rfl rfl (fun _ => id) (by simp) (.inl rfl)

theorem transportInv_new : TransportInv new := by
  refine ⟨rfl, ?_, ?_, ?_, ?_, ?_, ?_, ?_, ?_, ?_, History.justified_nil⟩ <;> simp [new]

theorem transportInv_of_reachable {t : Transport} (h : automaton.Reachable t) : TransportInv t :=
  h.invariant (fun _ hi => hi ▸ transportInv_new) fun _ _ _ => transportInv_step

end Transport

end Maxrs
