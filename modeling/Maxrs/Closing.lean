import Mathlib.Tactic.IntervalCases
import Maxrs.SequenceOrder
set_option autoImplicit false

/-! `Transport::close`, whose two critical sections are steps of their own, against invokes at
any point. -/
namespace Maxrs

def TransportEvent.isFrame : TransportEvent → Bool
  | .wrote _ _ | .acked _ _ => true
  | _ => false

/-- A timer of the call has fired: the one of its send, or the one of its response. -/
def CallPc.expired : CallPc → Bool
  | .unregister _ (.timeout _) | .forget _ (.timeout _) => true
  | _ => false

/-- A call that has not returned and is not dropped, without a response and a fired timer. -/
def Call.unresolved (c : Call) : Bool :=
  !c.pc.finished && c.inbox.isNone && !c.pc.expired

namespace Transport

/-- `connect` is over before `close` begins. -/
def NoInstall (_ : Transport) (a : TransportAction) : Prop := a ≠ .install

def Polled (_ : Transport) (a : TransportAction) : Prop := ∃ k b, a = .call k b ∧ b ≠ .drop

/-- A run of `close`: `pending` is cleared in the state `t₀`, and the sink taken in `t`. -/
structure Closes (t₀ t₁ t t₂ : Transport) : Prop where
  reachable : automaton.Reachable t₀
  clear : automaton.step t₀ .clear = some t₁
  between : automaton.Path NoInstall t₁ t
  take : automaton.step t .takeSink = some t₂

def Awaits (t : Transport) (k : CallId) : Prop :=
  ∃ c s, t.calls k = some c ∧ c.pc = .await s ∧ c.inbox = none ∧ t.pending s = some k

def SendFailed (t : Transport) (k : CallId) : Prop :=
  ∃ c s reason, t.calls k = some c ∧ c.inbox = none ∧ c.pc = .unregister s (.webSocket reason)

def Quiesced (t : Transport) : Prop := ∀ k, ¬ t.Awaits k ∧ ¬ t.SendFailed k

/-- What `close`, which has returned in `t₂`, promises of a later state: no frame has been
written, and the calls it found unresolved and all later ones return `ConnectionClosed` without
the help of a timer. -/
structure ResolvedSince (t₂ u : Transport) : Prop where
  silent : ∃ new, u.log = t₂.log ++ new ∧ ∀ e ∈ new, e.isFrame = false
  closed : ∀ k c, u.calls k = some c →
    (t₂.started ≤ k ∨ ∃ d, t₂.calls k = some d ∧ d.unresolved = true) →
    (∀ r, c.pc = .returned r → r = .error .connectionClosed) ∧
    u.step (.call k .timedOut) = none ∧
    (c.pc.finished = false → ∃ v c', automaton.Path Polled u v ∧ v.calls k = some c' ∧
      c'.pc = .returned (.error .connectionClosed))

def Ending (t : Transport) (k : CallId) (c : Call) : Prop :=
  match c.pc with
  | .order | .allocate | .register _ | .sink _ | .dropped => True
  | .unregister _ e | .forget _ e => e = .connectionClosed
  | .await s => c.inbox = none ∧ t.pending s ≠ some k
  | .returned r => r = .error .connectionClosed
  | .feed _ | .flush _ => False

structure ClosedInv (t₂ u : Transport) : Prop where
  sink : u.sink = false
  sinkLock : u.sinkLock = none
  log : ∃ new, u.log = t₂.log ++ new ∧ ∀ e ∈ new, e.isFrame = false
  waiters : ∀ s k c, u.pending s = some k → u.calls k = some c → c.pc.listening = true →
    c.pc.holdsOrder = true
  ending : ∀ k c, u.calls k = some c →
    (t₂.started ≤ k ∨ ∃ d, t₂.calls k = some d ∧ d.unresolved = true) → u.Ending k c

variable {t₀ t₁ t t₂ u v : Transport} {k : CallId} {c c' : Call}

theorem no_sender (hr : automaton.Reachable u) (hl : u.sinkLock = none) :
    (∀ k c, u.calls k = some c → c.pc.holdsSink = false) ∧ u.ack.holdsSink = false := by
  have hlock := (lockInv_of_reachable hr).sink
  rw [hl] at hlock
  refine ⟨fun k c hk => ?_, hlock.free .ack⟩
  simpa [holdsSink, hk] using hlock.free (.call k)

theorem Ending.of_same (h : u.Ending k c) (hpc : c'.pc = c.pc)
    (hawait : ∀ s, c.pc = .await s → c.inbox = none → u.pending s ≠ some k →
      c'.inbox = none ∧ v.pending s ≠ some k) : v.Ending k c' := by
  unfold Ending at h ⊢
  rw [hpc]
  cases hp : c.pc <;> simp only [hp] at h ⊢ <;> first | exact h | skip
  exact hawait _ hp h.1 h.2

theorem closedInv_take (hr : automaton.Reachable t) (h : t.step .takeSink = some t₂)
    (hq : t.Quiesced) : ClosedInv t₂ t₂ := by
  simp only [step, Option.ite_none_right_eq_some, Option.some.injEq] at h
  obtain ⟨hlock, rfl⟩ := h
  have ht := transportInv_of_reachable hr
  refine ⟨rfl, hlock, ⟨[], by simp⟩, fun s k c hp hk hl => ?_, fun k c hk hsince => ?_⟩
  · obtain ⟨d, hd, hseq, hin, hreg, -⟩ := ht.pending s k hp
    cases hd.symm.trans hk
    cases hpc : c.pc with
    | await q =>
      have hqs : c.seq = some q := (ht.calls k c hk).seq q (by rw [hpc]; rfl)
      cases hseq.symm.trans hqs
      exact absurd ⟨c, s, hk, hpc, hin, hp⟩ (hq k).1
    | sink q | feed q | flush q | unregister q e => rfl
    | _ => simp [hpc, CallPc.listening, CallPc.unregistered] at hl hreg
  · have hun : c.unresolved = true := by
      rcases hsince with hnew | ⟨d, hd, hun⟩
      · exact absurd (ht.started k c hk) (Nat.not_lt.mpr hnew)
      · cases hd.symm.trans hk
        exact hun
    simp only [Call.unresolved, Bool.and_eq_true, Bool.not_eq_true',
      Option.isNone_iff_eq_none] at hun
    obtain ⟨⟨hfin, hin⟩, hexp⟩ := hun
    unfold Ending
    cases hpc : c.pc with
    | feed q | flush q =>
      have hno := (no_sender hr hlock).1 k c hk
      simp [hpc, CallPc.holdsSink] at hno
    | unregister q e =>
      have hcause : SendFailure c.opcode e := by simpa [hpc] using (ht.calls k c hk).failure
      rcases hcause with rfl | rfl | ⟨reason, rfl⟩
      · rfl
      · simp [hpc, CallPc.expired] at hexp
      · exact absurd ⟨c, q, reason, hk, hin, hpc⟩ (hq k).2
    | forget q e =>
      have hcause : e = .connectionClosed ∨ e = .timeout c.opcode := by
        simpa [hpc] using (ht.calls k c hk).failure
      rcases hcause with rfl | rfl
      · rfl
      · simp [hpc, CallPc.expired] at hexp
    | await q => exact ⟨hin, fun hp => (hq k).1 ⟨c, q, hk, hpc, hin, hp⟩⟩
    | returned r => simp [hpc, CallPc.finished] at hfin
    | _ => trivial

theorem listening_stepCall {a : CallAction} (h : u.stepCall k c a = some v)
    (hk : v.calls k = some c') (hc : c.pc.holdsSink = false) (hl : c'.pc.listening = true) :
    c'.pc.holdsOrder = true := by
  cases callTurn h hk with
  | flushed s hpc => simp [hpc, CallPc.holdsSink] at hc
  | allocate _ | register _ _ _ | lockSink _ _ _ _ | noSink _ _ _ _ | feed _ _ | sendFailed _ _ _
  | sendTimedOut _ _ => rfl
  | lockOrder _ _ | duplicate _ _ _ | unregister _ _ _ | answered _ _ _ _ _ | closed _ _ _ _
  | timedOut _ _ _ _ | forget _ _ _ | drop _ => cases hl

theorem sinkLock_stepCall {a : CallAction} (h : u.stepCall k c a = some v) (hs : u.sink = false)
    (hl : u.sinkLock = none) : v.sinkLock = none := by
  obtain ⟨c', ht⟩ := exists_callTurn h
  cases ht with
  | lockSink s _ _ hs' => cases hs.symm.trans hs'
  | flushed _ _ | sendFailed _ _ _ | sendTimedOut _ _ => rfl
  | drop _ =>
    show (if c.pc.holdsSink then none else u.sinkLock) = none
    rw [hl, ite_self]
  | _ => exact hl

theorem ClosedInv.no_duplicate (hi : ClosedInv t₂ u) (hr : automaton.Reachable u) {s : Nat}
    (hc : u.calls k = some c) (hpc : c.pc = .register s) : u.retained s = none := by
  cases hret : u.retained s with
  | none => rfl
  | some j =>
    simp only [retained, Option.filter_eq_some_iff] at hret
    obtain ⟨hp, hl⟩ := hret
    have ht := transportInv_of_reachable hr
    obtain ⟨d, hd, -⟩ := ht.pending s j hp
    have hdl : d.pc.listening = true := by simpa [listening, hd] using hl
    have hown : u.sendOrder = some j :=
      ((lockInv_of_reachable hr).order_owner hd).mp (hi.waiters s j d hp hd hdl)
    have hown' : u.sendOrder = some k :=
      ((lockInv_of_reachable hr).order_owner hc).mp (by rw [hpc]; rfl)
    cases hown.symm.trans hown'
    exact absurd hp (pending_ne_of_unregistered ht hc (by rw [hpc]; rfl) s)

theorem ending_stepCall {a : CallAction} (hi : ClosedInv t₂ u) (hr : automaton.Reachable u)
    (hc : u.calls k = some c) (h : u.stepCall k c a = some v) (hk : v.calls k = some c')
    (he : u.Ending k c) : v.Ending k c' := by
  have hno := (no_sender hr hi.sinkLock).1 k c hc
  cases callTurn h hk with
  | lockOrder _ _ | allocate _ | register _ _ _ | drop _ => trivial
  | duplicate s hpc hlive => exact absurd (hi.no_duplicate hr hc hpc) hlive
  | lockSink s _ _ hs => cases hi.sink.symm.trans hs
  | noSink s _ _ _ => rfl
  | feed s hpc | flushed s hpc => simp [hpc, CallPc.holdsSink] at hno
  | sendFailed s reason hpc | sendTimedOut s hpc =>
    rcases hpc with hpc | hpc <;> simp [hpc, CallPc.holdsSink] at hno
  | unregister s e hpc | forget s e hpc =>
    have herr : e = .connectionClosed := by simpa [Ending, hpc] using he
    simp [Ending, herr]
  | answered s n p hpc hin => simp [Ending, hpc, hin] at he
  | closed s _ _ _ => rfl
  | timedOut s hpc hin hthere =>
    have hgone : u.pending s ≠ some k := by
      simp only [Ending, hpc] at he
      exact he.2
    exact absurd hthere hgone

theorem closedInv_call {a : CallAction} (hi : ClosedInv t₂ u) (hr : automaton.Reachable u)
    (hc : u.calls k = some c) (h : u.stepCall k c a = some v) : ClosedInv t₂ v := by
  obtain ⟨c', hs⟩ := stepCall_callStep h
  have hself : v.calls k = some c' := by simp [hs.calls]
  have hother : ∀ j, j ≠ k → v.calls j = u.calls j := fun j hj => by
    rw [hs.calls, Function.update_of_ne hj]
  have hno := (no_sender hr hi.sinkLock).1 k c hc
  obtain ⟨new, hnew, hquiet⟩ := hi.log
  refine ⟨hs.sink.trans hi.sink, sinkLock_stepCall h hi.sink hi.sinkLock, ?_, ?_, ?_⟩
  · rcases hs.log with hl | ⟨s, -, -, hl⟩ | ⟨s, hpc, -, -⟩
    · exact ⟨new, hl.trans hnew, hquiet⟩
    · refine ⟨new ++ [.registered k s], by rw [hl, hnew, List.append_assoc], fun e he => ?_⟩
      rcases List.mem_append.mp he with he | he
      · exact hquiet e he
      · rw [List.mem_singleton.mp he]
        rfl
    · simp [hpc, CallPc.holdsSink] at hno
  · intro s j d hp hd hl
    by_cases hjk : j = k
    · subst hjk
      cases hself.symm.trans hd
      exact listening_stepCall h hself hno hl
    · rw [hother j hjk] at hd
      rcases hs.pending s j hp with hold | ⟨he, -⟩
      · exact hi.waiters s j d hold hd hl
      · exact absurd he hjk
  · intro j d hd hsince
    by_cases hjk : j = k
    · subst hjk
      cases hself.symm.trans hd
      exact ending_stepCall hi hr hc h hself (hi.ending j c hc hsince)
    · rw [hother j hjk] at hd
      refine (hi.ending j d hd hsince).of_same rfl fun s _ hin hgone => ⟨hin, fun hp => ?_⟩
      rcases hs.pending s j hp with hold | ⟨he, -⟩
      · exact hgone hold
      · exact hjk he

theorem ClosedInv.quiet (hi : ClosedInv t₂ u) (hc : v.calls = u.calls) (hsink : v.sink = false)
    (hlock : v.sinkLock = none) (hp : ∀ s k, v.pending s = some k → u.pending s = some k)
    (hl : v.log = u.log ∨ ∃ e, v.log = u.log ++ [e] ∧ e.isFrame = false) : ClosedInv t₂ v := by
  obtain ⟨new, hnew, hquiet⟩ := hi.log
  refine ⟨hsink, hlock, ?_, ?_, ?_⟩
  · rcases hl with hl | ⟨e, hl, he⟩
    · exact ⟨new, hl.trans hnew, hquiet⟩
    · refine ⟨new ++ [e], by rw [hl, hnew, List.append_assoc], fun d hd => ?_⟩
      rcases List.mem_append.mp hd with hd | hd
      · exact hquiet d hd
      · rw [List.mem_singleton.mp hd]
        exact he
  · intro s k c hpend hk
    exact hi.waiters s k c (hp s k hpend) (hc ▸ hk)
  · intro k c hk hsince
    rw [hc] at hk
    exact (hi.ending k c hk hsince).of_same rfl fun s _ hin hgone =>
      ⟨hin, fun hpend => hgone (hp s k hpend)⟩

theorem closedInv_ack {a : AckAction} (hi : ClosedInv t₂ u) (hr : automaton.Reachable u)
    (h : u.stepAck a = some v) : ClosedInv t₂ v := by
  have hno := (no_sender hr hi.sinkLock).2
  have hsame := (stepAck_frame h).1
  cases a with
  | lockSink =>
    simp only [stepAck, hi.sink, hi.sinkLock] at h
    split at h
    · simp only [if_true, Bool.false_eq_true, if_false, Option.some.injEq] at h
      subst h
      exact hi.quiet rfl rfl rfl (fun _ _ => id) (.inl rfl)
    · cases h
  | start n packet =>
    simp only [stepAck] at h
    split at h <;> cases h
    exact hi.quiet rfl hi.sink hi.sinkLock (fun _ _ => id) (.inl rfl)
  | feed | finish =>
    simp only [stepAck] at h
    split at h <;> cases h
    all_goals
      rename_i hpc
      simp [hpc, AckPc.holdsSink] at hno
  | drop =>
    simp only [stepAck, hno, Bool.false_eq_true, if_false, Option.some.injEq] at h
    subst h
    exact hi.quiet rfl hi.sink hi.sinkLock (fun _ _ => id) (.inl rfl)

theorem closedInv_deliver (hi : ClosedInv t₂ u) (hr : automaton.Reachable u) (n : Nat)
    (p : Packet) : ClosedInv t₂ { u.deliver n p with receiving := none } := by
  rcases u.deliver_cases n p with h | h | ⟨k, c, hk, hc, hl, h⟩
  · exact hi.quiet (by rw [h]) (by rw [h]; exact hi.sink) (by rw [h]; exact hi.sinkLock)
      (fun s k hp => by rwa [h] at hp) (.inl (by rw [h]))
  · exact hi.quiet (by rw [h]) (by rw [h]; exact hi.sink) (by rw [h]; exact hi.sinkLock)
      (fun s k hp => of_erased (by rwa [h] at hp)) (.inl (by rw [h]))
  · obtain ⟨new, hnew, hquiet⟩ := hi.log
    rw [h]
    refine ⟨hi.sink, hi.sinkLock, ⟨new ++ [.answered k n p], ?_, fun e he => ?_⟩, ?_, ?_⟩
    · simp [hnew]
    · rcases List.mem_append.mp he with he | he
      · exact hquiet e he
      · rw [List.mem_singleton.mp he]
        rfl
    · intro s j d hp hd hdl
      have hold := of_erased hp
      by_cases hjk : j = k
      · subst hjk
        simp only [record_calls, put_calls, Function.update_self, Option.some.injEq] at hd
        subst hd
        exact hi.waiters s j c hold hc hl
      · simp only [record_calls, put_calls, Function.update_of_ne hjk] at hd
        exact hi.waiters s j d hold hd hdl
    · intro j d hd hsince
      by_cases hjk : j = k
      · subst hjk
        simp only [record_calls, put_calls, Function.update_self, Option.some.injEq] at hd
        subst hd
        refine (hi.ending j c hc hsince).of_same rfl fun s hs _ hgone => ?_
        -- the waiter that got the frame stood in `pending` under its own number
        obtain ⟨d, hd, hseq, -⟩ := (transportInv_of_reachable hr).pending p.seq j hk
        cases hd.symm.trans hc
        have hown := ((transportInv_of_reachable hr).calls j c hc).seq s (by rw [hs]; rfl)
        cases hseq.symm.trans hown
        exact absurd hk hgone
      · simp only [record_calls, put_calls, Function.update_of_ne hjk] at hd
        exact (hi.ending j d hd hsince).of_same rfl fun s _ hin hgone =>
          ⟨hin, fun hp => hgone (of_erased hp)⟩

theorem closedInv_step {a : TransportAction} (hi : ClosedInv t₂ u) (hr : automaton.Reachable u)
    (hok : NoInstall u a) (h : u.step a = some v) : ClosedInv t₂ v := by
  cases a with
  | start opcode payload =>
    have hfresh : ∀ k c, u.calls k = some c → k ≠ u.started := fun k c hk =>
      Nat.ne_of_lt ((transportInv_of_reachable hr).started k c hk)
    cases h
    refine ⟨hi.sink, hi.sinkLock, hi.log, fun s k c hp hk => ?_, fun k c hk hsince => ?_⟩
    · obtain ⟨d, hd, -⟩ := (transportInv_of_reachable hr).pending s k hp
      rw [put_calls, Function.update_of_ne (hfresh k d hd)] at hk
      exact hi.waiters s k c hp hk
    · by_cases hnew : k = u.started
      · simp only [hnew, put_calls, Function.update_self, Option.some.injEq] at hk
        subst hk
        trivial
      · rw [put_calls, Function.update_of_ne hnew] at hk
        exact (hi.ending k c hk hsince).of_same rfl fun s _ hin hgone => ⟨hin, hgone⟩
  | call k b =>
    obtain ⟨c, hc, h⟩ := Option.bind_eq_some_iff.mp h
    exact closedInv_call hi hr hc h
  | ack b => exact closedInv_ack hi hr h
  | read p =>
    simp only [step, Option.ite_none_right_eq_some, Option.some.injEq] at h
    obtain ⟨_, rfl⟩ := h
    exact hi.quiet rfl hi.sink hi.sinkLock (fun _ _ => id) (.inr ⟨_, rfl, rfl⟩)
  | receiveResponse =>
    obtain ⟨⟨n, p⟩, -, rfl⟩ := Option.map_eq_some_iff.mp h
    exact closedInv_deliver hi hr n p
  | abandon =>
    cases h
    exact hi.quiet rfl hi.sink hi.sinkLock (fun _ _ => id) (.inl rfl)
  | install => exact absurd rfl hok
  | clear =>
    cases h
    exact hi.quiet rfl hi.sink hi.sinkLock (fun _ _ hp => by cases hp) (.inl rfl)
  | takeSink =>
    simp only [step, Option.ite_none_right_eq_some, Option.some.injEq] at h
    obtain ⟨_, rfl⟩ := h
    exact hi.quiet rfl rfl hi.sinkLock (fun _ _ => id) (.inl rfl)

theorem closedInv_path (hi : ClosedInv t₂ u) (hr : automaton.Reachable u)
    (h : automaton.Path NoInstall u v) : ClosedInv t₂ v := by
  induction h with
  | refl => exact hi
  | tail hp hok hs ih => exact closedInv_step ih (hr.path hp.leads) hok hs

theorem path_polled {b : CallAction} (hb : b ≠ .drop) (hc : u.calls k = some c)
    (h : u.stepCall k c b = some v) : automaton.Path Polled u v :=
  .single ⟨k, b, rfl, hb⟩ (show (u.calls k).bind _ = some v by rw [hc]; exact h)

theorem Polled.noInstall {a : TransportAction} (h : Polled u a) : NoInstall u a := by
  obtain ⟨k, b, rfl, -⟩ := h
  simp [NoInstall]

/-- Polling call `k` alone brings it to its end with `error`; the guard of `send_order` is free
then. -/
def EndsWith (u : Transport) (k : CallId) (error : Error) : Prop :=
  ∃ v c, automaton.Path Polled u v ∧ v.calls k = some c ∧ c.pc = .returned (.error error) ∧
    v.sendOrder = none ∧ ∀ j, j ≠ k → v.calls j = u.calls j

theorem EndsWith.before {error : Error} {b : CallAction} (hb : b ≠ .drop)
    (hc : u.calls k = some c) (h : u.stepCall k c b = some v) (he : v.EndsWith k error) :
    u.EndsWith k error := by
  obtain ⟨w, d, hpath, hd, hpc, ho, hother⟩ := he
  obtain ⟨c', hs⟩ := stepCall_callStep h
  refine ⟨w, d, (path_polled hb hc h).trans hpath, hd, hpc, ho, fun j hj => ?_⟩
  rw [hother j hj, hs.calls, Function.update_of_ne hj]

theorem ends_unregister {s : Nat} {error : Error} (hc : u.calls k = some c)
    (hpc : c.pc = .unregister s error) : u.EndsWith k error := by
  have h : u.stepCall k c .unregister = some { u.move k c (.returned (.error error)) with
      pending := Function.update u.pending s none
      sendOrder := none } := by simp [stepCall, hpc]
  exact ⟨_, _, path_polled (by simp) hc h, Function.update_self .., rfl, rfl,
    fun j hj => Function.update_of_ne hj ..⟩

theorem ends_sink {s : Nat} (hs : u.sink = false) (hl : u.sinkLock = none)
    (hc : u.calls k = some c) (hpc : c.pc = .sink s) : u.EndsWith k .connectionClosed := by
  have h : u.stepCall k c .lockSink = some (u.move k c (.unregister s .connectionClosed)) := by
    simp [stepCall, hpc, hs, hl]
  exact .before (by simp) hc h (ends_unregister (Function.update_self ..) rfl)

theorem ClosedInv.ends_register (hi : ClosedInv t₂ u) (hr : automaton.Reachable u) {s : Nat}
    (hc : u.calls k = some c) (hpc : c.pc = .register s) : u.EndsWith k .connectionClosed := by
  have h : u.stepCall k c .register = some { (u.move k c (.sink s)).record (.registered k s) with
      pending := Function.update u.retained s (some k) } := by
    simp [stepCall, hpc, hi.no_duplicate hr hc hpc]
  exact .before (by simp) hc h (ends_sink hi.sink hi.sinkLock (Function.update_self ..) rfl)

theorem ClosedInv.ends_allocate (hi : ClosedInv t₂ u) (hr : automaton.Reachable u)
    (hc : u.calls k = some c) (hpc : c.pc = .allocate) : u.EndsWith k .connectionClosed := by
  have h : u.stepCall k c .allocate = some
      { u.put k { c with pc := .register u.nextSeq, turn := some u.allocated } with
        nextSeq := (u.nextSeq + 1) % 2 ^ 32
        allocated := u.allocated + 1 } := by simp [stepCall, hpc]
  have hr' : automaton.Reachable _ := hr.path (path_polled (by simp) hc h).leads
  exact .before (by simp) hc h
    ((closedInv_call hi hr hc h).ends_register hr' (Function.update_self ..) rfl)

theorem ClosedInv.release_order (hi : ClosedInv t₂ u) (hr : automaton.Reachable u) :
    ∃ v, automaton.Path Polled u v ∧ v.sendOrder = none ∧
      ∀ k c, u.calls k = some c → c.pc.holdsOrder = false → v.calls k = some c := by
  cases ho : u.sendOrder with
  | none => exact ⟨u, .refl, ho, fun _ _ hk _ => hk⟩
  | some j =>
    have hown := (lockInv_of_reachable hr).order j
    rw [ho] at hown
    have hheld : u.holdsOrder j = true := hown.mpr rfl
    cases hj : u.calls j with
    | none => simp [holdsOrder, hj] at hheld
    | some d =>
      have hd : d.pc.holdsOrder = true := by simpa [holdsOrder, hj] using hheld
      have hno := (no_sender hr hi.sinkLock).1 j d hj
      have hends : ∃ error, u.EndsWith j error := by
        cases hpc : d.pc with
        | allocate => exact ⟨_, hi.ends_allocate hr hj hpc⟩
        | register s => exact ⟨_, hi.ends_register hr hj hpc⟩
        | sink s => exact ⟨_, ends_sink hi.sink hi.sinkLock hj hpc⟩
        | unregister s error => exact ⟨error, ends_unregister hj hpc⟩
        | _ => simp [hpc, CallPc.holdsOrder, CallPc.holdsSink] at hd hno
      obtain ⟨error, v, d', hpath, -, -, hfree, hother⟩ := hends
      refine ⟨v, hpath, hfree, fun k c hk hc => ?_⟩
      have hne : k ≠ j := by
        rintro rfl
        cases hj.symm.trans hk
        rw [hd] at hc
        cases hc
      rw [hother k hne]
      exact hk

theorem ClosedInv.returns (hi : ClosedInv t₂ u) (hr : automaton.Reachable u)
    (hc : u.calls k = some c) (he : u.Ending k c) (hf : c.pc.finished = false) :
    ∃ v c', automaton.Path Polled u v ∧ v.calls k = some c' ∧
      c'.pc = .returned (.error .connectionClosed) := by
  have hends : u.EndsWith k .connectionClosed → ∃ v c', automaton.Path Polled u v ∧
      v.calls k = some c' ∧ c'.pc = .returned (.error .connectionClosed) := by
    rintro ⟨v, c', hpath, hc', hpc', -⟩
    exact ⟨v, c', hpath, hc', hpc'⟩
  cases hpc : c.pc with
  | order =>
    obtain ⟨v, hpath, hfree, hsame⟩ := hi.release_order hr
    have hcv : v.calls k = some c := hsame k c hc (by rw [hpc]; rfl)
    have hrv : automaton.Reachable v := hr.path hpath.leads
    have hiv : ClosedInv t₂ v := closedInv_path hi hr (hpath.weaken fun _ _ => Polled.noInstall)
    have h : v.stepCall k c .lockOrder =
        some { v.move k c .allocate with sendOrder := some k } := by
      simp [stepCall, hpc, hfree]
    have hlock := path_polled (by simp) hcv h
    obtain ⟨w, c', hw, hc', hpc', -⟩ := (closedInv_call hiv hrv hcv h).ends_allocate
      (hrv.path hlock.leads) (Function.update_self ..) rfl
    exact ⟨w, c', (hpath.trans hlock).trans hw, hc', hpc'⟩
  | allocate => exact hends (hi.ends_allocate hr hc hpc)
  | register s => exact hends (hi.ends_register hr hc hpc)
  | sink s => exact hends (ends_sink hi.sink hi.sinkLock hc hpc)
  | unregister s error =>
    have herr : error = .connectionClosed := by simpa [Ending, hpc] using he
    exact hends (herr ▸ ends_unregister hc hpc)
  | await s =>
    simp only [Ending, hpc] at he
    let d := { c with pc := CallPc.forget s .connectionClosed }
    have h : u.stepCall k c .closed = some (u.put k d) := by
      simp [stepCall, hpc, he.1, he.2, move, d]
    have h' : (u.put k d).stepCall k d .forget = some
        { (u.put k d).move k d (.returned (.error .connectionClosed)) with
          pending := Function.update u.pending s none } := by simp [stepCall, d]
    exact ⟨_, _, (path_polled (by simp) hc h).trans
      (path_polled (by simp) (Function.update_self ..) h'), Function.update_self .., rfl⟩
  | forget s error =>
    have herr : error = .connectionClosed := by simpa [Ending, hpc] using he
    have h : u.stepCall k c .forget = some { u.move k c (.returned (.error error)) with
        pending := Function.update u.pending s none } := by simp [stepCall, hpc]
    exact ⟨_, _, path_polled (by simp) hc h, Function.update_self .., by rw [herr]⟩
  | feed s | flush s => simp [Ending, hpc] at he
  | returned r | dropped => simp [hpc, CallPc.finished] at hf

theorem pending_step {a : TransportAction} (h : u.step a = some v) {s : Nat}
    (hp : v.pending s = some k) :
    u.pending s = some k ∨ v.log = u.log ++ [.registered k s] := by
  cases a with
  | call j b =>
    obtain ⟨c, hc, h⟩ := Option.bind_eq_some_iff.mp h
    obtain ⟨c', hs⟩ := stepCall_callStep h
    rcases hs.pending s k hp with hold | ⟨rfl, -, -, hl⟩
    · exact .inl hold
    · exact .inr hl
  | ack b =>
    exact .inl ((stepAck_pending h).1 ▸ hp)
  | receiveResponse =>
    obtain ⟨⟨n, p⟩, -, rfl⟩ := Option.map_eq_some_iff.mp h
    exact .inl (pending_of_deliver hp)
  | read p | install | takeSink =>
    simp only [step, Option.ite_none_right_eq_some, Option.some.injEq] at h
    obtain ⟨_, rfl⟩ := h
    exact .inl hp
  | start opcode payload | abandon =>
    cases h
    exact .inl hp
  | clear =>
    cases h
    cases hp

theorem registered_since (hr : automaton.Reachable t₁) (hclear : ∀ s, t₁.pending s = none)
    (h : automaton.Path NoInstall t₁ t) :
    ∃ new, t.log = t₁.log ++ new ∧ ∀ s k, t.pending s = some k → .registered k s ∈ new := by
  induction h with
  | refl =>
    refine ⟨[], by simp, fun s k hk => ?_⟩
    rw [hclear s] at hk
    cases hk
  | @tail t u a hp _ hs ih =>
    obtain ⟨new, hl, hnew⟩ := ih
    obtain ⟨more, hmore⟩ := (grows_step (transportInv_of_reachable (hr.path hp.leads)) hs).log
    refine ⟨new ++ more, by rw [hmore, hl, List.append_assoc], fun s k hk => ?_⟩
    rcases pending_step hs hk with hold | hreg
    · exact List.mem_append_left _ (hnew s k hold)
    · have he : more = [.registered k s] := List.append_cancel_left (hmore.symm.trans hreg)
      exact List.mem_append_right _ (he ▸ List.mem_singleton_self _)

theorem Closes.reachable_take (h : Closes t₀ t₁ t t₂) : automaton.Reachable t :=
  (Automaton.Reachable.tail h.reachable h.clear).path h.between.leads

theorem Closes.taken (h : Closes t₀ t₁ t t₂) :
    t.sinkLock = none ∧ t₂ = { t with sink := false } := by
  have hs : t.step .takeSink = some t₂ := h.take
  simp only [step, Option.ite_none_right_eq_some, Option.some.injEq] at hs
  exact ⟨hs.1, hs.2.symm⟩

/-- A call that waits for its response with its waiter in `pending` is left to its timer. -/
theorem not_resolved_of_awaits (h : Closes t₀ t₁ t t₂) (hk : t.Awaits k) :
    ¬ ResolvedSince t₂ t₂ := by
  rintro ⟨-, hclosed⟩
  obtain ⟨-, rfl⟩ := h.taken
  obtain ⟨c, s, hc, hpc, hin, hp⟩ := hk
  have hun : c.unresolved = true := by
    simp [Call.unresolved, hpc, hin, CallPc.finished, CallPc.expired]
  obtain ⟨-, htimer, -⟩ := hclosed k c hc (.inr ⟨c, hc, hun⟩)
  simp [step, hc, stepCall, hpc, hin, hp] at htimer

theorem not_resolved_of_sendFailed (h : Closes t₀ t₁ t t₂) (hk : t.SendFailed k) :
    ∃ u, automaton.Path NoInstall t₂ u ∧ ¬ ResolvedSince t₂ u := by
  obtain ⟨-, rfl⟩ := h.taken
  obtain ⟨c, s, reason, hc, hin, hpc⟩ := hk
  have hun : c.unresolved = true := by
    simp [Call.unresolved, hpc, hin, CallPc.finished, CallPc.expired]
  obtain ⟨u, d, hpath, hd, hdpc, -⟩ := ends_unregister (u := { t with sink := false }) hc hpc
  refine ⟨u, hpath.weaken fun _ _ => Polled.noInstall, fun hres => ?_⟩
  have hret := (hres.closed k d hd (.inr ⟨c, hc, hun⟩)).1 _ hdpc
  cases hret

/-- Once `close` has returned, no frame is written and every call that it finds unresolved and
every later one returns `ConnectionClosed` without its timer, exactly when the `close` takes the
sink from nobody who awaits a response in `pending` or has a failed send behind it; and those in
`pending` have registered after `close` cleared it. -/
theorem close_resolves (t₀ t₁ t t₂ : Transport) (h : Closes t₀ t₁ t t₂) :
    ((∀ u, automaton.Path NoInstall t₂ u → ResolvedSince t₂ u) ↔ t.Quiesced) ∧
    ∀ k, t.Awaits k → ∃ c s new, t.calls k = some c ∧ c.pc = .await s ∧
      t.log = t₁.log ++ new ∧ .registered k s ∈ new := by
  have hr : automaton.Reachable t := h.reachable_take
  refine ⟨⟨fun hall k => ⟨fun hk => ?_, fun hk => ?_⟩, fun hq u hpath => ?_⟩, fun k hk => ?_⟩
  · exact not_resolved_of_awaits h hk (hall t₂ .refl)
  · obtain ⟨u, hpath, hnot⟩ := not_resolved_of_sendFailed h hk
    exact hnot (hall u hpath)
  · have hr₂ : automaton.Reachable t₂ := Automaton.Reachable.tail hr h.take
    have hru : automaton.Reachable u := hr₂.path hpath.leads
    have hi : ClosedInv t₂ u := closedInv_path (closedInv_take hr h.take hq) hr₂ hpath
    refine ⟨hi.log, fun k c hc hsince => ?_⟩
    have he := hi.ending k c hc hsince
    refine ⟨fun r hret => by simpa [Ending, hret] using he, ?_, hi.returns hru hc he⟩
    cases hstep : u.step (.call k .timedOut) with
    | none => rfl
    | some v =>
      simp only [step, hc, Option.bind_some, stepCall] at hstep
      split at hstep
      · rename_i s hpc hin
        simp only [Ending, hpc] at he
        simp [he.2] at hstep
      · cases hstep
  · obtain ⟨c, s, hc, hpc, -, hp⟩ := hk
    have hclear : ∀ s, t₁.pending s = none := by
      have hs : t₀.step .clear = some t₁ := h.clear
      cases hs
      exact fun _ => rfl
    obtain ⟨new, hl, hnew⟩ := registered_since (Automaton.Reachable.tail h.reachable h.clear) hclear
      h.between
    exact ⟨c, s, new, hc, hpc, hl, hnew s k hp⟩

/-- One invoke has sent its request, a second one has only taken its number. -/
def twoInvokes : List TransportAction :=
  [.install, .start 1 .null, .start 2 .null, .call 0 .lockOrder, .call 0 .allocate,
    .call 0 .register, .call 0 .lockSink, .call 0 .feed, .call 0 .flushed,
    .call 1 .lockOrder, .call 1 .allocate]

/-- `close` in the middle of the run `twoInvokes`, with `acts` between its critical sections. -/
def closing (acts : List TransportAction) : Option Transport :=
  automaton.exec new (twoInvokes ++ .clear :: acts)

def noInstall (_ : Transport) (a : TransportAction) : Bool :=
  match a with
  | .install => false
  | _ => true

theorem noInstall_sound {a : TransportAction} (h : noInstall u a = true) : NoInstall u a := by
  rintro rfl
  cases h

/-- The second invoke registers after `clear`; both return `ConnectionClosed`. -/
theorem close_resolves_both : ∃ t₀ t₁ t t₂, Closes t₀ t₁ t t₂ ∧
    (∃ c d, t.calls 0 = some c ∧ c.pc = .await 1 ∧ t.calls 1 = some d ∧ d.pc = .sink 2) ∧
    ∀ u, automaton.Path NoInstall t₂ u → ResolvedSince t₂ u := by
  have h₀ : automaton.exec new twoInvokes = some ((automaton.exec new twoInvokes).get rfl) := rfl
  have hmid : automaton.execWhile noInstall ((closing []).get rfl) [.call 1 .register] =
      some ((closing [.call 1 .register]).get rfl) := rfl
  have hcloses : Closes ((automaton.exec new twoInvokes).get rfl) ((closing []).get rfl)
      ((closing [.call 1 .register]).get rfl) ((closing [.call 1 .register, .takeSink]).get rfl) :=
    ⟨⟨new, rfl, Automaton.exec_leads h₀⟩, rfl,
      Automaton.execWhile_path (fun _ _ => noInstall_sound) hmid, rfl⟩
  refine ⟨_, _, _, _, hcloses, ⟨_, _, rfl, rfl, rfl, rfl⟩,
    (close_resolves _ _ _ _ hcloses).1.mpr fun k => ?_⟩
  have hfew := (transportInv_of_reachable hcloses.reachable_take).started
  refine ⟨?_, ?_⟩
  · rintro ⟨c, s, hc, hpc, -, hp⟩
    have hk : k < 2 := hfew k c hc
    interval_cases k
    · cases hc
      cases hpc
      cases hp
    · cases hc
      cases hpc
  · rintro ⟨c, s, reason, hc, -, hpc⟩
    have hk : k < 2 := hfew k c hc
    interval_cases k
    · cases hc
      cases hpc
    · cases hc
      cases hpc

/-- The second invoke registers after `clear` and gets the sink before `close` does; its response
timer ends it. -/
theorem close_leaves_invoke : ∃ t₀ t₁ t t₂ u, Closes t₀ t₁ t t₂ ∧
    automaton.Path NoInstall t₂ u ∧
    (∃ d c, t₂.calls 1 = some d ∧ d.unresolved = true ∧ u.calls 1 = some c ∧
      c.pc = .returned (.error (.timeout 2))) ∧
    ¬ ResolvedSince t₂ u := by
  let mid : List TransportAction :=
    [.call 1 .register, .call 1 .lockSink, .call 1 .feed, .call 1 .flushed]
  let after : List TransportAction := [.call 1 .timedOut, .call 1 .forget]
  have h₀ : automaton.exec new twoInvokes = some ((automaton.exec new twoInvokes).get rfl) := rfl
  have hmid : automaton.execWhile noInstall ((closing []).get rfl) mid =
      some ((closing mid).get rfl) := rfl
  have hafter : automaton.execWhile noInstall ((closing (mid ++ [.takeSink])).get rfl) after =
      some ((closing (mid ++ .takeSink :: after)).get rfl) := rfl
  refine ⟨_, _, _, _, _, ⟨⟨new, rfl, Automaton.exec_leads h₀⟩, rfl,
      Automaton.execWhile_path (fun _ _ => noInstall_sound) hmid, rfl⟩,
    Automaton.execWhile_path (fun _ _ => noInstall_sound) hafter, ⟨_, _, rfl, rfl, rfl, rfl⟩,
    fun hres => ?_⟩
  have hret := (hres.closed 1 _ rfl (.inr ⟨_, rfl, rfl⟩)).1 _ rfl
  cases hret

end Transport

end Maxrs
