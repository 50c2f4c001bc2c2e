import Maxrs.Correlation
import Maxrs.Locks
import Maxrs.Wire
set_option autoImplicit false

/-! The order in which request frames reach the socket. -/
namespace Maxrs

/-- Inserted into `pending`, and the frame not yet given to the socket. -/
def CallPc.writing : CallPc → Bool
  | .sink _ | .feed _ => true
  | _ => false

def TransportEvent.writtenSeq : TransportEvent → Option Nat
  | .wrote _ q => some q.seq
  | _ => none

namespace Transport

/-- The owner of `send_order` took its number last, and has registered before it writes. -/
structure NewestInv (t : Transport) : Prop where
  newest : ∀ k c i, t.calls k = some c → c.pc.holdsOrder = true → c.turn = some i →
    i + 1 = t.allocated
  registered : ∀ k c s, t.calls k = some c → c.pc.writing = true → c.seq = some s →
    .registered k s ∈ t.log

variable {t t' : Transport} {k : CallId} {c c' : Call}

theorem newestInv_of_same (hi : NewestInv t) (ha : t'.allocated = t.allocated)
    (hl : ∃ new, t'.log = t.log ++ new)
    (hc : ∀ k c', t'.calls k = some c' → (c'.pc.holdsOrder = false ∧ c'.pc.writing = false) ∨
      ∃ c, t.calls k = some c ∧ c.pc = c'.pc ∧ c.turn = c'.turn) : NewestInv t' := by
  obtain ⟨new, hl⟩ := hl
  refine ⟨fun k c' i hk hp ht => ?_, fun k c' s hk hp hs => ?_⟩
  · rcases hc k c' hk with ⟨hf, -⟩ | ⟨c, hk', hpc, htc⟩
    · simp [hf] at hp
    · rw [ha]
      exact hi.newest k c i hk' (hpc ▸ hp) (htc.trans ht)
  · rcases hc k c' hk with ⟨-, hf⟩ | ⟨c, hk', hpc, htc⟩
    · simp [hf] at hp
    · have hreg := hi.registered k c s hk' (hpc ▸ hp) (by rw [← hs, Call.seq, Call.seq, htc])
      simp [hl, hreg]

theorem holdsOrder_stepCall {a : CallAction} (h : t.stepCall k c a = some t')
    (hk : t'.calls k = some c') (hp : c'.pc.holdsOrder = true) :
    c.pc.holdsOrder = true ∨ c.pc = .order := by
  cases callTurn h hk with
  | lockOrder hpc _ => exact .inr hpc
  | allocate hpc | register s hpc _ | lockSink s hpc _ _ | noSink s hpc _ _ | feed s hpc =>
    exact .inl (by rw [hpc]; rfl)
  | sendFailed s reason hpc | sendTimedOut s hpc =>
    exact .inl (by rcases hpc with hpc | hpc <;> rw [hpc] <;> rfl)
  | duplicate _ _ _ | flushed _ _ | unregister _ _ _ | answered _ _ _ _ _ | closed _ _ _ _
  | timedOut _ _ _ _ | forget _ _ _ | drop _ => cases hp

theorem writing_stepCall {a : CallAction} (h : t.stepCall k c a = some t')
    (hk : t'.calls k = some c') (hp : c'.pc.writing = true) :
    c.pc.writing = true ∨ ∃ s, c.pc = .register s ∧ t'.log = t.log ++ [.registered k s] := by
  cases callTurn h hk with
  | register s hpc _ => exact .inr ⟨s, hpc, rfl⟩
  | lockSink s hpc _ _ => exact .inl (by rw [hpc]; rfl)
  | _ => cases hp

theorem newestInv_call {a : CallAction} (hi : NewestInv t) (ht : TransportInv t)
    (hl : LockInv t) (hc : t.calls k = some c) (h : t.stepCall k c a = some t') :
    NewestInv t' := by
  obtain ⟨c', hs⟩ := stepCall_callStep h
  have hself : t'.calls k = some c' := by simp [hs.calls]
  have hgrow : ∀ e, e ∈ t.log → e ∈ t'.log := by
    obtain ⟨new, hnew⟩ := (grows_stepCall hc h).log
    intro e he
    simp [hnew, he]
  refine ⟨fun j d i hd hp hturn => ?_, fun j d s hd hp hseq => ?_⟩
  · rw [hs.calls] at hd
    rcases hs.turn with ⟨hkeep, ha, -⟩ | ⟨hpc, -, hnew, ha, -⟩
    · rw [ha]
      by_cases hj : j = k
      · subst hj
        cases (Function.update_self ..).symm.trans hd
        rw [hkeep] at hturn
        rcases holdsOrder_stepCall h hself hp with hold | hord
        · exact hi.newest j c i hc hold hturn
        · rw [(ht.calls j c hc).fresh (.inl hord)] at hturn
          cases hturn
      · rw [Function.update_of_ne hj] at hd
        exact hi.newest j d i hd hp hturn
    · by_cases hj : j = k
      · subst hj
        cases (Function.update_self ..).symm.trans hd
        rw [hnew] at hturn
        cases hturn
        exact ha.symm
      · -- the guard is with `k`, which has just taken its number
        rw [Function.update_of_ne hj] at hd
        have hk := (hl.order_owner hc).mp (by rw [hpc]; rfl)
        have hj' := (hl.order_owner hd).mp hp
        exact absurd (Option.some.inj (hj'.symm.trans hk)) hj
  · rw [hs.calls] at hd
    by_cases hj : j = k
    · subst hj
      cases (Function.update_self ..).symm.trans hd
      rcases writing_stepCall h hself hp with hold | ⟨q, hq, hlog⟩
      · rcases hs.turn with ⟨hkeep, -⟩ | ⟨hpc, -⟩
        · exact hgrow _ (hi.registered j c s hc hold (by rw [← hseq, Call.seq, Call.seq, hkeep]))
        · simp [hpc, CallPc.writing] at hold
      · have hcq : c.seq = some q := (ht.calls j c hc).seq q (by simp [hq, CallPc.seq?])
        have hkeep : c'.turn = c.turn := by
          rcases hs.turn with ⟨hkeep, -⟩ | ⟨hpc, -⟩
          · exact hkeep
          · simp [hq] at hpc
        have : q = s := by
          rw [Call.seq, hkeep] at hseq
          exact Option.some.inj (hcq.symm.trans hseq)
        simp [hlog, this]
    · rw [Function.update_of_ne hj] at hd
      exact hgrow _ (hi.registered j d s hd hp hseq)

theorem newestInv_step {a : TransportAction} (h : t.step a = some t') (ht : TransportInv t)
    (hl : LockInv t) (hi : NewestInv t) : NewestInv t' := by
  obtain ⟨new, hnew⟩ := (grows_step ht h).log
  cases a with
  | start opcode payload =>
    cases h
    refine newestInv_of_same hi rfl ⟨[], by simp⟩ fun k c' hk => ?_
    by_cases hj : k = t.started
    · subst hj
      simp only [put_calls, Function.update_self, Option.some.injEq] at hk
      subst hk
      exact .inl ⟨rfl, rfl⟩
    · exact .inr ⟨c', by simpa [Function.update_of_ne hj] using hk, rfl, rfl⟩
  | call k a =>
    simp only [step, Option.bind_eq_some_iff] at h
    obtain ⟨c, hc, h⟩ := h
    exact newestInv_call hi ht hl hc h
  | ack a =>
    have hcalls : t'.calls = t.calls := (stepAck_frame h).1
    exact newestInv_of_same hi (stepAck_pending h).2 ⟨new, hnew⟩ fun k c' hk =>
      .inr ⟨c', hcalls ▸ hk, rfl, rfl⟩
  | receiveResponse =>
    simp only [step, Option.map_eq_some_iff] at h
    obtain ⟨⟨n, p⟩, _, rfl⟩ := h
    refine newestInv_of_same hi ?_ ⟨new, hnew⟩ fun k c' hk => ?_
    · rcases t.deliver_cases n p with h | h | ⟨_, _, _, _, _, h⟩
      · rw [h]
      · rw [h]
      · rw [h]
        rfl
    · rcases deliver_calls t n p k with h | ⟨d, hd, h⟩
      · exact .inr ⟨c', h.symm.trans hk, rfl, rfl⟩
      · cases h.symm.trans hk
        exact .inr ⟨d, hd, rfl, rfl⟩
  | read p | install | takeSink =>
    simp only [step, Option.ite_none_right_eq_some, Option.some.injEq] at h
    obtain ⟨_, rfl⟩ := h
    exact newestInv_of_same hi rfl ⟨new, hnew⟩ fun k c' hk => .inr ⟨c', hk, rfl, rfl⟩
  | abandon | clear =>
    cases h
    exact newestInv_of_same hi rfl ⟨[], by simp⟩ fun k c' hk => .inr ⟨c', hk, rfl, rfl⟩

theorem newestInv_of_reachable (h : automaton.Reachable t) : NewestInv t := by
  refine h.invariant_of (fun t ht => ?_) fun _ _ _ hr hs hi =>
    newestInv_step hs (transportInv_of_reachable hr) (lockInv_of_reachable hr) hi
  cases ht
  exact ⟨by simp [new], by simp [new]⟩

/-- A request frame comes after the registration of its call and after all frames with smaller
numbers. -/
def InOrder (before : List TransportEvent) : TransportEvent → Prop
  | .wrote k q => .registered k q.seq ∈ before ∧ ∀ k' q', .wrote k' q' ∈ before → q'.seq < q.seq
  | _ => True

theorem seqOf_lt {i j : Nat} (hij : i < j) (hj : j + 1 < 2 ^ 32) : seqOf i < seqOf j := by
  unfold seqOf
  omega

theorem inOrder_feed {s : Nat} (hr : automaton.Reachable t) (hfew : t.started < 2 ^ 32)
    (hk : t.calls k = some c) (hp : c.pc = .feed s) : InOrder t.log (.wrote k (c.request s)) := by
  have ht := transportInv_of_reachable hr
  have hn := newestInv_of_reachable hr
  have hseq : c.seq = some s := (ht.calls k c hk).seq s (by simp [hp, CallPc.seq?])
  refine ⟨hn.registered k c s hk (by rw [hp]; rfl) hseq, fun j q hq => ?_⟩
  obtain ⟨d, s', hd, hds, rfl, -⟩ := wroteInv_of_reachable hr j q hq
  obtain ⟨i, hci, rfl⟩ := Option.map_eq_some_iff.mp hseq
  obtain ⟨i', hdi, rfl⟩ := Option.map_eq_some_iff.mp hds
  have hne : j ≠ k := by
    rintro rfl
    cases hk.symm.trans hd
    exact unwritten_of_feed hr hk hp hq
  have hlast : i + 1 = t.allocated := hn.newest k c i hk (by rw [hp]; rfl) hci
  have hlt : i' < t.allocated := (ht.calls j d hd).turn i' hdi
  have hdiff : i' ≠ i := fun he => hne (ht.turns j k d c i' hd hk hdi (he ▸ hci))
  have hle := allocated_le_started ht
  exact seqOf_lt (by omega) (by omega)

theorem inOrder_of_reachable (h : automaton.Reachable t) :
    t.started < 2 ^ 32 → History.Justified InOrder t.log := by
  refine h.invariant_of (I := fun t => t.started < 2 ^ 32 → History.Justified InOrder t.log)
    (fun t ht _ => ?_) fun t a t' hr hs hj hfew => ?_
  · cases ht
    exact History.justified_nil
  · have hfew' : t.started < 2 ^ 32 :=
      Nat.lt_of_le_of_lt (grows_step (transportInv_of_reachable hr) hs).started hfew
    rcases log_step hs with hl | ⟨e, hl, hem⟩
    · exact hl ▸ hj hfew'
    · rw [hl]
      refine History.justified_snoc (hj hfew') ?_
      cases e with
      | wrote k q =>
        obtain ⟨c, s, hk, hp, rfl⟩ := hem
        exact inOrder_feed hr hfew' hk hp
      | _ => trivial

/-- The request frames on the wire carry strictly increasing numbers, each one the number of its
call, and each call has inserted its waiter before it writes, so before any frame that is read
after the write. -/
theorem requests_in_order (h : automaton.Reachable t) (hfew : t.started < 2 ^ 32) :
    (t.log.filterMap TransportEvent.writtenSeq).Pairwise (· < ·) ∧
    ∀ before k q after, t.log = before ++ .wrote k q :: after →
      .registered k q.seq ∈ before ∧
      (∃ c, t.calls k = some c ∧ c.seq = some q.seq ∧ q = c.request q.seq) ∧
      ∀ n p, .read n p ∈ after → ReadAfterRegistered t.log k q.seq n p := by
  have hj := inOrder_of_reachable h hfew
  refine ⟨?_, fun before k q after hl => ?_⟩
  · rw [List.pairwise_filterMap]
    refine (hj.mono (K := fun before e => ∀ d ∈ before, ∀ i, d.writtenSeq = some i →
      ∀ j, e.writtenSeq = some j → i < j) fun before e he d hd i hdi j hej => ?_).pairwise
    cases e with
    | wrote k q =>
      cases d with
      | wrote k' q' =>
        cases hdi
        cases hej
        exact he.2 k' q' hd
      | _ => cases hdi
    | _ => cases hej
  · have hreg := (hj before _ after hl).1
    obtain ⟨c, s, hk, hs, rfl, -⟩ := wroteInv_of_reachable h k q (by simp [hl])
    refine ⟨hreg, ⟨c, hk, hs, rfl⟩, fun n p hn => ?_⟩
    obtain ⟨mid, rest, rfl⟩ := List.append_of_mem hn
    exact ⟨before ++ .wrote k (c.request s) :: mid, rest, by simp [hl], by simp [hreg]⟩

/-- The first call is overtaken, and the second one is dropped after its write. -/
theorem requests_in_order_dropped : ∃ t : Transport, t.started = 2 ∧
    t.log.filterMap TransportEvent.writtenSeq = [1, 2] ∧
    (t.log.filterMap TransportEvent.writtenSeq).Pairwise (· < ·) := by
  let run : List TransportAction :=
    [.install, .start 1 .null, .start 1 .null,
      .call 1 .lockOrder, .call 1 .allocate, .call 1 .register, .call 1 .lockSink, .call 1 .feed,
      .call 1 .drop,
      .call 0 .lockOrder, .call 0 .allocate, .call 0 .register, .call 0 .lockSink, .call 0 .feed]
  have hr : automaton.Reachable ((automaton.exec new run).get rfl) :=
    Automaton.reachable_get rfl
  exact ⟨_, rfl, rfl, (requests_in_order hr (by decide)).1⟩

end Transport

end Maxrs
