import Maxrs.TransportFrame
set_option autoImplicit false

/-! Which calls have put their request frame on the wire. -/
namespace Maxrs

def CallPc.unwritten : CallPc → Bool
  | .order | .allocate | .register _ | .sink _ | .feed _ => true
  | _ => false

namespace Transport

theorem written_stepCall {t t' : Transport} {k : CallId} {c c' : Call} {a : CallAction}
    (h : t.stepCall k c a = some t') (hk : t'.calls k = some c')
    (hw : c.pc.unwritten = false) : c'.pc.unwritten = false ∧ c'.turn = c.turn := by
  cases hp : c.pc with
  | order | allocate | register s | sink s | feed s => simp [hp, CallPc.unwritten] at hw
  | returned r =>
    rw [stepCall_finished (by simp [hp, CallPc.finished])] at h
    cases h
  | dropped =>
    rw [stepCall_finished (by simp [hp, CallPc.finished])] at h
    cases h
  | flush s | unregister s e | await s | forget s e =>
    cases a <;> simp only [stepCall, hp, reduceCtorEq, Option.some.injEq, CallPc.finished,
      Bool.false_eq_true, if_false] at h
    all_goals repeat' split at h
    all_goals first
      | (cases h; done)
      | (cases h
         simp only [move_calls, Function.update_self, Option.some.injEq] at hk
         subst hk
         exact ⟨rfl, rfl⟩)

def WroteInv (t : Transport) : Prop :=
  ∀ k q, .wrote k q ∈ t.log → ∃ c s, t.calls k = some c ∧ c.seq = some s ∧ q = c.request s ∧
    c.pc.unwritten = false

theorem wroteInv_mono {t t' : Transport} (hi : WroteInv t)
    (hc : ∀ k c, t.calls k = some c → c.pc.unwritten = false → ∃ c', t'.calls k = some c' ∧
      c'.opcode = c.opcode ∧ c'.payload = c.payload ∧ c'.turn = c.turn ∧
      c'.pc.unwritten = false)
    (hl : ∀ k q, .wrote k q ∈ t'.log → .wrote k q ∈ t.log) : WroteInv t' := by
  intro k q hq
  obtain ⟨c, s, hk, hs, hr, hp⟩ := hi k q (hl k q hq)
  obtain ⟨c', hk', ho, hpay, ht, hp'⟩ := hc k c hk hp
  refine ⟨c', s, hk', ?_, ?_, hp'⟩
  · rw [← hs, Call.seq, Call.seq, ht]
  · rw [hr, Call.request, Call.request, ho, hpay]

theorem wroteInv_call {t t' : Transport} {k : CallId} {c : Call} {a : CallAction}
    (hi : WroteInv t) (ht : TransportInv t) (hc : t.calls k = some c)
    (h : t.stepCall k c a = some t') : WroteInv t' := by
  obtain ⟨c', hs⟩ := stepCall_callStep h
  have hself : t'.calls k = some c' := by simp [hs.calls]
  have keep : ∀ j d, t.calls j = some d → d.pc.unwritten = false → ∃ d', t'.calls j = some d' ∧
      d'.opcode = d.opcode ∧ d'.payload = d.payload ∧ d'.turn = d.turn ∧
      d'.pc.unwritten = false := by
    intro j d hd hw
    by_cases hj : j = k
    · subst hj
      cases hc.symm.trans hd
      obtain ⟨hw', ht'⟩ := written_stepCall h hself hw
      exact ⟨c', hself, hs.opcode, hs.payload, ht', hw'⟩
    · exact ⟨d, by simp [hs.calls, Function.update_of_ne hj, hd], rfl, rfl, rfl, hw⟩
  rcases hs.log with hl | ⟨s, _, _, hl⟩ | ⟨s, hp, hp', hl⟩
  · exact wroteInv_mono hi keep fun j q hq => hl ▸ hq
  · refine wroteInv_mono hi keep fun j q hq => ?_
    rw [hl, List.mem_append, List.mem_singleton] at hq
    exact hq.resolve_right nofun
  · intro j q hq
    rw [hl, List.mem_append, List.mem_singleton] at hq
    rcases hq with hq | hq
    · obtain ⟨d, s, hd, hds, hr, hw⟩ := hi j q hq
      obtain ⟨d', hd', ho, hpay, hturn, hw'⟩ := keep j d hd hw
      refine ⟨d', s, hd', ?_, ?_, hw'⟩
      · rw [← hds, Call.seq, Call.seq, hturn]
      · rw [hr, Call.request, Call.request, ho, hpay]
    · cases hq
      have hseq : c.seq = some s := (ht.calls k c hc).seq s (by simp [hp, CallPc.seq?])
      have hturn : c'.turn = c.turn := by
        rcases hs.turn with ⟨he, -⟩ | ⟨ha, -⟩
        · exact he
        · simp [hp] at ha
      refine ⟨c', s, hself, ?_, ?_, by simp [hp', CallPc.unwritten]⟩
      · rw [← hseq, Call.seq, Call.seq, hturn]
      · rw [Call.request, Call.request, hs.opcode, hs.payload]

theorem wroteInv_step {t t' : Transport} {a : TransportAction} (h : t.step a = some t')
    (ht : TransportInv t) (hi : WroteInv t) : WroteInv t' := by
  cases a with
  | start opcode payload =>
    cases h
    refine wroteInv_mono hi (fun k c hk hw => ?_) fun _ _ => id
    have hne : k ≠ t.started := Nat.ne_of_lt (ht.started k c hk)
    exact ⟨c, by simp [Function.update_of_ne hne, hk], rfl, rfl, rfl, hw⟩
  | call k a =>
    simp only [step, Option.bind_eq_some_iff] at h
    obtain ⟨c, hc, h⟩ := h
    exact wroteInv_call hi ht hc h
  | ack a =>
    obtain ⟨hc, -, -, -, -, hl⟩ := stepAck_frame h
    refine wroteInv_mono hi (fun k c hk hw => ⟨c, hc ▸ hk, rfl, rfl, rfl, hw⟩) fun k q hq => ?_
    rcases hl with hl | ⟨_, _, _, _, _, hl⟩
    · exact hl ▸ hq
    · rw [hl, List.mem_append, List.mem_singleton] at hq
      exact hq.resolve_right (by simp)
  | read p =>
    simp only [step, Option.ite_none_right_eq_some, Option.some.injEq] at h
    obtain ⟨_, rfl⟩ := h
    refine wroteInv_mono hi (fun k c hk hw => ⟨c, hk, rfl, rfl, rfl, hw⟩) fun k q hq => ?_
    simpa using hq
  | receiveResponse =>
    simp only [step, Option.map_eq_some_iff] at h
    obtain ⟨⟨n, p⟩, _, rfl⟩ := h
    refine wroteInv_mono hi (fun k c hk hw => ?_) fun k q hq => ?_
    · rcases deliver_calls t n p k with he | ⟨d, hd, he⟩
      · exact ⟨c, he.trans hk, rfl, rfl, rfl, hw⟩
      · cases hk.symm.trans hd
        exact ⟨_, he, rfl, rfl, rfl, hw⟩
    · rcases deliver_log t n p with hl | ⟨j, hl⟩
      · exact hl ▸ hq
      · replace hq : TransportEvent.wrote k q ∈ (t.deliver n p).log := hq
        rw [hl, List.mem_append, List.mem_singleton] at hq
        exact hq.resolve_right (by simp)
  | install | takeSink =>
    simp only [step, Option.ite_none_right_eq_some, Option.some.injEq] at h
    obtain ⟨_, rfl⟩ := h
    exact wroteInv_mono hi (fun k c hk hw => ⟨c, hk, rfl, rfl, rfl, hw⟩) fun _ _ => id
  | abandon | clear =>
    cases h
    exact wroteInv_mono hi (fun k c hk hw => ⟨c, hk, rfl, rfl, rfl, hw⟩) fun _ _ => id

theorem wroteInv_of_reachable {t : Transport} (h : automaton.Reachable t) : WroteInv t :=
  h.invariant_of (fun _ hi => hi ▸ nofun) fun _ _ _ hr hs hi =>
    wroteInv_step hs (transportInv_of_reachable hr) hi

theorem unwritten_of_feed {t : Transport} {k : CallId} {c : Call} {s : Nat} {q : Packet}
    (hr : automaton.Reachable t) (hk : t.calls k = some c) (hp : c.pc = .feed s) :
    .wrote k q ∉ t.log := by
  intro hq
  obtain ⟨d, _, hd, -, -, hw⟩ := wroteInv_of_reachable hr k q hq
  cases hk.symm.trans hd
  simp [hp, CallPc.unwritten] at hw

def WriteOnce (before : List TransportEvent) : TransportEvent → Prop
  | .wrote k _ => ∀ q, .wrote k q ∉ before
  | _ => True

theorem writeOnce_of_reachable {t : Transport} (h : automaton.Reachable t) :
    History.Justified WriteOnce t.log := by
  refine h.invariant_of (I := fun t => History.Justified WriteOnce t.log)
    (fun t ht => ?_) fun t a t' hr hs hj => ?_
  · cases ht
    exact History.justified_nil
  · rcases log_step hs with hl | ⟨e, hl, hem⟩
    · exact hl ▸ hj
    · rw [hl]
      refine History.justified_snoc hj ?_
      cases e with
      | wrote k q =>
        obtain ⟨c, s, hk, hp, -⟩ := hem
        exact fun p => unwritten_of_feed hr hk hp
      | _ => trivial

theorem wrote_ne {t : Transport} {before middle after : List TransportEvent} {k k' : CallId}
    {q q' : Packet} (h : automaton.Reachable t)
    (hl : t.log = before ++ .wrote k q :: (middle ++ .wrote k' q' :: after)) : k ≠ k' := by
  rintro rfl
  have hsplit : t.log = (before ++ .wrote k q :: middle) ++ .wrote k q' :: after := by simp [hl]
  exact writeOnce_of_reachable h _ _ _ hsplit q (by simp)

end Transport

end Maxrs
