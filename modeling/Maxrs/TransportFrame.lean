import Maxrs.TransportInv
set_option autoImplicit false

/-! What the steps of a transport leave alone. -/
namespace Maxrs.Transport

theorem step_leads {t t' : Transport} {a : TransportAction} (h : t.step a = some t') :
    automaton.Leads t t' :=
  .single trivial (show automaton.step t a = some t' from h)

/-- The calls stand where they stood; only their oneshots may have been filled. -/
def SamePcs (t t' : Transport) : Prop :=
  ∀ k, (t'.calls k).map Call.pc = (t.calls k).map Call.pc

def isShared : TransportAction → Bool
  | .start _ _ | .call _ _ => false
  | _ => true

def movesSink : TransportAction → Bool
  | .install | .takeSink => true
  | _ => false

structure Grows (t t' : Transport) : Prop where
  started : t.started ≤ t'.started
  calls : ∀ k c, t.calls k = some c → ∃ c', t'.calls k = some c' ∧ c'.opcode = c.opcode ∧
    c'.payload = c.payload ∧ (∀ r, c.pc = .returned r → c'.pc = .returned r) ∧
    (c.pc = .dropped → c'.pc = .dropped)
  log : ∃ new, t'.log = t.log ++ new

theorem Grows.refl (t : Transport) : Grows t t :=
  ⟨Nat.le_refl _, fun _ c h => ⟨c, h, rfl, rfl, fun _ => id, id⟩, [], by simp⟩

theorem Grows.trans {t t' t'' : Transport} (h : Grows t t') (h' : Grows t' t'') :
    Grows t t'' := by
  refine ⟨Nat.le_trans h.started h'.started, fun k c hc => ?_, ?_⟩
  · obtain ⟨c', hc', ho, hp, hr, hd⟩ := h.calls k c hc
    obtain ⟨c'', hc'', ho', hp', hr', hd'⟩ := h'.calls k c' hc'
    exact ⟨c'', hc'', ho'.trans ho, hp'.trans hp, fun r h => hr' r (hr r h), fun h => hd' (hd h)⟩
  · obtain ⟨new, hn⟩ := h.log
    obtain ⟨new', hn'⟩ := h'.log
    exact ⟨new ++ new', by rw [hn', hn, List.append_assoc]⟩

theorem stepCall_drop {t : Transport} {k : CallId} {c : Call} (h : c.pc.finished = false) :
    t.stepCall k c .drop = some { t.move k c .dropped with
      sendOrder := if c.pc.holdsOrder then none else t.sendOrder
      sinkLock := if c.pc.holdsSink then none else t.sinkLock } := by
  simp [stepCall, h]

theorem stepCall_finished {t : Transport} {k : CallId} {c : Call} {a : CallAction}
    (h : c.pc.finished = true) : t.stepCall k c a = none := by
  cases hp : c.pc with
  | returned r => cases a <;> simp [stepCall, hp, CallPc.finished]
  | dropped => cases a <;> simp [stepCall, hp, CallPc.finished]
  | _ => simp [hp, CallPc.finished] at h

theorem stepCall_not_dropped {t t' : Transport} {k : CallId} {c c' : Call} {a : CallAction}
    (h : t.stepCall k c a = some t') (ha : a.isDrop = false) (hk : t'.calls k = some c') :
    c'.pc ≠ .dropped := by
  intro hd
  cases callTurn h hk with
  | drop _ => cases ha
  | _ => cases hd

theorem deliver_cases (t : Transport) (n : Nat) (p : Packet) :
    t.deliver n p = t ∨
    t.deliver n p = { t with pending := Function.update t.pending p.seq none } ∨
    ∃ k c, t.pending p.seq = some k ∧ t.calls k = some c ∧ c.pc.listening = true ∧
      t.deliver n p = (({ t with pending := Function.update t.pending p.seq none }).put k
        { c with inbox := some (n, p) }).record (.answered k n p) := by
  unfold deliver
  split
  · split
    · rename_i k hk _ c hc
      split
      · exact .inr (.inr ⟨k, c, hk, hc, by assumption, rfl⟩)
      · exact .inr (.inl rfl)
    · exact .inr (.inl rfl)
  · exact .inl rfl

theorem pending_of_deliver {t : Transport} {n : Nat} {p : Packet} {s : Nat} {k : CallId}
    (h : (t.deliver n p).pending s = some k) : t.pending s = some k := by
  rcases t.deliver_cases n p with hd | hd | ⟨_, _, _, _, _, hd⟩ <;> rw [hd] at h
  · exact h
  · exact of_erased h
  · exact of_erased h

theorem deliver_calls (t : Transport) (n : Nat) (p : Packet) (j : CallId) :
    (t.deliver n p).calls j = t.calls j ∨
      ∃ c, t.calls j = some c ∧ (t.deliver n p).calls j = some { c with inbox := some (n, p) } := by
  rcases t.deliver_cases n p with h | h | ⟨k, c, _, hc, _, h⟩
  · exact .inl (by rw [h])
  · exact .inl (by rw [h])
  · by_cases hj : j = k
    · subst hj
      exact .inr ⟨c, hc, by simp [h]⟩
    · exact .inl (by simp [h, Function.update_of_ne hj])

theorem deliver_samePcs (t : Transport) (n : Nat) (p : Packet) : SamePcs t (t.deliver n p) := by
  intro j
  rcases t.deliver_calls n p j with h | ⟨c, hc, h⟩
  · rw [h]
  · simp [h, hc]

theorem deliver_frame (t : Transport) (n : Nat) (p : Packet) :
    (t.deliver n p).started = t.started ∧ (t.deliver n p).sink = t.sink ∧
      (t.deliver n p).ack = t.ack ∧ (t.deliver n p).reads = t.reads := by
  rcases t.deliver_cases n p with h | h | ⟨k, c, _, _, _, h⟩ <;> rw [h] <;>
    exact ⟨rfl, rfl, rfl, rfl⟩

theorem deliver_log (t : Transport) (n : Nat) (p : Packet) :
    (t.deliver n p).log = t.log ∨ ∃ k, (t.deliver n p).log = t.log ++ [.answered k n p] := by
  rcases t.deliver_cases n p with h | h | ⟨k, c, _, _, _, h⟩
  · exact .inl (by rw [h])
  · exact .inl (by rw [h])
  · exact .inr ⟨k, by rw [h]; rfl⟩

theorem stepAck_frame {t t' : Transport} {a : AckAction} (h : t.stepAck a = some t') :
    t'.calls = t.calls ∧ t'.started = t.started ∧ t'.sink = t.sink ∧ t'.reads = t.reads ∧
      t'.receiving = t.receiving ∧
      (t'.log = t.log ∨ ∃ n q, t.ack = .feed n q ∧ t'.ack = .flush n q ∧ a = .feed ∧
        t'.log = t.log ++ [.acked n q]) := by
  cases a with
  | start n packet | finish | drop =>
    simp only [stepAck] at h
    repeat' split at h
    all_goals cases h
    all_goals exact ⟨rfl, rfl, rfl, rfl, rfl, .inl rfl⟩
  | lockSink =>
    simp only [stepAck] at h
    repeat' split at h
    all_goals cases h
    all_goals exact ⟨rfl, rfl, rfl, rfl, rfl, .inl rfl⟩
  | feed =>
    simp only [stepAck] at h
    split at h <;> cases h
    rename_i n q hq
    exact ⟨rfl, rfl, rfl, rfl, rfl, .inr ⟨n, q, hq, rfl, rfl, rfl⟩⟩

theorem stepAck_pending {t t' : Transport} {a : AckAction} (h : t.stepAck a = some t') :
    t'.pending = t.pending ∧ t'.allocated = t.allocated := by
  cases a <;> simp only [stepAck] at h
  all_goals repeat' split at h
  all_goals cases h
  all_goals exact ⟨rfl, rfl⟩

theorem samePcs_step {t t' : Transport} {a : TransportAction} (h : t.step a = some t')
    (ha : isShared a = true) : SamePcs t t' ∧ t'.started = t.started := by
  cases a with
  | start opcode payload | call k a => simp [isShared] at ha
  | ack a =>
    obtain ⟨hc, hs, -⟩ := stepAck_frame h
    exact ⟨fun k => by rw [hc], hs⟩
  | receiveResponse =>
    simp only [step, Option.map_eq_some_iff] at h
    obtain ⟨⟨n, p⟩, _, rfl⟩ := h
    exact ⟨deliver_samePcs t n p, (deliver_frame t n p).1⟩
  | read p | install | takeSink =>
    simp only [step, Option.ite_none_right_eq_some, Option.some.injEq] at h
    obtain ⟨_, rfl⟩ := h
    exact ⟨fun _ => rfl, rfl⟩
  | abandon | clear =>
    cases h
    exact ⟨fun _ => rfl, rfl⟩

theorem pc_of_other {t t' : Transport} {a : TransportAction} {k : CallId} {c : Call}
    (hi : TransportInv t) (h : t.step a = some t') (hk : t.calls k = some c)
    (ha : ∀ b, a ≠ .call k b) : ∃ c', t'.calls k = some c' ∧ c'.pc = c.pc := by
  cases a with
  | start opcode payload =>
    cases h
    have hne : k ≠ t.started := Nat.ne_of_lt (hi.started k c hk)
    exact ⟨c, by simp [Function.update_of_ne hne, hk], rfl⟩
  | call j b =>
    obtain ⟨d, -, h⟩ := Option.bind_eq_some_iff.mp h
    obtain ⟨d', hs⟩ := stepCall_callStep h
    have hne : k ≠ j := by
      rintro rfl
      exact ha b rfl
    exact ⟨c, by rw [hs.calls, Function.update_of_ne hne, hk], rfl⟩
  | _ =>
    have hpc := (samePcs_step h rfl).1 k
    rw [hk] at hpc
    exact Option.map_eq_some_iff.mp hpc

theorem sink_step {t t' : Transport} {a : TransportAction} (h : t.step a = some t')
    (ha : movesSink a = false) : t'.sink = t.sink := by
  cases a with
  | install | takeSink => simp [movesSink] at ha
  | start opcode payload | abandon | clear =>
    cases h
    rfl
  | call k a =>
    simp only [step, Option.bind_eq_some_iff] at h
    obtain ⟨c, _, h⟩ := h
    obtain ⟨_, hs⟩ := stepCall_callStep h
    exact hs.sink
  | ack a => exact (stepAck_frame h).2.2.1
  | read p =>
    simp only [step, Option.ite_none_right_eq_some, Option.some.injEq] at h
    obtain ⟨_, rfl⟩ := h
    rfl
  | receiveResponse =>
    simp only [step, Option.map_eq_some_iff] at h
    obtain ⟨⟨n, p⟩, _, rfl⟩ := h
    exact (deliver_frame t n p).2.1

theorem grows_of_calls {t t' : Transport} (hs : t.started ≤ t'.started)
    (hc : ∀ k c, t.calls k = some c → t'.calls k = some c ∨
      ∃ i, t'.calls k = some { c with inbox := i })
    (hl : ∃ new, t'.log = t.log ++ new) : Grows t t' := by
  refine ⟨hs, fun k c h => ?_, hl⟩
  rcases hc k c h with h' | ⟨i, h'⟩
  · exact ⟨c, h', rfl, rfl, fun _ => id, id⟩
  · exact ⟨_, h', rfl, rfl, fun _ => id, id⟩

theorem grows_stepCall {t t' : Transport} {k : CallId} {c : Call} {a : CallAction}
    (hk : t.calls k = some c) (h : t.stepCall k c a = some t') : Grows t t' := by
  have hfin : c.pc.finished = false := by
    cases hf : c.pc.finished with
    | false => rfl
    | true => simp [stepCall_finished hf] at h
  obtain ⟨c', hs⟩ := stepCall_callStep h
  refine ⟨Nat.le_of_eq hs.started.symm, fun j d hd => ?_, ?_⟩
  · by_cases hj : j = k
    · subst hj
      cases hk.symm.trans hd
      refine ⟨c', by simp [hs.calls], hs.opcode, hs.payload, fun r hr => ?_, fun hd => ?_⟩
      · simp [hr, CallPc.finished] at hfin
      · simp [hd, CallPc.finished] at hfin
    · exact ⟨d, by simp [hs.calls, Function.update_of_ne hj, hd], rfl, rfl, fun _ => id, id⟩
  · rcases hs.log with h | ⟨_, _, _, h⟩ | ⟨_, _, _, h⟩
    · exact ⟨[], by simp [h]⟩
    · exact ⟨_, h⟩
    · exact ⟨_, h⟩

theorem grows_step {t t' : Transport} {a : TransportAction} (hi : TransportInv t)
    (h : t.step a = some t') : Grows t t' := by
  cases a with
  | start opcode payload =>
    cases h
    refine grows_of_calls (Nat.le_succ _) (fun k c hk => .inl ?_) ⟨[], by simp⟩
    have hne : k ≠ t.started := Nat.ne_of_lt (hi.started k c hk)
    simp [Function.update_of_ne hne, hk]
  | call k a =>
    simp only [step, Option.bind_eq_some_iff] at h
    obtain ⟨c, hc, h⟩ := h
    exact grows_stepCall hc h
  | ack a =>
    obtain ⟨hc, hs, -, -, -, hl⟩ := stepAck_frame h
    refine grows_of_calls (Nat.le_of_eq hs.symm) (fun k c hk => .inl (hc ▸ hk)) ?_
    rcases hl with hl | ⟨_, _, _, _, _, hl⟩
    · exact ⟨[], by simp [hl]⟩
    · exact ⟨_, hl⟩
  | read p =>
    simp only [step, Option.ite_none_right_eq_some, Option.some.injEq] at h
    obtain ⟨_, rfl⟩ := h
    exact grows_of_calls (Nat.le_refl _) (fun _ _ => .inl) ⟨_, rfl⟩
  | receiveResponse =>
    simp only [step, Option.map_eq_some_iff] at h
    obtain ⟨⟨n, p⟩, _, rfl⟩ := h
    refine grows_of_calls (Nat.le_of_eq (deliver_frame t n p).1.symm) (fun k c hk => ?_) ?_
    · rcases deliver_calls t n p k with h | ⟨d, hd, h⟩
      · exact .inl (h.trans hk)
      · cases hk.symm.trans hd
        exact .inr ⟨_, h⟩
    · rcases deliver_log t n p with h | ⟨k, h⟩
      · exact ⟨[], by simp [h]⟩
      · exact ⟨_, h⟩
  | install | takeSink =>
    simp only [step, Option.ite_none_right_eq_some, Option.some.injEq] at h
    obtain ⟨_, rfl⟩ := h
    exact grows_of_calls (Nat.le_refl _) (fun _ _ => .inl) ⟨[], by simp⟩
  | abandon | clear =>
    cases h
    exact grows_of_calls (Nat.le_refl _) (fun _ _ => .inl) ⟨[], by simp⟩

theorem grows_leads {t t' : Transport} (hr : automaton.Reachable t)
    (h : automaton.Leads t t') : Grows t t' := by
  induction h with
  | refl => exact .refl _
  | tail hp _ hs ih =>
    exact ih.trans (grows_step (transportInv_of_reachable (hr.path hp)) hs)

def Emits (t : Transport) : TransportEvent → Prop
  | .wrote k q => ∃ c s, t.calls k = some c ∧ c.pc = .feed s ∧ q = c.request s
  | .answered _ n p => t.receiving = some (n, p)
  | _ => True

def LogStep (t t' : Transport) : Prop :=
  t'.log = t.log ∨ ∃ e, t'.log = t.log ++ [e] ∧ Emits t e

theorem log_step {t t' : Transport} {a : TransportAction} (h : t.step a = some t') :
    LogStep t t' := by
  cases a with
  | start opcode payload | abandon | clear =>
    cases h
    exact .inl rfl
  | call k a =>
    simp only [step, Option.bind_eq_some_iff] at h
    obtain ⟨c, hc, h⟩ := h
    obtain ⟨c', hs⟩ := stepCall_callStep h
    rcases hs.log with he | ⟨s, _, _, he⟩ | ⟨s, hp, _, he⟩
    · exact .inl he
    · exact .inr ⟨_, he, trivial⟩
    · exact .inr ⟨_, he, c, s, hc, hp, rfl⟩
  | ack a =>
    rcases (stepAck_frame h).2.2.2.2.2 with he | ⟨n, q, _, _, _, he⟩
    · exact .inl he
    · exact .inr ⟨_, he, trivial⟩
  | read p =>
    simp only [step, Option.ite_none_right_eq_some, Option.some.injEq] at h
    obtain ⟨_, rfl⟩ := h
    exact .inr ⟨_, rfl, trivial⟩
  | receiveResponse =>
    simp only [step, Option.map_eq_some_iff] at h
    obtain ⟨⟨n, p⟩, hr, rfl⟩ := h
    rcases deliver_log t n p with he | ⟨k, he⟩
    · exact .inl he
    · exact .inr ⟨_, he, hr⟩
  | install | takeSink =>
    simp only [step, Option.ite_none_right_eq_some, Option.some.injEq] at h
    obtain ⟨_, rfl⟩ := h
    exact .inl rfl

theorem log_quiet {t t' : Transport} {a : TransportAction} (h : t.step a = some t')
    (ha : (∃ n q, a = .ack (.start n q)) ∨ a = .ack .drop ∨ a = .abandon ∨
      ∃ k, a = .call k .drop) : t'.log = t.log := by
  rcases ha with ⟨n, q, rfl⟩ | rfl | rfl | ⟨k, rfl⟩
  · replace h : t.stepAck (.start n q) = some t' := h
    rcases (stepAck_frame h).2.2.2.2.2 with he | ⟨_, _, _, _, hf, _⟩
    · exact he
    · cases hf
  · replace h : t.stepAck .drop = some t' := h
    rcases (stepAck_frame h).2.2.2.2.2 with he | ⟨_, _, _, _, hf, _⟩
    · exact he
    · cases hf
  · cases h
    rfl
  · simp only [step, Option.bind_eq_some_iff] at h
    obtain ⟨c, _, h⟩ := h
    simp only [stepCall] at h
    split at h <;> cases h
    rfl

/-- `receive_response` is about the last frame that was read. -/
theorem receiving_last {t : Transport} (h : automaton.Reachable t) :
    ∀ n p, t.receiving = some (n, p) → n + 1 = t.reads := by
  refine h.invariant (I := fun t => ∀ n p, t.receiving = some (n, p) → n + 1 = t.reads)
    (fun t ht => ?_) fun t a t' hs hi => ?_
  · subst ht
    exact nofun
  · replace hs : t.step a = some t' := hs
    cases a with
    | start opcode payload | clear =>
      cases hs
      exact hi
    | abandon =>
      cases hs
      exact nofun
    | call k b =>
      obtain ⟨c, -, hs⟩ := Option.bind_eq_some_iff.mp hs
      obtain ⟨c', hc⟩ := stepCall_callStep hs
      rw [hc.receiving, hc.reads]
      exact hi
    | ack b =>
      obtain ⟨-, -, -, hreads, hrec, -⟩ := stepAck_frame hs
      rw [hrec, hreads]
      exact hi
    | receiveResponse =>
      obtain ⟨f, -, rfl⟩ := Option.map_eq_some_iff.mp hs
      exact nofun
    | read q =>
      simp only [step, Option.ite_none_right_eq_some, Option.some.injEq] at hs
      obtain ⟨_, rfl⟩ := hs
      intro n p hn
      dsimp only at hn
      split at hn <;> cases hn
      rfl
    | install | takeSink =>
      simp only [step, Option.ite_none_right_eq_some, Option.some.injEq] at hs
      obtain ⟨_, rfl⟩ := hs
      exact hi

end Maxrs.Transport
