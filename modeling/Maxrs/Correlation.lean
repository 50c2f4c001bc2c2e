import Maxrs.TransportInv
set_option autoImplicit false

/-! Which frame a call returns. -/
namespace Maxrs.Transport

/-- Frame `n` came off the socket after call `k` had registered under `s`. -/
def ReadAfterRegistered (log : List TransportEvent) (k : CallId) (s n : Nat) (p : Packet) : Prop :=
  ∃ before after, log = before ++ .read n p :: after ∧ .registered k s ∈ before

/-- `receive_response` took frame `n` to the waiter of `k` after `k` had registered under `s`. -/
def MatchedAfterRegistered (log : List TransportEvent) (k : CallId) (s n : Nat) (p : Packet) :
    Prop :=
  ∃ before after, log = before ++ .answered k n p :: after ∧ .registered k s ∈ before

/-- `Ok` or `Error::Server`, the results that a frame stands behind. -/
def byFrame : Except Error Packet → Bool
  | .ok _ => true
  | .error e => isServerError e

theorem not_byFrame_of_transport {e : Error} (h : isTransportFailure e = true) :
    byFrame (.error e) = false := by
  cases e <;> simp_all [byFrame, isServerError, isTransportFailure]

theorem respond_error {p : Packet} (opcode : Nat) (h : p.cmd = CMD_ERROR) :
    respond opcode p = .error (.server opcode (errorMessage p.payload)) := by
  simp [respond, Packet.isError, h]

theorem respond_ok {p : Packet} (opcode : Nat) (h : p.cmd ≠ CMD_ERROR) :
    respond opcode p = .ok p := by
  simp [respond, Packet.isError, h]

theorem seqOf_injective {i j : Nat} (hi : i < 2 ^ 32) (hj : j < 2 ^ 32) (h : seqOf i = seqOf j) :
    i = j := by
  unfold seqOf at h
  omega

theorem allocated_le_started {t : Transport} (hi : TransportInv t) : t.allocated ≤ t.started := by
  have hex : ∀ i : Fin t.allocated, ∃ k : Fin t.started, ∃ c,
      t.calls k = some c ∧ c.turn = some i.val := by
    intro i
    obtain ⟨k, c, hk, hc⟩ := hi.covered i i.isLt
    exact ⟨⟨k, hi.started k c hk⟩, c, hk, hc⟩
  choose f hf using hex
  have hinj : Function.Injective f := by
    intro i j hij
    obtain ⟨c, hc, hci⟩ := hf i
    obtain ⟨d, hd, hdj⟩ := hf j
    rw [hij, hd] at hc
    cases hc
    exact Fin.ext (Option.some.inj (hci.symm.trans hdj))
  simpa using Fintype.card_le_of_injective f hinj

/-- Before the counter wraps, a sequence number names one call. -/
theorem seq_unique {t : Transport} {k k' : CallId} {c c' : Call} {s : Nat} (hi : TransportInv t)
    (hfew : t.started < 2 ^ 32) (hk : t.calls k = some c) (hk' : t.calls k' = some c')
    (hs : c.seq = some s) (hs' : c'.seq = some s) : k = k' := by
  obtain ⟨i, hci, rfl⟩ := Option.map_eq_some_iff.mp hs
  obtain ⟨j, hcj, he⟩ := Option.map_eq_some_iff.mp hs'
  have hle := allocated_le_started hi
  have hlt := (hi.calls k c hk).turn i hci
  have hlt' := (hi.calls k' c' hk').turn j hcj
  have hij : j = i := seqOf_injective (by omega) (by omega) he
  exact hi.turns k k' c c' i hk hk' hci (hij ▸ hcj)

theorem pending_ne_of_unregistered {t : Transport} {k : CallId} {c : Call} (hi : TransportInv t)
    (hk : t.calls k = some c) (hu : c.pc.unregistered = true) (s : Nat) :
    t.pending s ≠ some k := by
  intro hp
  obtain ⟨d, hd, -, -, hreg, -⟩ := hi.pending s k hp
  cases hk.symm.trans hd
  cases hu.symm.trans hreg

theorem pending_of_answered {t : Transport} {k : CallId} {c : Call} {s : Nat}
    (hi : TransportInv t) (hfew : t.started < 2 ^ 32) (hk : t.calls k = some c)
    (hs : c.seq = some s) (hin : c.inbox ≠ none) : t.pending s = none := by
  cases hp : t.pending s with
  | none => rfl
  | some j =>
    obtain ⟨d, hd, hds, hdi, -⟩ := hi.pending s j hp
    have hjk : j = k := seq_unique hi hfew hd hk hds hs
    subst hjk
    cases hk.symm.trans hd
    exact absurd hdi hin

theorem deliver_unknown {t : Transport} {n : Nat} {p : Packet} (h : t.pending p.seq = none) :
    t.deliver n p = t := by simp [deliver, h]

theorem returned_byFrame {t : Transport} {k : CallId} {c : Call} {r : Except Error Packet}
    (hi : TransportInv t) (hk : t.calls k = some c) (hr : c.pc = .returned r)
    (hf : byFrame r = true) :
    ∃ n p s, c.inbox = some (n, p) ∧ c.seq = some s ∧ .wrote k (c.request s) ∈ t.log ∧
      .answered k n p ∈ t.log ∧ p.seq = s ∧ p.isRequest = false ∧ r = respond c.opcode p := by
  rcases (hi.calls k c hk).returned r hr with ⟨n, p, s, hin, hs, hw, hrp⟩ | ⟨e, rfl, he⟩
  · have ha := (hi.calls k c hk).answered n p hin
    obtain ⟨-, hq, d, hd, -, hds⟩ := hi.answered k n p ha
    cases hk.symm.trans hd
    exact ⟨n, p, s, hin, hs, hw, ha, Option.some.inj (hds.symm.trans hs), hq, hrp⟩
  · simp [not_byFrame_of_transport he] at hf

/-- What an invoke returns, who else may consume its frame, and what stray frames do. -/
theorem invoke_correlation {t : Transport} (h : automaton.Reachable t)
    (hfew : t.started < 2 ^ 32) :
    (∀ k c r, t.calls k = some c → c.pc = .returned r → byFrame r = true →
      ∃ n p s, c.inbox = some (n, p) ∧ .read n p ∈ t.log ∧
        MatchedAfterRegistered t.log k s n p ∧
        c.seq = some s ∧ .wrote k (Packet.request s c.opcode c.payload) ∈ t.log ∧ p.seq = s ∧
        p.cmd ≠ CMD_REQUEST ∧
        (p.cmd = CMD_ERROR → r = .error (.server c.opcode (errorMessage p.payload))) ∧
        (p.cmd ≠ CMD_ERROR → r = .ok p)) ∧
    (∀ k k' n p p', .answered k n p ∈ t.log → .answered k' n p' ∈ t.log → k = k') ∧
    (∀ n p t', t.receiving = some (n, p) → t.step .receiveResponse = some t' →
      (t.pending p.seq = none ∨
        ∃ k c, t.calls k = some c ∧ c.seq = some p.seq ∧ c.inbox ≠ none) →
      t'.calls = t.calls ∧ t'.pending = t.pending) := by
  have hi := transportInv_of_reachable h
  refine ⟨fun k c r hk hr hf => ?_, hi.once, fun n p t' hrec hstep hstray => ?_⟩
  · obtain ⟨n, p, s, hin, hs, hw, ha, hps, hq, hrp⟩ := returned_byFrame hi hk hr hf
    obtain ⟨before, after, hlog, hreg, hread⟩ := hi.order.split ha
    refine ⟨n, p, s, hin, by simp [hlog, hread], ⟨before, after, hlog, hps ▸ hreg⟩, hs, hw, hps,
      by simpa [Packet.isRequest] using hq, fun he => ?_, fun he => ?_⟩
    · rw [hrp, respond_error c.opcode he]
    · rw [hrp, respond_ok c.opcode he]
  · have hnone : t.pending p.seq = none := by
      rcases hstray with hp | ⟨k, c, hk, hs, hin⟩
      · exact hp
      · exact pending_of_answered hi hfew hk hs hin
    simp only [step, hrec, Option.map_some, Option.some.injEq] at hstep
    rw [← hstep, deliver_unknown hnone]
    exact ⟨rfl, rfl⟩

/-- Two invokes whose responses arrive in the opposite order. -/
theorem invoke_correlation_crossed : ∃ t : Transport, t.started = 2 ∧
    (∃ c p, t.calls 0 = some c ∧ c.pc = .returned (.ok p) ∧
      ∃ n q s, c.inbox = some (n, q) ∧ MatchedAfterRegistered t.log 0 s n q ∧ q.seq = s) := by
  let run : List TransportAction :=
    [.install, .start 1 .null, .start 1 .null,
      .call 0 .lockOrder, .call 0 .allocate, .call 0 .register, .call 0 .lockSink, .call 0 .feed,
      .call 0 .flushed,
      .call 1 .lockOrder, .call 1 .allocate, .call 1 .register, .call 1 .lockSink, .call 1 .feed,
      .call 1 .flushed,
      .read (Packet.response 2 1 .null), .receiveResponse,
      .read (Packet.response 1 1 .null), .receiveResponse, .call 0 .answered]
  have hr : automaton.Reachable ((automaton.exec new run).get rfl) :=
    Automaton.reachable_get rfl
  obtain ⟨n, p, s, hin, -, hm, -, -, hs, -⟩ :=
    (invoke_correlation hr (by decide)).1 0 _ _ rfl rfl rfl
  exact ⟨_, rfl, _, _, rfl, rfl, n, p, s, hin, hm, hs⟩

/-- The reader holds frame 1 in `receive_response`, waiting for the mutex under which call 0
registers: the frame was read first and answers the call all the same. -/
theorem early_frame_answers : ¬ ∀ t, automaton.Reachable t → t.started < 2 ^ 32 →
    ∀ k c p, t.calls k = some c → c.pc = .returned (.ok p) →
      ∃ n s, c.inbox = some (n, p) ∧ c.seq = some s ∧ ReadAfterRegistered t.log k s n p := by
  intro hall
  let run : List TransportAction :=
    [.install, .start 1 .null, .call 0 .lockOrder, .call 0 .allocate,
      .read (Packet.response 1 1 .null), .call 0 .register, .receiveResponse,
      .call 0 .lockSink, .call 0 .feed, .call 0 .flushed, .call 0 .answered]
  have hr : automaton.Reachable ((automaton.exec new run).get rfl) :=
    Automaton.reachable_get rfl
  obtain ⟨n, s, -, -, before, after, hlog, hreg⟩ := hall _ hr (by decide) 0 _ _ rfl rfl
  have hrun : ((automaton.exec new run).get rfl).log =
      [.read 0 (Packet.response 1 1 .null), .registered 0 1,
        .answered 0 0 (Packet.response 1 1 .null), .wrote 0 (Packet.request 1 1 .null)] := rfl
  rw [hrun] at hlog
  cases before with
  | nil => simp at hreg
  | cons first rest =>
    -- the only frame is the first event
    have hread : TransportEvent.read n (Packet.response 1 1 .null) ∈ rest ++
        .read n (Packet.response 1 1 .null) :: after := by simp
    rw [List.cons_append, List.cons.injEq] at hlog
    rw [← hlog.2] at hread
    simp at hread

end Maxrs.Transport
