import Maxrs.ClientInv
set_option autoImplicit false

/-! The order of request frames on one connection. -/
namespace Maxrs

namespace Session

def RequestAnswered (log : List TransportEvent) (q p : Packet) : Prop :=
  ∃ k n, .wrote k q ∈ log ∧ .answered k n p ∈ log ∧ p.seq = q.seq ∧ p.cmd ≠ CMD_REQUEST ∧
    p.cmd ≠ CMD_ERROR

def openingRequest (deviceId : String) : Packet :=
  Packet.request 1 Opcode.SESSION_INIT (sessionInitPayload .default deviceId)

def WireOrder (deviceId : String) (before : List TransportEvent) : TransportEvent → Prop
  | .wrote _ q =>
    (((∀ k p, .wrote k p ∉ before) ∧ q = openingRequest deviceId) ∨
      ∃ p, RequestAnswered before (openingRequest deviceId) p) ∧
    (q.opcode = Opcode.MSG_SEND ∨ q.opcode = Opcode.FILE_UPLOAD →
      ∃ s token u p, RequestAnswered before (Packet.request s Opcode.LOGIN (loginPayload token)) p ∧
        userIdFromLoginPayload p.payload = .ok u)
  | _ => True

variable {fromStr : String → Except String Packet} {deviceId : String} {s s' : Session}

theorem RequestAnswered.later {log log' : List TransportEvent} {q p : Packet}
    (h : RequestAnswered log q p) : RequestAnswered (log ++ log') q p := by
  obtain ⟨k, n, hw, ha, hs⟩ := h
  exact ⟨k, n, List.mem_append_left _ hw, List.mem_append_left _ ha, hs⟩

theorem requestAnswered_of_returned {k : CallId} {c : Call} {p : Packet}
    (hg : GenerationInv s.generation) (hk : s.generation.transport.calls k = some c)
    (hr : s.generation.invokes k = some (.returned (.ok p))) :
    ∃ sq, .wrote k (c.request sq) ∈ s.generation.transport.log ∧
      RequestAnswered s.generation.transport.log (c.request sq) p := by
  have hpc : c.pc = .returned (.ok p) := by
    rcases (hg.invokes k _ c hr hk).returned _ rfl with h | ⟨-, h⟩
    · exact h
    · cases h
  obtain ⟨n, p', sq, -, -, hw, ha, hs, hq, hres⟩ :=
    Transport.returned_byFrame (Transport.transportInv_of_reachable hg.transport) hk hpc rfl
  have hcmd : p'.cmd ≠ CMD_ERROR := by
    intro he
    rw [Transport.respond_error c.opcode he] at hres
    cases hres
  rw [Transport.respond_ok c.opcode hcmd] at hres
  cases hres
  exact ⟨sq, hw, k, n, hw, ha, hs, by simpa [Packet.isRequest] using hq, hcmd⟩

theorem opening_request {c : Call} {sq : Nat} (hi : Inv deviceId s)
    (hk : s.generation.transport.calls 0 = some c) (hp : c.pc = .feed sq) :
    (∀ k p, .wrote k p ∉ s.generation.transport.log) ∧ c.request sq = openingRequest deviceId := by
  have hreach := hi.generation.transport
  have hti := Transport.transportInv_of_reachable hreach
  have alone : ∀ k d, s.generation.transport.calls k = some d → k = 0 := by
    intro k d hd
    by_contra hne
    obtain ⟨p, hret⟩ := hi.calls.init (hi.calls.later k d hd hne)
    rcases (hi.generation.invokes 0 _ c hret hk).returned _ rfl with h | ⟨h, -⟩ <;> simp [hp] at h
  constructor
  · intro k p hw
    obtain ⟨d, _, hd, -⟩ := Transport.wroteInv_of_reachable hreach k p hw
    cases alone k d hd
    exact Transport.unwritten_of_feed hreach hk hp hw
  · have hseq := (hti.calls 0 c hk).seq sq (by simp [hp, CallPc.seq?])
    obtain ⟨i, hturn, rfl⟩ := Option.map_eq_some_iff.mp hseq
    have hi0 : i = 0 := by
      obtain ⟨k, d, hd, hdt⟩ := hti.covered 0
        (Nat.lt_of_le_of_lt (Nat.zero_le i) ((hti.calls 0 c hk).turn i hturn))
      cases alone k d hd
      cases hk.symm.trans hd
      exact Option.some.inj (hturn.symm.trans hdt)
    obtain ⟨ho, hpay⟩ := hi.calls.first c hk
    rw [hi0, Call.request, ho, hpay]
    rfl

theorem wireOrder_emits {e : TransportEvent} (hi : Inv deviceId s)
    (hj : History.Justified (WireOrder deviceId) s.generation.transport.log)
    (he : s.generation.transport.Emits e) : WireOrder deviceId s.generation.transport.log e := by
  cases e with
  | wrote k q =>
    obtain ⟨c, sq, hk, hp, rfl⟩ := he
    refine ⟨?_, fun ho => ?_⟩
    · by_cases hk0 : k = 0
      · subst hk0
        exact .inl (opening_request hi hk hp)
      · -- the response to the first call is there, and the first call wrote the opening request
        obtain ⟨p, hret⟩ := hi.calls.init (hi.calls.later k c hk hk0)
        have hsome := hi.generation.started 0
        rw [hret] at hsome
        obtain ⟨d, hd⟩ := Option.isSome_iff_exists.mp hsome.symm
        obtain ⟨s₀, hw, hans⟩ := requestAnswered_of_returned hi.generation hd hret
        obtain ⟨before, after, hlog, ⟨-, heq⟩ | ⟨p', hp'⟩, -⟩ := hj.split hw
        · exact .inr ⟨p, heq ▸ hans⟩
        · exact .inr ⟨p', hlog ▸ hp'.later⟩
    · obtain ⟨token, u, p, hest⟩ :=
        established_of_published hi.trace.faithful (hi.calls.sends k c hk ho)
      obtain ⟨j, d, hd, hdo, hdp, hret⟩ := hi.calls.answered _ _ _ hest.login
      obtain ⟨s₀, -, hans⟩ := requestAnswered_of_returned hi.generation hd hret
      rw [Call.request, hdo, hdp] at hans
      exact ⟨s₀, token, u, p, hans, hest.userId⟩
  | _ => trivial

/-- The opening request comes first, its response second, and nothing is sent before a login. -/
theorem wireOrder_of_reachable (h : (automaton fromStr deviceId).Reachable s) :
    History.Justified (WireOrder deviceId) s.generation.transport.log := by
  refine h.invariant_of
    (I := fun s => History.Justified (WireOrder deviceId) s.generation.transport.log) ?_
    fun s b s' hr hs hj => ?_
  · rintro _ ⟨config, b, rfl⟩
    exact History.justified_nil
  · rcases (change_step hs).generation with he | ⟨a, ha, -⟩
    · exact he ▸ hj
    · rcases Generation.logStep_step ha with hl | ⟨e, hl, hem⟩
      · exact hl ▸ hj
      · rw [hl]
        exact History.justified_snoc hj (wireOrder_emits (inv_of_reachable hr) hj hem)

end Session

namespace Client

/-- On every connection: the opening request is written first, nothing else before its response,
and no message before the response to a login on this connection. -/
theorem protocol_order {setup : Setup} {w : Client} (h : (automaton setup).Reachable w)
    {c : ConnId} (hc : c < w.shared.created) {before after : List TransportEvent} {k : CallId}
    {q : Packet}
    (hlog : (w.shared.sessions c).generation.transport.log = before ++ .wrote k q :: after) :
    ((∀ j p, .wrote j p ∉ before) → q = Session.openingRequest setup.deviceId) ∧
    ((∃ j p, .wrote j p ∈ before) →
      ∃ p, Session.RequestAnswered before (Session.openingRequest setup.deviceId) p) ∧
    (q.opcode = Opcode.MSG_SEND ∨ q.opcode = Opcode.FILE_UPLOAD →
      ∃ s token u p,
        Session.RequestAnswered before (Packet.request s Opcode.LOGIN (loginPayload token)) p ∧
        userIdFromLoginPayload p.payload = .ok u) := by
  have hsession := (clientInv_of_reachable h).shared.sessions c hc
  obtain ⟨hfirst, hsend⟩ := Session.wireOrder_of_reachable hsession before _ after hlog
  refine ⟨fun hno => ?_, fun ⟨j, p, hw⟩ => ?_, hsend⟩
  · rcases hfirst with ⟨-, hq⟩ | ⟨p, j, n, hw, -⟩
    · exact hq
    · exact absurd hw (hno j _)
  · rcases hfirst with ⟨hno, -⟩ | hans
    · exact absurd hw (hno j p)
    · exact hans

/-- A message behind a login: the login request and its response precede it on the wire. -/
theorem protocol_order_text : ∃ w : Client, (automaton sampleSetup).Reachable w ∧
    ∃ before q after, q.opcode = Opcode.MSG_SEND ∧
      (w.shared.sessions 0).generation.transport.log = before ++ .wrote 2 q :: after ∧
      ∃ s token u p,
        Session.RequestAnswered before (Packet.request s Opcode.LOGIN (loginPayload token)) p ∧
        userIdFromLoginPayload p.payload = .ok u := by
  have hr : (automaton sampleSetup).Reachable
      (((automaton sampleSetup).exec (new sampleSetup 0) sampleSend).get rfl) :=
    Automaton.reachable_get ⟨0, rfl⟩
  refine ⟨_, hr, _, _, [], rfl, rfl, ?_⟩
  exact (protocol_order hr (c := 0) (by decide) rfl).2.2 (.inl rfl)

end Client

end Maxrs
