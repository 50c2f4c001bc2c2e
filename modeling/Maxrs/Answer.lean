import Maxrs.GenerationInv
set_option autoImplicit false

/-! What becomes of a response once `receive_response` has handed it to a waiter. -/
namespace Maxrs

/-- The request is registered and on its way, or has failed on it. -/
def CallPc.inSend : CallPc → Bool
  | .sink _ | .feed _ | .flush _ | .unregister _ _ => true
  | _ => false

namespace Transport

/-- What can become of a call whose oneshot is filled; `sent` says that its request has left. -/
inductive Keeps (sent : Bool) (opcode : Nat) (p : Packet) : CallPc → Prop where
  | inSend (pc : CallPc) : sent = false → pc.inSend = true → pc.Cause opcode →
      Keeps sent opcode p pc
  | await (s : Nat) : Keeps sent opcode p (.await s)
  | failed (e : Error) : sent = false → SendFailure opcode e →
      Keeps sent opcode p (.returned (.error e))
  | returned : Keeps sent opcode p (.returned (respond opcode p))
  | dropped : Keeps sent opcode p .dropped

variable {sent : Bool}

theorem keeps_stepCall {t t' : Transport} {k : CallId} {c d : Call} {a : CallAction} {n : Nat}
    {p : Packet} (h : t.stepCall k c a = some t') (hd : t'.calls k = some d)
    (hin : c.inbox = some (n, p)) (hc : Keeps sent c.opcode p c.pc) :
    Keeps sent c.opcode p d.pc := by
  have unsent : ∀ {pc : CallPc}, c.pc = pc → pc.inSend = true → sent = false := by
    intro pc hp hs
    rw [hp] at hc
    cases hc with
    | inSend _ hs _ _ => exact hs
    | _ => cases hs
  cases callTurn h hd with
  | lockOrder hp _ | allocate hp | register s hp _ | duplicate s hp _ | forget s e hp =>
    rw [hp] at hc
    cases hc with
    | inSend _ _ hs _ => cases hs
  | lockSink s hp _ _ | feed s hp => exact .inSend _ (unsent hp rfl) rfl trivial
  | noSink s hp _ _ => exact .inSend _ (unsent hp rfl) rfl (.inl rfl)
  | flushed s hp => exact .await _
  | sendFailed s reason hp =>
    have hs : sent = false := by rcases hp with hp | hp <;> exact unsent hp rfl
    exact .inSend _ hs rfl (.inr (.inr ⟨_, rfl⟩))
  | sendTimedOut s hp =>
    have hs : sent = false := by rcases hp with hp | hp <;> exact unsent hp rfl
    exact .inSend _ hs rfl (.inr (.inl rfl))
  | unregister s e hp =>
    rw [hp] at hc
    cases hc with
    | inSend _ hs _ he => exact .failed _ hs he
  | answered s m q hp hq =>
    cases hin.symm.trans hq
    exact .returned
  | closed s hp hnone _ | timedOut s hp hnone _ => cases hin.symm.trans hnone
  | drop hf => exact .dropped

theorem keeps_step {t t' : Transport} {a : TransportAction} {k : CallId} {c : Call} {n : Nat}
    {p : Packet} (h : t.step a = some t') (hi : TransportInv t) (hk : t.calls k = some c)
    (hin : c.inbox = some (n, p)) (hc : Keeps sent c.opcode p c.pc) :
    ∃ c', t'.calls k = some c' ∧ c'.inbox = some (n, p) ∧ c'.opcode = c.opcode ∧
      Keeps sent c.opcode p c'.pc := by
  cases a with
  | start opcode payload =>
    cases h
    have hne : k ≠ t.started := Nat.ne_of_lt (hi.started k c hk)
    exact ⟨c, by simp [Function.update_of_ne hne, hk], hin, rfl, hc⟩
  | call j b =>
    simp only [step, Option.bind_eq_some_iff] at h
    obtain ⟨d, hd, h⟩ := h
    obtain ⟨d', hs⟩ := stepCall_callStep h
    by_cases hj : k = j
    · subst hj
      cases hk.symm.trans hd
      have hd' : t'.calls k = some d' := by simp [hs.calls]
      exact ⟨d', hd', hs.inbox.trans hin, hs.opcode, keeps_stepCall h hd' hin hc⟩
    · exact ⟨c, by simp [hs.calls, Function.update_of_ne hj, hk], hin, rfl, hc⟩
  | receiveResponse =>
    simp only [step, Option.map_eq_some_iff] at h
    obtain ⟨⟨m, q⟩, _, rfl⟩ := h
    rcases t.deliver_cases m q with he | he | ⟨j, d, hp, hd, _, he⟩
    · exact ⟨c, by simp [he, hk], hin, rfl, hc⟩
    · exact ⟨c, by simp [he, hk], hin, rfl, hc⟩
    · obtain ⟨d', hd', _, hdi, _⟩ := hi.pending q.seq j hp
      cases hd.symm.trans hd'
      have hne : k ≠ j := by
        rintro rfl
        cases hk.symm.trans hd
        simp [hin] at hdi
      exact ⟨c, by simp [he, Function.update_of_ne hne, hk], hin, rfl, hc⟩
  | ack b =>
    have hf := stepAck_frame h
    exact ⟨c, by rw [hf.1, hk], hin, rfl, hc⟩
  | read q | install | takeSink =>
    simp only [step, Option.ite_none_right_eq_some, Option.some.injEq] at h
    obtain ⟨_, rfl⟩ := h
    exact ⟨c, hk, hin, rfl, hc⟩
  | abandon | clear =>
    cases h
    exact ⟨c, hk, hin, rfl, hc⟩

theorem keeps_leads {t t' : Transport} {k : CallId} {c : Call} {n : Nat} {p : Packet}
    (hr : automaton.Reachable t) (h : automaton.Leads t t') (hk : t.calls k = some c)
    (hin : c.inbox = some (n, p)) (hc : Keeps sent c.opcode p c.pc) :
    ∃ c', t'.calls k = some c' ∧ c'.inbox = some (n, p) ∧ c'.opcode = c.opcode ∧
      Keeps sent c.opcode p c'.pc := by
  induction h with
  | refl => exact ⟨c, hk, hin, rfl, hc⟩
  | tail hp _ hs ih =>
    obtain ⟨d, hd, hdi, hdo, hdc⟩ := ih
    obtain ⟨e, he, hei, heo, hec⟩ :=
      keeps_step hs (transportInv_of_reachable (hr.path hp)) hd hdi (hdo.symm ▸ hdc)
    exact ⟨e, he, hei, heo.trans hdo, hdo ▸ hec⟩

theorem failsTransport_respond (opcode : Nat) (p : Packet) :
    failsTransport (respond opcode p) = false := by
  unfold respond
  split <;> rfl

end Transport

namespace Generation

variable {fromStr : String → Except String Packet} {g g' : Generation} {k : CallId} {c : Call}
  {n : Nat} {p : Packet}

theorem leads_transport (h : (automaton fromStr).Leads g g') :
    Transport.automaton.Leads g.transport g'.transport := by
  induction h with
  | refl => exact .refl
  | tail _ _ hs ih => exact ih.trans (transport_step hs)

/-- The oneshot of an invoke has been filled, and its timer has not fired. -/
def Delivered (g : Generation) (k : CallId) (c : Call) (n : Nat) (p : Packet) : Prop :=
  g.transport.calls k = some c ∧ c.inbox = some (n, p) ∧
    (c.pc.inSend = true ∨ ∃ s, c.pc = .await s)

/-- A poll of the invoke has found the token cancelled, and has dropped the future inside. -/
def CutOff (g : Generation) (k : CallId) : Prop :=
  g.invokes k = some (.returned (.error .connectionClosed)) ∧ g.cancelled = true ∧
    ∃ c, g.transport.calls k = some c ∧ c.pc = .dropped

/-- It returns this response, unless its connection was cancelled under it or its request fails,
or has failed, to be sent to the end. -/
theorem delivered_returns {r : Except Error Packet} (hi : GenerationInv g)
    (hp : Transport.automaton.Leads g.transport g'.transport) (hi' : GenerationInv g')
    (hd : Delivered g k c n p) (hret : g'.invokes k = some (.returned r)) :
    r = respond c.opcode p ∨ CutOff g' k ∨
      (c.pc.inSend = true ∧ ∃ e, r = .error e ∧ Transport.SendFailure c.opcode e) := by
  obtain ⟨hk, hin, hpc⟩ := hd
  have hcause : c.pc.Cause c.opcode :=
    ((Transport.transportInv_of_reachable hi.transport).calls k c hk).failure
  have hkeeps : Transport.Keeps (!c.pc.inSend) c.opcode p c.pc := by
    rcases hpc with hs | ⟨s, hs⟩
    · exact .inSend _ (by simp [hs]) hs hcause
    · exact hs ▸ .await s
  obtain ⟨c', hk', _, _, hc'⟩ :=
    Transport.keeps_leads hi.transport hp hk hin hkeeps
  have hinv := hi'.invokes k _ c' hret hk'
  rcases hinv.returned r rfl with hpc' | ⟨hpc', rfl⟩
  · rw [hpc'] at hc'
    cases hc' with
    | inSend _ _ hs _ => cases hs
    | failed e hs he => exact .inr (.inr ⟨by simpa using hs, e, rfl, he⟩)
    | returned => exact .inl rfl
  · exact .inr (.inl ⟨hret, hinv.failure _ rfl rfl, c', hk', hpc'⟩)

theorem cutOff_step {a : GenerationAction} (h : g.step fromStr a = some g')
    (hi : GenerationInv g) (hc : CutOff g' k) :
    CutOff g k ∨ (g.invokes k = some .parked ∧ g.cancelled = true) := by
  obtain ⟨hret, -, c', hk', hpc'⟩ := hc
  have old : ∀ {c}, g.invokes k = some (.returned (.error .connectionClosed)) →
      g.transport.calls k = some c → c.pc = .dropped → CutOff g k := fun hr hk hpc =>
    ⟨hr, (hi.invokes k _ _ hr hk).failure _ rfl rfl, _, hk, hpc⟩
  rcases step_effect h with hq | ⟨o, p, m, hm, ht, hv, -, -⟩ | ⟨j, b, m, hm, ht, hv, -⟩
  · rw [hq.invokes] at hret
    have hpc := hq.calls k
    rw [hk'] at hpc
    obtain ⟨c, hk, hcc⟩ := Option.map_eq_some_iff.mp hpc.symm
    exact .inl (old hret hk (hcc.trans hpc'))
  · obtain ⟨hcalls, hinv, -, -⟩ := invoke_calls hm
    rw [hv, hinv] at hret
    rw [ht, hcalls] at hk'
    by_cases hj : k = g.transport.started
    · rw [hj, Function.update_self] at hret
      cases hret
    · rw [Function.update_of_ne hj] at hret hk'
      exact .inl (old hret hk' hpc')
  · rw [hv] at hret
    rw [ht] at hk'
    by_cases hj : k = j
    · subst hj
      rcases stepInvoke_cases hm with ⟨-, hp, hcan, rfl⟩ | ⟨-, -, -, rfl⟩ | ⟨-, -, -, rfl⟩ |
        ⟨_, _, -, -, hp, -, rfl⟩ | ⟨r, -, -, hres, rfl⟩ | ⟨-, -, rfl⟩
      · exact .inr ⟨hp, hcan⟩
      · simp [setInvoke] at hret
      · simp [setInvoke] at hret
      · rw [hp] at hret
        cases hret
      · obtain ⟨d, hd, hdp⟩ := result_eq hres
        cases hd.symm.trans hk'
        rw [hpc'] at hdp
        cases hdp
      · simp [setInvoke] at hret
    · obtain ⟨-, -, hother, -⟩ := stepInvoke_frame hm
      rw [(hother k hj).2] at hret
      rw [(hother k hj).1] at hk'
      exact .inl (old hret hk' hpc')

theorem delivered_polled {s : Nat} (hd : Delivered g k c n p) (hs : c.pc = .await s)
    (hi : g.invokes k = some .parked) (hc : g.cancelled = false) :
    ∃ g', (automaton fromStr).exec g
      [.onInvoke k .poll, .onInvoke k (.inner .answered), .onInvoke k .finish] = some g' ∧
      g'.invokes k = some (.returned (respond c.opcode p)) := by
  obtain ⟨hk, hin, -⟩ := hd
  let g₁ := g.setInvoke k .polling
  let g₂ := { g₁ with transport := g.transport.move k c (.returned (respond c.opcode p)) }
  have h₁ : g.stepInvoke k .poll = some g₁ := by simp [stepInvoke, hi, hc, g₁]
  have h₂ : g₁.stepInvoke k (.inner .answered) = some g₂ := by
    simp [stepInvoke, g₁, g₂, setInvoke, CallAction.isDrop, onTransport, Transport.step, hk,
      Transport.stepCall, hs, hin]
  have h₃ : ∃ g', g₂.stepInvoke k .finish = some g' ∧
      g'.invokes k = some (.returned (respond c.opcode p)) := by
    simp [stepInvoke, g₁, g₂, setInvoke, Transport.result]
  obtain ⟨g', h₃, hret⟩ := h₃
  exact ⟨g', by simp [Automaton.exec, automaton, step, h₁, h₂, h₃], hret⟩

end Generation

end Maxrs
