import Maxrs.Generation
import Maxrs.TransportFrame
set_option autoImplicit false

namespace Maxrs

/-- How `Connection::invoke` stands to the `Transport::invoke` inside it. -/
structure InvokeInv (g : Generation) (i : InvokePc) (c : Call) : Prop where
  parked : i = .parked → c.pc.finished = false
  polling : i = .polling → c.pc ≠ .dropped
  returned : ∀ r, i = .returned r →
    c.pc = .returned r ∨ (c.pc = .dropped ∧ r = .error .connectionClosed)
  failure : ∀ r, i = .returned r → failsTransport r = true → g.cancelled = true
  dropped : i = .dropped → c.pc = .dropped

structure GenerationInv (g : Generation) : Prop where
  transport : Transport.automaton.Reachable g.transport
  started : ∀ k, (g.invokes k).isSome = (g.transport.calls k).isSome
  invokes : ∀ k i c, g.invokes k = some i → g.transport.calls k = some c → InvokeInv g i c
  reader : g.reader = .ended → g.cancelled = true ∨ g.aborted = true
  keepalive : g.keepalive = .ended → g.cancelled = true ∨ g.aborted = true

namespace Generation

structure Grows (g g' : Generation) : Prop where
  transport : g.transport.Grows g'.transport
  cancelled : g.cancelled = true → g'.cancelled = true
  aborted : g.aborted = true → g'.aborted = true
  returned : ∀ k r, g.invokes k = some (.returned r) → g'.invokes k = some (.returned r)
  dropped : ∀ k, g.invokes k = some .dropped → g'.invokes k = some .dropped
  reader : g.reader.joined = true → g'.reader.joined = true ∨ g.reader = .absent
  keepalive : g.keepalive.joined = true → g'.keepalive.joined = true ∨ g.keepalive = .absent

structure Kept (g g' : Generation) : Prop where
  sink : g'.transport.sink = g.transport.sink
  ownUserId : g'.ownUserId = g.ownUserId
  aborted : g'.aborted = g.aborted
  incoming : g'.incoming = g.incoming
  handled : g'.handled = g.handled
  reader : g'.reader = .absent ↔ g.reader = .absent
  keepalive : g'.keepalive = .absent ↔ g.keepalive = .absent

variable {fromStr : String → Except String Packet} {g g' g'' : Generation}

theorem Grows.refl (g : Generation) : Grows g g :=
  ⟨.refl _, id, id, fun _ _ => id, fun _ => id, .inl, .inl⟩

theorem Kept.refl (g : Generation) : Kept g g := ⟨rfl, rfl, rfl, rfl, rfl, Iff.rfl, Iff.rfl⟩

theorem onTransport_eq {a : TransportAction} (h : g.onTransport a = some g') :
    ∃ t, g.transport.step a = some t ∧ g' = { g with transport := t } := by
  obtain ⟨t, ht, rfl⟩ := Option.map_eq_some_iff.mp h
  exact ⟨t, ht, rfl⟩

theorem dropCall_eq {t : Transport} {k : CallId} {c : Call} (hk : t.calls k = some c) :
    (c.pc.finished = false ∧ t.step (.call k .drop) = some (t.dropCall k) ∧
      ∃ c', (t.dropCall k).calls = Function.update t.calls k (some c') ∧ c'.pc = .dropped) ∨
    (c.pc.finished = true ∧ t.dropCall k = t) := by
  cases hf : c.pc.finished with
  | true =>
    have hn : t.step (.call k .drop) = none := by
      simp [Transport.step, hk, Transport.stepCall_finished hf]
    exact .inr ⟨rfl, by simp [Transport.dropCall, hn]⟩
  | false =>
    have hs := Transport.stepCall_drop (t := t) (k := k) hf
    refine .inl ⟨rfl, by simp [Transport.dropCall, Transport.step, hk, hs],
      { c with pc := .dropped }, ?_, rfl⟩
    simp [Transport.dropCall, Transport.step, hk, hs]

theorem result_eq {t : Transport} {k : CallId} {r : Except Error Packet}
    (h : t.result k = some r) : ∃ c, t.calls k = some c ∧ c.pc = .returned r := by
  unfold Transport.result at h
  split at h
  · rename_i c hc
    split at h <;> cases h
    exact ⟨c, hc, by assumption⟩
  · cases h

theorem stepInvoke_cases {k : CallId} {a : InvokeAction} (h : g.stepInvoke k a = some g') :
    (a = .poll ∧ g.invokes k = some .parked ∧ g.cancelled = true ∧
      g' = { g.setInvoke k (.returned (.error .connectionClosed)) with
        transport := g.transport.dropCall k }) ∨
    (a = .poll ∧ g.invokes k = some .parked ∧ g.cancelled = false ∧ g' = g.setInvoke k .polling) ∨
    (a = .park ∧ g.invokes k = some .polling ∧ g.transport.result k = none ∧
      g' = g.setInvoke k .parked) ∨
    (∃ b t, a = .inner b ∧ b.isDrop = false ∧ g.invokes k = some .polling ∧
      g.transport.step (.call k b) = some t ∧ g' = { g with transport := t }) ∨
    (∃ r, a = .finish ∧ g.invokes k = some .polling ∧ g.transport.result k = some r ∧
      g' = { g.setInvoke k (.returned r) with cancelled := g.cancelled || failsTransport r }) ∨
    (a = .drop ∧ g.invokes k = some .parked ∧
      g' = { g.setInvoke k .dropped with transport := g.transport.dropCall k }) := by
  cases a with
  | poll =>
    simp only [stepInvoke] at h
    split at h
    · rename_i hp
      split at h
      · rename_i hc
        cases h
        exact .inl ⟨rfl, hp, hc, rfl⟩
      · rename_i hc
        cases h
        exact .inr (.inl ⟨rfl, hp, by simpa using hc, rfl⟩)
    · cases h
  | park =>
    simp only [stepInvoke] at h
    split at h
    · rename_i hp
      split at h <;> cases h
      exact .inr (.inr (.inl ⟨rfl, hp, by assumption, rfl⟩))
    · cases h
  | inner b =>
    simp only [stepInvoke] at h
    split at h
    · rename_i hp
      split at h
      · cases h
      · rename_i hb
        obtain ⟨t, ht, rfl⟩ := onTransport_eq h
        exact .inr (.inr (.inr (.inl ⟨b, t, rfl, by simpa using hb, hp, ht, rfl⟩)))
    · cases h
  | finish =>
    simp only [stepInvoke] at h
    split at h
    · rename_i hp
      obtain ⟨r, hr, rfl⟩ := Option.map_eq_some_iff.mp h
      exact .inr (.inr (.inr (.inr (.inl ⟨r, rfl, hp, hr, rfl⟩))))
    · cases h
  | drop =>
    simp only [stepInvoke] at h
    split at h <;> cases h
    exact .inr (.inr (.inr (.inr (.inr ⟨rfl, by assumption, rfl⟩))))

theorem invoke_eq {opcode : Nat} {payload : Value} (h : g.invoke opcode payload = some g') :
    ∃ t, g.transport.step (.start opcode payload) = some t ∧
      g' = ({ g with transport := t }).setInvoke g.transport.started .parked := by
  obtain ⟨m, hm, rfl⟩ := Option.map_eq_some_iff.mp h
  obtain ⟨t, ht, rfl⟩ := onTransport_eq hm
  exact ⟨t, ht, rfl⟩

theorem invoke_calls {opcode : Nat} {payload : Value} (h : g.invoke opcode payload = some g') :
    g'.transport.calls = Function.update g.transport.calls g.transport.started
      (some { opcode := opcode, payload := payload, pc := .order, turn := none, inbox := none }) ∧
    g'.invokes = Function.update g.invokes g.transport.started (some .parked) ∧
    g'.transport.started = g.transport.started + 1 ∧ g'.transport.log = g.transport.log := by
  obtain ⟨t, hs, rfl⟩ := invoke_eq h
  cases hs
  exact ⟨rfl, rfl, rfl, rfl⟩

structure Quiet (g g' : Generation) : Prop where
  transport : Transport.automaton.Leads g.transport g'.transport
  calls : g.transport.SamePcs g'.transport
  started : g'.transport.started = g.transport.started
  invokes : g'.invokes = g.invokes
  cancelled : g.cancelled = true → g'.cancelled = true

theorem Quiet.of_transport_eq (ht : g'.transport = g.transport) (hv : g'.invokes = g.invokes)
    (hc : g.cancelled = true → g'.cancelled = true) : Quiet g g' :=
  ⟨ht ▸ .refl, fun k => by rw [ht], by rw [ht], hv, hc⟩

theorem Quiet.trans (h : Quiet g g') (h' : Quiet g' g'') : Quiet g g'' :=
  ⟨h.transport.trans h'.transport, fun k => (h'.calls k).trans (h.calls k),
    h'.started.trans h.started, h'.invokes.trans h.invokes, fun hc => h'.cancelled (h.cancelled hc)⟩

theorem quiet_onTransport {a : TransportAction} (ha : Transport.isShared a = true)
    (h : g.onTransport a = some g') : Quiet g g' := by
  obtain ⟨t, ht, rfl⟩ := onTransport_eq h
  obtain ⟨hp, hs⟩ := Transport.samePcs_step ht ha
  exact ⟨Transport.step_leads ht, hp, hs, rfl, id⟩

theorem quiet_onFrame {n : Nat} {act : FrameAction} {packet : Option Packet}
    (h : g.onFrame n act packet = some g') : Quiet g g' := by
  cases act with
  | notifMessage m =>
    cases packet with
    | none => cases h
    | some packet =>
      obtain ⟨m', hm, rfl⟩ := Option.map_eq_some_iff.mp h
      exact (quiet_onTransport rfl hm).trans (.of_transport_eq rfl rfl id)
  | stop | skip | reconnect | notifAttach fileId | response =>
    cases packet <;> cases h <;> exact .of_transport_eq rfl rfl (by simp [endReader, cancel])

theorem quiet_stepReader {a : ReaderAction} (h : g.stepReader fromStr a = some g') :
    Quiet g g' := by
  cases a with
  | start =>
    simp only [stepReader] at h
    split at h <;> cases h
    exact .of_transport_eq rfl rfl id
  | frame frame =>
    simp only [stepReader] at h
    split at h
    · split at h
      · exact quiet_onFrame h
      · obtain ⟨m, hm, h⟩ := Option.bind_eq_some_iff.mp h
        exact (quiet_onTransport rfl hm).trans (quiet_onFrame h)
    · cases h
  | received =>
    simp only [stepReader] at h
    split at h
    · obtain ⟨m, hm, rfl⟩ := Option.map_eq_some_iff.mp h
      exact (quiet_onTransport rfl hm).trans (.of_transport_eq rfl rfl id)
    · cases h
  | ack a =>
    simp only [stepReader] at h
    split at h
    · split at h
      · obtain ⟨m, hm, rfl⟩ := Option.map_eq_some_iff.mp h
        refine (quiet_onTransport rfl hm).trans ?_
        split <;> exact .of_transport_eq rfl rfl id
      · cases h
    · cases h
  | filter =>
    simp only [stepReader] at h
    split at h
    · split at h <;> cases h <;> exact .of_transport_eq rfl rfl id
    · cases h
  | forward =>
    simp only [stepReader] at h
    split at h
    · split at h <;> cases h <;> exact .of_transport_eq rfl rfl id
    · cases h
  | abort =>
    simp only [stepReader] at h
    split at h
    · obtain ⟨m, hm, h⟩ := Option.bind_eq_some_iff.mp h
      obtain ⟨m', hm', rfl⟩ := Option.map_eq_some_iff.mp h
      refine ((quiet_onTransport rfl hm).trans (quiet_onTransport rfl hm')).trans ?_
      split <;> exact .of_transport_eq rfl rfl (by simp [endReader])
    · cases h

theorem step_effect {a : GenerationAction} (h : g.step fromStr a = some g') :
    Quiet g g' ∨
    (∃ opcode payload m, g.invoke opcode payload = some m ∧ g'.transport = m.transport ∧
      g'.invokes = m.invokes ∧ g'.cancelled = g.cancelled ∧
      (a = .invoke opcode payload ∨ (a = .keepalive .tick ∧ g.keepalive = .sleeping ∧
        opcode = Opcode.PING ∧ payload = pingPayload))) ∨
    (∃ k b m, g.stepInvoke k b = some m ∧ g'.transport = m.transport ∧
      g'.invokes = m.invokes ∧ (m.cancelled = true → g'.cancelled = true)) := by
  cases a with
  | invoke opcode payload =>
    obtain ⟨t, ht, rfl⟩ := invoke_eq h
    exact .inr (.inl ⟨opcode, payload, _, h, rfl, rfl, rfl, .inl rfl⟩)
  | onInvoke k b => exact .inr (.inr ⟨k, b, g', h, rfl, rfl, id⟩)
  | reader a => exact .inl (quiet_stepReader h)
  | keepalive a =>
    cases a with
    | start =>
      simp only [step, stepKeepalive] at h
      split at h <;> cases h
      exact .inl (.of_transport_eq rfl rfl id)
    | tick =>
      simp only [step, stepKeepalive] at h
      split at h
      · rename_i hk
        obtain ⟨m, hm, rfl⟩ := Option.map_eq_some_iff.mp h
        refine .inr (.inl ⟨_, _, m, hm, rfl, rfl, ?_, .inr ⟨rfl, hk, rfl, rfl⟩⟩)
        obtain ⟨t, ht, rfl⟩ := invoke_eq hm
        rfl
      · cases h
    | ping b =>
      simp only [step, stepKeepalive] at h
      split at h
      · cases h
      · exact .inr (.inr ⟨_, _, g', h, rfl, rfl, id⟩)
      · cases h
    | pinged =>
      simp only [step, stepKeepalive] at h
      split at h
      · split at h <;> cases h <;> exact .inl (.of_transport_eq rfl rfl (by simp [endKeepalive]))
      · cases h
    | abort =>
      simp only [step, stepKeepalive] at h
      split at h
      · split at h
        · cases h
          exact .inl (.of_transport_eq rfl rfl id)
        · cases h
          exact .inl (.of_transport_eq rfl rfl (by simp [endKeepalive]))
        · obtain ⟨m, hm, rfl⟩ := Option.map_eq_some_iff.mp h
          exact .inr (.inr ⟨_, _, m, hm, rfl, rfl, by simp [endKeepalive]⟩)
        · cases h
      · cases h
  | install | clear | takeSink => exact .inl (quiet_onTransport rfl h)
  | spawnReader | spawnKeepalive =>
    simp only [step] at h
    split at h <;> cases h
    exact .inl (.of_transport_eq rfl rfl id)
  | setOwnUserId id | register fileId | dropWaiter w | abortAll =>
    cases h
    exact .inl (.of_transport_eq rfl rfl fun h => h)
  | cancel =>
    cases h
    exact .inl (.of_transport_eq rfl rfl (by simp [cancel]))
  | recv =>
    simp only [step] at h
    split at h
    · split at h <;> cases h
      exact .inl (.of_transport_eq rfl rfl id)
    · cases h
  | dropAttempt waiting =>
    cases waiting with
    | none =>
      cases h
      exact .inl (.of_transport_eq rfl rfl id)
    | some k =>
      obtain ⟨m, hm, rfl⟩ := Option.map_eq_some_iff.mp h
      exact .inr (.inr ⟨k, .drop, m, hm, rfl, rfl, id⟩)

theorem leads_dropCall (t : Transport) (k : CallId) :
    Transport.automaton.Leads t (t.dropCall k) := by
  unfold Transport.dropCall
  cases h : t.step (.call k .drop) with
  | none => exact .refl
  | some t' => exact Transport.step_leads h

theorem dropCall_frame (t : Transport) (k : CallId) :
    (t.dropCall k).started = t.started ∧ (t.dropCall k).sink = t.sink ∧
      (∀ j, j ≠ k → (t.dropCall k).calls j = t.calls j) ∧
      ∀ j, ((t.dropCall k).calls j).isSome = (t.calls j).isSome := by
  cases hk : t.calls k with
  | none => simp [Transport.dropCall, Transport.step, hk]
  | some c =>
    rcases dropCall_eq hk with ⟨hf, hs, c', hc, _⟩ | ⟨_, he⟩
    · simp only [Transport.step, hk, Option.bind_some] at hs
      obtain ⟨_, hcs⟩ := Transport.stepCall_callStep hs
      refine ⟨hcs.started, hcs.sink, fun j hj => by simp [hc, Function.update_of_ne hj],
        fun j => ?_⟩
      by_cases hj : j = k
      · simp [hj, hc, hk]
      · simp [hc, Function.update_of_ne hj]
    · rw [he]
      exact ⟨rfl, rfl, fun _ _ => rfl, fun _ => rfl⟩

theorem setInvoke_isSome {k : CallId} {i i' : InvokePc} (h : g.invokes k = some i) (j : CallId) :
    ((g.setInvoke k i').invokes j).isSome = (g.invokes j).isSome := by
  by_cases hj : j = k
  · simp [hj, h, setInvoke]
  · simp [setInvoke, Function.update_of_ne hj]

theorem stepInvoke_frame {k : CallId} {a : InvokeAction} (h : g.stepInvoke k a = some g') :
    Transport.automaton.Leads g.transport g'.transport ∧
      g'.transport.started = g.transport.started ∧
      (∀ j, j ≠ k → g'.transport.calls j = g.transport.calls j ∧ g'.invokes j = g.invokes j) ∧
      (∀ j, (g'.transport.calls j).isSome = (g.transport.calls j).isSome ∧
        (g'.invokes j).isSome = (g.invokes j).isSome) ∧
      (g.cancelled = true → g'.cancelled = true) := by
  obtain ⟨hds, -, hdc, hdi⟩ := dropCall_frame g.transport k
  have other : ∀ i, ∀ j, j ≠ k → (g.setInvoke k i).invokes j = g.invokes j :=
    fun i j hj => Function.update_of_ne hj _ _
  rcases stepInvoke_cases h with ⟨-, hp, hc, rfl⟩ | ⟨-, hp, -, rfl⟩ | ⟨-, hp, -, rfl⟩ |
    ⟨b, t, -, -, hp, ht, rfl⟩ | ⟨r, -, hp, -, rfl⟩ | ⟨-, hp, rfl⟩
  · exact ⟨leads_dropCall _ _, hds, fun j hj => ⟨hdc j hj, other _ j hj⟩,
      fun j => ⟨hdi j, setInvoke_isSome hp j⟩, id⟩
  · exact ⟨.refl, rfl, fun j hj => ⟨rfl, other _ j hj⟩, fun j => ⟨rfl, setInvoke_isSome hp j⟩, id⟩
  · exact ⟨.refl, rfl, fun j hj => ⟨rfl, other _ j hj⟩, fun j => ⟨rfl, setInvoke_isSome hp j⟩, id⟩
  · obtain ⟨c, hc, hs⟩ := Option.bind_eq_some_iff.mp ht
    obtain ⟨c', hcs⟩ := Transport.stepCall_callStep hs
    refine ⟨Transport.step_leads ht, hcs.started,
      fun j hj => ⟨by simp [hcs.calls, Function.update_of_ne hj], rfl⟩, fun j => ⟨?_, rfl⟩, id⟩
    by_cases hj : j = k
    · simp [hj, hcs.calls, hc]
    · simp [hcs.calls, Function.update_of_ne hj]
  · exact ⟨.refl, rfl, fun j hj => ⟨rfl, other _ j hj⟩,
      fun j => ⟨rfl, setInvoke_isSome hp j⟩, fun hc => by simp [hc]⟩
  · exact ⟨leads_dropCall _ _, hds, fun j hj => ⟨hdc j hj, other _ j hj⟩,
      fun j => ⟨hdi j, setInvoke_isSome hp j⟩, id⟩

theorem invokeInv_quiet {i : InvokePc} {c c' : Call} (hp : c'.pc = c.pc)
    (hc : g.cancelled = true → g'.cancelled = true) (hi : InvokeInv g i c) :
    InvokeInv g' i c' :=
  ⟨fun h => hp ▸ hi.parked h, fun h => hp ▸ hi.polling h, fun r h => hp ▸ hi.returned r h,
    fun r h hr => hc (hi.failure r h hr), fun h => hp ▸ hi.dropped h⟩

theorem invokeInv_parked {c : Call} (h : c.pc.finished = false) : InvokeInv g .parked c := by
  refine ⟨fun _ => h, ?_, ?_, ?_, ?_⟩ <;> intros <;> contradiction

theorem invokeInv_polling {c : Call} (h : c.pc ≠ .dropped) : InvokeInv g .polling c := by
  refine ⟨?_, fun _ => h, ?_, ?_, ?_⟩ <;> intros <;> contradiction

theorem invokeInv_dropped {c : Call} (h : c.pc = .dropped) : InvokeInv g .dropped c := by
  refine ⟨?_, ?_, ?_, ?_, fun _ => h⟩ <;> intros <;> contradiction

theorem invokeInv_returned {r : Except Error Packet} {c : Call}
    (h : c.pc = .returned r ∨ (c.pc = .dropped ∧ r = .error .connectionClosed))
    (hf : failsTransport r = true → g.cancelled = true) : InvokeInv g (.returned r) c := by
  refine ⟨?_, ?_, fun q hq => ?_, fun q hq => ?_, ?_⟩
  · intro hq
    cases hq
  · intro hq
    cases hq
  · cases hq
    exact h
  · cases hq
    exact hf
  · intro hq
    cases hq

theorem invokeInv_stepInvoke {k : CallId} {a : InvokeAction} {i : InvokePc} {c : Call}
    (h : g.stepInvoke k a = some g') (hg : GenerationInv g) (hi : g'.invokes k = some i)
    (hc : g'.transport.calls k = some c) : InvokeInv g' i c := by
  have old : ∀ j, g.invokes k = some j → ∃ d, g.transport.calls k = some d ∧
      InvokeInv g j d := by
    intro j hj
    have hsome := hg.started k
    rw [hj] at hsome
    obtain ⟨d, hd⟩ := Option.isSome_iff_exists.mp hsome.symm
    exact ⟨d, hd, hg.invokes k j d hj hd⟩
  rcases stepInvoke_cases h with ⟨-, hp, hcan, rfl⟩ | ⟨-, hp, -, rfl⟩ | ⟨-, hp, hres, rfl⟩ |
    ⟨b, t, -, hb, hp, ht, rfl⟩ | ⟨r, -, hp, hres, rfl⟩ | ⟨-, hp, rfl⟩
  · obtain ⟨d, hd, hdi⟩ := old _ hp
    simp only [setInvoke, Function.update_self, Option.some.injEq] at hi
    subst hi
    rcases dropCall_eq hd with ⟨_, _, d', hd', hpc⟩ | ⟨hf, _⟩
    · simp only [hd', Function.update_self, Option.some.injEq] at hc
      subst hc
      exact invokeInv_returned (.inr ⟨hpc, rfl⟩) fun _ => hcan
    · simp [hdi.parked rfl] at hf
  · obtain ⟨d, hd, hdi⟩ := old _ hp
    simp only [setInvoke, Function.update_self, Option.some.injEq] at hi
    subst hi
    cases hd.symm.trans hc
    refine invokeInv_polling fun hdrop => ?_
    have := hdi.parked rfl
    simp [hdrop, CallPc.finished] at this
  · obtain ⟨d, hd, hdi⟩ := old _ hp
    simp only [setInvoke, Function.update_self, Option.some.injEq] at hi
    subst hi
    cases hd.symm.trans hc
    refine invokeInv_parked ?_
    have hnd := hdi.polling rfl
    cases hpc : c.pc with
    | returned r => simp [Transport.result, hd, hpc] at hres
    | dropped => exact absurd hpc hnd
    | _ => rfl
  · obtain ⟨d, hd, hdi⟩ := old _ hp
    simp only [hp, Option.some.injEq] at hi
    subst hi
    simp only [Transport.step, hd, Option.bind_some] at ht
    exact invokeInv_polling (Transport.stepCall_not_dropped ht hb hc)
  · obtain ⟨d, hd, hdi⟩ := old _ hp
    simp only [setInvoke, Function.update_self, Option.some.injEq] at hi
    subst hi
    cases hd.symm.trans hc
    obtain ⟨d', hd', hpc⟩ := result_eq hres
    cases hd.symm.trans hd'
    exact invokeInv_returned (.inl hpc) fun hf => by simp [hf]
  · obtain ⟨d, hd, hdi⟩ := old _ hp
    simp only [setInvoke, Function.update_self, Option.some.injEq] at hi
    subst hi
    rcases dropCall_eq hd with ⟨_, _, d', hd', hpc⟩ | ⟨hf, _⟩
    · simp only [hd', Function.update_self, Option.some.injEq] at hc
      subst hc
      exact invokeInv_dropped hpc
    · simp [hdi.parked rfl] at hf

theorem invokes_step {a : GenerationAction} (h : g.step fromStr a = some g')
    (hg : GenerationInv g) :
    Transport.automaton.Reachable g'.transport ∧
      (∀ k, (g'.invokes k).isSome = (g'.transport.calls k).isSome) ∧
      ∀ k i c, g'.invokes k = some i → g'.transport.calls k = some c → InvokeInv g' i c := by
  rcases step_effect h with hq | ⟨o, p, m, hm, ht, hv, hc, -⟩ | ⟨k, b, m, hm, ht, hv, hc⟩
  · refine ⟨hg.transport.path hq.transport, fun k => ?_, fun k i c hi hc => ?_⟩
    · rw [hq.invokes, hg.started k, ← Option.isSome_map (f := Call.pc), ← hq.calls k,
        Option.isSome_map]
    · have hpc := hq.calls k
      rw [hc] at hpc
      obtain ⟨d, hd, hdp⟩ := Option.map_eq_some_iff.mp hpc.symm
      exact invokeInv_quiet hdp.symm hq.cancelled (hg.invokes k i d (hq.invokes ▸ hi) hd)
  · obtain ⟨t, hs, rfl⟩ := invoke_eq hm
    have hnew : t = { g.transport.put g.transport.started
        { opcode := o, payload := p, pc := .order, turn := none, inbox := none } with
          started := g.transport.started + 1 } := (Option.some.inj hs).symm
    have hlead : Transport.automaton.Leads g.transport t := Transport.step_leads hs
    rw [ht, hv]
    refine ⟨hg.transport.path hlead, fun k => ?_, fun k i c hi hcall => ?_⟩
    · by_cases hk : k = g.transport.started
      · simp [hk, hnew, setInvoke]
      · simpa [hnew, setInvoke, Function.update_of_ne hk] using hg.started k
    · by_cases hk : k = g.transport.started
      · subst hk
        simp only [setInvoke, Function.update_self, Option.some.injEq] at hi
        simp only [hnew, setInvoke, Transport.put_calls, Function.update_self,
          Option.some.injEq] at hcall
        subst hi hcall
        exact ⟨fun _ => rfl, nofun, nofun, nofun, nofun⟩
      · simp only [setInvoke, Function.update_of_ne hk] at hi
        simp only [hnew, setInvoke, Transport.put_calls, Function.update_of_ne hk] at hcall
        exact invokeInv_quiet rfl (fun h => hc ▸ h) (hg.invokes k i c hi hcall)
  · obtain ⟨hlead, -, hother, hsome, hcan⟩ := stepInvoke_frame hm
    rw [ht, hv]
    refine ⟨hg.transport.path hlead, fun j => ?_, fun j i c hi hcall => ?_⟩
    · rw [(hsome j).1, (hsome j).2, hg.started j]
    · by_cases hj : j = k
      · subst hj
        exact invokeInv_quiet rfl hc (invokeInv_stepInvoke hm hg hi hcall)
      · rw [(hother j hj).2] at hi
        rw [(hother j hj).1] at hcall
        exact invokeInv_quiet rfl (fun h => hc (hcan h)) (hg.invokes j i c hi hcall)

structure ReaderFrame (g g' : Generation) : Prop where
  sink : g'.transport.sink = g.transport.sink
  ownUserId : g'.ownUserId = g.ownUserId
  aborted : g'.aborted = g.aborted
  incoming : g'.incoming = g.incoming
  handled : g'.handled = g.handled
  keepalive : g'.keepalive = g.keepalive
  started : g'.reader ≠ .absent
  ended : g'.reader = .ended → g'.cancelled = true ∨ g'.aborted = true

theorem onTransport_sink {a : TransportAction} (ha : Transport.movesSink a = false)
    (h : g.onTransport a = some g') : g'.transport.sink = g.transport.sink := by
  obtain ⟨t, ht, rfl⟩ := onTransport_eq h
  exact Transport.sink_step ht ha

theorem onTransport_sink_trans {a b : TransportAction} (ha : Transport.movesSink a = false)
    (hb : Transport.movesSink b = false) (h : g.onTransport a = some g')
    (h' : g'.onTransport b = some g'') : g''.transport.sink = g.transport.sink :=
  (onTransport_sink hb h').trans (onTransport_sink ha h)

theorem readerFrame_onFrame {n : Nat} {act : FrameAction} {packet : Option Packet}
    (hr : g.reader = .reading) (h : g.onFrame n act packet = some g') : ReaderFrame g g' := by
  cases act with
  | notifMessage m =>
    cases packet with
    | none => cases h
    | some packet =>
      obtain ⟨m', hm, rfl⟩ := Option.map_eq_some_iff.mp h
      have hs := onTransport_sink rfl hm
      obtain ⟨t, _, rfl⟩ := onTransport_eq hm
      exact ⟨hs, rfl, rfl, rfl, rfl, rfl, nofun, nofun⟩
  | stop => cases packet <;> cases h <;>
      exact ⟨rfl, rfl, rfl, rfl, rfl, rfl, nofun, fun _ => .inl rfl⟩
  | skip => cases packet <;> cases h <;>
      exact ⟨rfl, rfl, rfl, rfl, rfl, rfl, by simp [hr], by simp [hr]⟩
  | reconnect => cases packet <;> cases h <;>
      exact ⟨rfl, rfl, rfl, rfl, rfl, rfl, by simp [hr, cancel], fun _ => .inl rfl⟩
  | notifAttach fileId => cases packet <;> cases h <;>
      exact ⟨rfl, rfl, rfl, rfl, rfl, rfl, by simp [hr], by simp [hr]⟩
  | response => cases packet <;> cases h <;>
      exact ⟨rfl, rfl, rfl, rfl, rfl, rfl, nofun, nofun⟩

theorem readerFrame_stepReader {a : ReaderAction} (h : g.stepReader fromStr a = some g') :
    g.reader ≠ .absent ∧ g.reader ≠ .ended ∧ ReaderFrame g g' := by
  cases a with
  | start =>
    simp only [stepReader] at h
    split at h <;> cases h
    rename_i hr
    exact ⟨by simp [hr], by simp [hr], rfl, rfl, rfl, rfl, rfl, rfl, nofun, nofun⟩
  | frame frame =>
    simp only [stepReader] at h
    split at h
    · rename_i hr
      refine ⟨by simp [hr], by simp [hr], ?_⟩
      split at h
      · exact readerFrame_onFrame hr h
      · obtain ⟨m, hm, h⟩ := Option.bind_eq_some_iff.mp h
        have hs := onTransport_sink rfl hm
        obtain ⟨t, _, rfl⟩ := onTransport_eq hm
        obtain ⟨hs', ho, ha, hi, hd, hk, hst, he⟩ :=
          readerFrame_onFrame (g := { g with transport := t }) hr h
        exact ⟨hs'.trans hs, ho, ha, hi, hd, hk, hst, he⟩
    · cases h
  | received =>
    simp only [stepReader] at h
    split at h
    · rename_i hr
      obtain ⟨m, hm, rfl⟩ := Option.map_eq_some_iff.mp h
      have hs := onTransport_sink rfl hm
      obtain ⟨t, _, rfl⟩ := onTransport_eq hm
      exact ⟨by simp [hr], by simp [hr], hs, rfl, rfl, rfl, rfl, rfl, nofun, nofun⟩
    · cases h
  | ack a =>
    simp only [stepReader] at h
    split at h
    · rename_i hr
      split at h
      · obtain ⟨m, hm, rfl⟩ := Option.map_eq_some_iff.mp h
        have hs := onTransport_sink rfl hm
        obtain ⟨t, _, rfl⟩ := onTransport_eq hm
        refine ⟨by simp [hr], by simp [hr], ?_⟩
        split
        · exact ⟨hs, rfl, rfl, rfl, rfl, rfl, nofun, nofun⟩
        · exact ⟨hs, rfl, rfl, rfl, rfl, rfl, by simp [hr], by simp [hr]⟩
      · cases h
    · cases h
  | filter =>
    simp only [stepReader] at h
    split at h
    · rename_i hr
      refine ⟨by simp [hr], by simp [hr], ?_⟩
      split at h <;> cases h <;> exact ⟨rfl, rfl, rfl, rfl, rfl, rfl, nofun, nofun⟩
    · cases h
  | forward =>
    simp only [stepReader] at h
    split at h
    · rename_i hr
      refine ⟨by simp [hr], by simp [hr], ?_⟩
      split at h <;> cases h <;> exact ⟨rfl, rfl, rfl, rfl, rfl, rfl, nofun, nofun⟩
    · cases h
  | abort =>
    simp only [stepReader] at h
    split at h
    · rename_i hab
      obtain ⟨m, hm, h⟩ := Option.bind_eq_some_iff.mp h
      obtain ⟨m', hm', rfl⟩ := Option.map_eq_some_iff.mp h
      have hs := onTransport_sink_trans rfl rfl hm hm'
      obtain ⟨t, _, rfl⟩ := onTransport_eq hm
      obtain ⟨t', _, rfl⟩ := onTransport_eq hm'
      simp only [Bool.and_eq_true] at hab
      refine ⟨fun hr => ?_, fun hr => ?_, ?_⟩
      · simp [hr, ReaderPc.parked] at hab
      · simp [hr, ReaderPc.parked] at hab
      · split <;> exact ⟨hs, rfl, rfl, rfl, rfl, rfl, nofun, fun _ => .inr hab.1⟩
    · cases h

structure InvokeFrame (g g' : Generation) : Prop where
  sink : g'.transport.sink = g.transport.sink
  ownUserId : g'.ownUserId = g.ownUserId
  aborted : g'.aborted = g.aborted
  incoming : g'.incoming = g.incoming
  handled : g'.handled = g.handled
  reader : g'.reader = g.reader
  keepalive : g'.keepalive = g.keepalive

theorem invokeFrame_stepInvoke {k : CallId} {a : InvokeAction}
    (h : g.stepInvoke k a = some g') : InvokeFrame g g' := by
  have hd := (dropCall_frame g.transport k).2.1
  rcases stepInvoke_cases h with ⟨-, -, -, rfl⟩ | ⟨-, -, -, rfl⟩ | ⟨-, -, -, rfl⟩ |
    ⟨b, t, -, -, -, ht, rfl⟩ | ⟨r, -, -, -, rfl⟩ | ⟨-, -, rfl⟩
  · exact ⟨hd, rfl, rfl, rfl, rfl, rfl, rfl⟩
  · exact ⟨rfl, rfl, rfl, rfl, rfl, rfl, rfl⟩
  · exact ⟨rfl, rfl, rfl, rfl, rfl, rfl, rfl⟩
  · exact ⟨Transport.sink_step ht rfl, rfl, rfl, rfl, rfl, rfl, rfl⟩
  · exact ⟨rfl, rfl, rfl, rfl, rfl, rfl, rfl⟩
  · exact ⟨hd, rfl, rfl, rfl, rfl, rfl, rfl⟩

theorem invokeFrame_invoke {opcode : Nat} {payload : Value}
    (h : g.invoke opcode payload = some g') : InvokeFrame g g' := by
  obtain ⟨t, ht, rfl⟩ := invoke_eq h
  exact ⟨Transport.sink_step ht rfl, rfl, rfl, rfl, rfl, rfl, rfl⟩

theorem stepKeepalive_frame {a : KeepaliveAction} (h : g.stepKeepalive a = some g') :
    g.keepalive ≠ .absent ∧ g.keepalive ≠ .ended ∧ g'.keepalive ≠ .absent ∧
      (g'.keepalive = .ended → g'.cancelled = true ∨ g'.aborted = true) ∧
      g'.transport.sink = g.transport.sink ∧ g'.ownUserId = g.ownUserId ∧
      g'.aborted = g.aborted ∧ g'.incoming = g.incoming ∧ g'.handled = g.handled ∧
      g'.reader = g.reader := by
  cases a with
  | start =>
    simp only [stepKeepalive] at h
    split at h <;> cases h
    rename_i hk
    exact ⟨by simp [hk], by simp [hk], nofun, nofun, rfl, rfl, rfl, rfl, rfl, rfl⟩
  | tick =>
    simp only [stepKeepalive] at h
    split at h
    · rename_i hk
      obtain ⟨m, hm, rfl⟩ := Option.map_eq_some_iff.mp h
      have hf := invokeFrame_invoke hm
      exact ⟨by simp [hk], by simp [hk], nofun, nofun, hf.sink, hf.ownUserId, hf.aborted,
        hf.incoming, hf.handled, hf.reader⟩
    · cases h
  | ping b =>
    simp only [stepKeepalive] at h
    split at h
    · cases h
    · rename_i hk _
      have hf := invokeFrame_stepInvoke h
      exact ⟨by simp [hk], by simp [hk], by simp [hf.keepalive, hk], by simp [hf.keepalive, hk],
        hf.sink, hf.ownUserId, hf.aborted, hf.incoming, hf.handled, hf.reader⟩
    · cases h
  | pinged =>
    simp only [stepKeepalive] at h
    split at h
    · rename_i hk
      split at h <;> cases h
      · exact ⟨by simp [hk], by simp [hk], nofun, nofun, rfl, rfl, rfl, rfl, rfl, rfl⟩
      · exact ⟨by simp [hk], by simp [hk], nofun, fun _ => .inl rfl, rfl, rfl, rfl, rfl, rfl, rfl⟩
    · cases h
  | abort =>
    simp only [stepKeepalive] at h
    split at h
    · rename_i hab
      split at h
      · rename_i hk
        cases h
        exact ⟨by simp [hk], by simp [hk], nofun, fun _ => .inr hab, rfl, rfl, rfl, rfl, rfl, rfl⟩
      · rename_i hk
        cases h
        exact ⟨by simp [hk], by simp [hk], nofun, fun _ => .inl rfl, rfl, rfl, rfl, rfl, rfl, rfl⟩
      · rename_i hk
        obtain ⟨m, hm, rfl⟩ := Option.map_eq_some_iff.mp h
        have hf := invokeFrame_stepInvoke hm
        exact ⟨by simp [hk], by simp [hk], nofun, fun _ => .inl rfl, hf.sink, hf.ownUserId,
          hf.aborted, hf.incoming, hf.handled, hf.reader⟩
      · cases h
    · cases h

end Generation

def GenerationAction.isRunner : GenerationAction → Bool
  | .install | .spawnReader | .spawnKeepalive | .setOwnUserId _ | .recv | .dropAttempt _
  | .abortAll | .clear | .takeSink => true
  | _ => false

namespace Generation

variable {fromStr : String → Except String Packet} {g g' g'' : Generation}

theorem kept_step {a : GenerationAction} (ha : a.isRunner = false)
    (h : g.step fromStr a = some g') : Kept g g' := by
  cases a with
  | invoke opcode payload =>
    have hf := invokeFrame_invoke h
    exact ⟨hf.sink, hf.ownUserId, hf.aborted, hf.incoming, hf.handled, by rw [hf.reader],
      by rw [hf.keepalive]⟩
  | onInvoke k b =>
    have hf := invokeFrame_stepInvoke h
    exact ⟨hf.sink, hf.ownUserId, hf.aborted, hf.incoming, hf.handled, by rw [hf.reader],
      by rw [hf.keepalive]⟩
  | reader b =>
    obtain ⟨hn, -, hf⟩ := readerFrame_stepReader h
    exact ⟨hf.sink, hf.ownUserId, hf.aborted, hf.incoming, hf.handled,
      by simp [hn, hf.started], by rw [hf.keepalive]⟩
  | keepalive b =>
    obtain ⟨hn, -, hn', -, hs, ho, hab, hi, hh, hr⟩ := stepKeepalive_frame h
    exact ⟨hs, ho, hab, hi, hh, by rw [hr], by simp [hn, hn']⟩
  | register fileId | dropWaiter w | cancel =>
    cases h
    exact ⟨rfl, rfl, rfl, rfl, rfl, Iff.rfl, Iff.rfl⟩
  | _ => simp [GenerationAction.isRunner] at ha

theorem tasks_step {a : GenerationAction} (h : g.step fromStr a = some g') :
    (g.aborted = true → g'.aborted = true) ∧
      (g.reader.joined = true → g'.reader = g.reader ∨ g.reader = .absent) ∧
      (g.keepalive.joined = true → g'.keepalive = g.keepalive ∨ g.keepalive = .absent) ∧
      (g'.reader = .ended → g.reader = .ended ∨ g'.cancelled = true ∨ g'.aborted = true) ∧
      (g'.keepalive = .ended → g.keepalive = .ended ∨ g'.cancelled = true ∨ g'.aborted = true) := by
  have same : ∀ {m : Generation}, m.aborted = g.aborted → m.reader = g.reader →
      m.keepalive = g.keepalive →
      (g.aborted = true → m.aborted = true) ∧
      (g.reader.joined = true → m.reader = g.reader ∨ g.reader = .absent) ∧
      (g.keepalive.joined = true → m.keepalive = g.keepalive ∨ g.keepalive = .absent) ∧
      (m.reader = .ended → g.reader = .ended ∨ m.cancelled = true ∨ m.aborted = true) ∧
      (m.keepalive = .ended → g.keepalive = .ended ∨ m.cancelled = true ∨ m.aborted = true) :=
    fun ha hr hk => ⟨fun h => ha ▸ h, fun _ => .inl hr, fun _ => .inl hk,
      fun he => .inl (hr ▸ he), fun he => .inl (hk ▸ he)⟩
  cases a with
  | invoke opcode payload =>
    have hf := invokeFrame_invoke h
    exact same hf.aborted hf.reader hf.keepalive
  | onInvoke k b =>
    have hf := invokeFrame_stepInvoke h
    exact same hf.aborted hf.reader hf.keepalive
  | reader b =>
    obtain ⟨hn, he, hf⟩ := readerFrame_stepReader h
    refine ⟨fun ha => hf.aborted ▸ ha, fun hj => ?_, fun _ => .inl hf.keepalive,
      fun hr => .inr (hf.ended hr), fun hk => .inl (hf.keepalive ▸ hk)⟩
    cases hr : g.reader <;> simp_all [ReaderPc.joined]
  | keepalive b =>
    obtain ⟨hn, he, hn', hend, hs, ho, hab, hi, hh, hr⟩ := stepKeepalive_frame h
    refine ⟨fun ha => hab ▸ ha, fun _ => .inl hr, fun hj => ?_, fun hr' => .inl (hr ▸ hr'),
      fun hk => .inr (hend hk)⟩
    cases hk : g.keepalive <;> simp_all [KeepalivePc.joined]
  | install | clear | takeSink =>
    obtain ⟨t, _, rfl⟩ := onTransport_eq h
    exact same rfl rfl rfl
  | spawnReader =>
    simp only [step] at h
    split at h <;> cases h
    rename_i hr
    exact ⟨id, fun _ => .inr hr, fun _ => .inl rfl, nofun, .inl⟩
  | spawnKeepalive =>
    simp only [step] at h
    split at h <;> cases h
    rename_i hk
    exact ⟨id, fun _ => .inl rfl, fun _ => .inr hk, .inl, nofun⟩
  | setOwnUserId id | register fileId | dropWaiter w | cancel =>
    cases h
    exact same rfl rfl rfl
  | abortAll =>
    cases h
    exact ⟨fun _ => rfl, fun _ => .inl rfl, fun _ => .inl rfl, .inl, .inl⟩
  | recv =>
    simp only [step] at h
    split at h
    · split at h <;> cases h
      exact same rfl rfl rfl
    · cases h
  | dropAttempt waiting =>
    cases waiting with
    | none =>
      cases h
      exact same rfl rfl rfl
    | some k =>
      obtain ⟨m, hm, rfl⟩ := Option.map_eq_some_iff.mp h
      have hf := invokeFrame_stepInvoke hm
      exact same hf.aborted hf.reader hf.keepalive

theorem cancelled_step {a : GenerationAction} (h : g.step fromStr a = some g')
    (hc : g.cancelled = true) : g'.cancelled = true := by
  rcases step_effect h with hq | ⟨o, p, m, hm, -, -, he, -⟩ | ⟨k, b, m, hm, -, -, he⟩
  · exact hq.cancelled hc
  · exact he.trans hc
  · exact he ((stepInvoke_frame hm).2.2.2.2 hc)

theorem stepInvoke_finished {k j : CallId} {b : InvokeAction} {i : InvokePc}
    (h : g.stepInvoke k b = some g') (hi : g.invokes j = some i) (hp : i ≠ .parked)
    (hq : i ≠ .polling) : g'.invokes j = some i := by
  by_cases hj : j = k
  · subst hj
    rcases stepInvoke_cases h with ⟨-, hk, -⟩ | ⟨-, hk, -⟩ | ⟨-, hk, -⟩ |
      ⟨_, _, -, -, hk, -⟩ | ⟨_, -, hk, -⟩ | ⟨-, hk, -⟩ <;>
      simp_all
  · rw [((stepInvoke_frame h).2.2.1 j hj).2, hi]

theorem finished_step {a : GenerationAction} {j : CallId} {i : InvokePc}
    (h : g.step fromStr a = some g') (hg : GenerationInv g) (hi : g.invokes j = some i)
    (hp : i ≠ .parked) (hq : i ≠ .polling) : g'.invokes j = some i := by
  rcases step_effect h with he | ⟨o, p, m, hm, -, hv, -⟩ | ⟨k, b, m, hm, -, hv, -⟩
  · rw [he.invokes, hi]
  · obtain ⟨t, _, rfl⟩ := invoke_eq hm
    have hne : j ≠ g.transport.started := by
      have hsome := hg.started j
      rw [hi] at hsome
      obtain ⟨c, hc⟩ := Option.isSome_iff_exists.mp hsome.symm
      exact Nat.ne_of_lt ((Transport.transportInv_of_reachable hg.transport).started j c hc)
    rw [hv]
    simpa [setInvoke, Function.update_of_ne hne] using hi
  · rw [hv, stepInvoke_finished hm hi hp hq]

theorem transport_step {a : GenerationAction} (h : g.step fromStr a = some g') :
    Transport.automaton.Leads g.transport g'.transport := by
  rcases step_effect h with he | ⟨o, p, m, hm, ht, -, -⟩ | ⟨k, b, m, hm, ht, -, -⟩
  · exact he.transport
  · obtain ⟨t, hs, rfl⟩ := invoke_eq hm
    exact ht ▸ Transport.step_leads hs
  · exact ht ▸ (stepInvoke_frame hm).1

theorem grows_step {a : GenerationAction} (h : g.step fromStr a = some g')
    (hg : GenerationInv g) : Grows g g' := by
  obtain ⟨hab, hr, hk, -, -⟩ := tasks_step h
  refine ⟨Transport.grows_leads hg.transport (transport_step h), cancelled_step h, hab,
    fun j r hj => finished_step h hg hj nofun nofun, fun j hj => finished_step h hg hj nofun nofun,
    fun hj => ?_, fun hj => ?_⟩
  · rcases hr hj with he | he
    · exact .inl (he ▸ hj)
    · exact .inr he
  · rcases hk hj with he | he
    · exact .inl (he ▸ hj)
    · exact .inr he

theorem generationInv_step {a : GenerationAction} (h : g.step fromStr a = some g')
    (hg : GenerationInv g) : GenerationInv g' := by
  obtain ⟨ht, hs, hi⟩ := invokes_step h hg
  obtain ⟨hab, -, -, hr, hk⟩ := tasks_step h
  have keep : g.cancelled = true ∨ g.aborted = true → g'.cancelled = true ∨ g'.aborted = true :=
    Or.imp (cancelled_step h) hab
  refine ⟨ht, hs, hi, fun he => ?_, fun he => ?_⟩
  · rcases hr he with he | he
    · exact keep (hg.reader he)
    · exact he
  · rcases hk he with he | he
    · exact keep (hg.keepalive he)
    · exact he

theorem generationInv_new (b : Bool) : GenerationInv (new b) := by
  have hr : Transport.automaton.Reachable Transport.new :=
    .init (show Transport.automaton.init Transport.new from rfl)
  exact ⟨hr, fun _ => rfl, by simp [new], by simp [new], by simp [new]⟩

theorem calls_step {a : GenerationAction} (h : g.step fromStr a = some g') :
    (g'.transport.started = g.transport.started ∧ ∀ k c', g'.transport.calls k = some c' →
      ∃ c, g.transport.calls k = some c) ∨
    ∃ opcode payload, g'.transport.started = g.transport.started + 1 ∧
      g'.transport.calls = Function.update g.transport.calls g.transport.started
        (some { opcode := opcode, payload := payload, pc := .order, turn := none, inbox := none }) ∧
      g'.invokes g.transport.started = some .parked ∧
      (a = .invoke opcode payload ∨ (a = .keepalive .tick ∧ g.keepalive = .sleeping ∧
        opcode = Opcode.PING ∧ payload = pingPayload)) := by
  rcases step_effect h with hq | ⟨o, p, m, hm, ht, hv, -, ha⟩ | ⟨k, b, m, hm, ht, -, -⟩
  · refine .inl ⟨hq.started, fun k c' hc => ?_⟩
    have hpc := hq.calls k
    rw [hc] at hpc
    obtain ⟨c, hc, -⟩ := Option.map_eq_some_iff.mp hpc.symm
    exact ⟨c, hc⟩
  · obtain ⟨t, hs, rfl⟩ := invoke_eq hm
    have hnew := (Option.some.inj hs).symm
    exact .inr ⟨o, p, by simp [ht, hnew, setInvoke], by simp [ht, hnew, setInvoke],
      by simp [hv, setInvoke], ha⟩
  · obtain ⟨-, hs, -, hsome, -⟩ := stepInvoke_frame hm
    refine .inl ⟨ht ▸ hs, fun j c' hc => ?_⟩
    rw [ht] at hc
    have := (hsome j).1
    rw [hc] at this
    exact Option.isSome_iff_exists.mp this.symm

theorem logStep_onTransport {a : TransportAction} (h : g.onTransport a = some g') :
    g.transport.LogStep g'.transport := by
  obtain ⟨t, ht, rfl⟩ := onTransport_eq h
  exact Transport.log_step ht

theorem onFrame_log {n : Nat} {act : FrameAction} {packet : Option Packet}
    (h : g.onFrame n act packet = some g') : g'.transport.log = g.transport.log := by
  cases act with
  | notifMessage m =>
    cases packet with
    | none => cases h
    | some packet =>
      obtain ⟨m', hm, rfl⟩ := Option.map_eq_some_iff.mp h
      obtain ⟨t, ht, rfl⟩ := onTransport_eq hm
      exact Transport.log_quiet ht (.inl ⟨_, _, rfl⟩)
  | _ => cases packet <;> cases h <;> rfl

theorem logStep_stepReader {a : ReaderAction} (h : g.stepReader fromStr a = some g') :
    g.transport.LogStep g'.transport := by
  cases a with
  | start =>
    simp only [stepReader] at h
    split at h <;> cases h
    exact .inl rfl
  | frame frame =>
    simp only [stepReader] at h
    split at h
    · split at h
      · exact .inl (onFrame_log h)
      · obtain ⟨m, hm, h⟩ := Option.bind_eq_some_iff.mp h
        have hl := onFrame_log h
        rcases logStep_onTransport hm with he | ⟨e, he, hem⟩
        · exact .inl (hl.trans he)
        · exact .inr ⟨e, hl.trans he, hem⟩
    · cases h
  | received =>
    simp only [stepReader] at h
    split at h
    · obtain ⟨m, hm, rfl⟩ := Option.map_eq_some_iff.mp h
      have hl := logStep_onTransport hm
      exact hl
    · cases h
  | ack a =>
    simp only [stepReader] at h
    split at h
    · split at h
      · obtain ⟨m, hm, rfl⟩ := Option.map_eq_some_iff.mp h
        have hl := logStep_onTransport hm
        split <;> exact hl
      · cases h
    · cases h
  | filter | forward =>
    simp only [stepReader] at h
    split at h
    · split at h <;> cases h <;> exact .inl rfl
    · cases h
  | abort =>
    simp only [stepReader] at h
    split at h
    · obtain ⟨m, hm, h⟩ := Option.bind_eq_some_iff.mp h
      obtain ⟨m', hm', rfl⟩ := Option.map_eq_some_iff.mp h
      obtain ⟨t, ht, rfl⟩ := onTransport_eq hm
      obtain ⟨t', ht', rfl⟩ := onTransport_eq hm'
      have hl : t'.log = g.transport.log :=
        (Transport.log_quiet ht' (.inr (.inr (.inl rfl)))).trans
          (Transport.log_quiet ht (.inr (.inl rfl)))
      split <;> exact .inl hl
    · cases h

theorem dropCall_log (t : Transport) (k : CallId) : (t.dropCall k).log = t.log := by
  unfold Transport.dropCall
  cases h : t.step (.call k .drop) with
  | none => rfl
  | some t' => exact Transport.log_quiet h (.inr (.inr (.inr ⟨k, rfl⟩)))

theorem logStep_stepInvoke {k : CallId} {b : InvokeAction} (h : g.stepInvoke k b = some g') :
    g.transport.LogStep g'.transport := by
  rcases stepInvoke_cases h with ⟨-, -, -, rfl⟩ | ⟨-, -, -, rfl⟩ | ⟨-, -, -, rfl⟩ |
    ⟨b, t, -, -, -, ht, rfl⟩ | ⟨r, -, -, -, rfl⟩ | ⟨-, -, rfl⟩
  · exact .inl (dropCall_log _ _)
  · exact .inl rfl
  · exact .inl rfl
  · exact Transport.log_step ht
  · exact .inl rfl
  · exact .inl (dropCall_log _ _)

theorem logStep_invoke {opcode : Nat} {payload : Value} (h : g.invoke opcode payload = some g') :
    g.transport.LogStep g'.transport := by
  obtain ⟨t, ht, rfl⟩ := invoke_eq h
  exact Transport.log_step ht

theorem logStep_stepKeepalive {a : KeepaliveAction} (h : g.stepKeepalive a = some g') :
    g.transport.LogStep g'.transport := by
  cases a with
  | start =>
    simp only [stepKeepalive] at h
    split at h <;> cases h
    exact .inl rfl
  | tick =>
    simp only [stepKeepalive] at h
    split at h
    · obtain ⟨m, hm, rfl⟩ := Option.map_eq_some_iff.mp h
      have hl := logStep_invoke hm
      exact hl
    · cases h
  | ping b =>
    simp only [stepKeepalive] at h
    split at h
    · cases h
    · exact logStep_stepInvoke h
    · cases h
  | pinged =>
    simp only [stepKeepalive] at h
    split at h
    · split at h <;> cases h <;> exact .inl rfl
    · cases h
  | abort =>
    simp only [stepKeepalive] at h
    split at h
    · split at h
      · cases h
        exact .inl rfl
      · cases h
        exact .inl rfl
      · obtain ⟨m, hm, rfl⟩ := Option.map_eq_some_iff.mp h
        have hl := logStep_stepInvoke hm
        exact hl
      · cases h
    · cases h

theorem logStep_step {a : GenerationAction} (h : g.step fromStr a = some g') :
    g.transport.LogStep g'.transport := by
  cases a with
  | invoke opcode payload => exact logStep_invoke h
  | onInvoke k b => exact logStep_stepInvoke h
  | reader b => exact logStep_stepReader h
  | keepalive b => exact logStep_stepKeepalive h
  | install | clear | takeSink => exact logStep_onTransport h
  | spawnReader | spawnKeepalive =>
    simp only [step] at h
    split at h <;> cases h
    exact .inl rfl
  | setOwnUserId id | register fileId | dropWaiter w | cancel | abortAll =>
    cases h
    exact .inl rfl
  | recv =>
    simp only [step] at h
    split at h
    · split at h <;> cases h
      exact .inl rfl
    · cases h
  | dropAttempt waiting =>
    cases waiting with
    | none =>
      cases h
      exact .inl rfl
    | some k =>
      obtain ⟨m, hm, rfl⟩ := Option.map_eq_some_iff.mp h
      have hl := logStep_stepInvoke hm
      exact hl

theorem runner_onTransport {a : TransportAction} (h : g.onTransport a = some g')
    (ha : a = .install ∨ a = .clear ∨ a = .takeSink) :
    ∃ t, g' = { g with transport := t } ∧ t.calls = g.transport.calls ∧
      t.started = g.transport.started ∧ t.log = g.transport.log ∧
      (a = .install → t.sink = true) ∧ (a = .takeSink → t.sink = false) ∧
      (a = .clear → t.sink = g.transport.sink) := by
  obtain ⟨t, ht, rfl⟩ := onTransport_eq h
  refine ⟨t, rfl, ?_⟩
  rcases ha with rfl | rfl | rfl
  · simp only [Transport.step, Option.ite_none_right_eq_some, Option.some.injEq] at ht
    obtain ⟨_, rfl⟩ := ht
    exact ⟨rfl, rfl, rfl, fun _ => rfl, (by intros; contradiction), (by intros; contradiction)⟩
  · cases ht
    exact ⟨rfl, rfl, rfl, (by intros; contradiction), (by intros; contradiction), fun _ => rfl⟩
  · simp only [Transport.step, Option.ite_none_right_eq_some, Option.some.injEq] at ht
    obtain ⟨_, rfl⟩ := ht
    exact ⟨rfl, rfl, rfl, (by intros; contradiction), fun _ => rfl, (by intros; contradiction)⟩

theorem dropAttempt_frame {waiting : Option CallId}
    (h : g.step fromStr (.dropAttempt waiting) = some g') :
    ∃ m, InvokeFrame g m ∧ g' = m.dropIncoming ∧ (g.cancelled = true → m.cancelled = true) := by
  cases waiting with
  | none =>
    cases h
    exact ⟨g, ⟨rfl, rfl, rfl, rfl, rfl, rfl, rfl⟩, rfl, id⟩
  | some k =>
    obtain ⟨m, hm, rfl⟩ := Option.map_eq_some_iff.mp h
    exact ⟨m, invokeFrame_stepInvoke hm, rfl, (stepInvoke_frame hm).2.2.2.2⟩

theorem joined_step {a : GenerationAction} (ha : a.isRunner = false)
    (h : g.step fromStr a = some g')
    (hj : g.reader.joined = true ∧ g.keepalive.joined = true) :
    g'.reader.joined = true ∧ g'.keepalive.joined = true := by
  obtain ⟨_, hr, hk, _, _⟩ := tasks_step h
  have hkept := kept_step ha h
  constructor
  · rcases hr hj.1 with he | he
    · exact he ▸ hj.1
    · simp [hkept.reader.mpr he, ReaderPc.joined]
  · rcases hk hj.2 with he | he
    · exact he ▸ hj.2
    · simp [hkept.keepalive.mpr he, KeepalivePc.joined]

end Generation

end Maxrs
