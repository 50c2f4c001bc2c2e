import Maxrs.Isolation
import Maxrs.Locks
set_option autoImplicit false

/-! What still happens on a connection that was torn down, and on a client that was released. -/
namespace Maxrs

def TransportEvent.onWire : TransportEvent → Bool
  | .wrote _ _ | .acked _ _ | .read _ _ => true
  | .registered _ _ | .answered _ _ _ => false

namespace Transport

variable {t t' : Transport} {k : CallId} {c : Call}

def frames (t : Transport) : List TransportEvent := t.log.filter TransportEvent.onWire

def SinkInv (t : Transport) : Prop := t.sink = false → t.sinkLock = none

theorem sinkInv_call {a : CallAction} (h : t.stepCall k c a = some t') (hi : SinkInv t) :
    SinkInv t' ∧ t'.sink = t.sink := by
  obtain ⟨c', ht⟩ := exists_callTurn h
  cases ht with
  | lockSink s hp hl hs =>
    refine ⟨fun h' => ?_, rfl⟩
    cases hs.symm.trans h'
  | flushed s hp | sendFailed s reason hp | sendTimedOut s hp => exact ⟨fun _ => rfl, rfl⟩
  | drop hf =>
    refine ⟨fun h' => ?_, rfl⟩
    have hnone : t.sinkLock = none := hi h'
    exact (ite_eq_left_iff.mpr fun _ => hnone :
      (if c.pc.holdsSink = true then none else t.sinkLock) = none)
  | _ => exact ⟨hi, rfl⟩

theorem sinkInv_step {a : TransportAction} (h : t.step a = some t') (hi : SinkInv t) :
    SinkInv t' := by
  cases a with
  | start opcode payload | abandon | clear =>
    cases h
    exact hi
  | call k a =>
    obtain ⟨c, hc, h⟩ := Option.bind_eq_some_iff.mp h
    exact (sinkInv_call h hi).1
  | ack a =>
    cases a with
    | start n p | feed =>
      simp only [step, stepAck] at h
      split at h <;> cases h
      exact hi
    | lockSink =>
      simp only [step, stepAck] at h
      split at h
      · split at h
        · split at h <;> cases h
          · rename_i hs
            intro h'
            cases hs.symm.trans h'
          · exact hi
        · cases h
      · cases h
    | finish =>
      simp only [step, stepAck] at h
      split at h <;> cases h
      all_goals exact fun _ => rfl
    | drop =>
      simp only [step, stepAck, Option.some.injEq] at h
      subst h
      intro h'
      have hnone : t.sinkLock = none := hi h'
      exact (ite_eq_left_iff.mpr fun _ => hnone :
        (if t.ack.holdsSink = true then none else t.sinkLock) = none)
  | read p =>
    simp only [step, Option.ite_none_right_eq_some, Option.some.injEq] at h
    obtain ⟨-, rfl⟩ := h
    exact hi
  | receiveResponse =>
    simp only [step, Option.map_eq_some_iff] at h
    obtain ⟨⟨n, p⟩, -, rfl⟩ := h
    rcases t.deliver_cases n p with h | h | ⟨_, _, _, _, _, h⟩ <;> rw [h] <;> exact hi
  | install | takeSink =>
    simp only [step, Option.ite_none_right_eq_some, Option.some.injEq] at h
    obtain ⟨hl, rfl⟩ := h
    exact fun _ => hl

theorem sinkInv_of_reachable (h : automaton.Reachable t) : SinkInv t := by
  refine h.invariant (fun t ht => ?_) fun _ _ _ hs hi => sinkInv_step hs hi
  cases ht
  exact fun _ => rfl

theorem frames_call {a : CallAction} (h : t.stepCall k c a = some t') (hc : t.calls k = some c)
    (hi : LockInv t) (hl : t.sinkLock = none) : t'.frames = t.frames := by
  have hfree : c.pc.holdsSink = false := by
    have hk := hi.sink (.call k)
    simp only [holdsSink, hc, Option.map_some, Option.any_some, hl, reduceCtorEq, iff_false,
      Bool.not_eq_true] at hk
    exact hk
  obtain ⟨c', ht⟩ := exists_callTurn h
  cases ht with
  | register s hp _ => simp [frames, TransportEvent.onWire]
  | feed s hp =>
    rw [hp] at hfree
    cases hfree
  | _ => rfl

theorem frames_dropCall (t : Transport) (k : CallId) : (t.dropCall k).frames = t.frames := by
  unfold dropCall
  cases h : t.step (.call k .drop) with
  | none => rfl
  | some t' =>
    obtain ⟨d, -, hd⟩ := Option.bind_eq_some_iff.mp h
    simp only [stepCall] at hd
    split at hd <;> cases hd
    rfl

end Transport

namespace Generation

variable {fromStr : String → Except String Packet} {g g' : Generation}

/-- The frames of a connection, and what came of them. -/
def traffic (g : Generation) :
    List TransportEvent × List (Nat × IncomingMessage) × List (Nat × IncomingMessage) :=
  (g.transport.frames, g.forwarded, g.handled)

structure Mute (g : Generation) : Prop where
  lock : g.transport.LockInv
  free : g.transport.sinkLock = none
  reader : g.reader.joined = true

theorem traffic_stepInvoke {k : CallId} {a : InvokeAction} (h : g.stepInvoke k a = some g')
    (hm : Mute g) : g'.traffic = g.traffic := by
  have same : g'.transport.frames = g.transport.frames → g'.forwarded = g.forwarded →
      g'.handled = g.handled → g'.traffic = g.traffic := fun h₁ h₂ h₃ => by
    simp only [traffic, h₁, h₂, h₃]
  rcases stepInvoke_cases h with ⟨-, -, -, rfl⟩ | ⟨-, -, -, rfl⟩ | ⟨-, -, -, rfl⟩ |
    ⟨b, t, -, -, -, ht, rfl⟩ | ⟨r, -, -, -, rfl⟩ | ⟨-, -, rfl⟩
  · exact same (Transport.frames_dropCall _ _) rfl rfl
  · rfl
  · rfl
  · obtain ⟨c, hc, hs⟩ := Option.bind_eq_some_iff.mp ht
    exact same (Transport.frames_call hs hc hm.lock hm.free) rfl rfl
  · rfl
  · exact same (Transport.frames_dropCall _ _) rfl rfl

theorem traffic_invoke {opcode : Nat} {payload : Value} (h : g.invoke opcode payload = some g') :
    g'.traffic = g.traffic := by
  cases h
  rfl

theorem traffic_step {b : GenerationAction} (hb : b.isRunner = false)
    (h : g.step fromStr b = some g') (hm : Mute g) : g'.traffic = g.traffic := by
  cases b with
  | invoke opcode payload => exact traffic_invoke h
  | onInvoke k a => exact traffic_stepInvoke h hm
  | register _ | dropWaiter _ | cancel =>
    cases h
    rfl
  | reader a =>
    have hr := hm.reader
    cases hp : g.reader with
    | absent | ended => cases a <;> simp [step, stepReader, hp, ReaderPc.parked] at h
    | _ => simp [hp, ReaderPc.joined] at hr
  | keepalive a =>
    simp only [step] at h
    cases a with
    | start =>
      simp only [stepKeepalive] at h
      split at h <;> cases h
      rfl
    | tick =>
      simp only [stepKeepalive] at h
      split at h
      · obtain ⟨m, hm', rfl⟩ := Option.map_eq_some_iff.mp h
        have hw : m.traffic = g.traffic := traffic_invoke hm'
        exact hw
      · cases h
    | ping a =>
      simp only [stepKeepalive] at h
      split at h
      · cases h
      · exact traffic_stepInvoke h hm
      · cases h
    | pinged =>
      simp only [stepKeepalive] at h
      split at h
      · split at h <;> cases h <;> rfl
      · cases h
    | abort =>
      simp only [stepKeepalive] at h
      split at h
      · split at h
        · cases h
          rfl
        · cases h
          rfl
        · obtain ⟨m, hm', rfl⟩ := Option.map_eq_some_iff.mp h
          have hw : m.traffic = g.traffic := traffic_stepInvoke hm' hm
          exact hw
        · cases h
      · cases h
  | install | spawnReader | spawnKeepalive | setOwnUserId _ | recv | dropAttempt _ | abortAll
  | clear | takeSink => cases hb

end Generation

namespace Session

variable {fromStr : String → Except String Packet} {deviceId : String} {s s' : Session}

theorem mute_of_over (hi : Inv deviceId s) (h7 : s.phase.rank = 7) : s.generation.Mute where
  lock := Transport.lockInv_of_reachable hi.generation.transport
  free := Transport.sinkInv_of_reachable hi.generation.transport (hi.tasks.closed h7)
  reader := (hi.tasks.joined (by rw [h7]; decide)).1

theorem Change.traffic (h : Change fromStr s s') (hi : Inv deviceId s) (h7 : s.phase.rank = 7) :
    s'.generation.traffic = s.generation.traffic := by
  cases h with
  | foreign b g hb _ hg hs =>
    subst hs
    exact Generation.traffic_step hb hg (mute_of_over hi h7)
  | flags a _ hp _ _ _ | issue a _ _ _ _ hp _ _ _ _ | answer a _ _ _ _ _ hp _ _ _
  | recv a _ _ hp _ _ _ _ | drop a _ _ _ hp _ _ _ | offline _ hp _ | cancel _ _ hp _ _
  | abortAll _ _ hp _ _ | join _ hp _ _ _ | clear _ _ hp _ _ | takeSink _ _ hp _ _ =>
    rw [hp] at h7
    cases h7

end Session

variable {setup : Setup} {sh sh' : Shared} {w w' : Client}

theorem traffic_change {c : ConnId} (h : sh.Change setup sh') (hi : SharedInv setup sh)
    (hc : c < sh.created) (h7 : (sh.sessions c).phase.rank = 7) :
    (sh'.sessions c).generation.traffic = (sh.sessions c).generation.traffic := by
  rcases session_change h hc with he | ⟨b, hb, -⟩
  · rw [he]
  · exact (Session.change_step hb).traffic (Session.inv_of_reachable (hi.sessions c hc)) h7

theorem silent_leads {c : ConnId} (hr : (Client.automaton setup).Reachable w)
    (hp : (Client.automaton setup).Leads w w') (hc : c < w.shared.created)
    (h7 : (w.shared.sessions c).phase.rank = 7) :
    (w'.shared.sessions c).phase.rank = 7 ∧
      (w'.shared.sessions c).generation.traffic = (w.shared.sessions c).generation.traffic := by
  induction hp with
  | refl => exact ⟨h7, rfl⟩
  | tail hp _ hs ih =>
    obtain ⟨h7', hsame⟩ := ih
    have hi := clientInv_of_reachable (hr.path hp)
    have hch := (client_step hs).change hi.handles
    have hc' := (session_leads hr hp hc).1
    exact ⟨over_change hch hc' h7', (traffic_change hch hi.shared hc' h7').trans hsame⟩

theorem released_run {r : RunId} {run run' : Run} (hr : w.runs r = some run)
    (h : RunStep setup w.shared r run sh' run') (hw : Released w) :
    (run'.supervisor.rank = 0 ∨ run'.supervisor.rank = 7) ∧
      sh'.created = w.shared.created := by
  have hq := hw.quiet r run hr
  have within : ∀ {pc : SupervisorPc}, run.supervisor = pc → 0 < pc.rank → pc.rank < 7 →
      False := by
    rintro _ rfl h₁ h₂
    omega
  refine ⟨?_, ?_⟩
  · cases h with
    | lock _ _ _ | reject _ _ _ | closed _ _ _ | join _ _ _ _ | dropTrying _ _ | dropJoining _ _
    | guardCancel _ _ _ | guardPublish _ _ _ => exact hq
    | spawn _ hs _ => cases hw.shutdown.symm.trans hs
    | start hp _ => exact (within hp (by decide) (by decide)).elim
    | loop _ _ hp _ | loopEnd _ _ hp _ _ | supervisorCancel _ hp _ | supervisorPublish _ hp _
    | cancelHandlers _ hp _ | unlock _ hp _ =>
      exact (within hp (Nat.succ_pos _) (by simp [SupervisorPc.rank])).elim
  · rcases h.created with he | ⟨_, _, hp, _⟩
    · exact he
    · exact (within hp (Nat.succ_pos _) (by simp [SupervisorPc.rank])).elim

theorem released_step (h : ClientStep setup w w') (hc : ClientInv setup w) (hw : Released w) :
    Released w' ∧ w'.shared.created = w.shared.created := by
  have hg := client_grows h hc
  suffices hq : Quiet w' ∧ w'.shared.created = w.shared.created from
    ⟨⟨hg.stopped hw.stopped, hg.shutdown hw.shutdown, hg.handlers hw.handlers, hq.1⟩, hq.2⟩
  cases h with
  | startRun r hr =>
    refine ⟨fun q run hq => ?_, rfl⟩
    rcases update_some hq with ⟨rfl, rfl⟩ | ⟨-, hq⟩
    · exact .inl rfl
    · exact hw.quiet q run hq
  | run r run run' sh hr hst =>
    obtain ⟨hrank, hcr⟩ := released_run hr hst hw
    refine ⟨fun q m hq => ?_, hcr⟩
    rcases update_some hq with ⟨rfl, rfl⟩ | ⟨-, hq⟩
    · exact hrank
    · exact hw.quiet q m hq
  | send i snd snd' sh hi hst => exact ⟨hw.quiet, hst.control.created⟩
  | disconnect d pc pc' sh hd hst =>
    refine ⟨hw.quiet, ?_⟩
    cases hst with
    | stopCancel _ hs | stopPublish _ hs | lock _ _ hs | cancelHandlers _ hs | unlock _ hs
    | drop _ hs =>
      subst hs
      rfl
  | startSend _ _ _ | startDisconnect _ _ | worker _ _ _ _ _ => exact ⟨hw.quiet, rfl⟩

theorem released_leads (hr : (Client.automaton setup).Reachable w)
    (hp : (Client.automaton setup).Leads w w') (hw : Released w) :
    Released w' ∧ w'.shared.created = w.shared.created := by
  induction hp with
  | refl => exact ⟨hw, rfl⟩
  | tail hp _ hs ih =>
    obtain ⟨hrel, hsame⟩ := ih
    obtain ⟨hrel', hsame'⟩ :=
      released_step (client_step hs) (clientInv_of_reachable (hr.path hp)) hrel
    exact ⟨hrel', hsame'.trans hsame⟩

theorem released_over {c : ConnId} (hr : (Client.automaton setup).Reachable w) (hw : Released w)
    (hc : c < w.shared.created) : (w.shared.sessions c).phase.rank = 7 := by
  refine (isolationInv_of_reachable hr c hc).resolve_right ?_
  rintro ⟨r, run, runner, hrun, hs, -⟩
  rcases hw.quiet r run hrun with h | h <;> rw [hs] at h <;> cases h

namespace Client

/-- A connection whose attempt is over carries no frame any more, whatever the client does then;
and after `run_loop` or `disconnect` has released the client there is none on any connection, nor
a new one: no frame is written or read, none is dispatched and none is handled. -/
theorem released_silence (h : (automaton setup).Reachable w) :
    (∀ c x w', (automaton setup).Leads w w' → c < w.shared.created →
      (w.shared.sessions c).phase = .over x →
        (w'.shared.sessions c).generation.traffic =
          (w.shared.sessions c).generation.traffic) ∧
    (∀ w₁, ((∃ r, (automaton setup).step w (.run r .unlock) = some w₁) ∨
        ∃ d, (automaton setup).step w (.disconnect d .unlock) = some w₁) →
      ∀ w₂, (automaton setup).Leads w₁ w₂ →
        w₂.shared.created = w₁.shared.created ∧
        ∀ c, c < w₂.shared.created →
          (w₂.shared.sessions c).TornDown ∧
          (w₂.shared.sessions c).generation.traffic =
            (w₁.shared.sessions c).generation.traffic) := by
  refine ⟨fun c x w' hp hc hover => ?_, fun w₁ hs w₂ hp => ?_⟩
  · have h7 : (w.shared.sessions c).phase.rank = 7 := by
      rw [hover]
      rfl
    exact (silent_leads h hp hc h7).2
  · have hrel := released_unlock (lifecycleInv_of_reachable h) hs
    have h₁ : (automaton setup).Reachable w₁ := by
      rcases hs with ⟨r, hs⟩ | ⟨d, hs⟩ <;> exact h.tail hs
    obtain ⟨-, hsame⟩ := released_leads h₁ hp hrel
    refine ⟨hsame, fun c hc => ?_⟩
    have hc₁ : c < w₁.shared.created := hsame ▸ hc
    obtain ⟨h7, htr⟩ := silent_leads h₁ hp hc₁ (released_over h₁ hrel hc₁)
    have hinv := (clientInv_of_reachable (h₁.path hp)).shared.sessions c hc
    exact ⟨Session.tornDown_of_over (Session.inv_of_reachable hinv) h7, htr⟩

/-- `disconnect` releases a client whose message was never sent, and a later `run` brings no frame
to its only connection. -/
theorem released_silence_disconnect : ∃ w w₁ : Client,
    (automaton sampleSetup).step w (.run 0 .unlock) = some w₁ ∧ w₁.shared.created = 1 ∧
    ∀ w₂, (automaton sampleSetup).Leads w₁ w₂ →
      (w₂.shared.sessions 0).generation.traffic =
        (w₁.shared.sessions 0).generation.traffic := by
  let acts : List ClientAction := sampleSend ++
    [.startDisconnect 0, .disconnect 0 .stopCancel, .disconnect 0 .stopPublish,
      .run 0 (.loop (.dispatchCheck)), .run 0 (.loop .park), .run 0 (.loop .poll),
      .run 0 (.loop (.offline 0)), .run 0 (.loop (.close .cancel)),
      .run 0 (.loop (.close .abortAll)), .worker 0 (.reader .abort), .worker 0 (.keepalive .abort),
      .run 0 (.loop (.close .join)), .run 0 (.loop (.close .clear)),
      .run 0 (.loop (.close .takeSink)), .run 0 (.loop .after), .run 0 .loopEnd,
      .run 0 .supervisorCancel, .run 0 .supervisorPublish, .run 0 .cancelHandlers]
  have hr : (automaton sampleSetup).Reachable
      (((automaton sampleSetup).exec (new sampleSetup 0) acts).get rfl) :=
    Automaton.reachable_get ⟨0, rfl⟩
  obtain ⟨w₁, hs, hcreated⟩ : ∃ w₁, (automaton sampleSetup).step
      (((automaton sampleSetup).exec (new sampleSetup 0) acts).get rfl) (.run 0 .unlock) = some w₁ ∧
      w₁.shared.created = 1 := ⟨_, rfl, rfl⟩
  refine ⟨_, w₁, hs, hcreated, fun w₂ hp => ?_⟩
  obtain ⟨hcr, hall⟩ := (released_silence hr).2 w₁ (.inl ⟨0, hs⟩) w₂ hp
  exact (hall 0 (by rw [hcr, hcreated]; exact Nat.zero_lt_one)).2

end Client

end Maxrs
