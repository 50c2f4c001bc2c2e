import Maxrs.ClientInv
set_option autoImplicit false

/-! Which steps of a client reach the attachment registry of a connection. -/
namespace Maxrs

def FrameAction.completes : FrameAction → Option Int
  | .notifAttach fileId => some fileId
  | _ => none

def noticed (fromStr : String → Except String Packet) (frame : Option Frame) : Option Int :=
  (readTurn fromStr frame).1.completes

def AttachmentRegistry.notice (r : AttachmentRegistry) : Option Int → AttachmentRegistry
  | some fileId => r.complete fileId
  | none => r

def Shared.registry (sh : Shared) (c : ConnId) : AttachmentRegistry :=
  (sh.sessions c).generation.attachmentRegistry

def GenerationAction.reachesRegistry : GenerationAction → Bool
  | .register _ | .dropWaiter _ | .reader (.frame _) => true
  | _ => false

namespace Generation

variable {fromStr : String → Except String Packet} {g g' : Generation}

theorem registry_onTransport {a : TransportAction} (h : g.onTransport a = some g') :
    g'.attachmentRegistry = g.attachmentRegistry := by
  obtain ⟨t, _, rfl⟩ := onTransport_eq h
  rfl

theorem registry_stepInvoke {k : CallId} {a : InvokeAction} (h : g.stepInvoke k a = some g') :
    g'.attachmentRegistry = g.attachmentRegistry := by
  rcases stepInvoke_cases h with ⟨-, -, -, rfl⟩ | ⟨-, -, -, rfl⟩ | ⟨-, -, -, rfl⟩ |
    ⟨b, t, -, -, -, ht, rfl⟩ | ⟨r, -, -, -, rfl⟩ | ⟨-, -, rfl⟩ <;> rfl

theorem registry_invoke {opcode : Nat} {payload : Value}
    (h : g.invoke opcode payload = some g') :
    g'.attachmentRegistry = g.attachmentRegistry := by
  obtain ⟨t, _, rfl⟩ := invoke_eq h
  rfl

theorem registry_onFrame {n : Nat} {act : FrameAction} {packet : Option Packet}
    (h : g.onFrame n act packet = some g') :
    g'.attachmentRegistry = g.attachmentRegistry.notice act.completes := by
  cases act with
  | notifMessage m =>
    cases packet with
    | none => cases h
    | some p =>
      obtain ⟨m, hm, rfl⟩ := Option.map_eq_some_iff.mp h
      exact (registry_onTransport hm :)
  | stop | skip | reconnect | notifAttach fileId | response =>
    cases h
    rfl

theorem registry_frame {frame : Option Frame}
    (h : g.stepReader fromStr (.frame frame) = some g') :
    g'.attachmentRegistry = g.attachmentRegistry.notice (noticed fromStr frame) := by
  simp only [stepReader] at h
  split at h
  · split at h
    · rename_i act ht
      rw [noticed, ht]
      exact registry_onFrame h
    · rename_i act p ht
      obtain ⟨m, hm, h⟩ := Option.bind_eq_some_iff.mp h
      rw [noticed, ht, ← registry_onTransport hm]
      exact registry_onFrame h
  · cases h

theorem registry_stepReader {a : ReaderAction} (h : g.stepReader fromStr a = some g')
    (ha : ∀ frame, a ≠ .frame frame) : g'.attachmentRegistry = g.attachmentRegistry := by
  cases a with
  | frame frame => exact absurd rfl (ha frame)
  | start =>
    simp only [stepReader] at h
    split at h <;> cases h
    rfl
  | received =>
    simp only [stepReader] at h
    split at h
    · obtain ⟨m, hm, rfl⟩ := Option.map_eq_some_iff.mp h
      exact (registry_onTransport hm :)
    · cases h
  | ack b =>
    simp only [stepReader] at h
    split at h
    · split at h
      · obtain ⟨m, hm, rfl⟩ := Option.map_eq_some_iff.mp h
        split
        · exact (registry_onTransport hm :)
        · exact (registry_onTransport hm :)
      · cases h
    · cases h
  | filter | forward =>
    simp only [stepReader] at h
    split at h
    · split at h <;> cases h <;> rfl
    · cases h
  | abort =>
    simp only [stepReader] at h
    split at h
    · obtain ⟨m, hm, h⟩ := Option.bind_eq_some_iff.mp h
      obtain ⟨m', hm', rfl⟩ := Option.map_eq_some_iff.mp h
      have hr := (registry_onTransport hm').trans (registry_onTransport hm)
      split <;> exact hr
    · cases h

theorem registry_stepKeepalive {a : KeepaliveAction} (h : g.stepKeepalive a = some g') :
    g'.attachmentRegistry = g.attachmentRegistry := by
  cases a with
  | start =>
    simp only [stepKeepalive] at h
    split at h <;> cases h
    rfl
  | tick =>
    simp only [stepKeepalive] at h
    split at h
    · obtain ⟨m, hm, rfl⟩ := Option.map_eq_some_iff.mp h
      exact (registry_invoke hm :)
    · cases h
  | ping b =>
    simp only [stepKeepalive] at h
    split at h
    · cases h
    · exact registry_stepInvoke h
    · cases h
  | pinged =>
    simp only [stepKeepalive] at h
    split at h
    · split at h <;> cases h <;> rfl
    · cases h
  | abort =>
    simp only [stepKeepalive] at h
    split at h
    · split at h
      · cases h
        rfl
      · cases h
        rfl
      · obtain ⟨m, hm, rfl⟩ := Option.map_eq_some_iff.mp h
        exact (registry_stepInvoke hm :)
      · cases h
    · cases h

theorem registry_step {a : GenerationAction} (h : g.step fromStr a = some g')
    (ha : a.reachesRegistry = false) : g'.attachmentRegistry = g.attachmentRegistry := by
  cases a with
  | invoke opcode payload => exact registry_invoke h
  | onInvoke k b => exact registry_stepInvoke h
  | reader b =>
    refine registry_stepReader h fun frame hf => ?_
    rw [hf] at ha
    cases ha
  | keepalive b => exact registry_stepKeepalive h
  | install | clear | takeSink => exact registry_onTransport h
  | register fileId | dropWaiter w => cases ha
  | dropAttempt waiting =>
    cases waiting with
    | none =>
      cases h
      rfl
    | some k =>
      obtain ⟨m, hm, rfl⟩ := Option.map_eq_some_iff.mp h
      exact (registry_stepInvoke hm :)
  | spawnReader | spawnKeepalive =>
    simp only [step] at h
    split at h <;> cases h
    rfl
  | recv =>
    simp only [step] at h
    split at h
    · split at h <;> cases h
      rfl
    · cases h
  | setOwnUserId id | cancel | abortAll =>
    cases h
    rfl

end Generation

variable {setup : Setup} {sh sh' : Shared}

theorem registry_act {s s' : Session} {a : GenerationAction}
    (h : s.act setup.fromStr a = some s') (ha : a.reachesRegistry = false) :
    s'.generation.attachmentRegistry = s.generation.attachmentRegistry := by
  obtain ⟨g, hg, rfl⟩ := Session.act_eq h
  exact Generation.registry_step hg ha

def Shared.SameRegistries (sh sh' : Shared) : Prop :=
  ∀ c, c < sh.created → sh'.registry c = sh.registry c

theorem registry_setSession (sh : Shared) (c d : ConnId) (s : Session) :
    (sh.setSession c s).registry d =
      if d = c then s.generation.attachmentRegistry else sh.registry d := by
  by_cases hd : d = c
  · subst hd
    simp [Shared.registry]
  · simp [Shared.registry, setSession_of_ne sh s hd, hd]

theorem registry_onSession {c : ConnId} {f : Session → Option Session}
    (h : sh.onSession c f = some sh') (hf : ∀ s s', f s = some s' →
      s'.generation.attachmentRegistry = s.generation.attachmentRegistry) :
    ∀ d, sh'.registry d = sh.registry d := by
  intro d
  obtain ⟨s, hs, rfl⟩ := onSession_eq h
  rw [registry_setSession]
  split
  · rename_i hd
    rw [hf _ _ hs, hd, Shared.registry]
  · rfl

namespace Session

variable {s s' : Session}

theorem registry_stepAttempt {a : Attempt} {act : AttemptAction}
    (h : s.stepAttempt setup.fromStr a act = some s') :
    s'.generation.attachmentRegistry = s.generation.attachmentRegistry := by
  cases attempt_turn h with
  | performs op r next b g _ _ hb hg =>
    refine Generation.registry_step hg ?_
    obtain rfl | rfl | rfl | ⟨u, rfl⟩ := effect_cases hb <;> rfl
  | issue _ _ _ g _ _ hg | onInvoke _ _ g _ _ hg | recv _ g _ hg =>
    exact Generation.registry_step hg rfl
  | answers | take | look => rfl

theorem registry_stepClose {b : CloseAction} (h : s.stepClose setup.fromStr b = some s') :
    s'.generation.attachmentRegistry = s.generation.attachmentRegistry := by
  cases b with
  | offline | join =>
    simp only [stepClose] at h
    repeat' split at h
    all_goals cases h
    all_goals rfl
  | cancel | abortAll | clear | takeSink =>
    simp only [stepClose] at h
    split at h
    · obtain ⟨m, hm, rfl⟩ := Option.map_eq_some_iff.mp h
      exact (registry_act hm rfl :)
    · cases h

theorem registry_attempt {act : AttemptAction}
    (h : s.step setup.fromStr (.attempt act) = some s') :
    s'.generation.attachmentRegistry = s.generation.attachmentRegistry := by
  simp only [step] at h
  split at h
  · split at h
    · exact registry_stepAttempt h
    · cases h
  · cases h

theorem registry_poll (h : s.poll setup.fromStr = some s') :
    s'.generation.attachmentRegistry = s.generation.attachmentRegistry := by
  simp only [poll] at h
  split at h
  · split at h
    · cases h
    · split at h
      · obtain ⟨m, hm, rfl⟩ := Option.map_eq_some_iff.mp h
        exact (registry_act hm rfl :)
      · cases h
        rfl
  · cases h

theorem registry_park (h : s.park = some s') :
    s'.generation.attachmentRegistry = s.generation.attachmentRegistry := by
  simp only [park] at h
  split at h
  · split at h <;> cases h
    rfl
  · cases h

theorem registry_finish (h : s.finish setup.fromStr = some s') :
    s'.generation.attachmentRegistry = s.generation.attachmentRegistry := by
  simp only [finish] at h
  split at h
  · obtain ⟨m, hm, rfl⟩ := Option.map_eq_some_iff.mp h
    exact (registry_act hm rfl :)
  · cases h

end Session

theorem registry_runner {run run' : Runner} {a : LoopAction}
    (h : run.step setup sh a = some (sh', run')) : sh.SameRegistries sh' := by
  cases a with
  | checkTop | beginCheck | sleepPoll | slept =>
    simp only [Runner.step] at h
    split at h <;> cases h
    exact fun _ _ => rfl
  | beginCreate =>
    simp only [Runner.step] at h
    split at h <;> cases h
    intro c hc
    show (sh.setSession sh.created _).registry c = _
    rw [registry_setSession, if_neg (Nat.ne_of_lt hc)]
  | after =>
    simp only [Runner.step] at h
    split at h
    · obtain ⟨r, _, he⟩ := Option.map_eq_some_iff.mp h
      repeat' split at he
      all_goals
        cases he
        exact fun _ _ => rfl
    · cases h
  | poll | park | finishAttempt | dispatchCheck | connected | offline elapsed =>
    simp only [Runner.step] at h
    split at h
    · obtain ⟨m, hm, he⟩ := Option.map_eq_some_iff.mp h
      cases he
      first
        | exact fun d _ => registry_onSession hm (fun _ _ => Session.registry_poll) d
        | exact fun d _ => registry_onSession hm (fun _ _ => Session.registry_park) d
        | exact fun d _ => registry_onSession hm (fun _ _ => Session.registry_finish) d
        | exact fun d _ => registry_onSession hm (fun _ _ => Session.registry_attempt) d
        | exact fun d _ => registry_onSession hm (fun _ _ => Session.registry_stepClose) d
    · cases h
  | attempt b =>
    simp only [Runner.step] at h
    split at h
    · split at h
      · obtain ⟨m, hm, he⟩ := Option.map_eq_some_iff.mp h
        have hsame := registry_onSession hm fun _ _ => Session.registry_attempt
        split at he <;> cases he <;> exact fun d _ => hsame d
      · cases h
    · cases h
  | close b =>
    simp only [Runner.step] at h
    split at h
    · split at h
      · cases h
      · obtain ⟨m, hm, he⟩ := Option.map_eq_some_iff.mp h
        cases he
        exact fun d _ => registry_onSession hm (fun _ _ => Session.registry_stepClose) d
    · cases h

theorem registry_cancelShutdown (sh : Shared) (c : ConnId) :
    sh.cancelShutdown.registry c = sh.registry c := by
  unfold Shared.registry Shared.cancelShutdown
  by_cases hc : c < sh.created
  · simp [hc, Generation.cancel]
  · simp [hc]

theorem registry_run {r : RunId} {run run' : Run} {a : RunAction}
    (h : run.step setup sh r a = some (sh', run')) : sh.SameRegistries sh' := by
  cases a with
  | loop b =>
    simp only [Run.step] at h
    split at h
    · obtain ⟨out, hout, he⟩ := Option.map_eq_some_iff.mp h
      cases he
      exact registry_runner hout
    · cases h
  | guardCancel | supervisorCancel =>
    simp only [Run.step] at h
    split at h <;> cases h
    exact fun c _ => registry_cancelShutdown sh c
  | tryLock | checkShutdown | join | drop | guardPublish | start | loopEnd | supervisorPublish
  | cancelHandlers | unlock =>
    simp only [Run.step] at h
    repeat' split at h
    all_goals cases h
    all_goals exact fun _ _ => rfl

theorem registry_disconnect {d : DisconnectId} {pc pc' : DisconnectPc}
    (h : DisconnectStep sh d pc sh' pc') : sh.SameRegistries sh' := by
  cases h with
  | stopCancel _ he =>
    subst he
    exact fun c _ => registry_cancelShutdown sh c
  | stopPublish _ he | lock _ _ he | cancelHandlers _ he | unlock _ he | drop _ he =>
    subst he
    exact fun _ _ => rfl

end Maxrs
