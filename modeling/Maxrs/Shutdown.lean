import Maxrs.Isolation
import Maxrs.Teardown
set_option autoImplicit false

/-! A client whose shutdown was requested can always be brought to rest by its own tasks. -/
namespace Maxrs

def RunPc.isOver : RunPc → Bool
  | .returned _ | .dropped => true
  | _ => false

/-- The call has returned or was dropped, and no supervisor is left of it. -/
def Run.isOver (run : Run) : Bool :=
  run.call.isOver &&
    match run.supervisor with
    | .absent | .finished _ => true
    | _ => false

def DisconnectPc.isOver : DisconnectPc → Bool
  | .returned | .dropped => true
  | _ => false

variable {setup : Setup} {sh sh' : Shared} {w w' : Client}

theorem RunnerStep.shutdown {run run' : Runner} (h : RunnerStep setup sh run sh' run') :
    sh'.recovery.shutdown = sh.recovery.shutdown := by
  cases h with
  | goto hs _ _ _ | begin _ hs _ | after _ _ _ _ hs _ _ =>
    subst hs
    rfl
  | session c b _ _ _ _ _ hs _ =>
    subst hs
    exact recoveryAfter_shutdown sh c b

theorem RunStep.not_over {r : RunId} {run run' : Run} (h : RunStep setup sh r run sh' run') :
    run.isOver = false := by
  cases h with
  | lock hc _ _ | reject hc _ _ | closed hc _ _ | spawn hc _ _ | dropTrying hc _
  | dropJoining hc _ | join _ hc _ _ | guardCancel _ hc _ | guardPublish _ hc _ =>
    simp [Run.isOver, hc, RunPc.isOver]
  | start hs _ | loop _ _ hs _ | loopEnd _ _ hs _ _ | supervisorCancel _ hs _
  | supervisorPublish _ hs _ | cancelHandlers _ hs _ | unlock _ hs _ => simp [Run.isOver, hs]

theorem DisconnectStep.not_over {d : DisconnectId} {pc pc' : DisconnectPc}
    (h : DisconnectStep sh d pc sh' pc') : pc.isOver = false := by
  cases h with
  | stopCancel hp _ | stopPublish hp _ | lock hp _ _ | cancelHandlers hp _ | unlock hp _ =>
    rw [hp]
    rfl
  | drop hp _ => rcases hp with hp | hp <;> rw [hp] <;> rfl

theorem Send.step_not_over {snd snd' : Send} {a : SendAction}
    (h : snd.step setup sh a = some (sh', snd')) : snd.pc.isOver = false := by
  cases hp : snd.pc with
  | returned r => cases a <;> simp [Send.step, Send.stepCurrent, hp] at h
  | dropped => cases a <;> simp [Send.step, Send.stepCurrent, hp] at h
  | _ => rfl

namespace Client

def Publishing (w : Client) : Prop :=
  (∃ r run, w.runs r = some run ∧
    ((∃ x, run.call = .publishing x) ∨ ∃ x, run.supervisor = .publishing x)) ∨
  ∃ d, w.disconnects d = some .publishing

def StopInv (w : Client) : Prop :=
  w.shared.recovery.shutdown = true → w.shared.recovery.state = .stopped ∨ w.Publishing

theorem stopInv_frame (hi : StopInv w)
    (hs : w'.shared.recovery.shutdown = true → w.shared.recovery.shutdown = true)
    (hst : w.shared.recovery.state = .stopped → w'.shared.recovery.state = .stopped)
    (hp : w.Publishing → w'.Publishing) : StopInv w' := by
  intro h
  exact (hi (hs h)).imp hst hp

theorem stopInv_run {r : RunId} {run run' : Run} (hr : w.runs r = some run)
    (h : RunStep setup w.shared r run sh run')
    (hg : w.shared.recovery.state = .stopped → sh.recovery.state = .stopped) (hi : StopInv w) :
    StopInv { w with shared := sh, runs := Function.update w.runs r (some run') } := by
  -- unless the step is a publication, whoever publishes still does
  have kept : (sh.recovery.shutdown = true → w.shared.recovery.shutdown = true) →
      ((∃ x, run.call = .publishing x) → ∃ x, run'.call = .publishing x) →
      ((∃ x, run.supervisor = .publishing x) → ∃ x, run'.supervisor = .publishing x) →
      StopInv { w with shared := sh, runs := Function.update w.runs r (some run') } := by
    intro hs hc hsup
    refine stopInv_frame hi hs hg ?_
    rintro (⟨q, m, hq, hm⟩ | hd)
    · by_cases hqr : q = r
      · subst hqr
        cases hr.symm.trans hq
        exact .inl ⟨q, run', Function.update_self .., hm.imp hc hsup⟩
      · exact .inl ⟨q, m, by simp [Function.update_of_ne hqr, hq], hm⟩
    · exact .inr hd
  have calls : ∀ {p : RunPc}, run.call = p → (∀ x, p ≠ .publishing x) →
      (∃ x, run.call = .publishing x) → ∃ x, run'.call = .publishing x := by
    rintro p rfl hne ⟨x, hx⟩
    exact absurd hx (hne x)
  have supervises : ∀ {p : SupervisorPc}, run.supervisor = p → (∀ x, p ≠ .publishing x) →
      (∃ x, run.supervisor = .publishing x) → ∃ x, run'.supervisor = .publishing x := by
    rintro p rfl hne ⟨x, hx⟩
    exact absurd hx (hne x)
  cases h with
  | lock hc _ he | reject hc _ he | closed hc _ he | join _ hc _ he | dropTrying hc he
  | dropJoining hc he =>
    subst he
    exact kept id (calls hc fun _ => RunPc.noConfusion) id
  | spawn hc hs he =>
    subst he
    intro h
    cases hs.symm.trans h
  | guardCancel x _ _ =>
    exact fun _ => .inr (.inl ⟨r, _, Function.update_self .., .inl ⟨x, rfl⟩⟩)
  | guardPublish _ _ he | supervisorPublish _ _ he =>
    subst he
    exact fun _ => .inl rfl
  | start hs he | loopEnd _ _ hs _ he | cancelHandlers _ hs he | unlock _ hs he =>
    subst he
    exact kept id id (supervises hs fun _ => SupervisorPc.noConfusion)
  | loop m m' hs hstep =>
    exact kept (fun h => hstep.shutdown ▸ h) id (supervises hs fun _ => SupervisorPc.noConfusion)
  | supervisorCancel x _ _ =>
    exact fun _ => .inr (.inl ⟨r, _, Function.update_self .., .inr ⟨x, rfl⟩⟩)

theorem stopInv_disconnect {d : DisconnectId} {pc pc' : DisconnectPc}
    (hd : w.disconnects d = some pc) (h : DisconnectStep w.shared d pc sh pc')
    (hg : w.shared.recovery.state = .stopped → sh.recovery.state = .stopped) (hi : StopInv w) :
    StopInv { w with shared := sh, disconnects := Function.update w.disconnects d (some pc') } := by
  have kept : sh.recovery = w.shared.recovery → pc ≠ .publishing →
      StopInv
        { w with shared := sh, disconnects := Function.update w.disconnects d (some pc') } := by
    intro hs hpc
    refine stopInv_frame hi (fun h => hs ▸ h) hg ?_
    rintro (hr | ⟨e, he⟩)
    · exact .inl hr
    · have hne : e ≠ d := by
        rintro rfl
        exact hpc (Option.some.inj (hd.symm.trans he))
      exact .inr ⟨e, by simp [Function.update_of_ne hne, he]⟩
  cases h with
  | stopCancel _ _ => exact fun _ => .inr (.inr ⟨d, Function.update_self ..⟩)
  | stopPublish _ he =>
    subst he
    exact fun _ => .inl rfl
  | lock hp _ he | cancelHandlers hp he | unlock hp he =>
    subst he
    exact kept rfl (by rw [hp]; exact DisconnectPc.noConfusion)
  | drop hp he =>
    subst he
    refine kept rfl ?_
    rcases hp with hp | hp <;> rw [hp] <;> exact DisconnectPc.noConfusion

theorem stopInv_step (h : ClientStep setup w w') (hc : ClientInv setup w) (hi : StopInv w) :
    StopInv w' := by
  have hg := client_grows h hc
  cases h with
  | startRun r hr =>
    refine stopInv_frame hi id id ?_
    rintro (⟨q, m, hq, hm⟩ | hd)
    · have hne : q ≠ r := by
        rintro rfl
        cases hr.symm.trans hq
      exact .inl ⟨q, m, by simp [Function.update_of_ne hne, hq], hm⟩
    · exact .inr hd
  | run r run run' sh hr hs => exact stopInv_run hr hs hg.stopped hi
  | startSend i job hs => exact stopInv_frame hi id id id
  | send i snd snd' sh hs hst =>
    exact stopInv_frame hi (fun h => hst.control.recovery ▸ h) hg.stopped id
  | startDisconnect d hd =>
    refine stopInv_frame hi id id ?_
    rintro (hr | ⟨e, he⟩)
    · exact .inl hr
    · have hne : e ≠ d := by
        rintro rfl
        cases hd.symm.trans he
      exact .inr ⟨e, by simp [Function.update_of_ne hne, he]⟩
  | disconnect d pc pc' sh hd hs => exact stopInv_disconnect hd hs hg.stopped hi
  | worker c a s hcr hs => exact stopInv_frame hi id hg.stopped id

theorem stopInv_of_reachable (h : (automaton setup).Reachable w) : StopInv w := by
  refine h.invariant_of (fun v ⟨_, hv⟩ hs => ?_) fun v a v' hr hs hi =>
    stopInv_step (client_step hs) (clientInv_of_reachable hr) hi
  rw [hv] at hs
  cases hs

theorem calls_bounded (h : (automaton setup).Reachable w) :
    ∃ n, ∀ i, n ≤ i → w.runs i = none ∧ w.sends i = none ∧ w.disconnects i = none := by
  refine h.invariant
    (I := fun v => ∃ n, ∀ i, n ≤ i → v.runs i = none ∧ v.sends i = none ∧ v.disconnects i = none)
    (fun v ⟨_, hv⟩ => ⟨0, fun i _ => by rw [hv]; exact ⟨rfl, rfl, rfl⟩⟩) ?_
  rintro v a v' hs ⟨n, hn⟩
  have other : ∀ {i j : Nat}, max n (j + 1) ≤ i → n ≤ i ∧ i ≠ j := by
    intro i j h
    exact ⟨(Nat.le_max_left n (j + 1)).trans h,
      Nat.ne_of_gt ((Nat.le_max_right n (j + 1)).trans h)⟩
  cases client_step hs with
  | startRun j hj =>
    refine ⟨max n (j + 1), fun i hi => ?_⟩
    obtain ⟨hle, hne⟩ := other hi
    exact ⟨by simp [Function.update_of_ne hne, hn i hle], (hn i hle).2⟩
  | run j run run' sh hj _ =>
    refine ⟨max n (j + 1), fun i hi => ?_⟩
    obtain ⟨hle, hne⟩ := other hi
    exact ⟨by simp [Function.update_of_ne hne, hn i hle], (hn i hle).2⟩
  | startSend j job hj =>
    refine ⟨max n (j + 1), fun i hi => ?_⟩
    obtain ⟨hle, hne⟩ := other hi
    exact ⟨(hn i hle).1, by simp [Function.update_of_ne hne, hn i hle], (hn i hle).2.2⟩
  | send j snd snd' sh hj _ =>
    refine ⟨max n (j + 1), fun i hi => ?_⟩
    obtain ⟨hle, hne⟩ := other hi
    exact ⟨(hn i hle).1, by simp [Function.update_of_ne hne, hn i hle], (hn i hle).2.2⟩
  | startDisconnect j hj =>
    refine ⟨max n (j + 1), fun i hi => ?_⟩
    obtain ⟨hle, hne⟩ := other hi
    exact ⟨(hn i hle).1, (hn i hle).2.1, by simp [Function.update_of_ne hne, hn i hle]⟩
  | disconnect j pc pc' sh hj _ =>
    refine ⟨max n (j + 1), fun i hi => ?_⟩
    obtain ⟨hle, hne⟩ := other hi
    exact ⟨(hn i hle).1, (hn i hle).2.1, by simp [Function.update_of_ne hne, hn i hle]⟩
  | worker c b s _ _ => exact ⟨n, hn⟩

section supervisor

variable {P : Client → Prop} {r : RunId} {run run' : Run}

theorem CanSettle.ofRun (a : RunAction) (hw : Stopping setup w) (hr : w.runs r = some run)
    (ha : (ClientAction.run r a).isOutside = false)
    (h : run.step setup w.shared r a = some (sh', run'))
    (hrest : ∀ v, Stopping setup v → v.shared = sh' → v.runs r = some run' →
      CanSettle setup v P) : CanSettle setup w P := by
  have hs := step_run hr h
  exact .after ha hs (hrest _ (hw.step hs) rfl (Function.update_self ..))

def Unlocked (r : RunId) (w : Client) : Prop :=
  w.shared.runLock = none ∧ ∃ run x, w.runs r = some run ∧ run.supervisor = .finished x

theorem CanSettle.unlocks {x : Except Error Unit} (hw : Stopping setup w)
    (hr : w.runs r = some run) (hs : run.supervisor = .unlocking x) :
    CanSettle setup w (Unlocked r) := by
  refine CanSettle.ofRun .unlock hw hr rfl (by simp only [Run.step, hs]; rfl) fun v _ hv hvr => ?_
  exact .here ⟨by rw [hv], _, x, hvr, rfl⟩

theorem CanSettle.unwinds {x : Except Error Unit} (hw : Stopping setup w)
    (hr : w.runs r = some run) (hs : run.supervisor = .cancelling x ∨
      run.supervisor = .publishing x ∨ run.supervisor = .handlers x ∨
      run.supervisor = .unlocking x) : CanSettle setup w (Unlocked r) := by
  have handlers : ∀ {v m}, Stopping setup v → v.runs r = some m → m.supervisor = .handlers x →
      CanSettle setup v (Unlocked r) := by
    intro v m hv hm hms
    refine CanSettle.ofRun .cancelHandlers hv hm rfl (by simp only [Run.step, hms]; rfl)
      fun u hu _ hur => ?_
    exact .unlocks hu hur rfl
  have publishes : ∀ {v m}, Stopping setup v → v.runs r = some m →
      m.supervisor = .publishing x → CanSettle setup v (Unlocked r) := by
    intro v m hv hm hms
    refine CanSettle.ofRun .supervisorPublish hv hm rfl (by simp only [Run.step, hms]; rfl)
      fun u hu _ hur => ?_
    exact handlers hu hur rfl
  rcases hs with hs | hs | hs | hs
  · refine CanSettle.ofRun .supervisorCancel hw hr rfl (by simp only [Run.step, hs]; rfl)
      fun u hu _ hur => ?_
    exact publishes hu hur rfl
  · exact publishes hw hr hs
  · exact handlers hw hr hs
  · exact .unlocks hw hr hs

theorem CanSettle.returns {runner : Runner} {x : Except Error Unit} (hw : Stopping setup w)
    (hr : w.runs r = some run) (hs : run.supervisor = .looping runner)
    (hp : runner.pc = .finished x) : CanSettle setup w (Unlocked r) := by
  obtain ⟨config, delay, pc⟩ := runner
  cases hp
  refine CanSettle.ofRun .loopEnd hw hr rfl (by simp only [Run.step, hs]; rfl) fun u hu _ hur => ?_
  exact .unwinds hu hur (.inl rfl)

theorem CanSettle.loop (a : LoopAction) {runner runner' : Runner} (hw : Stopping setup w)
    (hr : w.runs r = some run) (hs : run.supervisor = .looping runner)
    (ha : (ClientAction.run r (.loop a)).isOutside = false)
    (h : runner.step setup w.shared a = some (sh', runner'))
    (hrest : ∀ v m, Stopping setup v → v.runs r = some m → m.supervisor = .looping runner' →
      CanSettle setup v P) : CanSettle setup w P := by
  refine CanSettle.ofRun (.loop a) hw hr ha
    (by simp only [Run.step, hs, h, Option.map_some]; rfl) fun v hv _ hvr => ?_
  exact hrest v _ hv hvr rfl

theorem CanSettle.attempted {c : ConnId} (hw : Stopping setup w) (hat : w.attemptOf r = some c) :
    CanSettle setup w (Unlocked r) := by
  refine (CanTear.torn (hw.severed (attempt_created hw.clientInv hat)) hat).settle.bind
    fun v hv hvat => ?_
  have hv := hw.path hv
  obtain ⟨m, runner, hm, hms, hmp⟩ := attemptOf_eq.mp hvat.1
  obtain ⟨x, hx⟩ := hvat.result
  refine CanSettle.loop .after hv hm hms rfl
    (by simp only [Runner.step, hmp, hx, Option.map_some, hv.shutdown, if_true]; rfl)
    fun u n hu hun hus => ?_
  exact .returns hu hun hus rfl

theorem CanSettle.supervisor (hw : Stopping setup w) (hr : w.runs r = some run)
    (hlow : 1 ≤ run.supervisor.rank) (hhigh : run.supervisor.rank ≤ 6) :
    CanSettle setup w (Unlocked r) := by
  have begins : ∀ {v m runner}, Stopping setup v → v.runs r = some m →
      m.supervisor = .looping runner → runner.pc = .top → CanSettle setup v (Unlocked r) := by
    intro v m runner hv hm hms hmp
    refine CanSettle.loop .checkTop hv hm hms rfl
      (by simp only [Runner.step, hmp, hv.shutdown, if_true]; rfl) fun u n hu hun hus => ?_
    exact .returns hu hun hus rfl
  cases hs : run.supervisor with
  | absent => simp [hs, SupervisorPc.rank] at hlow
  | spawned =>
    refine CanSettle.ofRun .start hw hr rfl (by simp only [Run.step, hs]; rfl)
      fun u hu _ hur => ?_
    exact begins hu hur rfl rfl
  | looping runner =>
    cases hp : runner.pc with
    | top => exact begins hw hr hs hp
    | begin =>
      refine CanSettle.loop .beginCheck hw hr hs rfl
        (by simp only [Runner.step, hp, hw.shutdown, if_true]; rfl) fun u n hu hun hus => ?_
      exact .returns hu hun hus rfl
    | create =>
      refine CanSettle.loop .beginCreate hw hr hs rfl
        (by simp only [Runner.step, hp]; rfl) fun u n hu hun hus => ?_
      exact .attempted hu (attemptOf_eq.mpr ⟨n, _, hun, hus, rfl⟩)
    | attempt c => exact .attempted hw (attemptOf_eq.mpr ⟨run, runner, hr, hs, hp⟩)
    | sleeping polled =>
      refine CanSettle.loop .sleepPoll hw hr hs rfl
        (by simp only [Runner.step, hp, hw.shutdown, if_true]; rfl) fun u n hu hun hus => ?_
      exact .returns hu hun hus rfl
    | finished x => exact .returns hw hr hs hp
  | cancelling x => exact .unwinds hw hr (.inl hs)
  | publishing x => exact .unwinds hw hr (.inr (.inl hs))
  | handlers x => exact .unwinds hw hr (.inr (.inr (.inl hs)))
  | unlocking x => exact .unwinds hw hr (.inr (.inr (.inr hs)))
  | finished x => simp [hs, SupervisorPc.rank] at hhigh

def RunOver (r : RunId) (w : Client) : Prop := ∀ run, w.runs r = some run → run.isOver = true

theorem runOver_of (hr : w.runs r = some run) (ho : run.isOver = true) : RunOver r w := by
  intro m hm
  cases hr.symm.trans hm
  exact ho

theorem CanSettle.joined {x : Except Error Unit} (hw : Stopping setup w)
    (hr : w.runs r = some run) (hs : run.supervisor = .finished x) :
    CanSettle setup w (RunOver r) := by
  have publishes : ∀ {v m y}, Stopping setup v → v.runs r = some m →
      m.supervisor = .finished x → m.call = .publishing y → CanSettle setup v (RunOver r) := by
    intro v m y hv hm hms hmc
    obtain ⟨call, supervisor⟩ := m
    cases hms
    cases hmc
    cases y with
    | none =>
      refine CanSettle.ofRun .guardPublish hv hm rfl (by simp only [Run.step]; rfl)
        fun u _ _ hur => ?_
      exact .here (runOver_of hur rfl)
    | some result =>
      refine CanSettle.ofRun .guardPublish hv hm rfl (by simp only [Run.step]; rfl)
        fun u _ _ hur => ?_
      exact .here (runOver_of hur rfl)
  have cancels : ∀ {v m y}, Stopping setup v → v.runs r = some m →
      m.supervisor = .finished x → m.call = .cancelling y → CanSettle setup v (RunOver r) := by
    intro v m y hv hm hms hmc
    refine CanSettle.ofRun .guardCancel hv hm rfl (by simp only [Run.step, hmc]; rfl)
      fun u hu _ hur => ?_
    exact publishes hu hur hms rfl
  have hi := (lifecycleInv_of_reachable hw.reachable).runs r run hr
  cases hc : run.call with
  | trying => cases hs.symm.trans (hi.early (.inl hc))
  | locked => cases hs.symm.trans (hi.early (.inr hc))
  | joining =>
    refine CanSettle.ofRun .join hw hr rfl (by simp only [Run.step, hc, hs]; rfl)
      fun u hu _ hur => ?_
    exact cancels hu hur rfl rfl
  | cancelling y => exact cancels hw hr hs hc
  | publishing y => exact publishes hw hr hs hc
  | returned y => exact .here (runOver_of hr (by simp [Run.isOver, RunPc.isOver, hc, hs]))
  | dropped => exact .here (runOver_of hr (by simp [Run.isOver, RunPc.isOver, hc, hs]))

theorem CanSettle.refused (hw : Stopping setup w) (hr : w.runs r = some run)
    (hs : run.supervisor = .absent) (hc : run.call = .locked) :
    CanSettle setup w fun v => v.shared.runLock = none ∧ RunOver r v := by
  refine CanSettle.ofRun .checkShutdown hw hr rfl
    (by simp only [Run.step, hc, hw.shutdown, if_true]; rfl) fun u _ hu hur => ?_
  exact .here ⟨by rw [hu], runOver_of hur (by simp [Run.isOver, RunPc.isOver, hs])⟩

theorem CanSettle.runOver (hw : Stopping setup w) (r : RunId) : CanSettle setup w (RunOver r) := by
  cases hr : w.runs r with
  | none => exact .here fun m hm => by rw [hr] at hm; cases hm
  | some run =>
    have hi := (lifecycleInv_of_reachable hw.reachable).runs r run hr
    have supervised : 1 ≤ run.supervisor.rank → run.supervisor.rank ≤ 6 →
        CanSettle setup w (RunOver r) := fun hlow hhigh =>
      (CanSettle.supervisor hw hr hlow hhigh).bind fun v hv ⟨_, m, x, hm, hms⟩ =>
        CanSettle.joined (hw.path hv) hm hms
    cases hs : run.supervisor with
    | finished x => exact .joined hw hr hs
    | absent =>
      cases hc : run.call with
      | trying =>
        by_cases hl : w.shared.runLock = none
        · refine CanSettle.ofRun .tryLock hw hr rfl
            (by simp only [Run.step, hc, hl, if_true]; rfl) fun u hu _ hur => ?_
          exact (CanSettle.refused hu hur hs rfl).mono fun v hv => hv.2
        · refine CanSettle.ofRun .tryLock hw hr rfl
            (by simp only [Run.step, hc, hl, if_false]; rfl) fun u _ _ hur => ?_
          exact .here (runOver_of hur (by simp [Run.isOver, RunPc.isOver, hs]))
      | locked => exact (CanSettle.refused hw hr hs hc).mono fun v hv => hv.2
      | joining => exact absurd hs (hi.late (.inl hc))
      | cancelling y => exact absurd hs (hi.late (.inr ⟨y, .inl hc⟩))
      | publishing y => exact absurd hs (hi.late (.inr ⟨y, .inr hc⟩))
      | returned y => exact .here (runOver_of hr (by simp [Run.isOver, RunPc.isOver, hc, hs]))
      | dropped => exact .here (runOver_of hr (by simp [Run.isOver, RunPc.isOver, hc, hs]))
    | spawned | looping _ | cancelling _ | publishing _ | handlers _ | unlocking _ =>
      exact supervised (by simp [hs, SupervisorPc.rank]) (by simp [hs, SupervisorPc.rank])

end supervisor

section disconnect

variable {P : Client → Prop} {d : DisconnectId} {pc pc' : DisconnectPc}

theorem CanSettle.ofDisconnect (a : DisconnectAction) (hw : Stopping setup w)
    (hd : w.disconnects d = some pc) (ha : (ClientAction.disconnect d a).isOutside = false)
    (h : pc.step w.shared d a = some (sh', pc'))
    (hrest : ∀ v, Stopping setup v → v.shared = sh' → v.disconnects d = some pc' →
      CanSettle setup v P) : CanSettle setup w P := by
  have hs : w.step setup (.disconnect d a) = some
      { w with shared := sh', disconnects := Function.update w.disconnects d (some pc') } := by
    simp only [Client.step, hd, Option.bind_some, h, Option.map_some]
  exact .after ha hs (hrest _ (hw.step hs) rfl (Function.update_self ..))

def DisconnectOver (d : DisconnectId) (w : Client) : Prop :=
  ∀ pc, w.disconnects d = some pc → pc.isOver = true

theorem disconnectOver_of (hd : w.disconnects d = some pc) (ho : pc.isOver = true) :
    DisconnectOver d w := by
  intro p hp
  cases hd.symm.trans hp
  exact ho

theorem CanSettle.disconnects (hw : Stopping setup w) (hd : w.disconnects d = some pc)
    (hl : pc = .locked ∨ pc = .unlocking) :
    CanSettle setup w fun v => v.shared.runLock = none ∧ DisconnectOver d v := by
  have unlocking : ∀ {v}, Stopping setup v → v.disconnects d = some .unlocking →
      CanSettle setup v fun v => v.shared.runLock = none ∧ DisconnectOver d v := by
    intro v hv hvd
    refine CanSettle.ofDisconnect .unlock hv hvd rfl rfl fun u _ hu hud => ?_
    exact .here ⟨by rw [hu], disconnectOver_of hud rfl⟩
  rcases hl with rfl | rfl
  · exact CanSettle.ofDisconnect .cancelHandlers hw hd rfl rfl fun u hu _ hud => unlocking hu hud
  · exact unlocking hw hd

theorem CanSettle.unlocked (hw : Stopping setup w) :
    CanSettle setup w fun v => v.shared.runLock = none := by
  have hi := runLockInv_of_reachable hw.reachable
  cases hl : w.shared.runLock with
  | none => exact .here hl
  | some owner =>
    cases owner with
    | run r =>
      obtain ⟨run, hr, hc | ⟨hlow, hhigh⟩⟩ := hi.run r hl
      · have hs := ((lifecycleInv_of_reachable hw.reachable).runs r run hr).early (.inr hc)
        exact (CanSettle.refused hw hr hs hc).mono fun v hv => hv.1
      · exact (CanSettle.supervisor hw hr hlow hhigh).mono fun v hv => hv.1
    | disconnect d =>
      obtain ⟨pc, hd, hp⟩ := hi.disconnect d hl
      exact (CanSettle.disconnects hw hd hp).mono fun v hv => hv.1

theorem CanSettle.disconnectOver (hw : Stopping setup w) (d : DisconnectId) :
    CanSettle setup w (DisconnectOver d) := by
  have holds : ∀ {v p}, Stopping setup v → v.disconnects d = some p →
      p = .locked ∨ p = .unlocking → CanSettle setup v (DisconnectOver d) :=
    fun hv hd hp => (CanSettle.disconnects hv hd hp).mono fun _ h => h.2
  have locks : ∀ {v}, Stopping setup v → v.shared.runLock = none →
      v.disconnects d = some .locking → CanSettle setup v (DisconnectOver d) := by
    intro v hv hl hd
    refine CanSettle.ofDisconnect .lock hv hd rfl
      (by simp only [DisconnectPc.step, hl, if_true]; rfl) fun u hu _ hud => ?_
    exact holds hu hud (.inl rfl)
  have publishes : ∀ {v}, Stopping setup v → v.shared.runLock = none →
      v.disconnects d = some .publishing → CanSettle setup v (DisconnectOver d) := by
    intro v hv hl hd
    refine CanSettle.ofDisconnect .stopPublish hv hd rfl rfl fun u hu hus hud => ?_
    exact locks hu (by rw [hus]; exact hl) hud
  refine (CanSettle.unlocked hw).bind fun v hv hl => ?_
  have hv' := hw.path hv
  cases hd : v.disconnects d with
  | none => exact .here fun p hp => by rw [hd] at hp; cases hp
  | some pc =>
    cases pc with
    | stopping =>
      refine CanSettle.ofDisconnect .stopCancel hv' hd rfl rfl fun u hu hus hud => ?_
      exact publishes hu (by rw [hus]; exact hl) hud
    | publishing => exact publishes hv' hl hd
    | locking => exact locks hv' hl hd
    | locked => exact holds hv' hd (.inl rfl)
    | unlocking => exact holds hv' hd (.inr rfl)
    | returned | dropped => exact .here (disconnectOver_of hd rfl)

end disconnect

def SendOver (i : SendId) (w : Client) : Prop :=
  ∀ snd, w.sends i = some snd → snd.pc.isOver = true

theorem CanSettle.sendOver (hw : Stopped setup w) (i : SendId) :
    CanSettle setup w (SendOver i) := by
  cases hi : w.sends i with
  | none => exact .here fun snd hs => by rw [hi] at hs; cases hs
  | some snd =>
    refine (CanSettle.ends hw hi).mono fun v ⟨m, hm, ho⟩ snd' hs => ?_
    cases hm.symm.trans hs
    exact ho

theorem settles_keeps (h : Settles setup w w') (n : Nat) :
    (RunOver n w → RunOver n w') ∧ (DisconnectOver n w → DisconnectOver n w') ∧
      (SendOver n w → SendOver n w') := by
  refine h.relates
    (R := fun w w' => (RunOver n w → RunOver n w') ∧ (DisconnectOver n w → DisconnectOver n w') ∧
      (SendOver n w → SendOver n w')) (fun _ => ⟨id, id, id⟩)
    (fun h h' => ⟨h'.1 ∘ h.1, h'.2.1 ∘ h.2.1, h'.2.2 ∘ h.2.2⟩) fun v a v' hok hs => ?_
  cases a with
  | startRun r | startSend i job | startDisconnect d => cases hok
  | run r a =>
    obtain ⟨run, hr, hs⟩ := Option.bind_eq_some_iff.mp hs
    obtain ⟨out, hout, rfl⟩ := Option.map_eq_some_iff.mp hs
    refine ⟨fun ho m hm => ?_, id, id⟩
    rcases update_some hm with ⟨rfl, rfl⟩ | ⟨-, hold⟩
    · exact absurd (ho run hr) (by rw [(run_step hout).not_over]; exact Bool.false_ne_true)
    · exact ho m hold
  | send i a =>
    obtain ⟨snd, hsnd, hs⟩ := Option.bind_eq_some_iff.mp hs
    obtain ⟨out, hout, rfl⟩ := Option.map_eq_some_iff.mp hs
    refine ⟨id, id, fun ho m hm => ?_⟩
    rcases update_some hm with ⟨rfl, rfl⟩ | ⟨-, hold⟩
    · exact absurd (ho snd hsnd) (by rw [Send.step_not_over hout]; exact Bool.false_ne_true)
    · exact ho m hold
  | disconnect d a =>
    obtain ⟨pc, hd, hs⟩ := Option.bind_eq_some_iff.mp hs
    obtain ⟨out, hout, rfl⟩ := Option.map_eq_some_iff.mp hs
    refine ⟨id, fun ho m hm => ?_, id⟩
    rcases update_some hm with ⟨rfl, rfl⟩ | ⟨-, hold⟩
    · exact absurd (ho pc hd) (by rw [(disconnect_step hout).not_over]; exact Bool.false_ne_true)
    · exact ho m hold
  | worker c a =>
    simp only [Client.automaton, Client.step] at hs
    split at hs
    · obtain ⟨sh, -, rfl⟩ := Option.map_eq_some_iff.mp hs
      exact ⟨id, id, id⟩
    · cases hs

/-- Every call has ended, nobody runs behind one, and nothing is left of any connection. -/
structure Closed (w : Client) : Prop where
  runs : ∀ r, RunOver r w
  disconnects : ∀ d, DisconnectOver d w
  sends : ∀ i, SendOver i w
  lock : w.shared.runLock = none
  stopped : w.shared.recovery.state = .stopped
  connections : ∀ c, c < w.shared.created → Session.TornDown (w.shared.sessions c)

theorem RunOver.ended {r : RunId} {run : Run} (h : RunOver r w) (hr : w.runs r = some run) :
    run.call.isOver = true ∧ (run.supervisor = .absent ∨ ∃ x, run.supervisor = .finished x) := by
  have ho := h run hr
  simp only [Run.isOver, Bool.and_eq_true] at ho
  refine ⟨ho.1, ?_⟩
  cases hp : run.supervisor with
  | absent => exact .inl rfl
  | finished x => exact .inr ⟨x, rfl⟩
  | _ => simp [hp] at ho

theorem stopped_of_over (hw : Stopping setup w) (hr : ∀ r, RunOver r w)
    (hd : ∀ d, DisconnectOver d w) : Stopped setup w := by
  refine ⟨hw, (stopInv_of_reachable hw.reachable hw.shutdown).resolve_right ?_⟩
  rintro (⟨r, run, hrun, ⟨x, hx⟩ | ⟨x, hx⟩⟩ | ⟨d, hpc⟩)
  · have hover := ((hr r).ended hrun).1
    rw [hx] at hover
    cases hover
  · rcases ((hr r).ended hrun).2 with hsup | ⟨y, hsup⟩ <;> cases hsup.symm.trans hx
  · cases hd d _ hpc

theorem closed_of_over (hw : Stopped setup w) (hr : ∀ r, RunOver r w)
    (hd : ∀ d, DisconnectOver d w) (hs : ∀ i, SendOver i w) : Closed w := by
  have hlock := runLockInv_of_reachable hw.reachable
  refine ⟨hr, hd, hs, ?_, hw.stopped, fun c hc => ?_⟩
  · cases hl : w.shared.runLock with
    | none => rfl
    | some owner =>
      cases owner with
      | run r =>
        obtain ⟨run, hrun, hc | ⟨hlow, hhigh⟩⟩ := hlock.run r hl
        · have hover := ((hr r).ended hrun).1
          rw [hc] at hover
          cases hover
        · rcases ((hr r).ended hrun).2 with hsup | ⟨x, hsup⟩ <;>
            simp [hsup, SupervisorPc.rank] at hlow hhigh
      | disconnect d =>
        obtain ⟨pc, hpc, hp⟩ := hlock.disconnect d hl
        have hover := hd d pc hpc
        rcases hp with rfl | rfl <;> cases hover
  · have hi := Session.inv_of_reachable (hw.clientInv.shared.sessions c hc)
    rcases isolationInv_of_reachable hw.reachable c hc with h7 | ⟨r, run, runner, hrun, hsup, _⟩
    · exact Session.tornDown_of_over hi h7
    · rcases ((hr r).ended hrun).2 with h | ⟨x, h⟩ <;> cases h.symm.trans hsup

/-- What can be brought about for each call can be brought about for all of them. -/
theorem CanSettle.all {I : Client → Prop} {D : Nat → Client → Prop} {n : Nat}
    (hI : ∀ v v', Settles setup v v' → I v → I v')
    (hkeep : ∀ i v v', Settles setup v v' → D i v → D i v')
    (hone : ∀ i v, I v → CanSettle setup v (D i)) (hw : I w) (hlate : ∀ i, n ≤ i → D i w) :
    CanSettle setup w fun v => ∀ i, D i v := by
  obtain ⟨v, hv, hD⟩ := Automaton.CanReach.all_below hI (fun i v v' _ hp hd => hkeep i v v' hp hd)
    hone n hw
  refine ⟨v, hv, fun i => ?_⟩
  by_cases hi : i < n
  · exact hD i hi
  · exact hkeep i w v hv (hlate i (Nat.le_of_not_lt hi))

/-- Once its shutdown is requested, whatever the calls on a client and its connections are doing,
its own tasks can bring it to rest: without another frame, answer, timeout or call every `run`,
`disconnect` and send returns, the supervisor ends, and every connection is torn down. -/
theorem shutdown_completes (h : (automaton setup).Reachable w)
    (hs : w.shared.recovery.shutdown = true) : ∃ w', Settles setup w w' ∧ Closed w' := by
  obtain ⟨n, hn⟩ := calls_bounded h
  have late : ∀ i, n ≤ i → RunOver i w ∧ DisconnectOver i w ∧ SendOver i w := by
    intro i hi
    obtain ⟨hr, hsnd, hd⟩ := hn i hi
    refine ⟨fun m hm => ?_, fun m hm => ?_, fun m hm => ?_⟩
    · cases hr.symm.trans hm
    · cases hd.symm.trans hm
    · cases hsnd.symm.trans hm
  -- first the calls behind which a task runs
  obtain ⟨v₁, h₁, hruns⟩ : CanSettle setup w fun v => ∀ r, RunOver r v :=
    CanSettle.all (I := Stopping setup) (fun _ _ hp hi => hi.path hp)
      (fun i _ _ hp => (settles_keeps hp i).1) (fun i _ hi => .runOver hi i) ⟨h, hs⟩
      fun i hi => (late i hi).1
  have hw₁ : Stopping setup v₁ := Stopping.path ⟨h, hs⟩ h₁
  obtain ⟨v₂, h₂, hdis⟩ : CanSettle setup v₁ fun v => ∀ d, DisconnectOver d v :=
    CanSettle.all (I := Stopping setup) (fun _ _ hp hi => hi.path hp)
      (fun i _ _ hp => (settles_keeps hp i).2.1) (fun i _ hi => .disconnectOver hi i) hw₁
      fun i hi => (settles_keeps h₁ i).2.1 (late i hi).2.1
  have hruns₂ : ∀ r, RunOver r v₂ := fun r => (settles_keeps h₂ r).1 (hruns r)
  have hw₂ : Stopped setup v₂ := stopped_of_over (hw₁.path h₂) hruns₂ hdis
  -- then the sends, which find it published
  obtain ⟨v₃, h₃, hsends⟩ : CanSettle setup v₂ fun v => ∀ i, SendOver i v :=
    CanSettle.all (I := Stopped setup) (fun _ _ hp hi => hi.path hp)
      (fun i _ _ hp => (settles_keeps hp i).2.2) (fun i _ hi => .sendOver hi i) hw₂
      fun i hi => (settles_keeps h₂ i).2.2 ((settles_keeps h₁ i).2.2 (late i hi).2.2)
  exact ⟨v₃, (h₁.trans h₂).trans h₃, closed_of_over (hw₂.path h₃)
    (fun r => (settles_keeps h₃ r).1 (hruns₂ r)) (fun d => (settles_keeps h₃ d).2.1 (hdis d))
    hsends⟩

/-- A send waits for its response while `disconnect` has just cancelled the token. -/
theorem shutdown_completes_waiting : ∃ w, (automaton sampleSetup).Reachable w ∧
    w.shared.recovery.shutdown = true ∧ ¬ SendOver 0 w ∧ ¬ RunOver 0 w ∧
    ∃ w', Settles sampleSetup w w' ∧ Closed w' := by
  obtain ⟨w, hw, hs, hsnd, hrun⟩ : ∃ w, (automaton sampleSetup).exec (new sampleSetup 0)
      (sampleSend ++ [.startDisconnect 0, .disconnect 0 .stopCancel]) = some w ∧
      w.shared.recovery.shutdown = true ∧
      (∃ snd, w.sends 0 = some snd ∧ snd.pc.isOver = false) ∧
      ∃ run, w.runs 0 = some run ∧ run.isOver = false :=
    ⟨_, rfl, rfl, ⟨_, rfl, rfl⟩, ⟨_, rfl, rfl⟩⟩
  have hr : (automaton sampleSetup).Reachable w :=
    ⟨_, ⟨0, rfl⟩, Automaton.exec_leads hw⟩
  obtain ⟨snd, hi, ho⟩ := hsnd
  obtain ⟨run, hj, ho'⟩ := hrun
  refine ⟨w, hr, hs, fun h => ?_, fun h => ?_, shutdown_completes hr hs⟩
  · exact absurd (h snd hi) (by rw [ho]; exact Bool.false_ne_true)
  · exact absurd (h run hj) (by rw [ho']; exact Bool.false_ne_true)

end Client

end Maxrs
