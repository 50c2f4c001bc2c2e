import Maxrs.ClientInv
set_option autoImplicit false

/-! Who holds `run_lock`, and what is left when it is released. -/
namespace Maxrs

/-- How far a supervisor has come; it runs, holding the lock, from 1 to 6. -/
def SupervisorPc.rank : SupervisorPc → Nat
  | .absent => 0
  | .spawned => 1
  | .looping _ => 2
  | .cancelling _ => 3
  | .publishing _ => 4
  | .handlers _ => 5
  | .unlocking _ => 6
  | .finished _ => 7

/-- How far a call of `disconnect` has come; it holds the lock at 3 and 4. -/
def DisconnectPc.rank : DisconnectPc → Nat
  | .dropped | .stopping => 0
  | .publishing => 1
  | .locking => 2
  | .locked => 3
  | .unlocking => 4
  | .returned => 5

structure RunInv (sh : Shared) (r : RunId) (run : Run) : Prop where
  holds : run.call = .locked ∨ (1 ≤ run.supervisor.rank ∧ run.supervisor.rank ≤ 6) →
    sh.runLock = some (.run r)
  early : run.call = .trying ∨ run.call = .locked → run.supervisor = .absent
  late : run.call = .joining ∨ (∃ x, run.call = .cancelling x ∨ run.call = .publishing x) →
    run.supervisor ≠ .absent
  guard : ∀ x, run.call = .publishing x → sh.recovery.shutdown = true
  shutdown : 4 ≤ run.supervisor.rank → sh.recovery.shutdown = true
  stopped : 5 ≤ run.supervisor.rank → sh.recovery.state = .stopped
  handlers : 6 ≤ run.supervisor.rank → sh.handlerShutdown = true

structure DisconnectInv (sh : Shared) (d : DisconnectId) (pc : DisconnectPc) : Prop where
  holds : pc.rank = 3 ∨ pc.rank = 4 → sh.runLock = some (.disconnect d)
  shutdown : 1 ≤ pc.rank → sh.recovery.shutdown = true
  stopped : 2 ≤ pc.rank → sh.recovery.state = .stopped
  handlers : 4 ≤ pc.rank → sh.handlerShutdown = true

def Quiet (w : Client) : Prop :=
  ∀ r run, w.runs r = some run → run.supervisor.rank = 0 ∨ run.supervisor.rank = 7

structure LifecycleInv (w : Client) : Prop where
  runs : ∀ r run, w.runs r = some run → RunInv w.shared r run
  disconnects : ∀ d pc, w.disconnects d = some pc → DisconnectInv w.shared d pc
  unique : ∀ r r' run run', w.runs r = some run → w.runs r' = some run' →
    run.supervisor.rank ≠ 0 → run'.supervisor.rank ≠ 0 → r = r'
  quiet : ∀ d pc, w.disconnects d = some pc → 3 ≤ pc.rank → Quiet w

variable {setup : Setup} {sh sh' : Shared} {w w' : Client}

def LockKept (sh sh' : Shared) (owner : LockHolder) : Prop :=
  ∀ x, sh.runLock = some x → x ≠ owner → sh'.runLock = some x

theorem RunInv.mono {r : RunId} {run : Run} {owner : LockHolder} (hi : RunInv sh r run)
    (hg : sh.Grows sh') (hl : LockKept sh sh' owner) (hne : .run r ≠ owner) : RunInv sh' r run :=
  ⟨fun h => hl _ (hi.holds h) hne, hi.early, hi.late, fun x h => hg.shutdown (hi.guard x h),
    fun h => hg.shutdown (hi.shutdown h), fun h => hg.stopped (hi.stopped h),
    fun h => hg.handlers (hi.handlers h)⟩

theorem DisconnectInv.mono {d : DisconnectId} {pc : DisconnectPc} {owner : LockHolder}
    (hi : DisconnectInv sh d pc) (hg : sh.Grows sh') (hl : LockKept sh sh' owner)
    (hne : .disconnect d ≠ owner) : DisconnectInv sh' d pc :=
  ⟨fun h => hl _ (hi.holds h) hne, fun h => hg.shutdown (hi.shutdown h),
    fun h => hg.stopped (hi.stopped h), fun h => hg.handlers (hi.handlers h)⟩

theorem LockKept.of_eq {owner : LockHolder} (h : sh'.runLock = sh.runLock) :
    LockKept sh sh' owner := fun _ hx _ => h.trans hx

theorem RunnerStep.runLock {runner runner' : Runner}
    (h : RunnerStep setup sh runner sh' runner') : sh'.runLock = sh.runLock := by
  cases h with
  | goto hs | begin _ hs | session _ _ _ _ _ _ _ hs | after _ _ _ _ hs => subst hs; rfl

theorem RunStep.lockKept {r : RunId} {run run' : Run} (h : RunStep setup sh r run sh' run')
    (hi : RunInv sh r run) : LockKept sh sh' (.run r) := by
  have mine : sh.runLock = some (.run r) → LockKept sh sh' (.run r) :=
    fun hr x hx hne => absurd (Option.some.inj (hx.symm.trans hr)) hne
  cases h with
  | lock _ hn hs =>
    intro x hx
    rw [hn] at hx
    cases hx
  | closed hp _ hs => exact mine (hi.holds (.inl hp))
  | unlock _ hp hs => exact mine (hi.holds (.inr (by simp [hp, SupervisorPc.rank])))
  | loop _ _ _ hs => exact .of_eq hs.runLock
  | reject _ _ hs | spawn _ _ hs | join _ _ _ hs | dropTrying _ hs | dropJoining _ hs
  | guardCancel _ _ hs | guardPublish _ _ hs | start _ hs | loopEnd _ _ _ _ hs
  | supervisorCancel _ _ hs | supervisorPublish _ _ hs | cancelHandlers _ _ hs =>
    exact .of_eq (by subst hs; rfl)

theorem DisconnectStep.lockKept {d : DisconnectId} {pc pc' : DisconnectPc}
    (h : DisconnectStep sh d pc sh' pc') (hi : DisconnectInv sh d pc) :
    LockKept sh sh' (.disconnect d) := by
  cases h with
  | lock _ hn hs =>
    intro x hx
    rw [hn] at hx
    cases hx
  | unlock hp hs =>
    have hr := hi.holds (.inr (by rw [hp]; rfl))
    exact fun x hx hne => absurd (Option.some.inj (hx.symm.trans hr)) hne
  | stopCancel _ hs | stopPublish _ hs | cancelHandlers _ hs | drop _ hs =>
    exact .of_eq (by subst hs; rfl)

theorem RunInv.of_absent {r : RunId} {run : Run} (ha : run.supervisor = .absent)
    (hl : run.call = .locked → sh.runLock = some (.run r))
    (hc : ¬ (run.call = .joining ∨ ∃ x, run.call = .cancelling x ∨ run.call = .publishing x)) :
    RunInv sh r run := by
  have hrank : run.supervisor.rank = 0 := by rw [ha, SupervisorPc.rank]
  refine ⟨fun h => ?_, fun _ => ha, fun h => absurd h hc, fun x h => ?_, ?_, ?_, ?_⟩
  · rcases h with h | h
    · exact hl h
    · omega
  · exact absurd (.inr ⟨x, .inr h⟩) hc
  all_goals
    intro h
    omega

theorem RunInv.supervise {r : RunId} {run : Run} {p : SupervisorPc} (hi : RunInv sh r run)
    (hg : sh.Grows sh') (hold : 1 ≤ run.supervisor.rank) (hnew : 1 ≤ p.rank)
    (hl : p.rank ≤ 6 → sh'.runLock = some (.run r))
    (h₅ : 4 ≤ p.rank → sh'.recovery.shutdown = true)
    (h₆ : 5 ≤ p.rank → sh'.recovery.state = .stopped)
    (h₇ : 6 ≤ p.rank → sh'.handlerShutdown = true) :
    RunInv sh' r { run with supervisor := p } := by
  have hcall : ¬ (run.call = .trying ∨ run.call = .locked) := by
    intro h
    rw [hi.early h] at hold
    cases hold
  refine ⟨fun h => ?_, fun h => absurd h hcall, fun _ hp => ?_,
    fun x h => hg.shutdown (hi.guard x h), h₅, h₆, h₇⟩
  · rcases h with h | h
    · exact absurd (.inr h) hcall
    · exact hl h.2
  · rw [show p = .absent from hp] at hnew
    cases hnew

theorem RunInv.locked {r : RunId} {run : Run} {n : Nat} (hi : RunInv sh r run)
    (h : run.supervisor.rank = n) (hn : 1 ≤ n ∧ n ≤ 6) : sh.runLock = some (.run r) :=
  hi.holds (.inr (h ▸ hn))

theorem runInv_step {r : RunId} {run run' : Run} (h : RunStep setup sh r run sh' run')
    (hg : sh.Grows sh') (hi : RunInv sh r run) : RunInv sh' r run' := by
  cases h with
  | lock hp hn hs => exact .of_absent (hi.early (.inl hp)) (fun _ => by rw [hs]) (by simp)
  | reject hp hn hs | dropTrying hp hs => exact .of_absent (hi.early (.inl hp)) (by simp) (by simp)
  | closed hp hsd hs => exact .of_absent (hi.early (.inr hp)) (by simp) (by simp)
  | spawn hp hsd hs =>
    have hl := hi.holds (.inl hp)
    refine ⟨fun _ => by rw [hs, hl], by simp, by simp, by simp, ?_, ?_, ?_⟩ <;>
      simp [SupervisorPc.rank]
  | join result hp hf hs =>
    subst hs
    have hrank : run.supervisor.rank = 7 := by rw [hf, SupervisorPc.rank]
    refine ⟨fun h => ?_, by simp, by simp [hf], by simp, hi.shutdown, hi.stopped, hi.handlers⟩
    rcases h with h | ⟨-, h⟩
    · cases h
    · rw [hrank] at h
      omega
  | dropJoining hp hs =>
    subst hs
    exact ⟨fun h => hi.holds (h.imp (by simp) id), by simp, fun _ => hi.late (.inl hp), by simp,
      hi.shutdown, hi.stopped, hi.handlers⟩
  | guardCancel x hp hs =>
    subst hs
    exact ⟨fun h => hi.holds (h.imp (by simp) id), by simp, fun _ => hi.late (.inr ⟨x, .inl hp⟩),
      fun _ _ => rfl, fun _ => rfl, hi.stopped, hi.handlers⟩
  | guardPublish x hp hs =>
    subst hs
    have hsd := hi.guard x hp
    refine ⟨fun h => hi.holds (h.imp (fun h => ?_) id), fun h => ?_, fun h => ?_, fun y h => hsd,
      fun _ => hsd, fun _ => rfl, hi.handlers⟩
    · cases x <;> cases h
    · cases x <;> rcases h with h | h <;> cases h
    · cases x <;> rcases h with h | ⟨y, h | h⟩ <;> cases h
  | start hp hs =>
    have hrank : run.supervisor.rank = 1 := by rw [hp, SupervisorPc.rank]
    have hl := hi.locked hrank (by omega)
    refine hi.supervise hg (by omega) ?_ (fun _ => by rw [hs, hl]) ?_ ?_ ?_ <;>
      simp [SupervisorPc.rank]
  | loop m m' hp hstep =>
    have hrank : run.supervisor.rank = 2 := by rw [hp, SupervisorPc.rank]
    have hl := hi.locked hrank (by omega)
    refine hi.supervise hg (by omega) ?_ (fun _ => by rw [hstep.runLock, hl]) ?_ ?_ ?_ <;>
      simp [SupervisorPc.rank]
  | loopEnd m result hp hf hs =>
    have hrank : run.supervisor.rank = 2 := by rw [hp, SupervisorPc.rank]
    have hl := hi.locked hrank (by omega)
    refine hi.supervise hg (by omega) ?_ (fun _ => by rw [hs, hl]) ?_ ?_ ?_ <;>
      simp [SupervisorPc.rank]
  | supervisorCancel result hp hs =>
    have hrank : run.supervisor.rank = 3 := by rw [hp, SupervisorPc.rank]
    have hl := hi.locked hrank (by omega)
    subst hs
    refine hi.supervise hg (by omega) ?_ (fun _ => hl) (fun _ => rfl) ?_ ?_ <;>
      simp [SupervisorPc.rank]
  | supervisorPublish result hp hs =>
    have hrank : run.supervisor.rank = 4 := by rw [hp, SupervisorPc.rank]
    have hl := hi.locked hrank (by omega)
    have hsd := hi.shutdown (by omega)
    subst hs
    refine hi.supervise hg (by omega) ?_ (fun _ => hl) (fun _ => hsd) (fun _ => rfl) ?_ <;>
      simp [SupervisorPc.rank]
  | cancelHandlers result hp hs =>
    have hrank : run.supervisor.rank = 5 := by rw [hp, SupervisorPc.rank]
    have hl := hi.locked hrank (by omega)
    have hsd := hi.shutdown (by omega)
    have hst := hi.stopped (by omega)
    subst hs
    exact hi.supervise hg (by omega) (by simp [SupervisorPc.rank]) (fun _ => hl) (fun _ => hsd)
      (fun _ => hst) fun _ => rfl
  | unlock result hp hs =>
    have hrank : run.supervisor.rank = 6 := by rw [hp, SupervisorPc.rank]
    have hsd := hi.shutdown (by omega)
    have hst := hi.stopped (by omega)
    have hh := hi.handlers (by omega)
    subst hs
    exact hi.supervise hg (by omega) (by simp [SupervisorPc.rank]) (by simp [SupervisorPc.rank])
      (fun _ => hsd) (fun _ => hst) fun _ => hh

theorem disconnectInv_step {d : DisconnectId} {pc pc' : DisconnectPc}
    (h : DisconnectStep sh d pc sh' pc') (hi : DisconnectInv sh d pc) :
    DisconnectInv sh' d pc' := by
  obtain ⟨h₁, h₂, h₃, h₄⟩ := hi
  cases h with
  | stopCancel hp hs =>
    subst hs
    refine ⟨?_, fun _ => rfl, ?_, ?_⟩ <;> simp [DisconnectPc.rank]
  | stopPublish hp hs =>
    have hsd := h₂ (by simp [hp, DisconnectPc.rank])
    subst hs
    refine ⟨?_, fun _ => hsd, fun _ => rfl, ?_⟩ <;> simp [DisconnectPc.rank]
  | lock hp hn hs =>
    have hsd := h₂ (by simp [hp, DisconnectPc.rank])
    have hst := h₃ (by simp [hp, DisconnectPc.rank])
    subst hs
    refine ⟨fun _ => rfl, fun _ => hsd, fun _ => hst, ?_⟩
    simp [DisconnectPc.rank]
  | cancelHandlers hp hs =>
    have hl := h₁ (.inl (by simp [hp, DisconnectPc.rank]))
    have hsd := h₂ (by simp [hp, DisconnectPc.rank])
    have hst := h₃ (by simp [hp, DisconnectPc.rank])
    subst hs
    exact ⟨fun _ => hl, fun _ => hsd, fun _ => hst, fun _ => rfl⟩
  | unlock hp hs =>
    have hsd := h₂ (by simp [hp, DisconnectPc.rank])
    have hst := h₃ (by simp [hp, DisconnectPc.rank])
    have hh := h₄ (by simp [hp, DisconnectPc.rank])
    subst hs
    refine ⟨?_, fun _ => hsd, fun _ => hst, fun _ => hh⟩
    simp [DisconnectPc.rank]
  | drop hp hs => refine ⟨?_, ?_, ?_, ?_⟩ <;> simp [DisconnectPc.rank]

theorem RunStep.rank {r : RunId} {run run' : Run} (h : RunStep setup sh r run sh' run')
    (hi : RunInv sh r run) :
    run.supervisor.rank ≤ run'.supervisor.rank ∧
      (run.supervisor.rank = 0 → run'.supervisor.rank = 0 ∨
        (run.call = .locked ∧ sh.recovery.shutdown = false)) ∧
      (run.supervisor.rank = 7 → run'.supervisor.rank = 7) := by
  cases h with
  | lock _ _ _ | reject _ _ _ | closed _ _ _ | join _ _ _ _ | dropTrying _ _ | dropJoining _ _
  | guardCancel _ _ _ | guardPublish _ _ _ => exact ⟨Nat.le_refl _, .inl, id⟩
  | spawn hp hsd hs => simp [hi.early (.inr hp), SupervisorPc.rank, hp, hsd]
  | start hp _ | loop _ _ hp _ | loopEnd _ _ hp _ _ | supervisorCancel _ hp _
  | supervisorPublish _ hp _ | cancelHandlers _ hp _ | unlock _ hp _ =>
    simp [hp, SupervisorPc.rank]

theorem LifecycleInv.frame (hi : LifecycleInv w) (hg : w.shared.Grows w'.shared)
    (hl : w'.shared.runLock = w.shared.runLock) (hr : w'.runs = w.runs)
    (hd : w'.disconnects = w.disconnects) : LifecycleInv w' := by
  obtain ⟨h₁, h₂, h₃, h₄⟩ := hi
  refine ⟨fun r run h => ?_, fun d pc h => ?_, hr ▸ h₃, fun d pc h hp => ?_⟩
  · have hkept : LockKept w.shared w'.shared (.disconnect 0) := .of_eq hl
    exact (h₁ r run (hr ▸ h)).mono hg hkept nofun
  · have hkept : LockKept w.shared w'.shared (.run 0) := .of_eq hl
    exact (h₂ d pc (hd ▸ h)).mono hg hkept nofun
  · rw [Quiet, hr]
    exact h₄ d pc (hd ▸ h) hp

theorem lifecycleInv_run {r : RunId} {run run' : Run} (hr : w.runs r = some run)
    (h : RunStep setup w.shared r run sh' run') (hg : w.shared.Grows sh')
    (hi : LifecycleInv w) :
    LifecycleInv { w with shared := sh', runs := Function.update w.runs r (some run') } := by
  have hri := hi.runs r run hr
  obtain ⟨hle, hstart, hend⟩ := h.rank hri
  refine ⟨fun q m hq => ?_, fun d pc hd => ?_, fun q q' m m' hq hq' hm hm' => ?_,
    fun d pc hd hp q m hq => ?_⟩
  · rcases update_some hq with ⟨rfl, rfl⟩ | ⟨hne, hq⟩
    · exact runInv_step h hg hri
    · exact (hi.runs q m hq).mono hg (h.lockKept hri) (by simpa using hne)
  · exact (hi.disconnects d pc hd).mono hg (h.lockKept hri) nofun
  · -- a second supervisor would have to start while the first holds the lock or has stopped
    have alone : ∀ {j n}, j ≠ r → w.runs j = some n → n.supervisor.rank ≠ 0 →
        run'.supervisor.rank ≠ 0 → False := by
      intro j n hj hn hrank hnew
      by_cases h0 : run.supervisor.rank = 0
      · obtain ⟨hlk, hsd⟩ := (hstart h0).resolve_left hnew
        by_cases h7 : n.supervisor.rank ≤ 6
        · have hown := (hi.runs j n hn).holds (.inr ⟨by omega, h7⟩)
          rw [hri.holds (.inl hlk)] at hown
          cases hown
          exact hj rfl
        · rw [(hi.runs j n hn).shutdown (by omega)] at hsd
          cases hsd
      · exact hj (hi.unique j r n run hn hr hrank h0)
    rcases update_some hq with ⟨rfl, rfl⟩ | ⟨hne, ho⟩ <;>
      rcases update_some hq' with ⟨rfl, rfl⟩ | ⟨hne', ho'⟩
    · rfl
    · exact (alone hne' ho' hm' hm).elim
    · exact (alone hne ho hm hm').elim
    · exact hi.unique q q' m m' ho ho' hm hm'
  · rcases update_some hq with ⟨rfl, rfl⟩ | ⟨hne, hq⟩
    · rcases hi.quiet d pc hd hp q run hr with h0 | h7
      · refine (hstart h0).imp id fun ⟨_, hsd⟩ => ?_
        rw [(hi.disconnects d pc hd).shutdown (by omega)] at hsd
        cases hsd
      · exact .inr (hend h7)
    · exact hi.quiet d pc hd hp q m hq

theorem lifecycleInv_disconnect {d : DisconnectId} {pc pc' : DisconnectPc}
    (hd : w.disconnects d = some pc) (h : DisconnectStep w.shared d pc sh' pc')
    (hg : w.shared.Grows sh') (hi : LifecycleInv w) :
    LifecycleInv { w with
      shared := sh', disconnects := Function.update w.disconnects d (some pc') } := by
  have hdi := hi.disconnects d pc hd
  have hl := h.lockKept hdi
  refine ⟨fun q m hq => (hi.runs q m hq).mono hg hl nofun, fun e p he => ?_, hi.unique,
    fun e p he hp => ?_⟩
  · rcases update_some he with ⟨rfl, rfl⟩ | ⟨hne, he⟩
    · exact disconnectInv_step h hdi
    · exact (hi.disconnects e p he).mono hg hl (by simpa using hne)
  · rcases update_some he with ⟨rfl, rfl⟩ | ⟨hne, he⟩
    · cases h with
      | lock _ hn _ =>
        intro q m hq
        by_contra hact
        have hown := (hi.runs q m hq).holds (.inr ⟨by omega, by
          have hle : m.supervisor.rank ≤ 7 := by cases m.supervisor <;> simp [SupervisorPc.rank]
          omega⟩)
        rw [hn] at hown
        cases hown
      | cancelHandlers hpc _ => exact hi.quiet e pc hd (by simp [hpc, DisconnectPc.rank])
      | unlock hpc _ => exact hi.quiet e pc hd (by simp [hpc, DisconnectPc.rank])
      | stopCancel _ _ | stopPublish _ _ | drop _ _ => simp [DisconnectPc.rank] at hp
    · exact hi.quiet e p he hp

theorem lifecycleInv_step (h : ClientStep setup w w') (hc : ClientInv setup w)
    (hi : LifecycleInv w) : LifecycleInv w' := by
  have hg := client_grows h hc
  cases h with
  | startRun r hr =>
    refine ⟨fun q m hq => ?_, hi.disconnects, fun q q' m m' hq hq' hm hm' => ?_,
      fun d pc hd hp q m hq => ?_⟩
    · rcases update_some hq with ⟨rfl, rfl⟩ | ⟨_, hq⟩
      · refine ⟨?_, fun _ => rfl, ?_, nofun, ?_, ?_, ?_⟩ <;> simp [Run.new, SupervisorPc.rank]
      · exact hi.runs q m hq
    · rcases update_some hq with ⟨rfl, rfl⟩ | ⟨_, hq⟩
      · exact absurd rfl hm
      · rcases update_some hq' with ⟨rfl, rfl⟩ | ⟨_, hq'⟩
        · exact absurd rfl hm'
        · exact hi.unique q q' m m' hq hq' hm hm'
    · rcases update_some hq with ⟨rfl, rfl⟩ | ⟨_, hq⟩
      · exact .inl rfl
      · exact hi.quiet d pc hd hp q m hq
  | run r run run' sh hr hs => exact lifecycleInv_run hr hs hg hi
  | startSend i job hs => exact hi.frame hg rfl rfl rfl
  | send i snd snd' sh hs hst => exact hi.frame hg hst.control.runLock rfl rfl
  | startDisconnect d hd =>
    refine ⟨hi.runs, fun e p he => ?_, hi.unique, fun e p he hp => ?_⟩
    · rcases update_some he with ⟨rfl, rfl⟩ | ⟨_, he⟩
      · refine ⟨?_, ?_, ?_, ?_⟩ <;> simp [DisconnectPc.rank]
      · exact hi.disconnects e p he
    · rcases update_some he with ⟨rfl, rfl⟩ | ⟨_, he⟩
      · simp [DisconnectPc.rank] at hp
      · exact hi.quiet e p he hp
  | disconnect d pc pc' sh hd hs => exact lifecycleInv_disconnect hd hs hg hi
  | worker c a s hcr hs => exact hi.frame hg rfl rfl rfl

theorem lifecycleInv_of_reachable (h : (Client.automaton setup).Reachable w) :
    LifecycleInv w := by
  refine h.invariant_of (fun w hw => ?_) fun w a w' hr hs hi =>
    lifecycleInv_step (client_step hs) (clientInv_of_reachable hr) hi
  obtain ⟨millis, rfl⟩ := hw
  refine ⟨fun _ _ hr => ?_, fun _ _ hd => ?_, fun _ _ _ _ hr => ?_, fun _ _ hd => ?_⟩
  · simp [Client.new] at hr
  · simp [Client.new] at hd
  · simp [Client.new] at hr
  · simp [Client.new] at hd

/-- The client is shut down, and nobody is in `run_loop`. -/
structure Released (w : Client) : Prop where
  stopped : w.shared.recovery.state = .stopped
  shutdown : w.shared.recovery.shutdown = true
  handlers : w.shared.handlerShutdown = true
  quiet : Quiet w

def LateRun (run : Run) : Prop :=
  run.supervisor = .absent ∧ (run.call = .trying ∨ run.call = .locked ∨ run.call = .dropped ∨
    ∃ e, run.call = .returned (.error e))

def LateSend (snd : Send) : Prop :=
  snd.requests = [] ∧ (snd.pc = .clock ∨ (∃ now, snd.pc = .cid now) ∨ snd.pc = .current .reading ∨
    (∃ seen, snd.pc = .current (.checking .stopped seen)) ∨
    snd.pc = .returned (.error .connectionClosed) ∨ snd.pc = .dropped)

theorem lateRun_step {r : RunId} {run run' : Run} (h : RunStep setup sh r run sh' run')
    (hs : sh.recovery.shutdown = true) (hl : LateRun run) : LateRun run' := by
  obtain ⟨ha, hc⟩ := hl
  cases h with
  | lock _ _ _ => exact ⟨ha, .inr (.inl rfl)⟩
  | reject _ _ _ | closed _ _ _ => exact ⟨ha, .inr (.inr (.inr ⟨_, rfl⟩))⟩
  | dropTrying _ _ => exact ⟨ha, .inr (.inr (.inl rfl))⟩
  | spawn _ hsd _ => simp [hs] at hsd
  | join _ hp _ _ | dropJoining hp _ | guardCancel _ hp _ | guardPublish _ hp _ =>
    rcases hc with hc | hc | hc | ⟨_, hc⟩ <;> cases hp.symm.trans hc
  | start hp _ | loop _ _ hp _ | loopEnd _ _ hp _ _ | supervisorCancel _ hp _
  | supervisorPublish _ hp _ | cancelHandlers _ hp _ | unlock _ hp _ => cases hp.symm.trans ha

theorem lateSend_step {snd snd' : Send} (h : SendStep setup sh snd sh' snd')
    (hs : sh.recovery.state = .stopped) (hl : LateSend snd) : LateSend snd' := by
  obtain ⟨hr, hc⟩ := hl
  have elsewhere : ∀ {pc : SendPc}, snd.pc = pc → pc ≠ .clock → (∀ now, pc ≠ .cid now) →
      pc ≠ .current .reading → (∀ seen, pc ≠ .current (.checking .stopped seen)) →
      pc ≠ .returned (.error .connectionClosed) → pc ≠ .dropped → False := by
    rintro pc rfl h₁ h₂ h₃ h₄ h₅ h₆
    rcases hc with hc | ⟨now, hc⟩ | hc | ⟨seen, hc⟩ | hc | hc
    · exact h₁ hc
    · exact h₂ now hc
    · exact h₃ hc
    · exact h₄ seen hc
    · exact h₅ hc
    · exact h₆ hc
  cases h with
  | clock now _ _ => exact ⟨hr, .inr (.inl ⟨now, rfl⟩)⟩
  | takeCid _ _ _ _ => exact ⟨hr, .inr (.inr (.inl rfl))⟩
  | borrow _ _ => exact ⟨hr, .inr (.inr (.inr (.inl ⟨_, by rw [hs]; rfl⟩)))⟩
  | stopped _ _ _ => exact ⟨hr, .inr (.inr (.inr (.inr (.inl rfl))))⟩
  | drop _ => exact ⟨hr, .inr (.inr (.inr (.inr (.inr rfl))))⟩
  | handed _ _ hp _ _ => exact (elsewhere hp nofun nofun nofun nofun nofun nofun).elim
  | wait state seen hp hne _ =>
    exact (elsewhere hp nofun nofun nofun (fun _ he => hne (by cases he; rfl)) nofun nofun).elim
  | woken _ hp _ | issue _ _ _ _ _ hp _ _ _ _ | act _ hp _ | answer _ _ _ _ _ hp _ _ _ _ _
  | turn _ _ hp _ | done _ hp _ _ | retry _ _ hp _ _ _ | fail _ _ hp _ _ _ =>
    exact (elsewhere hp nofun nofun nofun nofun nofun nofun).elim

theorem lateRun_ends {r : RunId} {run : Run} (hr : w.runs r = some run) (hl : LateRun run)
    (hs : w.shared.recovery.shutdown = true) (hd : run.call ≠ .dropped) :
    ∃ (acts : List RunAction) (w₁ : Client) (run₁ : Run) (e : Error),
      (Client.automaton setup).exec w (acts.map (.run r)) = some w₁ ∧
      w₁.runs r = some run₁ ∧ run₁.call = .returned (.error e) := by
  obtain ⟨-, hc | hc | hc | ⟨e, hc⟩⟩ := hl
  · by_cases hn : w.shared.runLock = none
    · refine ⟨[.tryLock, .checkShutdown], ?_⟩
      simp [Automaton.exec, Client.automaton, Client.step, hr, Run.step, hc, hn, hs]
    · refine ⟨[.tryLock], ?_⟩
      simp [Automaton.exec, Client.automaton, Client.step, hr, Run.step, hc, hn]
  · refine ⟨[.checkShutdown], ?_⟩
    simp [Automaton.exec, Client.automaton, Client.step, hr, Run.step, hc, hs]
  · exact absurd hc hd
  · exact ⟨[], w, run, e, rfl, hr, hc⟩

/-- The send can be brought to return `ConnectionClosed`, by its own steps alone. -/
def SendCloses (setup : Setup) (w : Client) (i : SendId) : Prop :=
  ∃ (acts : List SendAction) (w₁ : Client) (snd₁ : Send),
    (Client.automaton setup).exec w (acts.map (.send i)) = some w₁ ∧
    w₁.sends i = some snd₁ ∧ snd₁.pc = .returned (.error .connectionClosed)

theorem SendCloses.step {i : SendId} {snd snd' : Send} {a : SendAction}
    (hi : w.sends i = some snd) (h : snd.step setup w.shared a = some (sh', snd'))
    (hrest : ∀ w', w'.shared = sh' → w'.sends i = some snd' → SendCloses setup w' i) :
    SendCloses setup w i := by
  let w' : Client := { w with shared := sh', sends := Function.update w.sends i (some snd') }
  have hstep : (Client.automaton setup).step w (.send i a) = some w' := by
    simp [Client.automaton, Client.step, hi, h, w']
  obtain ⟨acts, w₁, snd₁, hrun, hends⟩ := hrest w' rfl (Function.update_self ..)
  exact ⟨a :: acts, w₁, snd₁, (Automaton.exec_cons hstep).trans hrun, hends⟩

theorem closes_of_checking {i : SendId} {snd : Send} {seen : Nat} (hi : w.sends i = some snd)
    (hc : snd.pc = .current (.checking .stopped seen)) : SendCloses setup w i := by
  have h : snd.step setup w.shared .check =
      some (w.shared, snd.goto (.returned (.error .connectionClosed))) := by
    simp [Send.step, Send.stepCurrent, hc, Current.check]
  exact .step hi h fun w' _ hi' => ⟨[], w', _, rfl, hi', rfl⟩

theorem closes_of_reading {i : SendId} {snd : Send} (hi : w.sends i = some snd)
    (hs : w.shared.recovery.state = .stopped) (hc : snd.pc = .current .reading) :
    SendCloses setup w i := by
  have h : snd.step setup w.shared .borrow =
      some (w.shared, snd.goto (.current (.checking .stopped w.shared.recovery.version))) := by
    simp [Send.step, Send.stepCurrent, hc, hs, Current.borrow]
  exact .step hi h fun w' _ hi' => closes_of_checking hi' rfl

theorem closes_of_cid {i : SendId} {snd : Send} {now : Int} (hi : w.sends i = some snd)
    (hs : w.shared.recovery.state = .stopped) (hc : snd.pc = .cid now) :
    SendCloses setup w i := by
  have h : snd.step setup w.shared .takeCid = some
      ({ w.shared with cid := min now (w.shared.cid - 1) },
        { snd with cid := min now (w.shared.cid - 1), pc := .current .reading }) := by
    simp [Send.step, hc]
  exact .step hi h fun w' hsh hi' => closes_of_reading hi' (by rw [hsh, hs]) rfl

theorem closes_of_clock {i : SendId} {snd : Send} (hi : w.sends i = some snd)
    (hs : w.shared.recovery.state = .stopped) (hc : snd.pc = .clock) : SendCloses setup w i := by
  have h : snd.step setup w.shared (.readClock 0) = some (w.shared, snd.goto (.cid 0)) := by
    simp [Send.step, hc]
  exact .step hi h fun w' hsh hi' => closes_of_cid hi' (by rw [hsh, hs]) rfl

theorem lateSend_ends {i : SendId} {snd : Send} (hi : w.sends i = some snd) (hl : LateSend snd)
    (hs : w.shared.recovery.state = .stopped) (hd : snd.pc ≠ .dropped) :
    SendCloses setup w i := by
  obtain ⟨-, hc | ⟨now, hc⟩ | hc | ⟨seen, hc⟩ | hc | hc⟩ := hl
  · exact closes_of_clock hi hs hc
  · exact closes_of_cid hi hs hc
  · exact closes_of_reading hi hs hc
  · exact closes_of_checking hi hc
  · exact ⟨[], w, snd, rfl, hi, hc⟩
  · exact absurd hc hd

/-- Calls that start after the client was shut down. -/
theorem late_leads (hr : (Client.automaton setup).Reachable w)
    (hp : (Client.automaton setup).Leads w w') (hsd : w.shared.recovery.shutdown = true)
    (hst : w.shared.recovery.state = .stopped) :
    w'.shared.recovery.shutdown = true ∧ w'.shared.recovery.state = .stopped ∧
      (∀ r run, w.runs r = none → w'.runs r = some run → LateRun run) ∧
      ∀ i snd, w.sends i = none → w'.sends i = some snd → LateSend snd := by
  induction hp with
  | refl =>
    refine ⟨hsd, hst, fun r run h₁ h₂ => ?_, fun i snd h₁ h₂ => ?_⟩
    · cases h₁.symm.trans h₂
    · cases h₁.symm.trans h₂
  | @tail m m' a hp _ hs ih =>
    obtain ⟨hsd', hst', hruns, hsends⟩ := ih
    have hstep := client_step hs
    have hg := client_grows hstep (clientInv_of_reachable (hr.path hp))
    refine ⟨hg.shutdown hsd', hg.stopped hst', fun r run h₁ h₂ => ?_, fun i snd h₁ h₂ => ?_⟩
    · cases hstep with
      | startRun q hq =>
        rcases update_some h₂ with ⟨rfl, rfl⟩ | ⟨_, h₂⟩
        · exact ⟨rfl, .inl rfl⟩
        · exact hruns r run h₁ h₂
      | run q old new sh hq hst =>
        rcases update_some h₂ with ⟨rfl, rfl⟩ | ⟨_, h₂⟩
        · exact lateRun_step hst hsd' (hruns r old h₁ hq)
        · exact hruns r run h₁ h₂
      | startSend _ _ _ | send _ _ _ _ _ _ | startDisconnect _ _ | disconnect _ _ _ _ _ _
      | worker _ _ _ _ _ => exact hruns r run h₁ h₂
    · cases hstep with
      | startSend j job hj =>
        rcases update_some h₂ with ⟨rfl, rfl⟩ | ⟨_, h₂⟩
        · exact ⟨rfl, .inl rfl⟩
        · exact hsends i snd h₁ h₂
      | send j old new sh hj hst =>
        rcases update_some h₂ with ⟨rfl, rfl⟩ | ⟨_, h₂⟩
        · exact lateSend_step hst hst' (hsends i old h₁ hj)
        · exact hsends i snd h₁ h₂
      | startRun _ _ | run _ _ _ _ _ _ | startDisconnect _ _ | disconnect _ _ _ _ _ _
      | worker _ _ _ _ _ => exact hsends i snd h₁ h₂

theorem supervisor_rank_leads (hr : (Client.automaton setup).Reachable w)
    (hp : (Client.automaton setup).Leads w w') {r : RunId} {run : Run} (h : w.runs r = some run) :
    ∃ run', w'.runs r = some run' ∧ run.supervisor.rank ≤ run'.supervisor.rank := by
  induction hp with
  | refl => exact ⟨run, h, Nat.le_refl _⟩
  | @tail m m' a hp _ hs ih =>
    obtain ⟨old, hold, hle⟩ := ih
    have hinv := lifecycleInv_of_reachable (hr.path hp)
    cases client_step hs with
    | startRun q hq =>
      have hne : r ≠ q := by
        rintro rfl
        cases hq.symm.trans hold
      exact ⟨old, by simp [Function.update_of_ne hne, hold], hle⟩
    | run q m₁ m₂ sh hq hst =>
      by_cases hqr : r = q
      · subst hqr
        cases hold.symm.trans hq
        exact ⟨m₂, by simp, Nat.le_trans hle (hst.rank (hinv.runs r old hold)).1⟩
      · exact ⟨old, by simp [Function.update_of_ne hqr, hold], hle⟩
    | startSend _ _ _ | send _ _ _ _ _ _ | startDisconnect _ _ | disconnect _ _ _ _ _ _
    | worker _ _ _ _ _ => exact ⟨old, hold, hle⟩

theorem start_eq {r : RunId} (h : (Client.automaton setup).step w (.run r .start) = some w') :
    ∃ run, w.runs r = some run ∧ run.supervisor = .spawned ∧
      w'.runs r = some { run with supervisor := .looping (Run.startRunner setup) } := by
  obtain ⟨run, hrun, h⟩ := Option.bind_eq_some_iff.mp h
  obtain ⟨out, hout, rfl⟩ := Option.map_eq_some_iff.mp h
  simp only [Run.step] at hout
  split at hout <;> cases hout
  exact ⟨run, hrun, by assumption, Function.update_self ..⟩

theorem released_unlock (hi : LifecycleInv w)
    (h : (∃ r, (Client.automaton setup).step w (.run r .unlock) = some w') ∨
      ∃ d, (Client.automaton setup).step w (.disconnect d .unlock) = some w') : Released w' := by
  rcases h with ⟨r, h⟩ | ⟨d, h⟩
  · obtain ⟨run, hrun, h⟩ := Option.bind_eq_some_iff.mp h
    obtain ⟨out, hout, rfl⟩ := Option.map_eq_some_iff.mp h
    simp only [Run.step] at hout
    split at hout <;> cases hout
    obtain ⟨result, hp⟩ : ∃ x, run.supervisor = .unlocking x := ⟨_, by assumption⟩
    have hri := hi.runs r run hrun
    refine ⟨hri.stopped (by simp [hp, SupervisorPc.rank]),
      hri.shutdown (by simp [hp, SupervisorPc.rank]),
      hri.handlers (by simp [hp, SupervisorPc.rank]), fun q m hq => ?_⟩
    rcases update_some hq with ⟨rfl, rfl⟩ | ⟨hne, hq⟩
    · exact .inr rfl
    · by_contra hact
      exact hne (hi.unique q r m run hq hrun (by omega) (by simp [hp, SupervisorPc.rank]))
  · obtain ⟨pc, hpc, h⟩ := Option.bind_eq_some_iff.mp h
    obtain ⟨out, hout, rfl⟩ := Option.map_eq_some_iff.mp h
    simp only [DisconnectPc.step] at hout
    split at hout <;> cases hout
    have hdi := hi.disconnects d _ hpc
    exact ⟨hdi.stopped (by simp [DisconnectPc.rank]), hdi.shutdown (by simp [DisconnectPc.rank]),
      hdi.handlers (by simp [DisconnectPc.rank]),
      hi.quiet d _ hpc (by simp [DisconnectPc.rank])⟩

theorem rejected_eq {r : RunId} {a : RunAction} (hi : LifecycleInv w)
    (h : (Client.automaton setup).step w (.run r a) = some w')
    (hret : w'.runs r = some
      { call := .returned (.error .clientAlreadyRunning), supervisor := .absent }) :
    w'.shared = w.shared := by
  obtain ⟨run, hrun, h⟩ := Option.bind_eq_some_iff.mp h
  obtain ⟨⟨sh, run'⟩, hout, rfl⟩ := Option.map_eq_some_iff.mp h
  simp only [Function.update_self, Option.some.injEq] at hret
  cases run_step hout with
  | reject _ _ hs => exact hs
  | guardPublish x hp hs =>
    have hne := (hi.runs r run hrun).late (.inr ⟨x, .inr hp⟩)
    exact absurd (congrArg Run.supervisor hret) hne
  | lock _ _ _ | closed _ _ _ | join _ _ _ _ | dropTrying _ _ | dropJoining _ _
  | guardCancel _ _ _ => cases congrArg Run.call hret
  | spawn _ _ _ | start _ _ | loop _ _ _ _ | loopEnd _ _ _ _ _ | supervisorCancel _ _ _
  | supervisorPublish _ _ _ | cancelHandlers _ _ _ | unlock _ _ _ =>
    cases congrArg Run.supervisor hret

theorem rejected_stays {r : RunId} (hp : (Client.automaton setup).Leads w w')
    (h : w.runs r = some
      { call := .returned (.error .clientAlreadyRunning), supervisor := .absent })
    (a : RunAction) : (Client.automaton setup).step w' (.run r a) = none := by
  have stuck : ∀ sh, Run.step setup sh r
      { call := .returned (.error .clientAlreadyRunning), supervisor := .absent } a = none := by
    intro sh
    cases a <;> rfl
  have keep : w'.runs r = w.runs r := by
    induction hp with
    | refl => rfl
    | @tail m m' b hp _ hs ih =>
      rw [h] at ih
      cases client_step hs with
      | startRun q hq =>
        have hne : r ≠ q := by
          rintro rfl
          cases hq.symm.trans ih
        simp [Function.update_of_ne hne, ih, h]
      | run q m₁ m₂ sh hq hst =>
        have hne : r ≠ q := by
          rintro rfl
          cases ih.symm.trans hq
          cases hst with
          | lock hp _ _ | reject hp _ _ | closed hp _ _ | spawn hp _ _ | join _ hp _ _
          | dropTrying hp _ | dropJoining hp _ | guardCancel _ hp _ | guardPublish _ hp _
          | start hp _ | loop _ _ hp _ | loopEnd _ _ hp _ _ | supervisorCancel _ hp _
          | supervisorPublish _ hp _ | cancelHandlers _ hp _ | unlock _ hp _ => cases hp
        simp [Function.update_of_ne hne, ih, h]
      | startSend _ _ _ | send _ _ _ _ _ _ | startDisconnect _ _ | disconnect _ _ _ _ _ _
      | worker _ _ _ _ _ => exact ih.trans h.symm
  simp only [Client.automaton, Client.step, keep, h, Option.bind_some, stuck, Option.map_none]

namespace Client

/-- The supervisor is one for the whole life of the client, a rejected call touches nothing, and
after the release of the lock by the supervisor or by `disconnect` no call gets anywhere. -/
theorem runner_lifecycle (h : (automaton setup).Reachable w) :
    (∀ r q w₁ w₂, (automaton setup).step w (.run r .start) = some w₁ →
      (automaton setup).Leads w₁ w₂ → (automaton setup).step w₂ (.run q .start) = none) ∧
    (∀ r a w₁, (automaton setup).step w (.run r a) = some w₁ →
      w₁.runs r = some
        { call := .returned (.error .clientAlreadyRunning), supervisor := .absent } →
      w₁.shared = w.shared ∧ ∀ w₂ b, (automaton setup).Leads w₁ w₂ →
        (automaton setup).step w₂ (.run r b) = none) ∧
    (∀ w₁, ((∃ r, (automaton setup).step w (.run r .unlock) = some w₁) ∨
        ∃ d, (automaton setup).step w (.disconnect d .unlock) = some w₁) →
      Released w₁ ∧ ∀ w₂, (automaton setup).Leads w₁ w₂ →
        (∀ r run, w₁.runs r = none → w₂.runs r = some run →
          run.supervisor = .absent ∧
          (∀ result, run.call = .returned result → ∃ e, result = .error e) ∧
          (run.call ≠ .dropped → ∃ (acts : List RunAction) (w₃ : Client) (run₃ : Run) (e : Error),
            (automaton setup).exec w₂ (acts.map (.run r)) = some w₃ ∧
            w₃.runs r = some run₃ ∧ run₃.call = .returned (.error e))) ∧
        ∀ i snd, w₁.sends i = none → w₂.sends i = some snd →
          snd.requests = [] ∧
          (∀ result, snd.pc = .returned result → result = .error .connectionClosed) ∧
          (snd.pc ≠ .dropped → ∃ (acts : List SendAction) (w₃ : Client) (snd₃ : Send),
            (automaton setup).exec w₂ (acts.map (.send i)) = some w₃ ∧
            w₃.sends i = some snd₃ ∧ snd₃.pc = .returned (.error .connectionClosed))) := by
  have hi := lifecycleInv_of_reachable h
  refine ⟨fun r q w₁ w₂ hs hp => ?_, fun r a w₁ hs hret => ?_, fun w₁ hs => ?_⟩
  · have h₁ : (automaton setup).Reachable w₁ := h.tail hs
    obtain ⟨run, -, -, hrun⟩ := start_eq hs
    obtain ⟨run₂, hrun₂, hle⟩ := supervisor_rank_leads h₁ hp hrun
    cases hq : (automaton setup).step w₂ (.run q .start) with
    | none => rfl
    | some w₃ =>
      obtain ⟨other, hother, hsp, -⟩ := start_eq hq
      have hsame : r = q := (lifecycleInv_of_reachable (h₁.path hp)).unique r q run₂ other hrun₂
        hother (Nat.ne_of_gt (Nat.lt_of_lt_of_le Nat.zero_lt_two hle))
          (by simp [hsp, SupervisorPc.rank])
      subst hsame
      cases hrun₂.symm.trans hother
      simp [hsp, SupervisorPc.rank] at hle
  · exact ⟨rejected_eq hi hs hret, fun w₂ b hp => rejected_stays hp hret b⟩
  · have hrel := released_unlock hi hs
    have h₁ : (automaton setup).Reachable w₁ := by
      rcases hs with ⟨r, hs⟩ | ⟨d, hs⟩
      · exact h.tail hs
      · exact h.tail hs
    refine ⟨hrel, fun w₂ hp => ?_⟩
    obtain ⟨hsd, hst, hruns, hsends⟩ := late_leads h₁ hp hrel.shutdown hrel.stopped
    refine ⟨fun r run hn hrun => ?_, fun i snd hn hsnd => ?_⟩
    · have hl := hruns r run hn hrun
      refine ⟨hl.1, fun result hres => ?_, lateRun_ends hrun hl hsd⟩
      rcases hl.2 with hc | hc | hc | ⟨e, hc⟩ <;> cases hres.symm.trans hc
      exact ⟨e, rfl⟩
    · have hl := hsends i snd hn hsnd
      refine ⟨hl.1, fun result hres => ?_, lateSend_ends hsnd hl hst⟩
      rcases hl.2 with hc | ⟨_, hc⟩ | hc | ⟨_, hc⟩ | hc | hc <;> cases hres.symm.trans hc
      rfl

/-- A supervisor that ends because of `disconnect`, while a message is being sent. -/
theorem runner_lifecycle_disconnect : ∃ w w₁ : Client,
    (automaton sampleSetup).step w (.run 0 .unlock) = some w₁ ∧ Released w₁ ∧
    ∀ w₂ snd, (automaton sampleSetup).Leads w₁ w₂ → w₂.sends 1 = some snd →
      snd.requests = [] := by
  let acts : List ClientAction := sampleSend ++
    [.startDisconnect 0, .disconnect 0 .stopCancel, .disconnect 0 .stopPublish,
      .run 0 (.loop (.dispatchCheck)), .run 0 (.loop .park), .run 0 (.loop .poll),
      .run 0 (.loop (.offline 0)), .run 0 (.loop (.close .cancel)),
      .run 0 (.loop (.close .abortAll)), .worker 0 (.reader .abort), .worker 0 (.keepalive .abort),
      .run 0 (.loop (.close .join)), .run 0 (.loop (.close .clear)),
      .run 0 (.loop (.close .takeSink)), .run 0 (.loop .after), .run 0 .loopEnd,
      .run 0 .supervisorCancel, .run 0 .supervisorPublish, .run 0 .cancelHandlers]
  have hr : (automaton sampleSetup).Reachable
      (((automaton sampleSetup).exec (new sampleSetup 0) acts).get rfl) :=
    Automaton.reachable_get ⟨0, rfl⟩
  obtain ⟨hrel, hlate⟩ := (runner_lifecycle hr).2.2
    (((automaton sampleSetup).step _ (.run 0 .unlock)).get rfl)
    (.inl ⟨0, (Option.some_get _).symm⟩)
  exact ⟨_, _, (Option.some_get _).symm, hrel,
    fun w₂ snd hp hs => ((hlate w₂ hp).2 1 snd rfl hs).1⟩

end Client

end Maxrs
