import Maxrs.Isolation
import Maxrs.TaskStep
import Maxrs.UploadInv
set_option autoImplicit false

/-! Every invoke that has not come to an end is awaited by exactly one task. -/
namespace Maxrs

open Generation (OwnTurn)

abbrev AwaitTurn (poll : Option InvokeAction) (before after : Option (ConnId × CallId))
    (sh sh' : Shared) : Prop :=
  Ownership.Turn before after sh.standing sh'.standing (fun x => x.1 ≠ .dropped)
    (fun x => x.1.Live) (InvokeMoves poll)

def SendAction.invokePoll : SendAction → Option InvokeAction
  | .onInvoke b => some b
  | _ => none

def ClientAction.invokePoll : ClientAction → Option InvokeAction
  | .worker _ (.keepalive a) => a.invokePoll
  | .run _ (.loop (.attempt a)) => a.invokePoll
  | .send _ a => a.invokePoll
  | _ => none

variable {setup : Setup} {sh sh' : Shared} {w w' : Client} {poll : Option InvokeAction}

theorem Generation.OwnTurn.setSession {o o' : Option CallId} {c : ConnId} {s : Session}
    (h : OwnTurn poll o o' (sh.sessions c).generation s.generation) :
    AwaitTurn poll (o.map fun k => (c, k)) (o'.map fun k => (c, k)) sh (sh.setSession c s) := by
  refine h.map (fun k => (c, k)) (fun k => rfl) (fun k => ?_) fun i hi => ?_
  · simp [Shared.standing]
  · have hne : i.1 ≠ c := fun he => hi i.2 (by rw [← he])
    simp [Shared.standing, setSession_of_ne sh s hne]

theorem AwaitTurn.congr {o o' : Option (ConnId × CallId)} {sh₁ : Shared}
    (h : AwaitTurn poll o o' sh sh') (hs : sh₁.sessions = sh'.sessions) :
    AwaitTurn poll o o' sh sh₁ := by
  have he : sh₁.standing = sh'.standing := by
    funext i
    simp [Shared.standing, hs]
  unfold AwaitTurn
  rw [he]
  exact h

theorem AwaitTurn.same (o : Option (ConnId × CallId)) (hs : sh'.sessions = sh.sessions) :
    AwaitTurn poll o o sh sh' := .quiet rfl fun i => by simp [Shared.standing, hs]

section send

variable {snd snd' : Send} {b : SendBody}

theorem Send.waiting_body (hp : snd.pc = .body b) :
    snd.waiting = b.waiting.map fun k => (b.connection, k) := by
  simp [Send.waiting, hp]

theorem SendInv.waiting_none {op : SendOp} {next : op.Ret → SendScript (Except Error Unit)}
    (hi : SendInv sh snd) (hp : snd.pc = .body b) (hr : b.rest = .call op next)
    (hop : ∀ opcode payload, op ≠ .invoke opcode payload) : b.waiting = none := by
  cases hw : b.waiting with
  | none => rfl
  | some k =>
    obtain ⟨opcode, payload, next', hr'⟩ := invoke_of_waiting hi b k hp hw
    cases hr.symm.trans hr'
    exact absurd rfl (hop opcode payload)

theorem turn_aside {a : SenderAction} (hs : a.toGeneration.starts = false)
    (hp : a.toGeneration.polls (sh.sessions b.connection).generation = none)
    (h : Send.onConnection setup sh b a = some sh')
    (hg : GenerationInv (sh.sessions b.connection).generation) :
    AwaitTurn poll none none sh sh' := by
  obtain ⟨s, hact, rfl⟩ := onSession_eq h
  obtain ⟨g, hstep, rfl⟩ := Session.act_eq hact
  have hturn : OwnTurn poll none none (sh.sessions b.connection).generation
      ({ sh.sessions b.connection with generation := g } : Session).generation :=
    (Generation.standing_step hstep hg).turn_quiet hs hp none
  exact hturn.setSession

theorem turn_stepBody {a : SendAction} (hi : SendInv sh snd) (hp : snd.pc = .body b)
    (hg : GenerationInv (sh.sessions b.connection).generation)
    (h : snd.stepBody setup sh b a = some (sh', snd')) :
    AwaitTurn a.invokePoll snd.waiting snd'.waiting sh sh' := by
  rw [Send.waiting_body hp]
  have same : ∀ p o, AwaitTurn p o o sh sh := fun _ o => .same o rfl
  have done : ∀ r, b.rest = .done r → b.waiting = none := by
    intro r hr
    cases hw : b.waiting with
    | none => rfl
    | some k =>
      obtain ⟨opcode, payload, next, hr'⟩ := invoke_of_waiting hi b k hp hw
      cases hr.symm.trans hr'
  cases body_turn h with
  | issue opcode payload next hr hw hm =>
    obtain ⟨s, hact, rfl⟩ := onSession_eq hm
    obtain ⟨g, hstep, rfl⟩ := Session.act_eq hact
    rw [hw]
    have hturn : OwnTurn none none _ (sh.sessions b.connection).generation
        ({ sh.sessions b.connection with generation := g } : Session).generation :=
      (Generation.standing_step hstep hg).turn_start rfl
    exact hturn.setSession
  | onInvoke k act hw hdrop hm =>
    obtain ⟨s, hact, rfl⟩ := onSession_eq hm
    obtain ⟨g, hstep, rfl⟩ := Session.act_eq hact
    rw [Send.waiting_body hp, hw]
    have hturn : OwnTurn (some act) (some k) (some k) (sh.sessions b.connection).generation
        ({ sh.sessions b.connection with generation := g } : Session).generation :=
      (Generation.standing_step hstep hg).turn_polls rfl hdrop
    exact hturn.setSession
  | take opcode payload next k r hr hw hret =>
    rw [hw]
    have hturn : OwnTurn none (some k) none (sh.sessions b.connection).generation
        (sh.sessions b.connection).generation := Generation.turn_take _ hg hret fun _ => rfl
    exact hturn.setSession.congr (by simp [Shared.setSession])
  | register fileId next w hr hwaiter hm =>
    rw [hi.waiting_none hp hr (by simp)]
    exact turn_aside rfl rfl hm hg
  | waitClosed w next hr hc hm =>
    rw [hi.waiting_none hp hr (by simp)]
    exact turn_aside rfl rfl hm hg
  | processed w next hr hpoll hdone hm =>
    rw [hi.waiting_none hp hr (by simp)]
    exact turn_aside rfl rfl hm hg
  | timedOut w next hr hpoll hm =>
    rw [hi.waiting_none hp hr (by simp)]
    exact turn_aside rfl rfl hm hg
  | dropWaiter w next hr hm =>
    rw [hi.waiting_none hp hr (by simp)]
    exact turn_aside rfl rfl hm hg
  | uploadClosed url headers body next hr hc =>
    rw [hi.waiting_none hp hr (by simp)]
    exact same _ none
  | uploaded url headers body r next hr hpoll =>
    rw [hi.waiting_none hp hr (by simp)]
    exact same _ none
  | select op next hr hop hc =>
    have hw := hi.waiting_none hp hr hop
    rw [hw]
    simpa [Send.waiting, Send.goto, hw] using same _ none
  | park hpoll => exact same _ _
  | done hr =>
    rw [done _ hr]
    exact same _ none
  | failed e hr =>
    have hout : (snd.goto (if isTransportFailure e then .current .reading
        else .returned (.error e))).waiting = none := by
      simp only [Send.waiting, Send.goto]
      split <;> rename_i hpc
      · split at hpc <;> cases hpc
      · rfl
    rw [done _ hr, hout]
    exact same _ none
  | dropInvoke k hw hm =>
    obtain ⟨s, hact, rfl⟩ := onSession_eq hm
    obtain ⟨g, hstep, rfl⟩ := Session.act_eq hact
    rw [hw]
    have hturn : OwnTurn none (some k) none (sh.sessions b.connection).generation
        ({ sh.sessions b.connection with generation := g } : Session).generation :=
      (Generation.standing_step hstep hg).turn_drop rfl
    exact hturn.setSession
  | dropSelect w hw hheld hm =>
    rw [hw]
    exact turn_aside rfl rfl hm hg

theorem turn_stepCurrent {f : Current → Option Current}
    (h : Send.stepCurrent sh snd f = some (sh', snd')) :
    AwaitTurn poll snd.waiting snd'.waiting sh sh' := by
  simp only [Send.stepCurrent] at h
  split at h
  · rename_i p hp
    have hw : snd.waiting = none := by simp [Send.waiting, hp]
    obtain ⟨q, -, he⟩ := Option.map_eq_some_iff.mp h
    rw [hw]
    split at he <;> cases he <;> exact .same none rfl
  · cases h

theorem turn_send {a : SendAction} (hi : SendInv sh snd)
    (hg : ∀ b, snd.pc = .body b → GenerationInv (sh.sessions b.connection).generation)
    (h : snd.step setup sh a = some (sh', snd')) :
    AwaitTurn a.invokePoll snd.waiting snd'.waiting sh sh' := by
  cases send_turn h with
  | clock millis hp =>
    rw [show snd.waiting = none by simp [Send.waiting, hp]]
    exact .same none rfl
  | takeCid now hp =>
    rw [show snd.waiting = none by simp [Send.waiting, hp]]
    exact .same none rfl
  | borrow h | check h | wake h => exact turn_stepCurrent h
  | drop hp =>
    have hw : snd.waiting = none := by
      rcases hp with hp | ⟨now, hp⟩ | ⟨seen, hp⟩ <;> simp [Send.waiting, hp]
    rw [hw]
    exact .same none rfl
  | body b hp h => exact turn_stepBody hi hp (hg b hp) h

end send

def LoopAction.session (sh : Shared) (c : ConnId) : LoopAction → Option SessionAction
  | .poll => some .poll
  | .park => some .park
  | .attempt a => some (.attempt a)
  | .connected => some (.attempt (.connected (sh.recovery.connected c (sh.isCancelled c)).2))
  | .dispatchCheck => some (.attempt (.dispatchCheck sh.handlerShutdown))
  | .finishAttempt => some .finish
  | .offline _ => some (.close .offline)
  | .close a => some (.close a)
  | _ => none

theorem LoopAction.session_ofRunner {c : ConnId} {a : LoopAction} {b : SessionAction}
    (h : a.session sh c = some b) : b.ofRunner = true := by
  cases a <;> cases h <;> rfl

theorem runner_session {run run' : Runner} {a : LoopAction} {c : ConnId}
    (h : run.step setup sh a = some (sh', run')) (hp : run.pc = .attempt c) :
    (∃ b s, a.session sh c = some b ∧ (sh.sessions c).step setup.fromStr b = some s ∧
      sh'.sessions = (sh.setSession c s).sessions ∧ run'.pc = .attempt c) ∨
    ((∃ r, (sh.sessions c).phase = .over r) ∧ sh' = sh ∧ ∀ d, run'.pc ≠ .attempt d) := by
  cases a with
  | checkTop | beginCheck | beginCreate | sleepPoll | slept => simp [Runner.step, hp] at h
  | poll | park | finishAttempt | dispatchCheck =>
    simp only [Runner.step, hp] at h
    obtain ⟨m, hm, he⟩ := Option.map_eq_some_iff.mp h
    cases he
    obtain ⟨s, hs, rfl⟩ := onSession_eq hm
    exact .inl ⟨_, s, rfl, hs, rfl, hp⟩
  | attempt a =>
    simp only [Runner.step, hp] at h
    split at h
    · obtain ⟨m, hm, he⟩ := Option.map_eq_some_iff.mp h
      obtain ⟨s, hs, rfl⟩ := onSession_eq hm
      refine .inl ⟨_, s, rfl, hs, ?_⟩
      split at he <;> cases he <;> exact ⟨rfl, by simp [hp]⟩
    · cases h
  | connected =>
    simp only [Runner.step, hp] at h
    obtain ⟨m, hm, he⟩ := Option.map_eq_some_iff.mp h
    cases he
    obtain ⟨s, hs, rfl⟩ := onSession_eq hm
    exact .inl ⟨_, s, rfl, hs, rfl, hp⟩
  | offline elapsed =>
    simp only [Runner.step, hp] at h
    obtain ⟨m, hm, he⟩ := Option.map_eq_some_iff.mp h
    cases he
    obtain ⟨s, hs, rfl⟩ := onSession_eq hm
    refine .inl ⟨_, s, rfl, hs, rfl, ?_⟩
    split <;> simp [hp]
  | close a =>
    simp only [Runner.step, hp] at h
    split at h
    · cases h
    · obtain ⟨m, hm, he⟩ := Option.map_eq_some_iff.mp h
      cases he
      obtain ⟨s, hs, rfl⟩ := onSession_eq hm
      exact .inl ⟨_, s, rfl, hs, rfl, hp⟩
  | after =>
    simp only [Runner.step, hp] at h
    obtain ⟨r, hr, he⟩ := Option.map_eq_some_iff.mp h
    have hover : ∃ r, (sh.sessions c).phase = .over r := by
      unfold Session.result at hr
      split at hr <;> cases hr
      exact ⟨_, by assumption⟩
    refine .inr ⟨hover, ?_⟩
    split at he
    · cases he
      exact ⟨rfl, by simp [Runner.goto]⟩
    · split at he
      · cases he
        exact ⟨rfl, by simp⟩
      · split at he <;> cases he
        · exact ⟨rfl, by simp⟩
        · exact ⟨rfl, by simp [Runner.goto]⟩

def SessionAction.By (w : Client) (c : ConnId) (p : Task) : SessionAction → Prop
  | .worker (.reader _) => p = .reader c
  | .worker (.keepalive _) => p = .keepalive c
  | .sender _ => ∃ i, p = .send i
  | .shutdown => True
  | _ => ∃ r, p = .supervisor r ∧ w.attemptOf r = some c

theorem SupervisorPc.attempt_none {runner : Runner} (h : ∀ c, runner.pc ≠ .attempt c) :
    (SupervisorPc.looping runner).attempt = none := by
  obtain ⟨config, delay, pc⟩ := runner
  cases pc with
  | attempt c => exact absurd rfl (h c)
  | _ => rfl

theorem attemptOf_eq {r : RunId} {c : ConnId} :
    w.attemptOf r = some c ↔ Attempting w r c := by
  constructor
  · intro h
    obtain ⟨run, hr, h⟩ := Option.bind_eq_some_iff.mp h
    unfold SupervisorPc.attempt at h
    split at h <;> cases h
    rename_i hs
    exact ⟨run, _, hr, hs, rfl⟩
  · rintro ⟨run, runner, hr, hs, hp⟩
    obtain ⟨config, delay, pc⟩ := runner
    cases hp
    simp [Client.attemptOf, hr, hs, SupervisorPc.attempt]

inductive SupervisorTurn (setup : Setup) (w w' : Client) (r : RunId) (a : RunAction) : Prop where
  | session (c : ConnId) (l : LoopAction) (b : SessionAction) (s : Session) : a = .loop l →
      w.attemptOf r = some c → l.session w.shared c = some b →
      (w.shared.sessions c).step setup.fromStr b = some s →
      w'.shared.sessions = (w.shared.setSession c s).sessions → w'.attemptOf r = some c →
      SupervisorTurn setup w w' r a
  | begin (config : LoginConfig) : w.attemptOf r = none →
      w'.shared = w.shared.begin setup config → w'.attemptOf r = some w.shared.created →
      SupervisorTurn setup w w' r a
  | shutdown : w.attemptOf r = none → w'.shared.sessions = w.shared.cancelShutdown.sessions →
      w'.attemptOf r = none → SupervisorTurn setup w w' r a
  | quiet : w'.shared.sessions = w.shared.sessions → w'.attemptOf r = none →
      (∀ c, w.attemptOf r = some c → ∃ x, (w.shared.sessions c).phase = .over x) →
      SupervisorTurn setup w w' r a

theorem supervisor_turn {r : RunId} {a : RunAction} (ha : a.ofCall = false)
    (h : w.step setup (.run r a) = some w') : SupervisorTurn setup w w' r a := by
  obtain ⟨run, hr, h⟩ := Option.bind_eq_some_iff.mp h
  obtain ⟨⟨sh, run'⟩, hst, rfl⟩ := Option.map_eq_some_iff.mp h
  have before : w.attemptOf r = run.supervisor.attempt := by simp [Client.attemptOf, hr]
  have after : ({ w with shared := sh, runs := Function.update w.runs r (some run') } :
      Client).attemptOf r = run'.supervisor.attempt := by simp [Client.attemptOf]
  -- a step that neither begins on a connection nor ends on one
  have aside : run.supervisor.attempt = none → run'.supervisor.attempt = none →
      sh.sessions = w.shared.sessions → SupervisorTurn setup w
        { w with shared := sh, runs := Function.update w.runs r (some run') } r a :=
    fun hb ha hs => .quiet hs (after.trans ha) fun c hc => by
      rw [before, hb] at hc
      cases hc
  cases a with
  | tryLock | checkShutdown | join | drop | guardCancel | guardPublish => cases ha
  | loop a =>
    simp only [Run.step] at hst
    split at hst
    · rename_i runner hs
      obtain ⟨out, hout, he⟩ := Option.map_eq_some_iff.mp hst
      cases he
      by_cases hpc : ∃ c, runner.pc = .attempt c
      · obtain ⟨c, hpc⟩ := hpc
        have hat : w.attemptOf r = some c := attemptOf_eq.mpr ⟨run, runner, hr, hs, hpc⟩
        rcases runner_session hout hpc with ⟨b, s, hb, hstep, hse, hp'⟩ | ⟨hov, hsh, hp'⟩
        · refine .session c a b s rfl hat hb hstep hse ?_
          exact attemptOf_eq.mpr ⟨_, out.2, Function.update_self .., rfl, hp'⟩
        · refine .quiet (by rw [hsh]) ?_ fun d hd => ?_
          · rw [after, SupervisorPc.attempt_none hp']
          · cases hat.symm.trans hd
            exact hov
      · have hnone : ∀ c, runner.pc ≠ .attempt c := fun c hc => hpc ⟨c, hc⟩
        have hb : run.supervisor.attempt = none := by
          rw [hs]
          exact SupervisorPc.attempt_none hnone
        cases runner_step hout with
        | goto hsh _ hp' _ => exact aside hb (SupervisorPc.attempt_none hp') (by rw [hsh])
        | begin _ hsh hout' =>
          refine .begin runner.config (before.trans hb) hsh ?_
          exact attemptOf_eq.mpr ⟨_, out.2, Function.update_self .., rfl, by rw [hout']; rfl⟩
        | session c _ _ hc | after c _ hc => exact absurd hc (hnone c)
    · cases hst
  | start =>
    simp only [Run.step] at hst
    split at hst <;> cases hst
    rename_i hs _
    exact aside (by rw [hs]; rfl) rfl rfl
  | loopEnd =>
    simp only [Run.step] at hst
    split at hst <;> cases hst
    rename_i hs _
    exact aside (by rw [hs]; rfl) rfl rfl
  | supervisorCancel =>
    simp only [Run.step] at hst
    split at hst <;> cases hst
    rename_i hs _
    exact .shutdown (before.trans (by rw [hs]; rfl)) rfl (after.trans rfl)
  | supervisorPublish | cancelHandlers | unlock =>
    simp only [Run.step] at hst
    split at hst <;> cases hst
    rename_i hs _
    exact aside (by rw [hs]; rfl) rfl rfl

theorem call_turn {r : RunId} {a : RunAction} (ha : a.ofCall = true) (hl : LifecycleInv w)
    (h : w.step setup (.run r a) = some w') :
    (w'.shared.sessions = w.shared.sessions ∨
      w'.shared.sessions = w.shared.cancelShutdown.sessions) ∧
    w'.shared.created = w.shared.created ∧ w'.attemptOf r = w.attemptOf r := by
  obtain ⟨run, hr, h⟩ := Option.bind_eq_some_iff.mp h
  obtain ⟨⟨sh, run'⟩, hst, rfl⟩ := Option.map_eq_some_iff.mp h
  have keep : run'.supervisor.attempt = run.supervisor.attempt →
      ({ w with shared := sh, runs := Function.update w.runs r (some run') } :
        Client).attemptOf r = w.attemptOf r := fun he => by
    simp [Client.attemptOf, hr, he]
  cases a with
  | tryLock =>
    simp only [Run.step] at hst
    split at hst
    · split at hst <;> cases hst <;> exact ⟨.inl rfl, rfl, keep rfl⟩
    · cases hst
  | checkShutdown =>
    simp only [Run.step] at hst
    split at hst
    · rename_i hp
      split at hst <;> cases hst
      · exact ⟨.inl rfl, rfl, keep rfl⟩
      · exact ⟨.inl rfl, rfl, keep (by rw [(hl.runs r run hr).early (.inr hp)]; rfl)⟩
    · cases hst
  | join | drop =>
    simp only [Run.step] at hst
    split at hst <;> cases hst <;> exact ⟨.inl rfl, rfl, keep rfl⟩
  | guardCancel =>
    simp only [Run.step] at hst
    split at hst <;> cases hst
    exact ⟨.inr rfl, rfl, keep rfl⟩
  | guardPublish =>
    simp only [Run.step] at hst
    split at hst <;> cases hst <;> exact ⟨.inl rfl, rfl, keep rfl⟩
  | start | loop _ | loopEnd | supervisorCancel | supervisorPublish | cancelHandlers | unlock =>
    cases ha

theorem send_sessions {snd snd' : Send} (h : SendStep setup sh snd sh' snd') :
    sh'.sessions = sh.sessions ∨ ∃ b a s, snd.pc = .body b ∧
      (sh.sessions b.connection).act setup.fromStr (SenderAction.toGeneration a) = some s ∧
      sh' = sh.setSession b.connection s := by
  have touch : ∀ {b : SendBody}, snd.pc = .body b → Touches setup sh b.connection sh' →
      sh'.sessions = sh.sessions ∨ ∃ b a s, snd.pc = .body b ∧
        (sh.sessions b.connection).act setup.fromStr (SenderAction.toGeneration a) = some s ∧
        sh' = sh.setSession b.connection s := by
    rintro b hp (rfl | ⟨a, s, -, hs, he⟩)
    · exact .inl rfl
    · exact .inr ⟨b, a, s, hp, hs, he⟩
  cases h with
  | issue b opcode payload next s hp _ _ hact hs =>
    exact .inr ⟨b, .invoke opcode payload, s, hp, hact, hs⟩
  | act b hp ht => exact touch hp ht
  | answer b b' op r next hp _ _ _ _ ht => exact touch hp ht
  | drop ht =>
    rcases ht with rfl | ⟨b, hp, ht⟩
    · exact .inl rfl
    · exact touch hp ht
  | clock _ _ hs | takeCid _ _ _ hs | borrow _ hs | handed _ _ _ _ hs | stopped _ _ hs
  | wait _ _ _ _ hs | woken _ _ hs | turn _ _ _ hs | done _ _ _ hs | retry _ _ _ _ _ hs
  | fail _ _ _ _ _ hs =>
    subst hs
    exact .inl rfl

theorem disconnect_sessions {d : DisconnectId} {pc pc' : DisconnectPc}
    (h : DisconnectStep sh d pc sh' pc') :
    (sh'.sessions = sh.sessions ∨ sh'.sessions = sh.cancelShutdown.sessions) ∧
      sh'.created = sh.created := by
  cases h with
  | stopCancel _ hs =>
    subst hs
    exact ⟨.inr rfl, rfl⟩
  | stopPublish _ hs | lock _ _ hs | cancelHandlers _ hs | unlock _ hs | drop _ hs =>
    subst hs
    exact ⟨.inl rfl, rfl⟩

theorem task_run {r : RunId} {a : RunAction} (ha : a.ofCall = false) :
    (ClientAction.run r a).task = .supervisor r := by
  simp [ClientAction.task, ha]

theorem session_by {a : ClientAction} (h : w.step setup a = some w') (hi : ClientInv setup w)
    (hl : LifecycleInv w) (c : ConnId) :
    w'.shared.sessions c = w.shared.sessions c ∨
    (c = w.shared.created ∧ w'.shared.created = w.shared.created + 1 ∧
      ∃ config b, w'.shared.sessions c = .new setup.deviceId config b) ∨
    (c < w.shared.created ∧ ∃ b,
      (w.shared.sessions c).step setup.fromStr b = some (w'.shared.sessions c) ∧
        b.By w c a.task) := by
  have shutdown : w'.shared.sessions = w.shared.sessions ∨
      w'.shared.sessions = w.shared.cancelShutdown.sessions →
      w'.shared.sessions c = w.shared.sessions c ∨ (c < w.shared.created ∧ ∃ b,
        (w.shared.sessions c).step setup.fromStr b = some (w'.shared.sessions c) ∧
          b.By w c a.task) := by
    rintro (he | he)
    · exact .inl (by rw [he])
    · rw [he]
      by_cases hc : c < w.shared.created
      · exact .inr ⟨hc, .shutdown, by rw [cancelShutdown_session hc]; rfl, trivial⟩
      · exact .inl (by simp [Shared.cancelShutdown, hc])
  have one : ∀ {d : ConnId} {s : Session} {b : SessionAction},
      w'.shared.sessions = (w.shared.setSession d s).sessions → d < w.shared.created →
      (w.shared.sessions d).step setup.fromStr b = some s → b.By w d a.task →
      w'.shared.sessions c = w.shared.sessions c ∨ (c < w.shared.created ∧ ∃ b,
        (w.shared.sessions c).step setup.fromStr b = some (w'.shared.sessions c) ∧
          b.By w c a.task) := by
    intro d s b he hd hs hby
    rw [he]
    by_cases hcd : c = d
    · subst hcd
      exact .inr ⟨hd, b, hs.trans (by rw [setSession_self]), hby⟩
    · exact .inl (setSession_of_ne w.shared s hcd)
  cases a with
  | startRun r =>
    simp only [Client.step] at h
    split at h <;> cases h
    exact .inl rfl
  | startSend i job =>
    simp only [Client.step] at h
    split at h <;> cases h
    exact .inl rfl
  | startDisconnect d =>
    simp only [Client.step] at h
    split at h <;> cases h
    exact .inl rfl
  | run r a =>
    cases ha : a.ofCall with
    | true => exact (shutdown (call_turn ha hl h).1).imp id .inr
    | false =>
      cases supervisor_turn ha h with
      | session d l b s _ hat hb hs he _ =>
        have hb := LoopAction.session_ofRunner hb
        obtain ⟨run, runner, hr, hsup, hpc⟩ := attemptOf_eq.mp hat
        refine (one he (hi.handles.runner r run runner d hr hsup hpc) hs ?_).imp id .inr
        rw [task_run ha]
        cases b <;> first | exact ⟨r, rfl, hat⟩ | cases hb
      | begin config _ hs _ =>
        rw [hs]
        by_cases hc : c = w.shared.created
        · exact .inr (.inl ⟨hc, rfl, config, w.shared.recovery.shutdown, by
            rw [hc]; exact setSession_self _ _ _⟩)
        · exact .inl (setSession_of_ne w.shared _ hc)
      | shutdown _ hs _ => exact (shutdown (.inr hs)).imp id .inr
      | quiet hs _ _ => exact .inl (by rw [hs])
  | send i a =>
    obtain ⟨snd, hsnd, h⟩ := Option.bind_eq_some_iff.mp h
    obtain ⟨⟨sh, snd'⟩, hst, rfl⟩ := Option.map_eq_some_iff.mp h
    rcases send_sessions (send_step hst) with he | ⟨b, act, s, hp, hs, he⟩
    · exact .inl (by rw [he])
    · obtain ⟨hc, hpub⟩ := hi.handles.body i snd b hsnd hp
      have hs' : (w.shared.sessions b.connection).step setup.fromStr (.sender act) = some s := by
        simpa [Session.step, hpub] using hs
      exact (one (by rw [he]) hc hs' ⟨i, rfl⟩).imp id .inr
  | disconnect d a =>
    obtain ⟨pc, hpc, h⟩ := Option.bind_eq_some_iff.mp h
    obtain ⟨out, hout, rfl⟩ := Option.map_eq_some_iff.mp h
    exact (shutdown (disconnect_sessions (disconnect_step hout)).1).imp id .inr
  | worker d a =>
    simp only [Client.step, Option.ite_none_right_eq_some] at h
    obtain ⟨hd, h⟩ := h
    obtain ⟨sh, hsh, rfl⟩ := Option.map_eq_some_iff.mp h
    obtain ⟨s, hs, rfl⟩ := onSession_eq hsh
    have hby : SessionAction.By w d (ClientAction.worker d a).task (.worker a) := by
      cases a <;> rfl
    exact (one rfl hd (b := .worker a) hs hby).imp id .inr

def Unborn (setup : Setup) (w : Client) : Prop :=
  ∀ c, w.shared.created ≤ c → w.shared.sessions c = .new setup.deviceId setup.loginConfig false

theorem unborn_of_reachable (h : (Client.automaton setup).Reachable w) : Unborn setup w := by
  refine h.invariant_of (fun w hw => ?_) fun w a w' hr hs hi => ?_
  · obtain ⟨millis, rfl⟩ := hw
    exact fun _ _ => rfl
  · intro c hc
    have hinv := clientInv_of_reachable hr
    have hle : w.shared.created ≤ c :=
      Nat.le_trans (client_grows (client_step hs) hinv).created hc
    rcases session_by hs hinv (lifecycleInv_of_reachable hr) c with he | ⟨rfl, hn, -⟩ | ⟨hlt, -⟩
    · exact he.trans (hi c hle)
    · omega
    · exact absurd hlt (Nat.not_lt.mpr hle)

namespace Session

variable {fromStr : String → Except String Packet} {s s' : Session}

theorem stepAttempt_generation {a : Attempt} {act : AttemptAction}
    (h : s.stepAttempt fromStr a act = some s') :
    s'.generation = s.generation ∨ ∃ ga, s.generation.step fromStr ga = some s'.generation ∧
      (∀ x, ga ≠ .reader x) ∧ ∀ x, ga ≠ .keepalive x := by
  cases attempt_turn h with
  | performs op r next b g _ _ hb hg =>
    refine .inr ⟨b, hg, ?_⟩
    obtain rfl | rfl | rfl | ⟨u, rfl⟩ := effect_cases hb <;> exact ⟨nofun, nofun⟩
  | issue _ _ _ g _ _ hg | onInvoke _ _ g _ _ hg | recv _ g _ hg =>
    exact .inr ⟨_, hg, nofun, nofun⟩
  | answers | take | look => exact .inl rfl

theorem step_generation {b : SessionAction} (h : s.step fromStr b = some s') :
    s'.generation = s.generation ∨ ∃ ga, s.generation.step fromStr ga = some s'.generation ∧
      (∀ x, ga = .reader x → b = .worker (.reader x)) ∧
      ∀ x, ga = .keepalive x → b = .worker (.keepalive x) := by
  have one : ∀ {ga : GenerationAction} {m : Session}, s.act fromStr ga = some m →
      s'.generation = m.generation → (∀ x, ga = .reader x → b = .worker (.reader x)) →
      (∀ x, ga = .keepalive x → b = .worker (.keepalive x)) →
      s'.generation = s.generation ∨ ∃ ga, s.generation.step fromStr ga = some s'.generation ∧
        (∀ x, ga = .reader x → b = .worker (.reader x)) ∧
        ∀ x, ga = .keepalive x → b = .worker (.keepalive x) := by
    intro ga m hm he hr hk
    obtain ⟨g, hg, rfl⟩ := act_eq hm
    exact .inr ⟨ga, hg.trans (by rw [he]), hr, hk⟩
  cases b with
  | poll =>
    simp only [step, poll] at h
    split at h
    · split at h
      · cases h
      · split at h
        · obtain ⟨m, hm, rfl⟩ := Option.map_eq_some_iff.mp h
          exact one hm rfl (by simp) (by simp)
        · cases h
          exact .inl rfl
    · cases h
  | park =>
    simp only [step, park] at h
    split at h
    · split at h <;> cases h
      exact .inl rfl
    · cases h
  | attempt act =>
    simp only [step] at h
    split at h
    · split at h
      · rcases stepAttempt_generation h with he | ⟨ga, hg, hr, hk⟩
        · exact .inl he
        · exact .inr ⟨ga, hg, fun x hx => absurd hx (hr x), fun x hx => absurd hx (hk x)⟩
      · cases h
    · cases h
  | finish =>
    simp only [step, finish] at h
    split at h
    · obtain ⟨m, hm, rfl⟩ := Option.map_eq_some_iff.mp h
      exact one hm rfl (by simp) (by simp)
    · cases h
  | close act =>
    cases act with
    | offline | join =>
      simp only [step, stepClose] at h
      repeat' split at h
      all_goals first
        | (cases h; done)
        | (cases h
           exact .inl rfl)
    | cancel | abortAll | clear | takeSink =>
      simp only [step, stepClose] at h
      split at h
      · obtain ⟨m, hm, rfl⟩ := Option.map_eq_some_iff.mp h
        exact one hm rfl (by simp) (by simp)
      · cases h
  | worker act =>
    cases act <;>
      exact one h rfl (by simp [WorkerAction.toGeneration]) (by simp [WorkerAction.toGeneration])
  | sender act =>
    simp only [step, Option.ite_none_right_eq_some] at h
    cases act <;>
      exact one h.2 rfl (by simp [SenderAction.toGeneration]) (by simp [SenderAction.toGeneration])
  | shutdown => exact one h rfl (by simp) (by simp)

theorem step_phase {b : SessionAction} (hb : b.ofRunner = false)
    (h : s.step fromStr b = some s') : s'.phase = s.phase := by
  cases b with
  | worker act | shutdown =>
    obtain ⟨g, -, rfl⟩ := act_eq h
    rfl
  | sender act =>
    simp only [step, Option.ite_none_right_eq_some] at h
    obtain ⟨g, -, rfl⟩ := act_eq h.2
    rfl
  | poll | park | attempt _ | finish | close _ => cases hb

end Session

theorem reader_frame {a : ClientAction} (hr : (Client.automaton setup).Reachable w)
    (h : w.step setup a = some w') {c : ConnId} (hp : a.task ≠ .reader c) :
    ((w'.generation c).reader = (w.generation c).reader ∨
      (w.generation c).reader = .absent) ∧
    (w'.generation c).transport.ack = (w.generation c).transport.ack := by
  rcases session_by h (clientInv_of_reachable hr) (lifecycleInv_of_reachable hr) c with
    he | ⟨rfl, -, config, b, he⟩ | ⟨-, b, hb, hby⟩
  · simp only [Client.generation, he, true_or, and_self]
  · simp only [Client.generation, he, unborn_of_reachable hr _ (Nat.le_refl _)]
    exact ⟨.inr rfl, rfl⟩
  · rcases Session.step_generation hb with he | ⟨ga, hg, hread, -⟩
    · simp only [Client.generation, he, true_or, and_self]
    · refine Generation.reader_aside hg fun x hx => ?_
      rw [hread x hx] at hby
      exact hp hby

theorem keepalive_frame {a : ClientAction} (hr : (Client.automaton setup).Reachable w)
    (h : w.step setup a = some w') {c : ConnId} (hp : a.task ≠ .keepalive c) :
    (w'.generation c).pinging = (w.generation c).pinging := by
  rcases session_by h (clientInv_of_reachable hr) (lifecycleInv_of_reachable hr) c with
    he | ⟨rfl, -, config, b, he⟩ | ⟨-, b, hb, hby⟩
  · simp only [Client.generation, he]
  · simp only [Client.generation, he, unborn_of_reachable hr _ (Nat.le_refl _)]
    rfl
  · rcases Session.step_generation hb with he | ⟨ga, hg, -, hkeep⟩
    · simp only [Client.generation, he]
    · have hne : ∀ x, ga ≠ .keepalive x := fun x hx => by
        rw [hkeep x hx] at hby
        exact hp hby
      rcases Generation.keepalive_aside hg hne with he | ⟨he, he'⟩
      · simp only [Client.generation, Generation.pinging, he]
      · simp only [Client.generation, Generation.pinging, he, he']

theorem phase_frame {a : ClientAction} (hr : (Client.automaton setup).Reachable w)
    (h : w.step setup a = some w') {c : ConnId} (hc : c < w.shared.created)
    (hp : ∀ r, a.task = .supervisor r → w.attemptOf r ≠ some c) :
    (w'.shared.sessions c).phase = (w.shared.sessions c).phase := by
  rcases session_by h (clientInv_of_reachable hr) (lifecycleInv_of_reachable hr) c with
    he | ⟨hnew, -, -⟩ | ⟨-, b, hb, hby⟩
  · rw [he]
  · exact absurd hnew (Nat.ne_of_lt hc)
  · refine Session.step_phase ?_ hb
    cases b with
    | poll | park | attempt _ | finish | close _ =>
      obtain ⟨r, htask, hat⟩ := hby
      exact absurd hat (hp r htask)
    | worker _ | sender _ | shutdown => rfl

theorem runs_frame {a : ClientAction} (h : w.step setup a = some w') {r : RunId}
    (hc : a.task ≠ .run r) (hp : a.task ≠ .supervisor r) : w'.runs r = w.runs r := by
  cases a with
  | startRun q =>
    have hne : r ≠ q := fun he => hc (by rw [he]; rfl)
    simp only [Client.step] at h
    split at h <;> cases h
    exact Function.update_of_ne hne _ _
  | run q a =>
    have hne : r ≠ q := by
      rintro rfl
      cases ha : a.ofCall <;> simp [ClientAction.task, ha] at hc hp
    obtain ⟨run, hrun, h⟩ := Option.bind_eq_some_iff.mp h
    obtain ⟨out, hout, rfl⟩ := Option.map_eq_some_iff.mp h
    exact Function.update_of_ne hne _ _
  | startSend i job =>
    simp only [Client.step] at h
    split at h <;> cases h
    rfl
  | send i a =>
    obtain ⟨snd, hsnd, h⟩ := Option.bind_eq_some_iff.mp h
    obtain ⟨out, hout, rfl⟩ := Option.map_eq_some_iff.mp h
    rfl
  | startDisconnect d =>
    simp only [Client.step] at h
    split at h <;> cases h
    rfl
  | disconnect d a =>
    obtain ⟨pc, hpc, h⟩ := Option.bind_eq_some_iff.mp h
    obtain ⟨out, hout, rfl⟩ := Option.map_eq_some_iff.mp h
    rfl
  | worker d a =>
    simp only [Client.step, Option.ite_none_right_eq_some] at h
    obtain ⟨sh, hsh, rfl⟩ := Option.map_eq_some_iff.mp h.2
    rfl

theorem attempt_frame {a : ClientAction} (hl : LifecycleInv w) (h : w.step setup a = some w')
    {r : RunId} (hp : a.task ≠ .supervisor r) : w'.attemptOf r = w.attemptOf r := by
  by_cases hc : a.task = .run r
  · cases a with
    | startRun q =>
      cases hc
      simp only [Client.step] at h
      split at h <;> cases h
      rename_i hn
      simp [Client.attemptOf, hn, Run.new, SupervisorPc.attempt]
    | run q a =>
      cases ha : a.ofCall with
      | false => simp [ClientAction.task, ha] at hc
      | true =>
        obtain rfl : q = r := by simpa [ClientAction.task, ha] using hc
        exact (call_turn ha hl h).2.2
    | worker c a => cases a <;> cases hc
    | _ => cases hc
  · simp only [Client.attemptOf, runs_frame h hc hp]

theorem sends_frame {a : ClientAction} (h : w.step setup a = some w') {i : SendId}
    (hp : a.task ≠ .send i) : w'.sends i = w.sends i := by
  cases a with
  | startSend j job =>
    have hne : i ≠ j := fun he => hp (by rw [he]; rfl)
    simp only [Client.step] at h
    split at h <;> cases h
    exact Function.update_of_ne hne _ _
  | send j a =>
    have hne : i ≠ j := fun he => hp (by rw [he]; rfl)
    obtain ⟨snd, hsnd, h⟩ := Option.bind_eq_some_iff.mp h
    obtain ⟨out, hout, rfl⟩ := Option.map_eq_some_iff.mp h
    exact Function.update_of_ne hne _ _
  | startRun r =>
    simp only [Client.step] at h
    split at h <;> cases h
    rfl
  | run r a =>
    obtain ⟨run, hrun, h⟩ := Option.bind_eq_some_iff.mp h
    obtain ⟨out, hout, rfl⟩ := Option.map_eq_some_iff.mp h
    rfl
  | startDisconnect d =>
    simp only [Client.step] at h
    split at h <;> cases h
    rfl
  | disconnect d a =>
    obtain ⟨pc, hpc, h⟩ := Option.bind_eq_some_iff.mp h
    obtain ⟨out, hout, rfl⟩ := Option.map_eq_some_iff.mp h
    rfl
  | worker d a =>
    simp only [Client.step, Option.ite_none_right_eq_some] at h
    obtain ⟨sh, hsh, rfl⟩ := Option.map_eq_some_iff.mp h.2
    rfl

theorem attempt_unique (hl : LifecycleInv w) {r q : RunId} {c : ConnId}
    (hr : w.attemptOf r = some c) (hq : w.attemptOf q = some c) : r = q := by
  obtain ⟨run, runner, hrun, hs, -⟩ := attemptOf_eq.mp hr
  obtain ⟨run', runner', hrun', hs', -⟩ := attemptOf_eq.mp hq
  exact hl.unique r q run run' hrun hrun' (by simp [hs, SupervisorPc.rank])
    (by simp [hs', SupervisorPc.rank])

theorem attempt_created (hi : ClientInv setup w) {r : RunId} {c : ConnId}
    (h : w.attemptOf r = some c) : c < w.shared.created := by
  obtain ⟨run, runner, hrun, hs, hpc⟩ := attemptOf_eq.mp h
  exact hi.handles.runner r run runner c hrun hs hpc

theorem attempt_phase {a : ClientAction} (hr : (Client.automaton setup).Reachable w)
    (h : w.step setup a = some w') {r : RunId} {c : ConnId} (hat : w.attemptOf r = some c)
    (hp : a.task ≠ .supervisor r) :
    (w'.shared.sessions c).phase = (w.shared.sessions c).phase := by
  refine phase_frame hr h (attempt_created (clientInv_of_reachable hr) hat) fun q hq hat' => ?_
  cases attempt_unique (lifecycleInv_of_reachable hr) hat hat'
  exact hp hq

/-- A task awaits what it awaited until it takes a step itself. -/
theorem invoking_frame {a : ClientAction} (hr : (Client.automaton setup).Reachable w)
    (h : w.step setup a = some w') {p : Task} (hp : p ≠ a.task) :
    w'.invoking p = w.invoking p := by
  cases p with
  | reader c | run r | disconnect d => rfl
  | keepalive c => simp only [Client.invoking, keepalive_frame hr h hp.symm]
  | send i => simp only [Client.invoking, sends_frame h hp.symm]
  | supervisor r =>
    simp only [Client.invoking, attempt_frame (lifecycleInv_of_reachable hr) h hp.symm]
    cases hat : w.attemptOf r with
    | none => rfl
    | some c =>
      simp only [Option.bind_some, Session.waiting, attempt_phase hr h hat hp.symm]

theorem cancelShutdown_standing (sh : Shared) : sh.cancelShutdown.standing = sh.standing := by
  funext i
  simp only [Shared.standing, Shared.cancelShutdown]
  split <;> rfl

theorem AwaitTurn.shutdown {o : Option (ConnId × CallId)}
    (h : sh'.sessions = sh.sessions ∨ sh'.sessions = sh.cancelShutdown.sessions) :
    AwaitTurn poll o o sh sh' := by
  rcases h with h | h
  · exact .same o h
  · refine .congr ?_ h
    exact .quiet rfl fun i => by rw [cancelShutdown_standing]

theorem generationInv_at (hr : (Client.automaton setup).Reachable w) {c : ConnId}
    (hc : c < w.shared.created) : Session.Inv setup.deviceId (w.shared.sessions c) :=
  Session.inv_of_reachable ((clientInv_of_reachable hr).shared.sessions c hc)

theorem worker_await_turn {c : ConnId} {a : WorkerAction}
    (hr : (Client.automaton setup).Reachable w) (h : w.step setup (.worker c a) = some w') :
    AwaitTurn (ClientAction.worker c a).invokePoll (w.invoking (ClientAction.worker c a).task)
      (w'.invoking (ClientAction.worker c a).task) w.shared w'.shared := by
  simp only [Client.step, Option.ite_none_right_eq_some] at h
  obtain ⟨hc, h⟩ := h
  obtain ⟨sh, hsh, rfl⟩ := Option.map_eq_some_iff.mp h
  obtain ⟨s, hs, rfl⟩ := onSession_eq hsh
  obtain ⟨g, hg, rfl⟩ := Session.act_eq hs
  have hgen := (generationInv_at hr hc).generation
  cases a with
  | reader x =>
    have hturn : OwnTurn none none none (w.shared.sessions c).generation
        ({ w.shared.sessions c with generation := g } : Session).generation :=
      (Generation.standing_step hg hgen).turn_quiet rfl rfl none
    exact hturn.setSession
  | keepalive x =>
    have hturn : OwnTurn x.invokePoll (w.shared.sessions c).generation.pinging g.pinging
        (w.shared.sessions c).generation
        ({ w.shared.sessions c with generation := g } : Session).generation :=
      Generation.keepalive_turn hg hgen
    simpa [ClientAction.task, ClientAction.invokePoll, Client.invoking, Client.generation]
      using hturn.setSession

theorem supervisor_await_turn {r : RunId} {a : RunAction}
    (hr : (Client.automaton setup).Reachable w) (ha : a.ofCall = false)
    (h : w.step setup (.run r a) = some w') :
    AwaitTurn (ClientAction.run r a).invokePoll (w.invoking (.supervisor r))
      (w'.invoking (.supervisor r)) w.shared w'.shared := by
  have hi := clientInv_of_reachable hr
  have none_of : ∀ {v : Client}, v.attemptOf r = none → v.invoking (.supervisor r) = none :=
    fun hv => by simp [Client.invoking, hv]
  have at_ : ∀ {v : Client} {c : ConnId}, v.attemptOf r = some c →
      v.invoking (.supervisor r) = (v.shared.sessions c).waiting.map fun k => (c, k) :=
    fun hv => by simp [Client.invoking, hv]
  cases supervisor_turn ha h with
  | session c l b s ha hat hb hs he hat' =>
    have hpoll : (ClientAction.run r a).invokePoll = b.invokePoll := by
      subst ha
      cases l <;> cases hb <;> rfl
    have hturn := (Session.turn_runner (generationInv_at hr (attempt_created hi hat))
      (LoopAction.session_ofRunner hb) hs).setSession
    rw [hpoll]
    rw [at_ hat, at_ hat', he, setSession_self]
    exact hturn.congr he
  | begin config hat he hat' =>
    have hw : (w'.shared.sessions w.shared.created).waiting = none := by
      rw [he, Shared.begin]
      simp [Shared.setSession, Session.waiting, Session.new]
    rw [none_of hat, at_ hat', hw]
    refine .quiet rfl fun i => ?_
    rw [he]
    by_cases hc : i.1 = w.shared.created
    · simp only [Shared.standing, Shared.begin, hc, unborn_of_reachable hr _ (Nat.le_refl _)]
      simp [Shared.setSession, Session.new, Generation.standing, Generation.new]
    · simp only [Shared.standing, Shared.begin, setSession_of_ne w.shared _ hc]
  | shutdown hat he hat' =>
    rw [none_of hat, none_of hat']
    exact .shutdown (.inr he)
  | quiet he hat' hover =>
    have hbefore : w.invoking (.supervisor r) = none := by
      cases hat : w.attemptOf r with
      | none => exact none_of hat
      | some c =>
        obtain ⟨x, hx⟩ := hover c hat
        rw [at_ hat]
        simp [Session.waiting, hx]
    rw [hbefore, none_of hat']
    exact .same none he

/-- The task that takes a step, and the invoke that it awaits. -/
theorem await_turn {a : ClientAction} (hr : (Client.automaton setup).Reachable w)
    (h : w.step setup a = some w') :
    AwaitTurn a.invokePoll (w.invoking a.task) (w'.invoking a.task) w.shared w'.shared := by
  have hi := clientInv_of_reachable hr
  cases a with
  | startRun r =>
    simp only [Client.step] at h
    split at h <;> cases h
    exact .same none rfl
  | startDisconnect d =>
    simp only [Client.step] at h
    split at h <;> cases h
    exact .same none rfl
  | startSend i job =>
    simp only [Client.step] at h
    split at h <;> cases h
    rename_i hn
    have hbefore : w.invoking (.send i) = none := by simp [Client.invoking, hn]
    have hafter : ({ w with sends := Function.update w.sends i (some (.new job)) } :
        Client).invoking (.send i) = none := by
      simp [Client.invoking, Send.waiting, Send.new]
    simp only [ClientAction.task, hbefore, hafter]
    exact .same none rfl
  | send i a =>
    have hsend := h
    obtain ⟨snd, hsnd, h⟩ := Option.bind_eq_some_iff.mp h
    obtain ⟨⟨sh, snd'⟩, hst, rfl⟩ := Option.map_eq_some_iff.mp h
    have hsi := sendInv_of_reachable hr i snd hsnd
    have hturn := turn_send hsi (fun b hb => (generationInv_at hr
      (hi.handles.body i snd b hsnd hb).1).generation) hst
    simpa [ClientAction.task, ClientAction.invokePoll, Client.invoking, hsnd] using hturn
  | disconnect d a =>
    obtain ⟨pc, hpc, h⟩ := Option.bind_eq_some_iff.mp h
    obtain ⟨out, hout, rfl⟩ := Option.map_eq_some_iff.mp h
    exact .shutdown (disconnect_sessions (disconnect_step hout)).1
  | worker c a => exact worker_await_turn hr h
  | run r a =>
    cases ha : a.ofCall with
    | true =>
      have htask : (ClientAction.run r a).task = .run r := by simp [ClientAction.task, ha]
      rw [htask]
      exact .shutdown (call_turn ha (lifecycleInv_of_reachable hr) h).1
    | false =>
      rw [task_run ha]
      exact supervisor_await_turn hr ha h

/-- Every invoke that has not come to an end is awaited by exactly one task. -/
def Owned (w : Client) : Prop :=
  Ownership.Inv w.invoking w.standing (fun x => x.1 ≠ .dropped) fun x => x.1.Live

theorem owned_of_reachable (h : (Client.automaton setup).Reachable w) : Owned w := by
  refine h.invariant_of (fun w hw => ?_) fun w a w' hr hs hi => ?_
  · obtain ⟨millis, rfl⟩ := hw
    have hnone : ∀ p, (Client.new setup millis).invoking p = none := by
      intro p
      cases p <;> rfl
    refine ⟨fun p i hp => ?_, fun p q i hp => ?_, fun i s hs => ?_⟩
    · cases (hnone p).symm.trans hp
    · cases (hnone p).symm.trans hp
    · cases hs
  · exact hi.turn (await_turn hr hs) fun p hp => invoking_frame hr hs hp

end Maxrs
