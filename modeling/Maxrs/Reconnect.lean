import Maxrs.Exchange
import Maxrs.Incoming
import Maxrs.Relogin
import Maxrs.Shutdown
set_option autoImplicit false

/-! No loss of a connection leaves a client where it cannot come back to a connection that is
logged in. -/
namespace Maxrs

def LoginConfig.CanLogin (config : LoginConfig) : Prop :=
  config.sessionToken.isSome = true ∨
    (config.phone.isSome = true ∧ config.operator.isNone = false)

theorem LoginConfig.canLogin_of_validate {config : LoginConfig} (h : config.validate = .ok ()) :
    config.CanLogin := by
  have some_of_present : ∀ {value : Option String}, present value = true → value.isSome = true := by
    intro value hv
    cases value with
    | none => cases hv
    | some _ => rfl
  unfold validate at h
  split at h
  · rename_i hs
    exact .inl (some_of_present hs)
  · split at h
    · cases h
    · rename_i hp
      split at h
      · cases h
      · rename_i ho
        exact .inr ⟨some_of_present (by simpa using hp), by simpa using ho⟩

theorem LoginConfig.CanLogin.succeeds {config : LoginConfig} (h : config.CanLogin) :
    Succeeds ((login config).orFail afterLogin) := by
  cases ht : config.sessionToken with
  | some token => exact succeeds_token ht
  | none =>
    rcases h with h | ⟨hp, ho⟩
    · rw [ht] at h
      cases h
    · obtain ⟨phone, hp⟩ := Option.isSome_iff_exists.mp hp
      exact succeeds_sms ht hp ho

def ClientAction.goesOn : ClientAction → Bool
  | .run _ (.loop (.attempt a)) => !a.isOutside || a.isHelp
  | .run _ (.loop .slept) => true
  | .worker _ (.reader (.frame _)) => true
  | .send _ (.onInvoke (.inner .feed)) | .send _ (.onInvoke (.inner .flushed)) => true
  | .send _ (.uploaded (.ok _)) => true
  | a => !a.isOutside

theorem ClientAction.goesOn_of_inside {a : ClientAction} (h : a.isOutside = false) :
    a.goesOn = true := by
  unfold goesOn
  split
  · rename_i r b
    have hb : b.isOutside = false := h
    simp [hb]
  · rfl
  · rfl
  · rfl
  · rfl
  · rfl
  · simp [h]

variable {setup : Setup} {w w' : Client} {r : RunId} {c : ConnId}

theorem canLogin_configAfter {config : LoginConfig} (s : Session) (b : SessionAction)
    (hc : config.CanLogin) : (configAfter config s b).CanLogin := by
  unfold configAfter
  split
  · split
    · exact .inl rfl
    · exact hc
  · exact hc

def retried : Except Error Unit → Bool
  | .ok () => true
  | .error e => shouldRetryConnection e

/-- Its attempt waits and finds the connection cancelled, or has ended in a way after which the
loop goes on. -/
inductive Session.Interrupted (s : Session) : Prop where
  | waiting (a : Attempt) (hp : s.phase = .attempting a) (hpoll : a.polling = false)
      (hc : s.generation.cancelled = true)
  | ended (x : Except Error Unit) (ho : s.phase.outcome = some x) (hx : retried x = true)

theorem Session.Change.outcome {fromStr : String → Except String Packet} {s s' : Session}
    {x : Except Error Unit} (h : Session.Change fromStr s s') (ho : s.phase.outcome = some x) :
    s'.phase.outcome = some x := by
  cases h with
  | flags _ _ hp _ _ _ | issue _ _ _ _ _ hp _ _ _ _ | answer _ _ _ _ _ _ hp _ _ _
  | recv _ _ _ hp _ _ _ _ | drop _ _ _ _ hp _ _ _ =>
    rw [hp] at ho
    cases ho
  | foreign _ _ _ _ _ he =>
    subst he
    exact ho
  | offline _ hp he | cancel _ _ hp _ he | abortAll _ _ hp _ he | join _ hp _ _ he
  | clear _ _ hp _ he | takeSink _ _ hp _ he =>
    subst he
    rw [hp] at ho
    exact ho

namespace Client

theorem canLogin_of_reachable (hv : setup.loginConfig.CanLogin)
    (h : (automaton setup).Reachable w) : ∀ r run runner, w.runs r = some run →
      run.supervisor = .looping runner → runner.config.CanLogin := by
  refine h.invariant (I := fun v => ∀ r run runner, v.runs r = some run →
    run.supervisor = .looping runner → runner.config.CanLogin) ?_ ?_
  · rintro v ⟨_, rfl⟩ r run runner hr
    cases hr
  · intro v a v' hs hall r run' runner' hr hl
    rcases (client_step hs).runner_config hr hl with
      he | ⟨run, runner, hq, hm, he | ⟨c, b, s, -, -, -, he⟩⟩ <;> rw [he]
    · exact hv
    · exact hall r run runner hq hm
    · exact canLogin_configAfter _ _ (hall r run runner hq hm)

/-- Three actions cancel the shutdown token. -/
theorem shutdown_kept {a : ClientAction} (ha : a.disturbs = false) (h : w.step setup a = some w') :
    w'.shared.recovery.shutdown = w.shared.recovery.shutdown := by
  cases a with
  | startRun _ | startSend _ _ | startDisconnect _ =>
    simp only [Client.step] at h
    split at h <;> cases h
    rfl
  | run r b =>
    obtain ⟨run, -, h⟩ := Option.bind_eq_some_iff.mp h
    obtain ⟨⟨sh', run'⟩, hs, rfl⟩ := Option.map_eq_some_iff.mp h
    cases b with
    | guardCancel | supervisorCancel => cases ha
    | loop l =>
      simp only [Run.step] at hs
      split at hs
      · obtain ⟨out, hout, he⟩ := Option.map_eq_some_iff.mp hs
        cases he
        exact (runner_step hout).shutdown
      · cases hs
    | _ =>
      simp only [Run.step] at hs
      repeat' split at hs
      all_goals first
        | (cases hs; done)
        | (cases hs; rfl)
  | send i b =>
    obtain ⟨snd, -, h⟩ := Option.bind_eq_some_iff.mp h
    obtain ⟨⟨sh', snd'⟩, hs, rfl⟩ := Option.map_eq_some_iff.mp h
    exact congrArg Recovery.shutdown (send_step hs).control.recovery
  | disconnect d b =>
    obtain ⟨pc, -, h⟩ := Option.bind_eq_some_iff.mp h
    obtain ⟨⟨sh', pc'⟩, hs, rfl⟩ := Option.map_eq_some_iff.mp h
    cases b with
    | stopCancel => cases ha
    | _ =>
      simp only [DisconnectPc.step] at hs
      repeat' split at hs
      all_goals first
        | (cases hs; done)
        | (cases hs; rfl)
  | worker c b =>
    simp only [Client.step] at h
    split at h
    · obtain ⟨sh, hs, rfl⟩ := Option.map_eq_some_iff.mp h
      obtain ⟨s, -, rfl⟩ := onSession_eq hs
      rfl
    · cases h

theorem shutdown_of_stopped (h : (automaton setup).Reachable w)
    (hs : w.shared.recovery.state = .stopped) : w.shared.recovery.shutdown = true := by
  revert hs
  refine h.invariant_of (I := fun v => v.shared.recovery.state = .stopped →
    v.shared.recovery.shutdown = true) ?_ ?_
  · rintro v ⟨_, rfl⟩ hs
    cases hs
  · intro v a v' hr hstep hi hs
    have hlife := lifecycleInv_of_reachable hr
    have kept : (v'.shared.recovery.state = .stopped → v.shared.recovery.state = .stopped) →
        v'.shared.recovery.shutdown = true := fun hback =>
      (client_grows (client_step hstep) (clientInv_of_reachable hr)).shutdown (hi (hback hs))
    cases client_step hstep with
    | run q m m' sh hq hst =>
      have hrun := hlife.runs q m hq
      cases hst with
      | guardPublish x hx he =>
        subst he
        exact hrun.guard x hx
      | supervisorPublish x hx he =>
        subst he
        exact hrun.shutdown (by rw [hx]; exact Nat.le_refl 4)
      | loop n n' hn hst =>
        cases hst with
        | goto he _ _ _ | begin _ he _ | after _ _ _ _ he _ _ =>
          subst he
          exact kept id
        | session c b s _ _ _ _ he _ =>
          subst he
          refine kept fun hs => ?_
          unfold Shared.recoveryAfter at hs
          split at hs
          · rcases Recovery.connected_cases v.shared.recovery c (v.shared.isCancelled c) with
              ⟨hc, -⟩ | ⟨hc, -, -⟩ <;> rw [hc] at hs
            · exact hs
            · cases hs
          · rcases Recovery.offline_cases v.shared.recovery with ⟨hc, hst⟩ | ⟨hc, -⟩
            · exact hst
            · rw [hc] at hs
              cases hs
          · exact hs
      | guardCancel _ _ he | supervisorCancel _ _ he =>
        subst he
        rfl
      | lock _ _ he | reject _ _ he | closed _ _ he | spawn _ _ he | join _ _ _ he
      | dropTrying _ he | dropJoining _ he | start _ he | loopEnd _ _ _ _ he
      | cancelHandlers _ _ he | unlock _ _ he =>
        subst he
        exact kept id
    | disconnect d pc pc' sh hd hst =>
      have hdis := hlife.disconnects d pc hd
      cases hst with
      | stopCancel _ he =>
        subst he
        rfl
      | stopPublish hp he =>
        subst he
        exact hdis.shutdown (by rw [hp]; exact Nat.le_refl 1)
      | lock _ _ he | cancelHandlers _ he | unlock _ he | drop _ he =>
        subst he
        exact kept id
    | send i snd snd' sh _ hst => exact kept fun hs => hst.control.recovery ▸ hs
    | worker c b s _ _ => exact kept id
    | _ => exact kept id

abbrev CanGoOn (setup : Setup) (w : Client) (P : Client → Prop) : Prop :=
  (automaton setup).CanReach (fun _ a => a.goesOn = true) w P

abbrev CanRecover (setup : Setup) (w : Client) (P : Client → Prop) : Prop :=
  (automaton setup).CanReach (fun _ a => a.goesOn = true ∧ a.disturbs = false) w P

theorem CanTear.goesOn {P : Client → Prop} (h : CanTear setup w P)
    (hw : (automaton setup).Reachable w) :
    CanRecover setup w fun v => P v ∧
      v.shared.recovery.shutdown = w.shared.recovery.shutdown ∧
      w.shared.created ≤ v.shared.created := by
  obtain ⟨v, hp, hP⟩ := h
  have hkeep : (automaton setup).Reachable v ∧
      v.shared.recovery.shutdown = w.shared.recovery.shutdown ∧
      w.shared.created ≤ v.shared.created := by
    refine hp.preserves (I := fun v => (automaton setup).Reachable v ∧
      v.shared.recovery.shutdown = w.shared.recovery.shutdown ∧
      w.shared.created ≤ v.shared.created) ?_ ⟨hw, rfl, Nat.le_refl _⟩
    rintro u a u' ha hs ⟨hr, hsh, hcr⟩
    exact ⟨hr.tail hs, (shutdown_kept ha.2 hs).trans hsh,
      hcr.trans (client_grows (client_step hs) (clientInv_of_reachable hr)).created⟩
  exact ⟨v, hp.weaken fun _ _ ha => ⟨ClientAction.goesOn_of_inside ha.1, ha.2⟩, hP, hkeep.2⟩

theorem session_goesOn {s : Session} (hat : w.attemptOf r = some c) (hc : c < w.shared.created)
    (hp : (Session.automaton setup.fromStr setup.deviceId).Path (fun _ b => b.goesOn = true)
      (w.shared.sessions c) s) :
    CanRecover setup w fun v => v.attemptOf r = some c ∧
      v.shared = w.shared.setSession c s := by
  induction hp with
  | refl =>
    refine .here ⟨hat, ?_⟩
    rw [Shared.setSession, Function.update_eq_self]
  | tail hpath hb hs ih =>
    rename_i s s' b
    refine ih.bind fun v _ hv => ?_
    obtain ⟨hvat, hvs⟩ := hv
    have hself : v.shared.sessions c = s := by
      rw [hvs]
      exact setSession_self ..
    have htwice : ∀ s', v.shared.setSession c s' = w.shared.setSession c s' := by
      intro s'
      rw [hvs, Shared.setSession, Shared.setSession, Shared.setSession, Function.update_idem]
    have hs' : (v.shared.sessions c).step setup.fromStr b = some s' := hself ▸ hs
    by_cases hrun : b.ofRunner = true
    · have hans : v.shared.Answers c b := by
        cases b with
        | attempt a =>
          cases a with
          | connected _ | dispatchCheck _ => cases hb
          | _ => trivial
        | _ => trivial
      have hrec : v.shared.recoveryAfter c b = v.shared.recovery := by
        cases b with
        | attempt a => cases a <;> first | rfl | cases hb
        | close a => cases hb
        | _ => rfl
      have hgo : (ClientAction.run r (.loop b.loop)).goesOn = true := by
        cases b with
        | attempt a => cases a <;> first | exact hb | cases hb
        | poll => rfl
        | _ => first | cases hb | cases hrun
      obtain ⟨v', hstep, hat', hv'⟩ := step_session hvat hrun hans hs'
      refine .step ⟨hgo, rfl⟩ hstep (.here ⟨hat', ?_⟩)
      rw [hv', hrec]
      exact htwice s'
    · cases b with
      | worker a =>
        have hcv : c < v.shared.created := by
          rw [hvs]
          exact hc
        have hstep : v.step setup (.worker c a) =
            some { v with shared := v.shared.setSession c s' } := by
          have hact : (v.shared.sessions c).act setup.fromStr a.toGeneration = some s' := hs'
          simp only [Client.step, hcv, if_true, Shared.onSession, hact, Option.map_some]
        have hgo : (ClientAction.worker c a).goesOn = true := by
          cases a with
          | reader a => cases a <;> first | rfl | exact hb
          | keepalive a => exact hb
        exact .step ⟨hgo, rfl⟩ hstep (.here ⟨hvat, htwice s'⟩)
      | sender _ | shutdown => cases hb
      | _ => exact absurd rfl hrun

def ReadyFrom (n : ConnId) (w : Client) : Prop :=
  ∃ c, n ≤ c ∧ w.shared.recovery.state = .ready c ∧ w.shared.isCancelled c = false

structure Fresh (r : RunId) (c : ConnId) (w : Client) : Prop where
  attempt : w.attemptOf r = some c
  published : w.shared.recovery.state = .ready c
  isOpen : (w.generation c).Open
  registry : (w.generation c).attachmentRegistry = .new

def FreshFrom (r : RunId) (n : ConnId) (w : Client) : Prop := ∃ c, n ≤ c ∧ Fresh r c w

theorem FreshFrom.ready {r : RunId} {n : ConnId} (h : FreshFrom r n w) : ReadyFrom n w := by
  obtain ⟨c, hc, hf⟩ := h
  exact ⟨c, hc, hf.published, hf.isOpen.live⟩

/-- The runner of `r` is at work, nobody shuts the client down, and its next connection is `n` or
a later one. -/
structure Running (setup : Setup) (r : RunId) (n : ConnId) (runner : Runner) (w : Client) :
    Prop where
  reachable : (automaton setup).Reachable w
  looping : ∃ run, w.runs r = some run ∧ run.supervisor = .looping runner
  running : w.shared.recovery.shutdown = false
  next : n ≤ w.shared.created

variable {n : ConnId} {runner : Runner} {P : Client → Prop}

theorem Running.goto (a : LoopAction) {runner' : Runner} (hw : Running setup r n runner w)
    (ha : (ClientAction.run r (.loop a)).goesOn = true)
    (h : runner.step setup w.shared a = some (w.shared, runner'))
    (hrest : ∀ v, Running setup r n runner' v → CanRecover setup v P) : CanRecover setup w P := by
  obtain ⟨run, hr, hl⟩ := hw.looping
  have hrun : run.step setup w.shared r (.loop a) =
      some (w.shared, { run with supervisor := .looping runner' }) := by
    simp only [Run.step, hl, h, Option.map_some]
  have hs := step_run hr hrun
  exact .step ⟨ha, rfl⟩ hs (hrest _ ⟨hw.reachable.tail (a := .run r (.loop a)) hs,
    ⟨_, Function.update_self .., rfl⟩, hw.running, hw.next⟩)

theorem connected_fresh {next : Except Error Unit → AttemptScript (Except Error Unit)}
    {pinger : KeepalivePc} (hw : (automaton setup).Reachable w) (hat : w.attemptOf r = some c)
    (hrun : w.shared.recovery.shutdown = false)
    (htalk : (w.shared.sessions c).Talking (.call .connected next) pinger) :
    ∃ v, w.step setup (.run r (.loop .connected)) = some v ∧ Fresh r c v := by
  have hlive : w.shared.isCancelled c = false := htalk.isOpen.live
  have hstate : w.shared.recovery.state ≠ .stopped := by
    intro hst
    cases hrun.symm.trans (shutdown_of_stopped hw hst)
  have hcon : w.shared.recovery.connected c (w.shared.isCancelled c) =
      (w.shared.recovery.publish (.ready c), .ok ()) := by
    rcases Recovery.connected_cases w.shared.recovery c (w.shared.isCancelled c) with
      ⟨-, hst | hca⟩ | ⟨h, -⟩
    · exact absurd hst hstate
    · cases hlive.symm.trans hca
    · exact h
  have hans : w.shared.Answers c (.attempt (.connected (.ok ()))) := by
    show _ = _
    rw [hcon]
  have hstep : (w.shared.sessions c).step setup.fromStr (.attempt (.connected (.ok ()))) =
      some ((w.shared.sessions c).answer
        { rest := .call .connected next, waiting := none, polling := true, checked := false }
        .connected (.ok ()) next) := by
    simp only [Session.step, htalk.phase, if_true, Session.stepAttempt]
  obtain ⟨v, hv, hvat, hvs⟩ := step_session hat rfl hans hstep
  have hgen : v.generation c = w.generation c := by
    have hself : v.shared.sessions c = (w.shared.sessions c).answer
        { rest := .call .connected next, waiting := none, polling := true, checked := false }
        .connected (.ok ()) next := by
      rw [hvs]
      exact setSession_self ..
    rw [Client.generation, hself]
    rfl
  refine ⟨v, hv, hvat, ?_, hgen ▸ htalk.isOpen, hgen ▸ htalk.registry⟩
  rw [hvs]
  show (w.shared.recovery.connected _ _).1.state = _
  rw [hcon]
  rfl

/-- The next connection is made, logged in and published. -/
theorem Running.creates (hreads : Reads loginAnswers setup.fromStr)
    (hv : setup.loginConfig.CanLogin)
    (hw : Running setup r n runner w) (hp : runner.pc = .create) :
    CanRecover setup w (FreshFrom r n) := by
  obtain ⟨run, hr, hl⟩ := hw.looping
  have hlogin := canLogin_of_reachable hv hw.reachable r run runner hr hl
  let v : Client :=
    { w with
      shared := w.shared.begin setup runner.config
      runs := Function.update w.runs r (some
        { run with supervisor := .looping (runner.goto (.attempt w.shared.created)) }) }
  have hs : w.step setup (.run r (.loop .beginCreate)) = some v := by
    refine step_run hr ?_
    simp only [Run.step, hl, Runner.step, hp, Option.map_some]
    rfl
  have hat : v.attemptOf r = some w.shared.created :=
    attemptOf_eq.mpr ⟨_, _, Function.update_self .., rfl, rfl⟩
  have hnew : v.shared.sessions w.shared.created =
      .new setup.deviceId runner.config false := by
    show Function.update _ _ _ _ = _
    rw [Function.update_self, hw.running]
  have hmade : (automaton setup).Reachable v :=
    hw.reachable.tail (a := .run r (.loop .beginCreate)) hs
  refine .step (a := .run r (.loop .beginCreate)) ⟨rfl, rfl⟩ hs ?_
  obtain ⟨s, hpath, next, pinger, htalk⟩ :=
    Session.new_succeeds setup.deviceId hreads hlogin.succeeds
  rw [← hnew] at hpath
  refine (session_goesOn hat (Nat.lt_succ_self _) hpath).bind fun u hu hus => ?_
  obtain ⟨huat, hush⟩ := hus
  have hself : u.shared.sessions w.shared.created = s := by
    rw [hush]
    exact setSession_self ..
  have hrunning : u.shared.recovery.shutdown = false := by
    rw [hush]
    exact hw.running
  obtain ⟨x, hx, hfresh⟩ :=
    connected_fresh (hmade.path hu.leads) huat hrunning (hself ▸ htalk)
  exact .step (a := .run r (.loop .connected)) ⟨rfl, rfl⟩ hx
    (.here ⟨w.shared.created, hw.next, hfresh⟩)

theorem Running.begins (hreads : Reads loginAnswers setup.fromStr) (hv : setup.loginConfig.CanLogin)
    (hw : Running setup r n runner w) (hp : runner.pc = .begin) :
    CanRecover setup w (FreshFrom r n) :=
  hw.goto .beginCheck rfl
    (by simp only [Runner.step, hp, hw.running, Bool.false_eq_true, if_false]; rfl)
    fun _ hu => hu.creates hreads hv rfl

theorem Running.starts (hreads : Reads loginAnswers setup.fromStr) (hv : setup.loginConfig.CanLogin)
    (hw : Running setup r n runner w) (hp : runner.pc = .top) :
    CanRecover setup w (FreshFrom r n) :=
  hw.goto .checkTop rfl
    (by simp only [Runner.step, hp, hw.running, Bool.false_eq_true, if_false]; rfl)
    fun _ hu => hu.begins hreads hv rfl

theorem Running.sleeps {polled : Bool} (hreads : Reads loginAnswers setup.fromStr)
    (hv : setup.loginConfig.CanLogin) (hw : Running setup r n runner w)
    (hp : runner.pc = .sleeping polled) : CanRecover setup w (FreshFrom r n) :=
  hw.goto .sleepPoll rfl
    (by simp only [Runner.step, hp, hw.running, Bool.false_eq_true, if_false]; rfl)
    fun _ hu => hu.goto .slept rfl (by simp only [Runner.step, Runner.goto]; rfl)
      fun _ hx => hx.starts hreads hv rfl

theorem outcome_kept {x : Except Error Unit} (hw : (automaton setup).Reachable w)
    (hp : (automaton setup).Leads w w') (hc : c < w.shared.created)
    (ho : (w.shared.sessions c).phase.outcome = some x) :
    (w'.shared.sessions c).phase.outcome = some x := by
  obtain ⟨-, hl⟩ := session_leads hw hp hc
  exact hl.preserves (fun _ _ _ _ hs hi => (Session.change_step hs).outcome hi) ho

theorem invokes_kept {s : Session} {sh : Shared} (c : ConnId)
    (hs : sh.sessions = (w.shared.setSession c s).sessions)
    (hi : s.generation.invokes = (w.generation c).invokes) (d : ConnId) :
    (sh.sessions d).generation.invokes = (w.generation d).invokes := by
  rw [hs]
  by_cases hd : d = c
  · subst hd
    rw [setSession_self]
    exact hi
  · rw [setSession_of_ne _ _ hd]
    rfl

def SeveredFrom (setup : Setup) (r : RunId) (c : ConnId) (x : Except Error Unit) (w v : Client) :
    Prop :=
  (Severed setup c v ∧ v.attemptOf r = some c ∧
    (v.shared.sessions c).phase.outcome = some x) ∧
    v.shared.created = w.shared.created ∧
    ∀ d, (v.generation d).invokes = (w.generation d).invokes

theorem CanTear.cancels {x : Except Error Unit} (hw : (automaton setup).Reachable w)
    (hat : w.attemptOf r = some c) (hp : (w.shared.sessions c).phase = .cancelling x) :
    CanTear setup w (SeveredFrom setup r c x w) := by
  have hs : (w.shared.sessions c).step setup.fromStr (.close .cancel) = some
      { w.shared.sessions c with
        generation := (w.shared.sessions c).generation.cancel
        phase := .aborting x } := by
    simp only [Session.step, Session.stepClose, hp]
    rfl
  have hans : w.shared.Answers c (.close .cancel) := trivial
  obtain ⟨u, hu, huat, hus⟩ := step_session hat rfl hans hs
  have hself := (congrArg (fun sh => sh.sessions c) hus).trans (setSession_self w.shared c _)
  have hur : (automaton setup).Reachable u :=
    hw.tail (a := .run r (.loop (.close .cancel))) hu
  have hc : c < u.shared.created := attempt_created (clientInv_of_reachable hur) huat
  refine .step (a := .run r (.loop (.close .cancel))) ⟨rfl, rfl⟩ hu
    (.here ⟨⟨⟨hur, hc, ?_⟩, huat, ?_⟩, by rw [hus]; rfl, ?_⟩)
  · rw [Shared.isCancelled, hself]
    rfl
  · rw [hself]
    rfl
  · exact invokes_kept c (congrArg Shared.sessions hus) rfl

theorem CanTear.severs {x : Except Error Unit} (hw : (automaton setup).Reachable w)
    (hat : w.attemptOf r = some c) (ho : (w.shared.sessions c).phase.outcome = some x) :
    CanTear setup w (SeveredFrom setup r c x w) := by
  have hcreated := attempt_created (clientInv_of_reachable hw) hat
  by_cases hc : w.shared.isCancelled c = true
  · exact .here ⟨⟨⟨hw, hcreated, hc⟩, hat, ho⟩, rfl, fun _ => rfl⟩
  · have early : (w.shared.sessions c).phase.rank < 3 := by
      refine Nat.lt_of_not_le fun h3 => hc ?_
      have hi := Session.inv_of_reachable ((clientInv_of_reachable hw).shared.sessions c hcreated)
      exact hi.tasks.cancelled h3
    cases hp : (w.shared.sessions c).phase with
    | attempting a =>
      rw [hp] at ho
      cases ho
    | offline y =>
      rw [hp] at ho
      cases ho
      have hs : (w.shared.sessions c).step setup.fromStr (.close .offline) = some
          { w.shared.sessions c with phase := .cancelling x } := by
        simp only [Session.step, Session.stepClose, hp]
      have hans : w.shared.Answers c (.close .offline) := trivial
      obtain ⟨u, hu, huat, hus⟩ := step_session hat rfl hans hs
      have hself := (congrArg (fun sh => sh.sessions c) hus).trans (setSession_self w.shared c _)
      refine .step (a := .run r (.loop (.offline 0))) ⟨rfl, rfl⟩ hu ?_
      have hsessions : u.shared.sessions = (w.shared.setSession c
          { w.shared.sessions c with phase := .cancelling x }).sessions := by rw [hus]
      have hsame : ∀ d, (u.generation d).invokes = (w.generation d).invokes :=
        invokes_kept c hsessions rfl
      refine (CanTear.cancels (hw.tail (a := .run r (.loop (.offline 0))) hu) huat
        (by rw [hself])).mono fun v hv => ?_
      exact ⟨hv.1, hv.2.1.trans (by rw [hus]; rfl), fun d => (hv.2.2 d).trans (hsame d)⟩
    | cancelling y =>
      rw [hp] at ho
      cases ho
      exact .cancels hw hat hp
    | _ =>
      rw [hp] at early
      exact absurd early (by simp [Phase.rank])

theorem Running.retries {x : Except Error Unit} (hreads : Reads loginAnswers setup.fromStr)
    (hv : setup.loginConfig.CanLogin) (hw : Running setup r n runner w)
    (hat : w.attemptOf r = some c) (ho : (w.shared.sessions c).phase.outcome = some x)
    (hx : retried x = true) : CanRecover setup w (FreshFrom r n) := by
  have torn : CanTear setup w fun v => TearingAt r c 7 v ∧
      (v.shared.sessions c).phase.outcome = some x := by
    refine (CanTear.severs hw.reachable hat ho).bind fun v _ hend => ?_
    obtain ⟨⟨hsev, hvat, hvo⟩, -, -⟩ := hend
    refine (CanTear.torn hsev hvat).bind fun u hu huat => .here ⟨huat, ?_⟩
    exact outcome_kept hsev.reachable hu.leads hsev.created hvo
  refine (torn.goesOn hw.reachable).bind fun v hpath hend => ?_
  obtain ⟨⟨hvat, hvo⟩, hshut, hnext⟩ := hend
  obtain ⟨run, runner', hr, hl, hp⟩ := attemptOf_eq.mp hvat.1
  have hrun : Running setup r n runner' v :=
    ⟨hw.reachable.path hpath.leads, ⟨run, hr, hl⟩, hshut.trans hw.running, hw.next.trans hnext⟩
  obtain ⟨y, hy⟩ := hvat.result
  have hyx : y = x := by
    unfold Session.result at hy
    split at hy
    · rename_i hover
      rw [hover] at hvo
      cases hy
      cases hvo
      rfl
    · cases hy
  subst hyx
  have hafter : runner'.step setup v.shared .after = some (v.shared,
      { runner' with delay := nextDelay runner'.delay, pc := .sleeping false }) := by
    simp only [Runner.step, hp, hy, Option.map_some, hrun.running, Bool.false_eq_true, if_false]
    cases y with
    | ok _ => rfl
    | error e =>
      have he : shouldRetryConnection e = true := hx
      simp only [he, if_true]
  exact hrun.goto .after rfl hafter fun u hu => hu.sleeps hreads hv rfl

def Recovers (w : Client) (runner : Runner) : Prop :=
  match runner.pc with
  | .attempt c => (w.shared.sessions c).Interrupted
  | .finished _ => False
  | _ => True

theorem Running.recovers (hreads : Reads loginAnswers setup.fromStr)
    (hv : setup.loginConfig.CanLogin)
    (hw : Running setup r n runner w) (hrec : Recovers w runner) :
    CanRecover setup w (FreshFrom r n) := by
  obtain ⟨run, hr, hl⟩ := hw.looping
  unfold Recovers at hrec
  cases hp : runner.pc with
  | top => exact hw.starts hreads hv hp
  | begin => exact hw.begins hreads hv hp
  | create => exact hw.creates hreads hv hp
  | sleeping polled => exact hw.sleeps hreads hv hp
  | finished x =>
    rw [hp] at hrec
    exact hrec.elim
  | attempt c =>
    rw [hp] at hrec
    have hon : w.attemptOf r = some c := attemptOf_eq.mpr ⟨run, runner, hr, hl, hp⟩
    have hc := attempt_created (clientInv_of_reachable hw.reachable) hon
    cases hrec with
    | ended x ho hx => exact hw.retries hreads hv hon ho hx
    | waiting a hpa hpoll hcan =>
      have hsev : Severed setup c w := ⟨hw.reachable, hc, hcan⟩
      refine ((CanTear.dropped hsev hon hpa hpoll).goesOn hw.reachable).bind
        fun v hpath hend => ?_
      obtain ⟨⟨hvat, hvp⟩, hshut, hnext⟩ := hend
      obtain ⟨run', runner', hr', hl', -⟩ := attemptOf_eq.mp hvat
      have hrun' : Running setup r n runner' v :=
        ⟨hw.reachable.path hpath.leads, ⟨run', hr', hl'⟩, hshut.trans hw.running,
          hw.next.trans hnext⟩
      exact hrun'.retries hreads hv hvat (by rw [hvp]; rfl) rfl

/-- A connection that is lost is not the end: as long as nobody shuts the client down, wherever
`run_loop` stands between two attempts or in the loss of one, and whatever the other calls do, a
server that answers brings it to a later connection that is logged in and published. -/
theorem reconnects {run : Run} (hreads : Reads loginAnswers setup.fromStr)
    (hvalid : setup.loginConfig.validate = .ok ()) (hw : (automaton setup).Reachable w)
    (hrun : w.shared.recovery.shutdown = false) (hr : w.runs r = some run)
    (hl : run.supervisor = .looping runner) (hrec : Recovers w runner) :
    CanRecover setup w (ReadyFrom w.shared.created) := by
  have hat : Running setup r w.shared.created runner w :=
    ⟨hw, ⟨run, hr, hl⟩, hrun, Nat.le_refl _⟩
  exact (hat.recovers hreads (LoginConfig.canLogin_of_validate hvalid) hrec).mono
    fun _ h => h.ready

/-- A decoder that knows the frames of the sample, and goes by the length of any other text. -/
def sampleRead (answers : List (Nat × Value)) (other : Except String Packet) (text : String) :
    Except String Packet :=
  match sampleSetup.fromStr text with
  | .ok packet => .ok packet
  | .error _ =>
    match answers[text.length % (answers.length + 1)]? with
    | some (opcode, answer) =>
      .ok (Packet.response (text.length / (answers.length + 1) - 6) opcode answer)
    | none => other

theorem sampleRead_of_length {answers : List (Nat × Value)} {other : Except String Packet}
    {text : String} (h : 6 ≤ text.length) : sampleRead answers other text =
      match answers[text.length % (answers.length + 1)]? with
      | some (opcode, answer) =>
        .ok (Packet.response (text.length / (answers.length + 1) - 6) opcode answer)
      | none => other := by
  have hlong : ∀ name : String, name.length < 6 → text ≠ name := by
    rintro name hn rfl
    omega
  have hother : sampleSetup.fromStr text = .error text := by
    simp only [sampleSetup]
    split
    · exact absurd rfl (hlong "init" (by decide))
    · exact absurd rfl (hlong "login" (by decide))
    · exact absurd rfl (hlong "sent" (by decide))
    · exact absurd rfl (hlong "own" (by decide))
    · exact absurd rfl (hlong "hello" (by decide))
    · rfl
  rw [sampleRead, hother]

theorem sampleRead_reads {answers known : List (Nat × Value)} {other : Except String Packet}
    (hknown : ∀ a ∈ known, a ∈ answers) : Reads known (sampleRead answers other) := by
  intro seq opcode answer _ ha
  obtain ⟨k, hk, hget⟩ := List.mem_iff_getElem.mp (hknown _ ha)
  let n := answers.length + 1
  refine ⟨String.ofList (List.replicate ((seq + 6) * n + k) 'x'), ?_⟩
  have hlen : (String.ofList (List.replicate ((seq + 6) * n + k) 'x')).length =
      (seq + 6) * n + k := by simp
  have hkn : k < n := Nat.lt_succ_of_lt hk
  have hn : 0 < n := Nat.succ_pos _
  have hlong : 6 ≤ (seq + 6) * n + k := by
    have hmul : (seq + 6) * 1 ≤ (seq + 6) * n := Nat.mul_le_mul_left _ hn
    omega
  have hmod : ((seq + 6) * n + k) % n = k := by
    rw [Nat.mul_comm, Nat.mul_add_mod, Nat.mod_eq_of_lt hkn]
  have hdiv : ((seq + 6) * n + k) / n - 6 = seq := by
    rw [Nat.mul_comm, Nat.mul_add_div hn, Nat.div_eq_of_lt hkn]
    omega
  rw [sampleRead_of_length (by rw [hlen]; exact hlong), hlen, hmod, hdiv,
    List.getElem?_eq_getElem hk, hget]

def sampleReading : Setup :=
  { sampleSetup with fromStr := sampleRead loginAnswers (.error "") }

/-- The server hangs up before it has answered the first request. -/
theorem reconnects_hangup : ∃ w, (automaton sampleReading).Reachable w ∧
    w.shared.isCancelled 0 = true ∧ w.shared.created = 1 ∧
    CanRecover sampleReading w (ReadyFrom 1) := by
  obtain ⟨w, hw, hc, hn, hs, run, runner, hr, hl, a, hp, hphase, hpoll⟩ :
      ∃ w, (automaton sampleReading).exec (new sampleReading 0)
        (sampleOpening.take 20 ++ [.run 0 (.loop .park), .worker 0 (.reader (.frame none))]) =
          some w ∧ w.shared.isCancelled 0 = true ∧ w.shared.created = 1 ∧
        w.shared.recovery.shutdown = false ∧
        ∃ run runner, w.runs 0 = some run ∧ run.supervisor = .looping runner ∧
        ∃ a, runner.pc = .attempt 0 ∧ (w.shared.sessions 0).phase = .attempting a ∧
          a.polling = false :=
    ⟨_, rfl, rfl, rfl, rfl, _, _, rfl, rfl, _, rfl, rfl, rfl⟩
  have hreach : (automaton sampleReading).Reachable w := ⟨_, ⟨0, rfl⟩, Automaton.exec_leads hw⟩
  have hreads : Reads loginAnswers sampleReading.fromStr := sampleRead_reads fun _ h => h
  have hrec : Recovers w runner := by
    unfold Recovers
    rw [hp]
    exact .waiting a hphase hpoll hc
  have hgo := reconnects hreads rfl hreach hs hr hl hrec
  rw [hn] at hgo
  exact ⟨w, hreach, hc, hn, hgo⟩

end Client

end Maxrs
