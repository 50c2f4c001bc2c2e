import Maxrs.ClientStep
import Maxrs.SessionWire
set_option autoImplicit false

/-! What holds of a client between any two of its steps. -/
namespace Maxrs

structure Shared.Grows (sh sh' : Shared) : Prop where
  created : sh.created ≤ sh'.created
  generation : ∀ c, c < sh.created →
    Generation.Grows (sh.sessions c).generation (sh'.sessions c).generation
  did : ∀ c, c < sh.created → ∀ op r, Did (sh.sessions c).trace op r →
    Did (sh'.sessions c).trace op r
  shutdown : sh.recovery.shutdown = true → sh'.recovery.shutdown = true
  stopped : sh.recovery.state = .stopped → sh'.recovery.state = .stopped
  handlers : sh.handlerShutdown = true → sh'.handlerShutdown = true

/-- The sessions are sessions, the tokens follow the one of the client, and only a session that
its attempt has published is there to be handed out. -/
structure SharedInv (setup : Setup) (sh : Shared) : Prop where
  sessions : ∀ c, c < sh.created →
    (Session.automaton setup.fromStr setup.deviceId).Reachable (sh.sessions c)
  tokens : sh.recovery.shutdown = true → ∀ c, c < sh.created → sh.isCancelled c = true
  ready : ∀ c, sh.recovery.state = .ready c →
    c < sh.created ∧ isPublished (sh.sessions c).trace = true

structure HandlesInv (w : Client) : Prop where
  runner : ∀ r run runner c, w.runs r = some run → run.supervisor = .looping runner →
    runner.pc = .attempt c → c < w.shared.created
  checking : ∀ i snd c seen, w.sends i = some snd →
    snd.pc = .current (.checking (.ready c) seen) →
    c < w.shared.created ∧ isPublished (w.shared.sessions c).trace = true
  body : ∀ i snd b, w.sends i = some snd → snd.pc = .body b →
    b.connection < w.shared.created ∧
      isPublished (w.shared.sessions b.connection).trace = true

variable {setup : Setup} {sh sh' : Shared} {w w' : Client}

theorem Shared.Grows.published {c : ConnId} (h : sh.Grows sh')
    (hp : c < sh.created ∧ isPublished (sh.sessions c).trace = true) :
    c < sh'.created ∧ isPublished (sh'.sessions c).trace = true :=
  ⟨Nat.lt_of_lt_of_le hp.1 h.created,
    isPublished_iff.mpr (h.did c hp.1 _ _ (isPublished_iff.mp hp.2))⟩

@[simp] theorem setSession_self (sh : Shared) (c : ConnId) (s : Session) :
    (sh.setSession c s).sessions c = s := by simp [Shared.setSession]

theorem setSession_of_ne (sh : Shared) {c d : ConnId} (s : Session) (h : d ≠ c) :
    (sh.setSession c s).sessions d = sh.sessions d := by
  simp [Shared.setSession, Function.update_of_ne h]

@[simp] theorem setSession_created (sh : Shared) (c : ConnId) (s : Session) :
    (sh.setSession c s).created = sh.created := rfl

theorem cancelShutdown_session {c : ConnId} (hc : c < sh.created) :
    sh.cancelShutdown.sessions c =
      { sh.sessions c with generation := (sh.sessions c).generation.cancel } := by
  simp [Shared.cancelShutdown, hc]

theorem recoveryAfter_shutdown (sh : Shared) (c : ConnId) (b : SessionAction) :
    (sh.recoveryAfter c b).shutdown = sh.recovery.shutdown := by
  unfold Shared.recoveryAfter
  split <;> simp

theorem recoveryAfter_stopped {c : ConnId} {b : SessionAction}
    (h : sh.recovery.state = .stopped) : (sh.recoveryAfter c b).state = .stopped := by
  unfold Shared.recoveryAfter
  split
  · rw [Recovery.connected_stopped c _ h]
    exact h
  · rw [Recovery.offline_stopped h]
    exact h
  · exact h

theorem recoveryAfter_ready {c d : ConnId} {b : SessionAction}
    (h : (sh.recoveryAfter c b).state = .ready d) (ha : sh.Answers c b) :
    sh.recovery.state = .ready d ∨
      (d = c ∧ b = .attempt (.connected (.ok ())) ∧ sh.isCancelled c = false) := by
  unfold Shared.recoveryAfter at h
  split at h
  · rename_i r
    rcases sh.recovery.connected_cases c (sh.isCancelled c) with ⟨he, _⟩ | ⟨he, _, hn⟩
    · rw [he] at h
      exact .inl h
    · rw [he] at h
      simp only [Shared.Answers, he] at ha
      simp only [Recovery.publish_state, RecoveryState.ready.injEq] at h
      exact .inr ⟨h.symm, by rw [ha], hn⟩
  · rcases sh.recovery.offline_cases with ⟨he, _⟩ | ⟨he, _⟩
    · rw [he] at h
      exact .inl h
    · rw [he] at h
      cases h
  · exact .inl h

theorem connected_trace {fromStr : String → Except String Packet} {s s' : Session}
    {r : Except Error Unit} (h : s.step fromStr (.attempt (.connected r)) = some s') :
    Did s'.trace .connected r := by
  simp only [Session.step] at h
  split at h
  · split at h
    · simp only [Session.stepAttempt] at h
      split at h <;> cases h
      exact did_snoc.mpr (.inr rfl)
    · cases h
  · cases h

theorem shared_grows_change (h : sh.Change setup sh') (hi : SharedInv setup sh) :
    sh.Grows sh' := by
  cases h with
  | session c b s hc hs ha he =>
    subst he
    have hch := Session.change_step hs
    refine ⟨Nat.le_refl _, fun d hd => ?_, fun d hd op r hdid => ?_, fun hsd => ?_,
      recoveryAfter_stopped, id⟩
    · by_cases hdc : d = c
      · subst hdc
        show Generation.Grows _ ((sh.setSession d s).sessions d).generation
        rw [setSession_self]
        exact hch.grows (Session.inv_of_reachable (hi.sessions d hd)).generation
      · show Generation.Grows _ ((sh.setSession c s).sessions d).generation
        rw [setSession_of_ne sh s hdc]
        exact .refl _
    · show Did ((sh.setSession c s).sessions d).trace op r
      by_cases hdc : d = c
      · subst hdc
        rw [setSession_self]
        exact hch.did hdid
      · rw [setSession_of_ne sh s hdc]
        exact hdid
    · exact (recoveryAfter_shutdown sh c b).trans hsd
  | begin config he =>
    subst he
    have old : ∀ d, d < sh.created → (sh.begin setup config).sessions d = sh.sessions d :=
      fun d hd => setSession_of_ne sh _ (Nat.ne_of_lt hd)
    exact ⟨Nat.le_succ _, fun d hd => by rw [old d hd]; exact .refl _,
      fun d hd _ _ h => by rw [old d hd]; exact h, id, id, id⟩
  | cancelShutdown he =>
    subst he
    refine ⟨Nat.le_refl _, fun d hd => ?_, fun d hd _ _ h => ?_, fun _ => rfl, id, id⟩
    · have hstep : (sh.sessions d).generation.step setup.fromStr .cancel =
          some (sh.sessions d).generation.cancel := rfl
      rw [cancelShutdown_session hd]
      exact Generation.grows_step hstep (Session.inv_of_reachable (hi.sessions d hd)).generation
    · rw [cancelShutdown_session hd]
      exact h
  | publishStopped he =>
    subst he
    exact ⟨Nat.le_refl _, fun _ _ => .refl _, fun _ _ _ _ => id, id, fun _ => rfl, id⟩
  | handlers he =>
    subst he
    exact ⟨Nat.le_refl _, fun _ _ => .refl _, fun _ _ _ _ => id, id, id, fun _ => rfl⟩
  | lock _ he | cid _ he | quiet he =>
    subst he
    exact ⟨Nat.le_refl _, fun _ _ => .refl _, fun _ _ _ _ => id, id, id, id⟩

theorem sharedInv_change (h : sh.Change setup sh') (hi : SharedInv setup sh) :
    SharedInv setup sh' := by
  have hgrow := shared_grows_change h hi
  cases h with
  | session c b s hc hs ha he =>
    subst he
    refine ⟨fun d hd => ?_, fun hsd d hd => ?_, fun d hd => ?_⟩
    · show Automaton.Reachable _ ((sh.setSession c s).sessions d)
      by_cases hdc : d = c
      · subst hdc
        rw [setSession_self]
        exact (hi.sessions d hd).tail hs
      · rw [setSession_of_ne sh s hdc]
        exact hi.sessions d hd
    · rw [recoveryAfter_shutdown] at hsd
      exact (hgrow.generation d hd).cancelled (hi.tokens hsd d hd)
    · rcases recoveryAfter_ready hd ha with hold | ⟨rfl, rfl, -⟩
      · exact hgrow.published (hi.ready d hold)
      · refine ⟨hc, isPublished_iff.mpr ?_⟩
        show Did ((sh.setSession d s).sessions d).trace _ _
        rw [setSession_self]
        exact connected_trace hs
  | begin config he =>
    subst he
    have old : ∀ d, d < sh.created → (sh.begin setup config).sessions d = sh.sessions d :=
      fun d hd => setSession_of_ne sh _ (Nat.ne_of_lt hd)
    have new : (sh.begin setup config).sessions sh.created =
        .new setup.deviceId config sh.recovery.shutdown := setSession_self _ _ _
    refine ⟨fun d hd => ?_, fun hsd d hd => ?_, fun d hd => ?_⟩
    · rcases Nat.lt_succ_iff_lt_or_eq.mp hd with hlt | rfl
      · rw [old d hlt]
        exact hi.sessions d hlt
      · rw [new]
        exact .init ⟨config, _, rfl⟩
    · rcases Nat.lt_succ_iff_lt_or_eq.mp hd with hlt | rfl
      · exact (hgrow.generation d hlt).cancelled (hi.tokens hsd d hlt)
      · show ((sh.begin setup config).sessions sh.created).generation.cancelled = true
        rw [new]
        exact hsd
    · exact hgrow.published (hi.ready d hd)
  | cancelShutdown he =>
    subst he
    refine ⟨fun d hd => ?_, fun _ d hd => ?_, fun d hd => hgrow.published (hi.ready d hd)⟩
    · rw [cancelShutdown_session (show d < sh.created from hd)]
      exact (hi.sessions d hd).tail (a := .shutdown) rfl
    · show (sh.cancelShutdown.sessions d).generation.cancelled = true
      rw [cancelShutdown_session (show d < sh.created from hd)]
      rfl
  | publishStopped he =>
    subst he
    exact ⟨hi.sessions, hi.tokens, nofun⟩
  | handlers he | lock _ he | cid _ he | quiet he =>
    subst he
    exact ⟨hi.sessions, hi.tokens, hi.ready⟩

theorem RunStep.change_of {r : RunId} {run run' : Run} (h : RunStep setup w.shared r run sh' run')
    (hr : w.runs r = some run) (hi : HandlesInv w) : w.shared.Change setup sh' :=
  h.change fun runner c hl hp => hi.runner r run runner c hr hl hp

theorem ClientStep.change (h : ClientStep setup w w') (hi : HandlesInv w) :
    w.shared.Change setup w'.shared := by
  cases h with
  | startRun r hr | startSend i job hs | startDisconnect d hd => exact .quiet rfl
  | run r run run' sh hr hs => exact hs.change_of hr hi
  | send i snd snd' sh hs hst => exact hst.change fun b hb => hi.body i snd b hs hb
  | disconnect d pc pc' sh hd hst => exact hst.change
  | worker c a s hc hs => exact .session c (.worker a) s hc hs trivial rfl

theorem update_some {α : Type} {f : Nat → Option α} {i j : Nat} {a b : α}
    (h : Function.update f i (some a) j = some b) : (j = i ∧ b = a) ∨ (j ≠ i ∧ f j = some b) := by
  by_cases hj : j = i
  · subst hj
    rw [Function.update_self] at h
    exact .inl ⟨rfl, (Option.some.inj h).symm⟩
  · rw [Function.update_of_ne hj] at h
    exact .inr ⟨hj, h⟩

theorem RunStep.attempt {r : RunId} {run run' : Run} {runner' : Runner} {c : ConnId}
    (h : RunStep setup sh r run sh' run') (hl : run'.supervisor = .looping runner')
    (hp : runner'.pc = .attempt c) :
    (∃ runner, run.supervisor = .looping runner ∧ runner.pc = .attempt c) ∨
      (c = sh.created ∧ sh'.created = sh.created + 1) := by
  cases h with
  | lock _ _ _ | reject _ _ _ | closed _ _ _ | dropTrying _ _ | dropJoining _ _ =>
    exact .inl ⟨_, hl, hp⟩
  | join _ _ hf _ => exact .inl ⟨_, hl, hp⟩
  | guardCancel _ _ _ => exact .inl ⟨_, hl, hp⟩
  | guardPublish _ _ _ => exact .inl ⟨_, hl, hp⟩
  | start _ _ =>
    cases hl
    cases hp
  | loop runner m hrun hstep =>
    cases hl
    cases hstep with
    | goto _ _ hne _ | after _ _ _ _ _ hne _ => exact absurd hp (hne c)
    | begin _ hs hr =>
      subst hs hr
      cases hp
      exact .inr ⟨rfl, rfl⟩
    | session d b s hpd hpd' _ _ _ _ =>
      cases hpd'.symm.trans hp
      exact .inl ⟨_, hrun, hpd⟩
  | spawn _ _ _ | loopEnd _ _ _ _ _ | supervisorCancel _ _ _ | supervisorPublish _ _ _
  | cancelHandlers _ _ _ | unlock _ _ _ => cases hl

theorem SendStep.hands {snd snd' : Send} (h : SendStep setup sh snd sh' snd') :
    (∀ c seen, snd'.pc = .current (.checking (.ready c) seen) →
      sh.recovery.state = .ready c ∨ snd.pc = .current (.checking (.ready c) seen)) ∧
    (∀ b', snd'.pc = .body b' →
      (∃ b, snd.pc = .body b ∧ b.connection = b'.connection) ∨
      ∃ seen, snd.pc = .current (.checking (.ready b'.connection) seen)) := by
  cases h with
  | borrow hp hs =>
    refine ⟨fun c seen h => ?_, nofun⟩
    simp only [Send.goto, SendPc.current.injEq, Current.checking.injEq] at h
    exact .inl h.1
  | handed c seen hp _ _ =>
    refine ⟨nofun, fun b' h => ?_⟩
    cases h
    exact .inr ⟨seen, hp⟩
  | issue b _ _ _ _ hp _ _ _ _ =>
    refine ⟨nofun, fun b' h => ?_⟩
    cases h
    exact .inl ⟨b, hp, rfl⟩
  | act b hp _ => exact ⟨fun c seen h => .inr h, fun b' h => .inl ⟨b', h, rfl⟩⟩
  | answer b m op r next hp _ _ hc _ _ =>
    refine ⟨nofun, fun b' h => ?_⟩
    cases h
    exact .inl ⟨b, hp, hc.symm⟩
  | turn b _ hp _ =>
    refine ⟨nofun, fun b' h => ?_⟩
    cases h
    exact .inl ⟨b, hp, rfl⟩
  | clock _ _ _ | takeCid _ _ _ _ | stopped _ _ _ | wait _ _ _ _ _ | woken _ _ _
  | done _ _ _ _ | retry _ _ _ _ _ _
  | fail _ _ _ _ _ _ | drop _ => exact ⟨nofun, nofun⟩

theorem handlesInv_step (h : ClientStep setup w w') (hsi : SharedInv setup w.shared)
    (hi : HandlesInv w) : HandlesInv w' := by
  have hgrow := shared_grows_change (h.change hi) hsi
  have keep : w'.runs = w.runs → w'.sends = w.sends → HandlesInv w' := by
    intro hr hs
    refine ⟨fun r run runner c h₁ h₂ h₃ => ?_, fun i snd c seen h₁ h₂ => ?_,
      fun i snd b h₁ h₂ => ?_⟩
    · exact Nat.lt_of_lt_of_le (hi.runner r run runner c (hr ▸ h₁) h₂ h₃) hgrow.created
    · exact hgrow.published (hi.checking i snd c seen (hs ▸ h₁) h₂)
    · exact hgrow.published (hi.body i snd b (hs ▸ h₁) h₂)
  cases h with
  | startDisconnect d hd | disconnect d pc pc' sh hd hst | worker c a s hc hs => exact keep rfl rfl
  | startRun r hr =>
    refine ⟨fun q run runner c h₁ h₂ h₃ => ?_, hi.checking, hi.body⟩
    rcases update_some h₁ with ⟨_, rfl⟩ | ⟨_, h₁⟩
    · cases h₂
    · exact hi.runner q run runner c h₁ h₂ h₃
  | run r run run' sh hr hst =>
    refine ⟨fun q m runner c h₁ h₂ h₃ => ?_,
      fun i snd c seen h₁ h₂ => hgrow.published (hi.checking i snd c seen h₁ h₂),
      fun i snd b h₁ h₂ => hgrow.published (hi.body i snd b h₁ h₂)⟩
    rcases update_some h₁ with ⟨rfl, rfl⟩ | ⟨_, h₁⟩
    · rcases hst.attempt h₂ h₃ with ⟨runner', hl, hp⟩ | ⟨rfl, hcr⟩
      · exact Nat.lt_of_lt_of_le (hi.runner q run runner' c hr hl hp) hgrow.created
      · exact Nat.lt_of_lt_of_eq (Nat.lt_succ_self _) hcr.symm
    · exact Nat.lt_of_lt_of_le (hi.runner q m runner c h₁ h₂ h₃) hgrow.created
  | startSend i job hs =>
    refine ⟨hi.runner, fun j snd c seen h₁ h₂ => ?_, fun j snd b h₁ h₂ => ?_⟩
    · rcases update_some h₁ with ⟨_, rfl⟩ | ⟨_, h₁⟩
      · cases h₂
      · exact hi.checking j snd c seen h₁ h₂
    · rcases update_some h₁ with ⟨_, rfl⟩ | ⟨_, h₁⟩
      · cases h₂
      · exact hi.body j snd b h₁ h₂
  | send i snd snd' sh hs hst =>
    obtain ⟨hchk, hbody⟩ := hst.hands
    refine ⟨fun r run runner c h₁ h₂ h₃ =>
        Nat.lt_of_lt_of_le (hi.runner r run runner c h₁ h₂ h₃) hgrow.created,
      fun j m c seen h₁ h₂ => ?_, fun j m b h₁ h₂ => ?_⟩
    · rcases update_some h₁ with ⟨rfl, rfl⟩ | ⟨_, h₁⟩
      · rcases hchk c seen h₂ with hst | hp
        · exact hgrow.published (hsi.ready c hst)
        · exact hgrow.published (hi.checking j snd c seen hs hp)
      · exact hgrow.published (hi.checking j m c seen h₁ h₂)
    · rcases update_some h₁ with ⟨rfl, rfl⟩ | ⟨_, h₁⟩
      · rcases hbody b h₂ with ⟨b', hb', hcon⟩ | ⟨seen, hp⟩
        · exact hcon ▸ hgrow.published (hi.body j snd b' hs hb')
        · exact hgrow.published (hi.checking j snd b.connection seen hs hp)
      · exact hgrow.published (hi.body j m b h₁ h₂)

structure ClientInv (setup : Setup) (w : Client) : Prop where
  shared : SharedInv setup w.shared
  handles : HandlesInv w

theorem clientInv_of_reachable (h : (Client.automaton setup).Reachable w) : ClientInv setup w := by
  refine h.invariant (fun w hw => ?_) fun w a w' hs hi => ?_
  · obtain ⟨millis, rfl⟩ := hw
    refine ⟨⟨fun c hc => ?_, fun _ c hc => ?_, fun c hc => ?_⟩,
      ⟨fun _ _ _ _ hr => ?_, fun _ _ _ _ hs => ?_, fun _ _ _ hs => ?_⟩⟩
    · exact absurd hc (Nat.not_lt_zero c)
    · exact absurd hc (Nat.not_lt_zero c)
    · simp [Client.new, Recovery.new] at hc
    · simp [Client.new] at hr
    · simp [Client.new] at hs
    · simp [Client.new] at hs
  · have hst := client_step hs
    exact ⟨sharedInv_change (hst.change hi.handles) hi.shared,
      handlesInv_step hst hi.shared hi.handles⟩

/-- For one session a step of the client is at most one step. -/
theorem session_change {c : ConnId} (h : sh.Change setup sh') (hc : c < sh.created) :
    sh'.sessions c = sh.sessions c ∨
      ∃ b, (sh.sessions c).step setup.fromStr b = some (sh'.sessions c) ∧ sh.Answers c b := by
  cases h with
  | session d b s hd hs ha he =>
    subst he
    by_cases hcd : c = d
    · subst hcd
      exact .inr ⟨b, hs.trans (congrArg some (setSession_self sh c s).symm), ha⟩
    · exact .inl (setSession_of_ne sh s hcd)
  | begin config he =>
    subst he
    exact .inl (setSession_of_ne sh _ (Nat.ne_of_lt hc))
  | cancelShutdown he =>
    subst he
    exact .inr ⟨.shutdown, by rw [cancelShutdown_session hc]; rfl, trivial⟩
  | publishStopped he | handlers he | lock _ he | cid _ he | quiet he =>
    subst he
    exact .inl rfl

theorem created_change {c : ConnId} (h : sh.Change setup sh') (hc : c < sh'.created) :
    c < sh.created ∨ ∃ config, sh'.sessions c =
      .new setup.deviceId config sh.recovery.shutdown ∧ c = sh.created ∧
        sh' = sh.begin setup config := by
  cases h with
  | begin config he =>
    subst he
    rcases Nat.lt_succ_iff_lt_or_eq.mp hc with hlt | rfl
    · exact .inl hlt
    · exact .inr ⟨config, setSession_self _ _ _, rfl, rfl⟩
  | session d b s hd hs ha he =>
    subst he
    exact .inl hc
  | cancelShutdown he | publishStopped he | handlers he | lock _ he | cid _ he | quiet he =>
    subst he
    exact .inl hc

theorem client_grows (h : ClientStep setup w w') (hi : ClientInv setup w) :
    w.shared.Grows w'.shared := shared_grows_change (h.change hi.handles) hi.shared

/-- A run of the client is a run of each of its sessions. -/
theorem session_leads {c : ConnId} (hr : (Client.automaton setup).Reachable w)
    (hp : (Client.automaton setup).Leads w w') (hc : c < w.shared.created) :
    c < w'.shared.created ∧ (Session.automaton setup.fromStr setup.deviceId).Leads
      (w.shared.sessions c) (w'.shared.sessions c) := by
  induction hp with
  | refl => exact ⟨hc, .refl⟩
  | tail hp _ hs ih =>
    obtain ⟨hc', hl⟩ := ih
    have hi := clientInv_of_reachable (hr.path hp)
    have hst := client_step hs
    refine ⟨Nat.lt_of_lt_of_le hc' (client_grows hst hi).created, ?_⟩
    rcases session_change (hst.change hi.handles) hc' with he | ⟨b, hb, -⟩
    · rw [he]
      exact hl
    · exact .tail hl trivial hb

end Maxrs
