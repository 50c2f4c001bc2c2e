import Maxrs.Deadlock
import Maxrs.LoginRuns
import Maxrs.Settling
set_option autoImplicit false

/-! The supervisor of a client that is shutting down comes to its end without help. -/
namespace Maxrs

def CloseAction.rank : CloseAction → Nat
  | .offline => 1
  | .cancel => 2
  | .abortAll => 3
  | .join => 4
  | .clear => 5
  | .takeSink => 6

namespace Session

variable {fromStr : String → Except String Packet} {s s' : Session}

theorem stepAttempt_phase {a : Attempt} {act : AttemptAction} (hs : s.phase = .attempting a)
    (h : s.stepAttempt fromStr a act = some s') :
    ∃ a', s'.phase = .attempting a' ∧ a'.polling = a.polling := by
  cases attempt_turn h with
  | onInvoke k b g => exact ⟨a, hs, rfl⟩
  | performs | answers | issue | take | look | recv => exact ⟨_, rfl, rfl⟩

theorem stepClose_rank {b : CloseAction} (h : s.stepClose fromStr b = some s') :
    s'.phase.rank = s.phase.rank + 1 := by
  cases b with
  | offline =>
    simp only [stepClose] at h
    split at h <;> cases h
    rename_i hp
    rw [hp]
    rfl
  | join =>
    simp only [stepClose] at h
    split at h
    · rename_i hp
      split at h <;> cases h
      rw [hp]
      rfl
    · cases h
  | cancel | abortAll | clear | takeSink =>
    simp only [stepClose] at h
    split at h
    · rename_i hp
      obtain ⟨m, -, rfl⟩ := Option.map_eq_some_iff.mp h
      rw [hp]
      rfl
    · cases h

theorem stepClose_enabled (b : CloseAction) (h : s.phase.rank = b.rank)
    (hjoin : b = .join → s.generation.reader.joined = true ∧ s.generation.keepalive.joined = true)
    (hsink : b = .takeSink → s.generation.transport.sinkLock = none) :
    ∃ s', s.stepClose fromStr b = some s' := by
  cases b with
  | join =>
    cases hp : s.phase <;> rw [hp] at h <;> first
      | (cases h; done)
      | exact ⟨_, by simp only [stepClose, hp, hjoin rfl, Bool.and_self, if_true]; rfl⟩
  | takeSink =>
    cases hp : s.phase <;> rw [hp] at h <;> first
      | (cases h; done)
      | exact ⟨_, by simp only [stepClose, hp, act, Generation.step, Generation.onTransport,
          Transport.step, hsink rfl, if_true]; rfl⟩
  | offline | cancel | abortAll | clear =>
    cases hp : s.phase <;> rw [hp] at h <;> first
      | (cases h; done)
      | exact ⟨_, by simp only [stepClose, hp]; rfl⟩

theorem step_rests {b : SessionAction} {a' : Attempt} {k : CallId} (hb : b.ofRunner = true)
    (h : s.step fromStr b = some s') (hp : s'.phase = .attempting a') (hpoll : a'.polling = false)
    (hk : a'.waiting = some k) : s'.generation.invokes k = some .parked := by
  cases b with
  | poll =>
    simp only [step, poll] at h
    split at h
    · split at h
      · cases h
      · split at h
        · obtain ⟨m, -, rfl⟩ := Option.map_eq_some_iff.mp h
          cases hp
        · cases h
          cases hp
          cases hpoll
    · cases h
  | park =>
    simp only [step, park] at h
    split at h
    · rename_i a hphase
      split at h
      · rename_i hat
        cases h
        cases hp
        simp only [Bool.and_eq_true, Attempt.atAwait, show a.waiting = some k from hk] at hat
        have hinv := hat.2
        split at hinv
        · assumption
        · cases hinv
      · cases h
    · cases h
  | attempt act =>
    simp only [step] at h
    split at h
    · rename_i a hphase
      split at h
      · rename_i hin
        obtain ⟨a'', ha'', hsame⟩ := stepAttempt_phase hphase h
        cases ha''.symm.trans hp
        rw [hsame, hin] at hpoll
        cases hpoll
      · cases h
    · cases h
  | finish =>
    simp only [step, finish] at h
    split at h
    · obtain ⟨m, -, rfl⟩ := Option.map_eq_some_iff.mp h
      cases hp
    · cases h
  | close act =>
    have hrank := stepClose_rank h
    rw [hp] at hrank
    exact absurd hrank (Nat.zero_ne_add_one _)
  | worker _ | sender _ | shutdown => cases hb

end Session

namespace Client

variable {setup : Setup} {w w' : Client}

def Rests (w : Client) : Prop :=
  ∀ r c a k, w.attemptOf r = some c → (w.shared.sessions c).phase = .attempting a →
    a.polling = false → a.waiting = some k → (w.generation c).invokes k = some .parked

theorem supervisor_action {a : ClientAction} {r : RunId} (h : a.task = .supervisor r) :
    ∃ ra, a = .run r ra ∧ ra.ofCall = false := by
  cases a with
  | run q ra =>
    simp only [ClientAction.task] at h
    split at h
    · cases h
    · rename_i hra
      cases h
      exact ⟨ra, rfl, Bool.eq_false_iff.mpr hra⟩
  | worker c b => cases b <;> cases h
  | _ => cases h

theorem rests_step {act : ClientAction} (hr : (automaton setup).Reachable w)
    (h : w.step setup act = some w') (hi : Rests w) : Rests w' := by
  intro r c a k hat hp hpoll hk
  by_cases htask : act.task = .supervisor r
  · obtain ⟨ra, rfl, hra⟩ := supervisor_action htask
    cases supervisor_turn hra h with
    | session d l b s hl hd hb hs hsessions hat' =>
      cases hat.symm.trans hat'
      have hc : w'.shared.sessions c = s := by rw [hsessions, setSession_self]
      rw [hc] at hp
      rw [Client.generation, hc]
      exact Session.step_rests (LoopAction.session_ofRunner hb) hs hp hpoll hk
    | begin config _ hshared hat' =>
      cases hat.symm.trans hat'
      have hnew : w'.shared.sessions w.shared.created =
          .new setup.deviceId config w.shared.recovery.shutdown := by
        rw [hshared, Shared.begin]
        exact Function.update_self ..
      rw [hnew] at hp
      cases hp
      cases hk
    | shutdown _ _ hat' | quiet _ hat' _ => cases hat.symm.trans hat'
  · have hat₀ : w.attemptOf r = some c := by
      rw [← attempt_frame (lifecycleInv_of_reachable hr) h htask, hat]
    have hp₀ : (w.shared.sessions c).phase = .attempting a := by
      rw [← attempt_phase hr h hat₀ htask, hp]
    have hparked := hi r c a k hat₀ hp₀ hpoll hk
    have hown : w.invoking (.supervisor r) = some (c, k) := by
      simp only [invoking, hat₀, Option.bind_some, Session.waiting, hp₀, hk, Option.map_some]
    have hsame := (await_turn hr h).other (owned_of_reachable hr) (Ne.symm htask) hown
    obtain ⟨d, -, hst⟩ := Generation.standing_of_invoke
      (generationInv_at hr (attempt_created (clientInv_of_reachable hr) hat₀)).generation hparked
    exact (Generation.standing_eq (hsame.trans hst)).1

theorem rests_of_reachable (h : (automaton setup).Reachable w) : Rests w := by
  refine h.invariant_of (fun v ⟨_, hv⟩ r c a k hat => ?_) fun _ _ _ hr hs hi => rests_step hr hs hi
  rw [hv] at hat
  cases hat

end Client

theorem always_afterLogin_spawns (token : String) (tr : AttemptTrace) :
    (afterLogin token).Always (fun _ op => op ≠ .spawnKeepalive) (fun _ _ => True) tr := by
  refine ⟨AttemptOp.noConfusion, fun _ =>
    (Script.always_orFail _ _ _).mpr ⟨AttemptOp.noConfusion, fun r => ?_⟩⟩
  cases r with
  | error e => trivial
  | ok _ => exact ⟨AttemptOp.noConfusion, fun _ => ⟨AttemptOp.noConfusion, fun _ => trivial⟩⟩

theorem always_keepalive_once (deviceId : String) (config : LoginConfig) :
    (runAttempt deviceId config).Always
      (fun tr op => op = .spawnKeepalive → ¬ Performed tr .spawnKeepalive)
      (fun _ _ => True) [] := by
  have hlogin : (login config).Always (fun _ op => op ≠ .spawnKeepalive) (fun _ _ => True) [] :=
    (login_login config).mono (fun tr op h he => by subst he; exact h) fun _ _ _ => trivial
  refine (Script.always_orFail _ _ _).mpr ⟨AttemptOp.noConfusion, fun r => ?_⟩
  cases r with
  | error e => trivial
  | ok _ =>
    refine ⟨AttemptOp.noConfusion, fun _ =>
      (Script.always_orFail _ _ _).mpr ⟨AttemptOp.noConfusion, fun r => ?_⟩⟩
    cases r with
    | error e => trivial
    | ok p =>
      refine ⟨fun _ => by simp [Performed], fun _ => ?_⟩
      -- from the login on
      refine Script.Always.mono (fun _ _ hne he => absurd he hne) (fun _ _ h => h)
        ((hlogin.anywhere _).orFail (fun tr token _ => ?_) fun _ _ _ => trivial)
      exact always_afterLogin_spawns token tr

namespace Generation

variable {fromStr : String → Except String Packet} {g g' : Generation}

theorem abort_reader (ha : g.aborted = true) (hp : g.reader.parked = true) :
    ∃ g', g.step fromStr (.reader .abort) = some g' ∧ g'.reader = .ended := by
  simp only [step, stepReader, ha, hp, Bool.and_self, if_true, onTransport, Transport.step,
    Transport.stepAck, Option.map_some, Option.bind_some]
  split
  · exact ⟨_, rfl, rfl⟩
  · exact ⟨_, rfl, rfl⟩

theorem stepInvoke_tasks {k : CallId} {b : InvokeAction} (h : g.stepInvoke k b = some g') :
    g'.reader = g.reader ∧ g'.keepalive = g.keepalive := by
  cases b with
  | poll | inner a =>
    simp only [stepInvoke] at h
    split at h
    · split at h
      all_goals try cases h
      all_goals first
        | exact ⟨rfl, rfl⟩
        | (obtain ⟨t, -, rfl⟩ := Option.map_eq_some_iff.mp h
           exact ⟨rfl, rfl⟩)
    · cases h
  | park =>
    simp only [stepInvoke] at h
    split at h
    · split at h <;> cases h
      exact ⟨rfl, rfl⟩
    · cases h
  | finish =>
    simp only [stepInvoke] at h
    split at h
    · obtain ⟨x, -, rfl⟩ := Option.map_eq_some_iff.mp h
      exact ⟨rfl, rfl⟩
    · cases h
  | drop =>
    simp only [stepInvoke] at h
    split at h <;> cases h
    exact ⟨rfl, rfl⟩

theorem dropCall_sinkLock (t : Transport) (k : CallId) :
    (t.dropCall k).sinkLock = t.sinkLock ∨ (t.dropCall k).sinkLock = none := by
  unfold Transport.dropCall
  cases h : t.step (.call k .drop) with
  | none => exact .inl rfl
  | some t' =>
    obtain ⟨d, -, hd⟩ := Option.bind_eq_some_iff.mp h
    simp only [Transport.stepCall] at hd
    split at hd <;> cases hd
    by_cases hs : d.pc.holdsSink = true
    · exact .inr (if_pos hs)
    · exact .inl (if_neg hs)

theorem stepInvoke_sinkLock {k : CallId} {b : InvokeAction}
    (hb : b = .poll ∨ b = .park ∨ b = .finish) (h : g.stepInvoke k b = some g') :
    g'.transport.sinkLock = g.transport.sinkLock ∨ g'.transport.sinkLock = none := by
  rcases hb with rfl | rfl | rfl
  · simp only [stepInvoke] at h
    split at h
    · split at h <;> cases h
      · exact dropCall_sinkLock _ _
      · exact .inl rfl
    · cases h
  · simp only [stepInvoke] at h
    split at h
    · split at h <;> cases h
      exact .inl rfl
    · cases h
  · simp only [stepInvoke] at h
    split at h
    · obtain ⟨x, -, rfl⟩ := Option.map_eq_some_iff.mp h
      exact .inl rfl
    · cases h

end Generation

def SessionAction.loop : SessionAction → LoopAction
  | .park => .park
  | .attempt (.connected _) => .connected
  | .attempt (.dispatchCheck _) => .dispatchCheck
  | .attempt a => .attempt a
  | .finish => .finishAttempt
  | .close .offline => .offline 0
  | .close a => .close a
  | _ => .poll

theorem runner_loop {setup : Setup} {sh : Shared} {run : Runner} {c : ConnId} {b : SessionAction}
    {s : Session} (hp : run.pc = .attempt c) (hb : b.ofRunner = true) (hans : sh.Answers c b)
    (h : (sh.sessions c).step setup.fromStr b = some s) :
    ∃ run', run.step setup sh b.loop =
      some ({ sh.setSession c s with recovery := sh.recoveryAfter c b }, run') ∧
      run'.pc = .attempt c := by
  obtain ⟨config, delay, pc⟩ := run
  cases hp
  have taken : ∀ {run : Runner} {l : LoopAction} {f : Session → Option Session}
      {g : Shared → Shared × Runner}, run.step setup sh l = (sh.onSession c f).map g →
      f (sh.sessions c) = some s →
      (g (sh.setSession c s)).1 = { sh.setSession c s with recovery := sh.recoveryAfter c b } →
      (g (sh.setSession c s)).2.pc = .attempt c →
      ∃ run', run.step setup sh l =
        some ({ sh.setSession c s with recovery := sh.recoveryAfter c b }, run') ∧
        run'.pc = .attempt c := by
    intro run l f g hstep hf hs hpc
    refine ⟨_, ?_, hpc⟩
    rw [hstep, Shared.onSession, hf, Option.map_some, Option.map_some, ← hs]
  cases b with
  | poll | park | finish => exact taken rfl h rfl rfl
  | attempt a =>
    cases a with
    | connected r | dispatchCheck shutdown =>
      cases hans
      exact taken rfl h rfl rfl
    | perform =>
      refine taken rfl h ?_ ?_
      · split <;> rfl
      · split <;> rfl
    | _ => exact taken rfl h rfl rfl
  | close a =>
    cases a with
    | offline =>
      refine taken rfl h rfl ?_
      split <;> rfl
    | _ => exact taken rfl h rfl rfl
  | worker _ | sender _ | shutdown => cases hb

namespace Client

variable {setup : Setup} {w w' : Client} {P : Client → Prop} {r : RunId} {c : ConnId}

theorem step_run {run run' : Run} {sh' : Shared} {a : RunAction} (hr : w.runs r = some run)
    (h : run.step setup w.shared r a = some (sh', run')) :
    w.step setup (.run r a) =
      some { w with shared := sh', runs := Function.update w.runs r (some run') } := by
  simp only [Client.step, hr, Option.bind_some, h, Option.map_some]

theorem step_session {b : SessionAction} {s : Session} (hat : w.attemptOf r = some c)
    (hb : b.ofRunner = true) (hans : w.shared.Answers c b)
    (h : (w.shared.sessions c).step setup.fromStr b = some s) :
    ∃ w', w.step setup (.run r (.loop b.loop)) = some w' ∧ w'.attemptOf r = some c ∧
      w'.shared = { w.shared.setSession c s with recovery := w.shared.recoveryAfter c b } := by
  obtain ⟨run, runner, hr, hl, hp⟩ := attemptOf_eq.mp hat
  obtain ⟨runner', hs, hp'⟩ := runner_loop hp hb hans h
  have hrun : run.step setup w.shared r (.loop b.loop) =
      some ({ w.shared.setSession c s with recovery := w.shared.recoveryAfter c b },
        { run with supervisor := .looping runner' }) := by
    simp only [Run.step, hl, hs, Option.map_some]
  refine ⟨_, step_run hr hrun, ?_, rfl⟩
  exact attemptOf_eq.mpr ⟨_, runner', Function.update_self .., rfl, hp'⟩

theorem CanTear.session (b : SessionAction) {s : Session} (hw : Severed setup c w)
    (hat : w.attemptOf r = some c) (hb : b.ofRunner = true)
    (ha : (ClientAction.run r (.loop b.loop)).isOutside = false) (hans : w.shared.Answers c b)
    (h : (w.shared.sessions c).step setup.fromStr b = some s)
    (hrest : ∀ w', Severed setup c w' → w'.attemptOf r = some c → w'.shared.sessions c = s →
      CanTear setup w' P) : CanTear setup w P := by
  obtain ⟨w', hs, hat', hs'⟩ := step_session hat hb hans h
  have hc : w'.shared.sessions c = s := by
    rw [hs']
    exact setSession_self ..
  exact .step ⟨ha, rfl⟩ hs (hrest w' (hw.step hs) hat' hc)

def TearingAt (r : RunId) (c : ConnId) (n : Nat) (w : Client) : Prop :=
  w.attemptOf r = some c ∧ (w.shared.sessions c).phase.rank = n

theorem attempt_session (hw : Severed setup c w) (hat : w.attemptOf r = some c) :
    Session.Inv setup.deviceId (w.shared.sessions c) ∧
      (w.shared.sessions c).generation.cancelled = true := by
  have hc := attempt_created hw.clientInv hat
  exact ⟨Session.inv_of_reachable (hw.clientInv.shared.sessions c hc), hw.cancelled⟩

theorem CanTear.dropped {a : Attempt} (hw : Severed setup c w) (hat : w.attemptOf r = some c)
    (hp : (w.shared.sessions c).phase = .attempting a) (hpoll : a.polling = false) :
    CanTear setup w fun v => v.attemptOf r = some c ∧
      (v.shared.sessions c).phase = .offline (.error .connectionClosed) := by
  have hc := (attempt_session hw hat).2
  obtain ⟨g, hg⟩ : ∃ g, (w.shared.sessions c).generation.step setup.fromStr
      (.dropAttempt a.waiting) = some g := by
    cases hk : a.waiting with
    | none => exact ⟨_, rfl⟩
    | some k =>
      have hparked := rests_of_reachable hw.reachable r c a k hat hp hpoll hk
      have hparked' : (w.shared.sessions c).generation.invokes k = some .parked := hparked
      exact ⟨_, by
        simp only [Generation.step, Generation.stepInvoke, hparked', Option.map_some]; rfl⟩
  refine CanTear.session .poll hw hat rfl rfl trivial
    (by simp only [Session.step, Session.poll, hp, hpoll, hc, Session.act, hg]; rfl)
    fun v _ hv hs => ?_
  exact .here ⟨hv, by rw [hs]⟩

theorem CanTear.drops {a : Attempt} (hw : Severed setup c w) (hat : w.attemptOf r = some c)
    (hp : (w.shared.sessions c).phase = .attempting a) (hpoll : a.polling = false) :
    CanTear setup w (TearingAt r c 1) :=
  (CanTear.dropped hw hat hp hpoll).mono fun _ h => ⟨h.1, by rw [h.2]; rfl⟩

theorem CanTear.attemptTaken {a : Attempt} {k : CallId} (hw : Severed setup c w)
    (hat : w.attemptOf r = some c) (hp : (w.shared.sessions c).phase = .attempting a)
    (hpoll : a.polling = true) (hk : a.waiting = some k) :
    CanTear setup w fun v => v.attemptOf r = some c ∧
      (v.shared.sessions c).phase = .attempting a ∧
      ∃ x, (v.generation c).invokes k = some (.returned x) := by
  have hawait : w.invoking (.supervisor r) = some (c, k) := by
    simp only [invoking, hat, Option.bind_some, Session.waiting, hp, hk, Option.map_some]
  obtain ⟨j, hj, hd⟩ := awaits hw.reachable hawait
  have ends : CanTear setup w fun v =>
      (v.attemptOf r = some c ∧ (v.shared.sessions c).phase = .attempting a) ∧
        ∃ x, (v.generation c).invokes k = some (.returned x) := by
    refine CanTear.invoke (fun b => .run r (.loop (.attempt (.onInvoke b))))
      (fun b => ⟨by cases b <;> rfl, rfl⟩) ?_ hw
      ⟨hat, hp⟩ hj hd
    intro v b g' hv hkeep hb hg
    have hg' : (v.shared.sessions c).generation.stepInvoke k b = some g' := hg
    have hs : (v.shared.sessions c).step setup.fromStr (.attempt (.onInvoke b)) =
        some { v.shared.sessions c with generation := g' } := by
      rcases hb with rfl | rfl | rfl <;>
        simp only [Session.step, hkeep.2, hpoll, if_true, Session.stepAttempt, hk, Session.act,
          Generation.step, hg', Option.map_some]
    have hans : v.shared.Answers c (.attempt (.onInvoke b)) := trivial
    obtain ⟨v', hstep, hat', hv'⟩ := step_session hkeep.1 rfl hans hs
    have hs' : v'.shared.sessions c = { v.shared.sessions c with generation := g' } := by
      rw [hv']
      exact setSession_self ..
    exact ⟨v', hstep, by rw [Client.generation, hs'], hat', by rw [hs']; exact hkeep.2⟩
  exact ends.mono fun v h => ⟨h.1.1, h.1.2, h.2⟩

theorem attempt_spawns {a : Attempt} {op : AttemptOp}
    {next : op.Ret → AttemptScript (Except Error Unit)} (hw : Severed setup c w)
    (hat : w.attemptOf r = some c) (hp : (w.shared.sessions c).phase = .attempting a)
    (hr : a.rest = .call op next) :
    (op = .spawnReader → (w.shared.sessions c).generation.reader = .absent) ∧
      (op = .spawnKeepalive → (w.shared.sessions c).generation.keepalive = .absent) := by
  have hi := (attempt_session hw hat).1
  constructor
  · rintro rfl
    have hpre : (w.shared.sessions c).trace = [⟨.connect, .ok ()⟩] := hi.trace.pre hp hr
    refine hi.tasks.reader.mpr ?_
    rw [hpre]
    simp [Performed]
  · rintro rfl
    obtain ⟨q, hq, hqr⟩ := hi.trace
    rw [← hqr a hp, hr] at hq
    exact hi.tasks.keepalive.mpr ((always_keepalive_once _ _).head hq rfl)

theorem CanTear.parks {a : Attempt} {op : AttemptOp}
    {next : op.Ret → AttemptScript (Except Error Unit)} (hw : Severed setup c w)
    (hat : w.attemptOf r = some c) (hp : (w.shared.sessions c).phase = .attempting a)
    (hr : a.rest = .call op next) (hpoll : a.polling = true) (hop : op.isAwait = true) :
    CanTear setup w (TearingAt r c 1) := by
  have hk : a.waiting = none := by
    cases hk : a.waiting with
    | none => rfl
    | some k =>
      obtain ⟨opcode, payload, _, hinv⟩ :=
        (attempt_session hw hat).1.calls.invoke_of_waiting hp hk
      cases hr.symm.trans hinv
      cases hop
  have hawait : a.atAwait (w.shared.sessions c).generation = true := by
    simp only [Attempt.atAwait, hk, hr, hop]
  refine CanTear.session .park hw hat rfl rfl trivial
    (by
      simp only [Session.step, Session.park, hp, hpoll, hawait, Bool.and_self, if_true]
      rfl)
    fun v hv hvat hs => ?_
  exact CanTear.drops hv hvat (a := { a with polling := false, checked := false })
    (by rw [hs]; rfl) rfl

section

variable {a : Attempt} {opcode : Nat} {payload : Value}
  {next : Except Error Packet → AttemptScript (Except Error Unit)}

theorem CanTear.takes {k : CallId} (hw : Severed setup c w) (hat : w.attemptOf r = some c)
    (hp : (w.shared.sessions c).phase = .attempting a)
    (hr : a.rest = .call (.invoke opcode payload) next) (hpoll : a.polling = true)
    (hk : a.waiting = some k)
    (hnext : ∀ x v b, Severed setup c v → v.attemptOf r = some c →
      (v.shared.sessions c).phase = .attempting b → b.rest = next x →
      CanTear setup v (TearingAt r c 1)) : CanTear setup w (TearingAt r c 1) := by
  refine (CanTear.attemptTaken hw hat hp hpoll hk).bind fun u hu hend => ?_
  obtain ⟨huat, hup, x, hx⟩ := hend
  have hx' : (u.shared.sessions c).generation.invokes k = some (.returned x) := hx
  have hs : (u.shared.sessions c).step setup.fromStr (.attempt .take) =
      some ((u.shared.sessions c).answer a (.invoke opcode payload) x next) := by
    simp only [Session.step, hup, hpoll, if_true, Session.stepAttempt, hr, hk, hx']
  refine CanTear.session (.attempt .take) (hw.path hu) huat rfl rfl trivial hs
    fun v hv hvat hvs => ?_
  exact hnext x v _ hv hvat (by rw [hvs]; rfl) rfl

theorem CanTear.asks (hw : Severed setup c w) (hat : w.attemptOf r = some c)
    (hp : (w.shared.sessions c).phase = .attempting a)
    (hr : a.rest = .call (.invoke opcode payload) next) (hpoll : a.polling = true)
    (hnext : ∀ x v b, Severed setup c v → v.attemptOf r = some c →
      (v.shared.sessions c).phase = .attempting b → b.rest = next x →
      CanTear setup v (TearingAt r c 1)) : CanTear setup w (TearingAt r c 1) := by
  cases hk : a.waiting with
  | some k => exact .takes hw hat hp hr hpoll hk hnext
  | none =>
    obtain ⟨g, hg⟩ : ∃ g, (w.shared.sessions c).generation.invoke opcode payload = some g :=
      ⟨_, rfl⟩
    obtain ⟨s, b, k, hs, hsp, hbr, hbpoll, hbk⟩ : ∃ s b k, (w.shared.sessions c).step
        setup.fromStr (.attempt .issue) = some s ∧ s.phase = .attempting b ∧
        b.rest = .call (.invoke opcode payload) next ∧ b.polling = true ∧
        b.waiting = some k :=
      ⟨_, _, _, by simp only [Session.step, hp, hpoll, if_true, Session.stepAttempt, hr, hk,
        Session.act, Generation.step, hg]; rfl, rfl, rfl, rfl, rfl⟩
    refine CanTear.session (.attempt .issue) hw hat rfl rfl trivial hs fun v hv hvat hvs => ?_
    exact .takes hv hvat (hvs ▸ hsp) hbr hbpoll hbk hnext

end

/-- Every attempt comes to its end. -/
theorem CanTear.attempt {a : Attempt} (rest : AttemptScript (Except Error Unit))
    (hw : Severed setup c w) (hat : w.attemptOf r = some c)
    (hp : (w.shared.sessions c).phase = .attempting a) (hr : a.rest = rest) :
    CanTear setup w (TearingAt r c 1) := by
  induction rest generalizing w a with
  | done x =>
    cases hpoll : a.polling with
    | false => exact .drops hw hat hp hpoll
    | true =>
      obtain ⟨rest, waiting, polling, checked⟩ := a
      cases hr
      cases hpoll
      refine CanTear.session .finish hw hat rfl rfl trivial
        (by simp only [Session.step, Session.finish, hp]; rfl) fun v _ hv hs => ?_
      exact .here ⟨hv, by rw [hs]; rfl⟩
  | call op next ih =>
    cases hpoll : a.polling with
    | false => exact .drops hw hat hp hpoll
    | true =>
      have performs : ∀ {x : op.Ret} {s : Session} (b : SessionAction), b.ofRunner = true →
          (ClientAction.run r (.loop b.loop)).isOutside = false → w.shared.Answers c b →
          (w.shared.sessions c).step setup.fromStr b = some s →
          s.phase = .attempting { a with rest := next x, waiting := none, checked := false } →
          CanTear setup w (TearingAt r c 1) := by
        intro x s b hb ha hans hs hphase
        refine CanTear.session b hw hat hb ha hans hs fun v hv hvat hvs => ?_
        exact ih x hv hvat (hvs ▸ hphase) rfl
      have spawns := attempt_spawns hw hat hp hr
      cases op with
      | connect | solveCaptcha _ _ _ | requestSmsCode _ _ | storeSessionTokenFile _ | dispatch =>
        exact .parks hw hat hp hr hpoll rfl
      | spawnReader =>
        exact performs (.attempt .perform) rfl rfl trivial
          (by simp only [Session.step, hp, hpoll, if_true, Session.stepAttempt, hr, Session.act,
            Generation.step, spawns.1 rfl, Option.map_some]; rfl) rfl
      | spawnKeepalive =>
        exact performs (.attempt .perform) rfl rfl trivial
          (by simp only [Session.step, hp, hpoll, if_true, Session.stepAttempt, hr, Session.act,
            Generation.step, spawns.2 rfl, Option.map_some]; rfl) rfl
      | setOwnUserId id =>
        exact performs (.attempt .perform) rfl rfl trivial
          (by simp only [Session.step, hp, hpoll, if_true, Session.stepAttempt, hr, Session.act,
            Generation.step, Option.map_some]; rfl) rfl
      | setSessionToken token =>
        exact performs (.attempt .perform) rfl rfl trivial
          (by simp only [Session.step, hp, hpoll, if_true, Session.stepAttempt, hr]; rfl) rfl
      | stampConnectedAt =>
        exact performs (.attempt .perform) rfl rfl trivial
          (by simp only [Session.step, hp, hpoll, if_true, Session.stepAttempt, hr]; rfl) rfl
      | connected =>
        exact performs (.attempt (.connected _)) rfl rfl rfl
          (by simp only [Session.step, hp, hpoll, if_true, Session.stepAttempt, hr]; rfl) rfl
      | invoke opcode payload =>
        exact .asks hw hat hp hr hpoll fun x _ _ hv hvat hvp hvr => ih x hv hvat hvp hvr

theorem tearing_worker {a : WorkerAction} {n : Nat} {g' : Generation} (hw : Severed setup c w)
    (hat : TearingAt r c n w)
    (h : (w.generation c).step setup.fromStr a.toGeneration = some g') :
    ∃ w', w.step setup (.worker c a) = some w' ∧ TearingAt r c n w' ∧ w'.generation c = g' := by
  have hc := attempt_created hw.clientInv hat.1
  have h' : (w.shared.sessions c).generation.step setup.fromStr a.toGeneration = some g' := h
  refine ⟨{ w with shared := w.shared.setSession c { w.shared.sessions c with generation := g' } },
    ?_, ⟨hat.1, ?_⟩, ?_⟩
  · simp only [Client.step, hc, if_true, Shared.onSession, Session.act, h', Option.map_some]
  · exact (congrArg (fun s : Session => s.phase.rank) (setSession_self ..)).trans hat.2
  · exact congrArg Session.generation (setSession_self ..)

theorem tearing_aborted (hw : Severed setup c w) (hat : TearingAt r c 4 w) :
    (w.generation c).aborted = true :=
  (attempt_session hw hat.1).1.tasks.aborted.mpr (hat.2 ▸ Nat.le_refl 4)

theorem CanTear.worker (a : WorkerAction) {n : Nat} {g' : Generation} (hw : Severed setup c w)
    (hat : TearingAt r c n w) (ha : (ClientAction.worker c a).isOutside = false)
    (h : (w.generation c).step setup.fromStr a.toGeneration = some g')
    (hrest : ∀ w', Severed setup c w' → TearingAt r c n w' → w'.generation c = g' →
      CanTear setup w' P) : CanTear setup w P := by
  obtain ⟨w', hs, hat', hg'⟩ := tearing_worker hw hat h
  exact .step ⟨ha, rfl⟩ hs (hrest w' (hw.step hs) hat' hg')

theorem CanTear.readerEnds (hw : Severed setup c w) (hat : TearingAt r c 4 w) :
    CanTear setup w fun v => TearingAt r c 4 v ∧ (v.generation c).reader.joined = true := by
  have parked : ∀ {v}, Severed setup c v → TearingAt r c 4 v →
      (v.generation c).reader.parked = true →
      CanTear setup v fun v => TearingAt r c 4 v ∧ (v.generation c).reader.joined = true := by
    intro v hv hvat hp
    obtain ⟨g', hg, hend⟩ := Generation.abort_reader (tearing_aborted hv hvat) hp
    refine CanTear.worker (.reader .abort) hv hvat rfl hg fun u _ huat hug => ?_
    exact .here ⟨huat, by rw [hug, hend]; rfl⟩
  have forwards : ∀ {v m x}, Severed setup c v → TearingAt r c 4 v →
      (v.generation c).reader = .forwarding m x →
      CanTear setup v fun v => TearingAt r c 4 v ∧ (v.generation c).reader.joined = true := by
    intro v m x hv hvat hp
    obtain ⟨g', hg, hread⟩ :
        ∃ g', (v.generation c).step setup.fromStr (.reader .forward) = some g' ∧
        g'.reader = .reading := by
      simp only [Generation.step, Generation.stepReader, hp]
      split
      · exact ⟨_, rfl, rfl⟩
      · exact ⟨_, rfl, rfl⟩
    refine CanTear.worker (.reader .forward) hv hvat rfl hg fun u hu huat hug => ?_
    exact parked hu huat (by rw [hug, hread]; rfl)
  cases hp : (w.generation c).reader with
  | absent | ended => exact .here ⟨hat, by rw [hp]; rfl⟩
  | spawned | reading | receiving | acking _ _ => exact parked hw hat (by rw [hp]; rfl)
  | forwarding m x => exact forwards hw hat hp
  | filtering m x =>
    by_cases hf : isFilteredIncomingMessage x (w.generation c).ownUserId = true
    · refine CanTear.worker (.reader .filter) hw hat rfl
        (by simp only [WorkerAction.toGeneration, Generation.step, Generation.stepReader, hp, hf,
          if_true]; rfl) fun u hu huat hug => ?_
      exact parked hu huat (by rw [hug]; rfl)
    · refine CanTear.worker (.reader .filter) hw hat rfl
        (by simp only [WorkerAction.toGeneration, Generation.step, Generation.stepReader, hp]
            rw [if_neg hf]) fun u hu huat hug => ?_
      exact forwards hu huat (by rw [hug])

theorem CanTear.keepaliveEnds (hw : Severed setup c w) (hat : TearingAt r c 4 w)
    (hread : (w.generation c).reader.joined = true) :
    CanTear setup w fun v => TearingAt r c 4 v ∧ (v.generation c).reader.joined = true ∧
      (v.generation c).keepalive.joined = true := by
  have sleeps : ∀ {v}, Severed setup c v → TearingAt r c 4 v →
      (v.generation c).reader.joined = true →
      (v.generation c).keepalive = .spawned ∨ (v.generation c).keepalive = .sleeping →
      CanTear setup v fun v => TearingAt r c 4 v ∧ (v.generation c).reader.joined = true ∧
        (v.generation c).keepalive.joined = true := by
    intro v hv hvat hvr hp
    obtain ⟨g', hg, hsame, hend⟩ : ∃ g', (v.generation c).step setup.fromStr (.keepalive .abort) =
        some g' ∧ g'.reader = (v.generation c).reader ∧ g'.keepalive = .ended := by
      simp only [Generation.step, Generation.stepKeepalive, tearing_aborted hv hvat, if_true]
      rcases hp with hp | hp <;> rw [hp] <;> exact ⟨_, rfl, rfl, rfl⟩
    refine CanTear.worker (.keepalive .abort) hv hvat rfl hg fun u _ huat hug => ?_
    exact .here ⟨huat, by rw [hug, hsame]; exact hvr, by rw [hug, hend]; rfl⟩
  cases hp : (w.generation c).keepalive with
  | absent | ended => exact .here ⟨hat, hread, by rw [hp]; rfl⟩
  | spawned => exact sleeps hw hat hread (.inl hp)
  | sleeping => exact sleeps hw hat hread (.inr hp)
  | pinging k =>
    have hawait : w.invoking (.keepalive c) = some (c, k) := by
      simp only [invoking, Generation.pinging, hp, Option.map_some]
    obtain ⟨j, hj, hd⟩ := awaits hw.reachable hawait
    have ends : CanTear setup w fun v =>
        (TearingAt r c 4 v ∧ (v.generation c).reader.joined = true ∧
          (v.generation c).keepalive = .pinging k) ∧
          ∃ x, (v.generation c).invokes k = some (.returned x) := by
      refine CanTear.invoke (fun b => .worker c (.keepalive (.ping b)))
        (fun b => ⟨by cases b <;> rfl, rfl⟩) ?_ hw
        ⟨hat, hread, hp⟩ hj hd
      intro v b g' hv hkeep hb hg
      have hs : (v.generation c).step setup.fromStr (.keepalive (.ping b)) = some g' := by
        rcases hb with rfl | rfl | rfl <;>
          simp only [Generation.step, Generation.stepKeepalive, hkeep.2.2, hg]
      obtain ⟨v', hstep, hat', hg'⟩ := tearing_worker hv hkeep.1 (a := .keepalive (.ping b)) hs
      have hsame := Generation.stepInvoke_tasks hg
      exact ⟨v', hstep, hg', hat', by rw [hg', hsame.1]; exact hkeep.2.1,
        by rw [hg', hsame.2]; exact hkeep.2.2⟩
    refine ends.bind fun v hv hend => ?_
    obtain ⟨⟨hvat, hvr, hvk⟩, x, hx⟩ := hend
    have hv' := hw.path hv
    cases x with
    | ok p =>
      refine CanTear.worker (.keepalive .pinged) hv' hvat rfl
        (by simp only [WorkerAction.toGeneration, Generation.step, Generation.stepKeepalive, hvk,
          hx]; rfl) fun u hu huat hug => ?_
      exact sleeps hu huat (by rw [hug]; exact hvr) (.inr (by rw [hug]))
    | error e =>
      refine CanTear.worker (.keepalive .pinged) hv' hvat rfl
        (by simp only [WorkerAction.toGeneration, Generation.step, Generation.stepKeepalive, hvk,
          hx]; rfl) fun u hu huat hug => ?_
      exact .here ⟨huat, by rw [hug]; exact hvr, by rw [hug]; rfl⟩

theorem sink_released {k : CallId} {x : Except Error Packet} (h : (automaton setup).Reachable w)
    (hx : (w.generation c).invokes k = some (.returned x)) :
    (w.generation c).transport.sinkLock ≠ some (.call k) := by
  intro hlock
  obtain ⟨hc, d, hd, hs⟩ := sink_call h hlock
  have hinv := (generationInv_at h hc).generation.invokes k _ d hx hd
  rcases hinv.returned x rfl with hpc | ⟨hpc, -⟩ <;> simp [hpc, CallPc.holdsSink] at hs

theorem sink_owner {owner : SinkHolder} (hw : Severed setup c w) (hat : TearingAt r c 6 w)
    (hlock : (w.generation c).transport.sinkLock = some owner) :
    ∃ i snd b k j, owner = .call k ∧ w.sends i = some snd ∧ snd.pc = .body b ∧
      b.connection = c ∧ b.waiting = some k ∧ (w.generation c).invokes k = some j ∧
      j ≠ .dropped := by
  have hjoined := (attempt_session hw hat.1).1.tasks.joined (by rw [hat.2]; decide)
  have hread : (w.generation c).reader.joined = true := hjoined.1
  have hkeep : (w.generation c).keepalive.joined = true := hjoined.2
  cases owner with
  | ack =>
    have hout := ack_place hw.reachable hlock
    rw [place_reader, Generation.readerPlace] at hout
    cases hp : (w.generation c).reader <;> simp [hp, ReaderPc.joined] at hread hout
  | call k =>
    obtain ⟨hc, d, hd, hs⟩ := sink_call hw.reachable hlock
    obtain ⟨p, hp⟩ := awaited hw.reachable hc hd (finished_of_holdsSink hs)
    cases p with
    | keepalive e =>
      obtain ⟨k', hk', he⟩ := Option.map_eq_some_iff.mp hp
      cases he
      unfold Generation.pinging at hk'
      split at hk' <;> cases hk'
      rename_i hping
      rw [hping] at hkeep
      cases hkeep
    | supervisor q =>
      obtain ⟨e, he, hp⟩ := Option.bind_eq_some_iff.mp hp
      obtain ⟨k', hk', he⟩ := Option.map_eq_some_iff.mp hp
      cases he
      unfold Session.waiting at hk'
      split at hk'
      · rename_i hphase
        have hrank := hat.2
        rw [hphase] at hrank
        cases hrank
      · cases hk'
    | send i =>
      obtain ⟨snd, hsnd, hwait⟩ := Option.bind_eq_some_iff.mp hp
      obtain ⟨j, hj, hdrop⟩ := awaits hw.reachable hp
      unfold Send.waiting at hwait
      split at hwait
      · rename_i b hpc
        obtain ⟨k', hk', he⟩ := Option.map_eq_some_iff.mp hwait
        cases he
        exact ⟨i, snd, b, k, j, rfl, hsnd, hpc, rfl, hk', hj, hdrop⟩
      · cases hwait
    | reader _ | run _ | disconnect _ => cases hp

theorem CanTear.sinkFree (hw : Severed setup c w) (hat : TearingAt r c 6 w) :
    CanTear setup w fun v => TearingAt r c 6 v ∧ (v.generation c).transport.sinkLock = none := by
  cases hlock : (w.generation c).transport.sinkLock with
  | none => exact .here ⟨hat, hlock⟩
  | some owner =>
    obtain ⟨i, snd, b, k, j, rfl, hsnd, hpc, rfl, hbk, hj, hdrop⟩ := sink_owner hw hat hlock
    have ends : CanTear setup w fun v =>
        (v.sends i = some snd ∧ TearingAt r b.connection 6 v ∧
          ((v.generation b.connection).transport.sinkLock = some (.call k) ∨
            (v.generation b.connection).transport.sinkLock = none)) ∧
          ∃ x, (v.generation b.connection).invokes k = some (.returned x) := by
      refine CanTear.invoke (fun a => .send i (.onInvoke a)) (fun a => ⟨by cases a <;> rfl, rfl⟩) ?_
        hw ⟨hsnd, hat, .inl hlock⟩ hj hdrop
      intro v a g' hv hkeep ha hg
      have hself : (v.shared.setSession b.connection
          { v.shared.sessions b.connection with generation := g' }).sessions b.connection =
          { v.shared.sessions b.connection with generation := g' } := setSession_self ..
      refine ⟨_, send_invokes hkeep.1 hpc hbk ha hg, congrArg Session.generation hself,
        Function.update_self .., ⟨hkeep.2.1.1, ?_⟩, ?_⟩
      · exact (congrArg (fun s : Session => s.phase.rank) hself).trans hkeep.2.1.2
      · have hsame : g'.transport.sinkLock = some (.call k) ∨ g'.transport.sinkLock = none := by
          rcases Generation.stepInvoke_sinkLock ha hg with h | h
          · rw [h]
            exact hkeep.2.2
          · exact .inr h
        have hgen := congrArg (fun s : Session => s.generation.transport.sinkLock) hself
        exact hsame.imp hgen.trans hgen.trans
    refine ends.bind fun v hv hend => ?_
    obtain ⟨⟨_, hvat, hvl⟩, x, hx⟩ := hend
    exact .here ⟨hvat, hvl.resolve_left (sink_released (hw.path hv).reachable hx)⟩

theorem CanTear.stage (b : CloseAction) (hw : Severed setup c w) (hat : TearingAt r c b.rank w)
    (hjoin : b = .join → (w.generation c).reader.joined = true ∧
      (w.generation c).keepalive.joined = true)
    (hsink : b = .takeSink → (w.generation c).transport.sinkLock = none) :
    CanTear setup w (TearingAt r c (b.rank + 1)) := by
  obtain ⟨s, hs⟩ : ∃ s, (w.shared.sessions c).stepClose setup.fromStr b = some s :=
    Session.stepClose_enabled b hat.2 hjoin hsink
  have hout : (ClientAction.run r (.loop (SessionAction.close b).loop)).isOutside = false := by
    cases b <;> rfl
  have hans : w.shared.Answers c (.close b) := trivial
  refine CanTear.session (.close b) hw hat.1 rfl hout hans hs fun v _ hvat hvs => ?_
  exact .here ⟨hvat, by rw [hvs, Session.stepClose_rank hs, hat.2]⟩

theorem CanTear.closes {n : Nat} (hn : 1 ≤ n) (hw : Severed setup c w)
    (hat : TearingAt r c n w) : CanTear setup w (TearingAt r c 7) := by
  have stage : ∀ (b : CloseAction), b ≠ .join → b ≠ .takeSink → ∀ {v}, Severed setup c v →
      TearingAt r c b.rank v → CanTear setup v (TearingAt r c (b.rank + 1)) :=
    fun b hj hs v hv hvat => .stage b hv hvat (fun h => absurd h hj) fun h => absurd h hs
  have takingSink : ∀ {v}, Severed setup c v → TearingAt r c 6 v →
      CanTear setup v (TearingAt r c 7) := by
    intro v hv hvat
    refine (CanTear.sinkFree hv hvat).bind fun u hu huat => ?_
    exact CanTear.stage .takeSink (hv.path hu) huat.1 CloseAction.noConfusion fun _ => huat.2
  have clearing : ∀ {v}, Severed setup c v → TearingAt r c 5 v →
      CanTear setup v (TearingAt r c 7) := fun hv hvat =>
    (stage .clear CloseAction.noConfusion CloseAction.noConfusion hv hvat).bind
      fun _ hu huat => takingSink (hv.path hu) huat
  have joining : ∀ {v}, Severed setup c v → TearingAt r c 4 v →
      CanTear setup v (TearingAt r c 7) := by
    intro v hv hvat
    refine (CanTear.readerEnds hv hvat).bind fun u hu huat => ?_
    have hu' := hv.path hu
    refine (CanTear.keepaliveEnds hu' huat.1 huat.2).bind fun x hx hxat => ?_
    have hx' := hu'.path hx
    refine (CanTear.stage .join hx' hxat.1 (fun _ => hxat.2) CloseAction.noConfusion).bind
      fun y hy hyat => ?_
    exact clearing (hx'.path hy) hyat
  have aborting : ∀ {v}, Severed setup c v → TearingAt r c 3 v →
      CanTear setup v (TearingAt r c 7) := fun hv hvat =>
    (stage .abortAll CloseAction.noConfusion CloseAction.noConfusion hv hvat).bind
      fun _ hu huat => joining (hv.path hu) huat
  have cancelling : ∀ {v}, Severed setup c v → TearingAt r c 2 v →
      CanTear setup v (TearingAt r c 7) := fun hv hvat =>
    (stage .cancel CloseAction.noConfusion CloseAction.noConfusion hv hvat).bind
      fun _ hu huat => aborting (hv.path hu) huat
  cases hp : (w.shared.sessions c).phase with
  | attempting a => exact absurd (hat.2.symm.trans (by rw [hp]; rfl)) (Nat.pos_iff_ne_zero.mp hn)
  | offline x =>
    exact (stage .offline CloseAction.noConfusion CloseAction.noConfusion hw
      ⟨hat.1, by rw [hp]; rfl⟩).bind fun _ hu huat => cancelling (hw.path hu) huat
  | cancelling x => exact cancelling hw ⟨hat.1, by rw [hp]; rfl⟩
  | aborting x => exact aborting hw ⟨hat.1, by rw [hp]; rfl⟩
  | joining x => exact joining hw ⟨hat.1, by rw [hp]; rfl⟩
  | clearing x => exact clearing hw ⟨hat.1, by rw [hp]; rfl⟩
  | takingSink x => exact takingSink hw ⟨hat.1, by rw [hp]; rfl⟩
  | _ => exact .here ⟨hat.1, by rw [hp]; rfl⟩

/-- The attempt on a connection that is cancelled comes to its end, and its teardown too. -/
theorem CanTear.torn (hw : Severed setup c w) (hat : w.attemptOf r = some c) :
    CanTear setup w (TearingAt r c 7) := by
  by_cases hn : 1 ≤ (w.shared.sessions c).phase.rank
  · exact CanTear.closes hn hw ⟨hat, rfl⟩
  · cases hp : (w.shared.sessions c).phase with
    | attempting a =>
      refine (CanTear.attempt a.rest hw hat hp rfl).bind fun v hv hvat => ?_
      exact CanTear.closes (Nat.le_refl 1) (hw.path hv) hvat
    | _ => simp [hp, Phase.rank] at hn

theorem TearingAt.result (h : TearingAt r c 7 w) : ∃ x, (w.shared.sessions c).result = some x := by
  have hrank := h.2
  cases hp : (w.shared.sessions c).phase <;> rw [hp] at hrank <;> first
    | (cases hrank; done)
    | exact ⟨_, by simp only [Session.result, hp]; rfl⟩

end Client

end Maxrs
