import Maxrs.Client
set_option autoImplicit false

/-! Everything that a step of the client can do, said once. -/
namespace Maxrs

namespace Shared

variable (setup : Setup)

def recoveryAfter (sh : Shared) (c : ConnId) : SessionAction → Recovery
  | .attempt (.connected _) => (sh.recovery.connected c (sh.isCancelled c)).1
  | .close .offline => sh.recovery.offline
  | _ => sh.recovery

def Answers (sh : Shared) (c : ConnId) : SessionAction → Prop
  | .attempt (.connected r) => r = (sh.recovery.connected c (sh.isCancelled c)).2
  | .attempt (.dispatchCheck shutdown) => shutdown = sh.handlerShutdown
  | _ => True

def begin (sh : Shared) (config : LoginConfig) : Shared :=
  { sh.setSession sh.created (.new setup.deviceId config sh.recovery.shutdown) with
    created := sh.created + 1 }

inductive Change (sh sh' : Shared) : Prop where
  | session (c : ConnId) (b : SessionAction) (s : Session) : c < sh.created →
      (sh.sessions c).step setup.fromStr b = some s → sh.Answers c b →
      sh' = { sh.setSession c s with recovery := sh.recoveryAfter c b } → Change sh sh'
  | begin (config : LoginConfig) : sh' = sh.begin setup config → Change sh sh'
  | cancelShutdown : sh' = sh.cancelShutdown → Change sh sh'
  | publishStopped : sh' = sh.publishStopped → Change sh sh'
  | handlers : sh' = { sh with handlerShutdown := true } → Change sh sh'
  | lock (h : Option LockHolder) : sh' = { sh with runLock := h } → Change sh sh'
  | cid (n : Int) : sh' = { sh with cid := n } → Change sh sh'
  | quiet : sh' = sh → Change sh sh'

end Shared

def configAfter (config : LoginConfig) (s : Session) : SessionAction → LoginConfig
  | .attempt .perform =>
    match s.tokenToSet with
    | some token => { config with sessionToken := some token }
    | none => config
  | _ => config

inductive RunnerStep (setup : Setup) (sh : Shared) (run : Runner) (sh' : Shared) (run' : Runner) :
    Prop where
  | goto : sh' = sh → (∀ c, run.pc ≠ .attempt c) → (∀ c, run'.pc ≠ .attempt c) →
      run'.config = run.config → RunnerStep setup sh run sh' run'
  | begin : run.pc = .create → sh' = sh.begin setup run.config →
      run' = run.goto (.attempt sh.created) → RunnerStep setup sh run sh' run'
  | session (c : ConnId) (b : SessionAction) (s : Session) : run.pc = .attempt c →
      run'.pc = .attempt c → (sh.sessions c).step setup.fromStr b = some s → sh.Answers c b →
      sh' = { sh.setSession c s with recovery := sh.recoveryAfter c b } →
      run'.config = configAfter run.config (sh.sessions c) b → RunnerStep setup sh run sh' run'
  | after (c : ConnId) (r : Except Error Unit) : run.pc = .attempt c →
      (sh.sessions c).result = some r → sh' = sh → (∀ c, run'.pc ≠ .attempt c) →
      run'.config = run.config → RunnerStep setup sh run sh' run'

variable {setup : Setup} {sh sh' : Shared}

theorem onSession_eq {c : ConnId} {f : Session → Option Session}
    (h : sh.onSession c f = some sh') :
    ∃ s, f (sh.sessions c) = some s ∧ sh' = sh.setSession c s := by
  obtain ⟨s, hs, rfl⟩ := Option.map_eq_some_iff.mp h
  exact ⟨s, hs, rfl⟩

theorem runner_attempt {run run' : Runner} {a : AttemptAction}
    (h : run.step setup sh (.attempt a) = some (sh', run')) :
    RunnerStep setup sh run sh' run' := by
  simp only [Runner.step] at h
  split at h
  · rename_i c hp
    split at h
    · rename_i hl
      obtain ⟨m, hm, he⟩ := Option.map_eq_some_iff.mp h
      obtain ⟨s, hs, rfl⟩ := onSession_eq hm
      have hans : sh.Answers c (.attempt a) := by
        cases a <;> trivial
      have hrec : sh.recoveryAfter c (.attempt a) = sh.recovery := by
        cases a <;> first | rfl | cases hl
      have hout : sh' = sh.setSession c s ∧ run'.pc = run.pc ∧
          run'.config = configAfter run.config (sh.sessions c) (.attempt a) := by
        cases a with
        | perform =>
          cases ht : (sh.sessions c).tokenToSet <;> rw [ht] at he <;> cases he <;>
            simp [configAfter, ht]
        | _ => cases he; exact ⟨rfl, rfl, rfl⟩
      obtain ⟨rfl, hpc, hcfg⟩ := hout
      exact .session c _ s hp (hpc.trans hp) hs hans (by rw [hrec]; rfl) hcfg
    · cases h
  · cases h

theorem runner_after {run run' : Runner} (h : run.step setup sh .after = some (sh', run')) :
    RunnerStep setup sh run sh' run' := by
  simp only [Runner.step] at h
  split at h
  · rename_i c hp
    obtain ⟨r, hr, he⟩ := Option.map_eq_some_iff.mp h
    split at he
    · cases he
      exact .after c r hp hr rfl nofun rfl
    · split at he
      · cases he
        exact .after c _ hp hr rfl nofun rfl
      · split at he <;> cases he
        · exact .after c _ hp hr rfl nofun rfl
        · exact .after c _ hp hr rfl nofun rfl
  · cases h

theorem runner_step {run run' : Runner} {a : LoopAction}
    (h : run.step setup sh a = some (sh', run')) : RunnerStep setup sh run sh' run' := by
  cases a with
  | checkTop | beginCheck =>
    simp only [Runner.step] at h
    split at h <;> cases h
    rename_i hp
    refine .goto rfl (by simp [hp]) (fun c => ?_) rfl
    simp only [Runner.goto]
    split <;> simp
  | beginCreate =>
    simp only [Runner.step] at h
    split at h <;> cases h
    exact .begin (by assumption) rfl rfl
  | poll | park | finishAttempt | dispatchCheck =>
    simp only [Runner.step] at h
    split at h
    · rename_i c hp
      obtain ⟨m, hm, he⟩ := Option.map_eq_some_iff.mp h
      cases he
      obtain ⟨s, hs, rfl⟩ := onSession_eq hm
      first
        | exact .session c .poll s hp hp hs trivial rfl rfl
        | exact .session c .park s hp hp hs trivial rfl rfl
        | exact .session c .finish s hp hp hs trivial rfl rfl
        | exact .session c (.attempt (.dispatchCheck _)) s hp hp hs rfl rfl rfl
    · cases h
  | attempt a => exact runner_attempt h
  | connected =>
    simp only [Runner.step] at h
    split at h
    · rename_i c hp
      obtain ⟨m, hm, he⟩ := Option.map_eq_some_iff.mp h
      cases he
      obtain ⟨s, hs, rfl⟩ := onSession_eq hm
      exact .session c (.attempt (.connected _)) s hp hp hs rfl rfl rfl
    · cases h
  | offline elapsed =>
    simp only [Runner.step] at h
    split at h
    · rename_i c hp
      obtain ⟨m, hm, he⟩ := Option.map_eq_some_iff.mp h
      cases he
      obtain ⟨s, hs, rfl⟩ := onSession_eq hm
      refine .session c (.close .offline) s hp ?_ hs trivial rfl ?_
      · split <;> exact hp
      · split <;> rfl
    · cases h
  | close a =>
    simp only [Runner.step] at h
    split at h
    · rename_i c hp
      split at h
      · cases h
      · rename_i hoff
        obtain ⟨m, hm, he⟩ := Option.map_eq_some_iff.mp h
        cases he
        obtain ⟨s, hs, rfl⟩ := onSession_eq hm
        refine .session c (.close a) s hp hp hs trivial ?_ rfl
        cases a <;> first | rfl | simp [Runner.isOffline] at hoff
    · cases h
  | after => exact runner_after h
  | sleepPoll =>
    simp only [Runner.step] at h
    split at h <;> cases h
    rename_i b hp
    refine .goto rfl (by simp [hp]) (fun c => ?_) rfl
    simp only [Runner.goto]
    split <;> simp
  | slept =>
    simp only [Runner.step] at h
    split at h <;> cases h
    rename_i hp
    exact .goto rfl (by simp [hp]) nofun rfl

theorem RunnerStep.change {run run' : Runner} (h : RunnerStep setup sh run sh' run')
    (hc : ∀ c, run.pc = .attempt c → c < sh.created) : sh.Change setup sh' := by
  cases h with
  | goto hs hp hp' hcfg => exact .quiet hs
  | begin hp hs hr => exact .begin _ hs
  | session c b s hp hp' hs hans he hcfg => exact .session c b s (hc c hp) hs hans he
  | after c r hp hr hs hp' hcfg => exact .quiet hs

inductive RunStep (setup : Setup) (sh : Shared) (r : RunId) (run : Run) (sh' : Shared) :
    Run → Prop where
  | lock : run.call = .trying → sh.runLock = none → sh' = { sh with runLock := some (.run r) } →
      RunStep setup sh r run sh' { run with call := .locked }
  | reject : run.call = .trying → sh.runLock ≠ none → sh' = sh →
      RunStep setup sh r run sh' { run with call := .returned (.error .clientAlreadyRunning) }
  | closed : run.call = .locked → sh.recovery.shutdown = true →
      sh' = { sh with runLock := none } →
      RunStep setup sh r run sh' { run with call := .returned (.error .connectionClosed) }
  | spawn : run.call = .locked → sh.recovery.shutdown = false → sh' = sh →
      RunStep setup sh r run sh' { call := .joining, supervisor := .spawned }
  | join (result : Except Error Unit) : run.call = .joining →
      run.supervisor = .finished result → sh' = sh →
      RunStep setup sh r run sh' { run with call := .cancelling (some result) }
  | dropTrying : run.call = .trying → sh' = sh →
      RunStep setup sh r run sh' { run with call := .dropped }
  | dropJoining : run.call = .joining → sh' = sh →
      RunStep setup sh r run sh' { run with call := .cancelling none }
  | guardCancel (result : Option (Except Error Unit)) : run.call = .cancelling result →
      sh' = sh.cancelShutdown →
      RunStep setup sh r run sh' { run with call := .publishing result }
  | guardPublish (result : Option (Except Error Unit)) : run.call = .publishing result →
      sh' = sh.publishStopped → RunStep setup sh r run sh'
        { run with call := match result with
            | some result => .returned result
            | none => .dropped }
  | start : run.supervisor = .spawned → sh' = sh →
      RunStep setup sh r run sh' { run with supervisor := .looping (Run.startRunner setup) }
  | loop (runner runner' : Runner) : run.supervisor = .looping runner →
      RunnerStep setup sh runner sh' runner' →
      RunStep setup sh r run sh' { run with supervisor := .looping runner' }
  | loopEnd (runner : Runner) (result : Except Error Unit) : run.supervisor = .looping runner →
      runner.pc = .finished result → sh' = sh →
      RunStep setup sh r run sh' { run with supervisor := .cancelling result }
  | supervisorCancel (result : Except Error Unit) : run.supervisor = .cancelling result →
      sh' = sh.cancelShutdown →
      RunStep setup sh r run sh' { run with supervisor := .publishing result }
  | supervisorPublish (result : Except Error Unit) : run.supervisor = .publishing result →
      sh' = sh.publishStopped →
      RunStep setup sh r run sh' { run with supervisor := .handlers result }
  | cancelHandlers (result : Except Error Unit) : run.supervisor = .handlers result →
      sh' = { sh with handlerShutdown := true } →
      RunStep setup sh r run sh' { run with supervisor := .unlocking result }
  | unlock (result : Except Error Unit) : run.supervisor = .unlocking result →
      sh' = { sh with runLock := none } →
      RunStep setup sh r run sh' { run with supervisor := .finished result }

theorem run_step {r : RunId} {run run' : Run} {a : RunAction}
    (h : run.step setup sh r a = some (sh', run')) : RunStep setup sh r run sh' run' := by
  cases a with
  | tryLock =>
    simp only [Run.step] at h
    split at h
    · split at h <;> cases h
      · exact .lock (by assumption) (by assumption) rfl
      · exact .reject (by assumption) (by assumption) rfl
    · cases h
  | checkShutdown =>
    simp only [Run.step] at h
    split at h
    · split at h <;> cases h
      · exact .closed (by assumption) (by assumption) rfl
      · rename_i hs
        exact .spawn (by assumption) (by simpa using hs) rfl
    · cases h
  | join =>
    simp only [Run.step] at h
    split at h <;> cases h
    exact .join _ (by assumption) (by assumption) rfl
  | drop =>
    simp only [Run.step] at h
    split at h <;> cases h
    · exact .dropTrying (by assumption) rfl
    · exact .dropJoining (by assumption) rfl
  | guardCancel =>
    simp only [Run.step] at h
    split at h <;> cases h
    exact .guardCancel _ (by assumption) rfl
  | guardPublish =>
    simp only [Run.step] at h
    split at h <;> cases h
    · exact .guardPublish (some _) (by assumption) rfl
    · exact .guardPublish none (by assumption) rfl
  | start =>
    simp only [Run.step] at h
    split at h <;> cases h
    exact .start (by assumption) rfl
  | loop a =>
    simp only [Run.step] at h
    split at h
    · obtain ⟨out, hout, he⟩ := Option.map_eq_some_iff.mp h
      cases he
      exact .loop _ _ (by assumption) (runner_step hout)
    · cases h
  | loopEnd =>
    simp only [Run.step] at h
    split at h <;> cases h
    exact .loopEnd _ _ (by assumption) rfl rfl
  | supervisorCancel =>
    simp only [Run.step] at h
    split at h <;> cases h
    exact .supervisorCancel _ (by assumption) rfl
  | supervisorPublish =>
    simp only [Run.step] at h
    split at h <;> cases h
    exact .supervisorPublish _ (by assumption) rfl
  | cancelHandlers =>
    simp only [Run.step] at h
    split at h <;> cases h
    exact .cancelHandlers _ (by assumption) rfl
  | unlock =>
    simp only [Run.step] at h
    split at h <;> cases h
    exact .unlock _ (by assumption) rfl

theorem RunStep.change {r : RunId} {run run' : Run} (h : RunStep setup sh r run sh' run')
    (hc : ∀ runner c, run.supervisor = .looping runner → runner.pc = .attempt c →
      c < sh.created) : sh.Change setup sh' := by
  cases h with
  | lock _ _ hs | closed _ _ hs | unlock _ _ hs => exact .lock _ hs
  | guardCancel _ _ hs | supervisorCancel _ _ hs => exact .cancelShutdown hs
  | guardPublish _ _ hs | supervisorPublish _ _ hs => exact .publishStopped hs
  | cancelHandlers _ _ hs => exact .handlers hs
  | loop runner runner' hl hr => exact hr.change fun c => hc runner c hl
  | reject _ _ hs | spawn _ _ hs | join _ _ _ hs | dropTrying _ hs | dropJoining _ hs | start _ hs
  | loopEnd _ _ _ _ hs => exact .quiet hs

def SenderAction.isInvoke : SenderAction → Bool
  | .invoke _ _ => true
  | _ => false

/-- At most one step of the connection, and no request. -/
def Touches (setup : Setup) (sh : Shared) (c : ConnId) (sh' : Shared) : Prop :=
  sh' = sh ∨ ∃ a s, SenderAction.isInvoke a = false ∧
    (sh.sessions c).act setup.fromStr a.toGeneration = some s ∧ sh' = sh.setSession c s

def SendAnswer (sh : Shared) (b : SendBody) : (op : SendOp) → op.Ret → Prop
  | .invoke _ _, r => ∃ k, b.waiting = some k ∧
      (sh.sessions b.connection).generation.invokes k = some (.returned r)
  | .upload _ _ _, .error e => e = .connectionClosed ∧ sh.isCancelled b.connection = true
  | .processed _, .error e => e = .connectionClosed ∧ sh.isCancelled b.connection = true
  | _, _ => True

inductive SendStep (setup : Setup) (sh : Shared) (snd : Send) (sh' : Shared) : Send → Prop where
  | clock (now : Int) : snd.pc = .clock → sh' = sh → SendStep setup sh snd sh' (snd.goto (.cid now))
  | takeCid (now cid : Int) : snd.pc = .cid now → sh' = { sh with cid := cid } →
      SendStep setup sh snd sh' { snd with cid := cid, pc := .current .reading }
  | borrow : snd.pc = .current .reading → sh' = sh → SendStep setup sh snd sh'
      (snd.goto (.current (.checking sh.recovery.state sh.recovery.version)))
  | handed (c : ConnId) (seen : Nat) : snd.pc = .current (.checking (.ready c) seen) →
      sh.isCancelled c = false → sh' = sh → SendStep setup sh snd sh'
        { snd with
          pc := .body
            { connection := c, rest := snd.job.body snd.cid, waiting := none, waiter := none,
              polling := false, trace := [] }
          used := snd.used ++ [c] }
  | stopped (seen : Nat) : snd.pc = .current (.checking .stopped seen) → sh' = sh →
      SendStep setup sh snd sh' (snd.goto (.returned (.error .connectionClosed)))
  | wait (state : RecoveryState) (seen : Nat) : snd.pc = .current (.checking state seen) →
      state ≠ .stopped → sh' = sh → SendStep setup sh snd sh' (snd.goto (.current (.waiting seen)))
  | woken (seen : Nat) : snd.pc = .current (.waiting seen) → sh' = sh →
      SendStep setup sh snd sh' (snd.goto (.current .reading))
  | issue (b : SendBody) (opcode : Nat) (payload : Value)
      (next : Except Error Packet → SendScript (Except Error Unit)) (s : Session) :
      snd.pc = .body b → b.rest = .call (.invoke opcode payload) next → b.waiting = none →
      (sh.sessions b.connection).act setup.fromStr (.invoke opcode payload) = some s →
      sh' = sh.setSession b.connection s → SendStep setup sh snd sh'
        { snd with
          pc := .body { b with
            waiting := some (sh.sessions b.connection).generation.transport.started }
          requests := snd.requests ++
            [(b.connection, (sh.sessions b.connection).generation.transport.started)] }
  | act (b : SendBody) : snd.pc = .body b → Touches setup sh b.connection sh' →
      SendStep setup sh snd sh' snd
  | answer (b b' : SendBody) (op : SendOp) (r : op.Ret)
      (next : op.Ret → SendScript (Except Error Unit)) : snd.pc = .body b →
      b.rest = .call op next → SendAnswer sh b op r → b'.connection = b.connection →
      b'.trace = b.trace → Touches setup sh b.connection sh' →
      SendStep setup sh snd sh' (snd.answer b' op r next)
  | turn (b : SendBody) (polling : Bool) : snd.pc = .body b → sh' = sh →
      SendStep setup sh snd sh' (snd.goto (.body { b with polling := polling }))
  | done (b : SendBody) : snd.pc = .body b → b.rest = .done (.ok ()) → sh' = sh →
      SendStep setup sh snd sh' (snd.goto (.returned (.ok ())))
  | retry (b : SendBody) (e : Error) : snd.pc = .body b → b.rest = .done (.error e) →
      isTransportFailure e = true → sh' = sh →
      SendStep setup sh snd sh' (snd.goto (.current .reading))
  | fail (b : SendBody) (e : Error) : snd.pc = .body b → b.rest = .done (.error e) →
      isTransportFailure e = false → sh' = sh →
      SendStep setup sh snd sh' (snd.goto (.returned (.error e)))
  | drop : (sh' = sh ∨ ∃ b, snd.pc = .body b ∧ Touches setup sh b.connection sh') →
      SendStep setup sh snd sh' (snd.goto .dropped)

theorem touches_onConnection {b : SendBody} {a : SenderAction} (ha : a.isInvoke = false)
    (h : Send.onConnection setup sh b a = some sh') : Touches setup sh b.connection sh' := by
  obtain ⟨s, hs, rfl⟩ := onSession_eq h
  exact .inr ⟨a, s, ha, hs, rfl⟩

theorem send_stepCurrent {snd snd' : Send} {f : Current → Option Current}
    (hf : ∀ p q, f p = some q →
      (p = .reading ∧ q = .checking sh.recovery.state sh.recovery.version) ∨
      (∃ c seen, p = .checking (.ready c) seen ∧ sh.isCancelled c = false ∧
        q = .returned (.ok c)) ∨
      (∃ seen, p = .checking .stopped seen ∧ q = .returned (.error .connectionClosed)) ∨
      (∃ state seen, p = .checking state seen ∧ state ≠ .stopped ∧ q = .waiting seen) ∨
      ∃ seen, p = .waiting seen ∧ q = .reading)
    (h : Send.stepCurrent sh snd f = some (sh', snd')) : SendStep setup sh snd sh' snd' := by
  simp only [Send.stepCurrent] at h
  split at h
  · rename_i p hp
    obtain ⟨q, hq, he⟩ := Option.map_eq_some_iff.mp h
    rcases hf p q hq with ⟨rfl, rfl⟩ | ⟨c, seen, rfl, hc, rfl⟩ | ⟨seen, rfl, rfl⟩ |
      ⟨state, seen, rfl, hne, rfl⟩ | ⟨seen, rfl, rfl⟩
    · cases he
      exact .borrow hp rfl
    · cases he
      exact .handed c seen hp hc rfl
    · cases he
      exact .stopped seen hp rfl
    · cases he
      exact .wait state seen hp hne rfl
    · cases he
      exact .woken seen hp rfl
  · cases h

inductive BodyTurn (setup : Setup) (sh : Shared) (snd : Send) (b : SendBody) :
    SendAction → Shared → Send → Prop where
  | issue {sh' : Shared} (opcode : Nat) (payload : Value)
      (next : (SendOp.invoke opcode payload).Ret → SendScript (Except Error Unit)) :
      b.rest = .call (.invoke opcode payload) next → b.waiting = none →
      Send.onConnection setup sh b (.invoke opcode payload) = some sh' →
      BodyTurn setup sh snd b .issue sh'
        { snd with
          pc := .body { b with
            waiting := some (sh.sessions b.connection).generation.transport.started }
          requests := snd.requests ++
            [(b.connection, (sh.sessions b.connection).generation.transport.started)] }
  | onInvoke {sh' : Shared} (k : CallId) (act : InvokeAction) : b.waiting = some k → act ≠ .drop →
      Send.onConnection setup sh b (.onInvoke k act) = some sh' →
      BodyTurn setup sh snd b (.onInvoke act) sh' snd
  | take (opcode : Nat) (payload : Value)
      (next : (SendOp.invoke opcode payload).Ret → SendScript (Except Error Unit)) (k : CallId)
      (r : Except Error Packet) : b.rest = .call (.invoke opcode payload) next →
      b.waiting = some k →
      (sh.sessions b.connection).generation.invokes k = some (.returned r) →
      BodyTurn setup sh snd b .take sh (snd.answer b (.invoke opcode payload) r next)
  | register {sh' : Shared} (fileId : Int)
      (next : (SendOp.register fileId).Ret → SendScript (Except Error Unit))
      (waiter : Option AttachmentWaiter) : b.rest = .call (.register fileId) next →
      waiter = ((sh.sessions b.connection).generation.attachmentRegistry.register fileId).2 →
      Send.onConnection setup sh b (.register fileId) = some sh' →
      BodyTurn setup sh snd b .register sh'
        (snd.answer { b with waiter := waiter } (.register fileId) waiter next)
  | uploadClosed (url : String) (headers : List (String × String)) (body : ByteArray)
      (next : (SendOp.upload url headers body).Ret → SendScript (Except Error Unit)) :
      b.rest = .call (.upload url headers body) next → sh.isCancelled b.connection = true →
      BodyTurn setup sh snd b .selectPoll sh
        (snd.answer b (.upload url headers body) (.error .connectionClosed) next)
  | waitClosed {sh' : Shared} (w : AttachmentWaiter)
      (next : (SendOp.processed w).Ret → SendScript (Except Error Unit)) :
      b.rest = .call (.processed w) next → sh.isCancelled b.connection = true →
      Send.onConnection setup sh b (.dropWaiter w) = some sh' →
      BodyTurn setup sh snd b .selectPoll sh'
        (snd.answer { b with waiter := none } (.processed w) (.error .connectionClosed) next)
  | select (op : SendOp) (next : op.Ret → SendScript (Except Error Unit)) : b.rest = .call op next →
      (∀ opcode payload, op ≠ .invoke opcode payload) → sh.isCancelled b.connection = false →
      BodyTurn setup sh snd b .selectPoll sh (snd.goto (.body { b with polling := true }))
  | park : b.polling = true →
      BodyTurn setup sh snd b .selectPark sh (snd.goto (.body { b with polling := false }))
  | uploaded (url : String) (headers : List (String × String)) (body : ByteArray)
      (r : Except HttpError Nat)
      (next : (SendOp.upload url headers body).Ret → SendScript (Except Error Unit)) :
      b.rest = .call (.upload url headers body) next → b.polling = true →
      BodyTurn setup sh snd b (.uploaded r) sh
        (snd.answer b (.upload url headers body) (.ok r) next)
  | processed {sh' : Shared} (w : AttachmentWaiter)
      (next : (SendOp.processed w).Ret → SendScript (Except Error Unit)) :
      b.rest = .call (.processed w) next → b.polling = true →
      (sh.sessions b.connection).generation.attachmentRegistry.completed w.identity = true →
      Send.onConnection setup sh b (.dropWaiter w) = some sh' →
      BodyTurn setup sh snd b .processed sh'
        (snd.answer { b with waiter := none } (.processed w) (.ok true) next)
  | timedOut {sh' : Shared} (w : AttachmentWaiter)
      (next : (SendOp.processed w).Ret → SendScript (Except Error Unit)) :
      b.rest = .call (.processed w) next → b.polling = true →
      Send.onConnection setup sh b (.dropWaiter w) = some sh' →
      BodyTurn setup sh snd b .processTimeout sh'
        (snd.answer { b with waiter := none } (.processed w) (.ok false) next)
  | dropWaiter {sh' : Shared} (w : AttachmentWaiter)
      (next : (SendOp.dropWaiter w).Ret → SendScript (Except Error Unit)) :
      b.rest = .call (.dropWaiter w) next →
      Send.onConnection setup sh b (.dropWaiter w) = some sh' →
      BodyTurn setup sh snd b .dropWaiter sh'
        (snd.answer { b with waiter := none } (.dropWaiter w) () next)
  | done : b.rest = .done (.ok ()) →
      BodyTurn setup sh snd b .finish sh (snd.goto (.returned (.ok ())))
  | failed (e : Error) : b.rest = .done (.error e) →
      BodyTurn setup sh snd b .finish sh (snd.goto
        (if isTransportFailure e then .current .reading else .returned (.error e)))
  | dropInvoke {sh' : Shared} (k : CallId) : b.waiting = some k →
      Send.onConnection setup sh b (.onInvoke k .drop) = some sh' →
      BodyTurn setup sh snd b .drop sh' (snd.goto .dropped)
  | dropSelect {sh' : Shared} (w : AttachmentWaiter) : b.waiting = none → b.waiter = some w →
      Send.onConnection setup sh b (.dropWaiter w) = some sh' →
      BodyTurn setup sh snd b .drop sh' (snd.goto .dropped)

theorem onInvoke_turn {snd snd' : Send} {b : SendBody} {act : InvokeAction}
    (h : snd.stepBody setup sh b (.onInvoke act) = some (sh', snd')) :
    BodyTurn setup sh snd b (.onInvoke act) sh' snd' := by
  cases hw : b.waiting with
  | none => simp [Send.stepBody, hw] at h
  | some k =>
    have hdrop : act ≠ .drop := by
      rintro rfl
      simp [Send.stepBody, hw] at h
    have hout : (Send.onConnection setup sh b (.onInvoke k act)).map (fun sh => (sh, snd)) =
        some (sh', snd') := by
      cases act <;> first | exact absurd rfl hdrop | simpa [Send.stepBody, hw] using h
    obtain ⟨m, hm, he⟩ := Option.map_eq_some_iff.mp hout
    cases he
    exact .onInvoke k act hw hdrop hm

theorem selectPoll_turn {snd snd' : Send} {b : SendBody}
    (h : snd.stepBody setup sh b .selectPoll = some (sh', snd')) :
    BodyTurn setup sh snd b .selectPoll sh' snd' := by
  simp only [Send.stepBody] at h
  split at h
  · rename_i url headers body next hr
    split at h
    · cases h
    · split at h <;> cases h
      · exact .uploadClosed url headers body next hr (by assumption)
      · rename_i hn
        exact .select _ next hr (by simp) (Bool.eq_false_iff.mpr hn)
  · rename_i w next hr
    split at h
    · cases h
    · split at h
      · rename_i hc
        obtain ⟨m, hm, he⟩ := Option.map_eq_some_iff.mp h
        cases he
        exact .waitClosed w next hr hc hm
      · rename_i hn
        cases h
        exact .select _ next hr (by simp) (Bool.eq_false_iff.mpr hn)
  · cases h

theorem drop_turn {snd snd' : Send} {b : SendBody}
    (h : snd.stepBody setup sh b .drop = some (sh', snd')) :
    BodyTurn setup sh snd b .drop sh' snd' := by
  simp only [Send.stepBody] at h
  split at h
  · rename_i k hw
    obtain ⟨m, hm, he⟩ := Option.map_eq_some_iff.mp h
    cases he
    exact .dropInvoke k hw hm
  · rename_i w hw hheld
    split at h
    · cases h
    · split at h
      · obtain ⟨m, hm, he⟩ := Option.map_eq_some_iff.mp h
        cases he
        exact .dropSelect w hw hheld hm
      · obtain ⟨m, hm, he⟩ := Option.map_eq_some_iff.mp h
        cases he
        exact .dropSelect w hw hheld hm
      · cases h
  · cases h

theorem body_turn {snd snd' : Send} {b : SendBody} {a : SendAction}
    (h : snd.stepBody setup sh b a = some (sh', snd')) : BodyTurn setup sh snd b a sh' snd' := by
  cases a with
  | issue =>
    simp only [Send.stepBody] at h
    split at h
    · rename_i opcode payload next hr hw
      obtain ⟨m, hm, he⟩ := Option.map_eq_some_iff.mp h
      cases he
      exact .issue opcode payload next hr hw hm
    · cases h
  | onInvoke act => exact onInvoke_turn h
  | take =>
    simp only [Send.stepBody] at h
    split at h
    · rename_i opcode payload next k hr hw
      split at h <;> cases h
      rename_i r hret
      exact .take opcode payload next k r hr hw hret
    · cases h
  | register =>
    simp only [Send.stepBody] at h
    split at h
    · rename_i fileId next hr
      obtain ⟨m, hm, he⟩ := Option.map_eq_some_iff.mp h
      cases he
      exact .register fileId next _ hr rfl hm
    · cases h
  | selectPoll => exact selectPoll_turn h
  | selectPark =>
    simp only [Send.stepBody] at h
    split at h <;> cases h
    exact .park (by assumption)
  | uploaded r =>
    simp only [Send.stepBody] at h
    split at h
    · rename_i url headers body next hr
      split at h <;> cases h
      exact .uploaded url headers body r next hr (by assumption)
    · cases h
  | processed =>
    simp only [Send.stepBody] at h
    split at h
    · rename_i w next hr
      split at h
      · rename_i hc
        obtain ⟨hpoll, hdone⟩ := Bool.and_eq_true_iff.mp hc
        obtain ⟨m, hm, he⟩ := Option.map_eq_some_iff.mp h
        cases he
        exact .processed w next hr hpoll hdone hm
      · cases h
    · cases h
  | processTimeout =>
    simp only [Send.stepBody] at h
    split at h
    · rename_i w next hr
      split at h
      · rename_i hc
        obtain ⟨m, hm, he⟩ := Option.map_eq_some_iff.mp h
        cases he
        exact .timedOut w next hr (Bool.and_eq_true_iff.mp hc).1 hm
      · cases h
    · cases h
  | dropWaiter =>
    simp only [Send.stepBody] at h
    split at h
    · rename_i w next hr
      obtain ⟨m, hm, he⟩ := Option.map_eq_some_iff.mp h
      cases he
      exact .dropWaiter w next hr hm
    · cases h
  | finish =>
    simp only [Send.stepBody] at h
    split at h
    · cases h
      exact .done (by assumption)
    · cases h
      exact .failed _ (by assumption)
    · cases h
  | drop => exact drop_turn h
  | readClock _ | takeCid | borrow | check | wake => simp [Send.stepBody] at h

theorem send_stepBody {snd snd' : Send} {b : SendBody} {a : SendAction} (hp : snd.pc = .body b)
    (h : snd.stepBody setup sh b a = some (sh', snd')) : SendStep setup sh snd sh' snd' := by
  cases body_turn h with
  | issue opcode payload next hr hw hm =>
    obtain ⟨s, hs, rfl⟩ := onSession_eq hm
    exact .issue b opcode payload next s hp hr hw hs rfl
  | onInvoke k act hw hdrop hm => exact .act b hp (touches_onConnection rfl hm)
  | take opcode payload next k r hr hw hret =>
    exact .answer b b _ _ next hp hr ⟨k, hw, hret⟩ rfl rfl (.inl rfl)
  | register fileId next w hr hwaiter hm =>
    exact .answer b _ _ _ next hp hr trivial rfl rfl (touches_onConnection rfl hm)
  | uploadClosed url headers body next hr hc =>
    exact .answer b b _ _ next hp hr ⟨rfl, hc⟩ rfl rfl (.inl rfl)
  | waitClosed w next hr hc hm =>
    exact .answer b _ _ _ next hp hr ⟨rfl, hc⟩ rfl rfl (touches_onConnection rfl hm)
  | select op next hr hop hc => exact .turn b true hp rfl
  | park hpoll => exact .turn b false hp rfl
  | uploaded url headers body r next hr hpoll =>
    exact .answer b b _ _ next hp hr trivial rfl rfl (.inl rfl)
  | processed w next hr hpoll hdone hm =>
    exact .answer b _ _ _ next hp hr trivial rfl rfl (touches_onConnection rfl hm)
  | timedOut w next hr hpoll hm | dropWaiter w next hr hm =>
    exact .answer b _ _ _ next hp hr trivial rfl rfl (touches_onConnection rfl hm)
  | done hr => exact .done b hp hr rfl
  | failed e hr =>
    by_cases he : isTransportFailure e = true
    · rw [if_pos he]
      exact .retry b e hp hr he rfl
    · rw [if_neg he]
      exact .fail b e hp hr (by simpa using he) rfl
  | dropInvoke k hw hm => exact .drop (.inr ⟨b, hp, touches_onConnection rfl hm⟩)
  | dropSelect w hw hheld hm => exact .drop (.inr ⟨b, hp, touches_onConnection rfl hm⟩)

inductive SendTurn (setup : Setup) (sh : Shared) (snd : Send) :
    SendAction → Shared → Send → Prop where
  | clock (millis : Nat) : snd.pc = .clock →
      SendTurn setup sh snd (.readClock millis) sh (snd.goto (.cid (-(millis : Int))))
  | takeCid (now : Int) : snd.pc = .cid now →
      SendTurn setup sh snd .takeCid { sh with cid := min now (sh.cid - 1) }
        { snd with cid := min now (sh.cid - 1), pc := .current .reading }
  | borrow {sh' : Shared} {snd' : Send} :
      Send.stepCurrent sh snd (Current.borrow sh.recovery) = some (sh', snd') →
      SendTurn setup sh snd .borrow sh' snd'
  | check {sh' : Shared} {snd' : Send} :
      Send.stepCurrent sh snd (Current.check sh.isCancelled) = some (sh', snd') →
      SendTurn setup sh snd .check sh' snd'
  | wake {sh' : Shared} {snd' : Send} :
      Send.stepCurrent sh snd (Current.wake sh.recovery) = some (sh', snd') →
      SendTurn setup sh snd .wake sh' snd'
  | drop : (snd.pc = .clock ∨ (∃ now, snd.pc = .cid now) ∨
      ∃ seen, snd.pc = .current (.waiting seen)) →
      SendTurn setup sh snd .drop sh (snd.goto .dropped)
  | body {a : SendAction} {sh' : Shared} {snd' : Send} (b : SendBody) : snd.pc = .body b →
      snd.stepBody setup sh b a = some (sh', snd') → SendTurn setup sh snd a sh' snd'

theorem send_turn {snd snd' : Send} {a : SendAction}
    (h : snd.step setup sh a = some (sh', snd')) : SendTurn setup sh snd a sh' snd' := by
  cases a with
  | readClock millis =>
    simp only [Send.step] at h
    split at h <;> cases h
    exact .clock millis (by assumption)
  | takeCid =>
    simp only [Send.step] at h
    split at h <;> cases h
    exact .takeCid _ (by assumption)
  | borrow => exact .borrow h
  | check => exact .check h
  | wake => exact .wake h
  | drop =>
    simp only [Send.step] at h
    split at h
    · cases h
      exact .drop (.inl (by assumption))
    · cases h
      exact .drop (.inr (.inl ⟨_, by assumption⟩))
    · cases h
      exact .drop (.inr (.inr ⟨_, by assumption⟩))
    · exact .body _ (by assumption) h
    · cases h
  | issue | onInvoke _ | take | register | selectPoll | selectPark | uploaded _ | processed
  | processTimeout | dropWaiter | finish =>
    simp only [Send.step] at h
    split at h
    · exact .body _ (by assumption) h
    · cases h

theorem send_step {snd snd' : Send} {a : SendAction}
    (h : snd.step setup sh a = some (sh', snd')) : SendStep setup sh snd sh' snd' := by
  cases send_turn h with
  | clock millis hp => exact .clock _ hp rfl
  | takeCid now hp => exact .takeCid _ _ hp rfl
  | borrow h =>
    refine send_stepCurrent (fun p q hq => ?_) h
    cases p <;> simp only [Current.borrow, Option.some.injEq, reduceCtorEq] at hq
    exact .inl ⟨rfl, hq.symm⟩
  | check h =>
    refine send_stepCurrent (fun p q hq => ?_) h
    cases p with
    | checking state seen =>
      cases state with
      | ready c =>
        simp only [Current.check, Option.some.injEq] at hq
        split at hq
        · exact .inr (.inr (.inr (.inl ⟨_, seen, rfl, (by simp), hq.symm⟩)))
        · rename_i hc
          exact .inr (.inl ⟨c, seen, rfl, by simpa using hc, hq.symm⟩)
      | stopped =>
        simp only [Current.check, Option.some.injEq] at hq
        exact .inr (.inr (.inl ⟨seen, rfl, hq.symm⟩))
      | offline =>
        simp only [Current.check, Option.some.injEq] at hq
        exact .inr (.inr (.inr (.inl ⟨_, seen, rfl, (by simp), hq.symm⟩)))
    | _ => simp [Current.check] at hq
  | wake h =>
    refine send_stepCurrent (fun p q hq => ?_) h
    cases p with
    | waiting seen =>
      simp only [Current.wake] at hq
      split at hq <;> cases hq
      exact .inr (.inr (.inr (.inr ⟨seen, rfl, rfl⟩)))
    | _ => simp [Current.wake] at hq
  | drop hp => exact .drop (.inl rfl)
  | body b hp h => exact send_stepBody hp h

inductive DisconnectStep (sh : Shared) (d : DisconnectId) (pc : DisconnectPc) (sh' : Shared) :
    DisconnectPc → Prop where
  | stopCancel : pc = .stopping → sh' = sh.cancelShutdown → DisconnectStep sh d pc sh' .publishing
  | stopPublish : pc = .publishing → sh' = sh.publishStopped → DisconnectStep sh d pc sh' .locking
  | lock : pc = .locking → sh.runLock = none → sh' = { sh with runLock := some (.disconnect d) } →
      DisconnectStep sh d pc sh' .locked
  | cancelHandlers : pc = .locked → sh' = { sh with handlerShutdown := true } →
      DisconnectStep sh d pc sh' .unlocking
  | unlock : pc = .unlocking → sh' = { sh with runLock := none } →
      DisconnectStep sh d pc sh' .returned
  | drop : pc = .stopping ∨ pc = .locking → sh' = sh → DisconnectStep sh d pc sh' .dropped

theorem disconnect_step {d : DisconnectId} {pc pc' : DisconnectPc} {a : DisconnectAction}
    (h : pc.step sh d a = some (sh', pc')) : DisconnectStep sh d pc sh' pc' := by
  cases a with
  | stopCancel =>
    simp only [DisconnectPc.step] at h
    split at h <;> cases h
    exact .stopCancel rfl rfl
  | stopPublish =>
    simp only [DisconnectPc.step] at h
    split at h <;> cases h
    exact .stopPublish rfl rfl
  | lock =>
    simp only [DisconnectPc.step] at h
    split at h
    · split at h <;> cases h
      exact .lock rfl (by assumption) rfl
    · cases h
  | cancelHandlers =>
    simp only [DisconnectPc.step] at h
    split at h <;> cases h
    exact .cancelHandlers rfl rfl
  | unlock =>
    simp only [DisconnectPc.step] at h
    split at h <;> cases h
    exact .unlock rfl rfl
  | drop =>
    simp only [DisconnectPc.step] at h
    split at h <;> cases h
    · exact .drop (.inl rfl) rfl
    · exact .drop (.inr rfl) rfl

theorem DisconnectStep.change {d : DisconnectId} {pc pc' : DisconnectPc}
    (h : DisconnectStep sh d pc sh' pc') : sh.Change setup sh' := by
  cases h with
  | stopCancel _ hs => exact .cancelShutdown hs
  | stopPublish _ hs => exact .publishStopped hs
  | lock _ _ hs | unlock _ hs => exact .lock _ hs
  | cancelHandlers _ hs => exact .handlers hs
  | drop _ hs => exact .quiet hs

theorem Touches.change {c : ConnId} (h : Touches setup sh c sh') (hc : c < sh.created)
    (hp : isPublished (sh.sessions c).trace = true) : sh.Change setup sh' := by
  rcases h with rfl | ⟨a, s, -, hs, rfl⟩
  · exact .quiet rfl
  · refine .session c (.sender a) s hc ?_ trivial rfl
    simpa [Session.step, hp] using hs

theorem SendStep.change {snd snd' : Send} (h : SendStep setup sh snd sh' snd')
    (hc : ∀ b, snd.pc = .body b → b.connection < sh.created ∧
      isPublished (sh.sessions b.connection).trace = true) : sh.Change setup sh' := by
  cases h with
  | takeCid now cid hp hs => exact .cid _ hs
  | issue b opcode payload next s hp hr hw hact hs =>
    obtain ⟨hlt, hpub⟩ := hc b hp
    refine .session b.connection (.sender (.invoke opcode payload)) s hlt ?_ trivial hs
    simpa [Session.step, hpub, SenderAction.toGeneration] using hact
  | act b hp ht => exact ht.change (hc b hp).1 (hc b hp).2
  | answer b b' op r next hp hr ha hb hbt ht => exact ht.change (hc b hp).1 (hc b hp).2
  | drop ht =>
    rcases ht with hs | ⟨b, hp, ht⟩
    · exact .quiet hs
    · exact ht.change (hc b hp).1 (hc b hp).2
  | clock _ _ hs | borrow _ hs | handed _ _ _ _ hs | stopped _ _ hs | wait _ _ _ _ hs
  | woken _ _ hs | turn _ _ _ hs | done _ _ _ hs | retry _ _ _ _ _ hs | fail _ _ _ _ _ hs =>
    exact .quiet hs

structure Shared.SameControl (sh sh' : Shared) : Prop where
  created : sh'.created = sh.created
  runLock : sh'.runLock = sh.runLock
  recovery : sh'.recovery = sh.recovery
  handlerShutdown : sh'.handlerShutdown = sh.handlerShutdown

theorem SendStep.control {snd snd' : Send} (h : SendStep setup sh snd sh' snd') :
    sh.SameControl sh' := by
  have touch : ∀ {c : ConnId}, Touches setup sh c sh' → sh.SameControl sh' := by
    rintro c (rfl | ⟨a, s, -, -, rfl⟩) <;> exact ⟨rfl, rfl, rfl, rfl⟩
  cases h with
  | act b hp ht => exact touch ht
  | answer b b' op r next hp hr ha hb hbt ht => exact touch ht
  | drop ht =>
    rcases ht with rfl | ⟨b, -, ht⟩
    · exact ⟨rfl, rfl, rfl, rfl⟩
    · exact touch ht
  | clock _ _ hs | takeCid _ _ _ hs | borrow _ hs | handed _ _ _ _ hs | stopped _ _ hs
  | wait _ _ _ _ hs | woken _ _ hs | issue _ _ _ _ _ _ _ _ _ hs | turn _ _ _ hs | done _ _ _ hs
  | retry _ _ _ _ _ hs | fail _ _ _ _ _ hs => subst hs; exact ⟨rfl, rfl, rfl, rfl⟩

inductive ClientStep (setup : Setup) (w : Client) : Client → Prop where
  | startRun (r : RunId) : w.runs r = none →
      ClientStep setup w { w with runs := Function.update w.runs r (some .new) }
  | run (r : RunId) (run run' : Run) (sh : Shared) : w.runs r = some run →
      RunStep setup w.shared r run sh run' →
      ClientStep setup w { w with shared := sh, runs := Function.update w.runs r (some run') }
  | startSend (i : SendId) (job : SendJob) : w.sends i = none →
      ClientStep setup w { w with sends := Function.update w.sends i (some (.new job)) }
  | send (i : SendId) (snd snd' : Send) (sh : Shared) : w.sends i = some snd →
      SendStep setup w.shared snd sh snd' →
      ClientStep setup w { w with shared := sh, sends := Function.update w.sends i (some snd') }
  | startDisconnect (d : DisconnectId) : w.disconnects d = none → ClientStep setup w
      { w with disconnects := Function.update w.disconnects d (some .stopping) }
  | disconnect (d : DisconnectId) (pc pc' : DisconnectPc) (sh : Shared) :
      w.disconnects d = some pc → DisconnectStep w.shared d pc sh pc' → ClientStep setup w
        { w with shared := sh, disconnects := Function.update w.disconnects d (some pc') }
  | worker (c : ConnId) (a : WorkerAction) (s : Session) : c < w.shared.created →
      (w.shared.sessions c).act setup.fromStr a.toGeneration = some s →
      ClientStep setup w { w with shared := w.shared.setSession c s }

theorem client_step {w w' : Client} {a : ClientAction} (h : w.step setup a = some w') :
    ClientStep setup w w' := by
  cases a with
  | startRun r =>
    simp only [Client.step] at h
    split at h <;> cases h
    exact .startRun r (by assumption)
  | run r a =>
    obtain ⟨run, hrun, h⟩ := Option.bind_eq_some_iff.mp h
    obtain ⟨out, hout, rfl⟩ := Option.map_eq_some_iff.mp h
    exact .run r run out.2 out.1 hrun (run_step hout)
  | startSend i job =>
    simp only [Client.step] at h
    split at h <;> cases h
    exact .startSend i job (by assumption)
  | send i a =>
    obtain ⟨snd, hsnd, h⟩ := Option.bind_eq_some_iff.mp h
    obtain ⟨out, hout, rfl⟩ := Option.map_eq_some_iff.mp h
    exact .send i snd out.2 out.1 hsnd (send_step hout)
  | startDisconnect d =>
    simp only [Client.step] at h
    split at h <;> cases h
    exact .startDisconnect d (by assumption)
  | disconnect d a =>
    obtain ⟨pc, hpc, h⟩ := Option.bind_eq_some_iff.mp h
    obtain ⟨out, hout, rfl⟩ := Option.map_eq_some_iff.mp h
    exact .disconnect d pc out.2 out.1 hpc (disconnect_step hout)
  | worker c a =>
    simp only [Client.step, Option.ite_none_right_eq_some] at h
    obtain ⟨hc, h⟩ := h
    obtain ⟨sh, hsh, rfl⟩ := Option.map_eq_some_iff.mp h
    obtain ⟨s, hs, rfl⟩ := onSession_eq hsh
    exact .worker c a s hc hs

end Maxrs
