import Maxrs.Reconnect
set_option autoImplicit false

/-! No send is stuck: with a server that answers, each can still come to its end. -/
namespace Maxrs

def messageAnswer : Value := .object []

def uploadAnswer : Value :=
  .object [("info", .array [.object [("url", .string "http://upload"), ("fileId", .int 1)]])]

def sendAnswers : List (Nat × Value) :=
  [(Opcode.MSG_SEND, messageAnswer), (Opcode.FILE_UPLOAD, uploadAnswer)]

def attachPacket : Packet := .request 0 Opcode.NOTIF_ATTACH (.object [("fileId", .int 1)])

structure Serves (fromStr : String → Except String Packet) : Prop where
  login : Reads loginAnswers fromStr
  send : Reads sendAnswers fromStr
  attach : ∃ text, fromStr text = .ok attachPacket

/-- The loss of the connection leads a body back to the top of its loop. -/
def ReturnsOnLoss : (op : SendOp) → (op.Ret → SendScript (Except Error Unit)) → Prop
  | .invoke _ _, next => next (.error .connectionClosed) = .done (.error .connectionClosed)
  | .processed _, next => next (.error .connectionClosed) = .done (.error .connectionClosed)
  | .upload _ _ _, next => ∃ waiter, next (.error .connectionClosed) =
      .call (.dropWaiter waiter) fun _ => .done (.error .connectionClosed)
  | _, _ => True

theorem returns_message (opcode : Nat) (payload : Value) :
    ((sendInvoke opcode payload).orFail fun _ =>
      (.done (.ok ()) : SendScript (Except Error Unit))).ForCalls ReturnsOnLoss := by
  refine ⟨rfl, fun r => ?_⟩
  cases r <;> trivial

theorem returns_uploadAndSend (m : FileMessage) (cid : Int) (url : String) (fileId : Int)
    (waiter : AttachmentWaiter) :
    (uploadAndSend m cid url fileId waiter).ForCalls ReturnsOnLoss := by
  refine ⟨⟨waiter, rfl⟩, fun r => ?_⟩
  rcases r with e | e | status
  · exact ⟨trivial, fun _ => trivial⟩
  · exact ⟨trivial, fun _ => trivial⟩
  · refine ⟨rfl, fun r => ?_⟩
    rcases r with e | ready
    · trivial
    · cases ready with
      | false => trivial
      | true => exact returns_message _ _

theorem returns_body (job : SendJob) (cid : Int) : (job.body cid).ForCalls ReturnsOnLoss := by
  cases job with
  | text m => exact returns_message _ _
  | file m =>
    refine ⟨rfl, fun r => ?_⟩
    cases r with
    | error e => trivial
    | ok p =>
      simp only [Script.bind]
      split
      · trivial
      · refine ⟨trivial, fun r => ?_⟩
        cases r with
        | none => trivial
        | some waiter => exact returns_uploadAndSend m cid _ _ waiter

def Send.Waits (sh : Shared) (snd : Send) : Prop :=
  match snd.pc with
  | .clock | .cid _ | .current _ => True
  | .body b => (∃ k, b.waiting = some k ∧ sh.invokePc b.connection k = some .parked) ∨
      (b.polling = false ∧ ∃ op next, b.rest = .call op next ∧ op.IsSelect)
  | .returned _ | .dropped => False

def SendPc.isBetween : SendPc → Bool
  | .clock | .cid _ | .current _ => true
  | _ => false

variable {setup : Setup} {sh sh' : Shared} {snd snd' : Send}

theorem SendStep.phase (h : SendStep setup sh snd sh' snd') (c : ConnId) :
    (sh'.sessions c).phase = (sh.sessions c).phase := by
  have acts : ∀ {d : ConnId} {b : GenerationAction} {s : Session},
      (sh.sessions d).act setup.fromStr b = some s →
      ((sh.setSession d s).sessions c).phase = (sh.sessions c).phase := by
    intro d b s hs
    obtain ⟨g, -, rfl⟩ := Session.act_eq hs
    by_cases hc : c = d
    · subst hc
      rw [setSession_self]
    · rw [setSession_of_ne _ _ hc]
  have touch : ∀ {d : ConnId}, Touches setup sh d sh' →
      (sh'.sessions c).phase = (sh.sessions c).phase := by
    rintro d (rfl | ⟨a, s, -, hs, rfl⟩)
    · rfl
    · exact acts hs
  cases h with
  | act b hp ht => exact touch ht
  | answer b b' op r next hp hr ha hb hbt ht => exact touch ht
  | drop ht =>
    rcases ht with rfl | ⟨b, -, ht⟩
    · rfl
    · exact touch ht
  | issue b opcode payload next s hp hr hw hs he =>
    subst he
    exact acts hs
  | clock _ _ hs | takeCid _ _ _ hs | borrow _ hs | handed _ _ _ _ hs | stopped _ _ hs
  | wait _ _ _ _ hs | woken _ _ hs | turn _ _ _ hs | done _ _ _ hs
  | retry _ _ _ _ _ hs | fail _ _ _ _ _ hs =>
    subst hs
    rfl

namespace Client

variable {w w' v : Client} {r : RunId} {c : ConnId} {n : ConnId} {i : SendId} {runner : Runner}
  {P : Client → Prop}

structure Recovering (setup : Setup) (r : RunId) (n : ConnId) (w : Client) : Prop where
  running : ∃ runner, Running setup r n runner w ∧ Recovers w runner
  down : ∀ d, d < w.shared.created → w.shared.isCancelled d = true

theorem cancelled_of_other {run : Run} (h : (automaton setup).Reachable w)
    (hr : w.runs r = some run) (hl : run.supervisor = .looping runner)
    (hne : runner.pc ≠ .attempt c) (hc : c < w.shared.created) :
    w.shared.isCancelled c = true := by
  have hlife := lifecycleInv_of_reachable h
  have h7 : (w.shared.sessions c).phase.rank = 7 := by
    refine (isolationInv_of_reachable h c hc).resolve_right ?_
    rintro ⟨q, m, m', hq, hm, hp⟩
    have hsame := hlife.unique r q run m hr hq (by simp [hl, SupervisorPc.rank])
      (by simp [hm, SupervisorPc.rank])
    subst hsame
    cases hr.symm.trans hq
    cases hl.symm.trans hm
    exact hne hp
  have hi := Session.inv_of_reachable ((clientInv_of_reachable h).shared.sessions c hc)
  exact hi.tasks.cancelled (h7 ▸ by decide)

theorem Running.severed (hw : Running setup r n runner w) (hrec : Recovers w runner) :
    CanRecover setup w fun v => Recovering setup r n v ∧
      ∀ d, (v.generation d).invokes = (w.generation d).invokes := by
  obtain ⟨run, hr, hl⟩ := hw.looping
  have others : ∀ d, d < w.shared.created → runner.pc ≠ .attempt d →
      w.shared.isCancelled d = true := fun d hd hne =>
    cancelled_of_other hw.reachable hr hl hne hd
  by_cases hall : ∀ d, d < w.shared.created → w.shared.isCancelled d = true
  · exact .here ⟨⟨⟨runner, hw, hrec⟩, hall⟩, fun _ => rfl⟩
  · obtain ⟨c, hc⟩ := Classical.not_forall.mp hall
    obtain ⟨hlt, hlive⟩ := Classical.not_imp.mp hc
    have hp : runner.pc = .attempt c :=
      Classical.byContradiction fun hne => hlive (others c hlt hne)
    have hat : w.attemptOf r = some c := attemptOf_eq.mpr ⟨run, runner, hr, hl, hp⟩
    have hint : (w.shared.sessions c).Interrupted := by
      unfold Recovers at hrec
      rw [hp] at hrec
      exact hrec
    cases hint with
    | waiting _ _ _ hcan => exact absurd hcan hlive
    | ended x ho hx =>
      refine ((CanTear.severs hw.reachable hat ho).goesOn hw.reachable).bind fun v hpath hend => ?_
      obtain ⟨⟨⟨hsev, hvat, hvo⟩, hcreated, hinv⟩, hshut, -⟩ := hend
      obtain ⟨run', runner', hr', hl', hp'⟩ := attemptOf_eq.mp hvat
      have hrun : Running setup r n runner' v :=
        ⟨hsev.reachable, ⟨run', hr', hl'⟩, hshut.trans hw.running, hcreated ▸ hw.next⟩
      refine .here ⟨⟨⟨runner', hrun, ?_⟩, fun d hd => ?_⟩, hinv⟩
      · unfold Recovers
        rw [hp']
        exact .ended x hvo hx
      · by_cases hdc : d = c
        · subst hdc
          exact hsev.cancelled
        · refine cancelled_of_other hsev.reachable hr' hl' ?_ hd
          rw [hp']
          exact fun he => hdc (LoopPc.attempt.inj he).symm

theorem Recovering.send {a : SendAction} (hw : Recovering setup r n w)
    (hs : w.step setup (.send i a) = some w') : Recovering setup r n w' := by
  obtain ⟨runner, hrun, hrec⟩ := hw.running
  have hreach : (automaton setup).Reachable w' := hrun.reachable.tail (a := .send i a) hs
  have hgrows := client_grows (client_step hs) (clientInv_of_reachable hrun.reachable)
  obtain ⟨snd, hsnd, h⟩ := Option.bind_eq_some_iff.mp hs
  obtain ⟨⟨sh', snd'⟩, hstep, rfl⟩ := Option.map_eq_some_iff.mp h
  have hst := send_step hstep
  have hctl := hst.control
  have hcreated : sh'.created = w.shared.created := hctl.created
  have hdown : ∀ d, d < w.shared.created → sh'.isCancelled d = true := fun d hd =>
    isCancelled_mono hgrows hd (hw.down d hd)
  refine ⟨⟨runner, ⟨hreach, hrun.looping, ?_, ?_⟩, ?_⟩, ?_⟩
  · show sh'.recovery.shutdown = false
    rw [hctl.recovery]
    exact hrun.running
  · show n ≤ sh'.created
    rw [hcreated]
    exact hrun.next
  · unfold Recovers at hrec ⊢
    cases hp : runner.pc with
    | attempt c =>
      rw [hp] at hrec
      obtain ⟨run, hr, hl⟩ := hrun.looping
      have hc := (clientInv_of_reachable hrun.reachable).handles.runner r run runner c hr hl hp
      cases hrec with
      | waiting b hb hpoll _ => exact .waiting b ((hst.phase c).trans hb) hpoll (hdown c hc)
      | ended x ho hx => exact .ended x ((congrArg Phase.outcome (hst.phase c)).trans ho) hx
    | finished x =>
      rw [hp] at hrec
      exact hrec
    | _ => trivial
  · intro d hd
    exact hdown d (hcreated ▸ hd)

theorem CanGoOn.send {a : SendAction} (hi : w.sends i = some snd)
    (ha : (ClientAction.send i a).goesOn = true)
    (h : snd.step setup w.shared a = some (sh', snd'))
    (hrest : ∀ w', w.step setup (.send i a) = some w' → w'.shared = sh' →
      w'.sends i = some snd' → CanGoOn setup w' P) : CanGoOn setup w P := by
  have hs := step_send hi h
  exact .step ha hs (hrest _ hs rfl (Function.update_self ..))

def Left (setup : Setup) (r : RunId) (n : ConnId) (i : SendId) (w : Client) : Prop :=
  Recovering setup r n w ∧ ∃ snd, w.sends i = some snd ∧ snd.pc.isBetween = true

theorem Recovering.failed {b : SendBody} (hw : Recovering setup r n w) (hi : w.sends i = some snd)
    (hp : snd.pc = .body b) (hrest : b.rest = .done (.error .connectionClosed)) :
    CanGoOn setup w (Left setup r n i) := by
  refine CanGoOn.send (a := .finish) hi rfl
    (by simp only [Send.step, hp, Send.stepBody, hrest]; rfl) fun u hu _ hui => ?_
  exact .here ⟨hw.send hu, _, hui, rfl⟩

theorem Recovering.released {b : SendBody} {waiter : AttachmentWaiter}
    (hw : Recovering setup r n w) (hi : w.sends i = some snd) (hp : snd.pc = .body b)
    (hrest : b.rest = .call (.dropWaiter waiter) (fun _ => .done (.error .connectionClosed))) :
    CanGoOn setup w (Left setup r n i) := by
  have hon := onConnection_of setup w.shared b (a := .dropWaiter waiter) rfl
  refine CanGoOn.send (a := .dropWaiter) hi rfl
    (by simp only [Send.step, hp, Send.stepBody, hrest, hon, Option.map_some]; rfl)
    fun u hu _ hui => ?_
  exact (hw.send hu).failed hui rfl rfl

theorem Recovering.reachable (hw : Recovering setup r n w) : (automaton setup).Reachable w := by
  obtain ⟨_, hrun, -⟩ := hw.running
  exact hrun.reachable

theorem Recovering.leaves (hw : Recovering setup r n w) (hi : w.sends i = some snd)
    (hwait : snd.Waits w.shared) : CanGoOn setup w (Left setup r n i) := by
  have hreach := hw.reachable
  cases hp : snd.pc with
  | clock | cid _ | current _ => exact .here ⟨hw, snd, hi, by rw [hp]; rfl⟩
  | returned _ | dropped =>
    unfold Send.Waits at hwait
    rw [hp] at hwait
    exact hwait.elim
  | body b =>
    have hin := (clientInv_of_reachable hreach).handles.body i snd b hi hp
    have hc : w.shared.isCancelled b.connection = true := hw.down _ hin.1
    have hinv := ((sendInv_of_reachable hreach) i snd hi).body b hp
    have hback : b.rest.ForCalls ReturnsOnLoss := (returns_body snd.job snd.cid).after hinv.after
    unfold Send.Waits at hwait
    rw [hp] at hwait
    rcases hwait with ⟨k, hk, hparked⟩ | ⟨hpoll, op, next, hrest, hsel⟩
    · obtain ⟨-, opcode, payload, next, _, hrest, -⟩ := hinv.waiting k hk
      obtain ⟨g', hg, hret⟩ := stepInvoke_parked hparked hc
      have hs : w.step setup (.send i (.onInvoke .poll)) = _ :=
        send_invokes hi hp hk (.inl rfl) hg
      have hnext : next (.error .connectionClosed) = .done (.error .connectionClosed) := by
        rw [hrest] at hback
        exact hback.1
      refine .step (a := .send i (.onInvoke .poll)) rfl hs ?_
      have hself : (w.shared.setSession b.connection
          { w.shared.sessions b.connection with generation := g' }).sessions b.connection =
          { w.shared.sessions b.connection with generation := g' } := setSession_self ..
      refine CanGoOn.send (a := .take) (Function.update_self ..) rfl
        (by simp only [Send.step, hp, Send.stepBody, hrest, hk, hself, hret]; rfl)
        fun u hu _ hui => ?_
      exact ((hw.send hs).send hu).failed hui rfl hnext
    · have hcall : ReturnsOnLoss op next := by
        rw [hrest] at hback
        exact hback.1
      rcases hsel with ⟨url, headers, body, rfl⟩ | ⟨waiter, rfl⟩
      · obtain ⟨waiter, hnext⟩ := hcall
        refine CanGoOn.send (a := .selectPoll) hi rfl
          (by simp only [Send.step, hp, Send.stepBody, hrest, hpoll, hc, Bool.false_eq_true,
            if_false, if_true]; rfl) fun u hu _ hui => ?_
        exact (hw.send hu).released hui rfl hnext
      · have hon := onConnection_of setup w.shared b (a := .dropWaiter waiter) rfl
        refine CanGoOn.send (a := .selectPoll) hi rfl
          (by simp only [Send.step, hp, Send.stepBody, hrest, hpoll, hc, hon, Bool.false_eq_true,
            if_false, if_true, Option.map_some]; rfl) fun u hu _ hui => ?_
        exact (hw.send hu).failed hui rfl hcall

theorem send_runs {a : SendAction} (hs : w.step setup (.send i a) = some w') :
    w'.runs = w.runs := by
  obtain ⟨snd, -, h⟩ := Option.bind_eq_some_iff.mp hs
  obtain ⟨out, -, rfl⟩ := Option.map_eq_some_iff.mp h
  rfl

theorem attemptOf_congr (h : w'.runs = w.runs) : w'.attemptOf r = w.attemptOf r := by
  rw [attemptOf, attemptOf, h]

def onlyHeld : Option AttachmentWaiter → Int → Option WaiterId
  | none => fun _ => none
  | some waiter => Function.update (fun _ => none) waiter.fileId (some waiter.identity)

structure Sending (i : SendId) (c : ConnId) (rest : SendScript (Except Error Unit))
    (held : Option AttachmentWaiter) (w : Client) : Prop where
  send : ∃ snd b, w.sends i = some snd ∧ snd.pc = .body b ∧ b.connection = c ∧ b.rest = rest ∧
    b.waiting = none ∧ b.polling = false
  created : c < w.shared.created
  isOpen : (w.generation c).Open
  registry : (w.generation c).attachmentRegistry.waiters = onlyHeld held

theorem Sending.turn {rest rest' : SendScript (Except Error Unit)} {held : Option AttachmentWaiter}
    (h : Sending i c rest held w) (hs : w'.shared = w.shared)
    (hi : ∃ snd b, w'.sends i = some snd ∧ snd.pc = .body b ∧ b.connection = c ∧ b.rest = rest' ∧
      b.waiting = none ∧ b.polling = false) : Sending i c rest' held w' := by
  refine ⟨hi, by rw [hs]; exact h.created, ?_, ?_⟩
  · rw [Client.generation, hs]
    exact h.isOpen
  · rw [Client.generation, hs]
    exact h.registry

theorem Fresh.congr {a : SendAction} (h : Fresh r c w) (hs : w.step setup (.send i a) = some w')
    (hsh : w'.shared = w.shared) : Fresh r c w' where
  attempt := (attemptOf_congr (send_runs hs)).trans h.attempt
  published := by rw [hsh]; exact h.published
  isOpen := by rw [Client.generation, hsh]; exact h.isOpen
  registry := by rw [Client.generation, hsh]; exact h.registry

def Handed (i : SendId) (c : ConnId) (w : Client) : Prop :=
  ∃ job cid, Sending i c (SendJob.body cid job) none w

theorem Fresh.handed {seen : Nat} (hw : (automaton setup).Reachable w) (hf : Fresh r c w)
    (hi : w.sends i = some snd) (hp : snd.pc = .current (.checking (.ready c) seen)) :
    CanGoOn setup w (Handed i c) := by
  have hlive : w.shared.isCancelled c = false := hf.isOpen.live
  refine CanGoOn.send (a := .check) hi rfl
    (by simp only [Send.step, Send.stepCurrent, hp, Current.check, hlive, Bool.false_eq_true,
      if_false, Option.map_some]; rfl) fun u hu hus hui => ?_
  have hc : c < w.shared.created := ((clientInv_of_reachable hw).shared.ready c hf.published).1
  refine .here ⟨snd.job, snd.cid, ⟨_, _, hui, rfl, rfl, rfl, rfl, rfl⟩, ?_, ?_, ?_⟩
  · rw [hus]
    exact hc
  · rw [Client.generation, hus]
    exact hf.isOpen
  · rw [Client.generation, hus, show (w.shared.sessions c).generation.attachmentRegistry = .new
      from hf.registry]
    rfl

theorem Fresh.reading (hw : (automaton setup).Reachable w) (hf : Fresh r c w)
    (hi : w.sends i = some snd) (hp : snd.pc = .current .reading) :
    CanGoOn setup w (Handed i c) := by
  refine CanGoOn.send (a := .borrow) hi rfl
    (by simp only [Send.step, Send.stepCurrent, hp, Current.borrow, hf.published,
      Option.map_some]; rfl) fun u hu hus hui => ?_
  exact (hf.congr hu hus).handed (hw.tail (a := .send i .borrow) hu) hui rfl

theorem Fresh.waiting {seen : Nat} (hw : (automaton setup).Reachable w) (hf : Fresh r c w)
    (hi : w.sends i = some snd) (hp : snd.pc = .current (.waiting seen)) :
    CanGoOn setup w (Handed i c) := by
  have hwake := (watches_of_reachable hw i snd _ hi hp).wake_enabled
    (.inr ⟨c, hf.published, hf.isOpen.live⟩)
  refine CanGoOn.send (a := .wake) hi rfl
    (by simp only [Send.step, Send.stepCurrent, hp, hwake, Option.map_some]; rfl)
    fun u hu hus hui => ?_
  exact (hf.congr hu hus).reading (hw.tail (a := .send i .wake) hu) hui rfl

theorem Fresh.numbered {now : Int} (hw : (automaton setup).Reachable w) (hf : Fresh r c w)
    (hi : w.sends i = some snd) (hp : snd.pc = .cid now) : CanGoOn setup w (Handed i c) := by
  refine CanGoOn.send (a := .takeCid) hi rfl (by simp only [Send.step, hp]; rfl)
    fun u hu hus hui => ?_
  have huf : Fresh r c u := by
    refine ⟨(attemptOf_congr (send_runs hu)).trans hf.attempt, ?_, ?_, ?_⟩
    · rw [hus]
      exact hf.published
    · rw [Client.generation, hus]
      exact hf.isOpen
    · rw [Client.generation, hus]
      exact hf.registry
  exact huf.reading (hw.tail (a := .send i .takeCid) hu) hui rfl

theorem Fresh.checking {state : RecoveryState} {seen : Nat} (hw : (automaton setup).Reachable w)
    (hf : Fresh r c w) (hi : w.sends i = some snd)
    (hp : snd.pc = .current (.checking state seen)) : CanGoOn setup w (Handed i c) := by
  have later : (Current.checking state seen).check w.shared.isCancelled = some (.waiting seen) →
      CanGoOn setup w (Handed i c) := by
    intro hc
    refine CanGoOn.send (a := .check) hi rfl
      (by simp only [Send.step, Send.stepCurrent, hp, hc, Option.map_some]; rfl)
      fun u hu hus hui => ?_
    exact (hf.congr hu hus).waiting (hw.tail (a := .send i .check) hu) hui rfl
  cases state with
  | offline => exact later rfl
  | stopped =>
    have hst := ((sendInv_of_reachable hw) i snd hi).checking seen hp
    rw [hf.published] at hst
    cases hst
  | ready d =>
    by_cases hd : d = c
    · subst hd
      exact hf.handed hw hi hp
    · have hcreated := ((clientInv_of_reachable hw).handles.checking i snd d seen hi hp).1
      obtain ⟨run, runner, hr, hl, hpc⟩ := attemptOf_eq.mp hf.attempt
      have hne : runner.pc ≠ .attempt d := by
        rw [hpc]
        exact fun he => hd (LoopPc.attempt.inj he).symm
      have hcan := cancelled_of_other hw hr hl hne hcreated
      exact later (by simp only [Current.check, hcan, if_true])

/-- A send that comes to a fresh connection is handed it. -/
theorem Fresh.hands (hw : (automaton setup).Reachable w) (hf : Fresh r c w)
    (hi : w.sends i = some snd) (hb : snd.pc.isBetween = true) :
    CanGoOn setup w (Handed i c) := by
  cases hp : snd.pc with
  | clock =>
    refine CanGoOn.send (a := .readClock 0) hi rfl (by simp only [Send.step, hp]; rfl)
      fun u hu hus hui => ?_
    exact (hf.congr hu hus).numbered (hw.tail (a := .send i (.readClock 0)) hu) hui rfl
  | cid now => exact hf.numbered hw hi hp
  | body _ | returned _ | dropped =>
    rw [hp] at hb
    cases hb
  | current p =>
    cases p with
    | reading => exact hf.reading hw hi hp
    | waiting seen => exact hf.waiting hw hi hp
    | checking state seen => exact hf.checking hw hi hp
    | returned x => exact absurd hp (current_not_returned hw i snd hi x)

theorem exchange_goesOn {b : SendBody} {k : CallId} {g : Generation} (hi : w.sends i = some snd)
    (hp : snd.pc = .body b) (hk : b.waiting = some k) (hc : b.connection < w.shared.created)
    (hpath : (Generation.automaton setup.fromStr).Path (fun _ a => a.exchanges k = true)
      (w.generation b.connection) g) :
    CanGoOn setup w fun v => v.sends i = some snd ∧ v.shared = w.shared.setSession b.connection
      { w.shared.sessions b.connection with generation := g } := by
  induction hpath with
  | refl =>
    refine .here ⟨hi, ?_⟩
    rw [Shared.setSession]
    exact congrArg (fun f => { w.shared with sessions := f }) (Function.update_eq_self ..).symm
  | tail hpath ha hs ih =>
    rename_i g g' a
    refine ih.bind fun v _ hv => ?_
    obtain ⟨hvi, hvs⟩ := hv
    have hgen : (v.shared.sessions b.connection).generation = g := by
      rw [hvs]
      exact congrArg Session.generation (setSession_self ..)
    have hstep : (v.shared.sessions b.connection).generation.step setup.fromStr a = some g' :=
      hgen ▸ hs
    have htwice : v.shared.setSession b.connection
        { v.shared.sessions b.connection with generation := g' } =
        w.shared.setSession b.connection
          { w.shared.sessions b.connection with generation := g' } := by
      rw [hvs, setSession_self, Shared.setSession, Shared.setSession, Shared.setSession,
        Function.update_idem]
    cases a with
    | onInvoke j x =>
      obtain ⟨hj, hx⟩ := Bool.and_eq_true_iff.mp ha
      cases eq_of_beq hj
      have hon := onConnection_of setup v.shared b (a := .onInvoke k x) hstep
      have hmove : snd.step setup v.shared (.onInvoke x) = some (v.shared.setSession b.connection
          { v.shared.sessions b.connection with generation := g' }, snd) := by
        simp only [Send.step, hp, Send.stepBody, hk]
        cases x with
        | drop => cases hx
        | _ => simp only [hon, Option.map_some]
      have hgo : (ClientAction.send i (.onInvoke x)).goesOn = true := by
        cases x with
        | drop => cases hx
        | inner y => cases y <;> first | rfl | cases hx
        | _ => rfl
      exact CanGoOn.send hvi hgo hmove fun u _ hus hui => .here ⟨hui, hus.trans htwice⟩
    | reader x =>
      have hcv : b.connection < v.shared.created := by
        rw [hvs]
        exact hc
      have hmove : v.step setup (.worker b.connection (.reader x)) = some
          { v with
            shared := v.shared.setSession b.connection
              { v.shared.sessions b.connection with generation := g' } } := by
        simp only [Client.step, hcv, if_true, Shared.onSession, Session.act,
          WorkerAction.toGeneration, hstep, Option.map_some]
      have hgo : (ClientAction.worker b.connection (.reader x)).goesOn = true := by
        cases x <;> first | rfl | cases ha
      exact .step hgo hmove (.here ⟨hvi, htwice⟩)
    | _ => cases ha

variable {rest : SendScript (Except Error Unit)} {held : Option AttachmentWaiter}

theorem Sending.exchange {opcode : Nat} {payload : Value}
    {next : Except Error Packet → SendScript (Except Error Unit)}
    (hreads : Reads sendAnswers setup.fromStr)
    (h : Sending i c (.call (.invoke opcode payload) next) held w) (answer : Value)
    (ha : (opcode, answer) ∈ sendAnswers) :
    CanGoOn setup w fun v => ∃ seq,
      Sending i c (next (.ok (Packet.response seq opcode answer))) held v := by
  obtain ⟨⟨snd, b, hi, hp, rfl, hrest, hwait, hpoll⟩, hc, hopen, hreg⟩ := h
  obtain ⟨text, htext⟩ := hreads _ opcode answer hopen.quiet.small ha
  obtain ⟨g₁, g₂, hinvoke, hpath, hopen₂, hret, -, hreg₂⟩ :=
    hopen.exchange opcode payload rfl rfl rfl htext
  have hon := onConnection_of setup w.shared b (a := .invoke opcode payload) hinvoke
  refine CanGoOn.send (a := .issue) hi rfl
    (by simp only [Send.step, hp, Send.stepBody, hrest, hwait, hon, Option.map_some]; rfl)
    fun v _ hvs hvi => ?_
  have hg₁ : v.generation b.connection = g₁ := by
    rw [Client.generation, hvs]
    exact congrArg Session.generation (setSession_self ..)
  have hcv : b.connection < v.shared.created := by
    rw [hvs]
    exact hc
  rw [← hg₁] at hpath
  refine (exchange_goesOn hvi rfl rfl hcv hpath).bind fun u _ hu => ?_
  obtain ⟨hui, hus⟩ := hu
  have hg₂ : (u.shared.sessions b.connection).generation = g₂ := by
    rw [hus]
    exact congrArg Session.generation (setSession_self ..)
  have hret' : (u.shared.sessions b.connection).generation.invokes
      (w.shared.sessions b.connection).generation.transport.started =
      some (.returned (.ok (Packet.response
        (w.generation b.connection).transport.nextSeq opcode answer))) := by
    rw [hg₂]
    exact hret
  refine CanGoOn.send (a := .take) hui rfl
    (by simp only [Send.step, Send.stepBody, hret']; rfl) fun x _ hxs hxi => ?_
  refine .here ⟨_, ⟨_, _, hxi, rfl, rfl, rfl, rfl, rfl⟩, ?_, ?_, ?_⟩
  · rw [hxs, hus]
    exact hcv
  · rw [Client.generation, hxs, hg₂]
    exact hopen₂
  · rw [Client.generation, hxs, hg₂, hreg₂]
    exact hreg

theorem Sending.registers (fileId : Int)
    {next : Option AttachmentWaiter → SendScript (Except Error Unit)}
    (h : Sending i c (.call (.register fileId) next) none w) :
    ∃ waiter : AttachmentWaiter, waiter.fileId = fileId ∧
      CanGoOn setup w (Sending i c (next (some waiter)) (some waiter)) := by
  obtain ⟨⟨snd, b, hi, hp, rfl, hrest, hwait, hpoll⟩, hc, hopen, hreg⟩ := h
  have hnone : (w.shared.sessions b.connection).generation.attachmentRegistry.waiters fileId =
      none := congrFun hreg fileId
  let registry := (w.shared.sessions b.connection).generation.attachmentRegistry
  have hout : registry.register fileId =
      ({ registry with
          waiters := Function.update registry.waiters fileId (some registry.registered)
          registered := registry.registered + 1 },
        some { fileId := fileId, identity := registry.registered }) := by
    rcases registry.register_cases fileId with ⟨-, x, hx⟩ | ⟨-, he⟩
    · cases hnone.symm.trans hx
    · exact he
  have hon := onConnection_of setup w.shared b (a := .register fileId) rfl
  refine ⟨{ fileId := fileId, identity := registry.registered }, rfl, ?_⟩
  refine CanGoOn.send (a := .register) hi rfl
    (by simp only [Send.step, hp, Send.stepBody, hrest, hon, Option.map_some]; rfl)
    fun v _ hvs hvi => ?_
  refine .here ⟨⟨_, _, hvi, rfl, rfl, ?_, rfl, rfl⟩, ?_, ?_, ?_⟩
  · exact congrArg (fun out => next (Prod.snd out)) hout
  · rw [hvs]
    exact hc
  · rw [Client.generation, hvs, setSession_self]
    exact ⟨hopen.live, hopen.reader, hopen.quiet⟩
  · rw [Client.generation, hvs, setSession_self]
    show (registry.register fileId).1.waiters = _
    rw [hout]
    show Function.update registry.waiters fileId _ = _
    rw [show registry.waiters = onlyHeld none from hreg]
    rfl

theorem Sending.uploads {url : String} {headers : List (String × String)} {body : ByteArray}
    {next : Except Error (Except HttpError Nat) → SendScript (Except Error Unit)}
    (h : Sending i c (.call (.upload url headers body) next) held w) :
    CanGoOn setup w (Sending i c (next (.ok (.ok 200))) held) := by
  have hturn := h
  obtain ⟨⟨snd, b, hi, hp, rfl, hrest, hwait, hpoll⟩, hc, hopen, hreg⟩ := h
  have hlive : w.shared.isCancelled b.connection = false := hopen.live
  refine CanGoOn.send (a := .selectPoll) hi rfl
    (by simp only [Send.step, hp, Send.stepBody, hrest, hpoll, hlive, Bool.false_eq_true,
      if_false]; rfl) fun v _ hvs hvi => ?_
  refine CanGoOn.send (a := .uploaded (.ok 200)) hvi rfl
    (by simp only [Send.step, Send.goto, Send.stepBody, if_true]; rfl)
    fun u _ hus hui => .here ?_
  exact hturn.turn (hus.trans hvs) ⟨_, _, hui, rfl, rfl, rfl, rfl, rfl⟩

theorem Sending.processes {waiter : AttachmentWaiter}
    {next : Except Error Bool → SendScript (Except Error Unit)} {text : String}
    (htext : setup.fromStr text = .ok attachPacket) (hf : waiter.fileId = 1)
    (h : Sending i c (.call (.processed waiter) next) (some waiter) w) :
    CanGoOn setup w (Sending i c (next (.ok true)) none) := by
  obtain ⟨⟨snd, b, hi, hp, rfl, hrest, hwait, hpoll⟩, hc, hopen, hreg⟩ := h
  have hact : serverRequest attachPacket = .notifAttach 1 := rfl
  obtain ⟨g, hg, hopen', hreg'⟩ := hopen.attach htext rfl hact
  have hg' : (w.shared.sessions b.connection).generation.step setup.fromStr
      (.reader (.frame (some (.text text)))) = some g := hg
  let v : Client :=
    { w with
      shared := w.shared.setSession b.connection
        { w.shared.sessions b.connection with generation := g } }
  have hs : w.step setup (.worker b.connection (.reader (.frame (some (.text text))))) =
      some v := by
    simp only [Client.step, hc, if_true, Shared.onSession, Session.act, WorkerAction.toGeneration,
      hg', Option.map_some, v]
  have hvg : (v.shared.sessions b.connection).generation = g :=
    congrArg Session.generation (setSession_self ..)
  have hlive : v.shared.isCancelled b.connection = false := by
    rw [Shared.isCancelled, hvg]
    exact hopen'.live
  have hmine : (w.generation b.connection).attachmentRegistry.waiters 1 =
      some waiter.identity := by
    simp [hreg, onlyHeld, hf]
  have hdone : g.attachmentRegistry.completed waiter.identity = true := by
    rw [hreg', AttachmentRegistry.complete_completed, hmine]
    simp
  have hempty : (g.attachmentRegistry.dropWaiter waiter).waiters = onlyHeld none := by
    funext f
    rw [hreg', AttachmentRegistry.dropWaiter_waiters, AttachmentRegistry.complete_waiters, hreg]
    by_cases hfid : f = 1
    · simp [hfid, onlyHeld]
    · simp [hfid, onlyHeld, hf]
  refine .step (a := .worker b.connection (.reader (.frame (some (.text text))))) rfl hs ?_
  refine CanGoOn.send (w := v) (a := .selectPoll) hi rfl
    (by simp only [Send.step, hp, Send.stepBody, hrest, hpoll, hlive, Bool.false_eq_true,
      if_false]; rfl) fun u _ hus hui => ?_
  have hdone' : (u.shared.sessions b.connection).generation.attachmentRegistry.completed
      waiter.identity = true := by
    rw [hus, hvg]
    exact hdone
  refine CanGoOn.send (a := .processed) hui rfl
    (by simp only [Send.step, Send.goto, Send.stepBody, hdone', Bool.and_self, if_true]; rfl)
    fun x _ hxs hxi => ?_
  refine .here ⟨⟨_, _, hxi, rfl, rfl, rfl, rfl, rfl⟩, ?_, ?_, ?_⟩
  · rw [hxs, hus]
    exact hc
  · rw [Client.generation, hxs, setSession_self]
    show ({ (u.shared.sessions b.connection).generation with
      attachmentRegistry := _ } : Generation).Open
    rw [hus, hvg]
    exact ⟨hopen'.live, hopen'.reader, hopen'.quiet⟩
  · rw [Client.generation, hxs, setSession_self]
    show ((u.shared.sessions b.connection).generation.attachmentRegistry.dropWaiter
      waiter).waiters = _
    rw [hus, hvg]
    exact hempty

def Sent (i : SendId) (w : Client) : Prop :=
  ∃ snd, w.sends i = some snd ∧ snd.pc = .returned (.ok ())

theorem Sending.ends (h : Sending i c (.done (.ok ())) held w) : CanGoOn setup w (Sent i) := by
  obtain ⟨⟨snd, b, hi, hp, -, hrest, -, -⟩, -, -, -⟩ := h
  exact CanGoOn.send (a := .finish) hi rfl
    (by simp only [Send.step, hp, Send.stepBody, hrest]; rfl) fun u _ _ hui => .here ⟨_, hui, rfl⟩

theorem Sending.message {payload : Value} (hserves : Serves setup.fromStr)
    (h : Sending i c ((sendInvoke Opcode.MSG_SEND payload).orFail fun _ => .done (.ok ())) held w) :
    CanGoOn setup w (Sent i) := by
  refine (Sending.exchange hserves.send h messageAnswer (by simp [sendAnswers])).bind
    fun v _ hv => ?_
  obtain ⟨seq, hv⟩ := hv
  exact Sending.ends hv

/-- On a connection of its own a send comes to its end. -/
theorem Sending.completes {job : SendJob} {cid : Int} (hserves : Serves setup.fromStr)
    (h : Sending i c (job.body cid) none w) : CanGoOn setup w (Sent i) := by
  cases job with
  | text m => exact Sending.message hserves h
  | file m =>
    obtain ⟨text, htext⟩ := hserves.attach
    have hinfo : ∀ seq, uploadInfo
        (Packet.response seq Opcode.FILE_UPLOAD uploadAnswer).payload =
        .ok ("http://upload", 1) := fun _ => rfl
    refine (Sending.exchange hserves.send h uploadAnswer (by simp [sendAnswers])).bind
      fun v₁ _ h₁ => ?_
    obtain ⟨seq, h₁⟩ := h₁
    obtain ⟨waiter, hf, hreg⟩ := Sending.registers 1 h₁
    refine hreg.bind fun v₂ _ h₂ => ?_
    refine (Sending.uploads h₂).bind fun v₃ _ h₃ => ?_
    refine (Sending.processes htext hf h₃).bind fun v₄ _ h₄ => ?_
    exact Sending.message hserves h₄

theorem sends_kept {a : ClientAction} (hgo : a.goesOn = true) (ha : a.disturbs = false)
    (h : w.step setup a = some w') : w'.sends = w.sends := by
  cases a with
  | startRun _ | startDisconnect _ | startSend _ _ => cases hgo
  | run q b =>
    obtain ⟨run, -, h⟩ := Option.bind_eq_some_iff.mp h
    obtain ⟨out, -, rfl⟩ := Option.map_eq_some_iff.mp h
    rfl
  | disconnect d b =>
    obtain ⟨pc, -, h⟩ := Option.bind_eq_some_iff.mp h
    obtain ⟨out, -, rfl⟩ := Option.map_eq_some_iff.mp h
    rfl
  | worker d b =>
    simp only [Client.step] at h
    split at h
    · obtain ⟨sh, -, rfl⟩ := Option.map_eq_some_iff.mp h
      rfl
    · cases h
  | send j b =>
    obtain ⟨snd, hj, h⟩ := Option.bind_eq_some_iff.mp h
    obtain ⟨⟨sh', snd'⟩, hs, rfl⟩ := Option.map_eq_some_iff.mp h
    cases b with
    | onInvoke x =>
      simp only [Send.step] at hs
      split at hs
      · cases body_turn hs with
        | onInvoke k _ _ _ _ =>
          show Function.update w.sends j (some snd) = w.sends
          rw [← hj]
          exact Function.update_eq_self ..
      · cases hs
    | _ => cases ha

theorem CanRecover.sends (h : CanRecover setup w P) :
    CanRecover setup w fun v => P v ∧ v.sends = w.sends := by
  obtain ⟨v, hp, hP⟩ := h
  refine ⟨v, hp, hP, hp.preserves (I := fun v => v.sends = w.sends) ?_ rfl⟩
  intro u a u' ha hs hu
  exact (sends_kept ha.1 ha.2 hs).trans hu

/-- No send is stuck: as long as nobody shuts the client down, whatever a call of `send_text` or
`send_file_bytes` waits for, and wherever `run_loop` stands between two attempts or in the loss of
one, a server that answers brings the call to `Ok`. -/
theorem send_completes {run : Run} (hserves : Serves setup.fromStr)
    (hvalid : setup.loginConfig.validate = .ok ()) (hw : (automaton setup).Reachable w)
    (hrun : w.shared.recovery.shutdown = false) (hr : w.runs r = some run)
    (hl : run.supervisor = .looping runner) (hrec : Recovers w runner)
    (hi : w.sends i = some snd) (hwait : snd.Waits w.shared) : CanGoOn setup w (Sent i) := by
  have hat : Running setup r w.shared.created runner w :=
    ⟨hw, ⟨run, hr, hl⟩, hrun, Nat.le_refl _⟩
  have hv := LoginConfig.canLogin_of_validate hvalid
  -- what is left of the old connection is cancelled, and the send comes back from it
  refine ((CanRecover.sends (hat.severed hrec)).weaken fun _ _ ha => ha.1).bind fun v _ hend => ?_
  obtain ⟨⟨hvrec, hinv⟩, hvs⟩ := hend
  have hvi : v.sends i = some snd := hvs ▸ hi
  have hvwait : snd.Waits v.shared := by
    unfold Send.Waits at hwait ⊢
    cases hp : snd.pc with
    | body b =>
      rw [hp] at hwait
      refine hwait.imp_left fun ⟨k, hk, hpark⟩ => ⟨k, hk, ?_⟩
      exact (congrFun (hinv b.connection) k).trans hpark
    | returned _ | dropped =>
      rw [hp] at hwait
      exact hwait
    | _ => trivial
  refine (hvrec.leaves hvi hvwait).bind fun u _ hu => ?_
  obtain ⟨hurec, snd', hui, hub⟩ := hu
  -- the next connection is handed to it
  obtain ⟨runner', hurun, hurec'⟩ := hurec.running
  refine ((CanRecover.sends (hurun.recovers hserves.login hv hurec')).weaken
    fun _ _ ha => ha.1).bind fun x hx hxend => ?_
  obtain ⟨⟨d, -, hfresh⟩, hxs⟩ := hxend
  have hxi : x.sends i = some snd' := hxs ▸ hui
  refine (hfresh.hands (hurun.reachable.path hx.leads) hxi hub).bind fun y _ hy => ?_
  obtain ⟨job, cid, hy⟩ := hy
  exact hy.completes hserves

def sampleServing : Setup :=
  { sampleSetup with fromStr := sampleRead (loginAnswers ++ sendAnswers) (.ok attachPacket) }

theorem sampleServing_serves : Serves sampleServing.fromStr where
  login := sampleRead_reads fun _ h => List.mem_append_left _ h
  send := sampleRead_reads fun _ h => List.mem_append_right _ h
  attach := by
    have h : sampleRead (loginAnswers ++ sendAnswers) (.ok attachPacket) "file attached" =
        .ok attachPacket := by
      rw [sampleRead_of_length (by decide)]
      rfl
    exact ⟨"file attached", h⟩

/-- The server hangs up on a message that it has not acknowledged. -/
theorem send_completes_hangup : ∃ w snd b, (automaton sampleServing).Reachable w ∧
    w.sends 0 = some snd ∧ snd.pc = .body b ∧ w.shared.isCancelled b.connection = true ∧
    CanGoOn sampleServing w (Sent 0) := by
  obtain ⟨w, hw, hs, run, runner, hr, hl, a, hp, hphase, hpoll, hc, snd, b, k, hi, hb, hk, hpark,
      hd⟩ :
      ∃ w, (automaton sampleServing).exec (new sampleServing 0)
        (sampleSend ++ [.run 0 (.loop .dispatchCheck), .run 0 (.loop .park),
          .worker 0 (.reader (.frame none))]) = some w ∧ w.shared.recovery.shutdown = false ∧
        ∃ run runner, w.runs 0 = some run ∧ run.supervisor = .looping runner ∧
        ∃ a, runner.pc = .attempt 0 ∧ (w.shared.sessions 0).phase = .attempting a ∧
          a.polling = false ∧ w.shared.isCancelled 0 = true ∧
        ∃ snd b k, w.sends 0 = some snd ∧ snd.pc = .body b ∧ b.waiting = some k ∧
          w.shared.invokePc 0 k = some .parked ∧ b.connection = 0 :=
    ⟨_, rfl, rfl, _, _, rfl, rfl, _, rfl, rfl, rfl, rfl, _, _, _, rfl, rfl, rfl, rfl, rfl⟩
  have hreach : (automaton sampleServing).Reachable w := ⟨_, ⟨0, rfl⟩, Automaton.exec_leads hw⟩
  have hrec : Recovers w runner := by
    unfold Recovers
    rw [hp]
    exact .waiting a hphase hpoll hc
  have hwait : snd.Waits w.shared := by
    unfold Send.Waits
    rw [hb]
    exact .inl ⟨k, hk, by rw [hd]; exact hpark⟩
  exact ⟨w, snd, b, hreach, hi, hb, by rw [hd]; exact hc,
    send_completes sampleServing_serves rfl hreach hs hr hl hrec hi hwait⟩

end Client

end Maxrs
