import Maxrs.Lifecycle
import Maxrs.Pipeline
set_option autoImplicit false

/-! What becomes of a message once its acknowledgement is on the wire. -/
namespace Maxrs

def Phase.outcome : Phase → Option (Except Error Unit)
  | .attempting _ => none
  | .offline r | .cancelling r | .aborting r | .joining r | .clearing r | .takingSink r
  | .over r => some r

theorem Phase.outcome_isSome {p : Phase} (h : 1 ≤ p.rank) : ∃ r, p.outcome = some r := by
  cases p with
  | attempting a => simp [Phase.rank] at h
  | _ r => exact ⟨r, rfl⟩

namespace Generation

variable {fromStr : String → Except String Packet} {g g' : Generation}

/-- The message was handed to a handler, or the filter held it back. -/
def Taken (g : Generation) (n : Nat) (m : IncomingMessage) : Prop :=
  (n, m) ∈ g.handled ∨
    ∃ own, (n, m, own) ∈ g.filtered ∧ isFilteredIncomingMessage m own = true

/-- The reader is gone and has left nothing behind. -/
structure Settled (g : Generation) : Prop where
  joined : g.reader.joined = true
  started : g.reader ≠ .absent
  taken : ∀ n q, .acked n q ∈ g.transport.log →
    ∃ m, Brought g.transport.log n m q ∧ Taken g n m

theorem Settled.step (h : PipeStep g g') (hs : Settled g) : Settled g' := by
  have keep : ∀ {x : Generation}, Beside g x → Settled x := by
    intro x hb
    refine ⟨hb.reader ▸ hs.joined, hb.reader ▸ hs.started, fun n q hq => ?_⟩
    obtain ⟨m, hm, ht⟩ := hs.taken n q ((hb.acked n q).mp hq)
    refine ⟨m, hm.mono hb.log, ?_⟩
    simpa only [Taken, hb.channel.handled, hb.channel.filtered] using ht
  cases h with
  | beside hb => exact keep hb
  | spawn hr _ => exact absurd hr hs.started
  | reader hj _ =>
    rw [hs.joined] at hj
    cases hj
  | recv x rest hm hin he =>
    subst he
    refine ⟨hs.joined, hs.started, fun n q hq => ?_⟩
    obtain ⟨m, hm, ht⟩ := hs.taken n q hq
    exact ⟨m, hm, ht.imp (List.mem_append_left _) id⟩
  | drop x hb he =>
    subst he
    have hx := keep hb
    exact ⟨hx.joined, hx.started, hx.taken⟩
  | abortAll he =>
    subst he
    exact ⟨hs.joined, hs.started, hs.taken⟩

/-- The dispatcher has found the channel closed and empty. -/
theorem settled_of_drained (hi : PipelineInv g) (hj : g.reader.joined = true)
    (hn : g.reader ≠ .absent) (hin : g.incoming = true) (hab : g.aborted = false)
    (hm : g.messages = []) : Settled g := by
  refine ⟨hj, hn, fun n q hq => ?_⟩
  obtain ⟨m, hb, hf⟩ := hi.acked n q hq
  refine ⟨m, hb, ?_⟩
  rcases hf with hf | hf | hf | hf | ⟨hf, -⟩
  · cases hr : g.reader <;> simp [hr, ReaderPc.joined, ReaderPc.message] at hj hf
  · exact .inr hf
  · rw [hi.channel hin, hm, List.append_nil] at hf
    exact .inl hf
  · rw [hab] at hf
    cases hf
  · rw [hin] at hf
    cases hf

theorem handled_of_closed (h : PipeStep g g') (hin : g.incoming = false) :
    g'.handled = g.handled := by
  cases h with
  | beside hb => exact hb.channel.handled
  | recv x rest hm hx he =>
    rw [hin] at hx
    cases hx
  | spawn _ he | abortAll he =>
    subst he
    rfl
  | drop x hb he =>
    subst he
    exact hb.channel.handled
  | reader _ hr =>
    cases hr with
    | turn hc _ _ _ _ _ _ | notif _ _ _ hc _ _ _ _ _ _ | acking _ _ hc _ _ _
    | aborted hc _ _ _ _ => exact hc.handled
    | held _ _ _ _ he | passed _ _ _ _ he | sent _ _ _ _ he | unsent _ _ _ _ he =>
      subst he
      rfl

end Generation

namespace Session

variable {fromStr : String → Except String Packet} {deviceId : String} {s s' : Session}

theorem always_dispatched (deviceId : String) (config : LoginConfig) :
    (runAttempt deviceId config).Always (fun _ _ => True)
      (fun tr r => r = .ok () → Did tr .dispatch ()) [] := by
  have step : ∀ {α : Type} (p : AttemptScript (Except Error α)) {tr : AttemptTrace}
      {f : α → AttemptScript (Except Error Unit)},
      (∀ tr a, (f a).Always (fun _ _ => True) (fun tr r => r = .ok () → Did tr .dispatch ()) tr) →
      (p.orFail f).Always (fun _ _ => True) (fun tr r => r = .ok () → Did tr .dispatch ()) tr := by
    intro α p tr f hf
    have hp : p.Always (fun _ _ => True) (fun _ _ => True) tr :=
      .of_forall (fun _ _ => trivial) fun _ _ => trivial
    exact hp.orFail (fun tr a _ => hf tr a) fun _ _ _ => nofun
  refine step _ fun _ _ => ⟨trivial, fun _ => step _ fun _ _ => ⟨trivial, fun _ => ?_⟩⟩
  refine step _ fun _ _ => ⟨trivial, fun _ => step _ fun _ _ => ⟨trivial, fun _ => ?_⟩⟩
  exact ⟨trivial, fun _ _ => did_snoc.mpr (.inr rfl)⟩

theorem reader_of_connected (h : TraceInv deviceId s) (hc : Did s.trace .connected (.ok ())) :
    Performed s.trace .spawnReader := by
  obtain ⟨token, u, p, hest⟩ := established_of_published h.faithful hc
  exact hest.reader.mem

theorem outcome_of_reachable (h : (automaton fromStr deviceId).Reachable s)
    (ho : s.phase.outcome = some (.ok ())) : Did s.trace .dispatch () := by
  refine h.invariant_of (I := fun s => s.phase.outcome = some (.ok ()) → Did s.trace .dispatch ())
    (fun s hs => ?_) (fun s b s' hr hs hi ho => ?_) ho
  · obtain ⟨config, b, rfl⟩ := hs
    exact nofun
  · obtain ⟨q, hq, hqr⟩ := (inv_of_reachable hr).trace
    cases change_step hs with
    | flags _ _ _ _ _ he | issue _ _ _ _ _ _ _ _ _ he | answer _ _ _ _ _ _ _ _ _ he
    | recv _ _ _ _ _ _ _ he =>
      subst he
      cases ho
    | foreign _ _ _ _ _ he =>
      subst he
      exact hi ho
    | drop a _ r _ hp _ he hend =>
      subst he
      cases ho
      have hrest := hend.resolve_left nofun
      rw [← hqr a hp, hrest] at hq
      exact (always_dispatched deviceId s.config).result hq rfl
    | offline _ hp he | cancel _ _ hp _ he | abortAll _ _ hp _ he | join _ hp _ _ he
    | clear _ _ hp _ he | takeSink _ _ hp _ he =>
      subst he
      exact hi (by rw [hp]; exact ho)

theorem dispatched_step {b : SessionAction} (h : s.step fromStr b = some s')
    (hd : Did s'.trace .dispatch ()) :
    Did s.trace .dispatch () ∨ b = .attempt (.dispatchCheck true) ∨
      (s.phase.rank = 0 ∧ s.generation.messages = [] ∧ s.generation.reader.joined = true ∧
        s'.generation = s.generation) := by
  by_cases hold : Did s.trace .dispatch ()
  · exact .inl hold
  have gone : s'.trace ≠ s.trace := fun he => hold (he ▸ hd)
  right
  cases change_step h with
  | flags _ _ _ _ _ he | issue _ _ _ _ _ _ _ _ _ he | recv _ _ _ _ _ _ _ he
  | foreign _ _ _ _ _ he | drop _ _ _ _ _ _ he _ | offline _ _ he | cancel _ _ _ _ he
  | abortAll _ _ _ _ he | join _ _ _ _ he | clear _ _ _ _ he | takeSink _ _ _ _ he =>
    subst he
    exact absurd rfl gone
  | answer a op r next g at_ hp hr heff he =>
    have hop : op = .dispatch := by
      subst he
      rcases did_snoc.mp hd with hd | hd
      · exact absurd hd hold
      · exact (congrArg Sigma.fst hd).symm
    subst hop
    cases b with
    | attempt act =>
      simp only [step, hp] at h
      split at h
      · cases act with
        | dispatchCheck shutdown =>
          cases shutdown with
          | true => exact .inl rfl
          | false =>
            simp only [stepAttempt, hr] at h
            cases h
            exact absurd rfl gone
        | dispatchNone =>
          simp only [stepAttempt, hr] at h
          split at h <;> cases h
          rename_i hnone
          simp only [Bool.and_eq_true, List.isEmpty_iff] at hnone
          exact .inr ⟨by simp [hp, Phase.rank], hnone.1.2, hnone.2, rfl⟩
        | dispatchRecv =>
          simp only [stepAttempt, hr] at h
          split at h
          · obtain ⟨m, hm, rfl⟩ := Option.map_eq_some_iff.mp h
            obtain ⟨g, -, rfl⟩ := act_eq hm
            exact absurd rfl gone
          · cases h
        | onInvoke x =>
          simp only [stepAttempt] at h
          split at h
          · cases h
          · obtain ⟨g, -, rfl⟩ := act_eq h
            exact absurd rfl gone
          · cases h
        | _ => simp only [stepAttempt, hr, reduceCtorEq] at h
      · cases h
    | _ => exact absurd (trace_step h (by simp)) gone

theorem handled_of_ended (h : (automaton fromStr deviceId).Reachable s)
    (hl : (automaton fromStr deviceId).Leads s s') (h1 : 1 ≤ s.phase.rank) :
    s'.generation.handled = s.generation.handled := by
  have hboth : 1 ≤ s'.phase.rank ∧ s'.generation.handled = s.generation.handled := by
    induction hl with
    | refl => exact ⟨h1, rfl⟩
    | @tail t u b hp _ hs ih =>
      obtain ⟨ht, hh⟩ := ih
      have hch := change_step hs
      refine ⟨Nat.le_trans ht hch.rank_mono, Eq.trans ?_ hh⟩
      rcases hch.generation with he | ⟨x, hx, -⟩
      · rw [he]
      · refine Generation.handled_of_closed (Generation.pipe_step hx) ?_
        rw [← Bool.not_eq_true, (inv_of_reachable (h.path hp)).tasks.incoming]
        omega
  exact hboth.2

end Session

variable {setup : Setup} {sh sh' : Shared} {w w' : Client}

theorem RunStep.handlers {r : RunId} {run run' : Run} (h : RunStep setup sh r run sh' run') :
    sh'.handlerShutdown = sh.handlerShutdown ∨ ∃ result, run.supervisor = .handlers result := by
  cases h with
  | cancelHandlers result hp _ => exact .inr ⟨result, hp⟩
  | loop m m' _ hs =>
    cases hs with
    | goto hs | begin _ hs | session _ _ _ _ _ _ _ hs | after _ _ _ _ hs =>
      exact .inl (by subst hs; rfl)
  | lock _ _ hs | reject _ _ hs | closed _ _ hs | spawn _ _ hs | join _ _ _ hs | dropTrying _ hs
  | dropJoining _ hs | guardCancel _ _ hs | guardPublish _ _ hs | start _ hs | loopEnd _ _ _ _ hs
  | supervisorCancel _ _ hs | supervisorPublish _ _ hs | unlock _ _ hs =>
    exact .inl (by subst hs; rfl)

theorem DisconnectStep.handlers {d : DisconnectId} {pc pc' : DisconnectPc}
    (h : DisconnectStep sh d pc sh' pc') :
    sh'.handlerShutdown = sh.handlerShutdown ∨ pc = .locked := by
  cases h with
  | cancelHandlers hp _ => exact .inr hp
  | stopCancel _ hs | stopPublish _ hs | lock _ _ hs | unlock _ hs | drop _ hs =>
    exact .inl (by subst hs; rfl)

theorem shutdown_of_handlers (h : (Client.automaton setup).Reachable w) :
    w.shared.handlerShutdown = true → w.shared.recovery.shutdown = true := by
  refine h.invariant_of
    (I := fun w => w.shared.handlerShutdown = true → w.shared.recovery.shutdown = true)
    (fun w hw => ?_) fun w a w' hr hs hi => ?_
  · obtain ⟨millis, rfl⟩ := hw
    exact nofun
  · have hstep := client_step hs
    have hg := client_grows hstep (clientInv_of_reachable hr)
    have hl := lifecycleInv_of_reachable hr
    have old : w'.shared.handlerShutdown = w.shared.handlerShutdown →
        w'.shared.handlerShutdown = true → w'.shared.recovery.shutdown = true :=
      fun he ht => hg.shutdown (hi (he ▸ ht))
    cases hstep with
    | startRun _ _ | startSend _ _ _ | startDisconnect _ _ | worker _ _ _ _ _ => exact old rfl
    | send i snd snd' sh hsnd hst => exact old hst.control.handlerShutdown
    | run r run run' sh hrun hst =>
      rcases hst.handlers with he | ⟨result, hp⟩
      · exact old he
      · have hsd := (hl.runs r run hrun).shutdown (by simp [hp, SupervisorPc.rank])
        exact fun _ => hg.shutdown hsd
    | disconnect d pc pc' sh hd hst =>
      rcases hst.handlers with he | hp
      · exact old he
      · have hsd := (hl.disconnects d pc hd).shutdown (by simp [hp, DisconnectPc.rank])
        exact fun _ => hg.shutdown hsd

/-- A dispatcher that has returned was shut down, or has left no message behind. -/
theorem settled_of_dispatched (h : (Client.automaton setup).Reachable w) :
    ∀ c, c < w.shared.created → Did (w.shared.sessions c).trace .dispatch () →
      w.shared.handlerShutdown = true ∨ (w.shared.sessions c).generation.Settled := by
  refine h.invariant_of (I := fun w => ∀ c, c < w.shared.created →
      Did (w.shared.sessions c).trace .dispatch () →
      w.shared.handlerShutdown = true ∨ (w.shared.sessions c).generation.Settled)
    (fun w hw c hc => ?_) fun w a w' hr hs hi c hc hd => ?_
  · obtain ⟨millis, rfl⟩ := hw
    exact absurd hc (Nat.not_lt_zero c)
  · have hinv := clientInv_of_reachable hr
    have hstep := client_step hs
    have hg := client_grows hstep hinv
    have hch := hstep.change hinv.handles
    rcases created_change hch hc with hc' | ⟨config, he, -⟩
    · have hsession := hinv.shared.sessions c hc'
      have hsi := Session.inv_of_reachable hsession
      have keep : Did (w.shared.sessions c).trace .dispatch () →
          w'.shared.handlerShutdown = true ∨ (w'.shared.sessions c).generation.Settled := by
        intro hold
        refine (hi c hc' hold).imp hg.handlers fun hset => ?_
        rcases session_change hch hc' with he | ⟨b, hb, -⟩
        · rw [he]
          exact hset
        · rcases (Session.change_step hb).generation with he | ⟨x, hx, -⟩
          · rw [he]
            exact hset
          · exact hset.step (Generation.pipe_step hx)
      rcases session_change hch hc' with he | ⟨b, hb, hans⟩
      · exact keep (he ▸ hd)
      · rcases Session.dispatched_step hb hd with hold | rfl | ⟨h0, hm, hj, hgen⟩
        · exact keep hold
        · exact .inl (hg.handlers hans.symm)
        · right
          have hsi' := Session.inv_of_reachable (hsession.tail hb)
          obtain ⟨before, after, heq, hpre⟩ := hd.split hsi'.trace.faithful
          have hspawn := Session.reader_of_connected hsi'.trace (heq ▸ hpre.later)
          have hne : (w'.shared.sessions c).generation.reader ≠ .absent := fun habs =>
            hsi'.tasks.reader.mp habs hspawn
          rw [hgen] at hne ⊢
          have hperf : Performed (w.shared.sessions c).trace .spawnReader := by
            by_contra hno
            exact hne (hsi.tasks.reader.mpr hno)
          refine Generation.settled_of_drained (Generation.pipelineInv_of_reachable
            (Session.generation_reachable hsession)) hj hne (hsi.tasks.incoming.mpr ⟨h0, hperf⟩)
            ?_ hm
          rw [← Bool.not_eq_true, hsi.tasks.aborted]
          omega
    · rw [he] at hd
      exact absurd hd did_nil

namespace Client

/-- A message whose acknowledgement is written is still on its way: the attempt that owns the
connection is not over, and the reader or the channel holds the message. -/
def OnItsWay (s : Session) (n : Nat) (m : IncomingMessage) : Prop :=
  s.phase.rank = 0 ∧ (s.generation.reader.message = some (n, m) ∨ (n, m) ∈ s.generation.messages)

/-- The attempt that owns the connection has ended with an error. -/
def Lost (s : Session) : Prop := ∃ e, s.phase.outcome = some (.error e)

theorem fate_of_acked (h : (automaton setup).Reachable w) {c : ConnId} {n : Nat} {q : Packet}
    (hc : c < w.shared.created)
    (ha : .acked n q ∈ (w.shared.sessions c).generation.transport.log) :
    ∃ m, Brought (w.shared.sessions c).generation.transport.log n m q ∧
      (Generation.Taken (w.shared.sessions c).generation n m ∨
        OnItsWay (w.shared.sessions c) n m ∨ Lost (w.shared.sessions c) ∨
        w.shared.recovery.shutdown = true) := by
  have hsession := (clientInv_of_reachable h).shared.sessions c hc
  have htasks := (Session.inv_of_reachable hsession).tasks
  have hpipe := Generation.pipelineInv_of_reachable (Session.generation_reachable hsession)
  obtain ⟨m, hb, hf⟩ := hpipe.acked n q ha
  by_cases h0 : (w.shared.sessions c).phase.rank = 0
  · refine ⟨m, hb, ?_⟩
    rcases hf with hf | hf | hf | hf | ⟨hf, hne⟩
    · exact .inr (.inl ⟨h0, .inl hf⟩)
    · exact .inl (.inr hf)
    · by_cases hin : (w.shared.sessions c).generation.incoming = true
      · rw [hpipe.channel hin, List.mem_append] at hf
        exact hf.elim (fun hf => .inl (.inl hf)) fun hf => .inr (.inl ⟨h0, .inr hf⟩)
      · -- before the reader is spawned nothing is in the channel
        have habs : (w.shared.sessions c).generation.reader = .absent :=
          htasks.reader.mpr fun hp => hin (htasks.incoming.mpr ⟨h0, hp⟩)
        rw [(hpipe.fresh habs).1] at hf
        cases hf
    · have := htasks.aborted.mp hf
      omega
    · have hp : Performed (w.shared.sessions c).trace .spawnReader := by
        by_contra hno
        exact hne (htasks.reader.mpr hno)
      rw [htasks.incoming.mpr ⟨h0, hp⟩] at hf
      cases hf
  · obtain ⟨r, hr⟩ := Phase.outcome_isSome (Nat.one_le_iff_ne_zero.mpr h0)
    rcases r with e | ⟨⟩
    · exact ⟨m, hb, .inr (.inr (.inl ⟨e, hr⟩))⟩
    · -- `run_attempt` has returned `Ok(())`, so the dispatcher has returned
      rcases settled_of_dispatched h c hc (Session.outcome_of_reachable hsession hr) with hs | hs
      · exact ⟨m, hb, .inr (.inr (.inr (shutdown_of_handlers h hs)))⟩
      · obtain ⟨m', hb', ht⟩ := hs.taken n q ha
        exact ⟨m', hb', .inl ht⟩

theorem step_loop {r : RunId} {run : Run} {runner runner' : Runner} {a : LoopAction} {sh : Shared}
    (hrun : w.runs r = some run) (hl : run.supervisor = .looping runner)
    (h : runner.step setup w.shared a = some (sh, runner')) :
    w.step setup (.run r (.loop a)) = some
      { w with
        shared := sh
        runs := Function.update w.runs r (some { run with supervisor := .looping runner' }) } := by
  simp [step, hrun, Run.step, hl, h]

/-- The dispatcher takes the messages out of the channel in their order. -/
theorem dispatch_next {r : RunId} {run : Run} {runner : Runner} {c : ConnId} {a : Attempt}
    {next : Unit → AttemptScript (Except Error Unit)} {x : Nat × IncomingMessage}
    {rest : List (Nat × IncomingMessage)} (hrun : w.runs r = some run)
    (hl : run.supervisor = .looping runner) (hpc : runner.pc = .attempt c)
    (hp : (w.shared.sessions c).phase = .attempting a) (ha : a.rest = .call .dispatch next)
    (hpoll : a.polling = true) (hs : w.shared.handlerShutdown = false)
    (hin : (w.shared.sessions c).generation.incoming = true)
    (hm : (w.shared.sessions c).generation.messages = x :: rest) :
    ∃ w', (automaton setup).exec w
        [.run r (.loop .dispatchCheck), .run r (.loop (.attempt .dispatchRecv))] = some w' ∧
      (w'.shared.sessions c).generation.handled =
        (w.shared.sessions c).generation.handled ++ [x] := by
  let s := w.shared.sessions c
  let a₁ : Attempt := { a with checked := true }
  let s₁ : Session := s.withAttempt a₁
  let g₂ : Generation := { s.generation with
    messages := rest
    handled := s.generation.handled ++ [x] }
  let s₂ : Session := { s with generation := g₂, phase := .attempting { a with checked := false } }
  have hs₁ : s.step setup.fromStr (.attempt (.dispatchCheck false)) = some s₁ := by
    simp [Session.step, Session.stepAttempt, s, s₁, a₁, hp, hpoll, ha]
  have hs₂ : s₁.step setup.fromStr (.attempt .dispatchRecv) = some s₂ := by
    simp [Session.step, Session.stepAttempt, Session.withAttempt, Session.act, Generation.step, s,
      s₁, a₁, s₂, g₂, hpoll, ha, hm, hin]
  have h₁ : runner.step setup w.shared .dispatchCheck =
      some (w.shared.setSession c s₁, runner) := by
    simp only [Runner.step, hpc, hs, Shared.onSession]
    show (s.step setup.fromStr _ |>.map _).map _ = _
    rw [hs₁]
    rfl
  let w₁ : Client := { w with
    shared := w.shared.setSession c s₁
    runs := Function.update w.runs r (some { run with supervisor := .looping runner }) }
  have hsess : w₁.shared.sessions c = s₁ := setSession_self _ _ _
  have h₂ : runner.step setup w₁.shared (.attempt .dispatchRecv) =
      some (w₁.shared.setSession c s₂, runner) := by
    simp only [Runner.step, hpc, Runner.isLocal, Shared.onSession, hsess, hs₂]
    rfl
  have hw₁ : w.step setup (.run r (.loop .dispatchCheck)) = some w₁ := step_loop hrun hl h₁
  have hw₂ := step_loop (w := w₁) (r := r) (Function.update_self _ _ _) rfl h₂
  refine ⟨_, (Automaton.exec_cons hw₁).trans (Automaton.exec_cons hw₂), ?_⟩
  show ((w₁.shared.setSession c s₂).sessions c).generation.handled = _
  rw [setSession_self]

/-- A message whose acknowledgement is on the wire is handed to a handler or filtered, unless
the attempt ends with an error or the client is shut down first: until then it is on its way,
the dispatcher takes what has come through one after the other, and afterwards it is too late. -/
theorem acknowledged_message :
    (∀ w, (automaton setup).Reachable w → ∀ c, c < w.shared.created → ∀ n q,
      .acked n q ∈ (w.shared.sessions c).generation.transport.log →
      ∃ m, Brought (w.shared.sessions c).generation.transport.log n m q ∧
        (Generation.Taken (w.shared.sessions c).generation n m ∨
          OnItsWay (w.shared.sessions c) n m ∨ Lost (w.shared.sessions c) ∨
          w.shared.recovery.shutdown = true)) ∧
    (∀ w, (automaton setup).Reachable w → ∀ r run runner c a next x rest,
      w.runs r = some run → run.supervisor = .looping runner → runner.pc = .attempt c →
      (w.shared.sessions c).phase = .attempting a → a.rest = .call .dispatch next →
      a.polling = true → w.shared.handlerShutdown = false →
      (w.shared.sessions c).generation.messages = x :: rest →
      ∃ w', (automaton setup).exec w
          [.run r (.loop .dispatchCheck), .run r (.loop (.attempt .dispatchRecv))] = some w' ∧
        (w'.shared.sessions c).generation.handled =
          (w.shared.sessions c).generation.handled ++ [x]) ∧
    (∀ w w', (automaton setup).Reachable w → (automaton setup).Leads w w' →
      ∀ c, c < w.shared.created → 1 ≤ (w.shared.sessions c).phase.rank →
      (w'.shared.sessions c).generation.handled = (w.shared.sessions c).generation.handled) := by
  refine ⟨fun w h c hc n q ha => fate_of_acked h hc ha, ?_, fun w w' h hl c hc h1 => ?_⟩
  · intro w h r run runner c a next x rest hrun hsup hpc hp hrest hpoll hs hm
    have hinv := clientInv_of_reachable h
    have hc := hinv.handles.runner r run runner c hrun hsup hpc
    have hsi := Session.inv_of_reachable (hinv.shared.sessions c hc)
    have hspawn := Session.reader_of_connected hsi.trace (hsi.trace.pre hp hrest)
    refine dispatch_next hrun hsup hpc hp hrest hpoll hs ?_ hm
    exact hsi.tasks.incoming.mpr ⟨by simp [hp, Phase.rank], hspawn⟩
  · exact Session.handled_of_ended ((clientInv_of_reachable h).shared.sessions c hc)
      (session_leads h hl hc).2 h1

/-- The runner waits for a message, which the reader acknowledges and forwards. -/
def sampleHello : List ClientAction :=
  sampleLogin ++ [.run 0 (.loop .dispatchCheck), .run 0 (.loop .park)] ++
  sampleMessage 0 "hello" ++ [.worker 0 (.reader .forward)]

/-- The server closes the connection before the runner is polled. -/
def sampleClosed : List ClientAction :=
  sampleHello ++ [.worker 0 (.reader (.frame (some (.close none)))), .run 0 (.loop .poll)]

/-- The message is with the dispatcher, which takes it; or the connection is closed before. -/
theorem acknowledged_message_hello :
    (∃ w : Client, ∃ m q, Brought (w.shared.sessions 0).generation.transport.log 2 m q ∧
      (Generation.Taken (w.shared.sessions 0).generation 2 m ∨
        OnItsWay (w.shared.sessions 0) 2 m ∨ Lost (w.shared.sessions 0) ∨
        w.shared.recovery.shutdown = true)) ∧
    (∃ w w' : Client, ∃ m : IncomingMessage, m.sender = 5 ∧ (automaton sampleSetup).exec w
        [.run 0 (.loop .dispatchCheck), .run 0 (.loop (.attempt .dispatchRecv))] = some w' ∧
      (w'.shared.sessions 0).generation.handled =
        (w.shared.sessions 0).generation.handled ++ [(2, m)]) ∧
    (∃ w w' : Client, (automaton sampleSetup).Leads w w' ∧
      (w'.shared.sessions 0).generation.handled = (w.shared.sessions 0).generation.handled) := by
  have run : ∀ acts, (h : ((automaton sampleSetup).exec (new sampleSetup 0) acts).isSome) →
      (automaton sampleSetup).Reachable
        (((automaton sampleSetup).exec (new sampleSetup 0) acts).get h) :=
    fun _ _ => Automaton.reachable_get ⟨0, rfl⟩
  refine ⟨?_, ?_, ?_⟩
  · obtain ⟨m, hm⟩ := acknowledged_message.1 _ (run sampleHello rfl) 0 (by decide) 2 _
      (List.mem_of_getLast? rfl)
    exact ⟨_, m, _, hm⟩
  · obtain ⟨w', hw', hh⟩ := acknowledged_message.2.1 _
      (run (sampleHello ++ [.run 0 (.loop .poll)]) rfl) 0 _ _ 0 _ _
      (2, { chatId := 1, messageId := 0, sender := 5, text := "", time := 0 }) [] rfl rfl rfl rfl
      rfl rfl rfl rfl
    exact ⟨_, w', _, rfl, hw', hh⟩
  · have hl : (automaton sampleSetup).Leads
        (((automaton sampleSetup).exec (new sampleSetup 0) sampleClosed).get rfl)
        (((automaton sampleSetup).exec (((automaton sampleSetup).exec (new sampleSetup 0)
          sampleClosed).get rfl) [.run 0 (.loop (.offline 0))]).get rfl) :=
      Automaton.leads_get
    exact ⟨_, _, hl, acknowledged_message.2.2 _ _ (run sampleClosed rfl) hl 0 (by decide)
      (by decide)⟩

/-- The token is the first thing that the runner looks at, the channel is not looked at again. -/
theorem acknowledged_message_lost : ¬ ∀ w, (automaton sampleSetup).Reachable w →
    ∀ c, c < w.shared.created → ∀ n m q,
    .acked n q ∈ (w.shared.sessions c).generation.transport.log →
    Brought (w.shared.sessions c).generation.transport.log n m q →
    isFilteredIncomingMessage m (w.shared.sessions c).generation.ownUserId = false →
    w.shared.recovery.shutdown = false →
    ∃ w', (automaton sampleSetup).Leads w w' ∧
      (n, m) ∈ (w'.shared.sessions c).generation.handled := by
  intro h
  have hr : (automaton sampleSetup).Reachable 
      (((automaton sampleSetup).exec (new sampleSetup 0) sampleClosed).get rfl) :=
    Automaton.reachable_get ⟨0, rfl⟩
  obtain ⟨w', hl, hm⟩ := h _ hr 0 (by decide) 2
    { chatId := 1, messageId := 0, sender := 5, text := "", time := 0 } _
    (List.mem_of_getLast? rfl)
    ⟨Packet.request 8 Opcode.NOTIF_MESSAGE
      (.object [("chatId", .int 1), ("message", .object [("sender", .int 5)])]),
      List.mem_of_getElem? (i := 8) rfl, rfl, rfl, rfl⟩ rfl rfl
  rw [Session.handled_of_ended ((clientInv_of_reachable hr).shared.sessions 0 (by decide))
    (session_leads hr hl (by decide)).2 (by decide)] at hm
  exact absurd hm (List.not_mem_nil)

end Client

end Maxrs
