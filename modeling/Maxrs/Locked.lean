import Maxrs.Owners
set_option autoImplicit false

/-! The client with the holders of `state` and of `cid`. Their critical sections contain no
await, so a step of `Client` takes one of them whole; here the task first gets the mutex, others
may take steps before its critical section, and that gives the mutex back. -/
namespace Maxrs

/-- Held inside one poll only. -/
def Mutex.isShort : Mutex → Bool
  | .state _ | .cid => true
  | .sendOrder _ | .sink _ | .runLock => false

def ClientAction.leaves (a : ClientAction) : Bool :=
  match a with
  | .worker _ (.reader .abort) | .worker _ (.keepalive .abort) | .run _ (.loop .park)
  | .send _ .drop => true
  | a =>
    match a.invokePoll with
    | some .park => true
    | _ => false

def Client.criticalSection (w : Client) (a : ClientAction) : Option Mutex :=
  match a with
  | .send _ .takeCid => some .cid
  | .worker c (.reader .received) => some (.state c)
  | .run r (.loop (.close .clear)) => (w.attemptOf r).map .state
  | a =>
    match a.invokePoll with
    | some (.inner b) =>
      if b.usesState then (w.invoking a.task).map fun i => .state i.1 else none
    | _ => none

structure Locked where
  client : Client
  /-- Guards of the short mutexes. -/
  guard : Mutex → Option Task

inductive LockedAction where
  | lock (p : Task)
  | act (a : ClientAction)

namespace Locked

variable (setup : Setup)

/-- The task holds the mutex at whose lock it stands. -/
def inside (w : Locked) (p : Task) : Bool :=
  match w.client.place p with
  | .lock m => w.guard m = some p
  | _ => false

def step (w : Locked) : LockedAction → Option Locked
  | .lock p =>
    match w.client.place p with
    | .lock m =>
      if m.isShort && w.client.inPoll p && (w.guard m).isNone then
        some { w with guard := Function.update w.guard m (some p) }
      else none
    | _ => none
  | .act a =>
    -- there is no await inside a critical section
    if a.leaves && w.inside a.task then none
    else
      match w.client.criticalSection a with
      | none => (w.client.step setup a).map fun client => { w with client := client }
      | some m =>
        if w.guard m = some a.task then
          (w.client.step setup a).map fun client =>
            { client := client, guard := Function.update w.guard m none }
        else none

def automaton : Automaton Locked LockedAction where
  init := fun w => ∃ millis, w = { client := .new setup millis, guard := fun _ => none }
  step := step setup

end Locked

variable {setup : Setup} {w w' : Client} {v v' : Locked}

inductive ShortPlace (w : Client) : Task → Mutex → Prop where
  | reader (c : ConnId) : (w.generation c).reader = .receiving →
      ShortPlace w (.reader c) (.state c)
  | close (r : RunId) (c : ConnId) (x : Except Error Unit) : w.attemptOf r = some c →
      (w.shared.sessions c).phase = .clearing x → ShortPlace w (.supervisor r) (.state c)
  | cid (i : SendId) (snd : Send) (now : Int) : w.sends i = some snd → snd.pc = .cid now →
      ShortPlace w (.send i) .cid

theorem Attempt.place_short {a : Attempt} {l : Option SinkHolder} {c : ConnId} {m : Mutex}
    (h : a.place l c = .lock m) : m.isShort = false := by
  unfold Attempt.place at h
  repeat' split at h
  all_goals first
    | cases h
      done
    | (cases h
       rfl)

theorem Session.place_short {s : Session} {c : ConnId} {m : Mutex} (h : s.place c = .lock m)
    (hm : m.isShort = true) : m = .state c ∧ ∃ x, s.phase = .clearing x := by
  unfold Session.place at h
  split at h
  · rw [Attempt.place_short h] at hm
    cases hm
  · cases h
  · rename_i x hp
    cases h
    exact ⟨rfl, x, hp⟩
  · cases h
    cases hm
  all_goals cases h

theorem ownPlace_attempt {r : RunId} {c : ConnId} (h : w.attemptOf r = some c) :
    w.ownPlace (.supervisor r) = (w.shared.sessions c).place c := by
  obtain ⟨run, ⟨config, delay, pc⟩, hr, hs, hp⟩ := attemptOf_eq.mp h
  cases hp
  simp [Client.ownPlace, hr, hs]

theorem ownPlace_off {r : RunId} (h : w.attemptOf r = none) (m : Mutex) :
    w.ownPlace (.supervisor r) ≠ .lock m := by
  intro he
  simp only [Client.ownPlace] at he
  split at he
  · rename_i run hr
    split at he
    · cases he
    · cases he
    · rename_i runner hs
      split at he
      · rename_i c hp
        rw [attemptOf_eq.mpr ⟨run, runner, hr, hs, hp⟩] at h
        cases h
      all_goals cases he
    all_goals cases he
  · cases he

theorem ownPlace_short {p : Task} {m : Mutex} (h : w.ownPlace p = .lock m)
    (hm : m.isShort = true) : ShortPlace w p m := by
  cases p with
  | reader c =>
    simp only [Client.ownPlace, Generation.readerPlace] at h
    repeat' split at h
    all_goals first
      | (cases h; done)
      | (cases h; cases hm; done)
      | (cases h
         exact .reader c (by assumption))
  | keepalive c =>
    simp only [Client.ownPlace] at h
    cases hk : (w.generation c).keepalive <;> rw [hk] at h <;> cases h
  | run r =>
    simp only [Client.ownPlace] at h
    split at h
    · rename_i run _
      cases hc : run.call <;> rw [hc] at h <;> cases h
    · cases h
  | supervisor r =>
    cases hat : w.attemptOf r with
    | none => exact absurd h (ownPlace_off hat m)
    | some c =>
      rw [ownPlace_attempt hat] at h
      obtain ⟨rfl, x, hx⟩ := Session.place_short h hm
      exact .close r c x hat hx
  | send i =>
    simp only [Client.ownPlace] at h
    split at h
    · rename_i snd hs
      unfold SendPc.place at h
      split at h <;> first
        | (cases h; done)
        | (cases h
           exact .cid i snd _ hs (by assumption))
    · cases h
  | disconnect d =>
    simp only [Client.ownPlace] at h
    split at h
    · rename_i pc _
      cases pc <;> first
        | (cases h; done)
        | (cases h; cases hm)
    · cases h

theorem ShortPlace.place {p : Task} {m : Mutex} (h : ShortPlace w p m)
    (hn : w.invoking p = none) : w.place p = .lock m := by
  simp only [Client.place, hn]
  cases h with
  | reader c hr => simp [Client.ownPlace, Generation.readerPlace, hr]
  | close r c x hat hx =>
    rw [ownPlace_attempt hat]
    simp [Session.place, hx]
  | cid i snd now hs hp => simp [Client.ownPlace, hs, hp, SendPc.place]

theorem ShortPlace.invoking {p : Task} {m : Mutex} (h : ShortPlace w p m) :
    w.invoking p = none := by
  cases h with
  | reader c hr => rfl
  | close r c x hat hx => simp [Client.invoking, hat, Session.waiting, hx]
  | cid i snd now hs hp => simp [Client.invoking, hs, Send.waiting, hp]

theorem place_of_standing {p : Task} {i : ConnId × CallId} {x : InvokePc × CallPc}
    (hp : w.invoking p = some i) (hx : w.standing i = some x) :
    w.place p = x.2.place i.1 ∧ (w.inPoll p = true ↔ x.1 = .polling) := by
  refine ⟨by simp [Client.place, hp, hx], ?_⟩
  obtain ⟨y, pc⟩ := x
  simp only [Client.inPoll, hp, hx]
  cases y <;> simp

theorem shortPlace_frame {a : ClientAction} {p : Task} {m : Mutex}
    (hr : (Client.automaton setup).Reachable w) (h : w.step setup a = some w')
    (hp : p ≠ a.task) (hs : ShortPlace w p m) : ShortPlace w' p m := by
  cases hs with
  | reader c hread =>
    rcases (reader_frame hr h hp.symm).1 with he | he
    · exact .reader c (he.trans hread)
    · cases hread.symm.trans he
  | close r c x hat hx =>
    refine .close r c x ?_ ((attempt_phase hr h hat hp.symm).trans hx)
    exact (attempt_frame (lifecycleInv_of_reachable hr) h hp.symm).trans hat
  | cid i snd now hsnd hpc => exact .cid i snd now ((sends_frame h hp.symm).trans hsnd) hpc

theorem short_frame {a : ClientAction} {p : Task} {m : Mutex}
    (hr : (Client.automaton setup).Reachable w) (h : w.step setup a = some w')
    (hp : p ≠ a.task) (hplace : w.place p = .lock m) (hm : m.isShort = true) :
    w'.place p = .lock m ∧ w'.inPoll p = w.inPoll p := by
  have hsame := invoking_frame hr h hp
  cases hi : w.invoking p with
  | some i =>
    have hst : w'.standing i = w.standing i :=
      (await_turn hr h).other (owned_of_reachable hr) hp hi
    simp only [Client.place, Client.inPoll, hsame, hi, hst] at hplace ⊢
    exact ⟨hplace, trivial⟩
  | none =>
    have hown : w.ownPlace p = .lock m := by simpa [Client.place, hi] using hplace
    have hs := shortPlace_frame hr h hp (ownPlace_short hown hm)
    exact ⟨hs.place (hsame.trans hi), by simp [Client.inPoll, hsame, hi]⟩

theorem leaves_of_park {a : ClientAction} (h : a.invokePoll = some .park) :
    a.leaves = true := by
  unfold ClientAction.leaves
  split
  · rfl
  · rfl
  · rfl
  · rfl
  · simp [h]

theorem criticalSection_inner {a : ClientAction} {b : CallAction} {i : ConnId × CallId}
    (h : a.invokePoll = some (.inner b)) (hb : b.usesState = true)
    (hi : w.invoking a.task = some i) : w.criticalSection a = some (.state i.1) := by
  unfold Client.criticalSection
  split
  · cases h
  · cases h
  · cases h
  · simp [h, hb, hi]

theorem invoking_short {a : ClientAction} {i : ConnId × CallId} {pc : CallPc}
    (hturn : AwaitTurn a.invokePoll (w.invoking a.task) (w'.invoking a.task) w.shared w'.shared)
    (hi : w.invoking a.task = some i) (hx : w.standing i = some (.polling, pc))
    (huse : pc.usesState = true) : a.leaves = true ∨ w.criticalSection a = some (.state i.1) ∨
      (w'.invoking a.task = some i ∧ w'.standing i = some (.polling, pc)) := by
  have moves : ∀ {t}, InvokeMoves a.invokePoll (.polling, pc) t →
      a.leaves = true ∨ w.criticalSection a = some (.state i.1) := by
    rintro t ⟨b, hb, hpoll⟩
    cases hb with
    | park => exact .inl (leaves_of_park (hpoll.resolve_right (by simp)))
    | inner b _ _ hu =>
      exact .inr (criticalSection_inner (hpoll.resolve_right (by simp)) (hu.trans huse) hi)
    | finish r => cases huse
  cases hturn with
  | quiet ho hs => exact .inr (.inr ⟨ho.trans hi, (hs i).trans hx⟩)
  | start j t hn => cases hi.symm.trans hn
  | work j s t hb ha hs ht hm hk ho =>
    cases hi.symm.trans hb
    cases hx.symm.trans hs
    exact (moves hm).imp id .inl
  | leave j s t hb ha hs ht hm hd ho =>
    cases hi.symm.trans hb
    cases hx.symm.trans hs
    rcases hm with rfl | hm
    · exact absurd (.inr rfl) hd
    · exact (moves hm).imp id .inl

/-- A task inside a poll that stands before a critical section: it leaves the poll, or the step
is that critical section, or the task stays where it is. -/
theorem own_short {a : ClientAction} {m : Mutex}
    (hr : (Client.automaton setup).Reachable w) (h : w.step setup a = some w')
    (hplace : w.place a.task = .lock m) (hm : m.isShort = true)
    (hpoll : w.inPoll a.task = true) : a.leaves = true ∨ w.criticalSection a = some m ∨
      (w'.place a.task = .lock m ∧ w'.inPoll a.task = true) := by
  cases hi : w.invoking a.task with
  | some i =>
    obtain ⟨⟨y, pc⟩, hx, -⟩ := (owned_of_reachable hr).known _ i hi
    obtain ⟨hpl, hin⟩ := place_of_standing hi hx
    have hy : y = .polling := hin.mp hpoll
    subst hy
    have hstate : m = .state i.1 ∧ pc.usesState = true := by
      rw [hplace] at hpl
      cases pc <;> cases hpl <;> first | exact ⟨rfl, rfl⟩ | cases hm
    obtain ⟨rfl, huse⟩ := hstate
    rcases invoking_short (await_turn hr h) hi hx huse with hl | hc | ⟨hi', hx'⟩
    · exact .inl hl
    · exact .inr (.inl hc)
    · obtain ⟨hpl', hin'⟩ := place_of_standing hi' hx'
      exact .inr (.inr ⟨hpl'.trans (hpl.symm.trans hplace), hin'.mpr rfl⟩)
  | none =>
    have hown : w.ownPlace a.task = .lock m := by simpa [Client.place, hi] using hplace
    have hs := ownPlace_short hown hm
    generalize htask : a.task = p at hs
    cases hs with
    | reader c hread =>
      obtain ⟨x, rfl⟩ : ∃ x, a = .worker c (.reader x) := by
        cases a with
        | worker d x =>
          cases x with
          | reader x =>
            cases htask
            exact ⟨x, rfl⟩
          | keepalive x => cases htask
        | run q x => cases hx : x.ofCall <;> simp [ClientAction.task, hx] at htask
        | _ => cases htask
      simp only [Client.generation] at hread
      simp only [Client.step, Option.ite_none_right_eq_some] at h
      obtain ⟨sh, hsh, -⟩ := Option.map_eq_some_iff.mp h.2
      obtain ⟨s, hact, -⟩ := onSession_eq hsh
      obtain ⟨g, hg, -⟩ := Session.act_eq hact
      simp only [WorkerAction.toGeneration, Generation.step] at hg
      cases x with
      | received => exact .inr (.inl rfl)
      | abort => exact .inl rfl
      | start | frame _ | ack _ | filter | forward => simp [Generation.stepReader, hread] at hg
    | close r c x hat hx =>
      obtain ⟨b, rfl, hb⟩ : ∃ b, a = .run r b ∧ b.ofCall = false := by
        cases a with
        | run q b =>
          cases hb : b.ofCall <;> simp [ClientAction.task, hb] at htask
          exact ⟨b, by rw [htask], hb⟩
        | worker d x => cases x <;> cases htask
        | _ => cases htask
      cases supervisor_turn hb h with
      | session d l sa s hl hat' hsa hstep _ _ =>
        cases hat.symm.trans hat'
        subst hl
        cases l with
        | close act =>
          cases hsa
          cases act with
          | clear =>
            refine .inr (.inl ?_)
            simp [Client.criticalSection, hat]
          | _ => simp [Session.step, Session.stepClose, hx] at hstep
        | poll | park | attempt _ | connected | dispatchCheck | finishAttempt | offline _ =>
          cases hsa
          simp [Session.step, Session.poll, Session.park, Session.finish, Session.stepClose,
            hx] at hstep
        | _ => cases hsa
      | begin _ hn | shutdown hn => cases hat.symm.trans hn
      | quiet _ _ hover =>
        obtain ⟨y, hy⟩ := hover c hat
        cases hx.symm.trans hy
    | cid i snd now hsnd hpc =>
      cases a with
      | startSend j job =>
        cases htask
        simp [Client.step, hsnd] at h
      | send j x =>
        cases htask
        obtain ⟨snd', hsnd', h⟩ := Option.bind_eq_some_iff.mp h
        cases hsnd.symm.trans hsnd'
        obtain ⟨out, hout, -⟩ := Option.map_eq_some_iff.mp h
        cases x with
        | takeCid => exact .inr (.inl rfl)
        | drop => exact .inl rfl
        | borrow | check | wake => simp [Send.step, Send.stepCurrent, hpc] at hout
        | _ => simp [Send.step, hpc] at hout
      | run q x => cases hx : x.ofCall <;> simp [ClientAction.task, hx] at htask
      | worker d x => cases x <;> cases htask
      | _ => cases htask

theorem Locked.lock_eq {p : Task} (h : v.step setup (.lock p) = some v') :
    ∃ m, v.client.place p = .lock m ∧ m.isShort = true ∧ v.client.inPoll p = true ∧
      v.guard m = none ∧ v' = { v with guard := Function.update v.guard m (some p) } := by
  simp only [Locked.step] at h
  split at h
  · rename_i m hm
    split at h <;> cases h
    rename_i hall
    simp only [Bool.and_eq_true, Option.isNone_iff_eq_none] at hall
    exact ⟨m, hm, hall.1.1, hall.1.2, hall.2, rfl⟩
  · cases h

theorem Locked.act_eq {a : ClientAction} (h : v.step setup (.act a) = some v') :
    (a.leaves = true → v.inside a.task = false) ∧ ∃ c, v.client.step setup a = some c ∧
      ((v.client.criticalSection a = none ∧ v' = { v with client := c }) ∨
        ∃ m, v.client.criticalSection a = some m ∧ v.guard m = some a.task ∧
          v' = { client := c, guard := Function.update v.guard m none }) := by
  simp only [Locked.step] at h
  split at h
  · cases h
  · rename_i hl
    refine ⟨fun ha => by simpa [ha] using hl, ?_⟩
    split at h
    · rename_i hc
      obtain ⟨c, hstep, rfl⟩ := Option.map_eq_some_iff.mp h
      exact ⟨c, hstep, .inl ⟨hc, rfl⟩⟩
    · rename_i m hc
      split at h
      · rename_i hg
        obtain ⟨c, hstep, rfl⟩ := Option.map_eq_some_iff.mp h
        exact ⟨c, hstep, .inr ⟨m, hc, hg, rfl⟩⟩
      · cases h

/-- With the guards forgotten, the steps are those of the client. -/
theorem locked_simulation :
    Automaton.Simulation (Locked.automaton setup) (Client.automaton setup) Locked.client where
  init := by
    rintro v ⟨millis, rfl⟩
    exact ⟨millis, rfl⟩
  step := by
    intro v a v' _ h
    cases a with
    | lock p =>
      obtain ⟨m, -, -, -, -, rfl⟩ := @Locked.lock_eq setup v v' p h
      exact .refl
    | act a =>
      obtain ⟨-, c, hc, hv⟩ := Locked.act_eq h
      have he : v'.client = c := by
        rcases hv with ⟨-, rfl⟩ | ⟨m, -, -, rfl⟩ <;> rfl
      exact .single (a := a) trivial (hc.trans (by rw [he]))

def GuardInv (v : Locked) : Prop :=
  ∀ m p, v.guard m = some p →
    m.isShort = true ∧ v.client.place p = .lock m ∧ v.client.inPoll p = true

theorem GuardInv.inside {m : Mutex} {p : Task} (hi : GuardInv v) (h : v.guard m = some p) :
    v.inside p = true := by
  obtain ⟨-, hp, -⟩ := hi m p h
  simp [Locked.inside, hp, h]

theorem guardInv_step {a : LockedAction} (hr : (Client.automaton setup).Reachable v.client)
    (h : v.step setup a = some v') (hi : GuardInv v) : GuardInv v' := by
  cases a with
  | lock p =>
    obtain ⟨m, hplace, hm, hpoll, -, rfl⟩ := Locked.lock_eq h
    intro n q hq
    by_cases hn : n = m
    · subst hn
      simp only [Function.update_self, Option.some.injEq] at hq
      subst hq
      exact ⟨hm, hplace, hpoll⟩
    · exact hi n q (by simpa [Function.update_of_ne hn] using hq)
  | act a =>
    obtain ⟨hleave, c, hstep, hv⟩ := Locked.act_eq h
    intro m p hp
    have hold : v.guard m = some p ∧ v.client.criticalSection a ≠ some m ∧ v'.client = c := by
      rcases hv with ⟨hn, rfl⟩ | ⟨n, hn, -, rfl⟩
      · exact ⟨hp, by simp [hn], rfl⟩
      · by_cases hmn : m = n
        · subst hmn
          simp at hp
        · have hp' : v.guard m = some p := by simpa [Function.update_of_ne hmn] using hp
          exact ⟨hp', by simpa [hn] using Ne.symm hmn, rfl⟩
    obtain ⟨hg, hc, rfl⟩ := hold
    obtain ⟨hm, hplace, hpoll⟩ := hi m p hg
    by_cases hpa : p = a.task
    · subst hpa
      rcases own_short hr hstep hplace hm hpoll with hl | hcs | ⟨hpl, hin⟩
      · rw [hi.inside hg] at hleave
        cases hleave hl
      · exact absurd hcs hc
      · exact ⟨hm, hpl, hin⟩
    · obtain ⟨hpl, hin⟩ := short_frame hr hstep hpa hplace hm
      exact ⟨hm, hpl, hin.trans hpoll⟩

theorem client_reachable (h : (Locked.automaton setup).Reachable v) :
    (Client.automaton setup).Reachable v.client := locked_simulation.reachable h

theorem guardInv_of_reachable (h : (Locked.automaton setup).Reachable v) : GuardInv v := by
  refine h.invariant_of (fun v hv => ?_) fun v a v' hr hs hi =>
    guardInv_step (client_reachable hr) hs hi
  obtain ⟨millis, rfl⟩ := hv
  intro m p hp
  cases hp

theorem stepInvoke_inner {g g' : Generation} {k : CallId} {b : CallAction}
    (hg : GenerationInv g) (h : g.stepInvoke k (.inner b) = some g') :
    ∃ pc, g.standing k = some (.polling, pc) ∧ b.usesState = pc.usesState := by
  obtain ⟨x, y, hx, -, hturn, -⟩ := Generation.stepInvoke_standing h hg
  cases hturn with
  | inner _ pc pc' hu => exact ⟨pc, hx, hu⟩

theorem attempt_step {r : RunId} {a : AttemptAction}
    (h : w.step setup (.run r (.loop (.attempt a))) = some w') :
    ∃ c s, w.attemptOf r = some c ∧
      (w.shared.sessions c).step setup.fromStr (.attempt a) = some s := by
  obtain ⟨run, hr, h⟩ := Option.bind_eq_some_iff.mp h
  obtain ⟨out, hst, -⟩ := Option.map_eq_some_iff.mp h
  simp only [Run.step] at hst
  split at hst
  · rename_i runner hs
    obtain ⟨out, hout, -⟩ := Option.map_eq_some_iff.mp hst
    simp only [Runner.step] at hout
    split at hout
    · rename_i c hp
      split at hout
      · obtain ⟨m, hm, -⟩ := Option.map_eq_some_iff.mp hout
        obtain ⟨s, hact, -⟩ := onSession_eq hm
        exact ⟨c, s, attemptOf_eq.mpr ⟨run, runner, hr, hs, hp⟩, hact⟩
      · cases hout
    · cases hout
  · cases hst

theorem close_step {r : RunId} {b : CloseAction} {c : ConnId}
    (h : w.step setup (.run r (.loop (.close b))) = some w') (hat : w.attemptOf r = some c) :
    ∃ s, (w.shared.sessions c).stepClose setup.fromStr b = some s := by
  obtain ⟨run, runner, hr, hs, hp⟩ := attemptOf_eq.mp hat
  obtain ⟨run', hr', h⟩ := Option.bind_eq_some_iff.mp h
  cases hr.symm.trans hr'
  obtain ⟨out, hst, -⟩ := Option.map_eq_some_iff.mp h
  simp only [Run.step, hs] at hst
  obtain ⟨out, hout, -⟩ := Option.map_eq_some_iff.mp hst
  simp only [Runner.step, hp] at hout
  split at hout
  · cases hout
  · obtain ⟨m, hm, -⟩ := Option.map_eq_some_iff.mp hout
    obtain ⟨s, hact, -⟩ := onSession_eq hm
    exact ⟨s, hact⟩

theorem inner_standing {a : ClientAction} {b : CallAction}
    (hr : (Client.automaton setup).Reachable w) (h : w.step setup a = some w')
    (hb : a.invokePoll = some (.inner b)) : ∃ i pc, w.invoking a.task = some i ∧
      w.standing i = some (.polling, pc) ∧ b.usesState = pc.usesState := by
  have hi := clientInv_of_reachable hr
  unfold ClientAction.invokePoll at hb
  split at hb
  · rename_i c x
    obtain rfl : x = .ping (.inner b) := by
      cases x <;> cases hb
      rfl
    simp only [Client.step, Option.ite_none_right_eq_some] at h
    obtain ⟨hc, h⟩ := h
    obtain ⟨sh, hsh, -⟩ := Option.map_eq_some_iff.mp h
    obtain ⟨s, hact, -⟩ := onSession_eq hsh
    obtain ⟨g, hg, -⟩ := Session.act_eq hact
    simp only [WorkerAction.toGeneration, Generation.step] at hg
    cases hk : (w.shared.sessions c).generation.keepalive with
    | pinging k =>
      simp only [Generation.stepKeepalive, hk] at hg
      obtain ⟨pc, hpc, hu⟩ := stepInvoke_inner (generationInv_at hr hc).generation hg
      refine ⟨(c, k), pc, ?_, hpc, hu⟩
      simp [ClientAction.task, Client.invoking, Client.generation, Generation.pinging, hk]
    | _ => simp [Generation.stepKeepalive, hk] at hg
  · rename_i r x
    obtain rfl : x = .onInvoke (.inner b) := by
      cases x <;> cases hb
      rfl
    have htask : (ClientAction.run r (.loop (.attempt (.onInvoke (.inner b))))).task =
        .supervisor r := task_run rfl
    rw [htask]
    obtain ⟨c, s, hat, hstep⟩ := attempt_step h
    simp only [Session.step] at hstep
    split at hstep
    · rename_i att hp
      rw [Option.ite_none_right_eq_some] at hstep
      cases hw : att.waiting with
      | none => simp [Session.stepAttempt, hw] at hstep
      | some k =>
        simp only [Session.stepAttempt, hw] at hstep
        obtain ⟨g, hg, -⟩ := Session.act_eq hstep.2
        obtain ⟨pc, hpc, hu⟩ := stepInvoke_inner
          (generationInv_at hr (attempt_created hi hat)).generation hg
        exact ⟨(c, k), pc, by simp [Client.invoking, hat, Session.waiting, hp, hw], hpc, hu⟩
    · cases hstep
  · rename_i i x
    obtain rfl : x = .onInvoke (.inner b) := by
      cases x <;> cases hb
      rfl
    obtain ⟨snd, hsnd, h⟩ := Option.bind_eq_some_iff.mp h
    obtain ⟨⟨sh, snd'⟩, hst, rfl⟩ := Option.map_eq_some_iff.mp h
    simp only [Send.step] at hst
    split at hst
    · rename_i body hp
      cases hw : body.waiting with
      | none => simp [Send.stepBody, hw] at hst
      | some k =>
        simp only [Send.stepBody, hw] at hst
        obtain ⟨m, hm, -⟩ := Option.map_eq_some_iff.mp hst
        obtain ⟨s, hact, -⟩ := onSession_eq hm
        obtain ⟨g, hg, -⟩ := Session.act_eq hact
        obtain ⟨pc, hpc, hu⟩ := stepInvoke_inner (generationInv_at hr
          (hi.handles.body i snd body hsnd hp).1).generation hg
        refine ⟨(body.connection, k), pc, ?_, hpc, hu⟩
        simp [ClientAction.task, Client.invoking, hsnd, Send.waiting, hp, hw]
    · cases hst
  · cases hb

theorem critical_place {a : ClientAction} {m : Mutex}
    (hr : (Client.automaton setup).Reachable w) (h : w.step setup a = some w')
    (hc : w.criticalSection a = some m) :
    w.place a.task = .lock m ∧ m.isShort = true ∧ w.inPoll a.task = true := by
  have own : ∀ {p}, ShortPlace w p m → m.isShort = true →
      w.place p = .lock m ∧ m.isShort = true ∧ w.inPoll p = true := fun hs hm =>
    ⟨hs.place hs.invoking, hm, by simp [Client.inPoll, hs.invoking]⟩
  unfold Client.criticalSection at hc
  split at hc
  · rename_i i
    cases hc
    obtain ⟨snd, hsnd, h⟩ := Option.bind_eq_some_iff.mp h
    obtain ⟨out, hout, -⟩ := Option.map_eq_some_iff.mp h
    simp only [Send.step] at hout
    split at hout <;> cases hout
    rename_i now hpc
    exact own (.cid i snd now hsnd hpc) rfl
  · rename_i c
    cases hc
    simp only [Client.step, Option.ite_none_right_eq_some] at h
    obtain ⟨sh, hsh, -⟩ := Option.map_eq_some_iff.mp h.2
    obtain ⟨s, hact, -⟩ := onSession_eq hsh
    obtain ⟨g, hg, -⟩ := Session.act_eq hact
    simp only [WorkerAction.toGeneration, Generation.step, Generation.stepReader] at hg
    split at hg
    · rename_i hread
      exact own (.reader c hread) rfl
    · cases hg
  · rename_i r
    obtain ⟨c, hat, rfl⟩ := Option.map_eq_some_iff.mp hc
    have htask : (ClientAction.run r (.loop (.close .clear))).task = .supervisor r := task_run rfl
    rw [htask]
    obtain ⟨s, hstep⟩ := close_step h hat
    simp only [Session.stepClose] at hstep
    split at hstep
    · rename_i x hx
      exact own (.close r c x hat hx) rfl
    · cases hstep
  · split at hc
    · rename_i b hb
      split at hc
      · rename_i huse
        obtain ⟨i, hi, rfl⟩ := Option.map_eq_some_iff.mp hc
        obtain ⟨j, pc, hj, hx, hu⟩ := inner_standing hr h hb
        cases hi.symm.trans hj
        obtain ⟨hpl, hin⟩ := place_of_standing hi hx
        exact ⟨hpl.trans (CallPc.place_state.mpr ⟨hu.symm.trans huse, rfl⟩), rfl, hin.mpr rfl⟩
      · cases hc
    · cases hc

theorem leaves_of_critical {a : ClientAction} {m : Mutex} (hc : w.criticalSection a = some m) :
    a.leaves = false := by
  refine Bool.eq_false_iff.mpr fun hl => ?_
  unfold ClientAction.leaves at hl
  split at hl
  · cases hc
  · cases hc
  · cases hc
  · cases hc
  · split at hl
    · rename_i hpark
      unfold Client.criticalSection at hc
      split at hc
      · cases hpark
      · cases hpark
      · cases hpark
      · simp [hpark] at hc
    · cases hl

def Locked.unguarded (w : Client) : Locked := { client := w, guard := fun _ => none }

/-- Every step of the client can be taken by one who first gets the mutex of its critical
section. -/
theorem locked_covers {a : ClientAction} (hr : (Client.automaton setup).Reachable w)
    (h : w.step setup a = some w') :
    (Locked.automaton setup).Leads (.unguarded w) (.unguarded w') := by
  cases hc : w.criticalSection a with
  | none =>
    have hin : ({ client := w, guard := fun _ => none } : Locked).inside a.task = false := by
      unfold Locked.inside
      split <;> simp
    refine .single (a := .act a) trivial ?_
    show Locked.step setup (.unguarded w) (.act a) = _
    simp [Locked.step, hin, hc, h, Locked.unguarded]
  | some m =>
    obtain ⟨hplace, hm, hpoll⟩ := critical_place hr h hc
    let v : Locked := { client := w, guard := Function.update (fun _ => none) m (some a.task) }
    have hlock : (Locked.automaton setup).step (.unguarded w) (.lock a.task) = some v := by
      show Locked.step setup (.unguarded w) (.lock a.task) = _
      simp [Locked.step, Locked.unguarded, hplace, hm, hpoll, v]
    have hleave : a.leaves = false := leaves_of_critical hc
    have hact : (Locked.automaton setup).step v (.act a) = some (.unguarded w') := by
      show Locked.step setup v (.act a) = _
      simp [Locked.step, hleave, hc, h, v, Locked.unguarded]
    exact (Automaton.Path.single trivial hlock).tail trivial hact

theorem locked_reachable (h : (Client.automaton setup).Reachable w) :
    (Locked.automaton setup).Reachable (.unguarded w) := by
  refine h.invariant_of (I := fun w => (Locked.automaton setup).Reachable (.unguarded w))
    (fun w hw => ?_) fun w a w' hr hs hi => hi.path (locked_covers hr hs)
  obtain ⟨millis, rfl⟩ := hw
  exact .init ⟨millis, rfl⟩

end Maxrs
