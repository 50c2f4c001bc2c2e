import Maxrs.Kit.WaitFor
import Maxrs.Locked
import Maxrs.Locks
import Maxrs.Pipeline
set_option autoImplicit false

/-! Who waits for whom at the mutexes of a client and at the joins of its tasks. -/
namespace Maxrs

def Run.HoldsLock (run : Run) : Prop :=
  run.call = .locked ∨ (1 ≤ run.supervisor.rank ∧ run.supervisor.rank ≤ 6)

def DisconnectPc.HoldsLock (pc : DisconnectPc) : Prop := pc = .locked ∨ pc = .unlocking

structure RunLockInv (w : Client) : Prop where
  run : ∀ r, w.shared.runLock = some (.run r) → ∃ run, w.runs r = some run ∧ run.HoldsLock
  disconnect : ∀ d, w.shared.runLock = some (.disconnect d) →
    ∃ pc, w.disconnects d = some pc ∧ pc.HoldsLock

variable {setup : Setup} {sh sh' : Shared} {w w' : Client} {v : Locked}

structure HolderKept (sh sh' : Shared) (owner : LockHolder) (holds : Prop) : Prop where
  mine : sh'.runLock = some owner → holds
  others : ∀ x, x ≠ owner → sh'.runLock = some x → sh.runLock = some x

theorem HolderKept.acquired {owner : LockHolder} {holds : Prop}
    (hs : sh'.runLock = some owner) (hh : holds) : HolderKept sh sh' owner holds :=
  ⟨fun _ => hh, fun _ hx h => absurd (Option.some.inj (hs.symm.trans h)).symm hx⟩

theorem HolderKept.released {owner : LockHolder} {holds : Prop} (hs : sh'.runLock = none) :
    HolderKept sh sh' owner holds := by
  constructor
  · intro h
    cases hs.symm.trans h
  · intro x _ h
    cases hs.symm.trans h

theorem HolderKept.same {owner : LockHolder} {holds : Prop} (hs : sh'.runLock = sh.runLock)
    (hh : sh.runLock = some owner → holds) : HolderKept sh sh' owner holds :=
  ⟨fun h => hh (hs ▸ h), fun _ _ h => hs ▸ h⟩

theorem RunStep.holder {r : RunId} {run run' : Run} (h : RunStep setup sh r run sh' run')
    (hold : sh.runLock = some (.run r) → run.HoldsLock) :
    HolderKept sh sh' (.run r) run'.HoldsLock := by
  have stays : run.call ≠ .locked → run'.supervisor = run.supervisor →
      sh'.runLock = sh.runLock → HolderKept sh sh' (.run r) run'.HoldsLock := by
    intro hc hs hl
    refine .same hl fun hr => ?_
    rcases hold hr with h | h
    · exact absurd h hc
    · exact .inr (hs ▸ h)
  cases h with
  | lock _ _ hs =>
    subst hs
    exact .acquired rfl (.inl rfl)
  | closed _ _ hs | unlock _ _ hs =>
    subst hs
    exact .released rfl
  | reject hp _ hs | join _ hp _ hs | dropTrying hp hs | dropJoining hp hs | guardCancel _ hp hs
  | guardPublish _ hp hs =>
    subst hs
    exact stays (by simp [hp]) rfl rfl
  | loop _ _ _ hs => exact .same hs.runLock fun _ => .inr (by simp [SupervisorPc.rank])
  | spawn _ _ hs | start _ hs | loopEnd _ _ _ _ hs | supervisorCancel _ _ hs
  | supervisorPublish _ _ hs | cancelHandlers _ _ hs =>
    subst hs
    exact .same rfl fun _ => .inr (by simp [SupervisorPc.rank])

theorem DisconnectStep.holder {d : DisconnectId} {pc pc' : DisconnectPc}
    (h : DisconnectStep sh d pc sh' pc')
    (hold : sh.runLock = some (.disconnect d) → pc.HoldsLock) :
    HolderKept sh sh' (.disconnect d) pc'.HoldsLock := by
  have away : ¬ pc.HoldsLock → sh'.runLock = sh.runLock →
      HolderKept sh sh' (.disconnect d) pc'.HoldsLock :=
    fun hn hl => .same hl fun hr => absurd (hold hr) hn
  cases h with
  | stopCancel hp hs | stopPublish hp hs =>
    subst hp hs
    exact away (by simp [DisconnectPc.HoldsLock]) rfl
  | drop hp hs =>
    subst hs
    refine away ?_ rfl
    rcases hp with rfl | rfl <;> simp [DisconnectPc.HoldsLock]
  | lock _ _ hs =>
    subst hs
    exact .acquired rfl (.inl rfl)
  | cancelHandlers _ hs =>
    subst hs
    exact .same rfl fun _ => .inr rfl
  | unlock _ hs =>
    subst hs
    exact .released rfl

theorem runLockInv_step (h : ClientStep setup w w') (hi : RunLockInv w) :
    RunLockInv w' := by
  have frame : w'.shared.runLock = w.shared.runLock → w'.runs = w.runs →
      w'.disconnects = w.disconnects → RunLockInv w' := by
    intro hk hr hd
    exact ⟨fun r h => hr ▸ hi.run r (hk ▸ h), fun d h => hd ▸ hi.disconnect d (hk ▸ h)⟩
  cases h with
  | startRun r hn =>
    refine ⟨fun q h => ?_, hi.disconnect⟩
    obtain ⟨run, hq, hr⟩ := hi.run q h
    refine ⟨run, (Function.update_of_ne ?_ _ _).trans hq, hr⟩
    rintro rfl
    cases hn.symm.trans hq
  | startDisconnect d hn =>
    refine ⟨hi.run, fun e h => ?_⟩
    obtain ⟨pc, he, hr⟩ := hi.disconnect e h
    refine ⟨pc, (Function.update_of_ne ?_ _ _).trans he, hr⟩
    rintro rfl
    cases hn.symm.trans he
  | run r run run' sh hr hst =>
    have hold : w.shared.runLock = some (.run r) → run.HoldsLock := by
      intro h
      obtain ⟨run₁, hr₁, hh⟩ := hi.run r h
      cases hr.symm.trans hr₁
      exact hh
    obtain ⟨hmine, hothers⟩ := hst.holder hold
    refine ⟨fun q h => ?_, fun d h => hi.disconnect d (hothers _ (by simp) h)⟩
    by_cases hq : q = r
    · subst hq
      exact ⟨run', Function.update_self .., hmine h⟩
    · obtain ⟨run₁, hq₁, hh⟩ := hi.run q (hothers _ (by simpa using hq) h)
      exact ⟨run₁, (Function.update_of_ne hq _ _).trans hq₁, hh⟩
  | disconnect d pc pc' sh hd hst =>
    have hold : w.shared.runLock = some (.disconnect d) → pc.HoldsLock := by
      intro h
      obtain ⟨pc₁, hd₁, hh⟩ := hi.disconnect d h
      cases hd.symm.trans hd₁
      exact hh
    obtain ⟨hmine, hothers⟩ := hst.holder hold
    refine ⟨fun q h => hi.run q (hothers _ (by simp) h), fun e h => ?_⟩
    by_cases he : e = d
    · subst he
      exact ⟨pc', Function.update_self .., hmine h⟩
    · obtain ⟨pc₁, he₁, hh⟩ := hi.disconnect e (hothers _ (by simpa using he) h)
      exact ⟨pc₁, (Function.update_of_ne he _ _).trans he₁, hh⟩
  | send i snd snd' sh hs hst => exact frame hst.control.runLock rfl rfl
  | startSend i job hn | worker c a s hc hs => exact frame rfl rfl rfl

theorem runLockInv_of_reachable (h : (Client.automaton setup).Reachable w) : RunLockInv w := by
  refine h.invariant_of (fun w hw => ?_) fun w a w' _ hs hi =>
    runLockInv_step (client_step hs) hi
  obtain ⟨millis, rfl⟩ := hw
  constructor
  · intro r h
    cases h
  · intro d h
    cases h

namespace Locked

/-- Where a task stands; inside the section of a short mutex it runs. -/
def place (v : Locked) (p : Task) : Place :=
  if v.inside p then .running else v.client.place p

def held (v : Locked) : Mutex → Bool
  | .sendOrder c => (v.client.generation c).transport.sendOrder.isSome
  | .sink c => (v.client.generation c).transport.sinkLock.isSome
  | .state c => (v.guard (.state c)).isSome
  | .cid => (v.guard .cid).isSome
  | .runLock => v.client.shared.runLock.isSome

/-- Whose future the guard is in; that of a supervised run is in the task of the supervisor. -/
inductive Holds (v : Locked) : Mutex → Task → Prop where
  | order (c : ConnId) (k : CallId) (q : Task) :
      (v.client.generation c).transport.sendOrder = some k →
      v.client.invoking q = some (c, k) → Holds v (.sendOrder c) q
  | sink (c : ConnId) (k : CallId) (q : Task) :
      (v.client.generation c).transport.sinkLock = some (.call k) →
      v.client.invoking q = some (c, k) → Holds v (.sink c) q
  | ack (c : ConnId) : (v.client.generation c).transport.sinkLock = some .ack →
      Holds v (.sink c) (.reader c)
  | guard (m : Mutex) (q : Task) : v.guard m = some q → Holds v m q
  | run (r : RunId) (run : Run) : v.client.shared.runLock = some (.run r) →
      v.client.runs r = some run → run.call = .locked → Holds v .runLock (.run r)
  | supervisor (r : RunId) (run : Run) : v.client.shared.runLock = some (.run r) →
      v.client.runs r = some run → run.call ≠ .locked → Holds v .runLock (.supervisor r)
  | disconnect (d : DisconnectId) : v.client.shared.runLock = some (.disconnect d) →
      Holds v .runLock (.disconnect d)

inductive WaitsFor (v : Locked) (p : Task) : Task → Prop where
  | lock (m : Mutex) (q : Task) : v.place p = .lock m → v.Holds m q → WaitsFor v p q
  | reader (c : ConnId) : v.place p = .join c →
      (v.client.generation c).reader.joined = false → WaitsFor v p (.reader c)
  | keepalive (c : ConnId) : v.place p = .join c →
      (v.client.generation c).keepalive.joined = false → WaitsFor v p (.keepalive c)
  | handle (r : RunId) (run : Run) : v.place p = .handle r → v.client.runs r = some run →
      (∀ x, run.supervisor ≠ .finished x) → WaitsFor v p (.supervisor r)

/-- A task that waits for no other: it runs, or it waits for the network, for a timer or for an
event outside, or what it waits for has come. -/
inductive Free (v : Locked) (p : Task) : Prop where
  | running : v.place p = .running → Free v p
  | outside : v.place p = .outside → Free v p
  | lock (m : Mutex) : v.place p = .lock m → v.held m = false → Free v p
  | join (c : ConnId) : v.place p = .join c → (v.client.generation c).reader.joined = true →
      (v.client.generation c).keepalive.joined = true → Free v p
  | handle (r : RunId) (run : Run) (x : Except Error Unit) : v.place p = .handle r →
      v.client.runs r = some run → run.supervisor = .finished x → Free v p

end Locked

/-- The order in which a task may wait for what others hold. -/
def Place.level : Place → Nat
  | .running | .outside | .over => 0
  | .lock (.state _) | .lock (.sink _) | .lock .cid => 1
  | .lock (.sendOrder _) => 2
  | .join _ => 3
  | .handle _ | .lock .runLock => 4

theorem CallPc.place_level (pc : CallPc) (c : ConnId) : (pc.place c).level ≤ 2 := by
  cases pc <;> simp [CallPc.place, Place.level]

theorem CallPc.place_ne_over (pc : CallPc) (c : ConnId) : pc.place c ≠ .over := by
  cases pc <;> simp [CallPc.place]

theorem CallPc.place_holdsOrder {pc : CallPc} (c : ConnId) (h : pc.holdsOrder = true) :
    (pc.place c).level ≤ 1 := by
  cases pc <;> first | (cases h; done) | simp [CallPc.place, Place.level]

theorem CallPc.place_holdsSink {pc : CallPc} (c : ConnId) (h : pc.holdsSink = true) :
    pc.place c = .outside := by
  cases pc <;> first | (cases h; done) | rfl

theorem Locked.place_level (v : Locked) (p : Task) :
    (v.place p).level ≤ (v.client.place p).level := by
  unfold Locked.place
  split
  · exact Nat.zero_le _
  · exact Nat.le_refl _

theorem Locked.place_ne_over {p : Task} (h : v.client.place p ≠ .over) : v.place p ≠ .over := by
  unfold Locked.place
  split
  · simp
  · exact h

theorem Locked.place_eq {p : Task} {x : Place} (h : v.place p = x) (hx : x ≠ .running) :
    v.client.place p = x := by
  unfold Locked.place at h
  split at h
  · exact absurd h.symm hx
  · exact h

theorem place_own {p : Task} (h : w.invoking p = none) : w.place p = w.ownPlace p := by
  simp [Client.place, h]

theorem place_invoking {p : Task} {i : ConnId × CallId} (h : w.invoking p = some i) :
    (w.place p).level ≤ 2 ∧ w.place p ≠ .over := by
  simp only [Client.place, h]
  split
  · exact ⟨CallPc.place_level _ _, CallPc.place_ne_over _ _⟩
  · simp [Place.level]

theorem place_reader (w : Client) (c : ConnId) : w.place (.reader c) =
    (w.generation c).readerPlace c := place_own rfl

theorem readerPlace_level (g : Generation) (c : ConnId) : (g.readerPlace c).level ≤ 1 := by
  unfold Generation.readerPlace
  repeat' split
  all_goals simp [Place.level]

theorem readerPlace_ne_over {g : Generation} (c : ConnId) (h : g.reader.joined = false) :
    g.readerPlace c ≠ .over := by
  unfold Generation.readerPlace
  split
  · rename_i hr
    simp [hr, ReaderPc.joined] at h
  · rename_i hr
    simp [hr, ReaderPc.joined] at h
  · simp
  · simp
  · split <;> simp
  · simp
  · simp
  · simp

theorem place_keepalive (w : Client) (c : ConnId) : (w.place (.keepalive c)).level ≤ 2 ∧
    ((w.generation c).keepalive.joined = false → w.place (.keepalive c) ≠ .over) := by
  cases hi : w.invoking (.keepalive c) with
  | some i => exact ⟨(place_invoking hi).1, fun _ => (place_invoking hi).2⟩
  | none =>
    rw [place_own hi, Client.ownPlace]
    cases hk : (w.generation c).keepalive <;>
      simp [KeepalivePc.place, KeepalivePc.joined, Place.level]

theorem Session.place_level (s : Session) (c : ConnId) :
    (s.place c).level ≤ 3 ∧ s.place c ≠ .over := by
  unfold Session.place
  split
  · unfold Attempt.place
    repeat' split
    all_goals simp [Place.level]
  all_goals simp [Place.level]

theorem place_supervisor (w : Client) (r : RunId) : (w.place (.supervisor r)).level ≤ 3 ∧
    ∀ run, w.runs r = some run → 1 ≤ run.supervisor.rank ∧ run.supervisor.rank ≤ 6 →
      w.place (.supervisor r) ≠ .over := by
  cases hi : w.invoking (.supervisor r) with
  | some i =>
    obtain ⟨hl, ho⟩ := place_invoking hi
    exact ⟨Nat.le_succ_of_le hl, fun _ _ _ => ho⟩
  | none =>
    rw [place_own hi, Client.ownPlace]
    cases hr : w.runs r with
    | none => simp [Place.level]
    | some run =>
      simp only [Option.some.injEq, forall_eq']
      split
      · rename_i hs
        simp [hs, SupervisorPc.rank, Place.level]
      · rename_i hs
        simp [hs, SupervisorPc.rank, Place.level]
      · split
        · exact ⟨(Session.place_level _ _).1, fun _ => (Session.place_level _ _).2⟩
        all_goals simp [Place.level]
      all_goals simp [Place.level]

theorem awaited {c : ConnId} {k : CallId} {d : Call} (hr : (Client.automaton setup).Reachable w)
    (hc : c < w.shared.created) (hk : (w.generation c).transport.calls k = some d)
    (hd : d.pc.finished = false) : ∃ p, w.invoking p = some (c, k) := by
  have hg := (generationInv_at hr hc).generation
  obtain ⟨i, hi⟩ : ∃ i, (w.generation c).invokes k = some i := by
    refine Option.isSome_iff_exists.mp ?_
    rw [Client.generation, hg.started k]
    exact Option.isSome_iff_exists.mpr ⟨d, hk⟩
  have hst : w.standing (c, k) = some (i, d.pc) := by
    have hs : (w.generation c).standing k = some (i, d.pc) := by simp [Generation.standing, hi, hk]
    exact hs
  have hinv := hg.invokes k i d hi hk
  refine (owned_of_reachable hr).owner (c, k) (i, d.pc) hst ?_
  cases i with
  | parked => exact .inl rfl
  | polling => exact .inr rfl
  | returned r =>
    rcases hinv.returned r rfl with h | ⟨h, -⟩ <;> simp [h, CallPc.finished] at hd
  | dropped => simp [hinv.dropped rfl, CallPc.finished] at hd

theorem created_of_guard {c : ConnId} (hr : (Client.automaton setup).Reachable w)
    (h : (w.generation c).transport.sendOrder ≠ none ∨
      (w.generation c).transport.sinkLock ≠ none) : c < w.shared.created := by
  refine Nat.lt_of_not_le fun hle => ?_
  have hnew := unborn_of_reachable hr c hle
  rcases h with h | h
  · exact h (by rw [Client.generation, hnew]; rfl)
  · exact h (by rw [Client.generation, hnew]; rfl)

theorem finished_of_holdsOrder {pc : CallPc} (h : pc.holdsOrder = true) : pc.finished = false := by
  cases pc <;> first | (cases h; done) | rfl

theorem finished_of_holdsSink {pc : CallPc} (h : pc.holdsSink = true) : pc.finished = false := by
  cases pc <;> first | (cases h; done) | rfl

theorem lockInv_at {c : ConnId} (hr : (Client.automaton setup).Reachable w)
    (hc : c < w.shared.created) : (w.generation c).transport.LockInv :=
  Transport.lockInv_of_reachable (generationInv_at hr hc).generation.transport

theorem order_call {c : ConnId} {k : CallId} (hr : (Client.automaton setup).Reachable w)
    (h : (w.generation c).transport.sendOrder = some k) :
    c < w.shared.created ∧ ∃ d, (w.generation c).transport.calls k = some d ∧
      d.pc.holdsOrder = true := by
  have hc := created_of_guard hr (.inl (by rw [h]; simp))
  refine ⟨hc, ?_⟩
  have hk := ((lockInv_at hr hc).order k).mpr h
  unfold Transport.holdsOrder at hk
  cases hd : (w.generation c).transport.calls k with
  | none => simp [hd] at hk
  | some d => exact ⟨d, rfl, by simpa [hd] using hk⟩

theorem sink_call {c : ConnId} {k : CallId} (hr : (Client.automaton setup).Reachable w)
    (h : (w.generation c).transport.sinkLock = some (.call k)) :
    c < w.shared.created ∧ ∃ d, (w.generation c).transport.calls k = some d ∧
      d.pc.holdsSink = true := by
  have hc := created_of_guard hr (.inr (by rw [h]; simp))
  refine ⟨hc, ?_⟩
  have hk := ((lockInv_at hr hc).sink (.call k)).mpr h
  simp only [Transport.holdsSink] at hk
  cases hd : (w.generation c).transport.calls k with
  | none => simp [hd] at hk
  | some d => exact ⟨d, rfl, by simpa [hd] using hk⟩

theorem ack_place {c : ConnId} (hr : (Client.automaton setup).Reachable w)
    (h : (w.generation c).transport.sinkLock = some .ack) :
    w.place (.reader c) = .outside := by
  have hc := created_of_guard hr (.inr (by rw [h]; simp))
  have hk : (w.generation c).transport.ack.holdsSink = true := ((lockInv_at hr hc).sink .ack).mpr h
  have hp : (w.generation c).PipelineInv := Generation.pipelineInv_of_reachable
    (Session.generation_reachable ((clientInv_of_reachable hr).shared.sessions c hc))
  obtain ⟨n, q, he⟩ : ∃ n q, (w.generation c).transport.ack.entry = some (n, q) := by
    cases ha : (w.generation c).transport.ack <;> first
      | (simp [ha, AckPc.holdsSink] at hk; done)
      | exact ⟨_, _, rfl⟩
  obtain ⟨m, hread, -⟩ := hp.ack n q he
  rw [place_reader, Generation.readerPlace, hread]
  cases ha : (w.generation c).transport.ack <;> first
    | (simp [ha, AckPc.holdsSink] at hk; done)
    | rfl

theorem place_awaiting {c : ConnId} {k : CallId} {d : Call} {p : Task}
    (hr : (Client.automaton setup).Reachable w) (hp : w.invoking p = some (c, k))
    (hk : (w.generation c).transport.calls k = some d) : w.place p = d.pc.place c := by
  obtain ⟨⟨i, pc⟩, hx, -⟩ := (owned_of_reachable hr).known p (c, k) hp
  rw [(place_of_standing hp hx).1]
  obtain ⟨-, d', hd', rfl⟩ := Generation.standing_eq hx
  cases hk.symm.trans hd'
  rfl

namespace Locked

/-- A holder waits for less than those who wait for it, and has not ended. -/
theorem holder_below {m : Mutex} {q : Task} (hr : (automaton setup).Reachable v)
    (h : v.Holds m q) :
    (v.place q).level < (Place.lock m).level ∧ v.place q ≠ .over := by
  have hc := client_reachable hr
  have below : ∀ {n}, (v.client.place q).level ≤ n → v.client.place q ≠ .over →
      n < (Place.lock m).level → (v.place q).level < (Place.lock m).level ∧ v.place q ≠ .over :=
    fun hl ho hn => ⟨Nat.lt_of_le_of_lt (Nat.le_trans (v.place_level q) hl) hn, place_ne_over ho⟩
  cases h with
  | order c k q ho hq =>
    obtain ⟨-, d, hd, hold⟩ := order_call hc ho
    have hp := place_awaiting hc hq hd
    exact below (hp ▸ CallPc.place_holdsOrder c hold) (hp ▸ CallPc.place_ne_over _ _)
      (Nat.lt_succ_self _)
  | sink c k q hs hq =>
    obtain ⟨-, d, hd, hold⟩ := sink_call hc hs
    have hp := (place_awaiting hc hq hd).trans (CallPc.place_holdsSink c hold)
    exact below (n := 0) (by simp [hp, Place.level]) (by simp [hp]) (Nat.lt_succ_self _)
  | ack c hs =>
    have hp := ack_place hc hs
    exact below (n := 0) (by simp [hp, Place.level]) (by simp [hp]) (Nat.lt_succ_self _)
  | guard m q hg =>
    have hin := (guardInv_of_reachable hr).inside hg
    have hp : v.place q = .running := by simp [place, hin]
    rw [hp]
    refine ⟨?_, by simp⟩
    cases m <;> simp [Place.level]
  | run r run hl hrun hcall =>
    have hp : v.client.place (.run r) = .running := by
      rw [place_own rfl]
      simp [Client.ownPlace, hrun, hcall, RunPc.place]
    exact below (n := 0) (by simp [hp, Place.level]) (by simp [hp]) (by simp [Place.level])
  | supervisor r run hl hrun hcall =>
    obtain ⟨run₁, hrun₁, hold⟩ := (runLockInv_of_reachable hc).run r hl
    cases hrun.symm.trans hrun₁
    obtain ⟨hlevel, hover⟩ := place_supervisor v.client r
    exact below hlevel (hover run hrun (hold.resolve_left hcall)) (Nat.lt_succ_self _)
  | disconnect d hl =>
    obtain ⟨pc, hd, hold⟩ := (runLockInv_of_reachable hc).disconnect d hl
    have hp : v.client.place (.disconnect d) = .running := by
      rw [place_own rfl]
      rcases hold with rfl | rfl <;> simp [Client.ownPlace, hd, DisconnectPc.place]
    exact below (n := 0) (by simp [hp, Place.level]) (by simp [hp]) (by simp [Place.level])

theorem handle_place {p : Task} {r : RunId} (h : v.place p = .handle r) :
    p = .run r ∧ ∃ run, v.client.runs r = some run ∧ run.call = .joining := by
  have hc := place_eq h (by simp)
  have high : ¬ (v.client.place p).level ≤ 3 := by simp [hc, Place.level]
  cases p with
  | run q =>
    rw [place_own rfl] at hc
    simp only [Client.ownPlace] at hc
    split at hc
    · rename_i run hrun
      cases hcall : run.call <;> rw [hcall] at hc <;> cases hc
      exact ⟨rfl, run, hrun, hcall⟩
    · cases hc
  | reader c =>
    rw [place_reader] at high
    exact absurd (Nat.le_trans (readerPlace_level _ c) (by decide)) high
  | keepalive c => exact absurd (Nat.le_trans (place_keepalive v.client c).1 (by decide)) high
  | supervisor q => exact absurd (place_supervisor v.client q).1 high
  | send i =>
    cases hi : v.client.invoking (.send i) with
    | some x => exact absurd (Nat.le_trans (place_invoking hi).1 (by decide)) high
    | none =>
      rw [place_own hi] at hc
      simp only [Client.ownPlace] at hc
      split at hc
      · unfold SendPc.place at hc
        split at hc <;> cases hc
      · cases hc
  | disconnect d =>
    rw [place_own rfl] at hc
    simp only [Client.ownPlace] at hc
    split at hc
    · rename_i pc _
      cases pc <;> cases hc
    · cases hc

theorem waits_below {p q : Task} (hr : (automaton setup).Reachable v) (h : v.WaitsFor p q) :
    (v.place q).level < (v.place p).level ∧ v.place q ≠ .over := by
  have hc := client_reachable hr
  cases h with
  | lock m q hp hq =>
    rw [hp]
    exact holder_below hr hq
  | reader c hp hj =>
    rw [hp]
    have hl := v.place_level (.reader c)
    rw [place_reader] at hl
    have hlow : (v.place (.reader c)).level ≤ 1 := Nat.le_trans hl (readerPlace_level _ c)
    refine ⟨Nat.lt_of_le_of_lt hlow (by simp [Place.level]), place_ne_over ?_⟩
    rw [place_reader]
    exact readerPlace_ne_over c hj
  | keepalive c hp hj =>
    rw [hp]
    obtain ⟨hl, ho⟩ := place_keepalive v.client c
    exact ⟨Nat.lt_of_le_of_lt (Nat.le_trans (v.place_level _) hl) (by simp [Place.level]),
      place_ne_over (ho hj)⟩
  | handle r run hp hrun hf =>
    rw [hp]
    obtain ⟨hl, ho⟩ := place_supervisor v.client r
    obtain ⟨-, run₁, hrun₁, hcall⟩ := handle_place hp
    cases hrun.symm.trans hrun₁
    have hpresent := ((lifecycleInv_of_reachable hc).runs r run hrun).late (.inl hcall)
    refine ⟨Nat.lt_of_le_of_lt (Nat.le_trans (v.place_level _) hl) (by simp [Place.level]),
      place_ne_over (ho run hrun ?_)⟩
    cases hs : run.supervisor with
    | absent => exact absurd hs hpresent
    | finished x => exact absurd hs (hf x)
    | _ => simp [SupervisorPc.rank]

/-- A guard that is alive is in the future of a task. -/
theorem holder_of_held {m : Mutex} (hr : (automaton setup).Reachable v) (h : v.held m = true) :
    ∃ q, v.Holds m q := by
  have hc := client_reachable hr
  cases m with
  | sendOrder c =>
    obtain ⟨k, hk⟩ := Option.isSome_iff_exists.mp h
    obtain ⟨hlt, d, hd, hold⟩ := order_call hc hk
    obtain ⟨q, hq⟩ := awaited hc hlt hd (finished_of_holdsOrder hold)
    exact ⟨q, .order c k q hk hq⟩
  | sink c =>
    obtain ⟨x, hx⟩ := Option.isSome_iff_exists.mp h
    cases x with
    | call k =>
      obtain ⟨hlt, d, hd, hold⟩ := sink_call hc hx
      obtain ⟨q, hq⟩ := awaited hc hlt hd (finished_of_holdsSink hold)
      exact ⟨q, .sink c k q hx hq⟩
    | ack => exact ⟨.reader c, .ack c hx⟩
  | state c | cid =>
    obtain ⟨q, hq⟩ := Option.isSome_iff_exists.mp h
    exact ⟨q, .guard _ q hq⟩
  | runLock =>
    obtain ⟨x, hx⟩ := Option.isSome_iff_exists.mp h
    cases x with
    | run r =>
      obtain ⟨run, hrun, -⟩ := (runLockInv_of_reachable hc).run r hx
      by_cases hcall : run.call = .locked
      · exact ⟨.run r, .run r run hx hrun hcall⟩
      · exact ⟨.supervisor r, .supervisor r run hx hrun hcall⟩
    | disconnect d => exact ⟨.disconnect d, .disconnect d hx⟩

theorem waits_or_free {p : Task} (hr : (automaton setup).Reachable v) (h : v.place p ≠ .over) :
    v.Free p ∨ ∃ q, v.WaitsFor p q := by
  cases hp : v.place p with
  | running => exact .inl (.running hp)
  | outside => exact .inl (.outside hp)
  | lock m =>
    cases hm : v.held m with
    | false => exact .inl (.lock m hp hm)
    | true =>
      obtain ⟨q, hq⟩ := holder_of_held hr hm
      exact .inr ⟨q, .lock m q hp hq⟩
  | join c =>
    cases hj : (v.client.generation c).reader.joined with
    | false => exact .inr ⟨_, .reader c hp hj⟩
    | true =>
      cases hk : (v.client.generation c).keepalive.joined with
      | false => exact .inr ⟨_, .keepalive c hp hk⟩
      | true => exact .inl (.join c hp hj hk)
  | handle r =>
    obtain ⟨-, run, hrun, -⟩ := handle_place hp
    by_cases hf : ∃ x, run.supervisor = .finished x
    · obtain ⟨x, hx⟩ := hf
      exact .inl (.handle r run x hp hrun hx)
    · exact .inr ⟨_, .handle r run hp hrun fun x hx => hf ⟨x, hx⟩⟩
  | _ => exact absurd hp h

/-- No deadlock: nobody waits for itself through others, every chain of waiting comes to an end,
and whoever stands there can go on or waits for something outside the client. -/
theorem no_deadlock (h : (automaton setup).Reachable v) :
    WaitFor.DeadlockFree v.WaitsFor v.Free ∧
      ∀ p, v.place p ≠ .over → v.Free p ∨ ∃ q, v.WaitsFor p q := by
  refine ⟨.of_rank (fun p => (v.place p).level) (fun p q hw => (waits_below h hw).1)
    fun p q hw hq => ?_, fun p hp => waits_or_free h hp⟩
  rcases waits_or_free h (waits_below h hw).2 with hf | ⟨x, hx⟩
  · exact hf
  · exact absurd hx (hq x)

def sampleStart (i : SendId) : List ClientAction :=
  [.startSend i sampleText, .send i (.readClock 0)]

def sampleBegin (i : SendId) : List ClientAction :=
  sampleStart i ++ [.send i .takeCid, .send i .borrow, .send i .check, .send i .issue,
    .send i (.onInvoke .poll)]

/-- A send writes its frame, a second one is at `send_order`, another two are at `cid`, and a
`disconnect` is at `run_lock`. -/
def sampleContention : List ClientAction :=
  sampleLogin ++ sampleBegin 0 ++
    [CallAction.lockOrder, .allocate, .register, .lockSink, .feed].map
      (fun a => .send 0 (.onInvoke (.inner a))) ++
    [.send 0 (.onInvoke .park)] ++ sampleBegin 1 ++ [.send 1 (.onInvoke .park)] ++
    sampleStart 2 ++ sampleStart 3 ++
    [.startDisconnect 0, .disconnect 0 .stopCancel, .disconnect 0 .stopPublish]

theorem no_deadlock_contended : ∃ v, (automaton sampleSetup).Reachable v ∧
    v.WaitsFor (.send 1) (.send 0) ∧ v.WaitsFor (.send 2) (.send 3) ∧
    v.WaitsFor (.disconnect 0) (.supervisor 0) ∧
    WaitFor.DeadlockFree v.WaitsFor v.Free := by
  have hrun : (Client.automaton sampleSetup).exec (.new sampleSetup 0) sampleContention =
      some (((Client.automaton sampleSetup).exec (.new sampleSetup 0) sampleContention).get rfl) :=
    rfl
  obtain ⟨w, hr, hp₁, hp₂, hp₃, hpd, hpoll, horder, h₀, hl, run, hrun, hcall⟩ :
      ∃ w, (Client.automaton sampleSetup).Reachable w ∧
        w.place (.send 1) = .lock (.sendOrder 0) ∧ w.place (.send 2) = .lock .cid ∧
        w.place (.send 3) = .lock .cid ∧ w.place (.disconnect 0) = .lock .runLock ∧
        w.inPoll (.send 3) = true ∧ (w.generation 0).transport.sendOrder = some 2 ∧
        w.invoking (.send 0) = some (0, 2) ∧ w.shared.runLock = some (.run 0) ∧
        ∃ run, w.runs 0 = some run ∧ run.call = .joining :=
    ⟨_, Automaton.Reachable.exec (.init ⟨0, rfl⟩) hrun, rfl, rfl, rfl, rfl, rfl, rfl, rfl, rfl, _,
      rfl, rfl⟩
  let v : Locked :=
    { client := w, guard := Function.update (fun _ => none) .cid (some (.send 3)) }
  have hlock : (automaton sampleSetup).step (unguarded w) (.lock (.send 3)) = some v := by
    show step sampleSetup (unguarded w) (.lock (.send 3)) = _
    simp [step, unguarded, hp₃, hpoll, Mutex.isShort, v]
  have hv : (automaton sampleSetup).Reachable v :=
    Automaton.Reachable.tail (locked_reachable hr) hlock
  refine ⟨v, hv, .lock (.sendOrder 0) _ ?_ (.order 0 2 _ horder h₀),
    .lock .cid _ ?_ (.guard _ _ ?_),
    .lock .runLock _ ?_ (.supervisor 0 run hl hrun (by simp [hcall])), (no_deadlock hv).1⟩
  · simp [place, inside, hp₁, v]
  · simp [place, inside, hp₂, v]
  · simp [v]
  · simp [place, inside, hpd, v]

end Locked

end Maxrs
