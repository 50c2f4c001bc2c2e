import Maxrs.Kit.Ownership
import Maxrs.ReaderRun
import Maxrs.Tasks
set_option autoImplicit false

/-! What a step does to the invokes and to where the tasks stand. -/
namespace Maxrs

def CallAction.usesState : CallAction → Bool
  | .allocate | .register | .unregister | .forget => true
  | _ => false

def CallPc.usesState : CallPc → Bool
  | .allocate | .register _ | .unregister _ _ | .forget _ _ => true
  | _ => false

theorem CallPc.place_state {pc : CallPc} {c d : ConnId} :
    pc.place c = .lock (.state d) ↔ pc.usesState = true ∧ c = d := by
  cases pc <;> simp [CallPc.place, CallPc.usesState]

theorem Transport.stepCall_usesState {t t' : Transport} {k : CallId} {c : Call} {a : CallAction}
    (h : t.stepCall k c a = some t') (ha : a.isDrop = false) :
    a.usesState = c.pc.usesState := by
  obtain ⟨c', ht⟩ := exists_callTurn h
  cases ht with
  | drop _ => cases ha
  | sendFailed s reason hp | sendTimedOut s hp => rcases hp with hp | hp <;> rw [hp] <;> rfl
  | lockOrder hp _ | allocate hp | register s hp _ | duplicate s hp _ | lockSink s hp _ _
  | noSink s hp _ _ | feed s hp | flushed s hp | unregister s e hp | answered s n p hp _
  | closed s hp _ _ | timedOut s hp _ _ | forget s e hp =>
    rw [hp]
    rfl

inductive InvokeTurn : InvokeAction → InvokePc × CallPc → InvokePc × CallPc → Prop where
  | cancelled (pc : CallPc) : InvokeTurn .poll (.parked, pc)
      (.returned (.error .connectionClosed), .dropped)
  | poll (pc : CallPc) : InvokeTurn .poll (.parked, pc) (.polling, pc)
  | park (pc : CallPc) : InvokeTurn .park (.polling, pc) (.parked, pc)
  | inner (a : CallAction) (pc pc' : CallPc) : a.usesState = pc.usesState →
      InvokeTurn (.inner a) (.polling, pc) (.polling, pc')
  | finish (r : Except Error Packet) :
      InvokeTurn .finish (.polling, .returned r) (.returned r, .returned r)
  | drop (pc : CallPc) : InvokeTurn .drop (.parked, pc) (.dropped, .dropped)

def InvokePc.Live (i : InvokePc) : Prop := i = .parked ∨ i = .polling

theorem InvokeTurn.dropped {a : InvokeAction} {x y : InvokePc × CallPc} (h : InvokeTurn a x y) :
    y.1 = .dropped ↔ a = .drop := by
  cases h <;> simp

def InvokeMoves (poll : Option InvokeAction) (x y : InvokePc × CallPc) : Prop :=
  ∃ b, InvokeTurn b x y ∧ (poll = some b ∨ b = .drop)

def KeepaliveAction.invokePoll : KeepaliveAction → Option InvokeAction
  | .ping b => some b
  | _ => none

def AttemptAction.invokePoll : AttemptAction → Option InvokeAction
  | .onInvoke b => some b
  | _ => none

def SessionAction.invokePoll : SessionAction → Option InvokeAction
  | .attempt a => a.invokePoll
  | _ => none

namespace GenerationAction

def polls (g : Generation) : GenerationAction → Option (CallId × InvokeAction)
  | .onInvoke k a => some (k, a)
  | .keepalive (.ping a) => g.pinging.map fun k => (k, a)
  | .keepalive .abort => g.pinging.map fun k => (k, .drop)
  | .dropAttempt waiting => waiting.map fun k => (k, .drop)
  | _ => none

def starts : GenerationAction → Bool
  | .invoke _ _ | .keepalive .tick => true
  | _ => false

theorem starts_of_polls {g : Generation} {a : GenerationAction} {x : CallId × InvokeAction}
    (h : a.polls g = some x) : a.starts = false := by
  cases a with
  | keepalive b => cases b <;> first | rfl | cases h
  | invoke opcode payload => cases h
  | _ => rfl

end GenerationAction

namespace Generation

variable {fromStr : String → Except String Packet} {g g' : Generation}

inductive Standing (g g' : Generation) (a : GenerationAction) : Prop where
  | quiet : a.starts = false → a.polls g = none → (∀ j, g'.standing j = g.standing j) →
      Standing g g' a
  | start : a.starts = true → g.standing g.transport.started = none →
      g'.standing g.transport.started = some (.parked, .order) →
      (∀ j, j ≠ g.transport.started → g'.standing j = g.standing j) → Standing g g' a
  | polls (k : CallId) (b : InvokeAction) (x y : InvokePc × CallPc) : a.starts = false →
      a.polls g = some (k, b) → g.standing k = some x → g'.standing k = some y →
      InvokeTurn b x y → (∀ j, j ≠ k → g'.standing j = g.standing j) → Standing g g' a

theorem standing_of_invoke {k : CallId} {i : InvokePc} (hg : GenerationInv g)
    (hi : g.invokes k = some i) :
    ∃ c, g.transport.calls k = some c ∧ g.standing k = some (i, c.pc) := by
  have hsome := hg.started k
  rw [hi] at hsome
  obtain ⟨c, hc⟩ := Option.isSome_iff_exists.mp hsome.symm
  exact ⟨c, hc, by simp [standing, hi, hc]⟩

theorem standing_eq {k : CallId} {x : InvokePc × CallPc} (h : g.standing k = some x) :
    g.invokes k = some x.1 ∧ ∃ c, g.transport.calls k = some c ∧ c.pc = x.2 := by
  obtain ⟨i, hi, h⟩ := Option.bind_eq_some_iff.mp h
  obtain ⟨c, hc, rfl⟩ := Option.map_eq_some_iff.mp h
  exact ⟨hi, c, hc, rfl⟩

theorem Quiet.standing (h : Quiet g g') (j : CallId) : g'.standing j = g.standing j := by
  have hpc := h.calls j
  simp only [Generation.standing, h.invokes]
  cases g.invokes j with
  | none => rfl
  | some i =>
    have hmap : ∀ o : Option Call, (o.map fun c => (i, c.pc)) = (o.map Call.pc).map (Prod.mk i) :=
      fun o => (Option.map_map ..).symm
    simp only [Option.bind_some, hmap, hpc]

theorem stepInvoke_standing {k : CallId} {a : InvokeAction} (h : g.stepInvoke k a = some g')
    (hg : GenerationInv g) : ∃ x y, g.standing k = some x ∧ g'.standing k = some y ∧
      InvokeTurn a x y ∧ ∀ j, j ≠ k → g'.standing j = g.standing j := by
  have hother : ∀ j, j ≠ k → g'.standing j = g.standing j := by
    intro j hj
    obtain ⟨hc, hi⟩ := (stepInvoke_frame h).2.2.1 j hj
    simp only [Generation.standing, hc, hi]
  have dropped : ∀ {c : Call} {i : InvokePc}, g.invokes k = some .parked →
      g.transport.calls k = some c →
      Generation.standing { g.setInvoke k i with transport := g.transport.dropCall k } k =
        some (i, .dropped) := by
    intro c i hp hc
    have hf := (hg.invokes k _ c hp hc).parked rfl
    rcases dropCall_eq hc with ⟨-, -, c', hc', hpc⟩ | ⟨hf', -⟩
    · simp [Generation.standing, setInvoke, hc', hpc]
    · rw [hf] at hf'
      cases hf'
  rcases stepInvoke_cases h with ⟨rfl, hp, -, rfl⟩ | ⟨rfl, hp, -, rfl⟩ | ⟨rfl, hp, -, rfl⟩ |
    ⟨b, t, rfl, hb, hp, ht, rfl⟩ | ⟨r, rfl, hp, hr, rfl⟩ | ⟨rfl, hp, rfl⟩
  · obtain ⟨c, hc, hs⟩ := standing_of_invoke hg hp
    exact ⟨_, _, hs, dropped hp hc, .cancelled c.pc, hother⟩
  · obtain ⟨c, hc, hs⟩ := standing_of_invoke hg hp
    exact ⟨_, _, hs, by simp [Generation.standing, setInvoke, hc], .poll c.pc, hother⟩
  · obtain ⟨c, hc, hs⟩ := standing_of_invoke hg hp
    exact ⟨_, _, hs, by simp [Generation.standing, setInvoke, hc], .park c.pc, hother⟩
  · obtain ⟨c, hc, hs⟩ := standing_of_invoke hg hp
    obtain ⟨d, hd, hstep⟩ := Option.bind_eq_some_iff.mp ht
    cases hc.symm.trans hd
    obtain ⟨c', hcs⟩ := Transport.stepCall_callStep hstep
    refine ⟨_, (.polling, c'.pc), hs, ?_, .inner b c.pc c'.pc
      (Transport.stepCall_usesState hstep hb), hother⟩
    simp [Generation.standing, hp, hcs.calls]
  · obtain ⟨c, hc, hs⟩ := standing_of_invoke hg hp
    obtain ⟨d, hd, hpc⟩ := result_eq hr
    cases hc.symm.trans hd
    rw [hpc] at hs
    exact ⟨_, _, hs, by simp [Generation.standing, setInvoke, hc, hpc], .finish r, hother⟩
  · obtain ⟨c, hc, hs⟩ := standing_of_invoke hg hp
    exact ⟨_, _, hs, dropped hp hc, .drop c.pc, hother⟩

theorem standing_none (hg : GenerationInv g) : g.standing g.transport.started = none := by
  cases hc : g.transport.calls g.transport.started with
  | none => cases hi : g.invokes g.transport.started <;> simp [Generation.standing, hc, hi]
  | some c =>
    have hlt := (Transport.transportInv_of_reachable hg.transport).started _ c hc
    exact absurd hlt (Nat.lt_irrefl _)

theorem invoke_standing {opcode : Nat} {payload : Value}
    (h : g.invoke opcode payload = some g') :
    g'.standing g.transport.started = some (.parked, .order) ∧
      ∀ j, j ≠ g.transport.started → g'.standing j = g.standing j := by
  obtain ⟨hc, hi, -, -⟩ := invoke_calls h
  refine ⟨by simp [Generation.standing, hc, hi], fun j hj => ?_⟩
  simp [Generation.standing, hc, hi, Function.update_of_ne hj]

theorem standing_step {a : GenerationAction} (h : g.step fromStr a = some g')
    (hg : GenerationInv g) : Standing g g' a := by
  have hnone := standing_none hg
  have quiet : a.starts = false → a.polls g = none → Quiet g g' → Standing g g' a :=
    fun hs hp hq => .quiet hs hp hq.standing
  have polls : ∀ {k b m}, a.starts = false → a.polls g = some (k, b) →
      g.stepInvoke k b = some m → g'.transport = m.transport → g'.invokes = m.invokes →
      Standing g g' a := by
    intro k b m hs hp hm ht hv
    obtain ⟨x, y, hx, hy, hturn, hother⟩ := stepInvoke_standing hm hg
    have hsame : ∀ j, g'.standing j = m.standing j := fun j => by
      simp only [Generation.standing, ht, hv]
    exact .polls k b x y hs hp hx ((hsame k).trans hy) hturn
      fun j hj => (hsame j).trans (hother j hj)
  cases a with
  | invoke opcode payload =>
    obtain ⟨hs, hother⟩ := invoke_standing h
    exact .start rfl hnone hs hother
  | onInvoke k b => exact polls rfl rfl h rfl rfl
  | reader a => exact quiet rfl rfl (quiet_stepReader h)
  | keepalive b =>
    cases b with
    | start =>
      simp only [step, stepKeepalive] at h
      split at h <;> cases h
      exact quiet rfl rfl (.of_transport_eq rfl rfl id)
    | tick =>
      simp only [step, stepKeepalive] at h
      split at h
      · obtain ⟨m, hm, rfl⟩ := Option.map_eq_some_iff.mp h
        obtain ⟨hs, hother⟩ := invoke_standing hm
        exact .start rfl hnone hs hother
      · cases h
    | ping b =>
      simp only [step, stepKeepalive] at h
      split at h
      · cases h
      · rename_i k b hk _
        exact polls rfl (by simp [GenerationAction.polls, pinging, hk]) h rfl rfl
      · cases h
    | pinged =>
      simp only [step, stepKeepalive] at h
      split at h
      · split at h <;> cases h <;>
          exact quiet rfl rfl (.of_transport_eq rfl rfl (by simp [endKeepalive]))
      · cases h
    | abort =>
      simp only [step, stepKeepalive] at h
      split at h
      · split at h
        · rename_i hk
          cases h
          exact quiet rfl (by simp [GenerationAction.polls, pinging, hk])
            (.of_transport_eq rfl rfl id)
        · rename_i hk
          cases h
          exact quiet rfl (by simp [GenerationAction.polls, pinging, hk])
            (.of_transport_eq rfl rfl (by simp [endKeepalive]))
        · rename_i k hk
          obtain ⟨m, hm, rfl⟩ := Option.map_eq_some_iff.mp h
          exact polls rfl (by simp [GenerationAction.polls, pinging, hk]) hm rfl rfl
        · cases h
      · cases h
  | install | clear | takeSink => exact quiet rfl rfl (quiet_onTransport rfl h)
  | spawnReader | spawnKeepalive =>
    simp only [step] at h
    split at h <;> cases h
    exact quiet rfl rfl (.of_transport_eq rfl rfl id)
  | setOwnUserId id | register fileId | dropWaiter w | abortAll =>
    cases h
    exact quiet rfl rfl (.of_transport_eq rfl rfl fun h => h)
  | cancel =>
    cases h
    exact quiet rfl rfl (.of_transport_eq rfl rfl (by simp [cancel]))
  | recv =>
    simp only [step] at h
    split at h
    · split at h <;> cases h
      exact quiet rfl rfl (.of_transport_eq rfl rfl id)
    · cases h
  | dropAttempt waiting =>
    cases waiting with
    | none =>
      cases h
      exact quiet rfl rfl (.of_transport_eq rfl rfl id)
    | some k =>
      obtain ⟨m, hm, rfl⟩ := Option.map_eq_some_iff.mp h
      exact polls rfl rfl hm rfl rfl

abbrev OwnTurn (poll : Option InvokeAction) (before after : Option CallId) (g g' : Generation) :
    Prop :=
  Ownership.Turn before after g.standing g'.standing (fun x => x.1 ≠ .dropped)
    (fun x => x.1.Live) (InvokeMoves poll)

variable {a : GenerationAction} {k : CallId} {b : InvokeAction} {poll : Option InvokeAction}

theorem Standing.turn_quiet (h : Standing g g' a) (hs : a.starts = false)
    (hp : a.polls g = none) (o : Option CallId) : OwnTurn poll o o g g' := by
  cases h with
  | quiet _ _ hq => exact .quiet rfl hq
  | start hs' => cases hs.symm.trans hs'
  | polls _ _ _ _ _ hp' => cases hp.symm.trans hp'

theorem Standing.turn_start (h : Standing g g' a) (hs : a.starts = true) :
    OwnTurn poll none (some g.transport.started) g g' := by
  cases h with
  | quiet hs' => cases hs.symm.trans hs'
  | start _ hn hy ho => exact .start _ _ rfl rfl hn hy (by simp) ho
  | polls _ _ _ _ hs' => cases hs.symm.trans hs'

theorem Standing.turn_polls (h : Standing g g' a) (hp : a.polls g = some (k, b))
    (hb : b ≠ .drop) : OwnTurn (some b) (some k) (some k) g g' := by
  cases h with
  | quiet _ hp' => cases hp.symm.trans hp'
  | start hs => cases hs.symm.trans (GenerationAction.starts_of_polls hp)
  | polls j b' x y _ hp' hx hy hturn ho =>
    cases hp.symm.trans hp'
    exact .work k x y rfl rfl hx hy ⟨b, hturn, .inl rfl⟩ (fun hd => hb (hturn.dropped.mp hd)) ho

theorem Standing.turn_drop (h : Standing g g' a) (hp : a.polls g = some (k, .drop)) :
    OwnTurn poll (some k) none g g' := by
  cases h with
  | quiet _ hp' => cases hp.symm.trans hp'
  | start hs => cases hs.symm.trans (GenerationAction.starts_of_polls hp)
  | polls j b' x y _ hp' hx hy hturn ho =>
    cases hp.symm.trans hp'
    refine .leave k x y rfl rfl hx hy (.inr ⟨.drop, hturn, .inr rfl⟩) (fun hl => ?_) ho
    rcases hl with hl | hl <;> cases hl.symm.trans (hturn.dropped.mpr rfl)

theorem turn_take (g' : Generation) {r : Except Error Packet} (hg : GenerationInv g)
    (h : g.invokes k = some (.returned r)) (hs : ∀ j, g'.standing j = g.standing j) :
    OwnTurn poll (some k) none g g' := by
  obtain ⟨c, -, hx⟩ := standing_of_invoke hg h
  refine .leave k _ _ rfl rfl hx ((hs k).trans hx) (.inl rfl) (fun hl => ?_) fun j _ => hs j
  rcases hl with hl | hl <;> cases hl

theorem keepalive_turn {b : KeepaliveAction} (h : g.stepKeepalive b = some g')
    (hg : GenerationInv g) : OwnTurn b.invokePoll g.pinging g'.pinging g g' := by
  have hst : Standing g g' (.keepalive b) := @standing_step (fun _ => .error "") g g' _ h hg
  cases b with
  | start =>
    simp only [stepKeepalive] at h
    split at h <;> cases h
    rename_i hk
    simpa [pinging, hk] using hst.turn_quiet rfl rfl none
  | tick =>
    simp only [stepKeepalive] at h
    split at h
    · rename_i hk
      obtain ⟨m, hm, rfl⟩ := Option.map_eq_some_iff.mp h
      simpa [pinging, hk] using hst.turn_start rfl
    · cases h
  | ping act =>
    cases hk : g.keepalive with
    | pinging k =>
      have hdrop : act ≠ .drop := by
        rintro rfl
        simp [stepKeepalive, hk] at h
      have hstep : g.stepInvoke k act = some g' := by
        cases act <;> first | exact absurd rfl hdrop | simpa [stepKeepalive, hk] using h
      have hk' : g'.keepalive = .pinging k := (invokeFrame_stepInvoke hstep).keepalive.trans hk
      have hp : GenerationAction.polls g (.keepalive (.ping act)) = some (k, act) := by
        simp [GenerationAction.polls, pinging, hk]
      simpa [pinging, hk, hk', KeepaliveAction.invokePoll] using hst.turn_polls hp hdrop
    | _ => simp [stepKeepalive, hk] at h
  | pinged =>
    simp only [stepKeepalive] at h
    split at h
    · rename_i k hk
      split at h
      · rename_i hr
        cases h
        simpa [pinging, hk] using
          turn_take { g with keepalive := .sleeping } hg hr fun j => rfl
      · rename_i hr
        cases h
        simpa [pinging, hk, endKeepalive] using turn_take g.endKeepalive hg hr fun j => rfl
      · cases h
    · cases h
  | abort =>
    simp only [stepKeepalive] at h
    split at h
    · split at h
      · rename_i hk
        cases h
        have hp : GenerationAction.polls g (.keepalive .abort) = none := by
          simp [GenerationAction.polls, pinging, hk]
        simpa [pinging, hk] using hst.turn_quiet rfl hp none
      · rename_i hk
        cases h
        have hp : GenerationAction.polls g (.keepalive .abort) = none := by
          simp [GenerationAction.polls, pinging, hk]
        simpa [pinging, hk, endKeepalive] using hst.turn_quiet rfl hp none
      · rename_i k hk
        obtain ⟨m, hm, rfl⟩ := Option.map_eq_some_iff.mp h
        have hp : GenerationAction.polls g (.keepalive .abort) = some (k, .drop) := by
          simp [GenerationAction.polls, pinging, hk]
        simpa [pinging, hk, endKeepalive] using hst.turn_drop hp
      · cases h
    · cases h

theorem keepalive_aside (h : g.step fromStr a = some g') (ha : ∀ b, a ≠ .keepalive b) :
    g'.keepalive = g.keepalive ∨ (g.keepalive = .absent ∧ g'.keepalive = .spawned) := by
  cases a with
  | invoke opcode payload => exact .inl (invokeFrame_invoke h).keepalive
  | onInvoke k b => exact .inl (invokeFrame_stepInvoke h).keepalive
  | reader b => exact .inl (readerFrame_stepReader h).2.2.keepalive
  | keepalive b => exact absurd rfl (ha b)
  | install | clear | takeSink =>
    obtain ⟨t, -, rfl⟩ := onTransport_eq h
    exact .inl rfl
  | spawnReader =>
    simp only [step] at h
    split at h <;> cases h
    exact .inl rfl
  | spawnKeepalive =>
    simp only [step] at h
    split at h <;> cases h
    exact .inr ⟨by assumption, rfl⟩
  | setOwnUserId id | register fileId | dropWaiter w | cancel | abortAll =>
    cases h
    exact .inl rfl
  | recv =>
    simp only [step] at h
    split at h
    · split at h <;> cases h
      exact .inl rfl
    · cases h
  | dropAttempt waiting =>
    obtain ⟨m, hm, rfl, -⟩ := dropAttempt_frame h
    exact .inl hm.keepalive

theorem reader_aside (h : g.step fromStr a = some g') (ha : ∀ b, a ≠ .reader b) :
    (g'.reader = g.reader ∨ g.reader = .absent) ∧ g'.transport.ack = g.transport.ack := by
  rcases aside_step h with ⟨b, rfl⟩ | ⟨-, hr, rfl⟩ | ⟨-, -, hs⟩
  · exact absurd rfl (ha b)
  · exact ⟨.inr hr, rfl⟩
  · exact ⟨.inl hs.reader, hs.ack⟩

end Generation

def SessionAction.ofRunner : SessionAction → Bool
  | .poll | .park | .attempt _ | .finish | .close _ => true
  | .worker _ | .sender _ | .shutdown => false

namespace Session

open Generation (OwnTurn)

variable {fromStr : String → Except String Packet} {deviceId : String} {s s' : Session}

theorem CallsInv.invoke_of_waiting {a : Attempt} {k : CallId} (hi : CallsInv deviceId s)
    (hp : s.phase = .attempting a) (hw : a.waiting = some k) :
    ∃ opcode payload next, a.rest = .call (.invoke opcode payload) next := by
  obtain ⟨opcode, payload, next, -, hr, -⟩ := hi.waiting a k hp hw
  exact ⟨opcode, payload, next, hr⟩

theorem CallsInv.waiting_none {a : Attempt} {op : AttemptOp}
    {next : op.Ret → AttemptScript (Except Error Unit)} (hi : CallsInv deviceId s)
    (hp : s.phase = .attempting a) (hr : a.rest = .call op next)
    (hop : ∀ opcode payload, op ≠ .invoke opcode payload) : a.waiting = none := by
  cases hw : a.waiting with
  | none => rfl
  | some k =>
    obtain ⟨opcode, payload, next', hr'⟩ := hi.invoke_of_waiting hp hw
    cases hr.symm.trans hr'
    exact absurd rfl (hop opcode payload)

theorem waiting_attempting {a : Attempt} (hp : s.phase = .attempting a) :
    s.waiting = a.waiting := by
  simp [waiting, hp]

theorem turn_none {b : GenerationAction} {g : Generation}
    (hg : GenerationInv s.generation) (h : s.generation.step fromStr b = some g)
    (hs : b.starts = false) (hp : b.polls s.generation = none) (poll : Option InvokeAction) :
    OwnTurn poll none none s.generation g :=
  (Generation.standing_step h hg).turn_quiet hs hp none

theorem turn_stepAttempt {a : Attempt} {act : AttemptAction} (hi : Inv deviceId s)
    (hp : s.phase = .attempting a) (h : s.stepAttempt fromStr a act = some s') :
    OwnTurn act.invokePoll s.waiting s'.waiting s.generation s'.generation := by
  have hg := hi.generation
  rw [waiting_attempting hp]
  cases attempt_turn h with
  | performs op r next b g hr hop hb hstep =>
    rw [hi.calls.waiting_none hp hr hop]
    obtain rfl | rfl | rfl | ⟨u, rfl⟩ := effect_cases hb <;> exact turn_none hg hstep rfl rfl _
  | answers op r next at_ hr hop =>
    rw [hi.calls.waiting_none hp hr hop]
    exact .quiet rfl fun _ => rfl
  | issue opcode payload next g hr hw hstep =>
    rw [hw]
    exact (Generation.standing_step hstep hg).turn_start rfl
  | onInvoke k b g hw hdrop hstep =>
    rw [waiting_attempting (s := { s with generation := g }) hp, hw]
    exact (Generation.standing_step hstep hg).turn_polls rfl fun he => hdrop he
  | take opcode payload next k r hr hw hret =>
    rw [hw]
    exact Generation.turn_take s.generation hg hret fun _ => rfl
  | look => exact .quiet rfl fun _ => rfl
  | recv next g hr hstep =>
    show OwnTurn _ a.waiting a.waiting s.generation g
    rw [hi.calls.waiting_none hp hr nofun]
    exact turn_none hg hstep rfl rfl _

theorem turn_runner {b : SessionAction} (hi : Inv deviceId s) (hb : b.ofRunner = true)
    (h : s.step fromStr b = some s') :
    OwnTurn b.invokePoll s.waiting s'.waiting s.generation s'.generation := by
  have hg := hi.generation
  have same : ∀ p o, OwnTurn p o o s.generation s.generation := fun _ _ => .quiet rfl fun _ => rfl
  cases b with
  | poll =>
    simp only [step, poll] at h
    split at h
    · rename_i a hp
      rw [waiting_attempting hp]
      split at h
      · cases h
      · split at h
        · obtain ⟨m, hm, rfl⟩ := Option.map_eq_some_iff.mp h
          obtain ⟨g, hstep, rfl⟩ := act_eq hm
          have hst := Generation.standing_step hstep hg
          show OwnTurn _ a.waiting none s.generation g
          cases hw : a.waiting with
          | none =>
            rw [hw] at hst
            exact hst.turn_quiet rfl rfl none
          | some k =>
            rw [hw] at hst
            exact hst.turn_drop rfl
        · cases h
          exact same _ a.waiting
    · cases h
  | park =>
    simp only [step, park] at h
    split at h
    · rename_i a hp
      rw [waiting_attempting hp]
      split at h <;> cases h
      exact same _ a.waiting
    · cases h
  | attempt act =>
    simp only [step] at h
    split at h
    · rename_i a hp
      split at h
      · exact turn_stepAttempt hi hp h
      · cases h
    · cases h
  | finish =>
    simp only [step, finish] at h
    split at h
    · rename_i r waiting checked hp
      obtain ⟨m, hm, rfl⟩ := Option.map_eq_some_iff.mp h
      obtain ⟨g, hstep, rfl⟩ := act_eq hm
      have hw : waiting = none := by
        cases hw : waiting with
        | none => rfl
        | some k =>
          obtain ⟨opcode, payload, next, hr⟩ := hi.calls.invoke_of_waiting hp hw
          cases hr
      rw [waiting_attempting hp, hw]
      exact turn_none hg hstep rfl rfl _
    · cases h
  | close act =>
    cases act with
    | offline =>
      simp only [step, stepClose] at h
      split at h <;> cases h
      rename_i r hp
      rw [show s.waiting = none by simp [waiting, hp]]
      exact same _ none
    | join =>
      simp only [step, stepClose] at h
      split at h
      · rename_i r hp
        split at h <;> cases h
        rw [show s.waiting = none by simp [waiting, hp]]
        exact same _ none
      · cases h
    | cancel | abortAll | clear | takeSink =>
      simp only [step, stepClose] at h
      split at h
      · rename_i r hp
        obtain ⟨m, hm, rfl⟩ := Option.map_eq_some_iff.mp h
        obtain ⟨g, hstep, rfl⟩ := act_eq hm
        rw [show s.waiting = none by simp [waiting, hp]]
        exact turn_none hg hstep rfl rfl _
      · cases h
  | worker a | sender a | shutdown => cases hb

end Session

end Maxrs
