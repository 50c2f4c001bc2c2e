import Maxrs.AttemptSpec
import Maxrs.GenerationInv
set_option autoImplicit false

namespace Maxrs

def Phase.rank : Phase → Nat
  | .attempting _ => 0
  | .offline _ => 1
  | .cancelling _ => 2
  | .aborting _ => 3
  | .joining _ => 4
  | .clearing _ => 5
  | .takingSink _ => 6
  | .over _ => 7

theorem Phase.rank_le (p : Phase) : p.rank ≤ 7 := by
  cases p <;> simp [Phase.rank]

namespace Session

/-- What an operation of the attempt does to the generation, and where its answer is from. -/
def OpEffect (fromStr : String → Except String Packet) (g : Generation) (waiting : Option CallId)
    (g' : Generation) : (op : AttemptOp) → op.Ret → Prop
  | .connect, .ok () => g.step fromStr .install = some g'
  | .spawnReader, _ => g.step fromStr .spawnReader = some g'
  | .spawnKeepalive, _ => g.step fromStr .spawnKeepalive = some g'
  | .setOwnUserId u, _ => g.step fromStr (.setOwnUserId u) = some g'
  | .invoke _ _, r => g' = g ∧ ∃ k, waiting = some k ∧ g.invokes k = some (.returned r)
  | _, _ => g' = g

inductive Change (fromStr : String → Except String Packet) (s s' : Session) : Prop where
  | flags (a a' : Attempt) : s.phase = .attempting a → a'.rest = a.rest →
      a'.waiting = a.waiting → s' = s.withAttempt a' → Change fromStr s s'
  | foreign (b : GenerationAction) (g : Generation) : b.isRunner = false →
      (∀ opcode payload, b = .invoke opcode payload → isPublished s.trace = true) →
      s.generation.step fromStr b = some g → s' = { s with generation := g } →
      Change fromStr s s'
  | issue (a : Attempt) (opcode : Nat) (payload : Value)
      (next : Except Error Packet → AttemptScript (Except Error Unit)) (g : Generation) :
      s.phase = .attempting a → a.rest = .call (.invoke opcode payload) next →
      a.waiting = none → s.generation.step fromStr (.invoke opcode payload) = some g →
      s' = ({ s with generation := g } : Session).withAttempt
        { a with waiting := some s.generation.transport.started } → Change fromStr s s'
  | answer (a : Attempt) (op : AttemptOp) (r : op.Ret)
      (next : op.Ret → AttemptScript (Except Error Unit)) (g : Generation) (at_ : Bool) :
      s.phase = .attempting a → a.rest = .call op next →
      OpEffect fromStr s.generation a.waiting g op r →
      s' = ({ s with generation := g, connectedAt := at_ } : Session).answer a op r next →
      Change fromStr s s'
  | recv (a a' : Attempt) (g : Generation) : s.phase = .attempting a → a'.rest = a.rest →
      a'.waiting = a.waiting → s.generation.step fromStr .recv = some g →
      s' = ({ s with generation := g } : Session).withAttempt a' → Change fromStr s s'
  | drop (a : Attempt) (waiting : Option CallId) (r : Except Error Unit) (g : Generation) :
      s.phase = .attempting a → s.generation.step fromStr (.dropAttempt waiting) = some g →
      s' = { s with generation := g, phase := .offline r } →
      r = .error .connectionClosed ∨ a.rest = .done r → Change fromStr s s'
  | offline (r : Except Error Unit) : s.phase = .offline r →
      s' = { s with phase := .cancelling r } → Change fromStr s s'
  | cancel (r : Except Error Unit) (g : Generation) : s.phase = .cancelling r →
      s.generation.step fromStr .cancel = some g →
      s' = { s with generation := g, phase := .aborting r } → Change fromStr s s'
  | abortAll (r : Except Error Unit) (g : Generation) : s.phase = .aborting r →
      s.generation.step fromStr .abortAll = some g →
      s' = { s with generation := g, phase := .joining r } → Change fromStr s s'
  | join (r : Except Error Unit) : s.phase = .joining r → s.generation.reader.joined = true →
      s.generation.keepalive.joined = true → s' = { s with phase := .clearing r } →
      Change fromStr s s'
  | clear (r : Except Error Unit) (g : Generation) : s.phase = .clearing r →
      s.generation.step fromStr .clear = some g →
      s' = { s with generation := g, phase := .takingSink r } → Change fromStr s s'
  | takeSink (r : Except Error Unit) (g : Generation) : s.phase = .takingSink r →
      s.generation.step fromStr .takeSink = some g →
      s' = { s with generation := g, phase := .over r } → Change fromStr s s'

variable {fromStr : String → Except String Packet} {deviceId : String} {s s' : Session}

theorem act_eq {b : GenerationAction} (h : s.act fromStr b = some s') :
    ∃ g, s.generation.step fromStr b = some g ∧ s' = { s with generation := g } := by
  obtain ⟨g, hg, rfl⟩ := Option.map_eq_some_iff.mp h
  exact ⟨g, hg, rfl⟩

def effect : (op : AttemptOp) → op.Ret → Option GenerationAction
  | .connect, .ok () => some .install
  | .spawnReader, _ => some .spawnReader
  | .spawnKeepalive, _ => some .spawnKeepalive
  | .setOwnUserId u, _ => some (.setOwnUserId u)
  | _, _ => none

theorem effect_cases {op : AttemptOp} {r : op.Ret} {b : GenerationAction}
    (h : effect op r = some b) :
    b = .install ∨ b = .spawnReader ∨ b = .spawnKeepalive ∨ ∃ u, b = .setOwnUserId u := by
  cases op with
  | connect =>
    cases r with
    | ok u =>
      cases h
      exact .inl rfl
    | error e => cases h
  | spawnReader =>
    cases h
    exact .inr (.inl rfl)
  | spawnKeepalive =>
    cases h
    exact .inr (.inr (.inl rfl))
  | setOwnUserId u =>
    cases h
    exact .inr (.inr (.inr ⟨u, rfl⟩))
  | _ => cases h

theorem opEffect_of_effect {op : AttemptOp} {r : op.Ret} {b : GenerationAction} {g g' : Generation}
    {waiting : Option CallId} (h : effect op r = some b) (hs : g.step fromStr b = some g') :
    OpEffect fromStr g waiting g' op r := by
  cases op with
  | connect =>
    cases r with
    | ok u =>
      cases h
      exact hs
    | error e => cases h
  | spawnReader | spawnKeepalive | setOwnUserId u =>
    cases h
    exact hs
  | _ => cases h

theorem opEffect_of_none {op : AttemptOp} {r : op.Ret} {g : Generation} {waiting : Option CallId}
    (h : effect op r = none) (hop : ∀ opcode payload, op ≠ .invoke opcode payload) :
    OpEffect fromStr g waiting g op r := by
  cases op with
  | connect =>
    cases r with
    | ok u => cases h
    | error e => rfl
  | spawnReader | spawnKeepalive | setOwnUserId u => cases h
  | invoke opcode payload => exact absurd rfl (hop opcode payload)
  | _ => rfl

inductive AttemptTurn (fromStr : String → Except String Packet) (s : Session) (a : Attempt) :
    AttemptAction → Session → Prop where
  | performs {act : AttemptAction} (op : AttemptOp) (r : op.Ret)
      (next : op.Ret → AttemptScript (Except Error Unit)) (b : GenerationAction) (g : Generation) :
      a.rest = .call op next → (∀ opcode payload, op ≠ .invoke opcode payload) →
      effect op r = some b → s.generation.step fromStr b = some g →
      AttemptTurn fromStr s a act (({ s with generation := g } : Session).answer a op r next)
  | answers {act : AttemptAction} (op : AttemptOp) (r : op.Ret)
      (next : op.Ret → AttemptScript (Except Error Unit)) (at_ : Bool) :
      a.rest = .call op next → (∀ opcode payload, op ≠ .invoke opcode payload) →
      effect op r = none →
      AttemptTurn fromStr s a act (({ s with connectedAt := at_ } : Session).answer a op r next)
  | issue (opcode : Nat) (payload : Value)
      (next : Except Error Packet → AttemptScript (Except Error Unit)) (g : Generation) :
      a.rest = .call (.invoke opcode payload) next → a.waiting = none →
      s.generation.step fromStr (.invoke opcode payload) = some g →
      AttemptTurn fromStr s a .issue (({ s with generation := g } : Session).withAttempt
        { a with waiting := some s.generation.transport.started })
  | onInvoke (k : CallId) (b : InvokeAction) (g : Generation) : a.waiting = some k → b ≠ .drop →
      s.generation.step fromStr (.onInvoke k b) = some g →
      AttemptTurn fromStr s a (.onInvoke b) { s with generation := g }
  | take (opcode : Nat) (payload : Value)
      (next : Except Error Packet → AttemptScript (Except Error Unit)) (k : CallId)
      (r : Except Error Packet) : a.rest = .call (.invoke opcode payload) next →
      a.waiting = some k → s.generation.invokes k = some (.returned r) →
      AttemptTurn fromStr s a .take (s.answer a (.invoke opcode payload) r next)
  | look : AttemptTurn fromStr s a (.dispatchCheck false) (s.withAttempt { a with checked := true })
  | recv (next : Unit → AttemptScript (Except Error Unit)) (g : Generation) :
      a.rest = .call .dispatch next → s.generation.step fromStr .recv = some g →
      AttemptTurn fromStr s a .dispatchRecv
        (({ s with generation := g } : Session).withAttempt { a with checked := false })

theorem AttemptTurn.of_act {a : Attempt} {act : AttemptAction} {op : AttemptOp} {r : op.Ret}
    {next : op.Ret → AttemptScript (Except Error Unit)} {b : GenerationAction}
    (hr : a.rest = .call op next) (hop : ∀ opcode payload, op ≠ .invoke opcode payload)
    (hb : effect op r = some b)
    (h : (s.act fromStr b).map (fun m => m.answer a op r next) = some s') :
    AttemptTurn fromStr s a act s' := by
  obtain ⟨m, hm, rfl⟩ := Option.map_eq_some_iff.mp h
  obtain ⟨g, hg, rfl⟩ := act_eq hm
  exact .performs op r next b g hr hop hb hg

theorem perform_turn {a : Attempt} (h : s.stepAttempt fromStr a .perform = some s') :
    AttemptTurn fromStr s a .perform s' := by
  simp only [stepAttempt] at h
  split at h
  · rename_i next hr
    exact .of_act hr nofun rfl h
  · rename_i next hr
    exact .of_act hr nofun rfl h
  · rename_i u next hr
    exact .of_act hr nofun rfl h
  · rename_i token next hr
    cases h
    exact .answers (.setSessionToken token) () next _ hr nofun rfl
  · rename_i next hr
    cases h
    exact .answers .stampConnectedAt () next true hr nofun rfl
  · cases h

theorem attempt_turn {a : Attempt} {act : AttemptAction}
    (h : s.stepAttempt fromStr a act = some s') : AttemptTurn fromStr s a act s' := by
  cases act with
  | connectOk =>
    simp only [stepAttempt] at h
    split at h
    · rename_i next hr
      exact .of_act hr nofun rfl h
    · cases h
  | connectFailed e =>
    simp only [stepAttempt] at h
    split at h
    · rename_i next hr
      split at h <;> cases h
      exact .answers .connect (.error e) next _ hr nofun rfl
    · cases h
  | perform => exact perform_turn h
  | issue =>
    simp only [stepAttempt] at h
    split at h
    · rename_i opcode payload next hr hw
      obtain ⟨m, hm, rfl⟩ := Option.map_eq_some_iff.mp h
      obtain ⟨g, hg, rfl⟩ := act_eq hm
      exact .issue opcode payload next g hr hw hg
    · cases h
  | onInvoke b =>
    simp only [stepAttempt] at h
    split at h
    · cases h
    · rename_i k hw hdrop
      obtain ⟨g, hg, rfl⟩ := act_eq h
      exact .onInvoke k _ g hw (fun he => hdrop he) hg
    · cases h
  | take =>
    simp only [stepAttempt] at h
    split at h
    · rename_i opcode payload next k hr hw
      split at h <;> cases h
      rename_i r hret
      exact .take opcode payload next k r hr hw hret
    · cases h
  | answer r =>
    simp only [stepAttempt] at h
    split at h
    · rename_i next hr
      cases h
      exact .answers _ r next _ hr nofun rfl
    · rename_i next hr
      split at h <;> cases h
      exact .answers _ r next _ hr nofun rfl
    · cases h
  | stored r =>
    simp only [stepAttempt] at h
    split at h
    · rename_i next hr
      cases h
      exact .answers _ r next _ hr nofun rfl
    · cases h
  | connected r =>
    simp only [stepAttempt] at h
    split at h
    · rename_i next hr
      cases h
      exact .answers .connected r next _ hr nofun rfl
    · cases h
  | dispatchCheck shutdown =>
    simp only [stepAttempt] at h
    split at h
    · rename_i next hr
      split at h <;> cases h
      · exact .answers .dispatch () next _ hr nofun rfl
      · rename_i hns
        cases Bool.eq_false_iff.mpr hns
        exact .look
    · cases h
  | dispatchRecv =>
    simp only [stepAttempt] at h
    split at h
    · rename_i next hr
      split at h
      · obtain ⟨m, hm, rfl⟩ := Option.map_eq_some_iff.mp h
        obtain ⟨g, hg, rfl⟩ := act_eq hm
        exact .recv next g hr hg
      · cases h
    · cases h
  | dispatchNone =>
    simp only [stepAttempt] at h
    split at h
    · rename_i next hr
      split at h <;> cases h
      exact .answers .dispatch () next _ hr nofun rfl
    · cases h

theorem change_stepAttempt {a : Attempt} {act : AttemptAction} (hp : s.phase = .attempting a)
    (h : s.stepAttempt fromStr a act = some s') : Change fromStr s s' := by
  cases attempt_turn h with
  | performs op r next b g hr _ hb hg =>
    exact .answer a op r next g _ hp hr (opEffect_of_effect hb hg) rfl
  | answers op r next at_ hr hop hb =>
    exact .answer a op r next _ at_ hp hr (opEffect_of_none hb hop) rfl
  | issue opcode payload next g hr hw hg => exact .issue a opcode payload next g hp hr hw hg rfl
  | onInvoke k b g _ _ hg => exact .foreign (.onInvoke k b) g rfl nofun hg rfl
  | take opcode payload next k r hr hw hret =>
    exact .answer a (.invoke opcode payload) r next _ _ hp hr ⟨rfl, k, hw, hret⟩ rfl
  | look => exact .flags a { a with checked := true } hp rfl rfl rfl
  | recv next g _ hg => exact .recv a { a with checked := false } g hp rfl rfl hg rfl

theorem change_stepClose {b : CloseAction} (h : s.stepClose fromStr b = some s') :
    Change fromStr s s' := by
  cases b with
  | offline =>
    simp only [stepClose] at h
    split at h <;> cases h
    exact .offline _ (by assumption) rfl
  | join =>
    simp only [stepClose] at h
    split at h
    · rename_i r hp
      split at h <;> cases h
      rename_i hj
      simp only [Bool.and_eq_true] at hj
      exact .join r hp hj.1 hj.2 rfl
    · cases h
  | cancel =>
    simp only [stepClose] at h
    split at h
    · rename_i r hp
      obtain ⟨m, hm, rfl⟩ := Option.map_eq_some_iff.mp h
      obtain ⟨g, hg, rfl⟩ := act_eq hm
      exact .cancel r g hp hg rfl
    · cases h
  | abortAll =>
    simp only [stepClose] at h
    split at h
    · rename_i r hp
      obtain ⟨m, hm, rfl⟩ := Option.map_eq_some_iff.mp h
      obtain ⟨g, hg, rfl⟩ := act_eq hm
      exact .abortAll r g hp hg rfl
    · cases h
  | clear =>
    simp only [stepClose] at h
    split at h
    · rename_i r hp
      obtain ⟨m, hm, rfl⟩ := Option.map_eq_some_iff.mp h
      obtain ⟨g, hg, rfl⟩ := act_eq hm
      exact .clear r g hp hg rfl
    · cases h
  | takeSink =>
    simp only [stepClose] at h
    split at h
    · rename_i r hp
      obtain ⟨m, hm, rfl⟩ := Option.map_eq_some_iff.mp h
      obtain ⟨g, hg, rfl⟩ := act_eq hm
      exact .takeSink r g hp hg rfl
    · cases h

theorem worker_not_runner (b : WorkerAction) : b.toGeneration.isRunner = false := by
  cases b <;> rfl

theorem sender_not_runner (b : SenderAction) : b.toGeneration.isRunner = false := by
  cases b <;> rfl

theorem change_step {a : SessionAction} (h : s.step fromStr a = some s') :
    Change fromStr s s' := by
  cases a with
  | poll =>
    simp only [step, poll] at h
    split at h
    · rename_i a hp
      split at h
      · cases h
      · split at h
        · obtain ⟨m, hm, rfl⟩ := Option.map_eq_some_iff.mp h
          obtain ⟨g, hg, rfl⟩ := act_eq hm
          exact .drop a a.waiting (.error .connectionClosed) g hp hg rfl (.inl rfl)
        · cases h
          exact .flags a { a with polling := true } hp rfl rfl rfl
    · cases h
  | park =>
    simp only [step, park] at h
    split at h
    · rename_i a hp
      split at h <;> cases h
      exact .flags a { a with polling := false, checked := false } hp rfl rfl rfl
    · cases h
  | attempt act =>
    simp only [step] at h
    split at h
    · rename_i a hp
      split at h
      · exact change_stepAttempt hp h
      · cases h
    · cases h
  | finish =>
    simp only [step, finish] at h
    split at h
    · rename_i r w c hp
      obtain ⟨m, hm, rfl⟩ := Option.map_eq_some_iff.mp h
      obtain ⟨g, hg, rfl⟩ := act_eq hm
      exact .drop _ none r g hp hg rfl (.inr rfl)
    · cases h
  | close b => exact change_stepClose h
  | worker b =>
    obtain ⟨g, hg, rfl⟩ := act_eq h
    refine .foreign _ g (worker_not_runner b) (fun o p hb => ?_) hg rfl
    cases b <;> cases hb
  | sender b =>
    simp only [step] at h
    split at h
    · rename_i hpub
      obtain ⟨g, hg, rfl⟩ := act_eq h
      exact .foreign _ g (sender_not_runner b) (fun _ _ _ => hpub) hg rfl
    · cases h
  | shutdown =>
    obtain ⟨g, hg, rfl⟩ := act_eq h
    exact .foreign .cancel g rfl nofun hg rfl

theorem trace_step {b : SessionAction} (h : s.step fromStr b = some s')
    (hb : ∀ a, b ≠ .attempt a) : s'.trace = s.trace := by
  have acted : ∀ {x : GenerationAction}, s.act fromStr x = some s' → s'.trace = s.trace := by
    intro x hx
    obtain ⟨g, -, rfl⟩ := act_eq hx
    rfl
  cases b with
  | attempt a => exact absurd rfl (hb a)
  | worker a | shutdown => exact acted h
  | sender a =>
    simp only [step] at h
    split at h
    · exact acted h
    · cases h
  | poll =>
    simp only [step, poll] at h
    split at h
    · split at h
      · cases h
      · split at h
        · obtain ⟨m, hm, rfl⟩ := Option.map_eq_some_iff.mp h
          obtain ⟨g, -, rfl⟩ := act_eq hm
          rfl
        · cases h
          rfl
    · cases h
  | park =>
    simp only [step, park] at h
    split at h
    · split at h <;> cases h
      rfl
    · cases h
  | finish =>
    simp only [step, finish] at h
    split at h
    · obtain ⟨m, hm, rfl⟩ := Option.map_eq_some_iff.mp h
      obtain ⟨g, -, rfl⟩ := act_eq hm
      rfl
    · cases h
  | close x =>
    cases change_stepClose h with
    | flags _ _ _ _ _ he | issue _ _ _ _ _ _ _ _ _ he | recv _ _ _ _ _ _ _ he
    | foreign _ _ _ _ _ he | drop _ _ _ _ _ _ he _ | offline _ _ he | cancel _ _ _ _ he
    | abortAll _ _ _ _ he | join _ _ _ _ he | clear _ _ _ _ he | takeSink _ _ _ _ he =>
      subst he
      rfl
    | answer a op r next g at_ hp hr heff he =>
      cases x <;> simp only [step, stepClose, hp, reduceCtorEq] at h

def TraceInv (deviceId : String) (s : Session) : Prop :=
  ∃ q, Script.After (runAttempt deviceId s.config) s.trace q ∧
    ∀ a, s.phase = .attempting a → a.rest = q

structure TasksInv (s : Session) : Prop where
  connect : Did s.trace .connect (.ok ()) → s.generation.transport.sink = true ∨ s.phase.rank = 7
  closed : s.phase.rank = 7 → s.generation.transport.sink = false
  reader : s.generation.reader = .absent ↔ ¬ Performed s.trace .spawnReader
  keepalive : s.generation.keepalive = .absent ↔ ¬ Performed s.trace .spawnKeepalive
  ownId : ∀ u, s.generation.ownUserId = some u ↔ Did s.trace (.setOwnUserId u) ()
  incoming : s.generation.incoming = true ↔
    s.phase.rank = 0 ∧ Performed s.trace .spawnReader
  cancelled : 3 ≤ s.phase.rank → s.generation.cancelled = true
  aborted : s.generation.aborted = true ↔ 4 ≤ s.phase.rank
  joined : 5 ≤ s.phase.rank →
    s.generation.reader.joined = true ∧ s.generation.keepalive.joined = true

theorem TraceInv.faithful (h : TraceInv deviceId s) : Faithful deviceId s.config s.trace := by
  obtain ⟨q, hq, _⟩ := h
  exact (always_runAttempt deviceId s.config).justified hq

theorem TraceInv.pre {a : Attempt} {op : AttemptOp} {next : op.Ret → _}
    (h : TraceInv deviceId s) (hp : s.phase = .attempting a) (hr : a.rest = .call op next) :
    AttemptPre deviceId s.config s.trace op := by
  obtain ⟨q, hq, hqr⟩ := h
  rw [← hqr a hp, hr] at hq
  exact (always_runAttempt deviceId s.config).head hq

theorem TraceInv.post {a : Attempt} {r : Except Error Unit} (h : TraceInv deviceId s)
    (hp : s.phase = .attempting a) (hr : a.rest = .done r) : AttemptPost s.trace r := by
  obtain ⟨q, hq, hqr⟩ := h
  rw [← hqr a hp, hr] at hq
  exact (always_runAttempt deviceId s.config).result hq

theorem traceInv_change (h : Change fromStr s s') (hi : TraceInv deviceId s) :
    TraceInv deviceId s' := by
  obtain ⟨q, hq, hqr⟩ := hi
  have gone : ∀ {m : Session}, m.config = s.config → m.trace = s.trace →
      (∀ a, m.phase ≠ .attempting a) → TraceInv deviceId m :=
    fun hc ht hp => ⟨q, by rw [hc, ht]; exact hq, fun a ha => absurd ha (hp a)⟩
  cases h with
  | flags a a' hp hr hw hs =>
    subst hs
    refine ⟨q, hq, fun b hb => ?_⟩
    cases hb
    exact hr.trans (hqr a hp)
  | foreign b g hb hpub hg hs =>
    subst hs
    exact ⟨q, hq, hqr⟩
  | issue a opcode payload next g hp hr hw hg hs =>
    subst hs
    refine ⟨q, hq, fun b hb => ?_⟩
    cases hb
    exact hqr a hp
  | answer a op r next g at_ hp hr he hs =>
    subst hs
    have hq' := hqr a hp
    rw [hr] at hq'
    subst hq'
    refine ⟨next r, .answer r hq, fun b hb => ?_⟩
    cases hb
    rfl
  | recv a a' g hp hr hw hg hs =>
    subst hs
    refine ⟨q, hq, fun b hb => ?_⟩
    cases hb
    exact hr.trans (hqr a hp)
  | drop a w r g hp hg hs => subst hs; exact gone rfl rfl nofun
  | offline r hp hs => subst hs; exact gone rfl rfl nofun
  | cancel r g hp hg hs => subst hs; exact gone rfl rfl nofun
  | abortAll r g hp hg hs => subst hs; exact gone rfl rfl nofun
  | join r hp hj hk hs => subst hs; exact gone rfl rfl nofun
  | clear r g hp hg hs => subst hs; exact gone rfl rfl nofun
  | takeSink r g hp hg hs => subst hs; exact gone rfl rfl nofun

theorem traceInv_new (config : LoginConfig) (b : Bool) :
    TraceInv deviceId (new deviceId config b) := by
  refine ⟨_, .start, fun a ha => ?_⟩
  cases ha
  rfl

theorem TasksInv.of_eq {g : Generation} {m : Session} (hi : TasksInv s)
    (ht : m.trace = s.trace) (hr : m.phase.rank = s.phase.rank) (hg : m.generation = g)
    (hk : s.generation.Kept g) (hc : s.generation.cancelled = true → g.cancelled = true)
    (hj : s.generation.reader.joined = true ∧ s.generation.keepalive.joined = true →
      g.reader.joined = true ∧ g.keepalive.joined = true) : TasksInv m := by
  subst hg
  constructor
  · rw [ht, hr, hk.sink]; exact hi.connect
  · rw [hr, hk.sink]; exact hi.closed
  · rw [ht, hk.reader]; exact hi.reader
  · rw [ht, hk.keepalive]; exact hi.keepalive
  · rw [ht, hk.ownUserId]; exact hi.ownId
  · rw [ht, hr, hk.incoming]; exact hi.incoming
  · rw [hr]; exact fun h => hc (hi.cancelled h)
  · rw [hr, hk.aborted]; exact hi.aborted
  · rw [hr]; exact fun h => hj (hi.joined h)

theorem TasksInv.attempting {m : Session} {a : Attempt} (hp : m.phase = .attempting a)
    (hc : Did m.trace .connect (.ok ()) → m.generation.transport.sink = true)
    (hr : m.generation.reader = .absent ↔ ¬ Performed m.trace .spawnReader)
    (hk : m.generation.keepalive = .absent ↔ ¬ Performed m.trace .spawnKeepalive)
    (ho : ∀ u, m.generation.ownUserId = some u ↔ Did m.trace (.setOwnUserId u) ())
    (hin : m.generation.incoming = true ↔ Performed m.trace .spawnReader)
    (hab : m.generation.aborted = false) : TasksInv m := by
  have hrank : m.phase.rank = 0 := by rw [hp, Phase.rank]
  constructor
  · exact fun h => .inl (hc h)
  · intro h
    omega
  · exact hr
  · exact hk
  · exact ho
  · simpa only [hrank, true_and] using hin
  · intro h
    omega
  · simp [hrank, hab]
  · intro h
    omega

theorem TasksInv.sink {a : Attempt} (hi : TasksInv s) (hp : s.phase = .attempting a)
    (h : Did s.trace .connect (.ok ())) : s.generation.transport.sink = true := by
  refine (hi.connect h).resolve_right fun h7 => ?_
  rw [hp] at h7
  cases h7

theorem TasksInv.incoming_iff {a : Attempt} (hi : TasksInv s) (hp : s.phase = .attempting a) :
    s.generation.incoming = true ↔ Performed s.trace .spawnReader := by
  have hin := hi.incoming
  rw [hp] at hin
  exact hin.trans (and_iff_right rfl)

theorem TasksInv.not_aborted {a : Attempt} (hi : TasksInv s) (hp : s.phase = .attempting a) :
    s.generation.aborted = false := by
  have hab := hi.aborted
  rw [hp] at hab
  simpa [Phase.rank] using hab

theorem tasksInv_quiet {a : Attempt} {op : AttemptOp} {r : op.Ret}
    {next : op.Ret → AttemptScript (Except Error Unit)} {at_ : Bool}
    (hp : s.phase = .attempting a) (hsr : .spawnReader ≠ op) (hsk : .spawnKeepalive ≠ op)
    (hso : ∀ u, .setOwnUserId u ≠ op)
    (hco : Did (s.trace ++ [⟨op, r⟩]) .connect (.ok ()) → Did s.trace .connect (.ok ()))
    (hi : TasksInv s) :
    TasksInv (({ s with connectedAt := at_ } : Session).answer a op r next) := by
  refine .attempting rfl (fun hc => hi.sink hp (hco hc)) ?_ ?_ (fun u => ?_) ?_
    (hi.not_aborted hp)
  · exact hi.reader.trans (not_congr (performed_snoc_of_ne hsr).symm)
  · exact hi.keepalive.trans (not_congr (performed_snoc_of_ne hsk).symm)
  · exact (hi.ownId u).trans (did_snoc_of_ne (hso u)).symm
  · exact (hi.incoming_iff hp).trans (performed_snoc_of_ne hsr).symm

theorem tasksInv_answer {a : Attempt} {op : AttemptOp} {r : op.Ret}
    {next : op.Ret → AttemptScript (Except Error Unit)} {g : Generation} {at_ : Bool}
    (hp : s.phase = .attempting a) (hpre : AttemptPre deviceId s.config s.trace op)
    (he : OpEffect fromStr s.generation a.waiting g op r) (hi : TasksInv s) :
    TasksInv (({ s with generation := g, connectedAt := at_ } : Session).answer a op r next) := by
  cases op with
  | connect =>
    cases r with
    | error e =>
      cases he
      exact tasksInv_quiet hp (by simp) (by simp) (by simp) (fun h => by simpa using h) hi
    | ok r =>
      obtain ⟨t, rfl, -, -, -, hs, -, -⟩ := Generation.runner_onTransport he (.inl rfl)
      refine .attempting rfl (fun _ => hs rfl) ?_ ?_ (fun u => ?_) ?_ (hi.not_aborted hp)
      · exact hi.reader.trans (not_congr (performed_snoc_of_ne (by simp)).symm)
      · exact hi.keepalive.trans (not_congr (performed_snoc_of_ne (by simp)).symm)
      · exact (hi.ownId u).trans (did_snoc_of_ne (by simp)).symm
      · exact (hi.incoming_iff hp).trans (performed_snoc_of_ne (by simp)).symm
  | spawnReader =>
    simp only [OpEffect, Generation.step] at he
    split at he <;> cases he
    refine .attempting rfl (fun hc => hi.sink hp ((did_snoc_of_ne (by simp)).mp hc)) ?_ ?_
      (fun u => ?_) ?_ (hi.not_aborted hp)
    · exact iff_of_false (fun h => by cases h) (not_not_intro (performed_snoc.mpr (.inr rfl)))
    · exact hi.keepalive.trans (not_congr (performed_snoc_of_ne (by simp)).symm)
    · exact (hi.ownId u).trans (did_snoc_of_ne (by simp)).symm
    · exact iff_of_true rfl (performed_snoc.mpr (.inr rfl))
  | spawnKeepalive =>
    simp only [OpEffect, Generation.step] at he
    split at he <;> cases he
    refine .attempting rfl (fun hc => hi.sink hp ((did_snoc_of_ne (by simp)).mp hc)) ?_ ?_
      (fun u => ?_) ?_ (hi.not_aborted hp)
    · exact hi.reader.trans (not_congr (performed_snoc_of_ne (by simp)).symm)
    · exact iff_of_false (fun h => by cases h) (not_not_intro (performed_snoc.mpr (.inr rfl)))
    · exact (hi.ownId u).trans (did_snoc_of_ne (by simp)).symm
    · exact (hi.incoming_iff hp).trans (performed_snoc_of_ne (by simp)).symm
  | setOwnUserId v =>
    cases he
    refine .attempting rfl (fun hc => hi.sink hp ((did_snoc_of_ne (by simp)).mp hc)) ?_ ?_
      (fun u => ?_) ?_ (hi.not_aborted hp)
    · exact hi.reader.trans (not_congr (performed_snoc_of_ne (by simp)).symm)
    · exact hi.keepalive.trans (not_congr (performed_snoc_of_ne (by simp)).symm)
    · constructor
      · intro h
        cases h
        exact did_snoc.mpr (.inr rfl)
      · intro h
        rcases did_snoc.mp h with h | h
        · exact absurd h (hpre.1 u)
        · cases h
          rfl
    · exact (hi.incoming_iff hp).trans (performed_snoc_of_ne (by simp)).symm
  | invoke opcode payload =>
    obtain ⟨rfl, _⟩ := he
    exact tasksInv_quiet hp (by simp) (by simp) (by simp)
      (fun h => (did_snoc_of_ne (by simp)).mp h) hi
  | _ =>
    cases he
    exact tasksInv_quiet hp (by simp) (by simp) (by simp)
      (fun h => (did_snoc_of_ne (by simp)).mp h) hi

structure Closing (s s' : Session) : Prop where
  trace : s'.trace = s.trace
  torn : 1 ≤ s.phase.rank
  rank : s'.phase.rank = s.phase.rank + 1
  reader : s'.generation.reader = s.generation.reader
  keepalive : s'.generation.keepalive = s.generation.keepalive
  ownUserId : s'.generation.ownUserId = s.generation.ownUserId
  incoming : s'.generation.incoming = s.generation.incoming
  sink : s'.generation.transport.sink = (s.generation.transport.sink && s'.phase.rank != 7)
  cancelled : s'.generation.cancelled = (s.generation.cancelled || s'.phase.rank == 3)
  aborted : s'.generation.aborted = (s.generation.aborted || s'.phase.rank == 4)
  joined : s'.phase.rank = 5 →
    s.generation.reader.joined = true ∧ s.generation.keepalive.joined = true

theorem TasksInv.advance (hi : TasksInv s) (h : Closing s s') : TasksInv s' := by
  have htorn := h.torn
  have hrank := h.rank
  constructor
  · intro hc
    rw [h.trace] at hc
    rw [h.sink]
    by_cases h7 : s'.phase.rank = 7
    · exact .inr h7
    · left
      have hne : s.phase.rank ≠ 7 := by
        intro he
        have hle : s'.phase.rank ≤ 7 := by cases s'.phase <;> simp [Phase.rank]
        omega
      simp [(hi.connect hc).resolve_right hne, h7]
  · intro h7
    simp [h.sink, h7]
  · rw [h.trace, h.reader]
    exact hi.reader
  · rw [h.trace, h.keepalive]
    exact hi.keepalive
  · rw [h.trace, h.ownUserId]
    exact hi.ownId
  · rw [h.trace, h.incoming, hi.incoming]
    constructor <;> rintro ⟨h0, _⟩ <;> omega
  · intro h3
    rw [h.cancelled]
    by_cases he : s'.phase.rank = 3
    · simp [he]
    · simp [hi.cancelled (by omega)]
  · rw [h.aborted, Bool.or_eq_true, hi.aborted, beq_iff_eq]
    omega
  · intro h5
    rw [h.reader, h.keepalive]
    by_cases he : s'.phase.rank = 5
    · exact h.joined he
    · exact hi.joined (by omega)

theorem tasksInv_change (h : Change fromStr s s') (ht : TraceInv deviceId s) (hi : TasksInv s) :
    TasksInv s' := by
  cases h with
  | flags a a' hp hr hw hs =>
    subst hs
    exact hi.of_eq rfl (by rw [hp]; rfl) rfl (.refl _) id id
  | foreign b g hb hpub hg hs =>
    subst hs
    exact hi.of_eq rfl rfl rfl (Generation.kept_step hb hg) (Generation.cancelled_step hg)
      (Generation.joined_step hb hg)
  | issue a opcode payload next g hp hr hw hg hs =>
    subst hs
    exact hi.of_eq rfl (by rw [hp]; rfl) rfl (Generation.kept_step rfl hg)
      (Generation.cancelled_step hg) (Generation.joined_step rfl hg)
  | answer a op r next g at_ hp hr he hs =>
    subst hs
    exact tasksInv_answer hp (ht.pre hp hr) he hi
  | recv a a' g hp hr hw hg hs =>
    subst hs
    simp only [Generation.step] at hg
    split at hg
    · split at hg <;> cases hg
      obtain ⟨h₁, h₂, h₃, h₄, h₅, h₆, h₇, h₈, h₉⟩ := hi
      rw [hp] at h₁ h₂ h₆ h₇ h₈ h₉
      exact ⟨h₁, h₂, h₃, h₄, h₅, h₆, h₇, h₈, h₉⟩
    · cases hg
  | drop a w r g hp hg hs =>
    subst hs
    obtain ⟨m, hm, rfl, hc⟩ := Generation.dropAttempt_frame hg
    have hab := hi.aborted
    have hconn := hi.connect
    rw [hp] at hab hconn
    refine ⟨fun hd => .inl ?_, by simp [Phase.rank], ?_, ?_, ?_, ?_, by simp [Phase.rank], ?_,
      by simp [Phase.rank]⟩
    · exact hm.sink.trans ((hconn hd).resolve_right (fun h => by cases h))
    · show m.reader = .absent ↔ _
      rw [hm.reader]
      exact hi.reader
    · show m.keepalive = .absent ↔ _
      rw [hm.keepalive]
      exact hi.keepalive
    · show ∀ u, m.ownUserId = some u ↔ _
      rw [hm.ownUserId]
      exact hi.ownId
    · exact iff_of_false (fun h => by cases h) fun h => by cases h.1
    · show m.aborted = true ↔ _
      rw [hm.aborted]
      simpa [Phase.rank] using hab
  | offline r hp hs =>
    subst hs
    exact hi.advance ⟨rfl, by simp [hp, Phase.rank], by simp [hp, Phase.rank], rfl, rfl, rfl, rfl,
      by simp [Phase.rank], by simp [Phase.rank], by simp [Phase.rank], (fun h => by cases h)⟩
  | cancel r g hp hg hs =>
    subst hs
    cases hg
    exact hi.advance ⟨rfl, by simp [hp, Phase.rank], by simp [hp, Phase.rank], rfl, rfl, rfl, rfl,
      by simp [Phase.rank, Generation.cancel], by simp [Phase.rank, Generation.cancel],
      by simp [Phase.rank, Generation.cancel], (fun h => by cases h)⟩
  | abortAll r g hp hg hs =>
    subst hs
    cases hg
    exact hi.advance ⟨rfl, by simp [hp, Phase.rank], by simp [hp, Phase.rank], rfl, rfl, rfl, rfl,
      by simp [Phase.rank], by simp [Phase.rank], by simp [Phase.rank], (fun h => by cases h)⟩
  | join r hp hj hk hs =>
    subst hs
    exact hi.advance ⟨rfl, by simp [hp, Phase.rank], by simp [hp, Phase.rank], rfl, rfl, rfl, rfl,
      by simp [Phase.rank], by simp [Phase.rank], by simp [Phase.rank], fun _ => ⟨hj, hk⟩⟩
  | clear r g hp hg hs =>
    subst hs
    obtain ⟨t, rfl, -, -, -, -, -, hsink⟩ := Generation.runner_onTransport hg (.inr (.inl rfl))
    exact hi.advance ⟨rfl, by simp [hp, Phase.rank], by simp [hp, Phase.rank], rfl, rfl, rfl, rfl,
      by simp [Phase.rank, hsink rfl], by simp [Phase.rank], by simp [Phase.rank],
      (fun h => by cases h)⟩
  | takeSink r g hp hg hs =>
    subst hs
    obtain ⟨t, rfl, -, -, -, -, hsink, -⟩ := Generation.runner_onTransport hg (.inr (.inr rfl))
    exact hi.advance ⟨rfl, by simp [hp, Phase.rank], by simp [hp, Phase.rank], rfl, rfl, rfl, rfl,
      by simp [Phase.rank, hsink rfl], by simp [Phase.rank], by simp [Phase.rank],
      (fun h => by cases h)⟩

theorem tasksInv_new (config : LoginConfig) (b : Bool) :
    TasksInv (new deviceId config b) := by
  refine ⟨fun h => absurd h did_nil, nofun, ?_, ?_, ?_, ?_, nofun, ?_, nofun⟩ <;>
    simp [new, Generation.new, Performed, Did, Phase.rank]

end Session

end Maxrs
