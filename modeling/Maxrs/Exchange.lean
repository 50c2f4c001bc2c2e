import Maxrs.LoginRuns
import Maxrs.Settling
set_option autoImplicit false

/-! What a server that answers can bring a fresh connection to: a request with its response, and
from these a login. -/
namespace Maxrs

def AttemptAction.isHelp : AttemptAction → Bool
  | .connectOk | .answer (.ok _) | .stored (.ok _) => true
  | .onInvoke (.inner .feed) | .onInvoke (.inner .flushed) => true
  | _ => false

def SessionAction.goesOn : SessionAction → Bool
  | .poll => true
  | .attempt (.connected _) | .attempt (.dispatchCheck _) => false
  | .attempt a => !a.isOutside || a.isHelp
  | .worker (.reader (.frame _)) => true
  | .worker a => !a.isOutside
  | _ => false

def InvokeAction.goesOn : InvokeAction → Bool
  | .drop => false
  | .inner .feed | .inner .flushed => true
  | a => !a.isOutside

def GenerationAction.exchanges (k : CallId) : GenerationAction → Bool
  | .onInvoke j a => j == k && a.goesOn
  | .reader (.frame _) | .reader .received => true
  | _ => false

namespace Transport

structure Quiet (t : Transport) : Prop where
  sendOrder : t.sendOrder = none
  sink : t.sink = true
  sinkLock : t.sinkLock = none
  receiving : t.receiving = none
  pending : t.pending = fun _ => none
  small : t.nextSeq < 2 ^ 32

structure Waiting (t : Transport) (k : CallId) (opcode seq : Nat) : Prop where
  call : ∃ c, t.calls k = some c ∧ c.opcode = opcode ∧ c.pc = .await seq ∧ c.inbox = none
  sendOrder : t.sendOrder = none
  sink : t.sink = true
  sinkLock : t.sinkLock = none
  receiving : t.receiving = none
  pending : t.pending = Function.update (fun _ => none) seq (some k)
  small : t.nextSeq < 2 ^ 32

/-- From the lock on `send_order` to the end of the flush. -/
def sending : List CallAction := [.lockOrder, .allocate, .register, .lockSink, .feed, .flushed]

variable {t : Transport} {k : CallId}

theorem retained_empty (h : t.pending = fun _ => none) : t.retained = fun _ => none := by
  funext seq
  simp [retained, h]

theorem Quiet.starts (hq : t.Quiet) (opcode : Nat) (payload : Value) :
    ∃ t', t.step (.start opcode payload) = some t' ∧ t'.Quiet ∧ t'.nextSeq = t.nextSeq ∧
      ∃ c, t'.calls t.started = some c ∧ c.opcode = opcode ∧ c.pc = .order ∧ c.inbox = none :=
  ⟨_, rfl, ⟨hq.sendOrder, hq.sink, hq.sinkLock, hq.receiving, hq.pending, hq.small⟩, rfl,
    _, Function.update_self .., rfl, rfl, rfl⟩

theorem Quiet.sends {c : Call} (hq : t.Quiet) (hk : t.calls k = some c) (hc : c.pc = .order)
    (hi : c.inbox = none) : ∃ t', automaton.exec t (sending.map (.call k)) = some t' ∧
      t'.Waiting k c.opcode t.nextSeq := by
  obtain ⟨opcode, payload, pc, turn, inbox⟩ := c
  cases hc
  cases hi
  refine ⟨?sent, ?run, ?waiting⟩
  case run =>
    simp only [sending, List.map_cons, List.map_nil, Automaton.exec, automaton, step, hk, stepCall,
      move, put, record, retained_empty, hq.sendOrder, hq.sink, hq.sinkLock, hq.pending,
      Option.bind_some, Function.update_self, if_true]
    rfl
  case waiting =>
    exact ⟨⟨_, Function.update_self .., rfl, rfl, rfl⟩, rfl, rfl, rfl, hq.receiving, rfl,
      Nat.mod_lt _ (by decide)⟩

theorem Waiting.answered {opcode seq : Nat} {p : Packet} (hw : t.Waiting k opcode seq)
    (hp : p.isRequest = false) (hseq : p.seq = seq) :
    ∃ t₁ t₂ t₃, t.step (.read p) = some t₁ ∧ t₁.step .receiveResponse = some t₂ ∧
      t₂.step (.call k .answered) = some t₃ ∧ t₃.Quiet ∧
      t₃.result k = some (respond opcode p) := by
  obtain ⟨⟨c, hk, rfl, hpc, -⟩, ho, hs, hl, hr, hpend, hsmall⟩ := hw
  subst hseq
  refine ⟨?_, ?_, ?_, ?read, ?receive, ?answer, ?quiet, ?result⟩
  case read =>
    simp only [step, hr, if_true, record, hp, Bool.false_eq_true, if_false]
    rfl
  case receive =>
    simp only [step, Option.map_some, deliver, hpend, Function.update_self, hk, hpc,
      CallPc.listening, if_true, put, record]
    rfl
  case answer =>
    simp only [step, Function.update_self, Option.bind_some, stepCall, move, put]
    rfl
  case quiet =>
    refine ⟨ho, hs, hl, rfl, ?_, hsmall⟩
    funext n
    by_cases hn : n = p.seq
    · rw [hn]
      exact Function.update_self ..
    · simp [Function.update_of_ne hn]
  case result => simp [result]

end Transport

namespace Generation

variable {fromStr : String → Except String Packet} {g g' : Generation} {k : CallId}

structure Open (g : Generation) : Prop where
  live : g.cancelled = false
  reader : g.reader = .reading
  quiet : g.transport.Quiet

theorem inner_path {t : Transport} (acts : List CallAction)
    (hacts : ∀ a ∈ acts, a.isDrop = false ∧ (InvokeAction.inner a).goesOn = true)
    (hk : g.invokes k = some .polling)
    (hrun : Transport.automaton.exec g.transport (acts.map (.call k)) = some t) :
    (automaton fromStr).Path (fun _ a => a.exchanges k = true) g { g with transport := t } := by
  induction acts generalizing g with
  | nil =>
    cases hrun
    exact .refl
  | cons a acts ih =>
    obtain ⟨u, hu, hrun⟩ := Option.bind_eq_some_iff.mp hrun
    obtain ⟨hdrop, hgo⟩ := hacts a List.mem_cons_self
    have hu' : g.transport.step (.call k a) = some u := hu
    have hs : (automaton fromStr).step g (.onInvoke k (.inner a)) =
        some { g with transport := u } := by
      simp only [automaton, step, stepInvoke, hk, hdrop, Bool.false_eq_true, if_false,
        onTransport, hu',
        Option.map_some]
    have hex : (GenerationAction.onInvoke k (.inner a)).exchanges k = true := by
      simp [GenerationAction.exchanges, hgo]
    have hfirst : (automaton fromStr).Path (fun _ a => a.exchanges k = true) g
        { g with transport := u } := .single hex hs
    exact hfirst.trans (ih (g := { g with transport := u })
      (fun b hb => hacts b (List.mem_cons_of_mem a hb)) hk hrun)

theorem Open.exchange {p : Packet} {text : String} (h : g.Open) (opcode : Nat) (payload : Value)
    (hp : p.isRequest = false) (he : p.isError = false)
    (hseq : p.seq = g.transport.nextSeq) (htext : fromStr text = .ok p) :
    ∃ g₁ g₂, g.invoke opcode payload = some g₁ ∧
      (automaton fromStr).Path (fun _ a => a.exchanges g.transport.started = true) g₁ g₂ ∧
      g₂.Open ∧ g₂.invokes g.transport.started = some (.returned (.ok p)) ∧
      g₂.keepalive = g.keepalive ∧ g₂.attachmentRegistry = g.attachmentRegistry := by
  obtain ⟨t, ht, hq, hseq', c, hk, rfl, hpc, hin⟩ := h.quiet.starts opcode payload
  obtain ⟨u, hu, hw⟩ := hq.sends hk hpc hin
  rw [hseq'] at hw
  obtain ⟨t₁, t₂, t₃, h₁, h₂, h₃, hquiet, hr⟩ := hw.answered hp hseq
  have hresp : respond c.opcode p = .ok p := by simp [respond, he]
  rw [hresp] at hr
  let k := g.transport.started
  let g₁ := { g with transport := t }.setInvoke k .parked
  let g₂ := g₁.setInvoke k .polling
  let g₃ : Generation := { g₂ with transport := u }
  let g₄ : Generation := { g₂ with transport := t₁, reader := .receiving }
  let g₅ : Generation := { g₂ with transport := t₂, reader := .reading }
  let g₆ : Generation := { g₂ with transport := t₃, reader := .reading }
  let g₇ : Generation :=
    { g₆.setInvoke k (.returned (.ok p)) with cancelled := g.cancelled || failsTransport (.ok p) }
  have hpolling : g₂.invokes k = some .polling := Function.update_self ..
  have hinvoke : g.invoke c.opcode payload = some g₁ := by
    simp only [invoke, onTransport, ht, Option.map_some, g₁, k]
  have hpoll : (automaton fromStr).step g₁ (.onInvoke k .poll) = some g₂ := by
    simp only [automaton, step, stepInvoke, setInvoke, Function.update_self, h.live,
      Bool.false_eq_true,
      if_false, g₁, g₂]
  have hframe : (automaton fromStr).step g₃ (.reader (.frame (some (.text text)))) = some g₄ := by
    simp only [automaton, step, stepReader, setInvoke, h.reader, readTurn, frameText, htext, hp,
      Bool.false_eq_true, if_false, onTransport, h₁, Option.map_some, Option.bind_some, onFrame,
      g₁, g₂, g₃, g₄]
  have hreceive : (automaton fromStr).step g₄ (.reader .received) = some g₅ := by
    simp only [automaton, step, stepReader, onTransport, h₂, Option.map_some, g₄, g₅]
  have hanswer : (automaton fromStr).step g₅ (.onInvoke k (.inner .answered)) = some g₆ := by
    have h₃' : t₂.step (.call k .answered) = some t₃ := h₃
    simp only [automaton, step, stepInvoke, hpolling, CallAction.isDrop, Bool.false_eq_true,
      if_false,
      onTransport, h₃', Option.map_some, g₅, g₆]
  have hfinish : (automaton fromStr).step g₆ (.onInvoke k .finish) = some g₇ := by
    have hr' : t₃.result k = some (.ok p) := hr
    simp only [automaton, step, stepInvoke, hpolling, hr', Option.map_some, g₆, g₇]
    rfl
  have ok : ∀ a : InvokeAction, a.goesOn = true →
      (GenerationAction.onInvoke k a).exchanges k = true := by
    intro a ha
    simp [GenerationAction.exchanges, ha]
  have polled : (automaton fromStr).Path (fun _ a => a.exchanges k = true) g₁ g₂ :=
    .single (ok .poll rfl) hpoll
  have sent : (automaton fromStr).Path (fun _ a => a.exchanges k = true) g₂ g₃ :=
    inner_path (g := g₂) Transport.sending (by decide) hpolling hu
  have read : (automaton fromStr).Path (fun _ a => a.exchanges k = true) g₃ g₅ :=
    .tail (.single rfl hframe) rfl hreceive
  have back : (automaton fromStr).Path (fun _ a => a.exchanges k = true) g₅ g₇ :=
    .tail (.single (ok (.inner .answered) rfl) hanswer) (ok .finish rfl) hfinish
  refine ⟨g₁, g₇, hinvoke, ((polled.trans sent).trans read).trans back, ⟨?_, rfl, hquiet⟩, ?_,
    rfl, rfl⟩
  · simp [g₇, h.live, failsTransport]
  · exact Function.update_self ..

theorem Open.attach {p : Packet} {text : String} {fileId : Int} (h : g.Open)
    (htext : fromStr text = .ok p) (hp : p.isRequest = true)
    (hact : serverRequest p = .notifAttach fileId) :
    ∃ g', g.step fromStr (.reader (.frame (some (.text text)))) = some g' ∧ g'.Open ∧
      g'.attachmentRegistry = g.attachmentRegistry.complete fileId := by
  refine ⟨?_, ?step, ?isOpen, ?registry⟩
  case step =>
    simp only [step, stepReader, h.reader, readTurn, frameText, htext, hp, hact, if_true,
      onTransport, Transport.step, h.quiet.receiving, Option.map_some, Option.bind_some, onFrame]
    rfl
  case isOpen =>
    exact ⟨h.live, rfl, h.quiet.sendOrder, h.quiet.sink, h.quiet.sinkLock, rfl, h.quiet.pending,
      h.quiet.small⟩
  case registry => rfl

end Generation

namespace Session

structure Talking (s : Session) (rest : AttemptScript (Except Error Unit)) (pinger : KeepalivePc) :
    Prop where
  phase : s.phase = .attempting { rest := rest, waiting := none, polling := true, checked := false }
  isOpen : s.generation.Open
  keepalive : s.generation.keepalive = pinger
  registry : s.generation.attachmentRegistry = .new

variable {fromStr : String → Except String Packet} {deviceId : String} {s s' : Session}
  {pinger : KeepalivePc} {k : CallId} {P : Session → Prop}

abbrev CanGoOn (fromStr : String → Except String Packet) (deviceId : String) (s : Session)
    (P : Session → Prop) : Prop :=
  (automaton fromStr deviceId).CanReach (fun _ b => b.goesOn = true) s P

theorem exchange_goesOn {a : Attempt} {g : Generation} (hphase : s.phase = .attempting a)
    (hpoll : a.polling = true) (hk : a.waiting = some k)
    (hp : (Generation.automaton fromStr).Path (fun _ b => b.exchanges k = true) s.generation g) :
    CanGoOn fromStr deviceId s fun s' => s' = { s with generation := g } := by
  induction hp with
  | refl => exact .here rfl
  | tail hpath hb hs ih =>
    rename_i g g' b
    refine ih.bind fun s₁ _ h₁ => ?_
    subst h₁
    have hs' : g.step fromStr b = some g' := hs
    cases b with
    | onInvoke j x =>
      obtain ⟨hj, hx⟩ := Bool.and_eq_true_iff.mp hb
      cases eq_of_beq hj
      have hstep : ({ s with generation := g } : Session).step fromStr (.attempt (.onInvoke x)) =
          some { s with generation := g' } := by
        simp only [step, hphase, hpoll, if_true, stepAttempt, hk]
        cases x with
        | drop => cases hx
        | _ => simp only [act, hs', Option.map_some]
      have hgo : (SessionAction.attempt (.onInvoke x)).goesOn = true := by
        cases x with
        | drop => cases hx
        | inner y => cases y <;> first | rfl | cases hx
        | _ => rfl
      exact .step hgo hstep (.here rfl)
    | reader x =>
      have hstep : ({ s with generation := g } : Session).step fromStr (.worker (.reader x)) =
          some { s with generation := g' } := by
        simp only [step, act, WorkerAction.toGeneration, hs', Option.map_some]
      have hgo : (SessionAction.worker (.reader x)).goesOn = true := by
        cases x <;> first | rfl | cases hb
      exact .step hgo hstep (.here rfl)
    | _ => cases hb

end Session

def initAnswer : Value := .object []

def loginAnswer : Value :=
  .object [("profile", .object [("contact", .object [("id", .int 1)])])]

def authRequestAnswer : Value := .object [("token", .string "sms")]

def authAnswer : Value :=
  .object [("tokenAttrs", .object [("LOGIN", .object [("token", .string "session")])])]

def loginAnswers : List (Nat × Value) :=
  [(Opcode.SESSION_INIT, initAnswer), (Opcode.LOGIN, loginAnswer),
    (Opcode.AUTH_REQUEST, authRequestAnswer), (Opcode.AUTH, authAnswer)]

def Reads (answers : List (Nat × Value)) (fromStr : String → Except String Packet) : Prop :=
  ∀ seq opcode answer, seq < 2 ^ 32 → (opcode, answer) ∈ answers →
    ∃ text, fromStr text = .ok (Packet.response seq opcode answer)

/-- Answers of a server, an operator and a file system that bring an attempt to the point at which
its connection is published. -/
inductive Succeeds : AttemptScript (Except Error Unit) → Prop where
  | connected {next : Except Error Unit → AttemptScript (Except Error Unit)} :
      Succeeds (.call .connected next)
  | invoke {opcode : Nat} {payload : Value}
      {next : Except Error Packet → AttemptScript (Except Error Unit)} (answer : Value) :
      (opcode, answer) ∈ loginAnswers →
      (∀ seq, Succeeds (next (.ok (Packet.response seq opcode answer)))) →
      Succeeds (.call (.invoke opcode payload) next)
  | requestSmsCode {operator : OperatorChannel} {phone : String}
      {next : Except Error String → AttemptScript (Except Error Unit)} (code : String) :
      operator.isNone = false → Succeeds (next (.ok code)) →
      Succeeds (.call (.requestSmsCode operator phone) next)
  | stored {contents : String}
      {next : Except IoErrorKind Unit → AttemptScript (Except Error Unit)} :
      Succeeds (next (.ok ())) → Succeeds (.call (.storeSessionTokenFile contents) next)
  | setOwnUserId {id : Int} {next : Unit → AttemptScript (Except Error Unit)} :
      Succeeds (next ()) → Succeeds (.call (.setOwnUserId id) next)
  | setSessionToken {token : String} {next : Unit → AttemptScript (Except Error Unit)} :
      Succeeds (next ()) → Succeeds (.call (.setSessionToken token) next)

/-- A token that the server accepts is enough. -/
theorem succeeds_token {config : LoginConfig} {token : String}
    (h : config.sessionToken = some token) : Succeeds ((login config).orFail afterLogin) := by
  rw [login, h]
  exact .invoke loginAnswer (by simp [loginAnswers]) fun _ =>
    .setOwnUserId (.setSessionToken .connected)

/-- So are a phone number, somebody who enters the code and a server that sends it. -/
theorem succeeds_sms {config : LoginConfig} {phone : String} (ht : config.sessionToken = none)
    (hp : config.phone = some phone) (ho : config.operator.isNone = false) :
    Succeeds ((login config).orFail afterLogin) := by
  rw [login, ht]
  show Succeeds ((smsLogin config).orFail afterLogin)
  rw [smsLogin, hp]
  refine .invoke authRequestAnswer (by simp [loginAnswers]) fun _ => ?_
  refine .requestSmsCode "code" ho ?_
  refine .invoke authAnswer (by simp [loginAnswers]) fun _ => ?_
  refine .invoke loginAnswer (by simp [loginAnswers]) fun _ => ?_
  exact .setOwnUserId (.stored (.setSessionToken .connected))

namespace Session

variable {fromStr : String → Except String Packet} {deviceId : String} {s : Session}
  {pinger : KeepalivePc} {rest : AttemptScript (Except Error Unit)}

theorem Talking.exchange {opcode : Nat} {payload : Value}
    {next : Except Error Packet → AttemptScript (Except Error Unit)}
    (hreads : Reads loginAnswers fromStr)
    (h : s.Talking (.call (.invoke opcode payload) next) pinger) (answer : Value)
    (ha : (opcode, answer) ∈ loginAnswers) :
    CanGoOn fromStr deviceId s fun s' => ∃ seq,
      s'.Talking (next (.ok (Packet.response seq opcode answer))) pinger := by
  obtain ⟨text, htext⟩ := hreads _ opcode answer h.isOpen.quiet.small ha
  obtain ⟨g₁, g₂, hinvoke, hpath, hopen, hret, hkeep, hreg⟩ :=
    h.isOpen.exchange opcode payload rfl rfl rfl htext
  let a : Attempt :=
    { rest := .call (.invoke opcode payload) next
      waiting := some s.generation.transport.started
      polling := true
      checked := false }
  let s₁ : Session := { s with generation := g₁, phase := .attempting a }
  have hissue : s.step fromStr (.attempt .issue) = some s₁ := by
    simp only [step, h.phase, if_true, stepAttempt, act, Generation.step, hinvoke, Option.map_some,
      withAttempt, s₁, a]
  refine .step (a := .attempt .issue) rfl hissue ?_
  refine (exchange_goesOn (s := s₁) (a := a) rfl rfl rfl hpath).bind fun s₂ _ h₂ => ?_
  subst h₂
  have htake : ({ s₁ with generation := g₂ } : Session).step fromStr (.attempt .take) =
      some (({ s₁ with generation := g₂ } : Session).answer a (.invoke opcode payload)
        (.ok (Packet.response s.generation.transport.nextSeq opcode answer)) next) := by
    simp only [step, if_true, stepAttempt, hret, s₁, a]
  exact .step (a := .attempt .take) rfl htake
    (.here ⟨_, rfl, hopen, hkeep.trans h.keepalive, hreg.trans h.registry⟩)

theorem Talking.succeeds (hreads : Reads loginAnswers fromStr) (hsucc : Succeeds rest)
    (h : s.Talking rest pinger) :
    CanGoOn fromStr deviceId s fun s' => ∃ next, s'.Talking (.call .connected next) pinger := by
  induction hsucc generalizing s with
  | connected => exact .here ⟨_, h⟩
  | invoke answer ha _ ih =>
    refine (h.exchange hreads answer ha).bind fun s' _ hs' => ?_
    obtain ⟨seq, hs'⟩ := hs'
    exact ih seq hs'
  | requestSmsCode code hop hnext ih =>
    rename_i operator phone next
    have hans : operatorAnswers operator (.ok code) = true := by
      cases operator with
      | none => cases hop
      | _ => rfl
    have hs : s.step fromStr (.attempt (.answer (.ok code))) = some (s.answer
        { rest := .call (.requestSmsCode operator phone) next, waiting := none, polling := true,
          checked := false } (.requestSmsCode operator phone) (.ok code) next) := by
      simp only [step, h.phase, if_true, stepAttempt, hans]
    exact .step (a := .attempt (.answer (.ok code))) rfl hs
      (ih ⟨rfl, h.isOpen, h.keepalive, h.registry⟩)
  | stored hnext ih =>
    rename_i contents next
    have hs : s.step fromStr (.attempt (.stored (.ok ()))) = some (s.answer
        { rest := .call (.storeSessionTokenFile contents) next, waiting := none, polling := true,
          checked := false } (.storeSessionTokenFile contents) (.ok ()) next) := by
      simp only [step, h.phase, if_true, stepAttempt]
    exact .step (a := .attempt (.stored (.ok ()))) rfl hs
      (ih ⟨rfl, h.isOpen, h.keepalive, h.registry⟩)
  | setOwnUserId hnext ih =>
    rename_i id next
    have hs : s.step fromStr (.attempt .perform) = some
        ({ s with generation := { s.generation with ownUserId := some id } }.answer
          { rest := .call (.setOwnUserId id) next, waiting := none, polling := true,
            checked := false } (.setOwnUserId id) () next) := by
      simp only [step, h.phase, if_true, stepAttempt, act, Generation.step, Option.map_some]
    exact .step (a := .attempt .perform) rfl hs
      (ih ⟨rfl, ⟨h.isOpen.live, h.isOpen.reader, h.isOpen.quiet⟩, h.keepalive, h.registry⟩)
  | setSessionToken hnext ih =>
    rename_i token next
    have hs : s.step fromStr (.attempt .perform) = some (s.answer
        { rest := .call (.setSessionToken token) next, waiting := none, polling := true,
          checked := false } (.setSessionToken token) () next) := by
      simp only [step, h.phase, if_true, stepAttempt]
    exact .step (a := .attempt .perform) rfl hs
      (ih ⟨rfl, h.isOpen, h.keepalive, h.registry⟩)

theorem new_succeeds (deviceId : String) {config : LoginConfig}
    (hreads : Reads loginAnswers fromStr)
    (hsucc : Succeeds ((login config).orFail afterLogin)) :
    CanGoOn fromStr deviceId (new deviceId config false) fun s =>
      ∃ next pinger, s.Talking (.call .connected next) pinger := by
  -- connected, with a reader
  have opened : CanGoOn fromStr deviceId (new deviceId config false) fun s =>
      ∃ next, s.Talking (.call (.invoke Opcode.SESSION_INIT
        (sessionInitPayload .default deviceId)) next) .absent ∧
      ∀ p, next (.ok p) = .call .spawnKeepalive fun _ => (login config).orFail afterLogin := by
    refine .step (a := .poll) rfl rfl (.step (a := .attempt .connectOk) rfl rfl
      (.step (a := .attempt .perform) rfl rfl (.step (a := .worker (.reader .start)) rfl rfl
        (.here ⟨_, ⟨rfl, ⟨rfl, rfl, ?_⟩, rfl, rfl⟩, fun _ => rfl⟩))))
    exact ⟨rfl, rfl, rfl, rfl, rfl, show 1 < 2 ^ 32 by decide⟩
  refine opened.bind fun s _ hs => ?_
  obtain ⟨next, htalk, hnext⟩ := hs
  refine (htalk.exchange hreads initAnswer (by simp [loginAnswers])).bind fun s₁ _ hs₁ => ?_
  obtain ⟨seq, h₁⟩ := hs₁
  rw [hnext] at h₁
  have hs : s₁.step fromStr (.attempt .perform) = some
      ({ s₁ with generation := { s₁.generation with keepalive := .spawned } }.answer
        { rest := .call .spawnKeepalive fun _ => (login config).orFail afterLogin, waiting := none,
          polling := true, checked := false } .spawnKeepalive ()
        fun _ => (login config).orFail afterLogin) := by
    simp only [step, h₁.phase, if_true, stepAttempt, act, Generation.step, h₁.keepalive,
      Option.map_some]
  have htalk₂ : ({ s₁ with generation := { s₁.generation with keepalive := .spawned } }.answer
      { rest := .call .spawnKeepalive fun _ => (login config).orFail afterLogin, waiting := none,
        polling := true, checked := false } .spawnKeepalive ()
      fun _ => (login config).orFail afterLogin).Talking ((login config).orFail afterLogin)
      .spawned :=
    ⟨rfl, ⟨h₁.isOpen.live, h₁.isOpen.reader, h₁.isOpen.quiet⟩, rfl, h₁.registry⟩
  refine .step (a := .attempt .perform) rfl hs ?_
  exact (htalk₂.succeeds hreads hsucc).mono fun s₂ hs₂ => hs₂.imp fun next h => ⟨_, h⟩

end Session

end Maxrs
