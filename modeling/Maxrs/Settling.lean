import Maxrs.Kit.Progress
import Maxrs.Owners
import Maxrs.Replay
import Maxrs.Wakeup
set_option autoImplicit false

/-! What the calls on a client can still do by themselves once its shutdown was requested. -/
namespace Maxrs

/-- The socket or a timer has to do something. -/
def CallAction.isOutside : CallAction → Bool
  | .feed | .flushed | .sendFailed _ | .sendTimedOut | .timedOut => true
  | _ => false

def InvokeAction.isOutside : InvokeAction → Bool
  | .inner a => a.isOutside
  | _ => false

def AttemptAction.isOutside : AttemptAction → Bool
  | .connectOk | .connectFailed _ | .answer _ | .stored _ => true
  | .onInvoke a => a.isOutside
  | _ => false

def LoopAction.isOutside : LoopAction → Bool
  | .attempt a => a.isOutside
  | .slept => true
  | _ => false

def WorkerAction.isOutside : WorkerAction → Bool
  | .reader (.frame _) | .reader (.ack .feed) | .reader (.ack .finish) => true
  | .keepalive .tick => true
  | .keepalive (.ping a) => a.isOutside
  | _ => false

/-- The server, the socket, a timer, the file system, the operator or a caller has to act; every
other step is a poll that some task of the client is ready for. -/
def ClientAction.isOutside : ClientAction → Bool
  | .startRun _ | .startSend _ _ | .startDisconnect _ => true
  | .run _ .drop | .send _ .drop | .disconnect _ .drop => true
  | .run _ (.loop a) => a.isOutside
  | .send _ (.onInvoke a) => a.isOutside
  | .send _ (.uploaded _) | .send _ .processTimeout => true
  | .worker _ a => a.isOutside
  | _ => false

/-- A shutdown begins, or a send moves, but for what is inside a request of it. -/
def ClientAction.disturbs : ClientAction → Bool
  | .run _ .guardCancel | .run _ .supervisorCancel | .disconnect _ .stopCancel => true
  | .send _ (.onInvoke _) => false
  | .send _ _ => true
  | _ => false

/-- The two operations that wait in a `select!` with the cancellation of the connection. -/
def SendOp.IsSelect (op : SendOp) : Prop :=
  (∃ url headers body, op = .upload url headers body) ∨ ∃ waiter, op = .processed waiter

theorem SendStep.current {setup : Setup} {snd snd' : Send} {sh sh' : Shared}
    {r : Except Error ConnId}
    (h : SendStep setup sh snd sh' snd') (hp : snd'.pc = .current (.returned r)) :
    snd.pc = .current (.returned r) := by
  cases h with
  | act b _ _ => exact hp
  | _ => cases hp

namespace Client

variable (setup : Setup)

abbrev Settles (w w' : Client) : Prop :=
  (automaton setup).Path (fun _ a => a.isOutside = false) w w'

abbrev CanSettle (w : Client) (P : Client → Prop) : Prop :=
  (automaton setup).CanReach (fun _ a => a.isOutside = false) w P

abbrev CanTear (w : Client) (P : Client → Prop) : Prop :=
  (automaton setup).CanReach (fun _ a => a.isOutside = false ∧ a.disturbs = false) w P

structure Stopping (w : Client) : Prop where
  reachable : (automaton setup).Reachable w
  shutdown : w.shared.recovery.shutdown = true

structure Stopped (w : Client) : Prop extends Stopping setup w where
  stopped : w.shared.recovery.state = .stopped

structure Severed (c : ConnId) (w : Client) : Prop where
  reachable : (automaton setup).Reachable w
  created : c < w.shared.created
  cancelled : w.shared.isCancelled c = true

variable {setup : Setup} {w w' : Client} {P : Client → Prop}

theorem Severed.clientInv {c : ConnId} (h : Severed setup c w) : ClientInv setup w :=
  clientInv_of_reachable h.reachable

theorem Severed.step {c : ConnId} {a : ClientAction} (h : Severed setup c w)
    (hs : w.step setup a = some w') : Severed setup c w' := by
  have hg := client_grows (client_step hs) h.clientInv
  exact ⟨h.reachable.tail hs, Nat.lt_of_lt_of_le h.created hg.created,
    (hg.generation c h.created).cancelled h.cancelled⟩

theorem Severed.path {c : ConnId} {ok : Client → ClientAction → Prop} (h : Severed setup c w)
    (hp : (automaton setup).Path ok w w') : Severed setup c w' :=
  hp.preserves (fun _ _ _ _ hs hi => hi.step hs) h

theorem Stopping.clientInv (h : Stopping setup w) : ClientInv setup w :=
  clientInv_of_reachable h.reachable

theorem Stopping.step {a : ClientAction} (h : Stopping setup w)
    (hs : w.step setup a = some w') : Stopping setup w' :=
  ⟨h.reachable.tail hs, (client_grows (client_step hs) h.clientInv).shutdown h.shutdown⟩

theorem Stopping.path {ok : Client → ClientAction → Prop} (h : Stopping setup w)
    (hp : (automaton setup).Path ok w w') : Stopping setup w' :=
  hp.preserves (fun _ _ _ _ hs hi => hi.step hs) h

theorem Stopped.step {a : ClientAction} (h : Stopped setup w) (hs : w.step setup a = some w') :
    Stopped setup w' :=
  ⟨h.toStopping.step hs, (client_grows (client_step hs) h.clientInv).stopped h.stopped⟩

theorem Stopped.path {ok : Client → ClientAction → Prop} (h : Stopped setup w)
    (hp : (automaton setup).Path ok w w') : Stopped setup w' :=
  hp.preserves (fun _ _ _ _ hs hi => hi.step hs) h

theorem Stopping.cancelled {c : ConnId} (h : Stopping setup w) (hc : c < w.shared.created) :
    w.shared.isCancelled c = true := h.clientInv.shared.tokens h.shutdown c hc

theorem Stopping.severed {c : ConnId} (h : Stopping setup w) (hc : c < w.shared.created) :
    Severed setup c w := ⟨h.reachable, hc, h.cancelled hc⟩

theorem CanTear.settle (h : CanTear setup w P) : CanSettle setup w P :=
  h.weaken fun _ _ ha => ha.1

theorem CanSettle.after {a : ClientAction} (ha : a.isOutside = false)
    (hs : w.step setup a = some w') (h : CanSettle setup w' P) : CanSettle setup w P :=
  Automaton.CanReach.step ha hs h

theorem step_send {i : SendId} {snd snd' : Send} {sh' : Shared} {a : SendAction}
    (hi : w.sends i = some snd) (h : snd.step setup w.shared a = some (sh', snd')) :
    w.step setup (.send i a) =
      some { w with shared := sh', sends := Function.update w.sends i (some snd') } := by
  simp only [Client.step, hi, Option.bind_some, h, Option.map_some]

theorem CanSettle.send {i : SendId} {snd snd' : Send} {sh' : Shared} {a : SendAction}
    (hw : Stopping setup w) (hi : w.sends i = some snd)
    (ha : (ClientAction.send i a).isOutside = false)
    (h : snd.step setup w.shared a = some (sh', snd'))
    (hrest : ∀ w', Stopping setup w' → w'.shared = sh' → w'.sends i = some snd' →
      CanSettle setup w' P) : CanSettle setup w P := by
  have hs := step_send hi h
  refine .step ha hs (hrest _ (hw.step hs) rfl ?_)
  exact Function.update_self ..

theorem stepInvoke_parked {g : Generation} {k : CallId} (hk : g.invokes k = some .parked)
    (hc : g.cancelled = true) : ∃ g', g.stepInvoke k .poll = some g' ∧
      g'.invokes k = some (.returned (.error .connectionClosed)) := by
  refine ⟨_, by simp only [Generation.stepInvoke, hk, hc, if_true]; rfl, ?_⟩
  exact Function.update_self ..

theorem stepInvoke_polling {g : Generation} {k : CallId} (hk : g.invokes k = some .polling) :
    (∃ g', g.stepInvoke k .park = some g' ∧ g'.invokes k = some .parked) ∨
    ∃ g' r, g.stepInvoke k .finish = some g' ∧ g'.invokes k = some (.returned r) := by
  cases hr : g.transport.result k with
  | none =>
    refine .inl ⟨g.setInvoke k .parked, by simp only [Generation.stepInvoke, hk, hr], ?_⟩
    exact Function.update_self ..
  | some r =>
    refine .inr ⟨_, r, by simp only [Generation.stepInvoke, hk, hr, Option.map_some]; rfl, ?_⟩
    exact Function.update_self ..

/-- The task that awaits an invoke can bring it to its end: parked, it finds its connection
cancelled at the next poll. -/
theorem CanTear.invoke {c : ConnId} {k : CallId} {i : InvokePc} {keep : Client → Prop}
    (act : InvokeAction → ClientAction)
    (hact : ∀ a, (act a).isOutside = a.isOutside ∧ (act a).disturbs = false)
    (hstep : ∀ v a g', Severed setup c v → keep v → a = .poll ∨ a = .park ∨ a = .finish →
      (v.generation c).stepInvoke k a = some g' →
      ∃ v', v.step setup (act a) = some v' ∧ v'.generation c = g' ∧ keep v')
    (hw : Severed setup c w) (hkeep : keep w) (hi : (w.generation c).invokes k = some i)
    (hd : i ≠ .dropped) :
    CanTear setup w fun v =>
      keep v ∧ ∃ r, (v.generation c).invokes k = some (.returned r) := by
  have parked : ∀ {v}, Severed setup c v → keep v → (v.generation c).invokes k = some .parked →
      CanTear setup v fun v => keep v ∧ ∃ r, (v.generation c).invokes k = some (.returned r) := by
    intro v hv hk hp
    obtain ⟨g', hg, hr⟩ := stepInvoke_parked hp hv.cancelled
    obtain ⟨v', hs, hg', hk'⟩ := hstep v .poll g' hv hk (.inl rfl) hg
    exact .step (hact .poll) hs (.here ⟨hk', _, by rw [hg']; exact hr⟩)
  cases i with
  | parked => exact parked hw hkeep hi
  | polling =>
    rcases stepInvoke_polling hi with ⟨g', hg, hp⟩ | ⟨g', r, hg, hr⟩
    · obtain ⟨v', hs, hg', hk'⟩ := hstep w .park g' hw hkeep (.inr (.inl rfl)) hg
      exact .step (hact .park) hs (parked (hw.step hs) hk' (by rw [hg']; exact hp))
    · obtain ⟨v', hs, hg', hk'⟩ := hstep w .finish g' hw hkeep (.inr (.inr rfl)) hg
      exact .step (hact .finish) hs (.here ⟨hk', r, by rw [hg']; exact hr⟩)
  | returned r => exact .here ⟨hkeep, r, hi⟩
  | dropped => exact absurd rfl hd

theorem awaits {p : Task} {c : ConnId} {k : CallId} (h : (automaton setup).Reachable w)
    (hp : w.invoking p = some (c, k)) :
    ∃ i, (w.generation c).invokes k = some i ∧ i ≠ .dropped := by
  obtain ⟨x, hx, hd⟩ := (owned_of_reachable h).known p (c, k) hp
  exact ⟨x.1, (Generation.standing_eq hx).1, hd⟩

theorem onConnection_of (setup : Setup) (sh : Shared) (b : SendBody) {a : SenderAction}
    {g' : Generation}
    (h : (sh.sessions b.connection).generation.step setup.fromStr a.toGeneration = some g') :
    Send.onConnection setup sh b a = some (sh.setSession b.connection
      { sh.sessions b.connection with generation := g' }) := by
  rw [Send.onConnection, Shared.onSession, Session.act, h]
  rfl

theorem body_created {i : SendId} {snd : Send} {b : SendBody} (hw : Stopping setup w)
    (hi : w.sends i = some snd) (hp : snd.pc = .body b) : b.connection < w.shared.created :=
  (hw.clientInv.handles.body i snd b hi hp).1

theorem send_invokes {v : Client} {i : SendId} {snd : Send} {b : SendBody} {k : CallId}
    {a : InvokeAction} {g' : Generation} (hi : v.sends i = some snd) (hp : snd.pc = .body b)
    (hk : b.waiting = some k) (ha : a = .poll ∨ a = .park ∨ a = .finish)
    (hg : (v.generation b.connection).stepInvoke k a = some g') :
    v.step setup (.send i (.onInvoke a)) = some
      { v with
        shared := v.shared.setSession b.connection
          { v.shared.sessions b.connection with generation := g' }
        sends := Function.update v.sends i (some snd) } := by
  have hon := onConnection_of setup v.shared b (a := .onInvoke k a) hg
  refine step_send hi ?_
  rcases ha with rfl | rfl | rfl <;>
    simp only [Send.step, hp, Send.stepBody, hk, hon, Option.map_some]

theorem send_awaits {i : SendId} {snd : Send} {b : SendBody} {k : CallId}
    (hi : w.sends i = some snd) (hp : snd.pc = .body b) (hk : b.waiting = some k) :
    w.invoking (.send i) = some (b.connection, k) := by
  simp only [invoking, hi, Option.bind_some, Send.waiting, hp, hk, Option.map_some]

theorem CanTear.taken {i : SendId} {snd : Send} {b : SendBody} {k : CallId}
    (hw : Severed setup b.connection w) (hi : w.sends i = some snd) (hp : snd.pc = .body b)
    (hk : b.waiting = some k) :
    CanTear setup w fun v => v.sends i = some snd ∧
      ∃ r, (v.generation b.connection).invokes k = some (.returned r) := by
  obtain ⟨j, hj, hd⟩ := awaits hw.reachable (send_awaits hi hp hk)
  refine CanTear.invoke (fun a => .send i (.onInvoke a)) (fun a => ⟨by cases a <;> rfl, rfl⟩) ?_
    hw hi hj hd
  intro v a g' _ hkeep ha hg
  refine ⟨_, send_invokes hkeep hp hk ha hg, ?_, ?_⟩
  · exact congrArg Session.generation (setSession_self ..)
  · exact Function.update_self ..

theorem select_cancelled {sh : Shared} {snd : Send} {b : SendBody} {op : SendOp}
    {next : op.Ret → SendScript (Except Error Unit)} (hop : op.IsSelect) (hp : snd.pc = .body b)
    (hr : b.rest = .call op next) (hpoll : b.polling = false)
    (hc : sh.isCancelled b.connection = true) :
    ∃ r sh' snd' b', snd.step setup sh .selectPoll = some (sh', snd') ∧ snd'.pc = .body b' ∧
      b'.rest = next r := by
  rcases hop with ⟨url, headers, body, rfl⟩ | ⟨waiter, rfl⟩
  · exact ⟨.error .connectionClosed, _, _, _,
      by simp only [Send.step, hp, Send.stepBody, hr, hpoll, hc, Bool.false_eq_true, if_false,
        if_true]; rfl, rfl, rfl⟩
  · have hon := onConnection_of setup sh b (a := .dropWaiter waiter) rfl
    exact ⟨.error .connectionClosed, _, _, _,
      by simp only [Send.step, hp, Send.stepBody, hr, hpoll, hc, hon, Bool.false_eq_true, if_false,
        if_true, Option.map_some]; rfl, rfl, rfl⟩

def IterationOver (i : SendId) (w : Client) : Prop :=
  ∃ snd, w.sends i = some snd ∧ (snd.pc = .current .reading ∨ ∃ r, snd.pc = .returned r)

theorem CanSettle.finishes {i : SendId} {snd : Send} {b : SendBody} {r : Except Error Unit}
    (hw : Stopping setup w) (hi : w.sends i = some snd) (hp : snd.pc = .body b)
    (hr : b.rest = .done r) : CanSettle setup w (IterationOver i) := by
  cases r with
  | ok u =>
    refine .send (a := .finish) hw hi rfl
      (by simp only [Send.step, hp, Send.stepBody, hr]; rfl) fun v _ _ hv => ?_
    exact .here ⟨_, hv, .inr ⟨.ok (), rfl⟩⟩
  | error e =>
    refine .send (a := .finish) hw hi rfl
      (by simp only [Send.step, hp, Send.stepBody, hr]; rfl) fun v _ _ hv => ?_
    by_cases he : isTransportFailure e = true
    · exact .here ⟨_, hv, .inl (by rw [if_pos he]; rfl)⟩
    · exact .here ⟨_, hv, .inr ⟨.error e, by rw [if_neg he]; rfl⟩⟩

section

variable {i : SendId} {snd : Send} {b : SendBody} {op : SendOp}
  {next : op.Ret → SendScript (Except Error Unit)}

theorem CanSettle.selects (hw : Stopping setup w) (hi : w.sends i = some snd)
    (hp : snd.pc = .body b) (hr : b.rest = .call op next) (hop : op.IsSelect)
    (hnext : ∀ x v snd' b', Stopping setup v → v.sends i = some snd' → snd'.pc = .body b' →
      b'.rest = next x → CanSettle setup v (IterationOver i)) :
    CanSettle setup w (IterationOver i) := by
  have unpolled : ∀ {v snd' b'}, Stopping setup v → v.sends i = some snd' →
      snd'.pc = .body b' → b'.rest = .call op next → b'.polling = false →
      CanSettle setup v (IterationOver i) := by
    intro v snd' b' hv hvi hvp hvr hpoll
    obtain ⟨r, sh', x, b'', hx, hxp, hxr⟩ :=
      select_cancelled hop hvp hvr hpoll (hv.cancelled (body_created hv hvi hvp))
    exact CanSettle.send hv hvi rfl hx fun u hu _ hui => hnext r u _ _ hu hui hxp hxr
  cases hpoll : b.polling with
  | false => exact unpolled hw hi hp hr hpoll
  | true =>
    refine .send (a := .selectPark) hw hi rfl
      (by simp only [Send.step, hp, Send.stepBody, hpoll, if_true]; rfl) fun v hv _ hvi => ?_
    exact unpolled hv hvi rfl hr rfl

end

theorem CanSettle.asks {i : SendId} {snd : Send} {b : SendBody} {opcode : Nat} {payload : Value}
    {next : Except Error Packet → SendScript (Except Error Unit)} (hw : Stopping setup w)
    (hi : w.sends i = some snd) (hp : snd.pc = .body b)
    (hr : b.rest = .call (.invoke opcode payload) next)
    (hnext : ∀ x v snd' b', Stopping setup v → v.sends i = some snd' → snd'.pc = .body b' →
      b'.rest = next x → CanSettle setup v (IterationOver i)) :
    CanSettle setup w (IterationOver i) := by
  have taken : ∀ {v snd' b' k}, Stopping setup v → v.sends i = some snd' →
      snd'.pc = .body b' → b'.rest = .call (.invoke opcode payload) next →
      b'.waiting = some k → CanSettle setup v (IterationOver i) := by
    intro v snd' b' k hv hvi hvp hvr hvk
    have hsev := hv.severed (body_created hv hvi hvp)
    refine (CanTear.taken hsev hvi hvp hvk).settle.bind fun u hu hend => ?_
    obtain ⟨hui, r, hret⟩ := hend
    have hret' : (u.shared.sessions b'.connection).generation.invokes k =
      some (.returned r) := hret
    refine CanSettle.send (a := .take) (hv.path hu) hui rfl
      (by simp only [Send.step, hvp, Send.stepBody, hvr, hvk, hret']; rfl) fun x hx _ hxi => ?_
    exact hnext r x _ _ hx hxi rfl rfl
  cases hk : b.waiting with
  | some k => exact taken hw hi hp hr hk
  | none =>
    obtain ⟨g', hg⟩ : ∃ g', (w.generation b.connection).invoke opcode payload = some g' :=
      ⟨_, rfl⟩
    have hon := onConnection_of setup w.shared b (a := .invoke opcode payload) hg
    refine .send (a := .issue) hw hi rfl
      (by simp only [Send.step, hp, Send.stepBody, hr, hk, hon, Option.map_some]; rfl)
      fun v hv _ hvi => ?_
    exact taken hv hvi rfl rfl rfl

theorem CanSettle.body {i : SendId} {snd : Send} {b : SendBody}
    (rest : SendScript (Except Error Unit)) (hw : Stopping setup w) (hi : w.sends i = some snd)
    (hp : snd.pc = .body b) (hr : b.rest = rest) : CanSettle setup w (IterationOver i) := by
  induction rest generalizing w snd b with
  | done r => exact .finishes hw hi hp hr
  | call op next ih =>
    cases op with
    | invoke opcode payload =>
      exact .asks hw hi hp hr fun x _ _ _ hv hvi hvp hvr => ih x hv hvi hvp hvr
    | register fileId =>
      have hon := onConnection_of setup w.shared b (a := .register fileId) rfl
      exact .send (a := .register) hw hi rfl
        (by simp only [Send.step, hp, Send.stepBody, hr, hon, Option.map_some]; rfl)
        fun v hv _ hvi => ih _ hv hvi rfl rfl
    | upload url headers body =>
      exact .selects hw hi hp hr (.inl ⟨url, headers, body, rfl⟩)
        fun x _ _ _ hv hvi hvp hvr => ih x hv hvi hvp hvr
    | processed waiter =>
      exact .selects hw hi hp hr (.inr ⟨waiter, rfl⟩)
        fun x _ _ _ hv hvi hvp hvr => ih x hv hvi hvp hvr
    | dropWaiter waiter =>
      have hon := onConnection_of setup w.shared b (a := .dropWaiter waiter) rfl
      exact .send (a := .dropWaiter) hw hi rfl
        (by simp only [Send.step, hp, Send.stepBody, hr, hon, Option.map_some]; rfl)
        fun v hv _ hvi => ih _ hv hvi rfl rfl

theorem current_not_returned (h : (automaton setup).Reachable w) :
    ∀ i snd, w.sends i = some snd → ∀ r, snd.pc ≠ .current (.returned r) := by
  refine h.invariant
    (I := fun v => ∀ i snd, v.sends i = some snd → ∀ r, snd.pc ≠ .current (.returned r))
    (fun v ⟨_, hv⟩ i snd hi => ?_) fun v a v' hs hall i snd hi r hp => ?_
  · rw [hv] at hi
    cases hi
  · cases client_step hs with
    | startSend j job hj =>
      rcases update_some hi with ⟨rfl, rfl⟩ | ⟨-, hold⟩
      · cases hp
      · exact hall i snd hold r hp
    | send j x x' sh hx hstep =>
      rcases update_some hi with ⟨rfl, rfl⟩ | ⟨-, hold⟩
      · exact hall _ x hx r (hstep.current hp)
      · exact hall i snd hold r hp
    | _ => exact hall i snd hi r hp

theorem CanSettle.current {i : SendId} {snd : Send} {p : Current} (hw : Stopped setup w)
    (hi : w.sends i = some snd) (hp : snd.pc = .current p) :
    CanSettle setup w fun v => ∃ snd', v.sends i = some snd' ∧ snd'.pc.isOver = true := by
  have checking : ∀ {v snd' seen}, Stopped setup v → v.sends i = some snd' →
      snd'.pc = .current (.checking .stopped seen) →
      CanSettle setup v fun v => ∃ snd', v.sends i = some snd' ∧ snd'.pc.isOver = true := by
    intro v snd' seen hv hvi hvp
    refine .send (a := .check) hv.toStopping hvi rfl
      (by simp only [Send.step, Send.stepCurrent, hvp, Current.check, Option.map_some]; rfl)
      fun u _ _ hui => ?_
    exact .here ⟨_, hui, rfl⟩
  have reading : ∀ {v snd'}, Stopped setup v → v.sends i = some snd' →
      snd'.pc = .current .reading →
      CanSettle setup v fun v => ∃ snd', v.sends i = some snd' ∧ snd'.pc.isOver = true := by
    intro v snd' hv hvi hvp
    have hs : snd'.step setup v.shared .borrow = some (v.shared,
        snd'.goto (.current (.checking .stopped v.shared.recovery.version))) := by
      simp only [Send.step, Send.stepCurrent, hvp, Current.borrow, Option.map_some, hv.stopped]
    exact .after rfl (step_send hvi hs)
      (checking (hv.step (step_send hvi hs)) (Function.update_self ..) rfl)
  have waiting : ∀ {v snd' seen}, Stopped setup v → v.sends i = some snd' →
      snd'.pc = .current (.waiting seen) →
      CanSettle setup v fun v => ∃ snd', v.sends i = some snd' ∧ snd'.pc.isOver = true := by
    intro v snd' seen hv hvi hvp
    obtain ⟨v', hs, hv'⟩ := send_wakes hv.reachable hvi hvp (.inl hv.stopped)
    exact .after rfl hs (reading (hv.step hs) hv' rfl)
  cases p with
  | reading => exact reading hw hi hp
  | waiting seen => exact waiting hw hi hp
  | returned r => exact absurd hp (current_not_returned hw.reachable i snd hi r)
  | checking state seen =>
    have later : (Current.checking state seen).check w.shared.isCancelled =
        some (.waiting seen) → CanSettle setup w fun v =>
          ∃ snd', v.sends i = some snd' ∧ snd'.pc.isOver = true := by
      intro hc
      have hs : snd.step setup w.shared .check = some (w.shared,
          snd.goto (.current (.waiting seen))) := by
        simp only [Send.step, Send.stepCurrent, hp, hc, Option.map_some]
      exact .after rfl (step_send hi hs)
        (waiting (hw.step (step_send hi hs)) (Function.update_self ..) rfl)
    cases state with
    | stopped => exact checking hw hi hp
    | offline => exact later rfl
    | ready c =>
      have hc := (hw.clientInv.handles.checking i snd c seen hi hp).1
      exact later (by simp only [Current.check, hw.cancelled hc, if_true])

/-- Every send on a stopped client can return. -/
theorem CanSettle.ends {i : SendId} {snd : Send} (hw : Stopped setup w)
    (hi : w.sends i = some snd) :
    CanSettle setup w fun v => ∃ snd', v.sends i = some snd' ∧ snd'.pc.isOver = true := by
  have taken : ∀ {v snd' now}, Stopped setup v → v.sends i = some snd' → snd'.pc = .cid now →
      CanSettle setup v fun v => ∃ snd', v.sends i = some snd' ∧ snd'.pc.isOver = true := by
    intro v snd' now hv hvi hvp
    have hs : snd'.step setup v.shared .takeCid = some
        ({ v.shared with cid := min now (v.shared.cid - 1) },
          { snd' with cid := min now (v.shared.cid - 1), pc := .current .reading }) := by
      simp only [Send.step, hvp]
    exact .after rfl (step_send hvi hs)
      (.current (hv.step (step_send hvi hs)) (Function.update_self ..) rfl)
  cases hp : snd.pc with
  | clock =>
    have hs : snd.step setup w.shared (.readClock 0) =
        some (w.shared, snd.goto (.cid (-(0 : Nat)))) := by
      simp only [Send.step, hp]
    exact .after rfl (step_send hi hs)
      (taken (hw.step (step_send hi hs)) (Function.update_self ..) rfl)
  | cid now => exact taken hw hi hp
  | current p => exact .current hw hi hp
  | body b =>
    refine (CanSettle.body b.rest hw.toStopping hi hp rfl).bind fun v hv hend => ?_
    obtain ⟨snd', hvi, hvp⟩ := hend
    rcases hvp with hvp | ⟨r, hvp⟩
    · exact CanSettle.current (hw.path hv) hvi hvp
    · exact .here ⟨snd', hvi, by rw [hvp]; rfl⟩
  | returned r => exact .here ⟨snd, hi, by rw [hp]; rfl⟩
  | dropped => exact .here ⟨snd, hi, by rw [hp]; rfl⟩

end Client

end Maxrs
