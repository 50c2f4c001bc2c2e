import Maxrs.GenerationInv
set_option autoImplicit false

/-! The way of a message from its frame to a handler: read, acknowledged, looked at by the
filter, put into the channel, taken by the dispatcher. -/
namespace Maxrs

def AckPc.entry : AckPc → Option (Nat × Packet)
  | .idle => none
  | .sink n q | .feed n q | .flush n q => some (n, q)

def ReaderPc.message : ReaderPc → Option (Nat × IncomingMessage)
  | .acking n m | .filtering n m | .forwarding n m => some (n, m)
  | _ => none

/-- Frame `n` brought the message `m`, which `q` acknowledges. -/
def Brought (log : List TransportEvent) (n : Nat) (m : IncomingMessage) (q : Packet) : Prop :=
  ∃ p, .read n p ∈ log ∧ p.isRequest = true ∧ serverRequest p = .notifMessage m ∧
    q = ackPacket p m

theorem Brought.mono {log log' : List TransportEvent} {n : Nat} {m : IncomingMessage} {q : Packet}
    (h : Brought log n m q) (hl : ∀ e, e ∈ log → e ∈ log') : Brought log' n m q := by
  obtain ⟨p, hp, h⟩ := h
  exact ⟨p, hl _ hp, h⟩

def TransportEvent.ofReader : TransportEvent → Bool
  | .read _ _ | .acked _ _ => true
  | _ => false

namespace Transport

theorem stepAck_entry {t t' : Transport} {a : AckAction} (h : t.stepAck a = some t')
    (ha : a.isInner = true) :
    (t'.ack.entry = t.ack.entry ∨ t'.ack = .idle) ∧
      (t'.log = t.log ∨ ∃ n q, t.ack.entry = some (n, q) ∧ t'.log = t.log ++ [.acked n q]) := by
  cases a with
  | start n q | drop => cases ha
  | lockSink =>
    simp only [stepAck] at h
    split at h
    · rename_i n q hq
      repeat' split at h
      all_goals cases h
      · exact ⟨.inl (by rw [hq]; rfl), .inl rfl⟩
      · exact ⟨.inr rfl, .inl rfl⟩
    · cases h
  | feed =>
    simp only [stepAck] at h
    split at h <;> cases h
    rename_i n q hq
    exact ⟨.inl (by rw [hq]; rfl), .inr ⟨n, q, by rw [hq]; rfl, rfl⟩⟩
  | finish =>
    simp only [stepAck] at h
    split at h <;> cases h
    all_goals exact ⟨.inr rfl, .inl rfl⟩

def ofReader : TransportAction → Bool
  | .ack _ | .read _ => true
  | _ => false

theorem beside_step {t t' : Transport} {a : TransportAction} (h : t.step a = some t')
    (ha : ofReader a = false) :
    t'.ack = t.ack ∧ (t'.log = t.log ∨ ∃ e, t'.log = t.log ++ [e] ∧ e.ofReader = false) := by
  cases a with
  | start opcode payload | abandon | clear =>
    cases h
    exact ⟨rfl, .inl rfl⟩
  | ack b | read p => cases ha
  | call k b =>
    obtain ⟨c, -, h⟩ := Option.bind_eq_some_iff.mp h
    obtain ⟨c', hs⟩ := stepCall_callStep h
    refine ⟨hs.ack, ?_⟩
    rcases hs.log with he | ⟨s, _, _, he⟩ | ⟨s, _, _, he⟩
    · exact .inl he
    · exact .inr ⟨_, he, rfl⟩
    · exact .inr ⟨_, he, rfl⟩
  | receiveResponse =>
    obtain ⟨⟨j, p⟩, -, rfl⟩ := Option.map_eq_some_iff.mp h
    refine ⟨(deliver_frame t j p).2.2.1, ?_⟩
    rcases deliver_log t j p with he | ⟨k, he⟩
    · exact .inl he
    · exact .inr ⟨_, he, rfl⟩
  | install | takeSink =>
    simp only [step, Option.ite_none_right_eq_some, Option.some.injEq] at h
    obtain ⟨_, rfl⟩ := h
    exact ⟨rfl, .inl rfl⟩

end Transport

namespace Generation

structure SameChannel (g g' : Generation) : Prop where
  aborted : g'.aborted = g.aborted
  incoming : g'.incoming = g.incoming
  messages : g'.messages = g.messages
  forwarded : g'.forwarded = g.forwarded
  handled : g'.handled = g.handled
  filtered : g'.filtered = g.filtered

structure Beside (g g' : Generation) : Prop where
  channel : SameChannel g g'
  reader : g'.reader = g.reader
  ack : g'.transport.ack = g.transport.ack
  entry : g'.transport.log = g.transport.log ∨
    ∃ e, g'.transport.log = g.transport.log ++ [e] ∧ e.ofReader = false

inductive ReaderStep (g g' : Generation) : Prop where
  | turn : SameChannel g g' → g.reader.message = none → g'.reader.message = none →
      g'.reader ≠ .absent → g'.transport.ack = g.transport.ack →
      (∀ e, e ∈ g.transport.log → e ∈ g'.transport.log) →
      (∀ n q, .acked n q ∈ g'.transport.log ↔ .acked n q ∈ g.transport.log) → ReaderStep g g'
  | notif (n : Nat) (m : IncomingMessage) (p : Packet) : SameChannel g g' → g.reader = .reading →
      g'.reader = .acking n m → p.isRequest = true → serverRequest p = .notifMessage m →
      g'.transport.ack = .sink n (ackPacket p m) →
      g'.transport.log = g.transport.log ++ [.read n p] → ReaderStep g g'
  | acking (n : Nat) (m : IncomingMessage) : SameChannel g g' → g.reader = .acking n m →
      (g'.reader = .acking n m ∧ g'.transport.ack.entry = g.transport.ack.entry) ∨
        (g'.reader = .filtering n m ∧ g'.transport.ack = .idle) →
      (g'.transport.log = g.transport.log ∨ ∃ j q, g.transport.ack.entry = some (j, q) ∧
        g'.transport.log = g.transport.log ++ [.acked j q]) → ReaderStep g g'
  | held (n : Nat) (m : IncomingMessage) : g.reader = .filtering n m →
      isFilteredIncomingMessage m g.ownUserId = true →
      g' = { g with
        reader := .reading
        filtered := g.filtered ++ [(n, m, g.ownUserId)] } → ReaderStep g g'
  | passed (n : Nat) (m : IncomingMessage) : g.reader = .filtering n m →
      isFilteredIncomingMessage m g.ownUserId = false →
      g' = { g with reader := .forwarding n m } → ReaderStep g g'
  | sent (n : Nat) (m : IncomingMessage) : g.reader = .forwarding n m → g.incoming = true →
      g' = { g with
        reader := .reading
        messages := g.messages ++ [(n, m)]
        forwarded := g.forwarded ++ [(n, m)] } → ReaderStep g g'
  | unsent (n : Nat) (m : IncomingMessage) : g.reader = .forwarding n m → g.incoming = false →
      g' = { g with reader := .reading } → ReaderStep g g'
  | aborted : SameChannel g g' → g.aborted = true → g'.reader = .ended →
      g'.transport.ack = .idle → g'.transport.log = g.transport.log → ReaderStep g g'

inductive PipeStep (g g' : Generation) : Prop where
  | beside : Beside g g' → PipeStep g g'
  | spawn : g.reader = .absent → g' = { g with reader := .spawned, incoming := true } →
      PipeStep g g'
  | reader : g.reader.joined = false → ReaderStep g g' → PipeStep g g'
  | recv (x : Nat × IncomingMessage) (rest : List (Nat × IncomingMessage)) :
      g.messages = x :: rest → g.incoming = true →
      g' = { g with messages := rest, handled := g.handled ++ [x] } → PipeStep g g'
  | drop (m : Generation) : Beside g m → g' = m.dropIncoming → PipeStep g g'
  | abortAll : g' = { g with aborted := true } → PipeStep g g'

variable {fromStr : String → Except String Packet} {g g' g'' : Generation}

theorem SameChannel.refl (g : Generation) : SameChannel g g := ⟨rfl, rfl, rfl, rfl, rfl, rfl⟩

theorem Beside.refl (g : Generation) : Beside g g := ⟨.refl g, rfl, rfl, .inl rfl⟩

theorem Beside.log (h : Beside g g') : ∀ e, e ∈ g.transport.log → e ∈ g'.transport.log := by
  intro e he
  rcases h.entry with hl | ⟨d, hl, -⟩ <;> rw [hl]
  · exact he
  · exact List.mem_append_left _ he

theorem Beside.acked (h : Beside g g') (n : Nat) (q : Packet) :
    .acked n q ∈ g'.transport.log ↔ .acked n q ∈ g.transport.log := by
  rcases h.entry with hl | ⟨d, hl, hd⟩ <;> rw [hl]
  rw [List.mem_append, List.mem_singleton, or_iff_left]
  rintro rfl
  cases hd

theorem beside_onTransport {a : TransportAction} (ha : Transport.ofReader a = false)
    (h : g.onTransport a = some g') : Beside g g' := by
  obtain ⟨t, ht, rfl⟩ := onTransport_eq h
  obtain ⟨hack, hlog⟩ := Transport.beside_step ht ha
  exact ⟨⟨rfl, rfl, rfl, rfl, rfl, rfl⟩, rfl, hack, hlog⟩

theorem turn_onFrame {n : Nat} {act : FrameAction} {packet : Option Packet}
    (hact : ∀ m, act ≠ .notifMessage m) (hr : g.reader = .reading)
    (h : g.onFrame n act packet = some g') :
    SameChannel g g' ∧ g'.reader.message = none ∧ g'.reader ≠ .absent ∧
      g'.transport = g.transport := by
  have hmsg : g.reader.message = none := by rw [hr]; rfl
  cases act with
  | notifMessage m => exact absurd rfl (hact m)
  | stop | response =>
    cases packet <;> cases h <;> exact ⟨⟨rfl, rfl, rfl, rfl, rfl, rfl⟩, rfl, nofun, rfl⟩
  | skip | reconnect | notifAttach fileId =>
    cases packet <;> cases h <;>
      exact ⟨⟨rfl, rfl, rfl, rfl, rfl, rfl⟩, hmsg, by simp [cancel, hr], rfl⟩

theorem readTurn_notif {frame : Option Frame} {m : IncomingMessage} {packet : Packet}
    (h : readTurn fromStr frame = (.notifMessage m, some packet)) :
    packet.isRequest = true ∧ serverRequest packet = .notifMessage m := by
  unfold readTurn at h
  split at h
  · cases h
  · split at h
    · cases h
    · cases h
    · split at h
      · cases h
      · rename_i p _
        simp only [Prod.mk.injEq, Option.some.injEq] at h
        obtain ⟨h, rfl⟩ := h
        split at h
        · exact ⟨by assumption, h⟩
        · cases h

theorem reader_frame {frame : Option Frame} (h : g.stepReader fromStr (.frame frame) = some g') :
    ReaderStep g g' := by
  simp only [stepReader] at h
  split at h
  · rename_i hr
    have hmsg : g.reader.message = none := by rw [hr]; rfl
    split at h
    · rename_i act _
      by_cases hact : ∃ m, act = .notifMessage m
      · obtain ⟨m, rfl⟩ := hact
        cases h
      · obtain ⟨hc, hm, ha, ht⟩ := turn_onFrame (fun m he => hact ⟨m, he⟩) hr h
        exact .turn hc hmsg hm ha (by rw [ht]) (fun _ he => by rw [ht]; exact he)
          (fun _ _ => by rw [ht])
    · rename_i act packet hturn
      obtain ⟨g₁, h₁, h⟩ := Option.bind_eq_some_iff.mp h
      obtain ⟨t, ht, rfl⟩ := onTransport_eq h₁
      have hread : t.log = g.transport.log ++ [.read g.transport.reads packet] ∧
          t.ack = g.transport.ack := by
        simp only [Transport.step, Option.ite_none_right_eq_some, Option.some.injEq] at ht
        obtain ⟨_, rfl⟩ := ht
        exact ⟨rfl, rfl⟩
      obtain ⟨hlog, hack⟩ := hread
      by_cases hact : ∃ m, act = .notifMessage m
      · obtain ⟨m, rfl⟩ := hact
        obtain ⟨hreq, hserver⟩ := readTurn_notif hturn
        obtain ⟨g₂, h₂, rfl⟩ := Option.map_eq_some_iff.mp h
        obtain ⟨t', ht', rfl⟩ := onTransport_eq h₂
        replace ht' : t.stepAck (.start g.transport.reads (ackPacket packet m)) = some t' := ht'
        simp only [Transport.stepAck] at ht'
        split at ht' <;> cases ht'
        exact .notif g.transport.reads m packet ⟨rfl, rfl, rfl, rfl, rfl, rfl⟩ hr rfl hreq hserver
          rfl hlog
      · obtain ⟨hc, hm, ha, ht'⟩ := turn_onFrame (fun m he => hact ⟨m, he⟩)
          (g := { g with transport := t }) hr h
        refine .turn ⟨hc.aborted, hc.incoming, hc.messages, hc.forwarded, hc.handled, hc.filtered⟩
          hmsg hm ha (by rw [ht']; exact hack) (fun e he => ?_) fun n q => ?_
        · rw [ht', hlog]
          exact List.mem_append_left _ he
        · rw [ht', hlog]
          simp
  · cases h

theorem reader_step {a : ReaderAction} (h : g.stepReader fromStr a = some g') :
    ReaderStep g g' := by
  cases a with
  | frame frame => exact reader_frame h
  | start =>
    simp only [stepReader] at h
    split at h <;> cases h
    rename_i hr
    exact .turn ⟨rfl, rfl, rfl, rfl, rfl, rfl⟩ (by rw [hr]; rfl) rfl (by simp) rfl (fun _ => id)
      (fun _ _ => Iff.rfl)
  | received =>
    simp only [stepReader] at h
    split at h
    · rename_i hr
      obtain ⟨m, hm, rfl⟩ := Option.map_eq_some_iff.mp h
      have hb := beside_onTransport rfl hm
      exact .turn ⟨hb.channel.aborted, hb.channel.incoming, hb.channel.messages,
        hb.channel.forwarded, hb.channel.handled, hb.channel.filtered⟩ (by rw [hr]; rfl) rfl
        (by simp)
        hb.ack hb.log hb.acked
    · cases h
  | ack a =>
    simp only [stepReader] at h
    split at h
    · rename_i n m hr
      split at h
      · rename_i ha
        obtain ⟨g₁, h₁, rfl⟩ := Option.map_eq_some_iff.mp h
        obtain ⟨t, ht, rfl⟩ := onTransport_eq h₁
        obtain ⟨hentry, hlog⟩ := Transport.stepAck_entry ht ha
        by_cases hidle : t.ack.isIdle = true
        · rw [if_pos hidle]
          have hi : t.ack = .idle := by
            cases hta : t.ack <;> simp [hta, AckPc.isIdle] at hidle ⊢
          exact .acking n m ⟨rfl, rfl, rfl, rfl, rfl, rfl⟩ hr (.inr ⟨rfl, hi⟩) hlog
        · rw [if_neg hidle]
          refine .acking n m ⟨rfl, rfl, rfl, rfl, rfl, rfl⟩ hr (.inl ⟨hr, ?_⟩) hlog
          exact hentry.resolve_right fun hi => hidle (by rw [hi]; rfl)
      · cases h
    · cases h
  | filter =>
    simp only [stepReader] at h
    split at h
    · rename_i n m hr
      split at h
      · cases h
        exact .held n m hr (by assumption) rfl
      · rename_i hf
        cases h
        exact .passed n m hr (by simpa using hf) rfl
    · cases h
  | forward =>
    simp only [stepReader] at h
    split at h
    · rename_i n m hr
      split at h
      · cases h
        exact .sent n m hr (by assumption) rfl
      · rename_i hin
        cases h
        exact .unsent n m hr (by simpa using hin) rfl
    · cases h
  | abort =>
    simp only [stepReader] at h
    split at h
    · rename_i hab
      simp only [Bool.and_eq_true] at hab
      obtain ⟨g₁, h₁, h⟩ := Option.bind_eq_some_iff.mp h
      obtain ⟨g₂, h₂, rfl⟩ := Option.map_eq_some_iff.mp h
      obtain ⟨t, ht, rfl⟩ := onTransport_eq h₁
      obtain ⟨t', ht', rfl⟩ := onTransport_eq h₂
      cases ht
      cases ht'
      split <;> exact .aborted ⟨rfl, rfl, rfl, rfl, rfl, rfl⟩ hab.1 rfl rfl rfl
    · cases h

theorem beside_stepInvoke {k : CallId} {a : InvokeAction} (h : g.stepInvoke k a = some g') :
    Beside g g' := by
  have hdrop : Beside g { g with transport := g.transport.dropCall k } := by
    unfold Transport.dropCall
    cases hs : g.transport.step (.call k .drop) with
    | none => exact .refl g
    | some t => exact beside_onTransport (a := .call k .drop) rfl (by simp [onTransport, hs])
  have set : ∀ {m : Generation} {i b}, Beside g m →
      Beside g { m.setInvoke k i with cancelled := b } := fun hb =>
    ⟨⟨hb.channel.aborted, hb.channel.incoming, hb.channel.messages, hb.channel.forwarded,
      hb.channel.handled, hb.channel.filtered⟩, hb.reader, hb.ack, hb.entry⟩
  rcases stepInvoke_cases h with ⟨-, -, -, rfl⟩ | ⟨-, -, -, rfl⟩ | ⟨-, -, -, rfl⟩ |
    ⟨b, t, -, -, -, ht, rfl⟩ | ⟨r, -, -, -, rfl⟩ | ⟨-, -, rfl⟩
  · exact set hdrop
  · exact set (.refl g)
  · exact set (.refl g)
  · exact beside_onTransport (a := .call k b) rfl (by simp [onTransport, ht])
  · exact set (.refl g)
  · exact set hdrop

theorem beside_invoke {opcode : Nat} {payload : Value} (h : g.invoke opcode payload = some g') :
    Beside g g' := by
  obtain ⟨m, hm, rfl⟩ := Option.map_eq_some_iff.mp h
  have hb := beside_onTransport rfl hm
  exact ⟨⟨hb.channel.aborted, hb.channel.incoming, hb.channel.messages, hb.channel.forwarded,
    hb.channel.handled, hb.channel.filtered⟩, hb.reader, hb.ack, hb.entry⟩

theorem beside_stepKeepalive {a : KeepaliveAction} (h : g.stepKeepalive a = some g') :
    Beside g g' := by
  have same : ∀ {m m' : Generation}, Beside g m → m'.transport = m.transport →
      SameChannel m m' → m'.reader = m.reader → Beside g m' := by
    intro m m' hb ht hc hr
    obtain ⟨⟨h₁, h₂, h₃, h₄, h₅, h₆⟩, hr', ha, hl⟩ := hb
    obtain ⟨e₁, e₂, e₃, e₄, e₅, e₆⟩ := hc
    exact ⟨⟨e₁.trans h₁, e₂.trans h₂, e₃.trans h₃, e₄.trans h₄, e₅.trans h₅, e₆.trans h₆⟩,
      hr.trans hr', by rw [ht, ha], by rw [ht]; exact hl⟩
  have end_ : ∀ {m : Generation}, SameChannel m m.endKeepalive := ⟨rfl, rfl, rfl, rfl, rfl, rfl⟩
  cases a with
  | start =>
    simp only [stepKeepalive] at h
    split at h <;> cases h
    exact same (.refl g) rfl ⟨rfl, rfl, rfl, rfl, rfl, rfl⟩ rfl
  | tick =>
    simp only [stepKeepalive] at h
    split at h
    · obtain ⟨m, hm, rfl⟩ := Option.map_eq_some_iff.mp h
      exact same (beside_invoke hm) rfl ⟨rfl, rfl, rfl, rfl, rfl, rfl⟩ rfl
    · cases h
  | ping b =>
    simp only [stepKeepalive] at h
    split at h
    · cases h
    · exact beside_stepInvoke h
    · cases h
  | pinged =>
    simp only [stepKeepalive] at h
    split at h
    · split at h <;> cases h
      · exact same (.refl g) rfl ⟨rfl, rfl, rfl, rfl, rfl, rfl⟩ rfl
      · exact same (.refl g) rfl end_ rfl
    · cases h
  | abort =>
    simp only [stepKeepalive] at h
    split at h
    · split at h
      · cases h
        exact same (.refl g) rfl ⟨rfl, rfl, rfl, rfl, rfl, rfl⟩ rfl
      · cases h
        exact same (.refl g) rfl end_ rfl
      · obtain ⟨m, hm, rfl⟩ := Option.map_eq_some_iff.mp h
        exact same (beside_stepInvoke hm) rfl end_ rfl
      · cases h
    · cases h

theorem pipe_step {a : GenerationAction} (h : g.step fromStr a = some g') : PipeStep g g' := by
  cases a with
  | invoke opcode payload => exact .beside (beside_invoke h)
  | onInvoke k b => exact .beside (beside_stepInvoke h)
  | reader b =>
    obtain ⟨hn, he, -⟩ := readerFrame_stepReader h
    refine .reader ?_ (reader_step h)
    cases hr : g.reader <;> first | rfl | exact absurd hr hn | exact absurd hr he
  | keepalive b => exact .beside (beside_stepKeepalive h)
  | install | clear | takeSink => exact .beside (beside_onTransport rfl h)
  | spawnReader =>
    simp only [step] at h
    split at h <;> cases h
    exact .spawn (by assumption) rfl
  | spawnKeepalive =>
    simp only [step] at h
    split at h <;> cases h
    exact .beside ⟨⟨rfl, rfl, rfl, rfl, rfl, rfl⟩, rfl, rfl, .inl rfl⟩
  | setOwnUserId id | register fileId | dropWaiter w | cancel =>
    cases h
    exact .beside ⟨⟨rfl, rfl, rfl, rfl, rfl, rfl⟩, rfl, rfl, .inl rfl⟩
  | recv =>
    simp only [step] at h
    split at h
    · split at h <;> cases h
      exact .recv _ _ (by assumption) (by assumption) rfl
    · cases h
  | dropAttempt waiting =>
    cases waiting with
    | none =>
      cases h
      exact .drop g (.refl g) rfl
    | some k =>
      obtain ⟨m, hm, rfl⟩ := Option.map_eq_some_iff.mp h
      exact .drop m (beside_stepInvoke hm) rfl
  | abortAll =>
    cases h
    exact .abortAll rfl

/-- Where a message is whose acknowledgement has been written: with the reader, with the
filter, in the channel or past it, or lost with the attempt. -/
def Fate (g : Generation) (n : Nat) (m : IncomingMessage) : Prop :=
  g.reader.message = some (n, m) ∨
  (∃ own, (n, m, own) ∈ g.filtered ∧ isFilteredIncomingMessage m own = true) ∨
  (n, m) ∈ g.forwarded ∨ g.aborted = true ∨ (g.incoming = false ∧ g.reader ≠ .absent)

structure PipelineInv (g : Generation) : Prop where
  ack : ∀ n q, g.transport.ack.entry = some (n, q) →
    ∃ m, g.reader = .acking n m ∧ Brought g.transport.log n m q
  message : ∀ n m, g.reader.message = some (n, m) → ∃ q, Brought g.transport.log n m q
  acked : ∀ n q, .acked n q ∈ g.transport.log →
    ∃ m, Brought g.transport.log n m q ∧ Fate g n m
  forwarding : ∀ n m, g.reader = .forwarding n m → m.sender ≠ SECURITY_SERVICE_USER_ID
  forwarded : ∀ n m, (n, m) ∈ g.forwarded →
    m.sender ≠ SECURITY_SERVICE_USER_ID ∧ ∃ q, Brought g.transport.log n m q
  channel : g.incoming = true → g.forwarded = g.handled ++ g.messages
  handled : g.handled <+: g.forwarded
  fresh : g.reader = .absent → g.forwarded = [] ∧ g.messages = []

theorem pipelineInv_new (b : Bool) : PipelineInv (new b) := by
  refine ⟨fun n q h => ?_, fun n m h => ?_, fun n q h => ?_, fun n m h => ?_, fun n m h => ?_,
    fun _ => rfl, List.prefix_refl _, fun _ => ⟨rfl, rfl⟩⟩
  · cases h
  · cases h
  · cases h
  · cases h
  · cases h

theorem Fate.mono {n : Nat} {m : IncomingMessage} (h : Fate g n m)
    (hm : g.reader.message = some (n, m) → Fate g' n m) (ha : g.aborted = true → g'.aborted = true)
    (hf : ∀ x, x ∈ g.filtered → x ∈ g'.filtered) (hw : ∀ x, x ∈ g.forwarded → x ∈ g'.forwarded)
    (hin : g.incoming = false → g.reader ≠ .absent → g'.incoming = false ∧ g'.reader ≠ .absent) :
    Fate g' n m := by
  rcases h with h | ⟨own, h, hown⟩ | h | h | ⟨h, hr⟩
  · exact hm h
  · exact .inr (.inl ⟨own, hf _ h, hown⟩)
  · exact .inr (.inr (.inl (hw _ h)))
  · exact .inr (.inr (.inr (.inl (ha h))))
  · exact .inr (.inr (.inr (.inr (hin h hr))))

theorem PipelineInv.of_channel (hi : PipelineInv g) (hc : SameChannel g g')
    (hl : ∀ e, e ∈ g.transport.log → e ∈ g'.transport.log)
    (hack : ∀ n q, g'.transport.ack.entry = some (n, q) →
      ∃ m, g'.reader = .acking n m ∧ Brought g'.transport.log n m q)
    (hmsg : ∀ n m, g'.reader.message = some (n, m) → ∃ q, Brought g'.transport.log n m q)
    (hacked : ∀ n q, .acked n q ∈ g'.transport.log →
      ∃ m, Brought g'.transport.log n m q ∧ Fate g' n m)
    (hfwd : ∀ n m, g'.reader = .forwarding n m → m.sender ≠ SECURITY_SERVICE_USER_ID)
    (hr : g'.reader = .absent → g.reader = .absent) : PipelineInv g' := by
  refine ⟨hack, hmsg, hacked, hfwd, fun n m h => ?_, ?_, ?_, fun h => ?_⟩
  · obtain ⟨hs, q, hb⟩ := hi.forwarded n m (hc.forwarded ▸ h)
    exact ⟨hs, q, hb.mono hl⟩
  · rw [hc.incoming, hc.messages, hc.forwarded, hc.handled]
    exact hi.channel
  · rw [hc.forwarded, hc.handled]
    exact hi.handled
  · rw [hc.forwarded, hc.messages]
    exact hi.fresh (hr h)

theorem SameChannel.fate {n : Nat} {m : IncomingMessage} (hc : SameChannel g g')
    (h : Fate g n m) (hm : g.reader.message = some (n, m) → Fate g' n m)
    (hn : g'.reader ≠ .absent) : Fate g' n m :=
  h.mono hm (fun h => hc.aborted ▸ h) (fun _ h => hc.filtered ▸ h) (fun _ h => hc.forwarded ▸ h)
    fun h _ => ⟨hc.incoming.trans h, hn⟩

theorem PipelineInv.beside (hi : PipelineInv g) (h : Beside g g') : PipelineInv g' := by
  have hc := h.channel
  refine hi.of_channel hc h.log (fun n q hq => ?_) (fun n m hm => ?_) (fun n q hq => ?_)
    (fun n m hm => hi.forwarding n m (h.reader ▸ hm)) fun hr => h.reader ▸ hr
  · obtain ⟨m, hm, hb⟩ := hi.ack n q (h.ack ▸ hq)
    exact ⟨m, h.reader.trans hm, hb.mono h.log⟩
  · obtain ⟨q, hb⟩ := hi.message n m (h.reader ▸ hm)
    exact ⟨q, hb.mono h.log⟩
  · obtain ⟨m, hb, hf⟩ := hi.acked n q ((h.acked n q).mp hq)
    refine ⟨m, hb.mono h.log, ?_⟩
    simpa only [Fate, hc.aborted, hc.incoming, hc.forwarded, hc.filtered, h.reader] using hf

theorem PipelineInv.ack_none (hi : PipelineInv g) (hr : ∀ n m, g.reader ≠ .acking n m) {n : Nat}
    {q : Packet} : g.transport.ack.entry ≠ some (n, q) := fun hq => by
  obtain ⟨m, hm, -⟩ := hi.ack n q hq
  exact hr n m hm

/-- What becomes of the message in the reader's hand settles the acknowledged ones. -/
theorem PipelineInv.acked_of_fate {n : Nat} {m : IncomingMessage} (hi : PipelineInv g)
    (hr : g.reader.message = some (n, m)) (hfate : Fate g' n m)
    (hlog : g'.transport.log = g.transport.log) (ha : g.aborted = true → g'.aborted = true)
    (hf : ∀ x, x ∈ g.filtered → x ∈ g'.filtered) (hw : ∀ x, x ∈ g.forwarded → x ∈ g'.forwarded)
    (hin : g.incoming = false → g'.incoming = false) (hn : g'.reader ≠ .absent) (j : Nat)
    (q : Packet) (hq : .acked j q ∈ g'.transport.log) :
    ∃ x, Brought g'.transport.log j x q ∧ Fate g' j x := by
  rw [hlog] at hq ⊢
  obtain ⟨x, hx, hfx⟩ := hi.acked j q hq
  refine ⟨x, hx, hfx.mono (fun hm => ?_) ha hf hw fun h _ => ⟨hin h, hn⟩⟩
  cases hr.symm.trans hm
  exact hfate

theorem pipelineInv_turn (hi : PipelineInv g) (hc : SameChannel g g')
    (h₀ : g.reader.message = none) (h₁ : g'.reader.message = none) (hn : g'.reader ≠ .absent)
    (ha : g'.transport.ack = g.transport.ack)
    (hl : ∀ e, e ∈ g.transport.log → e ∈ g'.transport.log)
    (hk : ∀ n q, .acked n q ∈ g'.transport.log ↔ .acked n q ∈ g.transport.log) :
    PipelineInv g' := by
  refine hi.of_channel hc hl (fun n q hq => ?_) (fun n m hm => ?_) (fun n q hq => ?_)
    (fun n m hm => ?_) fun h => absurd h hn
  · obtain ⟨m, hm, -⟩ := hi.ack n q (ha ▸ hq)
    rw [hm] at h₀
    cases h₀
  · rw [h₁] at hm
    cases hm
  · obtain ⟨m, hb, hf⟩ := hi.acked n q ((hk n q).mp hq)
    refine ⟨m, hb.mono hl, hc.fate hf (fun hm => ?_) hn⟩
    rw [h₀] at hm
    cases hm
  · rw [hm] at h₁
    cases h₁

theorem pipelineInv_notif {n : Nat} {m : IncomingMessage} {p : Packet} (hi : PipelineInv g)
    (hc : SameChannel g g') (hr : g.reader = .reading) (hr' : g'.reader = .acking n m)
    (hreq : p.isRequest = true) (hserver : serverRequest p = .notifMessage m)
    (ha : g'.transport.ack = .sink n (ackPacket p m))
    (hlog : g'.transport.log = g.transport.log ++ [.read n p]) : PipelineInv g' := by
  have hl : ∀ e, e ∈ g.transport.log → e ∈ g'.transport.log := fun e he => by
    rw [hlog]
    exact List.mem_append_left _ he
  have hb : Brought g'.transport.log n m (ackPacket p m) := ⟨p, by simp [hlog], hreq, hserver, rfl⟩
  refine hi.of_channel hc hl (fun j q hq => ?_) (fun j x hx => ?_) (fun j q hq => ?_)
    (fun j x hx => ?_) (by simp [hr'])
  · rw [ha] at hq
    cases hq
    exact ⟨m, hr', hb⟩
  · rw [hr'] at hx
    cases hx
    exact ⟨_, hb⟩
  · have hq' : .acked j q ∈ g.transport.log := by simpa [hlog] using hq
    obtain ⟨x, hx, hf⟩ := hi.acked j q hq'
    refine ⟨x, hx.mono hl, hc.fate hf (fun hm => ?_) (by simp [hr'])⟩
    rw [hr] at hm
    cases hm
  · rw [hr'] at hx
    cases hx

theorem pipelineInv_acking {n : Nat} {m : IncomingMessage} (hi : PipelineInv g)
    (hc : SameChannel g g') (hr : g.reader = .acking n m)
    (hr' : (g'.reader = .acking n m ∧ g'.transport.ack.entry = g.transport.ack.entry) ∨
      (g'.reader = .filtering n m ∧ g'.transport.ack = .idle))
    (hlog : g'.transport.log = g.transport.log ∨ ∃ j q, g.transport.ack.entry = some (j, q) ∧
      g'.transport.log = g.transport.log ++ [.acked j q]) : PipelineInv g' := by
  have hl : ∀ e, e ∈ g.transport.log → e ∈ g'.transport.log := fun e he => by
    rcases hlog with h | ⟨_, _, _, h⟩ <;> rw [h]
    · exact he
    · exact List.mem_append_left _ he
  have hmsg : g'.reader.message = some (n, m) := by
    rcases hr' with ⟨h, -⟩ | ⟨h, -⟩ <;> rw [h] <;> rfl
  have hn : g'.reader ≠ .absent := fun h => by simp [h, ReaderPc.message] at hmsg
  have hold : ∀ {j q}, .acked j q ∈ g.transport.log →
      ∃ x, Brought g'.transport.log j x q ∧ Fate g' j x := by
    intro j q hq
    obtain ⟨x, hx, hf⟩ := hi.acked j q hq
    refine ⟨x, hx.mono hl, hc.fate hf (fun hm => ?_) hn⟩
    rw [hr] at hm
    cases hm
    exact .inl hmsg
  refine hi.of_channel hc hl (fun j q hq => ?_) (fun j x hx => ?_) (fun j q hq => ?_)
    (fun j x hx => ?_) fun h => absurd h hn
  · rcases hr' with ⟨h, he⟩ | ⟨-, he⟩
    · obtain ⟨x, hx, hb⟩ := hi.ack j q (he ▸ hq)
      cases hr.symm.trans hx
      exact ⟨m, h, hb.mono hl⟩
    · rw [he] at hq
      cases hq
  · cases hmsg.symm.trans hx
    obtain ⟨q, hb⟩ := hi.message n m (by rw [hr]; rfl)
    exact ⟨q, hb.mono hl⟩
  · rcases hlog with h | ⟨i, x, he, h⟩
    · exact hold (h ▸ hq)
    · rw [h] at hq
      rcases List.mem_append.mp hq with hq | hq
      · exact hold hq
      · cases List.mem_singleton.mp hq
        obtain ⟨y, hy, hb⟩ := hi.ack j q he
        cases hr.symm.trans hy
        exact ⟨m, hb.mono hl, .inl hmsg⟩
  · rcases hr' with ⟨h, -⟩ | ⟨h, -⟩ <;> cases hx.symm.trans h

theorem pipelineInv_held {n : Nat} {m : IncomingMessage} (hi : PipelineInv g)
    (hr : g.reader = .filtering n m) (hfil : isFilteredIncomingMessage m g.ownUserId = true) :
    PipelineInv { g with reader := .reading, filtered := g.filtered ++ [(n, m, g.ownUserId)] } :=
  ⟨fun _ _ hq => absurd hq (hi.ack_none (by simp [hr])), nofun,
    hi.acked_of_fate (by rw [hr]; rfl) (.inr (.inl ⟨g.ownUserId, by simp, hfil⟩)) rfl id
      (fun _ => List.mem_append_left _) (fun _ => id) id nofun,
    nofun, hi.forwarded, hi.channel, hi.handled, nofun⟩

theorem pipelineInv_passed {n : Nat} {m : IncomingMessage} (hi : PipelineInv g)
    (hr : g.reader = .filtering n m) (hfil : isFilteredIncomingMessage m g.ownUserId = false) :
    PipelineInv { g with reader := .forwarding n m } := by
  refine ⟨fun _ _ hq => absurd hq (hi.ack_none (by simp [hr])), fun j x hx => ?_,
    hi.acked_of_fate (by rw [hr]; rfl) (.inl rfl) rfl id (fun _ => id) (fun _ => id) id nofun,
    fun j x hx => ?_, hi.forwarded, hi.channel, hi.handled, nofun⟩
  · cases hx
    exact hi.message n m (by rw [hr]; rfl)
  · cases hx
    rintro hsec
    rw [isFiltered_security _ hsec] at hfil
    cases hfil

theorem pipelineInv_sent {n : Nat} {m : IncomingMessage} (hi : PipelineInv g)
    (hr : g.reader = .forwarding n m) (hin : g.incoming = true) :
    PipelineInv { g with
      reader := .reading
      messages := g.messages ++ [(n, m)]
      forwarded := g.forwarded ++ [(n, m)] } := by
  refine ⟨fun _ _ hq => absurd hq (hi.ack_none (by simp [hr])), nofun,
    hi.acked_of_fate (by rw [hr]; rfl) (.inr (.inr (.inl (by simp)))) rfl id (fun _ => id)
      (fun _ => List.mem_append_left _) id nofun,
    nofun, fun j x hx => ?_, fun _ => ?_, hi.handled.trans (List.prefix_append _ _), nofun⟩
  · rcases List.mem_append.mp hx with hx | hx
    · exact hi.forwarded j x hx
    · cases List.mem_singleton.mp hx
      exact ⟨hi.forwarding n m hr, hi.message n m (by rw [hr]; rfl)⟩
  · show g.forwarded ++ _ = g.handled ++ (g.messages ++ _)
    rw [hi.channel hin, List.append_assoc]

theorem pipelineInv_unsent {n : Nat} {m : IncomingMessage} (hi : PipelineInv g)
    (hr : g.reader = .forwarding n m) (hin : g.incoming = false) :
    PipelineInv { g with reader := .reading } :=
  ⟨fun _ _ hq => absurd hq (hi.ack_none (by simp [hr])), nofun,
    hi.acked_of_fate (by rw [hr]; rfl) (.inr (.inr (.inr (.inr ⟨hin, nofun⟩)))) rfl id
      (fun _ => id) (fun _ => id) id nofun,
    nofun, hi.forwarded, hi.channel, hi.handled, nofun⟩

theorem pipelineInv_aborted (hi : PipelineInv g) (hc : SameChannel g g') (hab : g.aborted = true)
    (hr : g'.reader = .ended) (ha : g'.transport.ack = .idle)
    (hlog : g'.transport.log = g.transport.log) : PipelineInv g' := by
  refine hi.of_channel hc (fun e he => by rw [hlog]; exact he) (fun j q hq => ?_)
    (fun j x hx => ?_) (fun j q hq => ?_) (fun j x hx => ?_) (by simp [hr])
  · rw [ha] at hq
    cases hq
  · rw [hr] at hx
    cases hx
  · obtain ⟨x, hx, -⟩ := hi.acked j q (hlog ▸ hq)
    exact ⟨x, hlog ▸ hx, .inr (.inr (.inr (.inl (hc.aborted.trans hab))))⟩
  · rw [hr] at hx
    cases hx

theorem pipelineInv_reader (h : ReaderStep g g') (hi : PipelineInv g) : PipelineInv g' := by
  cases h with
  | turn hc h₀ h₁ hn ha hl hk => exact pipelineInv_turn hi hc h₀ h₁ hn ha hl hk
  | notif n m p hc hr hr' hreq hserver ha hlog =>
    exact pipelineInv_notif hi hc hr hr' hreq hserver ha hlog
  | acking n m hc hr hr' hlog => exact pipelineInv_acking hi hc hr hr' hlog
  | held n m hr hfil hs =>
    subst hs
    exact pipelineInv_held hi hr hfil
  | passed n m hr hfil hs =>
    subst hs
    exact pipelineInv_passed hi hr hfil
  | sent n m hr hin hs =>
    subst hs
    exact pipelineInv_sent hi hr hin
  | unsent n m hr hin hs =>
    subst hs
    exact pipelineInv_unsent hi hr hin
  | aborted hc hab hr ha hlog => exact pipelineInv_aborted hi hc hab hr ha hlog

theorem pipelineInv_step (h : PipeStep g g') (hi : PipelineInv g) : PipelineInv g' := by
  cases h with
  | beside hb => exact hi.beside hb
  | reader hn hr => exact pipelineInv_reader hr hi
  | spawn hr hs =>
    subst hs
    refine ⟨fun n q hq => ?_, nofun, fun n q hq => ?_, nofun, hi.forwarded, fun _ => ?_,
      hi.handled, nofun⟩
    · obtain ⟨m, hm, -⟩ := hi.ack n q hq
      cases hr.symm.trans hm
    · obtain ⟨m, hm, hf⟩ := hi.acked n q hq
      refine ⟨m, hm, hf.mono (fun h => ?_) id (fun _ => id) (fun _ => id)
        fun _ h => absurd hr h⟩
      rw [hr] at h
      cases h
    · obtain ⟨hf, hm⟩ := hi.fresh hr
      have hh := hi.handled
      rw [hf] at hh
      show g.forwarded = g.handled ++ g.messages
      rw [hf, hm, List.prefix_nil.mp hh]
      rfl
  | recv x rest hm hin hs =>
    subst hs
    have hch := hi.channel hin
    refine ⟨hi.ack, hi.message, hi.acked, hi.forwarding, hi.forwarded, fun _ => ?_, ?_,
      fun hr => ?_⟩
    · show g.forwarded = (g.handled ++ [x]) ++ rest
      rw [hch, hm, List.append_assoc, List.singleton_append]
    · show g.handled ++ [x] <+: g.forwarded
      rw [hch, hm]
      exact ⟨rest, by simp⟩
    · have hne := (hi.fresh hr).2
      rw [hm] at hne
      cases hne
  | drop m hb hs =>
    subst hs
    have hm := hi.beside hb
    refine ⟨hm.ack, hm.message, fun n q hq => ?_, hm.forwarding, hm.forwarded, nofun, hm.handled,
      fun hr => ⟨(hm.fresh hr).1, rfl⟩⟩
    obtain ⟨x, hx, hf⟩ := hm.acked n q hq
    exact ⟨x, hx, hf.mono .inl id (fun _ => id) (fun _ => id) fun _ hn => ⟨rfl, hn⟩⟩
  | abortAll hs =>
    subst hs
    refine ⟨hi.ack, hi.message, fun n q hq => ?_, hi.forwarding, hi.forwarded, hi.channel,
      hi.handled, hi.fresh⟩
    obtain ⟨x, hx, -⟩ := hi.acked n q hq
    exact ⟨x, hx, .inr (.inr (.inr (.inl rfl)))⟩

theorem pipelineInv_of_reachable (h : (automaton fromStr).Reachable g) : PipelineInv g :=
  h.invariant (fun _ ⟨b, hb⟩ => hb ▸ pipelineInv_new b)
    fun _ _ _ hs => pipelineInv_step (pipe_step hs)

end Generation

end Maxrs
