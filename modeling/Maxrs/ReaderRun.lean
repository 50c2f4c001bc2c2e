import Maxrs.Kit.Observe
import Maxrs.Notifications
import Maxrs.Pipeline
set_option autoImplicit false

/-! How far a run of the reader has come in the frames that it was given. -/
namespace Maxrs

variable {fromStr : String → Except String Packet} {frame : Option Frame}

def TransportAction.isReaders : TransportAction → Bool
  | .ack _ | .read _ | .receiveResponse | .abandon => true
  | _ => false

theorem Transport.receiving_step {t t' : Transport} {a : TransportAction}
    (h : t.step a = some t') (ha : a.isReaders = false) :
    t'.ack = t.ack ∧ t'.receiving = t.receiving := by
  cases a with
  | start opcode payload | clear =>
    cases h
    exact ⟨rfl, rfl⟩
  | call k b =>
    obtain ⟨c, -, h⟩ := Option.bind_eq_some_iff.mp h
    obtain ⟨c', hs⟩ := stepCall_callStep h
    exact ⟨hs.ack, hs.receiving⟩
  | install | takeSink =>
    simp only [step, Option.ite_none_right_eq_some, Option.some.injEq] at h
    obtain ⟨_, rfl⟩ := h
    exact ⟨rfl, rfl⟩
  | ack b | read p | receiveResponse | abandon => cases ha

namespace Generation

variable {g g' : Generation} {acts : List GenerationAction}

structure Aside (g g' : Generation) : Prop where
  reader : g'.reader = g.reader
  ack : g'.transport.ack = g.transport.ack
  receiving : g'.transport.receiving = g.transport.receiving
  forwarded : g'.forwarded = g.forwarded
  incoming : g'.incoming = true → g.incoming = true

theorem aside_onTransport {a : TransportAction} (ha : a.isReaders = false)
    (h : g.onTransport a = some g') : Aside g g' := by
  obtain ⟨t, ht, rfl⟩ := onTransport_eq h
  obtain ⟨hack, hrec⟩ := Transport.receiving_step ht ha
  exact ⟨rfl, hack, hrec, rfl, id⟩

theorem aside_invoke {opcode : Nat} {payload : Value} (h : g.invoke opcode payload = some g') :
    Aside g g' := by
  obtain ⟨m, hm, rfl⟩ := Option.map_eq_some_iff.mp h
  have hb := aside_onTransport rfl hm
  exact ⟨hb.reader, hb.ack, hb.receiving, hb.forwarded, hb.incoming⟩

theorem dropCall_aside (t : Transport) (k : CallId) :
    (t.dropCall k).ack = t.ack ∧ (t.dropCall k).receiving = t.receiving := by
  unfold Transport.dropCall
  cases h : t.step (.call k .drop) with
  | none => exact ⟨rfl, rfl⟩
  | some t' => exact Transport.receiving_step h rfl

theorem aside_stepInvoke {k : CallId} {a : InvokeAction} (h : g.stepInvoke k a = some g') :
    Aside g g' := by
  obtain ⟨hack, hrec⟩ := dropCall_aside g.transport k
  rcases stepInvoke_cases h with ⟨-, -, -, rfl⟩ | ⟨-, -, -, rfl⟩ | ⟨-, -, -, rfl⟩ |
    ⟨b, t, -, -, -, ht, rfl⟩ | ⟨r, -, -, -, rfl⟩ | ⟨-, -, rfl⟩
  · exact ⟨rfl, hack, hrec, rfl, id⟩
  · exact ⟨rfl, rfl, rfl, rfl, id⟩
  · exact ⟨rfl, rfl, rfl, rfl, id⟩
  · obtain ⟨ha, hr⟩ := Transport.receiving_step ht rfl
    exact ⟨rfl, ha, hr, rfl, id⟩
  · exact ⟨rfl, rfl, rfl, rfl, id⟩
  · exact ⟨rfl, hack, hrec, rfl, id⟩

theorem aside_stepKeepalive {a : KeepaliveAction} (h : g.stepKeepalive a = some g') :
    Aside g g' := by
  cases a with
  | start =>
    simp only [stepKeepalive] at h
    split at h <;> cases h
    exact ⟨rfl, rfl, rfl, rfl, id⟩
  | tick =>
    simp only [stepKeepalive] at h
    split at h
    · obtain ⟨m, hm, rfl⟩ := Option.map_eq_some_iff.mp h
      have hb := aside_invoke hm
      exact ⟨hb.reader, hb.ack, hb.receiving, hb.forwarded, hb.incoming⟩
    · cases h
  | ping b =>
    simp only [stepKeepalive] at h
    split at h
    · cases h
    · exact aside_stepInvoke h
    · cases h
  | pinged =>
    simp only [stepKeepalive] at h
    split at h
    · split at h <;> cases h <;> exact ⟨rfl, rfl, rfl, rfl, id⟩
    · cases h
  | abort =>
    simp only [stepKeepalive] at h
    split at h
    · split at h
      · cases h
        exact ⟨rfl, rfl, rfl, rfl, id⟩
      · cases h
        exact ⟨rfl, rfl, rfl, rfl, id⟩
      · obtain ⟨m, hm, rfl⟩ := Option.map_eq_some_iff.mp h
        have hb := aside_stepInvoke hm
        exact ⟨hb.reader, hb.ack, hb.receiving, hb.forwarded, hb.incoming⟩
      · cases h
    · cases h

theorem aside_step {a : GenerationAction} (h : g.step fromStr a = some g') :
    (∃ b, a = .reader b) ∨ (a = .spawnReader ∧ g.reader = .absent ∧
      g' = { g with reader := .spawned, incoming := true }) ∨
    (a ≠ .spawnReader ∧ (∀ b, a ≠ .reader b) ∧ Aside g g') := by
  cases a with
  | reader b => exact .inl ⟨b, rfl⟩
  | spawnReader =>
    simp only [step] at h
    split at h <;> cases h
    exact .inr (.inl ⟨rfl, by assumption, rfl⟩)
  | invoke opcode payload => exact .inr (.inr ⟨by simp, by simp, aside_invoke h⟩)
  | onInvoke k b => exact .inr (.inr ⟨by simp, by simp, aside_stepInvoke h⟩)
  | keepalive b => exact .inr (.inr ⟨by simp, by simp, aside_stepKeepalive h⟩)
  | install | clear | takeSink =>
    exact .inr (.inr ⟨by simp, by simp, aside_onTransport rfl h⟩)
  | spawnKeepalive =>
    simp only [step] at h
    split at h <;> cases h
    exact .inr (.inr ⟨by simp, by simp, rfl, rfl, rfl, rfl, id⟩)
  | setOwnUserId id' | register fileId | dropWaiter w | cancel | abortAll =>
    cases h
    exact .inr (.inr ⟨by simp, by simp, rfl, rfl, rfl, rfl, id⟩)
  | recv =>
    simp only [step] at h
    split at h
    · split at h <;> cases h
      exact .inr (.inr ⟨by simp, by simp, rfl, rfl, rfl, rfl, id⟩)
    · cases h
  | dropAttempt waiting =>
    refine .inr (.inr ⟨by simp, by simp, ?_⟩)
    cases waiting with
    | none =>
      cases h
      exact ⟨rfl, rfl, rfl, rfl, by simp [dropIncoming]⟩
    | some k =>
      obtain ⟨m, hm, rfl⟩ := Option.map_eq_some_iff.mp h
      have hb := aside_stepInvoke hm
      exact ⟨hb.reader, hb.ack, hb.receiving, hb.forwarded, by simp [dropIncoming]⟩

inductive FrameStep (fromStr : String → Except String Packet) (frame : Option Frame)
    (g g' : Generation) : Prop where
  | stopped (hgo : goesOn frame = false) (hg : g' = g.endReader)
  | notified (hgo : goesOn frame = true) {p : Packet} {m : IncomingMessage} (n : Nat)
      (hn : notification fromStr frame = some (p, m)) (hreader : g'.reader = .acking n m)
      (hack : g'.transport.ack = .sink n (ackPacket p m))
      (hrec : g'.transport.receiving = none) (hch : SameChannel g g')
  | other (hgo : goesOn frame = true) (hn : notification fromStr frame = none)
      (hreader : (g'.reader = .reading ∧ g'.transport.receiving = none) ∨
        (g'.reader = .receiving ∧ g'.transport.receiving.isSome = true))
      (hack : g'.transport.ack = .idle) (hch : SameChannel g g')

def afterRead (g : Generation) (p : Packet) : Generation :=
  { g with transport := { g.transport.record (.read g.transport.reads p) with
      reads := g.transport.reads + 1
      receiving := if p.isRequest then none else some (g.transport.reads, p) } }

theorem onTransport_read (p : Packet) (hrec : g.transport.receiving = none) :
    g.onTransport (.read p) = some (g.afterRead p) := by
  simp [onTransport, Transport.step, hrec, afterRead]

theorem frame_step (fromStr : String → Except String Packet) (frame : Option Frame)
    (hr : g.reader = .reading) (hack : g.transport.ack = .idle)
    (hrec : g.transport.receiving = none) :
    ∃ g', g.stepReader fromStr (.frame frame) = some g' ∧ FrameStep fromStr frame g g' := by
  rcases readTurn_cases fromStr frame with ⟨hgo, ht⟩ | ⟨hgo, p, m, hn, hreq, ht⟩ |
    ⟨hgo, hn, ⟨p, hreq, ht⟩ | ⟨act, packet, ht, hstop, hresp, hnotif, hreq⟩⟩
  · refine ⟨g.endReader, ?_, .stopped hgo rfl⟩
    simp only [stepReader, hr, ht, onFrame]
  · let q := ackPacket p m
    let t : Transport := { (g.afterRead p).transport with ack := .sink g.transport.reads q }
    have hstart : (g.afterRead p).onTransport (.ack (.start g.transport.reads q)) =
        some { g.afterRead p with transport := t } := by
      have hidle : (g.afterRead p).transport.ack = .idle := hack
      simp only [onTransport, Transport.step, Transport.stepAck, hidle, Option.map_some]
      rfl
    refine ⟨{ g.afterRead p with transport := t, reader := .acking g.transport.reads m }, ?_,
      .notified hgo g.transport.reads hn rfl rfl ?_ ⟨rfl, rfl, rfl, rfl, rfl, rfl⟩⟩
    · simp only [stepReader, hr, ht, onTransport_read p hrec, Option.bind_some, onFrame]
      rw [hstart]
      rfl
    · show (if p.isRequest = true then none else _) = none
      rw [if_pos hreq]
  · refine ⟨{ g.afterRead p with reader := .receiving }, ?_,
      .other hgo hn (.inr ⟨rfl, ?_⟩) hack ⟨rfl, rfl, rfl, rfl, rfl, rfl⟩⟩
    · simp only [stepReader, hr, ht, onTransport_read p hrec, Option.bind_some, onFrame]
    · simp [afterRead, hreq]
  · have hquiet : ∀ x : Generation, x.reader = .reading → x.transport.receiving = none →
        x.transport.ack = .idle → SameChannel g x → ∃ g', x.onFrame g.transport.reads act packet =
          some g' ∧ FrameStep fromStr frame g g' := by
      intro x hx hxrec hxack hch
      have hstep : ∀ y : Generation, y.reader = x.reader → y.transport = x.transport →
          SameChannel x y → FrameStep fromStr frame g y := by
        intro y hy hty hcy
        refine .other hgo hn (.inl ⟨hy.trans hx, hty ▸ hxrec⟩) (hty ▸ hxack) ?_
        exact ⟨hcy.aborted.trans hch.aborted, hcy.incoming.trans hch.incoming,
          hcy.messages.trans hch.messages, hcy.forwarded.trans hch.forwarded,
          hcy.handled.trans hch.handled, hcy.filtered.trans hch.filtered⟩
      cases act with
      | stop => exact absurd rfl hstop
      | response => exact absurd rfl hresp
      | notifMessage m => exact absurd rfl (hnotif m)
      | skip | reconnect | notifAttach fileId =>
        cases packet <;>
          exact ⟨_, rfl, hstep _ rfl rfl ⟨rfl, rfl, rfl, rfl, rfl, rfl⟩⟩
    cases packet with
    | none =>
      obtain ⟨g', hg', hs⟩ := hquiet g hr hrec hack (.refl g)
      refine ⟨g', ?_, hs⟩
      simp only [stepReader, hr, ht]
      exact hg'
    | some p =>
      have hp : p.isRequest = true := hreq p rfl
      obtain ⟨g', hg', hs⟩ := hquiet (g.afterRead p) hr (by simp [afterRead, hp]) hack
        ⟨rfl, rfl, rfl, rfl, rfl, rfl⟩
      refine ⟨g', ?_, hs⟩
      simp only [stepReader, hr, ht, onTransport_read p hrec, Option.bind_some]
      exact hg'

/-- The frames that the reader has taken from the socket. -/
def frameOf : GenerationAction → Option (Option Frame)
  | .reader (.frame frame) => some frame
  | _ => none

/-- The ids that the reader has found at the filter. -/
def ownAt (g : Generation) (a : GenerationAction) (_ : Generation) : List (Option Int) :=
  match a with
  | .reader .filter => [g.ownUserId]
  | _ => []

/-- An acknowledgement is attempted once the frame is parsed, whatever becomes of it; a message
is sent whether the receiver is still there or not. -/
def outputOf (g : Generation) (a : GenerationAction) (g' : Generation) : List ReaderOutput :=
  match a with
  | .reader (.frame _) => (g'.transport.ack.entry.map fun e => .ack e.2).toList
  | .reader .forward => (g.reader.message.map fun e => .message e.2).toList
  | _ => []

def framesRead (acts : List GenerationAction) : List (Option Frame) := acts.filterMap frameOf

def ownsRead (fromStr : String → Except String Packet) (s : Generation)
    (acts : List GenerationAction) : List (Option Int) :=
  (automaton fromStr).observe ownAt s acts

def outputs (fromStr : String → Except String Packet) (s : Generation)
    (acts : List GenerationAction) : List ReaderOutput :=
  (automaton fromStr).observe outputOf s acts

def Progress (fromStr : String → Except String Packet) (frames : List (Option Frame))
    (owns : List (Option Int)) (out : List ReaderOutput) (aborted : Prop) : ReaderPc → Prop
  | .absent | .spawned => frames = [] ∧ owns = [] ∧ out = []
  | .reading | .receiving => (∀ f ∈ frames, goesOn f = true) ∧
      out = reactions (notifications fromStr frames) owns ∧
      owns.length = (notifications fromStr frames).length
  | .acking _ m | .filtering _ m => (∀ f ∈ frames, goesOn f = true) ∧
      out = reactions (notifications fromStr frames) owns ∧
      ∃ p before, notifications fromStr frames = before ++ [(p, m)] ∧ owns.length = before.length
  | .forwarding _ m => (∀ f ∈ frames, goesOn f = true) ∧
      out ++ [.message m] = reactions (notifications fromStr frames) owns ∧
      owns.length = (notifications fromStr frames).length
  | .ended => out = reactions (notifications fromStr frames) owns ∧
      ((aborted ∧ (∀ f ∈ frames, goesOn f = true) ∧
          owns.length ≤ (notifications fromStr frames).length) ∨
        ∃ before last, frames = before ++ [last] ∧ (∀ f ∈ before, goesOn f = true) ∧
          goesOn last = false ∧ owns.length = (notifications fromStr frames).length)

structure RunInv (fromStr : String → Except String Packet) (s : Generation)
    (acts : List GenerationAction) (g : Generation) : Prop where
  reader : Progress fromStr (framesRead acts) (ownsRead fromStr s acts) (outputs fromStr s acts)
    (.reader .abort ∈ acts) g.reader
  receiving : g.transport.receiving.isSome = true ↔ g.reader = .receiving
  acking : ∀ {n m}, g.reader = .acking n m → g.transport.ack ≠ .idle
  sent : g.forwarded.map Prod.snd <+: (outputs fromStr s acts).filterMap ReaderOutput.forwarded
  channel : g.incoming = true →
    g.forwarded.map Prod.snd = (outputs fromStr s acts).filterMap ReaderOutput.forwarded
  stopped : ∀ f ∈ framesRead acts, goesOn f = false → g.cancelled = true

variable {s : Generation} {a : GenerationAction}

theorem framesRead_snoc : framesRead (acts ++ [a]) = framesRead acts ++ (frameOf a).toList := by
  cases h : frameOf a <;> simp [framesRead, h]

theorem ownsRead_snoc (hs : (automaton fromStr).exec s acts = some g)
    (h : g.step fromStr a = some g') :
    ownsRead fromStr s (acts ++ [a]) = ownsRead fromStr s acts ++ ownAt g a g' :=
  Automaton.observe_snoc hs h

theorem outputs_snoc (hs : (automaton fromStr).exec s acts = some g)
    (h : g.step fromStr a = some g') :
    outputs fromStr s (acts ++ [a]) = outputs fromStr s acts ++ outputOf g a g' :=
  Automaton.observe_snoc hs h

theorem framesRead_quiet (ha : frameOf a = none) :
    framesRead (acts ++ [a]) = framesRead acts := by
  rw [framesRead_snoc, ha]
  exact List.append_nil _

theorem ownsRead_quiet (hs : (automaton fromStr).exec s acts = some g)
    (h : g.step fromStr a = some g') (ha : ownAt g a g' = []) :
    ownsRead fromStr s (acts ++ [a]) = ownsRead fromStr s acts := by
  rw [ownsRead_snoc hs h, ha, List.append_nil]

theorem outputs_quiet (hs : (automaton fromStr).exec s acts = some g)
    (h : g.step fromStr a = some g') (ha : outputOf g a g' = []) :
    outputs fromStr s (acts ++ [a]) = outputs fromStr s acts := by
  rw [outputs_snoc hs h, ha, List.append_nil]

theorem Progress.abort {frames : List (Option Frame)} {owns : List (Option Int)}
    {out : List ReaderOutput} {aborted aborted' : Prop} {pc : ReaderPc} (ha : aborted → aborted')
    (h : Progress fromStr frames owns out aborted pc) :
    Progress fromStr frames owns out aborted' pc := by
  cases pc with
  | ended => exact ⟨h.1, h.2.imp_left (And.imp_left ha)⟩
  | _ => exact h

/-- A reader that is aborted where it is parked has put out all it owed. -/
theorem Progress.ended {frames : List (Option Frame)} {owns : List (Option Int)}
    {out : List ReaderOutput} {aborted : Prop} {pc : ReaderPc}
    (h : Progress fromStr frames owns out aborted pc) (ha : aborted) (hp : pc.parked = true) :
    Progress fromStr frames owns out aborted .ended := by
  cases pc with
  | spawned =>
    obtain ⟨rfl, rfl, rfl⟩ := h
    exact ⟨rfl, .inl ⟨ha, by simp, by simp⟩⟩
  | reading | receiving =>
    obtain ⟨hall, hout, hlen⟩ := h
    exact ⟨hout, .inl ⟨ha, hall, hlen.le⟩⟩
  | acking n m =>
    obtain ⟨hall, hout, p, before, hn, hlen⟩ := h
    refine ⟨hout, .inl ⟨ha, hall, ?_⟩⟩
    rw [hn, List.length_append, hlen]
    exact Nat.le_add_right _ _
  | absent | filtering | forwarding | ended => cases hp

theorem RunInv.quiet (hi : RunInv fromStr s acts g)
    (hs : (automaton fromStr).exec s acts = some g) (h : g.step fromStr a = some g')
    (hframe : frameOf a = none) (hown : ownAt g a g' = []) (hout : outputOf g a g' = [])
    (hreader : Progress fromStr (framesRead acts) (ownsRead fromStr s acts)
      (outputs fromStr s acts) (.reader .abort ∈ acts ++ [a]) g'.reader)
    (hrec : g'.transport.receiving.isSome = true ↔ g'.reader = .receiving)
    (hack : ∀ {n m}, g'.reader = .acking n m → g'.transport.ack ≠ .idle)
    (hfwd : g'.forwarded = g.forwarded)
    (hin : g'.incoming = true → g.incoming = true ∨ outputs fromStr s acts = []) :
    RunInv fromStr s (acts ++ [a]) g' := by
  have hframes : framesRead (acts ++ [a]) = framesRead acts := framesRead_quiet hframe
  have howns := ownsRead_quiet hs h hown
  have houts := outputs_quiet hs h hout
  refine ⟨?_, hrec, hack, ?_, ?_, ?_⟩
  · rw [hframes, howns, houts]
    exact hreader
  · rw [houts, hfwd]
    exact hi.sent
  · intro h'
    rw [houts, hfwd]
    rcases hin h' with hin | hin
    · exact hi.channel hin
    · have hnil := hi.sent
      rw [hin] at hnil
      rw [hin, List.prefix_nil.mp hnil]
      rfl
  · intro f hf hgo
    rw [hframes] at hf
    exact cancelled_step h (hi.stopped f hf hgo)

theorem quiet_of_not_reader (g g' : Generation) (ha : ∀ b, a ≠ .reader b) :
    frameOf a = none ∧ ownAt g a g' = [] ∧ outputOf g a g' = [] := by
  cases a with
  | reader b => exact absurd rfl (ha b)
  | _ => exact ⟨rfl, rfl, rfl⟩

theorem ack_idle (hp : PipelineInv g) (hr : ∀ n m, g.reader ≠ .acking n m) :
    g.transport.ack = .idle := by
  cases hack : g.transport.ack with
  | idle => rfl
  | sink n q | feed n q | flush n q =>
    obtain ⟨m, hm, -⟩ := hp.ack n q (by rw [hack]; rfl)
    exact absurd hm (hr n m)

/-- What a frame makes of a reader that has kept up with the frames before it. -/
theorem FrameStep.progress {frames : List (Option Frame)} {owns : List (Option Int)}
    {out : List ReaderOutput} {aborted : Prop} (hf : FrameStep fromStr frame g g')
    (hidle : g.transport.ack = .idle) (h : Progress fromStr frames owns out aborted .reading) :
    Progress fromStr (frames ++ [frame]) owns
      (out ++ (g'.transport.ack.entry.map fun e => .ack e.2).toList) aborted g'.reader := by
  obtain ⟨hall, hout, hlen⟩ := h
  have hnotes := notifications_append fromStr [frame] hall
  have hgoes : goesOn frame = true → ∀ f ∈ frames ++ [frame], goesOn f = true := by
    intro hgo f hf
    rcases List.mem_append.mp hf with hf | hf
    · exact hall f hf
    · rwa [List.mem_singleton.mp hf]
  cases hf with
  | stopped hgo hg =>
    subst hg
    have hack : (g.endReader).transport.ack = .idle := hidle
    rw [notifications_stop hgo, List.append_nil] at hnotes
    rw [hack]
    refine ⟨?_, .inr ⟨_, _, rfl, hall, hgo, ?_⟩⟩
    · rw [hnotes]
      simpa [AckPc.entry] using hout
    · rw [hnotes]
      exact hlen
  | notified hgo n hn hreader hack _ _ =>
    rw [notifications_single hgo, hn] at hnotes
    rw [hreader, hack]
    refine ⟨hgoes hgo, ?_, _, _, hnotes, hlen⟩
    rw [hnotes]
    exact (congrArg (· ++ _) hout).trans (reactions_snoc hlen).symm
  | other hgo hn hreader hack _ =>
    rw [notifications_single hgo, hn] at hnotes
    have hnotes' : notifications fromStr (frames ++ [frame]) = notifications fromStr frames :=
      hnotes.trans (List.append_nil _)
    have hbal : Progress fromStr (frames ++ [frame]) owns
        (out ++ (g'.transport.ack.entry.map fun e => .ack e.2).toList) aborted .reading := by
      refine ⟨hgoes hgo, ?_, ?_⟩
      · rw [hnotes', hack]
        simpa [AckPc.entry] using hout
      · rw [hnotes']
        exact hlen
    rcases hreader with ⟨he, -⟩ | ⟨he, -⟩ <;> rw [he] <;> exact hbal

theorem FrameStep.channel (hf : FrameStep fromStr frame g g') :
    g'.forwarded = g.forwarded ∧ g'.incoming = g.incoming := by
  cases hf with
  | stopped _ hg =>
    subst hg
    exact ⟨rfl, rfl⟩
  | notified _ _ _ _ _ _ hch | other _ _ _ _ hch => exact ⟨hch.forwarded, hch.incoming⟩

theorem FrameStep.receiving (hf : FrameStep fromStr frame g g')
    (hrec : g.transport.receiving = none) :
    g'.transport.receiving.isSome = true ↔ g'.reader = .receiving := by
  cases hf with
  | stopped _ hg =>
    subst hg
    show g.transport.receiving.isSome = true ↔ _
    simp [hrec, endReader]
  | notified _ _ _ hreader _ hno _ => simp [hreader, hno]
  | other _ _ hreader _ _ =>
    rcases hreader with ⟨he, hno⟩ | ⟨he, hsome⟩
    · simp [he, hno]
    · simp [he, hsome]

theorem FrameStep.acking {n : Nat} {m : IncomingMessage} (hf : FrameStep fromStr frame g g')
    (hm : g'.reader = .acking n m) : g'.transport.ack ≠ .idle := by
  cases hf with
  | stopped _ hg =>
    subst hg
    cases hm
  | notified _ _ _ _ hack _ _ => simp [hack]
  | other _ _ hreader _ _ =>
    rcases hreader with ⟨he, -⟩ | ⟨he, -⟩ <;> cases he.symm.trans hm

theorem runInv_frame (hi : RunInv fromStr s acts g) (hp : PipelineInv g)
    (hs : (automaton fromStr).exec s acts = some g)
    (h : g.stepReader fromStr (.frame frame) = some g') :
    RunInv fromStr s (acts ++ [.reader (.frame frame)]) g' := by
  have hstep : g.step fromStr (.reader (.frame frame)) = some g' := h
  have hr : g.reader = .reading := by
    simp only [stepReader] at h
    split at h
    · assumption
    · cases h
  have hrec : g.transport.receiving = none := by
    have hno := hi.receiving
    rw [hr] at hno
    simpa using hno
  have hidle := ack_idle hp (by simp [hr])
  have hprog := hi.reader
  rw [hr] at hprog
  have hframes : framesRead (acts ++ [.reader (.frame frame)]) = framesRead acts ++ [frame] := by
    rw [framesRead_snoc]
    rfl
  have howns := ownsRead_quiet hs hstep rfl
  obtain ⟨g₁, h₁, hf⟩ := frame_step fromStr frame hr hidle hrec
  cases h.symm.trans h₁
  have hch := hf.channel
  have houts : outputs fromStr s (acts ++ [.reader (.frame frame)]) =
      outputs fromStr s acts ++ (g'.transport.ack.entry.map fun e => .ack e.2).toList :=
    outputs_snoc hs hstep
  have hsent : (outputs fromStr s (acts ++ [.reader (.frame frame)])).filterMap
      ReaderOutput.forwarded = (outputs fromStr s acts).filterMap ReaderOutput.forwarded := by
    rw [houts, List.filterMap_append]
    cases g'.transport.ack.entry <;> simp [ReaderOutput.forwarded]
  refine ⟨?_, hf.receiving hrec, hf.acking, ?_, fun hin => ?_, fun f hf' hgo => ?_⟩
  · rw [hframes, howns, houts]
    exact hf.progress hidle ⟨hprog.1, hprog.2⟩
  · rw [hsent, hch.1]
    exact hi.sent
  · rw [hsent, hch.1]
    exact hi.channel (hch.2 ▸ hin)
  · rw [hframes, List.mem_append, List.mem_singleton] at hf'
    rcases hf' with hf' | rfl
    · cases (hprog.1 f hf').symm.trans hgo
    · cases hf with
      | stopped _ hg =>
        subst hg
        rfl
      | notified hyes | other hyes => cases hgo.symm.trans hyes

/-- Where the reader stands, told of a run that goes on by one step. -/
theorem RunInv.progress (hi : RunInv fromStr s acts g) (a : GenerationAction) :
    Progress fromStr (framesRead acts) (ownsRead fromStr s acts) (outputs fromStr s acts)
      (.reader .abort ∈ acts ++ [a]) g.reader :=
  hi.reader.abort fun hm => List.mem_append_left _ hm

theorem RunInv.unreceived (hi : RunInv fromStr s acts g) (hne : g.reader ≠ .receiving) :
    g.transport.receiving = none := by
  cases hrec : g.transport.receiving with
  | none => rfl
  | some f => exact absurd (hi.receiving.mp (by simp [hrec])) hne

theorem runInv_start (hi : RunInv fromStr s acts g) (hs : (automaton fromStr).exec s acts = some g)
    (h : g.stepReader fromStr .start = some g') :
    RunInv fromStr s (acts ++ [.reader .start]) g' := by
  have hstep : g.step fromStr (.reader .start) = some g' := h
  have hprog := hi.progress (.reader .start)
  simp only [stepReader] at h
  split at h
  · rename_i hr
    cases h
    rw [hr] at hprog
    obtain ⟨hf, ho, hout⟩ := hprog
    refine hi.quiet hs hstep rfl rfl rfl ?_ ?_ (by simp) rfl .inl
    · rw [hf, ho, hout]
      exact ⟨by simp, rfl, rfl⟩
    · simp [hi.unreceived (by simp [hr])]
  · cases h

theorem runInv_received (hi : RunInv fromStr s acts g)
    (hs : (automaton fromStr).exec s acts = some g)
    (h : g.stepReader fromStr .received = some g') :
    RunInv fromStr s (acts ++ [.reader .received]) g' := by
  have hstep : g.step fromStr (.reader .received) = some g' := h
  have hprog := hi.progress (.reader .received)
  simp only [stepReader] at h
  split at h
  · rename_i hr
    obtain ⟨m, hm, rfl⟩ := Option.map_eq_some_iff.mp h
    obtain ⟨t, ht, rfl⟩ := onTransport_eq hm
    obtain ⟨f, -, rfl⟩ := Option.map_eq_some_iff.mp ht
    rw [hr] at hprog
    exact hi.quiet hs hstep rfl rfl rfl hprog (by simp) (by simp) rfl .inl
  · cases h

theorem runInv_ack {c : AckAction} (hi : RunInv fromStr s acts g)
    (hs : (automaton fromStr).exec s acts = some g)
    (h : g.stepReader fromStr (.ack c) = some g') :
    RunInv fromStr s (acts ++ [.reader (.ack c)]) g' := by
  have hstep : g.step fromStr (.reader (.ack c)) = some g' := h
  have hprog := hi.progress (.reader (.ack c))
  simp only [stepReader] at h
  split at h
  · rename_i n m hr
    split at h
    · obtain ⟨m', hm, rfl⟩ := Option.map_eq_some_iff.mp h
      obtain ⟨t, ht, rfl⟩ := onTransport_eq hm
      have hrec : t.receiving = none :=
        (Transport.stepAck_frame ht).2.2.2.2.1.trans (hi.unreceived (by simp [hr]))
      rw [hr] at hprog
      refine hi.quiet hs hstep rfl rfl rfl ?_ ?_ ?_ ?_ ?_
      · split
        · exact hprog
        · show Progress _ _ _ _ _ g.reader
          rw [hr]
          exact hprog
      · split <;> simp [hrec, hr]
      · split
        · simp
        · rename_i hidle
          intro n m _ he
          have he' : t.ack = .idle := he
          exact hidle (by simp [he', AckPc.isIdle])
      · split <;> rfl
      · split <;> exact .inl
    · cases h
  · cases h

theorem runInv_filter (hi : RunInv fromStr s acts g)
    (hs : (automaton fromStr).exec s acts = some g)
    (h : g.stepReader fromStr .filter = some g') :
    RunInv fromStr s (acts ++ [.reader .filter]) g' := by
  have hstep : g.step fromStr (.reader .filter) = some g' := h
  have hprog := hi.progress (.reader .filter)
  simp only [stepReader] at h
  split at h
  · rename_i n m hr
    have hrec := hi.unreceived (by simp [hr])
    rw [hr] at hprog
    obtain ⟨hall, hout, p, before, hn, hlen⟩ := hprog
    have hframes : framesRead (acts ++ [.reader .filter]) = framesRead acts :=
      framesRead_quiet rfl
    have howns : ownsRead fromStr s (acts ++ [.reader .filter]) =
        ownsRead fromStr s acts ++ [g.ownUserId] := ownsRead_snoc hs hstep
    have houts := outputs_quiet hs hstep rfl
    have hlooked := reactions_looked p m g.ownUserId hlen
    rw [← hn, ← hout] at hlooked
    have hlen' : (ownsRead fromStr s acts ++ [g.ownUserId]).length =
        (notifications fromStr (framesRead acts)).length := by
      rw [hn, List.length_append, List.length_append, hlen]
      rfl
    split at h
    · rename_i hfil
      cases h
      refine ⟨?_, by simp [hrec], by simp, houts ▸ hi.sent, fun hin => houts ▸ hi.channel hin,
        hframes ▸ hi.stopped⟩
      rw [hframes, howns, houts]
      refine ⟨hall, ?_, hlen'⟩
      rw [hlooked, if_pos hfil, List.append_nil]
    · rename_i hfil
      cases h
      refine ⟨?_, by simp [hrec], by simp, houts ▸ hi.sent, fun hin => houts ▸ hi.channel hin,
        hframes ▸ hi.stopped⟩
      rw [hframes, howns, houts]
      refine ⟨hall, ?_, hlen'⟩
      rw [hlooked, if_neg hfil]
  · cases h

theorem runInv_forward (hi : RunInv fromStr s acts g)
    (hs : (automaton fromStr).exec s acts = some g)
    (h : g.stepReader fromStr .forward = some g') :
    RunInv fromStr s (acts ++ [.reader .forward]) g' := by
  have hstep : g.step fromStr (.reader .forward) = some g' := h
  have hprog := hi.progress (.reader .forward)
  have hframes : framesRead (acts ++ [.reader .forward]) = framesRead acts := framesRead_quiet rfl
  have howns := ownsRead_quiet hs hstep rfl
  simp only [stepReader] at h
  split at h
  · rename_i n m hr
    have hrec := hi.unreceived (by simp [hr])
    rw [hr] at hprog
    obtain ⟨hall, hout, hlen⟩ := hprog
    have houts : outputs fromStr s (acts ++ [.reader .forward]) =
        outputs fromStr s acts ++ [.message m] := by
      rw [outputs_snoc hs hstep]
      simp [outputOf, hr, ReaderPc.message]
    have hsent : (outputs fromStr s (acts ++ [.reader .forward])).filterMap
        ReaderOutput.forwarded =
        (outputs fromStr s acts).filterMap ReaderOutput.forwarded ++ [m] := by
      rw [houts, List.filterMap_append]
      rfl
    split at h
    · rename_i hin
      cases h
      have heq := hi.channel hin
      refine ⟨?_, by simp [hrec], by simp, ?_, fun _ => ?_, hframes ▸ hi.stopped⟩
      · rw [hframes, howns, houts]
        exact ⟨hall, hout, hlen⟩
      · rw [hsent, List.map_append, heq]
        exact List.prefix_rfl
      · rw [hsent, List.map_append, heq]
        rfl
    · rename_i hin
      cases h
      refine ⟨?_, by simp [hrec], by simp, ?_, fun hin' => absurd hin' hin, hframes ▸ hi.stopped⟩
      · rw [hframes, howns, houts]
        exact ⟨hall, hout, hlen⟩
      · rw [hsent]
        exact hi.sent.trans (List.prefix_append _ _)
  · cases h

theorem runInv_abort (hi : RunInv fromStr s acts g) (hs : (automaton fromStr).exec s acts = some g)
    (h : g.stepReader fromStr .abort = some g') :
    RunInv fromStr s (acts ++ [.reader .abort]) g' := by
  have hstep : g.step fromStr (.reader .abort) = some g' := h
  simp only [stepReader] at h
  split at h
  · rename_i hab
    simp only [Bool.and_eq_true] at hab
    obtain ⟨g₁, h₁, h⟩ := Option.bind_eq_some_iff.mp h
    obtain ⟨g₂, h₂, rfl⟩ := Option.map_eq_some_iff.mp h
    obtain ⟨t, ht, rfl⟩ := onTransport_eq h₁
    obtain ⟨t', ht', rfl⟩ := onTransport_eq h₂
    cases ht'
    have hended := (hi.progress (.reader .abort)).ended
      (List.mem_append_right _ (List.mem_singleton_self _)) hab.2
    refine hi.quiet hs hstep rfl rfl rfl ?_ ?_ ?_ ?_ ?_
    · split <;> exact hended
    · split <;> simp [endReader]
    · split <;> simp [endReader]
    · split <;> rfl
    · split <;> exact .inl
  · cases h

theorem runInv_reader {b : ReaderAction} (hi : RunInv fromStr s acts g) (hp : PipelineInv g)
    (hs : (automaton fromStr).exec s acts = some g) (h : g.stepReader fromStr b = some g') :
    RunInv fromStr s (acts ++ [.reader b]) g' := by
  cases b with
  | start => exact runInv_start hi hs h
  | frame frame => exact runInv_frame hi hp hs h
  | received => exact runInv_received hi hs h
  | ack c => exact runInv_ack hi hs h
  | filter => exact runInv_filter hi hs h
  | forward => exact runInv_forward hi hs h
  | abort => exact runInv_abort hi hs h

theorem runInv_step (hi : RunInv fromStr s acts g) (hp : PipelineInv g)
    (hs : (automaton fromStr).exec s acts = some g) (h : g.step fromStr a = some g') :
    RunInv fromStr s (acts ++ [a]) g' := by
  rcases aside_step h with ⟨b, rfl⟩ | ⟨rfl, hr, rfl⟩ | ⟨hne, hno, haside⟩
  · exact runInv_reader hi hp hs h
  · have hprog := hi.reader
    rw [hr] at hprog
    refine hi.quiet hs h rfl rfl rfl hprog ?_ (by simp) rfl fun _ => .inr hprog.2.2
    have hrec := hi.receiving
    rw [hr] at hrec
    simpa using hrec
  · obtain ⟨hframe, hown, hout⟩ := quiet_of_not_reader g g' hno
    refine hi.quiet hs h hframe hown hout ?_ ?_ ?_ haside.forwarded
      fun hin => .inl (haside.incoming hin)
    · rw [haside.reader]
      exact hi.reader.abort fun hm => List.mem_append_left _ hm
    · rw [haside.reader, haside.receiving]
      exact hi.receiving
    · rw [haside.reader, haside.ack]
      exact hi.acking

end Generation

end Maxrs
