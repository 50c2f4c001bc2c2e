import Mathlib.Data.List.TakeWhile
import Maxrs.ReadLoop
set_option autoImplicit false

/-! Which acknowledgements and messages a sequence of frames gives rise to. -/
namespace Maxrs

/-- `read_loop` goes on after the frame; `none` is the end of the stream. -/
def goesOn : Option Frame → Bool
  | none | some (.close _) | some (.error _) => false
  | some (.text _) | some (.binary _) | some .control => true

def packetOf (fromStr : String → Except String Packet) (frame : Option Frame) : Option Packet :=
  match frame.map frameText with
  | some (.ok (some text)) => (fromStr text).toOption
  | _ => none

/-- The frame is a `NOTIF_MESSAGE` request with an integer `chatId`. -/
def notification (fromStr : String → Except String Packet) (frame : Option Frame) :
    Option (Packet × IncomingMessage) :=
  (packetOf fromStr frame).bind fun p =>
    if p.isRequest ∧ p.opcode = Opcode.NOTIF_MESSAGE then
      (parseIncoming p.payload).map fun m => (p, m)
    else none

def notifications (fromStr : String → Except String Packet) (frames : List (Option Frame)) :
    List (Packet × IncomingMessage) :=
  (frames.takeWhile goesOn).filterMap (notification fromStr)

inductive ReaderOutput where
  | ack (packet : Packet)
  | message (message : IncomingMessage)

def ReaderOutput.forwarded : ReaderOutput → Option IncomingMessage
  | .ack _ => none
  | .message m => some m

/-- What the reader puts out for its notifications; `owns` are the ids of the user that it finds
when it looks at the filter. -/
def reactions : List (Packet × IncomingMessage) → List (Option Int) → List ReaderOutput
  | [], _ => []
  | (p, m) :: _, [] => [.ack (ackPacket p m)]
  | (p, m) :: rest, own :: owns =>
    if isFilteredIncomingMessage m own then .ack (ackPacket p m) :: reactions rest owns
    else .ack (ackPacket p m) :: .message m :: reactions rest owns

section Reactions

variable {ns ns' : List (Packet × IncomingMessage)} {owns owns' : List (Option Int)} {p : Packet}
  {m : IncomingMessage}

theorem reactions_snoc (h : owns.length = ns.length) :
    reactions (ns ++ [(p, m)]) owns = reactions ns owns ++ [.ack (ackPacket p m)] := by
  induction ns generalizing owns with
  | nil =>
    cases owns with
    | nil => rfl
    | cons own owns => cases h
  | cons n ns ih =>
    cases owns with
    | nil => cases h
    | cons own owns =>
      have hrest := ih (Nat.succ.inj h)
      simp only [List.cons_append, reactions, hrest]
      split <;> rfl

theorem reactions_looked (p : Packet) (m : IncomingMessage) (own : Option Int)
    (h : owns.length = ns.length) :
    reactions (ns ++ [(p, m)]) (owns ++ [own]) = reactions (ns ++ [(p, m)]) owns ++
      if isFilteredIncomingMessage m own then [] else [.message m] := by
  induction ns generalizing owns with
  | nil =>
    cases owns with
    | nil =>
      simp only [List.nil_append, reactions]
      split <;> rfl
    | cons own owns => cases h
  | cons n ns ih =>
    cases owns with
    | nil => cases h
    | cons own' owns =>
      have hrest := ih (Nat.succ.inj h)
      simp only [List.cons_append, reactions, hrest]
      by_cases hf : isFilteredIncomingMessage n.2 own' = true
      · simp only [if_pos hf, List.cons_append]
      · simp only [if_neg hf, List.cons_append]

end Reactions

variable {fromStr : String → Except String Packet} {frame : Option Frame}

theorem goesOn_iff : goesOn frame = true ↔ ∃ text, frame.map frameText = some (.ok text) := by
  cases frame with
  | none => simp [goesOn]
  | some f =>
    cases f with
    | close details =>
      rcases details with _ | ⟨code, reason⟩ <;> simp [goesOn, frameText]
    | _ => simp [goesOn, frameText]

theorem serverRequest_cases (p : Packet) :
    (∃ m, p.opcode = Opcode.NOTIF_MESSAGE ∧ parseIncoming p.payload = some m ∧
      serverRequest p = .notifMessage m) ∨
    ((p.opcode = Opcode.NOTIF_MESSAGE → parseIncoming p.payload = none) ∧
      serverRequest p ≠ .stop ∧ serverRequest p ≠ .response ∧
      ∀ m, serverRequest p ≠ .notifMessage m) := by
  by_cases hop : p.opcode = Opcode.NOTIF_MESSAGE
  · cases hm : parseIncoming p.payload with
    | some m => exact .inl ⟨m, hop, rfl, by simp [serverRequest, hop, hm, Opcode.RECONNECT,
        Opcode.NOTIF_MESSAGE]⟩
    | none => exact .inr ⟨fun _ => rfl, by simp [serverRequest, hop, hm, Opcode.RECONNECT,
        Opcode.NOTIF_MESSAGE]⟩
  · refine .inr ⟨fun h => absurd h hop, ?_⟩
    simp only [serverRequest, if_neg hop]
    split
    · simp
    · split
      · split <;> simp
      · simp

theorem readTurn_cases (fromStr : String → Except String Packet) (frame : Option Frame) :
    (goesOn frame = false ∧ readTurn fromStr frame = (.stop, none)) ∨
    (goesOn frame = true ∧ ∃ p m, notification fromStr frame = some (p, m) ∧
      p.isRequest = true ∧ readTurn fromStr frame = (.notifMessage m, some p)) ∨
    (goesOn frame = true ∧ notification fromStr frame = none ∧
      ((∃ p, p.isRequest = false ∧ readTurn fromStr frame = (.response, some p)) ∨
        ∃ act packet, readTurn fromStr frame = (act, packet) ∧ act ≠ .stop ∧ act ≠ .response ∧
          (∀ m, act ≠ .notifMessage m) ∧ ∀ p, packet = some p → p.isRequest = true)) := by
  cases frame with
  | none => exact .inl ⟨rfl, rfl⟩
  | some f =>
    have hgo : goesOn (some f) = true ↔ ∃ text, (some f).map frameText = some (.ok text) :=
      goesOn_iff
    simp only [Option.map_some, Option.some.injEq] at hgo
    cases ht : frameText f with
    | error e =>
      refine .inl ⟨?_, by simp [readTurn, ht]⟩
      rw [← Bool.not_eq_true, hgo]
      simp [ht]
    | ok text =>
      replace hgo := hgo.mpr ⟨text, ht⟩
      refine .inr ?_
      cases text with
      | none =>
        exact .inr ⟨hgo, by simp [notification, packetOf, ht], .inr ⟨.skip, none,
          by simp [readTurn, ht], by simp, by simp, by simp, by simp⟩⟩
      | some text =>
        cases hp : fromStr text with
        | error e =>
          exact .inr ⟨hgo, by simp [notification, packetOf, ht, hp, Except.toOption],
            .inr ⟨.skip, none, by simp [readTurn, ht, hp], by simp, by simp, by simp, by simp⟩⟩
        | ok p =>
          have hpacket : packetOf fromStr (some f) = some p := by
            simp [packetOf, ht, hp, Except.toOption]
          have hturn : readTurn fromStr (some f) =
              (if p.isRequest then serverRequest p else .response, some p) := by
            simp [readTurn, ht, hp]
          cases hreq : p.isRequest with
          | false =>
            refine .inr ⟨hgo, by simp [notification, hpacket, hreq], .inl ⟨p, hreq, ?_⟩⟩
            rw [hturn, hreq]
            rfl
          | true =>
            rw [hreq, if_pos rfl] at hturn
            rcases serverRequest_cases p with ⟨m, hop, hm, hs⟩ | ⟨hno, hs⟩
            · refine .inl ⟨hgo, p, m, ?_, hreq, hs ▸ hturn⟩
              simp [notification, hpacket, hreq, hop, hm]
            · refine .inr ⟨hgo, ?_, .inr ⟨serverRequest p, some p, hturn, hs.1, hs.2.1, hs.2.2,
                ?_⟩⟩
              · simpa [notification, hpacket, hreq] using hno
              · rintro q hq
                cases hq
                exact hreq

section Notifications

variable {frames rest : List (Option Frame)}

theorem notifications_append (fromStr : String → Except String Packet)
    (rest : List (Option Frame)) (h : ∀ f ∈ frames, goesOn f = true) :
    notifications fromStr (frames ++ rest) =
      notifications fromStr frames ++ notifications fromStr rest := by
  have hall : frames.takeWhile goesOn = frames := List.takeWhile_eq_self_iff.mpr h
  unfold notifications
  rw [List.takeWhile_append_of_pos h, List.filterMap_append, hall]

theorem notifications_stop (h : goesOn frame = false) :
    notifications fromStr (frame :: rest) = [] := by
  simp [notifications, h]

theorem notifications_single (h : goesOn frame = true) :
    notifications fromStr [frame] = (notification fromStr frame).toList := by
  cases hn : notification fromStr frame <;> simp [notifications, h, hn]

end Notifications

end Maxrs
