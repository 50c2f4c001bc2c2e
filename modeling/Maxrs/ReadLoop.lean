import Maxrs.Models
import Maxrs.Protocol
set_option autoImplicit false

/-! `read_loop.rs`: the pure functions of the reader. -/
namespace Maxrs

def SECURITY_SERVICE_USER_ID : Int := 543835

/-- What `read.next()` yields before the end of the stream: a message or a read error. -/
inductive Frame where
  | text (text : String)
  | binary (bytes : ByteArray)
  | close (details : Option (Nat × String))
  /-- Ping, pong or a raw frame. -/
  | control
  | error (error : String)

def frameText : Frame → Except String (Option String)
  | .text text => .ok (some text)
  | .binary bytes => .ok (String.fromUTF8? bytes)
  | .close (some (code, reason)) =>
    .error s!"Max WebSocket peer closed the connection: code={code}, reason={reason}"
  | .close none => .error "Max WebSocket peer closed the connection without close details"
  | .error error => .error s!"Max WebSocket read failed: {error}"
  | .control => .ok none

def parseIncoming (payload : Value) : Option IncomingMessage :=
  (payload.get "chatId").asI64.map fun chatId =>
    let message := payload.get "message"
    { chatId := chatId
      messageId := ((message.get "id").asI64).getD 0
      sender := ((message.get "sender").asI64).getD 0
      text := ((message.get "text").asStr).getD ""
      time := ((message.get "time").asI64).getD 0 }

def isOwnMessage (message : IncomingMessage) (ownUserId : Option Int) : Bool :=
  ownUserId == some message.sender

def isSecurityServiceMessage (message : IncomingMessage) : Bool :=
  message.sender == SECURITY_SERVICE_USER_ID

def isFilteredIncomingMessage (message : IncomingMessage) (ownUserId : Option Int) : Bool :=
  isOwnMessage message ownUserId || isSecurityServiceMessage message

/-- The acknowledgement of a `NOTIF_MESSAGE` frame. -/
def ackPacket (packet : Packet) (message : IncomingMessage) : Packet :=
  Packet.response packet.seq packet.opcode
    (.object [("chatId", .int message.chatId), ("messageId", .int message.messageId)])

inductive FrameAction where
  /-- `break`. -/
  | stop
  /-- `continue`, or a server request that nothing follows from. -/
  | skip
  | reconnect
  | notifMessage (message : IncomingMessage)
  | notifAttach (fileId : Int)
  | response

/-- `handle_server_request` up to its first await. -/
def serverRequest (packet : Packet) : FrameAction :=
  if packet.opcode = Opcode.RECONNECT then .reconnect
  else if packet.opcode = Opcode.NOTIF_MESSAGE then
    match parseIncoming packet.payload with
    | some message => .notifMessage message
    | none => .skip
  else if packet.opcode = Opcode.NOTIF_ATTACH then
    match (packet.payload.get "fileId").asI64 with
    | some fileId => .notifAttach fileId
    | none => .skip
  else .skip

/-- One turn of the loop in `read_loop`, up to its first await; `fromStr` is
`serde_json::from_str` at the type `Packet`. -/
def readTurn (fromStr : String → Except String Packet) :
    Option Frame → FrameAction × Option Packet
  | none => (.stop, none)
  | some frame =>
    match frameText frame with
    | .error _ => (.stop, none)
    | .ok none => (.skip, none)
    | .ok (some text) =>
      match fromStr text with
      | .error _ => (.skip, none)
      | .ok packet => (if packet.isRequest then serverRequest packet else .response, some packet)

theorem isFiltered_own {m : IncomingMessage} {u : Int} (h : m.sender = u) :
    isFilteredIncomingMessage m (some u) = true := by
  simp [isFilteredIncomingMessage, isOwnMessage, h]

theorem isFiltered_security {m : IncomingMessage} (own : Option Int)
    (h : m.sender = SECURITY_SERVICE_USER_ID) : isFilteredIncomingMessage m own = true := by
  simp [isFilteredIncomingMessage, isSecurityServiceMessage, h]

theorem isFiltered_iff {m : IncomingMessage} {own : Option Int} :
    isFilteredIncomingMessage m own = true ↔
      own = some m.sender ∨ m.sender = SECURITY_SERVICE_USER_ID := by
  simp [isFilteredIncomingMessage, isOwnMessage, isSecurityServiceMessage]

end Maxrs
