import Maxrs.AttachmentRegistry
import Maxrs.Error
import Maxrs.Kit.Percent
import Maxrs.Kit.Script
import Maxrs.Models
import Maxrs.Protocol
set_option autoImplicit false

/-! One iteration of the retry loops of `send_text` and `send_file_bytes`. -/
namespace Maxrs

inductive SendOp where
  | invoke (opcode : Nat) (payload : Value)
  | register (fileId : Int)
  /-- The POST of the bytes, in its `select!` with the cancellation of the connection; it answers
  with the status of the response. -/
  | upload (url : String) (headers : List (String × String)) (body : ByteArray)
  /-- `attachment_waiter.wait()` under `FILE_PROCESS_TIMEOUT`, in the same kind of `select!`. -/
  | processed (waiter : AttachmentWaiter)
  | dropWaiter (waiter : AttachmentWaiter)

/-- A `select!` that the cancellation wins is left with `Err(ConnectionClosed)`; the wait
answers `false` when its time is up. -/
abbrev SendOp.Ret : SendOp → Type
  | .invoke _ _ => Except Error Packet
  | .register _ => Option AttachmentWaiter
  | .upload _ _ _ => Except Error (Except HttpError Nat)
  | .processed _ => Except Error Bool
  | .dropWaiter _ => Unit

abbrev SendScript (α : Type) := Script SendOp SendOp.Ret α

abbrev SendTrace := Script.Trace SendOp.Ret

structure TextMessage where
  chatId : Int
  message : MaxMessage

structure FileMessage where
  chatId : Int
  fileName : String
  bytes : ByteArray
  caption : String

def textMessagePayload (m : TextMessage) (cid : Int) : Value :=
  .object [("chatId", .int m.chatId),
    ("message", .object [("text", .string m.message.text), ("cid", .int cid),
      ("elements", .array (m.message.elements.map MessageElement.toValue)),
      ("attaches", .array [])]),
    ("notify", .bool true)]

def fileMessagePayload (chatId : Int) (caption : String) (fileId cid : Int) : Value :=
  .object [("chatId", .int chatId),
    ("message", .object [("text", .string caption), ("cid", .int cid), ("elements", .array []),
      ("attaches", .array [.object [("_type", .string "FILE"), ("fileId", .int fileId)]])]),
    ("notify", .bool true)]

def fileUploadPayload : Value :=
  .object [("count", .int 1), ("type", .int 0), ("uploaderType", .int 0),
    ("profile", .bool false)]

def normalizedFileName (fileName : String) : String :=
  if fileName.isEmpty then "file" else fileName

def isUnreserved (byte : UInt8) : Bool :=
  let c := Char.ofNat byte.toNat
  (byte < 0x80 && c.isAlphanum) || c == '-' || c == '.' || c == '_' || c == '~'

def percentEncodeFileName (fileName : String) : String :=
  String.ofList (fileName.toUTF8.toList.flatMap fun byte =>
    if isUnreserved byte then [Char.ofNat byte.toNat]
    else ['%', Percent.hexDigit (byte.toNat / 16), Percent.hexDigit (byte.toNat % 16)])

def uploadHeaders (fileName : String) (size : Nat) : List (String × String) :=
  [("Content-Disposition", s!"attachment; filename={percentEncodeFileName fileName}"),
    ("Content-Length", toString size),
    ("Content-Range", s!"0-{size - 1}/{size}")]

def sendInvoke (opcode : Nat) (payload : Value) : SendScript (Except Error Packet) :=
  .call (.invoke opcode payload) .done

def textBody (m : TextMessage) (cid : Int) : SendScript (Except Error Unit) :=
  (sendInvoke Opcode.MSG_SEND (textMessagePayload m cid)).orFail fun _ => .done (.ok ())

/-- `send_uploaded_file` once the waiter is registered. -/
def uploadAndSend (m : FileMessage) (cid : Int) (url : String) (fileId : Int)
    (waiter : AttachmentWaiter) : SendScript (Except Error Unit) :=
  let fileName := normalizedFileName m.fileName
  .call (.upload url (uploadHeaders fileName m.bytes.size) m.bytes) fun
    | .error error => .call (.dropWaiter waiter) fun _ => .done (.error error)
    | .ok (.error err) => .call (.dropWaiter waiter) fun _ => .done (.error (.http err))
    | .ok (.ok _) =>
      .call (.processed waiter) fun
        | .error error => .done (.error error)
        | .ok false => .done (.error (.fileProcessingTimeout fileId))
        | .ok true =>
          (sendInvoke Opcode.MSG_SEND (fileMessagePayload m.chatId m.caption fileId cid)).orFail
            fun _ => .done (.ok ())

/-- What `send_uploaded_file` takes from the answer to `FILE_UPLOAD`. -/
def uploadInfo (payload : Value) : Except Error (String × Int) :=
  match (payload.get "info").at? 0 with
  | none => .error (.unexpectedResponse "empty file upload info")
  | some info =>
    match (info.get "url").asStr with
    | none => .error (.unexpectedResponse "missing upload url")
    | some url =>
      match (info.get "fileId").asI64 with
      | none => .error (.unexpectedResponse "missing fileId")
      | some fileId => .ok (url, fileId)

/-- `send_uploaded_file`. -/
def fileBody (m : FileMessage) (cid : Int) : SendScript (Except Error Unit) :=
  (sendInvoke Opcode.FILE_UPLOAD fileUploadPayload).orFail fun response =>
    match uploadInfo response.payload with
    | .error error => .done (.error error)
    | .ok (url, fileId) =>
      .call (.register fileId) fun
        | none => .done (.error (.unexpectedResponse
            s!"duplicate active fileId in upload response: {fileId}"))
        | some waiter => uploadAndSend m cid url fileId waiter

end Maxrs
