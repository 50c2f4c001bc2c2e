import Maxrs.Json
set_option autoImplicit false

namespace Maxrs

/-- Protocol version that the web client pins. -/
def PROTOCOL_VERSION : Nat := 11

def CMD_REQUEST : Nat := 0
def CMD_RESPONSE : Nat := 1
def CMD_ERROR : Nat := 3

namespace Opcode

def PING : Nat := 1
def RECONNECT : Nat := 3
def SESSION_INIT : Nat := 6
def AUTH_REQUEST : Nat := 17
def AUTH : Nat := 18
def AUTH_PASSWORD : Nat := 115
def LOGIN : Nat := 19
def AUTH_CAPTCHA_REQUEST : Nat := 224
def MSG_SEND : Nat := 64
def FILE_UPLOAD : Nat := 87
def NOTIF_MESSAGE : Nat := 128
def NOTIF_ATTACH : Nat := 136

end Opcode

structure Packet where
  ver : Nat
  cmd : Nat
  seq : Nat
  opcode : Nat
  payload : Value

namespace Packet

def request (seq opcode : Nat) (payload : Value) : Packet where
  ver := PROTOCOL_VERSION
  cmd := CMD_REQUEST
  seq := seq
  opcode := opcode
  payload := payload

/-- Echoes the `seq` and `opcode` of a server request. -/
def response (seq opcode : Nat) (payload : Value) : Packet where
  ver := PROTOCOL_VERSION
  cmd := CMD_RESPONSE
  seq := seq
  opcode := opcode
  payload := payload

def isError (p : Packet) : Bool := p.cmd == CMD_ERROR

def isRequest (p : Packet) : Bool := p.cmd == CMD_REQUEST

@[simp] theorem isRequest_request (seq opcode : Nat) (payload : Value) :
    (request seq opcode payload).isRequest = true := rfl

@[simp] theorem isRequest_response (seq opcode : Nat) (payload : Value) :
    (response seq opcode payload).isRequest = false := rfl

end Packet

end Maxrs
