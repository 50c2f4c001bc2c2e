import Maxrs.Protocol
set_option autoImplicit false

namespace Maxrs

/-- What `is_transient_http_error` reads of a `reqwest::Error`. -/
structure HttpError where
  status : Option Nat
  isConnect : Bool
  isTimeout : Bool
  isBody : Bool

/-- `std::io::ErrorKind`, with the kinds that the client does not name under one case. -/
inductive IoErrorKind where
  | connectionRefused | connectionReset | connectionAborted | notConnected | brokenPipe
  | timedOut | interrupted | wouldBlock | unexpectedEof
  | other (kind : String)

inductive Error where
  | webSocket (source : String)
  | webSocketConnectTimeout
  | invalidHeaderValue
  | http (source : HttpError)
  | json (source : String)
  | io (source : IoErrorKind)
  | server (opcode : Nat) (message : String)
  | captchaSolverDisabled
  | captchaSolverUnavailable (solverUrl : String) (source : HttpError)
  | captchaSolverRejected (solverUrl : String) (source : HttpError)
  | noOperatorChannel
  | missingCredentials
  | clientAlreadyRunning
  | telegramConfigMissing (reason : String)
  | passwordRequired
  | captchaTimeout (challengeId : String)
  | fileProcessingTimeout (fileId : Int)
  | captchaFailed (reason : String)
  | unknownCaptchaChallenge (challengeId : String)
  | timeout (opcode : Nat)
  | duplicateSequence (seq : Nat)
  | connectionClosed
  | unexpectedResponse (reason : String)
  | telegram (reason : String)
  | telegramUnavailable (reason : String)

def REQUEST_TIMEOUT : Nat := 408
def TOO_MANY_REQUESTS : Nat := 429

def isServerErrorStatus (status : Nat) : Bool := 500 ≤ status && status < 600

def isTransientHttpError (error : HttpError) : Bool :=
  match error.status with
  | some status =>
    status == REQUEST_TIMEOUT || status == TOO_MANY_REQUESTS || isServerErrorStatus status
  | none => error.isConnect || error.isTimeout || error.isBody

def isTransientIoError : IoErrorKind → Bool
  | .other _ => false
  | _ => true

def isTransportFailure : Error → Bool
  | .webSocket _ | .webSocketConnectTimeout | .timeout _ | .duplicateSequence _
  | .connectionClosed => true
  | _ => false

def shouldRetryConnection (error : Error) : Bool :=
  if isTransportFailure error then true
  else match error with
    | .http source | .captchaSolverUnavailable _ source => isTransientHttpError source
    | .io source => isTransientIoError source
    | .captchaTimeout _ | .telegramUnavailable _ => true
    | _ => false

def isServerError : Error → Bool
  | .server _ _ => true
  | _ => false

end Maxrs
