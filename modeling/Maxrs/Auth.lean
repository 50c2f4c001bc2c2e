import Maxrs.Error
import Maxrs.Kit.Script
import Maxrs.Models
import Maxrs.Protocol
set_option autoImplicit false

/-! `auth/mod.rs` and `MaxClient::run_attempt`, as programs over the operations of the client:
the task of an attempt performs them one after another. -/
namespace Maxrs

/-- Code points with the property `White_Space`, which `str::trim` strips. -/
def isWhitespace (c : Char) : Bool :=
  [0x20, 0x85, 0xA0, 0x1680, 0x2028, 0x2029, 0x202F, 0x205F, 0x3000].contains c.toNat ||
    (0x09 ≤ c.toNat && c.toNat ≤ 0x0D) || (0x2000 ≤ c.toNat && c.toNat ≤ 0x200A)

def trim (s : String) : String :=
  String.ofList (((s.toList.dropWhile isWhitespace).reverse.dropWhile isWhitespace).reverse)

/-- `trim_end_matches('/')`. -/
def trimEndSlashes (s : List Char) : List Char := (s.reverse.dropWhile (· == '/')).reverse

inductive OperatorChannel where
  | none
  | cli
  | telegram (botToken : String) (botUserId chatId : Int) (pollTimeout : Nat)

def OperatorChannel.isNone : OperatorChannel → Bool
  | .none => true
  | _ => false

structure AuthCaptchaConfig where
  solverUrl : Option String
  callbackBind : String
  callbackUrlBase : Option String

structure LoginConfig where
  phone : Option String
  password : Option String
  sessionToken : Option String
  captcha : AuthCaptchaConfig
  operator : OperatorChannel

namespace LoginConfig

/-- The closure `present` of `validate`. -/
def present (value : Option String) : Bool :=
  match value with
  | some value => !(trim value).isEmpty
  | none => false

def validate (config : LoginConfig) : Except Error Unit :=
  if present config.sessionToken then .ok ()
  else if !present config.phone then .error .missingCredentials
  else if config.operator.isNone then .error .noOperatorChannel
  else .ok ()

end LoginConfig

inductive AttemptOp where
  /-- `Transport::connect`. -/
  | connect
  | spawnReader
  | invoke (opcode : Nat) (payload : Value)
  | spawnKeepalive
  /-- From `HttpServer::bind` to `server_task.shutdown`. -/
  | solveCaptcha (solverUrl : String) (captcha : AuthCaptchaConfig) (captchaLink : String)
  /-- `OperatorChannel::request_sms_code`. -/
  | requestSmsCode (operator : OperatorChannel) (phone : String)
  | setOwnUserId (id : Int)
  | storeSessionTokenFile (contents : String)
  /-- `config.session_token = Some(token)`. -/
  | setSessionToken (token : String)
  /-- `recovery.connected`. -/
  | connected
  | stampConnectedAt
  /-- `dispatcher::run`. -/
  | dispatch

abbrev AttemptOp.Ret : AttemptOp → Type
  | .connect | .connected => Except Error Unit
  | .invoke _ _ => Except Error Packet
  | .solveCaptcha _ _ _ | .requestSmsCode _ _ => Except Error String
  | .storeSessionTokenFile _ => Except IoErrorKind Unit
  | _ => Unit

abbrev AttemptScript (α : Type) := Script AttemptOp AttemptOp.Ret α

abbrev AttemptTrace := Script.Trace AttemptOp.Ret

def okOr {α : Type} (value : Option α) (error : Error) : Except Error α :=
  match value with
  | some a => .ok a
  | none => .error error

/-- `connection.invoke(opcode, payload).await`. -/
def invoke (opcode : Nat) (payload : Value) : AttemptScript (Except Error Packet) :=
  .call (.invoke opcode payload) .done

def shouldFallbackToSmsLogin : Error → Bool
  | .server opcode _ => opcode == Opcode.LOGIN
  | _ => false

def shouldRetrySmsWithCaptcha : Error → Bool
  | .server opcode _ => opcode == Opcode.AUTH_REQUEST
  | _ => false

def smsAuthRequestPayload (phone : String) (captchaToken : Option String) : Value :=
  .object ([("phone", .string phone), ("type", .string "START_AUTH"),
      ("language", .string "ru")] ++
    match captchaToken with
    | some captchaToken => [("captchaToken", .string captchaToken)]
    | none => [])

def loginTokenFromAuthPayload (payload : Value) : Except Error String :=
  okOr (((payload.get "tokenAttrs").get "LOGIN").get "token").asStr
    (.unexpectedResponse "missing session token")

def userIdFromLoginPayload (payload : Value) : Except Error Int :=
  okOr (((payload.get "profile").get "contact").get "id").asI64
    (.unexpectedResponse "missing or invalid profile.contact.id")

def loginPayload (token : String) : Value :=
  .object [("interactive", .bool true), ("token", .string token), ("chatsSync", .int 0),
    ("contactsSync", .int 0), ("presenceSync", .int 0), ("draftsSync", .int 0),
    ("chatsCount", .int 40)]

def performLogin (token : String) : AttemptScript (Except Error String) :=
  (invoke Opcode.LOGIN (loginPayload token)).orFail fun response =>
    match userIdFromLoginPayload response.payload with
    | .error error => .done (.error error)
    | .ok userId => .call (.setOwnUserId userId) fun _ => .done (.ok token)

/-- A failure to write the file is only logged. -/
def loginWithAuthPayload (payload : Value) : AttemptScript (Except Error String) :=
  match loginTokenFromAuthPayload payload with
  | .error error => .done (.error error)
  | .ok token =>
    (performLogin token).orFail fun token =>
      .call (.storeSessionTokenFile (trim token ++ "\n")) fun _ => .done (.ok token)

def verifyPasswordChallenge (challenge : Value) (password : String) :
    AttemptScript (Except Error String) :=
  match okOr (challenge.get "trackId").asStr
      (.unexpectedResponse "missing password challenge trackId") with
  | .error error => .done (.error error)
  | .ok trackId =>
    (invoke Opcode.AUTH_PASSWORD
      (.object [("trackId", .string trackId), ("password", .string password)])).orFail
      fun response => loginWithAuthPayload response.payload

def verifySmsCode (config : LoginConfig) (smsToken code : String) :
    AttemptScript (Except Error String) :=
  (invoke Opcode.AUTH
    (.object [("token", .string smsToken), ("verifyCode", .string code),
      ("authTokenType", .string "CHECK_CODE")])).orFail fun response =>
    if (response.payload.get "passwordChallenge").isObject then
      match okOr config.password .passwordRequired with
      | .error error => .done (.error error)
      | .ok password =>
        verifyPasswordChallenge (response.payload.get "passwordChallenge") password
    else loginWithAuthPayload response.payload

def requestSmsCodeWithCaptchaToken (phone : String) (captchaToken : Option String) :
    AttemptScript (Except Error String) :=
  (invoke Opcode.AUTH_REQUEST (smsAuthRequestPayload phone captchaToken)).orFail fun response =>
    .done (okOr (response.payload.get "token").asStr (.unexpectedResponse "missing auth token"))

def solveAuthCaptcha (config : LoginConfig) (phone : String) :
    AttemptScript (Except Error String) :=
  (invoke Opcode.AUTH_CAPTCHA_REQUEST
    (.object [("source", .string "auth"), ("identifier", .string phone)])).orFail fun response =>
    let captchaLink := ((response.payload.get "link").asStr).getD ""
    if captchaLink.isEmpty then .done (.error (.unexpectedResponse "missing captcha link"))
    else
      match okOr config.captcha.solverUrl .captchaSolverDisabled with
      | .error error => .done (.error error)
      | .ok solverUrl => .call (.solveCaptcha solverUrl config.captcha captchaLink) .done

def requestSmsCode (config : LoginConfig) (phone : String) :
    AttemptScript (Except Error String) :=
  (requestSmsCodeWithCaptchaToken phone none).bind fun
    | .ok token => .done (.ok token)
    | .error err =>
      if shouldRetrySmsWithCaptcha err then
        (solveAuthCaptcha config phone).orFail fun captchaToken =>
          requestSmsCodeWithCaptchaToken phone (some captchaToken)
      else .done (.error err)

/-- The part of `login` behind the saved token. -/
def smsLogin (config : LoginConfig) : AttemptScript (Except Error String) :=
  match okOr config.phone (.unexpectedResponse "missing phone for SMS login") with
  | .error error => .done (.error error)
  | .ok phone =>
    (requestSmsCode config phone).orFail fun smsToken =>
      Script.orFail (.call (.requestSmsCode config.operator phone) .done) fun code =>
        verifySmsCode config smsToken (trim code)

/-- `AuthFlow::login`. -/
def login (config : LoginConfig) : AttemptScript (Except Error String) :=
  match config.sessionToken with
  | some token =>
    (performLogin token).bind fun
      | .ok token => .done (.ok token)
      | .error err =>
        if shouldFallbackToSmsLogin err then smsLogin config else .done (.error err)
  | none => smsLogin config

def sessionInitPayload (userAgent : UserAgent) (deviceId : String) : Value :=
  .object [("userAgent", userAgent.toValue), ("deviceId", .string deviceId)]

/-- `MaxClient::run_attempt`. -/
def runAttempt (deviceId : String) (config : LoginConfig) : AttemptScript (Except Error Unit) :=
  Script.orFail (.call .connect .done) fun _ =>
  Script.call .spawnReader fun _ =>
  (invoke Opcode.SESSION_INIT (sessionInitPayload .default deviceId)).orFail fun _ =>
  Script.call .spawnKeepalive fun _ =>
  (login config).orFail fun token =>
  Script.call (.setSessionToken token) fun _ =>
  Script.orFail (.call .connected .done) fun _ =>
  Script.call .stampConnectedAt fun _ =>
  Script.call .dispatch fun _ => .done (.ok ())

end Maxrs
