import Maxrs.Telegram
import Mathlib.Data.List.DropRight
set_option autoImplicit false

/-! What a process begins with: its environment variables and the session token file. -/
namespace Maxrs

def ENV_PASSWORD : String := "MAX_PASSWORD"
def ENV_PHONE : String := "MAX_PHONE"
def ENV_SOLVER_URL : String := "MAX_SOLVER_URL"
def ENV_CALLBACK_BIND : String := "MAX_CALLBACK_BIND"
def ENV_CALLBACK_URL_BASE : String := "MAX_CALLBACK_URL_BASE"
def ENV_OPERATOR_CHANNEL : String := "MAX_OPERATOR_CHANNEL"
def ENV_TELEGRAM_BOT_TOKEN : String := "MAX_TELEGRAM_BOT_TOKEN"
def ENV_TELEGRAM_CHAT_ID : String := "MAX_TELEGRAM_CHAT_ID"
def ENV_TELEGRAM_POLL_TIMEOUT_SECS : String := "MAX_TELEGRAM_POLL_TIMEOUT_SECS"

def DEFAULT_SOLVER_URL : String := "http://127.0.0.1:3000"
def DEFAULT_CALLBACK_BIND : String := "127.0.0.1:3002"

/-- `env::var(key).ok()`. -/
abbrev Environment := String → Option String

def nonEmptyTrimmed (value : String) : Option String :=
  if (trim value).isEmpty then none else some (trim value)

/-- `none` is a file that `read_to_string` cannot read. -/
def sessionTokenFromFile (file : Option String) : Option String := file.bind nonEmptyTrimmed

def envString (env : Environment) (key : String) : Option String :=
  ((env key).map trim).filter fun value => !value.isEmpty

def solverUrlFromEnv (value : Option String) : Option String :=
  nonEmptyTrimmed (value.getD DEFAULT_SOLVER_URL)

def AuthCaptchaConfig.fromEnv (env : Environment) : AuthCaptchaConfig where
  solverUrl := solverUrlFromEnv (env ENV_SOLVER_URL)
  callbackBind := (envString env ENV_CALLBACK_BIND).getD DEFAULT_CALLBACK_BIND
  callbackUrlBase := envString env ENV_CALLBACK_URL_BASE

/-- Decimal digits, at least one. -/
def parseDigits (cs : List Char) : Option Nat :=
  if cs.isEmpty || cs.any fun c => !c.isDigit then none
  else some (cs.foldl (fun n c => 10 * n + (c.toNat - '0'.toNat)) 0)

/-- `str::parse::<i64>`: a sign is optional, and nothing stands around the digits. -/
def parseI64 (s : String) : Option Int :=
  Option.bind (match s.toList with
    | '-' :: cs => (parseDigits cs).map fun n => -(n : Int)
    | '+' :: cs => (parseDigits cs).map Int.ofNat
    | cs => (parseDigits cs).map Int.ofNat) checkedI64

/-- `str::parse::<u64>`, which takes no minus sign. -/
def parseU64 (s : String) : Option Nat :=
  (match s.toList with
    | '+' :: cs => parseDigits cs
    | cs => parseDigits cs).filter fun n => n < 2 ^ 64

/-- The number before the first colon. -/
def telegramBotIdFromToken (token : String) : Option Int :=
  if token.toList.contains ':' then
    parseI64 (String.ofList (token.toList.takeWhile fun c => c != ':'))
  else none

def Telegram.TelegramOperatorConfig.fromEnv (env : Environment) :
    Except Error Telegram.TelegramOperatorConfig :=
  match envString env ENV_TELEGRAM_BOT_TOKEN with
  | none => .error (.telegramConfigMissing ("set " ++ ENV_TELEGRAM_BOT_TOKEN))
  | some botToken =>
    match telegramBotIdFromToken botToken with
    | none => .error (.telegramConfigMissing
        (ENV_TELEGRAM_BOT_TOKEN ++ " must start with the numeric Telegram bot id prefix"))
    | some botUserId =>
      match envString env ENV_TELEGRAM_CHAT_ID with
      | none => .error (.telegramConfigMissing ("set " ++ ENV_TELEGRAM_CHAT_ID))
      | some chat =>
        match parseI64 chat with
        | none => .error (.telegramConfigMissing
            (ENV_TELEGRAM_CHAT_ID ++ " must be an integer chat id"))
        | some chatId => .ok
          { botToken := botToken
            botUserId := botUserId
            chatId := chatId
            pollTimeout :=
              ((envString env ENV_TELEGRAM_POLL_TIMEOUT_SECS).bind parseU64).getD 300 }

namespace OperatorChannel

def fromName (env : Environment) (channel : Option String) : Except Error OperatorChannel :=
  -- `to_ascii_lowercase`
  match String.ofList ((channel.getD "none").toList.map Char.toLower) with
  | "cli" => .ok .cli
  | "telegram" | "tg" =>
    (Telegram.TelegramOperatorConfig.fromEnv env).map fun config =>
      .telegram config.botToken config.botUserId config.chatId config.pollTimeout
  | _ => .ok .none

def fromEnv (env : Environment) : Except Error OperatorChannel :=
  fromName env (envString env ENV_OPERATOR_CHANNEL)

end OperatorChannel

/-- `LoginConfig::from_env`, with what stands in the session token file. -/
def LoginConfig.fromEnv (env : Environment) (file : Option String) : Except Error LoginConfig :=
  (OperatorChannel.fromEnv env).map fun operator =>
    { phone := envString env ENV_PHONE
      password := envString env ENV_PASSWORD
      sessionToken := sessionTokenFromFile file
      captcha := AuthCaptchaConfig.fromEnv env
      operator := operator }

theorem envString_eq (env : Environment) (key : String) :
    envString env key = (env key).bind nonEmptyTrimmed := by
  unfold envString
  cases env key with
  | none => rfl
  | some value =>
    by_cases h : (trim value).isEmpty = true
    · simp [nonEmptyTrimmed, String.isEmpty_iff.mp h]
    · simp [nonEmptyTrimmed, h]

theorem trim_toList (s : String) :
    (trim s).toList = (s.toList.dropWhile isWhitespace).rdropWhile isWhitespace := by
  rw [trim, String.toList_ofList]
  rfl

theorem trim_head {s : String} {c : Char} {cs : List Char} (h : (trim s).toList = c :: cs) :
    isWhitespace c = false := by
  have hpre : c :: cs <+: s.toList.dropWhile isWhitespace := by
    rw [← h, trim_toList]
    exact List.rdropWhile_prefix _ _
  obtain ⟨rest, hrest⟩ := hpre
  have hhead := List.head?_dropWhile_not isWhitespace s.toList
  rw [← hrest] at hhead
  simpa using hhead

theorem dropWhile_trim (s : String) :
    (trim s).toList.dropWhile isWhitespace = (trim s).toList := by
  cases h : (trim s).toList with
  | nil => rfl
  | cons c cs => rw [List.dropWhile_cons_of_neg (by simp [trim_head h])]

/-- The line feed behind a stored token goes with the white space. -/
theorem trim_stored (token : String) : trim (trim token ++ "\n") = trim token := by
  rw [← String.toList_inj, trim_toList, String.toList_append]
  have hnl : "\n".toList = ['\n'] := rfl
  rw [hnl]
  cases hu : (trim token).toList with
  | nil => rfl
  | cons c cs =>
    rw [List.cons_append, List.dropWhile_cons_of_neg (by simp [trim_head hu]), ← List.cons_append,
      List.rdropWhile_concat_pos _ _ _ (by decide), ← hu, trim_toList,
      List.rdropWhile_idempotent]

theorem sessionToken_stored {token : String} (ht : (trim token).isEmpty = false) :
    sessionTokenFromFile (some (trim token ++ "\n")) = some (trim token) := by
  simp [sessionTokenFromFile, nonEmptyTrimmed, trim_stored, ht]

theorem nonEmptyTrimmed_eq {value token : String} (h : nonEmptyTrimmed value = some token) :
    trim token = token ∧ token.isEmpty = false := by
  unfold nonEmptyTrimmed at h
  split at h
  · cases h
  · rename_i hne
    cases h
    refine ⟨?_, by simpa using hne⟩
    rw [← String.toList_inj, trim_toList, dropWhile_trim, trim_toList,
      List.rdropWhile_idempotent]

theorem present_nonEmptyTrimmed (value : Option String) :
    LoginConfig.present (value.bind nonEmptyTrimmed) = (value.bind nonEmptyTrimmed).isSome := by
  cases h : value.bind nonEmptyTrimmed with
  | none => rfl
  | some token =>
    obtain ⟨contents, -, hc⟩ := Option.bind_eq_some_iff.mp h
    obtain ⟨htrim, hne⟩ := nonEmptyTrimmed_eq hc
    simp [LoginConfig.present, htrim, hne]

namespace LoginConfig

def Lacks (env : Environment) (file : Option String) : Prop :=
  sessionTokenFromFile file = none ∧
    (envString env ENV_PHONE = none ∨ OperatorChannel.fromEnv env = .ok .none)

theorem fromEnv_eq {env : Environment} {file : Option String} {config : LoginConfig}
    (h : fromEnv env file = .ok config) : OperatorChannel.fromEnv env = .ok config.operator ∧
      config.phone = envString env ENV_PHONE ∧
      config.sessionToken = sessionTokenFromFile file := by
  unfold fromEnv at h
  cases ho : OperatorChannel.fromEnv env with
  | error e =>
    rw [ho] at h
    cases h
  | ok operator =>
    rw [ho] at h
    cases h
    exact ⟨rfl, rfl, rfl⟩

/-- No text of the environment is blank, so that `validate` looks for nothing but presence. -/
theorem validate_fromEnv {env : Environment} {file : Option String} {config : LoginConfig}
    (h : fromEnv env file = .ok config) : config.validate = .ok () ↔ ¬ Lacks env file := by
  obtain ⟨hop, hphone, hsaved⟩ := fromEnv_eq h
  have hs : present config.sessionToken = (sessionTokenFromFile file).isSome := by
    rw [hsaved]
    exact present_nonEmptyTrimmed file
  have hp : present config.phone = (envString env ENV_PHONE).isSome := by
    rw [hphone, envString_eq]
    exact present_nonEmptyTrimmed _
  have ho : config.operator.isNone = true ↔ OperatorChannel.fromEnv env = .ok .none := by
    rw [hop]
    cases config.operator <;> simp [OperatorChannel.isNone]
  unfold validate Lacks
  rw [hs, hp, ← ho]
  cases sessionTokenFromFile file <;> cases envString env ENV_PHONE <;>
    cases config.operator.isNone <;> simp

end LoginConfig

end Maxrs
