import Maxrs.Auth
import Maxrs.Kit.Observe
set_option autoImplicit false

/-! `auth/operator_channels/telegram.rs`: the replies of the Bot API, and the loop of
`request_text` with its polling offset. A reply is what `reqwest` returns after its retries. -/
namespace Maxrs.Telegram

structure TelegramOperatorConfig where
  botToken : String
  botUserId : Int
  chatId : Int
  /-- Seconds, as the clock of `RequestText`. -/
  pollTimeout : Nat

structure DisplayText where
  status : Nat → String
  value : Value → String

def OK : Nat := 200

/-- An `Instant` counts its seconds in an `i64`. -/
def INSTANT_END : Nat := 2 ^ 63

abbrev Reply := Except HttpError (Nat × Except HttpError Value)

variable (display : DisplayText)

def ensureTelegramHttpStatus (status : Nat) : Except Error Unit :=
  if status == REQUEST_TIMEOUT || status == TOO_MANY_REQUESTS || isServerErrorStatus status then
    .error (.telegramUnavailable ("HTTP " ++ display.status status))
  else .ok ()

def ensureTelegramSuccess (status : Nat) (response : Value) : Except Error Unit := do
  ensureTelegramHttpStatus display status
  if (response.get "ok").asBool.getD false then return ()
  let errorCode := (response.get "error_code").asU64
  if errorCode == some 429 || errorCode.any (fun code => 500 ≤ code && code < 600) then
    throw (.telegramUnavailable (display.value response))
  else throw (.telegram (display.value response))

def replyPayload : Reply → Except Error Value
  | .error error => .error (.http error)
  | .ok (status, body) => do
    ensureTelegramHttpStatus display status
    let payload ← body.mapError .http
    ensureTelegramSuccess display status payload
    return payload

def fetchUpdates (reply : Reply) : Except Error Value := replyPayload display reply

def updateIds (updates : List Value) : List Int :=
  updates.filterMap fun update => (update.get "update_id").asI64

theorem updateIds_append (us vs : List Value) :
    updateIds (us ++ vs) = updateIds us ++ updateIds vs := by
  simp [updateIds]

theorem updateIds_singleton (u : Value) : updateIds [u] = (u.get "update_id").asI64.toList := by
  cases h : (u.get "update_id").asI64 <;> simp [updateIds, h]

theorem fits_of_mem_updateIds {us : List Value} {id : Int} (h : id ∈ updateIds us) :
    Value.fitsI64 id := by
  obtain ⟨u, -, hu⟩ := List.mem_filterMap.mp h
  exact Value.asI64_fits hu

/-- The id that `next_update_offset` takes from a reply. -/
def latestId (resp : Value) : Option Int :=
  (resp.get "result").asArray.bind fun updates => (updateIds updates).max?

theorem latestId_fits {resp : Value} {id : Int} (h : latestId resp = some id) :
    Value.fitsI64 id := by
  obtain ⟨us, -, hmax⟩ := Option.bind_eq_some_iff.mp h
  exact fits_of_mem_updateIds (List.max?_mem hmax)

/-- `none` when `id + 1` overflows. -/
def nextUpdateOffset (resp : Value) : Except Error (Option Int) := do
  ensureTelegramSuccess display OK resp
  return match latestId resp with
    | some id => checkedI64 (id + 1)
    | none => some 0

def isOwnMessage (message : Value) (botUserId : Int) : Bool :=
  ((message.get "from").get "id").asI64 == some botUserId

def operatorTextFromUpdate (update : Value) (chatId botUserId : Int) : Option String :=
  let message := update.get "message"
  if ((message.get "chat").get "id").asI64 != some chatId then none
  else if isOwnMessage message botUserId then none
  else (message.get "text").asStr.bind fun text =>
    if (trim text).isEmpty then none else some (trim text)

inductive Request where
  | getUpdates (timeout : Nat) (offset : Option Int)
  | sendMessage (chatId : Int) (text : String)

inductive RequestTextPc where
  /-- In the first `fetch_updates`. -/
  | snapshot
  | sending (offset : Int)
  /-- At the top of the loop. -/
  | polling (offset : Int)
  | fetching (offset : Int)
  /-- Between two updates of a batch. -/
  | scanning (offset : Int) (scanned rest : List Value)
  /-- The offset is past `update`; its text has not been looked at. -/
  | assigned (offset : Int) (scanned : List Value) (update : Value) (rest : List Value)
  | returned (result : Except Error String)
  /-- `id + 1` has overflowed. -/
  | overflowed
  /-- The deadline is no `Instant`. -/
  | panicked

/-- A call of `request_text`. -/
structure RequestText where
  config : TelegramOperatorConfig
  text : String
  now : Nat
  deadline : Nat
  pc : RequestTextPc

inductive RequestTextAction where
  | reply (reply : Reply)
  | sent (reply : Reply) (now : Nat)
  | top (now : Nat)
  | next
  | look

def requestSmsCode (config : TelegramOperatorConfig) (phone : String) : RequestText where
  config := config
  text := "Max login requested for " ++ phone ++ ". Reply to this chat with the SMS code."
  now := 0
  deadline := 0
  pc := .snapshot

namespace RequestText

def request (s : RequestText) : Option Request :=
  match s.pc with
  | .snapshot => some (.getUpdates 0 none)
  | .sending _ => some (.sendMessage s.config.chatId s.text)
  | .fetching offset => some (.getUpdates 20 (some offset))
  | _ => none

def offset? (s : RequestText) : Option Int :=
  match s.pc with
  | .sending offset | .polling offset | .fetching offset => some offset
  | .scanning offset _ _ | .assigned offset _ _ _ => some offset
  | _ => none

def setPc (s : RequestText) (pc : RequestTextPc) : RequestText := { s with pc := pc }

@[simp] theorem setPc_pc (s : RequestText) (pc : RequestTextPc) : (s.setPc pc).pc = pc := rfl

@[simp] theorem setPc_config (s : RequestText) (pc : RequestTextPc) :
    (s.setPc pc).config = s.config := rfl

def timedOut : Error := .telegramUnavailable
  "timed out waiting for an SMS code reply from the configured Telegram chat"

/-- `next_update_offset(&fetch_updates(..).await?)?`. -/
def snapshotPc (reply : Reply) : RequestTextPc :=
  match (fetchUpdates display reply).bind fun resp => nextUpdateOffset display resp with
  | .error error => .returned (.error error)
  | .ok none => .overflowed
  | .ok (some offset) => .sending offset

def fetchedPc (offset : Int) (reply : Reply) : RequestTextPc :=
  match fetchUpdates display reply with
  | .error error => .returned (.error error)
  | .ok resp =>
    match (resp.get "result").asArray with
    | some updates => .scanning offset [] updates
    | none => .polling offset

/-- The head of the `for` loop, and its first statement. -/
def nextPc (offset : Int) (scanned : List Value) : List Value → RequestTextPc
  | [] => .polling offset
  | update :: rest =>
    match (update.get "update_id").asI64 with
    | none => .assigned offset scanned update rest
    | some id =>
      match checkedI64 (id + 1) with
      | some offset => .assigned offset scanned update rest
      | none => .overflowed

def lookPc (config : TelegramOperatorConfig) (offset : Int) (scanned : List Value)
    (update : Value) (rest : List Value) : RequestTextPc :=
  match operatorTextFromUpdate update config.chatId config.botUserId with
  | some text => .returned (.ok text)
  | none => .scanning offset (scanned ++ [update]) rest

def step (s : RequestText) : RequestTextAction → Option RequestText
  | .reply reply =>
    match s.pc with
    | .snapshot => some (s.setPc (snapshotPc display reply))
    | .fetching offset => some (s.setPc (fetchedPc display offset reply))
    | _ => none
  | .sent reply now =>
    match s.pc with
    | .sending offset =>
      if now < s.now then none
      else match replyPayload display reply with
        | .error error => some (s.setPc (.returned (.error error)))
        | .ok _ =>
          -- `Instant + Duration` panics when it overflows
          if INSTANT_END ≤ now + s.config.pollTimeout then some (s.setPc .panicked)
          else some { s with
            now := now, deadline := now + s.config.pollTimeout, pc := .polling offset }
    | _ => none
  | .top now =>
    match s.pc with
    | .polling offset =>
      if now < s.now then none
      else if s.deadline ≤ now then some { s with now := now, pc := .returned (.error timedOut) }
      else some { s with now := now, pc := .fetching offset }
    | _ => none
  | .next =>
    match s.pc with
    | .scanning offset scanned rest => some (s.setPc (nextPc offset scanned rest))
    | _ => none
  | .look =>
    match s.pc with
    | .assigned offset scanned update rest =>
      some (s.setPc (lookPc s.config offset scanned update rest))
    | _ => none

def automaton : Automaton RequestText RequestTextAction where
  init := fun s => ∃ config phone, s = requestSmsCode config phone
  step := step display

end RequestText

end Maxrs.Telegram
