import Maxrs.Json
set_option autoImplicit false

namespace Maxrs

structure IncomingMessage where
  chatId : Int
  messageId : Int
  sender : Int
  text : String
  time : Int

inductive MessageElementKind where
  | strong | emphasized | underline | strikethrough | monospaced | code | link | heading | quote
  deriving DecidableEq

namespace MessageElementKind

/-- Serialized in `SCREAMING_SNAKE_CASE`. -/
def toValue : MessageElementKind → Value
  | .strong => .string "STRONG"
  | .emphasized => .string "EMPHASIZED"
  | .underline => .string "UNDERLINE"
  | .strikethrough => .string "STRIKETHROUGH"
  | .monospaced => .string "MONOSPACED"
  | .code => .string "CODE"
  | .link => .string "LINK"
  | .heading => .string "HEADING"
  | .quote => .string "QUOTE"

end MessageElementKind

/-- Type-specific attributes of an element; a link has its target here. -/
structure ElementAttributes where
  url : Option String

namespace ElementAttributes

def default : ElementAttributes where
  url := none

def isEmpty (a : ElementAttributes) : Bool := a.url.isNone

/-- `url` is left out when there is none. -/
def toValue (a : ElementAttributes) : Value :=
  .object (match a.url with
    | some url => [("url", .string url)]
    | none => [])

end ElementAttributes

/-- A formatter annotation over a span of the text; `start` is the field `from`. -/
structure MessageElement where
  kind : MessageElementKind
  start : USize
  length : USize
  attributes : ElementAttributes

namespace MessageElement

/-- `attributes` is left out when it is empty. -/
def toValue (e : MessageElement) : Value :=
  .object ([("type", e.kind.toValue), ("from", .int e.start.toNat),
      ("length", .int e.length.toNat)] ++
    if e.attributes.isEmpty then [] else [("attributes", e.attributes.toValue)])

end MessageElement

structure MaxMessage where
  text : String
  elements : List MessageElement

structure UserAgent where
  deviceType : String
  locale : String
  deviceLocale : String
  osVersion : String
  deviceName : String
  headerUserAgent : String
  appVersion : String
  screen : String
  timezone : String

def BROWSER_USER_AGENT : String :=
  "Mozilla/5.0 (X11; Linux x86_64) AppleWebKit/537.36 (KHTML, like Gecko) " ++
    "Chrome/147.0.0.0 Safari/537.36"

namespace UserAgent

def default : UserAgent where
  deviceType := "WEB"
  locale := "ru"
  deviceLocale := "ru"
  osVersion := "Linux"
  deviceName := "Chrome"
  headerUserAgent := BROWSER_USER_AGENT
  appVersion := "26.8.4"
  screen := "1080x1920 1.0x"
  timezone := "Europe/Moscow"

def toValue (u : UserAgent) : Value :=
  .object [("deviceType", .string u.deviceType), ("locale", .string u.locale),
    ("deviceLocale", .string u.deviceLocale), ("osVersion", .string u.osVersion),
    ("deviceName", .string u.deviceName), ("headerUserAgent", .string u.headerUserAgent),
    ("appVersion", .string u.appVersion), ("screen", .string u.screen),
    ("timezone", .string u.timezone)]

end UserAgent

end Maxrs
