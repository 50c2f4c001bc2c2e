import Maxrs.Auth
set_option autoImplicit false

/-! `AuthCaptchaConfig::callback_url`: the address that the solver is told to post to. -/
namespace Maxrs

def DEFAULT_CAPTCHA_CALLBACK_PATH : String := "/captcha-callback"

/-- `std::net::SocketAddr`, with what its `Display` shows. -/
inductive SocketAddr where
  | v4 (ip : Vector UInt8 4) (port : UInt16)
  | v6 (ip : Vector UInt16 8) (port : UInt16) (scopeId : UInt32)

structure ZeroSpan where
  start : Nat
  len : Nat

namespace SocketAddr

def port : SocketAddr → UInt16
  | .v4 _ port | .v6 _ port _ => port

def isUnspecified : SocketAddr → Bool
  | .v4 ip _ => ip.toList.all (· == 0)
  | .v6 ip _ _ => ip.toList.all (· == 0)

def displayV4 (octets : List UInt8) : List Char :=
  ['.'].intercalate (octets.map fun o => Nat.toDigits 10 o.toNat)

/-- The first of the longest runs of zero groups. -/
def zeroSpan (segments : List UInt16) : ZeroSpan :=
  (segments.zipIdx.foldl (fun (longest, current) (segment, i) =>
    if segment = 0 then
      let current : ZeroSpan :=
        { start := if current.len = 0 then i else current.start, len := current.len + 1 }
      (if current.len > longest.len then current else longest, current)
    else (longest, { start := 0, len := 0 }))
    (({ start := 0, len := 0 } : ZeroSpan), ({ start := 0, len := 0 } : ZeroSpan))).1

def displayGroups (segments : List UInt16) : List Char :=
  [':'].intercalate (segments.map fun s => Nat.toDigits 16 s.toNat)

def displayV6 (segments : List UInt16) : List Char :=
  match segments with
  | [0, 0, 0, 0, 0, 0xFFFF, g, h] =>
    "::ffff:".toList ++ displayV4
      [(g >>> 8).toUInt8, g.toUInt8, (h >>> 8).toUInt8, h.toUInt8]
  | _ =>
    let zeroes := zeroSpan segments
    if zeroes.len > 1 then
      displayGroups (segments.take zeroes.start) ++ "::".toList ++
        displayGroups (segments.drop (zeroes.start + zeroes.len))
    else displayGroups segments

def display : SocketAddr → List Char
  | .v4 ip port => displayV4 ip.toList ++ ':' :: Nat.toDigits 10 port.toNat
  | .v6 ip port scopeId =>
    '[' :: displayV6 ip.toList ++
      (if scopeId = 0 then [] else '%' :: Nat.toDigits 10 scopeId.toNat) ++
      ']' :: ':' :: Nat.toDigits 10 port.toNat

end SocketAddr

def normalizeCallbackAddr (callbackAddr : SocketAddr) : SocketAddr :=
  if callbackAddr.isUnspecified then
    match callbackAddr with
    | .v4 _ port => .v4 #v[127, 0, 0, 1] port
    | .v6 _ port _ => .v6 #v[0, 0, 0, 0, 0, 0, 0, 1] port 0
  else callbackAddr

/-- `str::replace`; `skip` characters of a match are still to come. -/
def replaceFrom (pattern new : List Char) : Nat → List Char → List Char
  | _, [] => []
  | skip + 1, _ :: rest => replaceFrom pattern new skip rest
  | 0, c :: rest =>
    if pattern.isPrefixOf (c :: rest) then
      new ++ replaceFrom pattern new (pattern.length - 1) rest
    else c :: replaceFrom pattern new 0 rest

namespace AuthCaptchaConfig

def callbackUrl (config : AuthCaptchaConfig) (callbackAddr : SocketAddr) : String :=
  String.ofList <| (match config.callbackUrlBase with
    | some base =>
      trimEndSlashes (replaceFrom "\x7bport\x7d".toList
        (Nat.toDigits 10 callbackAddr.port.toNat) 0 base.toList)
    | none => "http://".toList ++ (normalizeCallbackAddr callbackAddr).display) ++
    DEFAULT_CAPTCHA_CALLBACK_PATH.toList

end AuthCaptchaConfig

/-- The path of an absolute URL: what stands behind the authority, up to a query or a fragment. -/
def urlPath (url : String) : String :=
  let behind := url.toList.dropWhile (· != ':')
  let authority := behind.drop 3
  String.ofList ((authority.dropWhile (· != '/')).takeWhile fun c => c != '?' && c != '#')

theorem mem_intersperse {α : Type} {sep a : α} {xs : List α} (h : a ∈ xs.intersperse sep) :
    a = sep ∨ a ∈ xs := by
  obtain ⟨i, hi⟩ := List.mem_iff_getElem?.mp h
  rw [List.getElem?_intersperse] at hi
  split at hi
  · exact .inr (List.mem_of_getElem? hi)
  · split at hi <;> cases hi
    exact .inl rfl

theorem mem_intercalate {α : Type} {sep : List α} {xs : List (List α)} {a : α}
    (h : a ∈ sep.intercalate xs) : a ∈ sep ∨ ∃ x ∈ xs, a ∈ x := by
  simp only [List.intercalate, List.mem_flatten] at h
  obtain ⟨l, hl, ha⟩ := h
  rcases mem_intersperse hl with rfl | hl
  · exact .inl ha
  · exact .inr ⟨l, hl, ha⟩

theorem toDigits_ne_slash {b n : Nat} (hb : 1 < b) {c : Char} (h : c ∈ Nat.toDigits b n) :
    c ≠ '/' := by
  induction n using Nat.strongRecOn with
  | _ n ih =>
    rw [Nat.toDigits_eq_if hb] at h
    split at h
    · rw [List.mem_singleton.mp h]
      exact Nat.digitChar_ne '/' (by decide)
    · rcases List.mem_append.mp h with h | h
      · exact ih (n / b) (Nat.div_lt_self (by omega) hb) h
      · rw [List.mem_singleton.mp h]
        exact Nat.digitChar_ne '/' (by decide)

namespace SocketAddr

theorem displayV4_ne_slash {octets : List UInt8} {c : Char} (h : c ∈ displayV4 octets) :
    c ≠ '/' := by
  rcases mem_intercalate h with h | ⟨l, hl, h⟩
  · rw [List.mem_singleton.mp h]
    decide
  · obtain ⟨o, -, rfl⟩ := List.mem_map.mp hl
    exact toDigits_ne_slash (by decide) h

theorem displayGroups_ne_slash {segments : List UInt16} {c : Char}
    (h : c ∈ displayGroups segments) : c ≠ '/' := by
  rcases mem_intercalate h with h | ⟨l, hl, h⟩
  · rw [List.mem_singleton.mp h]
    decide
  · obtain ⟨o, -, rfl⟩ := List.mem_map.mp hl
    exact toDigits_ne_slash (by decide) h

theorem displayV6_ne_slash {segments : List UInt16} {c : Char} (h : c ∈ displayV6 segments) :
    c ≠ '/' := by
  have hfixed : ∀ {l : List Char}, '/' ∉ l → c ∈ l → c ≠ '/' := by
    rintro l hl hc rfl
    exact hl hc
  unfold displayV6 at h
  split at h
  · rcases List.mem_append.mp h with h | h
    · exact hfixed (by decide) h
    · exact displayV4_ne_slash h
  · simp only at h
    split at h
    · rcases List.mem_append.mp h with h | h
      · rcases List.mem_append.mp h with h | h
        · exact displayGroups_ne_slash h
        · exact hfixed (by decide) h
      · exact displayGroups_ne_slash h
    · exact displayGroups_ne_slash h

theorem slash_notMem_display (addr : SocketAddr) : '/' ∉ addr.display := by
  intro h
  cases addr with
  | v4 ip port =>
    simp only [display, List.mem_append, List.mem_cons, Char.reduceEq, false_or] at h
    rcases h with h | h
    · exact displayV4_ne_slash h rfl
    · exact toDigits_ne_slash (by decide) h rfl
  | v6 ip port scopeId =>
    simp only [display, List.cons_append, List.mem_append, List.mem_cons, Char.reduceEq,
      false_or] at h
    rcases h with (h | h) | h
    · exact displayV6_ne_slash h rfl
    · split at h
      · cases h
      · simp only [List.mem_cons, Char.reduceEq, false_or] at h
        exact toDigits_ne_slash (by decide) h rfl
    · exact toDigits_ne_slash (by decide) h rfl

end SocketAddr

theorem urlPath_http {authority path : List Char} (ha : '/' ∉ authority)
    (hp : path.takeWhile (fun c => c != '?' && c != '#') = path) (hs : path.head? = some '/') :
    urlPath (String.ofList ("http://".toList ++ authority ++ path)) = String.ofList path := by
  have hdrop : (authority ++ path).dropWhile (· != '/') = path := by
    have hpos : ∀ c ∈ authority, (c != '/') = true := fun c hc => by
      rw [bne_iff_ne]
      rintro rfl
      exact ha hc
    rw [List.dropWhile_append_of_pos hpos]
    cases path with
    | nil => cases hs
    | cons c rest =>
      cases hs
      rfl
  have hfront : (("http://".toList ++ authority ++ path).dropWhile (· != ':')).drop 3 =
      authority ++ path := rfl
  simp only [urlPath, String.toList_ofList, hfront, hdrop, hp]

/-- Without a configured base the URL is that of the listener itself. -/
theorem AuthCaptchaConfig.callbackUrl_path {config : AuthCaptchaConfig} (addr : SocketAddr)
    (h : config.callbackUrlBase = none) :
    urlPath (config.callbackUrl addr) = DEFAULT_CAPTCHA_CALLBACK_PATH := by
  rw [callbackUrl, h]
  exact (urlPath_http (SocketAddr.slash_notMem_display _) rfl rfl).trans rfl

example : (AuthCaptchaConfig.callbackUrl
    { solverUrl := none, callbackBind := "", callbackUrlBase := some "https://x:{port}/" }
    (.v4 #v[0, 0, 0, 0] 3002)) = "https://x:3002/captcha-callback" := by decide

end Maxrs
