import Mathlib.Tactic.IntervalCases
set_option autoImplicit false

/-! Percent coding of bytes in text: the decoder of the URL standard, an encoder that leaves
the bytes of a set `keep` as they are, and the round trip. -/
namespace Percent

def hexDigit (n : Nat) : Char := "0123456789ABCDEF".toList.getD n '0'

def hexValue (c : Char) : Option Nat :=
  if c.isDigit then some (c.toNat - '0'.toNat)
  else if 'a' ≤ c ∧ c ≤ 'f' then some (c.toNat - 'a'.toNat + 10)
  else if 'A' ≤ c ∧ c ≤ 'F' then some (c.toNat - 'A'.toNat + 10)
  else none

def isUpperHexDigit (c : Char) : Bool := c.isDigit || ('A' ≤ c && c ≤ 'F')

def encodeByte (keep : UInt8 → Bool) (byte : UInt8) : List Char :=
  if keep byte then [Char.ofNat byte.toNat]
  else ['%', hexDigit (byte.toNat / 16), hexDigit (byte.toNat % 16)]

def encode (keep : UInt8 → Bool) (bytes : List UInt8) : List Char :=
  bytes.flatMap (encodeByte keep)

/-- An escape stands for its byte; any other character, also a `%` that starts no escape,
for its own UTF-8 bytes. -/
def decode : List Char → List UInt8
  | '%' :: h :: l :: rest =>
    match hexValue h, hexValue l with
    | some x, some y => UInt8.ofNat (16 * x + y) :: decode rest
    | _, _ => String.utf8EncodeChar '%' ++ decode (h :: l :: rest)
  | c :: rest => String.utf8EncodeChar c ++ decode rest
  | [] => []

/-- Text made of characters of `plain` and of escapes with upper-case digits. -/
inductive Escaped (plain : Char → Bool) : List Char → Prop where
  | nil : Escaped plain []
  | plain {c : Char} {rest : List Char} (hc : plain c) (hr : Escaped plain rest) :
      Escaped plain (c :: rest)
  | escape {h l : Char} {rest : List Char} (hh : isUpperHexDigit h) (hl : isUpperHexDigit l)
      (hr : Escaped plain rest) : Escaped plain ('%' :: h :: l :: rest)

theorem Escaped.mem {plain : Char → Bool} {s : List Char} (hs : Escaped plain s) {c : Char}
    (hc : c ∈ s) : plain c ∨ c = '%' ∨ isUpperHexDigit c := by
  induction hs with
  | nil => cases hc
  | plain hp _ ih =>
    rcases List.mem_cons.mp hc with rfl | hc
    · exact .inl hp
    · exact ih hc
  | escape hh hl _ ih =>
    simp only [List.mem_cons] at hc
    rcases hc with rfl | rfl | rfl | hc
    · exact .inr (.inl rfl)
    · exact .inr (.inr hh)
    · exact .inr (.inr hl)
    · exact ih hc

theorem hexValue_hexDigit {n : Nat} (h : n < 16) : hexValue (hexDigit n) = some n := by
  interval_cases n <;> decide

theorem isUpperHexDigit_hexDigit {n : Nat} (h : n < 16) : isUpperHexDigit (hexDigit n) := by
  interval_cases n <;> decide

theorem decode_plain {c : Char} (hc : c ≠ '%') (rest : List Char) :
    decode (c :: rest) = String.utf8EncodeChar c ++ decode rest := by
  rw [decode.eq_2]
  intro h l tail hp _
  exact hc hp

theorem decode_escape {x y : Nat} (hx : x < 16) (hy : y < 16) (rest : List Char) :
    decode ('%' :: hexDigit x :: hexDigit y :: rest) = UInt8.ofNat (16 * x + y) :: decode rest := by
  rw [decode, hexValue_hexDigit hx, hexValue_hexDigit hy]

section Keep

variable {keep : UInt8 → Bool}

theorem encode_cons (b : UInt8) (bs : List UInt8) :
    encode keep (b :: bs) = encodeByte keep b ++ encode keep bs := List.flatMap_cons

theorem encode_ne_nil {bs : List UInt8} (h : bs ≠ []) : encode keep bs ≠ [] := by
  cases bs with
  | nil => exact absurd rfl h
  | cons b bs =>
    rw [encode_cons, encodeByte]
    split <;> simp

theorem encode_escaped {plain : Char → Bool}
    (hplain : ∀ b, keep b → plain (Char.ofNat b.toNat)) (bs : List UInt8) :
    Escaped plain (encode keep bs) := by
  induction bs with
  | nil => exact .nil
  | cons b bs ih =>
    rw [encode_cons, encodeByte]
    have hb := b.toNat_lt
    split
    · rename_i hk
      exact .plain (hplain b hk) ih
    · exact .escape (isUpperHexDigit_hexDigit (by omega)) (isUpperHexDigit_hexDigit (by omega)) ih

theorem toNat_ofNat_byte (b : UInt8) : (Char.ofNat b.toNat).toNat = b.toNat := by
  have hb := b.toNat_lt
  rw [Char.ofNat, dif_pos (.inl (by omega))]
  rfl

theorem utf8EncodeChar_ofNat {b : UInt8} (h : b.toNat < 128) :
    String.utf8EncodeChar (Char.ofNat b.toNat) = [b] := by
  have hv : (Char.ofNat b.toNat).val.toNat = b.toNat := toNat_ofNat_byte b
  rw [String.utf8EncodeChar.eq_def]
  simp [hv, show b.toNat ≤ 127 by omega]

/-- The decoder resynchronises after every byte: what follows is decoded by itself. -/
theorem decode_encodeByte (hascii : ∀ b, keep b → b.toNat < 128)
    (hpercent : keep 0x25 = false) (b : UInt8) (rest : List Char) :
    decode (encodeByte keep b ++ rest) = b :: decode rest := by
  rw [encodeByte]
  split
  · rename_i hk
    have hne : Char.ofNat b.toNat ≠ '%' := by
      intro he
      have hv := congrArg Char.toNat he
      rw [toNat_ofNat_byte] at hv
      have h25 : b = 0x25 := UInt8.toNat_inj.mp hv
      rw [h25, hpercent] at hk
      cases hk
    rw [List.singleton_append, decode_plain hne, utf8EncodeChar_ofNat (hascii b hk)]
    rfl
  · have hb := b.toNat_lt
    rw [List.cons_append, List.cons_append, List.singleton_append,
      decode_escape (by omega) (by omega), Nat.div_add_mod]
    rw [UInt8.ofNat_toNat]

theorem decode_encode (hascii : ∀ b, keep b → b.toNat < 128) (hpercent : keep 0x25 = false)
    (bs : List UInt8) : decode (encode keep bs) = bs := by
  induction bs with
  | nil => rfl
  | cons b bs ih => rw [encode_cons, decode_encodeByte hascii hpercent, ih]

end Keep

end Percent
