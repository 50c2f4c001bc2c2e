import Mathlib.Data.List.Basic
set_option autoImplicit false

/-! An encoder with a decoder that reads back what it wrote. -/
universe u v

structure Codec (α : Type u) (β : Type v) where
  encode : α → β
  decode : β → Option α
  decode_encode : ∀ a, decode (encode a) = some a

namespace Codec

variable {α : Type u} {β : Type v}

theorem mapM_encode (c : Codec α β) (as : List α) :
    (as.map c.encode).mapM c.decode = some as := by
  induction as with
  | nil => rfl
  | cons a as ih => simp [List.mapM_cons, c.decode_encode, ih]

def list (c : Codec α β) : Codec (List α) (List β) where
  encode := List.map c.encode
  decode := List.mapM c.decode
  decode_encode := c.mapM_encode

end Codec
