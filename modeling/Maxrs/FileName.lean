import Maxrs.Kit.Percent
import Maxrs.Send
set_option autoImplicit false

/-! The file name of an upload, as the `Content-Disposition` header carries it. -/
namespace Maxrs

/-- The characters that `percent_encode_file_name` leaves alone. -/
def isPlainFileNameChar (c : Char) : Bool :=
  c.isAlphanum || c == '-' || c == '.' || c == '_' || c == '~'

def headerSeparators : List Char := "()<>@,;:\\\"/[]?=\x7b\x7d \t".toList

theorem byteList_loop (bs : ByteArray) (i : Nat) (acc : List UInt8) :
    ByteArray.toList.loop bs i acc = acc.reverse ++ bs.data.toList.drop i := by
  induction i, acc using ByteArray.toList.loop.induct bs with
  | case1 i acc h ih =>
    have hi : i < bs.data.toList.length := by simpa using h
    rw [ByteArray.toList.loop, if_pos h, ih, List.drop_eq_getElem_cons hi]
    simp [ByteArray.get!, h]
  | case2 i acc h =>
    have hi : bs.data.toList.length ≤ i := by simpa using h
    rw [ByteArray.toList.loop, if_neg h, List.drop_eq_nil_of_le hi, List.append_nil]

theorem byteList_eq (bs : ByteArray) : bs.toList = bs.data.toList := by
  rw [ByteArray.toList, byteList_loop]
  rfl

theorem utf8_injective {s t : String} (h : s.toUTF8.toList = t.toUTF8.toList) : s = t := by
  rw [byteList_eq, byteList_eq] at h
  have hb : s.toByteArray = t.toByteArray := ByteArray.ext (Array.toList_inj.mp h)
  exact String.toByteArray_inj.mp hb

theorem utf8_ne_nil {s : String} (h : s ≠ "") : s.toUTF8.toList ≠ [] := by
  intro hn
  have he : "".toUTF8.toList = [] := by
    rw [byteList_eq]
    rfl
  exact h (utf8_injective (hn.trans he.symm))

theorem ascii_of_le {c d : Char} (h : c.val ≤ d.val) (hd : d.toNat < 128) : c.toNat < 128 :=
  Nat.lt_of_le_of_lt (UInt32.le_iff_toNat_le.mp h) hd

theorem isAlphanum_ascii {c : Char} (h : c.isAlphanum) : c.toNat < 128 := by
  have hcases : ((c.val ≥ 'A'.val ∧ c.val ≤ 'Z'.val) ∨ (c.val ≥ 'a'.val ∧ c.val ≤ 'z'.val)) ∨
      c.val ≥ '0'.val ∧ c.val ≤ '9'.val := by
    rcases Bool.or_eq_true_iff.mp h with h | h
    · rcases Bool.or_eq_true_iff.mp h with h | h
      · exact .inl (.inl (of_decide_eq_true h))
      · exact .inl (.inr (by simpa using Bool.and_eq_true_iff.mp h))
    · exact .inr (by simpa using Bool.and_eq_true_iff.mp h)
  rcases hcases with (⟨-, h⟩ | ⟨-, h⟩) | ⟨-, h⟩
  · exact ascii_of_le h (by decide)
  · exact ascii_of_le h (by decide)
  · exact ascii_of_le h (by decide)

theorem isPlainFileNameChar_ascii {c : Char} (h : isPlainFileNameChar c) : c.toNat < 128 := by
  simp only [isPlainFileNameChar, Bool.or_eq_true, beq_iff_eq] at h
  rcases h with (((h | rfl) | rfl) | rfl) | rfl
  · exact isAlphanum_ascii h
  all_goals decide

theorem isUnreserved_plain (b : UInt8) (h : isUnreserved b) :
    isPlainFileNameChar (Char.ofNat b.toNat) := by
  simp only [isUnreserved, Bool.or_eq_true, Bool.and_eq_true] at h
  simp only [isPlainFileNameChar, Bool.or_eq_true]
  rcases h with (((⟨-, h⟩ | h) | h) | h) | h
  · exact .inl (.inl (.inl (.inl h)))
  · exact .inl (.inl (.inl (.inr h)))
  · exact .inl (.inl (.inr h))
  · exact .inl (.inr h)
  · exact .inr h

theorem isUnreserved_ascii (b : UInt8) (h : isUnreserved b) : b.toNat < 128 := by
  have hc := isPlainFileNameChar_ascii (isUnreserved_plain b h)
  rwa [Percent.toNat_ofNat_byte] at hc

theorem percentEncodeFileName_toList (s : String) :
    (percentEncodeFileName s).toList = Percent.encode isUnreserved s.toUTF8.toList := by
  rw [percentEncodeFileName, String.toList_ofList]
  rfl

theorem percentEncodeFileName_escaped (s : String) :
    Percent.Escaped isPlainFileNameChar (percentEncodeFileName s).toList := by
  rw [percentEncodeFileName_toList]
  exact Percent.encode_escaped isUnreserved_plain _

theorem percentDecode_fileName (s : String) :
    Percent.decode (percentEncodeFileName s).toList = s.toUTF8.toList := by
  rw [percentEncodeFileName_toList]
  exact Percent.decode_encode isUnreserved_ascii (by decide) _

theorem percentEncodeFileName_injective {s t : String}
    (h : percentEncodeFileName s = percentEncodeFileName t) : s = t := by
  apply utf8_injective
  rw [← percentDecode_fileName s, ← percentDecode_fileName t, h]

theorem normalizedFileName_ne_empty (s : String) : normalizedFileName s ≠ "" := by
  unfold normalizedFileName
  split
  · decide
  · rename_i h
    intro he
    rw [he] at h
    exact h rfl

theorem percentEncodeFileName_ne_empty {s : String} (h : s ≠ "") :
    percentEncodeFileName s ≠ "" := by
  intro he
  have hl := percentEncodeFileName_toList s
  rw [he] at hl
  exact Percent.encode_ne_nil (utf8_ne_nil h) hl.symm

/-- A character that can stand in a header value without ending or splitting it. -/
def isHeaderSafe (c : Char) : Bool :=
  '!' ≤ c && c ≤ '~' && !headerSeparators.contains c

theorem forall_ascii {P : Char → Prop} (h : ∀ n < 128, P (Char.ofNat n)) {c : Char}
    (hc : c.toNat < 128) : P c := by
  have hp := h c.toNat hc
  rwa [Char.ofNat_toNat] at hp

theorem isHeaderSafe_plain {c : Char} (h : isPlainFileNameChar c) : isHeaderSafe c := by
  have hc := isPlainFileNameChar_ascii h
  revert h
  exact forall_ascii (P := fun c => isPlainFileNameChar c → isHeaderSafe c) (by decide) hc

theorem isHeaderSafe_upperHexDigit {c : Char} (h : Percent.isUpperHexDigit c) :
    isHeaderSafe c := by
  have hc : c.toNat < 128 := by
    simp only [Percent.isUpperHexDigit, Char.isDigit, Bool.or_eq_true, Bool.and_eq_true,
      decide_eq_true_eq] at h
    rcases h with ⟨-, h⟩ | ⟨-, h⟩
    · exact ascii_of_le h (by decide)
    · exact ascii_of_le h (by decide)
  revert h
  exact forall_ascii (P := fun c => Percent.isUpperHexDigit c → isHeaderSafe c) (by decide) hc

theorem percentEncodeFileName_headerSafe {s : String} {c : Char}
    (hc : c ∈ (percentEncodeFileName s).toList) : isHeaderSafe c := by
  rcases (percentEncodeFileName_escaped s).mem hc with h | rfl | h
  · exact isHeaderSafe_plain h
  · decide
  · exact isHeaderSafe_upperHexDigit h

/-- Encoding a file name loses nothing and lets no delimiter of the header through. -/
theorem file_name_encoding (fileName : String) :
    Percent.Escaped isPlainFileNameChar (percentEncodeFileName fileName).toList ∧
    (∀ c ∈ (percentEncodeFileName fileName).toList, isHeaderSafe c) ∧
    Percent.decode (percentEncodeFileName fileName).toList = fileName.toUTF8.toList ∧
    (∀ other, fileName ≠ other →
      percentEncodeFileName fileName ≠ percentEncodeFileName other) ∧
    percentEncodeFileName (normalizedFileName fileName) ≠ "" := by
  refine ⟨percentEncodeFileName_escaped fileName, fun c hc => percentEncodeFileName_headerSafe hc,
    percentDecode_fileName fileName, fun other hne he => ?_, ?_⟩
  · exact hne (percentEncodeFileName_injective he)
  · exact percentEncodeFileName_ne_empty (normalizedFileName_ne_empty fileName)

end Maxrs
