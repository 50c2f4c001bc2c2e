import Maxrs.Kit.Codec
import Maxrs.Send
set_option autoImplicit false

/-! The derived `Serialize` and `Deserialize` of `MaxMessage` and what it is made of. -/
namespace Maxrs

namespace Value

/-- `value.get(key)`. -/
def entry (v : Value) (key : String) : Option Value :=
  match v with
  | .object entries => (entries.find? fun e => e.1 == key).map Prod.snd
  | _ => none

/-- `deserialize_struct` takes an object, whose other entries it ignores, or an array that
has no item left over. -/
def isStruct (v : Value) (fields : Nat) : Bool :=
  match v with
  | .object _ => true
  | .array items => items.length ≤ fields
  | _ => false

/-- A field is read by its name from an object and by its position from an array. -/
def structField (v : Value) (key : String) (index : Nat) : Option Value :=
  match v with
  | .array items => items[index]?
  | _ => v.entry key

def asUsize : Value → Option USize
  | .int n => if 0 ≤ n ∧ n < USize.size then some (USize.ofNat n.toNat) else none
  | _ => none

def asOptionString : Value → Option (Option String)
  | .null => some none
  | .string s => some (some s)
  | _ => none

/-- A field with `#[serde(default)]`. -/
def orDefault {α : Type} (read : Value → Option α) (default : α) : Option Value → Option α
  | some v => read v
  | none => some default

theorem orDefault_eq_some {α : Type} {read : Value → Option α} {default a : α}
    {field : Option Value} : orDefault read default field = some a ↔
      (field = none ∧ a = default) ∨ ∃ v, field = some v ∧ read v = some a := by
  cases field <;> simp [orDefault, eq_comm]

theorem asUsize_toNat (n : USize) : asUsize (.int n.toNat) = some n := by
  have hn := n.toNat_lt_size
  have hlt : (n.toNat : Int) < (USize.size : Nat) := Int.ofNat_lt.mpr hn
  rw [asUsize, if_pos ⟨Int.natCast_nonneg _, hlt⟩, Int.toNat_natCast, USize.ofNat_toNat]

end Value

namespace MessageElementKind

def ofVariant : String → Option MessageElementKind
  | "STRONG" => some .strong
  | "EMPHASIZED" => some .emphasized
  | "UNDERLINE" => some .underline
  | "STRIKETHROUGH" => some .strikethrough
  | "MONOSPACED" => some .monospaced
  | "CODE" => some .code
  | "LINK" => some .link
  | "HEADING" => some .heading
  | "QUOTE" => some .quote
  | _ => none

/-- A unit variant is its name, or an object with the name as its one key and `null`. -/
def ofValue : Value → Option MessageElementKind
  | .string variant => ofVariant variant
  | .object [(variant, .null)] => ofVariant variant
  | _ => none

def codec : Codec MessageElementKind Value where
  encode := toValue
  decode := ofValue
  decode_encode := by
    intro kind
    cases kind <;> rfl

end MessageElementKind

namespace ElementAttributes

def ofValue (v : Value) : Option ElementAttributes :=
  if v.isStruct 1 then do
    let url ← Value.orDefault Value.asOptionString none (v.structField "url" 0)
    some { url := url }
  else none

def codec : Codec ElementAttributes Value where
  encode := toValue
  decode := ofValue
  decode_encode := by
    rintro ⟨_ | url⟩ <;> rfl

end ElementAttributes

namespace MessageElement

def ofValue (v : Value) : Option MessageElement :=
  if v.isStruct 4 then do
    let kind ← (v.structField "type" 0).bind MessageElementKind.ofValue
    let start ← Value.orDefault Value.asUsize 0 (v.structField "from" 1)
    let length ← (v.structField "length" 2).bind Value.asUsize
    let attributes ← Value.orDefault ElementAttributes.ofValue .default
      (v.structField "attributes" 3)
    some { kind := kind, start := start, length := length, attributes := attributes }
  else none

theorem toValue_kind (e : MessageElement) :
    e.toValue.structField "type" 0 = some e.kind.toValue := rfl

theorem toValue_from (e : MessageElement) :
    e.toValue.structField "from" 1 = some (.int e.start.toNat) := rfl

theorem toValue_length (e : MessageElement) :
    e.toValue.structField "length" 2 = some (.int e.length.toNat) := rfl

theorem toValue_attributes (e : MessageElement) :
    e.toValue.entry "attributes" =
      if e.attributes.isEmpty then none else some e.attributes.toValue := by
  rw [toValue]
  split <;> rfl

theorem toValue_url (e : MessageElement) : e.toValue.entry "url" = none := by
  rw [toValue]
  split <;> rfl

/-- What `skip_serializing_if` leaves out is what `default` puts back. -/
theorem orDefault_attributes (e : MessageElement) :
    Value.orDefault ElementAttributes.ofValue .default (e.toValue.structField "attributes" 3) =
      some e.attributes := by
  have hf : e.toValue.structField "attributes" 3 = e.toValue.entry "attributes" := rfl
  rw [hf, toValue_attributes]
  split
  · rename_i hempty
    have hurl : e.attributes.url = none := Option.isNone_iff_eq_none.mp hempty
    rw [Value.orDefault, ElementAttributes.default, ← hurl]
  · exact ElementAttributes.codec.decode_encode e.attributes

theorem ofValue_toValue (e : MessageElement) : ofValue e.toValue = some e := by
  have hkind : MessageElementKind.ofValue e.kind.toValue = some e.kind :=
    MessageElementKind.codec.decode_encode e.kind
  have hstruct : e.toValue.isStruct 4 = true := rfl
  rw [ofValue, if_pos hstruct, toValue_kind, toValue_from, toValue_length, orDefault_attributes]
  simp only [Option.bind_some, Value.orDefault, hkind, Value.asUsize_toNat]
  rfl

def codec : Codec MessageElement Value where
  encode := toValue
  decode := ofValue
  decode_encode := ofValue_toValue

/-- An element without `from` starts at 0 and one without `attributes` has the default ones; other
entries than the four are not looked at. -/
theorem ofValue_object {entries : List (String × Value)} {e : MessageElement} :
    ofValue (.object entries) = some e ↔
      (∃ v, (Value.object entries).entry "type" = some v ∧
        MessageElementKind.ofValue v = some e.kind) ∧
      (((Value.object entries).entry "from" = none ∧ e.start = 0) ∨
        ∃ v, (Value.object entries).entry "from" = some v ∧ v.asUsize = some e.start) ∧
      (∃ v, (Value.object entries).entry "length" = some v ∧ v.asUsize = some e.length) ∧
      (((Value.object entries).entry "attributes" = none ∧ e.attributes = .default) ∨
        ∃ v, (Value.object entries).entry "attributes" = some v ∧
          ElementAttributes.ofValue v = some e.attributes) := by
  have hfield : ∀ key index, (Value.object entries).structField key index =
      (Value.object entries).entry key := fun _ _ => rfl
  rw [ofValue, if_pos (show (Value.object entries).isStruct 4 = true from rfl)]
  simp only [hfield, bind, Option.bind_eq_some_iff, Value.orDefault_eq_some, Option.some.injEq]
  constructor
  · rintro ⟨kind, hkind, start, hstart, length, hlength, attributes, hattributes, rfl⟩
    exact ⟨hkind, hstart, hlength, hattributes⟩
  · rintro ⟨hkind, hstart, hlength, hattributes⟩
    exact ⟨e.kind, hkind, e.start, hstart, e.length, hlength, e.attributes, hattributes, rfl⟩

end MessageElement

namespace MaxMessage

def toValue (m : MaxMessage) : Value :=
  .object [("text", .string m.text),
    ("elements", .array (m.elements.map MessageElement.toValue))]

def elementsOfValue (v : Value) : Option (List MessageElement) :=
  v.asArray.bind (List.mapM MessageElement.ofValue)

def ofValue (v : Value) : Option MaxMessage :=
  if v.isStruct 2 then do
    let text ← (v.structField "text" 0).bind Value.asStr
    let elements ← Value.orDefault elementsOfValue [] (v.structField "elements" 1)
    some { text := text, elements := elements }
  else none

theorem elementsOfValue_toValue (elements : List MessageElement) :
    elementsOfValue (.array (elements.map MessageElement.toValue)) = some elements :=
  MessageElement.codec.list.decode_encode elements

theorem ofValue_of_fields {v : Value} {m : MaxMessage} (hstruct : v.isStruct 2 = true)
    (htext : v.structField "text" 0 = some (.string m.text))
    (helements : v.structField "elements" 1 =
      some (.array (m.elements.map MessageElement.toValue))) : ofValue v = some m := by
  rw [ofValue, if_pos hstruct, htext, helements, Value.orDefault, elementsOfValue_toValue]
  rfl

/-- A message without `elements` has none. -/
theorem ofValue_object {entries : List (String × Value)} {m : MaxMessage} :
    ofValue (.object entries) = some m ↔
      (∃ v, (Value.object entries).entry "text" = some v ∧ v.asStr = some m.text) ∧
      (((Value.object entries).entry "elements" = none ∧ m.elements = []) ∨
        ∃ v, (Value.object entries).entry "elements" = some v ∧
          elementsOfValue v = some m.elements) := by
  have hfield : ∀ key index, (Value.object entries).structField key index =
      (Value.object entries).entry key := fun _ _ => rfl
  rw [ofValue, if_pos (show (Value.object entries).isStruct 2 = true from rfl)]
  simp only [hfield, bind, Option.bind_eq_some_iff, Value.orDefault_eq_some, Option.some.injEq]
  constructor
  · rintro ⟨text, htext, elements, helements, rfl⟩
    exact ⟨htext, helements⟩
  · rintro ⟨htext, helements⟩
    exact ⟨m.text, htext, m.elements, helements, rfl⟩

def codec : Codec MaxMessage Value where
  encode := toValue
  decode := ofValue
  decode_encode _ := ofValue_of_fields rfl rfl rfl

end MaxMessage

/-- Messages survive their JSON, also inside the payload of `MSG_SEND`, and a link's target
stands under `attributes` alone. -/
theorem message_json_round_trip :
    (∀ m : MaxMessage, MaxMessage.ofValue m.toValue = some m) ∧
    (∀ m : MaxMessage, m.toValue.entry "elements" =
      some (.array (m.elements.map MessageElement.toValue))) ∧
    (∀ (e : MessageElement) (attributes : Value),
      e.toValue.entry "attributes" = some attributes ↔
        ∃ url, e.attributes.url = some url ∧ attributes = .object [("url", .string url)]) ∧
    (∀ e : MessageElement, e.toValue.entry "url" = none) ∧
    (∀ (v : Value) (m : MaxMessage), MaxMessage.ofValue v = some m →
      MaxMessage.ofValue m.toValue = some m) ∧
    (∀ (m : TextMessage) (cid : Int),
      MaxMessage.ofValue ((textMessagePayload m cid).get "message") = some m.message) := by
  refine ⟨MaxMessage.codec.decode_encode, fun m => rfl, fun e attributes => ?_,
    MessageElement.toValue_url, fun _ m _ => MaxMessage.codec.decode_encode m, fun m cid => ?_⟩
  · rw [MessageElement.toValue_attributes, ElementAttributes.isEmpty, ElementAttributes.toValue]
    cases e.attributes.url with
    | none => simp
    | some url => simp [eq_comm]
  · exact MaxMessage.ofValue_of_fields rfl rfl rfl

end Maxrs
