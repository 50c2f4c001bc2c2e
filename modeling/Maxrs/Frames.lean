import Maxrs.Kit.Fields
import Maxrs.Protocol
set_option autoImplicit false

/-! The derived `Serialize` and `Deserialize` of `Packet`. A document of the wire is a `Value` with
all the entries its text has, so that a key may stand there twice. -/
namespace Maxrs

namespace Value

mutual

/-- `Value::deserialize`: of the entries with one key the map keeps the last. -/
def collapse : Value → Value
  | .array items => .array (collapseItems items)
  | .object entries => .object (Fields.keepLast (collapseEntries entries))
  | .null => .null
  | .bool b => .bool b
  | .int n => .int n
  | .float text => .float text
  | .string s => .string s

def collapseItems : List Value → List Value
  | [] => []
  | v :: items => v.collapse :: collapseItems items

def collapseEntries : List (String × Value) → List (String × Value)
  | [] => []
  | (key, v) :: entries => (key, v.collapse) :: collapseEntries entries

end

mutual

def Distinct : Value → Prop
  | .array items => DistinctItems items
  | .object entries => (entries.map Prod.fst).Nodup ∧ DistinctEntries entries
  | _ => True

def DistinctItems : List Value → Prop
  | [] => True
  | v :: items => v.Distinct ∧ DistinctItems items

def DistinctEntries : List (String × Value) → Prop
  | [] => True
  | (_, v) :: entries => v.Distinct ∧ DistinctEntries entries

end

theorem distinctItems_iff {items : List Value} :
    DistinctItems items ↔ ∀ v ∈ items, v.Distinct := by
  induction items with
  | nil => simp [DistinctItems]
  | cons v items ih => simp [DistinctItems, ih]

theorem distinctEntries_iff {entries : List (String × Value)} :
    DistinctEntries entries ↔ ∀ e ∈ entries, e.2.Distinct := by
  induction entries with
  | nil => simp [DistinctEntries]
  | cons e entries ih =>
    obtain ⟨key, v⟩ := e
    simp only [DistinctEntries, ih, List.forall_mem_cons]

theorem collapseEntries_eq (entries : List (String × Value)) :
    collapseEntries entries = entries.map fun e => (e.1, e.2.collapse) := by
  induction entries with
  | nil => rfl
  | cons e entries ih => rw [collapseEntries, ih, List.map_cons]

mutual

theorem distinct_collapse : (v : Value) → v.collapse.Distinct
  | .array items => distinct_collapseItems items
  | .object entries => by
    refine ⟨Fields.nodup_keepLast _, distinctEntries_iff.mpr fun e he => ?_⟩
    have h := distinctEntries_iff.mp (distinct_collapseEntries entries)
    exact h e ((Fields.keepLast_sublist _).subset he)
  | .null | .bool _ | .int _ | .float _ | .string _ => trivial

theorem distinct_collapseItems : (items : List Value) → DistinctItems (collapseItems items)
  | [] => trivial
  | v :: items => ⟨v.distinct_collapse, distinct_collapseItems items⟩

theorem distinct_collapseEntries : (entries : List (String × Value)) →
    DistinctEntries (collapseEntries entries)
  | [] => trivial
  | (_, v) :: entries => ⟨v.distinct_collapse, distinct_collapseEntries entries⟩

end

mutual

theorem collapse_of_distinct : (v : Value) → v.Distinct → v.collapse = v
  | .array items, h => congrArg Value.array (collapseItems_of_distinct items h)
  | .object entries, h => by
    rw [collapse, collapseEntries_of_distinct entries h.2, Fields.keepLast_of_nodup h.1]
  | .null, _ | .bool _, _ | .int _, _ | .float _, _ | .string _, _ => rfl

theorem collapseItems_of_distinct : (items : List Value) → DistinctItems items →
    collapseItems items = items
  | [], _ => rfl
  | v :: items, h => by
    rw [collapseItems, collapse_of_distinct v h.1, collapseItems_of_distinct items h.2]

theorem collapseEntries_of_distinct : (entries : List (String × Value)) →
    DistinctEntries entries → collapseEntries entries = entries
  | [], _ => rfl
  | (_, v) :: entries, h => by
    rw [collapseEntries, collapse_of_distinct v h.1, collapseEntries_of_distinct entries h.2]

end

/-- The entry that a lookup finds in a payload is the last one with its key. -/
theorem get_collapse (entries : List (String × Value)) (key : String) :
    (Value.object entries).collapse.get key =
      (((Fields.at_ key entries).getLast?).map fun e => e.2.collapse).getD .null := by
  have hfind := Fields.find_keepLast key (collapseEntries entries)
  have hat : Fields.at_ key (collapseEntries entries) =
      (Fields.at_ key entries).map fun e => (e.1, e.2.collapse) := by
    rw [collapseEntries_eq, Fields.at_, List.filter_map]
    rfl
  rw [collapse, get]
  simp only [beq_eq_decide, hfind, hat, List.getLast?_map, Option.map_map, Function.comp_def]

def asUint (bits : Nat) : Value → Option Nat
  | .int n => if 0 ≤ n ∧ n < 2 ^ bits then some n.toNat else none
  | _ => none

theorem asUint_eq_some {bits n : Nat} {v : Value} :
    v.asUint bits = some n ↔ v = .int n ∧ n < 2 ^ bits := by
  cases v with
  | int m =>
    simp only [asUint, Option.ite_none_right_eq_some, Option.some.injEq, Value.int.injEq]
    constructor
    · rintro ⟨⟨h0, h⟩, rfl⟩
      have hm := Int.toNat_of_nonneg h0
      exact ⟨hm.symm, (Int.toNat_lt h0).mpr (by exact_mod_cast h)⟩
    · rintro ⟨rfl, h⟩
      exact ⟨⟨Int.natCast_nonneg n, by exact_mod_cast h⟩, Int.toNat_natCast n⟩
  | _ => simp [asUint]

end Value

namespace Packet

def toValue (p : Packet) : Value :=
  .object [("ver", .int p.ver), ("cmd", .int p.cmd), ("seq", .int p.seq),
    ("opcode", .int p.opcode), ("payload", p.payload)]

def fieldNames : List String := ["ver", "cmd", "seq", "opcode", "payload"]

/-- A field is read from the one entry with its name, next to entries that are ignored, or by its
position from an array that has nothing else. -/
def field (v : Value) (key : String) (index : Nat) : Option Value :=
  match v with
  | .object entries => Fields.only key entries
  | .array items => if items.length = fieldNames.length then items[index]? else none
  | _ => none

def ofValue (v : Value) : Option Packet := do
  let ver ← (field v "ver" 0).bind (Value.asUint 8)
  let cmd ← (field v "cmd" 1).bind (Value.asUint 8)
  let seq ← (field v "seq" 2).bind (Value.asUint 32)
  let opcode ← (field v "opcode" 3).bind (Value.asUint 16)
  let payload ← field v "payload" 4
  some { ver := ver, cmd := cmd, seq := seq, opcode := opcode, payload := payload.collapse }

structure Fits (p : Packet) : Prop where
  ver : p.ver < 2 ^ 8
  cmd : p.cmd < 2 ^ 8
  seq : p.seq < 2 ^ 32
  opcode : p.opcode < 2 ^ 16
  payload : p.payload.Distinct

theorem ofValue_eq_some {v : Value} {p : Packet} :
    ofValue v = some p ↔ ∃ payload, field v "ver" 0 = some (.int p.ver) ∧
      field v "cmd" 1 = some (.int p.cmd) ∧ field v "seq" 2 = some (.int p.seq) ∧
      field v "opcode" 3 = some (.int p.opcode) ∧ field v "payload" 4 = some payload ∧
      p.ver < 2 ^ 8 ∧ p.cmd < 2 ^ 8 ∧ p.seq < 2 ^ 32 ∧ p.opcode < 2 ^ 16 ∧
      p.payload = payload.collapse := by
  have number : ∀ {key : String} {index bits n : Nat},
      (field v key index).bind (Value.asUint bits) = some n ↔
        field v key index = some (.int n) ∧ n < 2 ^ bits := by
    intro key index bits n
    rw [Option.bind_eq_some_iff]
    constructor
    · rintro ⟨x, hx, hn⟩
      obtain ⟨rfl, hlt⟩ := Value.asUint_eq_some.mp hn
      exact ⟨hx, hlt⟩
    · rintro ⟨hx, hlt⟩
      exact ⟨_, hx, Value.asUint_eq_some.mpr ⟨rfl, hlt⟩⟩
  obtain ⟨ver, cmd, seq, opcode, body⟩ := p
  simp only [ofValue, Option.bind_eq_bind, Option.bind_eq_some_iff (x := _)]
  constructor
  · rintro ⟨a, ha, b, hb, c, hc, d, hd, payload, hp, he⟩
    cases he
    obtain ⟨ha, hav⟩ := number.mp (Option.bind_eq_some_iff.mpr ha)
    obtain ⟨hb, hbv⟩ := number.mp (Option.bind_eq_some_iff.mpr hb)
    obtain ⟨hc, hcv⟩ := number.mp (Option.bind_eq_some_iff.mpr hc)
    obtain ⟨hd, hdv⟩ := number.mp (Option.bind_eq_some_iff.mpr hd)
    exact ⟨payload, ha, hb, hc, hd, hp, hav, hbv, hcv, hdv, rfl⟩
  · rintro ⟨payload, ha, hb, hc, hd, hp, hav, hbv, hcv, hdv, rfl⟩
    exact ⟨ver, Option.bind_eq_some_iff.mp (number.mpr ⟨ha, hav⟩),
      cmd, Option.bind_eq_some_iff.mp (number.mpr ⟨hb, hbv⟩),
      seq, Option.bind_eq_some_iff.mp (number.mpr ⟨hc, hcv⟩),
      opcode, Option.bind_eq_some_iff.mp (number.mpr ⟨hd, hdv⟩), payload, hp, rfl⟩

theorem fits_of_ofValue {v : Value} {p : Packet} (h : ofValue v = some p) : p.Fits := by
  obtain ⟨payload, -, -, -, -, -, hver, hcmd, hseq, hopcode, hpayload⟩ := ofValue_eq_some.mp h
  exact ⟨hver, hcmd, hseq, hopcode, hpayload ▸ payload.distinct_collapse⟩

theorem ofValue_toValue {p : Packet} (h : p.Fits) : ofValue p.toValue = some p :=
  ofValue_eq_some.mpr ⟨p.payload, rfl, rfl, rfl, rfl, rfl, h.ver, h.cmd, h.seq, h.opcode,
    (Value.collapse_of_distinct _ h.payload).symm⟩

theorem ofValue_array {items : List Value} {p : Packet} (h : ofValue (.array items) = some p) :
    ∃ payload, items = [.int p.ver, .int p.cmd, .int p.seq, .int p.opcode, payload] ∧
      p.payload = payload.collapse := by
  obtain ⟨payload, hver, hcmd, hseq, hopcode, hp, -, -, -, -, hpayload⟩ := ofValue_eq_some.mp h
  refine ⟨payload, ?_, hpayload⟩
  simp only [field, Option.ite_none_right_eq_some] at hver hcmd hseq hopcode hp
  rcases items with _ | ⟨a, _ | ⟨b, _ | ⟨c, _ | ⟨d, _ | ⟨e, _ | ⟨f, items⟩⟩⟩⟩⟩⟩ <;>
    simp only [fieldNames, List.length_cons, List.length_nil, reduceCtorEq, Nat.reduceAdd,
      Nat.reduceEqDiff, false_and] at hver
  · cases hver.2
    cases hcmd.2
    cases hseq.2
    cases hopcode.2
    cases hp.2
    rfl

theorem ofValue_entry {entries : List (String × Value)} {p : Packet} {key : String}
    (h : ofValue (.object entries) = some p) (hk : key ∈ fieldNames) :
    ∃ v, Fields.at_ key entries = [(key, v)] ∧ p.toValue.get key = v.collapse := by
  obtain ⟨payload, hver, hcmd, hseq, hopcode, hp, -, -, -, -, hpayload⟩ := ofValue_eq_some.mp h
  simp only [fieldNames, List.mem_cons, List.not_mem_nil, or_false] at hk
  rcases hk with rfl | rfl | rfl | rfl | rfl
  · exact ⟨_, Fields.only_eq_some_iff.mp hver, rfl⟩
  · exact ⟨_, Fields.only_eq_some_iff.mp hcmd, rfl⟩
  · exact ⟨_, Fields.only_eq_some_iff.mp hseq, rfl⟩
  · exact ⟨_, Fields.only_eq_some_iff.mp hopcode, rfl⟩
  · exact ⟨_, Fields.only_eq_some_iff.mp hp, hpayload⟩

theorem ofValue_congr {entries entries' : List (String × Value)}
    (h : ∀ key ∈ fieldNames, (Fields.at_ key entries).Perm (Fields.at_ key entries')) :
    ofValue (.object entries) = ofValue (.object entries') := by
  have hf : ∀ key index, key ∈ fieldNames →
      field (.object entries) key index = field (.object entries') key index :=
    fun key index hk => Fields.only_congr (h key hk)
  rw [ofValue, ofValue, hf "ver" 0 (by decide), hf "cmd" 1 (by decide), hf "seq" 2 (by decide),
    hf "opcode" 3 (by decide), hf "payload" 4 (by decide)]

/-- The format of a frame: what is encoded is decoded again; an accepted document has every field
of the struct exactly once, in the range of its type, and is the same packet in every order of its
entries and with any others among them; in the payload the last entry of a key counts. -/
theorem packet_json :
    (∀ p : Packet, p.Fits → ofValue p.toValue = some p) ∧
    (∀ v p, ofValue v = some p → p.Fits ∧ ofValue p.toValue = some p ∧
      ((∃ entries, v = .object entries) ∨
        ∃ payload, v = .array [.int p.ver, .int p.cmd, .int p.seq, .int p.opcode, payload])) ∧
    (∀ entries p key, ofValue (.object entries) = some p → key ∈ fieldNames →
      ∃ v, Fields.at_ key entries = [(key, v)] ∧ p.toValue.get key = v.collapse) ∧
    (∀ entries entries' : List (String × Value),
      (∀ key ∈ fieldNames, (Fields.at_ key entries).Perm (Fields.at_ key entries')) →
      ofValue (.object entries) = ofValue (.object entries')) ∧
    ∀ entries inner p key, ofValue (.object entries) = some p →
      ("payload", Value.object inner) ∈ entries → p.payload.get key =
        (((Fields.at_ key inner).getLast?).map fun e => e.2.collapse).getD .null := by
  refine ⟨fun p h => ofValue_toValue h, fun v p h => ?_, fun entries p key h hk =>
    ofValue_entry h hk, fun entries entries' h => ofValue_congr h,
    fun entries inner p key h hm => ?_⟩
  · have hfits := fits_of_ofValue h
    refine ⟨hfits, ofValue_toValue hfits, ?_⟩
    cases v with
    | object entries => exact .inl ⟨entries, rfl⟩
    | array items =>
      obtain ⟨payload, rfl, -⟩ := ofValue_array h
      exact .inr ⟨payload, rfl⟩
    | _ => simp [ofValue, field] at h
  · obtain ⟨v, hat, hget⟩ := ofValue_entry h (show "payload" ∈ fieldNames by decide)
    have hin : ("payload", Value.object inner) ∈ Fields.at_ "payload" entries :=
      List.mem_filter.mpr ⟨hm, decide_eq_true rfl⟩
    rw [hat, List.mem_singleton] at hin
    cases hin
    have hp : p.payload = (Value.object inner).collapse := hget
    rw [hp, Value.get_collapse]

/-- The entries of a frame in another order, with one more, and a payload that names the chat
twice. -/
def sampleEntries : List (String × Value) :=
  [("payload", .object [("chatId", .int 1), ("chatId", .int 42)]), ("seq", .int 7),
    ("opcode", .int 64), ("trace", .null), ("cmd", .int 0), ("ver", .int 11)]

/-- The frame of a message, and what is read from another document for it. -/
theorem packet_json_message :
    ofValue (request 7 Opcode.MSG_SEND (.object [("chatId", .int 42)])).toValue =
      some (request 7 Opcode.MSG_SEND (.object [("chatId", .int 42)])) ∧
    ∃ p, ofValue (.object sampleEntries) = some p ∧ p.payload.get "chatId" = .int 42 := by
  have hfits : (request 7 Opcode.MSG_SEND (.object [("chatId", .int 42)])).Fits :=
    ⟨by decide, by decide, by decide, by decide, by
      simp [request, Value.Distinct, Value.DistinctEntries]⟩
  exact ⟨packet_json.1 _ hfits, _, rfl, packet_json.2.2.2.2 sampleEntries
    [("chatId", .int 1), ("chatId", .int 42)] _ "chatId" rfl List.mem_cons_self⟩

end Packet

/-- The parts of `serde_json` that the frames go through, as far as they are not modelled: from a
text to its document, and the report on a document that is no packet. -/
structure JsonText where
  parse : String → Except String Value
  report : Value → String

def JsonText.fromStr (json : JsonText) (text : String) : Except String Packet :=
  (json.parse text).bind fun v =>
    match Packet.ofValue v with
    | some packet => .ok packet
    | none => .error (json.report v)

theorem JsonText.fits_of_fromStr {json : JsonText} {text : String} {p : Packet}
    (h : json.fromStr text = .ok p) : p.Fits := by
  unfold JsonText.fromStr at h
  cases hv : json.parse text with
  | error e =>
    rw [hv] at h
    cases h
  | ok v =>
    rw [hv] at h
    cases hp : Packet.ofValue v with
    | none =>
      simp [Except.bind, hp] at h
    | some q =>
      simp only [Except.bind, hp, Except.ok.injEq] at h
      exact h ▸ Packet.fits_of_ofValue hp

end Maxrs
