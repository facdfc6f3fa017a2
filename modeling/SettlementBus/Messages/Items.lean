import SettlementBus.Messages.Decoding

/-! The fields that the decoder of `applyOperations.cjs` finds in a buffer, and what each does to
the object. -/

namespace SettlementBus

open Lib Lib.Wire

variable {E : Encodings} {buf b : Buffer} {fields : List Field} {n number offset : ℕ}

theorem varint_ne_nil (n : ℕ) : varint 5 n ≠ [] := Leb128.encode_ne_nil 4 n

/-! ### What the reading functions do -/

/-- What stands behind the header of a field that is skipped. -/
inductive Skipped
  | varint (n : ℕ)
  | fixed64 (b : Buffer)
  | bytes (b : Buffer)
  | fixed32 (b : Buffer)

namespace Skipped

def wireType : Skipped → ℕ
  | varint _ => 0
  | fixed64 _ => 1
  | bytes _ => 2
  | fixed32 _ => 5

def encode : Skipped → Buffer
  | varint n => SettlementBus.varint 10 n
  | fixed64 b | fixed32 b => b
  | bytes b => SettlementBus.varint 5 b.length ++ b

def Valid : Skipped → Prop
  | varint n => n < 2 ^ 64
  | fixed64 b => b.length = 8
  | bytes b => b.length < 2 ^ 31
  | fixed32 b => b.length = 4

theorem wireType_lt (p : Skipped) : p.wireType < 8 := by
  cases p <;> exact Nat.le_of_ble_eq_true rfl

end Skipped

/-- The reading functions read what is written. -/
structure Encodings.Lawful (E : Encodings) : Prop where
  varint {buf : Buffer} {offset n : ℕ} (hn : n < 2 ^ 32)
    (h : At buf offset (SettlementBus.varint 5 n)) :
    E.varint buf offset = some (n, (SettlementBus.varint 5 n).length)
  enum {buf : Buffer} {offset n : ℕ} (hn : n < 2 ^ 31)
    (h : At buf offset (SettlementBus.varint 5 n)) :
    E.enum buf offset = some ((n : ℤ), (SettlementBus.varint 5 n).length)
  bytes {buf b : Buffer} {offset : ℕ} (hb : b.length < 2 ^ 31)
    (h : At buf offset (SettlementBus.varint 5 b.length ++ b)) :
    E.bytes buf offset = some (b, (SettlementBus.varint 5 b.length ++ b).length)
  skip {buf : Buffer} {offset : ℕ} {p : Skipped} (hp : p.Valid) (h : At buf offset p.encode) :
    E.skip p.wireType buf offset = some (offset + p.encode.length)

/-- The functions of the package, except that it rounds numbers above `2 ^ 53`. Its `enum` is its
`varint`, and groups make it throw. -/
def Encodings.protobuf : Encodings where
  varint buf offset := Leb128.decodeAll (buf.drop offset)
  enum buf offset := (Leb128.decodeAll (buf.drop offset)).map fun d => ((d.1 : ℤ), d.2)
  bytes buf offset := (Leb128.decodeAll (buf.drop offset)).map fun d =>
    ((buf.drop (offset + d.2)).take d.1, d.2 + ((buf.drop (offset + d.2)).take d.1).length)
  skip wire buf offset :=
    match wire with
    | 0 => (Leb128.decodeAll (buf.drop offset)).map fun d => offset + d.2
    | 1 => some (offset + 8)
    | 2 => (Leb128.decodeAll (buf.drop offset)).map fun d => offset + d.2 + d.1
    | 5 => some (offset + 4)
    | _ => none
  varint_pos := Leb128.decodeAll_pos
  le_skip {wire buf offset offset'} h := by
    split at h
    · obtain ⟨d, -, rfl⟩ := Option.map_eq_some_iff.mp h
      omega
    · cases h
      omega
    · obtain ⟨d, -, rfl⟩ := Option.map_eq_some_iff.mp h
      omega
    · cases h
      omega
    · cases h

theorem decode_varint_of_lt {fuel fuel' : ℕ} (hn : n < 128 ^ (fuel + 1)) (hfuel : fuel < fuel')
    (h : At buf offset (varint (fuel + 1) n)) :
    Leb128.decode fuel' (buf.drop offset) = some (n, (varint (fuel + 1) n).length) := by
  exact Leb128.decode_encode hn hfuel h

theorem decodeAll_varint {fuel : ℕ} (hn : n < 128 ^ (fuel + 1))
    (h : At buf offset (varint (fuel + 1) n)) :
    Leb128.decodeAll (buf.drop offset) = some (n, (varint (fuel + 1) n).length) :=
  Leb128.decodeAll_of_decode (decode_varint_of_lt hn (Nat.lt_succ_self fuel) h)

theorem Encodings.protobuf_lawful : Encodings.protobuf.Lawful where
  varint hn h := decodeAll_varint (by omega) h
  enum {buf offset n} hn h := by
    have hdecode := decodeAll_varint (by omega) h
    simp only [protobuf, hdecode, Option.map_some]
  bytes {buf b offset} hb h := by
    rw [at_append] at h
    have hdecode := decodeAll_varint (by omega) h.1
    simp only [protobuf, hdecode, Option.map_some, h.2.slice, List.length_append]
  skip {buf offset p} hp h := by
    cases p with
    | varint n =>
      have hlt : n < 2 ^ 64 := hp
      have hdecode := decodeAll_varint (by omega) h
      simp only [protobuf, Skipped.wireType, hdecode, Option.map_some, Skipped.encode]
    | fixed64 b =>
      rw [Skipped.encode, show b.length = 8 from hp]
      rfl
    | bytes b =>
      have hlt : b.length < 2 ^ 31 := hp
      rw [Skipped.encode, at_append] at h
      have hdecode := decodeAll_varint (by omega) h.1
      simp only [protobuf, Skipped.wireType, hdecode, Option.map_some, Skipped.encode,
        List.length_append, Nat.add_assoc]
    | fixed32 b =>
      rw [Skipped.encode, show b.length = 4 from hp]
      rfl

/-! ### The fields of a member -/

/-- A field of a message whose fields hold bytes. Its wire type is not looked at, unless it is
skipped. -/
inductive FieldItem
  | known (number wire : ℕ) (b : Buffer)
  | unknown (number : ℕ) (p : Skipped)

namespace FieldItem

def encode : FieldItem → Buffer
  | known number wire b => varint 5 (8 * number + wire) ++ (varint 5 b.length ++ b)
  | unknown number p => varint 5 (8 * number + p.wireType) ++ p.encode

def Valid (count : ℕ) : FieldItem → Prop
  | known number wire b => number ≠ 0 ∧ number ≤ count ∧ number < 16 ∧ wire < 8 ∧ b.length < 2 ^ 31
  | unknown number p => (number = 0 ∨ count < number) ∧ number < 2 ^ 29 ∧ p.Valid

def effect (fields : List Field) : FieldItem → List Field
  | known number _ b => fields.set (number - 1) (.buffer b)
  | unknown _ _ => fields

end FieldItem

theorem tagOf_header {wire : ℕ} (hwire : wire < 8) (hnumber : number < 2 ^ 29) :
    tagOf (8 * number + wire) = number := by
  rw [tagOf, Nat.mod_eq_of_lt (by omega)]
  omega

theorem fieldItem_advances (count : ℕ) : Advances (fieldItem E buf count) := by
  intro fields offset c h
  simp only [fieldItem, Option.bind_eq_bind, Option.bind_eq_some_iff] at h
  obtain ⟨⟨header, n⟩, hvarint, h⟩ := h
  have hpos := E.varint_pos hvarint
  split at h
  · obtain ⟨⟨b, m⟩, -, h⟩ := Option.bind_eq_some_iff.mp h
    cases h
    simp only at hpos ⊢
    omega
  · obtain ⟨offset', hskip, h⟩ := Option.bind_eq_some_iff.mp h
    cases h
    have hle := E.le_skip hskip
    simp only at hpos hle ⊢
    omega

theorem fieldItem_encode (hE : E.Lawful) {count : ℕ} {i : FieldItem} (hi : i.Valid count)
    (h : At buf offset i.encode) :
    fieldItem E buf count fields offset = some (i.effect fields, offset + i.encode.length) := by
  cases i with
  | known number wire b =>
    obtain ⟨hne, hle, hlt, hwire, hb⟩ := hi
    rw [FieldItem.encode, at_append] at h
    have htag : tagOf (8 * number + wire) = number := tagOf_header hwire (by omega)
    simp only [fieldItem, hE.varint (by omega) h.1, Option.bind_eq_bind, Option.bind_some, htag,
      if_pos (And.intro hne hle), hE.bytes hb h.2, FieldItem.encode, List.length_append,
      Nat.add_assoc]
    rfl
  | unknown number p =>
    obtain ⟨hne, hlt, hp⟩ := hi
    have hwire := p.wireType_lt
    rw [FieldItem.encode, at_append] at h
    have htag : tagOf (8 * number + p.wireType) = number := tagOf_header hwire hlt
    have hmod : (8 * number + p.wireType) % 8 = p.wireType := by omega
    simp only [fieldItem, hE.varint (by omega) h.1, Option.bind_eq_bind, Option.bind_some, htag,
      if_neg (by omega : ¬(number ≠ 0 ∧ number ≤ count)), hmod, hE.skip hp h.2, FieldItem.encode,
      List.length_append, Nat.add_assoc]
    rfl

/-- The fields in order: the last one of a number wins. -/
theorem decodeFields_items (hE : E.Lawful) {count : ℕ} {items : List FieldItem}
    (hitems : ∀ i ∈ items, i.Valid count) (hoffset : offset ≤ buf.length)
    (h : At buf offset (items.flatMap FieldItem.encode)) :
    decodeFields E buf count offset (offset + (items.flatMap FieldItem.encode).length) =
      some (items.foldl FieldItem.effect (List.replicate count .null),
        (items.flatMap FieldItem.encode).length) := by
  have hlen := h.length_le
  rw [List.length_drop] at hlen
  rw [decodeFields, if_pos ⟨by omega, hoffset⟩,
    readItems_flatMap (fieldItem_advances count)
      (fun i hi fields offset => fieldItem_encode hE (hitems i hi)) h,
    Option.map_some, Nat.add_sub_cancel_left]

/-! ### The fields of an operation -/

/-- A field of an operation. -/
inductive OperationItem
  | type (wire n : ℕ)
  | address (wire : ℕ) (b : Buffer)
  | member (number wire : ℕ) (items : List FieldItem)
  | unknown (number : ℕ) (p : Skipped)

namespace OperationItem

def encode : OperationItem → Buffer
  | type wire n => varint 5 (8 + wire) ++ varint 5 n
  | address wire b => varint 5 (16 + wire) ++ (varint 5 b.length ++ b)
  | member number wire items =>
    let inner := items.flatMap FieldItem.encode
    varint 5 (8 * number + wire) ++ (varint 5 inner.length ++ inner)
  | unknown number p => varint 5 (8 * number + p.wireType) ++ p.encode

def Valid : OperationItem → Prop
  | type wire n => wire < 8 ∧ n < 2 ^ 31
  | address wire b => wire < 8 ∧ b.length < 2 ^ 31
  | member number wire items =>
    wire < 8 ∧ (items.flatMap FieldItem.encode).length < 2 ^ 31 ∧
      ∃ count, OperationObject.memberFields number = some count ∧ ∀ i ∈ items, i.Valid count
  | unknown number p => (number = 0 ∨ 9 < number) ∧ number < 2 ^ 29 ∧ p.Valid

def effect (obj : OperationObject) : OperationItem → OperationObject
  | type _ n => { obj with type := n }
  | address _ b => { obj with address := .buffer b }
  | member number _ items =>
    obj.assign number (items.foldl FieldItem.effect
      (List.replicate ((OperationObject.memberFields number).getD 0) .null))
  | unknown _ _ => obj

end OperationItem

namespace OperationObject

theorem memberFields_some {count : ℕ} (h : memberFields number = some count) :
    3 ≤ number ∧ number ≤ 9 := by
  unfold memberFields at h
  split at h <;> first | omega | cases h

theorem memberFields_none (h : number = 0 ∨ 9 < number) : memberFields number = none := by
  cases hm : memberFields number with
  | none => rfl
  | some count =>
    have := memberFields_some hm
    omega

theorem member_le {count : ℕ} {c : List Field × ℕ} (h : member E buf count offset = some c) :
    offset ≤ c.2 := by
  simp only [member, Option.bind_eq_bind, Option.bind_eq_some_iff] at h
  obtain ⟨⟨len, n⟩, -, ⟨f, m⟩, -, h⟩ := h
  cases h
  simp only
  omega

theorem item_advances : Advances (item E buf) := by
  intro obj offset c h
  simp only [item, Option.bind_eq_bind, Option.bind_eq_some_iff] at h
  obtain ⟨⟨header, n⟩, hvarint, h⟩ := h
  have hpos := E.varint_pos hvarint
  split at h
  · obtain ⟨⟨type, m⟩, -, h⟩ := Option.bind_eq_some_iff.mp h
    cases h
    simp only at hpos ⊢
    omega
  · obtain ⟨⟨b, m⟩, -, h⟩ := Option.bind_eq_some_iff.mp h
    cases h
    simp only at hpos ⊢
    omega
  · split at h
    · obtain ⟨⟨f, offset'⟩, hmember, h⟩ := Option.bind_eq_some_iff.mp h
      cases h
      have hle := member_le hmember
      simp only at hpos hle ⊢
      omega
    · obtain ⟨offset', hskip, h⟩ := Option.bind_eq_some_iff.mp h
      cases h
      have hle := E.le_skip hskip
      simp only at hpos hle ⊢
      omega

theorem item_encode (hE : E.Lawful) {obj : OperationObject} {i : OperationItem} (hi : i.Valid)
    (h : At buf offset i.encode) :
    item E buf obj offset = some (i.effect obj, offset + i.encode.length) := by
  cases i with
  | type wire n =>
    obtain ⟨hwire, hn⟩ := hi
    rw [OperationItem.encode, at_append] at h
    have htag : tagOf (8 + wire) = 1 := @tagOf_header 1 wire hwire (by omega)
    simp only [item, hE.varint (by omega) h.1, Option.bind_eq_bind, Option.bind_some, htag,
      hE.enum hn h.2, OperationItem.encode, List.length_append, Nat.add_assoc]
    rfl
  | address wire b =>
    obtain ⟨hwire, hb⟩ := hi
    rw [OperationItem.encode, at_append] at h
    have htag : tagOf (16 + wire) = 2 := @tagOf_header 2 wire hwire (by omega)
    simp only [item, hE.varint (by omega) h.1, Option.bind_eq_bind, Option.bind_some, htag,
      hE.bytes hb h.2, OperationItem.encode, List.length_append, Nat.add_assoc]
    rfl
  | member number wire items =>
    obtain ⟨hwire, hlen, count, hcount, hitems⟩ := hi
    have hnumber := memberFields_some hcount
    rw [OperationItem.encode, at_append, at_append] at h
    have htag : tagOf (8 * number + wire) = number := tagOf_header hwire (by omega)
    have hoffset := h.2.1.le_length (varint_ne_nil _)
    have hfields := decodeFields_items hE hitems hoffset h.2.2
    simp only [Nat.add_assoc] at hfields
    have hmember : member E buf count (offset + (varint 5 (8 * number + wire)).length) =
        some (items.foldl FieldItem.effect (List.replicate count .null),
          offset + (OperationItem.member number wire items).encode.length) := by
      simp only [member, hE.varint (by omega) h.2.1, Option.bind_eq_bind, Option.bind_some, hfields,
        OperationItem.encode, List.length_append, Nat.add_assoc]
      rfl
    obtain ⟨tag, rfl⟩ : ∃ tag, number = tag + 3 := ⟨number - 3, by omega⟩
    simp only [item, hE.varint (by omega) h.1, Option.bind_eq_bind, Option.bind_some, htag, hcount,
      hmember, OperationItem.effect, Option.getD_some]
    rfl
  | unknown number p =>
    obtain ⟨hne, hlt, hp⟩ := hi
    have hwire := p.wireType_lt
    rw [OperationItem.encode, at_append] at h
    have htag : tagOf (8 * number + p.wireType) = number := tagOf_header hwire hlt
    have hmod : (8 * number + p.wireType) % 8 = p.wireType := by omega
    have hnone := memberFields_none hne
    obtain rfl | ⟨tag, rfl⟩ : number = 0 ∨ ∃ tag, number = tag + 3 :=
      hne.imp_right fun _ => ⟨number - 3, by omega⟩
    all_goals
      simp only [item, hE.varint (by omega) h.1, Option.bind_eq_bind, Option.bind_some, htag,
        hnone, hmod, hE.skip hp h.2, OperationItem.encode, List.length_append, Nat.add_assoc]
      rfl

/-- What the decoder makes of a sequence of fields: they take effect in order, the last body
replaces the others, and fields that no operation has are skipped. -/
theorem decode_flatMap (hE : E.Lawful) {items : List OperationItem} (h : ∀ i ∈ items, i.Valid) :
    decode E (items.flatMap OperationItem.encode) =
      some (items.foldl OperationItem.effect empty) := by
  have hat : At (items.flatMap OperationItem.encode) 0 (items.flatMap OperationItem.encode) :=
    At.self _
  have hread := readItems_flatMap (s := empty) item_advances
    (fun i hi obj offset => item_encode hE (h i hi)) hat
  rw [Nat.zero_add] at hread
  rw [decode, hread]
  rfl

end OperationObject

end SettlementBus
