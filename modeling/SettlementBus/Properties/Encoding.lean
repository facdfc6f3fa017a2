import SettlementBus.Messages.Items
import SettlementBus.Sample

/-! The bytes of an operation: how many they are, that they fill the buffer, and what is read back
from them. -/

namespace SettlementBus

open Lib Lib.Wire

variable {E : Encodings} {buf b : Buffer} {op : Operation} {body : Body} {fields : List Field}
  {n number offset : ℕ}

/-! ### How many bytes there are -/

theorem length_varint (h : n < 2 ^ 35) : (varint 5 n).length = varintLength n := by
  simp only [varint, Wire.Leb128.encode, varintLength]
  split_ifs <;> simp only [List.length_cons, List.length_nil] <;> omega

/-- A header of one byte. -/
theorem varint_header (h : n < 128) : varint 5 n = [UInt8.ofNat n] := by
  rw [varint, Wire.Leb128.encode, if_pos h]

theorem length_encodeBytes (hnumber : number < 16) (hb : b.length < 2 ^ 35) :
    (encodeBytes number b).length = 1 + bytesLength b := by
  rw [encodeBytes, varint_header (by omega), List.length_append, List.length_append,
    length_varint hb, bytesLength]
  simp only [List.length_singleton]
  omega

theorem length_encodeField (hnumber : number < 16) {f : Field} (hf : fieldLength f < 2 ^ 35) :
    (encodeField number f).length = fieldLength f := by
  cases f with
  | buffer b =>
    rw [fieldLength, bytesLength] at hf
    exact length_encodeBytes hnumber (by omega)
  | _ => rfl

theorem length_encodeFields_from (hcount : number + fields.length ≤ 16)
    (h : fieldsLength fields < 2 ^ 35) :
    ((fields.zipIdx number).flatMap fun f => encodeField f.2 f.1).length = fieldsLength fields := by
  induction fields generalizing number with
  | nil => rfl
  | cons f fields ih =>
    rw [List.length_cons] at hcount
    rw [fieldsLength, List.map_cons, List.sum_cons] at h ⊢
    rw [List.zipIdx_cons, List.flatMap_cons, List.length_append,
      length_encodeField (by omega) (f := f) (by omega),
      ih (by omega) (by rw [fieldsLength]; omega), fieldsLength]

theorem length_encodeFields (hcount : fields.length ≤ 15) (h : fieldsLength fields < 2 ^ 35) :
    (encodeFields fields).length = fieldsLength fields :=
  length_encodeFields_from (by omega) h

theorem Body.encode_eq (body : Body) :
    body.encode = encodeBytes body.layout.1 (encodeFields body.layout.2) := by
  cases body <;> rfl

theorem Body.number_lt (body : Body) : body.layout.1 < 16 := by
  cases body <;> exact Nat.le_of_ble_eq_true rfl

theorem Body.length_fields (body : Body) : body.layout.2.length ≤ 15 := by
  cases body <;> exact Nat.le_of_ble_eq_true rfl

theorem Body.length_encode (h : body.encodingLength < 2 ^ 35) :
    body.encode.length = body.encodingLength := by
  rw [Body.encodingLength] at h
  have hlen := length_encodeFields body.length_fields (by omega)
  rw [Body.encode_eq, length_encodeBytes body.number_lt (by omega), bytesLength, hlen,
    Body.encodingLength]
  omega

theorem length_encodeOperation (htype : op.type < 2 ^ 35) (h : op.encodingLength < 2 ^ 35) :
    (encodeOperation op).length = op.encodingLength := by
  rw [Operation.encodingLength] at h
  have haddress := length_encodeField (f := op.address) (by omega : 2 < 16) (by omega)
  have hvalue : (op.value.elim [] Body.encode).length = op.value.elim 0 Body.encodingLength := by
    cases hv : op.value with
    | none => rfl
    | some body =>
      rw [hv, Option.elim_some] at h
      exact Body.length_encode (by omega)
  rw [encodeOperation, List.length_append, List.length_append, List.length_append, haddress,
    hvalue, length_varint htype, Operation.encodingLength]
  rfl

/-! ### Every byte of the buffer is written -/

theorem writeField_eq (hnumber : number < 16) (f : Field) (c : Buffer × ℕ) :
    writeField number f c = write (encodeField number f) c := by
  cases f with
  | buffer b =>
    rw [writeField, write_write, write_write, encodeField, encodeBytes,
      varint_header (n := 8 * number + 2) (by omega), List.append_assoc]
  | _ => exact (write_nil c).symm

theorem writeFields_from (hcount : number + fields.length ≤ 16) (c : Buffer × ℕ) :
    (fields.zipIdx number).foldl (fun c f => writeField f.2 f.1 c) c =
      write ((fields.zipIdx number).flatMap fun f => encodeField f.2 f.1) c := by
  induction fields generalizing number c with
  | nil => exact (write_nil c).symm
  | cons f fields ih =>
    rw [List.length_cons] at hcount
    rw [List.zipIdx_cons, List.foldl_cons, List.flatMap_cons, writeField_eq (by omega),
      ih (by omega), write_write]

theorem Body.encodeAt_eq (h : body.encodingLength < 2 ^ 35) (c : Buffer × ℕ) :
    body.encodeAt c = write body.encode c := by
  have hnumber := body.number_lt
  rw [Body.encodingLength] at h
  rw [Body.encodeAt, writeFields, writeFields_from (by have := body.length_fields; omega),
    write_write, write_write, Body.encode_eq, encodeBytes,
    varint_header (n := 8 * body.layout.1 + 2) (by omega),
    length_encodeFields body.length_fields (by omega), List.append_assoc, encodeFields]

theorem Operation.encodeAt_eq (h : op.encodingLength < 2 ^ 35) (c : Buffer × ℕ) :
    op.encodeAt c = write (encodeOperation op) c := by
  rw [Operation.encodingLength] at h
  rw [Operation.encodeAt, encodeOperation, writeField_eq (by omega), write_write, write_write]
  cases hv : op.value with
  | none =>
    rw [Option.elim_none, Option.elim_none, List.append_nil]
    rfl
  | some body =>
    rw [hv, Option.elim_some] at h
    rw [Option.elim_some, Option.elim_some, Body.encodeAt_eq (by omega), write_write]
    rfl

/-- What the buffer held before does not show. -/
theorem encodeInto_eq (htype : op.type < 2 ^ 35) (h : op.encodingLength < 2 ^ 35)
    (hbuf : buf.length = op.encodingLength) : op.encodeInto buf = encodeOperation op := by
  rw [Operation.encodeInto, Operation.encodeAt_eq h]
  exact overwrite_all (hbuf.trans (length_encodeOperation htype h).symm)

/-! ### The fields that the encoder writes -/

/-- The present fields, with the numbers of their places. -/
def fieldItems (fields : List Field) (number : ℕ) : List FieldItem :=
  (fields.zipIdx number).filterMap fun f => f.1.bytes?.map (.known f.2 2)

theorem fieldItems_cons (f : Field) (fields : List Field) (number : ℕ) :
    fieldItems (f :: fields) number =
      (f.bytes?.map (FieldItem.known number 2)).toList ++ fieldItems fields (number + 1) := by
  rw [fieldItems, List.zipIdx_cons, List.filterMap_cons]
  cases f <;> rfl

theorem encode_fieldItems (fields : List Field) (number : ℕ) :
    (fieldItems fields number).flatMap FieldItem.encode =
      (fields.zipIdx number).flatMap fun f => encodeField f.2 f.1 := by
  induction fields generalizing number with
  | nil => rfl
  | cons f fields ih =>
    rw [fieldItems_cons, List.flatMap_append, ih, List.zipIdx_cons, List.flatMap_cons]
    congr 1
    cases f with
    | buffer b =>
      simp [Field.bytes?, FieldItem.encode, encodeField, encodeBytes]
    | _ => rfl

theorem fieldItems_valid {count : ℕ} (hcount : number + fields.length ≤ count + 1)
    (hlt : count < 16) (hnumber : number ≠ 0) (hlen : fieldsLength fields < 2 ^ 31) :
    ∀ i ∈ fieldItems fields number, i.Valid count := by
  induction fields generalizing number with
  | nil => exact fun i hi => absurd hi List.not_mem_nil
  | cons f fields ih =>
    rw [List.length_cons] at hcount
    rw [fieldsLength, List.map_cons, List.sum_cons] at hlen
    have hrest := @ih (number + 1) (by omega) (Nat.succ_ne_zero _) (by rw [fieldsLength]; omega)
    intro i hi
    rw [fieldItems_cons, List.mem_append] at hi
    obtain hi | hi := hi
    · cases f with
      | buffer b =>
        obtain rfl : i = .known number 2 b := by simpa [Field.bytes?] using hi
        rw [fieldLength, bytesLength] at hlen
        exact ⟨hnumber, by omega, by omega, by decide, by omega⟩
      | _ => simp [Field.bytes?] at hi
    · exact hrest i hi

/-- Each field takes the place of a `null`. -/
theorem foldl_fieldItems (head fields : List Field) :
    (fieldItems fields (head.length + 1)).foldl FieldItem.effect
      (head ++ List.replicate fields.length .null) = head ++ fields.map Field.decoded := by
  induction fields generalizing head with
  | nil => rfl
  | cons f fields ih =>
    have hstep : ((f.bytes?.map (FieldItem.known (head.length + 1) 2)).toList).foldl
        FieldItem.effect (head ++ List.replicate (fields.length + 1) .null) =
        (head ++ [f.decoded]) ++ List.replicate fields.length .null := by
      rw [List.replicate_succ]
      cases f with
      | buffer b => simp [Field.bytes?, FieldItem.effect, Field.decoded]
      | _ => simp [Field.bytes?, Field.decoded]
    have hrest := ih (head ++ [f.decoded])
    rw [List.length_append, List.length_singleton] at hrest
    rw [fieldItems_cons, List.foldl_append, List.length_cons, hstep, hrest]
    simp

/-! ### The round trip -/

/-- The absent fields become `null`. -/
def Body.decoded : Body → Body
  | .cao o => .cao (.ofFields (o.fields.map Field.decoded))
  | .aco o => .aco (.ofFields (o.fields.map Field.decoded))
  | .bio o => .bio (.ofFields (o.fields.map Field.decoded))
  | .tro o c => .tro (.ofFields (o.fields.map Field.decoded)) c.decoded
  | .rao o c => .rao (.ofFields (o.fields.map Field.decoded)) c.decoded
  | .bdo o c => .bdo (.ofFields (o.fields.map Field.decoded)) c.decoded
  | .txo o c => .txo (.ofFields (o.fields.map Field.decoded)) c.decoded

def Operation.decoded (op : Operation) : Operation where
  type := op.type
  address := op.address.decoded
  value := op.value.map Body.decoded

/-- The type is one of the schema's and the bytes fit in a message. -/
structure Operation.Encodable (op : Operation) : Prop where
  type : op.type < 2 ^ 31
  length : op.encodingLength < 2 ^ 31

def Body.toItem (body : Body) : OperationItem :=
  .member body.layout.1 2 (fieldItems body.layout.2 1)

def Operation.items (op : Operation) : List OperationItem :=
  [.type 0 op.type] ++ (op.address.bytes?.map (OperationItem.address 2)).toList ++
    (op.value.map Body.toItem).toList

theorem Body.memberFields_number (body : Body) :
    OperationObject.memberFields body.layout.1 = some body.layout.2.length := by
  cases body <;> rfl

theorem Body.encode_toItem (body : Body) : body.toItem.encode = body.encode := by
  rw [Body.encode_eq, Body.toItem, OperationItem.encode, encodeBytes, encodeFields,
    encode_fieldItems, List.append_assoc]

theorem Operation.encode_items (op : Operation) :
    op.items.flatMap OperationItem.encode = encodeOperation op := by
  have haddress : ((op.address.bytes?.map (OperationItem.address 2)).toList).flatMap
      OperationItem.encode = encodeField 2 op.address := by
    cases op.address with
    | buffer b => simp [Field.bytes?, OperationItem.encode, encodeField, encodeBytes]
    | _ => rfl
  have hvalue : ((op.value.map Body.toItem).toList).flatMap OperationItem.encode =
      op.value.elim [] Body.encode := by
    cases op.value with
    | none => rfl
    | some body => simp [Body.encode_toItem]
  rw [Operation.items, List.flatMap_append, List.flatMap_append, haddress, hvalue,
    List.flatMap_singleton, OperationItem.encode, encodeOperation]

theorem Body.toItem_valid (h : body.encodingLength < 2 ^ 31) : body.toItem.Valid := by
  rw [Body.encodingLength] at h
  have hcount := body.length_fields
  refine ⟨by decide, ?_, _, body.memberFields_number,
    fieldItems_valid (by omega) (by omega) one_ne_zero (by omega)⟩
  rw [encode_fieldItems, ← encodeFields, length_encodeFields hcount (by omega)]
  omega

theorem Operation.items_valid (h : op.Encodable) : ∀ i ∈ op.items, i.Valid := by
  have hlen := h.length
  rw [Operation.encodingLength] at hlen
  intro i hi
  simp only [Operation.items, List.mem_append, List.mem_singleton, Option.mem_toList,
    Option.map_eq_some_iff] at hi
  obtain (rfl | ⟨b, hb, rfl⟩) | ⟨body, hbody, rfl⟩ := hi
  · exact ⟨by decide, h.type⟩
  · cases haddress : op.address with
    | buffer b' =>
      rw [haddress] at hb
      cases hb
      rw [haddress, fieldLength, bytesLength] at hlen
      exact ⟨by decide, by omega⟩
    | _ => simp [haddress, Field.bytes?] at hb
  · rw [hbody, Option.elim_some] at hlen
    exact Body.toItem_valid (by omega)

namespace OperationObject

/-- The object of an operation, under another type. -/
def ofType (type : ℤ) (op : Operation) : OperationObject :=
  { of op with type }

theorem assign_layout (obj : OperationObject) (body : Body) :
    obj.assign body.layout.1 (body.layout.2.map Field.decoded) =
      ofType obj.type { type := 0, address := obj.address, value := some body.decoded } := by
  cases body <;> rfl

theorem foldl_items (op : Operation) :
    op.items.foldl OperationItem.effect empty = of op.decoded := by
  have haddress (obj : OperationObject) (h : obj.address = .null) :
      ((op.address.bytes?.map (OperationItem.address 2)).toList).foldl OperationItem.effect obj =
        { obj with address := op.address.decoded } := by
    cases op.address with
    | buffer b => rfl
    | _ => exact congrArg (fun a => { obj with address := a }) h
  rw [Operation.items, List.foldl_append, List.foldl_append, haddress _ rfl]
  cases hv : op.value with
  | none => simp [of, Operation.decoded, hv, OperationItem.effect, empty]
  | some body =>
    have hfold := foldl_fieldItems [] body.layout.2
    simp only [List.length_nil, Nat.zero_add, List.nil_append] at hfold
    rw [Option.map_some, Option.toList_some, List.foldl_cons, List.foldl_nil, Body.toItem,
      OperationItem.effect, body.memberFields_number, Option.getD_some, hfold, assign_layout]
    rw [Operation.decoded, hv]
    cases body <;> rfl

/-- The decoder reads what the encoder writes. -/
theorem decode_encode (hE : E.Lawful) (hop : op.Encodable) :
    decode E (encodeOperation op) = some (of op.decoded) := by
  rw [← op.encode_items, decode_flatMap hE (op.items_valid hop), foldl_items]

/-! ### What the decoder can return -/

theorem getD_decoded {f : List Field} (hf : ∀ x ∈ f, x.decoded = x) (i : ℕ) :
    (f.getD i .null).decoded = f.getD i .null := by
  cases hx : f[i]? with
  | none => rw [List.getD_eq_getElem?_getD, hx]; rfl
  | some x =>
    rw [List.getD_eq_getElem?_getD, hx, Option.getD_some]
    exact hf x (List.mem_of_getElem? hx)

theorem map_getD_decoded {f : List Field} (hf : ∀ x ∈ f, x.decoded = x) (places : List ℕ) :
    (places.map fun i => f.getD i .null).map Field.decoded =
      places.map fun i => f.getD i .null := by
  rw [List.map_map]
  exact List.map_congr_left fun i _ => getD_decoded hf i

theorem completion_decoded {f : List Field} (hf : ∀ x ∈ f, x.decoded = x) (n : ℕ) :
    (Completion.ofFields (f.drop n)).decoded = .ofFields (f.drop n) := by
  have hget := getD_decoded (f := f.drop n) fun x hx => hf x (List.mem_of_mem_drop hx)
  simp only [Completion.decoded, Completion.ofFields, hget]

theorem exists_assign {f : List Field} (hf : ∀ x ∈ f, x.decoded = x) {tag count : ℕ}
    (h : memberFields tag = some count) :
    ∃ body : Body, body.decoded = body ∧ ∀ obj : OperationObject, obj.assign tag f =
      ofType obj.type { type := 0, address := obj.address, value := some body } := by
  have hmap := map_getD_decoded hf
  have hc := completion_decoded hf
  unfold memberFields at h
  split at h
  · exact ⟨.cao (.ofFields f),
      (congrArg (fun l => Body.cao (.ofFields l)) (hmap [0, 1, 2, 3, 4]) :), fun _ => rfl⟩
  · exact ⟨.aco (.ofFields f),
      (congrArg (fun l => Body.aco (.ofFields l)) (hmap [0, 1, 2, 3, 4]) :), fun _ => rfl⟩
  · exact ⟨.bio (.ofFields f),
      (congrArg (fun l => Body.bio (.ofFields l)) (hmap [0, 1, 2, 3, 4, 5]) :), fun _ => rfl⟩
  · exact ⟨.tro (.ofFields f) (.ofFields (f.drop 6)),
      (congrArg₂ (fun l c => Body.tro (.ofFields l) c) (hmap [0, 1, 2, 3, 4, 5]) (hc 6) :),
      fun _ => rfl⟩
  · exact ⟨.rao (.ofFields f) (.ofFields (f.drop 5)),
      (congrArg₂ (fun l c => Body.rao (.ofFields l) c) (hmap [0, 1, 2, 3, 4]) (hc 5) :),
      fun _ => rfl⟩
  · exact ⟨.bdo (.ofFields f) (.ofFields (f.drop 6)),
      (congrArg₂ (fun l c => Body.bdo (.ofFields l) c) (hmap [0, 1, 2, 3, 4, 5]) (hc 6) :),
      fun _ => rfl⟩
  · exact ⟨.txo (.ofFields f) (.ofFields (f.drop 8)),
      (congrArg₂ (fun l c => Body.txo (.ofFields l) c) (hmap [0, 1, 2, 3, 4, 5, 6, 7]) (hc 8) :),
      fun _ => rfl⟩
  · cases h

/-- The object of an operation whose fields are bytes or `null`. -/
def Represented (obj : OperationObject) : Prop :=
  ∃ op : Operation, op.decoded = op ∧ obj = ofType obj.type op

theorem decoded_eq_iff : op.decoded = op ↔
    op.address.decoded = op.address ∧ op.value.map Body.decoded = op.value := by
  cases op
  simp [Operation.decoded]

theorem address_ofType (type : ℤ) (op : Operation) : (ofType type op).address = op.address := by
  obtain ⟨_, _, _ | body⟩ := op
  · rfl
  · cases body <;> rfl

theorem ofType_address (type : ℤ) (op : Operation) (address : Field) :
    { ofType type op with address } = ofType type { op with address } := by
  obtain ⟨_, _, _ | body⟩ := op
  · rfl
  · cases body <;> rfl

theorem fieldItem_decoded {count : ℕ} {fields : List Field} {c : List Field × ℕ}
    (h : fieldItem E buf count fields offset = some c) (hf : ∀ x ∈ fields, x.decoded = x) :
    ∀ x ∈ c.1, x.decoded = x := by
  simp only [fieldItem, Option.bind_eq_bind, Option.bind_eq_some_iff] at h
  obtain ⟨⟨header, n⟩, -, h⟩ := h
  split at h
  · obtain ⟨⟨b, m⟩, -, h⟩ := Option.bind_eq_some_iff.mp h
    cases h
    intro x hx
    obtain hx | rfl := List.mem_or_eq_of_mem_set hx
    · exact hf x hx
    · rfl
  · obtain ⟨offset', -, h⟩ := Option.bind_eq_some_iff.mp h
    cases h
    exact hf

theorem member_decoded {count : ℕ} {c : List Field × ℕ}
    (h : member E buf count offset = some c) : ∀ x ∈ c.1, x.decoded = x := by
  simp only [member, decodeFields, Option.bind_eq_bind, Option.bind_eq_some_iff] at h
  obtain ⟨⟨len, n⟩, -, ⟨f, m⟩, hread, h⟩ := h
  cases h
  split at hread
  · obtain ⟨c, hc, heq⟩ := Option.map_eq_some_iff.mp hread
    cases heq
    refine readItems_invariant (P := fun c => ∀ x ∈ c.1, x.decoded = x)
      (fun c c' h => fieldItem_decoded h) (fun x hx => ?_) hc
    rw [List.eq_of_mem_replicate hx]
    rfl
  · cases hread

theorem item_represented {obj : OperationObject} {c : OperationObject × ℕ}
    (h : item E buf obj offset = some c) (hobj : obj.Represented) : c.1.Represented := by
  simp only [item, Option.bind_eq_bind, Option.bind_eq_some_iff] at h
  obtain ⟨⟨header, n⟩, -, h⟩ := h
  obtain ⟨op, hop, hobj⟩ := hobj
  split at h
  · obtain ⟨⟨type, m⟩, -, h⟩ := Option.bind_eq_some_iff.mp h
    cases h
    refine ⟨op, hop, ?_⟩
    rw [hobj]
    rfl
  · obtain ⟨⟨b, m⟩, -, h⟩ := Option.bind_eq_some_iff.mp h
    cases h
    refine ⟨{ op with address := .buffer b },
      decoded_eq_iff.mpr ⟨rfl, (decoded_eq_iff.mp hop).2⟩, ?_⟩
    rw [hobj]
    exact ofType_address _ _ _
  · split at h
    case _ count hcount =>
      obtain ⟨⟨f, offset'⟩, hmember, h⟩ := Option.bind_eq_some_iff.mp h
      cases h
      obtain ⟨body, hbody, hassign⟩ := exists_assign (member_decoded hmember) hcount
      refine ⟨{ type := 0, address := obj.address, value := some body },
        decoded_eq_iff.mpr ⟨?_, congrArg some hbody⟩, ?_⟩
      · rw [hobj, address_ofType]
        exact (decoded_eq_iff.mp hop).1
      · rw [hassign]
        rfl
    · obtain ⟨offset', -, h⟩ := Option.bind_eq_some_iff.mp h
      cases h
      exact ⟨op, hop, hobj⟩

theorem represented_empty : empty.Represented :=
  ⟨{ type := 0, address := .null, value := none }, rfl, rfl⟩

theorem decode_represented {obj : OperationObject} (h : decode E buf = some obj) :
    obj.Represented := by
  obtain ⟨c, hc, rfl⟩ := Option.map_eq_some_iff.mp h
  exact readItems_invariant (P := fun c => c.1.Represented) (fun _ _ => item_represented)
    represented_empty hc

theorem toOperation_ofType (op : Operation) (type : ℤ) :
    (ofType type op).toOperation = { op with type := type.toNat } := by
  obtain ⟨_, _, _ | body⟩ := op
  · rfl
  · cases body <;> rfl

theorem toOperation_of (op : Operation) : (of op).toOperation = op := by
  obtain ⟨_, _, _ | body⟩ := op
  · rfl
  · cases body <;> rfl

theorem of_toNat {type : ℤ} (h : 0 ≤ type) (op : Operation) :
    of { op with type := type.toNat } = ofType type op := by
  have htype := Int.toNat_of_nonneg h
  obtain ⟨_, _, _ | body⟩ := op
  · simp only [of, ofType, empty, htype]
  · cases body <;> simp only [of, ofType, empty, htype]

/-- Unless its type is negative, an object is that of its operation. -/
theorem Represented.of_toOperation {obj : OperationObject} (h : obj.Represented)
    (htype : 0 ≤ obj.type) : of obj.toOperation.decoded = obj := by
  obtain ⟨op, hop, hobj⟩ := h
  have hoperation : obj.toOperation = { op with type := obj.type.toNat } := by
    rw [hobj, toOperation_ofType]
    rfl
  have hfields := decoded_eq_iff.mp hop
  have hdecoded : obj.toOperation.decoded = obj.toOperation := by
    rw [hoperation]
    exact decoded_eq_iff.mpr ⟨hfields.1, hfields.2⟩
  rw [hdecoded, hoperation, of_toNat htype, ← hobj]

end OperationObject

/-! ### Operations of the schemas -/

/-- A schema of `check.js` accepts the operation. -/
inductive Check.Accepts (env : Env) (op : Operation) : Prop
  | cao {address : Buffer} {o : CoreAdminOperation Buffer}
      (check : validateCoreAdminOperation env op = some (address, o))
  | aco {address : Buffer} {o : AdminControlOperation Buffer}
      (check : validateAdminControlOperation env op = some (address, o))
  | bio {address : Buffer} {o : BalanceInitializationOperation Buffer}
      (check : validateBalanceInitialization env op = some (address, o))
  | tro {address : Buffer} {o : TransferOperation Buffer} {c : Option (Completion Buffer)}
      (check : validateTransferOperation env op = some (address, o, c))
  | rao {address : Buffer} {o : RoleAccessOperation Buffer} {c : Option (Completion Buffer)}
      (check : validateRoleAccessOperation env op = some (address, o, c))
  | bdo {address : Buffer} {o : BootstrapDeploymentOperation Buffer}
      {c : Option (Completion Buffer)}
      (check : validateBootstrapDeploymentOperation env op = some (address, o, c))
  | txo {address : Buffer} {o : TxOperation Buffer} {c : Option (Completion Buffer)}
      (check : validateTransactionOperation env op = some (address, o, c))

section Schemas

variable {env : Env} {address : Buffer}

/-- The field holds so many bytes. -/
def Sized (f : Field) (size : ℕ) : Prop :=
  ∃ b, f = .buffer b ∧ b.length = size

theorem Sized.fieldLength_le {f : Field} {size : ℕ} (h : Sized f size) (hlt : size < 2 ^ 14) :
    fieldLength f ≤ size + 3 := by
  obtain ⟨b, rfl, rfl⟩ := h
  rw [fieldLength, bytesLength, varintLength]
  split_ifs <;> omega

theorem Check.NonzeroBuffer.sized {size : ℕ} (h : NonzeroBuffer size b) :
    Sized (.buffer b) size :=
  ⟨b, rfl, h.length_eq⟩

/-- How long the fields of a message are: an address where it says `none`. -/
theorem fieldsLength_le {length : ℕ} (shape : List (Option ℕ))
    (h : List.Forall₂ (fun f size => Sized f (size.getD length)) fields shape)
    (hlength : length < 2 ^ 14) (hshape : shape.all fun size => size.getD 0 ≤ 64) :
    fieldsLength fields ≤ 67 * shape.length + (length + 3) * shape.count none := by
  induction h with
  | nil => exact Nat.le_refl _
  | @cons f size fields shape hf _ ih =>
    rw [List.all_cons, Bool.and_eq_true] at hshape
    have hrest := ih hshape.2
    rw [fieldsLength] at hrest
    rw [fieldsLength, List.map_cons, List.sum_cons, List.length_cons]
    cases size with
    | none =>
      have hle := hf.fieldLength_le hlength
      rw [List.count_cons_self, Nat.mul_succ (length + 3)]
      simp only [Option.getD_none] at hle
      omega
    | some size =>
      have hsize := of_decide_eq_true hshape.1
      simp only [Option.getD_some] at hsize
      have hle := hf.fieldLength_le (by simp only [Option.getD_some]; omega)
      rw [List.count_cons_of_ne (Option.some_ne_none size)]
      simp only [Option.getD_some] at hle
      omega

theorem varintLength_le (n : ℕ) : varintLength n ≤ 10 := by
  rw [varintLength]
  split_ifs <;> decide

theorem fieldsLength_append (f g : List Field) :
    fieldsLength (f ++ g) = fieldsLength f + fieldsLength g := by
  rw [fieldsLength, List.map_append, List.sum_append, fieldsLength, fieldsLength]

theorem completion_fields_le (hlength : env.config.addressLength ≤ 1024) {f : Completion Field}
    {c : Option (Completion Buffer)} (h : Check.completion env f = some c) :
    fieldsLength f.fields ≤ env.config.addressLength + 204 := by
  cases c with
  | none =>
    rw [Check.completion_eq_none.mp h]
    exact Nat.zero_le _
  | some o =>
    obtain ⟨rfl, ho⟩ := Check.completion_eq_some.mp h
    have hle : fieldsLength o.toField.fields ≤ _ :=
      fieldsLength_le [none, some 32, some 64]
        (.cons ho.va.sized (.cons ho.vn.sized (.cons ho.vs.sized .nil))) (by omega) (by decide)
    have hcount : [none, some 32, some 64].count none = 1 := by decide
    rw [hcount] at hle
    simp only [List.length_cons, List.length_nil] at hle
    omega

/-- Fields as the schemas ask for them, and what a validator adds. -/
theorem encodingLength_le (shape : List (Option ℕ)) {rest : List Field}
    (hshape : shape.all fun size => size.getD 0 ≤ 64) (hcount : shape.length ≤ 8)
    (hnone : shape.count none ≤ 1)
    (hlength : env.config.addressLength ≤ 1024) (ha : op.address = .buffer address)
    (haddress : Check.NonzeroBuffer env.config.addressLength address)
    (hv : op.value = some body) (hbody : body.layout.2 = fields ++ rest)
    (hfields : List.Forall₂ (fun f size => Sized f (size.getD env.config.addressLength))
      fields shape)
    (hrest : fieldsLength rest ≤ env.config.addressLength + 204) :
    op.encodingLength ≤ maximumOperationPayloadSize := by
  have hmax : maximumOperationPayloadSize = 4096 := rfl
  have htype := varintLength_le op.type
  have hlen := varintLength_le (fieldsLength body.layout.2)
  have hfirst := haddress.sized.fieldLength_le (by omega)
  have hle := fieldsLength_le shape hfields (by omega) hshape
  have hmul := Nat.mul_le_mul_left (env.config.addressLength + 3) hnone
  rw [Operation.encodingLength, ha, hv, Option.elim_some, Body.encodingLength]
  rw [hbody, fieldsLength_append] at hlen ⊢
  omega

/-- What a schema accepts fits in a block. -/
theorem Check.Accepts.encodingLength_le (hlength : env.config.addressLength ≤ 1024)
    (h : Check.Accepts env op) : op.encodingLength ≤ maximumOperationPayloadSize := by
  cases h with
  | cao check =>
    obtain ⟨-, ha, hv, h⟩ := validateCoreAdminOperation_eq_some.mp check
    exact SettlementBus.encodingLength_le [some 32, some 32, some 32, some 32, some 64]
      (by decide) (by decide) (by decide) hlength ha h.address hv (List.append_nil _).symm
      (.cons h.tx.sized (.cons h.txv.sized (.cons h.iw.sized
        (.cons h.in_.sized (.cons h.is.sized .nil)))))
      (Nat.zero_le _)
  | aco check =>
    obtain ⟨-, ha, hv, h⟩ := validateAdminControlOperation_eq_some.mp check
    exact SettlementBus.encodingLength_le [some 32, some 32, none, some 32, some 64]
      (by decide) (by decide) (by decide) hlength ha h.address hv (List.append_nil _).symm
      (.cons h.tx.sized (.cons h.txv.sized (.cons h.ia.sized
        (.cons h.in_.sized (.cons h.is.sized .nil)))))
      (Nat.zero_le _)
  | bio check =>
    obtain ⟨-, ha, hv, h⟩ := validateBalanceInitialization_eq_some.mp check
    exact SettlementBus.encodingLength_le [some 32, some 32, none, some 16, some 32, some 64]
      (by decide) (by decide) (by decide) hlength ha h.address hv (List.append_nil _).symm
      (.cons h.tx.sized (.cons h.txv.sized (.cons h.ia.sized
        (.cons h.am.sized (.cons h.in_.sized (.cons h.is.sized .nil))))))
      (Nat.zero_le _)
  | tro check =>
    obtain ⟨-, ha, ⟨f, hv, hc⟩, h⟩ := validateTransferOperation_eq_some.mp check
    exact SettlementBus.encodingLength_le [some 32, some 32, none, some 16, some 32, some 64]
      (by decide) (by decide) (by decide) hlength ha h.address hv rfl
      (.cons h.tx.sized (.cons h.txv.sized (.cons h.to_.sized
        (.cons ⟨_, rfl, h.am⟩ (.cons h.in_.sized (.cons h.is.sized .nil))))))
      (completion_fields_le hlength hc)
  | rao check =>
    obtain ⟨-, ha, ⟨f, hv, hc⟩, h⟩ := validateRoleAccessOperation_eq_some.mp check
    exact SettlementBus.encodingLength_le [some 32, some 32, some 32, some 32, some 64]
      (by decide) (by decide) (by decide) hlength ha h.address hv rfl
      (.cons h.tx.sized (.cons h.txv.sized (.cons h.iw.sized
        (.cons h.in_.sized (.cons h.is.sized .nil)))))
      (completion_fields_le hlength hc)
  | bdo check =>
    obtain ⟨-, ha, ⟨f, hv, hc⟩, h⟩ := validateBootstrapDeploymentOperation_eq_some.mp check
    exact SettlementBus.encodingLength_le [some 32, some 32, some 32, some 32, some 32, some 64]
      (by decide) (by decide) (by decide) hlength ha h.address hv rfl
      (.cons h.tx.sized (.cons h.txv.sized (.cons h.bs.sized
        (.cons h.ic.sized (.cons h.in_.sized (.cons h.is.sized .nil))))))
      (completion_fields_le hlength hc)
  | txo check =>
    obtain ⟨-, ha, ⟨f, hv, hc⟩, h⟩ := validateTransactionOperation_eq_some.mp check
    exact SettlementBus.encodingLength_le
      [some 32, some 32, some 32, some 32, some 32, some 32, some 32, some 64]
      (by decide) (by decide) (by decide) hlength ha h.address hv rfl
      (.cons h.tx.sized (.cons h.txv.sized (.cons h.iw.sized (.cons h.ch.sized
        (.cons h.bs.sized (.cons h.mbs.sized (.cons h.in_.sized (.cons h.is.sized .nil))))))))
      (completion_fields_le hlength hc)

/-- What the schemas accept is what apply decodes. -/
theorem Check.Accepts.ofCode (h : Check.Accepts env op) :
    ∃ type, OperationType.ofCode op.type = some type := by
  have hcode {types : List OperationType} (h : op.type ∈ types.map OperationType.code) :
      ∃ type, OperationType.ofCode op.type = some type := by
    obtain ⟨type, -, htype⟩ := List.mem_map.mp h
    exact ⟨type, by rw [← htype, OperationType.ofCode_code]⟩
  cases h with
  | cao check => exact hcode (validateCoreAdminOperation_eq_some.mp check).1
  | aco check => exact hcode (validateAdminControlOperation_eq_some.mp check).1
  | bio check => exact hcode (validateBalanceInitialization_eq_some.mp check).1
  | tro check => exact hcode (validateTransferOperation_eq_some.mp check).1
  | rao check => exact hcode (validateRoleAccessOperation_eq_some.mp check).1
  | bdo check => exact hcode (validateBootstrapDeploymentOperation_eq_some.mp check).1
  | txo check => exact hcode (validateTransactionOperation_eq_some.mp check).1

theorem Check.Accepts.encodable (hlength : env.config.addressLength ≤ 1024)
    (h : Check.Accepts env op) : op.Encodable := by
  have hle := h.encodingLength_le hlength
  have hmax : maximumOperationPayloadSize = 4096 := rfl
  obtain ⟨type, htype⟩ := h.ofCode
  have hcode := OperationType.code_of_ofCode htype
  refine ⟨?_, by omega⟩
  rw [← hcode]
  cases type <;> decide

end Schemas

/-! ### The format -/

/-- The encoder and the decoder are inverse to each other, up to absent fields: the decoder reads
back what the encoder writes, every object it returns is that of an operation, and what it returns
for any bytes it returns again for their encoding. -/
theorem encode_decode (hE : E.Lawful) :
    (∀ op : Operation, op.Encodable →
      OperationObject.decode E (encodeOperation op) = some (.of op.decoded) ∧
      (OperationObject.of op.decoded).toOperation = op.decoded) ∧
    ∀ (buf : Buffer) (obj : OperationObject), OperationObject.decode E buf = some obj →
      obj.Represented ∧ (0 ≤ obj.type → obj.toOperation.Encodable →
        OperationObject.decode E (encodeOperation obj.toOperation) = some obj) := by
  constructor
  · exact fun op hop => ⟨OperationObject.decode_encode hE hop, OperationObject.toOperation_of _⟩
  · intro buf obj h
    have hobj := OperationObject.decode_represented h
    refine ⟨hobj, fun htype hop => ?_⟩
    rw [OperationObject.decode_encode hE hop, hobj.of_toOperation htype]

/-- Fields in any order, any number of times and among fields of later versions: the decoder takes
them one by one. -/
theorem decode_items (hE : E.Lawful) (items : List OperationItem) (h : ∀ i ∈ items, i.Valid) :
    OperationObject.decode E (items.flatMap OperationItem.encode) =
      some (items.foldl OperationItem.effect .empty) :=
  OperationObject.decode_flatMap hE h

/-- `encodingLength` counts the bytes that `encode` writes, and none of those that `allocUnsafe`
left in the buffer remains. -/
theorem encode_fills (hop : op.Encodable) :
    (encodeOperation op).length = op.encodingLength ∧
    ∀ buf : Buffer, buf.length = op.encodingLength → op.encodeInto buf = encodeOperation op := by
  obtain ⟨htype, hlen⟩ := hop
  exact ⟨length_encodeOperation (by omega) (by omega),
    fun buf => encodeInto_eq (by omega) (by omega)⟩

/-- An operation that a schema of `check.js` accepts fits in a block, and the block holds it. -/
theorem decodeNode_accepted {env : Env} (hE : E.Lawful)
    (hdecode : ∀ b, env.safeDecodeApplyOperation b =
      (OperationObject.decode E b).map OperationObject.toOperation)
    (hlength : env.config.addressLength ≤ 1024) (h : Check.Accepts env op) (key : Buffer) :
    ∃ type, OperationType.ofCode op.type = some type ∧
      decodeNode env { key, value := encodeOperation op } = some (type, op.decoded) := by
  have hop := h.encodable hlength
  have hle := h.encodingLength_le hlength
  obtain ⟨type, htype⟩ := h.ofCode
  refine ⟨type, htype, ?_⟩
  have hlen : (encodeOperation op).length = op.encodingLength :=
    length_encodeOperation (by have := hop.type; omega) (by have := hop.length; omega)
  have hread : env.safeDecodeApplyOperation (encodeOperation op) = some op.decoded := by
    rw [hdecode, OperationObject.decode_encode hE hop, Option.map_some,
      OperationObject.toOperation_of]
  rw [decodeNode, if_neg (by simp only [hlen]; omega)]
  simp only [hread, Option.bind_eq_bind, Option.bind_some]
  have hdecoded : OperationType.ofCode op.decoded.type = some type := htype
  rw [hdecoded]
  rfl

namespace Sample

theorem payAdmin_encodable : payAdminOp.Encodable := ⟨by decide, by decide +kernel⟩

theorem encode_decode_payAdmin :
    OperationObject.decode .protobuf (encodeOperation payAdminOp) =
      some (.of payAdminOp.decoded) :=
  ((encode_decode Encodings.protobuf_lawful).1 payAdminOp payAdmin_encodable).1

/-- A later version of the protocol adds fields, and a field stands twice. -/
def laterItems : List OperationItem :=
  [.unknown 12 (.bytes [1, 2]), .type 0 13, .member 3 2 [.known 1 2 [3]], .address 2 [4],
    .member 6 2 [.unknown 10 (.varint 300), .known 4 0 [5], .known 4 2 [6]]]

theorem laterItems_valid : ∀ i ∈ laterItems, i.Valid := by
  simp [laterItems, OperationItem.Valid, OperationObject.memberFields, FieldItem.Valid,
    Skipped.Valid]
  decide

theorem decode_items_later :
    OperationObject.decode .protobuf (laterItems.flatMap OperationItem.encode) =
      some (laterItems.foldl OperationItem.effect .empty) :=
  decode_items Encodings.protobuf_lawful laterItems laterItems_valid

/-- The buffer is full of the byte 255 before. -/
theorem encode_fills_payAdmin :
    payAdminOp.encodeInto (List.replicate payAdminOp.encodingLength 255) =
      encodeOperation payAdminOp :=
  (encode_fills payAdmin_encodable).2 _ List.length_replicate

/-- The sample's network reads the wire format. -/
def wired : Env :=
  { network with
    safeDecodeApplyOperation b :=
      (OperationObject.decode .protobuf b).map OperationObject.toOperation }

theorem payAdmin_accepted : Check.Accepts wired payAdminOp := by
  have h : (Check.validateTransferOperation wired payAdminOp).isSome := by decide +kernel
  obtain ⟨⟨address, o, c⟩, hcheck⟩ := Option.isSome_iff_exists.mp h
  exact .tro hcheck

theorem decodeNode_accepted_payAdmin :
    ∃ type, OperationType.ofCode payAdminOp.type = some type ∧
      decodeNode wired (block bootstrap payAdminOp) = some (type, payAdminOp.decoded) :=
  decodeNode_accepted Encodings.protobuf_lawful (fun _ => rfl) (by decide) payAdmin_accepted
    bootstrap

end Sample

end SettlementBus
