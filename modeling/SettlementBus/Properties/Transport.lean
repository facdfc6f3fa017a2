import SettlementBus.Messages.Transport
import SettlementBus.Properties.Exchange
import SettlementBus.Properties.Signature

/-! What a node writes to a session, the router of its peer reads, and what a handler accepts is a
message that a node can write. -/

namespace SettlementBus

open Lib Lib.Wire NetworkV1

/-- The methods read what is written. -/
structure Protobuf.Lawful (R : Protobuf) : Prop where
  uint32 {n : ℕ} (hn : n < 2 ^ 32) : Reads R.uint32 (varint 5 n) n
  int32 {n : ℕ} (hn : n < 2 ^ 31) : Reads R.int32 (varint 5 n) (n : ℤ)
  uint64 {n : ℕ} (hn : n ≤ maxSafeInteger) : Reads R.uint64 (varint 10 n) n
  bytes {b : Buffer} (hb : b.length < 2 ^ 31) : Reads R.bytes (varint 5 b.length ++ b) b
  string {s : Str} (hs : (fromUtf8 s).length < 2 ^ 31) :
    Reads R.string (varint 5 (fromUtf8 s).length ++ fromUtf8 s) s
  skipType {p : Skipped} (hp : p.Valid) : R.format.Skips p.wireType p.encode

/-! ### The reader as it is documented -/

namespace Protobuf.Minimal

/-- Ten bytes at most. -/
def readVarint (bits : ℕ) : Reader UInt8 ℕ := fun buf offset =>
  (Leb128.decode 10 (buf.drop offset)).map fun d => (d.1 % 2 ^ bits, offset + d.2)

def readInt32 : Reader UInt8 ℤ := fun buf offset =>
  (readVarint 32 buf offset).map fun d =>
    (if d.1 < 2 ^ 31 then (d.1 : ℤ) else d.1 - 2 ^ 32, d.2)

def readBytes : Reader UInt8 Buffer := fun buf offset =>
  (readVarint 32 buf offset).bind fun d =>
    if d.2 + d.1 ≤ buf.length then some ((buf.drop d.2).take d.1, d.2 + d.1) else none

/-- Bytes that are no text are refused here, where `node` replaces them. -/
def readString : Reader UInt8 Str := fun buf offset =>
  (readBytes buf offset).bind fun d =>
    (d.1.toByteArray.utf8Decode?).map fun s => (s.toList, d.2)

def skip (length : ℕ) (buf : Buffer) (offset : ℕ) : Option ℕ :=
  if offset + length ≤ buf.length then some (offset + length) else none

def skipType (wire : ℕ) (buf : Buffer) (offset : ℕ) : Option ℕ :=
  match wire with
  | 0 => (readVarint 64 buf offset).map Prod.snd
  | 1 => skip 8 buf offset
  | 2 => (readBytes buf offset).map Prod.snd
  | 5 => skip 4 buf offset
  | _ => none

theorem lt_readVarint {bits : ℕ} {buf : Buffer} {offset : ℕ} {d : ℕ × ℕ}
    (h : readVarint bits buf offset = some d) : offset < d.2 := by
  obtain ⟨c, hc, rfl⟩ := Option.map_eq_some_iff.mp h
  have hpos := Leb128.decode_pos hc
  exact Nat.lt_add_of_pos_right hpos

theorem readBytes_forward : readBytes.Forward := by
  intro buf offset d h
  obtain ⟨c, hc, h⟩ := Option.bind_eq_some_iff.mp h
  have hlt := lt_readVarint hc
  split at h
  · cases h
    exact Nat.le_trans (Nat.le_of_lt hlt) (Nat.le_add_right _ _)
  · cases h

theorem le_skip {length offset offset' : ℕ} {buf : Buffer}
    (h : skip length buf offset = some offset') : offset ≤ offset' := by
  unfold skip at h
  split at h <;> cases h
  exact Nat.le_add_right _ _

theorem le_skipType {wire offset offset' : ℕ} {buf : Buffer}
    (h : skipType wire buf offset = some offset') : offset ≤ offset' := by
  unfold skipType at h
  split at h
  · obtain ⟨d, hd, rfl⟩ := Option.map_eq_some_iff.mp h
    exact Nat.le_of_lt (lt_readVarint hd)
  · exact le_skip h
  · obtain ⟨d, hd, rfl⟩ := Option.map_eq_some_iff.mp h
    exact readBytes_forward buf offset d hd
  · exact le_skip h
  · cases h

theorem skip_of_at {b buf : Buffer} {offset length : ℕ} (hlen : b.length = length)
    (hne : length ≠ 0) (h : At buf offset b) : skip length buf offset = some (offset + b.length) := by
  subst hlen
  exact if_pos (h.le_length (List.ne_nil_of_length_pos (Nat.pos_of_ne_zero hne)))

theorem readVarint_reads {bits fuel n : ℕ} (hbits : n < 2 ^ bits) (hn : n < 128 ^ (fuel + 1))
    (hfuel : fuel < 10) : Reads (readVarint bits) (varint (fuel + 1) n) n := by
  intro buf offset hat
  rw [readVarint, decode_varint_of_lt hn hfuel hat, Option.map_some, Nat.mod_eq_of_lt hbits]

theorem readBytes_reads {b : Buffer} (hb : b.length < 2 ^ 32) :
    Reads readBytes (varint 5 b.length ++ b) b := by
  intro buf offset hat
  have hlength : Reads (readVarint 32) (varint 5 b.length) b.length :=
    readVarint_reads hb (by omega) (by decide)
  rw [at_append] at hat
  have hle : offset + (varint 5 b.length).length + b.length ≤ buf.length := by
    cases b with
    | nil => exact hat.1.le_length (varint_ne_nil _)
    | cons x b => exact hat.2.le_length (List.cons_ne_nil x b)
  simp only [readBytes, hlength buf offset hat.1, Option.bind_some, if_pos hle, hat.2.slice]
  rw [List.length_append, Nat.add_assoc]

end Protobuf.Minimal

open Protobuf.Minimal in
/-- The reader of `protobufjs/minimal`. -/
def Protobuf.minimal : Protobuf where
  uint32 := readVarint 32
  int32 := readInt32
  uint64 := readVarint 64
  bytes := readBytes
  string := readString
  skipType := Minimal.skipType
  lt_uint32 := lt_readVarint
  int32_forward buf offset d h := by
    obtain ⟨c, hc, rfl⟩ := Option.map_eq_some_iff.mp h
    exact Nat.le_of_lt (lt_readVarint hc)
  uint64_forward _ _ _ h := Nat.le_of_lt (lt_readVarint h)
  bytes_forward := readBytes_forward
  string_forward buf offset d h := by
    obtain ⟨c, hc, h⟩ := Option.bind_eq_some_iff.mp h
    obtain ⟨s, -, rfl⟩ := Option.map_eq_some_iff.mp h
    exact readBytes_forward buf offset c hc
  le_skipType := Minimal.le_skipType

open Protobuf.Minimal in
theorem Protobuf.minimal_lawful : Protobuf.minimal.Lawful where
  uint32 hn := readVarint_reads hn (by omega) (by decide)
  int32 {n} hn := by
    intro buf offset hat
    have hread : Reads (readVarint 32) (varint 5 n) n :=
      readVarint_reads (by omega) (by omega) (by decide)
    simp only [minimal, readInt32, hread buf offset hat, Option.map_some, if_pos hn]
  uint64 {n} hn := by
    have hlt : n < 2 ^ 53 := Nat.lt_of_le_pred (by decide) hn
    exact readVarint_reads (by omega) (by omega) (by decide)
  bytes hb := readBytes_reads (by omega)
  string {s} hs := by
    intro buf offset hat
    have hutf8 : (fromUtf8 s).toByteArray.utf8Decode? = some s.toArray :=
      List.utf8Decode?_utf8Encode
    simp only [minimal, readString, readBytes_reads (Nat.lt_trans hs (by decide)) buf offset hat,
      Option.bind_some, hutf8, Option.map_some]
  skipType {p} hp := by
    intro buf offset hat
    cases p with
    | varint n =>
      have hread : Reads (readVarint 64) (varint 10 n) n :=
        readVarint_reads hp (Nat.lt_trans hp (by decide)) (by decide)
      have hskip := congrArg (Option.map Prod.snd) (hread buf offset hat)
      exact hskip
    | fixed64 b => exact skip_of_at hp (by decide) hat
    | bytes b =>
      have hlt : b.length < 2 ^ 31 := hp
      have hskip := congrArg (Option.map Prod.snd)
        (@readBytes_reads b (by omega) buf offset hat)
      exact hskip
    | fixed32 b => exact skip_of_at hp (by decide) hat

/-! ### Sequences of fields -/

namespace Protobuf

variable {R : Protobuf} {σ τ : Type}

theorem reads_header (hR : R.Lawful) {number wire : ℕ} (hnumber : number < 2 ^ 29)
    (hwire : wire < 8) :
    Reads R.format.header (varint 5 (8 * number + wire)) (number, wire) := by
  intro buf offset hat
  have htag : tagOf (8 * number + wire) = number := tagOf_header hwire hnumber
  have hmod : (8 * number + wire) % 8 = wire := by omega
  simp only [Protobuf.format, hR.uint32 (by omega) buf offset hat, Option.map_some, htag, hmod]

variable (hR : R.Lawful) (fields : ℕ → Option (FieldReader UInt8 σ)) (number : ℕ)
  (hnumber : number < 2 ^ 29)

include hR hnumber

/-- One field that is there. -/
theorem fields_of_reads {β : Type} (wire : ℕ) (hwire : wire < 8) {read : Reader UInt8 β}
    {set : β → σ → σ} {b : β} {piece : Buffer} (hfield : fields number = some (read.field set))
    (hread : Reads read piece b) :
    R.format.Fields fields (varint 5 (8 * number + wire) ++ piece) (set b) := by
  have h := Format.Fields.known (reads_header hR hnumber hwire) hfield (hread.field set) .nil
  rwa [List.append_nil] at h

theorem fields_encodeUint64 {set : ℕ → σ → σ} {n : ℕ}
    (hfield : fields number = some (R.uint64.field set)) (hn : n ≤ maxSafeInteger) :
    R.format.Fields fields (encodeUint64 number n) (set n) :=
  fields_of_reads hR fields number hnumber 0 (by decide) hfield (hR.uint64 hn)

theorem fields_encodeInt32 {set : ℤ → σ → σ} {n : ℕ}
    (hfield : fields number = some (R.int32.field set)) (hn : n < 2 ^ 31) :
    R.format.Fields fields (encodeInt32 number n) (set n) :=
  fields_of_reads hR fields number hnumber 0 (by decide) hfield (hR.int32 hn)

theorem fields_encodeBytes {set : Buffer → σ → σ} {b : Buffer}
    (hfield : fields number = some (R.bytes.field set)) (hb : b.length < 2 ^ 31) :
    R.format.Fields fields (encodeBytes number b) (set b) := by
  rw [encodeBytes, List.append_assoc]
  exact fields_of_reads hR fields number hnumber 2 (by decide) hfield (hR.bytes hb)

theorem fields_encodeString {set : Str → σ → σ} {s : Str}
    (hfield : fields number = some (R.string.field set)) (hs : (fromUtf8 s).length < 2 ^ 31) :
    R.format.Fields fields (encodeBytes number (fromUtf8 s)) (set s) := by
  rw [encodeBytes, List.append_assoc]
  exact fields_of_reads hR fields number hnumber 2 (by decide) hfield (hR.string hs)

theorem fields_encodeMember {inner : ℕ → Option (FieldReader UInt8 τ)} {init : τ} {f : τ → τ}
    {set : τ → σ → σ} {piece : Buffer}
    (hfield : fields number = some ((member R inner init).field set))
    (hinner : Format.Forward inner) (hpiece : R.format.Fields inner piece f)
    (hlen : piece.length < 2 ^ 32) :
    R.format.Fields fields (encodeBytes number piece) (set (f init)) := by
  rw [encodeBytes, List.append_assoc]
  exact fields_of_reads hR fields number hnumber 2 (by decide) hfield
    (hpiece.delimited hinner (hR.uint32 hlen) init)

end Protobuf

namespace NetworkV1

open Protobuf

variable {R : Protobuf} {nonce signature data proof : Buffer} {timestamp result : ℕ}

/-! ### The members of the `oneof` -/

theorem LivenessRequest.fields_forward : Format.Forward (LivenessRequest.fields R) := by
  intro number read h s
  unfold fields at h
  split at h <;> cases h <;> exact R.bytes_forward.field _ s

theorem LivenessResponse.fields_forward : Format.Forward (LivenessResponse.fields R) := by
  intro number read h s
  unfold fields at h
  split at h <;> cases h
  all_goals first | exact R.bytes_forward.field _ s | exact R.int32_forward.field _ s

theorem BroadcastTransactionRequest.fields_forward :
    Format.Forward (BroadcastTransactionRequest.fields R) := by
  intro number read h s
  unfold fields at h
  split at h <;> cases h <;> exact R.bytes_forward.field _ s

theorem BroadcastTransactionResponse.fields_forward :
    Format.Forward (BroadcastTransactionResponse.fields R) := by
  intro number read h s
  unfold fields at h
  split at h <;> cases h
  all_goals
    first
    | exact R.bytes_forward.field _ s
    | exact R.uint64_forward.field _ s
    | exact R.int32_forward.field _ s

theorem LivenessRequest.fields_encode (hR : R.Lawful) (hnonce : nonce.length < 2 ^ 31)
    (hsignature : signature.length < 2 ^ 31) :
    R.format.Fields (fields R) (encodeBytes 1 nonce ++ encodeBytes 2 signature)
      (fun m => { m with nonce, signature }) := by
  have hnonce' := fields_encodeBytes hR (fields R) 1 (by decide) rfl hnonce
  have hsignature' := fields_encodeBytes hR (fields R) 2 (by decide) rfl hsignature
  exact hnonce'.append hsignature'

theorem LivenessResponse.fields_encode (hR : R.Lawful) (hnonce : nonce.length < 2 ^ 31)
    (hsignature : signature.length < 2 ^ 31) (hresult : result < 2 ^ 31) :
    R.format.Fields (fields R)
      (encodeBytes 1 nonce ++ (encodeBytes 2 signature ++ encodeInt32 3 result))
      (fun m => { m with nonce, signature, result }) := by
  have hnonce' := fields_encodeBytes hR (fields R) 1 (by decide) rfl hnonce
  have hsignature' := fields_encodeBytes hR (fields R) 2 (by decide) rfl hsignature
  have hresult' := fields_encodeInt32 hR (fields R) 3 (by decide) rfl hresult
  exact hnonce'.append (hsignature'.append hresult')

theorem BroadcastTransactionRequest.fields_encode (hR : R.Lawful) (hdata : data.length < 2 ^ 31)
    (hnonce : nonce.length < 2 ^ 31) (hsignature : signature.length < 2 ^ 31) :
    R.format.Fields (fields R)
      (encodeBytes 1 data ++ (encodeBytes 2 nonce ++ encodeBytes 3 signature))
      (fun m => { m with data, nonce, signature }) := by
  have hdata' := fields_encodeBytes hR (fields R) 1 (by decide) rfl hdata
  have hnonce' := fields_encodeBytes hR (fields R) 2 (by decide) rfl hnonce
  have hsignature' := fields_encodeBytes hR (fields R) 3 (by decide) rfl hsignature
  exact hdata'.append (hnonce'.append hsignature')

theorem BroadcastTransactionResponse.fields_encode (hR : R.Lawful) (hnonce : nonce.length < 2 ^ 31)
    (hsignature : signature.length < 2 ^ 31) (hproof : proof.length < 2 ^ 31)
    (htimestamp : timestamp ≤ maxSafeInteger) (hresult : result < 2 ^ 31) :
    R.format.Fields (fields R)
      (encodeBytes 1 nonce ++ (encodeBytes 2 signature ++ (encodeBytes 3 proof ++
        (encodeUint64 4 timestamp ++ encodeInt32 5 result))))
      (fun m => { m with nonce, signature, proof, timestamp, result }) := by
  have hnonce' := fields_encodeBytes hR (fields R) 1 (by decide) rfl hnonce
  have hsignature' := fields_encodeBytes hR (fields R) 2 (by decide) rfl hsignature
  have hproof' := fields_encodeBytes hR (fields R) 3 (by decide) rfl hproof
  have htimestamp' := fields_encodeUint64 hR (fields R) 4 (by decide) rfl htimestamp
  have hresult' := fields_encodeInt32 hR (fields R) 5 (by decide) rfl hresult
  exact hnonce'.append (hsignature'.append (hproof'.append (htimestamp'.append hresult')))

theorem member_forward {σ : Type} {fields : ℕ → Option (FieldReader UInt8 σ)}
    (h : Format.Forward fields) (init : σ) : (member R fields init).Forward :=
  Format.delimited_forward h (fun _ _ _ hd => Nat.le_of_lt (R.lt_uint32 hd)) init

end NetworkV1

/-! ### Messages -/

/-- Numbers and lengths that the format has room for. -/
structure NetworkMessage.Encodable (m : NetworkMessage) (signature : Buffer) : Prop where
  timestamp : m.timestamp ≤ maxSafeInteger
  result : m.payload.ResultAllowed
  length : (m.encode signature).length < 2 ^ 31

def NetworkPayload.ProofSized : NetworkPayload → Prop
  | .broadcastTransactionResponse _ proof _ _ => proof.length ≤ maxPartialTxPayloadByteSize
  | _ => True

/-- A field that no message of this version has. -/
structure LaterField where
  number : ℕ
  property : Skipped

def LaterField.encode (x : LaterField) : Buffer :=
  varint 5 (8 * x.number + x.property.wireType) ++ x.property.encode

def LaterField.Valid (x : LaterField) : Prop :=
  (x.number = 0 ∨ 8 < x.number) ∧ x.number < 2 ^ 29 ∧ x.property.Valid

/-- The bytes of a message among fields of later versions. -/
def NetworkMessage.encodeAmong (m : NetworkMessage) (signature : Buffer)
    (before after : List LaterField) : Buffer :=
  before.flatMap LaterField.encode ++
    (m.encode signature ++ after.flatMap LaterField.encode)

theorem NetworkMessage.encodeAmong_nil (m : NetworkMessage) (signature : Buffer) :
    m.encodeAmong signature [] [] = m.encode signature :=
  List.append_nil _

theorem NetworkMessage.length_le_encodeAmong (m : NetworkMessage) (signature : Buffer)
    (before after : List LaterField) :
    (m.encode signature).length ≤ (m.encodeAmong signature before after).length := by
  simp only [encodeAmong, List.length_append]
  omega

namespace NetworkV1.MessageHeader

open Protobuf

variable {R : Protobuf} {m : NetworkMessage} {signature : Buffer}

theorem fields_forward : Format.Forward (fields R) := by
  intro number read h s
  unfold fields at h
  split at h <;> cases h
  · exact R.int32_forward.field _ s
  · exact R.string_forward.field _ s
  · exact R.uint64_forward.field _ s
  · exact (member_forward LivenessRequest.fields_forward _).field _ s
  · exact (member_forward LivenessResponse.fields_forward _).field _ s
  · exact (member_forward BroadcastTransactionRequest.fields_forward _).field _ s
  · exact (member_forward BroadcastTransactionResponse.fields_forward _).field _ s
  · exact R.string_forward.field _ s

theorem result_lt {result : ℕ} (h : result ∈ allowedResultCodes) : result < 2 ^ 31 := by
  rw [allowedResultCodes, List.mem_range] at h
  omega

/-- What the bytes of a member are longer than. -/
theorem length_le_encodeBytes (number : ℕ) (b : Buffer) :
    b.length ≤ (encodeBytes number b).length := by
  rw [encodeBytes, List.length_append]
  exact Nat.le_add_left _ _

theorem fields_payload (hR : R.Lawful) {payload : NetworkPayload} (hresult : payload.ResultAllowed)
    (hlen : (payload.encode signature).length < 2 ^ 31) :
    R.format.Fields (fields R) (payload.encode signature) (withPayload payload signature) := by
  cases payload with
  | livenessRequest nonce =>
    rw [NetworkPayload.encode] at hlen ⊢
    have hinner := (length_le_encodeBytes _ _).trans_lt hlen
    have hnonce := length_le_encodeBytes 1 nonce
    have hsignature := length_le_encodeBytes 2 signature
    rw [List.length_append] at hinner
    have h : R.format.Fields (LivenessRequest.fields R)
        (encodeBytes 1 nonce ++ encodeBytes 2 signature) _ :=
      LivenessRequest.fields_encode hR (by omega) (by omega)
    have hmember := fields_encodeMember hR (fields R) 4 (by decide) rfl
      LivenessRequest.fields_forward h (by simp only [List.length_append]; omega)
    exact hmember
  | livenessResponse nonce result =>
    rw [NetworkPayload.encode] at hlen ⊢
    have hinner := (length_le_encodeBytes _ _).trans_lt hlen
    have hnonce := length_le_encodeBytes 1 nonce
    have hsignature := length_le_encodeBytes 2 signature
    simp only [List.length_append] at hinner
    have h : R.format.Fields (LivenessResponse.fields R)
        (encodeBytes 1 nonce ++ (encodeBytes 2 signature ++ encodeInt32 3 result)) _ :=
      LivenessResponse.fields_encode hR (by omega) (by omega) (result_lt hresult)
    have hmember := fields_encodeMember hR (fields R) 5 (by decide) rfl
      LivenessResponse.fields_forward h (by simp only [List.length_append]; omega)
    exact hmember
  | broadcastTransactionRequest data nonce =>
    rw [NetworkPayload.encode] at hlen ⊢
    have hinner := (length_le_encodeBytes _ _).trans_lt hlen
    have hdata := length_le_encodeBytes 1 data
    have hnonce := length_le_encodeBytes 2 nonce
    have hsignature := length_le_encodeBytes 3 signature
    simp only [List.length_append] at hinner
    have h : R.format.Fields (BroadcastTransactionRequest.fields R)
        (encodeBytes 1 data ++ (encodeBytes 2 nonce ++ encodeBytes 3 signature)) _ :=
      BroadcastTransactionRequest.fields_encode hR (by omega) (by omega) (by omega)
    have hmember := fields_encodeMember hR (fields R) 6 (by decide) rfl
      BroadcastTransactionRequest.fields_forward h (by simp only [List.length_append]; omega)
    exact hmember
  | broadcastTransactionResponse nonce proof timestamp result =>
    rw [NetworkPayload.encode] at hlen ⊢
    have hinner := (length_le_encodeBytes _ _).trans_lt hlen
    have hnonce := length_le_encodeBytes 1 nonce
    have hsignature := length_le_encodeBytes 2 signature
    have hproof := length_le_encodeBytes 3 proof
    simp only [List.length_append] at hinner
    have h : R.format.Fields (BroadcastTransactionResponse.fields R)
        (encodeBytes 1 nonce ++ (encodeBytes 2 signature ++ (encodeBytes 3 proof ++
          (encodeUint64 4 timestamp ++ encodeInt32 5 result)))) _ :=
      BroadcastTransactionResponse.fields_encode hR (by omega) (by omega) (by omega) hresult.1
        (result_lt hresult.2)
    have hmember := fields_encodeMember hR (fields R) 7 (by decide) rfl
      BroadcastTransactionResponse.fields_forward h (by simp only [List.length_append]; omega)
    exact hmember

theorem foldl_capabilities (capabilities : List Str) (header : MessageHeader) :
    capabilities.foldl (fun h c => { h with capabilities := h.capabilities ++ [c] }) header =
      { header with capabilities := header.capabilities ++ capabilities } := by
  induction capabilities generalizing header with
  | nil => rw [List.foldl_nil, List.append_nil]
  | cons c capabilities ih => rw [List.foldl_cons, ih, List.append_assoc, List.singleton_append]

theorem fields_capabilities (hR : R.Lawful) {capabilities : List Str}
    (hlen : (capabilities.flatMap fun c => encodeBytes 8 (fromUtf8 c)).length < 2 ^ 31) :
    R.format.Fields (fields R) (capabilities.flatMap fun c => encodeBytes 8 (fromUtf8 c))
      (fun header => { header with capabilities := header.capabilities ++ capabilities }) := by
  have hlt (c : Str) (hc : c ∈ capabilities) : (fromUtf8 c).length < 2 ^ 31 := by
    have hmem : encodeBytes 8 (fromUtf8 c) ∈
        capabilities.map fun c => encodeBytes 8 (fromUtf8 c) := List.mem_map_of_mem hc
    have hle := (List.sublist_flatten_of_mem hmem).length_le
    exact ((length_le_encodeBytes 8 _).trans hle).trans_lt hlen
  have h := Format.Fields.flatMap fun c hc =>
    fields_encodeString hR (fields R) 8 (by decide) rfl (hlt c hc)
  simpa only [foldl_capabilities] using h

/-- What the bytes of a message do to an empty one. -/
theorem fields_encode (hR : R.Lawful) (h : m.Encodable signature) :
    ∃ f, R.format.Fields (fields R) (m.encode signature) f ∧ f {} = of m signature := by
  have hlen := h.length
  have hid := length_le_encodeBytes 2 (fromUtf8 m.id)
  simp only [NetworkMessage.encode, List.length_append] at hlen
  have htype : m.payload.type.code < 2 ^ 31 := by
    cases m.payload.type <;> decide
  have htype' := fields_encodeInt32 hR (fields R) 1 (by decide) rfl htype
  have hid' := @fields_encodeString R _ hR (fields R) 2 (by decide) _ m.id rfl (by omega)
  have htimestamp' := fields_encodeUint64 hR (fields R) 3 (by decide) rfl h.timestamp
  have hpayload' := @fields_payload R signature hR _ h.result (by omega)
  have hcapabilities' := @fields_capabilities R hR m.capabilities (by omega)
  have hrest := htimestamp'.append (hpayload'.append hcapabilities')
  refine ⟨_, htype'.append (hid'.append hrest), ?_⟩
  cases hpayload : m.payload <;> simp [withPayload, of, hpayload]

theorem fields_eq_none {number : ℕ} (h : number = 0 ∨ 8 < number) : fields R number = none := by
  unfold fields
  split <;> first | omega | rfl

/-- Fields of later versions leave the message as it is. -/
theorem fields_later (hR : R.Lawful) {later : List LaterField} (h : ∀ x ∈ later, x.Valid) :
    R.format.Fields (fields R) (later.flatMap LaterField.encode) (fun m => m) := by
  induction later with
  | nil => exact .nil
  | cons x later ih =>
    obtain ⟨hnumber, hlt, hp⟩ := h x List.mem_cons_self
    have hrest := ih fun y hy => h y (List.mem_cons_of_mem x hy)
    rw [List.flatMap_cons, LaterField.encode, List.append_assoc]
    exact .unknown (reads_header hR hlt x.property.wireType_lt) (fields_eq_none hnumber)
      (hR.skipType hp) hrest

/-- The decoder reads a message back, also among fields of later versions. -/
theorem decode_encode (hR : R.Lawful) (h : m.Encodable signature)
    {before after : List LaterField} (hbefore : ∀ x ∈ before, x.Valid)
    (hafter : ∀ x ∈ after, x.Valid) :
    decode R (m.encodeAmong signature before after) = some (of m signature) := by
  obtain ⟨f, hf, hof⟩ := fields_encode hR h
  have hfields := (fields_later hR hbefore).append (hf.append (fields_later hR hafter))
  rw [decode, NetworkMessage.encodeAmong, hfields.decode fields_forward]
  exact congrArg some hof

/-! ### The schemas -/

theorem of_injective {m' : NetworkMessage} {signature' : Buffer}
    (h : of m signature = of m' signature') : m = m' ∧ signature = signature' := by
  obtain ⟨id, timestamp, capabilities, payload⟩ := m
  obtain ⟨id', timestamp', capabilities', payload'⟩ := m'
  cases payload <;> cases payload' <;> simp_all [of, withPayload]

theorem type_of (m : NetworkMessage) (signature : Buffer) :
    (of m signature).type = m.payload.type.code := by
  rw [of]
  cases m.payload <;> rfl

theorem validateResult_natCast (result : ℕ) :
    validateResult result = decide (result ∈ allowedResultCodes) := by
  simp [validateResult]

/-- A schema accepts the object of a message if it accepts the message. -/
theorem isPayloadSchemaValid_of (m : NetworkMessage) (signature : Buffer) :
    (of m signature).isPayloadSchemaValid m.payload.type = m.isSchemaValid signature := by
  obtain ⟨id, timestamp, capabilities, payload⟩ := m
  have hheader (type : NetworkOperationType) (h : MessageHeader) (hid : h.id = id)
      (htimestamp : h.timestamp = timestamp) (htype : h.type = type.code) :
      h.validateHeader type =
        SettlementBus.validateHeader { id, timestamp, capabilities, payload } := by
    subst hid htimestamp
    simp [validateHeader, SettlementBus.validateHeader, htype]
  cases payload with
  | livenessRequest nonce =>
    simp [isPayloadSchemaValid, validateV1LivenessRequest, NetworkMessage.isSchemaValid,
      SettlementBus.validateV1LivenessRequest, hheader, of, withPayload, isStrict,
      NetworkPayload.type]
  | livenessResponse nonce result =>
    simp [isPayloadSchemaValid, validateV1LivenessResponse, NetworkMessage.isSchemaValid,
      SettlementBus.validateV1LivenessResponse, hheader, of, withPayload, isStrict,
      NetworkPayload.type, validateResult_natCast]
  | broadcastTransactionRequest data nonce =>
    simp [isPayloadSchemaValid, validateV1BroadcastTransactionRequest,
      NetworkMessage.isSchemaValid, SettlementBus.validateV1BroadcastTransactionRequest, hheader,
      of, withPayload, isStrict, NetworkPayload.type]
  | broadcastTransactionResponse nonce proof timestamp result =>
    simp [isPayloadSchemaValid, validateV1BroadcastTransactionResponse,
      NetworkMessage.isSchemaValid, SettlementBus.validateV1BroadcastTransactionResponse, hheader,
      of, withPayload, isStrict, NetworkPayload.type, validateResult_natCast]

/-- An object that a schema accepts is that of a message. -/
theorem exists_of {object : MessageHeader} {type : NetworkOperationType}
    (h : object.isPayloadSchemaValid type) :
    ∃ m signature, object = of m signature ∧ m.payload.type = type := by
  obtain ⟨code, id, timestamp, request, response, broadcast, receipt, capabilities⟩ := object
  cases type with
  | livenessRequest =>
    simp only [isPayloadSchemaValid, validateV1LivenessRequest, validateHeader, isStrict,
      Bool.decide_and, Bool.and_eq_true, decide_eq_true_eq, reduceCtorEq, imp_false,
      Bool.not_eq_true, Option.isSome_eq_false_iff, Option.isNone_iff_eq_none, implies_true,
      true_and, Bool.decide_eq_true, Option.any_eq_true] at h
    obtain ⟨⟨rfl, -⟩, ⟨rfl, rfl, rfl⟩, x, rfl, -⟩ := h
    exact ⟨⟨id, timestamp, capabilities, .livenessRequest x.nonce⟩, x.signature, rfl, rfl⟩
  | livenessResponse =>
    simp only [isPayloadSchemaValid, validateV1LivenessResponse, validateHeader, isStrict,
      validateResult, Bool.decide_and, Bool.and_eq_true,
      decide_eq_true_eq, reduceCtorEq, imp_false, Bool.not_eq_true, Option.isSome_eq_false_iff,
      Option.isNone_iff_eq_none, implies_true, true_and, Bool.decide_eq_true, Option.any_eq_true] at h
    obtain ⟨⟨rfl, -⟩, ⟨rfl, rfl, rfl⟩, ⟨nonce, signature, result⟩, rfl, -, -, hresult, -⟩ := h
    obtain ⟨result, rfl⟩ := Int.eq_ofNat_of_zero_le hresult
    exact ⟨⟨id, timestamp, capabilities, .livenessResponse nonce result⟩, signature, rfl, rfl⟩
  | broadcastTransactionRequest =>
    simp only [isPayloadSchemaValid, validateV1BroadcastTransactionRequest, validateHeader,
      isStrict, Bool.decide_and, Bool.and_eq_true,
      decide_eq_true_eq, reduceCtorEq, imp_false, Bool.not_eq_true, Option.isSome_eq_false_iff,
      Option.isNone_iff_eq_none, implies_true, true_and, Bool.decide_eq_true, Option.any_eq_true] at h
    obtain ⟨⟨rfl, -⟩, ⟨rfl, rfl, rfl⟩, x, rfl, -⟩ := h
    exact ⟨⟨id, timestamp, capabilities, .broadcastTransactionRequest x.data x.nonce⟩,
      x.signature, rfl, rfl⟩
  | broadcastTransactionResponse =>
    simp only [isPayloadSchemaValid, validateV1BroadcastTransactionResponse, validateHeader,
      isStrict, validateResult, and_true, Bool.decide_and, Bool.and_eq_true,
      decide_eq_true_eq, reduceCtorEq, imp_false, Bool.not_eq_true, Option.isSome_eq_false_iff,
      Option.isNone_iff_eq_none, implies_true, Bool.decide_eq_true, Option.any_eq_true] at h
    obtain ⟨⟨rfl, -⟩, ⟨rfl, rfl, rfl⟩, ⟨nonce, signature, proof, time, result⟩, rfl, -, -, -,
      hresult, -⟩ := h
    obtain ⟨result, rfl⟩ := Int.eq_ofNat_of_zero_le hresult
    exact ⟨⟨id, timestamp, capabilities, .broadcastTransactionResponse nonce proof time result⟩,
      signature, rfl, rfl⟩

end NetworkV1.MessageHeader

/-! ### The router -/

section Route

variable {R : Protobuf} {message : NetworkMessage} {signature incomingMessage : Buffer}
  {type : NetworkOperationType} {object : MessageHeader}

theorem NetworkOperationType.ofCode_eq_some {code : ℤ} :
    NetworkOperationType.ofCode code = some type ↔ code = type.code := by
  constructor
  · intro h
    simpa [eq_comm] using List.find?_some h
  · rintro rfl
    cases type <;> rfl

theorem NetworkOperationType.code_injective {type' : NetworkOperationType}
    (h : (type.code : ℤ) = type'.code) : type = type' := by
  cases type <;> cases type' <;> first | rfl | cases h

theorem NetworkOperationType.code_pos (type : NetworkOperationType) : (0 : ℤ) < type.code := by
  cases type <;> decide

/-- What the router hands to a handler. -/
theorem route_eq_handled : route R incomingMessage = .handled type object ↔
    preValidate incomingMessage ∧ MessageHeader.decode R incomingMessage = some object ∧
      object.type = type.code := by
  rw [route]
  split
  case isFalse h => simp [h]
  case isTrue h =>
    cases hdecode : MessageHeader.decode R incomingMessage with
    | none => simp
    | some decoded =>
      simp only [h, true_and, Option.some.injEq]
      split
      · constructor
        · intro h
          cases h
        · rintro ⟨rfl, htype⟩
          have := type.code_pos
          omega
      · cases htype : NetworkOperationType.ofCode decoded.type with
        | none =>
          constructor
          · intro h
            cases h
          · rintro ⟨rfl, hcode⟩
            rw [NetworkOperationType.ofCode_eq_some.mpr hcode] at htype
            cases htype
        | some type' =>
          have hcode := NetworkOperationType.ofCode_eq_some.mp htype
          constructor
          · intro h
            cases h
            exact ⟨rfl, hcode⟩
          · rintro ⟨rfl, hcode'⟩
            rw [NetworkOperationType.ofCode_eq_some.mpr hcode'] at htype
            cases htype
            rfl

/-! ### The size of a message -/

theorem length_varint_le (fuel n : ℕ) : (varint fuel n).length ≤ fuel :=
  Wire.Leb128.length_encode_le fuel n

theorem length_encodeBytes_le (number : ℕ) (b : Buffer) :
    (encodeBytes number b).length ≤ 10 + b.length := by
  have hheader := length_varint_le 5 (8 * number + 2)
  have hlength := length_varint_le 5 b.length
  simp only [encodeBytes, List.length_append]
  omega

theorem length_encodeInt32_le (number n : ℕ) : (encodeInt32 number n).length ≤ 10 := by
  have hheader := length_varint_le 5 (8 * number)
  have hn := length_varint_le 5 n
  simp only [encodeInt32, List.length_append]
  omega

theorem length_encodeUint64_le (number n : ℕ) : (encodeUint64 number n).length ≤ 15 := by
  have hheader := length_varint_le 5 (8 * number)
  have hn := length_varint_le 10 n
  simp only [encodeUint64, List.length_append]
  omega

/-- A character has at most three bytes for each of its code units. -/
theorem length_fromUtf8_le (s : Str) : (fromUtf8 s).length ≤ 3 * (utf16 s).length := by
  induction s with
  | nil => exact Nat.le_refl _
  | cons c s ih =>
    have hc : (String.utf8EncodeChar c).length ≤ 3 * (if c.toNat < 0x10000 then [c.toNat]
        else [0xD800 + (c.toNat - 0x10000) / 0x400,
          0xDC00 + (c.toNat - 0x10000) % 0x400]).length := by
      rw [String.length_utf8EncodeChar]
      split
      next hlt =>
        have hle : c.val ≤ 0xFFFF := by
          rw [UInt32.le_iff_toNat_le]
          exact Nat.le_of_lt_succ hlt
        simp only [Char.utf8Size]
        split
        · exact Nat.le_of_ble_eq_true rfl
        · split
          · exact Nat.le_of_ble_eq_true rfl
          · exact (if_pos hle).trans_le (Nat.le_refl 3)
      next => exact c.utf8Size_le_four.trans (Nat.le_of_ble_eq_true rfl)
    rw [fromUtf8, utf16, List.flatMap_cons, List.flatMap_cons, List.length_append,
      List.length_append, Nat.mul_add]
    exact Nat.add_le_add hc ih

theorem length_payload_le {payload : NetworkPayload}
    (hnonce : validateBuffer nonceByteLength payload.nonce)
    (hsignature : validateBuffer signatureByteLength signature) (hdata : payload.DataSized)
    (hproof : payload.ProofSized) :
    (payload.encode signature).length ≤ 3256 := by
  have hn := length_of_validateBuffer hnonce
  have hs := length_of_validateBuffer hsignature
  rw [nonceByteLength] at hn
  rw [signatureByteLength] at hs
  cases payload with
  | livenessRequest nonce =>
    have h := length_encodeBytes_le 4 (encodeBytes 1 nonce ++ encodeBytes 2 signature)
    have h₁ := length_encodeBytes_le 1 nonce
    have h₂ := length_encodeBytes_le 2 signature
    rw [List.length_append] at h
    rw [NetworkPayload.nonce] at hn
    rw [NetworkPayload.encode]
    omega
  | livenessResponse nonce result =>
    have h := length_encodeBytes_le 5
      (encodeBytes 1 nonce ++ (encodeBytes 2 signature ++ encodeInt32 3 result))
    have h₁ := length_encodeBytes_le 1 nonce
    have h₂ := length_encodeBytes_le 2 signature
    have h₃ := length_encodeInt32_le 3 result
    simp only [List.length_append] at h
    rw [NetworkPayload.nonce] at hn
    rw [NetworkPayload.encode]
    omega
  | broadcastTransactionRequest data nonce =>
    have h := length_encodeBytes_le 6
      (encodeBytes 1 data ++ (encodeBytes 2 nonce ++ encodeBytes 3 signature))
    have h₁ := length_encodeBytes_le 1 data
    have h₂ := length_encodeBytes_le 2 nonce
    have h₃ := length_encodeBytes_le 3 signature
    have hd := hdata.2
    simp only [List.length_append] at h
    rw [NetworkPayload.nonce] at hn
    rw [maxPartialTxPayloadByteSize] at hd
    rw [NetworkPayload.encode]
    omega
  | broadcastTransactionResponse nonce proof timestamp result =>
    have h := length_encodeBytes_le 7
      (encodeBytes 1 nonce ++ (encodeBytes 2 signature ++ (encodeBytes 3 proof ++
        (encodeUint64 4 timestamp ++ encodeInt32 5 result))))
    have h₁ := length_encodeBytes_le 1 nonce
    have h₂ := length_encodeBytes_le 2 signature
    have h₃ := length_encodeBytes_le 3 proof
    have h₄ := length_encodeUint64_le 4 timestamp
    have h₅ := length_encodeInt32_le 5 result
    have hp : proof.length ≤ 3072 := hproof
    simp only [List.length_append] at h
    rw [NetworkPayload.nonce] at hn
    rw [NetworkPayload.encode]
    omega

theorem length_encode_pos (message : NetworkMessage) (signature : Buffer) :
    0 < (message.encode signature).length := by
  have h := List.length_pos_of_ne_nil (varint_ne_nil (8 * 1))
  simp only [NetworkMessage.encode, encodeInt32, List.length_append]
  omega

/-- A message that a schema accepts fits in the format. -/
theorem encodable_of_isSchemaValid (h : message.isSchemaValid signature)
    (hlen : (message.encode signature).length < 2 ^ 31) : message.Encodable signature := by
  obtain ⟨id, timestamp, capabilities, payload⟩ := message
  cases payload with
  | livenessRequest nonce =>
    simp only [NetworkMessage.isSchemaValid, validateV1LivenessRequest, validateHeader,
      decide_eq_true_eq] at h
    exact ⟨h.1.2.2.2, trivial, hlen⟩
  | livenessResponse nonce result =>
    simp only [NetworkMessage.isSchemaValid, validateV1LivenessResponse, validateHeader,
      decide_eq_true_eq] at h
    exact ⟨h.1.2.2.2, h.2.2.2, hlen⟩
  | broadcastTransactionRequest data nonce =>
    simp only [NetworkMessage.isSchemaValid, validateV1BroadcastTransactionRequest, validateHeader,
      decide_eq_true_eq] at h
    exact ⟨h.1.2.2.2, trivial, hlen⟩
  | broadcastTransactionResponse nonce proof timestamp result =>
    simp only [NetworkMessage.isSchemaValid, validateV1BroadcastTransactionResponse,
      validateHeader, decide_eq_true_eq] at h
    exact ⟨h.1.2.2.2, h.2.2.2, hlen⟩

/-- With the capabilities of a node, a message that has its sizes is not too long for the router. -/
theorem length_encode_le (h : message.Sized signature) (hproof : message.payload.ProofSized)
    (hcapabilities : message.capabilities = networkCapabilities) :
    (message.encode signature).length ≤ v1ProtocolPayloadMaxSize := by
  have hcode := length_encodeInt32_le 1 message.payload.type.code
  have hid := length_encodeBytes_le 2 (fromUtf8 message.id)
  have hutf8 := length_fromUtf8_le message.id
  have hutf16 := h.id
  have htimestamp := length_encodeUint64_le 3 message.timestamp
  have hpayload := length_payload_le h.nonce h.signature h.data hproof
  have hown : (networkCapabilities.flatMap fun c => encodeBytes 8 (fromUtf8 c)).length = 21 := by
    decide
  rw [NetworkMessage.encode, hcapabilities, v1ProtocolPayloadMaxSize]
  simp only [List.length_append]
  omega

theorem route_encodeAmong (hR : R.Lawful) (h : message.Encodable signature)
    {before after : List LaterField} (hbefore : ∀ x ∈ before, x.Valid)
    (hafter : ∀ x ∈ after, x.Valid)
    (hlen : (message.encodeAmong signature before after).length ≤ v1ProtocolPayloadMaxSize) :
    route R (message.encodeAmong signature before after) =
      .handled message.payload.type (.of message signature) := by
  have hpos := length_encode_pos message signature
  have hle := message.length_le_encodeAmong signature before after
  have hpre : preValidate (message.encodeAmong signature before after) := by
    rw [preValidate, decide_eq_true_eq]
    exact ⟨Nat.ne_of_gt (hpos.trans_le hle), hlen⟩
  exact route_eq_handled.mpr ⟨hpre, MessageHeader.decode_encode hR h hbefore hafter,
    MessageHeader.type_of message signature⟩

end Route

/-- The bytes that a node sends of a message that it has built, among any fields of later versions:
the router of its peer hands the message to the handler of its type, unless the bytes are too many.
The schema there accepts it exactly if its parts have their sizes. With the capabilities of a node
and no longer a proof than data may be, the bytes of the message are not too many. -/
theorem route_built {R : Protobuf} (hR : R.Lawful) {env : Env} {wallet : Wallet}
    {message : NetworkMessage} {signature : Buffer} (h : Built env wallet message signature)
    {before after : List LaterField} (hbefore : ∀ x ∈ before, x.Valid)
    (hafter : ∀ x ∈ after, x.Valid) :
    (route R (message.encodeAmong signature before after) =
      if (message.encodeAmong signature before after).length ≤ v1ProtocolPayloadMaxSize then
        .handled message.payload.type (.of message signature)
      else .disconnected false) ∧
    ((MessageHeader.of message signature).isPayloadSchemaValid message.payload.type ↔
      message.Sized signature) ∧
    (message.Sized signature → message.payload.ProofSized →
      message.capabilities = networkCapabilities →
        (message.encode signature).length ≤ v1ProtocolPayloadMaxSize) := by
  refine ⟨?_, ?_, length_encode_le⟩
  · split
    case isTrue hlen =>
      obtain ⟨parts, hparts, -⟩ := h.facts.signed
      have hle := message.length_le_encodeAmong signature before after
      have hm : message.Encodable signature := by
        refine ⟨timestamp_le_of_parts hparts, h.facts.result, ?_⟩
        rw [v1ProtocolPayloadMaxSize] at hlen
        omega
      exact route_encodeAmong hR hm hbefore hafter hlen
    case isFalse hlen =>
      rw [route, if_neg]
      rw [preValidate, decide_eq_true_eq]
      exact fun h => hlen h.2
  · rw [MessageHeader.isPayloadSchemaValid_of, h.isSchemaValid_iff]

/-- Whatever bytes a peer sends: a schema accepts what the router hands to a handler exactly if it is
a message with its signature that the schema of messages accepts. There is no other such message,
and the router reads its own bytes in the same way. -/
theorem route_accepted {R : Protobuf} (hR : R.Lawful) {incomingMessage : Buffer}
    {type : NetworkOperationType} {object : MessageHeader}
    (h : route R incomingMessage = .handled type object) :
    (object.isPayloadSchemaValid type ↔ ∃ message signature,
      object = .of message signature ∧ message.payload.type = type ∧
        message.isSchemaValid signature) ∧
    ∀ message signature, object = .of message signature → message.isSchemaValid signature →
      (∀ message' signature', object = .of message' signature' →
        message' = message ∧ signature' = signature) ∧
      ((message.encode signature).length ≤ v1ProtocolPayloadMaxSize →
        route R (message.encode signature) = .handled type object) := by
  obtain ⟨-, -, htype⟩ := route_eq_handled.mp h
  constructor
  · constructor
    · intro hvalid
      obtain ⟨message, signature, rfl, rfl⟩ := MessageHeader.exists_of hvalid
      rw [MessageHeader.isPayloadSchemaValid_of] at hvalid
      exact ⟨message, signature, rfl, rfl, hvalid⟩
    · rintro ⟨message, signature, rfl, rfl, hvalid⟩
      rwa [MessageHeader.isPayloadSchemaValid_of]
  · rintro message signature rfl hvalid
    refine ⟨fun message' signature' h => ?_, fun hlen => ?_⟩
    · obtain ⟨rfl, rfl⟩ := MessageHeader.of_injective h
      exact ⟨rfl, rfl⟩
    · have hm : message.Encodable signature := by
        refine encodable_of_isSchemaValid hvalid ?_
        rw [v1ProtocolPayloadMaxSize] at hlen
        omega
      rw [MessageHeader.type_of] at htype
      obtain rfl := NetworkOperationType.code_injective htype
      rw [← message.encodeAmong_nil] at hlen ⊢
      exact route_encodeAmong hR hm (fun _ hx => absurd hx List.not_mem_nil)
        (fun _ hx => absurd hx List.not_mem_nil) hlen

namespace Sample

/-- A field that a later version may add. -/
def priority : LaterField := { number := 9, property := .varint 1 }

theorem transport_facts :
    (payRequest.encodeAmong (aliceNode.sign requestHash) [] [priority]).length ≤
      v1ProtocolPayloadMaxSize ∧
    (utf16 payRequest.id).length ≤ 64 ∧
    validateBuffer nonceByteLength requestNonce ∧
    validateBuffer signatureByteLength (aliceNode.sign requestHash) ∧
    1 ≤ (encodeOperation payAdminPartial).length ∧
    (encodeOperation payAdminPartial).length ≤ maxPartialTxPayloadByteSize := by
  decide +kernel

theorem valid_priority : ∀ x ∈ [priority], x.Valid := by
  intro x hx
  obtain rfl := List.mem_singleton.mp hx
  exact ⟨.inr (by decide), by decide, Nat.lt_of_lt_of_le Nat.one_lt_two (by decide)⟩

theorem sized_payRequest : payRequest.Sized (aliceNode.sign requestHash) := by
  obtain ⟨-, hid, hnonce, hsignature, hmin, hmax⟩ := transport_facts
  exact ⟨hid, hnonce, hsignature, hmin, hmax⟩

theorem route_built_payRequest :
    route .minimal (payRequest.encodeAmong (aliceNode.sign requestHash) [] [priority]) =
      .handled .broadcastTransactionRequest (.of payRequest (aliceNode.sign requestHash)) ∧
    (MessageHeader.of payRequest (aliceNode.sign requestHash)).isPayloadSchemaValid
      .broadcastTransactionRequest ∧
    (payRequest.encode (aliceNode.sign requestHash)).length ≤ v1ProtocolPayloadMaxSize := by
  obtain ⟨-, -, hbuilt, -⟩ := built_facts
  obtain ⟨hroute, hvalid, hlen⟩ := route_built Protobuf.minimal_lawful
    (.broadcastTransactionRequest _ _ _ _ _ hbuilt) (fun _ hx => absurd hx List.not_mem_nil)
    valid_priority
  rw [if_pos transport_facts.1] at hroute
  exact ⟨hroute, hvalid.mpr sized_payRequest, hlen sized_payRequest trivial rfl⟩

theorem route_accepted_payRequest :
    (MessageHeader.of payRequest (aliceNode.sign requestHash)).isPayloadSchemaValid
      .broadcastTransactionRequest ∧
    route .minimal (payRequest.encode (aliceNode.sign requestHash)) =
      .handled .broadcastTransactionRequest (.of payRequest (aliceNode.sign requestHash)) := by
  obtain ⟨-, -, hbuilt, -⟩ := built_facts
  have hbuilt : Built messaging aliceNode payRequest (aliceNode.sign requestHash) :=
    .broadcastTransactionRequest _ _ _ _ _ hbuilt
  have hvalid := hbuilt.isSchemaValid_iff.mpr sized_payRequest
  have hlen := length_encode_le sized_payRequest trivial rfl
  have hm := encodable_of_isSchemaValid hvalid (hlen.trans_lt (by decide))
  obtain ⟨hiff, hagain⟩ := route_accepted Protobuf.minimal_lawful
    (route_encodeAmong Protobuf.minimal_lawful hm (fun _ hx => absurd hx List.not_mem_nil)
      valid_priority transport_facts.1)
  exact ⟨hiff.mpr ⟨_, _, rfl, rfl, hvalid⟩, (hagain _ _ rfl hvalid).2 hlen⟩

end Sample

end SettlementBus
