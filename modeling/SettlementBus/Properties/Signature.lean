import SettlementBus.Lib.Framing
import SettlementBus.Messages.Schema

/-! What the bytes that a sender signs say of its message. -/

namespace SettlementBus

open Lib

variable {m m' : NetworkMessage} {parts parts' : List MessagePart} {capabilities capabilities' : List Str}
  {capsBuf capsBuf' : Buffer} {s t : Str} {b b' : Buffer}

/-- The two messages differ in nothing but the order of their capabilities. -/
structure NetworkMessage.SameContent (m m' : NetworkMessage) : Prop where
  id : m.id = m'.id
  timestamp : m.timestamp = m'.timestamp
  payload : m.payload = m'.payload
  capabilities : m.capabilities.Perm m'.capabilities

/-- The field of a payload that has no fixed length: the data or the proof. -/
def NetworkPayload.content : NetworkPayload → Buffer
  | .livenessRequest _ | .livenessResponse .. => []
  | .broadcastTransactionRequest data _ => data
  | .broadcastTransactionResponse _ proof _ _ => proof

/-- The ids have the same size, and so have data or proofs. -/
def NetworkMessage.SameSizes (m m' : NetworkMessage) : Prop :=
  (fromUtf8 m.id).length = (fromUtf8 m'.id).length ∧
    m.payload.content.length = m'.payload.content.length

/-! ### Strings and capabilities -/

theorem fromUtf8_injective : Function.Injective fromUtf8 := by
  intro s t h
  have hencode : s.utf8Encode = t.utf8Encode := congrArg List.toByteArray h
  have hdecode := congrArg ByteArray.utf8Decode? hencode
  simpa using hdecode

theorem encodeCapability_eq_some (h : encodeCapability s = some b) :
    (fromUtf8 s).length < 256 ^ 2 ∧ b = Bytes.ofNat 2 (fromUtf8 s).length ++ fromUtf8 s := by
  rw [encodeCapability] at h
  split at h
  case isTrue hlen => exact ⟨Nat.lt_succ_of_le hlen, (Option.some.inj h).symm⟩
  case isFalse => cases h

/-- A capability tells where it ends. -/
theorem encodeCapability_inj {rest rest' : Buffer} (h : encodeCapability s = some b)
    (h' : encodeCapability t = some b') (heq : b ++ rest = b' ++ rest') :
    s = t ∧ rest = rest' := by
  obtain ⟨hlen, rfl⟩ := encodeCapability_eq_some h
  obtain ⟨hlen', rfl⟩ := encodeCapability_eq_some h'
  rw [List.append_assoc, List.append_assoc] at heq
  obtain ⟨hcount, heq⟩ := List.append_inj heq (by simp)
  have hsize := Bytes.ofNat_inj hlen hlen' hcount
  obtain ⟨hs, hrest⟩ := List.append_inj heq hsize
  exact ⟨fromUtf8_injective hs, hrest⟩

theorem encodeCapability_ne_nil (h : encodeCapability s = some b) (rest : Buffer) :
    b ++ rest ≠ [] := by
  obtain ⟨-, rfl⟩ := encodeCapability_eq_some h
  intro hnil
  have hlen := congrArg List.length hnil
  simp at hlen

theorem mapM_encodeCapability_inj {parts parts' : List Buffer}
    (h : capabilities.mapM encodeCapability = some parts)
    (h' : capabilities'.mapM encodeCapability = some parts')
    (heq : parts.flatten = parts'.flatten) : capabilities = capabilities' := by
  induction capabilities generalizing capabilities' parts parts' with
  | nil =>
    cases h
    cases capabilities' with
    | nil => rfl
    | cons t capabilities' =>
      simp only [List.mapM_cons, Option.bind_eq_bind, Option.bind_eq_some_iff, Option.pure_def,
        Option.some.injEq] at h'
      obtain ⟨b', hb', rest', -, rfl⟩ := h'
      exact absurd heq.symm (encodeCapability_ne_nil hb' rest'.flatten)
  | cons s capabilities ih =>
    simp only [List.mapM_cons, Option.bind_eq_bind, Option.bind_eq_some_iff, Option.pure_def,
      Option.some.injEq] at h
    obtain ⟨b, hb, rest, hrest, rfl⟩ := h
    cases capabilities' with
    | nil =>
      cases h'
      exact absurd heq (encodeCapability_ne_nil hb rest.flatten)
    | cons t capabilities' =>
      simp only [List.mapM_cons, Option.bind_eq_bind, Option.bind_eq_some_iff, Option.pure_def,
        Option.some.injEq] at h'
      obtain ⟨b', hb', rest', hrest', rfl⟩ := h'
      obtain ⟨rfl, hflatten⟩ := encodeCapability_inj hb hb' heq
      rw [ih hrest hrest' hflatten]

theorem encodeCapabilities_inj (h : encodeCapabilities capabilities = some capsBuf)
    (h' : encodeCapabilities capabilities' = some capsBuf) : capabilities.Perm capabilities' := by
  simp only [encodeCapabilities, Option.bind_eq_bind, Option.bind_eq_some_iff, Option.pure_def,
    Option.some.injEq] at h h'
  obtain ⟨parts, hparts, rfl⟩ := h
  obtain ⟨parts', hparts', hflatten⟩ := h'
  have hsorted := mapM_encodeCapability_inj hparts hparts' hflatten.symm
  exact ((List.mergeSort_perm capabilities _).symm.trans (.of_eq hsorted)).trans
    (List.mergeSort_perm capabilities' _)

/-! ### The blocks of a preimage -/

def NetworkPayload.blocks : NetworkPayload → List Buffer
  | .livenessRequest nonce => [nonce]
  | .livenessResponse nonce result => [nonce, safeWriteUInt32BE result]
  | .broadcastTransactionRequest data nonce => [data, nonce]
  | .broadcastTransactionResponse nonce proof timestamp result =>
    [nonce, proof, Bytes.ofNat 8 timestamp, safeWriteUInt32BE result]

/-- The signed bytes, block by block. -/
def NetworkMessage.blocks (m : NetworkMessage) (capsBuf : Buffer) : List Buffer :=
  [Bytes.ofNat 4 m.payload.type.code, fromUtf8 m.id, Bytes.ofNat 8 m.timestamp] ++
    m.payload.blocks ++ [capsBuf]

theorem timestampToBuffer_eq_some {timestamp : ℕ} (h : timestampToBuffer timestamp = some b) :
    timestamp < 256 ^ 8 ∧ b = Bytes.ofNat 8 timestamp := by
  rw [timestampToBuffer] at h
  split at h
  case isTrue hle => exact ⟨Nat.lt_of_le_of_lt hle (by decide), (Option.some.inj h).symm⟩
  case isFalse => cases h

theorem NetworkMessage.createMessage_parts (h : m.parts = some parts) :
    m.timestamp < 256 ^ 8 ∧ ∃ capsBuf, encodeCapabilities m.capabilities = some capsBuf ∧
      createMessage parts = (m.blocks capsBuf).flatten := by
  have hcode : (MessagePart.number m.payload.type.code).toBuffer? =
      some (Bytes.ofNat 4 m.payload.type.code) := by
    cases m.payload.type <;> rfl
  simp only [NetworkMessage.parts, Option.bind_eq_bind, Option.bind_eq_some_iff] at h
  obtain ⟨tsBuf, hts, capsBuf, hcaps, h⟩ := h
  obtain ⟨hlt, rfl⟩ := timestampToBuffer_eq_some hts
  refine ⟨hlt, capsBuf, hcaps, ?_⟩
  rw [createMessage, blocks]
  cases hp : m.payload with
  | broadcastTransactionResponse nonce proof timestamp result =>
    rw [hp] at h hcode
    simp only [Option.bind_eq_some_iff, Option.pure_def, Option.some.injEq] at h
    obtain ⟨-, -, ledgerBuf, hledger, rfl⟩ := h
    obtain ⟨-, rfl⟩ := timestampToBuffer_eq_some hledger
    rw [List.filterMap_cons_some hcode]
    rfl
  | _ =>
    rw [hp] at h hcode
    simp only [Option.pure_def, Option.some.injEq] at h
    subst h
    rw [List.filterMap_cons_some hcode]
    rfl

/-- The sizes of the blocks of a payload, with `n` bytes of data or proof. -/
def NetworkOperationType.blockSizes (n : ℕ) : NetworkOperationType → List ℕ
  | .livenessRequest => [nonceByteLength]
  | .livenessResponse => [nonceByteLength, 4]
  | .broadcastTransactionRequest => [n, nonceByteLength]
  | .broadcastTransactionResponse => [nonceByteLength, n, 8, 4]

theorem length_of_validateBuffer {n : ℕ} (h : validateBuffer n b) : b.length = n := by
  rw [validateBuffer, decide_eq_true_eq] at h
  exact h.1

theorem length_safeWriteUInt32BE {n : ℕ} : (safeWriteUInt32BE n).length = 4 := by
  rw [safeWriteUInt32BE]
  split <;> simp

/-- The results that the schemas allow fit four bytes. -/
theorem result_inj {n n' : ℕ} (h : n ∈ allowedResultCodes) (h' : n' ∈ allowedResultCodes)
    (heq : safeWriteUInt32BE n = safeWriteUInt32BE n') : n = n' := by
  rw [allowedResultCodes, List.mem_range] at h h'
  rw [safeWriteUInt32BE, safeWriteUInt32BE, if_pos (by omega), if_pos (by omega)] at heq
  exact Bytes.ofNat_inj (by omega) (by omega) heq

theorem NetworkMessage.payload_sizes (h : m.isSchemaValid b) :
    m.payload.blocks.map List.length =
      m.payload.type.blockSizes m.payload.content.length := by
  rw [isSchemaValid] at h
  cases hp : m.payload with
  | livenessRequest nonce =>
    simp only [hp, validateV1LivenessRequest, decide_eq_true_eq] at h
    obtain ⟨-, hnonce, -⟩ := h
    simp [NetworkPayload.blocks, NetworkPayload.type, NetworkOperationType.blockSizes,
      length_of_validateBuffer hnonce]
  | livenessResponse nonce result =>
    simp only [hp, validateV1LivenessResponse, decide_eq_true_eq] at h
    obtain ⟨-, hnonce, -⟩ := h
    simp [NetworkPayload.blocks, NetworkPayload.type, NetworkOperationType.blockSizes,
      length_of_validateBuffer hnonce, length_safeWriteUInt32BE]
  | broadcastTransactionRequest data nonce =>
    simp only [hp, validateV1BroadcastTransactionRequest, decide_eq_true_eq] at h
    obtain ⟨-, -, -, hnonce, -⟩ := h
    simp [NetworkPayload.blocks, NetworkPayload.type, NetworkOperationType.blockSizes,
      NetworkPayload.content, length_of_validateBuffer hnonce]
  | broadcastTransactionResponse nonce proof timestamp result =>
    simp only [hp, validateV1BroadcastTransactionResponse, decide_eq_true_eq] at h
    obtain ⟨-, hnonce, -⟩ := h
    simp [NetworkPayload.blocks, NetworkPayload.type, NetworkOperationType.blockSizes,
      NetworkPayload.content, length_of_validateBuffer hnonce, length_safeWriteUInt32BE]

theorem NetworkMessage.payload_inj (h : m.isSchemaValid b) (h' : m'.isSchemaValid b')
    (htype : m.payload.type = m'.payload.type) (heq : m.payload.blocks = m'.payload.blocks) :
    m.payload = m'.payload := by
  rw [isSchemaValid] at h h'
  cases hp : m.payload with
  | livenessRequest nonce =>
    cases hp' : m'.payload with
    | livenessRequest nonce' =>
      simp only [hp, hp', NetworkPayload.blocks, List.cons.injEq, and_true] at heq
      rw [heq]
    | _ => simp [hp, hp', NetworkPayload.type] at htype
  | livenessResponse nonce result =>
    cases hp' : m'.payload with
    | livenessResponse nonce' result' =>
      simp only [hp, validateV1LivenessResponse, decide_eq_true_eq] at h
      simp only [hp', validateV1LivenessResponse, decide_eq_true_eq] at h'
      simp only [hp, hp', NetworkPayload.blocks, List.cons.injEq, and_true] at heq
      obtain ⟨-, -, -, hresult⟩ := h
      obtain ⟨-, -, -, hresult'⟩ := h'
      rw [heq.1, result_inj hresult hresult' heq.2]
    | _ => simp [hp, hp', NetworkPayload.type] at htype
  | broadcastTransactionRequest data nonce =>
    cases hp' : m'.payload with
    | broadcastTransactionRequest data' nonce' =>
      simp only [hp, hp', NetworkPayload.blocks, List.cons.injEq, and_true] at heq
      rw [heq.1, heq.2]
    | _ => simp [hp, hp', NetworkPayload.type] at htype
  | broadcastTransactionResponse nonce proof timestamp result =>
    cases hp' : m'.payload with
    | broadcastTransactionResponse nonce' proof' timestamp' result' =>
      simp only [hp, validateV1BroadcastTransactionResponse, decide_eq_true_eq] at h
      simp only [hp', validateV1BroadcastTransactionResponse, decide_eq_true_eq] at h'
      simp only [hp, hp', NetworkPayload.blocks, List.cons.injEq, and_true] at heq
      obtain ⟨-, -, -, hts, hresult⟩ := h
      obtain ⟨-, -, -, hts', hresult'⟩ := h'
      obtain ⟨hnonce, hproof, htimestamp, heq⟩ := heq
      have hlt : maxSafeInteger < 256 ^ 8 := by decide
      rw [hnonce, hproof, result_inj hresult hresult' heq,
        Bytes.ofNat_inj (hts.trans_lt hlt) (hts'.trans_lt hlt) htimestamp]
    | _ => simp [hp, hp', NetworkPayload.type] at htype

theorem NetworkOperationType.code_inj {t t' : NetworkOperationType}
    (h : Bytes.ofNat 4 t.code = Bytes.ofNat 4 t'.code) : t = t' := by
  cases t <;> cases t' <;> first | rfl | exact absurd h (by decide)

section

variable (h : m.isSchemaValid b) (h' : m'.isSchemaValid b') (hparts : m.parts = some parts)
  (hparts' : m'.parts = some parts') (heq : createMessage parts = createMessage parts')

include hparts hparts' heq

/-- Equal preimages are of one type. -/
theorem type_of_preimage : m.payload.type = m'.payload.type := by
  obtain ⟨-, capsBuf, -, hblocks⟩ := m.createMessage_parts hparts
  obtain ⟨-, capsBuf', -, hblocks'⟩ := m'.createMessage_parts hparts'
  rw [hblocks, hblocks'] at heq
  exact NetworkOperationType.code_inj (List.append_inj_left heq (by simp))

include h h'

theorem sameContent_of_preimage (hsizes : m.SameSizes m') : m.SameContent m' := by
  have htype := type_of_preimage hparts hparts' heq
  obtain ⟨hts, capsBuf, hcaps, hblocks⟩ := m.createMessage_parts hparts
  obtain ⟨hts', capsBuf', hcaps', hblocks'⟩ := m'.createMessage_parts hparts'
  rw [hblocks, hblocks'] at heq
  -- The capabilities come last, so they have one size too.
  have hpayload : m.payload.blocks.map List.length = m'.payload.blocks.map List.length := by
    rw [m.payload_sizes h, m'.payload_sizes h', htype, hsizes.2]
  have hlast : capsBuf.length = capsBuf'.length := by
    have hlen := congrArg List.length heq
    simp only [NetworkMessage.blocks, List.length_flatten, List.map_append, List.sum_append,
      hpayload, List.map_cons, List.map_nil, List.sum_cons, List.sum_nil, Bytes.length_ofNat,
      hsizes.1] at hlen
    omega
  have hall : m.blocks capsBuf = m'.blocks capsBuf' :=
    List.eq_iff_flatten_eq.mpr ⟨heq, by simp [NetworkMessage.blocks, hpayload, hlast, hsizes.1]⟩
  rw [NetworkMessage.blocks, NetworkMessage.blocks] at hall
  obtain ⟨hfront, hcapsBuf⟩ := List.append_inj' hall rfl
  obtain ⟨hheader, hpayloadBlocks⟩ := List.append_inj hfront rfl
  simp only [List.cons.injEq, and_true] at hheader hcapsBuf
  subst hcapsBuf
  exact ⟨fromUtf8_injective hheader.2.1, Bytes.ofNat_inj hts hts' hheader.2.2,
    NetworkMessage.payload_inj h h' htype hpayloadBlocks, encodeCapabilities_inj hcaps hcaps'⟩

end

/-- Messages that pass their schemas and are signed over the same bytes have the same type, and they
have the same content if and only if their ids have the same size and their data or proofs too. -/
theorem preimage_determines_content (h : m.isSchemaValid b) (h' : m'.isSchemaValid b')
    (hparts : m.parts = some parts) (hparts' : m'.parts = some parts')
    (heq : createMessage parts = createMessage parts') :
    m.payload.type = m'.payload.type ∧ (m.SameContent m' ↔ m.SameSizes m') := by
  refine ⟨type_of_preimage hparts hparts' heq, fun hcontent => ?_,
    sameContent_of_preimage h h' hparts hparts' heq⟩
  exact ⟨by rw [hcontent.id], by rw [hcontent.payload]⟩

namespace Sample

def signedNonce : Buffer := List.replicate 32 1

def signedData : Buffer := List.replicate 40 2

def signedBytes : Buffer := List.replicate 64 3

def capabilityA : Str := "cap:a".toList

def capabilityB : Str := "cap:b".toList

def signedRequest : NetworkMessage where
  id := "0198c1a4".toList
  timestamp := 1700000000000
  capabilities := [capabilityA, capabilityB]
  payload := .broadcastTransactionRequest signedData signedNonce

/-- The data ends with the first bytes of the nonce, and the nonce with the first capability. -/
def shiftedRequest : NetworkMessage where
  id := signedRequest.id
  timestamp := signedRequest.timestamp
  capabilities := [capabilityB]
  payload := .broadcastTransactionRequest (signedData ++ signedNonce.take 7)
    (signedNonce.drop 7 ++ (encodeCapability capabilityA).getD [])

/-- The parts of a broadcast request with the id and timestamp of `signedRequest`. -/
def requestParts (data nonce : Buffer) (capabilities : List Str) : List MessagePart :=
  [.number 3, .buffer (fromUtf8 signedRequest.id), .buffer (Bytes.ofNat 8 signedRequest.timestamp),
    .buffer data, .buffer nonce,
    .buffer (capabilities.flatMap fun capability => (encodeCapability capability).getD [])]

theorem encodeCapabilities_signed : encodeCapabilities [capabilityA, capabilityB] =
    some ([capabilityA, capabilityB].flatMap fun capability =>
      (encodeCapability capability).getD []) := by
  have hsorted : ([capabilityA, capabilityB].mergeSort fun a b => utf16 a ≤ utf16 b) =
      [capabilityA, capabilityB] := List.mergeSort_of_pairwise (by decide +kernel)
  rw [encodeCapabilities, hsorted]
  rfl

theorem timestampToBuffer_signed : timestampToBuffer signedRequest.timestamp =
    some (Bytes.ofNat 8 signedRequest.timestamp) := if_pos (by decide)

theorem signedRequest_parts : signedRequest.parts =
    some (requestParts signedData signedNonce [capabilityA, capabilityB]) := by
  rw [NetworkMessage.parts, timestampToBuffer_signed]
  dsimp only [signedRequest]
  rw [encodeCapabilities_signed]
  rfl

theorem shiftedRequest_parts : shiftedRequest.parts =
    some (requestParts (signedData ++ signedNonce.take 7)
      (signedNonce.drop 7 ++ (encodeCapability capabilityA).getD []) [capabilityB]) := by
  have hcaps : encodeCapabilities [capabilityB] =
      some ([capabilityB].flatMap fun capability => (encodeCapability capability).getD []) := by
    rw [encodeCapabilities, List.mergeSort_singleton]
    rfl
  rw [NetworkMessage.parts, show shiftedRequest.timestamp = signedRequest.timestamp from rfl,
    timestampToBuffer_signed]
  dsimp only [shiftedRequest]
  rw [hcaps]
  rfl

theorem preimage_determines_content_shifted :
    signedRequest.payload.type = shiftedRequest.payload.type ∧
      (signedRequest.SameContent shiftedRequest ↔ signedRequest.SameSizes shiftedRequest) :=
  @preimage_determines_content _ _ _ _ signedBytes signedBytes (by decide +kernel)
    (by decide +kernel) signedRequest_parts shiftedRequest_parts (by decide +kernel)

/-- The two requests are signed over the same bytes, but they broadcast different data. -/
theorem not_sameContent_shifted :
    signedRequest.isSchemaValid signedBytes ∧ shiftedRequest.isSchemaValid signedBytes ∧
      (signedRequest.parts.map createMessage).isSome ∧
      signedRequest.parts.map createMessage = shiftedRequest.parts.map createMessage ∧
      ¬signedRequest.SameContent shiftedRequest := by
  refine ⟨by decide +kernel, by decide +kernel, by rw [signedRequest_parts]; rfl, ?_, fun h => ?_⟩
  · rw [signedRequest_parts, shiftedRequest_parts]
    decide +kernel
  · exact absurd (congrArg (fun p => p.content.length) h.payload) (by decide)

end Sample

end SettlementBus
