import SettlementBus.Network.BroadcastRequest
import SettlementBus.Network.Liveness
import SettlementBus.Properties.Builder
import SettlementBus.Properties.BroadcastResponse

/-! What a node builds passes the checks of its peer. -/

namespace SettlementBus

open Lib

section

variable {env : Env} {wallet : Wallet} {message : NetworkMessage} {signature : Buffer}

/-- A message that a director returns, with its signature. -/
inductive Built (env : Env) (wallet : Wallet) (message : NetworkMessage) (signature : Buffer) : Prop
  | livenessRequest (now : ℕ) (nonce : Buffer) (id : Str) (capabilities : List Str)
    (h : NetworkMessageDirector.buildLivenessRequest env wallet now nonce id capabilities =
      some (message, signature))
  | livenessResponse (now : ℕ) (nonce : Buffer) (id : Str) (capabilities : List Str)
    (statusCode : ℕ)
    (h : NetworkMessageDirector.buildLivenessResponse env wallet now nonce id capabilities
      statusCode = some (message, signature))
  | broadcastTransactionRequest (now : ℕ) (nonce : Buffer) (id : Str) (capabilities : List Str)
    (data : Option Buffer)
    (h : NetworkMessageDirector.buildBroadcastTransactionRequest env wallet now nonce id
      capabilities data = some (message, signature))
  | broadcastTransactionResponse (now : ℕ) (nonce : Buffer) (id : Str) (capabilities : List Str)
    (resultCode : ℕ) (proof : Option Buffer) (timestamp : ℕ)
    (h : NetworkMessageDirector.buildBroadcastTransactionResponse env wallet now nonce id
      capabilities resultCode proof timestamp = some (message, signature))

def NetworkPayload.nonce : NetworkPayload → Buffer
  | .livenessRequest nonce | .livenessResponse nonce _ | .broadcastTransactionRequest _ nonce
  | .broadcastTransactionResponse nonce _ _ _ => nonce

def NetworkPayload.DataSized : NetworkPayload → Prop
  | .broadcastTransactionRequest data _ =>
    1 ≤ data.length ∧ data.length ≤ maxPartialTxPayloadByteSize
  | _ => True

/-- The sizes that the schemas ask for. Directors do not look at them. -/
structure NetworkMessage.Sized (message : NetworkMessage) (signature : Buffer) : Prop where
  id : (utf16 message.id).length ≤ 64
  nonce : validateBuffer nonceByteLength message.payload.nonce
  signature : validateBuffer signatureByteLength signature
  data : message.payload.DataSized

def NetworkPayload.ResultAllowed : NetworkPayload → Prop
  | .livenessResponse _ result => result ∈ allowedResultCodes
  | .broadcastTransactionResponse _ _ timestamp result =>
    timestamp ≤ maxSafeInteger ∧ result ∈ allowedResultCodes
  | _ => True

/-- What the director has checked and signed. -/
structure Built.Facts (env : Env) (wallet : Wallet) (message : NetworkMessage)
    (signature : Buffer) : Prop where
  id : message.id ≠ []
  timestamp : message.timestamp ≠ 0
  signed : ∃ parts, message.parts = some parts ∧
    wallet.sign (env.crypto.blake3Safe (createMessage parts)) = signature
  result : message.payload.ResultAllowed

theorem Built.facts (h : Built env wallet message signature) :
    Built.Facts env wallet message signature := by
  cases h with
  | livenessRequest now nonce id capabilities h =>
    obtain ⟨-, ⟨hid, hnow⟩, rfl, hsigned⟩ := NetworkMessageDirector.buildPayload_eq_some.mp h
    exact ⟨hid, hnow, hsigned, trivial⟩
  | livenessResponse now nonce id capabilities statusCode h =>
    obtain ⟨hallowed, h⟩ := NetworkMessageDirector.buildLivenessResponse_eq_some.mp h
    obtain ⟨-, ⟨hid, hnow⟩, rfl, hsigned⟩ := NetworkMessageDirector.buildPayload_eq_some.mp h
    exact ⟨hid, hnow, hsigned, hallowed⟩
  | broadcastTransactionRequest now nonce id capabilities data h =>
    obtain ⟨-, ⟨hid, hnow⟩, rfl, hsigned⟩ := NetworkMessageDirector.buildPayload_eq_some.mp h
    exact ⟨hid, hnow, hsigned, trivial⟩
  | broadcastTransactionResponse now nonce id capabilities resultCode proof timestamp h =>
    obtain ⟨htimestamp, hallowed, h⟩ :=
      NetworkMessageDirector.buildBroadcastTransactionResponse_eq_some.mp h
    obtain ⟨-, ⟨hid, hnow⟩, rfl, hsigned⟩ := NetworkMessageDirector.buildPayload_eq_some.mp h
    exact ⟨hid, hnow, hsigned, htimestamp, hallowed⟩

theorem length_utf16_pos {s : Str} (h : s ≠ []) : 1 ≤ (utf16 s).length := by
  cases s with
  | nil => exact absurd rfl h
  | cons c s =>
    rw [utf16, List.flatMap_cons, List.length_append]
    refine Nat.le_add_right_of_le ?_
    split <;> simp

theorem timestamp_le_of_parts {parts : List MessagePart} (h : message.parts = some parts) :
    message.timestamp ≤ maxSafeInteger := by
  simp only [NetworkMessage.parts, Option.bind_eq_bind, Option.bind_eq_some_iff] at h
  obtain ⟨tsBuf, hts, -⟩ := h
  unfold timestampToBuffer at hts
  split at hts
  case isTrue hle => exact hle
  case isFalse => cases hts

theorem validateHeader_iff (h : Built.Facts env wallet message signature) :
    validateHeader message ↔ (utf16 message.id).length ≤ 64 := by
  obtain ⟨parts, hparts, -⟩ := h.signed
  have hle := timestamp_le_of_parts hparts
  have hpos := length_utf16_pos h.id
  have hone := Nat.one_le_iff_ne_zero.mpr h.timestamp
  simp [validateHeader, hle, hpos, hone]

/-- A message that a director returns has the schema of its type exactly if its parts have their
sizes. -/
theorem Built.isSchemaValid_iff (h : Built env wallet message signature) :
    message.isSchemaValid signature ↔ message.Sized signature := by
  have hheader := validateHeader_iff h.facts
  have hresult := h.facts.result
  obtain ⟨id, timestamp, capabilities, payload⟩ := message
  cases payload with
  | livenessRequest nonce =>
    simp only [NetworkMessage.isSchemaValid, validateV1LivenessRequest, decide_eq_true_eq, hheader]
    constructor
    · rintro ⟨hid, hnonce, hsignature⟩
      exact ⟨hid, hnonce, hsignature, trivial⟩
    · rintro ⟨hid, hnonce, hsignature, -⟩
      exact ⟨hid, hnonce, hsignature⟩
  | livenessResponse nonce result =>
    simp only [NetworkMessage.isSchemaValid, validateV1LivenessResponse, decide_eq_true_eq, hheader]
    constructor
    · rintro ⟨hid, hnonce, hsignature, -⟩
      exact ⟨hid, hnonce, hsignature, trivial⟩
    · rintro ⟨hid, hnonce, hsignature, -⟩
      exact ⟨hid, hnonce, hsignature, hresult⟩
  | broadcastTransactionRequest data nonce =>
    simp only [NetworkMessage.isSchemaValid, validateV1BroadcastTransactionRequest,
      decide_eq_true_eq, hheader]
    constructor
    · rintro ⟨hid, hmin, hmax, hnonce, hsignature⟩
      exact ⟨hid, hnonce, hsignature, hmin, hmax⟩
    · rintro ⟨hid, hnonce, hsignature, hmin, hmax⟩
      exact ⟨hid, hmin, hmax, hnonce, hsignature⟩
  | broadcastTransactionResponse nonce proof timestamp result =>
    simp only [NetworkMessage.isSchemaValid, validateV1BroadcastTransactionResponse,
      decide_eq_true_eq, hheader]
    constructor
    · rintro ⟨hid, hnonce, hsignature, -⟩
      exact ⟨hid, hnonce, hsignature, trivial⟩
    · rintro ⟨hid, hnonce, hsignature, -⟩
      exact ⟨hid, hnonce, hsignature, hresult⟩

/-- The receiver hashes what the sender has signed. -/
theorem Built.validateSignature (h : Built env wallet message signature)
    (hwallet : wallet.Correct env) :
    BroadcastTransactionResponse.validateSignature env message signature
      (env.crypto.decodeSafe wallet.address) = .ok () := by
  obtain ⟨parts, hparts, rfl⟩ := h.facts.signed
  rw [BroadcastTransactionResponse.validateSignature, hparts]
  exact BroadcastTransactionResponse.orReject_eq_ok.mpr (hwallet.verify_sign _)

end

/-! ### A request and its response -/

/-- What `registerPendingRequest` keeps of a request to the peer. -/
def NetworkMessage.pendingRequest (message : NetworkMessage) (remotePublicKey : Buffer) :
    PendingRequest where
  requestType := message.payload.type
  requestTxData := PendingRequestService.extractRequestTxData message
  requestedTo := toHex remotePublicKey

section

variable {env : Env} {a b : Wallet} {request response : NetworkMessage}
  {requestSignature responseSignature : Buffer}
  {entry : PendingRequestEntry} {api : CoreApi} {state : LocalState}

open BroadcastTransactionResponse (orReject_eq_ok getOrReject_eq_ok Proven)

theorem orReject_bind_eq_error {resultCode : ℕ} {condition : Bool}
    {checks : Unit → Except RequestError Unit} {error : RequestError}
    (h : BroadcastTransactionResponse.orReject resultCode condition >>= checks = .error error) :
    error = .protocol resultCode ∨ checks () = .error error := by
  cases condition with
  | true => exact .inr h
  | false => exact .inl (Except.error.inj h).symm

/-- The checks of the form come first. -/
theorem schema_bind_eq_ok (h : Built env a request requestSignature)
    {checks : Unit → Except RequestError Unit} (hchecks : checks () = .ok ()) :
    BroadcastTransactionResponse.orReject resultCodeInvalidPayload
        (request.isSchemaValid requestSignature) >>= checks = .ok () ↔
      request.Sized requestSignature := by
  rw [← h.isSchemaValid_iff, bind_eq_ok]
  constructor
  · rintro ⟨u, hschema, -⟩
    exact orReject_eq_ok.mp hschema
  · intro hschema
    exact ⟨(), orReject_eq_ok.mpr hschema, hchecks⟩

theorem LivenessRequest.validate_eq_ok (ha : a.Correct env)
    (h : Built env a request requestSignature) :
    validate env request requestSignature (env.crypto.decodeSafe a.address) = .ok () ↔
      request.Sized requestSignature :=
  schema_bind_eq_ok h (h.validateSignature ha)

theorem LivenessRequest.result_eq_ok (ha : a.Correct env)
    (h : Built env a request requestSignature) :
    result env false request requestSignature (env.crypto.decodeSafe a.address) =
      resultCodeOk ↔ request.Sized requestSignature := by
  rw [← validate_eq_ok ha h, result, if_neg (by simp)]
  split
  case h_1 heq => simp [heq]
  case h_2 error heq =>
    rw [heq]
    obtain rfl | herror := orReject_bind_eq_error heq
    · simp [RequestError.resultCode, resultCodeInvalidPayload, resultCodeOk]
    · rw [h.validateSignature ha] at herror
      cases herror

theorem validateResponseType_eq_ok {key : Buffer} (hentry : entry.data = request.pendingRequest key)
    (h : request.payload.type = .livenessRequest ∧ response.payload.type = .livenessResponse ∨
      request.payload.type = .broadcastTransactionRequest ∧
        response.payload.type = .broadcastTransactionResponse) :
    validateResponseType response entry = .ok () := by
  obtain ⟨hrequest, hresponse⟩ | ⟨hrequest, hresponse⟩ := h <;>
    simp [validateResponseType, hentry, NetworkMessage.pendingRequest, hrequest, hresponse]

theorem validatePeerCorrectness_eq_ok {key : Buffer}
    (hentry : entry.data = request.pendingRequest key) :
    validatePeerCorrectness key entry = .ok () := by
  simp [validatePeerCorrectness, hentry, NetworkMessage.pendingRequest]

theorem LivenessResponse.validate_eq_ok (hb : b.Correct env)
    (h : Built env b response responseSignature)
    (hentry : entry.data = request.pendingRequest (env.crypto.decodeSafe b.address))
    (hrequest : request.payload.type = .livenessRequest)
    (hresponse : response.payload.type = .livenessResponse) :
    validate env response responseSignature (env.crypto.decodeSafe b.address) entry = .ok () ↔
      response.Sized responseSignature :=
  schema_bind_eq_ok h (bind_eq_ok.mpr ⟨(), validateResponseType_eq_ok hentry
    (.inl ⟨hrequest, hresponse⟩), bind_eq_ok.mpr ⟨(), validatePeerCorrectness_eq_ok hentry,
      h.validateSignature hb⟩⟩)

theorem BroadcastTransactionRequest.validate_eq_ok (ha : a.Correct env)
    (h : Built env a request requestSignature)
    (hrequest : request.payload.type = .broadcastTransactionRequest) :
    validate env request requestSignature (env.crypto.decodeSafe a.address) = .ok () ↔
      request.Sized requestSignature := by
  constructor
  · intro hvalid
    obtain ⟨u, hschema, -⟩ := bind_eq_ok.mp hvalid
    exact h.isSchemaValid_iff.mp (orReject_eq_ok.mp hschema)
  · intro hsized
    refine (schema_bind_eq_ok h ?_).mpr hsized
    have hdata := hsized.data
    cases hp : request.payload with
    | broadcastTransactionRequest data nonce =>
      rw [hp] at hdata
      exact bind_eq_ok.mpr ⟨(), orReject_eq_ok.mpr (decide_eq_true hdata.2), h.validateSignature ha⟩
    | _ =>
      rw [hp] at hrequest
      cases hrequest

namespace BroadcastTransactionResponse

/-- A response passes the checks of its form, its sender and its signature. -/
theorem validate_eq (hb : b.Correct env) (h : Built env b response responseSignature)
    (hsized : response.Sized responseSignature)
    (hentry : entry.data = request.pendingRequest (env.crypto.decodeSafe b.address))
    (hrequest : request.payload.type = .broadcastTransactionRequest) {nonce proof : Buffer}
    {timestamp result : ℕ}
    (hresponse : response.payload = .broadcastTransactionResponse nonce proof timestamp result) :
    validate env api state response responseSignature (env.crypto.decodeSafe b.address) entry =
      (do
        validateIfResultCodeIsValidatorInternalError result
        if result = resultCodeOk then
          let proofResult ← getOrReject resultCodeUnexpectedError (api.verifyProofOfPublication proof)
          let (validatorDecodedTx, manifest) ←
            assertProofPayloadMatchesRequestPayload env api proofResult entry
          validateDecodedCompletePayloadSchema env validatorDecodedTx
          let (writerKeyFromManifest, validatorAddressCorrelatedWithManifest) ←
            validateWritingKey env api state manifest
          validateValidatorCorrectness env api state validatorDecodedTx
            (env.crypto.decodeSafe b.address) writerKeyFromManifest
            validatorAddressCorrelatedWithManifest) := by
  have hschema : orReject resultCodeInvalidPayload (response.isSchemaValid responseSignature) =
      .ok () := orReject_eq_ok.mpr (h.isSchemaValid_iff.mpr hsized)
  have htype := validateResponseType_eq_ok hentry (.inr ⟨hrequest, congrArg _ hresponse⟩)
  simp only [validate, hschema, htype, validatePeerCorrectness_eq_ok hentry,
    h.validateSignature hb, hresponse, bind, Except.bind]

theorem fromAscii_ne_nil {address : Str} (h : isAddressValid env address) :
    fromAscii address ≠ [] := by
  obtain ⟨-, hprefix, -⟩ := isAddressValid_iff.mp h
  intro hnil
  rw [List.map_eq_nil_iff.mp hnil, List.prefix_nil] at hprefix
  simp at hprefix

/-- The steps of `assertProofPayloadMatchesRequestPayload` when no check fails. -/
theorem assertProofPayloadMatchesRequestPayload_ok_iff {block : Buffer}
    {manifest manifest' : api.Manifest} {completed : Operation} :
    assertProofPayloadMatchesRequestPayload env api (block, manifest) entry =
        .ok (completed, manifest') ↔
      ∃ data, entry.data.requestTxData = some data ∧ data ≠ [] ∧ ∃ value, api.decodeValue block =
        some value ∧ ∃ requested, env.safeDecodeApplyOperation data = some requested ∧
        env.safeDecodeApplyOperation value = some completed ∧
        requested = completed.setCompletion .null ∧ manifest = manifest' := by
  simp only [assertProofPayloadMatchesRequestPayload, bind_eq_ok, getOrReject_eq_ok,
    orReject_eq_ok, isDeepEqual_strip, exists_const, decide_eq_true_eq]
  constructor
  · rintro ⟨data, hdata, hne, value, hvalue, requested, hrequested, completed, hcompleted, hsame, h⟩
    cases h
    exact ⟨data, hdata, hne, value, hvalue, requested, hrequested, hcompleted, hsame, rfl⟩
  · rintro ⟨data, hdata, hne, value, hvalue, requested, hrequested, hcompleted, hsame, rfl⟩
    exact ⟨data, hdata, hne, value, hvalue, requested, hrequested, completed, hcompleted, hsame,
      rfl⟩

/-- The proof of a request that has data passes the checks of the block, the key and the validator. -/
theorem proven_iff (hdata : entry.data.requestTxData ≠ some []) {proof key : Buffer} :
    (∃ block manifest completed manifest' writerKey va, api.verifyProofOfPublication proof =
        some (block, manifest) ∧
      assertProofPayloadMatchesRequestPayload env api (block, manifest) entry =
        .ok (completed, manifest') ∧
      validateDecodedCompletePayloadSchema env completed = .ok () ∧
      validateWritingKey env api state manifest' = .ok (writerKey, va) ∧
      validateValidatorCorrectness env api state completed key writerKey va = .ok ()) ↔
    ∃ requested completed manifest va,
      Proven env api state proof key entry requested completed manifest va ∧
        validateDecodedCompletePayloadSchema env completed = .ok () := by
  constructor
  · rintro ⟨block, manifest, completed, manifest', writerKey, va, hproof, hassert, hschema, hkey,
      hvalidator⟩
    obtain ⟨data, hrequestTxData, -, value, hvalue, requested, hrequested, hcompleted, hsame, rfl⟩ :=
      assertProofPayloadMatchesRequestPayload_ok_iff.mp hassert
    simp only [validateWritingKey, bind_eq_ok, getOrReject_eq_ok, orReject_eq_ok, exists_const]
      at hkey
    obtain ⟨_, hregistered, -, hkey⟩ := hkey
    cases hkey
    simp only [validateValidatorCorrectness, extractRequiredVaFromDecodedTx, bind_eq_ok,
      getOrReject_eq_ok, orReject_eq_ok, exists_const, decide_eq_true_eq] at hvalidator
    obtain ⟨va', hva, hconnection, rfl, -, account, haccount, hwriter, hwk⟩ := hvalidator
    obtain ⟨c, hc, hbytes⟩ := Option.bind_eq_some_iff.mp hva
    obtain ⟨address, haddress, haccount⟩ := Option.bind_eq_some_iff.mp haccount
    obtain ⟨hvalid, hbuffer⟩ := eq_of_addressToBuffer haddress
    have hfield : c.va = .buffer va' := by
      cases hfield : c.va with
      | buffer b =>
        rw [hfield] at hbytes
        cases hbytes
        rfl
      | _ =>
        rw [hfield] at hbytes
        cases hbytes
    exact ⟨requested, completed, manifest, va', ⟨⟨data, hrequestTxData, hrequested⟩,
      ⟨block, value, hproof, hvalue, hcompleted⟩, hsame, ⟨c, hc, hfield⟩,
      ⟨hvalid, hconnection.trans hbuffer⟩, hregistered,
      ⟨address, account, hconnection ▸ haddress, haccount, hwriter, hwk⟩⟩, hschema⟩
  · rintro ⟨requested, completed, manifest, va, hproven, hschema⟩
    obtain ⟨data, hrequestTxData, hrequested⟩ := hproven.requested
    obtain ⟨block, value, hproof, hvalue, hcompleted⟩ := hproven.proven
    obtain ⟨c, hc, hva⟩ := hproven.validator
    obtain ⟨hvalid, hconnection⟩ := hproven.connection
    obtain ⟨address, account, haddress, haccount, hwriter, hwk⟩ := hproven.writer
    have hbuffer : addressToBuffer env (publicKeyToAddress env api key) = va :=
      (if_pos hvalid).trans hconnection.symm
    refine ⟨block, manifest, completed, manifest, api.key manifest, va, hproof,
      assertProofPayloadMatchesRequestPayload_ok_iff.mpr ⟨data, hrequestTxData,
        fun hnil => hdata (hnil ▸ hrequestTxData), value, hvalue, requested, hrequested, hcompleted,
        hproven.same, rfl⟩, hschema, ?_, ?_⟩
    · simp only [validateWritingKey, bind_eq_ok, getOrReject_eq_ok, orReject_eq_ok, exists_const]
      exact ⟨va, hproven.registered, by simpa [hconnection] using fromAscii_ne_nil hvalid, rfl⟩
    · simp only [validateValidatorCorrectness, extractRequiredVaFromDecodedTx, bind_eq_ok,
        getOrReject_eq_ok, orReject_eq_ok, exists_const, decide_eq_true_eq, hbuffer]
      exact ⟨va, by rw [hc, Option.bind_some, hva]; rfl, rfl, rfl, trivial, account,
        by rw [haddress, Option.bind_some, haccount], hwriter, hwk⟩

theorem requestTxData_ne_nil (hrequest : request.payload.type = .broadcastTransactionRequest)
    (hdata : request.payload.DataSized) {remotePublicKey : Buffer} :
    (request.pendingRequest remotePublicKey).requestTxData ≠ some [] := by
  cases hp : request.payload with
  | broadcastTransactionRequest data nonce =>
    rw [hp] at hdata
    simp only [NetworkMessage.pendingRequest, PendingRequestService.extractRequestTxData, hp]
    rintro hnil
    rw [Option.some.inj hnil] at hdata
    exact Nat.not_succ_le_zero _ hdata.1
  | _ =>
    rw [hp] at hrequest
    cases hrequest

/-- A response is accepted exactly if it has its sizes, it is no internal error of the validator, and
its proof proves the request if it is a success. -/
theorem validate_eq_ok_iff (hb : b.Correct env) (h : Built env b response responseSignature)
    (hentry : entry.data = request.pendingRequest (env.crypto.decodeSafe b.address))
    (hrequest : request.payload.type = .broadcastTransactionRequest)
    (hdata : request.payload.DataSized) {nonce proof : Buffer} {timestamp result : ℕ}
    (hresponse : response.payload = .broadcastTransactionResponse nonce proof timestamp result) :
    validate env api state response responseSignature (env.crypto.decodeSafe b.address) entry =
        .ok () ↔
      response.Sized responseSignature ∧ result ≠ resultCodeTxCommittedReceiptMissing ∧
        (result = resultCodeOk → ∃ requested completed manifest va,
          Proven env api state proof (env.crypto.decodeSafe b.address) entry requested completed
            manifest va ∧
          validateDecodedCompletePayloadSchema env completed = .ok ()) := by
  by_cases hsized : response.Sized responseSignature
  · rw [validate_eq hb h hsized hentry hrequest hresponse, bind_eq_ok, and_iff_right hsized]
    simp only [validateIfResultCodeIsValidatorInternalError, orReject_eq_ok, decide_eq_true_eq,
      exists_const]
    refine and_congr_right fun _ => ?_
    by_cases hresult : result = resultCodeOk
    · have hne : entry.data.requestTxData ≠ some [] := by
        rw [hentry]
        exact requestTxData_ne_nil hrequest hdata
      simp only [hresult, if_true, true_imp_iff, ← proven_iff hne, bind_eq_ok, getOrReject_eq_ok,
        Prod.exists]
      constructor
      · rintro ⟨block, manifest, hproof, completed, manifest', hassert, ⟨⟩, hschema, writerKey, va,
          hkey, hvalidator⟩
        exact ⟨block, manifest, completed, manifest', writerKey, va, hproof, hassert, hschema,
          hkey, hvalidator⟩
      · rintro ⟨block, manifest, completed, manifest', writerKey, va, hproof, hassert, hschema,
          hkey, hvalidator⟩
        exact ⟨block, manifest, hproof, completed, manifest', hassert, (), hschema, writerKey, va,
          hkey, hvalidator⟩
    · rw [if_neg hresult]
      exact iff_of_true rfl fun hok => absurd hok hresult
  · refine iff_of_false (fun hvalid => hsized ?_) fun h => hsized h.1
    obtain ⟨u, hschema, -⟩ := bind_eq_ok.mp hvalid
    exact h.isSchemaValid_iff.mp (orReject_eq_ok.mp hschema)

end BroadcastTransactionResponse

end

/-- A request and a response that nodes with correct wallets build are accepted exactly if their
parts have their sizes. A response to a broadcast must moreover be no internal error of the
validator, and a success must prove the request. -/
theorem exchange_accepted {env : Env} {api : CoreApi} {state : LocalState} {a b : Wallet}
    {request response : NetworkMessage} {requestSignature responseSignature : Buffer}
    {entry : PendingRequestEntry} (ha : a.Correct env) (hb : b.Correct env)
    (hm : Built env a request requestSignature) (hr : Built env b response responseSignature)
    (hentry : entry.data = request.pendingRequest (env.crypto.decodeSafe b.address)) :
    (request.payload.type = .livenessRequest →
      (LivenessRequest.result env false request requestSignature
          (env.crypto.decodeSafe a.address) = resultCodeOk ↔ request.Sized requestSignature) ∧
      (response.payload.type = .livenessResponse →
        (LivenessResponse.validate env response responseSignature
          (env.crypto.decodeSafe b.address) entry = .ok () ↔ response.Sized responseSignature))) ∧
    (request.payload.type = .broadcastTransactionRequest →
      (BroadcastTransactionRequest.validate env request requestSignature
          (env.crypto.decodeSafe a.address) = .ok () ↔ request.Sized requestSignature) ∧
      ∀ nonce proof timestamp result, request.Sized requestSignature →
        response.payload = .broadcastTransactionResponse nonce proof timestamp result →
        (BroadcastTransactionResponse.validate env api state response responseSignature
            (env.crypto.decodeSafe b.address) entry = .ok () ↔
          response.Sized responseSignature ∧ result ≠ resultCodeTxCommittedReceiptMissing ∧
            (result = resultCodeOk → ∃ requested completed manifest va,
              BroadcastTransactionResponse.Proven env api state proof
                (env.crypto.decodeSafe b.address) entry requested completed manifest va ∧
              BroadcastTransactionResponse.validateDecodedCompletePayloadSchema env completed =
                .ok ()))) := by
  constructor
  · intro hrequest
    exact ⟨LivenessRequest.result_eq_ok ha hm, LivenessResponse.validate_eq_ok hb hr hentry hrequest⟩
  · intro hrequest
    refine ⟨BroadcastTransactionRequest.validate_eq_ok ha hm hrequest, ?_⟩
    intro nonce proof timestamp result hsized hresponse
    exact BroadcastTransactionResponse.validate_eq_ok_iff hb hr hentry hrequest hsized.data hresponse

/-! ### Alice and the admin -/

namespace Sample

def probeNonce : Buffer :=
  Bytes.ofNat 32 0xa9e8322e303e27205976b9a9237c5ec9fcf4d2e471fcf604ec453587372cdb5d

def probeAnswerNonce : Buffer :=
  Bytes.ofNat 32 0xafc2fb9de0c48d2abc7a380d0aa8d2b0e13476e764fb45fa454f6afae195ea0e

def requestNonce : Buffer :=
  Bytes.ofNat 32 0xa26ceecc2f21bb78084362d49cb3bfbc3fd738912208f5aca8dc957e985c9b87

def responseNonce : Buffer :=
  Bytes.ofNat 32 0xcff0a5ef65ef69b7af1ec2363b383695ae6c47385ff52bbab297799c0aba2341

def probeHash : Buffer :=
  Bytes.ofNat 32 0x760cb0efe960fb5fc578c218a5c5ac6859ba240190f1b517261c0cb346125217

def probeAnswerHash : Buffer :=
  Bytes.ofNat 32 0x39f5571d965c0bc30b40480a6291d2f4cfaa39366e3ee6a339ff58983af40123

def requestHash : Buffer :=
  Bytes.ofNat 32 0xfba426277d627673e63703d75f06782f75527f7f27131d81cfabd8074439dc02

def responseHash : Buffer :=
  Bytes.ofNat 32 0x8b8d8af15873d26f9318077e534998f960283ef13dcef37063b3d8edd566d63f

def payAdminValidatorHash : Buffer :=
  Bytes.ofNat 32 0x4535c09ef17b47e3c341c614526dc212ec7093df906af662a73c2812677f6610


def messageId : Str := "5f0c2a1e-8d3b-4c7a-9e21-6b7f3d2a9c10".toList

/-- The transfer of Alice before the admin completes it. -/
def payAdminPartial : Operation := payAdminOp.setCompletion .null

def probe : NetworkMessage where
  id := messageId
  timestamp := 1763500000000
  capabilities := networkCapabilities
  payload := .livenessRequest probeNonce

def probeAnswer : NetworkMessage where
  id := messageId
  timestamp := 1763500000120
  capabilities := networkCapabilities
  payload := .livenessResponse probeAnswerNonce resultCodeOk

def payRequest : NetworkMessage where
  id := messageId
  timestamp := 1763500000500
  capabilities := networkCapabilities
  payload := .broadcastTransactionRequest (encodeOperation payAdminPartial) requestNonce

def payResponse : NetworkMessage where
  id := messageId
  timestamp := 1763500001200
  capabilities := networkCapabilities
  payload := .broadcastTransactionResponse responseNonce [1] 1763500001000 resultCodeOk

def aliceNetworkSignatures : List (Buffer × Buffer) := [
    (probeHash,
      Bytes.ofNat 32 0x147d7c9be4efb91b089772301a97d2388f2c62ee36ca552efac2a4069eef63a4 ++
      Bytes.ofNat 32 0xc156cb8e7f7215d6ec6e55ecc4ae1f7f5051a9319dde7c7e322d60c1b3a7c906),
    (probeAnswerHash,
      Bytes.ofNat 32 0x6f6b1fcaa2e849f8027e35e3d151539fda4d273372481decc5c7ffe916ef8a64 ++
      Bytes.ofNat 32 0xe8009d85e6d3e3640b0fcfd77dc1f490f01ddd36d8a87ab6e9288cbc5b57cf0d),
    (requestHash,
      Bytes.ofNat 32 0x0c47d7c1325c5cef4b1f0fd9f6ea233e419ad766a66cee052c9f13d35456781c ++
      Bytes.ofNat 32 0x6e15dd3edca1fce9d712095cc33269891b31150cee24244ef938967c32b97505),
    (responseHash,
      Bytes.ofNat 32 0x4520fd84797458868672ad4b5a9930a366099d01b7fb598f03557a87ba4f5011 ++
      Bytes.ofNat 32 0xecfff6ee64da5d2d8cc78e7bcf76a9116c664d03e5179dbb38da950d0f10db05),
    (payAdminValidatorHash,
      Bytes.ofNat 32 0x3b7402326155bc1392702d0f672f9561222349b88bf4b150eabf824dd21519da ++
      Bytes.ofNat 32 0x8d5f0134eecbc6507254b6e9163ecf21da417bb99a423a7458566b4abf657907),
    (zeroHash,
      Bytes.ofNat 32 0x709acb7c49b9cae240c2f3971006939d12e6acb6a97c1ea48d8831c04dcbe596 ++
      Bytes.ofNat 32 0x31e56958e0374b28d07403164247a7dd055b69c922bb74e41dcaa9908006880c)]

def adminNetworkSignatures : List (Buffer × Buffer) := [
    (probeHash,
      Bytes.ofNat 32 0x387045cb9bbc4353d29765cacbdca0253bf12009279f2169e04afb7126015625 ++
      Bytes.ofNat 32 0x01410ee77668c297471f89bb3b23564eeaee65c28de3b74e6d1631cb01f3760b),
    (probeAnswerHash,
      Bytes.ofNat 32 0xa11d8ef9aee6f6f9cafcaa64bac4c4481f98018896e8279dc4b11e4044363a3d ++
      Bytes.ofNat 32 0x5b2ec7f03c09871209ffdd2faafdc7a544ac57fcafb1be37165e9f19f5434402),
    (requestHash,
      Bytes.ofNat 32 0x8006b70a2e8163afa39f74e841e12db03ccf67958860f4cbbfe3a50b447e3d41 ++
      Bytes.ofNat 32 0x18bd834b8c40f32e909ed03ac23e0e54f544995d42527cd1c38c02fb4f967a01),
    (responseHash,
      Bytes.ofNat 32 0xe02eedc714a71a7820c4d2e6baf50530b5a6f29e8056662f41c2f3d1c37e66cc ++
      Bytes.ofNat 32 0x6a9027615f256b9d4ca2cc812cbf42a59581097f1ef4e6ea0c651a858f3fa003),
    (payAdminValidatorHash,
      Bytes.ofNat 32 0xa10c984afc5b39c9f4d36396f890518bd8f8d7a571da9b98bee32e046df0453a ++
      Bytes.ofNat 32 0x9c7f33260bd2e222ca64053d294af7c867feac5491e3c969357c0a1f7153420b),
    (zeroHash,
      Bytes.ofNat 32 0x44c5841720401e55a78b1b3842626d9430a92c2d1c9bb671bee8ed62d39c95df ++
      Bytes.ofNat 32 0x71a47282aa67c4de24a4247272c883f32b6cd01eb5ab7855a563a80bfecb5d05)]

def networkDigests : List (Buffer × Buffer) := [
    (createMessage (probe.parts.getD []), probeHash),
    (createMessage (probeAnswer.parts.getD []), probeAnswerHash),
    (createMessage (payRequest.parts.getD []), requestHash),
    (createMessage (payResponse.parts.getD []), responseHash),
    (createMessage (validatorMessage network .transfer payAdminBody.tx payAdminCompletion),
      payAdminValidatorHash)]

/-- The functions outside the program, as far as the messages and the transfer use them. -/
def messaging : Env where
  config := config
  crypto :=
    { recording.crypto with
      blake3Safe message := (networkDigests.lookup message).getD zeroHash
      verify signature hash key :=
        key = aliceKey ∧ aliceNetworkSignatures.contains (hash, signature) ∨
          key = adminKey ∧ adminNetworkSignatures.contains (hash, signature) }
  safeDecodeApplyOperation b :=
    if b = encodeOperation payAdminPartial then some payAdminPartial
    else network.safeDecodeApplyOperation b
  size_addressPrefix := rfl

def aliceNode : Wallet where
  address := alice
  sign hash := (aliceNetworkSignatures.lookup hash).getD (List.replicate 64 0)

def adminNode : Wallet where
  address := admin
  sign hash := (adminNetworkSignatures.lookup hash).getD (List.replicate 64 0)

def networkHashes : List Buffer :=
  [probeHash, probeAnswerHash, requestHash, responseHash, payAdminValidatorHash, zeroHash]

theorem networkHashes_facts :
    (∀ digest ∈ networkDigests, digest.2 ∈ networkHashes) ∧ zeroHash ∈ networkHashes := by
  decide +kernel

theorem blake3Safe_mem_networkHashes (message : Buffer) :
    messaging.crypto.blake3Safe message ∈ networkHashes := by
  obtain ⟨hdigests, hzero⟩ := networkHashes_facts
  change (networkDigests.lookup message).getD zeroHash ∈ networkHashes
  cases h : networkDigests.lookup message with
  | none => exact hzero
  | some hash => exact hdigests _ (Recording.mem_of_lookup h)

/-- A wallet whose table has a signature of every hash is correct. -/
theorem correct_of_networkSignatures {address : Str} {signatures : List (Buffer × Buffer)}
    (h : (address.all fun c => c.toNat < 128) ∧ isAddressValid messaging address ∧
      messaging.crypto.decodeSafe address ≠ nullBuffer ∧
      (∀ s ∈ signatures, s.2.length = signatureByteLength) ∧
      ∀ hash ∈ networkHashes, messaging.crypto.verify
        ((signatures.lookup hash).getD (List.replicate signatureByteLength 0)) hash
        (messaging.crypto.decodeSafe address)) :
    Wallet.Correct messaging
      { address
        sign hash := (signatures.lookup hash).getD (List.replicate signatureByteLength 0) } := by
  obtain ⟨hascii, hvalid, hpublicKey, hlength, hverify⟩ := h
  exact ⟨fun c hc => of_decide_eq_true (List.all_eq_true.mp hascii c hc), hvalid, hpublicKey,
    length_lookup_getD hlength, fun message => hverify _ (blake3Safe_mem_networkHashes message)⟩

theorem correct_aliceNode : aliceNode.Correct messaging :=
  correct_of_networkSignatures (by decide +kernel)

theorem correct_adminNode : adminNode.Correct messaging :=
  correct_of_networkSignatures (by decide +kernel)

theorem built_facts :
    NetworkMessageDirector.buildLivenessRequest messaging aliceNode 1763500000000 probeNonce
        messageId networkCapabilities = some (probe, aliceNode.sign probeHash) ∧
    NetworkMessageDirector.buildLivenessResponse messaging adminNode 1763500000120
        probeAnswerNonce messageId networkCapabilities resultCodeOk =
      some (probeAnswer, adminNode.sign probeAnswerHash) ∧
    NetworkMessageDirector.buildBroadcastTransactionRequest messaging aliceNode 1763500000500
        requestNonce messageId networkCapabilities (some (encodeOperation payAdminPartial)) =
      some (payRequest, aliceNode.sign requestHash) ∧
    NetworkMessageDirector.buildBroadcastTransactionResponse messaging adminNode 1763500001200
        responseNonce messageId networkCapabilities resultCodeOk (some [1]) 1763500001000 =
      some (payResponse, adminNode.sign responseHash) := by
  decide +kernel

def probeEntry : PendingRequestEntry where
  id := messageId
  promise := 0
  timeoutId := none
  data := probe.pendingRequest adminKey

def payEntry : PendingRequestEntry where
  id := messageId
  promise := 1
  timeoutId := none
  data := payRequest.pendingRequest adminKey

/-- The block of the transfer is in the core of the admin, whose key is the bootstrap key. -/
def cores : CoreApi where
  Manifest := Buffer
  verifyProofOfPublication proof :=
    if proof = [1] then some (encodeOperation payAdminOp, bootstrap) else none
  decodeValue block := some block
  key manifest := manifest
  encode _ publicKey := if publicKey = adminKey then admin else alice

/-- What Alice knows of the ledger. -/
def aliceState : LocalState := { signed := funded.view, view := funded.view, base := funded.base }

theorem exchange_facts :
    (utf16 messageId).length ≤ 64 ∧
    (∀ nonce ∈ [probeNonce, probeAnswerNonce, requestNonce, responseNonce],
      validateBuffer nonceByteLength nonce) ∧
    (∀ hash ∈ networkHashes, validateBuffer signatureByteLength (aliceNode.sign hash) ∧
      validateBuffer signatureByteLength (adminNode.sign hash)) ∧
    1 ≤ (encodeOperation payAdminPartial).length ∧
    (encodeOperation payAdminPartial).length ≤ maxPartialTxPayloadByteSize ∧
    messaging.crypto.decodeSafe alice = aliceKey ∧ messaging.crypto.decodeSafe admin = adminKey ∧
    messaging.safeDecodeApplyOperation (encodeOperation payAdminPartial) = some payAdminPartial ∧
    messaging.safeDecodeApplyOperation (encodeOperation payAdminOp) = some payAdminOp ∧
    isAddressValid messaging admin ∧
    aliceState.getRegisteredWriterKey messaging bootstrap = some adminAddress ∧
    bufferToAddress messaging adminAddress = some admin ∧
    (aliceState.getNodeEntry admin).any (fun account => account.isWriter && account.wk = bootstrap) ∧
    BroadcastTransactionResponse.validateDecodedCompletePayloadSchema messaging payAdminOp =
      .ok () := by
  decide +kernel

theorem proven_payAdmin : BroadcastTransactionResponse.Proven messaging cores aliceState [1]
    adminKey payEntry payAdminPartial payAdminOp bootstrap adminAddress := by
  obtain ⟨-, -, -, -, -, -, -, hrequested, hcompleted, hvalid, hregistered, haddress, hwriter, -⟩ :=
    exchange_facts
  obtain ⟨account, haccount, hflags⟩ := Option.any_eq_true _ _ |>.mp hwriter
  rw [Bool.and_eq_true, decide_eq_true_eq] at hflags
  exact {
    requested := ⟨_, rfl, hrequested⟩
    proven := ⟨encodeOperation payAdminOp, _, rfl, rfl, hcompleted⟩
    same := rfl
    validator := ⟨payAdminCompletion.toField, rfl, rfl⟩
    connection := ⟨hvalid, rfl⟩
    registered := hregistered
    writer := ⟨admin, account, haddress, haccount, hflags⟩ }

/-- The admin answers Alice, before and after her transfer. -/
theorem exchange_accepted_payAdmin :
    LivenessRequest.result messaging false probe (aliceNode.sign probeHash) aliceKey =
      resultCodeOk ∧
    LivenessResponse.validate messaging probeAnswer (adminNode.sign probeAnswerHash) adminKey
      probeEntry = .ok () ∧
    BroadcastTransactionRequest.validate messaging payRequest (aliceNode.sign requestHash)
      aliceKey = .ok () ∧
    BroadcastTransactionResponse.validate messaging cores aliceState payResponse
      (adminNode.sign responseHash) adminKey payEntry = .ok () := by
  obtain ⟨hid, hnonce, hsign, hmin, hmax, halice, hadmin, -, -, -, -, -, -, hschema⟩ :=
    exchange_facts
  obtain ⟨hprobe, hprobeAnswer, hrequest, hresponse⟩ := built_facts
  have halice : messaging.crypto.decodeSafe aliceNode.address = aliceKey := halice
  have hadmin : messaging.crypto.decodeSafe adminNode.address = adminKey := hadmin
  obtain ⟨hprobed, -⟩ := @exchange_accepted messaging cores aliceState aliceNode adminNode probe
    probeAnswer _ _ probeEntry correct_aliceNode correct_adminNode
    (.livenessRequest _ _ _ _ hprobe) (.livenessResponse _ _ _ _ _ hprobeAnswer)
    (by rw [hadmin]; rfl)
  obtain ⟨-, hpaid⟩ := @exchange_accepted messaging cores aliceState aliceNode adminNode payRequest
    payResponse _ _ payEntry correct_aliceNode correct_adminNode
    (.broadcastTransactionRequest _ _ _ _ _ hrequest)
    (.broadcastTransactionResponse _ _ _ _ _ _ _ hresponse) (by rw [hadmin]; rfl)
  rw [halice, hadmin] at hprobed hpaid
  obtain ⟨hresult, hanswer⟩ := hprobed rfl
  obtain ⟨hvalid, hproof⟩ := hpaid rfl
  have hsized : payRequest.Sized (aliceNode.sign requestHash) :=
    ⟨hid, hnonce _ (by simp [payRequest, NetworkPayload.nonce]),
      (hsign _ (by simp [networkHashes])).1, hmin, hmax⟩
  refine ⟨hresult.mpr ⟨hid, hnonce _ (by simp [probe, NetworkPayload.nonce]),
      (hsign _ (by simp [networkHashes])).1, trivial⟩,
    (hanswer rfl).mpr ⟨hid, hnonce _ (by simp [probeAnswer, NetworkPayload.nonce]),
      (hsign _ (by simp [networkHashes])).2, trivial⟩,
    hvalid.mpr hsized, (hproof _ _ _ _ hsized rfl).mpr ⟨⟨hid, hnonce _ ?_,
      (hsign _ (by simp [networkHashes])).2, trivial⟩, by decide, fun _ =>
      ⟨payAdminPartial, payAdminOp, bootstrap, adminAddress, proven_payAdmin, hschema⟩⟩⟩
  simp [payResponse, NetworkPayload.nonce]

end Sample

end SettlementBus
