import SettlementBus.Messages.Schema
import SettlementBus.Network.Response
import SettlementBus.Utils.DeepEqual
import SettlementBus.Validators.Partial

/-! `V1BroadcastTransactionResponse.js`: what makes the response to a broadcast acceptable. -/

namespace SettlementBus

def resultCodeSignatureInvalid : ℕ := 4

def resultCodeTxCommittedReceiptMissing : ℕ := 47

def resultCodeValidatorResponseTxTypeUnknown : ℕ := 49

def resultCodeValidatorResponseTxTypeUnsupported : ℕ := 50

def resultCodeValidatorResponseSchemaInvalid : ℕ := 51

def resultCodePendingRequestMissingTxData : ℕ := 52

def resultCodeProofPayloadMismatch : ℕ := 53

def resultCodeValidatorWriterKeyNotRegistered : ℕ := 54

def resultCodeValidatorAddressMismatch : ℕ := 55

def resultCodeValidatorNodeEntryNotFound : ℕ := 56

def resultCodeValidatorNodeNotWriter : ℕ := 57

def resultCodeValidatorWriterKeyMismatch : ℕ := 58

def resultCodeValidatorVaMissing : ℕ := 60

/-- What the program calls of `autobase`, `hypercore` and the address part of `trac-crypto-api`. -/
structure CoreApi where
  Manifest : Type
  /-- `remote.verify`: the block and the manifest of the core that a proof proves. -/
  verifyProofOfPublication : Buffer → Option (Buffer × Manifest)
  /-- `Autobase.decodeValue` -/
  decodeValue : Buffer → Option Buffer
  /-- `Hypercore.key` -/
  key : Manifest → Buffer
  /-- `address.encode` -/
  encode : Str → Buffer → Str

namespace BroadcastTransactionResponse

/-- A check that throws a `V1ProtocolError` unless the condition holds. -/
def orReject (resultCode : ℕ) (condition : Bool) : Except RequestError Unit :=
  if condition then .ok () else .error (.protocol resultCode)

/-- A value that is missing is an error. Other exceptions are reported as unexpected errors. -/
def getOrReject {α : Type} (resultCode : ℕ) : Option α → Except RequestError α
  | some a => .ok a
  | none => .error (.protocol resultCode)

variable (env : Env) (api : CoreApi) (state : LocalState)

def publicKeyToAddress (publicKey : Buffer) : Str := api.encode env.config.addressPrefix publicKey

def validateSignature (payload : NetworkMessage) (signature remotePublicKey : Buffer) :
    Except RequestError Unit := do
  let parts ← getOrReject resultCodeInvalidPayload payload.parts
  let hash := env.crypto.blake3Safe (createMessage parts)
  orReject resultCodeSignatureInvalid (env.crypto.verify signature hash remotePublicKey)

def validateIfResultCodeIsValidatorInternalError (resultCode : ℕ) : Except RequestError Unit :=
  orReject resultCode (resultCode ≠ resultCodeTxCommittedReceiptMissing)

/-- The operation of the proven block and the manifest. -/
def assertProofPayloadMatchesRequestPayload (proofResult : Buffer × api.Manifest)
    (entry : PendingRequestEntry) : Except RequestError (Operation × api.Manifest) := do
  let stateTxEncodedFromRequest ←
    getOrReject resultCodePendingRequestMissingTxData entry.data.requestTxData
  orReject resultCodePendingRequestMissingTxData (stateTxEncodedFromRequest ≠ [])
  let (provenBlock, manifest) := proofResult
  let stateTxEncodedFromResponse ←
    getOrReject resultCodeUnexpectedError (api.decodeValue provenBlock)
  let stateTxDecodedFromRequest ←
    getOrReject resultCodeUnexpectedError (env.safeDecodeApplyOperation stateTxEncodedFromRequest)
  let stateTxDecodedFromResponse ←
    getOrReject resultCodeUnexpectedError (env.safeDecodeApplyOperation stateTxEncodedFromResponse)
  orReject resultCodeProofPayloadMismatch
    (isDeepEqualApplyPayload stateTxDecodedFromRequest.toValue
      (stripValidatorMetadata stateTxDecodedFromResponse.toValue))
  return (stateTxDecodedFromResponse, manifest)

def validateDecodedCompletePayloadSchema (validatorDecodedTx : Operation) :
    Except RequestError Unit := do
  let type ← getOrReject resultCodeValidatorResponseTxTypeUnknown
    (OperationType.ofCode validatorDecodedTx.type)
  match type with
  | .addWriter | .removeWriter | .adminRecovery =>
    let isValid := (Check.validateRoleAccessOperation env validatorDecodedTx).isSome
    orReject resultCodeValidatorResponseSchemaInvalid isValid
  | .bootstrapDeployment =>
    let isValid := (Check.validateBootstrapDeploymentOperation env validatorDecodedTx).isSome
    orReject resultCodeValidatorResponseSchemaInvalid isValid
  | .tx =>
    let isValid := (Check.validateTransactionOperation env validatorDecodedTx).isSome
    orReject resultCodeValidatorResponseSchemaInvalid isValid
  | .transfer =>
    let isValid := (Check.validateTransferOperation env validatorDecodedTx).isSome
    orReject resultCodeValidatorResponseSchemaInvalid isValid
  | _ => throw (.protocol resultCodeValidatorResponseTxTypeUnsupported)

/-- The key of the core and the address to which it is registered. -/
def validateWritingKey (manifest : api.Manifest) : Except RequestError (Buffer × Buffer) := do
  let writerKeyFromManifest := api.key manifest
  let validatorAddressBuffer ← getOrReject resultCodeValidatorWriterKeyNotRegistered
    (state.getRegisteredWriterKey env writerKeyFromManifest)
  orReject resultCodeValidatorWriterKeyNotRegistered (validatorAddressBuffer ≠ [])
  return (writerKeyFromManifest, validatorAddressBuffer)

/-- The bodies that a validator completes have a `va`. -/
def extractRequiredVaFromDecodedTx (validatorDecodedTx : Operation) : Except RequestError Buffer :=
  getOrReject resultCodeValidatorVaMissing
    (validatorDecodedTx.completion.bind fun c => c.va.bytes?)

def validateValidatorCorrectness (validatorDecodedTx : Operation)
    (connectionRemotePublicKey writerKeyFromManifest validatorAddressCorrelatedWithManifest : Buffer) :
    Except RequestError Unit := do
  let validatorAddressFromTx ← extractRequiredVaFromDecodedTx validatorDecodedTx
  let validatorAddressFromConnectionPublicKey :=
    addressToBuffer env (publicKeyToAddress env api connectionRemotePublicKey)
  orReject resultCodeValidatorAddressMismatch
    (validatorAddressFromTx = validatorAddressFromConnectionPublicKey)
  orReject resultCodeValidatorAddressMismatch
    (validatorAddressFromTx = validatorAddressCorrelatedWithManifest)
  orReject resultCodeValidatorAddressMismatch
    (validatorAddressCorrelatedWithManifest = validatorAddressFromConnectionPublicKey)
  let account ← getOrReject resultCodeValidatorNodeEntryNotFound
    ((bufferToAddress env validatorAddressFromConnectionPublicKey).bind state.getNodeEntry)
  orReject resultCodeValidatorNodeNotWriter account.isWriter
  orReject resultCodeValidatorWriterKeyMismatch (account.wk = writerKeyFromManifest)

/-- The payload of a message is that of its type. -/
def validate (payload : NetworkMessage)
    (signature remotePublicKey : Buffer) (entry : PendingRequestEntry) :
    Except RequestError Unit := do
  orReject resultCodeInvalidPayload (payload.isSchemaValid signature)
  validateResponseType payload entry
  validatePeerCorrectness remotePublicKey entry
  validateSignature env payload signature remotePublicKey
  match payload.payload with
  | .broadcastTransactionResponse _ proof _ resultCode =>
    validateIfResultCodeIsValidatorInternalError resultCode
    if resultCode = resultCodeOk then
      let proofResult ← getOrReject resultCodeUnexpectedError (api.verifyProofOfPublication proof)
      let (validatorDecodedTx, manifest) ←
        assertProofPayloadMatchesRequestPayload env api proofResult entry
      validateDecodedCompletePayloadSchema env validatorDecodedTx
      let (writerKeyFromManifest, validatorAddressCorrelatedWithManifest) ←
        validateWritingKey env api state manifest
      validateValidatorCorrectness env api state validatorDecodedTx remotePublicKey
        writerKeyFromManifest validatorAddressCorrelatedWithManifest
  | _ => throw (.protocol resultCodeUnexpectedError)

end BroadcastTransactionResponse

end SettlementBus
