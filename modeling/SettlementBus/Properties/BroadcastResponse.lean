import SettlementBus.Network.BroadcastResponse

/-! What a response that is accepted with a proof says of the request. -/

namespace SettlementBus

open Lib

/-! ### The comparison -/

section

variable {f g : Field} {l l' : List (String × Field)} {body body' : Body} {op op' : Operation}
  {c : Completion Field} {r : List (String × Value)}

theorem isDeepEqual_field : isDeepEqualApplyPayload f.toValue g.toValue ↔ f = g := by
  cases f <;> cases g <;> simp [Field.toValue, isDeepEqualApplyPayload]

/-- A key that the fields do not have is not looked for in the first of the others. -/
theorem areFieldsEqual_cons_of_not_mem {key : String} {w : Value} (h : key ∉ l.map Prod.fst) :
    areFieldsEqual (l.map toEntry) ((key, w) :: r) =
      areFieldsEqual (l.map toEntry) r := by
  induction l with
  | nil => rfl
  | cons e l ih =>
    obtain ⟨k, field⟩ := e
    rw [List.map_cons, List.mem_cons, not_or] at h
    have hlookup : ((key, w) :: r).lookup k = r.lookup k := by
      rw [List.lookup_cons, beq_false_of_ne (Ne.symm h.1)]
    simp only [List.map_cons, toEntry, areFieldsEqual, hlookup, ih h.2]

/-- Objects with the same different keys are compared field by field. -/
theorem areFieldsEqual_iff (hkeys : l.map Prod.fst = l'.map Prod.fst) (hnodup : (l.map Prod.fst).Nodup) :
    areFieldsEqual (l.map toEntry)
      (l'.map toEntry) ↔ l = l' := by
  induction l generalizing l' with
  | nil =>
    cases l' with
    | nil => simp [areFieldsEqual]
    | cons e' l' => simp at hkeys
  | cons e l ih =>
    cases l' with
    | nil => simp at hkeys
    | cons e' l' =>
      obtain ⟨k, field⟩ := e
      obtain ⟨k', field'⟩ := e'
      simp only [List.map_cons, List.cons.injEq] at hkeys
      obtain ⟨rfl, hkeys⟩ := hkeys
      rw [List.map_cons, List.nodup_cons] at hnodup
      simp only [List.map_cons, toEntry, areFieldsEqual, List.lookup_cons, beq_self_eq_true, Bool.and_eq_true,
        isDeepEqual_field, areFieldsEqual_cons_of_not_mem hnodup.1, ih hkeys hnodup.2,
        List.cons.injEq, Prod.mk.injEq, true_and]

theorem Body.keys_eq (h : body.key = body'.key) :
    body.fields.map Prod.fst = body'.fields.map Prod.fst := by
  cases body <;> cases body' <;> first | rfl | simp [Body.key] at h

theorem Body.nodup_keys : (body.fields.map Prod.fst).Nodup := by
  cases body <;> simp [Body.fields, Completion.entries]

theorem Body.fields_inj (hkey : body.key = body'.key) (h : body.fields = body'.fields) :
    body = body' := by
  cases body with
  | cao o =>
    cases body' with
    | cao o' =>
      cases o; cases o'
      simpa [Body.fields] using h
    | _ => simp [Body.key] at hkey
  | aco o =>
    cases body' with
    | aco o' =>
      cases o; cases o'
      simpa [Body.fields] using h
    | _ => simp [Body.key] at hkey
  | bio o =>
    cases body' with
    | bio o' =>
      cases o; cases o'
      simpa [Body.fields] using h
    | _ => simp [Body.key] at hkey
  | tro o c =>
    cases body' with
    | tro o' c' =>
      cases o; cases o'; cases c; cases c'
      simpa [Body.fields, Completion.entries, and_assoc] using h
    | _ => simp [Body.key] at hkey
  | rao o c =>
    cases body' with
    | rao o' c' =>
      cases o; cases o'; cases c; cases c'
      simpa [Body.fields, Completion.entries, and_assoc] using h
    | _ => simp [Body.key] at hkey
  | bdo o c =>
    cases body' with
    | bdo o' c' =>
      cases o; cases o'; cases c; cases c'
      simpa [Body.fields, Completion.entries, and_assoc] using h
    | _ => simp [Body.key] at hkey
  | txo o c =>
    cases body' with
    | txo o' c' =>
      cases o; cases o'; cases c; cases c'
      simpa [Body.fields, Completion.entries, and_assoc] using h
    | _ => simp [Body.key] at hkey

theorem Body.isDeepEqual_iff (hkey : body.key = body'.key) :
    isDeepEqualApplyPayload body.toValue body'.toValue ↔ body = body' := by
  have hkeys := Body.keys_eq hkey
  have hlen : body.fields.length = body'.fields.length := by
    simpa using congrArg List.length hkeys
  rw [Body.toValue, Body.toValue, isDeepEqualApplyPayload, List.length_map, List.length_map, hlen,
    decide_eq_true rfl, Bool.true_and, areFieldsEqual_iff hkeys Body.nodup_keys]
  constructor
  · exact Body.fields_inj hkey
  · rintro rfl
    rfl

/-- The comparison of decoded operations is equality. -/
theorem Operation.isDeepEqual_iff :
    isDeepEqualApplyPayload op.toValue op'.toValue ↔ op = op' := by
  obtain ⟨type, address, value⟩ := op
  obtain ⟨type', address', value'⟩ := op'
  cases value with
  | none =>
    cases value' with
    | none =>
      simp [Operation.toValue, isDeepEqualApplyPayload, areFieldsEqual, List.lookup_cons,
        isDeepEqual_field]
    | some body' => simp [Operation.toValue, isDeepEqualApplyPayload]
  | some body =>
    cases value' with
    | none => simp [Operation.toValue, isDeepEqualApplyPayload]
    | some body' =>
      have htype : (body.key == "type") = false := by cases body <;> rfl
      have haddress : (body.key == "address") = false := by cases body <;> rfl
      by_cases hkey : body.key = body'.key
      · simp [Operation.toValue, isDeepEqualApplyPayload, areFieldsEqual, List.lookup_cons,
          isDeepEqual_field, hkey ▸ htype, hkey ▸ haddress, hkey, Body.isDeepEqual_iff hkey]
      · have hne : body ≠ body' := fun h => hkey (congrArg _ h)
        simp [Operation.toValue, isDeepEqualApplyPayload, areFieldsEqual, List.lookup_cons, htype,
          haddress, beq_false_of_ne hkey, hne]

theorem stripValidatorMetadata_field : stripValidatorMetadata f.toValue = f.toValue := by
  cases f <;> rfl

/-- Only the validator's fields of a body are stripped. -/
theorem Body.strip_toValue :
    stripValidatorMetadata body.toValue = (body.setCompletion .null).toValue := by
  cases body <;>
    simp [Body.toValue, Body.setCompletion, Body.fields, Completion.entries, Completion.null,
      toEntry, stripValidatorMetadata, stripFields, validatorMetadataFields,
      stripValidatorMetadata_field, show Field.null.toValue = .null from rfl]

/-- The strip sets the validator's fields to `null`. -/
theorem Operation.strip_toValue :
    stripValidatorMetadata op.toValue = (op.setCompletion .null).toValue := by
  obtain ⟨type, address, value⟩ := op
  cases value with
  | none =>
    simp [Operation.toValue, Operation.setCompletion, stripValidatorMetadata, stripFields,
      validatorMetadataFields, stripValidatorMetadata_field]
  | some body =>
    have hkey : (body.setCompletion .null).key = body.key := by cases body <;> rfl
    have hfield : body.key ∉ validatorMetadataFields := by
      cases body <;> simp [Body.key, validatorMetadataFields]
    have htype : "type" ∉ validatorMetadataFields := by decide
    have haddress : "address" ∉ validatorMetadataFields := by decide
    simp [Operation.toValue, Operation.setCompletion, stripValidatorMetadata, stripFields, hkey,
      hfield, htype, haddress, Body.strip_toValue, stripValidatorMetadata_field]

/-- The comparison of the request with the stripped response is equality up to the validator's
fields. -/
theorem isDeepEqual_strip : isDeepEqualApplyPayload op.toValue (stripValidatorMetadata op'.toValue) ↔
    op = op'.setCompletion .null := by
  rw [Operation.strip_toValue, Operation.isDeepEqual_iff]

end

/-! ### The checks of a response -/

namespace BroadcastTransactionResponse

theorem orReject_eq_ok {resultCode : ℕ} {condition : Bool} {u : Unit} :
    orReject resultCode condition = .ok u ↔ condition := by
  rw [orReject]
  split
  case isTrue h => simp [h]
  case isFalse h => simp [h]

theorem getOrReject_eq_ok {α : Type} {resultCode : ℕ} {o : Option α} {a : α} :
    getOrReject resultCode o = .ok a ↔ o = some a := by
  cases o <;> simp [getOrReject]

theorem bind_eq_ok {α β : Type} {x : Except RequestError α} {f : α → Except RequestError β} {b : β} :
    x >>= f = .ok b ↔ ∃ a, x = .ok a ∧ f a = .ok b := by
  cases x with
  | error e => exact iff_of_false (fun h => by cases h) (fun ⟨_, h, _⟩ => by cases h)
  | ok a => exact ⟨fun h => ⟨a, rfl, h⟩, fun ⟨_, h, h'⟩ => by cases h; exact h'⟩

variable {env : Env} {api : CoreApi} {state : LocalState} {proof remotePublicKey : Buffer}
  {entry : PendingRequestEntry} {request response : Operation} {manifest : api.Manifest} {va : Buffer}

/-- The proof is one of the request, as the operation `response` that the peer completed and
appended to its own core. -/
structure Proven (env : Env) (api : CoreApi) (state : LocalState) (proof remotePublicKey : Buffer)
    (entry : PendingRequestEntry) (request response : Operation) (manifest : api.Manifest)
    (va : Buffer) : Prop where
  requested : ∃ data, entry.data.requestTxData = some data ∧
    env.safeDecodeApplyOperation data = some request
  proven : ∃ block value, api.verifyProofOfPublication proof = some (block, manifest) ∧
    api.decodeValue block = some value ∧ env.safeDecodeApplyOperation value = some response
  same : request = response.setCompletion .null
  validator : ∃ c, response.completion = some c ∧ c.va = .buffer va
  connection : isAddressValid env (publicKeyToAddress env api remotePublicKey) ∧
    va = fromAscii (publicKeyToAddress env api remotePublicKey)
  registered : state.getRegisteredWriterKey env (api.key manifest) = some va
  writer : ∃ address account, bufferToAddress env va = some address ∧
    state.getNodeEntry address = some account ∧ account.isWriter ∧ account.wk = api.key manifest

theorem assertProofPayloadMatchesRequestPayload_eq_ok {block : Buffer} {manifest' : api.Manifest}
    (h : assertProofPayloadMatchesRequestPayload env api (block, manifest) entry =
      .ok (response, manifest')) :
    manifest = manifest' ∧ ∃ data value request, entry.data.requestTxData = some data ∧
      env.safeDecodeApplyOperation data = some request ∧ api.decodeValue block = some value ∧
      env.safeDecodeApplyOperation value = some response ∧
      request = response.setCompletion .null := by
  simp only [assertProofPayloadMatchesRequestPayload, bind_eq_ok, getOrReject_eq_ok, orReject_eq_ok,
    isDeepEqual_strip, exists_const] at h
  obtain ⟨data, hdata, -, value, hvalue, request, hrequest, response, hresponse, hsame, h⟩ := h
  cases h
  exact ⟨rfl, data, value, request, hdata, hrequest, hvalue, hresponse, hsame⟩

/-- A buffer that decodes to an address is not the empty one of an invalid address. -/
theorem eq_of_addressToBuffer {s t : Str} (h : bufferToAddress env (addressToBuffer env s) = some t) :
    isAddressValid env s ∧ addressToBuffer env s = fromAscii s := by
  rw [addressToBuffer] at h ⊢
  split at h
  case isTrue hvalid => exact ⟨hvalid, if_pos hvalid⟩
  case isFalse =>
    obtain ⟨hvalid, rfl⟩ := bufferToAddress_eq_some.mp h
    obtain ⟨-, hprefix, -⟩ := isAddressValid_iff.mp hvalid
    rw [show toAscii [] = [] from rfl, List.prefix_nil] at hprefix
    simp at hprefix

theorem validate_eq_ok {payload : NetworkMessage} {signature nonce : Buffer} {timestamp : ℕ}
    (hpayload : payload.payload =
      .broadcastTransactionResponse nonce proof timestamp resultCodeOk)
    (h : validate env api state payload signature remotePublicKey entry = .ok ()) :
    ∃ request response manifest va,
      Proven env api state proof remotePublicKey entry request response manifest va := by
  simp only [validate, hpayload, bind_eq_ok, orReject_eq_ok, exists_const, if_true,
    getOrReject_eq_ok] at h
  obtain ⟨-, -, -, -, -, -, -, -, -, ⟨block, manifest⟩, hproof, ⟨response, manifest'⟩, hassert, -, -,
    ⟨key, registered⟩, hkey, hvalidator⟩ := h
  obtain ⟨rfl, data, value, request, hdata, hrequest, hvalue, hresponse, hsame⟩ :=
    assertProofPayloadMatchesRequestPayload_eq_ok hassert
  simp only [validateWritingKey, bind_eq_ok, getOrReject_eq_ok, orReject_eq_ok, exists_const] at hkey
  obtain ⟨_, hregistered, -, hkey⟩ := hkey
  cases hkey
  simp only [validateValidatorCorrectness, extractRequiredVaFromDecodedTx, bind_eq_ok,
    getOrReject_eq_ok, orReject_eq_ok, exists_const, decide_eq_true_eq] at hvalidator
  obtain ⟨va, hva, hconnection, rfl, -, account, haccount, hwriter, hwk⟩ := hvalidator
  obtain ⟨c, hc, hbytes⟩ := Option.bind_eq_some_iff.mp hva
  obtain ⟨address, haddress, haccount⟩ := Option.bind_eq_some_iff.mp haccount
  obtain ⟨hvalid, hbuffer⟩ := eq_of_addressToBuffer haddress
  refine ⟨request, response, manifest, va, ⟨data, hdata, hrequest⟩,
    ⟨block, value, hproof, hvalue, hresponse⟩, hsame, ⟨c, hc, ?_⟩,
    ⟨hvalid, hconnection.trans hbuffer⟩, hregistered,
    ⟨address, account, hconnection ▸ haddress, haccount, hwriter, hwk⟩⟩
  cases hfield : c.va with
  | buffer b =>
    rw [hfield] at hbytes
    cases hbytes
    rfl
  | _ =>
    rw [hfield] at hbytes
    cases hbytes

end BroadcastTransactionResponse

theorem Operation.setCompletion_setCompletion {op : Operation} {c c' : Completion Field} :
    (op.setCompletion c).setCompletion c' = op.setCompletion c' := by
  obtain ⟨type, address, value⟩ := op
  cases value with
  | none => rfl
  | some body => cases body <;> rfl

theorem Operation.setCompletion_self {op : Operation} {c : Completion Field}
    (h : op.completion = some c) : op.setCompletion c = op := by
  obtain ⟨type, address, value⟩ := op
  cases value with
  | none => rfl
  | some body => cases body <;> first | rfl | (cases h; rfl)

/-- A response with result `OK` that is accepted proves the request, as the sender of the response
completed it, and every completion of an operation that has none passes the comparison. -/
theorem response_proves_request (env : Env) (api : CoreApi) (state : LocalState) :
    (∀ (payload : NetworkMessage) (signature remotePublicKey : Buffer) (entry : PendingRequestEntry)
        (nonce proof : Buffer) (timestamp : ℕ),
      payload.payload = .broadcastTransactionResponse nonce proof timestamp resultCodeOk →
      BroadcastTransactionResponse.validate env api state payload signature remotePublicKey entry =
        .ok () →
      ∃ request response manifest va, BroadcastTransactionResponse.Proven env api state proof
        remotePublicKey entry request response manifest va) ∧
    ∀ (request : Operation) (c : Completion Buffer), request.completion = some .null →
      isDeepEqualApplyPayload request.toValue
        (stripValidatorMetadata (request.setCompletion c.toField).toValue) := by
  constructor
  · intro payload signature remotePublicKey entry nonce proof timestamp hpayload h
    exact BroadcastTransactionResponse.validate_eq_ok hpayload h
  · intro request c hrequest
    rw [isDeepEqual_strip, Operation.setCompletion_setCompletion,
      Operation.setCompletion_self hrequest]

end SettlementBus
