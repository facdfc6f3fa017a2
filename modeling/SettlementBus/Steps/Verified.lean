import SettlementBus.State.Handlers.Value

/-! What the checks before the state is read establish. -/

namespace SettlementBus

open Lib

variable {env : Env}

theorem party_eq_ok {address : Buffer} {p : Party} : party env address = .ok p ↔
    bufferToAddress env address = some p.address ∧
      p.publicKey = env.crypto.decodeSafe p.address ∧ p.publicKey ≠ nullBuffer := by
  cases p
  simp [party]
  aesop

/-- The signature `is` of the key covers the message, whose hash is `tx`. -/
@[mk_iff]
structure RequesterSigned (env : Env) (args : List MessagePart) (tx is publicKey : Buffer) :
    Prop where
  message_ne : createMessage args ≠ []
  hash : env.crypto.blake3Safe (createMessage args) = tx
  signature : env.crypto.verify is tx publicKey

theorem verifyRequester_eq_ok {args : List MessagePart} {tx is publicKey : Buffer} {u : Unit} :
    verifyRequester env args tx is publicKey = .ok u ↔
      RequesterSigned env args tx is publicKey := by
  simp only [verifyRequester, messageHash, bind_eq_ok, require_eq_ok, pure_eq_ok]
  constructor
  · rintro ⟨_, ⟨⟨⟩, hm, rfl⟩, ⟨⟩, rfl, hs⟩
    exact ⟨by simpa using hm, rfl, hs⟩
  · rintro ⟨hm, rfl, hs⟩
    exact ⟨_, ⟨(), by simpa using hm, rfl⟩, (), rfl, hs⟩

theorem verifyValidator_eq_ok {type : OperationType} {tx : Buffer} {c : Completion Buffer}
    {validator : Party} : verifyValidator env type tx c = .ok validator ↔
      party env c.va = .ok validator ∧ createMessage (validatorMessage env type tx c) ≠ [] ∧
        env.crypto.verify c.vs (env.crypto.blake3Safe (createMessage
          (validatorMessage env type tx c))) validator.publicKey := by
  simp only [verifyValidator, messageHash, bind_eq_ok, require_eq_ok, pure_eq_ok]
  constructor
  · rintro ⟨_, hp, _, ⟨⟨⟩, hm, rfl⟩, ⟨⟩, hs, rfl⟩
    exact ⟨hp, by simpa using hm, hs⟩
  · rintro ⟨hp, hm, hs⟩
    exact ⟨_, hp, _, ⟨(), by simpa using hm, rfl⟩, (), hs, rfl⟩

theorem distinctSigners_eq_ok {address in_ is : Buffer} {c : Completion Buffer} {u : Unit} :
    distinctSigners address in_ is c = .ok u ↔ in_ ≠ c.vn ∧ address ≠ c.va ∧ is ≠ c.vs := by
  simp [distinctSigners]

/-- Both signers of a completed operation, with different addresses, nonces and signatures. -/
@[mk_iff]
structure Signed.Verified {α : Type} (env : Env) (type : OperationType) (args : List MessagePart)
    (tx in_ is : Buffer) (s : Signed α) : Prop where
  nonce_ne : in_ ≠ s.completion.vn
  address_ne : s.address ≠ s.completion.va
  signature_ne : is ≠ s.completion.vs
  requester : party env s.address = .ok s.requester
  signed : RequesterSigned env args tx is s.requester.publicKey
  validator : party env s.completion.va = .ok s.validator
  validatorMessage_ne : createMessage (validatorMessage env type tx s.completion) ≠ []
  validatorSigned : env.crypto.verify s.completion.vs (env.crypto.blake3Safe (createMessage
    (validatorMessage env type tx s.completion))) s.validator.publicKey

theorem verifyRoleAccess_eq_ok {type : OperationType} {op : Operation}
    {s : Signed (RoleAccessOperation Buffer)} : verifyRoleAccess env type op = .ok s ↔
      Check.validateRoleAccessOperation env op = some (s.address, s.body, some s.completion) ∧
        (type = .addWriter → s.body.iw ≠ zeroWk) ∧
        s.Verified env type (roleAccessMessage env type s.body) s.body.tx s.body.in_ s.body.is := by
  simp only [verifyRoleAccess, bind_eq_ok, require_eq_ok, pure_eq_ok, orExit_eq_ok,
    distinctSigners_eq_ok, verifyRequester_eq_ok, verifyValidator_eq_ok, exists_const, and_assoc]
  constructor
  · rintro ⟨⟨address, o, c⟩, hcheck, c, rfl, hn, ha, hs, requester, hreq, hz, hsig, validator,
      hval, hm, hvs, rfl⟩
    exact ⟨hcheck, hz, hn, ha, hs, hreq, hsig, hval, hm, hvs⟩
  · rintro ⟨hcheck, hz, h⟩
    exact ⟨_, hcheck, _, rfl, h.nonce_ne, h.address_ne, h.signature_ne, _, h.requester, hz,
      h.signed, _, h.validator, h.validatorMessage_ne, h.validatorSigned, rfl⟩

theorem verifyBootstrapDeployment_eq_ok {op : Operation}
    {s : Signed (BootstrapDeploymentOperation Buffer)} : verifyBootstrapDeployment env op = .ok s ↔
      Check.validateBootstrapDeploymentOperation env op =
          some (s.address, s.body, some s.completion) ∧
        s.body.bs ≠ env.config.bootstrap ∧
        s.Verified env .bootstrapDeployment (bootstrapDeploymentMessage env s.body) s.body.tx
          s.body.in_ s.body.is := by
  simp only [verifyBootstrapDeployment, bind_eq_ok, require_eq_ok, pure_eq_ok, orExit_eq_ok,
    distinctSigners_eq_ok, verifyRequester_eq_ok, verifyValidator_eq_ok, exists_const, and_assoc]
  constructor
  · rintro ⟨⟨address, o, c⟩, hcheck, c, rfl, hbs, hn, ha, hs, requester, hreq, hsig, validator,
      hval, hm, hvs, rfl⟩
    exact ⟨hcheck, hbs, hn, ha, hs, hreq, hsig, hval, hm, hvs⟩
  · rintro ⟨hcheck, hbs, h⟩
    exact ⟨_, hcheck, _, rfl, hbs, h.nonce_ne, h.address_ne, h.signature_ne, _, h.requester,
      h.signed, _, h.validator, h.validatorMessage_ne, h.validatorSigned, rfl⟩

theorem verifyTx_eq_ok {op : Operation} {s : Signed (TxOperation Buffer)} :
    verifyTx env op = .ok s ↔
      Check.validateTransactionOperation env op = some (s.address, s.body, some s.completion) ∧
        s.body.bs ≠ s.body.mbs ∧ s.body.mbs = env.config.bootstrap ∧
        s.Verified env .tx (txMessage env s.body) s.body.tx s.body.in_ s.body.is := by
  simp only [verifyTx, bind_eq_ok, require_eq_ok, pure_eq_ok, orExit_eq_ok,
    distinctSigners_eq_ok, verifyRequester_eq_ok, verifyValidator_eq_ok, exists_const, and_assoc]
  constructor
  · rintro ⟨⟨address, o, c⟩, hcheck, c, rfl, hn, ha, hs, hbs, hmbs, requester, hreq, hsig,
      validator, hval, hm, hvs, rfl⟩
    exact ⟨hcheck, hbs, hmbs, hn, ha, hs, hreq, hsig, hval, hm, hvs⟩
  · rintro ⟨hcheck, hbs, hmbs, h⟩
    exact ⟨_, hcheck, _, rfl, h.nonce_ne, h.address_ne, h.signature_ne, hbs, hmbs, _, h.requester,
      h.signed, _, h.validator, h.validatorMessage_ne, h.validatorSigned, rfl⟩

theorem verifyTransfer_eq_ok {op : Operation} {s : Signed (TransferOperation Buffer)} :
    verifyTransfer env op = .ok s ↔
      Check.validateTransferOperation env op = some (s.address, s.body, some s.completion) ∧
        s.Verified env .transfer (transferMessage env s.body) s.body.tx s.body.in_ s.body.is := by
  simp only [verifyTransfer, bind_eq_ok, pure_eq_ok, orExit_eq_ok, distinctSigners_eq_ok,
    verifyRequester_eq_ok, verifyValidator_eq_ok, exists_const, and_assoc]
  constructor
  · rintro ⟨⟨address, o, c⟩, hcheck, c, rfl, hn, ha, hs, requester, hreq, hsig, validator, hval, hm,
      hvs, rfl⟩
    exact ⟨hcheck, hn, ha, hs, hreq, hsig, hval, hm, hvs⟩
  · rintro ⟨hcheck, h⟩
    exact ⟨_, hcheck, _, rfl, h.nonce_ne, h.address_ne, h.signature_ne, _, h.requester, h.signed, _,
      h.validator, h.validatorMessage_ne, h.validatorSigned, rfl⟩

end SettlementBus
