import SettlementBus.Network.BroadcastRequest
import SettlementBus.Properties.Exchange
import SettlementBus.Properties.Pipeline
import SettlementBus.Properties.Settlement

/-! What a validator answers to the requests that it works on. -/

namespace SettlementBus

open Lib Pending TransactionCommitService

variable {env : Env} {wallet : Wallet} {txPoolSize : ℕ}

/-! ### The pipeline under the requests -/

namespace Pipeline

variable {p p' : Pipeline} {e : PipelineEvent} {tx encodedTx : Buffer}

/-- What is accepted stays so, and no commit gets lost. -/
structure Grows (p p' : Pipeline) : Prop where
  accepted : p.accepted ⊆ p'.accepted
  batches : p.batches ⊆ p'.batches
  commits : Moves transactionCommitServiceBufferSize (fun _ => False) p.commits p'.commits

theorem Grows.refl (p : Pipeline) : p.Grows p where
  accepted := List.Subset.refl _
  batches := List.Subset.refl _
  commits := .refl

theorem step_grows (h : p.Sound txPoolSize) (hstep : p.step txPoolSize e = some p') :
    p.Grows p' := by
  cases e with
  | dispatch tx encodedTx =>
    cases hstep
    obtain ⟨heq, -⟩ | ⟨txHash, -, hroom, hnone, ⟨o, heq, -⟩ | ⟨-, -, heq⟩⟩ :=
      @dispatchTransaction_cases txPoolSize p tx encodedTx
    · rw [heq]
      exact .refl p
    · rw [heq]
      exact ⟨List.Subset.refl _, List.Subset.refl _,
        .settleId _ _ (.register _ _ .refl hroom hnone)⟩
    · rw [heq]
      exact ⟨List.subset_append_left _ _, List.Subset.refl _, .register _ _ .refl hroom hnone⟩
  | work canValidate =>
    simp only [step, Option.bind_eq_bind, Option.bind_eq_some_iff, Option.guard_eq_some',
      exists_const, Option.pure_def, Option.some.injEq] at hstep
    obtain ⟨-, rfl⟩ := hstep
    obtain heq | ⟨n, -, heq⟩ := prepare_cases h canValidate
    · rw [heq]
      exact .refl p
    · rw [heq]
      exact ⟨List.Subset.refl _, List.subset_append_left _ _, .refl⟩
  | appended length snapshot timestamp =>
    simp only [step, Option.bind_eq_bind, Option.bind_eq_some_iff, Option.pure_def,
      Option.some.injEq] at hstep
    obtain ⟨batch, -, rfl⟩ := hstep
    exact ⟨List.Subset.refl _, List.Subset.refl _, Moves.settleEach .refl _⟩
  | appendFailed =>
    simp only [step, Option.bind_eq_bind, Option.bind_eq_some_iff, Option.pure_def,
      Option.some.injEq] at hstep
    obtain ⟨batch, -, rfl⟩ := hstep
    exact ⟨List.Subset.refl _, List.Subset.refl _, Moves.settleEach .refl _⟩
  | timeout timer =>
    simp only [step, Option.bind_eq_bind, Option.bind_eq_some_iff, Option.pure_def,
      Option.some.injEq] at hstep
    obtain ⟨commits, hfire, rfl⟩ := hstep
    obtain ⟨entry, -, -, rfl⟩ := h.commits.fire_eq hfire
    exact ⟨List.Subset.refl _, List.Subset.refl _, .settleId _ _ .refl⟩

/-! #### What is thrown and what is queued -/

theorem addTransaction_eq_error {pool : TransactionPoolService} {txHash : TxHash}
    {error : CommitError} (h : pool.addTransaction txPoolSize txHash encodedTx = .error error) :
    error = .enqueue resultCodeNodeOverloaded ∨ error = .enqueue resultCodeTxAlreadyPending := by
  unfold TransactionPoolService.addTransaction TransactionPoolService.validateEnqueue at h
  by_cases hfull : txPoolSize ≤ pool.txPool.length
  · rw [if_pos hfull] at h
    exact .inl (Except.error.inj h).symm
  · rw [if_neg hfull] at h
    by_cases hqueued : pool.hasTransaction txHash
    · rw [if_pos hqueued] at h
      exact .inr (Except.error.inj h).symm
    · rw [if_neg hqueued] at h
      cases h

/-- The transaction is queued, and its commit is pending. -/
theorem dispatchTransaction_of_none (h : p.dispatchError txPoolSize tx encodedTx = none) :
    ∃ txHash pool, assertTxHash (toHex tx) = some txHash ∧
      p.dispatchTransaction txPoolSize tx encodedTx =
        { p with
          pool
          commits := p.commits.register txHash ()
          accepted := p.accepted ++ [(p.commits.nextId, { txHash, encodedTx : PoolItem })] } := by
  unfold dispatchError at h
  split at h
  case h_1 => cases h
  case h_2 txHash hhash =>
    split at h
    case isTrue => cases h
    case isFalse hroom =>
      split at h
      case isTrue => cases h
      case isFalse hhas =>
        have hregister := registerPendingCommit_eq_some.mpr ⟨Nat.lt_of_not_le hroom,
          has_eq_false.mp (Bool.eq_false_of_not_eq_true hhas), rfl⟩
        split at h
        case h_1 => cases h
        case h_2 pool hpool =>
          exact ⟨txHash, pool, hhash, by simp only [dispatchTransaction, hhash, hregister, hpool]⟩

/-- Nothing happens, or the new commit is rejected with the error of the queue. -/
theorem dispatchTransaction_of_some {error : HandlerError}
    (h : p.dispatchError txPoolSize tx encodedTx = some error) :
    p.dispatchTransaction txPoolSize tx encodedTx = p ∨
      ∃ txHash error', p.pool.addTransaction txPoolSize txHash encodedTx = .error error' ∧
        p.dispatchTransaction txPoolSize tx encodedTx =
          { p with commits := (p.commits.register txHash ()).settleId txHash (.rejected error') } := by
  unfold dispatchError at h
  split at h
  case h_1 hhash => exact .inl (by simp only [dispatchTransaction, hhash])
  case h_2 txHash hhash =>
    cases hregister : p.commits.registerPendingCommit txHash with
    | none => exact .inl (by simp only [dispatchTransaction, hhash, hregister])
    | some commits =>
      obtain ⟨hroom, hnone, rfl⟩ := registerPendingCommit_eq_some.mp hregister
      rw [if_neg (Nat.not_le_of_lt hroom), if_neg (by simp [has_eq_false.mpr hnone])] at h
      split at h
      case h_1 error' herror =>
        refine .inr ⟨txHash, error', herror, ?_⟩
        simp only [dispatchTransaction, hhash, hregister, herror]
        rfl
      case h_2 => cases h

/-! #### Receipts -/

/-- A receipt has a proof and is of an item that has been appended. -/
def Appended (p : Pipeline) (receipt : Receipt) : Prop :=
  receipt.proof.isSome ∧ ∃ batch ∈ p.batches, ∃ item ∈ batch,
    receipt.txHash = item.txHash ∧ receipt.completeTx = item.encodedTx

/-- The promises that have receipts are those of items with the same hashes, that have been
appended. -/
def ReceiptsAppended (p : Pipeline) : Prop :=
  ∀ promise receipt, (promise, .resolved receipt) ∈ p.commits.settlements →
    p.Appended receipt ∧
      ∃ item, (promise, item) ∈ p.accepted ∧ item.txHash = receipt.txHash

theorem outcome_resolved {receipts : List Receipt} {receipt : Receipt} {item : PoolItem}
    (h : item.outcome receipts = .resolved receipt) :
    receipt ∈ receipts ∧ receipt.txHash = item.txHash ∧ receipt.proof.isSome := by
  unfold PoolItem.outcome at h
  split at h
  case h_1 => cases h
  case h_2 receipt' hreceipt =>
    obtain ⟨hmem, htxHash⟩ := receiptsByHash_eq_some hreceipt
    split at h
    case h_1 => cases h
    case h_2 hproof =>
      cases h
      exact ⟨hmem, htxHash, hproof ▸ rfl⟩

/-- The queue has only the errors of `addTransaction`. -/
def Reported (error : CommitError) : Prop :=
  ∀ resultCode, error = .enqueue resultCode →
    resultCode = resultCodeNodeOverloaded ∨ resultCode = resultCodeTxAlreadyPending

/-- A step settles a promise: that of an entry, with a receipt from the append, or with an error. -/
def Settles (p : Pipeline) (promise : ℕ) : CommitSettlement → Prop
  | .resolved receipt =>
    p.Appended receipt ∧ ∃ x ∈ p.commits.entries, x.promise = promise ∧ x.id = receipt.txHash
  | .rejected error => Reported error

theorem PoolItem.settles_outcome {receipts : List Receipt} {item : PoolItem} {x : Entry TxHash Unit}
    (happended : ∀ receipt ∈ receipts, receipt.proof.isSome → p.Appended receipt)
    (hx : x ∈ p.commits.entries) (hid : item.txHash = x.id) :
    p.Settles x.promise (item.outcome receipts) := by
  cases houtcome : item.outcome receipts with
  | resolved receipt =>
    obtain ⟨hreceipt, htxHash, hproof⟩ := outcome_resolved houtcome
    exact ⟨happended receipt hreceipt hproof, x, hx, rfl, hid.symm.trans htxHash.symm⟩
  | rejected error =>
    intro resultCode herror
    unfold PoolItem.outcome at houtcome
    split at houtcome
    case h_1 =>
      cases houtcome
      cases herror
    case h_2 =>
      split at houtcome
      case h_1 =>
        cases houtcome
        cases herror
      case h_2 => cases houtcome

theorem mem_settlements_step (h : p.Sound txPoolSize) (hstep : p.step txPoolSize e = some p')
    {promise : ℕ} {o : CommitSettlement} (hmem : (promise, o) ∈ p'.commits.settlements) :
    (promise, o) ∈ p.commits.settlements ∨ p.Settles promise o := by
  cases e with
  | dispatch tx encodedTx =>
    cases hstep
    cases herror : p.dispatchError txPoolSize tx encodedTx with
    | none =>
      obtain ⟨txHash, pool, -, heq⟩ := dispatchTransaction_of_none herror
      rw [heq] at hmem
      exact .inl hmem
    | some error =>
      obtain heq | ⟨txHash, error', hadd, heq⟩ := dispatchTransaction_of_some herror
      · exact .inl (heq ▸ hmem)
      · rw [heq] at hmem
        obtain hmem | ⟨x, -, -, heq⟩ := mem_settlements_settleId hmem
        · exact .inl hmem
        · cases heq
          refine .inr fun resultCode hcode => ?_
          obtain rfl | rfl := addTransaction_eq_error hadd <;> cases hcode
          · exact .inl rfl
          · exact .inr rfl
  | work canValidate =>
    simp only [step, Option.bind_eq_bind, Option.bind_eq_some_iff, Option.guard_eq_some',
      exists_const, Option.pure_def, Option.some.injEq] at hstep
    obtain ⟨-, rfl⟩ := hstep
    obtain heq | ⟨n, -, heq⟩ := prepare_cases h canValidate
    · exact .inl (heq ▸ hmem)
    · rw [heq] at hmem
      exact .inl hmem
  | appended length snapshot timestamp =>
    simp only [step, Option.bind_eq_bind, Option.bind_eq_some_iff, Option.pure_def,
      Option.some.injEq] at hstep
    obtain ⟨batch, hbatch, rfl⟩ := hstep
    obtain hmem | ⟨x, hx, o, ho, heq⟩ := mem_settlements_settleEach hmem
    · exact .inl hmem
    · obtain ⟨item, -, houtcome⟩ := List.mem_map.mp ho
      obtain ⟨hid, rfl⟩ := Prod.mk.inj houtcome
      cases heq
      refine .inr (PoolItem.settles_outcome (fun receipt hreceipt hproof => ?_) hx hid)
      obtain ⟨y, hy, hyid, hcompleteTx⟩ := mem_appendWithProofOfPublication hreceipt
      exact ⟨hproof, batch, List.mem_of_getLast? (h.appending batch hbatch), y, hy, hyid,
        hcompleteTx⟩
  | appendFailed =>
    simp only [step, Option.bind_eq_bind, Option.bind_eq_some_iff, Option.pure_def,
      Option.some.injEq] at hstep
    obtain ⟨batch, -, rfl⟩ := hstep
    obtain hmem | ⟨x, -, o, ho, heq⟩ := mem_settlements_settleEach hmem
    · exact .inl hmem
    · obtain ⟨item, -, houtcome⟩ := List.mem_map.mp ho
      cases heq
      cases (Prod.mk.inj houtcome).2
      exact .inr fun resultCode hcode => by cases hcode
  | timeout timer =>
    simp only [step, Option.bind_eq_bind, Option.bind_eq_some_iff, Option.pure_def,
      Option.some.injEq] at hstep
    obtain ⟨commits, hfire, rfl⟩ := hstep
    obtain ⟨entry, -, -, rfl⟩ := h.commits.fire_eq hfire
    obtain hmem | ⟨x, -, -, heq⟩ := mem_settlements_settleId hmem
    · exact .inl hmem
    · cases heq
      exact .inr fun resultCode hcode => by cases hcode

theorem Appended.mono {receipt : Receipt} (h : p.Appended receipt)
    (hgrows : p.Grows p') : p'.Appended receipt := by
  obtain ⟨hproof, batch, hbatch, hitem⟩ := h
  exact ⟨hproof, batch, hgrows.batches hbatch, hitem⟩

/-- What holds of the pipeline in every run. -/
structure Reached (txPoolSize : ℕ) (p : Pipeline) : Prop extends p.Sound txPoolSize where
  moves : Moves transactionCommitServiceBufferSize (fun _ => False) .init p.commits
  receipts : p.ReceiptsAppended
  errors : ∀ promise error, (promise, .rejected error) ∈ p.commits.settlements → Reported error

theorem reached_init : init.Reached txPoolSize where
  toSound := sound_init
  moves := .refl
  receipts := fun _ _ hmem => absurd hmem List.not_mem_nil
  errors := fun _ _ hmem => absurd hmem List.not_mem_nil

theorem Reached.step (h : p.Reached txPoolSize) (hstep : p.step txPoolSize e = some p') :
    p'.Reached txPoolSize where
  toSound := step_sound h.toSound hstep
  moves := h.moves.trans (step_grows h.toSound hstep).commits
  receipts := by
    intro promise receipt hmem
    have hgrows := step_grows h.toSound hstep
    obtain hmem | ⟨happended, x, hx, rfl, hid⟩ := mem_settlements_step h.toSound hstep hmem
    · obtain ⟨happended, item, hitem, htxHash⟩ := h.receipts promise receipt hmem
      exact ⟨happended.mono hgrows, item, hgrows.accepted hitem, htxHash⟩
    · obtain ⟨item, -, htxHash, hitem⟩ := h.pending x hx
      exact ⟨happended.mono hgrows, item, hgrows.accepted hitem, htxHash.trans hid⟩
  errors := by
    intro promise error hmem
    obtain hmem | hreported := mem_settlements_step h.toSound hstep hmem
    · exact h.errors promise error hmem
    · exact hreported

end Pipeline

/-! ### Errors -/

/-- The error is answered without a proof and without a time. -/
def HandlerError.Refuses : HandlerError → Prop
  | .protocol resultCode _ => resultCode ∈ allowedResultCodes ∧ resultCode ≠ resultCodeOk ∧
    resultCode ≠ resultCodeTxAcceptedProofUnavailable
  | .other => True

structure RequestOutcome.Refused (outcome : RequestOutcome) : Prop where
  proof : outcome.proof = none
  timestamp : outcome.timestamp = 0
  allowed : outcome.resultCode ∈ allowedResultCodes
  ne_ok : outcome.resultCode ≠ resultCodeOk
  ne_accepted : outcome.resultCode ≠ resultCodeTxAcceptedProofUnavailable
  endConnection : outcome.endConnection = shouldEndConnection outcome.resultCode

theorem HandlerError.Refuses.refused {error : HandlerError} (h : error.Refuses) :
    (buildFailedRequestOutcome error).Refused := by
  cases error with
  | protocol resultCode time =>
    obtain ⟨hallowed, hok, haccepted⟩ := h
    exact ⟨rfl, if_neg fun h => haccepted h.1, hallowed, hok, haccepted, rfl⟩
  | other => exact ⟨rfl, rfl, by decide, by decide, by decide, rfl⟩

theorem Rejection.refuses (rejection : Rejection) : rejection.toHandlerError.Refuses := by
  cases rejection with
  | code resultCode => cases resultCode <;> exact ⟨by decide, by decide, by decide⟩
  | typeError => trivial

/-- A check that throws refuses the request with its code. -/
theorem refuses_of_orReject {resultCode : ℕ} {condition : Bool} {error : RequestError}
    (hcode : (HandlerError.protocol resultCode 0).Refuses)
    (h : BroadcastTransactionResponse.orReject resultCode condition = .error error) :
    error.toHandlerError.Refuses := by
  unfold BroadcastTransactionResponse.orReject at h
  split at h
  case isTrue => cases h
  case isFalse =>
    cases h
    exact hcode

theorem bind_eq_error {α β : Type} {x : Except RequestError α} {f : α → Except RequestError β}
    {error : RequestError} (h : x >>= f = .error error) :
    x = .error error ∨ ∃ a, f a = .error error := by
  cases x with
  | error e =>
    cases h
    exact .inl rfl
  | ok a => exact .inr ⟨a, h⟩

theorem BroadcastTransactionRequest.refuses {payload : NetworkMessage}
    {signature remotePublicKey : Buffer} {error : RequestError}
    (h : validate env payload signature remotePublicKey = .error error) :
    error.toHandlerError.Refuses := by
  have hinvalid : (HandlerError.protocol resultCodeInvalidPayload 0).Refuses :=
    ⟨by decide, by decide, by decide⟩
  have hsignature : (HandlerError.protocol resultCodeSignatureInvalid 0).Refuses :=
    ⟨by decide, by decide, by decide⟩
  unfold validate at h
  obtain h | ⟨-, h⟩ := bind_eq_error h
  · exact refuses_of_orReject hinvalid h
  split at h
  case h_1 data nonce _ =>
    obtain h | ⟨-, h⟩ := bind_eq_error h
    · exact refuses_of_orReject hinvalid h
    unfold BroadcastTransactionResponse.validateSignature at h
    obtain h | ⟨parts, h⟩ := bind_eq_error h
    · cases hparts : payload.parts with
      | some parts =>
        rw [hparts] at h
        cases h
      | none =>
        rw [hparts] at h
        cases h
        exact hinvalid
    · exact refuses_of_orReject hsignature h
  case h_2 =>
    cases h
    exact ⟨by decide, by decide, by decide⟩

theorem decodeRequest_refuses {data : Buffer} {error : HandlerError}
    (h : decodeRequest env data = .error error) : error.Refuses := by
  unfold decodeRequest at h
  split at h
  case h_1 =>
    cases h
    exact ⟨by decide, by decide, by decide⟩
  case h_2 =>
    dsimp only at h
    split at h
    case h_1 =>
      cases h
      exact ⟨by decide, by decide, by decide⟩
    case h_2 =>
      split at h
      case isTrue => cases h
      case isFalse =>
        cases h
        exact ⟨by decide, by decide, by decide⟩

theorem validateTxPoolAvailability_refuses {pool : TransactionPoolService} {error : HandlerError}
    (h : validateTxPoolAvailability pool txPoolSize = .error error) : error.Refuses := by
  unfold validateTxPoolAvailability at h
  split at h
  case h_1 =>
    cases h
    exact ⟨by decide, by decide, by decide⟩
  case h_2 => cases h

theorem buildTransaction_cases (type : OperationType) (op : Operation)
    (rejection : Option Rejection) (nonce : Buffer) :
    (∃ error, buildTransaction env wallet type op rejection nonce = .error error ∧
        error.Refuses) ∨
      rejection = none ∧
        ∃ tx encodedTx, buildTransaction env wallet type op none nonce = .ok (tx, encodedTx) := by
  cases rejection with
  | some rejection => exact .inl ⟨_, rfl, rejection.refuses⟩
  | none =>
    cases hbuild : buildTransaction env wallet type op none nonce with
    | ok result => exact .inr ⟨rfl, result.1, result.2, rfl⟩
    | error error =>
      refine .inl ⟨error, rfl, ?_⟩
      unfold buildTransaction at hbuild
      dsimp only at hbuild
      split at hbuild
      case h_1 => cases hbuild
      case h_2 =>
        cases hbuild
        trivial

theorem Pipeline.dispatchError_refuses {p : Pipeline} {tx encodedTx : Buffer}
    {error : HandlerError} (h : p.dispatchError txPoolSize tx encodedTx = some error) :
    error.Refuses := by
  unfold Pipeline.dispatchError at h
  split at h
  case h_1 =>
    cases h
    exact ⟨by decide, by decide, by decide⟩
  case h_2 txHash _ =>
    split at h
    case isTrue =>
      cases h
      exact ⟨by decide, by decide, by decide⟩
    case isFalse =>
      split at h
      case isTrue =>
        cases h
        exact ⟨by decide, by decide, by decide⟩
      case isFalse =>
        split at h
        case h_1 error' herror =>
          cases h
          obtain rfl | rfl := Pipeline.addTransaction_eq_error herror <;>
            exact ⟨by decide, by decide, by decide⟩
        case h_2 => cases h

/-! ### One request -/

/-- The validator makes the item of the data. -/
def Completes (env : Env) (wallet : Wallet) (data : Buffer) (item : PoolItem) : Prop :=
  ∃ type decodedTransaction nonce tx, decodeRequest env data = .ok (type, decodedTransaction) ∧
    buildTransaction env wallet type decodedTransaction none nonce = .ok (tx, item.encodedTx) ∧
    assertTxHash (toHex tx) = some item.txHash

namespace RequestHandler

section

variable (env : Env) (wallet : Wallet) (p : Pipeline) (h : RequestHandler)

/-- The peer of the connection has signed the request. -/
def Valid : Prop :=
  BroadcastTransactionRequest.validate env h.message h.signature h.remotePublicKey = .ok ()

/-- The transaction of the request is queued under the promise. -/
structure Queued (promise : ℕ) : Prop where
  valid : h.Valid env
  pendingCommit : h.pendingCommit = some promise
  item : ∃ item, (promise, item) ∈ p.accepted ∧ Completes env wallet h.data item

/-- Why the handler answers what it does. -/
inductive Justifies (outcome : RequestOutcome) : Prop
  | refused (hnone : h.pendingCommit = none) (hrefused : outcome.Refused)
  | settled (promise : ℕ) (settlement : CommitSettlement)
    (hqueued : h.Queued env wallet p promise)
    (hsettled : p.commits.settlement promise = some settlement)
    (houtcome : outcome = settlement.toOutcome)

/-- What holds of a handler that awaits at the stage. -/
def SoundAt : HandlerStage → Prop
  | .validating => h.pendingCommit = none
  | .authorizing => h.pendingCommit = none ∧ h.Valid env
  | .building type decodedTransaction => h.pendingCommit = none ∧ h.Valid env ∧
    decodeRequest env h.data = .ok (type, decodedTransaction)
  | .committing => ∃ promise, h.Queued env wallet p promise
  | .responding outcome => h.Justifies env wallet p outcome
  | .done => ∃ outcome, h.Justifies env wallet p outcome

end

variable {p p' : Pipeline} {h : RequestHandler} {stage : HandlerStage} {outcome : RequestOutcome}
  {promise : ℕ}

theorem Queued.mono (hqueued : h.Queued env wallet p promise) (hgrows : p.Grows p') :
    h.Queued env wallet p' promise := by
  obtain ⟨hvalid, hpending, item, hitem, hcompletes⟩ := hqueued
  exact ⟨hvalid, hpending, item, hgrows.accepted hitem, hcompletes⟩

theorem Justifies.mono (hjustifies : h.Justifies env wallet p outcome) (hgrows : p.Grows p')
    (hsound : p.commits.Sound) : h.Justifies env wallet p' outcome := by
  cases hjustifies with
  | refused hnone hrefused => exact .refused hnone hrefused
  | settled promise settlement hqueued hsettled houtcome =>
    exact .settled promise settlement (hqueued.mono hgrows)
      ((hgrows.commits.lasts hsound).settled _ _ hsettled) houtcome

theorem SoundAt.mono (hsound : h.SoundAt env wallet p stage) (hgrows : p.Grows p')
    (hcommits : p.commits.Sound) : h.SoundAt env wallet p' stage := by
  cases stage with
  | committing =>
    obtain ⟨promise, hqueued⟩ := hsound
    exact ⟨promise, hqueued.mono hgrows⟩
  | responding outcome => exact hsound.mono hgrows hcommits
  | done =>
    obtain ⟨outcome, hjustifies⟩ := hsound
    exact ⟨outcome, hjustifies.mono hgrows hcommits⟩
  | _ => exact hsound

theorem Queued.setStage (hqueued : h.Queued env wallet p promise) (stage : HandlerStage) :
    { h with stage : RequestHandler }.Queued env wallet p promise :=
  ⟨hqueued.valid, hqueued.pendingCommit, hqueued.item⟩

theorem Justifies.setStage (hjustifies : h.Justifies env wallet p outcome) (stage : HandlerStage) :
    { h with stage : RequestHandler }.Justifies env wallet p outcome := by
  cases hjustifies with
  | refused hnone hrefused => exact .refused hnone hrefused
  | settled promise settlement hqueued hsettled houtcome =>
    exact .settled promise settlement (hqueued.setStage stage) hsettled houtcome

end RequestHandler

/-! ### All requests -/

/-- How far a handler has to go. -/
def HandlerStage.rank : HandlerStage → ℕ
  | .validating => 5
  | .authorizing => 4
  | .building _ _ => 3
  | .committing => 2
  | .responding _ => 1
  | .done => 0

/-- The handler that the event is a step of. -/
def ServerEvent.handler? : ServerEvent → Option ℕ
  | .request .. | .pipeline _ => none
  | .validated i | .authorized i _ | .built i _ _ | .settled i | .responded i _ _ _ => some i

namespace BroadcastServer

/-- The promises of the requests whose transactions were queued. -/
def pendingCommits (handlers : List RequestHandler) : List ℕ :=
  handlers.filterMap RequestHandler.pendingCommit

/-- The response is the one to the request of its handler, whose stage is `done`. -/
def Answers (env : Env) (wallet : Wallet) (p : Pipeline) (handlers : List RequestHandler)
    (a : Answer) : Prop :=
  ∃ h, handlers[a.handler]? = some h ∧ h.stage = .done ∧ a.connection = h.connection ∧
    ∃ outcome now nonce, h.Justifies env wallet p outcome ∧
      NetworkMessageDirector.buildBroadcastTransactionResponse env wallet now nonce h.message.id
        networkCapabilities outcome.resultCode outcome.proof outcome.timestamp =
          some (a.message, a.signature)

/-- What holds of a validator in every run. Each item that is accepted is that of one request. -/
structure Sound (env : Env) (wallet : Wallet) (txPoolSize : ℕ) (s : BroadcastServer) : Prop where
  pipeline : s.pipeline.Reached txPoolSize
  handlers : ∀ h ∈ s.handlers, h.SoundAt env wallet s.pipeline h.stage
  promises : (pendingCommits s.handlers).Perm (s.pipeline.accepted.map Prod.fst)
  sent : ∀ a ∈ s.sent, Answers env wallet s.pipeline s.handlers a
  once : (s.sent.map Answer.handler).Nodup
  finished : ∀ (i : ℕ) (h : RequestHandler), s.handlers[i]? = some h → h.stage = .done →
    i ∈ s.sent.map Answer.handler ∨ i ∈ s.ended

theorem sound_init : init.Sound env wallet txPoolSize where
  pipeline := Pipeline.reached_init
  handlers := fun _ hmem => absurd hmem List.not_mem_nil
  promises := .nil
  sent := fun _ hmem => absurd hmem List.not_mem_nil
  once := List.nodup_nil
  finished := fun i _ hi => by simp [init] at hi

section

variable {α β : Type} {l : List α} {f : α → Option β} {i j : ℕ} {a b : α}

/-- The list around an item. -/
theorem exists_set (hi : l[i]? = some a) :
    ∃ l₁ l₂, l = l₁ ++ a :: l₂ ∧ ∀ b, l.set i b = l₁ ++ b :: l₂ := by
  obtain ⟨hlt, rfl⟩ := List.getElem?_eq_some_iff.mp hi
  refine ⟨l.take i, l.drop (i + 1), ?_,
    fun b => List.set_eq_take_append_cons_drop.trans (if_pos hlt)⟩
  rw [List.cons_getElem_drop_succ, List.take_append_drop]

theorem filterMap_set (hi : l[i]? = some a) (heq : f b = f a) :
    (l.set i b).filterMap f = l.filterMap f := by
  obtain ⟨l₁, l₂, rfl, hset⟩ := exists_set hi
  rw [hset]
  simp only [List.filterMap_append, List.filterMap_cons, heq]

/-- A value is that of one item. -/
theorem eq_of_nodup_filterMap (hnodup : (l.filterMap f).Nodup) {c : β} (hi : l[i]? = some a)
    (hj : l[j]? = some b) (ha : f a = some c) (hb : f b = some c) : i = j := by
  obtain ⟨hlt, rfl⟩ := List.getElem?_eq_some_iff.mp hi
  obtain ⟨hlt', rfl⟩ := List.getElem?_eq_some_iff.mp hj
  have hpairwise := List.pairwise_iff_getElem.mp (List.pairwise_filterMap.mp hnodup)
  obtain hij | heq | hij := Nat.lt_trichotomy i j
  · exact absurd rfl (hpairwise i j hlt hlt' hij c ha c hb)
  · exact heq
  · exact absurd rfl (hpairwise j i hlt' hlt hij c hb c ha)

end

section

variable {handlers : List RequestHandler} {i : ℕ} {h h' : RequestHandler}

theorem pendingCommits_set_some (hi : handlers[i]? = some h) (hnone : h.pendingCommit = none)
    {promise : ℕ} (hsome : h'.pendingCommit = some promise) :
    (pendingCommits (handlers.set i h')).Perm (pendingCommits handlers ++ [promise]) := by
  obtain ⟨l₁, l₂, rfl, hset⟩ := exists_set hi
  rw [hset]
  simp only [pendingCommits, List.filterMap_append, List.filterMap_cons, hnone, hsome,
    List.append_assoc]
  exact .append_left _ (@List.perm_append_comm _ [promise] _)

theorem mem_set (hh' : h' ∈ handlers.set i h) : h' = h ∨ h' ∈ handlers :=
  (List.mem_or_eq_of_mem_set hh').symm

end

theorem Answers.mono {p p' : Pipeline} {handlers handlers' : List RequestHandler} {a : Answer}
    (h : Answers env wallet p handlers a) (hgrows : p.Grows p') (hsound : p.commits.Sound)
    (hkept : ∀ h : RequestHandler, h.stage = .done → handlers[a.handler]? = some h →
      handlers'[a.handler]? = some h) : Answers env wallet p' handlers' a := by
  obtain ⟨h, hh, hdone, hconnection, outcome, now, nonce, hjustifies, hbuild⟩ := h
  exact ⟨h, hkept h hdone hh, hdone, hconnection, outcome, now, nonce,
    hjustifies.mono hgrows hsound, hbuild⟩

theorem Answers.id_eq {p : Pipeline} {handlers : List RequestHandler} {a : Answer}
    {h : RequestHandler} (ha : Answers env wallet p handlers a)
    (hh : handlers[a.handler]? = some h) : a.message.id = h.message.id := by
  obtain ⟨h', hh', -, -, outcome, now, nonce, -, hbuild⟩ := ha
  cases hh.symm.trans hh'
  obtain ⟨-, -, hbuild⟩ :=
    NetworkMessageDirector.buildBroadcastTransactionResponse_eq_some.mp hbuild
  obtain ⟨-, -, hmessage, -⟩ := NetworkMessageDirector.buildPayload_eq_some.mp hbuild
  rw [hmessage]

namespace Sound

variable {s : BroadcastServer} {i : ℕ} {h h' : RequestHandler} {p' : Pipeline}

/-- The pipeline goes on and accepts nothing. -/
theorem withPipeline (hs : s.Sound env wallet txPoolSize) (hp' : p'.Reached txPoolSize)
    (hgrows : s.pipeline.Grows p') (haccepted : p'.accepted = s.pipeline.accepted) :
    { s with pipeline := p' : BroadcastServer }.Sound env wallet txPoolSize where
  pipeline := hp'
  handlers := fun h hh => (hs.handlers h hh).mono hgrows hs.pipeline.commits
  promises := haccepted ▸ hs.promises
  sent := fun a ha => (hs.sent a ha).mono hgrows hs.pipeline.commits fun _ _ hh => hh
  once := hs.once
  finished := hs.finished

/-- A new request has no commit. -/
theorem append (hs : s.Sound env wallet txPoolSize) (hnone : h.pendingCommit = none)
    (hsound : h.SoundAt env wallet s.pipeline h.stage) (hdone : h.stage ≠ .done) :
    { s with handlers := s.handlers ++ [h] : BroadcastServer }.Sound env wallet txPoolSize where
  pipeline := hs.pipeline
  handlers := by
    intro h' hh'
    obtain hh' | hh' := List.mem_append.mp hh'
    · exact hs.handlers h' hh'
    · cases List.mem_singleton.mp hh'
      exact hsound
  promises := by
    simp only [pendingCommits, List.filterMap_append, List.filterMap_cons, hnone,
      List.filterMap_nil, List.append_nil]
    exact hs.promises
  sent := by
    intro a ha
    refine (hs.sent a ha).mono (.refl _) hs.pipeline.commits fun h' _ hh' => ?_
    rw [List.getElem?_append_left (List.getElem?_eq_some_iff.mp hh').1]
    exact hh'
  once := hs.once
  finished := by
    intro j h' hj hdone'
    rw [List.getElem?_append] at hj
    split at hj
    case isTrue => exact hs.finished j h' hj hdone'
    case isFalse =>
      have hmem := List.mem_of_getElem? hj
      cases List.mem_singleton.mp hmem
      exact absurd hdone' hdone

/-- A handler goes on, with what the pipeline accepts. -/
theorem set (hs : s.Sound env wallet txPoolSize) (hi : s.handlers[i]? = some h)
    (hdone : h.stage ≠ .done) (hp' : p'.Reached txPoolSize) (hgrows : s.pipeline.Grows p')
    (hsound : h'.SoundAt env wallet p' h'.stage) (hdone' : h'.stage ≠ .done)
    (hpromises : (pendingCommits (s.handlers.set i h')).Perm
      (p'.accepted.map Prod.fst)) :
    { s with pipeline := p', handlers := s.handlers.set i h' : BroadcastServer }.Sound env wallet
      txPoolSize where
  pipeline := hp'
  handlers := by
    intro h'' hh''
    obtain rfl | hh'' := mem_set hh''
    · exact hsound
    · exact (hs.handlers h'' hh'').mono hgrows hs.pipeline.commits
  promises := hpromises
  sent := by
    intro a ha
    refine (hs.sent a ha).mono hgrows hs.pipeline.commits fun h'' hh'' hget => ?_
    rw [List.getElem?_set_ne]
    · exact hget
    · rintro rfl
      cases hi.symm.trans hget
      exact hdone hh''
  once := hs.once
  finished := by
    intro j h'' hj hdone''
    by_cases heq : i = j
    · subst heq
      rw [List.getElem?_set_self (List.getElem?_eq_some_iff.mp hi).1] at hj
      cases hj
      exact absurd hdone'' hdone'
    · rw [List.getElem?_set_ne heq] at hj
      exact hs.finished j h'' hj hdone''

theorem setStage (hs : s.Sound env wallet txPoolSize) (hi : s.handlers[i]? = some h)
    (hdone : h.stage ≠ .done) {stage : HandlerStage} (hdone' : stage ≠ .done)
    (hsound : { h with stage : RequestHandler }.SoundAt env wallet s.pipeline stage) :
    (s.setStage i h stage).Sound env wallet txPoolSize := by
  refine hs.set hi hdone hs.pipeline (.refl _) hsound hdone' ?_
  rw [pendingCommits, @filterMap_set _ _ _ _ _ h { h with stage } hi rfl]
  exact hs.promises

theorem fail (hs : s.Sound env wallet txPoolSize) (hi : s.handlers[i]? = some h)
    (hdone : h.stage ≠ .done) (hnone : h.pendingCommit = none) {error : HandlerError}
    (herror : error.Refuses) : (s.fail i h error).Sound env wallet txPoolSize :=
  hs.setStage hi hdone (by simp) (.refused hnone herror.refused)

/-- Either the transaction is queued, or the request fails. -/
theorem dispatch (hs : s.Sound env wallet txPoolSize) (hi : s.handlers[i]? = some h)
    (hdone : h.stage ≠ .done) (hnone : h.pendingCommit = none) (hvalid : h.Valid env)
    {type : OperationType} {op : Operation} {nonce tx encodedTx : Buffer}
    (hdecode : decodeRequest env h.data = .ok (type, op))
    (hbuild : buildTransaction env wallet type op none nonce = .ok (tx, encodedTx)) :
    (s.dispatch txPoolSize i h tx encodedTx).Sound env wallet txPoolSize := by
  have hstep : s.pipeline.step txPoolSize (.dispatch tx encodedTx) =
      some (s.pipeline.dispatchTransaction txPoolSize tx encodedTx) := rfl
  have hreached := hs.pipeline.step hstep
  have hgrows := Pipeline.step_grows hs.pipeline.toSound hstep
  unfold BroadcastServer.dispatch
  cases herror : s.pipeline.dispatchError txPoolSize tx encodedTx with
  | some error =>
    refine (hs.withPipeline hreached hgrows ?_).fail hi hdone hnone
      (Pipeline.dispatchError_refuses herror)
    obtain heq | ⟨txHash, error', -, heq⟩ := Pipeline.dispatchTransaction_of_some herror <;> rw [heq]
  | none =>
    obtain ⟨txHash, pool, hhash, heq⟩ := Pipeline.dispatchTransaction_of_none herror
    have haccepted := congrArg Pipeline.accepted heq
    refine hs.set hi hdone hreached hgrows ⟨s.pipeline.commits.nextId, hvalid, rfl,
      { txHash, encodedTx }, ?_, type, op, nonce, tx, hdecode, hbuild, hhash⟩ (by simp) ?_
    · rw [haccepted]
      exact List.mem_append_right _ List.mem_cons_self
    · rw [haccepted, List.map_append]
      exact (pendingCommits_set_some hi hnone rfl).trans (hs.promises.append_right _)

/-- A handler is done, with an answer or the end of its connection. -/
theorem finish (hs : s.Sound env wallet txPoolSize) (hi : s.handlers[i]? = some h)
    {outcome : RequestOutcome} (hstage : h.stage = .responding outcome) {answers : List Answer}
    (hanswers : answers = [] ∨ ∃ a, answers = [a] ∧ a.handler = i ∧
      Answers env wallet s.pipeline (s.setStage i h .done).handlers a) {ended : List ℕ}
    (hended : s.ended ⊆ ended) (hfinished : answers = [] → i ∈ ended) :
    { s.setStage i h .done with sent := s.sent ++ answers, ended }.Sound env wallet txPoolSize := by
  have hlt := (List.getElem?_eq_some_iff.mp hi).1
  have hjustifies := hstage ▸ hs.handlers h (List.mem_of_getElem? hi)
  have hfresh : i ∉ s.sent.map Answer.handler := by
    intro hmem
    obtain ⟨a, ha, rfl⟩ := List.mem_map.mp hmem
    obtain ⟨h', hh', hdone, -⟩ := hs.sent a ha
    cases hi.symm.trans hh'
    simp [hstage] at hdone
  constructor
  · exact hs.pipeline
  · intro h' hh'
    obtain rfl | hh' := mem_set hh'
    · exact ⟨outcome, hjustifies.setStage _⟩
    · exact hs.handlers h' hh'
  · rw [pendingCommits, BroadcastServer.setStage,
      @filterMap_set _ _ _ _ _ h { h with stage := .done } hi rfl]
    exact hs.promises
  · intro a ha
    obtain ha | ha := List.mem_append.mp ha
    · refine (hs.sent a ha).mono (.refl _) hs.pipeline.commits fun h' _ hget => ?_
      have hne : i ≠ a.handler := fun heq => hfresh (heq ▸ List.mem_map_of_mem ha)
      exact (List.getElem?_set_ne hne).trans hget
    · obtain rfl | ⟨a', rfl, -, hanswer⟩ := hanswers
      · exact absurd ha List.not_mem_nil
      · cases List.mem_singleton.mp ha
        exact hanswer
  · rw [List.map_append]
    refine hs.once.append ?_ ?_
    · obtain rfl | ⟨a, rfl, -⟩ := hanswers
      · exact List.nodup_nil
      · exact List.nodup_singleton _
    · obtain rfl | ⟨a, rfl, rfl, -⟩ := hanswers
      · exact List.disjoint_nil_right _
      · simpa using hfresh
  · intro j h' hj hdone
    rw [List.map_append, List.mem_append]
    by_cases heq : i = j
    · subst heq
      obtain rfl | ⟨a, rfl, rfl, -⟩ := hanswers
      · exact .inr (hfinished rfl)
      · exact .inl (.inr List.mem_cons_self)
    · rw [BroadcastServer.setStage, List.getElem?_set_ne heq] at hj
      obtain hmem | hmem := hs.finished j h' hj hdone
      · exact .inl (.inl hmem)
      · exact .inr (hended hmem)

/-- The response is sent or the connection is ended. -/
theorem respond (hs : s.Sound env wallet txPoolSize) (hi : s.handlers[i]? = some h)
    {outcome : RequestOutcome} (hstage : h.stage = .responding outcome) {now : ℕ}
    {nonce : Buffer} {sent : Bool} :
    (s.respond env wallet i h outcome now nonce sent).Sound env wallet txPoolSize := by
  have hlt := (List.getElem?_eq_some_iff.mp hi).1
  have hjustifies := hstage ▸ hs.handlers h (List.mem_of_getElem? hi)
  unfold BroadcastServer.respond
  dsimp only
  split
  case h_1 message signature hbuild =>
    let answer : Answer := { handler := i, connection := h.connection, message, signature }
    refine hs.finish hi hstage (.inr ⟨answer, rfl, rfl, { h with stage := .done },
      List.getElem?_set_self hlt, rfl, rfl, outcome, now, nonce, hjustifies.setStage _, hbuild⟩)
      ?_ (by simp)
    split
    · exact List.subset_append_left _ _
    · exact List.Subset.refl _
  case h_2 =>
    have hfinish := @finish env wallet txPoolSize s i h hs hi outcome hstage [] (.inl rfl)
      (s.ended ++ [i]) (List.subset_append_left _ _) fun _ =>
        List.mem_append_right _ List.mem_cons_self
    rwa [List.append_nil] at hfinish

end Sound

variable {s s' : BroadcastServer} {e : ServerEvent}

/-- The worker, the append and the timers accept nothing. -/
theorem step_pipeline_eq_some {event : PipelineEvent}
    (hstep : s.step env wallet txPoolSize (.pipeline event) = some s') :
    ∃ p', s.pipeline.step txPoolSize event = some p' ∧ p'.accepted = s.pipeline.accepted ∧
      s' = { s with pipeline := p' } := by
  cases event with
  | dispatch tx encodedTx => cases hstep
  | work canValidate =>
    obtain ⟨p', hp', heq⟩ := Option.bind_eq_some_iff.mp hstep
    refine ⟨p', hp', ?_, (Option.some.inj heq).symm⟩
    simp only [Pipeline.step, Option.bind_eq_bind, Option.bind_eq_some_iff, Option.guard_eq_some',
      exists_const, Option.pure_def, Option.some.injEq] at hp'
    obtain ⟨-, rfl⟩ := hp'
    unfold Pipeline.prepare
    split <;> rfl
  | appended length snapshot timestamp =>
    obtain ⟨p', hp', heq⟩ := Option.bind_eq_some_iff.mp hstep
    refine ⟨p', hp', ?_, (Option.some.inj heq).symm⟩
    obtain ⟨batch, -, hp'⟩ := Option.bind_eq_some_iff.mp hp'
    cases hp'
    rfl
  | appendFailed =>
    obtain ⟨p', hp', heq⟩ := Option.bind_eq_some_iff.mp hstep
    refine ⟨p', hp', ?_, (Option.some.inj heq).symm⟩
    obtain ⟨batch, -, hp'⟩ := Option.bind_eq_some_iff.mp hp'
    cases hp'
    rfl
  | timeout timer =>
    obtain ⟨p', hp', heq⟩ := Option.bind_eq_some_iff.mp hstep
    refine ⟨p', hp', ?_, (Option.some.inj heq).symm⟩
    obtain ⟨commits, -, hp'⟩ := Option.bind_eq_some_iff.mp hp'
    cases hp'
    rfl

theorem step_sound (hs : s.Sound env wallet txPoolSize)
    (hstep : s.step env wallet txPoolSize e = some s') : s'.Sound env wallet txPoolSize := by
  cases e with
  | request connection remotePublicKey message signature limited =>
    simp only [step, Option.bind_eq_bind, Option.bind_eq_some_iff, Option.guard_eq_some',
      exists_const, Option.pure_def, Option.some.injEq] at hstep
    obtain ⟨-, rfl⟩ := hstep
    cases limited with
    | true =>
      have hrefuses : (HandlerError.protocol resultCodeRateLimited 0).Refuses :=
        ⟨by decide, by decide, by decide⟩
      exact hs.append rfl (.refused rfl hrefuses.refused) (by simp)
    | false => exact hs.append rfl rfl (by simp)
  | validated i =>
    simp only [step, Option.bind_eq_bind, Option.bind_eq_some_iff, Option.guard_eq_some',
      exists_const, Option.pure_def] at hstep
    obtain ⟨h, hi, hstage, hstep⟩ := hstep
    have hsound := hstage ▸ hs.handlers h (List.mem_of_getElem? hi)
    have hdone : h.stage ≠ .done := by simp [hstage]
    split at hstep
    case h_1 error herror =>
      cases hstep
      exact hs.fail hi hdone hsound (BroadcastTransactionRequest.refuses herror)
    case h_2 hvalid =>
      cases hstep
      exact hs.setStage hi hdone (by simp) ⟨hsound, hvalid⟩
  | authorized i canValidate =>
    simp only [step, Option.bind_eq_bind, Option.bind_eq_some_iff, Option.guard_eq_some',
      exists_const, Option.pure_def] at hstep
    obtain ⟨h, hi, hstage, hstep⟩ := hstep
    obtain ⟨hnone, hvalid⟩ := hstage ▸ hs.handlers h (List.mem_of_getElem? hi)
    have hdone : h.stage ≠ .done := by simp [hstage]
    cases canValidate with
    | false =>
      cases hstep
      exact hs.fail hi hdone hnone ⟨by decide, by decide, by decide⟩
    | true =>
      cases hstep
      unfold decodeTransaction
      split
      case h_1 error herror =>
        exact hs.fail hi hdone hnone (validateTxPoolAvailability_refuses herror)
      case h_2 =>
        split
        case h_1 error herror =>
          exact hs.fail hi hdone hnone (decodeRequest_refuses herror)
        case h_2 type decodedTransaction hdecode =>
          exact hs.setStage hi hdone (by simp) ⟨hnone, hvalid, hdecode⟩
  | built i rejection nonce =>
    simp only [step, Option.bind_eq_bind, Option.bind_eq_some_iff, Option.pure_def] at hstep
    obtain ⟨h, hi, hstep⟩ := hstep
    split at hstep
    case h_1 type decodedTransaction hstage =>
      obtain ⟨hnone, hvalid, hdecode⟩ := hstage ▸ hs.handlers h (List.mem_of_getElem? hi)
      have hdone : h.stage ≠ .done := by simp [hstage]
      obtain ⟨error, hbuild, herror⟩ | ⟨rfl, tx, encodedTx, hbuild⟩ :=
        @buildTransaction_cases env wallet type decodedTransaction rejection nonce
      · rw [hbuild] at hstep
        cases hstep
        exact hs.fail hi hdone hnone herror
      · rw [hbuild] at hstep
        cases hstep
        exact hs.dispatch hi hdone hnone hvalid hdecode hbuild
    case h_2 => cases hstep
  | pipeline event =>
    obtain ⟨p', hp', haccepted, rfl⟩ := step_pipeline_eq_some hstep
    exact hs.withPipeline (hs.pipeline.step hp')
      (Pipeline.step_grows hs.pipeline.toSound hp') haccepted
  | settled i =>
    simp only [step, Option.bind_eq_bind, Option.bind_eq_some_iff, Option.guard_eq_some',
      exists_const, Option.pure_def, Option.some.injEq] at hstep
    obtain ⟨h, hi, hstage, promise, hpromise, settlement, hsettlement, rfl⟩ := hstep
    obtain ⟨promise', hqueued⟩ := hstage ▸ hs.handlers h (List.mem_of_getElem? hi)
    cases hqueued.pendingCommit.symm.trans hpromise
    exact hs.setStage hi (by simp [hstage]) (by simp)
      (.settled promise settlement (hqueued.setStage _) hsettlement rfl)
  | responded i now nonce sent =>
    simp only [step, Option.bind_eq_bind, Option.bind_eq_some_iff, Option.pure_def] at hstep
    obtain ⟨h, hi, hstep⟩ := hstep
    split at hstep
    case h_1 outcome hstage =>
      cases hstep
      exact hs.respond hi hstage
    case h_2 => cases hstep

/-! ### Pending commits -/

/-- The handler awaits the promise. -/
def Awaits (s : BroadcastServer) (promise i : ℕ) : Prop :=
  ∃ h, s.handlers[i]? = some h ∧ h.stage = .committing ∧ h.pendingCommit = some promise

theorem Sound.eq_of_pendingCommit (hs : s.Sound env wallet txPoolSize) {i j promise : ℕ}
    {h h' : RequestHandler} (hi : s.handlers[i]? = some h) (hj : s.handlers[j]? = some h')
    (hh : h.pendingCommit = some promise) (hh' : h'.pendingCommit = some promise) : i = j := by
  have hnodup : (pendingCommits s.handlers).Nodup :=
    hs.promises.nodup_iff.mpr hs.pipeline.toSound.promises
  exact eq_of_nodup_filterMap hnodup hi hj hh hh'

/-- A handler whose commit is not settled awaits it. -/
theorem Sound.awaits (hs : s.Sound env wallet txPoolSize) {i promise : ℕ} {h : RequestHandler}
    (hi : s.handlers[i]? = some h) (hpending : h.pendingCommit = some promise)
    (hnone : s.pipeline.commits.settlement promise = none) : s.Awaits promise i := by
  have hunjustified : ∀ outcome, ¬h.Justifies env wallet s.pipeline outcome := by
    intro outcome hjustifies
    cases hjustifies with
    | refused hnone' _ => cases hnone'.symm.trans hpending
    | settled promise' settlement hqueued hsettled _ =>
      cases hqueued.pendingCommit.symm.trans hpending
      cases hnone.symm.trans hsettled
  have hsound := hs.handlers h (List.mem_of_getElem? hi)
  refine ⟨h, hi, ?_, hpending⟩
  cases hstage : h.stage with
  | committing => rfl
  | validating =>
    rw [hstage] at hsound
    cases Eq.trans (Eq.symm hsound) hpending
  | authorizing =>
    rw [hstage] at hsound
    cases hsound.1.symm.trans hpending
  | building type decodedTransaction =>
    rw [hstage] at hsound
    cases hsound.1.symm.trans hpending
  | responding outcome =>
    rw [hstage] at hsound
    exact absurd hsound (hunjustified outcome)
  | done =>
    rw [hstage] at hsound
    obtain ⟨outcome, hjustifies⟩ := hsound
    exact absurd hjustifies (hunjustified outcome)

/-- A pending commit is awaited by one handler. -/
theorem Sound.awaited (hs : s.Sound env wallet txPoolSize) {x : Entry TxHash Unit}
    (hx : x ∈ s.pipeline.commits.entries) : ∃! i, s.Awaits x.promise i := by
  obtain ⟨item, -, -, haccepted⟩ := hs.pipeline.pending x hx
  have hmem := hs.promises.mem_iff.mpr (List.mem_map_of_mem haccepted)
  obtain ⟨h, hh, hpending⟩ := List.mem_filterMap.mp hmem
  obtain ⟨i, hi⟩ := List.mem_iff_getElem?.mp hh
  refine ⟨i, hs.awaits hi hpending (hs.pipeline.commits.pending x hx).2, ?_⟩
  rintro j ⟨h', hj, -, hpending'⟩
  exact hs.eq_of_pendingCommit hj hi hpending' hpending

/-- What a handler awaits is settled, or its commit is pending with a timer. -/
theorem Sound.armed (hs : s.Sound env wallet txPoolSize) {promise i : ℕ}
    (h : s.Awaits promise i) (hnone : s.pipeline.commits.settlement promise = none) :
    ∃ x ∈ s.pipeline.commits.entries, x.promise = promise ∧ x.Armed s.pipeline.commits := by
  obtain ⟨h, hi, -, hpending⟩ := h
  have hmem : promise ∈ pendingCommits s.handlers :=
    List.mem_filterMap.mpr ⟨h, List.mem_of_getElem? hi, hpending⟩
  obtain ⟨a, ha, rfl⟩ := List.mem_map.mp (hs.promises.mem_iff.mp hmem)
  have hlt := hs.pipeline.accepted_lt a ha
  obtain ⟨x, hx, hpromise⟩ := (hs.pipeline.moves.exact.unsettled_iff a.1 hlt).mp hnone
  refine ⟨x, hx, hpromise, hs.pipeline.commits.armed hx fun htimeout => ?_⟩
  exact (hs.pipeline.moves.mem_or_stops hx htimeout).elim (fun h => absurd h List.not_mem_nil) id

/-! ### Receipts -/

/-- The step dispatches no transaction that is being appended, unless its commit is pending. -/
def Admits (env : Env) (wallet : Wallet) (txPoolSize : ℕ) (s : BroadcastServer) :
    ServerEvent → Prop
  | .built i rejection nonce =>
    ∀ (h : RequestHandler) (type : OperationType) (op : Operation) (tx encodedTx : Buffer),
      s.handlers[i]? = some h → h.stage = .building type op →
      buildTransaction env wallet type op rejection nonce = .ok (tx, encodedTx) →
      s.pipeline.Admits txPoolSize (.dispatch tx encodedTx)
  | _ => True

/-- What an event does: a request arrives, the pipeline goes on by itself, or a handler goes on, which
may dispatch what it has built. -/
inductive Effect (env : Env) (wallet : Wallet) (txPoolSize : ℕ) (s : BroadcastServer) :
    ServerEvent → BroadcastServer → Prop
  | arrives (connection : ℕ) (remotePublicKey : Buffer) (message : NetworkMessage)
    (signature : Buffer) (limited : Bool) (h : RequestHandler)
    (hsame : h.remotePublicKey = remotePublicKey ∧ h.message = message ∧ h.signature = signature) :
    Effect env wallet txPoolSize s
      (.request connection remotePublicKey message signature limited)
      { s with handlers := s.handlers ++ [h] }
  | works (event : PipelineEvent) (p' : Pipeline)
    (hstep : s.pipeline.step txPoolSize event = some p')
    (hadmits : s.pipeline.Admits txPoolSize event) :
    Effect env wallet txPoolSize s (.pipeline event) { s with pipeline := p' }
  | advances (e : ServerEvent) (s' : BroadcastServer) (i : ℕ) (h h' : RequestHandler)
    (he : e.handler? = some i) (hi : s.handlers[i]? = some h)
    (hhandlers : s'.handlers = s.handlers.set i h') (hstage : h'.stage.rank < h.stage.rank)
    (hsame : h'.remotePublicKey = h.remotePublicKey ∧ h'.message = h.message ∧
      h'.signature = h.signature) (hsent : s.sent ⊆ s'.sent)
    (hpipeline : s'.pipeline = s.pipeline ∨
      ∃ event, s.pipeline.step txPoolSize event = some s'.pipeline ∧
        (s.Admits env wallet txPoolSize e → s.pipeline.Admits txPoolSize event)) :
    Effect env wallet txPoolSize s e s'

theorem effect_setStage {i : ℕ} {h : RequestHandler} {stage : HandlerStage}
    (he : e.handler? = some i) (hi : s.handlers[i]? = some h) (hstage : stage.rank < h.stage.rank) :
    Effect env wallet txPoolSize s e (s.setStage i h stage) :=
  .advances _ _ i h _ he hi rfl hstage ⟨rfl, rfl, rfl⟩ (List.Subset.refl _) (.inl rfl)

theorem step_effect (hstep : s.step env wallet txPoolSize e = some s') :
    Effect env wallet txPoolSize s e s' := by
  cases e with
  | request connection remotePublicKey message signature limited =>
    simp only [step, Option.bind_eq_bind, Option.bind_eq_some_iff, Option.guard_eq_some',
      exists_const, Option.pure_def, Option.some.injEq] at hstep
    obtain ⟨-, rfl⟩ := hstep
    exact .arrives connection remotePublicKey message signature limited _ ⟨rfl, rfl, rfl⟩
  | validated i =>
    simp only [step, Option.bind_eq_bind, Option.bind_eq_some_iff, Option.guard_eq_some',
      exists_const, Option.pure_def] at hstep
    obtain ⟨h, hi, hstage, hstep⟩ := hstep
    split at hstep <;> cases hstep <;>
      exact effect_setStage rfl hi (by simp [hstage, HandlerStage.rank])
  | authorized i canValidate =>
    simp only [step, Option.bind_eq_bind, Option.bind_eq_some_iff, Option.guard_eq_some',
      exists_const, Option.pure_def] at hstep
    obtain ⟨h, hi, hstage, hstep⟩ := hstep
    cases canValidate with
    | false =>
      cases hstep
      exact effect_setStage rfl hi (by simp [hstage, HandlerStage.rank])
    | true =>
      cases hstep
      unfold decodeTransaction
      split
      · exact effect_setStage rfl hi (by simp [hstage, HandlerStage.rank])
      · split <;> exact effect_setStage rfl hi (by simp [hstage, HandlerStage.rank])
  | built i rejection nonce =>
    simp only [step, Option.bind_eq_bind, Option.bind_eq_some_iff, Option.pure_def] at hstep
    obtain ⟨h, hi, hstep⟩ := hstep
    split at hstep
    case h_1 type decodedTransaction hstage =>
      split at hstep
      case h_1 =>
        cases hstep
        exact effect_setStage rfl hi (by simp [hstage, HandlerStage.rank])
      case h_2 tx encodedTx hbuild =>
        cases hstep
        have hadmits : s.Admits env wallet txPoolSize (.built i rejection nonce) →
            s.pipeline.Admits txPoolSize (.dispatch tx encodedTx) :=
          fun hadmits => hadmits h type decodedTransaction tx encodedTx hi hstage hbuild
        unfold dispatch
        dsimp only
        split <;>
          exact .advances _ _ i h _ rfl hi rfl (by simp [hstage, HandlerStage.rank])
            ⟨rfl, rfl, rfl⟩ (List.Subset.refl _) (.inr ⟨_, rfl, hadmits⟩)
    case h_2 => cases hstep
  | pipeline event =>
    have hadmits : s.pipeline.Admits txPoolSize event := by
      cases event with
      | dispatch tx encodedTx => cases hstep
      | _ => trivial
    obtain ⟨p', hp', -, rfl⟩ := step_pipeline_eq_some hstep
    exact .works event p' hp' hadmits
  | settled i =>
    simp only [step, Option.bind_eq_bind, Option.bind_eq_some_iff, Option.guard_eq_some',
      exists_const, Option.pure_def, Option.some.injEq] at hstep
    obtain ⟨h, hi, hstage, promise, hpromise, settlement, hsettlement, rfl⟩ := hstep
    exact effect_setStage rfl hi (by simp [hstage, HandlerStage.rank])
  | responded i now nonce sent =>
    simp only [step, Option.bind_eq_bind, Option.bind_eq_some_iff, Option.pure_def] at hstep
    obtain ⟨h, hi, hstep⟩ := hstep
    split at hstep
    case h_1 outcome hstage =>
      cases hstep
      unfold respond
      dsimp only
      split
      · exact .advances _ _ i h _ rfl hi rfl (by simp [hstage, HandlerStage.rank])
          ⟨rfl, rfl, rfl⟩ (List.subset_append_left _ _) (.inl rfl)
      · exact .advances _ _ i h _ rfl hi rfl (by simp [hstage, HandlerStage.rank])
          ⟨rfl, rfl, rfl⟩ (List.Subset.refl _) (.inl rfl)
    case h_2 => cases hstep

theorem Effect.pipeline (h : Effect env wallet txPoolSize s e s') :
    s'.pipeline = s.pipeline ∨ ∃ event, s.pipeline.step txPoolSize event = some s'.pipeline ∧
      (s.Admits env wallet txPoolSize e → s.pipeline.Admits txPoolSize event) := by
  cases h with
  | arrives => exact .inl rfl
  | works event p' hstep hadmits => exact .inr ⟨event, hstep, fun _ => hadmits⟩
  | advances => assumption

/-- While no transaction is dispatched that is being appended, the pipeline has each one once. -/
theorem step_once (h : s.pipeline.Once txPoolSize)
    (hstep : s.step env wallet txPoolSize e = some s')
    (hadmits : s.Admits env wallet txPoolSize e) : s'.pipeline.Once txPoolSize := by
  obtain heq | ⟨event, hevent, himp⟩ := (step_effect hstep).pipeline
  · rwa [heq]
  · exact (Pipeline.step_once_iff h hevent).mpr (himp hadmits)

end BroadcastServer

/-- A rejected commit is not answered as a success. -/
theorem ne_ok_of_rejected {error : CommitError} (h : Pipeline.Reported error) :
    (CommitSettlement.rejected error).toOutcome.resultCode ≠ resultCodeOk := by
  cases error with
  | enqueue resultCode =>
    obtain rfl | rfl := h resultCode rfl <;> decide
  | _ => exact of_decide_eq_true rfl

/-- A promise is that of one item. -/
theorem Pipeline.Sound.eq_of_accepted {p : Pipeline} (h : p.Sound txPoolSize) {promise : ℕ}
    {item item' : PoolItem} (hitem : (promise, item) ∈ p.accepted)
    (hitem' : (promise, item') ∈ p.accepted) : item = item' :=
  congrArg Prod.snd (List.inj_on_of_nodup_map h.promises hitem hitem' rfl)

/-- The item of a request is committed, with a receipt from its append. -/
structure RequestHandler.Committed (env : Env) (wallet : Wallet) (p : Pipeline)
    (h : RequestHandler) (item : PoolItem) (receipt : Receipt) : Prop where
  valid : h.Valid env
  completes : Completes env wallet h.data item
  accepted : ∃ promise, h.pendingCommit = some promise ∧ (promise, item) ∈ p.accepted ∧
    p.commits.settlement promise = some (.resolved receipt)
  appended : p.Appended receipt
  txHash : receipt.txHash = item.txHash

namespace BroadcastServer

variable {s : BroadcastServer}

/-- What is answered as a success is committed. -/
theorem Sound.committed (hs : s.Sound env wallet txPoolSize) {a : Answer} (ha : a ∈ s.sent)
    {nonce proof : Buffer} {timestamp : ℕ} (hpayload : a.message.payload =
      .broadcastTransactionResponse nonce proof timestamp resultCodeOk) :
    ∃ h item receipt, s.handlers[a.handler]? = some h ∧
      h.Committed env wallet s.pipeline item receipt ∧ receipt.proof = some proof ∧
      receipt.timestamp = timestamp := by
  obtain ⟨h, hh, -, -, outcome, now, nonce', hjustifies, hbuild⟩ := hs.sent a ha
  obtain ⟨-, -, hbuild⟩ :=
    NetworkMessageDirector.buildBroadcastTransactionResponse_eq_some.mp hbuild
  obtain ⟨-, -, hmessage, -⟩ := NetworkMessageDirector.buildPayload_eq_some.mp hbuild
  rw [hmessage] at hpayload
  obtain ⟨-, hproof, htimestamp, hcode⟩ :=
    NetworkPayload.broadcastTransactionResponse.inj hpayload
  cases hjustifies with
  | refused _ hrefused => exact absurd hcode hrefused.ne_ok
  | settled promise settlement hqueued hsettled houtcome =>
    subst houtcome
    have hmem := mem_settlements_of_settlement hsettled
    cases settlement with
    | rejected error =>
      exact absurd hcode (ne_ok_of_rejected (hs.pipeline.errors promise error hmem))
    | resolved receipt =>
      obtain ⟨hvalid, hpending, item, hitem, hcompletes⟩ := hqueued
      obtain ⟨happended, item', hitem', htxHash⟩ := hs.pipeline.receipts promise receipt hmem
      obtain rfl := hs.pipeline.toSound.eq_of_accepted hitem' hitem
      refine ⟨h, item', receipt, hh, ⟨hvalid, hcompletes, ⟨promise, hpending, hitem, hsettled⟩,
        happended, htxHash.symm⟩, ?_, htimestamp⟩
      obtain ⟨proof', hproof'⟩ := Option.isSome_iff_exists.mp happended.1
      rw [← hproof]
      simp [CommitSettlement.toOutcome, hproof']

end BroadcastServer

/-- In every run of a validator, each response is the one to a request, on its connection. No request
has two, and one that is done has one or its connection is ended. Each item that is accepted is that
of one request, whose checks have passed. A pending commit is awaited by exactly one request,
and what a request awaits is settled or has a timer. -/
theorem server_answers {es : List ServerEvent} {s : BroadcastServer}
    (hrun : Machine.run (BroadcastServer.step env wallet txPoolSize) .init es = some s) :
    s.Sound env wallet txPoolSize ∧
      (∀ x ∈ s.pipeline.commits.entries, ∃! i, s.Awaits x.promise i) ∧
      ∀ promise i, s.Awaits promise i → (s.pipeline.commits.settlement promise).isSome ∨
        ∃ x ∈ s.pipeline.commits.entries, x.promise = promise ∧ x.Armed s.pipeline.commits := by
  have hs : s.Sound env wallet txPoolSize := Machine.run_invariant
    (fun _ _ _ h hstep _ => BroadcastServer.step_sound h hstep) BroadcastServer.sound_init
    Machine.along_true hrun
  refine ⟨hs, fun x hx => hs.awaited hx, fun promise i hawaits => ?_⟩
  cases hsettlement : s.pipeline.commits.settlement promise with
  | some o => exact .inl rfl
  | none => exact .inr (hs.armed hawaits hsettlement)

/-- In every run, a request that is answered with `OK` was signed by the peer of its connection, its
operation was completed and queued, and the proof is of the block that was appended for its hash. It
is the block of this very operation if no transaction is dispatched again while it is being
appended. -/
theorem server_receipts {es : List ServerEvent} {s : BroadcastServer}
    (hrun : Machine.run (BroadcastServer.step env wallet txPoolSize) .init es = some s)
    {a : Answer} (ha : a ∈ s.sent) {nonce proof : Buffer} {timestamp : ℕ}
    (hpayload : a.message.payload =
      .broadcastTransactionResponse nonce proof timestamp resultCodeOk) :
    ∃ h item receipt, s.handlers[a.handler]? = some h ∧
      h.Committed env wallet s.pipeline item receipt ∧ receipt.proof = some proof ∧
      receipt.timestamp = timestamp ∧
      (Machine.Along (BroadcastServer.step env wallet txPoolSize)
          (fun s e _ => s.Admits env wallet txPoolSize e) .init es →
        receipt.completeTx = item.encodedTx) := by
  have hs : s.Sound env wallet txPoolSize := Machine.run_invariant
    (fun _ _ _ h hstep _ => BroadcastServer.step_sound h hstep) BroadcastServer.sound_init
    Machine.along_true hrun
  obtain ⟨h, item, receipt, hh, hcommitted, hproof, htimestamp⟩ := hs.committed ha hpayload
  refine ⟨h, item, receipt, hh, hcommitted, hproof, htimestamp, fun hadmits => ?_⟩
  have hinit : BroadcastServer.init.pipeline.Once txPoolSize :=
    ⟨Pipeline.sound_init, fun _ hnone => (nomatch hnone), fun _ _ hmem => (nomatch hmem)⟩
  have honce : s.pipeline.Once txPoolSize := Machine.run_invariant
    (I := fun s => s.pipeline.Once txPoolSize)
    (fun _ _ _ h hstep hP => BroadcastServer.step_once h hstep hP) hinit hadmits hrun
  obtain ⟨promise, -, hitem, hsettled⟩ := hcommitted.accepted
  obtain ⟨batch, -, item', -, hitem', -, hcompleteTx⟩ := honce.receiptsMatch promise receipt
    (mem_settlements_of_settlement hsettled)
  rw [hcompleteTx, hs.pipeline.toSound.eq_of_accepted hitem' hitem]

namespace Sample

/-- The admin completes the transfer of Alice and appends it. -/
def payRun : List ServerEvent :=
  [.request 0 aliceKey payRequest (aliceNode.sign requestHash) false, .validated 0,
    .authorized 0 true, .built 0 none payAdminCompletion.vn, .pipeline (.work true),
    .pipeline (.appended 1 (fun _ => .proof [1]) 1763500001000), .settled 0,
    .responded 0 1763500001200 responseNonce true]

def payAnswer : Answer where
  handler := 0
  connection := 0
  message := payResponse
  signature := adminNode.sign responseHash

theorem run_payRun :
    (Machine.run (BroadcastServer.step messaging adminNode 1000) .init payRun).map (fun s =>
        (s.sent, s.ended, s.pipeline.accepted)) = some ([payAnswer], [], [(0, payAdminItem)]) := by
  decide +kernel

theorem server_answers_payRun :
    ∃ s, Machine.run (BroadcastServer.step messaging adminNode 1000) .init payRun = some s ∧
      s.sent = [payAnswer] ∧ s.Sound messaging adminNode 1000 := by
  obtain ⟨s, hrun, heq⟩ := Option.map_eq_some_iff.mp run_payRun
  exact ⟨s, hrun, (Prod.mk.inj heq).1, (server_answers hrun).1⟩

theorem server_receipts_payRun :
    ∃ s h item receipt, Machine.run (BroadcastServer.step messaging adminNode 1000) .init payRun =
        some s ∧ s.handlers[0]? = some h ∧
      h.Committed messaging adminNode s.pipeline item receipt ∧ receipt.proof = some [1] ∧
      receipt.timestamp = 1763500001000 := by
  obtain ⟨s, hrun, heq⟩ := Option.map_eq_some_iff.mp run_payRun
  have ha : payAnswer ∈ s.sent := by
    rw [(Prod.mk.inj heq).1]
    exact List.mem_cons_self
  obtain ⟨h, item, receipt, hh, hcommitted, hproof, htimestamp, -⟩ := server_receipts hrun ha rfl
  exact ⟨s, h, item, receipt, hrun, hh, hcommitted, hproof, htimestamp⟩

end Sample

end SettlementBus
