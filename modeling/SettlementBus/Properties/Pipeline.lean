import Mathlib.Data.Finset.Basic
import Mathlib.Data.Finset.Lattice.Lemmas
import SettlementBus.Network.Pool
import SettlementBus.Sample

/-! A transaction is in the pipeline of a validator at most once. -/

namespace SettlementBus

open Lib Pending TransactionCommitService

section

variable {txPoolSize : ℕ} {s s' : Pipeline} {e : PipelineEvent}

namespace Pipeline

/-- What has been accepted and not been appended yet. -/
def inFlight (s : Pipeline) : List PoolItem := s.pool.txPool ++ s.appending.getD []

/-- What holds of the queue, the batches and the pending commits in every run. -/
structure Sound (txPoolSize : ℕ) (s : Pipeline) : Prop where
  queuedTxHashes : s.pool.queuedTxHashes = (s.pool.txPool.map PoolItem.txHash).toFinset
  nodup : (s.pool.txPool.map PoolItem.txHash).Nodup
  length_le : s.pool.txPool.length ≤ txPoolSize
  batch_le : ∀ batch ∈ s.batches, batch.length ≤ batchSize
  batch_nodup : ∀ batch ∈ s.batches, (batch.map PoolItem.txHash).Nodup
  arrival : s.accepted.map Prod.snd = s.batches.flatten ++ s.pool.txPool
  appending : ∀ batch, s.appending = some batch → s.batches.getLast? = some batch
  commits : s.commits.Sound
  accepted_lt : ∀ a ∈ s.accepted, a.1 < s.commits.nextId
  promises : (s.accepted.map Prod.fst).Nodup
  pending : ∀ x ∈ s.commits.entries,
    ∃ item ∈ s.inFlight, item.txHash = x.id ∧ (x.promise, item) ∈ s.accepted

/-- No hash of the batch that is being appended is in the queue. -/
def Exclusive (s : Pipeline) : Prop :=
  ∀ batch, s.appending = some batch → ∀ item ∈ batch,
    item.txHash ∉ s.pool.txPool.map PoolItem.txHash

/-- A promise has the receipt of the operation that it was made for, from the batch with it. -/
def ReceiptsMatch (s : Pipeline) : Prop :=
  ∀ promise receipt, (promise, .resolved receipt) ∈ s.commits.settlements →
    ∃ batch ∈ s.batches, ∃ item ∈ batch, (promise, item) ∈ s.accepted ∧
      receipt.txHash = item.txHash ∧ receipt.completeTx = item.encodedTx

/-- A transaction that is dispatched while it is being appended is still pending, unless there is no
room for it. -/
def Admits (txPoolSize : ℕ) (s : Pipeline) : PipelineEvent → Prop
  | .dispatch tx _ =>
    ∀ batch, s.appending = some batch → ∀ item ∈ batch, toHex tx = item.txHash.hex →
      s.commits.has item.txHash ∨
        transactionCommitServiceBufferSize ≤ s.commits.entries.length ∨
        txPoolSize ≤ s.pool.txPool.length
  | _ => True

theorem sound_init : init.Sound txPoolSize where
  queuedTxHashes := rfl
  nodup := List.nodup_nil
  length_le := Nat.zero_le _
  batch_le := by simp [init]
  batch_nodup := by simp [init]
  arrival := rfl
  appending := by simp [init]
  commits := Pending.sound_init
  accepted_lt := by simp [init]
  promises := List.nodup_nil
  pending := by simp [init, Pending.init]

/-! ### Dispatch -/

theorem eq_of_assertTxHash {txHash : Str} {hash : TxHash} (h : assertTxHash txHash = some hash) :
    hash.hex = txHash := by
  unfold assertTxHash at h
  split at h
  case isTrue => exact congrArg TxHash.hex (Option.some.inj h).symm
  case isFalse => cases h

theorem assertTxHash_hex (hash : TxHash) : assertTxHash hash.hex = some hash :=
  dif_pos ⟨hash.isHexString, hash.length⟩

theorem has_eq_false {service : TransactionCommitService} {txHash : TxHash} :
    service.has txHash = false ↔ service.find? txHash = none := by
  rw [TransactionCommitService.has, Option.isSome_eq_false_iff, Option.isNone_iff_eq_none]

theorem registerPendingCommit_eq_some {service service' : TransactionCommitService}
    {txHash : TxHash} :
    service.registerPendingCommit txHash = some service' ↔
      service.entries.length < transactionCommitServiceBufferSize ∧
        service.find? txHash = none ∧ service.register txHash () = service' := by
  simp only [TransactionCommitService.registerPendingCommit, Option.bind_eq_bind,
    Option.bind_eq_some_iff, Option.guard_eq_some', exists_const, Option.pure_def,
    Option.some.injEq, Bool.not_eq_true', has_eq_false]

theorem addTransaction_cases (pool : TransactionPoolService) (txHash : TxHash) (encodedTx : Buffer) :
    (∃ error, pool.addTransaction txPoolSize txHash encodedTx = .error error ∧
        (txPoolSize ≤ pool.txPool.length ∨ txHash ∈ pool.queuedTxHashes)) ∨
      pool.txPool.length < txPoolSize ∧ txHash ∉ pool.queuedTxHashes ∧
        pool.addTransaction txPoolSize txHash encodedTx = .ok
          { txPool := pool.txPool ++ [{ txHash, encodedTx }]
            queuedTxHashes := insert txHash pool.queuedTxHashes } := by
  unfold TransactionPoolService.addTransaction TransactionPoolService.validateEnqueue
    TransactionPoolService.hasTransaction
  by_cases hfull : txPoolSize ≤ pool.txPool.length
  · exact .inl ⟨_, by simp [hfull]; rfl, .inl hfull⟩
  by_cases hqueued : txHash ∈ pool.queuedTxHashes
  · exact .inl ⟨_, by simp [hfull, hqueued]; rfl, .inr hqueued⟩
  · exact .inr ⟨Nat.lt_of_not_le hfull, hqueued, by simp [hfull, hqueued]⟩

/-- The registration throws, or the queue rejects the transaction, or the transaction is queued. -/
theorem dispatchTransaction_cases (tx encodedTx : Buffer) :
    (s.dispatchTransaction txPoolSize tx encodedTx = s ∧
        ∀ txHash, assertTxHash (toHex tx) = some txHash → s.commits.has txHash ∨
          transactionCommitServiceBufferSize ≤ s.commits.entries.length) ∨
      ∃ txHash, assertTxHash (toHex tx) = some txHash ∧
        s.commits.entries.length < transactionCommitServiceBufferSize ∧
        s.commits.find? txHash = none ∧
        ((∃ o, s.dispatchTransaction txPoolSize tx encodedTx =
              { s with commits := (s.commits.register txHash ()).settleId txHash (.rejected o) } ∧
            (txPoolSize ≤ s.pool.txPool.length ∨ txHash ∈ s.pool.queuedTxHashes)) ∨
          s.pool.txPool.length < txPoolSize ∧ txHash ∉ s.pool.queuedTxHashes ∧
            s.dispatchTransaction txPoolSize tx encodedTx =
              { s with
                pool :=
                  { txPool := s.pool.txPool ++ [{ txHash, encodedTx }]
                    queuedTxHashes := insert txHash s.pool.queuedTxHashes }
                commits := s.commits.register txHash ()
                accepted := s.accepted ++ [(s.commits.nextId, { txHash, encodedTx })] }) := by
  unfold dispatchTransaction
  cases hhash : assertTxHash (toHex tx) with
  | none => exact .inl ⟨rfl, fun _ h => nomatch h⟩
  | some txHash =>
    cases hregister : s.commits.registerPendingCommit txHash with
    | none =>
      refine .inl ⟨by simp only [hregister], fun _ h => ?_⟩
      cases h
      by_contra hnot
      obtain ⟨hhas, hroom⟩ := not_or.mp hnot
      have hsome := registerPendingCommit_eq_some.mpr
        ⟨Nat.lt_of_not_le hroom, has_eq_false.mp (Bool.eq_false_of_not_eq_true hhas), rfl⟩
      exact nomatch hregister.symm.trans hsome
    | some commits =>
      obtain ⟨hroom, hnone, rfl⟩ := registerPendingCommit_eq_some.mp hregister
      refine .inr ⟨txHash, rfl, hroom, hnone, ?_⟩
      obtain ⟨error, hadd, hrejected⟩ | ⟨hlt, hqueued, hadd⟩ :=
        @addTransaction_cases txPoolSize s.pool txHash encodedTx
      · exact .inl ⟨error, by simp only [hregister, hadd]; rfl, hrejected⟩
      · exact .inr ⟨hlt, hqueued, by simp only [hregister, hadd]⟩

/-! ### Batches -/

/-- The shifted items are the first ones, and the hashes of the others stay. -/
theorem shiftItems_eq {n : ℕ} {pool : TransactionPoolService}
    (hqueued : pool.queuedTxHashes = (pool.txPool.map PoolItem.txHash).toFinset)
    (hnodup : (pool.txPool.map PoolItem.txHash).Nodup) :
    TransactionPoolService.shiftItems n pool =
      (pool.txPool.take n,
        { txPool := pool.txPool.drop n
          queuedTxHashes := ((pool.txPool.drop n).map PoolItem.txHash).toFinset }) := by
  induction n generalizing pool with
  | zero => simp only [TransactionPoolService.shiftItems, List.take_zero, List.drop_zero, ← hqueued]
  | succ n ih =>
    obtain ⟨txPool, queuedTxHashes⟩ := pool
    cases txPool with
    | nil =>
      simp only at hqueued
      simp only [TransactionPoolService.shiftItems, hqueued, List.take_nil, List.drop_nil]
    | cons tx txPool =>
      simp only [List.map_cons, List.nodup_cons, List.toFinset_cons] at hqueued hnodup
      have herase : queuedTxHashes.erase tx.txHash = (txPool.map PoolItem.txHash).toFinset := by
        rw [hqueued, Finset.erase_insert (by simpa using hnodup.1)]
      have hrest := @ih { txPool, queuedTxHashes := queuedTxHashes.erase tx.txHash } herase hnodup.2
      simp only [TransactionPoolService.shiftItems, hrest, List.take_succ_cons, List.drop_succ_cons]

theorem prepare_cases (h : s.Sound txPoolSize) (canValidate : Bool) :
    s.prepare canValidate = s ∨
      ∃ n ≤ batchSize, s.prepare canValidate =
        { s with
          pool :=
            { txPool := s.pool.txPool.drop n
              queuedTxHashes := ((s.pool.txPool.drop n).map PoolItem.txHash).toFinset }
          appending := some (s.pool.txPool.take n)
          batches := s.batches ++ [s.pool.txPool.take n] } := by
  unfold prepare
  split
  case isTrue => exact .inl rfl
  case isFalse =>
    refine .inr ⟨min s.pool.txPool.length batchSize, min_le_right _ _, ?_⟩
    simp only [TransactionPoolService.prepareBatch, shiftItems_eq h.queuedTxHashes h.nodup]

/-! ### What every step keeps -/

namespace Sound

variable (h : s.Sound txPoolSize)

include h

/-- Fewer pending commits are fine. -/
theorem of_commits {commits : TransactionCommitService} (hcommits : commits.Sound)
    (hnext : s.commits.nextId ≤ commits.nextId)
    (hentries : ∀ x ∈ commits.entries, x ∈ s.commits.entries) :
    { s with commits : Pipeline }.Sound txPoolSize :=
  { h with
    commits := hcommits
    accepted_lt := fun a ha => Nat.lt_of_lt_of_le (h.accepted_lt a ha) hnext
    pending := fun x hx => h.pending x (hentries x hx) }

theorem dispatchTransaction (tx encodedTx : Buffer) :
    (s.dispatchTransaction txPoolSize tx encodedTx).Sound txPoolSize := by
  obtain ⟨heq, -⟩ | ⟨txHash, -, -, hnone, ⟨o, heq, -⟩ | ⟨hlt, hqueued, heq⟩⟩ :=
    @dispatchTransaction_cases txPoolSize s tx encodedTx
  · rwa [heq]
  · rw [heq]
    refine h.of_commits (h.commits.register hnone ()).settleId ?_ fun x hx => ?_
    · rw [settleId_nextId]
      exact Nat.le_succ _
    · obtain ⟨hx, hid⟩ := mem_settleId.mp hx
      obtain hx | rfl := mem_register.mp hx
      · exact hx
      · exact absurd rfl hid
  · rw [heq]
    have hmem : txHash ∉ s.pool.txPool.map PoolItem.txHash := by
      rwa [h.queuedTxHashes, List.mem_toFinset] at hqueued
    constructor
    · rw [h.queuedTxHashes, List.map_append, List.toFinset_append, Finset.insert_eq,
        Finset.union_comm]
      rfl
    · rw [List.map_append]
      exact h.nodup.append (List.nodup_singleton _) (by simpa using hmem)
    · simpa [Nat.succ_le_iff] using hlt
    · exact h.batch_le
    · exact h.batch_nodup
    · simp [h.arrival]
    · exact h.appending
    · exact h.commits.register hnone ()
    · intro a ha
      obtain ha | ha := List.mem_append.mp ha
      · exact Nat.lt_succ_of_lt (h.accepted_lt a ha)
      · cases List.mem_singleton.mp ha
        exact Nat.lt_succ_self _
    · rw [List.map_append]
      refine h.promises.append (List.nodup_singleton _) ?_
      simpa using fun item ha => Nat.lt_irrefl _ (h.accepted_lt _ ha)
    · intro x hx
      obtain hx | rfl := mem_register.mp hx
      · obtain ⟨item, hitem, hid, haccepted⟩ := h.pending x hx
        refine ⟨item, ?_, hid, List.mem_append_left _ haccepted⟩
        simp only [inFlight, List.mem_append] at hitem ⊢
        exact hitem.imp_left .inl
      · exact ⟨⟨txHash, encodedTx⟩, by simp [inFlight], rfl, by simp⟩

theorem prepare (hidle : s.appending = none) (canValidate : Bool) :
    (s.prepare canValidate).Sound txPoolSize := by
  obtain heq | ⟨n, hn, heq⟩ := prepare_cases h canValidate
  · rwa [heq]
  · rw [heq]
    have hsub : ((s.pool.txPool.take n).map PoolItem.txHash).Sublist _ :=
      (List.take_sublist n _).map _
    constructor
    · rfl
    · exact h.nodup.sublist ((List.drop_sublist n _).map _)
    · exact (List.drop_sublist n _).length_le.trans h.length_le
    · intro batch hbatch
      obtain hbatch | hbatch := List.mem_append.mp hbatch
      · exact h.batch_le batch hbatch
      · cases List.mem_singleton.mp hbatch
        exact (List.length_take_le n _).trans hn
    · intro batch hbatch
      obtain hbatch | hbatch := List.mem_append.mp hbatch
      · exact h.batch_nodup batch hbatch
      · cases List.mem_singleton.mp hbatch
        exact h.nodup.sublist hsub
    · simp [h.arrival]
    · simp
    · exact h.commits
    · exact h.accepted_lt
    · exact h.promises
    · intro x hx
      obtain ⟨item, hitem, hx⟩ := h.pending x hx
      refine ⟨item, ?_, hx⟩
      simp only [inFlight, hidle, Option.getD_none, List.append_nil] at hitem
      rw [← List.take_append_drop n s.pool.txPool, List.mem_append] at hitem
      exact List.mem_append.mpr hitem.symm

theorem settleBatch {batch : List PoolItem} (hbatch : s.appending = some batch)
    (outcome : PoolItem → CommitSettlement) :
    (s.settleBatch batch outcome).Sound txPoolSize := by
  have hcommits := @settleEach_nextId TxHash Unit CommitSettlement s.commits _
    (batch.map fun item => (item.txHash, outcome item))
  exact
    { h with
      appending := fun _ hnone => nomatch hnone
      commits := h.commits.settleEach
      accepted_lt := fun a ha => (h.accepted_lt a ha).trans_eq hcommits.symm
      pending := fun x hx => by
        obtain ⟨hx, hid⟩ := mem_settleEach.mp hx
        obtain ⟨item, hitem, heq, haccepted⟩ := h.pending x hx
        refine ⟨item, ?_, heq, haccepted⟩
        simp only [inFlight, hbatch, Option.getD_some, List.mem_append] at hitem
        refine List.mem_append_left _ (hitem.resolve_right fun hmem => hid ?_)
        simpa using ⟨item, hmem, heq⟩ }

end Sound

theorem step_sound (h : s.Sound txPoolSize) (hstep : s.step txPoolSize e = some s') :
    s'.Sound txPoolSize := by
  cases e with
  | dispatch tx encodedTx =>
    cases hstep
    exact h.dispatchTransaction tx encodedTx
  | work canValidate =>
    simp only [step, Option.bind_eq_bind, Option.bind_eq_some_iff, Option.guard_eq_some',
      exists_const, Option.pure_def, Option.some.injEq] at hstep
    obtain ⟨hidle, rfl⟩ := hstep
    exact h.prepare hidle canValidate
  | appended length snapshot timestamp =>
    simp only [step, Option.bind_eq_bind, Option.bind_eq_some_iff, Option.pure_def,
      Option.some.injEq] at hstep
    obtain ⟨batch, hbatch, rfl⟩ := hstep
    exact h.settleBatch hbatch _
  | appendFailed =>
    simp only [step, Option.bind_eq_bind, Option.bind_eq_some_iff, Option.pure_def,
      Option.some.injEq] at hstep
    obtain ⟨batch, hbatch, rfl⟩ := hstep
    exact h.settleBatch hbatch _
  | timeout timer =>
    simp only [step, Option.bind_eq_bind, Option.bind_eq_some_iff, Option.pure_def,
      Option.some.injEq] at hstep
    obtain ⟨commits, hfire, rfl⟩ := hstep
    obtain ⟨entry, -, -, rfl⟩ := h.commits.fire_eq hfire
    exact h.of_commits h.commits.settleId settleId_nextId.ge fun x hx => (mem_settleId.mp hx).1

/-! ### Receipts -/

section

variable {receipts : List Receipt} {receipt : Receipt} {item : PoolItem}

theorem receiptsByHash_eq_some {txHash : TxHash} (h : receiptsByHash receipts txHash = some receipt) :
    receipt ∈ receipts ∧ receipt.txHash = txHash :=
  ⟨List.mem_reverse.mp (List.mem_of_find?_eq_some h), by simpa using List.find?_some h⟩

theorem outcome_eq_resolved (h : item.outcome receipts = .resolved receipt) :
    receiptsByHash receipts item.txHash = some receipt := by
  unfold PoolItem.outcome at h
  split at h
  case h_1 => cases h
  case h_2 hreceipt =>
    split at h
    case h_1 => cases h
    case h_2 => exact CommitSettlement.resolved.inj h ▸ hreceipt

/-- A receipt is for an item of the batch. -/
theorem mem_appendWithProofOfPublication {length : ℕ} {snapshot : ℕ → BlockProof} {timestamp : ℕ}
    {batch : List PoolItem}
    (h : receipt ∈ appendWithProofOfPublication length snapshot timestamp
      (batch.map PoolItem.encodedTx) (batch.map PoolItem.txHash)) :
    ∃ item ∈ batch, receipt.txHash = item.txHash ∧ receipt.completeTx = item.encodedTx := by
  unfold appendWithProofOfPublication at h
  rw [List.zip_map'] at h
  obtain ⟨i, hi, rfl⟩ := List.mem_mapIdx.mp h
  simp only [List.getElem_map]
  exact ⟨_, List.getElem_mem _, rfl, rfl⟩

end

theorem ReceiptsMatch.mono (h : s.ReceiptsMatch) (hbatches : s.batches ⊆ s'.batches)
    (haccepted : s.accepted ⊆ s'.accepted)
    (hsettlements : ∀ promise receipt, (promise, .resolved receipt) ∈ s'.commits.settlements →
      (promise, .resolved receipt) ∈ s.commits.settlements) : s'.ReceiptsMatch := by
  intro promise receipt hmem
  obtain ⟨batch, hbatch, item, hitem, hpromise, heq⟩ := h promise receipt
    (hsettlements promise receipt hmem)
  exact ⟨batch, hbatches hbatch, item, hitem, haccepted hpromise, heq⟩

/-- A settlement that rejects gives no receipt. -/
theorem resolved_of_settleId {commits : TransactionCommitService} {txHash : TxHash}
    {error : CommitError} {promise : ℕ} {receipt : Receipt}
    (h : (promise, .resolved receipt) ∈
      (commits.settleId txHash (.rejected error)).settlements) :
    (promise, .resolved receipt) ∈ commits.settlements := by
  obtain h | ⟨_, _, _, heq⟩ := mem_settlements_settleId h
  · exact h
  · cases heq

/-- While no transaction is queued again, a commit that is pending for a hash of the batch waits for
the item of the batch. -/
theorem Sound.accepted_of_appending (h : s.Sound txPoolSize) (hex : s.Exclusive)
    {batch : List PoolItem} (hbatch : s.appending = some batch) {item : PoolItem}
    (hitem : item ∈ batch) {x : Entry TxHash Unit} (hx : x ∈ s.commits.entries)
    (hid : item.txHash = x.id) : (x.promise, item) ∈ s.accepted := by
  obtain ⟨y, hy, hyid, haccepted⟩ := h.pending x hx
  have heq : y.txHash = item.txHash := hyid.trans hid.symm
  simp only [inFlight, hbatch, Option.getD_some, List.mem_append] at hy
  obtain hy | hy := hy
  · exact absurd (heq ▸ List.mem_map_of_mem hy) (hex batch hbatch item hitem)
  · have hnodup := h.batch_nodup batch (List.mem_of_getLast? (h.appending batch hbatch))
    exact List.inj_on_of_nodup_map hnodup hy hitem heq ▸ haccepted

theorem step_receiptsMatch (h : s.Sound txPoolSize) (hex : s.Exclusive) (hr : s.ReceiptsMatch)
    (hstep : s.step txPoolSize e = some s') : s'.ReceiptsMatch := by
  cases e with
  | dispatch tx encodedTx =>
    cases hstep
    obtain ⟨heq, -⟩ | ⟨txHash, -, -, -, ⟨o, heq, -⟩ | ⟨-, -, heq⟩⟩ :=
      @dispatchTransaction_cases txPoolSize s tx encodedTx
    · rwa [heq]
    · rw [heq]
      exact hr.mono (List.Subset.refl _) (List.Subset.refl _)
        fun _ _ hmem => @resolved_of_settleId (s.commits.register txHash ()) txHash o _ _ hmem
    · rw [heq]
      exact hr.mono (List.Subset.refl _) (List.subset_append_left _ _) fun _ _ => id
  | work canValidate =>
    simp only [step, Option.bind_eq_bind, Option.bind_eq_some_iff, Option.guard_eq_some',
      exists_const, Option.pure_def, Option.some.injEq] at hstep
    obtain ⟨-, rfl⟩ := hstep
    obtain heq | ⟨n, -, heq⟩ := prepare_cases h canValidate
    · rwa [heq]
    · rw [heq]
      exact hr.mono (List.subset_append_left _ _) (List.Subset.refl _) fun _ _ => id
  | appended length snapshot timestamp =>
    simp only [step, Option.bind_eq_bind, Option.bind_eq_some_iff, Option.pure_def,
      Option.some.injEq] at hstep
    obtain ⟨batch, hbatch, rfl⟩ := hstep
    intro promise receipt hmem
    obtain hmem | ⟨x, hx, o, ho, heq⟩ := mem_settlements_settleEach hmem
    · exact hr promise receipt hmem
    · obtain ⟨item, hitem, houtcome⟩ := List.mem_map.mp ho
      cases heq
      obtain ⟨hid, hresolved⟩ := Prod.mk.inj houtcome
      obtain ⟨hreceipt, htxHash⟩ := receiptsByHash_eq_some (outcome_eq_resolved hresolved)
      obtain ⟨y, hy, hyid, hcompleteTx⟩ := mem_appendWithProofOfPublication hreceipt
      have hlast := List.mem_of_getLast? (h.appending batch hbatch)
      have hyitem : y = item :=
        List.inj_on_of_nodup_map (h.batch_nodup batch hlast) hy hitem (hyid.symm.trans htxHash)
      cases hyitem
      have haccepted := h.accepted_of_appending hex hbatch hitem hx hid
      exact ⟨batch, hlast, item, hitem, haccepted, htxHash, hcompleteTx⟩
  | appendFailed =>
    simp only [step, Option.bind_eq_bind, Option.bind_eq_some_iff, Option.pure_def,
      Option.some.injEq] at hstep
    obtain ⟨batch, hbatch, rfl⟩ := hstep
    refine hr.mono (List.Subset.refl _) (List.Subset.refl _) fun promise receipt hmem => ?_
    obtain hmem | ⟨x, hx, o, ho, heq⟩ := mem_settlements_settleEach hmem
    · exact hmem
    · obtain ⟨item, -, houtcome⟩ := List.mem_map.mp ho
      cases heq
      exact nomatch (Prod.mk.inj houtcome).2
  | timeout timer =>
    simp only [step, Option.bind_eq_bind, Option.bind_eq_some_iff, Option.pure_def,
      Option.some.injEq] at hstep
    obtain ⟨commits, hfire, rfl⟩ := hstep
    obtain ⟨entry, -, -, rfl⟩ := h.commits.fire_eq hfire
    exact hr.mono (List.Subset.refl _) (List.Subset.refl _) fun _ _ => resolved_of_settleId

/-! ### Transactions that are dispatched again -/

theorem dispatch_exclusive_iff (h : s.Sound txPoolSize) (hex : s.Exclusive) (tx encodedTx : Buffer) :
    (s.dispatchTransaction txPoolSize tx encodedTx).Exclusive ↔
      s.Admits txPoolSize (.dispatch tx encodedTx) := by
  obtain ⟨heq, hthrown⟩ |
    ⟨txHash, hhash, hroom, hnone, ⟨o, heq, hrejected⟩ | ⟨hlt, hqueued, heq⟩⟩ :=
    @dispatchTransaction_cases txPoolSize s tx encodedTx
  · rw [heq]
    refine iff_of_true hex fun batch hbatch item hitem hhex => ?_
    have hhash := hhex ▸ assertTxHash_hex item.txHash
    exact (hthrown item.txHash hhash).imp_right .inl
  · rw [heq]
    refine iff_of_true hex fun batch hbatch item hitem hhex => ?_
    have hitemHash := hhex ▸ assertTxHash_hex item.txHash
    cases hhash.symm.trans hitemHash
    refine .inr (.inr (hrejected.resolve_right fun hqueued => ?_))
    rw [h.queuedTxHashes, List.mem_toFinset] at hqueued
    exact hex batch hbatch item hitem hqueued
  · rw [heq]
    refine forall₂_congr fun batch hbatch => forall₂_congr fun item hitem => ?_
    have hitemHash : toHex tx = item.txHash.hex ↔ item.txHash = txHash := by
      constructor
      · intro hhex
        exact Option.some.inj ((hhex ▸ assertTxHash_hex item.txHash).symm.trans hhash)
      · exact fun hitemHash => hitemHash ▸ (eq_of_assertTxHash hhash).symm
    have hold := hex batch hbatch item hitem
    rw [hitemHash, List.map_append, List.mem_append, or_iff_right hold]
    simp only [List.map_cons, List.map_nil, List.mem_singleton]
    constructor
    · exact fun hne heq => absurd heq hne
    · intro hadmits heq
      obtain hhas | hfull | hfull := hadmits heq
      · rw [heq, has_eq_false.mpr hnone] at hhas
        cases hhas
      · exact Nat.not_le_of_lt hroom hfull
      · exact Nat.not_le_of_lt hlt hfull

theorem step_exclusive_iff (h : s.Sound txPoolSize) (hex : s.Exclusive)
    (hstep : s.step txPoolSize e = some s') : s'.Exclusive ↔ s.Admits txPoolSize e := by
  cases e with
  | dispatch tx encodedTx =>
    cases hstep
    exact dispatch_exclusive_iff h hex tx encodedTx
  | work canValidate =>
    simp only [step, Option.bind_eq_bind, Option.bind_eq_some_iff, Option.guard_eq_some',
      exists_const, Option.pure_def, Option.some.injEq] at hstep
    obtain ⟨-, rfl⟩ := hstep
    refine iff_of_true ?_ trivial
    obtain heq | ⟨n, -, heq⟩ := prepare_cases h canValidate
    · rwa [heq]
    · rw [heq]
      rintro batch hbatch item hitem hmem
      cases hbatch
      have hnodup := h.nodup
      rw [← List.take_append_drop n s.pool.txPool, List.map_append] at hnodup
      exact List.disjoint_of_nodup_append hnodup (List.mem_map_of_mem hitem) hmem
  | appended length snapshot timestamp =>
    simp only [step, Option.bind_eq_bind, Option.bind_eq_some_iff, Option.pure_def,
      Option.some.injEq] at hstep
    obtain ⟨batch, -, rfl⟩ := hstep
    exact iff_of_true (fun _ hnone => nomatch hnone) trivial
  | appendFailed =>
    simp only [step, Option.bind_eq_bind, Option.bind_eq_some_iff, Option.pure_def,
      Option.some.injEq] at hstep
    obtain ⟨batch, -, rfl⟩ := hstep
    exact iff_of_true (fun _ hnone => nomatch hnone) trivial
  | timeout timer =>
    simp only [step, Option.bind_eq_bind, Option.bind_eq_some_iff, Option.pure_def,
      Option.some.injEq] at hstep
    obtain ⟨commits, -, rfl⟩ := hstep
    exact iff_of_true hex trivial

/-- What holds while no transaction is dispatched that is being appended. -/
structure Once (txPoolSize : ℕ) (s : Pipeline) : Prop extends s.Sound txPoolSize where
  exclusive : s.Exclusive
  receiptsMatch : s.ReceiptsMatch

theorem step_once_iff (h : s.Once txPoolSize) (hstep : s.step txPoolSize e = some s') :
    s'.Once txPoolSize ↔ s.Admits txPoolSize e := by
  constructor
  · exact fun h' => (step_exclusive_iff h.toSound h.exclusive hstep).mp h'.exclusive
  · exact fun hadmits =>
      ⟨step_sound h.toSound hstep, (step_exclusive_iff h.toSound h.exclusive hstep).mpr hadmits,
        step_receiptsMatch h.toSound h.exclusive h.receiptsMatch hstep⟩

end Pipeline

/-- In every run the queue and the batches are sound. Every state that it reaches has no transaction
twice and only receipts of the right operations, exactly if no transaction is dispatched again after
its pending commit has timed out and before its append is done. -/
theorem pipeline_once (es : List PipelineEvent) :
    (∀ s, Machine.run (Pipeline.step txPoolSize) .init es = some s → s.Sound txPoolSize) ∧
      (Machine.Along (Pipeline.step txPoolSize) (fun _ _ s' => s'.Exclusive ∧ s'.ReceiptsMatch)
          .init es ↔
        Machine.Along (Pipeline.step txPoolSize) (fun s e _ => s.Admits txPoolSize e) .init es) := by
  constructor
  · intro s hrun
    exact Machine.run_invariant (fun _ _ _ h hstep _ => Pipeline.step_sound h hstep)
      Pipeline.sound_init Machine.along_true hrun
  · have hinit : Pipeline.init.Once txPoolSize :=
      ⟨Pipeline.sound_init, fun _ hnone => (nomatch hnone), fun _ _ hmem => (nomatch hmem)⟩
    refine Machine.along_iff (fun _ _ _ h hstep => (Pipeline.step_once_iff h hstep).mpr)
      (fun s e s' h hstep => ?_) hinit
    rw [← Pipeline.step_once_iff h hstep]
    exact ⟨fun h' => ⟨Pipeline.step_sound h.toSound hstep, h'.1, h'.2⟩,
      fun h' => ⟨h'.exclusive, h'.receiptsMatch⟩⟩

end

namespace Sample

/-- What the validator makes of the transaction of `payAdminOp` when it arrives again. -/
def payAdminCompletionAgain : Completion Buffer where
  va := adminAddress
  vn := Bytes.ofNat 32 0xd6fc3ef6723432101dc1987f6e4c9a1ea42afa32c612be3fc894883de7da3baa
  vs :=
    Bytes.ofNat 32 0xdbdb9bac23f3cb266fb2464d661d0d91c6af0a64407670733ccf9760d6423869 ++
    Bytes.ofNat 32 0xa5cbf5a46c385137f18a6eabb499954f81e8c2111d9095560c727a02c59fa30b

def payAdminAgainOp : Operation where
  type := OperationType.transfer.code
  address := .buffer aliceAddress
  value := some (.tro payAdminBody.toField payAdminCompletionAgain.toField)

def payAdminHash : TxHash where
  hex := toHex payAdminBody.tx
  isHexString := by decide +kernel
  length := by decide +kernel

def payAdminItem : PoolItem := { txHash := payAdminHash, encodedTx := encodeOperation payAdminOp }

def payAdminAgainItem : PoolItem :=
  { txHash := payAdminHash, encodedTx := encodeOperation payAdminAgainOp }

def payAdminReceipt : Receipt where
  txHash := payAdminHash
  completeTx := payAdminItem.encodedTx
  proof := some [1]
  proofError := none
  timestamp := 1
  blockNumber := 0

/-- The append is slow, so the commit times out, and the transaction arrives again. -/
def resubmission : List PipelineEvent :=
  [.dispatch payAdminBody.tx payAdminItem.encodedTx, .work true, .timeout 0,
    .dispatch payAdminBody.tx payAdminAgainItem.encodedTx]

def resubmissionAppended : List PipelineEvent :=
  resubmission ++ [.appended 1 (fun _ => .proof [1]) 1]

theorem run_resubmission :
    (Machine.run (Pipeline.step 1000) .init resubmission).map
      (fun s => (s.appending, s.pool.txPool)) = some (some [payAdminItem], [payAdminAgainItem]) := by
  decide +kernel

theorem run_resubmissionAppended :
    (Machine.run (Pipeline.step 1000) .init resubmissionAppended).map
      (fun s => (s.accepted, s.commits.settlements)) =
      some ([(0, payAdminItem), (1, payAdminAgainItem)],
        [(1, .resolved payAdminReceipt), (0, .rejected .timeout)]) := by
  decide +kernel

/-- The transaction is queued while it is being appended, and the second promise has the receipt of
the first operation. -/
theorem not_once_resubmission :
    (∃ s, Machine.run (Pipeline.step 1000) .init resubmission = some s ∧ ¬s.Exclusive) ∧
      ∃ s, Machine.run (Pipeline.step 1000) .init resubmissionAppended = some s ∧
        ¬s.ReceiptsMatch := by
  constructor
  · obtain ⟨s, hrun, heq⟩ := Option.map_eq_some_iff.mp run_resubmission
    obtain ⟨hbatch, htxPool⟩ := Prod.mk.inj heq
    refine ⟨s, hrun, fun hex => ?_⟩
    exact hex _ hbatch payAdminItem List.mem_cons_self (htxPool ▸ List.mem_cons_self)
  · obtain ⟨s, hrun, heq⟩ := Option.map_eq_some_iff.mp run_resubmissionAppended
    obtain ⟨haccepted, hsettlements⟩ := Prod.mk.inj heq
    refine ⟨s, hrun, fun hmatch => ?_⟩
    obtain ⟨-, -, item, -, hitem, -, hcompleteTx⟩ :=
      hmatch 1 payAdminReceipt (hsettlements ▸ List.mem_cons_self)
    simp only [haccepted, List.mem_cons, Prod.mk.injEq, one_ne_zero, false_and,
      true_and, List.not_mem_nil, or_false, false_or] at hitem
    subst hitem
    exact absurd hcompleteTx (by decide +kernel)

end Sample

end SettlementBus
