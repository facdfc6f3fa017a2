import SettlementBus.Lib.Framing
import SettlementBus.Messages.Network
import SettlementBus.Messages.Preimage
import SettlementBus.Sample

/-! Two signed messages are the same bytes only if they say the same. -/

namespace SettlementBus

open Lib

variable {env : Env} {op op' : Operation} {type type' : OperationType} {role role' : SigningRole}
  {parts parts' : List MessagePart}

/-- The parts of a signed message around its blocks. -/
def framedParts (env : Env) (type : OperationType) (blocks : List Buffer) : List MessagePart :=
  .number env.config.networkId :: blocks.map .buffer ++ [.number type.code]

/-- The sizes of the blocks, with addresses of `addressLength` bytes and a bootstrap key of
`bootstrapLength` bytes. -/
def blockSizes (addressLength bootstrapLength : ℕ) : OperationType → SigningRole → List ℕ
  | _, .validator => [hashByteLength, nonceByteLength]
  | .addAdmin, .requester | .disableInitialization, .requester | .addWriter, .requester
  | .removeWriter, .requester | .adminRecovery, .requester =>
    [hashByteLength, writerByteLength, nonceByteLength]
  | .balanceInitialization, .requester | .transfer, .requester =>
    [hashByteLength, addressLength, amountByteLength, nonceByteLength]
  | .appendWhitelist, .requester | .addIndexer, .requester | .removeIndexer, .requester
  | .banValidator, .requester => [hashByteLength, addressLength, nonceByteLength]
  | .bootstrapDeployment, .requester =>
    [hashByteLength, bootstrapByteLength, channelByteLength, nonceByteLength]
  | .tx, .requester => [hashByteLength, writerByteLength, nonceByteLength, bootstrapByteLength,
      bootstrapLength, nonceByteLength]

/-- The six types that a validator completes and signs. -/
def OperationType.isCompleted : OperationType → Bool
  | .addWriter | .removeWriter | .adminRecovery | .bootstrapDeployment | .tx | .transfer => true
  | _ => false

theorem blockSizes_inj {a n n' : ℕ}
    (h : (blockSizes a n type role).sum = (blockSizes a n' type role).sum) :
    blockSizes a n type role = blockSizes a n' type role := by
  cases role with
  | validator => rfl
  | requester =>
    cases type with
    | tx =>
      simp only [blockSizes, List.sum_cons] at h ⊢
      rw [show n = n' by omega]
    | _ => rfl

theorem blockSizes_sum_ne {a n n' : ℕ} (h : type.isCompleted) :
    (blockSizes a n type .requester).sum ≠ (blockSizes a n' type .validator).sum := by
  cases type <;> simp [OperationType.isCompleted] at h <;>
    simp [blockSizes, hashByteLength, writerByteLength, nonceByteLength, amountByteLength,
      bootstrapByteLength, channelByteLength] <;> omega

theorem Operation.Preimage.isCompleted (h : op.Preimage env type .validator parts) :
    type.isCompleted := by
  cases h with
  | roleAccessValidator htype =>
    simp only [List.mem_cons, List.not_mem_nil, or_false] at htype
    obtain rfl | rfl | rfl := htype <;> rfl
  | _ => rfl

/-- Every preimage is framed by the network and the type, and the type and the role tell the sizes
of its blocks. -/
theorem Operation.Preimage.framed (h : op.Preimage env type role parts) :
    ∃ blocks n, parts = framedParts env type blocks ∧
      blocks.map List.length = blockSizes env.config.addressLength n type role := by
  cases h with
  | coreAdmin htype hcode hcheck =>
    obtain ⟨-, -, -, hs⟩ := Check.validateCoreAdminOperation_eq_some.mp hcheck
    refine ⟨[_, _, _], 0, rfl, ?_⟩
    simp only [List.mem_cons, List.not_mem_nil, or_false] at htype
    obtain rfl | rfl := htype <;>
      simp [blockSizes, hs.txv.length_eq, hs.iw.length_eq, hs.in_.length_eq]
  | balanceInitialization hcheck =>
    obtain ⟨-, -, -, hs⟩ := Check.validateBalanceInitialization_eq_some.mp hcheck
    refine ⟨[_, _, _, _], 0, rfl, ?_⟩
    simp [blockSizes, hs.txv.length_eq, hs.ia.length_eq, hs.am.length_eq, hs.in_.length_eq]
  | adminControl htype hcode hcheck =>
    obtain ⟨-, -, -, hs⟩ := Check.validateAdminControlOperation_eq_some.mp hcheck
    refine ⟨[_, _, _], 0, rfl, ?_⟩
    simp only [List.mem_cons, List.not_mem_nil, or_false] at htype
    obtain rfl | rfl | rfl | rfl := htype <;>
      simp [blockSizes, hs.txv.length_eq, hs.ia.length_eq, hs.in_.length_eq]
  | roleAccess htype hcode hcheck =>
    obtain ⟨-, -, -, hs⟩ := Check.validateRoleAccessOperation_eq_some.mp hcheck
    refine ⟨[_, _, _], 0, rfl, ?_⟩
    simp only [List.mem_cons, List.not_mem_nil, or_false] at htype
    obtain rfl | rfl | rfl := htype <;>
      simp [blockSizes, hs.txv.length_eq, hs.iw.length_eq, hs.in_.length_eq]
  | bootstrapDeployment hcheck =>
    obtain ⟨-, -, -, hs⟩ := Check.validateBootstrapDeploymentOperation_eq_some.mp hcheck
    refine ⟨[_, _, _, _], 0, rfl, ?_⟩
    simp [blockSizes, hs.txv.length_eq, hs.bs.length_eq, hs.ic.length_eq, hs.in_.length_eq]
  | tx hcheck =>
    obtain ⟨-, -, -, hs⟩ := Check.validateTransactionOperation_eq_some.mp hcheck
    refine ⟨[_, _, _, _, _, _], env.config.bootstrap.length, rfl, ?_⟩
    simp [blockSizes, hs.txv.length_eq, hs.iw.length_eq, hs.ch.length_eq, hs.bs.length_eq,
      hs.in_.length_eq]
  | @partialTx address o c hcheck =>
    obtain ⟨-, -, -, hs⟩ := Check.validateTransactionOperation_eq_some.mp hcheck
    refine ⟨[_, _, _, _, _, _], o.mbs.length, rfl, ?_⟩
    simp [blockSizes, hs.txv.length_eq, hs.iw.length_eq, hs.ch.length_eq, hs.bs.length_eq,
      hs.in_.length_eq]
  | transfer hcheck =>
    obtain ⟨-, -, -, hs⟩ := Check.validateTransferOperation_eq_some.mp hcheck
    refine ⟨[_, _, _, _], 0, rfl, ?_⟩
    simp [blockSizes, hs.txv.length_eq, hs.to_.length_eq, hs.am, hs.in_.length_eq]
  | roleAccessValidator htype hcode hcheck =>
    obtain ⟨-, -, ⟨f, -, hf⟩, hs⟩ := Check.validateRoleAccessOperation_eq_some.mp hcheck
    obtain ⟨-, hc⟩ := Check.completion_eq_some.mp hf
    refine ⟨[_, _], 0, rfl, ?_⟩
    simp [blockSizes, hs.tx.length_eq, hc.vn.length_eq]
  | bootstrapDeploymentValidator hcheck =>
    obtain ⟨-, -, ⟨f, -, hf⟩, hs⟩ := Check.validateBootstrapDeploymentOperation_eq_some.mp hcheck
    obtain ⟨-, hc⟩ := Check.completion_eq_some.mp hf
    refine ⟨[_, _], 0, rfl, ?_⟩
    simp [blockSizes, hs.tx.length_eq, hc.vn.length_eq]
  | txValidator hcheck =>
    obtain ⟨-, -, ⟨f, -, hf⟩, hs⟩ := Check.validateTransactionOperation_eq_some.mp hcheck
    obtain ⟨-, hc⟩ := Check.completion_eq_some.mp hf
    refine ⟨[_, _], 0, rfl, ?_⟩
    simp [blockSizes, hs.tx.length_eq, hc.vn.length_eq]
  | transferValidator hcheck =>
    obtain ⟨-, -, ⟨f, -, hf⟩, hs⟩ := Check.validateTransferOperation_eq_some.mp hcheck
    obtain ⟨-, hc⟩ := Check.completion_eq_some.mp hf
    refine ⟨[_, _], 0, rfl, ?_⟩
    simp [blockSizes, hs.tx.length_eq, hc.vn.length_eq]

/-! ### The bytes -/

theorem createMessage_cons {n : ℕ} (hn : isUInt32 n) (rest : List MessagePart) :
    createMessage (.number n :: rest) = Bytes.ofNat 4 n ++ createMessage rest := by
  have hle : n ≤ 0xFFFFFFFF := by
    simp only [isUInt32, decide_eq_true_eq] at hn
    exact hn.2
  simp [createMessage, MessagePart.toBuffer?, hn, safeWriteUInt32BE, hle]

theorem createMessage_blocks (blocks : List Buffer) :
    createMessage (blocks.map .buffer ++ [.number type.code]) =
      blocks.flatten ++ Bytes.ofNat 4 type.code := by
  induction blocks with
  | nil => exact createMessage_cons (OperationType.isUInt32_code type) []
  | cons b blocks ih =>
    rw [List.flatten_cons, List.append_assoc, ← ih]
    rfl

theorem createMessage_framedParts (hid : isUInt32 env.config.networkId) (blocks : List Buffer) :
    createMessage (framedParts env type blocks) =
      Lib.framed 4 env.config.networkId blocks type.code := by
  rw [framedParts, List.cons_append, createMessage_cons hid, createMessage_blocks, Lib.framed,
    List.append_assoc]

theorem lt_of_isUInt32 {n : ℕ} (h : isUInt32 n) : n < 256 ^ 4 := by
  simp only [isUInt32, decide_eq_true_eq] at h
  omega

/-- The network's id is the same in all messages of a network. -/
theorem framed_of_createMessage_eq {blocks blocks' : List Buffer}
    (h : createMessage (framedParts env type blocks) =
      createMessage (framedParts env type' blocks')) :
    Lib.framed 4 0 blocks type.code = Lib.framed 4 0 blocks' type'.code := by
  by_cases hid : isUInt32 env.config.networkId
  · rw [createMessage_framedParts hid, createMessage_framedParts hid] at h
    rw [framed, framed, List.append_assoc, List.append_assoc] at h ⊢
    rw [List.append_cancel_left h]
  · have hskip : ∀ rest, createMessage (.number env.config.networkId :: rest) = createMessage rest :=
      fun rest => by simp [createMessage, MessagePart.toBuffer?, hid]
    rw [framedParts, framedParts, List.cons_append, List.cons_append, hskip, hskip,
      createMessage_blocks, createMessage_blocks] at h
    rw [framed, framed, List.append_assoc, List.append_assoc, h]

theorem Operation.Preimage.unique (h : op.Preimage env type role parts)
    (h' : op'.Preimage env type' role' parts') (heq : createMessage parts = createMessage parts') :
    type = type' ∧ role = role' ∧ parts = parts' := by
  obtain ⟨blocks, n, rfl, hsizes⟩ := h.framed
  obtain ⟨blocks', n', rfl, hsizes'⟩ := h'.framed
  have heq := framed_of_createMessage_eq heq
  have hcode := framed_tail heq (lt_of_isUInt32 (OperationType.isUInt32_code type))
    (lt_of_isUInt32 (OperationType.isUInt32_code type'))
  obtain rfl := OperationType.code_injective hcode
  have hsum := framed_size heq
  rw [hsizes, hsizes'] at hsum
  -- The sizes of a completed type tell its two roles apart.
  have hrole : role = role' := by
    cases role with
    | requester =>
      cases role' with
      | requester => rfl
      | validator => exact absurd hsum (blockSizes_sum_ne h'.isCompleted)
    | validator =>
      cases role' with
      | requester => exact absurd hsum.symm (blockSizes_sum_ne h.isCompleted)
      | validator => rfl
  subst hrole
  rw [← blockSizes_inj hsum] at hsizes'
  exact ⟨rfl, rfl, by rw [framed_blocks heq (hsizes.trans hsizes'.symm)]⟩

theorem isUInt32_networkCode (type : NetworkOperationType) : isUInt32 type.code := by
  cases type <;> decide

/-- A message of a network whose id is no V1 message type begins as no V1 message does. -/
theorem Operation.Preimage.ne_network (hid : isUInt32 env.config.networkId)
    (hne : ∀ type : NetworkOperationType, type.code ≠ env.config.networkId)
    (h : op.Preimage env type role parts) {m : NetworkMessage} (hm : m.parts = some parts') :
    createMessage parts ≠ createMessage parts' := by
  obtain ⟨blocks, n, rfl, -⟩ := h.framed
  obtain ⟨rest, rfl⟩ := NetworkMessage.parts_head hm
  intro heq
  rw [framedParts, List.cons_append, createMessage_cons hid,
    createMessage_cons (isUInt32_networkCode _)] at heq
  have hhead := List.append_inj_left heq (by simp)
  exact hne m.payload.type (Bytes.ofNat_inj (lt_of_isUInt32 hid)
    (lt_of_isUInt32 (isUInt32_networkCode _)) hhead).symm

/-- Signatures of the ledger are not interchangeable: equal preimages have the same operation type,
the same role and the same fields, and if the network id is no V1 message type then no V1 message
has such a preimage. -/
theorem preimages_separated (hid : isUInt32 env.config.networkId) :
    (∀ op op' : Operation, ∀ type type' role role' parts parts',
      op.Preimage env type role parts → op'.Preimage env type' role' parts' →
        createMessage parts = createMessage parts' →
          type = type' ∧ role = role' ∧ parts = parts') ∧
      ((∀ type : NetworkOperationType, type.code ≠ env.config.networkId) →
        ∀ op : Operation, ∀ type role parts, op.Preimage env type role parts →
          ∀ m : NetworkMessage, ∀ parts', m.parts = some parts' →
            createMessage parts ≠ createMessage parts') :=
  ⟨fun _ _ _ _ _ _ _ _ h h' heq => h.unique h' heq,
    fun hne _ _ _ _ h _ _ hm => h.ne_network hid hne hm⟩

namespace Sample

theorem preimages_separated_network :
    (∀ op op' : Operation, ∀ type type' role role' parts parts',
      op.Preimage network type role parts → op'.Preimage network type' role' parts' →
        createMessage parts = createMessage parts' →
          type = type' ∧ role = role' ∧ parts = parts') ∧
      ∀ op : Operation, ∀ type role parts, op.Preimage network type role parts →
        ∀ m : NetworkMessage, ∀ parts', m.parts = some parts' →
          createMessage parts ≠ createMessage parts' := by
  obtain ⟨hunique, hne⟩ :=
    preimages_separated (show isUInt32 network.config.networkId by decide)
  exact ⟨hunique, hne fun type => by cases type <;> decide⟩

end Sample

end SettlementBus
