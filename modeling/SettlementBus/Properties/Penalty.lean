import SettlementBus.Invariants.Registry
import SettlementBus.Steps.Payment
import SettlementBus.Sample

/-! The exact penalty of a batch. -/

namespace SettlementBus

open Lib View

variable {env : Env} {w w' w₁ : World} {node : Node} {op : Operation} {type : OperationType}
  {nodes : List Node} {k : Buffer} {n : ℕ}

/-! ### What a batch counts -/

/-- The node counts towards the penalty. -/
inductive Invalid (env : Env) (w : World) (node : Node) : Prop
  | tooLarge (h : maximumOperationPayloadSize < node.value.length)
  | undecodable (h : env.safeDecodeApplyOperation node.value = none)
  | unknown {op : Operation} (h : env.safeDecodeApplyOperation node.value = some op)
      (hop : OperationType.ofCode op.type = none)
  | failure {type : OperationType} {op : Operation} (h : decodeNode env node = some (type, op))
      (hrun : runHandler (handler env type op node) w = some (.failure, w))

/-- The nodes of a batch, applied in order without an exception: `n` of them are invalid. -/
inductive Batch (env : Env) : List Node → World → ℕ → World → Prop
  | nil {w : World} : Batch env [] w 0 w
  | invalid {w w' : World} {node : Node} {nodes : List Node} {n : ℕ} (h : Invalid env w node)
      (rest : Batch env nodes w n w') : Batch env (node :: nodes) w (n + 1) w'
  | ignored {w w' : World} {node : Node} {nodes : List Node} {n : ℕ} {type : OperationType}
      {op : Operation} (h : decodeNode env node = some (type, op))
      (hrun : runHandler (handler env type op node) w = some (.ignore, w))
      (rest : Batch env nodes w n w') : Batch env (node :: nodes) w n w'
  | applied {w w₁ w' : World} {node : Node} {nodes : List Node} {n : ℕ} {type : OperationType}
      {op : Operation} (h : decodeNode env node = some (type, op))
      (hrun : runHandler (handler env type op node) w = some (.success, w₁))
      (rest : Batch env nodes w₁ n w') : Batch env (node :: nodes) w n w'

theorem decodeNode_eq_none : decodeNode env node = none ↔
    maximumOperationPayloadSize < node.value.length ∨
    env.safeDecodeApplyOperation node.value = none ∨
    ∃ op, env.safeDecodeApplyOperation node.value = some op ∧
      OperationType.ofCode op.type = none := by
  unfold decodeNode
  split
  case isTrue h => exact iff_of_true rfl (.inl h)
  case isFalse h =>
    cases hdec : env.safeDecodeApplyOperation node.value with
    | none => simp
    | some op => cases htype : OperationType.ofCode op.type <;> simp [htype, h]

theorem applyNode_of_decodeNode (h : decodeNode env node = some (type, op)) :
    applyNode env node w = runHandler (handler env type op node) w := by
  simp only [applyNode, h]

theorem applyNode_of_none (h : decodeNode env node = none) :
    applyNode env node w = some (.failure, w) := by
  simp only [applyNode, h]

theorem applyNode_eq_failure (hw : w.WellFormed) :
    applyNode env node w = some (.failure, w') ↔ Invalid env w node ∧ w' = w := by
  constructor
  · intro h
    cases hdec : decodeNode env node with
    | none =>
      cases (applyNode_of_none hdec).symm.trans h
      obtain hsize | hnone | ⟨op, hop, htype⟩ := decodeNode_eq_none.mp hdec
      · exact ⟨.tooLarge hsize, rfl⟩
      · exact ⟨.undecodable hnone, rfl⟩
      · exact ⟨.unknown hop htype, rfl⟩
    | some decoded =>
      rw [applyNode_of_decodeNode hdec] at h
      obtain ⟨h', -⟩ | ⟨-, rfl⟩ := runHandler_eq_some (handler_atomic hw) h
      · cases h'
      · exact ⟨.failure hdec h, rfl⟩
  · rintro ⟨h, rfl⟩
    cases h with
    | tooLarge h => exact applyNode_of_none (decodeNode_eq_none.mpr (.inl h))
    | undecodable h => exact applyNode_of_none (decodeNode_eq_none.mpr (.inr (.inl h)))
    | unknown h hop => exact applyNode_of_none (decodeNode_eq_none.mpr (.inr (.inr ⟨_, h, hop⟩)))
    | failure h hrun => exact (applyNode_of_decodeNode h).trans hrun

/-- A node that does not fail has a handler, whose status it has. -/
theorem exists_runHandler {status : Status} (h : applyNode env node w = some (status, w'))
    (hstatus : status ≠ .failure) : ∃ type op, decodeNode env node = some (type, op) ∧
      runHandler (handler env type op node) w = some (status, w') := by
  cases hdec : decodeNode env node with
  | none =>
    cases (applyNode_of_none hdec).symm.trans h
    exact absurd rfl hstatus
  | some decoded => exact ⟨_, _, rfl, (applyNode_of_decodeNode hdec).symm.trans h⟩

theorem applyNode_wellFormed (hw : w.WellFormed) {status : Status}
    (h : applyNode env node w = some (status, w')) : w'.WellFormed :=
  (applyNode_path hw h).wellFormed hw

/-- `applyNodes` counts as the relation says. -/
theorem applyNodes_eq_some (hw : w.WellFormed) :
    applyNodes env nodes w = some (n, w') ↔ Batch env nodes w n w' := by
  constructor
  · intro h
    induction nodes generalizing w n with
    | nil =>
      cases h
      exact .nil
    | cons node nodes ih =>
      obtain ⟨status, w₁, m, hnode, hnodes, rfl⟩ := applyNodes_cons.mp h
      have hrest := ih (applyNode_wellFormed hw hnode) hnodes
      cases status with
      | failure =>
        obtain ⟨hinvalid, rfl⟩ := (applyNode_eq_failure hw).mp hnode
        rw [if_pos rfl, Nat.add_comm]
        exact .invalid hinvalid hrest
      | ignore =>
        obtain ⟨type, op, hdec, hrun⟩ := exists_runHandler hnode (fun h => by cases h)
        obtain ⟨h', -⟩ | ⟨-, rfl⟩ := runHandler_eq_some (handler_atomic hw) hrun
        · cases h'
        · rw [if_neg (fun h => by cases h), Nat.zero_add]
          exact .ignored hdec hrun hrest
      | success =>
        obtain ⟨type, op, hdec, hrun⟩ := exists_runHandler hnode (fun h => by cases h)
        rw [if_neg (fun h => by cases h), Nat.zero_add]
        exact .applied hdec hrun hrest
  · intro h
    induction h with
    | nil => rfl
    | invalid h _ ih =>
      have hnode := (applyNode_eq_failure hw).mpr ⟨h, rfl⟩
      exact applyNodes_cons.mpr ⟨_, _, _, hnode, ih hw, Nat.add_comm ..⟩
    | ignored h hrun _ ih =>
      have hnode := (applyNode_of_decodeNode h).trans hrun
      exact applyNodes_cons.mpr ⟨_, _, _, hnode, ih hw, Nat.zero_add _⟩
    | applied h hrun _ ih =>
      have hnode := (applyNode_of_decodeNode h).trans hrun
      exact applyNodes_cons.mpr
        ⟨_, _, _, hnode, ih (applyNode_wellFormed hw hnode), Nat.zero_add _⟩

/-! ### The author -/

/-- The writing key of the admin entry. -/
def World.adminKey (env : Env) (w : World) : Option Buffer :=
  ((w.view.get .admin).bind (AdminEntry.decode env)).map DecodedAdminEntry.wk

/-- The admin entry decodes, and registered keys name accounts. -/
structure World.Accountable (env : Env) (w : World) : Prop where
  admin : ∀ buffer, w.view.get .admin = some buffer → (AdminEntry.decode env buffer).isSome
  registered : ∀ key address, w.view.get (.writerAddress key) = some address →
    ∃ p, party env address = .ok p ∧ w.view.Present (.account p.address)

theorem AdminRecoveryStep.decode_admin (e : AdminRecoveryStep env w node op) :
    e.result.view.get .admin = some (e.s.address ++ e.s.body.iw) ∧
      (AdminEntry.decode env (e.s.address ++ e.s.body.iw)).isSome := by
  have haddress := (party_eq_ok.mp e.completed.verified.requester).1
  refine ⟨by simp [AdminRecoveryStep.result, Store.get_put], ?_⟩
  rw [AdminEntry.decode_append haddress e.length_iw]
  rfl

theorem OperationStep.accountable_admin (h : w.Accountable env)
    (e : OperationStep env w node op type) {buffer : Buffer}
    (hget : e.result.view.get .admin = some buffer) : (AdminEntry.decode env buffer).isSome := by
  by_cases hadd : type = .addAdmin
  · subst hadd
    obtain ⟨buffer', hbuf, hdec⟩ := (AddAdminStep.adminAt e).decode
    cases hbuf.symm.trans hget
    rw [hdec]
    rfl
  by_cases hrec : type = .adminRecovery
  · subst hrec
    obtain ⟨hbuf, hdec⟩ := AdminRecoveryStep.decode_admin e
    cases hbuf.symm.trans hget
    exact hdec
  · rw [e.get_admin hadd hrec] at hget
    exact h.admin buffer hget

/-- The requester of an operation that registers a key has an account afterwards. -/
theorem OperationStep.accountable_requester (e : OperationStep env w node op type)
    (hwrites : type.writes (.writerAddress k)) {b : Buffer} (hb : op.address = .buffer b) :
    ∃ p, party env b = .ok p ∧ e.result.view.Present (.account p.address) := by
  cases type with
  | addAdmin =>
    obtain ⟨-, ha, -⟩ := Check.validateCoreAdminOperation_eq_some.mp e.check
    cases ha.symm.trans hb
    obtain ⟨-, a, ha', -⟩ := AddAdminStep.hasAdmin e
    exact ⟨_, AddAdminStep.requester e, ha'.present⟩
  | addWriter =>
    obtain ⟨-, ha, -⟩ := Check.validateRoleAccessOperation_eq_some.mp e.check
    cases ha.symm.trans hb
    exact ⟨_, e.completed.verified.requester, e.present e.completed.requester.present⟩
  | adminRecovery =>
    obtain ⟨-, ha, -⟩ := Check.validateRoleAccessOperation_eq_some.mp e.check
    cases ha.symm.trans hb
    exact ⟨_, e.completed.verified.requester, e.present e.completed.requester.present⟩
  | _ => cases hwrites

theorem OperationStep.accountable (h : w.Accountable env) (e : OperationStep env w node op type) :
    e.result.Accountable env := by
  refine ⟨fun buffer => e.accountable_admin h, fun key address hget => ?_⟩
  cases hold : w.view.get (.writerAddress key) with
  | some old =>
    cases (e.get_permanent rfl hold).symm.trans hget
    obtain ⟨p, hparty, hp⟩ := h.registered key _ hold
    exact ⟨p, hparty, e.present hp⟩
  | none =>
    by_cases hwrites : type.writes (.writerAddress key)
    · exact e.accountable_requester hwrites (e.registrant hold hget)
    · rw [e.get_eq (Bool.eq_false_iff.mpr hwrites), hold] at hget
      cases hget

theorem Event.Step.accountable {e : Event} (hs : e.Step env) (h : e.before.Accountable env) :
    e.after.Accountable env := by
  cases hs with
  | operation hdec s => exact s.accountable h
  | penalty hpos hn s =>
    refine ⟨fun buffer hget => ?_, fun key address hget => ?_⟩
    · rw [s.get_eq rfl] at hget
      exact h.admin buffer hget
    · rw [s.get_eq rfl] at hget
      obtain ⟨p, hparty, hp⟩ := h.registered key address hget
      exact ⟨p, hparty, hp.put⟩

theorem accountable_genesis : (genesis env).Accountable env := ⟨nofun, nofun⟩

/-! ### The penalty -/

/-- The author is not penalized: it did nothing invalid, there is no admin, it is the admin, or its
key is not registered. -/
def World.Spared (env : Env) (w : World) (k : Buffer) (n : ℕ) : Prop :=
  n = 0 ∨ ¬w.view.Present .admin ∨ w.adminKey env = some k ∨ ¬w.view.Present (.writerAddress k)

/-- What is left of the stake goes to the balance, and the account is whitelisted again. -/
structure Penalized (w w' : World) (k : Buffer) (n : ℕ) (s : Str) (a : Account) : Prop where
  account : ∃ rest : Balance,
    rest.toNat = a.balance.toNat + (a.stakedBalance.toNat - n * balanceFee.toNat) ∧
      w'.Has s { a with role := .whitelisted, balance := rest, stakedBalance := balanceZero }
  other : ∀ key, key ≠ .account s → w'.view.get key = w.view.get key
  base : w'.base = w.base.removeWriter k
  removed : k ∉ w'.base.writers

theorem PenaltyStep.not_spared (hn : n ≠ 0) (e : PenaltyStep env w k n) : ¬w.Spared env k n := by
  obtain ⟨buffer, entry, hbuf, hdec, hne⟩ := e.admin
  have hbuf : w.view.get .admin = some buffer := hbuf
  rintro (h | h | h | h)
  · exact hn h
  · exact h (Option.isSome_iff_exists.mpr ⟨buffer, hbuf⟩)
  · rw [World.adminKey, hbuf, Option.bind_some, hdec] at h
    exact hne (Option.some.inj h)
  · exact h (Option.isSome_iff_exists.mpr ⟨_, e.registered⟩)

theorem penalize_of_spared (hw : w.WellFormed) (hn : n ≤ batchSize) (hpos : n ≠ 0)
    (h : w.Spared env k n) : penalize env k n w = w := by
  rcases hexec : (validatorPenaltyApply env k n).exec w with ⟨e | u, w'⟩
  · rw [penalize, hexec]
    exact validatorPenaltyApply_atomic hexec
  · obtain ⟨s, -⟩ := (validatorPenaltyApply_ok hw hn).mp hexec
    exact absurd h (s.not_spared hpos)

theorem penalize_of_not_spared (hw : w.WellFormed) (hacc : w.Accountable env) (hn : n ≤ batchSize)
    (h : ¬w.Spared env k n) : ∃ s a, w.owner env k = some s ∧ w.Has s a ∧
      (a.balance.toNat + (a.stakedBalance.toNat - n * balanceFee.toNat) < 2 ^ 128 →
        Penalized w (penalize env k n w) k n s a) := by
  simp only [World.Spared, not_or, not_not] at h
  obtain ⟨-, hadmin, hkey, hregistered⟩ := h
  obtain ⟨buffer, hbuf⟩ := Option.isSome_iff_exists.mp hadmin
  obtain ⟨entry, hdec⟩ := Option.isSome_iff_exists.mp (hacc.admin buffer hbuf)
  obtain ⟨address, haddress⟩ := Option.isSome_iff_exists.mp hregistered
  obtain ⟨p, hparty, hp⟩ := hacc.registered k address haddress
  obtain ⟨a, ha, -⟩ := exists_has_balance hw hp
  have hbuf : w.view.get .admin = some buffer := hbuf
  have hne : entry.wk ≠ k := by
    rintro rfl
    rw [World.adminKey, hbuf, Option.bind_some, hdec] at hkey
    exact hkey rfl
  refine ⟨p.address, a, ?_, ha, fun hlt => ?_⟩
  · rw [World.owner_of_get haddress]
    exact (party_eq_ok.mp hparty).1
  obtain ⟨rest, hrest⟩ := exists_balance hlt
  let e : PenaltyStep env w k n := {
    address, validator := p, a, rest
    admin := ⟨buffer, entry, hbuf, hdec, hne⟩
    registered := haddress
    decoded := hparty
    has := ha
    released := hrest }
  have hexec := (validatorPenaltyApply_ok (u := ()) hw hn).mpr ⟨e, rfl⟩
  rw [penalize, hexec]
  refine ⟨⟨rest, hrest, ?_⟩, fun key hkey => Store.get_put_ne _ _ hkey, rfl, ?_⟩
  · simp [World.Has, PenaltyStep.result, PenaltyStep.account, e]
  · simp [PenaltyStep.result, Base.removeWriter]

/-- What a batch of an author adds up to, and what it costs the author: `n` is the number of its
invalid nodes, and `w₁` the state that its operations leave. -/
theorem penalty_exact (hw : Reachable env w) (hne : nodes ≠ [])
    (hkey : ∀ node ∈ nodes, node.key = k) (h : apply env nodes w = some w') :
    ∃ n w₁, (if batchSize < nodes.length then n = batchSize ∧ w₁ = w else Batch env nodes w n w₁) ∧
      (w₁.Spared env k n → w' = w₁) ∧
      (¬w₁.Spared env k n → ∃ s a, w₁.owner env k = some s ∧ w₁.Has s a ∧
        (a.balance.toNat + (a.stakedBalance.toNat - n * balanceFee.toNat) < 2 ^ 128 →
          Penalized w₁ w' k n s a)) := by
  obtain ⟨first, rest, rfl⟩ := List.exists_cons_of_ne_nil hne
  have hfirst := hkey first List.mem_cons_self
  have hacc {w : World} (h : Visited env w) : w.Accountable env :=
    h.invariant accountable_genesis fun _ hs _ => hs.accountable
  by_cases hlen : batchSize < (first :: rest).length
  · rw [apply, if_pos hlen, hfirst, Option.some.injEq] at h
    subst h
    refine ⟨batchSize, w, by rw [if_pos hlen]; exact ⟨rfl, rfl⟩, fun h => ?_, fun h => ?_⟩
    · exact penalize_of_spared hw.wellFormed (Nat.le_refl _) (by decide) h
    · exact penalize_of_not_spared hw.wellFormed (hacc hw.visited) (Nat.le_refl _) h
  · rw [apply, if_neg hlen] at h
    obtain ⟨⟨n, w₁⟩, hnodes, h⟩ := Option.bind_eq_some_iff.mp h
    have hvisited : Visited env w₁ := .mk hw hnodes
    have hn : n ≤ batchSize := (applyNodes_le hnodes).trans (Nat.not_lt.mp hlen)
    simp only [hfirst, Option.pure_def, Option.some.injEq] at h
    subst h
    refine ⟨n, w₁, ?_, fun h => ?_, fun h => ?_⟩
    · rw [if_neg hlen]
      exact (applyNodes_eq_some hw.wellFormed).mp hnodes
    · split
      case isTrue hpos => exact penalize_of_spared hvisited.wellFormed hn hpos.ne' h
      case isFalse => rfl
    · have hpos : 0 < n := Nat.pos_of_ne_zero fun hzero => h (.inl hzero)
      rw [if_pos hpos]
      exact penalize_of_not_spared hvisited.wellFormed (hacc hvisited) hn h

namespace Sample

/-- Alice authors a batch with the payment that only a block of the admin may hold. -/
theorem penalty_exact_payAdmin :
    ∃ w', apply network [block aliceCore payAdminOp] joined = some w' ∧
      ∃ n w₁, Batch network [block aliceCore payAdminOp] joined n w₁ ∧
        (w₁.Spared network aliceCore n → w' = w₁) ∧
        (¬w₁.Spared network aliceCore n → ∃ s a, w₁.owner network aliceCore = some s ∧
          w₁.Has s a ∧
          (a.balance.toNat + (a.stakedBalance.toNat - n * balanceFee.toNat) < 2 ^ 128 →
            Penalized w₁ w' aliceCore n s a)) := by
  have hsome : (apply network [block aliceCore payAdminOp] joined).isSome := by decide +kernel
  obtain ⟨w', h⟩ := Option.isSome_iff_exists.mp hsome
  exact ⟨w', h, penalty_exact reachable_joined (List.cons_ne_nil _ _) (by simp [block]) h⟩

end Sample

end SettlementBus
