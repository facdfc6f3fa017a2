import SettlementBus.Steps.Atomic

/-! The events of a batch, and runs as sequences of events. -/

namespace SettlementBus

open Lib

variable {env : Env} {w w' : World} {node : Node} {op : Operation} {type : OperationType}

/-- What a successful operation of the type establishes. -/
def OperationStep (env : Env) (w : World) (node : Node) (op : Operation) : OperationType → Type
  | .addAdmin => AddAdminStep env w node op
  | .disableInitialization => DisableInitializationStep env w node op
  | .balanceInitialization => InitializeBalanceStep env w node op
  | .appendWhitelist => AppendWhitelistStep env w node op
  | .addWriter => AddWriterStep env w node op
  | .removeWriter => RemoveWriterStep env w node op
  | .adminRecovery => AdminRecoveryStep env w node op
  | .addIndexer => AddIndexerStep env w node op
  | .removeIndexer => RemoveIndexerStep env w node op
  | .banValidator => BanValidatorStep env w node op
  | .bootstrapDeployment => BootstrapDeploymentStep env w node op
  | .tx => TxStep env w node op
  | .transfer => TransferStep env w node op

def OperationStep.result : {type : OperationType} → OperationStep env w node op type → World
  | .addAdmin, e => AddAdminStep.result e
  | .disableInitialization, e => DisableInitializationStep.result e
  | .balanceInitialization, e => InitializeBalanceStep.result e
  | .appendWhitelist, e => AppendWhitelistStep.result e
  | .addWriter, e => AddWriterStep.result e
  | .removeWriter, e => RemoveWriterStep.result e
  | .adminRecovery, e => AdminRecoveryStep.result e
  | .addIndexer, e => AddIndexerStep.result e
  | .removeIndexer, e => RemoveIndexerStep.result e
  | .banValidator, e => BanValidatorStep.result e
  | .bootstrapDeployment, e => BootstrapDeploymentStep.result e
  | .tx, e => TxStep.result e
  | .transfer, e => TransferStep.result e

theorem handler_ok (hw : w.WellFormed) :
    (handler env type op node).exec w = (.ok (), w') ↔
      ∃ e : OperationStep env w node op type, e.result = w' := by
  cases type with
  | addAdmin => exact handleApplyAddAdminOperation_ok
  | disableInitialization => exact handleApplyDisableBalanceInitializationOperation_ok
  | balanceInitialization => exact handleApplyInitializeBalanceOperation_ok hw
  | appendWhitelist => exact handleApplyAppendWhitelistOperation_ok hw
  | addWriter => exact handleApplyAddWriterOperation_ok hw
  | removeWriter => exact handleApplyRemoveWriterOperation_ok hw
  | adminRecovery => exact handleApplyAdminRecoveryOperation_ok hw
  | addIndexer => exact handleApplyAddIndexerOperation_ok hw
  | removeIndexer => exact handleApplyRemoveIndexerOperation_ok hw
  | banValidator => exact handleApplyBanValidatorOperation_ok hw
  | bootstrapDeployment => exact handleApplyBootstrapDeploymentOperation_ok hw
  | tx => exact handleApplyTxOperation_ok hw
  | transfer => exact handleApplyTransferOperation_ok hw

theorem handler_atomic (hw : w.WellFormed) : Atomic (handler env type op node) w := by
  cases type with
  | addAdmin => exact handleApplyAddAdminOperation_atomic
  | disableInitialization => exact handleApplyDisableBalanceInitializationOperation_atomic
  | balanceInitialization => exact handleApplyInitializeBalanceOperation_atomic
  | appendWhitelist => exact handleApplyAppendWhitelistOperation_atomic hw
  | addWriter => exact handleApplyAddWriterOperation_atomic
  | removeWriter => exact handleApplyRemoveWriterOperation_atomic
  | adminRecovery => exact handleApplyAdminRecoveryOperation_atomic
  | addIndexer => exact handleApplyAddIndexerOperation_atomic
  | removeIndexer => exact handleApplyRemoveIndexerOperation_atomic
  | banValidator => exact handleApplyBanValidatorOperation_atomic
  | bootstrapDeployment => exact handleApplyBootstrapDeploymentOperation_atomic
  | tx => exact handleApplyTxOperation_atomic
  | transfer => exact handleApplyTransferOperation_atomic

namespace View

variable {view : View} {P : Str → Account → Prop} {address recipient : Str} {v c : Account}
  {key license buffer : Buffer} {count : Option ℕ} {kind : TransferCase} {payer : Option Account}

@[simp] theorem has_registerKey :
    Has (registerKey view key buffer) address v ↔ Has view address v := by
  unfold registerKey
  split <;> simp

@[simp] theorem has_assignLicense :
    Has (assignLicense view buffer license count) address v ↔ Has view address v := by
  cases count <;> simp [assignLicense]

theorem WellFormed.registerKey (h : WellFormed view) :
    WellFormed (registerKey view key buffer) := by
  unfold SettlementBus.registerKey
  split
  · exact h.put_other rfl
  · exact h

theorem WellFormed.putAccount (h : WellFormed view) :
    WellFormed (putAccount view address payer) := by
  cases payer with
  | none => exact h
  | some c => exact h.put_account

theorem WellFormed.assignLicense (h : WellFormed view) :
    WellFormed (assignLicense view buffer license count) := by
  cases count with
  | none => exact h
  | some count => exact (h.put_other rfl).put_other rfl

theorem WellFormed.putFirst (h : WellFormed view) :
    WellFormed (kind.putFirst recipient v view) := by
  cases kind with
  | self => exact h
  | validator => exact h.put_account
  | other c => exact h.put_account

theorem WellFormed.putAgain (h : WellFormed view) : WellFormed (kind.putAgain recipient view) := by
  cases kind with
  | other c => exact h.put_account
  | _ => exact h

end View

theorem OperationStep.wellFormed (hw : w.WellFormed) (e : OperationStep env w node op type) :
    e.result.WellFormed := by
  cases type <;>
    apply_rules [View.WellFormed.put_account, View.WellFormed.put_other,
      View.WellFormed.registerKey, View.WellFormed.putAccount, View.WellFormed.assignLicense,
      View.WellFormed.putFirst, View.WellFormed.putAgain, rfl]

theorem PenaltyStep.wellFormed {key : Buffer} {n : ℕ} (hw : w.WellFormed)
    (e : PenaltyStep env w key n) : e.result.WellFormed := View.WellFormed.put_account hw

/-! ### Events -/

/-- What changes the state: a successful operation, or the penalty at the end of a batch. -/
inductive Cause
  | operation (node : Node) (type : OperationType) (op : Operation)
  | penalty (key : Buffer) (invalidOperations : ℕ)

structure Event where
  before : World
  cause : Cause
  after : World

/-- The type of the operation that succeeded, or `none` for a penalty. -/
def Event.operationType (e : Event) : Option OperationType :=
  match e.cause with
  | .operation _ type _ => some type
  | .penalty .. => none

theorem Event.operationType_eq_some {e : Event} {type : OperationType} :
    e.operationType = some type ↔ ∃ node op, e.cause = .operation node type op := by
  unfold Event.operationType
  cases e.cause with
  | operation node type' op => simp
  | penalty key n => simp

section

variable (env)

def nodeEvents (node : Node) (w : World) : List Event :=
  match decodeNode env node, applyNode env node w with
  | some (type, op), some (.success, w') =>
    [{ before := w, cause := .operation node type op, after := w' }]
  | _, _ => []

def nodesEvents : List Node → World → List Event
  | [], _ => []
  | node :: nodes, w =>
    nodeEvents env node w ++ (applyNode env node w).elim [] fun r => nodesEvents nodes r.2

def penaltyEvents (writingKey : Buffer) (invalidOperations : ℕ) (w : World) : List Event :=
  match (validatorPenaltyApply env writingKey invalidOperations).exec w with
  | (.ok _, w') => [{ before := w, cause := .penalty writingKey invalidOperations, after := w' }]
  | _ => []

/-- The changes that `apply` makes, in their order. -/
def events : List Node → World → List Event
  | [], _ => []
  | first :: nodes, w =>
    if batchSize < (first :: nodes).length then penaltyEvents env first.key batchSize w
    else
      nodesEvents env (first :: nodes) w ++ (applyNodes env (first :: nodes) w).elim [] fun r =>
        if 0 < r.1 then penaltyEvents env first.key r.1 r.2 else []

/-- The change is one a step describes. -/
inductive Event.Step : Event → Prop
  | operation {w : World} {node : Node} {type : OperationType} {op : Operation}
      (hdec : decodeNode env node = some (type, op)) (s : OperationStep env w node op type) :
      Step { before := w, cause := .operation node type op, after := s.result }
  | penalty {w : World} {key : Buffer} {n : ℕ} (hpos : 0 < n) (hn : n ≤ batchSize)
      (s : PenaltyStep env w key n) :
      Step { before := w, cause := .penalty key n, after := s.result }

/-- The events lead from one state to the other. -/
inductive Path : World → List Event → World → Prop
  | nil {w : World} : Path w [] w
  | cons {e : Event} {es : List Event} {w' : World} :
      e.Step env → Path e.after es w' → Path e.before (e :: es) w'

end

theorem Path.append {es es' : List Event} {w'' : World} (h : Path env w es w')
    (h' : Path env w' es' w'') : Path env w (es ++ es') w'' := by
  induction h with
  | nil => exact h'
  | cons hs _ ih => exact .cons hs (ih h')

theorem Path.cons_iff {e : Event} {es : List Event} : Path env w (e :: es) w' ↔
    w = e.before ∧ e.Step env ∧ Path env e.after es w' := by
  constructor
  · intro h
    cases h with
    | cons hs hrest => exact ⟨rfl, hs, hrest⟩
  · rintro ⟨rfl, hs, hrest⟩
    exact .cons hs hrest

theorem Path.append_iff {es es' : List Event} :
    Path env w (es ++ es') w' ↔ ∃ w₁, Path env w es w₁ ∧ Path env w₁ es' w' := by
  constructor
  · intro h
    induction es generalizing w with
    | nil => exact ⟨w, .nil, h⟩
    | cons e es ih =>
      cases h with
      | cons hs hrest =>
        obtain ⟨w₁, h₁, h₂⟩ := ih hrest
        exact ⟨w₁, .cons hs h₁, h₂⟩
  · rintro ⟨w₁, h₁, h₂⟩
    exact h₁.append h₂

theorem Path.preserves {es : List Event} {P : World → Prop} (h : Path env w es w') (hw : P w)
    (hP : ∀ e ∈ es, e.Step env → P e.before → P e.after) : P w' := by
  induction h with
  | nil => exact hw
  | cons hs _ ih =>
    exact ih (hP _ List.mem_cons_self hs hw) fun e he => hP e (List.mem_cons_of_mem _ he)

theorem Event.Step.wellFormed {e : Event} (h : e.Step env) (hw : e.before.WellFormed) :
    e.after.WellFormed := by
  cases h with
  | operation hdec s => exact s.wellFormed hw
  | penalty hpos hn s => exact s.wellFormed hw

theorem Path.wellFormed {es : List Event} (h : Path env w es w') (hw : w.WellFormed) :
    w'.WellFormed := h.preserves hw fun _ _ hs => hs.wellFormed

theorem Path.invariant {es : List Event} {P : World → Prop} (h : Path env w es w')
    (hwf : w.WellFormed) (hw : P w)
    (hP : ∀ e ∈ es, e.Step env → e.before.WellFormed → P e.before → P e.after) : P w' := by
  induction h with
  | nil => exact hw
  | cons hs _ ih =>
    exact ih (hs.wellFormed hwf) (hP _ List.mem_cons_self hs hwf hw) fun e he =>
      hP e (List.mem_cons_of_mem _ he)

/-- An invariant holds before every event of a path. -/
theorem Path.mem {es : List Event} {P : World → Prop} (h : Path env w es w') (hwf : w.WellFormed)
    (hw : P w) (hP : ∀ e : Event, e.Step env → e.before.WellFormed → P e.before → P e.after)
    {e : Event} (he : e ∈ es) : e.Step env ∧ e.before.WellFormed ∧ P e.before := by
  induction h with
  | nil => cases he
  | cons hs _ ih =>
    obtain rfl | he := List.mem_cons.mp he
    · exact ⟨hs, hwf, hw⟩
    · exact ih (hs.wellFormed hwf) (hP _ hs hwf hw) he

theorem runHandler_eq_some {x : Apply Unit} {status : Status} (hx : Atomic x w)
    (h : runHandler x w = some (status, w')) :
    status = .success ∧ x.exec w = (.ok (), w') ∨ status ≠ .success ∧ w' = w := by
  unfold runHandler at h
  split at h
  case h_1 hexec =>
    cases h
    exact .inl ⟨rfl, hexec⟩
  case h_2 hexec =>
    cases h
    exact .inr ⟨nofun, hx.state_eq hexec nofun⟩
  case h_3 hexec =>
    cases h
    exact .inr ⟨nofun, hx.state_eq hexec nofun⟩
  case h_4 => cases h

theorem applyNode_path (hw : w.WellFormed) {status : Status}
    (h : applyNode env node w = some (status, w')) : Path env w (nodeEvents env node w) w' := by
  rw [nodeEvents, h]
  unfold applyNode at h
  split at h
  case h_1 type op hdec =>
    obtain ⟨rfl, hexec⟩ | ⟨hne, rfl⟩ := runHandler_eq_some (handler_atomic hw) h
    · obtain ⟨s, rfl⟩ := (handler_ok hw).mp hexec
      rw [hdec]
      exact .cons (.operation hdec s) .nil
    · cases status with
      | success => exact absurd rfl hne
      | _ => simpa [hdec] using Path.nil
  case h_2 hdec =>
    cases h
    simpa [hdec] using Path.nil

theorem runHandler_eq_success {x : Apply Unit} :
    runHandler x w = some (.success, w') ↔ x.exec w = (.ok (), w') := by
  unfold runHandler
  split <;> simp_all

/-- A node succeeds exactly when it decodes to an operation whose step exists. -/
theorem applyNode_eq_success (hw : w.WellFormed) : applyNode env node w = some (.success, w') ↔
    ∃ type op, decodeNode env node = some (type, op) ∧
      ∃ e : OperationStep env w node op type, e.result = w' := by
  unfold applyNode
  split
  case h_1 type op hdec =>
    rw [runHandler_eq_success, handler_ok hw, hdec]
    constructor
    · exact fun h => ⟨type, op, rfl, h⟩
    · rintro ⟨_, _, ⟨⟩, h⟩
      exact h
  case h_2 hdec =>
    constructor
    · rintro ⟨⟩
    · rintro ⟨type, op, h, -⟩
      cases hdec.symm.trans h

theorem exists_applyNode {status : Status}
    (h : (applyNode env node w).map Prod.fst = some status) :
    ∃ w', applyNode env node w = some (status, w') := by
  obtain ⟨⟨_, w'⟩, hnode, rfl⟩ := Option.map_eq_some_iff.mp h
  exact ⟨w', hnode⟩

theorem applyNodes_cons {nodes : List Node} {n : ℕ} :
    applyNodes env (node :: nodes) w = some (n, w') ↔
      ∃ status w₁ m, applyNode env node w = some (status, w₁) ∧
        applyNodes env nodes w₁ = some (m, w') ∧ (if status = .failure then 1 else 0) + m = n := by
  simp only [applyNodes, Option.bind_eq_bind, Option.bind_eq_some_iff, Prod.exists, Option.pure_def,
    Option.some.injEq, Prod.mk.injEq]
  constructor
  · rintro ⟨status, w₁, h₁, m, w₂, h₂, rfl, rfl⟩
    exact ⟨status, w₁, m, h₁, h₂, rfl⟩
  · rintro ⟨status, w₁, m, h₁, h₂, rfl⟩
    exact ⟨status, w₁, h₁, m, w', h₂, rfl, rfl⟩

theorem applyNodes_path {nodes : List Node} {n : ℕ} (hw : w.WellFormed)
    (h : applyNodes env nodes w = some (n, w')) : Path env w (nodesEvents env nodes w) w' := by
  induction nodes generalizing w n with
  | nil =>
    cases h
    exact .nil
  | cons node nodes ih =>
    obtain ⟨status, w₁, m, h₁, h₂, -⟩ := applyNodes_cons.mp h
    rw [nodesEvents, h₁]
    have hp := applyNode_path hw h₁
    exact hp.append (ih (hp.wellFormed hw) h₂)

theorem applyNodes_le {nodes : List Node} {n : ℕ} (h : applyNodes env nodes w = some (n, w')) :
    n ≤ nodes.length := by
  induction nodes generalizing w n with
  | nil =>
    cases h
    exact Nat.le_refl 0
  | cons node nodes ih =>
    obtain ⟨status, w₁, m, -, h₂, rfl⟩ := applyNodes_cons.mp h
    have := ih h₂
    rw [List.length_cons]
    split <;> omega

theorem validatorPenaltyApply_atomic {key : Buffer} {n : ℕ} {e : Exit}
    (h : (validatorPenaltyApply env key n).exec w = (.error e, w')) : w' = w := by
  have hwp : (validatorPenaltyApply env key n).wp (fun _ _ => True) (fun _ w' => w' = w) w := by
    simp [validatorPenaltyApply]
  exact Exec.wp_of_error (E := fun _ w' => w' = w) hwp h

theorem penalize_path {key : Buffer} {n : ℕ} (hw : w.WellFormed) (hpos : 0 < n)
    (hn : n ≤ batchSize) : Path env w (penaltyEvents env key n w) (penalize env key n w) := by
  unfold penaltyEvents penalize
  split
  case h_1 hexec =>
    obtain ⟨s, rfl⟩ := (validatorPenaltyApply_ok hw hn).mp hexec
    rw [hexec]
    exact .cons (.penalty hpos hn s) .nil
  case h_2 hexec =>
    rcases h : (validatorPenaltyApply env key n).exec w with ⟨e | u, w'⟩
    · cases validatorPenaltyApply_atomic h
      exact .nil
    · exact absurd h (hexec u w')

theorem apply_path {nodes : List Node} (hw : w.WellFormed) (h : apply env nodes w = some w') :
    Path env w (events env nodes w) w' := by
  cases nodes with
  | nil => cases h
  | cons first nodes =>
    simp only [apply] at h
    simp only [events]
    by_cases hlen : batchSize < (first :: nodes).length
    · rw [if_pos hlen] at h ⊢
      cases h
      exact penalize_path hw (by decide) (Nat.le_refl _)
    · rw [if_neg hlen] at h ⊢
      simp only [Option.bind_eq_bind, Option.bind_eq_some_iff, Prod.exists, Option.pure_def,
        Option.some.injEq] at h
      obtain ⟨n, w₁, hnodes, rfl⟩ := h
      have hp := applyNodes_path hw hnodes
      rw [hnodes]
      refine hp.append ?_
      simp only [Option.elim]
      split
      case isTrue hpos =>
        exact penalize_path (hp.wellFormed hw) hpos
          (Nat.le_trans (applyNodes_le hnodes) (Nat.not_lt.mp hlen))
      case isFalse => exact .nil

/-! ### Runs -/

/-- Batches lead from one state to another, with the changes they make in their order. -/
inductive Run (env : Env) (w : World) : List Event → World → Prop
  | refl : Run env w [] w
  | apply {es : List Event} {w' w'' : World} {nodes : List Node} :
      Run env w es w' → apply env nodes w' = some w'' → Run env w (es ++ events env nodes w') w''

theorem Run.single {nodes : List Node} (h : SettlementBus.apply env nodes w = some w') :
    Run env w (events env nodes w) w' := by
  simpa using Run.refl.apply h

theorem Reachable.exists_run (h : Reachable env w) :
    ∃ es, Run env (SettlementBus.genesis env) es w := by
  induction h with
  | genesis => exact ⟨[], .refl⟩
  | apply _ happly ih =>
    obtain ⟨es, hrun⟩ := ih
    exact ⟨_, hrun.apply happly⟩

theorem Run.path {es : List Event} (h : Run env w es w') (hw : w.WellFormed) :
    Path env w es w' := by
  induction h with
  | refl => exact .nil
  | apply _ happly ih => exact ih.append (apply_path (ih.wellFormed hw) happly)

theorem Run.reachable {es : List Event} (h : Run env (genesis env) es w) : Reachable env w := by
  induction h with
  | refl => exact .genesis
  | apply _ happly ih => exact ih.apply happly

theorem wellFormed_genesis : (genesis env).WellFormed := View.wellFormed_empty

theorem Reachable.path (h : Reachable env w) :
    ∃ es, Path env (SettlementBus.genesis env) es w := by
  obtain ⟨es, hrun⟩ := h.exists_run
  exact ⟨es, hrun.path wellFormed_genesis⟩

theorem Reachable.wellFormed (h : Reachable env w) : w.WellFormed := by
  obtain ⟨es, hp⟩ := h.path
  exact hp.wellFormed wellFormed_genesis

/-- What holds at the start and is kept by every event holds in every reachable state. -/
theorem Reachable.invariant {P : World → Prop} (h : Reachable env w)
    (hgenesis : P (SettlementBus.genesis env))
    (hstep : ∀ e : Event, e.Step env → e.before.WellFormed → P e.before → P e.after) : P w := by
  obtain ⟨es, hp⟩ := h.path
  exact hp.invariant wellFormed_genesis hgenesis fun e _ => hstep e

/-- The states in which handlers run: after some batches, and some nodes of the next one. -/
inductive Visited (env : Env) : World → Prop
  | mk {w w' : World} {nodes : List Node} {n : ℕ} :
      Reachable env w → applyNodes env nodes w = some (n, w') → Visited env w'

theorem Reachable.visited (h : Reachable env w) : Visited env w :=
  .mk h (rfl : applyNodes env [] w = some (0, w))

theorem Visited.wellFormed (h : Visited env w) : w.WellFormed := by
  obtain ⟨hr, hnodes⟩ := h
  exact (applyNodes_path hr.wellFormed hnodes).wellFormed hr.wellFormed

theorem Visited.invariant {P : World → Prop} (h : Visited env w)
    (hgenesis : P (SettlementBus.genesis env))
    (hstep : ∀ e : Event, e.Step env → e.before.WellFormed → P e.before → P e.after) : P w := by
  obtain ⟨hr, hnodes⟩ := h
  exact (applyNodes_path hr.wellFormed hnodes).invariant hr.wellFormed
    (hr.invariant hgenesis hstep) fun e _ => hstep e

end SettlementBus
