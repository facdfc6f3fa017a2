import SettlementBus.Invariants.Admin
import SettlementBus.Lib.Membership
import SettlementBus.Properties.Alias

/-! The roles in the ledger and the membership of the base follow each other. -/

namespace SettlementBus

open Lib View

variable {env : Env} {w w' : World} {node : Node} {op : Operation} {type : OperationType}

/-- The zero key stands for no key. -/
def ranking : Ranking NodeRole Buffer where
  isWriter := NodeRole.isWriter
  isIndexer := NodeRole.isIndexer
  isWriter_of_isIndexer r := by cases r <;> decide
  unset := zeroWk

theorem Check.NonzeroBuffer.ne_zeroWk {n : ℕ} {b : Buffer} (h : NonzeroBuffer n b) :
    b ≠ zeroWk := by
  rintro rfl
  obtain ⟨x, hx, hx'⟩ := h.nonzero
  exact hx' (List.eq_of_mem_replicate hx)

/-! ### Role and key of an address -/

def View.holds (view : View) (address : Str) : Option (NodeRole × Buffer) :=
  (Store.get view (.account address)).bind fun entry =>
    (NodeRole.ofByte (entry.headD 0)).map fun role =>
      (role, (entry.drop 1).take writerByteLength)

namespace View

variable {view : View} {s t : Str} {a : Account} {k : EntryKey} {v : Buffer}

@[simp] theorem holds_toBuffer : (NodeRole.ofByte (a.toBuffer.headD 0)).map (fun role =>
    (role, (a.toBuffer.drop 1).take writerByteLength)) = some (a.role, a.wk) := by
  rw [show a.toBuffer.headD 0 = a.role.byte from rfl, NodeRole.ofByte_byte]
  simp [Account.toBuffer, ← a.length_wk]

theorem holds_eq (h : Has view s a) : holds view s = some (a.role, a.wk) := by
  rw [holds, show Store.get view _ = _ from h]
  exact holds_toBuffer

theorem holds_eq_none (h : Store.get view (.account s) = none) : holds view s = none := by
  rw [holds, h]
  rfl

theorem holds_put_account :
    holds (view.put (.account s) a.toBuffer) =
      Function.update (holds view) s (some (a.role, a.wk)) := by
  funext t
  by_cases h : t = s
  · subst h
    rw [Function.update_self, holds_eq (a := a) (by simp)]
  · rw [Function.update_of_ne h, holds, Store.get_put_ne _ _ (by simpa using h), holds]

theorem holds_put_other (hk : k.isAccount = false) : holds (view.put k v) = holds view := by
  funext t
  rw [holds, Store.get_put_ne _ _ (account_ne hk), holds]

theorem holds_put_same (h : holds view s = some (a.role, a.wk)) :
    holds (view.put (.account s) a.toBuffer) = holds view := by
  rw [holds_put_account, ← h, Function.update_eq_self]

theorem holds_put_two (a a' : Account) (hs : holds view s = some (a.role, a.wk))
    (ht : holds view t = some (a'.role, a'.wk)) :
    holds ((view.put (.account s) a.toBuffer).put (.account t) a'.toBuffer) = holds view := by
  have hview := holds_put_same hs
  rw [holds_put_same (by rw [hview, ht]), hview]

theorem holds_registerKey {key buffer : Buffer} :
    holds (registerKey view key buffer) = holds view := by
  unfold registerKey
  split
  · exact holds_put_other rfl
  · rfl

theorem holds_assignLicense {address license : Buffer} {count : Option ℕ} :
    holds (assignLicense view address license count) = holds view := by
  cases count with
  | none => rfl
  | some n => exact (holds_put_other rfl).trans (holds_put_other rfl)

theorem holds_putAccount {payer : Option Account}
    (h : ∀ c ∈ payer, holds view s = some (c.role, c.wk)) :
    holds (putAccount view s payer) = holds view := by
  cases payer with
  | none => rfl
  | some c => exact holds_put_same (h c rfl)

theorem Rebalanced.holds_eq (h : view.Rebalanced s a) : holds view s = some (a.role, a.wk) := by
  obtain ⟨a, b, ha, rfl⟩ := h
  exact (View.holds_eq ha :)

end View

theorem NotWhitelisted.holds {old : Account} {s : Str} (h : NotWhitelisted w s old) :
    (w.view.get (.account s) = none ∧ old.wk = zeroWk) ∨ w.Has s old := by
  cases h with
  | new h => exact .inl ⟨h, rfl⟩
  | reader h => exact .inr h

/-- The ledger and the base as one group. -/
def World.membership (env : Env) (w : World) : Membership Str NodeRole Buffer where
  holds := w.view.holds
  owner := w.owner env
  writers := {k | k ∈ w.base.writers}
  indexers := {k | k ∈ w.base.indexers}

/-! ### Steps -/

theorem World.owner_mono (h : ∀ k b, w.view.get (.writerAddress k) = some b →
    w'.view.get (.writerAddress k) = some b) {k : Buffer} {s : Str} (hs : w.owner env k = some s) :
    w'.owner env k = some s := by
  obtain ⟨b, hb, hs⟩ := Option.bind_eq_some_iff.mp hs
  rw [World.owner, h k b hb]
  exact hs

theorem OperationStep.owner_eq (type : OperationType) (e : OperationStep env w node op type)
    {k : Buffer} {s : Str} (h : w.owner env k = some s) : e.result.owner env k = some s :=
  World.owner_mono (fun _ _ => e.get_permanent rfl) h

/-- How the group follows a step that does not make or move the admin. -/
inductive Follows (env : Env) (w : World) (admin : Str) (w' : World) : Prop
  | same (holds : w'.view.holds = w.view.holds) (base : w'.base = w.base)
  | moved {s : Str} {r : NodeRole} {k : Buffer} (hne : s ≠ admin)
      (h : (w.membership env).Moved ranking s r k (w'.membership env))

section Base

variable {base : Base} {key k : Buffer}

theorem Base.mem_insertKey {keys : List Buffer} :
    k ∈ Base.insertKey keys key ↔ k ∈ keys ∨ k = key := by
  unfold insertKey
  split <;> aesop

@[simp] theorem Base.mem_writers_addWriter {isIndexer : Bool} :
    k ∈ (base.addWriter key isIndexer).writers ↔ k ∈ base.writers ∨ k = key := Base.mem_insertKey

@[simp] theorem Base.mem_indexers_addWriter {isIndexer : Bool} :
    k ∈ (base.addWriter key isIndexer).indexers ↔
      if isIndexer then k ∈ base.indexers ∨ k = key else k ∈ base.indexers ∧ k ≠ key := by
  cases isIndexer with
  | false => simp [addWriter]
  | true => exact Base.mem_insertKey

@[simp] theorem Base.mem_writers_removeWriter :
    k ∈ (base.removeWriter key).writers ↔ k ∈ base.writers ∧ k ≠ key := by
  simp [removeWriter]

@[simp] theorem Base.mem_indexers_removeWriter :
    k ∈ (base.removeWriter key).indexers ↔ k ∈ base.indexers ∧ k ≠ key := by
  simp [removeWriter]

end Base

section Agreed

variable (h : (w.membership env).Agrees ranking) {s : Str} {a : Account} {k : Buffer}

include h

theorem wk_mem_writers (ha : w.Has s a) : a.wk ∈ w.base.writers ↔ a.role.isWriter :=
  (h.writer_iff (View.holds_eq ha)).symm

theorem wk_mem_indexers (ha : w.Has s a) : a.wk ∈ w.base.indexers ↔ a.role.isIndexer :=
  (h.indexer_iff (View.holds_eq ha)).symm

/-- A key that is not registered is not in the base. -/
theorem notMem_of_unregistered (hk : w.view.get (.writerAddress k) = none) :
    k ∉ w.base.writers := by
  intro hmem
  obtain ⟨s, r, hs⟩ := h.stored hmem
  have howner : w.owner env k = some s := h.owner_eq hmem hs
  rw [World.owner, hk] at howner
  cases howner

theorem notMem_indexers (hk : k ∉ w.base.writers) : k ∉ w.base.indexers := fun hmem =>
  hk (h.subset hmem)

end Agreed

/-- The pieces of a move, key by key. -/
theorem World.moved {s : Str} {old : Option (NodeRole × Buffer)} {r : NodeRole} {k : Buffer}
    (hold : w.view.holds s = old)
    (holds : w'.view.holds = Function.update w.view.holds s (some (r, k)))
    (owner : ∀ {k t}, w.owner env k = some t → w'.owner env k = some t)
    (registered : k ≠ zeroWk → w'.owner env k = some s)
    (key : k = zeroWk ∨ (∃ r, old = some (r, k)) ∨ w.owner env k = none)
    (set : r.isWriter → k ≠ zeroWk)
    (writers : ∀ x, x ∈ w'.base.writers ↔
      x ∈ w.base.writers ∧ old.map Prod.snd ≠ some x ∨ r.isWriter ∧ k = x)
    (indexers : ∀ x, x ∈ w'.base.indexers ↔
      x ∈ w.base.indexers ∧ old.map Prod.snd ≠ some x ∨ r.isIndexer ∧ k = x) :
    (w.membership env).Moved ranking s r k (w'.membership env) := by
  subst hold
  exact {
    holds, owner, registered, key, set
    writers := Set.ext fun x => by
      rw [Membership.mem_moveKeys]
      exact writers x
    indexers := Set.ext fun x => by
      rw [Membership.mem_moveKeys]
      exact indexers x }

/-- The pieces of a move in which the account keeps its key. -/
theorem World.moved_role {s : Str} {a : Account} {r : NodeRole}
    (h : (w.membership env).Agrees ranking) (ha : w.Has s a)
    (holds : w'.view.holds = Function.update w.view.holds s (some (r, a.wk)))
    (owner : ∀ {k t}, w.owner env k = some t → w'.owner env k = some t)
    (set : r.isWriter → a.role.isWriter)
    (writers : ∀ x, x ∈ w'.base.writers ↔ x ∈ w.base.writers ∧ a.wk ≠ x ∨ r.isWriter ∧ a.wk = x)
    (indexers : ∀ x, x ∈ w'.base.indexers ↔
      x ∈ w.base.indexers ∧ a.wk ≠ x ∨ r.isIndexer ∧ a.wk = x) :
    (w.membership env).Moved ranking s r a.wk (w'.membership env) :=
  World.moved (View.holds_eq ha) holds owner (fun hk => owner (h.registered (View.holds_eq ha) hk))
    (.inr (.inl ⟨_, rfl⟩)) (fun hr => h.ne_unset ((wk_mem_writers h ha).mpr (set hr)))
    (by simpa using writers) (by simpa using indexers)

variable {admin : Str} {wk : Buffer}

/-- An account that is no indexer is not the admin's. -/
theorem ne_of_holds (hadmin : w.view.holds admin = some (.indexer, wk)) {s : Str} {a : Account}
    (ha : w.Has s a) (hrole : a.role ≠ .indexer) : s ≠ admin := by
  rintro rfl
  rw [View.holds_eq ha] at hadmin
  exact hrole (congrArg Prod.fst (Option.some.inj hadmin))

section

variable (h : (w.membership env).Agrees ranking)
  (hadmin : w.view.holds admin = some (.indexer, wk))

include h hadmin

theorem AddWriterStep.follows (e : AddWriterStep env w node op)
    (hne : e.s.requester.address ≠ e.s.validator.address) : Follows env w admin e.result := by
  have hv := View.holds_eq e.completed.validator
  have hreq := (party_eq_ok.mp e.completed.verified.requester).1
  have hold : e.r.wk ∉ w.base.writers := by
    rw [wk_mem_writers h e.completed.requester, e.role]
    intro h
    cases h
  have hnew : e.s.body.iw ∉ w.base.writers := by
    obtain hnone | ⟨heq, -⟩ := e.key
    · exact notMem_of_unregistered h hnone
    · exact heq ▸ hold
  have hview : View.holds (((registerKey
      (w.view.put (.account e.s.requester.address) e.requester.toBuffer) e.s.body.iw
      e.s.address).put (.writersIndex e.length) e.s.address).put .writersLength e.next) =
      Function.update w.view.holds e.s.requester.address (some (.writer, e.s.body.iw)) := by
    rw [View.holds_put_other rfl, View.holds_put_other rfl, View.holds_registerKey,
      View.holds_put_account]
    rfl
  have hget : e.result.view.get (.writerAddress e.s.body.iw) = some e.s.address := by
    simp only [AddWriterStep.result, Store.get_put, get_registerKey]
    obtain hnone | ⟨-, hsome⟩ := e.key
    · simp [hnone]
    · simp [hsome]
  have hrole : e.r.role ≠ .indexer := by
    rw [e.role]
    intro h
    cases h
  refine .moved (ne_of_holds hadmin e.completed.requester hrole)
    (World.moved (r := .writer) (k := e.s.body.iw) (View.holds_eq e.completed.requester) ?_
      (OperationStep.owner_eq .addWriter e) (fun _ => ?_) ?_ (fun _ => e.nonzero) ?_ ?_)
  · rw [AddWriterStep.result, View.holds_put_other rfl, View.holds_put_same, hview]
    rw [hview, Function.update_of_ne hne.symm, hv]
    rfl
  · rw [World.owner, hget]
    exact hreq
  · obtain hnone | ⟨heq, -⟩ := e.key
    · exact .inr (.inr (by rw [World.owner, hnone]; rfl))
    · exact .inr (.inl ⟨_, by rw [heq]⟩)
  · intro x
    have hx : x ∈ w.base.writers → e.r.wk ≠ x := fun hx heq => hold (heq ▸ hx)
    simp only [AddWriterStep.result, Base.mem_writers_addWriter, Option.map_some, ne_eq,
      Option.some.injEq, NodeRole.isWriter, true_and, eq_comm (a := x)]
    grind
  · intro x
    have hx : x ∈ w.base.indexers → e.r.wk ≠ x := fun hx heq =>
      notMem_indexers h hold (heq ▸ hx)
    have hx' : x ∈ w.base.indexers → x ≠ e.s.body.iw := fun hx heq =>
      notMem_indexers h hnew (heq ▸ hx)
    simp only [AddWriterStep.result, Base.mem_indexers_addWriter, Option.map_some, ne_eq,
      Option.some.injEq, NodeRole.isIndexer, Bool.false_eq_true, false_and, or_false, if_false]
    grind

theorem RemoveWriterStep.follows (e : RemoveWriterStep env w node op)
    (hne : e.s.requester.address ≠ e.s.validator.address) : Follows env w admin e.result := by
  have hrole : e.r.role ≠ .indexer := by
    rw [e.role]
    nofun
  refine .moved (ne_of_holds hadmin e.completed.requester hrole)
    (World.moved_role (r := .whitelisted) h e.completed.requester ?_
      (OperationStep.owner_eq .removeWriter e) nofun ?_ ?_)
  · rw [RemoveWriterStep.result, View.holds_put_other rfl, View.holds_put_same,
      View.holds_put_account]
    · rfl
    · rw [View.holds_put_account, Function.update_of_ne hne.symm,
        View.holds_eq e.completed.validator]
      rfl
  · intro x
    simp [RemoveWriterStep.result, NodeRole.isWriter, eq_comm]
  · intro x
    simp [RemoveWriterStep.result, NodeRole.isIndexer, eq_comm]

theorem AddIndexerStep.follows (e : AddIndexerStep env w node op)
    (hreq : e.requester.address = admin) : Follows env w admin e.result := by
  have hrole : e.p.role ≠ .indexer := by
    rw [e.role]
    nofun
  have hne := ne_of_holds hadmin e.has hrole
  refine .moved hne (World.moved_role (r := .indexer) h e.has ?_
    (OperationStep.owner_eq .addIndexer e) (fun _ => by rw [e.role]; rfl) ?_ ?_)
  · rw [AddIndexerStep.result, View.holds_put_other rfl, View.holds_put_same,
      View.holds_put_account]
    · rfl
    · rw [View.holds_put_account, Function.update_of_ne (hreq ▸ hne.symm), View.holds_eq e.payer]
      rfl
  · intro x
    simp [AddIndexerStep.result, NodeRole.isWriter, eq_comm]
  · intro x
    simp [AddIndexerStep.result, NodeRole.isIndexer, eq_comm]

omit h hadmin in
theorem RemoveIndexerStep.target_ne_iff (e : RemoveIndexerStep env w node op) :
    e.toRemove.address ≠ e.requester.address ↔
      op.target.account env ≠ op.address.account env := by
  obtain ⟨-, ha, hv, -⟩ := Check.validateAdminControlOperation_eq_some.mp e.check
  have htarget := (party_eq_ok.mp e.ia).1
  have hreq := (party_eq_ok.mp e.signed.decoded).1
  rw [Operation.target, hv, ha]
  simp [AdminControlOperation.toField, htarget, hreq]

omit hadmin in
theorem RemoveIndexerStep.follows (e : RemoveIndexerStep env w node op)
    (hreq : e.requester.address = admin) (hne : e.toRemove.address ≠ e.requester.address) :
    Follows env w admin e.result := by
  refine .moved (hreq ▸ hne) (World.moved_role (r := .writer) h e.has ?_
    (OperationStep.owner_eq .removeIndexer e) (fun _ => by rw [e.role]; rfl) ?_ ?_)
  · rw [RemoveIndexerStep.result, View.holds_put_other rfl, View.holds_put_same,
      View.holds_put_account, View.holds_put_other rfl, View.holds_put_other rfl]
    · rfl
    · rw [View.holds_put_account, Function.update_of_ne hne.symm, View.holds_put_other rfl,
        View.holds_put_other rfl, View.holds_eq e.payer]
      rfl
  · intro x
    simp [RemoveIndexerStep.result, NodeRole.isWriter, eq_comm]
  · intro x
    simp [RemoveIndexerStep.result, NodeRole.isIndexer]
    grind

theorem BanValidatorStep.follows (e : BanValidatorStep env w node op)
    (hreq : e.requester.address = admin) : Follows env w admin e.result := by
  have hrole : e.t.role ≠ .indexer := by
    obtain ht | ht := e.ban.roles.1
    · rw [ht]
      nofun
    · rw [ht]
      nofun
  have hne := ne_of_holds hadmin e.has hrole
  have hkeys := e.ban.wk_eq
  have hwriter := wk_mem_writers h e.has
  have hindexer := wk_mem_indexers h e.has
  refine .moved hne (World.moved_role (r := .reader) h e.has ?_
    (OperationStep.owner_eq .banValidator e) nofun ?_ ?_)
  · rw [BanValidatorStep.result, View.holds_put_other rfl, View.holds_put_same,
      View.holds_put_account, e.ban.roles.2, hkeys]
    rw [View.holds_put_account, Function.update_of_ne (hreq ▸ hne.symm), View.holds_eq e.payer]
    rfl
  · intro x
    obtain ht | ht := e.ban.roles.1
    · simp only [ht, NodeRole.isWriter] at hwriter
      simp [BanValidatorStep.result, ht, NodeRole.isWriter]
      grind
    · simp [BanValidatorStep.result, ht, NodeRole.isWriter, eq_comm]
  · intro x
    obtain ht | ht := e.ban.roles.1
    · simp only [ht, NodeRole.isIndexer] at hindexer
      simp [BanValidatorStep.result, ht, NodeRole.isIndexer]
      grind
    · simp [BanValidatorStep.result, ht, NodeRole.isIndexer, eq_comm]

omit hadmin in
/-- A penalty that hits a writer names the key the writer holds. -/
theorem PenaltyStep.follows {key : Buffer} {n : ℕ} (e : PenaltyStep env w key n)
    (hne : e.validator.address ≠ admin) (hkey : e.a.role.isWriter → e.a.wk = key) :
    Follows env w admin e.result := by
  have hwriter := wk_mem_writers h e.has
  have hindexer := wk_mem_indexers h e.has
  have hother : key ∈ w.base.writers → e.a.wk = key := by
    intro hmem
    obtain ⟨s, r, hs⟩ := h.stored hmem
    have howner : w.owner env key = some s := h.owner_eq hmem hs
    cases e.owner_eq.symm.trans howner
    rw [show (w.membership env).holds _ = _ from View.holds_eq e.has] at hs
    exact congrArg Prod.snd (Option.some.inj hs)
  refine .moved hne (World.moved_role (r := .whitelisted) h e.has ?_ ?_ nofun ?_ ?_)
  · rw [PenaltyStep.result, View.holds_put_account]
    rfl
  · exact World.owner_mono fun k b hb => get_put_permanent (k := .writerAddress k) rfl hb rfl
  · intro x
    simp [PenaltyStep.result, NodeRole.isWriter]
    grind
  · intro x
    have hsub := notMem_indexers h (k := x)
    have hr := ranking.isWriter_of_isIndexer e.a.role
    simp [PenaltyStep.result, NodeRole.isIndexer]
    grind

theorem AppendWhitelistStep.follows (e : AppendWhitelistStep env w node op)
    (hreq : e.requester.address = admin) : Follows env w admin e.result := by
  have hpayer : View.holds (assignLicense (putAccount w.view e.requester.address e.payer) e.o.ia
      e.license e.count) = w.view.holds := by
    rw [View.holds_assignLicense]
    exact View.holds_putAccount fun c hc => (e.fee.rebalanced c hc).holds_eq
  have hview : e.result.view.holds = Function.update w.view.holds e.target.address
      (some (.whitelisted, e.old.wk)) := by
    rw [AppendWhitelistStep.result, View.holds_put_other rfl, View.holds_put_account, hpayer]
    rfl
  have howner : ∀ {k t}, w.owner env k = some t → e.result.owner env k = some t :=
    OperationStep.owner_eq .appendWhitelist e
  have hrole := e.notWhitelisted.role_eq
  obtain hnew | ha := e.notWhitelisted.holds
  · rw [hnew.2] at hview
    have hold := View.holds_eq_none hnew.1
    refine .moved ?_ (World.moved hold hview howner (absurd rfl) (.inl rfl) (fun h => by cases h) ?_ ?_)
    · rintro rfl
      cases hold.symm.trans hadmin
    · simp [AppendWhitelistStep.result, NodeRole.isWriter]
    · simp [AppendWhitelistStep.result, NodeRole.isIndexer]
  · have hwriter := wk_mem_writers h ha
    have hindexer := wk_mem_indexers h ha
    rw [hrole] at hwriter hindexer
    refine .moved (ne_of_holds hadmin ha (by simp [hrole]))
      (World.moved_role h ha hview howner (fun h => by cases h) ?_ ?_)
    · intro x
      simp [AppendWhitelistStep.result, NodeRole.isWriter] at hwriter ⊢
      grind
    · intro x
      simp [AppendWhitelistStep.result, NodeRole.isIndexer] at hindexer ⊢
      grind

omit h in
/-- An account that receives its first funds is a reader without a key. -/
theorem follows_new {s : Str} {b : Balance} (hnone : w.view.get (.account s) = none)
    (hview : w'.view.holds = Function.update w.view.holds s
      (some ((Account.reader b).role, (Account.reader b).wk)))
    (howner : ∀ {k t}, w.owner env k = some t → w'.owner env k = some t)
    (hbase : w'.base = w.base) :
    Follows env w admin w' := by
  have hold := View.holds_eq_none hnone
  refine .moved ?_ (World.moved hold hview howner (absurd rfl) (.inl rfl) nofun ?_ ?_)
  · rintro rfl
    cases hold.symm.trans hadmin
  · simp [hbase, Account.reader, NodeRole.isWriter]
  · simp [hbase, Account.reader, NodeRole.isIndexer]

omit h in
theorem InitializeBalanceStep.follows (e : InitializeBalanceStep env w node op) :
    Follows env w admin e.result := by
  have hview : e.result.view.holds = Function.update w.view.holds e.recipient.address
      (some (e.c.role, e.c.wk)) := by
    rw [InitializeBalanceStep.result, View.holds_put_other rfl, View.holds_put_account]
  have howner : ∀ {k t}, w.owner env k = some t → e.result.owner env k = some t :=
    OperationStep.owner_eq .balanceInitialization e
  generalize hc : e.c = c at hview
  have hinit := hc ▸ e.initialized
  cases hinit with
  | new hnone => exact follows_new hadmin hnone hview howner rfl
  | old ha =>
    refine .same ?_ rfl
    rw [hview]
    exact Function.update_eq_self_iff.mpr (View.holds_eq ha).symm

omit h in
theorem TransferStep.follows (e : TransferStep env w node op) : Follows env w admin e.result := by
  have hr := View.holds_eq e.completed.requester
  have hv := View.holds_eq e.completed.validator
  have howner : ∀ {k t}, w.owner env k = some t → e.result.owner env k = some t :=
    OperationStep.owner_eq .transfer e
  have hresult : e.result.view.holds = View.holds (e.kind.putAgain e.recipient.address
      (((e.kind.putFirst e.recipient.address e.validator w.view).put
        (.account e.s.requester.address) e.requester.toBuffer).put
        (.account e.s.validator.address) e.validator.toBuffer)) := View.holds_put_other rfl
  have hrecipient := e.recipient_eq
  have hcredited := @e.credited
  generalize e.kind = kind at hresult hrecipient hcredited
  cases kind with
  | self =>
    refine .same ?_ rfl
    rw [hresult]
    exact View.holds_put_two e.requester e.validator hr hv
  | validator =>
    have hfirst : View.holds (w.view.put (.account e.recipient.address) e.validator.toBuffer) =
        w.view.holds := View.holds_put_same (by rw [hrecipient rfl]; exact hv)
    refine .same ?_ rfl
    rw [hresult]
    have hr' := (congrFun hfirst e.s.requester.address).trans hr
    have hv' := (congrFun hfirst e.s.validator.address).trans hv
    exact (View.holds_put_two e.requester e.validator hr' hv').trans hfirst
  | other c =>
    have hc := hcredited rfl
    have hfirst : View.holds (w.view.put (.account e.recipient.address) c.toBuffer) =
        Function.update w.view.holds e.recipient.address (some (c.role, c.wk)) :=
      View.holds_put_account
    have hlater : ∀ {s : Str} {a : Account}, w.view.holds s = some (a.role, a.wk) →
        View.holds (w.view.put (.account e.recipient.address) c.toBuffer) s =
          some (a.role, a.wk) := by
      intro s a hs
      rw [hfirst]
      by_cases heq : s = e.recipient.address
      · subst heq
        rw [Function.update_self]
        cases hc with
        | new hnone => cases (View.holds_eq_none hnone).symm.trans hs
        | old ha => exact (View.holds_eq ha).symm.trans hs
      · rw [Function.update_of_ne heq, hs]
    have htwo : View.holds (((w.view.put (.account e.recipient.address) c.toBuffer).put
        (.account e.s.requester.address) e.requester.toBuffer).put
        (.account e.s.validator.address) e.validator.toBuffer) =
          Function.update w.view.holds e.recipient.address (some (c.role, c.wk)) :=
      (View.holds_put_two e.requester e.validator (hlater hr) (hlater hv)).trans hfirst
    have hview : e.result.view.holds =
        Function.update w.view.holds e.recipient.address (some (c.role, c.wk)) := by
      rw [hresult]
      refine (View.holds_put_same ?_).trans htwo
      rw [TransferCase.putFirst, htwo, Function.update_self]
    cases hc with
    | new hnone => exact follows_new hadmin hnone hview howner rfl
    | old ha =>
      refine .same ?_ rfl
      rw [hview]
      exact Function.update_eq_self_iff.mpr (View.holds_eq ha).symm

end

theorem BootstrapDeploymentStep.holds_eq (e : BootstrapDeploymentStep env w node op) :
    e.result.view.holds = w.view.holds := by
  have hview : View.holds (w.view.put (.deployment e.s.body.bs) (e.s.body.tx ++ e.s.address)) =
      w.view.holds := View.holds_put_other rfl
  have hr := View.holds_eq e.completed.requester
  have hv := View.holds_eq e.completed.validator
  rw [← hview] at hr hv
  rw [BootstrapDeploymentStep.result, View.holds_put_other rfl]
  exact (View.holds_put_two e.requester e.validator hr hv).trans hview

theorem TxStep.holds_eq (e : TxStep env w node op) : e.result.view.holds = w.view.holds := by
  have hr := View.holds_eq e.completed.requester
  have hv := View.holds_eq e.completed.validator
  have htwo : View.holds ((w.view.put (.account e.s.requester.address) e.requester.toBuffer).put
      (.account e.s.validator.address) e.validator.toBuffer) = w.view.holds :=
    View.holds_put_two e.requester e.validator hr hv
  rw [TxStep.result, View.holds_put_other rfl, View.holds_putAccount, htwo]
  intro c hc
  rw [htwo]
  exact (e.share.rebalanced c hc).holds_eq

/-! ### Runs -/

/-- Ledger and base agree, and the admin is the indexer whose key the admin entry holds. -/
structure World.Enrolled (env : Env) (w : World) : Prop where
  agrees : (w.membership env).Agrees ranking
  admin : ∃ s wk, w.AdminAt env s wk ∧ w.view.holds s = some (.indexer, wk)

theorem Follows.enrolled (h : (w.membership env).Agrees ranking)
    (hadmin : w.view.holds admin = some (.indexer, wk)) (hat : w'.AdminAt env admin wk)
    (howner : ∀ {k t}, w.owner env k = some t → w'.owner env k = some t)
    (hf : Follows env w admin w') : w'.Enrolled env := by
  cases hf with
  | same holds base =>
    refine ⟨h.mono holds howner ?_ ?_, admin, wk, hat, holds ▸ hadmin⟩
    · exact congrArg (fun b => {k | k ∈ Base.writers b}) base
    · exact congrArg (fun b => {k | k ∈ Base.indexers b}) base
  | @moved s r k hne hmoved =>
    refine ⟨hmoved.agrees h, admin, wk, hat, ?_⟩
    have hholds : w'.view.holds = Function.update w.view.holds s (some (r, k)) := hmoved.holds
    rw [hholds, Function.update_of_ne hne.symm, hadmin]

theorem AdminRecoveryStep.enrolled (h1 : env.crypto.OneAddressPerKey)
    (h : (w.membership env).Agrees ranking) (hat : w.AdminAt env admin wk)
    (hadmin : w.view.holds admin = some (.indexer, wk)) (e : AdminRecoveryStep env w node op)
    (hne : e.s.requester.address ≠ e.s.validator.address) : e.result.Enrolled env := by
  obtain ⟨hreq, hold, hat'⟩ := e.adminAt h1 hat
  have hr : w.view.holds e.s.requester.address = some (.indexer, e.oldWk) := by
    rw [hreq, hold, hadmin]
  have hrole : e.r.role = .indexer :=
    congrArg Prod.fst (Option.some.inj ((View.holds_eq e.completed.requester).symm.trans hr))
  have hview : View.holds ((w.view.put (.writerAddress e.s.body.iw) e.s.address).put .admin
      (e.s.address ++ e.s.body.iw)) = w.view.holds :=
    (View.holds_put_other rfl).trans (View.holds_put_other rfl)
  have hholds : e.result.view.holds = Function.update w.view.holds e.s.requester.address
      (some (.indexer, e.s.body.iw)) := by
    rw [AdminRecoveryStep.result, View.holds_put_other rfl, View.holds_put_same,
      View.holds_put_account, hview, ← hrole]
    · rfl
    · rw [View.holds_put_account, Function.update_of_ne hne.symm, hview,
        View.holds_eq e.completed.validator]
      rfl
  have hget : e.result.view.get (.writerAddress e.s.body.iw) = some e.s.address := by
    simp [AdminRecoveryStep.result, Store.get_put]
  have hnonzero := (Check.validateRoleAccessOperation_eq_some.mp e.check).2.2.2.iw.ne_zeroWk
  have hmoved : (w.membership env).Moved ranking e.s.requester.address .indexer e.s.body.iw
      (e.result.membership env) := by
    refine World.moved hr hholds (OperationStep.owner_eq .adminRecovery e) (fun _ => ?_)
      (.inr (.inr ?_)) (fun _ => hnonzero) ?_ ?_
    · rw [World.owner, hget]
      exact (party_eq_ok.mp e.completed.verified.requester).1
    · rw [World.owner, e.unregistered]
      rfl
    · intro x
      simp [AdminRecoveryStep.result, NodeRole.isWriter, eq_comm]
    · intro x
      simp [AdminRecoveryStep.result, NodeRole.isIndexer, eq_comm]
  refine ⟨hmoved.agrees h, admin, e.s.body.iw, hat', ?_⟩
  rw [hholds, hreq, Function.update_self]

theorem OperationStep.enrolled (h1 : env.crypto.OneAddressPerKey) (h : w.Enrolled env)
    (e : OperationStep env w node op type) (hfree : op.AliasFree)
    (hsafe : type = .removeIndexer → op.target.account env ≠ op.address.account env) :
    e.result.Enrolled env := by
  obtain ⟨hagrees, admin, wk, hat, hadmin⟩ := h
  have hother : ∀ (_ : type ≠ .addAdmin) (_ : type ≠ .adminRecovery),
      Follows env w admin e.result → e.result.Enrolled env := by
    intro hadd hrec hf
    obtain ⟨address, hget, ha⟩ := hat.entry
    exact hf.enrolled hagrees hadmin
      ⟨⟨address, (e.get_admin hadd hrec).trans hget, ha⟩, hat.length_wk⟩ (e.owner_eq type)
  cases type with
  | addAdmin =>
    obtain ⟨address, hget, -⟩ := hat.entry
    cases hget.symm.trans e.noAdmin
  | adminRecovery =>
    exact AdminRecoveryStep.enrolled h1 hagrees hat hadmin e
      ((Completed.address_ne_iff e.completed (addresses_roleAccess e.check)).mpr hfree)
  | disableInitialization =>
    exact hother nofun nofun
      (.same ((View.holds_put_other rfl).trans (View.holds_put_other rfl)) rfl)
  | balanceInitialization => exact hother nofun nofun (InitializeBalanceStep.follows hadmin e)
  | appendWhitelist =>
    exact hother nofun nofun (AppendWhitelistStep.follows hagrees hadmin e
      (hat.address_eq h1 e.signed.decoded e.signed.admin))
  | addWriter =>
    exact hother nofun nofun (AddWriterStep.follows hagrees hadmin e
      ((Completed.address_ne_iff e.completed (addresses_roleAccess e.check)).mpr hfree))
  | removeWriter =>
    exact hother nofun nofun (RemoveWriterStep.follows hagrees hadmin e
      ((Completed.address_ne_iff e.completed (addresses_roleAccess e.check)).mpr hfree))
  | addIndexer =>
    exact hother nofun nofun (AddIndexerStep.follows hagrees hadmin e
      (hat.address_eq h1 e.signed.decoded e.signed.admin))
  | removeIndexer =>
    exact hother nofun nofun (RemoveIndexerStep.follows hagrees e
      (hat.address_eq h1 e.signed.decoded e.signed.admin)
      ((RemoveIndexerStep.target_ne_iff e).mpr (hsafe rfl)))
  | banValidator =>
    exact hother nofun nofun (BanValidatorStep.follows hagrees hadmin e
      (hat.address_eq h1 e.signed.decoded e.signed.admin))
  | bootstrapDeployment =>
    exact hother nofun nofun (.same (BootstrapDeploymentStep.holds_eq e) rfl)
  | tx => exact hother nofun nofun (.same (TxStep.holds_eq e) rfl)
  | transfer => exact hother nofun nofun (TransferStep.follows hadmin e)

/-- The first admin is the only member, and the bootstrap key the only one of the base. -/
theorem AddAdminStep.enrolled (hw : w.Founded env) (e : AddAdminStep env w node op) :
    e.result.Enrolled env := by
  cases e.eq_genesis hw
  have hholds : e.result.view.holds =
      Function.update (fun _ => none) e.admin.address (some (.indexer, env.config.bootstrap)) := by
    rw [← e.iw]
    simp only [AddAdminStep.result]
    iterate 6 rw [View.holds_put_other rfl]
    rw [View.holds_put_account, View.holds_put_other rfl, View.holds_put_other rfl]
    rfl
  have hone : ∀ {s r k}, e.result.view.holds s = some (r, k) →
      s = e.admin.address ∧ r = .indexer ∧ k = env.config.bootstrap := by
    intro s r k hs
    rw [hholds] at hs
    by_cases heq : s = e.admin.address
    · subst heq
      rw [Function.update_self] at hs
      cases hs
      exact ⟨rfl, rfl, rfl⟩
    · rw [Function.update_of_ne heq] at hs
      cases hs
  have hself : e.result.view.holds e.admin.address = some (.indexer, env.config.bootstrap) := by
    rw [hholds, Function.update_self]
  have howner : e.result.owner env env.config.bootstrap = some e.admin.address := by
    have hget : e.result.view.get (.writerAddress env.config.bootstrap) = some e.address := by
      simp [AddAdminStep.result, Store.get_put, e.iw]
    rw [World.owner, hget]
    exact (party_eq_ok.mp e.requester).1
  have hnonzero : env.config.bootstrap ≠ zeroWk :=
    e.iw ▸ (Check.validateCoreAdminOperation_eq_some.mp e.check).2.2.2.iw.ne_zeroWk
  have hmem : ∀ k, k ∈ [env.config.bootstrap] ↔ k = env.config.bootstrap := fun _ =>
    List.mem_singleton
  refine ⟨⟨fun hs _ => ?_, ?_, fun hs => ?_, fun hs => ?_, subset_rfl, fun hk => ?_⟩,
    e.admin.address, e.o.iw, e.adminAt, e.iw ▸ hself⟩
  · obtain ⟨rfl, rfl, rfl⟩ := hone hs
    exact howner
  · exact fun hk => hnonzero ((hmem _).mp hk).symm
  · obtain ⟨rfl, rfl, rfl⟩ := hone hs
    exact iff_of_true rfl ((hmem _).mpr rfl)
  · obtain ⟨rfl, rfl, rfl⟩ := hone hs
    exact iff_of_true rfl ((hmem _).mpr rfl)
  · exact ⟨e.admin.address, .indexer, (hmem _).mp hk ▸ hself⟩

theorem PenaltyStep.ne_admin {key : Buffer} {n : ℕ} (hat : w.AdminAt env admin wk)
    (hadmin : w.view.holds admin = some (.indexer, wk)) (e : PenaltyStep env w key n)
    (hkey : e.a.role.isWriter → e.a.wk = key) : e.validator.address ≠ admin := by
  intro heq
  have ha := View.holds_eq e.has
  rw [heq, hadmin] at ha
  obtain ⟨hrole, hwk⟩ : NodeRole.indexer = e.a.role ∧ wk = e.a.wk :=
    Prod.ext_iff.mp (Option.some.inj ha)
  obtain ⟨buffer, hbuf, hdec⟩ := hat.decode
  obtain ⟨buffer', entry, hbuf', hdec', hne⟩ := e.admin
  cases hbuf.symm.trans hbuf'
  cases hdec.symm.trans hdec'
  exact hne (hwk.trans (hkey (by rw [← hrole]; rfl)))

theorem PenaltyStep.enrolled {key : Buffer} {n : ℕ} (h : w.Enrolled env)
    (e : PenaltyStep env w key n) (hkey : e.a.role.isWriter → e.a.wk = key) :
    e.result.Enrolled env := by
  obtain ⟨hagrees, admin, wk, hat, hadmin⟩ := h
  obtain ⟨address, hget, ha⟩ := hat.entry
  refine Follows.enrolled hagrees hadmin ⟨⟨address, ?_, ha⟩, hat.length_wk⟩ ?_
    (e.follows hagrees (e.ne_admin hat hadmin hkey) hkey)
  · exact (Store.get_put_ne _ _ (by simp)).trans hget
  · exact World.owner_mono fun k b hb => get_put_permanent (k := .writerAddress k) rfl hb rfl

end SettlementBus
