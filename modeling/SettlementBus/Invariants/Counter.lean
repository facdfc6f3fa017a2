import SettlementBus.Invariants.Admin
import SettlementBus.Lib.Numbering

/-! Licenses and the writers index. -/

namespace SettlementBus

open Lib View

variable {env : Env} {w w' : World} {node : Node} {op : Operation} {type : OperationType} {s : Str}

/-- What a length entry says, which starts at zero. -/
def LengthEntry.count (entry : Option Buffer) : ℕ := (decodeBE (entry.getD init)).getD 0

/-- Addresses under consecutive indices: where their number is kept, where the addresses are, and
the first index. -/
structure Counter where
  length : EntryKey
  index : ℕ → EntryKey
  first : ℕ

def licenseCounter : Counter := { length := .licenseCount, index := .licenseIndex, first := 1 }

def writersCounter : Counter := { length := .writersLength, index := .writersIndex, first := 0 }

namespace Counter

variable (c : Counter)

def count (w : World) : ℕ := LengthEntry.count (w.view.get c.length)

def name (env : Env) (w : World) (i : ℕ) : Option Str :=
  (w.view.get (c.index i)).bind (bufferToAddress env)

/-- No index is taken beyond the count. -/
def Bounded (w : World) : Prop := ∀ i, w.view.Present (c.index i) → i < c.count w + c.first

structure Same (w w' : World) : Prop where
  length : w'.view.get c.length = w.view.get c.length
  index : ∀ i, w'.view.get (c.index i) = w.view.get (c.index i)

/-- The next index names `address`. -/
structure Extended (w : World) (address : Buffer) (w' : World) : Prop where
  length : c.count w' = c.count w + 1
  index : ∀ i, w'.view.get (c.index i) =
    if i = c.count w + c.first then some address else w.view.get (c.index i)

/-- Nothing that was indexed is changed. -/
structure Kept (w w' : World) : Prop where
  count : c.count w ≤ c.count w'
  index : ∀ i b, w.view.get (c.index i) = some b → w'.view.get (c.index i) = some b

end Counter

namespace World

def licenseNumber (w : World) (address : Str) : ℕ :=
  ((w.view.get (.account address)).bind NodeEntry.decode).elim 0 fun entry =>
    Bytes.toNat entry.license

def licenses (env : Env) (w : World) : Numbering Str where
  count := licenseCounter.count w
  name := licenseCounter.name env w
  number := w.licenseNumber

def writersIndex (env : Env) (w : World) : Listing Str where
  length := writersCounter.count w
  name := writersCounter.name env w

def IsMember (w : World) (address : Str) : Prop := w.view.Present (.account address)

def IsActive (w : World) (address : Str) : Prop := ∃ a, w.Has address a ∧ a.role.isWriter

theorem licenseNumber_eq {a : Account} (h : w.Has s a) :
    w.licenseNumber s = Bytes.toNat a.license := by
  rw [licenseNumber, show w.view.get _ = _ from h]
  simp

theorem licenseNumber_eq_zero (h : w.view.get (.account s) = none) : w.licenseNumber s = 0 := by
  rw [licenseNumber, h]
  rfl

end World

theorem Account.toNat_license_eq_zero {a : Account} :
    Bytes.toNat a.license = 0 ↔ a.license = zeroLicense := by
  constructor
  · exact fun h => Bytes.toNat_inj a.length_license h
  · intro h
    rw [h]
    rfl

/-! ### Counters -/

section Counts

variable {entry : Option Buffer} {n : ℕ} {next : Buffer} (h : Counts entry n next)

include h

theorem Counts.count_eq : LengthEntry.count entry = n := by
  rw [LengthEntry.count, h.decode, Option.getD_some]

theorem Counts.count_next : LengthEntry.count (some next) = n + 1 := by
  rw [LengthEntry.count, Option.getD_some, LengthEntry.decodeBE_of_encodeBE h.increment,
    Option.getD_some]

theorem Counts.lt : n < 2 ^ 32 - 1 := by
  have hincrement := h.increment
  rw [LengthEntry.incrementBE, LengthEntry.encodeBE] at hincrement
  split at hincrement
  · omega
  · cases hincrement

theorem Counts.toNat_next : Bytes.toNat next = n + 1 := by
  have hdec := LengthEntry.decodeBE_of_encodeBE h.increment
  rw [LengthEntry.decodeBE, if_pos (Nat.le_of_eq h.length_next.symm),
    List.take_of_length_le (Nat.le_of_eq h.length_next)] at hdec
  exact Option.some.inj hdec

end Counts

namespace Counter

variable {c : Counter} {address : Buffer} {w'' : World}

theorem Same.count_eq (h : c.Same w w') : c.count w' = c.count w := by
  rw [count, h.length, count]

theorem Same.name_eq (h : c.Same w w') : c.name env w' = c.name env w := by
  funext i
  rw [name, h.index, name]

theorem Same.bounded (h : c.Same w w') (hw : c.Bounded w) : c.Bounded w' := by
  intro i hi
  rw [View.Present, h.index] at hi
  rw [h.count_eq]
  exact hw i hi

theorem Same.kept (h : c.Same w w') : c.Kept w w' :=
  ⟨Nat.le_of_eq h.count_eq.symm, fun i _ hb => (h.index i).trans hb⟩

/-- The puts that extend a counter. -/
theorem extended {n : ℕ} {next : Buffer} (counts : Counts (w.view.get c.length) n next)
    (hlength : w'.view.get c.length = some next)
    (hindex : ∀ i, w'.view.get (c.index i) =
      if i = n + c.first then some address else w.view.get (c.index i)) :
    c.Extended w address w' := by
  have hcount : c.count w = n := counts.count_eq
  refine ⟨?_, fun i => ?_⟩
  · rw [hcount, count, hlength, counts.count_next]
  · rw [hcount]
    exact hindex i

theorem Extended.name_eq (h : c.Extended w address w')
    (haddress : bufferToAddress env address = some s) :
    c.name env w' = Function.update (c.name env w) (c.count w + c.first) (some s) := by
  funext i
  rw [name, h.index]
  by_cases hi : i = c.count w + c.first
  · rw [if_pos hi, hi, Function.update_self, Option.bind_some, haddress]
  · rw [if_neg hi, Function.update_of_ne hi, name]

theorem Extended.bounded (h : c.Extended w address w') (hw : c.Bounded w) : c.Bounded w' := by
  intro i hi
  rw [h.length]
  by_cases heq : i = c.count w + c.first
  · omega
  · rw [View.Present, h.index, if_neg heq] at hi
    have := hw i hi
    omega

theorem Extended.kept (h : c.Extended w address w') (hw : c.Bounded w) : c.Kept w w' := by
  refine ⟨by rw [h.length]; exact Nat.le_succ _, fun i b hb => ?_⟩
  have hi := hw i (by rw [View.Present, hb]; rfl)
  rw [h.index, if_neg (Nat.ne_of_lt hi), hb]

theorem Kept.refl (c : Counter) (w : World) : c.Kept w w := ⟨Nat.le_refl _, fun _ _ hb => hb⟩

theorem Kept.trans (h : c.Kept w w') (h' : c.Kept w' w'') : c.Kept w w'' :=
  ⟨Nat.le_trans h.count h'.count, fun i b hb => h'.index i b (h.index i b hb)⟩

end Counter

/-! ### What a step does to the license of an account -/

theorem Banned.license_eq {t banned : Account} (h : Banned t banned) :
    banned.license = t.license := by
  cases h <;> rfl

theorem Licensed.kept_or_assigned {old license : Buffer} {count : Option ℕ}
    (h : Licensed w old count license) : count = none ∧ license = old ∧ old ≠ zeroLicense ∨
      ∃ n, count = some n ∧ old = zeroLicense ∧
        Counts (w.view.get .licenseCount) n license := by
  cases h with
  | kept h => exact .inl ⟨rfl, rfl, h⟩
  | assigned h counts => exact .inr ⟨_, rfl, h, counts⟩

/-- Only a whitelisting assigns a license once there is an admin. -/
theorem OperationStep.licenseNumber_eq (hw : w.WellFormed) (e : OperationStep env w node op type)
    (hadd : type = .addAdmin → ∀ e' : AddAdminStep env w node op, s ≠ e'.admin.address)
    (happ : type = .appendWhitelist →
      ∀ e' : AppendWhitelistStep env w node op, s ≠ e'.target.address) :
    e.result.licenseNumber s = w.licenseNumber s := by
  cases hget : e.result.view.get (.account s) with
  | none =>
    have hnone : w.view.get (.account s) = none := by
      by_contra hsome
      have hp := e.present (k := .account s) (Option.isSome_iff_ne_none.mpr hsome)
      rw [View.Present, hget] at hp
      cases hp
    rw [World.licenseNumber_eq_zero hget, World.licenseNumber_eq_zero hnone]
  | some v =>
    obtain ⟨a', rfl, ha'⟩ := (e.wellFormed hw).has hget
    obtain ⟨old, hold, hchange⟩ := e.change hw ha'
    rw [World.licenseNumber_eq ha']
    cases hchange with
    | reader => exact (World.licenseNumber_eq_zero hold).symm
    | addAdmin e' hs => exact absurd hs (hadd rfl e')
    | appendWhitelist e' hs => exact absurd hs (happ rfl e')
    | banValidator e' =>
      rw [e'.ban.license_eq]
      exact (World.licenseNumber_eq hold).symm
    | _ => exact (World.licenseNumber_eq hold).symm

theorem AddAdminStep.address_eq (e e' : AddAdminStep env w node op) :
    e.admin.address = e'.admin.address := by
  obtain ⟨haddress, -⟩ := Prod.ext_iff.mp (Option.some.inj (e.check.symm.trans e'.check))
  have hparty := e.requester
  rw [show e.address = e'.address from haddress] at hparty
  rw [Except.ok.inj (hparty.symm.trans e'.requester)]

theorem AppendWhitelistStep.target_eq (e e' : AppendWhitelistStep env w node op) :
    e.target.address = e'.target.address := by
  obtain ⟨-, ho⟩ := Prod.ext_iff.mp (Option.some.inj (e.check.symm.trans e'.check))
  have hparty := e.ia
  rw [show e.o = e'.o from ho] at hparty
  rw [Except.ok.inj (hparty.symm.trans e'.ia)]

theorem NotWhitelisted.licenseNumber {old : Account} (h : NotWhitelisted w s old) :
    w.licenseNumber s = Bytes.toNat old.license := by
  cases h with
  | new h => exact World.licenseNumber_eq_zero h
  | reader h => exact World.licenseNumber_eq h

/-! ### Licenses -/

/-- How an event changes the licenses. -/
inductive Licenses (env : Env) (w w' : World) : Prop
  | same (index : licenseCounter.Same w w') (number : w'.licenseNumber = w.licenseNumber)
  | assigned {s : Str} {address : Buffer} (index : licenseCounter.Extended w address w')
      (haddress : bufferToAddress env address = some s) (fresh : w.licenseNumber s = 0)
      (number : w'.licenseNumber =
        Function.update w.licenseNumber s (licenseCounter.count w + 1))

theorem update_licenseNumber {n : ℕ} (hself : w'.licenseNumber s = n)
    (hother : ∀ t, t ≠ s → w'.licenseNumber t = w.licenseNumber t) :
    w'.licenseNumber = Function.update w.licenseNumber s n := by
  funext t
  by_cases ht : t = s
  · rw [ht, Function.update_self, hself]
  · rw [Function.update_of_ne ht, hother t ht]

theorem AddAdminStep.assigns (hw : w.Founded env) (e : AddAdminStep env w node op) :
    Licenses env w e.result := by
  have hcount : licenseCounter.count w = e.count := e.licenses.count_eq
  refine .assigned (Counter.extended e.licenses ?_ fun i => ?_) (party_eq_ok.mp e.requester).1 ?_
    (update_licenseNumber ?_ fun t ht => ?_)
  · simp [AddAdminStep.result, Store.get_put, licenseCounter]
  · simp [AddAdminStep.result, Store.get_put, licenseCounter]
    rfl
  · cases e.eq_genesis hw
    rfl
  · rw [World.licenseNumber_eq (a := e.account) (by simp [World.Has, AddAdminStep.result]), hcount]
    exact e.licenses.toNat_next
  · have hget : e.result.view.get (.account t) = w.view.get (.account t) := by
      simp [AddAdminStep.result, Store.get_put, ht]
    rw [World.licenseNumber, hget, World.licenseNumber]

theorem AppendWhitelistStep.assigns (hw : w.WellFormed) (e : AppendWhitelistStep env w node op) :
    Licenses env w e.result := by
  have hself : e.result.licenseNumber e.target.address = Bytes.toNat e.license :=
    World.licenseNumber_eq (a := e.account) (by simp [World.Has, AppendWhitelistStep.result])
  have hold := e.notWhitelisted.licenseNumber
  have hother : ∀ t, t ≠ e.target.address → e.result.licenseNumber t = w.licenseNumber t := by
    intro t ht
    exact @OperationStep.licenseNumber_eq env w node op .appendWhitelist t hw e (fun h => by cases h)
      fun _ e' heq => ht (heq.trans (e'.target_eq e))
  obtain ⟨hcount, hlic, -⟩ | ⟨n, hcount, hzero, counts⟩ := e.licensed.kept_or_assigned
  · refine .same ⟨?_, fun i => ?_⟩ (funext fun t => ?_)
    · simp [AppendWhitelistStep.result, Store.get_put, hcount, assignLicense, licenseCounter,
        get_putAccount (ne_account (k := .licenseCount) rfl)]
    · simp [AppendWhitelistStep.result, Store.get_put, hcount, assignLicense, licenseCounter,
        get_putAccount (ne_account (k := .licenseIndex i) rfl)]
    · by_cases ht : t = e.target.address
      · rw [ht, hself, hold, hlic]
      · exact hother t ht
  · refine .assigned (Counter.extended counts ?_ fun i => ?_) (party_eq_ok.mp e.ia).1 ?_
      (update_licenseNumber ?_ hother)
    · simp [AppendWhitelistStep.result, Store.get_put, hcount, assignLicense, licenseCounter]
    · simp [AppendWhitelistStep.result, Store.get_put, hcount, assignLicense, licenseCounter,
        get_putAccount (ne_account (k := .licenseIndex i) rfl)]
      rfl
    · rw [hold, hzero]
      rfl
    · rw [hself, counts.toNat_next]
      exact congrArg (· + 1) counts.count_eq.symm

theorem OperationStep.same {c : Counter} (hlength : type.writes c.length = false)
    (hindex : ∀ i, type.writes (c.index i) = false) (e : OperationStep env w node op type) :
    c.Same w e.result := ⟨e.get_eq hlength, fun i => e.get_eq (hindex i)⟩

theorem OperationStep.assigns (hw : w.WellFormed) (hf : w.Founded env)
    (e : OperationStep env w node op type) : Licenses env w e.result := by
  by_cases hadd : type = .addAdmin
  · subst hadd
    exact AddAdminStep.assigns hf e
  by_cases happ : type = .appendWhitelist
  · subst happ
    exact AppendWhitelistStep.assigns hw e
  · have hwrites : type ∉ [OperationType.addAdmin, .appendWhitelist] := by simp [hadd, happ]
    exact .same (e.same (c := licenseCounter) (decide_eq_false hwrites) fun _ =>
      decide_eq_false hwrites)
      (funext fun s => e.licenseNumber_eq hw (absurd · hadd) (absurd · happ))

theorem PenaltyStep.same {c : Counter} {key : Buffer} {n : ℕ} (e : PenaltyStep env w key n)
    (hlength : c.length.isAccount = false) (hindex : ∀ i, (c.index i).isAccount = false) :
    c.Same w e.result := ⟨e.get_eq hlength, fun i => e.get_eq (hindex i)⟩

theorem PenaltyStep.assigns {key : Buffer} {n : ℕ} (e : PenaltyStep env w key n) :
    Licenses env w e.result := by
  refine .same (e.same rfl fun _ => rfl) (funext fun t => ?_)
  by_cases ht : t = e.validator.address
  · subst ht
    rw [World.licenseNumber_eq e.has,
      World.licenseNumber_eq (a := e.account) (by simp [World.Has, PenaltyStep.result])]
    rfl
  · have hget : e.result.view.get (.account t) = w.view.get (.account t) := by
      simp [PenaltyStep.result, Store.get_put, ht]
    rw [World.licenseNumber, hget, World.licenseNumber]

namespace Licenses

variable (h : Licenses env w w')

include h

theorem numbering : w'.licenses env = w.licenses env ∨
    ∃ s, (w.licenses env).Assigned s (w'.licenses env) := by
  cases h with
  | same index number =>
    left
    simp only [World.licenses, index.count_eq, index.name_eq, number]
  | @assigned s address index haddress fresh number =>
    exact .inr ⟨s, fresh, index.length, index.name_eq haddress, number⟩

theorem grows : (w.licenses env).Grows (w'.licenses env) := by
  obtain heq | ⟨s, hs⟩ := h.numbering
  · rw [heq]
    exact .refl _
  · exact hs.grows

theorem agrees (hw : (w.licenses env).Agrees) : (w'.licenses env).Agrees := by
  obtain heq | ⟨s, hs⟩ := h.numbering
  · rwa [heq]
  · exact hs.agrees hw

theorem bounded (hw : licenseCounter.Bounded w) : licenseCounter.Bounded w' := by
  cases h with
  | same index number => exact index.bounded hw
  | assigned index => exact index.bounded hw

theorem kept (hw : licenseCounter.Bounded w) : licenseCounter.Kept w w' := by
  cases h with
  | same index number => exact index.kept
  | assigned index => exact index.kept hw

end Licenses

/-! ### The writers index -/

/-- How an event changes the writers index: by the address of a member, or not at all. -/
inductive Writers (env : Env) (w w' : World) : Prop
  | same (index : writersCounter.Same w w') (active : ∀ s, w'.IsActive s → w.IsActive s)
  | appended {s : Str} {address : Buffer} (index : writersCounter.Extended w address w')
      (haddress : bufferToAddress env address = some s) (member : w'.IsMember s)
      (active : ∀ t, w'.IsActive t → t ≠ s → w.IsActive t)

theorem IsMember.of_has {a : Account} (h : w.Has s a) : w.IsMember s := by
  rw [World.IsMember, View.Present, show Store.get w.view _ = _ from h]
  rfl

theorem Banned.isWriter_eq_false {t banned : Account} (h : Banned t banned) :
    banned.role.isWriter = false := by
  cases h <;> rfl

/-- An account becomes active by `ADD_ADMIN` and `ADD_WRITER` only. -/
theorem OperationStep.isActive (hw : w.WellFormed) (e : OperationStep env w node op type)
    (h : e.result.IsActive s)
    (hadd : type = .addAdmin → ∀ e' : AddAdminStep env w node op, s ≠ e'.admin.address)
    (hwriter : type = .addWriter → ∀ e' : AddWriterStep env w node op, s ≠ e'.s.requester.address) :
    w.IsActive s := by
  obtain ⟨a', ha', hrole⟩ := h
  obtain ⟨old, hold, hchange⟩ := e.change hw ha'
  cases hchange with
  | balance a b => exact ⟨a, hold, hrole⟩
  | addAdmin e' hs => exact absurd hs (hadd rfl e')
  | addWriter e' hs => exact absurd hs (hwriter rfl e')
  | adminRecovery e' hs => exact ⟨e'.r, hold, hrole⟩
  | addIndexer e' hs => exact ⟨e'.p, hold, by rw [e'.role]; rfl⟩
  | removeIndexer e' hs => exact ⟨e'.p, hold, by rw [e'.role]; rfl⟩
  | banValidator e' hs =>
    rw [e'.ban.isWriter_eq_false] at hrole
    cases hrole
  | _ => cases hrole

theorem AddWriterStep.requester_eq (e e' : AddWriterStep env w node op) :
    e.s.requester.address = e'.s.requester.address := by
  have ha := (party_eq_ok.mp e.completed.verified.requester).1
  rw [show e.s.address = e'.s.address from
    congrArg Prod.fst (Option.some.inj (e.check.symm.trans e'.check))] at ha
  exact Option.some.inj (ha.symm.trans (party_eq_ok.mp e'.completed.verified.requester).1)

theorem AddAdminStep.appends (hw : w.WellFormed) (e : AddAdminStep env w node op) :
    Writers env w e.result := by
  refine .appended (Counter.extended e.counts ?_ fun i => ?_) (party_eq_ok.mp e.requester).1
    (IsMember.of_has (a := e.account) (by simp [World.Has, AddAdminStep.result])) fun t ht hne => ?_
  · simp [AddAdminStep.result, Store.get_put, writersCounter]
  · simp [AddAdminStep.result, Store.get_put, writersCounter]
  · exact @OperationStep.isActive env w node op .addAdmin t hw e ht
      (fun _ e' heq => hne (heq.trans (e'.address_eq e))) (fun h => by cases h)

theorem AddWriterStep.appends (hw : w.WellFormed) (e : AddWriterStep env w node op) :
    Writers env w e.result := by
  have hparty := party_eq_ok.mp e.completed.verified.requester
  refine .appended (Counter.extended e.counts ?_ fun i => ?_) hparty.1
    (@OperationStep.present env w node op .addWriter _ (IsMember.of_has e.completed.requester) e)
    fun t ht hne => ?_
  · simp [AddWriterStep.result, Store.get_put, writersCounter]
  · simp [AddWriterStep.result, Store.get_put, writersCounter, get_registerKey]
  · exact @OperationStep.isActive env w node op .addWriter t hw e ht (fun h => by cases h)
      fun _ e' heq => hne (heq.trans (e'.requester_eq e))

theorem RemoveIndexerStep.appends (hw : w.WellFormed) (e : RemoveIndexerStep env w node op) :
    Writers env w e.result := by
  refine .appended (Counter.extended e.counts ?_ fun i => ?_) (party_eq_ok.mp e.ia).1
    (@OperationStep.present env w node op .removeIndexer _ (IsMember.of_has e.has) e) fun t ht _ => ?_
  · simp [RemoveIndexerStep.result, Store.get_put, writersCounter]
  · simp [RemoveIndexerStep.result, Store.get_put, writersCounter]
  · exact @OperationStep.isActive env w node op .removeIndexer t hw e ht (fun h => by cases h) (fun h => by cases h)

theorem OperationStep.appends (hw : w.WellFormed) (e : OperationStep env w node op type) :
    Writers env w e.result := by
  by_cases hadd : type = .addAdmin
  · subst hadd
    exact AddAdminStep.appends hw e
  by_cases hwriter : type = .addWriter
  · subst hwriter
    exact AddWriterStep.appends hw e
  by_cases hremove : type = .removeIndexer
  · subst hremove
    exact RemoveIndexerStep.appends hw e
  · have hwrites : type ∉ [OperationType.addAdmin, .addWriter, .removeIndexer] := by
      simp [hadd, hwriter, hremove]
    exact .same (e.same (c := writersCounter) (decide_eq_false hwrites) fun _ =>
      decide_eq_false hwrites) fun s hs => e.isActive hw hs (absurd · hadd) (absurd · hwriter)

theorem PenaltyStep.appends {key : Buffer} {n : ℕ} (e : PenaltyStep env w key n) :
    Writers env w e.result := by
  refine .same (e.same rfl fun _ => rfl) ?_
  rintro s ⟨a, ha, hrole⟩
  simp only [World.Has, PenaltyStep.result, has_put_account] at ha
  obtain ⟨rfl, rfl⟩ | ⟨-, ha⟩ := ha
  · cases hrole
  · exact ⟨a, ha, hrole⟩

namespace Writers

variable (h : Writers env w w')

include h

theorem lists (hw : (w.writersIndex env).Lists w.IsMember w.IsActive)
    (hmember : ∀ s, w.IsMember s → w'.IsMember s) :
    (w'.writersIndex env).Lists w'.IsMember w'.IsActive := by
  cases h with
  | same index active =>
    have heq : w'.writersIndex env = w.writersIndex env := by
      simp only [World.writersIndex, index.count_eq, index.name_eq]
    rw [heq]
    exact hw.mono hmember active
  | @appended s address index haddress member active =>
    have happended : (w.writersIndex env).Appended s (w'.writersIndex env) :=
      ⟨index.length, index.name_eq haddress⟩
    exact happended.lists hw hmember member active

theorem bounded (hw : writersCounter.Bounded w) : writersCounter.Bounded w' := by
  cases h with
  | same index => exact index.bounded hw
  | appended index => exact index.bounded hw

theorem kept (hw : writersCounter.Bounded w) : writersCounter.Kept w w' := by
  cases h with
  | same index => exact index.kept
  | appended index => exact index.kept hw

end Writers

/-! ### The invariant -/

/-- Licenses and accounts name each other, and the active accounts are in the writers index. -/
structure World.Enumerated (env : Env) (w : World) : Prop where
  licenses : (w.licenses env).Agrees
  licenseIndex : licenseCounter.Bounded w
  writers : (w.writersIndex env).Lists w.IsMember w.IsActive
  writersIndex : writersCounter.Bounded w

theorem Event.Step.assigns {e : Event} (hs : e.Step env) (hw : e.before.WellFormed)
    (hf : e.before.Founded env) : Licenses env e.before e.after := by
  cases hs with
  | operation hdec s => exact s.assigns hw hf
  | penalty hpos hn s => exact s.assigns

theorem Event.Step.appends {e : Event} (hs : e.Step env) (hw : e.before.WellFormed) :
    Writers env e.before e.after := by
  cases hs with
  | operation hdec s => exact s.appends hw
  | penalty hpos hn s => exact s.appends

theorem Event.Step.enumerated {e : Event} (hs : e.Step env) (hw : e.before.WellFormed)
    (hf : e.before.Founded env) (h : e.before.Enumerated env) : e.after.Enumerated env where
  licenses := (hs.assigns hw hf).agrees h.licenses
  licenseIndex := (hs.assigns hw hf).bounded h.licenseIndex
  writers := (hs.appends hw).lists h.writers fun _ => hs.present
  writersIndex := (hs.appends hw).bounded h.writersIndex

theorem enumerated_genesis : (genesis env).Enumerated env where
  licenses := ⟨fun hpos hi => absurd (Nat.lt_of_lt_of_le hpos hi) (Nat.lt_irrefl 0),
    fun hpos => absurd hpos (Nat.lt_irrefl 0)⟩
  licenseIndex _ hp := by cases hp
  writers := ⟨fun hi => absurd hi (Nat.not_lt_zero _), fun ⟨_, ha, _⟩ => absurd ha not_has_genesis⟩
  writersIndex _ hp := by cases hp

end SettlementBus
