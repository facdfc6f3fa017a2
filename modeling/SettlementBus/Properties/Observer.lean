import Mathlib.Data.List.Induction
import SettlementBus.Network.Observer
import SettlementBus.Properties.Connection
import SettlementBus.Sample

/-! The scan of the writers under every order in which Autobase lists them. -/

namespace SettlementBus

open Lib

section Spec

variable (env : Env) (state : LocalState) (adminAddress : Option Str)

/-- The key of the entry is registered to the address, and it is no indexer or the admin's. -/
structure SystemEntry.Eligible (a : Str) (value : WriterInfo) (entry : SystemEntry) : Prop where
  length : entry.key.length = writerByteLength
  value_eq : entry.value = some value
  registered : (state.getRegisteredWriterKey env entry.key).bind (bufferToAddress env) = some a
  indexer : value.isIndexer → some a = adminAddress

def SystemEntry.Active (a : Str) (entry : SystemEntry) : Prop :=
  ∃ value, entry.Eligible env state adminAddress a value ∧ ¬value.isRemoved

def SystemEntry.Removed (a : Str) (entry : SystemEntry) : Prop :=
  ∃ value, entry.Eligible env state adminAddress a value ∧ value.isRemoved

def HasActive (entries : List SystemEntry) (a : Str) : Prop :=
  ∃ entry ∈ entries, entry.Active env state adminAddress a

def HasRemoved (entries : List SystemEntry) (a : Str) : Prop :=
  ∃ entry ∈ entries, entry.Removed env state adminAddress a

/-- No removed key of the address is listed after its last active one. -/
def EndsActive (entries : List SystemEntry) (a : Str) : Prop :=
  ∃ earlier entry later, entries = earlier ++ entry :: later ∧
    entry.Active env state adminAddress a ∧ ∀ entry' ∈ later, ¬entry'.Removed env state adminAddress a

/-- The key under which the pool holds the connection to an address. -/
def poolKey (a : Str) : Str := toHex (env.crypto.decodeSafe a)

/-- The scan returns the addresses with an active key, each once, and drops no connection to one of
them. -/
structure ScanExact (o : ValidatorObserver) (entries : List SystemEntry) : Prop where
  nodup : ((o.scanAutobaseWriters env state adminAddress entries).1.map
    ActiveWriter.address).Nodup
  mem_iff : ∀ a, a ∈ (o.scanAutobaseWriters env state adminAddress entries).1.map
    ActiveWriter.address ↔ HasActive env state adminAddress entries a
  kept : ∀ a, HasActive env state adminAddress entries a →
    o.validatorConnectionManager.connected (poolKey env a) →
    (o.scanAutobaseWriters env state adminAddress entries).2.validatorConnectionManager.connected
      (poolKey env a)

/-- The condition on the listing. -/
def ListedLast (o : ValidatorObserver) (entries : List SystemEntry) : Prop :=
  ∀ a, HasActive env state adminAddress entries a →
    EndsActive env state adminAddress entries a ∧
      (o.validatorConnectionManager.connected (poolKey env a) →
        ¬HasRemoved env state adminAddress entries a)

/-- The cache remembers what the registry says. -/
def CacheAgrees (keyDecodeCache : Store Str (Option DecodedIdentity)) : Prop :=
  ∀ key decodedIdentity, keyDecodeCache.get (toHex key) = some decodedIdentity →
    decodedIdentity = decodeIdentity env state key

/-- The service has run scans, each over a registry that had the keys it listed registered as
`state` has. In between the pool may have changed. -/
inductive Ran : ValidatorObserver → Prop
  | start (pool : ConnectionManager) :
    Ran { keyDecodeCache := ∅, validatorConnectionManager := pool }
  | scan {o : ValidatorObserver} (state' : LocalState) (adminAddress : Option Str)
    (entries : List SystemEntry) (pool : ConnectionManager) : Ran o →
    (∀ entry ∈ entries, decodeIdentity env state' entry.key = decodeIdentity env state entry.key) →
    Ran { (o.scanAutobaseWriters env state' adminAddress entries).2 with
      validatorConnectionManager := pool }

end Spec

variable {env : Env} {state state' : LocalState} {adminAddress : Option Str} {a a' : Str}
  {entry : SystemEntry} {entries entries' : List SystemEntry} {o : ValidatorObserver}
  {scan : WriterScan} {pool : ConnectionManager} {value : WriterInfo} {key : Buffer}

/-! ### The entries of an address -/

theorem SystemEntry.Eligible.valid (h : entry.Eligible env state adminAddress a value) :
    isAddressValid env a := by
  obtain ⟨b, -, hb⟩ := Option.bind_eq_some_iff.mp h.registered
  exact (bufferToAddress_eq_some.mp hb).1

theorem SystemEntry.Eligible.unique {value' : WriterInfo}
    (h : entry.Eligible env state adminAddress a value)
    (h' : entry.Eligible env state adminAddress a' value') : a = a' ∧ value = value' :=
  ⟨Option.some.inj (h.registered.symm.trans h'.registered),
    Option.some.inj (h.value_eq.symm.trans h'.value_eq)⟩

theorem SystemEntry.Active.not_removed (h : entry.Active env state adminAddress a) :
    ¬entry.Removed env state adminAddress a' := by
  rintro ⟨value', h', hremoved⟩
  obtain ⟨value, h, hactive⟩ := h
  rw [(h.unique h').2] at hactive
  exact hactive hremoved

theorem SystemEntry.Active.active_iff (h : entry.Active env state adminAddress a) :
    entry.Active env state adminAddress a' ↔ a' = a := by
  obtain ⟨value, heligible, hactive⟩ := h
  constructor
  · rintro ⟨value', heligible', -⟩
    exact (heligible'.unique heligible).1
  · rintro rfl
    exact ⟨value, heligible, hactive⟩

theorem SystemEntry.Removed.removed_iff (h : entry.Removed env state adminAddress a) :
    entry.Removed env state adminAddress a' ↔ a' = a := by
  obtain ⟨value, heligible, hremoved⟩ := h
  constructor
  · rintro ⟨value', heligible', -⟩
    exact (heligible'.unique heligible).1
  · rintro rfl
    exact ⟨value, heligible, hremoved⟩

theorem HasActive.valid (h : HasActive env state adminAddress entries a) :
    isAddressValid env a := by
  obtain ⟨entry, -, value, heligible, -⟩ := h
  exact heligible.valid

theorem HasRemoved.valid (h : HasRemoved env state adminAddress entries a) :
    isAddressValid env a := by
  obtain ⟨entry, -, value, heligible, -⟩ := h
  exact heligible.valid

theorem EndsActive.hasActive (h : EndsActive env state adminAddress entries a) :
    HasActive env state adminAddress entries a := by
  obtain ⟨earlier, entry, later, rfl, hactive, -⟩ := h
  exact ⟨entry, List.mem_append_right _ List.mem_cons_self, hactive⟩

theorem not_endsActive_nil : ¬EndsActive env state adminAddress [] a := by
  rintro ⟨earlier, entry, later, heq, -⟩
  exact List.append_ne_nil_of_right_ne_nil earlier (List.cons_ne_nil entry later) heq.symm

theorem endsActive_concat : EndsActive env state adminAddress (entries ++ [entry]) a ↔
    entry.Active env state adminAddress a ∨
      ¬entry.Removed env state adminAddress a ∧ EndsActive env state adminAddress entries a := by
  constructor
  · rintro ⟨earlier, entry', later, heq, hactive, hlater⟩
    rcases later.eq_nil_or_concat' with rfl | ⟨later, last, rfl⟩
    · obtain ⟨-, h⟩ := List.append_inj' heq rfl
      rw [(List.cons.inj h).1]
      exact .inl hactive
    · rw [← List.cons_append, ← List.append_assoc] at heq
      obtain ⟨hentries, h⟩ := List.append_inj' heq rfl
      rw [(List.cons.inj h).1]
      rw [List.forall_mem_append, List.forall_mem_singleton] at hlater
      exact .inr ⟨hlater.2, earlier, entry', later, hentries, hactive, hlater.1⟩
  · rintro (hactive | ⟨hremoved, earlier, entry', later, rfl, hactive, hlater⟩)
    · exact ⟨entries, entry, [], rfl, hactive, fun _ h => absurd h List.not_mem_nil⟩
    · refine ⟨earlier, entry', later ++ [entry], by simp, hactive, ?_⟩
      rw [List.forall_mem_append, List.forall_mem_singleton]
      exact ⟨hlater, hremoved⟩

/-! ### The cache -/

theorem decodeIdentity_eq : decodeIdentity env state key =
    ((state.getRegisteredWriterKey env key).bind (bufferToAddress env)).map fun addr =>
      { addr, publicKey := env.crypto.decodeSafe addr, publicKeyHex := poolKey env addr } := by
  rw [decodeIdentity]
  cases state.getRegisteredWriterKey env key with
  | none => rfl
  | some addressBuffer =>
    dsimp only [Option.bind_some]
    by_cases hlen : addressBuffer.length = env.config.addressLength
    · rw [if_neg (not_not.mpr hlen)]
      rfl
    · rw [if_pos hlen]
      cases h : bufferToAddress env addressBuffer with
      | none => rfl
      | some addr => exact absurd (length_of_bufferToAddress h) hlen

theorem cacheAgrees_empty : CacheAgrees env state ∅ := by
  intro key decodedIdentity h
  rw [Store.get_empty] at h
  cases h

theorem identityOf_fst (h : CacheAgrees env state o.keyDecodeCache) :
    (o.identityOf env state key).1 = decodeIdentity env state key := by
  rw [ValidatorObserver.identityOf]
  cases hget : o.keyDecodeCache.get (toHex key) with
  | none => rfl
  | some decodedIdentity => exact h key decodedIdentity hget

theorem cacheAgrees_identityOf (h : CacheAgrees env state o.keyDecodeCache)
    (hkey : decodeIdentity env state' key = decodeIdentity env state key) :
    CacheAgrees env state (o.identityOf env state' key).2 := by
  rw [ValidatorObserver.identityOf]
  cases hget : o.keyDecodeCache.get (toHex key) with
  | some decodedIdentity => exact h
  | none =>
    intro key' decodedIdentity hput
    obtain ⟨hhex, hput⟩ | ⟨-, hput⟩ := Store.get_put_eq_some.mp hput
    · rw [← hput, toHex_injective hhex, hkey]
    · exact h key' decodedIdentity hput

theorem keyDecodeCache_visit :
    (scan.visit env state' adminAddress entry).keyDecodeCache = scan.keyDecodeCache ∨
      (scan.visit env state' adminAddress entry).keyDecodeCache =
        (scan.identityOf env state' entry.key).2 := by
  rw [WriterScan.visit]
  split
  case isTrue => exact .inl rfl
  case isFalse =>
    cases entry.value with
    | none => exact .inl rfl
    | some value =>
      right
      rcases scan.identityOf env state' entry.key with ⟨_ | identity, keyDecodeCache⟩
      · rfl
      · dsimp only
        split
        · rfl
        · split <;> rfl

theorem cacheAgrees_visit (h : CacheAgrees env state scan.keyDecodeCache)
    (hkey : decodeIdentity env state' entry.key = decodeIdentity env state entry.key) :
    CacheAgrees env state (scan.visit env state' adminAddress entry).keyDecodeCache := by
  rcases keyDecodeCache_visit with heq | heq
  · rw [heq]
    exact h
  · rw [heq]
    exact cacheAgrees_identityOf h hkey

theorem pool_clearCache :
    o.clearCache.validatorConnectionManager = o.validatorConnectionManager := by
  rw [ValidatorObserver.clearCache]
  split <;> rfl

theorem cacheAgrees_clearCache (h : CacheAgrees env state o.keyDecodeCache) :
    CacheAgrees env state o.clearCache.keyDecodeCache := by
  rw [ValidatorObserver.clearCache]
  split
  · exact cacheAgrees_empty
  · exact h

/-! ### One entry -/

theorem connected_enforceNoStaleConnections {publicKey : Buffer} {k : Str} :
    (o.enforceNoStaleConnections publicKey).connected k ↔
      k ≠ toHex publicKey ∧ o.validatorConnectionManager.connected k := by
  rw [ValidatorObserver.enforceNoStaleConnections]
  split
  case isTrue h =>
    rw [ConnectionManager.connected_iff, ConnectionManager.getConnection_remove]
    by_cases heq : k = toHex publicKey
    · simp [heq]
    · simp [heq, ConnectionManager.connected_iff]
  case isFalse h =>
    rw [iff_and_self]
    rintro hk rfl
    exact h hk

/-- What an entry does to the map of active writers and to the pool. -/
theorem visit_cases (h : CacheAgrees env state scan.keyDecodeCache) :
    (∃ a, entry.Active env state adminAddress a ∧
      (scan.visit env state adminAddress entry).validatorConnectionManager =
        scan.validatorConnectionManager ∧
      (scan.visit env state adminAddress entry).activeMap = scan.activeMap.set a
        { key := entry.key, address := a, publicKey := env.crypto.decodeSafe a,
          publicKeyHex := poolKey env a }) ∨
    (∃ a, entry.Removed env state adminAddress a ∧
      (scan.visit env state adminAddress entry).validatorConnectionManager =
        scan.enforceNoStaleConnections (env.crypto.decodeSafe a) ∧
      (scan.visit env state adminAddress entry).activeMap = scan.activeMap.delete a) ∨
    ((∀ a value, ¬entry.Eligible env state adminAddress a value) ∧
      (scan.visit env state adminAddress entry).validatorConnectionManager =
        scan.validatorConnectionManager ∧
      (scan.visit env state adminAddress entry).activeMap = scan.activeMap) := by
  rw [WriterScan.visit]
  split
  case isTrue hlen => exact .inr (.inr ⟨fun a value he => hlen he.length, rfl, rfl⟩)
  case isFalse hlen =>
    cases hvalue : entry.value with
    | none =>
      refine .inr (.inr ⟨fun a value he => ?_, rfl, rfl⟩)
      rw [he.value_eq] at hvalue
      cases hvalue
    | some value =>
      have hidentity : (scan.identityOf env state entry.key).1 = decodeIdentity env state entry.key :=
        identityOf_fst h
      rw [decodeIdentity_eq] at hidentity
      generalize scan.identityOf env state entry.key = answer at hidentity ⊢
      obtain ⟨identity, keyDecodeCache⟩ := answer
      dsimp only at hidentity
      cases hregistered : (state.getRegisteredWriterKey env entry.key).bind
          (bufferToAddress env) with
      | none =>
        rw [hregistered, Option.map_none] at hidentity
        subst hidentity
        refine .inr (.inr ⟨fun a value he => ?_, rfl, rfl⟩)
        rw [he.registered] at hregistered
        cases hregistered
      | some a =>
        rw [hregistered, Option.map_some] at hidentity
        subst hidentity
        dsimp only
        have hvalue_eq : ∀ a' value', entry.Eligible env state adminAddress a' value' →
            a' = a ∧ value' = value := fun a' value' he =>
          ⟨Option.some.inj (he.registered.symm.trans hregistered),
            Option.some.inj (he.value_eq.symm.trans hvalue)⟩
        split
        case isTrue hindexer =>
          refine .inr (.inr ⟨fun a' value' he => ?_, rfl, rfl⟩)
          obtain ⟨rfl, rfl⟩ := hvalue_eq a' value' he
          exact hindexer.2 (he.indexer hindexer.1)
        case isFalse hindexer =>
          have heligible : entry.Eligible env state adminAddress a value :=
            ⟨not_not.mp hlen, hvalue, hregistered, fun hi =>
              not_not.mp fun hne => hindexer ⟨hi, hne⟩⟩
          split
          case isTrue hremoved => exact .inr (.inl ⟨a, ⟨value, heligible, hremoved⟩, rfl, rfl⟩)
          case isFalse hremoved => exact .inl ⟨a, ⟨value, heligible, hremoved⟩, rfl, rfl⟩

/-! ### A whole scan -/

/-- What holds after the entries `l` of a scan that began with the pool `pool`. -/
structure WriterScan.Sound (env : Env) (state : LocalState) (adminAddress : Option Str)
    (pool : ConnectionManager) (l : List SystemEntry) (scan : WriterScan) : Prop where
  cache : CacheAgrees env state scan.keyDecodeCache
  address : ∀ e ∈ scan.activeMap.entries, e.2.address = e.1
  active : ∀ a, a ∈ scan.activeMap.keys ↔ EndsActive env state adminAddress l a
  connected : ∀ k, scan.validatorConnectionManager.connected k ↔ pool.connected k ∧
    ∀ a, HasRemoved env state adminAddress l a → k ≠ poolKey env a

theorem hasRemoved_concat : HasRemoved env state adminAddress (entries ++ [entry]) a ↔
    HasRemoved env state adminAddress entries a ∨ entry.Removed env state adminAddress a := by
  simp only [HasRemoved, List.mem_append, List.mem_singleton, or_and_right, exists_or,
    exists_eq_left]

theorem WriterScan.Sound.visit (h : scan.Sound env state adminAddress pool entries) :
    (scan.visit env state adminAddress entry).Sound env state adminAddress pool
      (entries ++ [entry]) := by
  have hcache : CacheAgrees env state (scan.visit env state adminAddress entry).keyDecodeCache :=
    cacheAgrees_visit h.cache rfl
  rcases visit_cases h.cache with ⟨a, hactive, hpool, hmap⟩ | ⟨a, hremoved, hpool, hmap⟩ |
    ⟨hnone, hpool, hmap⟩
  · refine ⟨hcache, fun e he => ?_, fun a' => ?_, fun k => ?_⟩
    · rw [hmap, OrderedMap.mem_entries_set] at he
      rcases he with rfl | ⟨-, he⟩
      · rfl
      · exact h.address e he
    · rw [hmap, OrderedMap.mem_keys_set, h.active, endsActive_concat,
        and_iff_right hactive.not_removed, hactive.active_iff]
    · simp only [hpool, h.connected, hasRemoved_concat, or_iff_left hactive.not_removed]
  · refine ⟨hcache, fun e he => ?_, fun a' => ?_, fun k => ?_⟩
    · rw [hmap, OrderedMap.mem_entries_delete] at he
      exact h.address e he.2
    · rw [hmap, OrderedMap.mem_keys_delete, h.active, endsActive_concat,
        or_iff_right (fun hactive => hactive.not_removed hremoved), hremoved.removed_iff]
    · rw [hpool, connected_enforceNoStaleConnections, h.connected, and_left_comm]
      refine and_congr_right fun _ => ?_
      simp only [hasRemoved_concat, hremoved.removed_iff, or_imp, forall_and, forall_eq]
      exact and_comm
  · have hactive : ∀ a, ¬entry.Active env state adminAddress a := fun a h => hnone a _ h.choose_spec.1
    have hremoved : ∀ a, ¬entry.Removed env state adminAddress a := fun a h =>
      hnone a _ h.choose_spec.1
    refine ⟨hcache, fun e he => ?_, fun a' => ?_, fun k => ?_⟩
    · rw [hmap] at he
      exact h.address e he
    · rw [hmap, h.active, endsActive_concat, or_iff_right (hactive a'),
        and_iff_right (hremoved a')]
    · simp only [hpool, h.connected, hasRemoved_concat, or_iff_left (hremoved _)]

theorem sound_scan (hcache : CacheAgrees env state o.keyDecodeCache) :
    (o.scan env state adminAddress entries).Sound env state adminAddress
      o.validatorConnectionManager entries := by
  rw [ValidatorObserver.scan]
  induction entries using List.reverseRec with
  | nil =>
    refine ⟨?_, fun e he => absurd he List.not_mem_nil, fun a => ?_, fun k => ?_⟩
    · exact cacheAgrees_clearCache hcache
    · exact iff_of_false List.not_mem_nil not_endsActive_nil
    · rw [List.foldl_nil, pool_clearCache, iff_self_and]
      rintro - a ⟨entry, h, -⟩
      exact absurd h List.not_mem_nil
  | append_singleton entries entry ih =>
    rw [List.foldl_concat]
    exact ih.visit

theorem cacheAgrees_scan (hcache : CacheAgrees env state o.keyDecodeCache)
    (hkeys : ∀ entry ∈ entries,
      decodeIdentity env state' entry.key = decodeIdentity env state entry.key) :
    CacheAgrees env state (o.scan env state' adminAddress entries).keyDecodeCache := by
  rw [ValidatorObserver.scan]
  induction entries using List.reverseRec with
  | nil => exact cacheAgrees_clearCache hcache
  | append_singleton entries entry ih =>
    rw [List.forall_mem_append, List.forall_mem_singleton] at hkeys
    rw [List.foldl_concat]
    exact cacheAgrees_visit (ih hkeys.1) hkeys.2

theorem Ran.cacheAgrees (h : Ran env state o) : CacheAgrees env state o.keyDecodeCache := by
  induction h with
  | start pool => exact cacheAgrees_empty
  | scan state' adminAddress entries pool _ hkeys ih => exact cacheAgrees_scan ih hkeys

theorem connected_scan (h : Ran env state o) (k : Str) :
    (o.scanAutobaseWriters env state adminAddress entries).2.validatorConnectionManager.connected k
      ↔ o.validatorConnectionManager.connected k ∧
        ∀ a, HasRemoved env state adminAddress entries a → k ≠ poolKey env a :=
  (sound_scan h.cacheAgrees).connected k

theorem addresses_scan (h : Ran env state o) :
    (o.scanAutobaseWriters env state adminAddress entries).1.map ActiveWriter.address =
      (o.scan env state adminAddress entries).activeMap.keys := by
  rw [ValidatorObserver.scanAutobaseWriters, OrderedMap.values, List.map_map, OrderedMap.keys]
  exact List.map_congr_left (sound_scan h.cacheAgrees).address

/-- The pool holds no two valid addresses under one key. -/
theorem poolKey_inj (h1 : env.crypto.OneAddressPerKey) (ha : isAddressValid env a)
    (ha' : isAddressValid env a') (h : poolKey env a = poolKey env a') : a = a' :=
  address_eq_of_decodeSafe h1 ha ha' (toHex_injective h)

theorem scanExact_iff (h1 : env.crypto.OneAddressPerKey) (h : Ran env state o) :
    ScanExact env state adminAddress o entries ↔ ListedLast env state adminAddress o entries := by
  have hmem (a : Str) : a ∈ (o.scanAutobaseWriters env state adminAddress entries).1.map
      ActiveWriter.address ↔ EndsActive env state adminAddress entries a := by
    rw [addresses_scan h, (sound_scan h.cacheAgrees).active]
  constructor
  · intro hexact a ha
    refine ⟨(hmem a).mp ((hexact.mem_iff a).mpr ha), fun hconnected hremoved => ?_⟩
    exact ((connected_scan h _).mp (hexact.kept a ha hconnected)).2 a hremoved rfl
  · intro hlisted
    refine ⟨?_, fun a => ?_, fun a ha hconnected => ?_⟩
    · rw [addresses_scan h]
      exact (o.scan env state adminAddress entries).activeMap.nodup_keys
    · rw [hmem a]
      exact ⟨EndsActive.hasActive, fun ha => (hlisted a ha).1⟩
    · refine (connected_scan h _).mpr ⟨hconnected, fun a' hremoved heq => ?_⟩
      obtain rfl := poolKey_inj h1 (HasActive.valid ha) (HasRemoved.valid hremoved) heq
      exact (hlisted a ha).2 hconnected hremoved

/-- Over every registry and every listing the scan is exact if and only if no removed key of an
address with an active one is listed after its last active one, nor at all where the pool holds a
connection to it. In every order the scan drops the same connections, and two orders in which it
is exact give the same addresses. -/
theorem scanAutobaseWriters_exact_iff (h1 : env.crypto.OneAddressPerKey) (h : Ran env state o) :
    (∀ entries, ScanExact env state adminAddress o entries ↔
      ListedLast env state adminAddress o entries) ∧
    ∀ entries entries', entries.Perm entries' →
      (∀ k, (o.scanAutobaseWriters env state adminAddress
          entries).2.validatorConnectionManager.connected k =
        (o.scanAutobaseWriters env state adminAddress
          entries').2.validatorConnectionManager.connected k) ∧
      (ScanExact env state adminAddress o entries → ScanExact env state adminAddress o entries' →
        ∀ a, a ∈ (o.scanAutobaseWriters env state adminAddress entries).1.map
            ActiveWriter.address ↔
          a ∈ (o.scanAutobaseWriters env state adminAddress entries').1.map
            ActiveWriter.address) := by
  refine ⟨fun entries => scanExact_iff h1 h, fun entries entries' hperm => ⟨fun k => ?_, ?_⟩⟩
  · rw [Bool.eq_iff_iff, connected_scan h, connected_scan h]
    simp only [HasRemoved, hperm.mem_iff]
  · intro hexact hexact' a
    rw [hexact.mem_iff, hexact'.mem_iff]
    simp only [HasActive, hperm.mem_iff]

namespace Sample

/-- Alice has switched from `aliceCore` to `aliceCore2`. -/
def switchedState : LocalState where
  signed := ∅
  view := ((∅ : View).put (.writerAddress aliceCore) aliceAddress).put (.writerAddress aliceCore2)
    aliceAddress
  base := { writers := [bootstrap, aliceCore2], indexers := [bootstrap] }

def currentEntry : SystemEntry :=
  { key := aliceCore2, value := some { isIndexer := false, isRemoved := false } }

def formerEntry : SystemEntry :=
  { key := aliceCore, value := some { isIndexer := false, isRemoved := true } }

def aliceConnection : Connection := { id := 1, remotePublicKey := toHex aliceKey }

/-- The service holds a connection to Alice. -/
def observer : ValidatorObserver where
  keyDecodeCache := ∅
  validatorConnectionManager :=
    (ConnectionManager.init.addValidator 8 (toHex aliceKey) aliceConnection).2

theorem ran_observer : Ran network switchedState observer := .start _

theorem hasActive_alice : HasActive network switchedState none [currentEntry, formerEntry] alice :=
  ⟨currentEntry, List.mem_cons_self, { isIndexer := false, isRemoved := false },
    ⟨rfl, rfl, by decide +kernel, fun h => by cases h⟩, by decide⟩

theorem scanAutobaseWriters_exact_iff_switched :
    ScanExact network switchedState none observer [formerEntry, currentEntry] ↔
      ListedLast network switchedState none observer [formerEntry, currentEntry] :=
  (scanAutobaseWriters_exact_iff oneAddressPerKey ran_observer).1 [formerEntry, currentEntry]

/-- In one order of the same two entries Alice is missing, and her connection is dropped. -/
theorem not_scanExact_switched :
    ¬ScanExact network switchedState none observer [currentEntry, formerEntry] ∧
      (observer.scanAutobaseWriters network switchedState none
        [currentEntry, formerEntry]).1.map ActiveWriter.address = [] ∧
      (observer.scanAutobaseWriters network switchedState none
        [formerEntry, currentEntry]).1.map ActiveWriter.address = [alice] ∧
      observer.validatorConnectionManager.connected (poolKey network alice) ∧
      ¬(observer.scanAutobaseWriters network switchedState none
        [currentEntry, formerEntry]).2.validatorConnectionManager.connected
          (poolKey network alice) := by
  have hnone : (observer.scanAutobaseWriters network switchedState none
      [currentEntry, formerEntry]).1.map ActiveWriter.address = [] := by decide +kernel
  refine ⟨fun h => ?_, hnone, by decide +kernel, by decide +kernel, by decide +kernel⟩
  have hmem := (h.mem_iff alice).mpr hasActive_alice
  rw [hnone] at hmem
  exact absurd hmem List.not_mem_nil

end Sample

end SettlementBus
