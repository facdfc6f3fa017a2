import SettlementBus.Lib.OrderedMap
import SettlementBus.Network.Connection
import SettlementBus.Validators.Partial

/-! `ValidatorObserverService.js`: the scan of the writers that Autobase lists. -/

namespace SettlementBus

open Lib

def maxKeyDecodeCacheSize : ℕ := 10000

structure WriterInfo where
  isIndexer : Bool
  isRemoved : Bool
  deriving DecidableEq

/-- An entry of `base.system.list()`. -/
structure SystemEntry where
  key : Buffer
  value : Option WriterInfo
  deriving DecidableEq

structure DecodedIdentity where
  addr : Str
  publicKey : Buffer
  publicKeyHex : Str
  deriving DecidableEq

structure ActiveWriter where
  key : Buffer
  address : Str
  publicKey : Buffer
  publicKeyHex : Str
  deriving DecidableEq

/-- The fields of the service that the scan reads or writes. -/
structure ValidatorObserver where
  keyDecodeCache : Store Str (Option DecodedIdentity)
  validatorConnectionManager : ConnectionManager

/-- What an iteration of the scan changes. -/
structure WriterScan extends ValidatorObserver where
  activeMap : OrderedMap Str ActiveWriter

variable (env : Env) (state : LocalState) (adminAddress : Option Str)

/-- `null` for a key whose address does not decode. -/
def decodeIdentity (key : Buffer) : Option DecodedIdentity :=
  match state.getRegisteredWriterKey env key with
  | none => none
  | some addressBuffer =>
    if addressBuffer.length ≠ env.config.addressLength then none
    else (bufferToAddress env addressBuffer).map fun addr =>
      let publicKey := env.crypto.decodeSafe addr
      { addr, publicKey, publicKeyHex := toHex publicKey }

namespace ValidatorObserver

variable (o : ValidatorObserver)

/-- The identity of a key and the cache that remembers it. -/
def identityOf (key : Buffer) : Option DecodedIdentity × Store Str (Option DecodedIdentity) :=
  match o.keyDecodeCache.get (toHex key) with
  | some decodedIdentity => (decodedIdentity, o.keyDecodeCache)
  | none =>
    let decodedIdentity := decodeIdentity env state key
    (decodedIdentity, o.keyDecodeCache.put (toHex key) decodedIdentity)

def enforceNoStaleConnections (publicKey : Buffer) : ConnectionManager :=
  if o.validatorConnectionManager.connected (toHex publicKey) then
    o.validatorConnectionManager.remove (toHex publicKey)
  else o.validatorConnectionManager

end ValidatorObserver

def WriterScan.visit (scan : WriterScan) (entry : SystemEntry) : WriterScan :=
  if entry.key.length ≠ writerByteLength then scan
  else
    match entry.value with
    | none => scan
    | some value =>
      match scan.identityOf env state entry.key with
      | (none, keyDecodeCache) => { scan with keyDecodeCache }
      | (some identity, keyDecodeCache) =>
        if value.isIndexer ∧ some identity.addr ≠ adminAddress then { scan with keyDecodeCache }
        else if value.isRemoved then
          { keyDecodeCache
            validatorConnectionManager := scan.enforceNoStaleConnections identity.publicKey
            activeMap := scan.activeMap.delete identity.addr }
        else
          { scan with
            keyDecodeCache
            activeMap := scan.activeMap.set identity.addr
              { key := entry.key
                address := identity.addr
                publicKey := identity.publicKey
                publicKeyHex := identity.publicKeyHex } }

namespace ValidatorObserver

variable (o : ValidatorObserver) (entries : List SystemEntry)

def clearCache : ValidatorObserver :=
  if maxKeyDecodeCacheSize < o.keyDecodeCache.keys.length then { o with keyDecodeCache := ∅ } else o

def scan : WriterScan :=
  entries.foldl (WriterScan.visit env state adminAddress)
    { o.clearCache with activeMap := .empty }

/-- The list of active writers, and the service after the scan. -/
def scanAutobaseWriters : List ActiveWriter × ValidatorObserver :=
  let scan := o.scan env state adminAddress entries
  (scan.activeMap.values, scan.toValidatorObserver)

end ValidatorObserver

end SettlementBus
