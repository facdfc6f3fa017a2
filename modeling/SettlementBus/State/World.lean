import SettlementBus.Lib.Exec
import SettlementBus.Lib.Store
import SettlementBus.State.Entries

namespace SettlementBus

open Lib

/-- The keys of the view. -/
inductive EntryKey
  | admin
  | initialization
  | licenseCount
  | licenseIndex : ℕ → EntryKey
  | writersLength
  | writersIndex : ℕ → EntryKey
  | writerAddress : Buffer → EntryKey
  | deployment : Buffer → EntryKey
  | record : Buffer → EntryKey
  | account : Str → EntryKey
  deriving DecidableEq

/-- The string under which the program puts the entry. -/
def EntryKey.render : EntryKey → Str
  | admin => "admin".toList
  | initialization => "init".toList
  | licenseCount => "lc".toList
  | licenseIndex n => "li/".toList ++ Nat.toDigits 10 n
  | writersLength => "wrl".toList
  | writersIndex n => "wri/".toList ++ Nat.toDigits 10 n
  | writerAddress wk => "wka/".toList ++ toHex wk
  | deployment bootstrap => "deployment/".toList ++ toHex bootstrap
  | record tx => toHex tx
  | account address => address

/-- The membership Autobase keeps: the writer keys, and the indexers among them in the order
of `base.system.indexers`. -/
structure Base where
  writers : List Buffer
  indexers : List Buffer
  deriving DecidableEq

instance (key : Buffer) (keys : List Buffer) : Decidable (key ∈ keys) := inferInstance

namespace Base

def removeWriter (base : Base) (key : Buffer) : Base :=
  { writers := base.writers.filter (· ≠ key), indexers := base.indexers.filter (· ≠ key) }

def insertKey (keys : List Buffer) (key : Buffer) : List Buffer :=
  if key ∈ keys then keys else keys ++ [key]

def addWriter (base : Base) (key : Buffer) (isIndexer : Bool) : Base :=
  { writers := insertKey base.writers key,
    indexers := if isIndexer then insertKey base.indexers key
      else base.indexers.filter (· ≠ key) }

end Base

abbrev View := Store EntryKey Buffer

structure World where
  view : View
  base : Base

/-- How a handler leaves before its end: with a status, or by an exception. -/
inductive Exit
  | failure
  | ignore
  | thrown
  deriving DecidableEq, Repr

abbrev Apply := Exec Exit World

def getEntryApply (key : EntryKey) : Apply (Option Buffer) := do
  return (← get).view.get key

def put (key : EntryKey) (value : Buffer) : Apply Unit :=
  modify fun w => { w with view := w.view.put key value }

def baseAddWriter (key : Buffer) (isIndexer : Bool) : Apply Unit :=
  modify fun w => { w with base := w.base.addWriter key isIndexer }

def baseRemoveWriter (key : Buffer) : Apply Unit :=
  modify fun w => { w with base := w.base.removeWriter key }

section Rules

@[simp] theorem getEntryApply_ok {key : EntryKey} {v : Option Buffer} {w w' : World} :
    (getEntryApply key).exec w = (.ok v, w') ↔ w.view.get key = v ∧ w = w' := by
  simp [getEntryApply, and_comm]

@[simp] theorem exec_put (key : EntryKey) (value : Buffer) (w : World) :
    (put key value).exec w = (.ok (), { w with view := w.view.put key value }) := rfl

@[simp] theorem exec_baseAddWriter (key : Buffer) (isIndexer : Bool) (w : World) :
    (baseAddWriter key isIndexer).exec w =
      (.ok (), { w with base := w.base.addWriter key isIndexer }) := rfl

@[simp] theorem exec_baseRemoveWriter (key : Buffer) (w : World) :
    (baseRemoveWriter key).exec w = (.ok (), { w with base := w.base.removeWriter key }) := rfl

variable (Q : Unit → World → Prop) (E : Exit → World → Prop) (w : World)

@[simp] theorem wp_getEntryApply (key : EntryKey) (Q : Option Buffer → World → Prop) :
    (getEntryApply key).wp Q E w ↔ Q (w.view.get key) w := by
  simp [getEntryApply]

@[simp] theorem wp_put (key : EntryKey) (value : Buffer) :
    (put key value).wp Q E w ↔ Q () { w with view := w.view.put key value } := Iff.rfl

@[simp] theorem wp_baseAddWriter (key : Buffer) (isIndexer : Bool) :
    (baseAddWriter key isIndexer).wp Q E w ↔
      Q () { w with base := w.base.addWriter key isIndexer } := Iff.rfl

@[simp] theorem wp_baseRemoveWriter (key : Buffer) :
    (baseRemoveWriter key).wp Q E w ↔ Q () { w with base := w.base.removeWriter key } := Iff.rfl

end Rules

end SettlementBus
