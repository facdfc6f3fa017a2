import SettlementBus.Lib.Machine
import SettlementBus.Lib.Store
import SettlementBus.Utils.Buffer

/-! `ConnectionManager.js`: the pool of validators, with the close handlers of `Network.js`. -/

namespace SettlementBus

open Lib

structure Connection where
  id : ℕ
  remotePublicKey : Str
  deriving DecidableEq

structure ValidatorEntry where
  connection : Option Connection
  sent : ℕ

/-- What has happened to the pool. -/
inductive Occurrence
  | added (publicKey : Str) (connection : Connection)
  | removed (publicKey : Str)
  | closed (connection : Connection)

structure ConnectionManager where
  validators : Store Str ValidatorEntry
  /-- The close handlers in the order of their registration. Each removes a key from the pool. -/
  handlers : List (Connection × Str)
  /-- The connections on which `end` was called. -/
  ended : List Connection
  /-- The connections whose close event has fired. -/
  closed : List Connection
  /-- The last occurrence first. -/
  log : List Occurrence

inductive ConnectionEvent
  /-- The swarm has a new connection. -/
  | connection (connection : Connection)
  | addValidator (publicKey : Str) (connection : Connection)
  | remove (publicKey : Str)
  /-- A health check found no protocol session or ended without success. -/
  | healthCheckFailed (publicKey : Str)
  | close (connection : Connection)

namespace ConnectionManager

def init : ConnectionManager :=
  { validators := ∅, handlers := [], ended := [], closed := [], log := [] }

variable (maxValidators : ℕ) (s : ConnectionManager)

def getConnection (publicKey : Str) : Option Connection :=
  (s.validators.get publicKey).bind ValidatorEntry.connection

def exists_ (publicKey : Str) : Bool := (s.validators.get publicKey).isSome

def connected (publicKey : Str) : Bool :=
  s.exists_ publicKey ∧ (s.getConnection publicKey).isSome

def connectedValidators : List Str := s.validators.keys.filter s.connected

def connectionCount : ℕ := s.connectedValidators.length

def maxConnectionsReached : Bool := maxValidators ≤ s.connectionCount

/-- `connection.on('close', …)`, with a handler that removes the key. -/
def onClose (connection : Connection) (publicKey : Str) : ConnectionManager :=
  { s with handlers := s.handlers ++ [(connection, publicKey)] }

def append (publicKey : Str) (connection : Connection) : ConnectionManager :=
  if s.exists_ publicKey then s
  else
    { s with
      validators := s.validators.put publicKey { connection := some connection, sent := 0 }
    }.onClose connection publicKey

/-- It registers no handler. -/
def update (publicKey : Str) (connection : Connection) : ConnectionManager :=
  match s.validators.get publicKey with
  | some entry =>
    { s with
      validators := s.validators.put publicKey { entry with connection := some connection } }
  | none =>
    { s with
      validators := s.validators.put publicKey { connection := some connection, sent := 0 } }

def addValidator (publicKey : Str) (connection : Connection) : Bool × ConnectionManager :=
  if s.maxConnectionsReached maxValidators then (false, s)
  else if ¬s.exists_ publicKey then (true, s.append publicKey connection)
  else if ¬s.connected publicKey then (true, s.update publicKey connection)
  else (false, s)

/-- `end` of the connection does not fire its close event at once. -/
def remove (publicKey : Str) : ConnectionManager :=
  match s.validators.get publicKey with
  | none => s
  | some entry =>
    { s with
      validators := s.validators.erase publicKey
      ended := entry.connection.toList ++ s.ended }

/-- The keys that the close handlers of a connection remove. -/
def closeKeys (connection : Connection) : List Str :=
  (s.handlers.filter fun handler => handler.1 = connection).map Prod.snd

def record (occurrence : Occurrence) : ConnectionManager := { s with log := occurrence :: s.log }

/-- The close event of a connection fires once. -/
def step : ConnectionEvent → Option ConnectionManager
  | .connection connection => some (s.onClose connection connection.remotePublicKey)
  | .addValidator publicKey connection =>
    let (success, s') := s.addValidator maxValidators publicKey connection
    some (if success then s'.record (.added publicKey connection) else s')
  | .remove publicKey => some ((s.remove publicKey).record (.removed publicKey))
  | .healthCheckFailed publicKey => some ((s.remove publicKey).record (.removed publicKey))
  | .close connection =>
    if connection ∈ s.closed then none
    else
      let s' := (s.closeKeys connection).foldl remove s
      some ({ s' with closed := connection :: s'.closed }.record (.closed connection))

end ConnectionManager

end SettlementBus
