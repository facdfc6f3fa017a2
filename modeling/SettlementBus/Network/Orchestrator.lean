import SettlementBus.Lib.Exec
import SettlementBus.Messages.Schema
import SettlementBus.Network.Connection
import SettlementBus.Network.Pool

/-! `MessageOrchestrator.js`: a message is sent to one validator after another. -/

namespace SettlementBus

open Lib

/-- What a session has been probed for. -/
inductive Protocol
  | legacy
  | v1
  deriving DecidableEq

/-! ### `connectionPolicies.js` -/

inductive SenderAction
  | undefined
  | success
  | rotate
  | noRotate
  deriving DecidableEq

def successCodes : List ℕ := [resultCodeOk]

def noRotateCodes : List ℕ := [resultCodeTxAlreadyPending]

/-- The set names every other code. -/
def rotateCodes : List ℕ :=
  allowedResultCodes.filter fun code => code ∉ successCodes ∧ code ∉ noRotateCodes

def resultToValidatorAction (resultCode : ℕ) : SenderAction :=
  if resultCode ∈ successCodes then .success
  else if resultCode ∈ rotateCodes then .rotate
  else if resultCode ∈ noRotateCodes then .noRotate
  else .undefined

/-! ### The counters of `ConnectionManager.js` -/

namespace ConnectionManager

variable (s : ConnectionManager)

def getSentCount (publicKey : Str) : ℕ :=
  match s.validators.get publicKey with
  | some entry => entry.sent
  | none => 0

def incrementSentCount (publicKey : Str) : ConnectionManager :=
  match s.validators.get publicKey with
  | some entry =>
    { s with validators := s.validators.put publicKey { entry with sent := entry.sent + 1 } }
  | none => s

/-- The number stands for `Math.random`. -/
def pickRandomValidator (random : ℕ) (validatorPubKeys : List Str) : Option Str :=
  validatorPubKeys[random % validatorPubKeys.length]?

def pickRandomConnectedValidator (random : ℕ) : Option Str :=
  pickRandomValidator random s.connectedValidators

end ConnectionManager

/-! ### The orchestrator -/

/-- What becomes of an attempt. -/
inductive AttemptOutcome
  /-- The transaction has appeared, or not in time. -/
  | appeared (appeared : Bool)
  | resultCode (code : ℕ)
  | connectionError
  | exception
  deriving DecidableEq

/-- Why a promise is rejected. -/
inductive SendError
  | connectionManager
  | other
  deriving DecidableEq

/-- The outcome of an attempt that ends with a value or an exception. -/
def AttemptOutcome.of {α : Type} (outcome : α → AttemptOutcome) : Except SendError α → AttemptOutcome
  | .ok a => outcome a
  | .error .connectionManager => .connectionError
  | .error .other => .exception

structure Attempt where
  validator : Str
  protocol : Protocol
  outcome : AttemptOutcome
  deriving DecidableEq

namespace Attempt

/-- The validator was still connected when the message was to be handed over. -/
def handed (a : Attempt) : Bool := a.outcome ≠ .connectionError

def succeeded (a : Attempt) : Bool :=
  match a.outcome with
  | .appeared appeared => appeared
  | .resultCode code => code = resultCodeOk
  | .connectionError => false
  | .exception => false

end Attempt

/-- What happens around one call of `send`. -/
structure Turn where
  /-- What the random choice comes from. -/
  random : ℕ
  /-- The message of the V1 protocol can be built. -/
  built : Bool
  /-- The validators that are removed from the pool while it is built. -/
  lostBefore : List Str
  /-- The promise of the session: a result code, or it is rejected. -/
  reply : Option ℕ
  /-- The promise of `waitForUnsigned`. -/
  appeared : Option Bool
  /-- The validators that are removed from the pool while the promises are awaited. -/
  lostAfter : List Str

/-- A message, with what `send` has from the configuration and from outside. -/
structure MessageOrchestrator where
  messageThreshold : ℕ
  publicKeyToAddress : Str → Str
  preferredProtocol : Connection → Option Protocol
  /-- The address of the message. -/
  requesterAddress : Option Str

structure Sending where
  connectionManager : ConnectionManager
  /-- How many turns have been taken. -/
  turn : ℕ
  attempts : List Attempt

namespace Sending

def init (connectionManager : ConnectionManager) : Sending :=
  { connectionManager, turn := 0, attempts := [] }

def remove (publicKey : Str) (s : Sending) : Sending :=
  { s with connectionManager := s.connectionManager.remove publicKey }

/-- Validators are removed by health checks and by the close handlers of connections. -/
def lose (publicKeys : List Str) (s : Sending) : Sending :=
  { s with connectionManager := publicKeys.foldl ConnectionManager.remove s.connectionManager }

def record (a : Attempt) (s : Sending) : Sending := { s with attempts := s.attempts ++ [a] }

end Sending

namespace MessageOrchestrator

variable (o : MessageOrchestrator)

abbrev SendM := Exec SendError Sending

/-- The validators that `pickValidatorForMessage` chooses from. -/
def candidates (s : ConnectionManager) : List Str :=
  let connected := s.connectedValidators
  match o.requesterAddress with
  | none | some [] => connected
  | some requesterAddress =>
    let eligible := connected.filter fun publicKey =>
      o.publicKeyToAddress publicKey ≠ requesterAddress
    if 0 < eligible.length then eligible else connected

def pickValidatorForMessage (random : ℕ) (s : ConnectionManager) : Option Str :=
  ConnectionManager.pickRandomValidator random (o.candidates s)

def protocolOf (s : ConnectionManager) (publicKey : Str) : Option Protocol :=
  (s.getConnection publicKey).bind o.preferredProtocol

def shouldRemove (publicKey : Str) (s : Sending) : Bool :=
  o.messageThreshold ≤ s.connectionManager.getSentCount publicKey

/-- A validator that has got a message. -/
def countSent (publicKey : Str) : SendM Unit := do
  modify fun s =>
    { s with connectionManager := s.connectionManager.incrementSentCount publicKey }
  if o.shouldRemove publicKey (← get) then modify (Sending.remove publicKey)

/-- `sendSingleMessage`, which calls `send` of a session only for a validator that is connected. -/
def sendSingleMessage (s : ConnectionManager) (publicKey : Str) (reply : Option ℕ) :
    Except SendError ℕ :=
  if s.connected publicKey then orExit .other reply else .error .connectionManager

/-- The end of an attempt. -/
def conclude {α : Type} (publicKey : Str) (protocol : Protocol) (turn : Turn)
    (outcome : α → AttemptOutcome) (result : Except SendError α) : SendM α := do
  modify (Sending.lose turn.lostAfter)
  modify (Sending.record { validator := publicKey, protocol, outcome := .of outcome result })
  liftM result

def attemptSendMessageForLegacy (publicKey : Str) (turn : Turn) : SendM Bool := do
  let s ← get
  let appeared ← conclude publicKey .legacy turn .appeared do
    let _ ← sendSingleMessage s.connectionManager publicKey turn.reply
    orExit .other turn.appeared
  if appeared then o.countSent publicKey
  return appeared

/-- The message of the V1 protocol and what `then` does with the result code. -/
def sendV1Message (publicKey : Str) (turn : Turn) : SendM Bool := do
  let s ← get
  let resultCode ← conclude publicKey .v1 turn .resultCode
    (sendSingleMessage s.connectionManager publicKey turn.reply)
  match resultToValidatorAction resultCode with
  | .success =>
    o.countSent publicKey
    return true
  | .rotate =>
    modify (Sending.remove publicKey)
    return false
  | .noRotate => return false
  | .undefined =>
    modify (Sending.remove publicKey)
    return false

variable (turns : ℕ → Turn)

/-- `send`, when `retries` can still grow by this much before it exceeds `maxRetries`. -/
def sendWithin : ℕ → SendM Bool
  | 0 => return false
  | left + 1 => do
    let s ← get
    let turn := turns s.turn
    match o.pickValidatorForMessage turn.random s.connectionManager with
    | none => return false
    | some publicKey =>
      set { s with turn := s.turn + 1 }
      match o.protocolOf s.connectionManager publicKey with
      | some .legacy =>
        let success ← try o.attemptSendMessageForLegacy publicKey turn catch _ => sendWithin left
        if success then return true
        modify (Sending.remove publicKey)
        sendWithin left
      | some .v1 =>
        if !turn.built then throw .other
        modify (Sending.lose turn.lostBefore)
        try o.sendV1Message publicKey turn
        catch
          | .connectionManager => sendWithin left
          | .other =>
            modify (Sending.remove publicKey)
            sendWithin left
      | none => return false

def send (maxRetries retries : ℕ) : SendM Bool := o.sendWithin turns (maxRetries + 1 - retries)

end MessageOrchestrator

end SettlementBus
