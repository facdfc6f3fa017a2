import SettlementBus.Messages.NetworkBuilder
import SettlementBus.Network.Orchestrator
import SettlementBus.Network.Response

/-! `Network.js`, `ProtocolSession.js` and `ValidatorHealthCheckService.js`: how the connections to
validators come about, are probed and watched. -/

namespace SettlementBus

open Lib

def resultCodeUnspecified : ℕ := 0

/-- `CONNECTION_STATUS` -/
inductive ConnectionStatus
  | connected
  | pending
  | ignored
  deriving DecidableEq

structure PendingConnection where
  type : Option Str
  timeoutId : ℕ
  deriving DecidableEq

/-- How an attempt ends. -/
inductive AttemptEnd
  | ready (connection : Connection)
  | timeout
  deriving DecidableEq

/-- A promise for a result code. One of the pending requests has a number. -/
inductive Reply
  | resolved (resultCode : ℕ)
  | rejected
  | promise (promise : ℕ)
  deriving DecidableEq

/-- The asynchronous functions that wait, and for what. -/
inductive Task
  /-- The handler of a new connection, for `setupProtomuxMessages`. -/
  | setup (connection : Connection)
  /-- The handler of a new connection, for `#finalizeConnection`. -/
  | finalized (connection : Connection)
  /-- `probe`, for `#buildLivenessRequest`. -/
  | probe (publicKey : Str) (connection : Connection)
  /-- `probe`, for `send`. -/
  | probeSent (publicKey : Str) (connection : Connection) (reply : Reply)
  /-- The handler of a ready connection, for `probe`. -/
  | probed (publicKey : Str) (connection : Connection)
  /-- `sendHealthCheck`, for `#buildLivenessRequest`. -/
  | check (publicKey : Str) (connection : Connection)
  /-- `sendHealthCheck`, for `send`. -/
  | checkSent (publicKey : Str) (reply : Reply)
  /-- The handler of a health check, for `sendHealthCheck`. -/
  | checked (publicKey : Str) (resultCode : ℕ)
  deriving DecidableEq

/-! ### Services -/

def PendingRequestService.isProbePending (service : PendingRequestService) (peerPubKeyHex : Str) :
    Bool :=
  service.entries.any fun entry =>
    entry.data.requestedTo = peerPubKeyHex ∧ entry.data.requestType = .livenessRequest

/-- The keys whose intervals run. -/
abbrev ValidatorHealthCheckService := List Str

namespace ValidatorHealthCheckService

variable (service : ValidatorHealthCheckService) (publicKey : Str)

def has : Bool := service.contains publicKey

def start : ValidatorHealthCheckService :=
  if service.has publicKey then service else publicKey :: service

def stop : ValidatorHealthCheckService := service.filter (· ≠ publicKey)

end ValidatorHealthCheckService

structure Network where
  requests : Requests
  manager : ConnectionManager
  healthChecks : ValidatorHealthCheckService
  /-- Of the sessions that are probed. -/
  preferredProtocol : Store Connection Protocol
  pendingConnections : Store Str PendingConnection
  /-- The running timers of attempts. -/
  timeouts : List (ℕ × Str)
  nextTimeoutId : ℕ
  /-- The connections that have a session. -/
  opened : List Connection
  /-- The connections with the listeners of the network. -/
  listening : List Connection
  tasks : List Task
  /-- The attempts that have ended, the last one first. -/
  ends : List (ℕ × AttemptEnd)

inductive NetworkEvent
  /-- `tryConnect`, with the connection to the peer that the swarm has. -/
  | tryConnect (publicKey : Str) (type : Option Str) (found : Option Connection)
  | timeout (timeoutId : ℕ)
  /-- The swarm has a new connection. -/
  | connection (connection : Connection)
  /-- A router has got a message. -/
  | received (connection : Connection) (protocol : Protocol)
  /-- `#buildLivenessRequest` is done, and its message is written to the session, or not. -/
  | built (place now : ℕ) (nonce : Buffer) (id : Str) (sent : Bool)
  /-- An asynchronous function goes on. -/
  | resume (place : ℕ)
  /-- An interval of the health checks elapses. -/
  | healthCheck (publicKey : Str)
  /-- The orchestrator or the observer removes a validator. -/
  | remove (publicKey : Str)
  | requests (event : RequestEvent)
  | close (connection : Connection)
  | error (connection : Connection)

namespace Network

def init : Network where
  requests := .init
  manager := .init
  healthChecks := []
  preferredProtocol := ∅
  pendingConnections := ∅
  timeouts := []
  nextTimeoutId := 0
  opened := []
  listening := []
  tasks := []
  ends := []

section

variable (s : Network)

def await (task : Task) : Network := { s with tasks := s.tasks ++ [task] }

/-! ### `ProtocolSession.js` -/

section Session

variable (connection : Connection)

def isProbed : Bool := (s.preferredProtocol.get connection).isSome

/-- The first choice stays. -/
def setPreferredProtocol (protocol : Protocol) : Network :=
  if s.isProbed connection then s
  else { s with preferredProtocol := s.preferredProtocol.put connection protocol }

def setLegacyAsPreferredProtocol : Network := s.setPreferredProtocol connection .legacy

def setV1AsPreferredProtocol : Network := s.setPreferredProtocol connection .v1

/-- It throws for a session that is not probed. -/
def isHealthCheckSupported : Option Bool :=
  (s.preferredProtocol.get connection).map fun protocol => protocol = .v1

/-- `V1Protocol.send`. A registration that throws rejects. -/
def send (maxPendingRequests : ℕ) (message : NetworkMessage) (sent : Bool) : Reply × Network :=
  match s.requests.service.registerPendingRequest maxPendingRequests connection.remotePublicKey
    message with
  | none => (.rejected, s)
  | some service =>
    (.promise s.requests.service.nextId, { s with
      requests := { s.requests with
        service :=
          if sent then service else service.rejectPendingRequest message.id .sendFailed } })

/-- Up to the first `await`. -/
def sendHealthCheck (publicKey : Str) : Network :=
  match s.preferredProtocol.get connection with
  | some .v1 => s.await (.check publicKey connection)
  | some .legacy => s.await (.checked publicKey resultCodeOk)
  | none => s.await (.checked publicKey resultCodeUnspecified)

/-- What has become of a promise: its result code, or `none` where it is rejected. -/
def outcome : Reply → Option (Option ℕ)
  | .resolved resultCode => some (some resultCode)
  | .rejected => some none
  | .promise promise =>
    (s.requests.service.settlement promise).map fun
      | .resolved resultCode => some resultCode
      | .rejected _ => none

end Session

/-! ### `ConnectionManager.js` -/

def stopHealthCheck (publicKey : Str) : Network :=
  { s with healthChecks := s.healthChecks.stop publicKey }

def remove (publicKey : Str) : Network :=
  { s.stopHealthCheck publicKey with manager := s.manager.remove publicKey }

/-- Up to `sendHealthCheck`. -/
def healthCheckHandler (publicKey : Str) : Network :=
  if ¬s.manager.exists_ publicKey ∨ ¬s.manager.connected publicKey then s.stopHealthCheck publicKey
  else
    match s.manager.getConnection publicKey with
    | none => (s.stopHealthCheck publicKey).remove publicKey
    | some connection => s.sendHealthCheck connection publicKey

/-- After `sendHealthCheck`. -/
def finishHealthCheck (publicKey : Str) (resultCode : ℕ) : Network :=
  if resultCode = resultCodeOk then s else (s.remove publicKey).stopHealthCheck publicKey

/-! ### `Network.js` -/

/-- A new attempt, with a running timer. -/
def beginAttempt (publicKey : Str) (type : Option Str) : Network :=
  { s with
    timeouts := (s.nextTimeoutId, publicKey) :: s.timeouts
    nextTimeoutId := s.nextTimeoutId + 1
    pendingConnections :=
      s.pendingConnections.put publicKey { type, timeoutId := s.nextTimeoutId } }

/-- An attempt is no longer pending, and its timer does not run. -/
def endAttempt (publicKey : Str) (timeoutId : ℕ) (last : AttemptEnd) : Network :=
  { s with
    timeouts := s.timeouts.filter fun timer => timer.1 ≠ timeoutId
    pendingConnections := s.pendingConnections.erase publicKey
    ends := (timeoutId, last) :: s.ends }

def addValidator (maxValidators : ℕ) (publicKey : Str) (connection : Connection) : Network :=
  { s with manager := (s.manager.addValidator maxValidators publicKey connection).2 }

def watch (publicKey : Str) (connection : Connection) : Network :=
  if (s.isHealthCheckSupported connection).getD false then
    { s with healthChecks := s.healthChecks.start publicKey }
  else s.stopHealthCheck publicKey

/-- The rest of the handler of a ready validator, after the probe. -/
def addReady (maxValidators : ℕ) (publicKey : Str) (connection : Connection) : Network :=
  (s.addValidator maxValidators publicKey connection).watch publicKey connection

/-- The handler of a ready validator, up to the probe. -/
def validatorReady (maxValidators : ℕ) (publicKey : Str) (connection : Connection) : Network :=
  if s.isProbed connection then s.addReady maxValidators publicKey connection
  else s.await (.probe publicKey connection)

/-- The handler of `VALIDATOR_CONNECTION_READY`, which throws without an attempt. -/
def connectionReady (maxValidators : ℕ) (publicKey : Str) (type : Option Str)
    (connection : Connection) : Network :=
  match s.pendingConnections.get publicKey with
  | none => s
  | some entry =>
    let s := s.endAttempt publicKey entry.timeoutId (.ready connection)
    if type = some "validator".toList then s.validatorReady maxValidators publicKey connection
    else s

def finalizeConnection (maxValidators : ℕ) (publicKey : Str) (type : Option Str)
    (connection : Connection) : Network :=
  if (s.pendingConnections.get publicKey).isSome then
    s.connectionReady maxValidators publicKey type connection
  else s

/-- `joinPeer` is left to the swarm. -/
def tryConnect (maxValidators maxPendingConnections : ℕ) (publicKey : Str) (type : Option Str)
    (found : Option Connection) : ConnectionStatus × Network :=
  if (s.pendingConnections.get publicKey).isSome ∨
      maxPendingConnections ≤ s.pendingConnections.keys.length then (.ignored, s)
  else
    let s := s.beginAttempt publicKey type
    match found with
    | none => (.pending, s)
    | some connection =>
      if connection ∈ s.opened ∧ ¬s.requests.service.isProbePending connection.remotePublicKey then
        (.connected, s.finalizeConnection maxValidators publicKey type connection)
      else (.pending, s)

/-- The timer of an attempt, with the handler of `VALIDATOR_CONNECTION_TIMEOUT`. -/
def timeout (timeoutId : ℕ) : Option Network := do
  let publicKey ← s.timeouts.lookup timeoutId
  let timeouts := s.timeouts.filter fun timer => timer.1 ≠ timeoutId
  match s.pendingConnections.get publicKey with
  | none => return { s with timeouts }
  | some entry =>
    return { s with
      timeouts
      pendingConnections := s.pendingConnections.erase publicKey
      ends := (entry.timeoutId, .timeout) :: s.ends }

/-- `connection.on('close', …)` and `connection.on('error', …)` -/
def listen (connection : Connection) : Network :=
  { s with
    manager := s.manager.onClose connection connection.remotePublicKey
    listening := connection :: s.listening }

/-- The handler of a new connection, after `setupProtomuxMessages`. -/
def handleConnection (maxValidators : ℕ) (connection : Connection) : Network :=
  match s.pendingConnections.get connection.remotePublicKey with
  | some { type, .. } =>
    (s.finalizeConnection maxValidators connection.remotePublicKey type connection).await
      (.finalized connection)
  | none => s.listen connection

def rejectPendingRequestsForPeer (publicKey : Str) (error : RequestError) : Network :=
  { s with requests := { s.requests with
      service := s.requests.service.rejectPendingRequestsForPeer publicKey error } }

/-- The handlers of a close event, each of which removes a key. -/
def close (connection : Connection) : Network :=
  let rejected :=
    if connection ∈ s.listening then
      s.rejectPendingRequestsForPeer connection.remotePublicKey .connectionClosed
    else s
  let s := (s.manager.closeKeys connection).foldl remove rejected
  { s with manager := { s.manager with closed := connection :: s.manager.closed } }

def drop (place : ℕ) : Network := { s with tasks := s.tasks.eraseIdx place }

end

/-! ### Steps -/

variable (env : Env) (wallet : Wallet)
  (maxValidators maxPendingConnections maxPendingRequests : ℕ)
  (schema : NetworkMessage → Bool) (s : Network)

/-- After `#buildLivenessRequest`, which may throw. -/
def goOnBuilt (now : ℕ) (nonce : Buffer) (id : Str) (sent : Bool) : Task → Option Network
  | .probe publicKey connection =>
    match NetworkMessageDirector.buildLivenessRequest env wallet now nonce id
        networkCapabilities with
    | none =>
      some ((s.setLegacyAsPreferredProtocol connection).await (.probed publicKey connection))
    | some (message, _) =>
      let (reply, s) := s.send connection maxPendingRequests message sent
      some (s.await (.probeSent publicKey connection reply))
  | .check publicKey connection =>
    match NetworkMessageDirector.buildLivenessRequest env wallet now nonce id
        networkCapabilities with
    | none => some (s.await (.checked publicKey resultCodeUnexpectedError))
    | some (message, _) =>
      let (reply, s) := s.send connection maxPendingRequests message sent
      some (s.await (.checkSent publicKey reply))
  | _ => none

def goOn : Task → Option Network
  | .setup connection => some (s.handleConnection maxValidators connection)
  | .finalized connection => some (s.listen connection)
  | .probeSent publicKey connection reply => do
    let outcome ← s.outcome reply
    let s :=
      if outcome = some resultCodeOk then s.setV1AsPreferredProtocol connection
      else s.setLegacyAsPreferredProtocol connection
    return s.await (.probed publicKey connection)
  | .probed publicKey connection => some (s.addReady maxValidators publicKey connection)
  | .checkSent publicKey reply => do
    let outcome ← s.outcome reply
    return s.await (.checked publicKey (outcome.getD resultCodeUnexpectedError))
  | .checked publicKey resultCode => some (s.finishHealthCheck publicKey resultCode)
  | .probe .. | .check .. => none

/-- The swarm has a connection from its first event to its close event, and finds it under the key
of its peer. -/
def step : NetworkEvent → Option Network
  | .tryConnect publicKey type found => do
    guard (∀ connection ∈ found,
      connection.remotePublicKey = publicKey ∧ connection ∉ s.manager.closed)
    return (s.tryConnect maxValidators maxPendingConnections publicKey type found).2
  | .timeout timeoutId => s.timeout timeoutId
  | .connection connection => do
    guard (connection ∉ s.opened)
    return { s with opened := connection :: s.opened }.await (.setup connection)
  | .received connection protocol => do
    guard (connection ∈ s.opened)
    return s.setPreferredProtocol connection protocol
  | .built place now nonce id sent => do
    (s.drop place).goOnBuilt env wallet maxPendingRequests now nonce id sent (← s.tasks[place]?)
  | .resume place => do (s.drop place).goOn maxValidators (← s.tasks[place]?)
  | .healthCheck publicKey => do
    guard (s.healthChecks.has publicKey)
    return s.healthCheckHandler publicKey
  | .remove publicKey => some (s.remove publicKey)
  | .requests event => do
    return { s with requests := ← s.requests.step maxPendingRequests schema event }
  | .close connection => do
    guard (connection ∈ s.opened ∧ connection ∉ s.manager.closed)
    return s.close connection
  | .error connection => do
    guard (connection ∈ s.listening)
    return s.rejectPendingRequestsForPeer connection.remotePublicKey .connectionError

/-! ### Their cases -/

/-- What becomes of the state, without what the step asks of the swarm. -/
def Follows (s' : Network) : NetworkEvent → Prop
  | .tryConnect publicKey type found =>
    s' = (s.tryConnect maxValidators maxPendingConnections publicKey type found).2
  | .timeout timeoutId => s.timeout timeoutId = some s'
  | .connection connection =>
    s' = { s with opened := connection :: s.opened }.await (.setup connection)
  | .received connection protocol => s' = s.setPreferredProtocol connection protocol
  | .built place now nonce id sent => ∃ task,
    (s.drop place).goOnBuilt env wallet maxPendingRequests now nonce id sent task = some s'
  | .resume place => ∃ task, s.tasks[place]? = some task ∧
    (s.drop place).goOn maxValidators task = some s'
  | .healthCheck publicKey => s' = s.healthCheckHandler publicKey
  | .remove publicKey => s' = s.remove publicKey
  | .requests event => ∃ requests, s.requests.step maxPendingRequests schema event = some requests ∧
    s' = { s with requests }
  | .close connection => s' = s.close connection
  | .error connection =>
    s' = s.rejectPendingRequestsForPeer connection.remotePublicKey .connectionError

variable {env wallet maxValidators maxPendingConnections maxPendingRequests schema s}

theorem follows_of_step {s' : Network} {e : NetworkEvent}
    (hs : step env wallet maxValidators maxPendingConnections maxPendingRequests schema s e =
      some s') :
    Follows env wallet maxValidators maxPendingConnections maxPendingRequests schema s s' e := by
  cases e with
  | timeout timeoutId => exact hs
  | remove publicKey =>
    cases hs
    rfl
  | built place now nonce id sent =>
    obtain ⟨task, -, hs⟩ := Option.bind_eq_some_iff.mp hs
    exact ⟨task, hs⟩
  | resume place =>
    obtain ⟨task, hplace, hs⟩ := Option.bind_eq_some_iff.mp hs
    exact ⟨task, hplace, hs⟩
  | requests event =>
    obtain ⟨requests, hrequests, hs⟩ := Option.bind_eq_some_iff.mp hs
    cases hs
    exact ⟨requests, hrequests, rfl⟩
  | tryConnect | connection | received | healthCheck | close | error =>
    -- The condition holds, and the step is what follows it.
    obtain ⟨-, -, hs⟩ := Option.bind_eq_some_iff.mp hs
    cases hs
    rfl

end Network

end SettlementBus
