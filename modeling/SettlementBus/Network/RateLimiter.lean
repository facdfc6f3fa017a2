import SettlementBus.Lib.OrderedMap
import SettlementBus.Network.Response
import SettlementBus.Utils.Helpers

/-! `TransactionRateLimiterService.js`: how many transactions of a peer are let through. -/

namespace SettlementBus

open Lib

structure RateLimiterConfig where
  rateLimitCleanupIntervalMs : ℤ
  rateLimitConnectionTimeoutMs : ℤ
  rateLimitMaxTransactionsPerSecond : ℕ

structure PeerData where
  sessionStartTime : ℤ
  lastActivityTime : ℤ
  lastCounterReset : ℤ
  transactionCount : ℕ

structure TransactionRateLimiterService where
  lastCleanup : ℤ
  connectionsStatistics : OrderedMap Str PeerData

/-- What the legacy protocol does to a peer that is over the limit. -/
inductive RateLimitEffect
  | leavePeer (remotePublicKey : Buffer)
  | endConnection (remotePublicKey : Buffer)

/-- The `V1ProtocolError` for a peer that is over the limit. -/
structure RateLimitError where
  resultCode : ℕ
  message : Str

inductive RateLimitRequest
  | legacy (remotePublicKey : Buffer) (currentTime : ℤ)
  | v1 (remotePublicKey : Buffer) (currentTime : ℤ)

namespace RateLimitRequest

def peer : RateLimitRequest → Str
  | legacy remotePublicKey _ => toHex remotePublicKey
  | v1 remotePublicKey _ => toHex remotePublicKey

def currentTime : RateLimitRequest → ℤ
  | legacy _ currentTime => currentTime
  | v1 _ currentTime => currentTime

end RateLimitRequest

namespace PeerData

/-- A new entry. -/
def initial (timestamp : ℤ) : PeerData :=
  { sessionStartTime := timestamp, lastActivityTime := timestamp, lastCounterReset := timestamp
    transactionCount := 0 }

/-- The counter starts again in a new second of the session. -/
def resetCounter (currentTime : ℤ) (peerData : PeerData) : PeerData :=
  let currentSecond := (currentTime - peerData.sessionStartTime) / 1000
  let lastResetSecond := (peerData.lastCounterReset - peerData.sessionStartTime) / 1000
  if lastResetSecond < currentSecond then
    { peerData with transactionCount := 0, lastCounterReset := currentTime }
  else peerData

def count (timestamp : ℤ) (peerData : PeerData) : PeerData :=
  { peerData with
    lastActivityTime := timestamp
    transactionCount := peerData.transactionCount + 1 }

end PeerData

namespace TransactionRateLimiterService

variable (config : RateLimiterConfig) (publicKeyToAddress : Buffer → Str)

def init (now : ℤ) : TransactionRateLimiterService :=
  { lastCleanup := now, connectionsStatistics := .empty }

def isConnectionExpired (peerData : PeerData) (currentTime : ℤ) : Bool :=
  config.rateLimitConnectionTimeoutMs ≤ currentTime - peerData.lastActivityTime

/-- The loop over the peers. -/
def deleteExpired (currentTime : ℤ) (statistics : OrderedMap Str PeerData) (peer : Str) :
    OrderedMap Str PeerData :=
  match statistics.get peer with
  | some peerData =>
    if isConnectionExpired config peerData currentTime then statistics.delete peer else statistics
  | none => statistics

def cleanUpOldConnections (currentTime : ℤ) (s : TransactionRateLimiterService) :
    TransactionRateLimiterService :=
  if currentTime - s.lastCleanup < config.rateLimitCleanupIntervalMs then s
  else
    { lastCleanup := currentTime
      connectionsStatistics :=
        s.connectionsStatistics.keys.foldl (deleteExpired config currentTime)
          s.connectionsStatistics }

def initializePeerConnectionInfoEntry (peer : Str) (timestamp : ℤ)
    (s : TransactionRateLimiterService) : TransactionRateLimiterService :=
  match s.connectionsStatistics.get peer with
  | some _ => s
  | none =>
    { s with connectionsStatistics := s.connectionsStatistics.set peer (.initial timestamp) }

/-- The entry of the peer is there. -/
def hasExceededRateLimit (peer : Str) (currentTime : ℤ) (s : TransactionRateLimiterService) :
    Bool × TransactionRateLimiterService :=
  match s.connectionsStatistics.get peer with
  | some peerData =>
    let peerData := peerData.resetCounter currentTime
    (config.rateLimitMaxTransactionsPerSecond ≤ peerData.transactionCount,
      { s with connectionsStatistics := s.connectionsStatistics.set peer peerData })
  | none => (false, s)

def updatePeerConnectionInfo (peer : Str) (timestamp : ℤ) (s : TransactionRateLimiterService) :
    TransactionRateLimiterService :=
  match s.connectionsStatistics.get peer with
  | some peerData =>
    { s with connectionsStatistics := s.connectionsStatistics.set peer (peerData.count timestamp) }
  | none => s

def legacyHandleRateLimit (remotePublicKey : Buffer) (currentTime : ℤ)
    (s : TransactionRateLimiterService) :
    Bool × List RateLimitEffect × TransactionRateLimiterService :=
  let peer := toHex remotePublicKey
  let s := s.cleanUpOldConnections config currentTime
  let s := s.initializePeerConnectionInfoEntry peer currentTime
  let (exceeded, s) := s.hasExceededRateLimit config peer currentTime
  if exceeded then (true, [.leavePeer remotePublicKey, .endConnection remotePublicKey], s)
  else (false, [], s.updatePeerConnectionInfo peer currentTime)

def v1HandleRateLimit (remotePublicKey : Buffer) (currentTime : ℤ)
    (s : TransactionRateLimiterService) :
    Except RateLimitError Unit × TransactionRateLimiterService :=
  let peer := toHex remotePublicKey
  let s := s.cleanUpOldConnections config currentTime
  let s := s.initializePeerConnectionInfoEntry peer currentTime
  let (exceeded, s) := s.hasExceededRateLimit config peer currentTime
  if exceeded then
    (.error {
      resultCode := resultCodeRateLimited
      message := "Rate limit exceeded for peer ".toList ++ publicKeyToAddress remotePublicKey }, s)
  else (.ok (), s.updatePeerConnectionInfo peer currentTime)

/-- Whether the request is accepted. -/
def handle (s : TransactionRateLimiterService) :
    RateLimitRequest → Bool × TransactionRateLimiterService
  | .legacy remotePublicKey currentTime =>
    let (limited, _, s) := s.legacyHandleRateLimit config remotePublicKey currentTime
    (!limited, s)
  | .v1 remotePublicKey currentTime =>
    let (result, s) := s.v1HandleRateLimit config publicKeyToAddress remotePublicKey currentTime
    (result.isOk, s)

/-- The peers whose entries the cleanup at this time deletes. -/
def evicted (currentTime : ℤ) (s : TransactionRateLimiterService) : List Str :=
  s.connectionsStatistics.keys.filter fun peer =>
    ((s.cleanUpOldConnections config currentTime).connectionsStatistics.get peer).isNone

end TransactionRateLimiterService

/-- A request that was handled. -/
structure ServedRequest where
  peer : Str
  time : ℤ
  accepted : Bool
  evicted : List Str

/-- The service with what it has done. -/
structure RateLimiterRun where
  service : TransactionRateLimiterService
  served : List ServedRequest

namespace RateLimiterRun

variable (config : RateLimiterConfig) (publicKeyToAddress : Buffer → Str)

def answer (s : TransactionRateLimiterService) (request : RateLimitRequest) : ServedRequest where
  peer := request.peer
  time := request.currentTime
  accepted := (s.handle config publicKeyToAddress request).1
  evicted := s.evicted config request.currentTime

def serve (s : RateLimiterRun) (request : RateLimitRequest) : RateLimiterRun where
  service := (s.service.handle config publicKeyToAddress request).2
  served := s.served ++ [answer config publicKeyToAddress s.service request]

def run (now : ℤ) (requests : List RateLimitRequest) : RateLimiterRun :=
  requests.foldl (serve config publicKeyToAddress) { service := .init now, served := [] }

end RateLimiterRun

end SettlementBus
