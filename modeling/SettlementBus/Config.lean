import SettlementBus.Messages.Operation

namespace SettlementBus

structure Config where
  networkId : ℕ
  addressPrefix : Str
  addressLength : ℕ
  bootstrap : Buffer

/-- The functions of `trac-crypto-api` the program calls. -/
structure TracCryptoApi where
  size : Str → ℕ
  isValid : Str → Bool
  decodeSafe : Str → Buffer
  blake3Safe : Buffer → Buffer
  verify : Buffer → Buffer → Buffer → Bool

structure Env where
  config : Config
  crypto : TracCryptoApi
  safeDecodeApplyOperation : Buffer → Option Operation
  /-- `env.js` lists the length of a network's addresses next to their prefix. -/
  size_addressPrefix : crypto.size config.addressPrefix = config.addressLength

/-- `address.isValid` accepts one string for a public key. -/
def TracCryptoApi.OneAddressPerKey (crypto : TracCryptoApi) : Prop :=
  ∀ s t, crypto.isValid s → crypto.isValid t → crypto.decodeSafe s = crypto.decodeSafe t → s = t

end SettlementBus
