import SettlementBus.Messages.Encoding
import SettlementBus.State.Apply
import SettlementBus.State.Ledger
import SettlementBus.Steps.Event

/-! A network whose keys, hashes and signatures are recorded. -/

namespace SettlementBus

open Lib

/-- What the functions outside the program answered. -/
structure Recording where
  config : Config
  wallets : List (Str × Buffer)
  digests : List (Buffer × Buffer)
  signatures : List (Buffer × Buffer × Buffer)
  operations : List Operation

namespace Recording

variable (r : Recording)

/-- An address is its prefix, a separator, 52 characters of data and 6 of checksum. -/
def crypto : TracCryptoApi where
  size hrp := hrp.length + 59
  isValid s := (r.wallets.lookup s).isSome
  decodeSafe s := (r.wallets.lookup s).getD nullBuffer
  blake3Safe b := (r.digests.lookup b).getD nullBuffer
  verify signature hash key := (signature, hash, key) ∈ r.signatures

def env (h : r.config.addressPrefix.length + 59 = r.config.addressLength) : Env where
  config := r.config
  crypto := r.crypto
  safeDecodeApplyOperation b := r.operations.find? fun op => encodeOperation op = b
  size_addressPrefix := h

theorem mem_of_lookup {α β : Type} [BEq α] [LawfulBEq α] {l : List (α × β)} {a : α} {b : β}
    (h : l.lookup a = some b) : (a, b) ∈ l := by
  obtain ⟨l₁, l₂, rfl, -⟩ := List.lookup_eq_some_iff.mp h
  simp

/-- Wallets with different keys have one address for a key. -/
theorem oneAddressPerKey (h : (r.wallets.map Prod.snd).Nodup) : r.crypto.OneAddressPerKey := by
  intro s t hs ht heq
  obtain ⟨k, hk⟩ := Option.isSome_iff_exists.mp hs
  obtain ⟨k', hk'⟩ := Option.isSome_iff_exists.mp ht
  simp only [crypto, hk, hk', Option.getD_some] at heq
  subst heq
  exact congrArg Prod.fst (List.inj_on_of_nodup_map h (mem_of_lookup hk) (mem_of_lookup hk') rfl)

end Recording

/-- The state after a batch that is known not to throw. -/
def Env.after (env : Env) (nodes : List Node) (w : World) : World := (apply env nodes w).getD w

theorem Env.apply_eq_after {env : Env} {nodes : List Node} {w : World}
    (h : (apply env nodes w).isSome) : apply env nodes w = some (env.after nodes w) := by
  obtain ⟨w', hw'⟩ := Option.isSome_iff_exists.mp h
  rw [Env.after, hw', Option.getD_some]

theorem Reachable.after {env : Env} {nodes : List Node} {w : World} (hw : Reachable env w)
    (h : (SettlementBus.apply env nodes w).isSome) : Reachable env (env.after nodes w) :=
  hw.apply (Env.apply_eq_after h)

namespace Sample

def networkId : ℕ := 918

def bootstrap : Buffer :=
  Bytes.ofNat 32 0xacbc3a4344d3a804101d40e53db1dda82b767646425af73599d4cd6577d69685

def config : Config where
  networkId := networkId
  addressPrefix := "trac".toList
  addressLength := 63
  bootstrap := bootstrap

/-- The hash of the indexers while the bootstrap key is the only one. -/
def txv : Buffer :=
  Bytes.ofNat 32 0xd4fe29ffd563cba4c1726f4f4c8e00f367209b7a3f4e6c20c3108041efe69e4c

def admin : Str := "trac19yw8emqefst7yhay2zh2w0k64z4lc73spxhkd0c5e7vvuh2etcsqs007vx".toList

def adminAddress : Buffer := fromAscii admin

def adminKey : Buffer :=
  Bytes.ofNat 32 0x291c7cec194c17e25fa450aea73edaa8abfc7a3009af66bf14cf98ce5d595e20

def alice : Str := "trac1u4a7300sjhtr3flqqypvsn6fnyqu99fyey8gyl0w4v75w5kh44dsdqqflq".toList

def aliceAddress : Buffer := fromAscii alice

def aliceKey : Buffer :=
  Bytes.ofNat 32 0xe57be8bdf095d638a7e00102c84f499901c29524c90e827deeab3d4752d7ad5b

def bob : Str := "trac1fhjzppqyddvd4yqhmwekffsazvlvdrsqdgl0qdktmpyhyaxkyldqlwmfzj".toList

def bobAddress : Buffer := fromAscii bob

def bobKey : Buffer :=
  Bytes.ofNat 32 0x4de42084046b58da9017dbb364a61d133ec68e006a3ef036cbd8497274d627da

def aliceCore : Buffer :=
  Bytes.ofNat 32 0xc5bd7ca4f0b0c515c9c476ad2569f26ad70e3fc1d0879615fb5df74936e01202

def aliceCore2 : Buffer :=
  Bytes.ofNat 32 0x4767774134de86d252ece2eb760f3f9cbfb4d1191ed05a310c07eab6c706d5cf

def bobCore : Buffer :=
  Bytes.ofNat 32 0x093ce9139116656918ae21067227d215f41aa74f2d194be65566bdcb1a8fcb12

def bobCore2 : Buffer :=
  Bytes.ofNat 32 0x00152f0ab65c5bb3e84f1d276ae37f915922913c9bfff622a4d0147899e4599d

/-- The admin's address with the high bit of its first byte set. -/
def adminAlias : Buffer := (adminAddress.headD 0 ||| 0x80) :: adminAddress.tail

def subnetBootstrap : Buffer :=
  Bytes.ofNat 32 0x5d22762c09a97978cccb1938b884b81762262874c5d00dbfee66064178cd3d31

def tenTokens : Buffer := Bytes.ofNat 16 10000000000000000000

def maxAmount : Buffer := Bytes.ofNat 16 340282366920938463463374607431768211455

def oneToken : Buffer := Bytes.ofNat 16 1000000000000000000

def addAdminBody : CoreAdminOperation Buffer where
  tx := Bytes.ofNat 32 0x2ef3e65ed4db5d8a79de6e103edfb53a0f9270867ebd62841f8d03b443b774b9
  txv := txv
  iw := bootstrap
  in_ := Bytes.ofNat 32 0x438fabb6bbb4c8b3480d4df8d5f37f80a727b5b0a92cab10a8c9bc7124d204e2
  is :=
    Bytes.ofNat 32 0x794b398a23549c35efe5dcfb83db5192b3d6a92450404af5cfd361d913f27fa8 ++
    Bytes.ofNat 32 0x4ec1078d69f7acb4b149dc164dbef23b93a83dece65ad5c20ec4a293cdc1d509

def addAdminOp : Operation where
  type := OperationType.addAdmin.code
  address := .buffer adminAddress
  value := some (.cao addAdminBody.toField)

def disableBody : CoreAdminOperation Buffer where
  tx := Bytes.ofNat 32 0xa90c8617c310f141e53473a48225d3a53a1f75dda285c33d32e4299ec8c2b535
  txv := txv
  iw := bootstrap
  in_ := Bytes.ofNat 32 0x20ef8e4a34dd6f552566225b62ebcc1cc6c1ff399af4299bee218baf6dd4184e
  is :=
    Bytes.ofNat 32 0xc8e5f02bd91779a5e332063cfdcb7543a5a41c88324aa8d38ec64986693a4ba7 ++
    Bytes.ofNat 32 0xb4a4eae940fcd3e50dff37de46b9242ec66a2150f4327a6164b14b01b72d9100

def disableOp : Operation where
  type := OperationType.disableInitialization.code
  address := .buffer adminAddress
  value := some (.cao disableBody.toField)

def fundAliceBody : BalanceInitializationOperation Buffer where
  tx := Bytes.ofNat 32 0xc46775d397bebd13bc03bc279c7aa335e1bfcc15c0e01b72f30a31b67abbc9ca
  txv := txv
  ia := aliceAddress
  am := tenTokens
  in_ := Bytes.ofNat 32 0xc8b489ea9c3ef6bcfb761e2c3eb8d68e5ee29415716553c8106a778bd1754a05
  is :=
    Bytes.ofNat 32 0xbe9cb414f730409e31a969aae97a56addcc039ec60529a73f3f570af7ea91788 ++
    Bytes.ofNat 32 0xbb75802a9741c81f414060d91716cfb8e5d76dd6005a254f79d87014269f1a07

def fundAliceOp : Operation where
  type := OperationType.balanceInitialization.code
  address := .buffer adminAddress
  value := some (.bio fundAliceBody.toField)

def fundBobBody : BalanceInitializationOperation Buffer where
  tx := Bytes.ofNat 32 0x5a79cde27409b536edc1b4fe3e34694976deabce95c54a6ee284d9e20f9ddbe7
  txv := txv
  ia := bobAddress
  am := tenTokens
  in_ := Bytes.ofNat 32 0xb98f2a73f568ba30b8cd3692ee43e3425959617c08fa0041f7c3f90678c43b16
  is :=
    Bytes.ofNat 32 0x75298ab5202d9041a8643cee854067aadcb6d8b69d32ea2c26b4b62abfb64586 ++
    Bytes.ofNat 32 0x9a5861120218eef75768d4cc96b45641e5c32616ea570d1188e961830d063000

def fundBobOp : Operation where
  type := OperationType.balanceInitialization.code
  address := .buffer adminAddress
  value := some (.bio fundBobBody.toField)

def fundAdminBody : BalanceInitializationOperation Buffer where
  tx := Bytes.ofNat 32 0x5ee46124dda5f8721c96b10ed5851acca2edf1a9ee3bd38a052ca612bed12301
  txv := txv
  ia := adminAddress
  am := maxAmount
  in_ := Bytes.ofNat 32 0x55f6aee571c51765c5a31610c935ca7e23a2db6d8512bf17da50ec3abc2bbe0e
  is :=
    Bytes.ofNat 32 0xa8164960607875b1516b63090c2216ce8ee6976fb5826832fc5e994a600ba2c4 ++
    Bytes.ofNat 32 0x6810a02c58a7235096989378bcdda30d23e117a0124bf156bcddeb59c9b16309

def fundAdminOp : Operation where
  type := OperationType.balanceInitialization.code
  address := .buffer adminAddress
  value := some (.bio fundAdminBody.toField)

def whitelistAliceBody : AdminControlOperation Buffer where
  tx := Bytes.ofNat 32 0xc5189e0c23f112590b18a44e9fcea807b0053c25523266d89237a6179df825d5
  txv := txv
  ia := aliceAddress
  in_ := Bytes.ofNat 32 0x5ade4deb46edad40e6f1de06fb0b9ce0ce025fa6340df9d57dec48dac057cea1
  is :=
    Bytes.ofNat 32 0x845725d336d434a8744ba061e6ba15d0e4155ad582f5073a81944df4f654a5eb ++
    Bytes.ofNat 32 0xef5b19661c38a8de5965e49115e9e26eb7acbcf0c1365f3accd029fca73f0e09

def whitelistAliceOp : Operation where
  type := OperationType.appendWhitelist.code
  address := .buffer adminAddress
  value := some (.aco whitelistAliceBody.toField)

def whitelistBobBody : AdminControlOperation Buffer where
  tx := Bytes.ofNat 32 0x572bdea269aa126c53ad9f73f30955da83377163fe13821072be9432d8da17c5
  txv := txv
  ia := bobAddress
  in_ := Bytes.ofNat 32 0x485b9bad090758e99f7888fd593477cd508ff4a67e63887e3419dc1a5c2443bf
  is :=
    Bytes.ofNat 32 0xf3b30dfea36a358f995ecc826b4adea67bfa1218907be815cef6713d6438ac6a ++
    Bytes.ofNat 32 0x8b4be56852fe8504e7154b884eaf7e9af7f7aeb3f10e7c5b14e9e18fedb14f0f

def whitelistBobOp : Operation where
  type := OperationType.appendWhitelist.code
  address := .buffer adminAddress
  value := some (.aco whitelistBobBody.toField)

def banAliceBody : AdminControlOperation Buffer where
  tx := Bytes.ofNat 32 0x2443e62a0a98829bc3c409f96ccffe2a457a2366345d2e872fa58a56d70bbc39
  txv := txv
  ia := aliceAddress
  in_ := Bytes.ofNat 32 0xf91a460e2933f68b2ce5a4db801d063836f2910b5fca8afe61478aeda4c84330
  is :=
    Bytes.ofNat 32 0xe96e1ccf1400c9770f066fb081f8ee6496b69b564e6873625333e629ee586c24 ++
    Bytes.ofNat 32 0x6014d05d08b7c0b02a0a91b55394905091cdb5685f597a9ff701f7bd2f91f907

def banAliceOp : Operation where
  type := OperationType.banValidator.code
  address := .buffer adminAddress
  value := some (.aco banAliceBody.toField)

def demoteAdminBody : AdminControlOperation Buffer where
  tx := Bytes.ofNat 32 0xd9c8b0be700b2a8c6a957b2928ef06402e50658bc2a3d9669b28ed98a09cd93f
  txv := txv
  ia := adminAddress
  in_ := Bytes.ofNat 32 0x3e4bd2c839bf5a83039bdfa4f9074e48abfc5f75de770302fbd5d4a68e9ab907
  is :=
    Bytes.ofNat 32 0x549b4bbb50b1738ff23e8bebc647fb0751d9b399e15e97fc9920111e4f2840c2 ++
    Bytes.ofNat 32 0x73cf70172f4da3b2efc4a0de9aeb0c635687f4ac3e4d3e8e2336c8f29e4fae09

def demoteAdminOp : Operation where
  type := OperationType.removeIndexer.code
  address := .buffer adminAddress
  value := some (.aco demoteAdminBody.toField)

def addAliceBody : RoleAccessOperation Buffer where
  tx := Bytes.ofNat 32 0xfe56a26961228c564e88a3d6d36cfda2aac7b37f578ae56464816dd9f8c22318
  txv := txv
  iw := aliceCore
  in_ := Bytes.ofNat 32 0xd89886140ed49da13efa37e1b7368f44e6eeca45b36844614016381a30983641
  is :=
    Bytes.ofNat 32 0xb33e4c6d45e6a5c480a0280999df440dd173de4da1f568b3d7a91d0d33abc011 ++
    Bytes.ofNat 32 0xa222a585ea758a88474975652c4f45438a81e0db23de8ebc97b8851fc2152f00

def addAliceCompletion : Completion Buffer where
  va := adminAddress
  vn := Bytes.ofNat 32 0x2b0f976da94c216edbbfe04542367efbe5e047037d68ac05cd8929168f8a1631
  vs :=
    Bytes.ofNat 32 0x82e968e2af9a7b1aa8971293fd358f289cbd5384ffb6b8a9c4b2aa867eb3b24e ++
    Bytes.ofNat 32 0x8135bc8df3da46516d0ac3419b9b20a7c5c079be711dd5791379b5b0b862600f

def addAliceOp : Operation where
  type := OperationType.addWriter.code
  address := .buffer aliceAddress
  value := some (.rao addAliceBody.toField addAliceCompletion.toField)

def addBobBody : RoleAccessOperation Buffer where
  tx := Bytes.ofNat 32 0x223029138607b985a734de8d5abedfb274fc3c6ebce2efa367946d3a77ac61f2
  txv := txv
  iw := bobCore
  in_ := Bytes.ofNat 32 0xfc9f7ac0087abfa8b72c5ffec0623f81d1424cfcdabece24a2a753b3495e4e2d
  is :=
    Bytes.ofNat 32 0x9095f1b72c2eaa19065a135a8f9e20db24b5d48189d87097294bc27877cf5956 ++
    Bytes.ofNat 32 0x058fb9e0038d03eed21a559ef15c0e74f7f744f9779639a31b92199a61af7b08

def addBobCompletion : Completion Buffer where
  va := aliceAddress
  vn := Bytes.ofNat 32 0x80d7e3a830ed53c3ed9f78e1b2aec0828105e21bc0bc6f28fd5f5350e0bd95f1
  vs :=
    Bytes.ofNat 32 0x9624ab33e8a0cddda609d10b1f46d5d37d960370716f990ed1e740fa302285ea ++
    Bytes.ofNat 32 0x9dee4b57a1b765c519d41683d0a4fe7969b3c943dc6bda9930a5733b1430ba05

def addBobOp : Operation where
  type := OperationType.addWriter.code
  address := .buffer bobAddress
  value := some (.rao addBobBody.toField addBobCompletion.toField)

def addBobAgainBody : RoleAccessOperation Buffer where
  tx := Bytes.ofNat 32 0xde3d3578bac8e773a73da7d86641b1fd4011f0218d128e165ab5260c890defae
  txv := txv
  iw := bobCore2
  in_ := Bytes.ofNat 32 0x07e2510fb3ed961702efe594ffd52d16ab32226109e769ce0fab44022c6197b8
  is :=
    Bytes.ofNat 32 0x4cf1d9609c8ff253db17855268c9a7e779b26b1db54d8faedd35926731f91126 ++
    Bytes.ofNat 32 0xabced88ad377e90a4a7e2f213deedcf36d23dbc88ba9423102e711999bdc3003

def addBobAgainCompletion : Completion Buffer where
  va := aliceAddress
  vn := Bytes.ofNat 32 0xdc63a7e715448ff125bd8c25e705b6b20a63424a79f2e230d592f015f157f9fd
  vs :=
    Bytes.ofNat 32 0xde5acba72f32b55ef1a46998b0caf85027bc6068d4ede7049d7274fb9006b004 ++
    Bytes.ofNat 32 0xc12da434a116d7118a34662d89045b5db142ffa7940f50d031543a4d71361b06

def addBobAgainOp : Operation where
  type := OperationType.addWriter.code
  address := .buffer bobAddress
  value := some (.rao addBobAgainBody.toField addBobAgainCompletion.toField)

def recoverAdminBody : RoleAccessOperation Buffer where
  tx := Bytes.ofNat 32 0x4f4e3f634579ed1bc8dbb487a330aae3747d8011a47cba9bfe004d29825704b8
  txv := txv
  iw := aliceCore
  in_ := Bytes.ofNat 32 0xd78fcec66d3a210781564cd75462178ddc18357ee98efe567ccf4653c30d999d
  is :=
    Bytes.ofNat 32 0x17b8d8e811e755e2d588a4fdfb247c7cce162c36164b2dcfd4a3b9b39ef3c090 ++
    Bytes.ofNat 32 0x1e63e4073b813f3983f1709f710dee30a5e8c26ca3fd04444b1fb8937196110e

def recoverAdminCompletion : Completion Buffer where
  va := aliceAddress
  vn := Bytes.ofNat 32 0xce7361860be3b2ddb62bbd8a0683de55a0d11f3e93a713be09e59542c4103913
  vs :=
    Bytes.ofNat 32 0xa1d84dc8b526281a91f898d59710c46ce6563e96ed414426f01a1dd60e3c6d63 ++
    Bytes.ofNat 32 0x7fb665d5a7cc6348e4964ad0c45311ae6501b6d4a6738b711b3de187048f9f0f

def recoverAdminOp : Operation where
  type := OperationType.adminRecovery.code
  address := .buffer adminAddress
  value := some (.rao recoverAdminBody.toField recoverAdminCompletion.toField)

def payAliasBody : TransferOperation Buffer where
  tx := Bytes.ofNat 32 0xeddc5df111da454e117848a348e5535b6d6e9dd7a8ed59142962ac92db1f526e
  txv := txv
  to_ := aliceAddress
  am := oneToken
  in_ := Bytes.ofNat 32 0x9a27d1a06c25ca760d9263c42dea1ccd61235880b9cc4ea8f17141b680631075
  is :=
    Bytes.ofNat 32 0x5619b3e0e8c34094c6e843ca63ee22cc78df59144b5be4b7f56ca8b9d65b807f ++
    Bytes.ofNat 32 0xc07feb99ff3ee56b5c7d4eb01bf3a5167053c5a2e87e51f61f5ab879410a5f06

def payAliasCompletion : Completion Buffer where
  va := adminAlias
  vn := Bytes.ofNat 32 0x6ea3891e538ec77fa7287752c8537bb459efdf2ed1215bb0ffe7d131c641e856
  vs :=
    Bytes.ofNat 32 0xe56b2b896dbad41fe1729be7923b6e59def58264b360078b6ae8b16b414533de ++
    Bytes.ofNat 32 0x6163398b55cf007806d97cec493cced6e57cf32229f295e8101e924a9cd21e0a

def payAliasOp : Operation where
  type := OperationType.transfer.code
  address := .buffer adminAddress
  value := some (.tro payAliasBody.toField payAliasCompletion.toField)

def payAdminBody : TransferOperation Buffer where
  tx := Bytes.ofNat 32 0x548d7ea996ce9290e7794440d2b38fdaeee1c54761afe18ba01dbbf3a02eb035
  txv := txv
  to_ := adminAddress
  am := oneToken
  in_ := Bytes.ofNat 32 0x7ae87fd7b841d301230fcb684ddb946856ca1955056ec9125fc646a1d1af3951
  is :=
    Bytes.ofNat 32 0x45bbbb3100fefb51d9f73b510ffca100a5986def752126586b6bb93417aceac6 ++
    Bytes.ofNat 32 0xff7ed3c2f320c150ff313d764a88f28674eba3b66e8c0b07600dc25b976a8206

def payAdminCompletion : Completion Buffer where
  va := adminAddress
  vn := Bytes.ofNat 32 0xcd626f6aa99505e49b380dcf78a94761e56ac4a85b5af28c53e14a4b45fb1456
  vs :=
    Bytes.ofNat 32 0xa10c984afc5b39c9f4d36396f890518bd8f8d7a571da9b98bee32e046df0453a ++
    Bytes.ofNat 32 0x9c7f33260bd2e222ca64053d294af7c867feac5491e3c969357c0a1f7153420b

def payAdminOp : Operation where
  type := OperationType.transfer.code
  address := .buffer aliceAddress
  value := some (.tro payAdminBody.toField payAdminCompletion.toField)

/-- What Bob makes of the transfer of Alice. -/
def copyPayBody : TransferOperation Buffer :=
  { payAdminBody with
    is :=
      Bytes.ofNat 32 0xc5b3ef421b3bfbc24a4da822c8d3d530e82c30e1e4d530dd55fab58e91516a0e ++
      Bytes.ofNat 32 0xe9c29e40f0d620b739e82e057defe9519354378cbf7039dea1f49d0b3f538c02 }

def copyPayCompletion : Completion Buffer where
  va := adminAddress
  vn := Bytes.ofNat 32 0x7cb65f5f4e2efd281395bf2b7da92a18e661589d810b4e2c045bafa1a5764c91
  vs :=
    Bytes.ofNat 32 0x21d76562d37e26cccd01d7fef43942db5ce605704857990babb424db79431e8a ++
    Bytes.ofNat 32 0x066c0d93fb27e08cd8c1947803db1b72a44f5cea4d7e42317488ea38212a3909

def copyPayOp : Operation where
  type := OperationType.transfer.code
  address := .buffer bobAddress
  value := some (.tro copyPayBody.toField copyPayCompletion.toField)

def payBobBody : TransferOperation Buffer where
  tx := Bytes.ofNat 32 0xd0d2aae0801b9a38a460a75f33825c7aa0bc0b65ae850128e103fde01bea1e0e
  txv := txv
  to_ := bobAddress
  am := oneToken
  in_ := Bytes.ofNat 32 0xfcbb176b15a8f1634090d8c41a0832a4af9afc0a888a9d4761a6d47ffb4d2f58
  is :=
    Bytes.ofNat 32 0xd25382e02486a243dda03614c21a3ede9c3728c3dfd94999fdc5ae17a1e9a84e ++
    Bytes.ofNat 32 0x7072d9b7593490731521fce70a32d6cf2331f81286fdc36713142255119f3301

def payBobCompletion : Completion Buffer where
  va := aliceAddress
  vn := Bytes.ofNat 32 0xd3b6cbebf2e82c2d93bd23dd8d8197f87765acfbe6b877bef75ef491520f9f8b
  vs :=
    Bytes.ofNat 32 0xf74f37e2c3761bbe11f7f67ad6468defe12dddaae0fdb6047c25c35c069e1f22 ++
    Bytes.ofNat 32 0x4ad7d0ea96296560c47de04ecf635ac7b7526a2c52095f31c633375703477d01

def payBobOp : Operation where
  type := OperationType.transfer.code
  address := .buffer adminAddress
  value := some (.tro payBobBody.toField payBobCompletion.toField)

def deployBody : BootstrapDeploymentOperation Buffer where
  tx := Bytes.ofNat 32 0xd7bc72b22119f8712d9a5b216ad346af01b77a2db082b5dc7c2abc15c9ba16cb
  txv := txv
  bs := subnetBootstrap
  ic := Bytes.ofNat 32 0x69e36568cd8b4659389b9fcfbe1167547f6421e78168bfb439dada2ffddb0146
  in_ := Bytes.ofNat 32 0x85f1eec28cb23b5db6b8a1be6354d4e7e44099b8f242badadbee3154e11ac229
  is :=
    Bytes.ofNat 32 0x50ca3120e5901840629a2896175df47f495e1643f7eeee5edc723e2d61881caf ++
    Bytes.ofNat 32 0xaa5856a6efb7e0de5521fb2c576d9269c1d4b7f26ac509daff07401c54aecd0d

def deployCompletion : Completion Buffer where
  va := adminAddress
  vn := Bytes.ofNat 32 0xc2498b2d61da35a01fa819104d5889ef795fd89ee86af95136f4eaf246982f40
  vs :=
    Bytes.ofNat 32 0x1dec3c749e8af25902e183f0f05f7738e21a88d32932c91e2b0d8a77819a0f0a ++
    Bytes.ofNat 32 0x4754ad7efa1eedf400ef2de32cd9dceb87dff865c99a0efb823ed6cfe941e608

def deployOp : Operation where
  type := OperationType.bootstrapDeployment.code
  address := .buffer aliceAddress
  value := some (.bdo deployBody.toField deployCompletion.toField)

def callBody : TxOperation Buffer where
  tx := Bytes.ofNat 32 0x065ac5929aedaf8c9632db84b93d85122d172e16a9f53e839359dd543f313787
  txv := txv
  iw := Bytes.ofNat 32 0xc943e18a2d5a386b6bb99fc8a40d3dbe9290776b5b3de4bb6fb3bedd98d8cc75
  ch := Bytes.ofNat 32 0xed7002b439e9ac845f22357d822bac1444730fbdb6016d3ec9432297b9ec9f73
  bs := subnetBootstrap
  mbs := bootstrap
  in_ := Bytes.ofNat 32 0x01f6ea97032bdbcc5ad24cc3803dc3231bc9a70584681b5ac51121eb73297c4c
  is :=
    Bytes.ofNat 32 0xf955b61a88426f60ca853a9373e93df14db043e14341551252b81ea9e08b7350 ++
    Bytes.ofNat 32 0xeff5c780b698863e52fe4cdc0d6ba185f25857399e6e56b301c714e1da9b590b

def callCompletion : Completion Buffer where
  va := adminAddress
  vn := Bytes.ofNat 32 0xa1ee0a8982c7a17a1c97a7c496b61f494e3bb6315bcc60998a2c44714707e4a9
  vs :=
    Bytes.ofNat 32 0x717101ab320344a0056f2cc91b51f1258208f76b23ab21cc1b45524676681e53 ++
    Bytes.ofNat 32 0x53932c73646957550015ded028de67273893481385f88b592ff61724a9d5850f

def callOp : Operation where
  type := OperationType.tx.code
  address := .buffer aliceAddress
  value := some (.txo callBody.toField callCompletion.toField)

/-! ### The recording -/

def recording : Recording where
  config := config
  wallets := [(admin, adminKey), (alice, aliceKey), (bob, bobKey)]
  digests := [
    (bootstrap, txv),
    (createMessage [.number networkId, .buffer txv, .buffer addAdminBody.iw, .buffer
      addAdminBody.in_, .number OperationType.addAdmin.code],
      addAdminBody.tx),
    (createMessage [.number networkId, .buffer txv, .buffer disableBody.iw, .buffer
      disableBody.in_, .number OperationType.disableInitialization.code],
      disableBody.tx),
    (createMessage [.number networkId, .buffer txv, .buffer fundAliceBody.ia, .buffer
      fundAliceBody.am, .buffer fundAliceBody.in_, .number
      OperationType.balanceInitialization.code],
      fundAliceBody.tx),
    (createMessage [.number networkId, .buffer txv, .buffer fundBobBody.ia, .buffer
      fundBobBody.am, .buffer fundBobBody.in_, .number
      OperationType.balanceInitialization.code],
      fundBobBody.tx),
    (createMessage [.number networkId, .buffer txv, .buffer fundAdminBody.ia, .buffer
      fundAdminBody.am, .buffer fundAdminBody.in_, .number
      OperationType.balanceInitialization.code],
      fundAdminBody.tx),
    (createMessage [.number networkId, .buffer txv, .buffer whitelistAliceBody.ia, .buffer
      whitelistAliceBody.in_, .number OperationType.appendWhitelist.code],
      whitelistAliceBody.tx),
    (createMessage [.number networkId, .buffer txv, .buffer whitelistBobBody.ia, .buffer
      whitelistBobBody.in_, .number OperationType.appendWhitelist.code],
      whitelistBobBody.tx),
    (createMessage [.number networkId, .buffer txv, .buffer banAliceBody.ia, .buffer
      banAliceBody.in_, .number OperationType.banValidator.code],
      banAliceBody.tx),
    (createMessage [.number networkId, .buffer txv, .buffer demoteAdminBody.ia, .buffer
      demoteAdminBody.in_, .number OperationType.removeIndexer.code],
      demoteAdminBody.tx),
    (createMessage [.number networkId, .buffer txv, .buffer addAliceBody.iw, .buffer
      addAliceBody.in_, .number OperationType.addWriter.code],
      addAliceBody.tx),
    (createMessage [.number networkId, .buffer addAliceBody.tx, .buffer
      addAliceCompletion.vn, .number OperationType.addWriter.code],
      Bytes.ofNat 32 0x73e326def4fd591cead387778bea8da446ed18e37d2bdcbaa0868c88a4ce1feb),
    (createMessage [.number networkId, .buffer txv, .buffer addBobBody.iw, .buffer
      addBobBody.in_, .number OperationType.addWriter.code],
      addBobBody.tx),
    (createMessage [.number networkId, .buffer addBobBody.tx, .buffer addBobCompletion.vn,
      .number OperationType.addWriter.code],
      Bytes.ofNat 32 0x45afa5a440d61110ecea62eed186d02a601b90a5c98c6336e50484acdaaa862e),
    (createMessage [.number networkId, .buffer txv, .buffer addBobAgainBody.iw, .buffer
      addBobAgainBody.in_, .number OperationType.addWriter.code],
      addBobAgainBody.tx),
    (createMessage [.number networkId, .buffer addBobAgainBody.tx, .buffer
      addBobAgainCompletion.vn, .number OperationType.addWriter.code],
      Bytes.ofNat 32 0xa29ce812186626811c9f361ae99c1e56acc1151a39ace548fe2adc9e6c2433e3),
    (createMessage [.number networkId, .buffer txv, .buffer recoverAdminBody.iw, .buffer
      recoverAdminBody.in_, .number OperationType.adminRecovery.code],
      recoverAdminBody.tx),
    (createMessage [.number networkId, .buffer recoverAdminBody.tx, .buffer
      recoverAdminCompletion.vn, .number OperationType.adminRecovery.code],
      Bytes.ofNat 32 0xb64e3a44fca8da03ca07f49dedede37ebb6c6b5ee175bbcdc3ea5ff211e6a7f8),
    (createMessage [.number networkId, .buffer txv, .buffer payAliasBody.to_, .buffer
      payAliasBody.am, .buffer payAliasBody.in_, .number OperationType.transfer.code],
      payAliasBody.tx),
    (createMessage [.number networkId, .buffer payAliasBody.tx, .buffer
      payAliasCompletion.vn, .number OperationType.transfer.code],
      Bytes.ofNat 32 0x74a8c6fee200a5ef30eb616e0e2bd001b6281817389b5e5c9f9c5c5cd78e93b9),
    (createMessage [.number networkId, .buffer txv, .buffer payAdminBody.to_, .buffer
      payAdminBody.am, .buffer payAdminBody.in_, .number OperationType.transfer.code],
      payAdminBody.tx),
    (createMessage [.number networkId, .buffer payAdminBody.tx, .buffer
      payAdminCompletion.vn, .number OperationType.transfer.code],
      Bytes.ofNat 32 0x4535c09ef17b47e3c341c614526dc212ec7093df906af662a73c2812677f6610),
    (createMessage [.number networkId, .buffer copyPayBody.tx, .buffer copyPayCompletion.vn,
      .number OperationType.transfer.code],
      Bytes.ofNat 32 0xc8898040142bf45bc150a7413323064400afc04469e103e84826f4fda6d706d1),
    (createMessage [.number networkId, .buffer txv, .buffer payBobBody.to_, .buffer
      payBobBody.am, .buffer payBobBody.in_, .number OperationType.transfer.code],
      payBobBody.tx),
    (createMessage [.number networkId, .buffer payBobBody.tx, .buffer payBobCompletion.vn,
      .number OperationType.transfer.code],
      Bytes.ofNat 32 0x2ca8623b26b75a65d378777eee445f453c65bd4398261d894d4b2e2adbdceb64),
    (createMessage [.number networkId, .buffer txv, .buffer deployBody.bs, .buffer
      deployBody.ic, .buffer deployBody.in_, .number OperationType.bootstrapDeployment.code],
      deployBody.tx),
    (createMessage [.number networkId, .buffer deployBody.tx, .buffer deployCompletion.vn,
      .number OperationType.bootstrapDeployment.code],
      Bytes.ofNat 32 0xa206fa0f767911c0e8cfc4d47ed96f755394ec23e5b7c7bdae8d58bcc6f7ddfe),
    (createMessage [.number networkId, .buffer txv, .buffer callBody.iw, .buffer callBody.ch,
      .buffer callBody.bs, .buffer callBody.mbs, .buffer callBody.in_, .number
      OperationType.tx.code],
      callBody.tx),
    (createMessage [.number networkId, .buffer callBody.tx, .buffer callCompletion.vn,
      .number OperationType.tx.code],
      Bytes.ofNat 32 0xdce47217350fa8c2a1142a2c72f52309155348860f9dc51c6e3ae2ac0fbb6f24)]
  signatures := [
    (addAdminBody.is, addAdminBody.tx, adminKey),
    (disableBody.is, disableBody.tx, adminKey),
    (fundAliceBody.is, fundAliceBody.tx, adminKey),
    (fundBobBody.is, fundBobBody.tx, adminKey),
    (fundAdminBody.is, fundAdminBody.tx, adminKey),
    (whitelistAliceBody.is, whitelistAliceBody.tx, adminKey),
    (whitelistBobBody.is, whitelistBobBody.tx, adminKey),
    (banAliceBody.is, banAliceBody.tx, adminKey),
    (demoteAdminBody.is, demoteAdminBody.tx, adminKey),
    (addAliceBody.is, addAliceBody.tx, aliceKey),
    (addAliceCompletion.vs,
      Bytes.ofNat 32 0x73e326def4fd591cead387778bea8da446ed18e37d2bdcbaa0868c88a4ce1feb, adminKey),
    (addBobBody.is, addBobBody.tx, bobKey),
    (addBobCompletion.vs,
      Bytes.ofNat 32 0x45afa5a440d61110ecea62eed186d02a601b90a5c98c6336e50484acdaaa862e, aliceKey),
    (addBobAgainBody.is, addBobAgainBody.tx, bobKey),
    (addBobAgainCompletion.vs,
      Bytes.ofNat 32 0xa29ce812186626811c9f361ae99c1e56acc1151a39ace548fe2adc9e6c2433e3, aliceKey),
    (recoverAdminBody.is, recoverAdminBody.tx, adminKey),
    (recoverAdminCompletion.vs,
      Bytes.ofNat 32 0xb64e3a44fca8da03ca07f49dedede37ebb6c6b5ee175bbcdc3ea5ff211e6a7f8, aliceKey),
    (payAliasBody.is, payAliasBody.tx, adminKey),
    (payAliasCompletion.vs,
      Bytes.ofNat 32 0x74a8c6fee200a5ef30eb616e0e2bd001b6281817389b5e5c9f9c5c5cd78e93b9, adminKey),
    (payAdminBody.is, payAdminBody.tx, aliceKey),
    (payAdminCompletion.vs,
      Bytes.ofNat 32 0x4535c09ef17b47e3c341c614526dc212ec7093df906af662a73c2812677f6610, adminKey),
    (copyPayBody.is, copyPayBody.tx, bobKey),
    (copyPayCompletion.vs,
      Bytes.ofNat 32 0xc8898040142bf45bc150a7413323064400afc04469e103e84826f4fda6d706d1, adminKey),
    (payBobBody.is, payBobBody.tx, adminKey),
    (payBobCompletion.vs,
      Bytes.ofNat 32 0x2ca8623b26b75a65d378777eee445f453c65bd4398261d894d4b2e2adbdceb64, aliceKey),
    (deployBody.is, deployBody.tx, aliceKey),
    (deployCompletion.vs,
      Bytes.ofNat 32 0xa206fa0f767911c0e8cfc4d47ed96f755394ec23e5b7c7bdae8d58bcc6f7ddfe, adminKey),
    (callBody.is, callBody.tx, aliceKey),
    (callCompletion.vs,
      Bytes.ofNat 32 0xdce47217350fa8c2a1142a2c72f52309155348860f9dc51c6e3ae2ac0fbb6f24, adminKey)]
  operations := [
    addAdminOp,
    disableOp,
    fundAliceOp,
    fundBobOp,
    fundAdminOp,
    whitelistAliceOp,
    whitelistBobOp,
    banAliceOp,
    demoteAdminOp,
    addAliceOp,
    addBobOp,
    addBobAgainOp,
    recoverAdminOp,
    payAliasOp,
    payAdminOp,
    copyPayOp,
    payBobOp,
    deployOp,
    callOp]

def network : Env := recording.env rfl

theorem oneAddressPerKey : network.crypto.OneAddressPerKey :=
  recording.oneAddressPerKey (by decide +kernel)

/-- A block of an author's core that holds the operation. -/
def block (key : Buffer) (op : Operation) : Node := { key, value := encodeOperation op }

/-! ### Its first states -/

/-- The admin exists. -/
def founded : World := network.after [block bootstrap addAdminOp] (genesis network)

/-- Alice has ten tokens. -/
def funded : World := network.after [block bootstrap fundAliceOp] founded

/-- Alice is a writer. -/
def joined : World :=
  network.after [block bootstrap whitelistAliceOp, block bootstrap addAliceOp] funded

/-- Balances are no longer initialized. -/
def disabled : World := network.after [block bootstrap disableOp] funded

theorem batches_applied :
    (apply network [block bootstrap addAdminOp] (genesis network)).isSome ∧
    (apply network [block bootstrap fundAliceOp] founded).isSome ∧
    (apply network [block bootstrap whitelistAliceOp, block bootstrap addAliceOp] funded).isSome ∧
    (apply network [block bootstrap disableOp] funded).isSome := by
  decide +kernel

theorem apply_founded :
    apply network [block bootstrap addAdminOp] (genesis network) = some founded :=
  Env.apply_eq_after batches_applied.1

theorem reachable_founded : Reachable network founded := .after .genesis batches_applied.1

theorem reachable_funded : Reachable network funded :=
  reachable_founded.after batches_applied.2.1

theorem reachable_joined : Reachable network joined :=
  reachable_funded.after batches_applied.2.2.1

theorem reachable_disabled : Reachable network disabled :=
  reachable_funded.after batches_applied.2.2.2

/-! ### A run with a penalty and a ban -/

def paidNodes : List Node :=
  [block bootstrap whitelistAliceOp, block bootstrap payAdminOp, block bootstrap addAliceOp]

/-- Alice is a writer, and the admin has received a token from her. -/
def paid : World := network.after paidNodes funded

/-- A block of Alice's core that holds no operation. -/
def late : Node := { key := aliceCore, value := [0xff] }

def penalizedNodes : List Node := [block aliceCore payBobOp, late]

/-- The admin has paid Bob, and Alice is no longer a writer. -/
def penalized : World := network.after penalizedNodes paid

/-- The admin has banned Alice. -/
def expelled : World := network.after [block bootstrap banAliceOp] penalized

theorem expelled_applied :
    (apply network paidNodes funded).isSome ∧ (apply network penalizedNodes paid).isSome ∧
    (apply network [block bootstrap banAliceOp] penalized).isSome := by
  decide +kernel

theorem reachable_paid : Reachable network paid := reachable_funded.after expelled_applied.1

theorem apply_penalized : apply network penalizedNodes paid = some penalized :=
  Env.apply_eq_after expelled_applied.2.1

def expulsion : List Event :=
  events network [block bootstrap addAdminOp] (genesis network) ++
    events network [block bootstrap fundAliceOp] founded ++ events network paidNodes funded ++
    events network penalizedNodes paid ++ events network [block bootstrap banAliceOp] penalized

theorem run_expelled : Run network (genesis network) expulsion expelled :=
  .apply (.apply (.apply (.apply (.single apply_founded)
    (Env.apply_eq_after batches_applied.2.1)) (Env.apply_eq_after expelled_applied.1))
    apply_penalized) (Env.apply_eq_after expelled_applied.2.2)

end Sample

end SettlementBus
