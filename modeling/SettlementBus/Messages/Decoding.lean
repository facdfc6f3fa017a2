import SettlementBus.Lib.Wire
import SettlementBus.Messages.Encoding
import SettlementBus.Messages.Json

/-! How `applyOperations.cjs` measures, writes and reads an operation. -/

namespace SettlementBus

open Lib.Wire

/-! ### Lengths -/

/-- `varint.encodingLength` -/
def varintLength (n : ℕ) : ℕ :=
  if n < 2 ^ 7 then 1
  else if n < 2 ^ 14 then 2
  else if n < 2 ^ 21 then 3
  else if n < 2 ^ 28 then 4
  else if n < 2 ^ 35 then 5
  else if n < 2 ^ 42 then 6
  else if n < 2 ^ 49 then 7
  else if n < 2 ^ 56 then 8
  else if n < 2 ^ 63 then 9
  else 10

/-- `encodings.bytes.encodingLength` -/
def bytesLength (b : Buffer) : ℕ := varintLength b.length + b.length

def fieldLength : Field → ℕ
  | .buffer b => 1 + bytesLength b
  | _ => 0

/-- The `encodingLength` of a member of the `oneof`. -/
def fieldsLength (fields : List Field) : ℕ := (fields.map fieldLength).sum

/-! ### The members of the `oneof` -/

def CoreAdminOperation.fields (o : CoreAdminOperation Field) : List Field :=
  [o.tx, o.txv, o.iw, o.in_, o.is]

def AdminControlOperation.fields (o : AdminControlOperation Field) : List Field :=
  [o.tx, o.txv, o.ia, o.in_, o.is]

def BalanceInitializationOperation.fields (o : BalanceInitializationOperation Field) :
    List Field :=
  [o.tx, o.txv, o.ia, o.am, o.in_, o.is]

def TransferOperation.fields (o : TransferOperation Field) : List Field :=
  [o.tx, o.txv, o.to_, o.am, o.in_, o.is]

def RoleAccessOperation.fields (o : RoleAccessOperation Field) : List Field :=
  [o.tx, o.txv, o.iw, o.in_, o.is]

def BootstrapDeploymentOperation.fields (o : BootstrapDeploymentOperation Field) : List Field :=
  [o.tx, o.txv, o.bs, o.ic, o.in_, o.is]

def TxOperation.fields (o : TxOperation Field) : List Field :=
  [o.tx, o.txv, o.iw, o.ch, o.bs, o.mbs, o.in_, o.is]

/-- The number of a member and its fields, in the order of their numbers. -/
def Body.layout : Body → ℕ × List Field
  | .cao o => (3, o.fields)
  | .aco o => (4, o.fields)
  | .bio o => (5, o.fields)
  | .tro o c => (6, o.fields ++ c.fields)
  | .rao o c => (7, o.fields ++ c.fields)
  | .bdo o c => (8, o.fields ++ c.fields)
  | .txo o c => (9, o.fields ++ c.fields)

/-- `Operation.encodingLength` -/
def Body.encodingLength (body : Body) : ℕ :=
  varintLength (fieldsLength body.layout.2) + (1 + fieldsLength body.layout.2)

def Operation.encodingLength (op : Operation) : ℕ :=
  1 + varintLength op.type + fieldLength op.address + op.value.elim 0 Body.encodingLength

/-! ### Writing into a buffer -/

def writeField (number : ℕ) : Field → Buffer × ℕ → Buffer × ℕ
  | .buffer b, c =>
    write b (write (varint 5 b.length) (write [UInt8.ofNat (8 * number + 2)] c))
  | _, c => c

def writeFields (fields : List Field) (c : Buffer × ℕ) : Buffer × ℕ :=
  (fields.zipIdx 1).foldl (fun c f => writeField f.2 f.1 c) c

/-- The length in front is the one that `encodingLength` computes. -/
def Body.encodeAt (body : Body) (c : Buffer × ℕ) : Buffer × ℕ :=
  writeFields body.layout.2
    (write (varint 5 (fieldsLength body.layout.2)) (write [UInt8.ofNat (8 * body.layout.1 + 2)] c))

def Operation.encodeAt (op : Operation) (c : Buffer × ℕ) : Buffer × ℕ :=
  let c := write (varint 5 op.type) (write [8] c)
  let c := writeField 2 op.address c
  op.value.elim c fun body => body.encodeAt c

/-- `Operation.encode`. The buffer is what `allocUnsafe` returns. -/
def Operation.encodeInto (op : Operation) (buf : Buffer) : Buffer := (op.encodeAt (buf, 0)).1

/-! ### Reading -/

/-- The functions of `protocol-buffers-encodings` that read, with what they return and the bytes
that took. -/
structure Encodings where
  varint : Buffer → ℕ → Option (ℕ × ℕ)
  enum : Buffer → ℕ → Option (ℤ × ℕ)
  bytes : Buffer → ℕ → Option (Buffer × ℕ)
  skip : ℕ → Buffer → ℕ → Option ℕ
  varint_pos : ∀ {buf offset d}, varint buf offset = some d → 0 < d.2
  le_skip : ∀ {wire buf offset offset'}, skip wire buf offset = some offset' → offset ≤ offset'

variable (E : Encodings) (buf : Buffer)

/-- `prefix >> 3` of a 32 bit number. A negative one is no tag that any message has. -/
def tagOf (header : ℕ) : ℕ := header % 2 ^ 32 / 8

/-- One turn of the loop of a message with `count` fields that all hold bytes. -/
def fieldItem (count : ℕ) (fields : List Field) (offset : ℕ) : Option (List Field × ℕ) := do
  let (header, n) ← E.varint buf offset
  let offset := offset + n
  if tagOf header ≠ 0 ∧ tagOf header ≤ count then
    let (b, n) ← E.bytes buf offset
    return (fields.set (tagOf header - 1) (.buffer b), offset + n)
  else
    return (fields, ← E.skip (header % 8) buf offset)

/-- The fields and how many bytes they took. -/
def decodeFields (count offset stop : ℕ) : Option (List Field × ℕ) :=
  if stop ≤ buf.length ∧ offset ≤ buf.length then
    (readItems (fieldItem E buf count) stop (List.replicate count .null, offset)).map fun c =>
      (c.1, c.2 - offset)
  else none

def CoreAdminOperation.ofFields (f : List Field) : CoreAdminOperation Field where
  tx := f.getD 0 .null
  txv := f.getD 1 .null
  iw := f.getD 2 .null
  in_ := f.getD 3 .null
  is := f.getD 4 .null

def AdminControlOperation.ofFields (f : List Field) : AdminControlOperation Field where
  tx := f.getD 0 .null
  txv := f.getD 1 .null
  ia := f.getD 2 .null
  in_ := f.getD 3 .null
  is := f.getD 4 .null

def BalanceInitializationOperation.ofFields (f : List Field) :
    BalanceInitializationOperation Field where
  tx := f.getD 0 .null
  txv := f.getD 1 .null
  ia := f.getD 2 .null
  am := f.getD 3 .null
  in_ := f.getD 4 .null
  is := f.getD 5 .null

def TransferOperation.ofFields (f : List Field) : TransferOperation Field where
  tx := f.getD 0 .null
  txv := f.getD 1 .null
  to_ := f.getD 2 .null
  am := f.getD 3 .null
  in_ := f.getD 4 .null
  is := f.getD 5 .null

def RoleAccessOperation.ofFields (f : List Field) : RoleAccessOperation Field where
  tx := f.getD 0 .null
  txv := f.getD 1 .null
  iw := f.getD 2 .null
  in_ := f.getD 3 .null
  is := f.getD 4 .null

def BootstrapDeploymentOperation.ofFields (f : List Field) :
    BootstrapDeploymentOperation Field where
  tx := f.getD 0 .null
  txv := f.getD 1 .null
  bs := f.getD 2 .null
  ic := f.getD 3 .null
  in_ := f.getD 4 .null
  is := f.getD 5 .null

def TxOperation.ofFields (f : List Field) : TxOperation Field where
  tx := f.getD 0 .null
  txv := f.getD 1 .null
  iw := f.getD 2 .null
  ch := f.getD 3 .null
  bs := f.getD 4 .null
  mbs := f.getD 5 .null
  in_ := f.getD 6 .null
  is := f.getD 7 .null

def Completion.ofFields (f : List Field) : Completion Field where
  va := f.getD 0 .null
  vn := f.getD 1 .null
  vs := f.getD 2 .null

/-- What the decoder builds. A property of the `oneof` that was deleted is `none` as one that still
is `null`. -/
structure OperationObject where
  type : ℤ
  address : Field
  cao : Option (CoreAdminOperation Field)
  aco : Option (AdminControlOperation Field)
  bio : Option (BalanceInitializationOperation Field)
  tro : Option (TransferOperation Field × Completion Field)
  rao : Option (RoleAccessOperation Field × Completion Field)
  bdo : Option (BootstrapDeploymentOperation Field × Completion Field)
  txo : Option (TxOperation Field × Completion Field)
  deriving DecidableEq

namespace OperationObject

def empty : OperationObject where
  type := 0
  address := .null
  cao := none
  aco := none
  bio := none
  tro := none
  rao := none
  bdo := none
  txo := none

/-- How many fields a member of the `oneof` has. -/
def memberFields : ℕ → Option ℕ
  | 3 | 4 => some 5
  | 5 => some 6
  | 6 => some 9
  | 7 => some 8
  | 8 => some 9
  | 9 => some 11
  | _ => none

/-- Sets one property of the `oneof` and deletes the others. -/
def assign (obj : OperationObject) (tag : ℕ) (f : List Field) : OperationObject :=
  let obj := { empty with type := obj.type, address := obj.address }
  match tag with
  | 3 => { obj with cao := some (.ofFields f) }
  | 4 => { obj with aco := some (.ofFields f) }
  | 5 => { obj with bio := some (.ofFields f) }
  | 6 => { obj with tro := some (.ofFields f, .ofFields (f.drop 6)) }
  | 7 => { obj with rao := some (.ofFields f, .ofFields (f.drop 5)) }
  | 8 => { obj with bdo := some (.ofFields f, .ofFields (f.drop 6)) }
  | 9 => { obj with txo := some (.ofFields f, .ofFields (f.drop 8)) }
  | _ => obj

/-- A member of the `oneof`, behind its length. It may end after the position that the length
gives. -/
def member (count offset : ℕ) : Option (List Field × ℕ) := do
  let (len, n) ← E.varint buf offset
  let offset := offset + n
  let (fields, n) ← decodeFields E buf count offset (offset + len)
  return (fields, offset + n)

/-- One turn of the loop. -/
def item (obj : OperationObject) (offset : ℕ) : Option (OperationObject × ℕ) := do
  let (header, n) ← E.varint buf offset
  let offset := offset + n
  match tagOf header with
  | 1 =>
    let (type, n) ← E.enum buf offset
    return ({ obj with type }, offset + n)
  | 2 =>
    let (b, n) ← E.bytes buf offset
    return ({ obj with address := .buffer b }, offset + n)
  | tag =>
    match memberFields tag with
    | some count =>
      let (f, offset) ← member E buf count offset
      return (obj.assign tag f, offset)
    | none => return (obj, ← E.skip (header % 8) buf offset)

/-- `Operation.decode` of a whole buffer. `none` is an exception. -/
def decode : Option OperationObject :=
  (readItems (item E buf) buf.length (empty, 0)).map Prod.fst

/-- The member that is present. -/
def value (obj : OperationObject) : Option Body :=
  obj.cao.map .cao <|> obj.aco.map .aco <|> obj.bio.map .bio <|>
    obj.tro.map (fun p => .tro p.1 p.2) <|> obj.rao.map (fun p => .rao p.1 p.2) <|>
    obj.bdo.map (fun p => .bdo p.1 p.2) <|> obj.txo.map (fun p => .txo p.1 p.2)

/-- No operation has a negative type, and none the type 0. -/
def toOperation (obj : OperationObject) : Operation where
  type := obj.type.toNat
  address := obj.address
  value := obj.value

/-- The object of an operation. -/
def of (op : Operation) : OperationObject :=
  let obj := { empty with type := op.type, address := op.address }
  match op.value with
  | none => obj
  | some (.cao o) => { obj with cao := some o }
  | some (.aco o) => { obj with aco := some o }
  | some (.bio o) => { obj with bio := some o }
  | some (.tro o c) => { obj with tro := some (o, c) }
  | some (.rao o c) => { obj with rao := some (o, c) }
  | some (.bdo o c) => { obj with bdo := some (o, c) }
  | some (.txo o c) => { obj with txo := some (o, c) }

end OperationObject

end SettlementBus
