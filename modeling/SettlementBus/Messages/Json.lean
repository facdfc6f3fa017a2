import SettlementBus.Messages.Builder

/-! The JSON form of a partial payload, and `normalizers.js`, which read it back. -/

namespace SettlementBus

/-- The body of a message. A field that is missing or `null` is `none`. -/
inductive JsonBody
  | rao : RoleAccessOperation (Option Input) → JsonBody
  | bdo : BootstrapDeploymentOperation (Option Input) → JsonBody
  | txo : TxOperation (Option Input) → JsonBody
  | tro : TransferOperation (Option Input) → JsonBody

structure JsonMessage where
  type : ℕ
  address : Option Input
  value : Option JsonBody

variable (env : Env)

/-! ### `#encodePayloadJson` -/

def jsonHex (b : Buffer) : Option Input := some (.string (toHex b))

def jsonAddress (b : Buffer) : Option Input := (bufferToAddress env b).map .string

def PartialBody.encodeJson : PartialBody → JsonBody
  | rao o =>
    .rao
      { tx := jsonHex o.tx, txv := jsonHex o.txv, iw := jsonHex o.iw, in_ := jsonHex o.in_,
        is := jsonHex o.is }
  | bdo o =>
    .bdo
      { tx := jsonHex o.tx, txv := jsonHex o.txv, bs := jsonHex o.bs, ic := jsonHex o.ic,
        in_ := jsonHex o.in_, is := jsonHex o.is }
  | txo o =>
    .txo
      { tx := jsonHex o.tx, txv := jsonHex o.txv, iw := jsonHex o.iw, ch := jsonHex o.ch,
        bs := jsonHex o.bs, mbs := jsonHex o.mbs, in_ := jsonHex o.in_, is := jsonHex o.is }
  | tro o =>
    .tro
      { tx := jsonHex o.tx, txv := jsonHex o.txv, to_ := jsonAddress env o.to_, am := jsonHex o.am,
        in_ := jsonHex o.in_, is := jsonHex o.is }

/-- It throws for a payload whose address is invalid. -/
def encodePayloadJson (payload : Payload PartialBody) : Option JsonMessage := do
  let address ← bufferToAddress env payload.address
  return { type := payload.type.code, address := some (.string address),
           value := some (PartialBody.encodeJson env payload.body) }

/-! ### `normalizeMessageByOperationType` -/

/-- A required field. Empty strings are missing too. -/
def required : Option Input → Option Input
  | some (.string []) => none
  | f => f

def normalizeHexField (f : Option Input) : Option Field := do
  return .buffer (← normalizeHex (← required f))

/-- `addressToBuffer` of a buffer decodes it first, and returns no bytes for an invalid address. -/
def normalizeAddressField (f : Option Input) : Option Field := do
  match ← required f with
  | .string address => return .buffer (addressToBuffer env address)
  | .buffer address =>
    return .buffer (if isAddressBufferValid env address then address else nullBuffer)

def normalizeRoleAccessOperation (payload : JsonMessage) : Option Operation := do
  let some (.rao rao) := payload.value | none
  let address ← normalizeAddressField env payload.address
  let tx ← normalizeHexField rao.tx
  let txv ← normalizeHexField rao.txv
  let iw ← normalizeHexField rao.iw
  let in_ ← normalizeHexField rao.in_
  let is ← normalizeHexField rao.is
  return { type := payload.type, address, value := some (.rao { tx, txv, iw, in_, is } .absent) }

def normalizeTransactionOperation (payload : JsonMessage) : Option Operation := do
  let some (.txo txo) := payload.value | none
  guard (payload.type = OperationType.tx.code)
  let address ← normalizeAddressField env payload.address
  let tx ← normalizeHexField txo.tx
  let txv ← normalizeHexField txo.txv
  let iw ← normalizeHexField txo.iw
  let ch ← normalizeHexField txo.ch
  let bs ← normalizeHexField txo.bs
  let mbs ← normalizeHexField txo.mbs
  let in_ ← normalizeHexField txo.in_
  let is ← normalizeHexField txo.is
  return { type := payload.type, address,
           value := some (.txo { tx, txv, iw, ch, bs, mbs, in_, is } .absent) }

def normalizeBootstrapDeploymentOperation (payload : JsonMessage) : Option Operation := do
  let some (.bdo bdo) := payload.value | none
  guard (payload.type = OperationType.bootstrapDeployment.code)
  let address ← normalizeAddressField env payload.address
  let tx ← normalizeHexField bdo.tx
  let txv ← normalizeHexField bdo.txv
  let bs ← normalizeHexField bdo.bs
  let ic ← normalizeHexField bdo.ic
  let in_ ← normalizeHexField bdo.in_
  let is ← normalizeHexField bdo.is
  return { type := payload.type, address,
           value := some (.bdo { tx, txv, bs, ic, in_, is } .absent) }

def normalizeTransferOperation (payload : JsonMessage) : Option Operation := do
  let some (.tro tro) := payload.value | none
  guard (payload.type = OperationType.transfer.code)
  let address ← normalizeAddressField env payload.address
  let tx ← normalizeHexField tro.tx
  let txv ← normalizeHexField tro.txv
  let in_ ← normalizeHexField tro.in_
  let to_ ← normalizeAddressField env tro.to_
  let am ← normalizeHexField tro.am
  let is ← normalizeHexField tro.is
  return { type := payload.type, address,
           value := some (.tro { tx, txv, to_, am, in_, is } .absent) }

def normalizeMessageByOperationType (message : JsonMessage) : Option Operation :=
  match OperationType.ofCode message.type with
  | some .addWriter | some .removeWriter | some .adminRecovery =>
    normalizeRoleAccessOperation env message
  | some .tx => normalizeTransactionOperation env message
  | some .bootstrapDeployment => normalizeBootstrapDeploymentOperation env message
  | some .transfer => normalizeTransferOperation env message
  | _ => none

/-! ### The decoder's `null` for an absent field -/

/-- A decoded object has `null` for a field that was not written. -/
def Field.decoded : Field → Field
  | .undefined => .null
  | f => f

def Completion.decoded (c : Completion Field) : Completion Field :=
  { va := c.va.decoded, vn := c.vn.decoded, vs := c.vs.decoded }

/-- `delete` of a field that is `null`. -/
def Field.sanitize : Field → Field
  | .null => .undefined
  | f => f

def Completion.sanitize (c : Completion Field) : Completion Field :=
  { va := c.va.sanitize, vn := c.vn.sanitize, vs := c.vs.sanitize }

/-- `BroadcastTransactionPayloadUtils.js`. It does nothing unless the type has the body. -/
def sanitizeDecodedPartialTransaction (op : Operation) : Operation :=
  match OperationType.ofCode op.type, op.value with
  | some .addWriter, some (.rao o c) | some .removeWriter, some (.rao o c)
  | some .adminRecovery, some (.rao o c) => { op with value := some (.rao o c.sanitize) }
  | some .tx, some (.txo o c) => { op with value := some (.txo o c.sanitize) }
  | some .bootstrapDeployment, some (.bdo o c) => { op with value := some (.bdo o c.sanitize) }
  | some .transfer, some (.tro o c) => { op with value := some (.tro o c.sanitize) }
  | _, _ => op

/-! ### What is emitted is read back -/

variable {env}

theorem required_string {s : Str} (h : s ≠ []) :
    required (some (.string s)) = some (.string s) := by
  cases s with
  | nil => exact absurd rfl h
  | cons => rfl

theorem normalizeHexField_jsonHex {b : Buffer} (h : b ≠ []) :
    normalizeHexField (jsonHex b) = some (.buffer b) := by
  have hne : toHex b ≠ [] := by
    intro hnil
    have hlen := congrArg List.length hnil
    rw [length_toHex, List.length_nil] at hlen
    exact h (List.length_eq_zero_iff.mp (by omega))
  rw [normalizeHexField, jsonHex, required_string hne]
  simp [normalizeHex_toHex h]

theorem normalizeAddressField_string {b : Buffer} (h : AsciiAddress env b) :
    normalizeAddressField env (some (.string (toAscii b))) = some (.buffer b) := by
  rw [normalizeAddressField, required_string h.toAscii_ne_nil]
  simp [h.addressToBuffer]

theorem jsonAddress_eq {b : Buffer} (h : AsciiAddress env b) :
    jsonAddress env b = some (.string (toAscii b)) := by
  rw [jsonAddress, h.bufferToAddress, Option.map_some]

end SettlementBus
