import SettlementBus.Messages.Operation

/-! `deepEqualApplyPayload.js` and `stripValidatorMetadata` on decoded objects. -/

namespace SettlementBus

/-- The values of JavaScript that decoded operations are made of. The keys of an object are
different. -/
inductive Value
  | undefined
  | null
  | number (n : ℕ)
  | buffer (b : Buffer)
  | array (elements : List Value)
  | object (fields : List (String × Value))

mutual

def isDeepEqualApplyPayload : Value → Value → Bool
  | .undefined, .undefined => true
  | .null, .null => true
  | .number left, .number right => left = right
  | .buffer left, .buffer right => left = right
  | .array left, .array right => left.length = right.length && areElementsEqual left right
  | .object left, .object right => left.length = right.length && areFieldsEqual left right
  | _, _ => false

def areElementsEqual : List Value → List Value → Bool
  | [], _ => true
  | _ :: _, [] => false
  | v :: left, w :: right => isDeepEqualApplyPayload v w && areElementsEqual left right

def areFieldsEqual : List (String × Value) → List (String × Value) → Bool
  | [], _ => true
  | (key, v) :: left, right =>
    match right.lookup key with
    | none => false
    | some w => isDeepEqualApplyPayload v w && areFieldsEqual left right

end

def validatorMetadataFields : List String := ["va", "vn", "vs"]

mutual

def stripValidatorMetadata : Value → Value
  | .array elements => .array (stripElements elements)
  | .object fields => .object (stripFields fields)
  | value => value

def stripElements : List Value → List Value
  | [] => []
  | value :: elements => stripValidatorMetadata value :: stripElements elements

def stripFields : List (String × Value) → List (String × Value)
  | [] => []
  | (key, value) :: fields =>
    (key, if key ∈ validatorMetadataFields then .null else stripValidatorMetadata value) ::
      stripFields fields

end

/-! ### Decoded operations -/

def Field.toValue : Field → Value
  | .undefined => .undefined
  | .null => .null
  | .buffer b => .buffer b

/-- A key of an object with the value of its field. -/
def toEntry (e : String × Field) : String × Value := (e.1, e.2.toValue)

def Completion.entries (c : Completion Field) : List (String × Field) :=
  [("va", c.va), ("vn", c.vn), ("vs", c.vs)]

namespace Body

def key : Body → String
  | cao _ => "cao"
  | aco _ => "aco"
  | bio _ => "bio"
  | tro .. => "tro"
  | rao .. => "rao"
  | bdo .. => "bdo"
  | txo .. => "txo"

/-- The fields in the order in which the decoder sets them. -/
def fields : Body → List (String × Field)
  | cao o => [("tx", o.tx), ("txv", o.txv), ("iw", o.iw), ("in", o.in_), ("is", o.is)]
  | aco o => [("tx", o.tx), ("txv", o.txv), ("ia", o.ia), ("in", o.in_), ("is", o.is)]
  | bio o => [("tx", o.tx), ("txv", o.txv), ("ia", o.ia), ("am", o.am), ("in", o.in_), ("is", o.is)]
  | tro o c => [("tx", o.tx), ("txv", o.txv), ("to", o.to_), ("am", o.am), ("in", o.in_),
      ("is", o.is)] ++ c.entries
  | rao o c => [("tx", o.tx), ("txv", o.txv), ("iw", o.iw), ("in", o.in_), ("is", o.is)] ++
      c.entries
  | bdo o c => [("tx", o.tx), ("txv", o.txv), ("bs", o.bs), ("ic", o.ic), ("in", o.in_),
      ("is", o.is)] ++ c.entries
  | txo o c => [("tx", o.tx), ("txv", o.txv), ("iw", o.iw), ("ch", o.ch), ("bs", o.bs),
      ("mbs", o.mbs), ("in", o.in_), ("is", o.is)] ++ c.entries

def toValue (body : Body) : Value :=
  .object (body.fields.map toEntry)

end Body

/-- The object that `decode` returns. It deletes the other bodies when it sets one. -/
def Operation.toValue (op : Operation) : Value :=
  .object ([("type", .number op.type), ("address", op.address.toValue)] ++
    match op.value with
    | some body => [(body.key, body.toValue)]
    | none => ["cao", "aco", "bio", "tro", "rao", "bdo", "txo"].map fun key => (key, .null))

/-- The validator's fields as they are before it completes an operation. -/
def Completion.null : Completion Field := { va := .null, vn := .null, vs := .null }

/-- The body with other fields of the validator, if it has such fields. -/
def Body.setCompletion (c : Completion Field) : Body → Body
  | .cao o => .cao o
  | .aco o => .aco o
  | .bio o => .bio o
  | .tro o _ => .tro o c
  | .rao o _ => .rao o c
  | .bdo o _ => .bdo o c
  | .txo o _ => .txo o c

def Operation.setCompletion (c : Completion Field) (op : Operation) : Operation :=
  { op with value := op.value.map (Body.setCompletion c) }

end SettlementBus
