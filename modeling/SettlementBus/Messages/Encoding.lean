import SettlementBus.Messages.Operation
import SettlementBus.Lib.Wire

/-! The bytes `applyOperations.cjs` writes for an operation. -/

namespace SettlementBus

/-- Seven bits a byte, least significant first, in `fuel` bytes at most. -/
def varint (fuel n : ℕ) : Buffer := Lib.Wire.Leb128.encode fuel n

def encodeBytes (number : ℕ) (b : Buffer) : Buffer :=
  varint 5 (8 * number + 2) ++ varint 5 b.length ++ b

/-- Only present fields are written. -/
def encodeField (number : ℕ) : Field → Buffer
  | .buffer b => encodeBytes number b
  | _ => []

def encodeFields (fields : List Field) : Buffer :=
  (fields.zipIdx 1).flatMap fun f => encodeField f.2 f.1

def Completion.fields (c : Completion Field) : List Field := [c.va, c.vn, c.vs]

def Body.encode : Body → Buffer
  | .cao o => encodeBytes 3 (encodeFields [o.tx, o.txv, o.iw, o.in_, o.is])
  | .aco o => encodeBytes 4 (encodeFields [o.tx, o.txv, o.ia, o.in_, o.is])
  | .bio o => encodeBytes 5 (encodeFields [o.tx, o.txv, o.ia, o.am, o.in_, o.is])
  | .tro o c => encodeBytes 6 (encodeFields ([o.tx, o.txv, o.to_, o.am, o.in_, o.is] ++ c.fields))
  | .rao o c => encodeBytes 7 (encodeFields ([o.tx, o.txv, o.iw, o.in_, o.is] ++ c.fields))
  | .bdo o c => encodeBytes 8 (encodeFields ([o.tx, o.txv, o.bs, o.ic, o.in_, o.is] ++ c.fields))
  | .txo o c =>
    encodeBytes 9 (encodeFields
      ([o.tx, o.txv, o.iw, o.ch, o.bs, o.mbs, o.in_, o.is] ++ c.fields))

def encodeOperation (op : Operation) : Buffer :=
  varint 5 8 ++ varint 5 op.type ++ encodeField 2 op.address ++ op.value.elim [] Body.encode

end SettlementBus
