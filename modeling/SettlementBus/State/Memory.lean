import SettlementBus.Lib.Heap
import SettlementBus.State.Balance

/-! `balance.js` and `amountSerialization.js` as they run on buffers in memory. -/

namespace SettlementBus.Memory

open Lib HeapM

/-- The buffers that are allocated when the modules are loaded. -/
structure Globals where
  nullBuffer : Ptr
  zeroBalance : Ptr
  percentageTerm : Ptr

structure Globals.Loaded (globals : Globals) (h : Heap) : Prop where
  nullBuffer : h.Holds globals.nullBuffer SettlementBus.nullBuffer
  zeroBalance : h.Holds globals.zeroBalance SettlementBus.zeroBalance
  percentageTerm : h.Holds globals.percentageTerm SettlementBus.percentageTerm

def length (buf : Ptr) : HeapM ℕ := do return (← block buf).length

/-- The slice shares the bytes of a buffer that nothing else uses. -/
def truncate (buf : Ptr) : HeapM Ptr := do
  let bytes ← block buf
  allocFrom (bytes.drop (bytes.length - balanceByteLength))

def shiftLeft1 (buf : Ptr) : HeapM Ptr := do
  let res ← alloc balanceByteLength
  let _ ← digits res 0 (fun i carry => do
    let val := ((← load buf i).toNat <<< 1) ||| carry
    return (UInt8.ofNat (val &&& 0xff), val >>> 8)) balanceByteLength 0
  return res

variable (globals : Globals)

/-- The loop of `addBuffers` and `subBuffers`: a digit of the result and the carry from two digits
and the carry before. -/
def digitwise (digit : UInt8 → UInt8 → ℕ → UInt8 × ℕ) (a b : Ptr) : HeapM Ptr := do
  if (← length a) ≠ (← length b) then return globals.nullBuffer
  else
    let result ← alloc (← length a)
    let carry ← digits result 0 (fun i carry => do
      return digit (← load a i) (← load b i) carry) (← length a) 0
    if carry ≠ 0 then return globals.nullBuffer else return result

def addBuffers : Ptr → Ptr → HeapM Ptr :=
  digitwise globals fun a b carry =>
    let sum := a.toNat + b.toNat + carry
    (UInt8.ofNat (sum &&& 0xff), sum >>> 8)

def subBuffers : Ptr → Ptr → HeapM Ptr :=
  digitwise globals fun a b borrow =>
    let diff : ℤ := a.toNat - b.toNat - borrow
    if diff < 0 then (UInt8.ofNat (diff + 256).toNat, 1) else (UInt8.ofNat diff.toNat, 0)

/-- The body of the loop of `divBuffers`: the new remainder. -/
def divBit (quotient dividend divisor : Ptr) (bit : ℕ) (remainder : Ptr) : HeapM Ptr := do
  let remainder ← shiftLeft1 remainder
  let byteIndex := bit / 8
  let bitIndex := 7 - bit % 8
  let bitVal := ((← load dividend byteIndex) >>> UInt8.ofNat bitIndex) &&& 1
  store remainder (balanceByteLength - 1) ((← load remainder (balanceByteLength - 1)) ||| bitVal)
  if Bytes.compare (← block remainder) (← block divisor) ≠ .lt then
    let remainder ← subBuffers globals remainder divisor
    store quotient byteIndex ((← load quotient byteIndex) ||| (1 <<< UInt8.ofNat bitIndex))
    return remainder
  else return remainder

def divBuffers (dividend divisor : Ptr) : HeapM Ptr := do
  if (← length dividend) ≠ balanceByteLength ∨ (← length divisor) ≠ balanceByteLength then
    return globals.nullBuffer
  else if (← block divisor) = (← block globals.zeroBalance) then return globals.nullBuffer
  else
    let quotient ← alloc balanceByteLength
    let remainder ← alloc balanceByteLength
    let _ ← up (divBit globals quotient dividend divisor) remainder (balanceByteLength * 8)
    return quotient

/-- The body of the outer loop of `mulBuffers`. -/
def mulRow (result a b : Ptr) (i : ℕ) : HeapM Unit := do
  let carry ← digits result (i + 1) (fun j carry => do
    let mul := (← load a i).toNat * (← load b j).toNat + (← load result (i + 1 + j)).toNat + carry
    return (UInt8.ofNat (mul &&& 0xff), mul >>> 8)) balanceByteLength 0
  store result i ((← load result i) + UInt8.ofNat carry)

def mulBuffers (a b : Ptr) : HeapM Ptr := do
  if (← length a) ≠ balanceByteLength ∨ (← length b) ≠ balanceByteLength then
    return globals.nullBuffer
  else
    let result ← alloc (balanceByteLength * 2)
    down (mulRow result a b) balanceByteLength
    if (← block result).take balanceByteLength ≠ (← block globals.zeroBalance) then
      return globals.nullBuffer
    else truncate result

/-! ### The class. A balance is the pointer to its value. -/

def toBalance (balance : Ptr) : HeapM (Option Ptr) := do
  if isBufferValid (← block balance) balanceByteLength then return some balance else return none

namespace Balance

def add (a b : Ptr) : HeapM (Option Ptr) := do toBalance (← addBuffers globals a b)

def sub (a b : Ptr) : HeapM (Option Ptr) := do toBalance (← subBuffers globals a b)

def mul (a num : Ptr) : HeapM (Option Ptr) := do
  if ¬isBufferValid (← block num) balanceByteLength then return none
  else toBalance (← mulBuffers globals a num)

def percentage (a percent : Ptr) : HeapM (Option Ptr) := do
  if ¬isBufferValid (← block percent) balanceByteLength then return none
  else
    let dividend ← mulBuffers globals a percent
    toBalance (← divBuffers globals dividend globals.percentageTerm)

def div (a divisor : Ptr) : HeapM (Option Ptr) := do
  if ¬isBufferValid (← block divisor) balanceByteLength then return none
  else toBalance (← divBuffers globals a divisor)

def equals (a b : Ptr) : HeapM Bool := do
  return isBufferValid (← block b) balanceByteLength ∧ (← block a) = (← block b)

/-- `b4a.compare` of the values. -/
def compare (a b : Ptr) : HeapM Ordering := do return Bytes.compare (← block a) (← block b)

def greaterThan (a b : Ptr) : HeapM Bool := do return (← compare a b) = .gt

def lowerThan (a b : Ptr) : HeapM Bool := do return (← compare a b) = .lt

def greaterThanOrEquals (a b : Ptr) : HeapM Bool := do
  let cmp ← compare a b
  return cmp = .gt ∨ cmp = .eq

def lowerThanOrEquals (a b : Ptr) : HeapM Bool := do
  let cmp ← compare a b
  return cmp = .lt ∨ cmp = .eq

end Balance

/-! ### Amounts -/

def bigIntTo16ByteBuffer (bigIntValue : ℤ) : HeapM Ptr := do
  let value := (bigIntValue % 2 ^ 128).toNat
  let buff ← alloc 16
  let _ ← digits buff 0 (fun _ tmp => return (UInt8.ofNat (tmp &&& 0xff), tmp >>> 8)) 16 value
  return buff

/-- It throws for a buffer of another length. -/
def bufferToBigInt (buff : Ptr) : HeapM (Option ℕ) := do
  if (← length buff) ≠ 16 then return none
  else
    let res ← up (fun i res => do return (res <<< 8) ||| (← load buff i).toNat) 0 16
    return some res

end SettlementBus.Memory
