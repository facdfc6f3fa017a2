import SettlementBus.Lib.Bytes

namespace SettlementBus

abbrev Buffer := List UInt8

abbrev Str := List Char

def nullBuffer : Buffer := []

def zeroWk : Buffer := List.replicate 32 0

def isBufferValid (key : Buffer) (size : ℕ) : Bool := key.length = size

/-- `isUInt32` of `createMessage`: zero is not admitted. -/
def isUInt32 (n : ℕ) : Bool := 1 ≤ n ∧ n ≤ 0xFFFFFFFF

def safeWriteUInt32BE (value : ℕ) : Buffer :=
  if value ≤ 0xFFFFFFFF then Lib.Bytes.ofNat 4 value else List.replicate 4 0

inductive MessagePart
  | number : ℕ → MessagePart
  | buffer : Buffer → MessagePart

def MessagePart.toBuffer? : MessagePart → Option Buffer
  | .number n => if isUInt32 n then some (safeWriteUInt32BE n) else none
  | .buffer b => some b

def createMessage (args : List MessagePart) : Buffer :=
  (args.filterMap MessagePart.toBuffer?).flatten

/-- `toString('ascii')` clears the high bit of every byte. -/
def toAscii (b : Buffer) : Str := b.map fun x => Char.ofNat (x &&& 0x7f).toNat

/-- `b4a.from(string, 'ascii')`. -/
def fromAscii (s : Str) : Buffer := s.map fun c => UInt8.ofNat c.toNat

def hexDigits : Str := "0123456789abcdef".toList

def hexDigit (n : ℕ) : Char := hexDigits.getD n '0'

def toHex (b : Buffer) : Str := b.flatMap fun x => [hexDigit (x.toNat / 16), hexDigit
    (x.toNat % 16)]

@[simp] theorem length_toAscii (b : Buffer) : (toAscii b).length = b.length := List.length_map _

@[simp] theorem length_toHex (b : Buffer) : (toHex b).length = 2 * b.length := by
  induction b with
  | nil => rfl
  | cons x b ih =>
    simp only [toHex, List.flatMap_cons, List.length_append, List.length_cons] at ih ⊢
    rw [ih, List.length_nil]
    ring

theorem fromAscii_toAscii {b : Buffer} (h : ∀ x ∈ b, x < 128) : fromAscii (toAscii b) = b := by
  have key : ∀ n : Fin 128,
      UInt8.ofNat (Char.ofNat (UInt8.ofNat n &&& 0x7f).toNat).toNat = UInt8.ofNat n := by
    decide +kernel
  rw [fromAscii, toAscii, List.map_map]
  refine (List.map_congr_left fun x hx => ?_).trans (List.map_id b)
  simpa using key ⟨x.toNat, UInt8.lt_iff_toNat_lt.mp (h x hx)⟩

theorem toAscii_fromAscii {s : Str} (h : ∀ c ∈ s, c.toNat < 128) : toAscii (fromAscii s) = s := by
  have key : ∀ n : Fin 128, Char.ofNat (UInt8.ofNat n &&& 0x7f).toNat = Char.ofNat n := by
    decide +kernel
  rw [fromAscii, toAscii, List.map_map]
  refine (List.map_congr_left fun c hc => ?_).trans (List.map_id s)
  simpa using key ⟨c.toNat, h c hc⟩

theorem lt_of_mem_fromAscii {s : Str} (h : ∀ c ∈ s, c.toNat < 128) : ∀ x ∈ fromAscii s, x < 128 := by
  intro x hx
  obtain ⟨c, hc, rfl⟩ := List.mem_map.mp hx
  have hlt := h c hc
  rw [UInt8.lt_iff_toNat_lt, UInt8.toNat_ofNat']
  exact Nat.lt_of_le_of_lt (Nat.mod_le _ _) hlt

theorem hexDigit_inj {m n : ℕ} (hm : m < 16) (hn : n < 16) (h : hexDigit m = hexDigit n) :
    m = n := by
  have key : ∀ i j : Fin 16, hexDigit i = hexDigit j → i = j := by decide
  exact congrArg Fin.val (key ⟨m, hm⟩ ⟨n, hn⟩ h)

theorem toHex_injective : Function.Injective toHex := by
  intro b c h
  induction b generalizing c with
  | nil =>
    cases c with
    | nil => rfl
    | cons y c => simp [toHex] at h
  | cons x b ih =>
    cases c with
    | nil => simp [toHex] at h
    | cons y c =>
      simp only [toHex, List.flatMap_cons, List.cons_append, List.nil_append,
        List.cons.injEq] at h
      have hx := x.toNat_lt
      have hy := y.toNat_lt
      have hhi := hexDigit_inj (by omega) (by omega) h.1
      have hlo := hexDigit_inj (by omega) (by omega) h.2.1
      rw [ih h.2.2, UInt8.toNat_inj.mp (show x.toNat = y.toNat by omega)]

theorem toHex_mem {b : Buffer} {c : Char} (h : c ∈ toHex b) : c ∈ hexDigits := by
  have key : ∀ i : Fin 16, hexDigit i ∈ hexDigits := by decide
  simp only [toHex, List.mem_flatMap, List.mem_cons, List.not_mem_nil, or_false] at h
  obtain ⟨x, -, rfl | rfl⟩ := h
  · exact key ⟨x.toNat / 16, by have := x.toNat_lt; omega⟩
  · exact key ⟨x.toNat % 16, by omega⟩

end SettlementBus
