import SettlementBus.Utils.Buffer

/-! `helpers.js`: hex strings. -/

namespace SettlementBus

def hexValue (c : Char) : Option ℕ :=
  if '0' ≤ c ∧ c ≤ '9' then some (c.toNat - '0'.toNat)
  else if 'a' ≤ c ∧ c ≤ 'f' then some (c.toNat - 'a'.toNat + 10)
  else if 'A' ≤ c ∧ c ≤ 'F' then some (c.toNat - 'A'.toNat + 10)
  else none

def isHexString (string : Str) : Bool :=
  1 < string.length ∧ string.all (fun c => (hexValue c).isSome) ∧ string.length % 2 = 0

/-- `b4a.from(string, 'hex')`, for a hex string. -/
def fromHex : Str → Buffer
  | hi :: lo :: string =>
    UInt8.ofNat (16 * (hexValue hi).getD 0 + (hexValue lo).getD 0) :: fromHex string
  | _ => []

/-- A field value as a caller passes it. -/
inductive Input
  | string : Str → Input
  | buffer : Buffer → Input

/-- The value is 7-bit text. -/
def Input.Ascii : Input → Prop
  | .string s => ∀ c ∈ s, c.toNat < 128
  | .buffer b => ∀ x ∈ b, x < 128

/-- It throws for a string that is not hex. -/
def normalizeHex : Input → Option Buffer
  | .string input => if isHexString input then some (fromHex input) else none
  | .buffer input => some input

theorem hexValue_hexDigit {n : ℕ} (h : n < 16) : hexValue (hexDigit n) = some n := by
  have key : ∀ i : Fin 16, hexValue (hexDigit i) = some i.val := by decide
  exact key ⟨n, h⟩

theorem toHex_cons (x : UInt8) (b : Buffer) :
    toHex (x :: b) = hexDigit (x.toNat / 16) :: hexDigit (x.toNat % 16) :: toHex b := rfl

theorem fromHex_toHex (b : Buffer) : fromHex (toHex b) = b := by
  induction b with
  | nil => rfl
  | cons x b ih =>
    have hx := x.toNat_lt
    rw [toHex_cons, fromHex, hexValue_hexDigit (by omega), hexValue_hexDigit (by omega), ih]
    simp only [Option.getD_some, Nat.div_add_mod, UInt8.ofNat_toNat]

theorem length_fromHex {s : Str} (h : s.length % 2 = 0) : (fromHex s).length = s.length / 2 := by
  induction s using fromHex.induct with
  | case1 hi lo s ih =>
    simp only [List.length_cons] at h
    rw [fromHex, List.length_cons, ih (by omega)]
    simp only [List.length_cons]
    omega
  | case2 s hs =>
    match s with
    | [] => rfl
    | [c] => simp at h
    | hi :: lo :: s => exact absurd rfl (hs hi lo s)

theorem all_toHex (b : Buffer) : (toHex b).all fun c => (hexValue c).isSome := by
  induction b with
  | nil => rfl
  | cons x b ih =>
    have hx := x.toNat_lt
    simp only [toHex_cons, List.all_cons, ih, hexValue_hexDigit (show x.toNat / 16 < 16 by omega),
      hexValue_hexDigit (show x.toNat % 16 < 16 by omega), Option.isSome_some, Bool.and_self]

theorem isHexString_toHex {b : Buffer} (h : b ≠ []) : isHexString (toHex b) := by
  have hpos := List.length_pos_iff.mpr h
  simp only [isHexString, length_toHex, all_toHex, decide_eq_true_eq]
  refine ⟨by omega, trivial, by omega⟩

theorem normalizeHex_toHex {b : Buffer} (h : b ≠ []) :
    normalizeHex (.string (toHex b)) = some b := by
  rw [normalizeHex, if_pos (isHexString_toHex h), fromHex_toHex]

end SettlementBus
