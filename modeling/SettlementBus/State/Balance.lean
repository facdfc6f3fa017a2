import SettlementBus.State.NodeEntry

namespace SettlementBus

/-- A 16 byte big-endian amount. -/
structure Balance where
  value : Buffer
  length_value : value.length = balanceByteLength
  deriving DecidableEq

def toBalance (balance : Buffer) : Option Balance :=
  if h : balance.length = balanceByteLength then some ⟨balance, h⟩ else none

/-! ### Buffer arithmetic. `nullBuffer` marks a failure. -/

def addBuffers (a b : Buffer) : Buffer :=
  if a.length ≠ b.length then nullBuffer
  else
    let (result, carry) := Lib.Bytes.addCarry a b
    if carry ≠ 0 then nullBuffer else result

def subBuffers (a b : Buffer) : Buffer :=
  if a.length ≠ b.length then nullBuffer
  else
    let (result, borrow) := Lib.Bytes.subBorrow a b
    if borrow ≠ 0 then nullBuffer else result

/-- The shifted bytes and the bit that falls out. -/
def shiftLeft1 : Buffer → Buffer × ℕ
  | [] => ([], 0)
  | x :: l =>
    let (result, carry) := shiftLeft1 l
    let val := 2 * x.toNat + carry
    (UInt8.ofNat val :: result, val / 256)

/-- The eight rounds of `divBuffers` on one byte of the dividend. -/
def divByte (divisor : Buffer) (byte : UInt8) (remainder : Buffer) : UInt8 × Buffer :=
  ([7, 6, 5, 4, 3, 2, 1, 0] : List UInt8).foldl (fun (quotient, remainder) bitIndex =>
    let shifted := (shiftLeft1 remainder).1
    let bitVal := (byte >>> bitIndex) &&& 1
    let remainder := shifted.take 15 ++ (shifted.drop 15).map (· ||| bitVal)
    if Lib.Bytes.compare remainder divisor ≠ .lt then
      (quotient ||| (1 <<< bitIndex), subBuffers remainder divisor)
    else (quotient, remainder)) (0, remainder)

def divBuffers (dividend divisor : Buffer) : Buffer :=
  if dividend.length ≠ balanceByteLength ∨ divisor.length ≠ balanceByteLength then nullBuffer
  else if divisor = zeroBalance then nullBuffer
  else
    (dividend.foldl (fun (quotient, remainder) byte =>
      let (q, remainder) := divByte divisor byte remainder
      (quotient ++ [q], remainder)) (([], zeroBalance) : Buffer × Buffer)).1

def mulBuffers (a b : Buffer) : Buffer :=
  if a.length ≠ balanceByteLength ∨ b.length ≠ balanceByteLength then nullBuffer
  else
    let result := Lib.Bytes.mulRows a b
    if result.take balanceByteLength ≠ zeroBalance then nullBuffer
    else result.drop balanceByteLength

/-- `bigIntTo16ByteBuffer` -/
def toTerm (bigint : ℕ) : Buffer := Lib.Bytes.ofNat balanceByteLength bigint

theorem length_toTerm (n : ℕ) : (toTerm n).length = balanceByteLength :=
  Lib.Bytes.length_ofNat _ n

theorem toNat_toTerm {n : ℕ} (h : n < 2 ^ 128) : Lib.Bytes.toNat (toTerm n) = n := by
  rw [toTerm, Lib.Bytes.toNat_ofNat]
  exact Nat.mod_eq_of_lt h

def percentageTerm : Buffer := toTerm 10000
def percent75 : Buffer := toTerm 7500
def percent50 : Buffer := toTerm 5000
def percent25 : Buffer := toTerm 2500

namespace Balance

def add (a b : Balance) : Option Balance := toBalance (addBuffers a.value b.value)

def sub (a b : Balance) : Option Balance := toBalance (subBuffers a.value b.value)

def mul (a : Balance) (num : Buffer) : Option Balance :=
  if isBufferValid num balanceByteLength then toBalance (mulBuffers a.value num) else none

def percentage (a : Balance) (percent : Buffer) : Option Balance :=
  if isBufferValid percent balanceByteLength then
    toBalance (divBuffers (mulBuffers a.value percent) percentageTerm)
  else none

def update (a : Balance) (nodeEntry : Buffer) : Option Buffer :=
  NodeEntry.setBalance nodeEntry a.value

def greaterThan (a b : Balance) : Bool := Lib.Bytes.compare a.value b.value = .gt

def greaterThanOrEquals (a b : Balance) : Bool :=
  Lib.Bytes.compare a.value b.value = .gt ∨ Lib.Bytes.compare a.value b.value = .eq

def toNat (a : Balance) : ℕ := Lib.Bytes.toNat a.value

end Balance

def balanceFee : Balance := ⟨fee, rfl⟩
def balanceToStake : Balance := ⟨mulBuffers fee (toTerm 10), by decide⟩
def balanceZero : Balance := ⟨zeroBalance, rfl⟩

@[simp] theorem toBalance_value (b : Balance) : toBalance b.value = some b := dif_pos b.length_value

theorem toBalance_eq_some {v : Buffer} {b : Balance} : toBalance v = some b ↔ b.value = v := by
  constructor
  · intro h
    rw [toBalance] at h
    split at h
    · cases h
      rfl
    · cases h
  · rintro rfl
    exact toBalance_value b

theorem toBalance_eq_none {v : Buffer} : toBalance v = none ↔ v.length ≠ balanceByteLength := by
  rw [toBalance]
  split <;> simp_all

@[simp] theorem isBufferValid_value (b : Balance) : isBufferValid b.value balanceByteLength := by
  simp [isBufferValid, b.length_value]

namespace Balance

theorem toNat_lt (a : Balance) : a.toNat < 2 ^ 128 := by
  have := Lib.Bytes.toNat_lt a.value
  rwa [a.length_value] at this

theorem toNat_inj {a b : Balance} : a.toNat = b.toNat ↔ a = b := by
  constructor
  · intro h
    cases a with | mk v hv
    cases b with | mk w hw
    have := Lib.Bytes.toNat_inj (hv.trans hw.symm) h
    subst this
    rfl
  · rintro rfl
    rfl

theorem length_values (a b : Balance) : a.value.length = b.value.length :=
  a.length_value.trans b.length_value.symm

theorem toNat_addCarry (a b : Balance) :
    Lib.Bytes.toNat (Lib.Bytes.addCarry a.value b.value).1 +
      (Lib.Bytes.addCarry a.value b.value).2 * 2 ^ 128 = a.toNat + b.toNat := by
  have := Lib.Bytes.toNat_addCarry (length_values a b)
  rwa [a.length_value] at this

theorem add_eq_none {a b : Balance} : a.add b = none ↔ 2 ^ 128 ≤ a.toNat + b.toNat := by
  have hlen := Lib.Bytes.length_addCarry (length_values a b)
  have hlt := Lib.Bytes.toNat_lt (Lib.Bytes.addCarry a.value b.value).1
  have hsum := toNat_addCarry a b
  rw [hlen, a.length_value] at hlt
  rw [add, addBuffers, if_neg (not_not.mpr (length_values a b)), toBalance_eq_none]
  by_cases hc : (Lib.Bytes.addCarry a.value b.value).2 = 0
  · simp only [hc, ne_eq, not_true_eq_false, if_false, hlen, a.length_value, false_iff, not_le]
    rw [hc] at hsum
    norm_num [balanceByteLength] at hlt hsum ⊢
    omega
  · simp only [hc, ne_eq, not_false_eq_true, if_true, nullBuffer]
    refine iff_of_true (by decide) ?_
    have : 1 * 2 ^ 128 ≤ (Lib.Bytes.addCarry a.value b.value).2 * 2 ^ 128 :=
      Nat.mul_le_mul_right _ (Nat.one_le_iff_ne_zero.mpr hc)
    omega

theorem toNat_of_add {a b c : Balance} (h : a.add b = some c) :
    c.toNat = a.toNat + b.toNat := by
  rw [add, addBuffers, if_neg (not_not.mpr (length_values a b)), toBalance_eq_some] at h
  have hsum := toNat_addCarry a b
  by_cases hc : (Lib.Bytes.addCarry a.value b.value).2 = 0
  · simp only [hc, ne_eq, not_true_eq_false, if_false] at h
    rw [hc, Nat.zero_mul, Nat.add_zero] at hsum
    rw [toNat, h, hsum]
  · simp only [hc, ne_eq, not_false_eq_true, if_true] at h
    have := c.length_value
    rw [h] at this
    cases this

theorem add_eq_some {a b c : Balance} : a.add b = some c ↔ c.toNat = a.toNat + b.toNat := by
  refine ⟨toNat_of_add, fun h => ?_⟩
  cases hab : a.add b with
  | none =>
    have := add_eq_none.mp hab
    have := c.toNat_lt
    omega
  | some d => rw [toNat_inj.mp ((toNat_of_add hab).trans h.symm)]

theorem exists_add {a b : Balance} (h : a.toNat + b.toNat < 2 ^ 128) :
    ∃ c, a.add b = some c ∧ c.toNat = a.toNat + b.toNat := by
  cases hab : a.add b with
  | none => exact absurd (add_eq_none.mp hab) (Nat.not_le.mpr h)
  | some c => exact ⟨c, rfl, toNat_of_add hab⟩

theorem toNat_subBorrow (a b : Balance) :
    Lib.Bytes.toNat (Lib.Bytes.subBorrow a.value b.value).1 + b.toNat =
      a.toNat + (Lib.Bytes.subBorrow a.value b.value).2 * 2 ^ 128 := by
  have := Lib.Bytes.toNat_subBorrow (length_values a b)
  rwa [a.length_value] at this

theorem sub_eq_none {a b : Balance} : a.sub b = none ↔ a.toNat < b.toNat := by
  have hlen := Lib.Bytes.length_subBorrow (length_values a b)
  have hlt := Lib.Bytes.toNat_lt (Lib.Bytes.subBorrow a.value b.value).1
  have hle := Lib.Bytes.subBorrow_le_one a.value b.value
  have hsum := toNat_subBorrow a b
  rw [hlen, a.length_value] at hlt
  rw [sub, subBuffers, if_neg (not_not.mpr (length_values a b)), toBalance_eq_none]
  by_cases hc : (Lib.Bytes.subBorrow a.value b.value).2 = 0
  · simp only [hc, ne_eq, not_true_eq_false, if_false, hlen, a.length_value, false_iff, not_lt]
    rw [hc] at hsum
    omega
  · simp only [hc, ne_eq, not_false_eq_true, if_true, nullBuffer]
    refine iff_of_true (by decide) ?_
    have h1 : (Lib.Bytes.subBorrow a.value b.value).2 = 1 := by omega
    rw [h1] at hsum
    norm_num [balanceByteLength] at hlt hsum ⊢
    omega

theorem toNat_of_sub {a b c : Balance} (h : a.sub b = some c) :
    c.toNat + b.toNat = a.toNat := by
  rw [sub, subBuffers, if_neg (not_not.mpr (length_values a b)), toBalance_eq_some] at h
  have hsum := toNat_subBorrow a b
  by_cases hc : (Lib.Bytes.subBorrow a.value b.value).2 = 0
  · simp only [hc, ne_eq, not_true_eq_false, if_false] at h
    rw [hc, Nat.zero_mul, Nat.add_zero] at hsum
    rw [toNat, h, hsum]
  · simp only [hc, ne_eq, not_false_eq_true, if_true] at h
    have := c.length_value
    rw [h] at this
    cases this

theorem sub_eq_some {a b c : Balance} : a.sub b = some c ↔ c.toNat + b.toNat = a.toNat := by
  refine ⟨toNat_of_sub, fun h => ?_⟩
  cases hab : a.sub b with
  | none =>
    have := sub_eq_none.mp hab
    omega
  | some d =>
    have hd := toNat_of_sub hab
    rw [toNat_inj.mp (show d.toNat = c.toNat by omega)]

theorem exists_sub {a b : Balance} (h : b.toNat ≤ a.toNat) :
    ∃ c, a.sub b = some c ∧ c.toNat + b.toNat = a.toNat := by
  cases hab : a.sub b with
  | none => exact absurd (sub_eq_none.mp hab) (Nat.not_lt.mpr h)
  | some c => exact ⟨c, rfl, toNat_of_sub hab⟩

theorem greaterThan_iff {a b : Balance} : a.greaterThan b ↔ b.toNat < a.toNat := by
  simp [greaterThan, Lib.Bytes.compare_eq_compare_toNat (length_values a b), toNat,
    Nat.compare_eq_gt]

theorem greaterThanOrEquals_iff {a b : Balance} : a.greaterThanOrEquals b ↔ b.toNat ≤ a.toNat := by
  simp [greaterThanOrEquals, Lib.Bytes.compare_eq_compare_toNat (length_values a b), toNat,
    Nat.compare_eq_gt]
  omega

/-- A product that fits is exact. -/
theorem exists_mul_toTerm {a : Balance} {n : ℕ} (h : a.toNat * n < 2 ^ 128) (hn : n < 2 ^ 128) :
    ∃ c, a.mul (toTerm n) = some c ∧ c.toNat = a.toNat * n := by
  have hterm := length_toTerm n
  have hlen := Lib.Bytes.length_mulRows a.value (toTerm n)
  have hval := Lib.Bytes.toNat_mulRows a.value (toTerm n)
  rw [toNat_toTerm hn] at hval
  rw [a.length_value, hterm] at hlen
  have hsplit := Lib.Bytes.toNat_append
    ((Lib.Bytes.mulRows a.value (toTerm n)).take balanceByteLength)
    ((Lib.Bytes.mulRows a.value (toTerm n)).drop balanceByteLength)
  rw [List.take_append_drop, hval, List.length_drop, hlen, Nat.add_sub_cancel] at hsplit
  have hhigh : Lib.Bytes.toNat
      ((Lib.Bytes.mulRows a.value (toTerm n)).take balanceByteLength) = 0 := by
    by_contra hne
    have : 1 * 256 ^ balanceByteLength ≤ Lib.Bytes.toNat
        ((Lib.Bytes.mulRows a.value (toTerm n)).take balanceByteLength) * 256 ^ balanceByteLength :=
      Nat.mul_le_mul_right _ (Nat.one_le_iff_ne_zero.mpr hne)
    norm_num [balanceByteLength] at this hsplit h
    rw [toNat] at h
    omega
  have hzero : (Lib.Bytes.mulRows a.value (toTerm n)).take balanceByteLength = zeroBalance := by
    apply Lib.Bytes.toNat_inj
    · simp [hlen, zeroBalance]
    · rw [hhigh, zeroBalance, Lib.Bytes.toNat_replicate_zero]
  rw [hhigh, Nat.zero_mul, Nat.zero_add] at hsplit
  refine ⟨⟨(Lib.Bytes.mulRows a.value (toTerm n)).drop balanceByteLength, by simp [hlen]⟩, ?_,
    hsplit.symm⟩
  have hvalid : isBufferValid (toTerm n) balanceByteLength := by simp [isBufferValid, hterm]
  have hlens : ¬(a.value.length ≠ balanceByteLength ∨ (toTerm n).length ≠ balanceByteLength) := by
    simp [a.length_value, hterm]
  rw [mul, if_pos hvalid, toBalance_eq_some, mulBuffers, if_neg hlens, if_neg (not_not.mpr hzero)]

end Balance

/-! ### The constants -/

def balanceOf (n : ℕ) : Balance := ⟨toTerm n, length_toTerm n⟩

@[simp] theorem toNat_balanceFee : balanceFee.toNat = 30000000000000000 := by decide

@[simp] theorem toNat_balanceToStake : balanceToStake.toNat = 300000000000000000 := by
  decide +kernel

@[simp] theorem toNat_balanceZero : balanceZero.toNat = 0 := by decide

theorem balanceFee_mul_ten : balanceFee.mul (toTerm 10) = some balanceToStake := by decide +kernel

@[simp] theorem toNat_balanceOf {n : ℕ} (h : n < 2 ^ 128) : (balanceOf n).toNat = n :=
  toNat_toTerm h

/-! The shares of the fee. -/

def reward75 : Balance := balanceOf 22500000000000000
def reward50 : Balance := balanceOf 15000000000000000
def reward25 : Balance := balanceOf 7500000000000000

@[simp] theorem balanceFee_percentage75 : balanceFee.percentage percent75 = some reward75 := by
  decide +kernel

@[simp] theorem balanceFee_percentage50 : balanceFee.percentage percent50 = some reward50 := by
  decide +kernel

@[simp] theorem balanceFee_percentage25 : balanceFee.percentage percent25 = some reward25 := by
  decide +kernel

@[simp] theorem toNat_reward75 : reward75.toNat = 22500000000000000 := toNat_balanceOf (by norm_num)

@[simp] theorem toNat_reward50 : reward50.toNat = 15000000000000000 := toNat_balanceOf (by norm_num)

@[simp] theorem toNat_reward25 : reward25.toNat = 7500000000000000 := toNat_balanceOf (by norm_num)

theorem reward75_add_reward25 : reward75.toNat + reward25.toNat = balanceFee.toNat := by simp

theorem reward25_add_reward25 : reward25.toNat + reward25.toNat = reward50.toNat := by simp

theorem reward50_add_reward25 : reward50.toNat + reward25.toNat = reward75.toNat := by simp

end SettlementBus
