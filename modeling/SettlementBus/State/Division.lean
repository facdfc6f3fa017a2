import SettlementBus.Lib.Division
import SettlementBus.State.Balance

/-! The division of `balance.js` divides. -/

namespace SettlementBus

open Lib

variable {a b remainder divisor dividend : Buffer}

theorem length_shiftLeft1 (l : Buffer) : (shiftLeft1 l).1.length = l.length := by
  induction l with
  | nil => rfl
  | cons x l ih => simp [shiftLeft1, ih]

theorem shiftLeft1_le_one (l : Buffer) : (shiftLeft1 l).2 ≤ 1 := by
  induction l with
  | nil => simp [shiftLeft1]
  | cons x l ih =>
    have hx : x.toNat < 256 := x.toNat_lt
    simp only [shiftLeft1]
    omega

theorem toNat_shiftLeft1 (l : Buffer) :
    Bytes.toNat (shiftLeft1 l).1 + (shiftLeft1 l).2 * 256 ^ l.length = 2 * Bytes.toNat l := by
  induction l with
  | nil => rfl
  | cons x l ih =>
    have hlen := length_shiftLeft1 l
    simp only [shiftLeft1]
    generalize shiftLeft1 l = r at ih hlen ⊢
    have hdiv := Nat.div_add_mod (2 * x.toNat + r.2) 256
    rw [Bytes.toNat_cons, UInt8.toNat_ofNat', Bytes.toNat_cons, hlen, List.length_cons,
      pow_succ' 256]
    norm_num only at hdiv ⊢
    calc _ = (256 * ((2 * x.toNat + r.2) / 256) + (2 * x.toNat + r.2) % 256) * 256 ^ l.length +
            Bytes.toNat r.1 := by ring
      _ = 2 * (x.toNat * 256 ^ l.length) + (Bytes.toNat r.1 + r.2 * 256 ^ l.length) := by
        rw [hdiv]
        ring
      _ = _ := by
        rw [ih]
        ring

/-- A remainder that takes in the next bit of the dividend. -/
def shiftIn (remainder : Buffer) (bitVal : UInt8) : Buffer :=
  let shifted := (shiftLeft1 remainder).1
  shifted.take 15 ++ (shifted.drop 15).map (· ||| bitVal)

theorem length_shiftIn (h : remainder.length = balanceByteLength) (bitVal : UInt8) :
    (shiftIn remainder bitVal).length = balanceByteLength := by
  simp [shiftIn, length_shiftLeft1, h, balanceByteLength]

/-- No bit is lost below `2 ^ 127`. -/
theorem toNat_shiftIn {bitVal : UInt8} (h : remainder.length = balanceByteLength)
    (hlt : Bytes.toNat remainder < 2 ^ 127) (hbit : bitVal.toNat ≤ 1) :
    Bytes.toNat (shiftIn remainder bitVal) = 2 * Bytes.toNat remainder + bitVal.toNat := by
  have hshift := toNat_shiftLeft1 remainder
  have hle := shiftLeft1_le_one remainder
  have hlen := length_shiftLeft1 remainder
  rw [h] at hshift hlen
  have hcarry : (shiftLeft1 remainder).2 = 0 := by
    by_contra hne
    have h1 : (shiftLeft1 remainder).2 = 1 := by omega
    rw [h1] at hshift
    norm_num [balanceByteLength] at hshift
    omega
  rw [hcarry, Nat.zero_mul, Nat.add_zero] at hshift
  obtain ⟨last, hlast⟩ : ∃ last, (shiftLeft1 remainder).1.drop 15 = [last] :=
    List.length_eq_one_iff.mp (by simp [hlen, balanceByteLength])
  have hsplit : Bytes.toNat (shiftLeft1 remainder).1 =
      Bytes.toNat ((shiftLeft1 remainder).1.take 15) * 256 + last.toNat := by
    have h := Bytes.toNat_append ((shiftLeft1 remainder).1.take 15) [last]
    rw [← hlast, List.take_append_drop, hlast] at h
    simpa [Bytes.toNat_cons] using h
  -- the shifted number is even, so its last bit is free
  have hor : (last ||| bitVal).toNat = last.toNat + bitVal.toNat := by
    have hdvd : 2 ^ 1 * (last.toNat / 2) = last.toNat := by omega
    rw [UInt8.toNat_or, ← hdvd,
      ← Nat.two_pow_add_eq_or_of_lt (show bitVal.toNat < 2 ^ 1 by omega)]
  have happend : Bytes.toNat (shiftIn remainder bitVal) =
      Bytes.toNat ((shiftLeft1 remainder).1.take 15) * 256 + (last ||| bitVal).toNat := by
    rw [shiftIn, hlast, Bytes.toNat_append]
    simp [Bytes.toNat_cons]
  omega

theorem subBuffers_eq (ha : a.length = balanceByteLength) (hb : b.length = balanceByteLength)
    (hle : Bytes.toNat b ≤ Bytes.toNat a) :
    (subBuffers a b).length = balanceByteLength ∧
      Bytes.toNat (subBuffers a b) = Bytes.toNat a - Bytes.toNat b := by
  obtain ⟨c, hc, hval⟩ := Balance.exists_sub (a := ⟨a, ha⟩) (b := ⟨b, hb⟩) hle
  have hvalue := toBalance_eq_some.mp hc
  refine ⟨hvalue ▸ c.length_value, ?_⟩
  rw [← hvalue]
  exact Nat.eq_sub_of_add_eq hval

theorem compare_ne_lt (ha : a.length = balanceByteLength) (hb : b.length = balanceByteLength) :
    Bytes.compare a b ≠ .lt ↔ Bytes.toNat b ≤ Bytes.toNat a := by
  rw [Bytes.compare_eq_compare_toNat (ha.trans hb.symm), Ne, Nat.compare_eq_lt, Nat.not_lt]

/-- Where the bit `pos` of the dividend is taken in, with its digit of the quotient. -/
structure Divided (dividend divisor quotient remainder : Buffer) (pos : ℕ) : Prop where
  length_remainder : remainder.length = balanceByteLength
  restoring : Restoring (Bytes.toNat dividend) (Bytes.toNat divisor) pos (Bytes.toNat quotient)
    (Bytes.toNat remainder)

namespace Divided

variable {pre post pre' post' : Buffer} {x q : UInt8} {i : ℕ}

/-- One round, on the bit `i` of a byte of the dividend and of its byte of the quotient. -/
theorem step (hi : i < 8) (hlen : (pre ++ x :: post).length = balanceByteLength)
    (hdivisor : divisor.length = balanceByteLength) (hpost : post'.length = post.length)
    (h : Divided (pre ++ x :: post) divisor (pre' ++ q :: post') remainder
      (8 * post.length + (i + 1))) :
    let next := shiftIn remainder ((x >>> UInt8.ofNat i) &&& 1)
    next.length = balanceByteLength ∧
      (Bytes.compare next divisor ≠ .lt → Divided (pre ++ x :: post) divisor
        (pre' ++ (q ||| (1 <<< UInt8.ofNat i)) :: post') (subBuffers next divisor)
        (8 * post.length + i)) ∧
      (¬Bytes.compare next divisor ≠ .lt → Divided (pre ++ x :: post) divisor
        (pre' ++ q :: post') next (8 * post.length + i)) := by
  intro next
  have hdividend : Bytes.toNat (pre ++ x :: post) < 2 ^ (127 + 1) := by
    have h := Bytes.toNat_lt (pre ++ x :: post)
    rwa [hlen] at h
  have hsmall := h.restoring.remainder_lt hdividend
  have hbit : ((x >>> UInt8.ofNat i) &&& 1).toNat =
      Bytes.toNat (pre ++ x :: post) / 2 ^ (8 * post.length + i) % 2 := Bytes.bit_eq hi
  have hle : ((x >>> UInt8.ofNat i) &&& 1).toNat ≤ 1 := by
    rw [hbit]
    exact Nat.le_of_lt_succ (Nat.mod_lt _ Nat.two_pos)
  have hnext : next.length = balanceByteLength := length_shiftIn h.length_remainder _
  have hvalue : Bytes.toNat next = 2 * Bytes.toNat remainder +
      Bytes.toNat (pre ++ x :: post) / 2 ^ (8 * post.length + i) % 2 := by
    rw [toNat_shiftIn h.length_remainder hsmall hle, hbit]
  rw [compare_ne_lt hnext hdivisor]
  refine ⟨hnext, fun hge => ?_, fun hlt => ?_⟩
  · obtain ⟨hsublen, hsub⟩ := subBuffers_eq hnext hdivisor hge
    have hset := Bytes.toNat_setBit hi (hpost ▸ h.restoring.dvd)
    refine ⟨hsublen, ?_⟩
    rw [hset, hsub, hvalue, hpost]
    exact h.restoring.subtract (hvalue ▸ hge)
  · refine ⟨hnext, ?_⟩
    rw [hvalue]
    exact h.restoring.keep (hvalue ▸ Nat.not_le.mp hlt)

/-- The rounds of one byte. -/
theorem divByte (hlen : (pre ++ x :: post).length = balanceByteLength)
    (hdivisor : divisor.length = balanceByteLength) (hpost : post'.length = post.length)
    (h : Divided (pre ++ x :: post) divisor (pre' ++ 0 :: post') remainder
      (8 * post.length + 8)) :
    Divided (pre ++ x :: post) divisor
      (pre' ++ (divByte divisor x remainder).1 :: post') (divByte divisor x remainder).2
        (8 * post.length) := by
  have key : ∀ i ≤ 8, ∀ (q : UInt8) (remainder : Buffer),
      Divided (pre ++ x :: post) divisor (pre' ++ q :: post') remainder (8 * post.length + i) →
        let r := ((List.range i).reverse.map UInt8.ofNat).foldl
          (fun s bitIndex =>
            let shifted := (shiftLeft1 s.2).1
            let bitVal := (x >>> bitIndex) &&& 1
            let remainder := shifted.take 15 ++ (shifted.drop 15).map (· ||| bitVal)
            if Bytes.compare remainder divisor ≠ .lt then
              (s.1 ||| (1 <<< bitIndex), subBuffers remainder divisor)
            else (s.1, remainder)) (q, remainder)
        Divided (pre ++ x :: post) divisor (pre' ++ r.1 :: post') r.2 (8 * post.length) := by
    intro i hi
    induction i with
    | zero => exact fun q remainder h => h
    | succ i ih =>
      intro q remainder h
      obtain ⟨-, hge, hlt⟩ := h.step hi hlen hdivisor hpost
      simp only [List.range_succ, List.reverse_append, List.reverse_cons, List.reverse_nil,
        List.nil_append, List.singleton_append, List.map_cons, List.foldl_cons]
      split
      · exact ih (Nat.le_of_succ_le hi) _ _ (hge ‹_›)
      · exact ih (Nat.le_of_succ_le hi) _ _ (hlt ‹_›)
  exact key 8 (Nat.le_refl 8) 0 remainder h

end Divided

/-- What the division does with a byte of the dividend. -/
def divRound (divisor : Buffer) (s : Buffer × Buffer) (byte : UInt8) : Buffer × Buffer :=
  (s.1 ++ [(divByte divisor byte s.2).1], (divByte divisor byte s.2).2)

theorem foldl_divRound (pre post : Buffer) (quotient remainder : Buffer)
    (hlen : (pre ++ post).length = balanceByteLength)
    (hdivisor : divisor.length = balanceByteLength)
    (h : Divided (pre ++ post) divisor (quotient ++ List.replicate post.length 0) remainder
      (8 * post.length)) :
    (post.foldl (divRound divisor) (quotient, remainder)).1.length =
        quotient.length + post.length ∧
      Divided (pre ++ post) divisor (post.foldl (divRound divisor) (quotient, remainder)).1
        (post.foldl (divRound divisor) (quotient, remainder)).2 0 := by
  induction post generalizing pre quotient remainder with
  | nil => simpa using h
  | cons x post ih =>
    rw [List.length_cons, List.replicate_succ, Nat.mul_succ] at h
    have hstep := h.divByte hlen hdivisor List.length_replicate
    have hpre : pre ++ x :: post = (pre ++ [x]) ++ post := by simp
    have hquot : ∀ q, quotient ++ q :: List.replicate post.length 0 =
        (quotient ++ [q]) ++ List.replicate post.length 0 := by simp
    rw [hpre, hquot] at hstep
    rw [hpre] at hlen ⊢
    obtain ⟨hlength, hdivided⟩ := ih (pre ++ [x]) _ _ hlen hstep
    rw [List.foldl_cons, divRound]
    refine ⟨hlength.trans ?_, hdivided⟩
    simp only [List.length_append, List.length_cons, List.length_nil]
    omega

theorem divBuffers_eq_foldl (hlens : ¬(dividend.length ≠ balanceByteLength ∨
    divisor.length ≠ balanceByteLength)) (hzero : ¬divisor = zeroBalance) :
    divBuffers dividend divisor = (dividend.foldl (divRound divisor) ([], zeroBalance)).1 := by
  rw [divBuffers, if_neg hlens, if_neg hzero]
  refine congrArg Prod.fst (congrArg (fun f => List.foldl f _ _) ?_)
  funext s x
  obtain ⟨quotient, remainder⟩ := s
  rw [divRound]

theorem zeroBalance_toNat : Bytes.toNat zeroBalance = 0 := Bytes.toNat_replicate_zero _

theorem eq_zeroBalance_iff (hb : b.length = balanceByteLength) :
    b = zeroBalance ↔ Bytes.toNat b = 0 := by
  refine ⟨fun h => h ▸ zeroBalance_toNat, fun h => ?_⟩
  exact Bytes.toNat_inj (hb.trans rfl) (h.trans zeroBalance_toNat.symm)

/-- The division starts with no bit taken in. -/
theorem divided_start (ha : dividend.length = balanceByteLength) (hne : Bytes.toNat divisor ≠ 0) :
    Divided dividend divisor zeroBalance zeroBalance (8 * balanceByteLength) := by
  have hlt := Bytes.toNat_lt dividend
  rw [ha] at hlt
  refine ⟨rfl, ?_⟩
  rw [zeroBalance_toNat]
  exact .start hlt (Nat.pos_of_ne_zero hne)

theorem divBuffers_eq (ha : dividend.length = balanceByteLength)
    (hb : divisor.length = balanceByteLength) (hne : Bytes.toNat divisor ≠ 0) :
    (divBuffers dividend divisor).length = balanceByteLength ∧
      Bytes.toNat (divBuffers dividend divisor) =
        Bytes.toNat dividend / Bytes.toNat divisor := by
  have hzero : ¬divisor = zeroBalance := (eq_zeroBalance_iff hb).not.mpr hne
  have hlens : ¬(dividend.length ≠ balanceByteLength ∨ divisor.length ≠ balanceByteLength) := by
    simp [ha, hb]
  have hstart := divided_start ha hne
  have hzeros : ([] : Buffer) ++ List.replicate dividend.length 0 = zeroBalance := by
    rw [ha]
    rfl
  rw [← ha] at hstart
  obtain ⟨hlength, hdivided⟩ :=
    foldl_divRound [] dividend [] zeroBalance ha hb (hzeros ▸ hstart)
  rw [List.length_nil, Nat.zero_add] at hlength
  rw [divBuffers_eq_foldl hlens hzero]
  exact ⟨hlength.trans ha, hdivided.restoring.quotient⟩

end SettlementBus
