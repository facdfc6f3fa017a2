import SettlementBus.Lib.Bytes

/-! Restoring division, bit by bit, and the bits of a byte list. -/

namespace SettlementBus.Lib

/-- The division of `n` by `d` before the bit `pos - 1` of `n` is taken in: `q` holds the quotient
of the bits so far in its high bits, `r` is their remainder. -/
structure Restoring (n d pos q r : ℕ) : Prop where
  dvd : 2 ^ pos ∣ q
  eq : n / 2 ^ pos = q / 2 ^ pos * d + r
  lt : r < d

namespace Restoring

variable {n d pos q r : ℕ}

theorem start (hn : n < 2 ^ pos) (hd : 0 < d) : Restoring n d pos 0 0 where
  dvd := Nat.dvd_zero _
  eq := by rw [Nat.div_eq_of_lt hn, Nat.zero_div, Nat.zero_mul]
  lt := hd

theorem quotient (h : Restoring n d 0 q r) : q = n / d := by
  have heq := h.eq
  rw [pow_zero, Nat.div_one, Nat.div_one] at heq
  rw [heq, Nat.mul_comm, Nat.mul_add_div (Nat.zero_lt_of_lt h.lt), Nat.div_eq_of_lt h.lt,
    Nat.add_zero]

/-- The remainder never needs the bit that a shift drops. -/
theorem remainder_lt {w : ℕ} (h : Restoring n d (pos + 1) q r) (hn : n < 2 ^ (w + 1)) :
    r < 2 ^ w := by
  have hle : r ≤ n / 2 ^ (pos + 1) := by
    rw [h.eq]
    exact Nat.le_add_left r _
  have hle' : n / 2 ^ (pos + 1) ≤ n / 2 :=
    Nat.div_le_div_left (Nat.le_self_pow (Nat.succ_ne_zero pos) 2) Nat.two_pos
  omega

theorem prefix_eq (h : Restoring n d (pos + 1) q r) :
    n / 2 ^ pos = q / 2 ^ pos * d + (2 * r + n / 2 ^ pos % 2) := by
  obtain ⟨k, rfl⟩ := h.dvd
  have hn : n / 2 ^ pos / 2 = k * d + r := by
    rw [Nat.div_div_eq_div_mul, ← pow_succ, h.eq, Nat.mul_div_cancel_left k (Nat.two_pow_pos _)]
  have hq : 2 ^ (pos + 1) * k / 2 ^ pos = 2 * k := by
    rw [pow_succ, Nat.mul_assoc, Nat.mul_div_cancel_left _ (Nat.two_pow_pos pos)]
  have hsplit := Nat.div_add_mod (n / 2 ^ pos) 2
  rw [hn] at hsplit
  rw [hq]
  calc n / 2 ^ pos = 2 * (k * d + r) + n / 2 ^ pos % 2 := hsplit.symm
    _ = 2 * k * d + (2 * r + n / 2 ^ pos % 2) := by ring

theorem keep (h : Restoring n d (pos + 1) q r) (hlt : 2 * r + n / 2 ^ pos % 2 < d) :
    Restoring n d pos q (2 * r + n / 2 ^ pos % 2) where
  dvd := (pow_dvd_pow 2 (Nat.le_succ pos)).trans h.dvd
  eq := h.prefix_eq
  lt := hlt

theorem subtract (h : Restoring n d (pos + 1) q r) (hle : d ≤ 2 * r + n / 2 ^ pos % 2) :
    Restoring n d pos (q + 2 ^ pos) (2 * r + n / 2 ^ pos % 2 - d) where
  dvd := Nat.dvd_add ((pow_dvd_pow 2 (Nat.le_succ pos)).trans h.dvd) (Nat.dvd_refl _)
  eq := by
    have heq := h.prefix_eq
    rw [Nat.add_div_right q (Nat.two_pow_pos pos), Nat.succ_mul]
    omega
  lt := by
    have hlt := h.lt
    have hbit := Nat.mod_lt (n / 2 ^ pos) Nat.two_pos
    omega

end Restoring

namespace Bytes

variable {l pre post : List UInt8} {x : UInt8} {b : ℕ}

theorem toNat_append_cons : toNat (pre ++ x :: post) =
    (toNat pre * 256 + x.toNat) * 256 ^ post.length + toNat post := by
  rw [toNat_append, toNat_cons, List.length_cons, pow_succ']
  ring

/-- A bit of a number, read from the byte that holds it. -/
theorem bit_eq (hb : b < 8) :
    ((x >>> UInt8.ofNat b) &&& 1).toNat =
      toNat (pre ++ x :: post) / 2 ^ (8 * post.length + b) % 2 := by
  have hpost : 0 < 256 ^ post.length := Nat.pow_pos (by decide)
  have hpow : 2 ^ (8 * post.length + b) = 256 ^ post.length * 2 ^ b := by
    rw [pow_add, pow_mul]
    rfl
  have hhigh : toNat (pre ++ x :: post) / 256 ^ post.length = toNat pre * 256 + x.toNat := by
    rw [toNat_append_cons, Nat.mul_comm, Nat.mul_add_div hpost, Nat.div_eq_of_lt (toNat_lt post),
      Nat.add_zero]
  have hbyte : (toNat pre * 256 + x.toNat) / 2 ^ b % 2 = x.toNat / 2 ^ b % 2 := by
    have h256 : toNat pre * 256 = 2 ^ b * (2 * (2 ^ (7 - b) * toNat pre)) := by
      rw [← Nat.mul_assoc 2, ← pow_succ', ← Nat.mul_assoc, ← pow_add,
        show b + (7 - b + 1) = 8 by omega, Nat.mul_comm]
      rfl
    rw [h256, Nat.mul_add_div (Nat.two_pow_pos b), Nat.mul_add_mod]
  have hread : ((x >>> UInt8.ofNat b) &&& 1).toNat = x.toNat / 2 ^ b % 2 := by
    rw [UInt8.toNat_and, UInt8.toNat_shiftRight, UInt8.toNat_ofNat', UInt8.toNat_one,
      Nat.and_one_is_mod, Nat.shiftRight_eq_div_pow]
    congr 3
    omega
  rw [hpow, ← Nat.div_div_eq_div_mul, hhigh, hbyte, hread]

/-- Setting a bit below which the number has no bit. -/
theorem toNat_setBit (hb : b < 8) (h : 2 ^ (8 * post.length + b + 1) ∣ toNat (pre ++ x :: post)) :
    toNat (pre ++ (x ||| (1 <<< UInt8.ofNat b)) :: post) =
      toNat (pre ++ x :: post) + 2 ^ (8 * post.length + b) := by
  have hpow : ∀ b, 2 ^ (8 * post.length + b) = 2 ^ b * 256 ^ post.length := by
    intro b
    rw [pow_add, pow_mul, Nat.mul_comm]
    rfl
  rw [Nat.add_assoc, hpow] at h
  -- nothing is set below the bit, in the bytes after it
  have hpost : toNat post = 0 := by
    have hdvd := (Nat.dvd_mul_left _ _).trans h
    rw [toNat_append_cons] at hdvd
    exact Nat.eq_zero_of_dvd_of_lt ((Nat.dvd_add_right (Nat.dvd_mul_left _ _)).mp hdvd)
      (toNat_lt post)
  -- nor in its own byte
  have hx : 2 ^ (b + 1) ∣ x.toNat := by
    rw [toNat_append_cons, hpost, Nat.add_zero] at h
    have hdvd := Nat.dvd_of_mul_dvd_mul_right (Nat.pow_pos (by decide)) h
    refine (Nat.dvd_add_right ?_).mp hdvd
    refine (pow_dvd_pow 2 (show b + 1 ≤ 8 by omega)).trans (Nat.dvd_mul_left _ _)
  have hset : (x ||| (1 <<< UInt8.ofNat b)).toNat = x.toNat + 2 ^ b := by
    obtain ⟨k, hk⟩ := hx
    have hshift : ((1 : UInt8) <<< UInt8.ofNat b).toNat = 2 ^ b := by
      have key : ∀ b : Fin 8, ((1 : UInt8) <<< UInt8.ofNat b).toNat = 2 ^ b.val := by decide
      exact key ⟨b, hb⟩
    rw [UInt8.toNat_or, hshift, hk,
      ← Nat.two_pow_add_eq_or_of_lt (Nat.pow_lt_pow_right (by decide) (Nat.lt_succ_self b))]
  rw [toNat_append_cons, toNat_append_cons, hset, hpow]
  ring

end Bytes

end SettlementBus.Lib
