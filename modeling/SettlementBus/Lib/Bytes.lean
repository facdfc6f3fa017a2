import Mathlib.Tactic.Ring
import Mathlib.Tactic.Linarith
import Mathlib.Order.Compare

/-! Big-endian naturals in byte lists, and schoolbook arithmetic on them. -/

namespace SettlementBus.Lib.Bytes

def toNat : List UInt8 → ℕ
  | [] => 0
  | b :: l => b.toNat * 256 ^ l.length + toNat l

@[simp] theorem toNat_nil : toNat [] = 0 := rfl

theorem toNat_cons (b : UInt8) (l : List UInt8) :
    toNat (b :: l) = b.toNat * 256 ^ l.length + toNat l := rfl

theorem toNat_cons_ofNat {d : ℕ} (h : d < 256) (l : List UInt8) :
    toNat (UInt8.ofNat d :: l) = d * 256 ^ l.length + toNat l := by
  rw [toNat_cons, UInt8.toNat_ofNat', Nat.mod_eq_of_lt h]

theorem toNat_append (l m : List UInt8) :
    toNat (l ++ m) = toNat l * 256 ^ m.length + toNat m := by
  induction l with
  | nil => simp
  | cons b l ih =>
    simp only [List.cons_append, toNat_cons, ih, List.length_append, pow_add]
    ring

@[simp] theorem toNat_replicate_zero (n : ℕ) : toNat (List.replicate n 0) = 0 := by
  induction n with
  | zero => rfl
  | succ n ih => simp [List.replicate_succ, toNat_cons, ih]

theorem toNat_lt (l : List UInt8) : toNat l < 256 ^ l.length := by
  induction l with
  | nil => simp
  | cons b l ih =>
    have hb : b.toNat + 1 ≤ 256 := b.toNat_lt
    calc toNat (b :: l) < b.toNat * 256 ^ l.length + 256 ^ l.length := by
          rw [toNat_cons]
          exact Nat.add_lt_add_left ih _
      _ = (b.toNat + 1) * 256 ^ l.length := by ring
      _ ≤ 256 * 256 ^ l.length := Nat.mul_le_mul_right _ hb
      _ = 256 ^ (b :: l).length := by rw [List.length_cons, pow_succ']

theorem toNat_inj {l m : List UInt8} (hlen : l.length = m.length) (h : toNat l = toNat m) :
    l = m := by
  induction l generalizing m with
  | nil => exact (List.length_eq_zero_iff.mp hlen.symm).symm
  | cons b l ih =>
    cases m with
    | nil => simp at hlen
    | cons c m =>
      have hl : l.length = m.length := by simpa using hlen
      have hpos : 0 < 256 ^ m.length := Nat.pow_pos (by decide)
      have hlt : toNat l < 256 ^ m.length := hl ▸ toNat_lt l
      simp only [toNat_cons, hl] at h
      have hbc : b.toNat = c.toNat := by
        have := congrArg (· / 256 ^ m.length) h
        simpa [Nat.mul_comm _ (256 ^ m.length), Nat.mul_add_div hpos, Nat.div_eq_of_lt hlt,
          Nat.div_eq_of_lt (toNat_lt m)] using this
      rw [hbc] at h
      rw [UInt8.toNat_inj.mp hbc, ih hl (Nat.add_left_cancel h)]

/-- The low `n` bytes of a number. -/
def ofNat : ℕ → ℕ → List UInt8
  | 0, _ => []
  | n + 1, v => ofNat n (v / 256) ++ [UInt8.ofNat v]

@[simp] theorem length_ofNat (n v : ℕ) : (ofNat n v).length = n := by
  induction n generalizing v with
  | zero => rfl
  | succ n ih => simp [ofNat, ih]

@[simp] theorem toNat_ofNat (n v : ℕ) : toNat (ofNat n v) = v % 256 ^ n := by
  induction n generalizing v with
  | zero => simp [ofNat, Nat.mod_one]
  | succ n ih =>
    have hbyte : toNat [UInt8.ofNat v] = v % 256 := by simp [toNat_cons]
    rw [ofNat, toNat_append, ih, hbyte, pow_succ', Nat.mod_mul]
    simp [Nat.add_comm, Nat.mul_comm]

theorem ofNat_toNat (l : List UInt8) : ofNat l.length (toNat l) = l := by
  apply toNat_inj (by simp)
  rw [toNat_ofNat, Nat.mod_eq_of_lt (toNat_lt l)]

/-! ### Addition and subtraction -/

/-- The sum, from the last byte to the first, and the final carry. -/
def addCarry : List UInt8 → List UInt8 → List UInt8 × ℕ
  | a :: as, b :: bs =>
    let (result, carry) := addCarry as bs
    let sum := a.toNat + b.toNat + carry
    (UInt8.ofNat sum :: result, sum / 256)
  | _, _ => ([], 0)

theorem length_addCarry {a b : List UInt8} (h : a.length = b.length) :
    (addCarry a b).1.length = a.length := by
  induction a generalizing b with
  | nil => rfl
  | cons x a ih =>
    cases b with
    | nil => simp at h
    | cons y b => simp [addCarry, ih (by simpa using h)]

theorem toNat_addCarry {a b : List UInt8} (h : a.length = b.length) :
    toNat (addCarry a b).1 + (addCarry a b).2 * 256 ^ a.length = toNat a + toNat b := by
  induction a generalizing b with
  | nil =>
    cases b with
    | nil => rfl
    | cons y b => simp at h
  | cons x a ih =>
    cases b with
    | nil => simp at h
    | cons y b =>
      have hl : a.length = b.length := by simpa using h
      have ih := ih hl
      simp only [addCarry, toNat_cons, length_addCarry hl, List.length_cons, ← hl, pow_succ',
        UInt8.toNat_ofNat']
      generalize addCarry a b = r at ih ⊢
      have hdiv := Nat.div_add_mod (x.toNat + y.toNat + r.2) 256
      norm_num only at hdiv ⊢
      calc _ = (256 * ((x.toNat + y.toNat + r.2) / 256) + (x.toNat + y.toNat + r.2) % 256)
              * 256 ^ a.length + toNat r.1 := by ring
        _ = _ := by
          rw [hdiv]
          linarith

/-- The difference, from the last byte to the first, and the final borrow. -/
def subBorrow : List UInt8 → List UInt8 → List UInt8 × ℕ
  | a :: as, b :: bs =>
    let (result, borrow) := subBorrow as bs
    let diff : ℤ := a.toNat - b.toNat - borrow
    if diff < 0 then (UInt8.ofNat (diff + 256).toNat :: result, 1)
    else (UInt8.ofNat diff.toNat :: result, 0)
  | _, _ => ([], 0)

theorem length_subBorrow {a b : List UInt8} (h : a.length = b.length) :
    (subBorrow a b).1.length = a.length := by
  induction a generalizing b with
  | nil => rfl
  | cons x a ih =>
    cases b with
    | nil => simp at h
    | cons y b =>
      simp only [subBorrow]
      split <;> simp [ih (by simpa using h)]

theorem subBorrow_le_one (a b : List UInt8) : (subBorrow a b).2 ≤ 1 := by
  cases a with
  | nil => simp [subBorrow]
  | cons x a =>
    cases b with
    | nil => simp [subBorrow]
    | cons y b =>
      simp only [subBorrow]
      split <;> simp

theorem toNat_subBorrow {a b : List UInt8} (h : a.length = b.length) :
    toNat (subBorrow a b).1 + toNat b = toNat a + (subBorrow a b).2 * 256 ^ a.length := by
  induction a generalizing b with
  | nil =>
    cases b with
    | nil => rfl
    | cons y b => simp at h
  | cons x a ih =>
    cases b with
    | nil => simp at h
    | cons y b =>
      have hl : a.length = b.length := by simpa using h
      have ih := ih hl
      have hlen := length_subBorrow hl
      have hle := subBorrow_le_one a b
      have hx : x.toNat < 256 := x.toNat_lt
      have hy : y.toNat < 256 := y.toNat_lt
      simp only [subBorrow]
      generalize subBorrow a b = r at ih hlen hle ⊢
      split
      · have hd : ((x.toNat : ℤ) - y.toNat - r.2 + 256).toNat + y.toNat + r.2 = x.toNat + 256 := by
          omega
        have hs : ((x.toNat : ℤ) - y.toNat - r.2 + 256).toNat < 256 := by omega
        rw [toNat_cons_ofNat hs, toNat_cons, toNat_cons, hlen, ← hl, List.length_cons,
          pow_succ' 256]
        generalize ((x.toNat : ℤ) - y.toNat - r.2 + 256).toNat = d at hd hs ⊢
        calc _ = (d + y.toNat) * 256 ^ a.length + (toNat r.1 + toNat b) := by ring
          _ = (d + y.toNat + r.2) * 256 ^ a.length + toNat a := by
            rw [ih]
            ring
          _ = _ := by
            rw [hd]
            ring
      · have hd : ((x.toNat : ℤ) - y.toNat - r.2).toNat + y.toNat + r.2 = x.toNat := by omega
        have hs : ((x.toNat : ℤ) - y.toNat - r.2).toNat < 256 := by omega
        rw [toNat_cons_ofNat hs, toNat_cons, toNat_cons, hlen, ← hl, List.length_cons,
          pow_succ' 256]
        generalize ((x.toNat : ℤ) - y.toNat - r.2).toNat = d at hd hs ⊢
        calc _ = (d + y.toNat) * 256 ^ a.length + (toNat r.1 + toNat b) := by ring
          _ = (d + y.toNat + r.2) * 256 ^ a.length + toNat a := by
            rw [ih]
            ring
          _ = _ := by
            rw [hd]
            ring

/-! ### Comparison -/

/-- Byte by byte, as `Buffer.compare`. -/
def compare : List UInt8 → List UInt8 → Ordering
  | [], [] => .eq
  | [], _ :: _ => .lt
  | _ :: _, [] => .gt
  | a :: as, b :: bs => (Ord.compare a b).then (compare as bs)

theorem compare_eq_compare_toNat {a b : List UInt8} (h : a.length = b.length) :
    compare a b = Ord.compare (toNat a) (toNat b) := by
  induction a generalizing b with
  | nil =>
    cases b with
    | nil => rfl
    | cons y b => simp at h
  | cons x a ih =>
    cases b with
    | nil => simp at h
    | cons y b =>
      have hl : a.length = b.length := by simpa using h
      have ha := toNat_lt a
      have hb := toNat_lt b
      rw [← hl] at hb
      simp only [compare, ih hl, toNat_cons, ← hl]
      have hxy : Ord.compare x y = Ord.compare x.toNat y.toNat := by
        simp [Ord.compare, compareOfLessAndEq, UInt8.lt_iff_toNat_lt, UInt8.toNat_inj]
      rw [hxy]
      rcases lt_trichotomy x.toNat y.toNat with hlt | heq | hgt
      · rw [Nat.compare_eq_lt.mpr hlt, eq_comm]
        refine Nat.compare_eq_lt.mpr ?_
        nlinarith [Nat.mul_le_mul_right (256 ^ a.length) (Nat.succ_le_of_lt hlt)]
      · rw [heq, Nat.compare_eq_eq.mpr rfl]
        show Ord.compare _ _ = _
        rcases lt_trichotomy (toNat a) (toNat b) with h' | h' | h'
        · rw [Nat.compare_eq_lt.mpr h', Nat.compare_eq_lt.mpr (Nat.add_lt_add_left h' _)]
        · rw [h']
          simp
        · rw [Nat.compare_eq_gt.mpr h', Nat.compare_eq_gt.mpr (Nat.add_lt_add_left h' _)]
      · rw [Nat.compare_eq_gt.mpr hgt, eq_comm]
        refine Nat.compare_eq_gt.mpr ?_
        nlinarith [Nat.mul_le_mul_right (256 ^ a.length) (Nat.succ_le_of_lt hgt)]

/-! ### Multiplication -/

/-- One row of the schoolbook product: `acc + x * b`, from the last byte to the first,
and the final carry. -/
def mulAdd (x : UInt8) : List UInt8 → List UInt8 → List UInt8 × ℕ
  | b :: bs, r :: rs =>
    let (result, carry) := mulAdd x bs rs
    let mul := x.toNat * b.toNat + r.toNat + carry
    (UInt8.ofNat mul :: result, mul / 256)
  | _, _ => ([], 0)

theorem length_mulAdd (x : UInt8) {b r : List UInt8} (h : b.length = r.length) :
    (mulAdd x b r).1.length = b.length := by
  induction b generalizing r with
  | nil => rfl
  | cons y b ih =>
    cases r with
    | nil => simp at h
    | cons z r => simp [mulAdd, ih (by simpa using h)]

theorem mulAdd_carry_lt (x : UInt8) (b r : List UInt8) : (mulAdd x b r).2 < 256 := by
  induction b generalizing r with
  | nil => simp [mulAdd]
  | cons y b ih =>
    cases r with
    | nil => simp [mulAdd]
    | cons z r =>
      have hmul : x.toNat * y.toNat ≤ 255 * 255 :=
        Nat.mul_le_mul (Nat.le_of_lt_succ x.toNat_lt) (Nat.le_of_lt_succ y.toNat_lt)
      have hz : z.toNat < 256 := z.toNat_lt
      have hc := ih r
      simp only [mulAdd]
      omega

theorem toNat_mulAdd (x : UInt8) {b r : List UInt8} (h : b.length = r.length) :
    toNat (mulAdd x b r).1 + (mulAdd x b r).2 * 256 ^ b.length =
      x.toNat * toNat b + toNat r := by
  induction b generalizing r with
  | nil =>
    cases r with
    | nil => rfl
    | cons z r => simp at h
  | cons y b ih =>
    cases r with
    | nil => simp at h
    | cons z r =>
      have hl : b.length = r.length := by simpa using h
      have ih := ih hl
      have hlen := length_mulAdd x hl
      simp only [mulAdd]
      generalize mulAdd x b r = p at ih hlen ⊢
      have hdiv := Nat.div_add_mod (x.toNat * y.toNat + z.toNat + p.2) 256
      rw [toNat_cons, UInt8.toNat_ofNat', toNat_cons, toNat_cons, hlen, ← hl, List.length_cons,
        pow_succ' 256]
      norm_num only at hdiv ⊢
      calc _ = (256 * ((x.toNat * y.toNat + z.toNat + p.2) / 256)
              + (x.toNat * y.toNat + z.toNat + p.2) % 256) * 256 ^ b.length + toNat p.1 := by ring
        _ = x.toNat * (y.toNat * 256 ^ b.length) + z.toNat * 256 ^ b.length
              + (toNat p.1 + p.2 * 256 ^ b.length) := by
          rw [hdiv]
          ring
        _ = _ := by
          rw [ih]
          ring

/-- The rows are added from the last byte of `a` to the first, each one place further left. -/
def mulRows (a b : List UInt8) : List UInt8 :=
  a.foldr (fun x acc =>
    let (row, carry) := mulAdd x b (acc.take b.length)
    UInt8.ofNat carry :: row ++ acc.drop b.length) (List.replicate b.length 0)

theorem mulRows_cons (x : UInt8) (a b : List UInt8) :
    mulRows (x :: a) b = UInt8.ofNat (mulAdd x b ((mulRows a b).take b.length)).2 ::
      (mulAdd x b ((mulRows a b).take b.length)).1 ++ (mulRows a b).drop b.length := rfl

theorem length_mulRows (a b : List UInt8) : (mulRows a b).length = a.length + b.length := by
  induction a with
  | nil => simp [mulRows]
  | cons x a ih =>
    have h : b.length = ((mulRows a b).take b.length).length := by simp [ih]
    have hrow := length_mulAdd x h
    simp only [mulRows_cons, List.cons_append, List.length_cons, List.length_append, hrow,
      List.length_drop, ih]
    omega

theorem toNat_mulRows (a b : List UInt8) : toNat (mulRows a b) = toNat a * toNat b := by
  induction a with
  | nil => simp [mulRows]
  | cons x a ih =>
    have hlen := length_mulRows a b
    have h : b.length = ((mulRows a b).take b.length).length := by simp [hlen]
    have hsplit := toNat_append ((mulRows a b).take b.length) ((mulRows a b).drop b.length)
    rw [List.take_append_drop, ih, List.length_drop, hlen, Nat.add_sub_cancel] at hsplit
    have hrow := toNat_mulAdd x h
    rw [mulRows_cons, List.cons_append, toNat_cons_ofNat (mulAdd_carry_lt x b _), toNat_append,
      List.length_append, length_mulAdd x h, List.length_drop, hlen, Nat.add_sub_cancel,
      toNat_cons, pow_add]
    calc _ = (toNat (mulAdd x b ((mulRows a b).take b.length)).1
            + (mulAdd x b ((mulRows a b).take b.length)).2 * 256 ^ b.length) * 256 ^ a.length
            + toNat ((mulRows a b).drop b.length) := by ring
      _ = x.toNat * toNat b * 256 ^ a.length + toNat a * toNat b := by
        rw [hrow, hsplit]
        ring
      _ = _ := by ring

end SettlementBus.Lib.Bytes
