import SettlementBus.State.Division
import SettlementBus.State.Memory

/-! The arithmetic of `balance.js` on buffers in memory computes that of the naturals. -/

namespace SettlementBus.Memory

open Lib HeapM Exec

variable {globals : Globals} {h h' : Heap} {p q : Ptr} {a b : Buffer} {i n : ℕ}

@[simp] theorem exec_length : (length p).exec h = (.ok (h.read p).length, h) := rfl

theorem and_255 (n : ℕ) : UInt8.ofNat (n &&& 255) = UInt8.ofNat n := by
  rw [← UInt8.toNat_inj, UInt8.toNat_ofNat', UInt8.toNat_ofNat', Nat.and_two_pow_sub_one_eq_mod n 8,
    Nat.mod_mod]

theorem shiftRight_8 (n : ℕ) : n >>> 8 = n / 256 := Nat.shiftRight_eq_div_pow n 8

/-! ### The loops -/

theorem exec_shiftLeft1 (hp : h.Holds p a) (ha : a.length = balanceByteLength) :
    (shiftLeft1 p).exec h = (.ok h.length, h ++ [(SettlementBus.shiftLeft1 a).1]) := by
  have hstart : SettlementBus.shiftLeft1 (a.drop balanceByteLength) = ([], 0) := by
    rw [← ha, List.drop_length]
    rfl
  rw [shiftLeft1, exec_bind, exec_alloc]
  dsimp only
  rw [exec_bind, exec_digits_fresh (g := fun i => SettlementBus.shiftLeft1 (a.drop i)) hstart]
  · rfl
  · intro i hi
    rw [← ha] at hi
    have hcarry := shiftLeft1_le_one (a.drop (i + 1))
    have hor : (a[i].toNat <<< 1) ||| (SettlementBus.shiftLeft1 (a.drop (i + 1))).2 =
        2 * a[i].toNat + (SettlementBus.shiftLeft1 (a.drop (i + 1))).2 := by
      rw [Nat.shiftLeft_eq, Nat.mul_comm]
      exact (Nat.two_pow_add_eq_or_of_lt (i := 1) (Nat.lt_succ_of_le hcarry) _).symm
    rw [List.drop_eq_getElem_cons hi]
    refine ⟨_, rfl, fun b => ?_⟩
    simp only [exec_bind, exec_load_of_holds hp hi, exec_pure, hor, and_255, shiftRight_8,
      SettlementBus.shiftLeft1]

/-- The program changes no block and returns a pointer to these bytes. -/
def Fills (prog : HeapM Ptr) (h : Heap) (out : Buffer) : Prop :=
  ∃ p h', prog.exec h = (.ok p, h ++ h') ∧ Heap.Holds (h ++ h') p out

theorem Globals.Loaded.append (hg : globals.Loaded h) (h' : Heap) : globals.Loaded (h ++ h') where
  nullBuffer := holds_append hg.nullBuffer
  zeroBalance := holds_append hg.zeroBalance
  percentageTerm := holds_append hg.percentageTerm

theorem fills_nullBuffer (hg : globals.Loaded h) : Fills (pure globals.nullBuffer) h nullBuffer :=
  ⟨globals.nullBuffer, [], by simp, by simpa using hg.nullBuffer⟩

section

variable {digit : UInt8 → UInt8 → ℕ → UInt8 × ℕ} {f : Buffer → Buffer → Buffer × ℕ}

theorem exec_digitwise (hnil : f [] [] = ([], 0)) (hcons : ∀ x y a b, f (x :: a) (y :: b) =
      ((digit x y (f a b).2).1 :: (f a b).1, (digit x y (f a b).2).2))
    (hp : h.Holds p a) (hq : h.Holds q b) (hlen : a.length = b.length) :
    (digitwise globals digit p q).exec h =
      (.ok (if (f a b).2 ≠ 0 then globals.nullBuffer else h.length), h ++ [(f a b).1]) := by
  have hloop : (digits h.length 0 (fun i carry => do
        return digit (← load p i) (← load q i) carry) a.length 0).exec
      (h ++ [List.replicate a.length 0]) = (.ok (f a b).2, h ++ [(f a b).1]) := by
    refine exec_digits_fresh (g := fun i => f (a.drop i) (b.drop i)) ?_ ?_
    · rw [List.drop_length, hlen, List.drop_length, hnil]
    · intro i hi
      have hi' : i < b.length := hlen ▸ hi
      rw [List.drop_eq_getElem_cons hi, List.drop_eq_getElem_cons hi', hcons]
      refine ⟨_, rfl, fun _ => ?_⟩
      simp only [exec_bind, exec_load_of_holds hp hi, exec_load_of_holds hq hi', exec_pure]
  simp only [digitwise, exec_bind, exec_length, read_of_holds hp, read_of_holds hq, hlen,
    ne_eq, not_true_eq_false, if_false, exec_alloc]
  simp only [← hlen, read_append hp, hloop]
  split <;> rfl

theorem fills_digitwise (hnil : f [] [] = ([], 0)) (hcons : ∀ x y a b, f (x :: a) (y :: b) =
      ((digit x y (f a b).2).1 :: (f a b).1, (digit x y (f a b).2).2))
    (hg : globals.Loaded h) (hp : h.Holds p a) (hq : h.Holds q b) :
    Fills (digitwise globals digit p q) h (if a.length ≠ b.length then nullBuffer
      else if (f a b).2 ≠ 0 then nullBuffer else (f a b).1) := by
  by_cases hlen : a.length = b.length
  · rw [if_neg (not_not.mpr hlen), Fills, exec_digitwise hnil hcons hp hq hlen]
    split
    · exact ⟨_, _, rfl, holds_append hg.nullBuffer⟩
    · exact ⟨_, _, rfl, holds_length⟩
  · rw [if_pos hlen]
    have hexec : (digitwise globals digit p q).exec h =
        (pure globals.nullBuffer : HeapM Ptr).exec h := by
      simp [digitwise, exec_bind, read_of_holds hp, read_of_holds hq, hlen]
    rw [Fills, hexec]
    exact fills_nullBuffer hg

end

theorem fills_addBuffers (hg : globals.Loaded h) (hp : h.Holds p a) (hq : h.Holds q b) :
    Fills (addBuffers globals p q) h (SettlementBus.addBuffers a b) := by
  refine fills_digitwise (f := Bytes.addCarry) rfl (fun x y a b => ?_) hg hp hq
  simp only [and_255, shiftRight_8, Bytes.addCarry]

theorem subBorrow_cons (x y : UInt8) (a b : Buffer) : Bytes.subBorrow (x :: a) (y :: b) =
    (let r := Bytes.subBorrow a b
    let diff : ℤ := x.toNat - y.toNat - r.2
    let digit := if diff < 0 then (UInt8.ofNat (diff + 256).toNat, 1) else
      (UInt8.ofNat diff.toNat, 0)
    (digit.1 :: r.1, digit.2)) := by
  simp only [Bytes.subBorrow]
  split <;> rfl

theorem fills_subBuffers (hg : globals.Loaded h) (hp : h.Holds p a) (hq : h.Holds q b) :
    Fills (subBuffers globals p q) h (SettlementBus.subBuffers a b) :=
  fills_digitwise (f := Bytes.subBorrow) rfl subBorrow_cons hg hp hq

theorem exec_subBuffers (hp : h.Holds p a) (hq : h.Holds q b) (ha : a.length = balanceByteLength)
    (hb : b.length = balanceByteLength) (hle : Bytes.toNat b ≤ Bytes.toNat a) :
    (subBuffers globals p q).exec h = (.ok h.length, h ++ [SettlementBus.subBuffers a b]) := by
  have hlength := (subBuffers_eq ha hb hle).1
  rw [SettlementBus.subBuffers, if_neg (not_not.mpr (ha.trans hb.symm))] at hlength ⊢
  dsimp only at hlength ⊢
  split at hlength
  case isTrue => cases hlength
  case isFalse hborrow =>
    refine (exec_digitwise (f := Bytes.subBorrow) rfl subBorrow_cons hp hq
      (ha.trans hb.symm)).trans ?_
    rw [if_neg hborrow, if_neg hborrow]

/-! ### Multiplication -/

/-- The loop over `j` adds a row of the product. -/
theorem exec_mulRow {m : Buffer} (ha : i < a.length) (hb : b.length = balanceByteLength)
    (hp : h.Holds p a) (hq : h.Holds q b)
    (hm : m.length = balanceByteLength + (a.length - (i + 1))) :
    (mulRow h.length p q i).exec (h ++ [List.replicate (i + 1) 0 ++ m]) =
      (.ok (), h ++ [List.replicate i 0 ++
        UInt8.ofNat (Bytes.mulAdd a[i] b (m.take b.length)).2 ::
          (Bytes.mulAdd a[i] b (m.take b.length)).1 ++ m.drop b.length]) := by
  have hlen : (m.take b.length).length = b.length := by
    rw [List.length_take]
    omega
  have hloop : (digits h.length (i + 1) (fun j carry => do
        let mul := (← load p i).toNat * (← load q j).toNat +
          (← load h.length (i + 1 + j)).toNat + carry
        return (UInt8.ofNat (mul &&& 0xff), mul >>> 8)) b.length 0).exec
      (h ++ [List.replicate (i + 1) 0 ++ m]) = (.ok (Bytes.mulAdd a[i] b (m.take b.length)).2,
        h ++ [(List.replicate (i + 1) 0 ++ m).take (i + 1) ++
          (Bytes.mulAdd a[i] b (m.take b.length)).1 ++
            (List.replicate (i + 1) 0 ++ m).drop (i + 1 + b.length)]) := by
    refine exec_digits (g := fun j => Bytes.mulAdd a[i] (b.drop j) ((m.take b.length).drop j))
      ?_ ?_ ?_
    · rw [List.length_append, List.length_replicate]
      omega
    · rw [List.drop_length]
      rfl
    · intro j hj
      have hj' : j < (m.take b.length).length := hlen.symm ▸ hj
      rw [List.drop_eq_getElem_cons hj, List.drop_eq_getElem_cons hj']
      refine ⟨_, rfl, fun m' hm' => ?_⟩
      have hread : (load h.length (i + 1 + j)).exec (h ++ [m']) =
          (.ok (m.take b.length)[j], h ++ [m']) := by
        have hlt : j < m.length := by omega
        rw [exec_load, read_length, hm', List.getElem_take]
        simp [List.getD_eq_getElem?_getD, hlt]
      simp only [exec_bind, exec_load_of_holds hp ha, exec_load_of_holds hq hj, hread, exec_pure,
        and_255, shiftRight_8, Bytes.mulAdd]
  rw [hb] at hloop
  have hfront : (List.replicate (i + 1) 0 ++ m).take (i + 1) =
      List.replicate i (0 : UInt8) ++ [0] := by
    rw [List.take_left' List.length_replicate, List.replicate_succ']
  have hback : (List.replicate (i + 1) 0 ++ m).drop (i + 1 + balanceByteLength) =
      m.drop balanceByteLength := by
    rw [List.drop_append, List.drop_eq_nil_of_le (by simp), List.length_replicate,
      Nat.add_sub_cancel_left, List.nil_append]
  simp only [mulRow, exec_bind, hloop, exec_load, exec_store, read_length, set_last, hfront, hback,
    hb]
  generalize Bytes.mulAdd a[i] b (m.take balanceByteLength) = r
  simp [List.getD_eq_getElem?_getD]

/-- The loop over `i` computes the product of twice the length. -/
theorem exec_mulRows (ha : a.length = balanceByteLength) (hb : b.length = balanceByteLength)
    (hp : h.Holds p a) (hq : h.Holds q b) :
    (down (mulRow h.length p q) balanceByteLength).exec
      (h ++ [List.replicate (balanceByteLength * 2) 0]) = (.ok (), h ++ [Bytes.mulRows a b]) := by
  suffices key : ∃ h', (down (mulRow h.length p q) balanceByteLength).exec
      (h ++ [List.replicate (balanceByteLength * 2) 0]) = (.ok (), h') ∧
        h' = h ++ [List.replicate 0 0 ++ Bytes.mulRows (a.drop 0) b] by
    obtain ⟨h', hexec, rfl⟩ := key
    exact hexec
  refine exec_down (I := fun i h' =>
    h' = h ++ [List.replicate i 0 ++ Bytes.mulRows (a.drop i) b]) ?_ ?_
  · rw [← ha, List.drop_length, ha, Bytes.mulRows, List.foldr_nil, hb]
    simp [balanceByteLength]
  · rintro i hi _ rfl
    have hia : i < a.length := ha.symm ▸ hi
    have hrows := Bytes.length_mulRows (a.drop (i + 1)) b
    rw [List.length_drop, hb, Nat.add_comm (_ - _)] at hrows
    refine ⟨_, exec_mulRow hia hb hp hq hrows, ?_⟩
    rw [List.drop_eq_getElem_cons hia, Bytes.mulRows_cons]
    simp

theorem exec_truncate {m : Buffer} (hm : m.length = balanceByteLength + balanceByteLength) :
    (truncate h.length).exec (h ++ [m]) =
      (.ok (h.length + 1), h ++ [m] ++ [m.drop balanceByteLength]) := by
  simp [truncate, exec_bind, hm]

theorem fills_mulBuffers (hg : globals.Loaded h) (hp : h.Holds p a) (hq : h.Holds q b) :
    Fills (mulBuffers globals p q) h (SettlementBus.mulBuffers a b) := by
  rw [SettlementBus.mulBuffers]
  by_cases hlens : a.length ≠ balanceByteLength ∨ b.length ≠ balanceByteLength
  · rw [if_pos hlens]
    have hexec : (mulBuffers globals p q).exec h =
        (pure globals.nullBuffer : HeapM Ptr).exec h := by
      simp [mulBuffers, exec_bind, read_of_holds hp, read_of_holds hq, hlens]
    rw [Fills, hexec]
    exact fills_nullBuffer hg
  · obtain ⟨ha, hb⟩ : a.length = balanceByteLength ∧ b.length = balanceByteLength := by
      simpa [not_or] using hlens
    have hrows := Bytes.length_mulRows a b
    rw [ha, hb] at hrows
    rw [if_neg hlens]
    simp only [Fills, mulBuffers, exec_bind, exec_length, read_of_holds hp, read_of_holds hq, hlens,
      if_false, exec_alloc, exec_mulRows ha hb hp hq, exec_block, read_length,
      read_append hg.zeroBalance]
    split
    · exact ⟨_, _, rfl, holds_append hg.nullBuffer⟩
    · rw [exec_truncate hrows, List.append_assoc]
      exact ⟨_, _, rfl, by simp [Heap.Holds]⟩

/-! ### Division -/

theorem set_last_eq_shiftIn {remainder : Buffer} (hlen : remainder.length = balanceByteLength)
    (bitVal : UInt8) :
    (SettlementBus.shiftLeft1 remainder).1.set (balanceByteLength - 1)
        ((SettlementBus.shiftLeft1 remainder).1.getD (balanceByteLength - 1) 0 ||| bitVal) =
      shiftIn remainder bitVal := by
  have hlen' := length_shiftLeft1 remainder
  rw [hlen] at hlen'
  rw [shiftIn]
  generalize (SettlementBus.shiftLeft1 remainder).1 = shifted at hlen'
  obtain ⟨last, hlast⟩ : ∃ last, shifted.drop 15 = [last] :=
    List.length_eq_one_iff.mp (by simp [hlen', balanceByteLength])
  have hfront : (shifted.take 15).length = 15 := by simp [hlen', balanceByteLength]
  have hsplit : shifted = shifted.take 15 ++ [last] := by rw [← hlast, List.take_append_drop]
  generalize shifted.take 15 = front at hfront hsplit
  subst hsplit
  simp [balanceByteLength, hfront]

/-- A round takes in the next bit of the dividend. -/
theorem exec_divBit {quotient remainder : Buffer} {rest : Heap} {r : Ptr}
    {bit : ℕ} (hbit : bit < 128) (ha : a.length = balanceByteLength)
    (hb : b.length = balanceByteLength) (hp : h.Holds p a) (hq : h.Holds q b)
    (hlen : quotient.length = balanceByteLength)
    (hr : Heap.Holds (h ++ quotient :: rest) r remainder)
    (hdiv : Divided a b quotient remainder (128 - bit)) :
    ∃ quotient' remainder' rest' r',
      (divBit globals h.length p q bit r).exec (h ++ quotient :: rest) =
        (.ok r', h ++ quotient' :: rest') ∧ quotient'.length = balanceByteLength ∧
          Heap.Holds (h ++ quotient' :: rest') r' remainder' ∧
            Divided a b quotient' remainder' (128 - (bit + 1)) := by
  have hbyte : bit / 8 < a.length := by
    rw [ha, balanceByteLength]
    omega
  have hqbyte : bit / 8 < quotient.length := hlen.trans ha.symm ▸ hbyte
  have hsplit : a.take (bit / 8) ++ a[bit / 8] :: a.drop (bit / 8 + 1) = a := by
    rw [← List.drop_eq_getElem_cons hbyte, List.take_append_drop]
  have hqsplit : quotient.take (bit / 8) ++ quotient[bit / 8] :: quotient.drop (bit / 8 + 1) =
      quotient := by
    rw [← List.drop_eq_getElem_cons hqbyte, List.take_append_drop]
  have hpost : (a.drop (bit / 8 + 1)).length = 15 - bit / 8 := by
    rw [List.length_drop, ha, balanceByteLength]
    omega
  have hqset : ∀ x, quotient.set (bit / 8) x =
      quotient.take (bit / 8) ++ x :: quotient.drop (bit / 8 + 1) := fun x =>
    List.set_eq_take_append_cons_drop.trans (if_pos hqbyte)
  have hpos : 128 - bit = 8 * (a.drop (bit / 8 + 1)).length + (7 - bit % 8 + 1) := by omega
  have hpos' : 128 - (bit + 1) = 8 * (a.drop (bit / 8 + 1)).length + (7 - bit % 8) := by omega
  have hround : Divided (a.take (bit / 8) ++ a[bit / 8] :: a.drop (bit / 8 + 1)) b
      (quotient.take (bit / 8) ++ quotient[bit / 8] :: quotient.drop (bit / 8 + 1)) remainder
        (8 * (a.drop (bit / 8 + 1)).length + (7 - bit % 8 + 1)) := by
    rw [hsplit, hqsplit, ← hpos]
    exact hdiv
  obtain ⟨hnext, hge, hlt⟩ := hround.step (by omega) (hsplit.symm ▸ ha) hb (by
    rw [hpost, List.length_drop, hlen, balanceByteLength]
    omega)
  rw [hsplit, hqsplit, ← hpos'] at hlt
  rw [hsplit, ← hpos', ← hqset] at hge
  generalize hnexteq : shiftIn remainder ((a[bit / 8] >>> UInt8.ofNat (7 - bit % 8)) &&& 1) = next
    at hnext hge hlt
  have hp' : Heap.Holds (h ++ quotient :: rest) p a := holds_append hp
  have hq' : Heap.Holds (h ++ quotient :: rest) q b := holds_append hq
  have hexec : (divBit globals h.length p q bit r).exec (h ++ quotient :: rest) =
      (if Bytes.compare next b ≠ .lt then do
        let remainder ← subBuffers globals (h ++ quotient :: rest).length q
        store h.length (bit / 8)
          ((← load h.length (bit / 8)) ||| (1 <<< UInt8.ofNat (7 - bit % 8)))
        return remainder
      else return (h ++ quotient :: rest).length : HeapM Ptr).exec
        (h ++ quotient :: rest ++ [next]) := by
    -- the new remainder is the last block
    simp only [divBit, exec_bind, exec_shiftLeft1 hr hdiv.length_remainder,
      exec_load_of_holds hp' hbyte, exec_load, exec_store, read_length, set_last,
      set_last_eq_shiftIn hdiv.length_remainder, hnexteq, exec_block, read_append hq']
  rw [hexec]
  split
  case isTrue hcmp =>
    have hle := (compare_ne_lt hnext hb).mp hcmp
    have hsub : (subBuffers globals (h ++ quotient :: rest).length q).exec
        (h ++ quotient :: rest ++ [next]) = _ :=
      exec_subBuffers holds_length (holds_append hq') hnext hb hle
    refine ⟨quotient.set (bit / 8) (quotient[bit / 8] ||| 1 <<< UInt8.ofNat (7 - bit % 8)),
      SettlementBus.subBuffers next b, rest ++ [next, SettlementBus.subBuffers next b],
      (h ++ quotient :: rest ++ [next]).length, ?_, by simpa using hlen, by simp [Heap.Holds],
      hge hcmp⟩
    rw [exec_bind, hsub]
    simp only [exec_bind, exec_load, exec_store, exec_pure, List.append_assoc, List.cons_append,
      read_length, set_last, List.nil_append, List.getD_eq_getElem _ _ hqbyte]
  case isFalse hcmp =>
    refine ⟨quotient, next, rest ++ [next], (h ++ quotient :: rest).length, by simp, hlen,
      by simp [Heap.Holds], hlt hcmp⟩

variable (globals) in
theorem exec_divBits (ha : a.length = balanceByteLength) (hb : b.length = balanceByteLength)
    (hp : h.Holds p a) (hq : h.Holds q b) (hne : Bytes.toNat b ≠ 0) :
    ∃ r rest, (up (divBit globals h.length p q) (h.length + 1) (balanceByteLength * 8)).exec
      (h ++ [zeroBalance, zeroBalance]) = (.ok r, h ++ SettlementBus.divBuffers a b :: rest) := by
  suffices key : ∃ r h', (up (divBit globals h.length p q) (h.length + 1)
      (balanceByteLength * 8)).exec (h ++ [zeroBalance, zeroBalance]) = (.ok r, h') ∧
        ∃ quotient remainder rest, h' = h ++ quotient :: rest ∧
          quotient.length = balanceByteLength ∧ Heap.Holds h' r remainder ∧
            Divided a b quotient remainder (128 - balanceByteLength * 8) by
    obtain ⟨r, _, hexec, quotient, remainder, rest, rfl, hlen, -, hdiv⟩ := key
    obtain ⟨hlen', hval⟩ := divBuffers_eq ha hb hne
    have hq : quotient = SettlementBus.divBuffers a b :=
      Bytes.toNat_inj (hlen.trans hlen'.symm) (hdiv.restoring.quotient.trans hval.symm)
    exact ⟨r, rest, hq ▸ hexec⟩
  refine exec_up (I := fun bit r h' => ∃ quotient remainder rest, h' = h ++ quotient :: rest ∧
    quotient.length = balanceByteLength ∧ Heap.Holds h' r remainder ∧
      Divided a b quotient remainder (128 - bit)) ?_ ?_
  · exact ⟨zeroBalance, zeroBalance, [zeroBalance], rfl, rfl, by simp [Heap.Holds],
      divided_start ha hne⟩
  · rintro bit hbit r _ ⟨quotient, remainder, rest, rfl, hlen, hr, hdiv⟩
    obtain ⟨quotient', remainder', rest', r', hexec, hlen', hr', hdiv'⟩ :=
      exec_divBit hbit ha hb hp hq hlen hr hdiv
    exact ⟨r', _, hexec, quotient', remainder', rest', rfl, hlen', hr', hdiv'⟩

theorem fills_divBuffers (hg : globals.Loaded h) (hp : h.Holds p a) (hq : h.Holds q b) :
    Fills (divBuffers globals p q) h (SettlementBus.divBuffers a b) := by
  by_cases hlens : a.length ≠ balanceByteLength ∨ b.length ≠ balanceByteLength
  · rw [SettlementBus.divBuffers, if_pos hlens]
    have hexec : (divBuffers globals p q).exec h =
        (pure globals.nullBuffer : HeapM Ptr).exec h := by
      simp [divBuffers, exec_bind, read_of_holds hp, read_of_holds hq, hlens]
    rw [Fills, hexec]
    exact fills_nullBuffer hg
  · obtain ⟨ha, hb⟩ : a.length = balanceByteLength ∧ b.length = balanceByteLength := by
      simpa [not_or] using hlens
    by_cases hzero : b = zeroBalance
    · rw [SettlementBus.divBuffers, if_neg hlens, if_pos hzero]
      have hexec : (divBuffers globals p q).exec h =
          (pure globals.nullBuffer : HeapM Ptr).exec h := by
        simp only [divBuffers, exec_bind, exec_length, read_of_holds hp, read_of_holds hq, hlens,
          if_false, exec_block, read_of_holds hg.zeroBalance, if_pos hzero]
      rw [Fills, hexec]
      exact fills_nullBuffer hg
    · obtain ⟨r, rest, hexec⟩ := exec_divBits globals ha hb hp hq
        ((eq_zeroBalance_iff hb).not.mp hzero)
      refine ⟨h.length, SettlementBus.divBuffers a b :: rest, ?_, holds_length⟩
      have hzeros : List.replicate balanceByteLength 0 = zeroBalance := rfl
      simp only [divBuffers, exec_bind, exec_length, read_of_holds hp, read_of_holds hq, hlens,
        if_false, exec_block, read_of_holds hg.zeroBalance, hzero, exec_alloc, hzeros,
        List.append_assoc, List.singleton_append, List.length_append, List.length_singleton, hexec,
        exec_pure]

/-! ### The operations on balances -/

/-- A number that 16 bytes hold. -/
def checked (n : ℕ) : Option ℕ := if n < 2 ^ 128 then some n else none

/-- The program returns the 16 byte buffer of the number, or null where there is none, and no block
that was there before has changed. -/
def Computes (prog : HeapM (Option Ptr)) (h : Heap) (value : Option ℕ) : Prop :=
  ∃ r h', prog.exec h = (.ok r, h ++ h') ∧ r.map (Heap.read (h ++ h')) = value.map toTerm

theorem toTerm_toNat (c : SettlementBus.Balance) : toTerm c.toNat = c.value := by
  rw [toTerm, ← c.length_value]
  exact Bytes.ofNat_toNat c.value

theorem Fills.computes {prog : HeapM Ptr} {out : Buffer} {value : Option ℕ} (hf : Fills prog h out)
    (hv : (SettlementBus.toBalance out).map SettlementBus.Balance.toNat = value) :
    Computes (do toBalance (← prog)) h value := by
  obtain ⟨p, h', hexec, hholds⟩ := hf
  subst hv
  have hread := read_of_holds hholds
  by_cases hlen : out.length = balanceByteLength
  · refine ⟨some p, h', ?_, ?_⟩
    · simp [exec_bind, hexec, toBalance, isBufferValid, hread, hlen]
    · rw [Option.map_some, hread, SettlementBus.toBalance, dif_pos hlen]
      simp [toTerm_toNat]
  · refine ⟨none, h', ?_, ?_⟩
    · simp [exec_bind, hexec, toBalance, isBufferValid, hread, hlen]
    · simp [toBalance_eq_none.mpr hlen]

theorem Fills.bind {prog : HeapM Ptr} {f : Ptr → HeapM Ptr} {out out' : Buffer}
    (hprog : Fills prog h out)
    (hf : ∀ p h', Heap.Holds (h ++ h') p out → Fills (f p) (h ++ h') out') :
    Fills (do f (← prog)) h out' := by
  obtain ⟨p, h', hexec, hholds⟩ := hprog
  obtain ⟨p', h'', hexec', hholds'⟩ := hf p h' hholds
  rw [List.append_assoc] at hexec' hholds'
  exact ⟨p', h' ++ h'', by rw [exec_bind, hexec]; exact hexec', hholds'⟩

theorem Computes.of_valid {prog : HeapM (Option Ptr)} {value : Option ℕ} (hq : h.Holds q b)
    (hb : b.length = balanceByteLength) (hc : Computes prog h value) :
    Computes (do
      if ¬isBufferValid (← block q) balanceByteLength then return none else prog) h value := by
  obtain ⟨r, h', hexec, hr⟩ := hc
  exact ⟨r, h', by simp [exec_bind, read_of_holds hq, isBufferValid, hb, hexec], hr⟩

section

variable (x y : SettlementBus.Balance)

theorem toNat_add : (x.add y).map SettlementBus.Balance.toNat = checked (x.toNat + y.toNat) := by
  rw [checked]
  split
  case isTrue hlt =>
    obtain ⟨c, hc, hval⟩ := SettlementBus.Balance.exists_add hlt
    rw [hc, Option.map_some, hval]
  case isFalse hge =>
    rw [SettlementBus.Balance.add_eq_none.mpr (Nat.not_lt.mp hge), Option.map_none]

theorem toNat_sub : (x.sub y).map SettlementBus.Balance.toNat =
    if y.toNat ≤ x.toNat then some (x.toNat - y.toNat) else none := by
  split
  case isTrue hle =>
    obtain ⟨c, hc, hval⟩ := SettlementBus.Balance.exists_sub hle
    rw [hc, Option.map_some, Nat.eq_sub_of_add_eq hval]
  case isFalse hgt =>
    rw [SettlementBus.Balance.sub_eq_none.mpr (Nat.not_le.mp hgt), Option.map_none]

theorem toNat_mulBuffers : (SettlementBus.toBalance (SettlementBus.mulBuffers x.value y.value)).map
    SettlementBus.Balance.toNat = checked (x.toNat * y.toNat) := by
  have hlen := Bytes.length_mulRows x.value y.value
  have hval := Bytes.toNat_mulRows x.value y.value
  rw [x.length_value, y.length_value] at hlen
  have hsplit := Bytes.toNat_append ((Bytes.mulRows x.value y.value).take balanceByteLength)
    ((Bytes.mulRows x.value y.value).drop balanceByteLength)
  have hhigh : ((Bytes.mulRows x.value y.value).take balanceByteLength).length =
      balanceByteLength := by simp [hlen]
  have hlow : ((Bytes.mulRows x.value y.value).drop balanceByteLength).length =
      balanceByteLength := by simp [hlen]
  have hlt := Bytes.toNat_lt ((Bytes.mulRows x.value y.value).drop balanceByteLength)
  rw [List.take_append_drop, hval, hlow] at hsplit
  rw [hlow] at hlt
  have hlens : ¬(x.value.length ≠ balanceByteLength ∨ y.value.length ≠ balanceByteLength) := by
    simp [x.length_value, y.length_value]
  rw [SettlementBus.mulBuffers, if_neg hlens, checked]
  by_cases hzero : (Bytes.mulRows x.value y.value).take balanceByteLength = zeroBalance
  · rw [(eq_zeroBalance_iff hhigh).mp hzero, Nat.zero_mul, Nat.zero_add] at hsplit
    simp only [hzero, ne_eq, not_true_eq_false, if_false, SettlementBus.toBalance, dif_pos hlow,
      Option.map_some]
    rw [if_pos (show x.toNat * y.toNat < 2 ^ 128 from hsplit ▸ hlt)]
    exact congrArg some hsplit.symm
  · have hne := (eq_zeroBalance_iff hhigh).not.mp hzero
    have hge : ¬x.toNat * y.toNat < 2 ^ 128 := by
      have hmul := Nat.mul_le_mul_right (256 ^ balanceByteLength) (Nat.one_le_iff_ne_zero.mpr hne)
      rw [Nat.not_lt]
      calc 2 ^ 128 = 1 * 256 ^ balanceByteLength := by norm_num [balanceByteLength]
        _ ≤ _ := hmul
        _ ≤ x.toNat * y.toNat := by
          rw [SettlementBus.Balance.toNat, SettlementBus.Balance.toNat, hsplit]
          exact Nat.le_add_right _ _
    rw [if_neg hge]
    simp only [ne_eq, hzero, not_false_eq_true, if_true]
    rfl

theorem toNat_divBuffers : (SettlementBus.toBalance (SettlementBus.divBuffers x.value y.value)).map
    SettlementBus.Balance.toNat = if y.toNat = 0 then none else some (x.toNat / y.toNat) := by
  split
  case isTrue hzero =>
    have hy : y.value = zeroBalance := (eq_zeroBalance_iff y.length_value).mpr hzero
    have hlens : ¬(x.value.length ≠ balanceByteLength ∨ y.value.length ≠ balanceByteLength) := by
      simp [x.length_value, y.length_value]
    rw [SettlementBus.divBuffers, if_neg hlens, if_pos hy]
    simp [toBalance_eq_none, nullBuffer, balanceByteLength]
  case isFalse hne =>
    obtain ⟨hlen, hval⟩ := divBuffers_eq x.length_value y.length_value hne
    rw [SettlementBus.toBalance, dif_pos hlen]
    exact congrArg some hval

theorem toNat_percentage : (SettlementBus.toBalance (SettlementBus.divBuffers
    (SettlementBus.mulBuffers x.value y.value) SettlementBus.percentageTerm)).map
      SettlementBus.Balance.toNat = (checked (x.toNat * y.toNat)).map (· / 10000) := by
  have hterm : (⟨SettlementBus.percentageTerm, length_toTerm _⟩ : SettlementBus.Balance).toNat =
      10000 := toNat_toTerm (by norm_num)
  rw [← toNat_mulBuffers]
  cases hmul : SettlementBus.toBalance (SettlementBus.mulBuffers x.value y.value) with
  | none =>
    have hlen := toBalance_eq_none.mp hmul
    rw [SettlementBus.divBuffers, if_pos (.inl hlen)]
    simp [toBalance_eq_none, nullBuffer, balanceByteLength]
  | some z =>
    rw [← toBalance_eq_some.mp hmul]
    refine (toNat_divBuffers z ⟨SettlementBus.percentageTerm, length_toTerm _⟩).trans ?_
    rw [hterm]
    rfl

theorem compare_eq : Bytes.compare x.value y.value = Ord.compare x.toNat y.toNat :=
  Bytes.compare_eq_compare_toNat (SettlementBus.Balance.length_values x y)

end

/-! ### Amounts -/

theorem ofNat_succ (k n : ℕ) :
    Bytes.ofNat (k + 1) n = UInt8.ofNat (n / 256 ^ k) :: Bytes.ofNat k n := by
  induction k generalizing n with
  | zero => simp [Bytes.ofNat]
  | succ k ih =>
    rw [Bytes.ofNat, ih, Nat.div_div_eq_div_mul, ← pow_succ', List.cons_append]
    rfl

theorem exec_bigIntTo16ByteBuffer (n : ℤ) : (bigIntTo16ByteBuffer n).exec h =
    (.ok h.length, h ++ [Bytes.ofNat 16 (n % 2 ^ 128).toNat]) := by
  have hloop : (digits h.length 0 (fun _ tmp => (return (UInt8.ofNat (tmp &&& 0xff), tmp >>> 8) :
      HeapM (UInt8 × ℕ))) 16 (n % 2 ^ 128).toNat).exec (h ++ [List.replicate 16 0]) =
        (.ok ((n % 2 ^ 128).toNat / 256 ^ 16), h ++ [Bytes.ofNat 16 (n % 2 ^ 128).toNat]) := by
    refine exec_digits_fresh (g := fun i =>
      (Bytes.ofNat (16 - i) (n % 2 ^ 128).toNat, (n % 2 ^ 128).toNat / 256 ^ (16 - i))) ?_ ?_
    · simp [Bytes.ofNat]
    · intro i hi
      have hsub : 16 - i = 16 - (i + 1) + 1 := by omega
      rw [hsub, ofNat_succ]
      refine ⟨_, rfl, fun _ => ?_⟩
      rw [exec_pure, and_255, shiftRight_8, Nat.div_div_eq_div_mul, ← pow_succ]
  simp only [bigIntTo16ByteBuffer, exec_bind, exec_alloc, hloop, exec_pure]

theorem exec_bufferToBigInt (hp : h.Holds p a) (ha : a.length = 16) :
    (bufferToBigInt p).exec h = (.ok (some (Bytes.toNat a)), h) := by
  have hloop : ∃ res h', (up (fun i res => do
        return (res <<< 8) ||| (← load p i).toNat : ℕ → ℕ → HeapM ℕ) 0 16).exec h = (.ok res, h') ∧
      res = Bytes.toNat (a.take 16) ∧ h' = h := by
    refine exec_up (I := fun i res h' => res = Bytes.toNat (a.take i) ∧ h' = h) ⟨rfl, rfl⟩ ?_
    rintro i hi _ h' ⟨rfl, rfl⟩
    have hia : i < a.length := ha.symm ▸ hi
    refine ⟨_, h', by
      rw [exec_bind, exec_load, read_of_holds hp, List.getD_eq_getElem _ _ hia]
      rfl, ?_, rfl⟩
    rw [List.take_succ_eq_append_getElem hia, Bytes.toNat_append, Bytes.toNat_cons,
      Nat.shiftLeft_eq, Nat.mul_comm, ← Nat.two_pow_add_eq_or_of_lt (i := 8) (UInt8.toNat_lt _)]
    simp [Nat.mul_comm]
  obtain ⟨res, h', hexec, rfl, rfl⟩ := hloop
  rw [← ha, List.take_length, ha] at hexec
  simp only [bufferToBigInt, exec_bind, exec_length, read_of_holds hp, ha, ne_eq,
    not_true_eq_false, if_false, hexec, exec_pure]

/-- What the methods of a balance compute of the values of two buffers. -/
structure Arithmetic (globals : Globals) (h : Heap) (p q : Ptr) (x y : ℕ) : Prop where
  add : Computes (Balance.add globals p q) h (checked (x + y))
  sub : Computes (Balance.sub globals p q) h (if y ≤ x then some (x - y) else none)
  mul : Computes (Balance.mul globals p q) h (checked (x * y))
  div : Computes (Balance.div globals p q) h (if y = 0 then none else some (x / y))
  percentage : Computes (Balance.percentage globals p q) h ((checked (x * y)).map (· / 10000))
  equals : (Balance.equals p q).exec h = (.ok (decide (x = y)), h)
  greaterThan : (Balance.greaterThan p q).exec h = (.ok (decide (y < x)), h)
  lowerThan : (Balance.lowerThan p q).exec h = (.ok (decide (x < y)), h)
  greaterThanOrEquals : (Balance.greaterThanOrEquals p q).exec h = (.ok (decide (y ≤ x)), h)
  lowerThanOrEquals : (Balance.lowerThanOrEquals p q).exec h = (.ok (decide (x ≤ y)), h)

theorem exec_test {cmp : Ordering} {P : Ordering → Prop} [DecidablePred P] {c : Prop} [Decidable c]
    (hp : h.Holds p a) (hq : h.Holds q b) (hcmp : Bytes.compare a b = cmp) (hc : P cmp ↔ c) :
    (do return decide (P (← Balance.compare p q)) : HeapM Bool).exec h = (.ok (decide c), h) := by
  simp [Balance.compare, exec_bind, read_of_holds hp, read_of_holds hq, hcmp, hc]

theorem arithmetic (hg : globals.Loaded h) (hp : h.Holds p a) (hq : h.Holds q b)
    (ha : a.length = balanceByteLength) (hb : b.length = balanceByteLength) :
    Arithmetic globals h p q (Bytes.toNat a) (Bytes.toNat b) := by
  have hcompare := compare_eq ⟨a, ha⟩ ⟨b, hb⟩
  dsimp only [SettlementBus.Balance.toNat] at hcompare
  constructor
  case add => exact (fills_addBuffers hg hp hq).computes (toNat_add ⟨a, ha⟩ ⟨b, hb⟩)
  case sub => exact (fills_subBuffers hg hp hq).computes (toNat_sub ⟨a, ha⟩ ⟨b, hb⟩)
  case mul =>
    exact .of_valid hq hb ((fills_mulBuffers hg hp hq).computes (toNat_mulBuffers ⟨a, ha⟩ ⟨b, hb⟩))
  case div =>
    exact .of_valid hq hb ((fills_divBuffers hg hp hq).computes (toNat_divBuffers ⟨a, ha⟩ ⟨b, hb⟩))
  case percentage =>
    have hfills : Fills (do
        divBuffers globals (← mulBuffers globals p q) globals.percentageTerm) h
          (SettlementBus.divBuffers (SettlementBus.mulBuffers a b) SettlementBus.percentageTerm) :=
      (fills_mulBuffers hg hp hq).bind fun d h' hd =>
        fills_divBuffers (hg.append h') hd (hg.append h').percentageTerm
    have hcomputes := hfills.computes (toNat_percentage ⟨a, ha⟩ ⟨b, hb⟩)
    rw [bind_assoc] at hcomputes
    exact .of_valid hq hb hcomputes
  case equals =>
    have hiff : a = b ↔ Bytes.toNat a = Bytes.toNat b :=
      ⟨congrArg _, Bytes.toNat_inj (ha.trans hb.symm)⟩
    simp [Balance.equals, exec_bind, read_of_holds hp, read_of_holds hq, isBufferValid, hb, hiff]
  case greaterThan => exact exec_test hp hq hcompare Nat.compare_eq_gt
  case lowerThan => exact exec_test hp hq hcompare Nat.compare_eq_lt
  case greaterThanOrEquals =>
    refine exec_test hp hq hcompare (P := fun cmp => cmp = .gt ∨ cmp = .eq) ?_
    rw [Nat.compare_eq_gt, Nat.compare_eq_eq]
    omega
  case lowerThanOrEquals =>
    refine exec_test hp hq hcompare (P := fun cmp => cmp = .lt ∨ cmp = .eq) ?_
    rw [Nat.compare_eq_lt, Nat.compare_eq_eq]
    omega

/-- The operations on balances compute, on buffers in any memory, what the naturals below `2 ^ 128`
have: an operation allocates and changes no buffer that was there before. -/
theorem balance_refines_nat :
    (∀ globals h p q a b, Globals.Loaded globals h → Heap.Holds h p a → Heap.Holds h q b →
        a.length = balanceByteLength → b.length = balanceByteLength →
          Arithmetic globals h p q (Bytes.toNat a) (Bytes.toNat b)) ∧
      (∀ (h : Heap) (n : ℕ), n < 2 ^ 128 → ∃ p h',
        (bigIntTo16ByteBuffer n).exec h = (.ok p, h ++ h') ∧
          (bufferToBigInt p).exec (h ++ h') = (.ok (some n), h ++ h')) ∧
      ∀ h p a, Heap.Holds h p a → a.length = balanceByteLength → ∃ n < 2 ^ 128,
        (bufferToBigInt p).exec h = (.ok (some n), h) ∧ ∃ p' h',
          (bigIntTo16ByteBuffer n).exec h = (.ok p', h ++ h') ∧ Heap.Holds (h ++ h') p' a := by
  refine ⟨fun globals h p q a b hg hp hq ha hb => arithmetic hg hp hq ha hb, ?_, ?_⟩
  · intro h n hn
    refine ⟨_, _, exec_bigIntTo16ByteBuffer n, ?_⟩
    have hmod : ((n : ℤ) % 2 ^ 128).toNat = n := by omega
    rw [exec_bufferToBigInt holds_length (by simp), hmod, Bytes.toNat_ofNat,
      Nat.mod_eq_of_lt (show n < 256 ^ 16 from hn)]
  · intro h p a hp ha
    have hlt : Bytes.toNat a < 2 ^ 128 := by
      have h := Bytes.toNat_lt a
      rwa [ha] at h
    have hmod : ((Bytes.toNat a : ℤ) % 2 ^ 128).toNat = Bytes.toNat a := by omega
    refine ⟨_, hlt, exec_bufferToBigInt hp ha, _, _, exec_bigIntTo16ByteBuffer _, ?_⟩
    have hof : Bytes.ofNat 16 (Bytes.toNat a) = a := by
      have h := Bytes.ofNat_toNat a
      rwa [ha] at h
    rw [hmod, hof]
    exact holds_length

namespace Sample

/-- The constants of the modules, and the buffer of the fee. -/
def feeHeap : Heap := [nullBuffer, zeroBalance, SettlementBus.percentageTerm, fee]

def feeGlobals : Globals := { nullBuffer := 0, zeroBalance := 1, percentageTerm := 2 }

theorem loaded_feeHeap : feeGlobals.Loaded feeHeap := ⟨rfl, rfl, rfl⟩

theorem balance_refines_nat_fee :
    Arithmetic feeGlobals feeHeap 3 3 (Bytes.toNat fee) (Bytes.toNat fee) ∧
      (∃ p h', (bigIntTo16ByteBuffer (7 : ℕ)).exec feeHeap = (.ok p, feeHeap ++ h') ∧
        (bufferToBigInt p).exec (feeHeap ++ h') = (.ok (some 7), feeHeap ++ h')) ∧
      ∃ n < 2 ^ 128, (bufferToBigInt 3).exec feeHeap = (.ok (some n), feeHeap) ∧ ∃ p' h',
        (bigIntTo16ByteBuffer n).exec feeHeap = (.ok p', feeHeap ++ h') ∧
          Heap.Holds (feeHeap ++ h') p' fee :=
  ⟨balance_refines_nat.1 feeGlobals feeHeap 3 3 fee fee loaded_feeHeap rfl rfl rfl rfl,
    balance_refines_nat.2.1 feeHeap 7 (by norm_num), balance_refines_nat.2.2 feeHeap 3 fee rfl rfl⟩

end Sample

end SettlementBus.Memory
