import SettlementBus.State.History

/-! The two queries for confirmed transactions against the signed prefix. -/

namespace SettlementBus

open History

variable {history : History} {signedLength : ℕ} {hash : Str}

/-- What the two queries say of a hash is what the signed prefix, the blocks before
`signedLength`, records. -/
structure ConfirmedInside (history : History) (signedLength : ℕ) (hash : Str) : Prop where
  some_iff : ∀ seq, history.getTransactionConfirmedLength signedLength hash = .ok (some seq) ↔
    history.FirstRecord hash seq ∧ seq < signedLength
  none_iff : history.getTransactionConfirmedLength signedLength hash = .ok none ↔
    ¬∃ seq < signedLength, history.Records hash seq
  listed : ∀ seq a b : ℕ, history.getTransactionConfirmedLength signedLength hash = .ok (some seq) →
    a ≤ seq → seq < b → ∃ rs,
      history.confirmedTransactionsBetween signedLength (.integer a) (.integer b) = .ok rs ∧
        { hash := hash, confirmedLength := seq } ∈ rs
  found : ∀ start end_ rs,
    history.confirmedTransactionsBetween signedLength start end_ = .ok rs →
      (∃ seq, { hash := hash, confirmedLength := seq } ∈ rs) →
        history.getTransactionConfirmedLength signedLength hash ≠ .ok none
  append : ∀ a b c : ℕ, a ≤ b → b ≤ c → c ≤ signedLength → ∃ rs rs',
    history.confirmedTransactionsBetween signedLength (.integer a) (.integer b) = .ok rs ∧
      history.confirmedTransactionsBetween signedLength (.integer b) (.integer c) = .ok rs' ∧
        history.confirmedTransactionsBetween signedLength (.integer a) (.integer c) =
          .ok (rs ++ rs')

theorem confirmedTransactionsBetween_eq {a b : ℕ} (hab : a ≤ b) (hb : b ≤ signedLength) :
    history.confirmedTransactionsBetween signedLength (.integer a) (.integer b) =
      .ok (history.recordsBetween a b) := by
  obtain rfl | hab := Nat.eq_or_lt_of_le hab
  · rw [confirmedTransactionsBetween_self, recordsBetween_self]
  · rw [confirmedTransactionsBetween_ok hab (Nat.lt_of_lt_of_le hab hb), Nat.min_eq_right hb]

theorem getTransactionConfirmedLength_eq_none (hhex : isHexString hash) (h64 : hash.length = 64) :
    history.getTransactionConfirmedLength signedLength hash = .ok none ↔
      ¬∃ seq ≤ signedLength, history.Records hash seq := by
  obtain ⟨result, hresult⟩ := getTransactionConfirmedLength_ok history signedLength hhex h64
  cases result with
  | some seq =>
    obtain ⟨hfirst, hle⟩ := (getTransactionConfirmedLength_eq_some hhex h64).mp hresult
    rw [hresult]
    exact iff_of_false (by simp) fun h => h ⟨seq, hle, hfirst.1⟩
  | none =>
    refine iff_of_true hresult ?_
    rintro ⟨seq, hle, hrec⟩
    obtain ⟨first, hfirst⟩ := hrec.exists_first
    have h := (getTransactionConfirmedLength_eq_some hhex h64).mpr
      ⟨hfirst, Nat.le_trans (hfirst.2 seq hrec) hle⟩
    cases hresult.symm.trans h

/-- The queries agree with the signed prefix exactly when the block after it is not the one that
records the hash. -/
theorem confirmedInside_iff (hhex : isHexString hash) (h64 : hash.length = 64) :
    ConfirmedInside history signedLength hash ↔ ¬history.FirstRecord hash signedLength := by
  constructor
  · intro h hfirst
    have hsome := (getTransactionConfirmedLength_eq_some hhex h64).mpr ⟨hfirst, Nat.le_refl _⟩
    exact absurd ((h.some_iff signedLength).mp hsome).2 (Nat.lt_irrefl _)
  · intro hboundary
    have hlt : ∀ {seq}, history.FirstRecord hash seq → seq ≤ signedLength → seq < signedLength := by
      intro seq hfirst hle
      refine Nat.lt_of_le_of_ne hle fun heq => ?_
      exact hboundary (heq ▸ hfirst)
    constructor
    case some_iff =>
      intro seq
      rw [getTransactionConfirmedLength_eq_some hhex h64]
      exact and_congr_right fun hfirst => ⟨hlt hfirst, Nat.le_of_lt⟩
    case none_iff =>
      rw [getTransactionConfirmedLength_eq_none hhex h64]
      refine not_congr ⟨?_, fun ⟨seq, hseq, hrec⟩ => ⟨seq, Nat.le_of_lt hseq, hrec⟩⟩
      rintro ⟨seq, hle, hrec⟩
      obtain ⟨first, hfirst⟩ := hrec.exists_first
      exact ⟨first, hlt hfirst (Nat.le_trans (hfirst.2 seq hrec) hle), hfirst.1⟩
    case listed =>
      intro seq a b hsome ha hb
      obtain ⟨hfirst, hle⟩ := (getTransactionConfirmedLength_eq_some hhex h64).mp hsome
      have hseq := hlt hfirst hle
      refine ⟨_, confirmedTransactionsBetween_ok (by omega) (by omega), ?_⟩
      exact mem_recordsBetween.mpr ⟨hfirst.1, ha, by omega⟩
    case found =>
      rintro start end_ rs hrs ⟨seq, hmem⟩ hnone
      obtain ⟨hrec, hseq⟩ := of_mem_confirmedTransactionsBetween hrs hmem
      exact (getTransactionConfirmedLength_eq_none hhex h64).mp hnone ⟨seq, Nat.le_of_lt hseq, hrec⟩
    case append =>
      intro a b c hab hbc hc
      refine ⟨_, _, confirmedTransactionsBetween_eq hab (Nat.le_trans hbc hc),
        confirmedTransactionsBetween_eq hbc hc, ?_⟩
      rw [confirmedTransactionsBetween_eq (Nat.le_trans hab hbc) hc, recordsBetween_append hab hbc]

namespace Sample

/-- The hash of a transaction, as hex. -/
def recordedHash : Str := toHex (Lib.Bytes.ofNat 32 0x548d7ea996ce9290e7794440d2b38fdaeee1c547)

/-- A view whose third block puts the record of the hash. -/
def recordHistory : History where
  first := 1
  entries := [⟨.put, "admin".toList, 1⟩, ⟨.put, "init".toList, 2⟩, ⟨.put, recordedHash, 3⟩]
  seqs := rfl

theorem confirmedInside_iff_recordHistory : ConfirmedInside recordHistory 4 recordedHash ↔
    ¬recordHistory.FirstRecord recordedHash 4 :=
  confirmedInside_iff (by decide) (by decide)

/-- The block of the record is the first one that is not signed, and it is reported as confirmed. -/
theorem not_confirmedInside_boundary :
    recordHistory.getTransactionConfirmedLength 3 recordedHash = .ok (some 3) ∧
      ¬ConfirmedInside recordHistory 3 recordedHash := by
  have hsome : recordHistory.getTransactionConfirmedLength 3 recordedHash = .ok (some 3) := by
    decide
  exact ⟨hsome, fun h => absurd ((h.some_iff 3).mp hsome).2 (Nat.lt_irrefl 3)⟩

end Sample

end SettlementBus
