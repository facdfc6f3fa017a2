import SettlementBus.Utils.Helpers
import Mathlib.Data.List.Range

/-! The history of the view, and the queries of `State.js` for confirmed transactions. -/

namespace SettlementBus

inductive HistoryType
  | put
  | del
  deriving DecidableEq, Repr

structure HistoryEntry where
  type : HistoryType
  key : Str
  seq : ℕ
  deriving DecidableEq

/-- The entries of the view in the order of their blocks, which are numbered one after another. -/
structure History where
  first : ℕ
  entries : List HistoryEntry
  seqs : entries.map HistoryEntry.seq = List.range' first entries.length

/-- A parameter of a query: the queries look at integers only. -/
inductive Param
  | integer : ℤ → Param
  | other

inductive HistoryError
  | invalidHashFormat
  | paramsMustBeInteger
  | paramsMustBeNonNegative
  | endBeforeStart
  | invalidRange
  deriving DecidableEq, Repr

structure ConfirmedTransaction where
  hash : Str
  confirmedLength : ℕ
  deriving DecidableEq

def isTransactionRecordPut (entry : HistoryEntry) : Bool :=
  entry.type = .put ∧ isHexString entry.key ∧ entry.key.length = 64

namespace History

variable (history : History) (signedLength : ℕ)

/-- Both bounds are inclusive. -/
def createHistoryStream (gte lte : ℤ) : List HistoryEntry :=
  history.entries.filter fun entry => gte ≤ entry.seq ∧ (entry.seq : ℤ) ≤ lte

def getTransactionConfirmedLength (hash : Str) : Except HistoryError (Option ℕ) :=
  if ¬isHexString hash ∨ hash.length ≠ 64 then .error .invalidHashFormat
  else
    let confirmedLength := signedLength
    let historyStream := history.createHistoryStream 0 confirmedLength
    .ok ((historyStream.find? fun entry => isTransactionRecordPut entry ∧ entry.key = hash).map
      HistoryEntry.seq)

def confirmedTransactionsBetween (startSignedLength endSignedLength : Param) :
    Except HistoryError (List ConfirmedTransaction) :=
  match startSignedLength, endSignedLength with
  | .integer startSeq, .integer endSignedLength =>
    if startSeq < 0 ∨ endSignedLength < 0 then .error .paramsMustBeNonNegative
    else if endSignedLength < startSeq then .error .endBeforeStart
    else if startSeq = endSignedLength then .ok []
    else
      let signedLength2End := min (signedLength : ℤ) endSignedLength
      let endSeq := signedLength2End - 1
      if endSeq < startSeq then .error .invalidRange
      else
        let historyStream := history.createHistoryStream startSeq endSeq
        .ok ((historyStream.filter isTransactionRecordPut).map fun entry =>
          { hash := entry.key, confirmedLength := entry.seq })
  | _, _ => .error .paramsMustBeInteger

/-! ### Records -/

/-- The transactions recorded in the blocks from `a` on and before `b`. -/
def recordsBetween (a b : ℕ) : List ConfirmedTransaction :=
  (history.entries.filter fun entry =>
    a ≤ entry.seq ∧ entry.seq < b ∧ isTransactionRecordPut entry).map fun entry =>
      { hash := entry.key, confirmedLength := entry.seq }

/-- The block `seq` puts the record of the hash. -/
def Records (hash : Str) (seq : ℕ) : Prop :=
  ∃ entry ∈ history.entries, isTransactionRecordPut entry ∧ entry.key = hash ∧ entry.seq = seq

/-- The block `seq` is the first to put the record of the hash. -/
def FirstRecord (hash : Str) (seq : ℕ) : Prop :=
  history.Records hash seq ∧ ∀ seq', history.Records hash seq' → seq ≤ seq'

section Rules

variable {history} {signedLength} {hash : Str} {seq a b c : ℕ}

theorem sorted : history.entries.Pairwise fun e e' => e.seq < e'.seq := by
  have h : (history.entries.map HistoryEntry.seq).Pairwise (· < ·) := by
    rw [history.seqs]
    exact List.pairwise_lt_range'
  exact List.pairwise_map.mp h

theorem mem_recordsBetween : { hash := hash, confirmedLength := seq } ∈ history.recordsBetween a b ↔
    history.Records hash seq ∧ a ≤ seq ∧ seq < b := by
  simp only [recordsBetween, Records, List.mem_map, List.mem_filter, decide_eq_true_eq,
    ConfirmedTransaction.mk.injEq]
  constructor
  · rintro ⟨entry, ⟨he, ha, hb, hput⟩, rfl, rfl⟩
    exact ⟨⟨entry, he, hput, rfl, rfl⟩, ha, hb⟩
  · rintro ⟨⟨entry, he, hput, rfl, rfl⟩, ha, hb⟩
    exact ⟨entry, ⟨he, ha, hb, hput⟩, rfl, rfl⟩

theorem recordsBetween_self : history.recordsBetween a a = [] := by
  rw [recordsBetween, List.map_eq_nil_iff, List.filter_eq_nil_iff]
  intro entry _ h
  have h := of_decide_eq_true h
  omega

theorem Records.exists_first (h : history.Records hash seq) :
    ∃ first, history.FirstRecord hash first := by
  classical
  exact ⟨Nat.find ⟨seq, h⟩, Nat.find_spec ⟨seq, h⟩, fun _ h' => Nat.find_min' _ h'⟩

/-- Of entries in the order of their numbers, those of two adjacent ranges follow each other. -/
theorem filter_append_of_sorted {entries : List HistoryEntry} {p : HistoryEntry → Bool}
    (h : entries.Pairwise fun e e' => e.seq < e'.seq) (hab : a ≤ b) (hbc : b ≤ c) :
    entries.filter (fun e => a ≤ e.seq ∧ e.seq < c ∧ p e) =
      entries.filter (fun e => a ≤ e.seq ∧ e.seq < b ∧ p e) ++
        entries.filter fun e => b ≤ e.seq ∧ e.seq < c ∧ p e := by
  induction entries with
  | nil => rfl
  | cons e entries ih =>
    obtain ⟨hlt, hsorted⟩ := List.pairwise_cons.mp h
    simp only [List.filter_cons, ih hsorted]
    obtain hb | hb := Nat.lt_or_ge e.seq b
    · have hc : e.seq < c := Nat.lt_of_lt_of_le hb hbc
      have hb' : ¬b ≤ e.seq := Nat.not_le.mpr hb
      simp only [hb, hb', hc, true_and, false_and, decide_false, Bool.false_eq_true, if_false]
      split <;> rfl
    · -- all entries before `b` have passed
      have hnil : entries.filter (fun e => a ≤ e.seq ∧ e.seq < b ∧ p e) = [] := by
        rw [List.filter_eq_nil_iff]
        intro e' he' h'
        have h' := of_decide_eq_true h'
        have := hlt e' he'
        omega
      have ha : a ≤ e.seq := Nat.le_trans hab hb
      simp only [hnil, ha, hb, Nat.not_lt.mpr hb, true_and, false_and, decide_false,
        Bool.false_eq_true, if_false, List.nil_append]

theorem recordsBetween_append (hab : a ≤ b) (hbc : b ≤ c) :
    history.recordsBetween a c = history.recordsBetween a b ++ history.recordsBetween b c := by
  simp only [recordsBetween, filter_append_of_sorted sorted hab hbc, List.map_append]

/-- Both bounds of the query over the signed prefix are exclusive at the end. -/
theorem confirmedTransactionsBetween_ok (hab : a < b) (ha : a < signedLength) :
    history.confirmedTransactionsBetween signedLength (.integer a) (.integer b) =
      .ok (history.recordsBetween a (min signedLength b)) := by
  have h0 : ¬((a : ℤ) < 0 ∨ (b : ℤ) < 0) := by omega
  have h1 : ¬(b : ℤ) < a := by omega
  have h2 : ¬(a : ℤ) = b := by omega
  have h3 : ¬min (signedLength : ℤ) b - 1 < a := by omega
  simp only [confirmedTransactionsBetween, h0, h1, h2, h3, if_false, createHistoryStream,
    List.filter_filter, recordsBetween]
  congr 2
  refine List.filter_congr fun entry _ => ?_
  rw [Bool.eq_iff_iff]
  simp only [Bool.and_eq_true, decide_eq_true_eq]
  constructor
  · rintro ⟨hput, hge, hle⟩
    exact ⟨by omega, by omega, hput⟩
  · rintro ⟨hge, hlt, hput⟩
    exact ⟨hput, by omega, by omega⟩

theorem confirmedTransactionsBetween_self :
    history.confirmedTransactionsBetween signedLength (.integer a) (.integer a) = .ok [] := by
  simp [confirmedTransactionsBetween]

theorem of_mem_confirmedTransactionsBetween {start end_ : Param} {rs : List ConfirmedTransaction}
    (h : history.confirmedTransactionsBetween signedLength start end_ = .ok rs)
    (hmem : { hash := hash, confirmedLength := seq } ∈ rs) :
    history.Records hash seq ∧ seq < signedLength := by
  simp only [confirmedTransactionsBetween] at h
  split at h
  case h_2 => cases h
  case h_1 startSeq endSignedLength =>
    split_ifs at h
    case pos => cases Except.ok.inj h; exact absurd hmem List.not_mem_nil
    case neg =>
      cases Except.ok.inj h
      simp only [createHistoryStream, List.mem_map, List.mem_filter, decide_eq_true_eq,
        ConfirmedTransaction.mk.injEq] at hmem
      obtain ⟨entry, ⟨⟨he, hge, hle⟩, hput⟩, rfl, rfl⟩ := hmem
      exact ⟨⟨entry, he, hput, rfl, rfl⟩, by omega⟩

theorem find?_eq_some_iff_of_sorted {entries : List HistoryEntry} {p : HistoryEntry → Bool}
    {entry : HistoryEntry} (h : entries.Pairwise fun e e' => e.seq < e'.seq) :
    entries.find? p = some entry ↔
      entry ∈ entries ∧ p entry ∧ ∀ e ∈ entries, p e → entry.seq ≤ e.seq := by
  induction entries with
  | nil => simp
  | cons e entries ih =>
    obtain ⟨hlt, hsorted⟩ := List.pairwise_cons.mp h
    rw [List.find?_cons]
    cases hp : p e with
    | true =>
      simp only [Option.some.injEq, List.mem_cons]
      constructor
      · rintro rfl
        refine ⟨.inl rfl, hp, fun e' he' _ => ?_⟩
        obtain rfl | he' := he'
        · exact Nat.le_refl _
        · exact Nat.le_of_lt (hlt e' he')
      · rintro ⟨rfl | he, hpe, hmin⟩
        · rfl
        · exact absurd (hlt entry he) (Nat.not_lt.mpr (hmin e (.inl rfl) hp))
    | false =>
      simp only [ih hsorted, List.mem_cons]
      constructor
      · rintro ⟨he, hpe, hmin⟩
        refine ⟨.inr he, hpe, fun e' he' hpe' => ?_⟩
        obtain rfl | he' := he'
        · cases hp.symm.trans hpe'
        · exact hmin e' he' hpe'
      · rintro ⟨rfl | he, hpe, hmin⟩
        · cases hp.symm.trans hpe
        · exact ⟨he, hpe, fun e' he' hpe' => hmin e' (.inr he') hpe'⟩

/-- The stream of this query also holds the block after the signed prefix. -/
theorem getTransactionConfirmedLength_eq_some (hhex : isHexString hash) (h64 : hash.length = 64) :
    history.getTransactionConfirmedLength signedLength hash = .ok (some seq) ↔
      history.FirstRecord hash seq ∧ seq ≤ signedLength := by
  have hsorted : (history.createHistoryStream 0 signedLength).Pairwise fun e e' => e.seq < e'.seq :=
    sorted.filter _
  simp only [getTransactionConfirmedLength, hhex, h64, not_true_eq_false, ne_eq, or_self, if_false,
    Except.ok.injEq, Option.map_eq_some_iff, find?_eq_some_iff_of_sorted hsorted]
  simp only [createHistoryStream, List.mem_filter, decide_eq_true_eq, FirstRecord, Records]
  constructor
  · rintro ⟨entry, ⟨⟨he, -, hle⟩, ⟨hput, rfl⟩, hmin⟩, rfl⟩
    refine ⟨⟨⟨entry, he, hput, rfl, rfl⟩, ?_⟩, by omega⟩
    rintro _ ⟨e, he', hput', hkey, rfl⟩
    obtain hle' | hlt := Nat.lt_or_ge signedLength e.seq
    · omega
    · exact hmin e ⟨he', by omega, by omega⟩ ⟨hput', hkey⟩
  · rintro ⟨⟨⟨entry, he, hput, rfl, rfl⟩, hmin⟩, hle⟩
    refine ⟨entry, ⟨⟨he, by omega, by omega⟩, ⟨hput, rfl⟩, ?_⟩, rfl⟩
    rintro e ⟨he', -, -⟩ ⟨hput', hkey⟩
    exact hmin e.seq ⟨e, he', hput', hkey, rfl⟩

theorem getTransactionConfirmedLength_ok (history : History) (signedLength : ℕ)
    (hhex : isHexString hash) (h64 : hash.length = 64) :
    ∃ result, history.getTransactionConfirmedLength signedLength hash = .ok result := by
  simp [getTransactionConfirmedLength, hhex, h64]

end Rules

end History

end SettlementBus
