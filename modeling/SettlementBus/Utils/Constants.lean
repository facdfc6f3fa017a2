import SettlementBus.Utils.Buffer

namespace SettlementBus

def writerByteLength : ℕ := 32
def bootstrapByteLength : ℕ := 32
def channelByteLength : ℕ := 32
def nonceByteLength : ℕ := 32
def hashByteLength : ℕ := 32
def balanceByteLength : ℕ := 16
def signatureByteLength : ℕ := 64
def amountByteLength : ℕ := 16
def licenseByteLength : ℕ := 4

def batchSize : ℕ := 10

def maximumOperationPayloadSize : ℕ := 4096

/-- 0.03 of an 18 decimals token. -/
def fee : Buffer := [0, 0, 0, 0, 0, 0, 0, 0, 0, 0x6a, 0x94, 0xd7, 0x4f, 0x43, 0, 0]

def adminInitialBalance : Buffer := [0, 0, 0, 0, 0, 0, 0, 54, 53, 201, 173, 197, 222, 160, 0, 0]

def adminInitialStakedBalance : Buffer := [0, 0, 0, 0, 0, 0, 0, 0, 4, 41, 208, 105, 24, 158, 0, 0]

inductive OperationType
  | addAdmin
  | disableInitialization
  | balanceInitialization
  | appendWhitelist
  | addWriter
  | removeWriter
  | adminRecovery
  | addIndexer
  | removeIndexer
  | banValidator
  | bootstrapDeployment
  | tx
  | transfer
  deriving DecidableEq, Repr

namespace OperationType

/-- The number of the type in `applyOperations.cjs`. -/
def code : OperationType → ℕ
  | addAdmin => 1
  | disableInitialization => 2
  | balanceInitialization => 3
  | appendWhitelist => 4
  | addWriter => 5
  | removeWriter => 6
  | adminRecovery => 7
  | addIndexer => 8
  | removeIndexer => 9
  | banValidator => 10
  | bootstrapDeployment => 11
  | tx => 12
  | transfer => 13

def ofCode : ℕ → Option OperationType
  | 1 => some addAdmin
  | 2 => some disableInitialization
  | 3 => some balanceInitialization
  | 4 => some appendWhitelist
  | 5 => some addWriter
  | 6 => some removeWriter
  | 7 => some adminRecovery
  | 8 => some addIndexer
  | 9 => some removeIndexer
  | 10 => some banValidator
  | 11 => some bootstrapDeployment
  | 12 => some tx
  | 13 => some transfer
  | _ => none

@[simp] theorem ofCode_code (t : OperationType) : ofCode t.code = some t := by
  cases t <;> rfl

theorem code_of_ofCode {n : ℕ} {t : OperationType} (h : ofCode n = some t) : t.code = n := by
  unfold ofCode at h
  split at h <;> cases h <;> rfl

theorem code_injective : Function.Injective code := by
  intro s t h
  have := congrArg ofCode h
  simpa using this

theorem isUInt32_code (t : OperationType) : isUInt32 t.code := by
  cases t <;> decide

end OperationType

inductive Status
  | success
  | failure
  | ignore
  deriving DecidableEq, Repr

end SettlementBus
