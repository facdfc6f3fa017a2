import SettlementBus.Lib.Decimal
import SettlementBus.Lib.Text
import SettlementBus.Utils.Buffer

/-! `amountSerialization.js`: amounts as decimal strings. -/

namespace SettlementBus

open Lib

def maxAmount : ℕ := 2 ^ 128 - 1

inductive AmountError
  | negativeAmount
  | invalidFormat
  | tooManyDecimalPlaces (decimals : ℤ)
  | exceedsMaximum
  | invalidDecimals
  | valueTooSmall (decimals : ℤ)
  deriving DecidableEq

def AmountError.message : AmountError → Str
  | negativeAmount => "Negative amounts are not allowed".toList
  | invalidFormat => "Invalid decimal format. Use format: 123.456".toList
  | tooManyDecimalPlaces decimals =>
    "Too many decimal places. Maximum allowed: ".toList ++ (toString decimals).toList
  | exceedsMaximum => "Amount exceeds maximum allowed value (2^128 - 1)".toList
  | invalidDecimals => "Decimals must be a non-negative integer".toList
  | valueTooSmall decimals =>
    "Value too small for given decimals (".toList ++ (toString decimals).toList ++ ")".toList

/-- `/^\d+(\.\d+)?$/` -/
def isDecimalFormat (s : Str) : Bool :=
  !(s.takeWhile Char.isDigit).isEmpty &&
    match s.dropWhile Char.isDigit with
    | [] => true
    | c :: fraction => c = '.' && !fraction.isEmpty && fraction.all Char.isDigit

/-- A string of digits is in the format of `BigInt`. -/
def decimalStringToBigInt (inputString : Str) (decimals : ℤ) : Except AmountError ℕ :=
  let trimmedInput := Text.trim inputString
  if trimmedInput.head? = some '-' then .error .negativeAmount
  else if !isDecimalFormat trimmedInput then .error .invalidFormat
  else
    let parts := trimmedInput.splitOn '.'
    let integerPart := parts[0]?.getD []
    let fractionalPart := parts[1]?.getD []
    if decimals < fractionalPart.length then .error (.tooManyDecimalPlaces decimals)
    else
      let fractionalPart := Text.padEnd decimals '0' fractionalPart
      let value := Decimal.value (integerPart ++ fractionalPart)
      if maxAmount < value then .error .exceedsMaximum else .ok value

def bigIntToDecimalString (bigIntValue decimals : ℤ) : Except AmountError Str :=
  if decimals < 0 then .error .invalidDecimals
  else if bigIntValue < 0 then .error .negativeAmount
  else if maxAmount < bigIntValue then .error .exceedsMaximum
  else
    let str := Text.padStart (decimals + 1) '0' (Nat.toDigits 10 bigIntValue.toNat)
    if str.length ≤ decimals then .error (.valueTooSmall decimals)
    else
      let integerPart := Text.slice str 0 (-decimals)
      let integerPart := if integerPart.isEmpty then ['0'] else integerPart
      let fractionalPart := Decimal.dropZeros (Text.sliceFrom str (-decimals))
      .ok (if 0 < fractionalPart.length then integerPart ++ '.' :: fractionalPart else integerPart)

end SettlementBus
