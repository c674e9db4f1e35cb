import AdaptiveDispatch.Fault
import AdaptiveDispatch.Text.Blank

/-!
# Settings

The settings fix how many shapes the sites of an engine remember and which method
converts an object to an integer. They are read when a site is made.

Limits can also come from environment variables. `readLimit?` is the grammar of such a
text. Anything else in a variable counts as if it were not set.
-/

namespace AdaptiveDispatch

structure Settings where
  coercionLimit : Nat := 8
  sequenceLimit : Nat := 4
  conversionMethod : String := "to_int"
  deriving DecidableEq

namespace Settings

/-- Every site remembers one shape. -/
def monomorphic : Settings :=
  { coercionLimit := 1, sequenceLimit := 1 }

/-- No site remembers anything. -/
def uncached : Settings :=
  { coercionLimit := 0, sequenceLimit := 0 }

/-- The greatest limit that an engine accepts. -/
def greatestLimit : Nat :=
  64

/-- The greatest number that the text of a limit may denote. -/
def greatestNumber : Nat :=
  UInt64.size - 1

/-- One or more decimal digits that denote a 64-bit number. -/
def readDigits? (digits : List Char) : Option Nat :=
  if !digits.isEmpty && digits.all (·.isDigit) then
    let number := Nat.ofDigitChars 10 digits 0
    if number ≤ greatestNumber then some number else none
  else
    none

/-- A limit is written as digits with an optional plus sign, between blanks. -/
def readLimit? (text : String) : Option Nat :=
  match Text.trim text.toList with
  | '+' :: digits => readDigits? digits
  | digits => readDigits? digits

def coercionVariable : String :=
  "GARNET_SPECIALIZATION_LIMIT"

def sequenceVariable : String :=
  "GARNET_STORAGE_STRATEGY_LIMIT"

/-- Replace each limit whose variable is set to the text of a limit. -/
def overlay (settings : Settings) (lookup : String → Option String) : Settings :=
  { settings with
    coercionLimit := ((lookup coercionVariable).bind readLimit?).getD settings.coercionLimit
    sequenceLimit := ((lookup sequenceVariable).bind readLimit?).getD settings.sequenceLimit }

/-- Refuse a limit above the greatest one. -/
def checkLimit (name : String) (limit : Nat) : Except Fault.Setup Unit :=
  if limit ≤ greatestLimit then .ok () else .error (.invalidLimit name limit greatestLimit)

/-- Refuse settings with a limit out of range. -/
def validate (settings : Settings) : Except Fault.Setup Unit := do
  checkLimit "specialization_limit" settings.coercionLimit
  checkLimit "storage_strategy_limit" settings.sequenceLimit

end Settings

end AdaptiveDispatch
