import EngineFuzz.Text.Quoted

/-!
# Hexadecimal texts

Bytes and words written with hexadecimal digits, the most significant first.

* `bytesHex`, `hexBytes?`: two digits a byte.
* `paddedHex`, `hexNat?`: numbers.
-/

namespace EngineFuzz

/-- The value of a digit of either case. -/
def hexDigit? (c : Char) : Option Nat :=
  if '0' ≤ c ∧ c ≤ '9' then some (c.toNat - '0'.toNat)
  else if 'a' ≤ c ∧ c ≤ 'f' then some (c.toNat - 'a'.toNat + 10)
  else if 'A' ≤ c ∧ c ≤ 'F' then some (c.toNat - 'A'.toNat + 10)
  else none

/-- The number with these digits. -/
def hexNat? (s : String) : Option Nat :=
  s.toList.foldlM (fun n c => do return 16 * n + (← hexDigit? c)) 0

/-- The digits of a number, with leading zeros up to a width. -/
def paddedHex (width n : Nat) : String :=
  let digits := hexText n
  String.ofList (List.replicate (width - digits.length) '0' ++ digits)

/-- The digits of bytes. -/
def bytesHex (bytes : List UInt8) : String :=
  String.ofList (bytes.foldr (fun b tail => hexByte b ++ tail) [])

/-- The bytes with these digits. -/
def hexBytesOf? : List Char → Option (List UInt8)
  | [] => some []
  | a :: b :: rest => do
    let high ← hexDigit? a
    let low ← hexDigit? b
    return (high * 16 + low).toUInt8 :: (← hexBytesOf? rest)
  | _ => none

def hexBytes? (s : String) : Option (List UInt8) := hexBytesOf? s.toList

end EngineFuzz
