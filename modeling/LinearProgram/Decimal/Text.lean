import LinearProgram.Decimal.Shortest

namespace LinearProgram

/-!
# Numbers in messages

Numbers are written with their shortest decimal.  A style says which of them
are written positionally and what follows a whole number; the others get an
exponent.  Three styles are in use.
-/

namespace Decimal

/-- How a number is laid out. -/
structure Style where
  /-- Whether a number with the given decimal exponent is written positionally. -/
  positional : Int → Bool
  /-- What follows a whole number that is written positionally. -/
  wholeMark : String

/-- Every number is written positionally, and whole numbers have no point. -/
def plain : Style := ⟨fun _ => true, ""⟩

/-- Every number has an exponent. -/
def scientific : Style := ⟨fun _ => false, ""⟩

/-- Numbers from 10⁻⁴ up to 10¹⁶ are written positionally, with a point. -/
def pointed : Style := ⟨fun exponent => -4 ≤ exponent && exponent < 16, ".0"⟩

/-- A row of zeros. -/
def zeros (count : Nat) : List Char :=
  List.replicate count '0'

/-- Digits around a decimal point that has the given number of places before it. -/
def positionalText (digits : List Char) (places : Int) (wholeMark : String) : String :=
  if places ≤ 0 then "0." ++ String.ofList (zeros (-places).toNat ++ digits)
  else
    let before := digits.take places.toNat
    let after := digits.drop places.toNat
    if after.isEmpty then
      String.ofList (before ++ zeros (places.toNat - before.length)) ++ wholeMark
    else String.ofList before ++ "." ++ String.ofList after

/-- Digits with a point after the first one, and an exponent. -/
def exponentText (digits : List Char) (exponent : Int) : String :=
  let after := digits.drop 1
  let point := if after.isEmpty then "" else "."
  String.ofList (digits.take 1) ++ point ++ String.ofList after ++ "e" ++ toString exponent

/-- The text of a decimal number. -/
def DecimalNumber.text (style : Style) (number : DecimalNumber) : String :=
  let digits := Nat.toDigits 10 number.digits
  let places := number.exponent + digits.length
  if style.positional (places - 1) then positionalText digits places style.wholeMark
  else exponentText digits (places - 1)

/-- The text of a number without its sign. -/
def magnitudeText (style : Style) (bits : UInt64) : String :=
  let number := BinaryNumber.ofBits bits
  if number.significand = 0 then DecimalNumber.text style ⟨0, 0⟩
  else number.shortest.text style

/-- The text of a number.  Zero keeps its sign. -/
def text (style : Style) (value : Float) : String :=
  if value.isNaN then "NaN"
  else
    let bits := value.toBits
    let sign := if bits >>> 63 = 1 then "-" else ""
    sign ++ if value.isInf then "inf" else magnitudeText style bits

end Decimal

end LinearProgram
