/-! # Hexadecimal numerals

Addresses, opcodes and register values are written in upper-case hexadecimal,
filled with zeros up to a least width.
-/

namespace ChipEight

/-- The hexadecimal digits of a number, most significant first, with letters in
upper case. -/
def hexDigits (number : Nat) : List Char :=
  (Nat.toDigits 16 number).map Char.toUpper

/-- A number in hexadecimal with at least `width` digits, zeros standing in
front of the shorter ones. -/
def hexadecimal (width number : Nat) : String :=
  String.ofList ((hexDigits number).leftpad width '0')

/-- The digits of a hexadecimal numeral are its own, behind the fill. -/
theorem toList_hexadecimal (width number : Nat) :
    (hexadecimal width number).toList =
      List.replicate (width - (hexDigits number).length) '0' ++ hexDigits number := by
  simp only [hexadecimal, String.toList_ofList, List.leftpad]

end ChipEight
