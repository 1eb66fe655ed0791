namespace ChipEight.Numeral

def decimal (n : Nat) : String :=
  .ofList (Nat.toDigits 10 n)

def lowerHex (n : Nat) : String :=
  .ofList (Nat.toDigits 16 n)

/-- Filled up with zeros to `width` digits; a longer numeral is not cut. -/
def upperHex (width n : Nat) : String :=
  let digits := (Nat.toDigits 16 n).map Char.toUpper
  .ofList (.replicate (width - digits.length) '0' ++ digits)

end ChipEight.Numeral
