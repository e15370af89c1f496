import FleetSnapshot.Text.Blank
import FleetSnapshot.Text.Digits
/-!
Numbers as a node's remote procedure calls write them, and chain identifiers, which come as such
a number, as a decimal, or as a name.
-/

namespace FleetSnapshot

namespace Quantity

def stripQuotes (cs : List Char) : List Char :=
  ((cs.dropWhile (· == '"')).reverse.dropWhile (· == '"')).reverse

/-- A hexadecimal word of 64 bits behind `0x` or `0X`; blanks around it and then quotes are let go. -/
def read? (s : String) : Option UInt64 :=
  match stripQuotes (Text.trimChars s.toList) with
  | '0' :: x :: rest =>
    if (x = 'x' || x = 'X') && !rest.isEmpty then (Text.word? 16 UInt64.size rest).map UInt64.ofNat
    else none
  | _ => none

end Quantity

namespace ChainId

def value? (s : String) : Option UInt64 :=
  let t := Text.trim s
  (Quantity.read? t).or ((Text.word64? t).map UInt64.ofNat)

def foldCase (s : String) : List Char := (Text.trimChars s.toList).map Char.toLower

/-- Equal as numbers when both are numbers, else equal as names up to the case of ASCII letters. -/
def agree (a b : String) : Bool :=
  match value? a, value? b with
  | some m, some n => m == n
  | _, _ => foldCase a == foldCase b

end ChainId

end FleetSnapshot
