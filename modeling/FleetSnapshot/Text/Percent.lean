import FleetSnapshot.Text.Digits
import FleetSnapshot.Text.Search
import FleetSnapshot.Text.Utf8
/-!
Texts inside addresses: a byte may stand as a percent sign and two hexadecimal digits, and the names
and values of a query are joined by ampersands and equals signs.
-/

namespace FleetSnapshot.Text

/-- The number counts the bytes left of an escape that has been read. -/
def percentFrom : Nat → List Nat → List Nat
  | _, [] => []
  | n + 1, _ :: bs => percentFrom n bs
  | 0, b :: bs =>
    match (if b = 0x25 && 2 ≤ bs.length then numeral? 16 ((bs.take 2).map Char.ofNat) else none) with
    | some v => v :: percentFrom 2 bs
    | none => b :: percentFrom 0 bs

def percentDecode (s : String) : List Nat := percentFrom 0 (utf8 s)

/-- A name or a value of a query, where a plus stands for a blank. -/
def queryPart (cs : List Char) : String :=
  ofUtf8Lossy (percentDecode (String.ofList (cs.map fun c => if c = '+' then ' ' else c)))

/-- The names and values of a query in order. A name without a value has an empty one. -/
def queryPairs (query : String) : List (String × String) :=
  ((fields '&' query.toList).filter (!·.isEmpty)).map fun cs =>
    match cut? ['='] cs with
    | some (name, value) => (queryPart name, queryPart value)
    | none => (queryPart cs, "")

end FleetSnapshot.Text
