import FleetSnapshot.Text.Digits
import FleetSnapshot.Text.Search
/-!
Names of hosts where nobody can be asked for them: addresses stand for themselves, and the machine
knows its own name.
-/

namespace FleetSnapshot.Text

/-- Four numbers below 256 with points between them. -/
def isQuad (host : List Char) : Bool :=
  let parts := fields '.' host
  parts.length == 4 && parts.all fun p =>
    (numeral? 10 p).any (· < 256) && (p.length == 1 || p.head? != some '0')

/-- Hexadecimal numbers with colons between them, maybe in brackets. -/
def isColonAddress (host : List Char) : Bool :=
  let inner := match host with
    | '[' :: rest => rest.dropLast
    | cs => cs
  inner.contains ':' && 2 ≤ inner.length && (fields ':' inner).length ≤ 8 && inner.all fun c =>
    c == ':' || (digit? 16 c).isSome

def isAddress (host : List Char) : Bool := isQuad host || isColonAddress host

/-- Why a name cannot be found, if so. -/
def lookupFault? (host : String) : Option String :=
  if isAddress host.toList || host = "localhost" then none
  else if host.isEmpty then
    some "failed to lookup address information: Name or service not known"
  else some "failed to lookup address information: Temporary failure in name resolution"

end FleetSnapshot.Text
