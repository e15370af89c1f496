import FleetSnapshot.Instant
import FleetSnapshot.Text.Blank
import FleetSnapshot.Text.Search
/-!
Moments read from texts. Records carry a date, a time and a zone, and are lenient about widths and
blanks; stored rows may also leave out the seconds and the zone.
-/

namespace FleetSnapshot.Instant

/-- A decimal of one up to `width` digits at the front of the text. -/
def number? (width : Nat) (cs : List Char) : Option (Nat × List Char) :=
  let ds := (cs.takeWhile Char.isDigit).take width
  (Text.numeral? 10 ds).map (·, cs.drop ds.length)

/-- The same after blanks. -/
def part? (width : Nat) (cs : List Char) : Option (Nat × List Char) :=
  number? width (Text.trimStart cs)

/-- Four digits at most, or any number of them behind a sign. -/
def year? (cs : List Char) : Option (Int × List Char) :=
  match Text.trimStart cs with
  | '-' :: rest => (number? rest.length rest).map fun (n, rest) => (-(n : Int), rest)
  | '+' :: rest => (number? rest.length rest).map fun (n, rest) => ((n : Int), rest)
  | cs => (number? 4 cs).map fun (n, rest) => ((n : Int), rest)

/-- A decimal of exactly `width` digits. -/
def fixed? (width : Nat) (cs : List Char) : Option (Nat × List Char) :=
  (Text.numeral? 10 (cs.take width)).bind fun n =>
    if cs.length < width then none else some (n, cs.drop width)

def char? (c : Char) : List Char → Option (List Char)
  | d :: rest => if c = d then some rest else none
  | [] => none

/-- A fraction of a second in nanoseconds. Digits after the ninth do not count. -/
def fraction? : List Char → Option (Nat × List Char)
  | '.' :: rest =>
    let ds := rest.takeWhile Char.isDigit
    (Text.numeral? 10 (ds.take 9)).map fun n => (n * Nat.pow 10 (9 - ds.length), rest.drop ds.length)
  | cs => some (0, cs)

/-- Seconds ahead of universal time: a sign, two digits of hours and two of minutes with colons and
blanks between them. -/
def offset? (gap : List Char → Option (List Char)) (cs : List Char) : Option (Int × List Char) := do
  let (ahead, cs) ← match cs with
    | '+' :: rest => some (true, rest)
    | '-' :: rest => some (false, rest)
    | '−' :: rest => some (false, rest)
    | _ => none
  let (hours, cs) ← fixed? 2 cs
  let cs ← gap cs
  let (minutes, cs) ← fixed? 2 cs
  guard (minutes < 60)
  let seconds : Int := hours * 3600 + minutes * 60
  return (if ahead then seconds else -seconds, cs)

def colonsOrBlanks (cs : List Char) : Option (List Char) :=
  some (cs.dropWhile fun c => c = ':' || Text.isBlank c)

def withinDay (offset : Int) : Bool := -86400 < offset && offset < 86400

/-- Universal time under one of its names, or an offset. -/
def zone? (cs : List Char) : Option (Int × List Char) :=
  match cs with
  | 'Z' :: rest => some (0, rest)
  | 'z' :: rest => some (0, rest)
  | u :: t :: c :: rest =>
    if [u, t, c].map Char.toUpper = ['U', 'T', 'C'] then some (0, rest)
    else offset? colonsOrBlanks cs
  | _ => none

/-- A date: numbers between dashes, with `gap` in front of each dash. -/
def date? (gap : List Char → List Char) (cs : List Char) :
    Option ((Int × Nat × Nat) × List Char) := do
  let (year, cs) ← year? cs
  let cs ← char? '-' (gap cs)
  let (month, cs) ← part? 2 cs
  let cs ← char? '-' (gap cs)
  let (day, cs) ← part? 2 cs
  return ((year, month, day), cs)

/-- A moment as records carry it. -/
def ofText? (s : String) : Option Instant := do
  let ((year, month, day), cs) ← date? Text.trimStart s.toList
  let cs ← match cs with
    | 'T' :: rest => some rest
    | 't' :: rest => some rest
    | ' ' :: rest => some rest
    | _ => none
  let (hour, cs) ← part? 2 cs
  let cs ← char? ':' (Text.trimStart cs)
  let (minute, cs) ← part? 2 cs
  let cs ← char? ':' (Text.trimStart cs)
  let (second, cs) ← part? 2 cs
  let (nanos, cs) ← fraction? cs
  let (offset, cs) ← zone? (Text.trimStart cs)
  guard ((Text.trimStart cs).isEmpty && withinDay offset)
  ofCivil? year month day hour minute second nanos offset

/-- All fields in full width, as the store's own stamps have them. -/
def strict? (cs : List Char) : Option Instant := do
  let (year, cs) ← fixed? 4 cs
  let cs ← char? '-' cs
  let (month, cs) ← fixed? 2 cs
  let cs ← char? '-' cs
  let (day, cs) ← fixed? 2 cs
  let cs ← match cs with
    | 'T' :: rest => some rest
    | 't' :: rest => some rest
    | ' ' :: rest => some rest
    | _ => none
  let (hour, cs) ← fixed? 2 cs
  let cs ← char? ':' cs
  let (minute, cs) ← fixed? 2 cs
  let cs ← char? ':' cs
  let (second, cs) ← fixed? 2 cs
  let (nanos, cs) ← fraction? cs
  let (offset, cs) ← match cs with
    | 'Z' :: rest => some (0, rest)
    | 'z' :: rest => some (0, rest)
    | cs => offset? (char? ':') cs
  guard (cs.isEmpty && withinDay offset)
  ofCivil? year month day hour minute second nanos offset

/-- What may follow the time of day in a stored text. An offset of a day or more is let go. -/
def ending? (cs : List Char) : Option Int :=
  match cs with
  | [] => some 0
  | ['Z'] => some 0
  | cs =>
    match offset? colonsOrBlanks (Text.trimStart cs) with
    | some (offset, []) => some (if withinDay offset then offset else 0)
    | _ => none

/-- A date and hours and minutes, with seconds and a zone if they are there. -/
def loose? (cs : List Char) : Option Instant := do
  let ((year, month, day), cs) ← date? id cs
  let cs := match cs with
    | 'T' :: rest => rest
    | cs => cs
  let (hour, cs) ← part? 2 cs
  let cs ← char? ':' cs
  let (minute, cs) ← part? 2 cs
  match ending? cs with
  | some offset => ofCivil? year month day hour minute 0 0 offset
  | none => do
    let cs ← char? ':' cs
    let (second, cs) ← part? 2 cs
    let (nanos, cs) ← fraction? cs
    let offset ← ending? cs
    ofCivil? year month day hour minute second nanos offset

def ofColumnText? (s : String) : Option Instant := (strict? s.toList).or (loose? s.toList)

def ofSeconds? (n : Int) : Option Instant :=
  if inRange (dateAt (n / 86400)).1 then some ⟨n, 0⟩ else none

/-- A moment from a stored number of days, counted from the beginning of the Julian period. -/
def ofJulianDay? (q : Rat) : Option Instant :=
  let t := (q - (4881175 : Rat) / 2) * 86400
  let whole := if t < 0 then -((-t).floor) else t.floor
  let part := t - whole
  let nanos := ((if part < 0 then -part else part) * 1000000000).floor.toNat
  (ofSeconds? whole).map fun i => { i with nanos }

end FleetSnapshot.Instant
