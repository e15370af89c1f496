/-!
Texts as bytes. Bytes that are no text fall into the longest runs that could have begun a character.
-/

namespace FleetSnapshot.Text

def utf8Char (c : Char) : List Nat :=
  let n := c.toNat
  if n < 0x80 then [n]
  else if n < 0x800 then [0xC0 + n / 0x40, 0x80 + n % 0x40]
  else if n < 0x10000 then [0xE0 + n / 0x1000, 0x80 + n / 0x40 % 0x40, 0x80 + n % 0x40]
  else [0xF0 + n / 0x40000, 0x80 + n / 0x1000 % 0x40, 0x80 + n / 0x40 % 0x40, 0x80 + n % 0x40]

def utf8 (s : String) : List Nat := s.toList.flatMap utf8Char

/-- For a byte that begins a character of several: how many others follow, the bounds of the first
of those, and what the byte itself stands for. -/
def lead? (b : Nat) : Option (Nat × (Nat × Nat) × Nat) :=
  if 0xC2 ≤ b && b ≤ 0xDF then some (1, (0x80, 0xBF), b - 0xC0)
  else if b = 0xE0 then some (2, (0xA0, 0xBF), 0)
  else if b = 0xED then some (2, (0x80, 0x9F), 0xD)
  else if 0xE1 ≤ b && b ≤ 0xEF then some (2, (0x80, 0xBF), b - 0xE0)
  else if b = 0xF0 then some (3, (0x90, 0xBF), 0)
  else if 0xF1 ≤ b && b ≤ 0xF3 then some (3, (0x80, 0xBF), b - 0xF0)
  else if b = 0xF4 then some (3, (0x80, 0x8F), 4)
  else none

/-- The following bytes added up, and how many of them there were. -/
def continuation (count : Nat) (bounds : Nat × Nat) (acc : Nat) : List Nat → Option Nat × Nat
  | [] => if count = 0 then (some acc, 0) else (none, 0)
  | b :: bs =>
    match count with
    | 0 => (some acc, 0)
    | count + 1 =>
      if bounds.1 ≤ b && b ≤ bounds.2 then
        let (value, taken) := continuation count (0x80, 0xBF) (acc * 0x40 + (b - 0x80)) bs
        (value, taken + 1)
      else (none, 0)

/-- The characters that bytes stand for, `none` for a run that is no character. The number counts
the bytes left of a character that has been read. -/
def decodeFrom : Nat → List Nat → List (Option Char)
  | _, [] => []
  | n + 1, _ :: bs => decodeFrom n bs
  | 0, b :: bs =>
    if b < 0x80 then some (Char.ofNat b) :: decodeFrom 0 bs
    else
      match lead? b with
      | none => none :: decodeFrom 0 bs
      | some (count, bounds, acc) =>
        let (value, taken) := continuation count bounds acc bs
        value.map Char.ofNat :: decodeFrom taken bs

/-- The text that bytes stand for. -/
def ofUtf8? (bytes : List Nat) : Option String :=
  ((decodeFrom 0 bytes).mapM id).map String.ofList

/-- The same with a replacement character for what is no text. -/
def ofUtf8Lossy (bytes : List Nat) : String :=
  String.ofList ((decodeFrom 0 bytes).map (·.getD '\uFFFD'))

end FleetSnapshot.Text
