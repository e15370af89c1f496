/-!
Reading numbers. A numeral is one or more digits of its base, leading zeros included, below a
bound; the word-sized readers accept one leading plus as well.
-/

namespace FleetSnapshot.Text

/-- The value of a digit, letters of either case standing for ten to fifteen. -/
def digit? (base : Nat) (c : Char) : Option Nat :=
  let n := c.toNat
  let v :=
    if 48 ≤ n && n ≤ 57 then some (n - 48)
    else if 97 ≤ n && n ≤ 102 then some (n - 87)
    else if 65 ≤ n && n ≤ 70 then some (n - 55)
    else none
  v.filter (· < base)

def digits? (base : Nat) (cs : List Char) : Option (List Nat) := cs.mapM (digit? base)

/-- The number that digits stand for, the most significant first. -/
def ofDigits (base : Nat) (ds : List Nat) : Nat := ds.foldl (fun n d => n * base + d) 0

def numeral? (base : Nat) : List Char → Option Nat
  | [] => none
  | cs => (digits? base cs).map (ofDigits base)

/-- A numeral below the bound, with at most one plus in front. -/
def word? (base bound : Nat) (cs : List Char) : Option Nat :=
  let body := match cs with
    | '+' :: rest => rest
    | cs => cs
  (numeral? base body).filter (· < bound)

/-- The first number beyond the signed words of 64 bits. -/
def signBound : Nat := UInt64.size / 2

/-- A decimal numeral of a signed word of 64 bits. -/
def signed? : List Char → Option Int
  | '-' :: rest => ((numeral? 10 rest).filter (· ≤ signBound)).map fun n => -(n : Int)
  | cs => (word? 10 signBound cs).map fun n => (n : Int)

def word32? (s : String) : Option Nat := word? 10 UInt32.size s.toList

def word64? (s : String) : Option Nat := word? 10 UInt64.size s.toList

/-- The first number that a double cannot hold. -/
def doubleBound : Nat := Nat.pow 2 1024 - Nat.pow 2 970

/-- Whether `digits` with the point moved `up` and then `down` places is below that number. -/
def inReach (digits up down : Nat) : Bool :=
  let size := (Nat.toDigits 10 digits).length
  if digits = 0 then true
  else if size + up > down + 310 then false
  else if size + up < down + 300 then true
  else digits * Nat.pow 10 up < doubleBound * Nat.pow 10 down

end FleetSnapshot.Text
