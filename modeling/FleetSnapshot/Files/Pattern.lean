import FleetSnapshot.Files
/-!
Paths with wildcards in them: what they are made of, what makes them malformed, and the entries that
they stand for. A name on the way that has no wildcard is followed as it is. A pattern ends with a
name, not with a slash.
-/

namespace FleetSnapshot

namespace Pattern

inductive Token where
  | char (c : Char)
  /-- One character, whichever it is. -/
  | any
  /-- Any number of characters. -/
  | run
  /-- Any number of directories on the way. -/
  | deep
  /-- One character that is inside one of these bounds, or else inside none. -/
  | range (inside : Bool) (bounds : List (Char × Char))
  deriving DecidableEq, Repr

inductive Flaw where
  | stars
  | partOfName
  | range
  deriving DecidableEq, Repr

def Flaw.message : Flaw → String
  | .stars => "wildcards are either regular `*` or recursive `**`"
  | .partOfName => "recursive wildcards must form a single path component"
  | .range => "invalid range pattern"

structure Fault where
  position : Nat
  flaw : Flaw
  deriving DecidableEq, Repr

def Fault.message (f : Fault) : String :=
  s!"Pattern syntax error near position {f.position}: {f.flaw.message}"

/-- The bounds in a pair of brackets. A dash at either end stands for itself. -/
def bounds : List Char → List (Char × Char)
  | a :: '-' :: b :: cs => (a, b) :: bounds cs
  | a :: cs => (a, a) :: bounds cs
  | [] => []

/-- The range that opens before these characters, and how many of them it takes. A closing bracket
right at its front is one of its characters. -/
def range? (cs : List Char) : Option (Token × Nat) :=
  let (inside, body) := match cs with
    | '!' :: rest => (false, rest)
    | _ => (true, cs)
  match body with
  | [] => none
  | first :: rest =>
    let more := rest.takeWhile (· != ']')
    if more.length < rest.length then
      some (.range inside (bounds (first :: more)), cs.length - rest.length + more.length + 1)
    else none

/-- The tokens of a text, of which the first `skip` characters have been taken before. -/
def tokens? (before : Option Char) (position skip : Nat) : List Char → Except Fault (List Token)
  | [] => .ok []
  | c :: cs =>
    match skip with
    | skip + 1 => tokens? (some c) (position + 1) skip cs
    | 0 =>
      let take (t : Token) (more : Nat) :=
        (tokens? (some c) (position + 1) more cs).map (t :: ·)
      match c with
      | '?' => take .any 0
      | '[' =>
        match range? cs with
        | some (t, more) => take t more
        | none => .error { position, flaw := .range }
      | '*' =>
        match (cs.takeWhile (· == '*')).length with
        | 0 => take .run 0
        | 1 =>
          if before.any (· != '/') then .error { position := position - 1, flaw := .partOfName }
          else
            match cs.drop 1 with
            | [] => take .deep 1
            | '/' :: _ => take .deep 2
            | _ => .error { position := position + 2, flaw := .partOfName }
        | _ => .error { position := position + 2, flaw := .stars }
      | c => take (.char c) 0

/-- One name on the way. -/
inductive Part where
  | name (s : String)
  | shape (ts : List Token)
  | deep
  deriving DecidableEq, Repr

def Token.isChar : Token → Bool
  | .char _ => true
  | _ => false

def part? (cs : List Char) : Except Fault Part :=
  (tokens? none 0 0 cs).map fun ts =>
    if ts = [.deep] then .deep else if ts.all (·.isChar) then .name (String.ofList cs) else .shape ts

/-- Whether a text has an end, the whole text or none of it among them, that is as wanted. -/
def anyEnd (p : List Char → Bool) : List Char → Bool
  | [] => p []
  | c :: cs => p (c :: cs) || anyEnd p cs

def fits : List Token → List Char → Bool
  | [], cs => cs.isEmpty
  | .run :: ts, cs | .deep :: ts, cs => anyEnd (fits ts) cs
  | .char _ :: _, [] | .any :: _, [] | .range .. :: _, [] => false
  | .char c' :: ts, c :: cs => c == c' && fits ts cs
  | .any :: ts, _ :: cs => fits ts cs
  | .range inside bs :: ts, c :: cs =>
    bs.any (fun (a, b) => decide (a ≤ c ∧ c ≤ b)) == inside && fits ts cs

def Part.fits : Part → String → Bool
  | .name s, called => s == called
  | .shape ts, called => Pattern.fits ts called.toList
  | .deep, _ => true

structure Place where
  rooted : Bool
  names : List String
  deriving DecidableEq, Repr

namespace Place

def start (rooted : Bool) : Place := { rooted, names := if rooted then [] else ["."] }

/-- A place as messages have it. -/
def shown (p : Place) : String := (if p.rooted then "/" else "") ++ "/".intercalate p.names

def name (p : Place) : String := p.names.getLastD ""

/-- Whether it is the working directory, by no other name than its own. -/
def here (p : Place) : Bool := !p.rooted && p.names.all (· == ".")

def enter (p : Place) (name : String) : Place :=
  { p with names := if p.here then [name] else p.names ++ [name] }

/-- A name as a pattern has it. An empty one changes nothing, but stands for nothing where no other
name is before it. -/
def follow? (p : Place) (name : String) : Option Place :=
  if name.isEmpty then if p.here then none else some p else some (p.enter name)

/-- The entries of a directory that a pattern may take. The directory and the one above are among
them if the pattern begins as they do. -/
def entries (fs : Files) (ts : List Token) (p : Place) : List Place :=
  let special := if ts.head? = some (.char '.') then ["..", "."] else []
  (special.filter (fits ts ·.toList)).map (fun name => { p with names := p.names ++ [name] }) ++
    ((fs.list p.shown).filter (fits ts ·.toList)).map p.enter

/-- All that is below a directory, each directory before what it holds. -/
def below (fs : Files) : Nat → Place → List Place
  | 0, _ => []
  | depth + 1, p => (fs.list p.shown).flatMap fun name => p.enter name :: below fs depth (p.enter name)

end Place

/-- The places that the parts lead to, in the order in which they are come by. -/
def search (fs : Files) : List Part → Place → List Place
  | [], p => [p]
  | .name s :: parts, p => ((p.follow? s).toList).flatMap (search fs parts)
  | .shape ts :: parts, p => (p.entries fs ts).flatMap (search fs parts)
  | .deep :: parts, p => searchBelow fs parts (p.below fs fs.depth)
where
  /-- The first name that is not any number of directories is looked for at each of the places. -/
  searchBelow (fs : Files) : List Part → List Place → List Place
  | [], ps => ps.filter fun p => fs.isDirectory (fs.names p.shown)
  | .deep :: parts, ps => searchBelow fs parts ps
  | part :: parts, ps => (ps.filter fun p => part.fits p.name).flatMap (search fs parts)

end Pattern

structure Pattern where
  rooted : Bool
  parts : List Pattern.Part
  deriving DecidableEq, Repr

namespace Pattern

/-- What follows the root in a path that has one. -/
def unrooted : List Char → List Char
  | '/' :: cs => cs
  | cs => cs

/-- The whole has to be well-formed, and each name on its own. -/
def read? (s : String) : Except Fault Pattern := do
  let _ ← tokens? none 0 0 s.toList
  let parts ← (Text.fields '/' (unrooted s.toList)).mapM part?
  return { rooted := Files.rooted s, parts }

def find (fs : Files) (p : Pattern) : List Place := search fs p.parts (.start p.rooted)

end Pattern

end FleetSnapshot
