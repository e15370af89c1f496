import FleetSnapshot.Order
import FleetSnapshot.Text.Search
import FleetSnapshot.Text.Utf8
/-!
Files and directories by their paths. A path leads from the working directory, which may also be
named in full, or from the root of the machine.
-/

namespace FleetSnapshot

inductive Files.Entry where
  | file (bytes : List Nat)
  | directory
  deriving DecidableEq, Repr, Inhabited

/-- Entries by the names on their way. The directories on the way of an entry need none of their
own. -/
structure Files where
  home : String
  entries : List (List String × Files.Entry)
  deriving DecidableEq, Repr, Inhabited

namespace Files

inductive Fault where
  | missing
  | notDirectory
  | isDirectory
  | exists
  | notText
  deriving DecidableEq, Repr

def Fault.message : Fault → String
  | .missing => "No such file or directory (os error 2)"
  | .notDirectory => "Not a directory (os error 20)"
  | .isDirectory => "Is a directory (os error 21)"
  | .exists => "File exists (os error 17)"
  | .notText => "stream did not contain valid UTF-8"

def rooted (path : String) : Bool := path.toList.head? == some '/'

/-- The names in a path as it is written, without the empty ones. -/
def written (path : String) : List String :=
  ((Text.fields '/' path.toList).filter (!·.isEmpty)).map String.ofList

/-- Without the working directory in front. -/
def split (path : String) : List String :=
  if rooted path then written path else (written path).dropWhile (· == ".")

/-- The names on the way from the root of the machine to the working directory. -/
def homeward (fs : Files) : List String := "/" :: split fs.home

def at? (fs : Files) (names : List String) : Option Entry :=
  match fs.entries.find? (·.1 == names) with
  | some (_, e) => some e
  | none =>
    if names.isEmpty || names.isPrefixOf fs.homeward ||
        fs.entries.any (fun (way, _) => names.isPrefixOf way) then some .directory
    else none

/-- The names on the way of a path, from the working directory. Those of a path that leads elsewhere
begin with a slash. -/
def names (fs : Files) (path : String) : List String :=
  let way := split path
  let known := fs.home.isEmpty || rooted path == rooted fs.home
  match if known then (split fs.home).isPrefixOf? way else none with
  | some rest => rest
  | none => if rooted path then "/" :: way else way

def step (fs : Files) (way : List String) (name : String) : List String :=
  if name = "." then way
  else
    let next :=
      if name = ".." then
        match way with
        | [] => fs.homeward.dropLast
        | ["/"] => ["/"]
        | _ => way.dropLast
      else way ++ [name]
    if next = fs.homeward then [] else next

/-- Where a path leads if all its names are those of directories. -/
def settle (fs : Files) (path : String) : List String := (fs.names path).foldl fs.step []

/-- Follows names one by one through directories that are there. -/
def walk (fs : Files) : List String → List String → Except Fault (List String)
  | way, [] => .ok way
  | way, name :: names =>
    match fs.at? way with
    | none => .error .missing
    | some (.file _) => .error .notDirectory
    | some .directory => walk fs (fs.step way name) names

/-- Where a path leads to. Nothing need be at its end. -/
def locate (fs : Files) (path : String) : Except Fault (List String) :=
  if path.isEmpty then .error .missing else fs.walk [] (fs.names path)

def find (fs : Files) (path : String) : Except Fault Entry := do
  let way ← fs.locate path
  match fs.at? way with
  | some e => return e
  | none => throw .missing

def readText (fs : Files) (path : String) : Except Fault String := do
  match ← fs.find path with
  | .directory => throw .isDirectory
  | .file bytes =>
    match Text.ofUtf8? bytes with
    | some s => return s
    | none => throw .notText

/-- No way is longer than this. -/
def depth (fs : Files) : Nat :=
  fs.entries.foldl (fun n (way, _) => max n way.length) 0 + fs.homeward.length

def list (fs : Files) (path : String) : List String :=
  match fs.locate path with
  | .error _ => []
  | .ok way =>
    let names := (fs.homeward :: fs.entries.map (·.1)).filterMap fun p =>
      if way.isPrefixOf p then (p.drop way.length).head? else none
    Order.sort (fun a b => !decide (b < a)) (names.filter (· != "/")).eraseDups

def put (fs : Files) (way : List String) (e : Entry) : Files :=
  { fs with entries := (way, e) :: fs.entries.filter (·.1 != way) }

def isDirectory (fs : Files) (names : List String) : Bool :=
  match fs.walk [] names with
  | .ok way => fs.at? way == some .directory
  | .error _ => false

/-- Makes a directory where nothing is yet. -/
def makeDirectory (fs : Files) (names : List String) : Except Fault Files := do
  let way ← fs.walk [] names
  match fs.at? way with
  | some _ => throw .exists
  | none => return fs.put way .directory

/-- Takes a directory that is there already for one that has been made. -/
def orPresent (fs : Files) (names : List String) : Except Fault Files → Except Fault Files
  | .ok fs => .ok fs
  | .error f => if fs.isDirectory names then .ok fs else .error f

/-- Makes a directory, given by its names from the last to the first, and those on its way. -/
def makeWay (fs : Files) : List String → Except Fault Files
  | [] => .ok fs
  | name :: way =>
    let names := (name :: way).reverse
    match fs.makeDirectory names with
    | .error .missing => do
      let fs ← fs.makeWay way
      fs.orPresent names (fs.makeDirectory names)
    | made => fs.orPresent names made

end Files

end FleetSnapshot
