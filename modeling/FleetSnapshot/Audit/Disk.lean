import FleetSnapshot.Audit.Schema
import FleetSnapshot.Audit.Store
import FleetSnapshot.Files
import FleetSnapshot.Text.Percent
/-!
Audit stores on a disk. A path is taken for an address: what is escaped in it is read, a question
mark ends it, and one name stands for a store in memory. Opening makes the directories on the way
and the store itself where there is none, and brings its tables up to date.
-/

namespace FleetSnapshot.Audit

structure Disk where
  files : Files
  /-- The stores among the files, by their names on the way. -/
  stores : List (List String × Store) := []

namespace Disk

inductive Fault where
  | directory (f : Files.Fault)
  | address (reason : String)
  | refused (f : StoreFault)
  | schema (f : Schema.Fault)
  deriving DecidableEq, Repr

def Fault.message : Fault → String
  | .directory f => f.message
  | .address reason => s!"error with configuration: {reason}"
  | .refused f => f.message
  | .schema f => f.message

def cannotOpen : Fault := .refused (.engine 14 "unable to open database file")

inductive Place where
  | file (path : String)
  | memory
  deriving DecidableEq, Repr

/-- Leaves out `pat` as often as it stands at the front, up to `bound` times. -/
def stripAll (pat : List Char) : Nat → List Char → List Char
  | 0, cs => cs
  | bound + 1, cs =>
    match Text.strip? pat cs with
    | some rest => stripAll pat bound rest
    | none => cs

/-- Why a setting of an address cannot be, if it cannot. -/
def settingFault? (key value : String) : Option Fault :=
  let among (values : List String) :=
    if values.contains value then none
    else some (.address s!"unknown value \"{value}\" for \x60{key}\x60")
  match key with
  | "mode" => among ["ro", "rw", "rwc", "memory"]
  | "cache" => among ["private", "shared"]
  | "immutable" => among ["true", "1", "false", "0"]
  | "vfs" => some (.refused (.engine 1 s!"no such vfs: {value}"))
  | _ => some (.address s!"unknown query parameter \x60{key}\x60 while parsing connection URL")

def decode (cs : List Char) : Except Fault String :=
  let bytes := Text.percentDecode (String.ofList cs)
  match Text.ofUtf8? bytes with
  | some s => .ok s
  | none =>
    let before := ((Text.decodeFrom 0 bytes).takeWhile Option.isSome).filterMap id
    let index := (Text.utf8 (String.ofList before)).length
    .error (.address s!"invalid utf-8 sequence of 1 bytes from index {index}")

def place (path : String) : Except Fault Place := do
  let address := s!"sqlite:{path}?mode=rwc".toList
  let address := stripAll "sqlite://".toList address.length address
  let address := stripAll "sqlite:".toList address.length address
  let (name, settings) := (Text.cut? ['?'] address).getD (address, [])
  let place ←
    if name = ":memory:".toList then pure .memory
    else Place.file <$> decode name
  match (Text.queryPairs (String.ofList settings)).findSome? fun (k, v) => settingFault? k v with
  | some f => throw f
  | none => return place

/-- Follows names as the database engine does: a step back leaves the last name out, whatever it
leads to, but nothing lies behind a file. -/
def follow (fs : Files) : List String → List String → Except Fault (List String)
  | way, [] => .ok way
  | way, name :: names =>
    if name = "." || name = ".." then follow fs (fs.step way name) names
    else
      match fs.at? way with
      | some (.file _) => .error cannotOpen
      | _ => follow fs (fs.step way name) names

def makeParents (path : String) (fs : Files) : Except Fault Files :=
  match fs.makeWay (((fs.names path).filter (· != ".")).reverse.drop 1) with
  | .ok fs => .ok fs
  | .error f => .error (.directory f)

/-- A store in use, the place to keep it, and the steps that its tables have gone through. -/
structure Handle where
  store : Store
  way : Option (List String)
  steps : List Int

def handle (way : Option (List String)) (store : Store) : Except Fault Handle :=
  match (do Schema.settle; Schema.lift Schema.applied : Schema.Upgrade (List Int)) {} with
  | (.ok steps, _) => .ok { store, way, steps }
  | (.error f, _) => .error (.schema f)

/-- The store at a place among the files. -/
def openFile (clock : Nat → Instant) (path : String) (d : Disk) : Except Fault Handle × Disk :=
  match follow d.files [] (d.files.names path) with
  | .error f => (.error f, d)
  | .ok way =>
    match d.stores.find? (·.1 == way) with
    | some (_, store) => (handle (some way) { store with clock, ticks := 0, lastRow := 0 }, d)
    | none =>
      match d.files.at? way with
      | some .directory => (.error cannotOpen, d)
      | some (.file (_ :: _)) => (.error (.refused (.engine 26 "file is not a database")), d)
      | some (.file []) => (handle (some way) { clock }, d)
      | none =>
        if d.files.at? way.dropLast = some .directory then
          (handle (some way) { clock }, { d with files := d.files.put way (.file []) })
        else (.error cannotOpen, d)

def opening (clock : Nat → Instant) (path : String) (d : Disk) : Except Fault Handle × Disk :=
  match makeParents path d.files with
  | .error f => (.error f, d)
  | .ok files =>
    let d := { d with files }
    match place path with
    | .error f => (.error f, d)
    | .ok .memory => (handle none { clock }, d)
    | .ok (.file path) =>
      if path.isEmpty then (handle none { clock }, d) else openFile clock path d

/-- Keeps what a store has come to. A store in memory is gone. -/
def closing (h : Handle) (d : Disk) : Disk :=
  match h.way with
  | none => d
  | some way => { d with stores := (way, h.store) :: d.stores.filter (·.1 != way) }

end Disk

end FleetSnapshot.Audit
