import FleetSnapshot.Doc
/-!
The tables of a TOML file while it is read. How a table came to be decides who may still add to it:
a value never changes, a table under a header is there once, and a table that only stands between
the dots of a key may be added to by other such keys.
-/

namespace FleetSnapshot.Doc.Toml

inductive Origin where
  /-- Named by its own header. -/
  | header
  /-- On the way to a header. -/
  | between
  /-- On the way to the last part of a key. -/
  | dotted
  deriving DecidableEq, Repr

inductive Tree where
  | value (d : Doc)
  | table (origin : Origin) (entries : List (String × Tree))
  /-- Tables under headers of one name, the latest first. -/
  | tables (latest : List (String × Tree)) (earlier : List (List (String × Tree)))
  deriving Inhabited

abbrev Entries := List (String × Tree)

namespace Tree

mutual

def toDoc : Tree → Doc
  | .value d => d
  | .table _ es => .table (docEntries es)
  | .tables es ess => .list (docTables ess [.table (docEntries es)])

def docEntries : List (String × Tree) → List (String × Doc)
  | [] => []
  | (k, t) :: es => (k, toDoc t) :: docEntries es

/-- Turns the order round again. -/
def docTables : List (List (String × Tree)) → List Doc → List Doc
  | [], ds => ds
  | es :: ess, ds => docTables ess (.table (docEntries es) :: ds)

end

end Tree

namespace Entries

def find? (key : String) (es : Entries) : Option Tree :=
  (List.find? (·.1 == key) es).map (·.2)

/-- Sets the tree of a key, at its place or at the end. -/
def set (key : String) (t : Tree) : Entries → Entries
  | [] => [(key, t)]
  | (k, u) :: es => if k = key then (k, t) :: es else (k, u) :: set key t es

/-- Changes the table at the end of a path, which makes the tables on its way that are missing.
Between the dots of a key, tables with a header are closed. -/
def update (origin : Origin) (change : Entries → Option Entries) : List String → Entries → Option Entries
  | [], es => change es
  | key :: path, es =>
    match find? key es with
    | none => (update origin change path []).map fun new => set key (.table origin new) es
    | some (.value _) => none
    | some (.tables latest earlier) =>
      (update origin change path latest).map fun new => set key (.tables new earlier) es
    | some (.table was inner) =>
      if origin = .dotted && was = .header then none
      else (update origin change path inner).map fun new => set key (.table was new) es

/-- A table named by a header: a new one, or one that was only on the way to another. -/
def openTable (key : String) (es : Entries) : Option Entries :=
  match find? key es with
  | none => some (set key (.table .header []) es)
  | some (.table .between inner) => some (set key (.table .header inner) es)
  | some _ => none

def openNext (key : String) (es : Entries) : Option Entries :=
  match find? key es with
  | none => some (set key (.tables [] []) es)
  | some (.tables latest earlier) => some (set key (.tables [] (latest :: earlier)) es)
  | some _ => none

def addNew (key : String) (d : Doc) (es : Entries) : Option Entries :=
  match find? key es with
  | none => some (set key (.value d) es)
  | some _ => none

/-- Whether the table at the end of a path may be added to by a key with dots. -/
def isDotted : List String → Entries → Bool
  | [], _ => true
  | key :: path, es =>
    match find? key es with
    | none => true
    | some (.table was inner) => if path.isEmpty then was = .dotted else isDotted path inner
    | some (.tables latest _) => !path.isEmpty && isDotted path latest
    | some (.value _) => false

/-- Adds a value under a key, given the parts in front of its last one. -/
def addValue (path : List String) (key : String) (d : Doc) (es : Entries) : Option Entries :=
  if isDotted path es then update .dotted (addNew key d) path es else none

end Entries

end FleetSnapshot.Doc.Toml
