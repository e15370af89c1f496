import FleetSnapshot.Doc.Record
import FleetSnapshot.Text.Blank
import FleetSnapshot.Text.Digits
/-!
What a consensus client says about its own state. Numbers may come as texts.
-/

namespace FleetSnapshot

structure SyncReport where
  isSyncing : Bool
  isOptimistic : Bool := false
  elOffline : Bool := false
  headSlot : UInt64
  /-- How many slots the client is behind. -/
  distance : UInt64
  deriving DecidableEq, Repr, Inhabited

namespace SyncReport

open Doc

def quantity? : Doc → Option UInt64
  | .text s => (Text.word64? (Text.trim s)).map UInt64.ofNat
  | d => d.word?

def ofDoc (d : Doc) : Option SyncReport := do
  let f ← d.record? ["is_syncing", "is_optimistic", "el_offline", "head_slot", "sync_distance"]
  return {
    isSyncing := ← (f "is_syncing").required bool?
    isOptimistic := ← (f "is_optimistic").withDefault bool? false
    elOffline := ← (f "el_offline").withDefault bool? false
    headSlot := ← (f "head_slot").required quantity?
    distance := ← (f "sync_distance").required quantity? }

/-- The distance that still counts as being in step. -/
def maxDistance : UInt64 := 1

def ready (r : SyncReport) : Bool :=
  !r.isSyncing && !r.isOptimistic && !r.elOffline && r.distance ≤ maxDistance

def toDoc (r : SyncReport) : Doc :=
  .table [
    ("is_syncing", .bool r.isSyncing), ("is_optimistic", .bool r.isOptimistic),
    ("el_offline", .bool r.elOffline), ("head_slot", .int r.headSlot.toNat),
    ("sync_distance", .int r.distance.toNat)]

end SyncReport

end FleetSnapshot
