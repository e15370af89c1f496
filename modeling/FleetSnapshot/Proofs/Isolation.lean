import FleetSnapshot.Proofs.Commands
import FleetSnapshot.Proofs.Emptied

/-! Snapshots of one node at different heights. Directories are nested or apart, and those of two
heights are apart, since a height has no slash in it and is told by its digits. So whatever the service
makes of the requests that remove the one snapshot, they never name an object of the other. -/

namespace FleetSnapshot

namespace Bucket

variable {σ : Type}

/-- Listings name only keys that begin like what was asked for, and nothing goes but what a deletion
names, even if the request fails. -/
structure Service.Confined (service : Service σ) (bucket : String) (held : σ → Finset String) :
    Prop where
  named : ∀ {pre start s page s'}, service.page bucket pre start s = (.ok page, s') →
    ∀ key ∈ page.keys, pre.toList <+: key.toList
  page : ∀ pre start s, held s ⊆ held (service.page bucket pre start s).2
  delete : ∀ keys s, ∀ key ∈ held s, key ∉ keys → key ∈ held (service.delete bucket keys s).2

section Spared

variable {service : Service σ} {bucket pre : String} {held : σ → Finset String}

/-- A listing takes nothing away, whether it comes to an end or not. -/
theorem keysFrom_held (h : service.Confined bucket held) (bound : Nat) (start : Option String) (s : σ) :
    held s ⊆ held (keysFrom service bucket pre bound start s).2 := by
  induction bound generalizing start s with
  | zero => exact Finset.Subset.refl _
  | succ bound ih =>
    have hstep := h.page pre start s
    rw [keysFrom]
    rcases hpage : service.page bucket pre start s with ⟨reason | page, s₁⟩ <;> rw [hpage] at hstep
    · exact hstep
    · dsimp only
      cases page.next with
      | none => exact hstep
      | some next =>
        have hrest := hstep.trans (ih (some next) s₁)
        dsimp only
        split
        · next hkeys => rwa [hkeys] at hrest
        · exact hrest

/-- Keys of a complete listing all begin like what was asked for. -/
theorem Pages.named (h : service.Confined bucket held) {start : Option String} {s s' : σ}
    {pages : List Page} (hpages : Pages service bucket pre start s pages s') :
    ∀ key ∈ keysOn pages, pre.toList <+: key.toList := by
  induction hpages with
  | last answer _ =>
    rw [keysOn, List.flatMap_singleton]
    exact h.named answer
  | more answer _ _ ih =>
    rw [keysOn_cons]
    exact List.forall_mem_append.2 ⟨h.named answer, ih⟩

/-- What no deletion names is still there after all of them, or after the first that fails. -/
theorem deleteAll_held (h : service.Confined bucket held) {key : String} (requests : List (List String))
    (hnot : key ∉ requests.flatten) {s : σ} (hkey : key ∈ held s) :
    key ∈ held (deleteAll service bucket requests s).2 := by
  induction requests generalizing s with
  | nil => exact hkey
  | cons keys rest ih =>
    rw [List.flatten_cons, List.mem_append, not_or] at hnot
    have hstep := h.delete keys s key hkey hnot.1
    rw [deleteAll]
    rcases hdelete : service.delete bucket keys s with ⟨reason | refused, s₁⟩ <;> rw [hdelete] at hstep
    · exact hstep
    · exact ih hnot.2 hstep

/-- To empty a directory, whatever comes of it, spares all that is not in the directory. -/
theorem deletePrefix_held {settings : Settings} (h : service.Confined settings.bucketName held)
    (bound : Nat) {s : σ} {key : String} (hkey : key ∈ held s) (hout : covers pre key = false) :
    key ∈ held (deletePrefix service settings bound pre s).2 := by
  unfold deletePrefix requireBucket
  cases settings.bucketName.isEmpty with
  | true => exact hkey
  | false =>
    have hlisted : key ∈ held (keysFrom service settings.bucketName (directory pre) bound none s).2 :=
      keysFrom_held h bound none s hkey
    simp only [Bool.false_eq_true, if_false]
    split
    · next keys s₁ hkeys =>
      rw [hkeys] at hlisted
      obtain ⟨pages, hpages, -, rfl⟩ := keysFrom_ok_iff.1 hkeys
      have hnot : key ∉ (batches batchSize (keysOn pages)).flatten := by
        rw [batches_flatten]
        intro hmem
        have hcovers := hpages.named h key hmem
        rw [directory, String.toList_ofList, ← covers_iff, hout] at hcovers
        cases hcovers
      have hleft := deleteAll_held h _ hnot hlisted
      split
      · next hdone => rwa [hdone] at hleft
      · next hfailed => rwa [hfailed] at hleft
    · next hfailed => rwa [hfailed] at hlisted
    · next hunbounded => rwa [hunbounded] at hlisted

end Spared

theorem Shelf.confined (size : Nat) (bucket : String) : (Shelf.service size).Confined bucket held where
  named := by
    rintro pre start s page s' answer key hkey
    cases answer
    have hunder : key ∈ s.under pre := upFrom_suffix.subset (List.mem_of_mem_take hkey)
    rw [under, List.mem_filter, strip?_isSome_iff] at hunder
    exact hunder.2
  page _ _ _ := Finset.Subset.refl _
  delete keys s key hkey hnot := by
    have hleft : ((service size).delete bucket keys s).2.held = _ := (indexed size bucket).delete rfl
    rw [hleft, Finset.mem_filter]
    exact ⟨hkey, fun hnamed => absurd hnamed hnot⟩

end Bucket

namespace Capture

open Bucket

theorem covers_iff_directory {pre key : String} :
    covers pre key = true ↔ (directory pre).toList <+: key.toList := by
  rw [covers, strip?_isSome_iff]

theorem not_extends_self (p : String) : ¬ Extends p p := by
  rintro ⟨segments, -, hp⟩
  have hlength := congrArg (fun s => s.toList.length) hp
  simp only [String.toList_append, List.length_append] at hlength
  have hslash : "/".toList.length = 1 := by decide
  omega

/-- No key lies in the directories of two heights of a node. -/
theorem heights_apart {n : Node} {height height' : UInt64} (hne : height ≠ height') {key : String}
    (hkey : covers (uploadPrefix n height') key = true) :
    covers (uploadPrefix n height) key = false := by
  rw [Bool.eq_false_iff]
  intro hboth
  rcases shared_key hboth hkey with ⟨-, hsame⟩ | hextends | hextends
  · exact hne hsame
  · exact not_extends_self _ hextends
  · exact not_extends_self _ hextends

/-- Directories that share a key are nested, and those of two heights of one node share none. So to
remove the snapshot of the one height leaves every object of the other where it is, in a bucket as it
should be, and with any service, also where its listings or its deletions fail on the way. -/
theorem snapshots_isolated :
    (∀ p q key : String, (directory p).toList <+: key.toList → (directory q).toList <+: key.toList →
      (directory p).toList <+: (directory q).toList ∨ (directory q).toList <+: (directory p).toList) ∧
    ∀ (n : Node) (height height' : UInt64), height ≠ height' →
      (∀ key : String, ¬ ((directory (uploadPrefix n height)).toList <+: key.toList ∧
        (directory (uploadPrefix n height')).toList <+: key.toList)) ∧
      (∀ (objects : Objects), ∀ o ∈ objects,
        (directory (uploadPrefix n height')).toList <+: o.1.toList →
        o ∈ objects.remove (uploadPrefix n height)) ∧
      ∀ (σ : Type) (service : Service σ) (settings : Settings) (held : σ → Finset String),
        service.Confined settings.bucketName held → ∀ (bound : Nat) (s : σ), ∀ key ∈ held s,
          (directory (uploadPrefix n height')).toList <+: key.toList →
          key ∈ held (deletePrefix service settings bound (uploadPrefix n height) s).2 := by
  refine ⟨fun p q key hp hq => List.prefix_or_prefix_of_prefix hp hq, fun n height height' hne =>
    ⟨fun key hboth => ?_, fun objects o ho hkey => ?_,
      fun σ service settings held h bound s key hkey hin => ?_⟩⟩
  · have hout := heights_apart hne (covers_iff_directory.2 hboth.2)
    rw [covers_iff_directory.2 hboth.1] at hout
    cases hout
  · refine List.mem_filter.2 ⟨ho, ?_⟩
    have hout := heights_apart hne (covers_iff_directory.2 hkey)
    rwa [← Bool.not_eq_true'] at hout
  · exact deletePrefix_held h bound hkey (heights_apart hne (covers_iff_directory.2 hin))

def onesAndTens : Shelf where
  keys := ["p/1/chaindata", "p/10/chaindata", "p/100/chaindata"]
  distinct := by decide

/-- The snapshot at the height of one is gone, and the one at ten is not. -/
theorem snapshots_isolated_tens :
    (1 : UInt64) ≠ 10 ∧ (Shelf.service 1).Confined storage.bucketName Shelf.held ∧
      "p/10/chaindata" ∈ onesAndTens.held ∧
      (directory (uploadPrefix loneNode 10)).toList <+: "p/10/chaindata".toList ∧
      (deletePrefix (Shelf.service 1) storage 1 (uploadPrefix loneNode 1) onesAndTens).1 = some (.ok 1) ∧
      "p/10/chaindata" ∈
        (deletePrefix (Shelf.service 1) storage 1 (uploadPrefix loneNode 1) onesAndTens).2.held := by
  have hheld : "p/10/chaindata" ∈ onesAndTens.held := by decide +kernel
  have hin : (directory (uploadPrefix loneNode 10)).toList <+: "p/10/chaindata".toList := by
    decide +kernel
  exact ⟨by decide, Shelf.confined 1 storage.bucketName, hheld, hin, by decide +kernel,
    (snapshots_isolated.2 loneNode 1 10 (by decide)).2.2 Shelf (Shelf.service 1) storage Shelf.held
      (Shelf.confined 1 storage.bucketName) 1 onesAndTens _ hheld hin⟩

end Capture

end FleetSnapshot
