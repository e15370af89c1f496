import FleetSnapshot.Proofs.Directory
import FleetSnapshot.Proofs.Requests
import Mathlib.Data.Finset.Card
import Mathlib.Data.Finset.Filter
import Mathlib.Data.List.Nodup

/-! What emptying a directory leaves in the bucket. Where every request succeeds and no key is
refused, just the keys of the directory are gone, however the service pages its listings. Success by
itself says less: a key that every answer refuses is counted as removed, and it is still there. -/

namespace FleetSnapshot.Bucket

variable {σ : Type}

/-- What an answered deletion names and does not refuse is gone, and no deletion brings it back. -/
structure Service.Discards (service : Service σ) (bucket : String) (held : σ → Finset String) :
    Prop where
  delete : ∀ keys s, held (service.delete bucket keys s).2 ⊆ held s
  gone : ∀ {keys refused s s'}, service.delete bucket keys s = (.ok refused, s') →
    ∀ key ∈ keys, key ∉ refused → key ∉ held s'

/-- What is not gone by an answered deletion stays, and listings change nothing. -/
structure Service.Exact (service : Service σ) (bucket : String) (held : σ → Finset String) :
    Prop where
  page : ∀ pre start s, held (service.page bucket pre start s).2 = held s
  delete : ∀ {keys refused s s'}, service.delete bucket keys s = (.ok refused, s') →
    held s' = (held s).filter fun key => key ∈ keys → key ∈ refused

/-- A listing that comes to its end has named all the keys that begin like this, each once. -/
structure Service.Indexed (service : Service σ) (bucket : String) (held : σ → Finset String) : Prop
    extends service.Exact bucket held where
  listing : ∀ {pre s pages s'}, Pages service bucket pre none s pages s' →
    (keysOn pages).Nodup ∧ ∀ key, key ∈ keysOn pages ↔ key ∈ held s ∧ pre.toList <+: key.toList

section Laws

variable {service : Service σ} {bucket pre : String} {held : σ → Finset String}
  {start : Option String} {s s' : σ} {pages : List Page}
  {answered : List (List String × List String)}

theorem Pages.exact (h : service.Exact bucket held)
    (hpages : Pages service bucket pre start s pages s') : held s' = held s := by
  induction hpages with
  | @last start s s' page answer done =>
    have hstep := h.page pre start s
    rw [answer] at hstep
    exact hstep
  | @more start s s' s'' page token pages answer next rest ih =>
    have hstep := h.page pre start s
    rw [answer] at hstep
    exact ih.trans hstep

/-- A key that one of the deletions grants is gone in the end. -/
theorem Answers.discards (h : service.Discards bucket held)
    (hanswers : Answers service bucket s answered s') :
    held s' ⊆ held s ∧ ∀ a ∈ answered, ∀ key ∈ a.1, key ∉ a.2 → key ∉ held s' := by
  induction hanswers with
  | nil s => exact ⟨Finset.Subset.refl _, fun a ha => absurd ha List.not_mem_nil⟩
  | @cons s s' s'' keys refused rest answer answers ih =>
    have hstep := h.delete keys s
    rw [answer] at hstep
    refine ⟨ih.1.trans hstep, fun a ha key hkey hgranted => ?_⟩
    rcases List.mem_cons.1 ha with rfl | ha
    · exact fun hheld => h.gone answer key hkey hgranted (ih.1 hheld)
    · exact ih.2 a ha key hkey hgranted

/-- What is left is what every deletion that names it has refused. -/
theorem Answers.exact (h : service.Exact bucket held)
    (hanswers : Answers service bucket s answered s') (key : String) :
    key ∈ held s' ↔ key ∈ held s ∧ ∀ a ∈ answered, key ∈ a.1 → key ∈ a.2 := by
  induction hanswers with
  | nil s => simp
  | cons answer answers ih =>
    rw [ih, h.delete answer, Finset.mem_filter, List.forall_mem_cons, and_assoc]

theorem forall_unrefused {requests : List (List String)} {key : String} :
    (∀ a ∈ requests.map (·, ([] : List String)), key ∈ a.1 → key ∈ a.2) ↔
      key ∉ requests.flatten := by
  simp [List.mem_flatten]

end Laws

section Emptied

variable {service : Service σ} {settings : Settings} {held : σ → Finset String} {bound n : Nat}
  {pre : String} {s s' s₁ : σ} {pages : List Page}

/-- Emptying a directory succeeds if no request fails as a whole. Each key that was listed is then
gone just if it was not there any more, or if some deletion was granted for it. -/
theorem gone_iff_granted (hdiscards : service.Discards settings.bucketName held)
    (hok : deletePrefix service settings bound pre s = (some (.ok n), s')) :
    ∃ log, deletePrefix service.logged settings bound pre (s, []) = (some (.ok n), s', log) ∧
      (∀ e ∈ log, e.Served) ∧ n = (listedIn log).length ∧
      ∀ key ∈ listedIn log,
        (∃ keys ∈ deletions log, key ∈ keys) ∧
        ((∃ e ∈ log, e.Grants key) → key ∉ held s') ∧
        (service.Exact settings.bucketName held →
          (key ∉ held s' ↔ key ∉ held s ∨ ∃ e ∈ log, e.Grants key)) := by
  obtain ⟨hname, pages, answered, hlength, hround, rfl⟩ := deletePrefix_ok_iff.1 hok
  obtain ⟨hasked, s₁, hpages, hanswers⟩ := hround
  refine ⟨roundLog settings.bucketName (directory pre) pages answered, ?_, served_roundLog, ?_,
    fun key hkey => ⟨?_, ?_, fun hexact => ?_⟩⟩
  · exact deletePrefix_ok_iff.2 ⟨hname, pages, answered, hlength,
      Round.logged ⟨hasked, s₁, hpages, hanswers⟩, rfl⟩
  · rw [listedIn_roundLog]
  · rw [listedIn_roundLog, ← batches_flatten batchSize (keysOn pages), List.mem_flatten] at hkey
    rw [deletions_roundLog, hasked]
    exact hkey
  · rw [grants_roundLog]
    rintro ⟨a, ha, hnamed, hgranted⟩
    exact (hanswers.discards hdiscards).2 a ha key hnamed hgranted
  · rw [grants_roundLog, hanswers.exact hexact, hpages.exact hexact, not_and_or]
    simp only [not_forall, exists_prop]

structure Batched (keys : List String) (requests : List (List String)) : Prop where
  inOrder : requests.flatten = keys
  once : ∀ key ∈ keys, requests.countP (fun request => key ∈ request) = 1
  sized : ∀ request ∈ requests, 1 ≤ request.length ∧ request.length ≤ batchSize
  full : ∀ request ∈ requests.dropLast, request.length = batchSize
  unasked : keys = [] → requests = []

theorem batched {keys : List String} (h : keys.Nodup) : Batched keys (batches batchSize keys) where
  inOrder := batches_flatten batchSize keys
  once key hkey := by
    have hflatten := batches_flatten batchSize keys
    exact count_flatten (hflatten.symm ▸ h) (hflatten.symm ▸ hkey)
  sized _ h := batch_length batchSize keys h
  full _ h := batch_full batchSize keys h
  unasked := (batches_eq_nil_iff batchSize keys).2

/-- Requests that all succeed without a refusal empty the directory and touch nothing else. -/
theorem directory_emptied (hname : settings.bucketName.isEmpty = false)
    (h : service.Indexed settings.bucketName held)
    (hpages : Pages service settings.bucketName (directory pre) none s pages s₁)
    (hbound : pages.length ≤ bound)
    (hclean : ∀ e ∈ (deletePrefix service.logged settings bound pre (s, [])).2.2, e.Clean) :
    ∃ s' log, deletePrefix service settings bound pre s =
        (some (.ok ((held s).filter fun key => covers pre key).card), s') ∧
      held s' = (held s).filter (fun key => !covers pre key) ∧
      deletePrefix service.logged settings bound pre (s, []) =
        (some (.ok ((held s).filter fun key => covers pre key).card), s', log) ∧
      listedIn log = keysOn pages ∧ Batched (keysOn pages) (deletions log) := by
  obtain ⟨hnodup, hlisted⟩ := h.listing hpages
  have hlisted' : ∀ key, key ∈ keysOn pages ↔ key ∈ held s ∧ covers pre key = true := by
    intro key
    rw [hlisted, covers_iff, directory, String.toList_ofList]
  have hcard : ((held s).filter fun key => covers pre key).card = (keysOn pages).length := by
    rw [← List.toFinset_card_of_nodup hnodup]
    refine congrArg Finset.card (Finset.ext fun key => ?_)
    rw [Finset.mem_filter, List.mem_toFinset, hlisted']
  let answered := (batches batchSize (keysOn pages)).map fun keys => (keys, ([] : List String))
  obtain ⟨s', hround⟩ := round_of_clean hname hpages hbound hclean
  obtain ⟨s₂, hpages₂, hanswers⟩ := hround.served
  refine ⟨s', roundLog settings.bucketName (directory pre) pages answered, ?_, ?_, ?_, ?_, ?_⟩
  · exact deletePrefix_ok_iff.2 ⟨hname, pages, answered, hbound, hround, hcard⟩
  · ext key
    rw [hanswers.exact h.toExact, hpages₂.exact h.toExact, Finset.mem_filter, forall_unrefused,
      batches_flatten, hlisted', Bool.not_eq_true', ← Bool.not_eq_true]
    tauto
  · exact deletePrefix_ok_iff.2 ⟨hname, pages, answered, hbound, hround.logged, hcard⟩
  · rw [listedIn_roundLog]
  · rw [deletions_roundLog, hround.asked]
    exact batched hnodup

end Emptied

/-- A bucket that holds some of its keys under lock. -/
structure Shelf where
  keys : List String
  distinct : keys.Nodup
  locked : List String := []
  deriving DecidableEq

namespace Shelf

def held (s : Shelf) : Finset String := s.keys.toFinset

def under (s : Shelf) (pre : String) : List String :=
  s.keys.filter fun key => (Text.strip? pre.toList key.toList).isSome

def upFrom (s : Shelf) (pre : String) : Option String → List String
  | none => s.under pre
  | some first => (s.under pre).dropWhile (· != first)

def without (s : Shelf) (keys : List String) : Shelf where
  keys := s.keys.filter fun key => key ∉ keys ∨ key ∈ s.locked
  distinct := s.distinct.filter _
  locked := s.locked

/-- Listings come in pages of this size, each with the key that the next one begins with. -/
def service (size : Nat) : Service Shelf where
  put _ key _ s := (.ok (), { s with keys := s.keys.insert key, distinct := s.distinct.insert })
  page _ pre start s :=
    (.ok ⟨(s.upFrom pre start).take size, ((s.upFrom pre start).drop size).head?⟩, s)
  delete _ keys s := (.ok (keys.filter (· ∈ s.locked)), s.without keys)

variable {size : Nat} {bucket pre : String} {start : Option String} {s s' : Shelf}
  {pages : List Page}

theorem under_nodup : (s.under pre).Nodup := s.distinct.filter _

/-- A listing goes on where its last page ended. -/
theorem upFrom_next {first : String} {rest : List String} (h : first :: rest <:+ s.under pre) :
    s.upFrom pre (some first) = first :: rest := by
  obtain ⟨before, hbefore⟩ := h
  have hnodup : (s.under pre).Nodup := under_nodup
  rw [← hbefore, List.nodup_append] at hnodup
  rw [upFrom, ← hbefore, List.dropWhile_append_of_pos, List.dropWhile_cons_of_neg (by simp)]
  intro key hkey
  simpa using hnodup.2.2 key hkey first List.mem_cons_self

theorem upFrom_suffix : s.upFrom pre start <:+ s.under pre := by
  cases start with
  | none => exact List.suffix_refl _
  | some first => exact List.dropWhile_suffix _

theorem pages_upFrom (h : Pages (service size) bucket pre start s pages s') :
    keysOn pages = s.upFrom pre start := by
  induction h with
  | @last start s s' page answer done =>
    cases answer
    have hrest : (s.upFrom pre start).drop size = [] := List.head?_eq_none_iff.1 done
    rw [keysOn, List.flatMap_singleton]
    exact List.take_of_length_le (List.drop_eq_nil_iff.1 hrest)
  | @more start s s' s'' page token pages answer next rest ih =>
    cases answer
    obtain ⟨rest, hrest⟩ := List.head?_eq_some_iff.1 next
    rw [keysOn_cons, ih, upFrom_next ?_, ← hrest]
    · exact List.take_append_drop size _
    · rw [← hrest]
      exact (List.drop_suffix _ _).trans upFrom_suffix

theorem indexed (size : Nat) (bucket : String) : (service size).Indexed bucket held where
  page _ _ _ := rfl
  delete := by
    rintro keys refused s s' answer
    cases answer
    ext key
    simp only [held, without, List.mem_toFinset, List.mem_filter, Finset.mem_filter,
      decide_eq_true_eq]
    tauto
  listing := by
    intro pre s pages s' h
    rw [pages_upFrom h]
    refine ⟨under_nodup, fun key => ?_⟩
    rw [upFrom, under, List.mem_filter, strip?_isSome_iff, held, List.mem_toFinset]

theorem discards (size : Nat) (bucket : String) : (service size).Discards bucket held where
  delete keys s := by
    intro key hkey
    rw [held, List.mem_toFinset] at hkey ⊢
    exact List.mem_of_mem_filter hkey
  gone := by
    rintro keys refused s s' answer key hkey hgranted hheld
    rw [(indexed size bucket).delete answer, Finset.mem_filter] at hheld
    exact hgranted (hheld.2 hkey)

end Shelf

section Runs

deriving instance DecidableEq for Page, Exchange

def storage : Settings where
  endpoint := "https://s3.example.com"
  region := "us-east-1"
  bucketName := "snapshots"
  rootPrefix := ""
  accessKey := "access"
  secretKey := "secret"

def halfLocked : Shelf where
  keys := ["p/1000/chaindata", "p/1000/metadata", "p/10000/chaindata"]
  distinct := by decide
  locked := ["p/1000/metadata"]

def halfEmptied : Shelf := halfLocked.without ["p/1000/chaindata", "p/1000/metadata"]

theorem halfLocked_emptied :
    deletePrefix (Shelf.service 1000) storage 1 "p/1000" halfLocked = (some (.ok 2), halfEmptied) := by
  decide +kernel

theorem gone_iff_granted_locked :
    (Shelf.service 1000).Discards storage.bucketName Shelf.held ∧
      deletePrefix (Shelf.service 1000) storage 1 "p/1000" halfLocked =
        (some (.ok 2), halfEmptied) ∧
      ∃ log, deletePrefix (Shelf.service 1000).logged storage 1 "p/1000" (halfLocked, []) =
          (some (.ok 2), halfEmptied, log) ∧
        (∀ e ∈ log, e.Served) ∧ 2 = (listedIn log).length ∧
        ∀ key ∈ listedIn log,
          (∃ keys ∈ deletions log, key ∈ keys) ∧
          ((∃ e ∈ log, e.Grants key) → key ∉ halfEmptied.held) ∧
          ((Shelf.service 1000).Exact storage.bucketName Shelf.held →
            (key ∉ halfEmptied.held ↔ key ∉ halfLocked.held ∨ ∃ e ∈ log, e.Grants key)) :=
  ⟨Shelf.discards 1000 storage.bucketName, halfLocked_emptied,
    gone_iff_granted (Shelf.discards 1000 storage.bucketName) halfLocked_emptied⟩

/-- Two keys are counted as removed, and one of them is still there. -/
theorem refused_key_counted :
    (Shelf.service 1000).Discards storage.bucketName Shelf.held ∧
      (deletePrefix (Shelf.service 1000).logged storage 1 "p/1000" (halfLocked, [])).1 =
        some (.ok 2) ∧
      "p/1000/metadata" ∈ listedIn
        (deletePrefix (Shelf.service 1000).logged storage 1 "p/1000" (halfLocked, [])).2.2 ∧
      "p/1000/metadata" ∈
        (deletePrefix (Shelf.service 1000).logged storage 1 "p/1000" (halfLocked, [])).2.1.held := by
  refine ⟨Shelf.discards 1000 storage.bucketName, by decide +kernel, ?_, ?_⟩
  · have hlisted : listedIn
        (deletePrefix (Shelf.service 1000).logged storage 1 "p/1000" (halfLocked, [])).2.2 =
          ["p/1000/chaindata", "p/1000/metadata"] := by decide +kernel
    rw [hlisted]
    decide
  · have hleft : (deletePrefix (Shelf.service 1000).logged storage 1 "p/1000"
        (halfLocked, [])).2.1.keys = ["p/1000/metadata", "p/10000/chaindata"] := by decide +kernel
    rw [Shelf.held, hleft, List.mem_toFinset]
    decide

def threeObjects : Shelf where
  keys := ["p/1000/chaindata", "p/1000/headers", "p/1000/metadata", "p/10000/chaindata"]
  distinct := by decide

def threeListed : List Page :=
  [⟨["p/1000/chaindata", "p/1000/headers"], some "p/1000/metadata"⟩, ⟨["p/1000/metadata"], none⟩]

theorem threeObjects_pages :
    Pages (Shelf.service 2) "snapshots" (directory "p/1000") none threeObjects threeListed
      threeObjects := by
  have hfirst : (Shelf.service 2).page "snapshots" (directory "p/1000") none threeObjects =
      (.ok ⟨["p/1000/chaindata", "p/1000/headers"], some "p/1000/metadata"⟩, threeObjects) := by decide +kernel
  have hlast : (Shelf.service 2).page "snapshots" (directory "p/1000") (some "p/1000/metadata")
      threeObjects = (.ok ⟨["p/1000/metadata"], none⟩, threeObjects) := by decide +kernel
  exact .more hfirst rfl (.last hlast rfl)

theorem threeObjects_clean : ∀ e ∈ (deletePrefix (Shelf.service 2).logged storage 2 "p/1000"
    (threeObjects, [])).2.2, e.Clean := by
  have hlog : (deletePrefix (Shelf.service 2).logged storage 2 "p/1000" (threeObjects, [])).2.2 =
      roundLog "snapshots" "p/1000/" threeListed
        [(["p/1000/chaindata", "p/1000/headers", "p/1000/metadata"], [])] := by decide +kernel
  rw [hlog]
  simp [roundLog, pageLog, deletionLog, threeListed, Exchange.Clean]

theorem directory_emptied_paged :
    (Shelf.service 2).Indexed storage.bucketName Shelf.held ∧
      (∀ e ∈ (deletePrefix (Shelf.service 2).logged storage 2 "p/1000" (threeObjects, [])).2.2,
        e.Clean) ∧
      ∃ s' log, deletePrefix (Shelf.service 2) storage 2 "p/1000" threeObjects =
          (some (.ok (threeObjects.held.filter fun key => covers "p/1000" key).card), s') ∧
        s'.held = threeObjects.held.filter (fun key => !covers "p/1000" key) ∧
        deletePrefix (Shelf.service 2).logged storage 2 "p/1000" (threeObjects, []) =
          (some (.ok (threeObjects.held.filter fun key => covers "p/1000" key).card), s', log) ∧
        listedIn log = keysOn threeListed ∧ Batched (keysOn threeListed) (deletions log) :=
  ⟨Shelf.indexed 2 storage.bucketName, threeObjects_clean,
    directory_emptied (by decide) (Shelf.indexed 2 storage.bucketName) threeObjects_pages
      (by decide) threeObjects_clean⟩

end Runs

end FleetSnapshot.Bucket
