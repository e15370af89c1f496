import FleetSnapshot.Proofs.Removal
import Mathlib.Data.List.Flatten

/-! What a cleanup has found and done so far, in a ledger of its own. It lists once. It claims an upload
once at most, and only for an attempt that is due and not marked yet; and it marks an attempt when
each of its uploads has been dealt with and no claim is held. -/

namespace FleetSnapshot.Sweep

open Audit Job

structure Ledger where
  listed : Bool := false
  /-- The attempts that are to go. -/
  due : List Attempt := []
  /-- The upload that is claimed at the moment. -/
  held : Option Int := none
  /-- The uploads that it has tried to claim, those that it could not, and those whose data it has
  removed. -/
  tried : List Int := []
  lost : List Int := []
  removed : List Int := []
  /-- The attempts that it has tried to mark. -/
  marked : List Int := []

/-- The upload belongs to an attempt that is still to be marked. -/
def Ledger.Offers (c : Ledger) (id : Int) (pre : String) : Prop :=
  ∃ a ∈ c.due, a.id ∉ c.marked ∧ ∃ u ∈ eligibles a, u.id = id ∧ u.uploadPrefix = pre

/-- The data of the upload is gone, or it was not to be had. -/
def Ledger.Settled (c : Ledger) (id : Int) : Prop := id ∈ c.removed ∨ id ∈ c.lost

/-- No attempt is listed twice, and no upload under two attempts. -/
structure Apart (as : List Attempt) : Prop where
  attempts : (as.map (·.id)).Nodup
  uploads : ((as.flatMap eligibles).map (·.id)).Nodup

def books (keep : Nat) : Discipline Ledger where
  allows c act := match act with
    | .audit .successful => c = {}
    | .audit (.getUpload _) | .audit (.getAttempt _) => True
    | .audit (.claim id) => c.held = none ∧ id ∉ c.tried ∧ ∃ pre, c.Offers id pre
    | .audit (.release id) => c.held = some id ∧ ∃ pre, c.Offers id pre
    | .openRemoval id pre | .closeRemoval id pre => c.held = some id ∧ c.Offers id pre
    | .audit (.markDeleted id) =>
      c.held = none ∧ id ∉ c.marked ∧ ∃ a ∈ c.due, a.id = id ∧ ∀ u ∈ eligibles a, c.Settled u.id
    | _ => False
  expects _ act := match act with
    | .audit .successful => fun r => ∀ as, r = .ok as → Apart as
    | _ => fun _ => True
  after c act r := match act, r with
    | .audit .successful, .ok as => { c with listed := true, due := surplus keep as }
    | .audit .successful, .error _ => { c with listed := true }
    | .audit (.claim id), .ok true => { c with held := some id, tried := id :: c.tried }
    | .audit (.claim id), .ok false => { c with tried := id :: c.tried, lost := id :: c.lost }
    | .audit (.release _), _ => { c with held := none }
    | .closeRemoval id _, .ok () => { c with held := none, removed := id :: c.removed }
    | .audit (.markDeleted id), _ => { c with marked := id :: c.marked }
    | _, _ => c

/-- From one entry of a ledger to a later one, when no claim is held: at most these attempts have been
marked in between, and at most these uploads dealt with. -/
structure Ledger.Goes (attempts uploads : List Int) (c c' : Ledger) : Prop where
  due : c'.due = c.due
  free : c'.held = none
  marked : c'.marked ⊆ attempts ++ c.marked
  tried : c'.tried ⊆ uploads ++ c.tried
  removed : c.removed ⊆ c'.removed
  lost : c.lost ⊆ c'.lost

namespace Ledger.Goes

variable {as as' us us' : List Int} {c c' c'' : Ledger}

theorem refl (h : c.held = none) : Goes [] [] c c :=
  ⟨rfl, h, List.Subset.refl _, List.Subset.refl _, List.Subset.refl _, List.Subset.refl _⟩

theorem trans (h : Goes as us c c') (h' : Goes as' us' c' c'') :
    Goes (as ++ as') (us ++ us') c c'' := by
  refine ⟨h'.due.trans h.due, h'.free, fun id hid => ?_, fun id hid => ?_,
    List.Subset.trans h.removed h'.removed, List.Subset.trans h.lost h'.lost⟩
  · rcases List.mem_append.1 (h'.marked hid) with hid | hid
    · simp [hid]
    · have := h.marked hid
      simp only [List.mem_append] at this ⊢
      tauto
  · rcases List.mem_append.1 (h'.tried hid) with hid | hid
    · simp [hid]
    · have := h.tried hid
      simp only [List.mem_append] at this ⊢
      tauto

theorem settled (h : Goes as us c c') {id : Int} (hid : c.Settled id) : c'.Settled id :=
  hid.imp (fun hr => h.removed hr) fun hl => h.lost hl

theorem unmarked (h : Goes as us c c') {id : Int} (hid : id ∉ c.marked) (hne : id ∉ as) :
    id ∉ c'.marked :=
  fun hmem => (List.mem_append.1 (h.marked hmem)).elim hne hid

theorem untried (h : Goes as us c c') {id : Int} (hid : id ∉ c.tried) (hne : id ∉ us) :
    id ∉ c'.tried :=
  fun hmem => (List.mem_append.1 (h.tried hmem)).elim hne hid

end Ledger.Goes

section Plans

variable {keep : Nat} {c : Ledger} {b : Broom}

/-- A cleanup adds no row. -/
theorem books_adds {β : Type} {act : Act β} (h : (books keep).allows c act) : ¬ act.Adds := by
  cases act with
  | audit op =>
    cases op with
    | createAttempt => exact h.elim
    | createUpload => exact h.elim
    | _ => exact id
  | _ => exact id

theorem books_getUpload (c : Ledger) (id : Int) : (books keep).Ignores c (.audit (.getUpload id)) :=
  ⟨trivial, fun _ => rfl⟩

theorem removeClaimed_books {u : Upload} (hheld : c.held = some u.id)
    (hu : c.Offers u.id u.uploadPrefix) :
    (removeClaimed u).Keeps (books keep) c
      (fun c' _ => c' = { c with held := none, removed := u.id :: c.removed })
      fun c' _ => c' = { c with held := none } := by
  simp only [removeClaimed, keeps_bind, keeps_act]
  refine ⟨⟨hheld, hu⟩, fun _ _ => ⟨⟨hheld, hu⟩, fun r _ => ?_⟩⟩
  cases r with
  | ok _ => rfl
  | error e => exact ⟨⟨hheld, _, hu⟩, fun _ _ => rfl⟩

/-- An upload is dealt with, or the removal fails. -/
theorem removeUpload_books {u : Upload} (hfree : c.held = none) (hnew : u.id ∉ c.tried)
    (hu : c.Offers u.id u.uploadPrefix) :
    (removeUpload b u).Keeps (books keep) c
      (fun c' _ => c.Goes [] [u.id] c' ∧ (b.dryRun = false → c'.Settled u.id))
      fun c' _ => c.Goes [] [u.id] c' := by
  have unmoved : c.Goes [] [u.id] c :=
    ⟨rfl, hfree, List.Subset.refl _, List.subset_cons_self _ _, List.Subset.refl _,
      List.Subset.refl _⟩
  rw [removeUpload_eq]
  split
  · exact unmoved
  split
  case isTrue hdry =>
    refine (recheck_stays (books_getUpload _ _) (stays_pure _)).keeps (fun _ => ?_) fun _ => unmoved
    exact ⟨unmoved, fun h => absurd h (by simp [hdry])⟩
  rw [keeps_bind, keeps_audit]
  refine ⟨⟨hfree, hnew, _, hu⟩, fun won _ => ?_, fun e _ => unmoved⟩
  cases won with
  | true =>
    refine (removeClaimed_books (c := { c with held := some u.id, tried := u.id :: c.tried }) rfl
      hu).mono (fun c' _ h => ?_) fun c' _ h => ?_
    · subst h
      refine ⟨⟨rfl, rfl, List.Subset.refl _, List.Subset.refl _, List.subset_cons_self _ _,
        List.Subset.refl _⟩, fun _ => .inl List.mem_cons_self⟩
    · subst h
      exact ⟨rfl, rfl, List.Subset.refl _, List.Subset.refl _, List.Subset.refl _,
        List.Subset.refl _⟩
  | false =>
    have lost : c.Goes [] [u.id] { c with tried := u.id :: c.tried, lost := u.id :: c.lost } :=
      ⟨rfl, hfree, List.Subset.refl _, List.Subset.refl _, List.Subset.refl _,
        List.subset_cons_self _ _⟩
    refine (recheck_stays (books_getUpload _ _) (stays_fail _)).keeps (fun _ => ?_) fun _ => lost
    exact ⟨lost, fun _ => .inr List.mem_cons_self⟩

theorem removeUploads_books {a : Attempt} {us : List Upload} (hfree : c.held = none)
    (ha : a ∈ c.due) (hmark : a.id ∉ c.marked) (hus : us ⊆ eligibles a)
    (hids : (us.map (·.id)).Nodup) (hnew : ∀ u ∈ us, u.id ∉ c.tried) (rep : Report) :
    (removeUploads b us rep).Keeps (books keep) c
      (fun c' x => c.Goes [] (us.map (·.id)) c' ∧
        (x.2 = 0 → b.dryRun = false → ∀ u ∈ us, c'.Settled u.id))
      fun c' _ => c'.held = none := by
  induction us generalizing c rep with
  | nil => exact ⟨.refl hfree, fun _ _ => List.forall_mem_nil _⟩
  | cons u us ih =>
    rw [List.map_cons, List.nodup_cons] at hids
    have hoffered : c.Offers u.id u.uploadPrefix :=
      ⟨a, ha, hmark, u, hus List.mem_cons_self, rfl, rfl⟩
    -- what is left to do once the first upload has been tried
    have rest : ∀ c', c.Goes [] [u.id] c' → ∀ rep,
        (removeUploads b us rep).Keeps (books keep) c'
          (fun c'' x => c.Goes [] (u.id :: us.map (·.id)) c'' ∧ (c'.Settled u.id → c''.Settled u.id) ∧
            (x.2 = 0 → b.dryRun = false → ∀ u' ∈ us, c''.Settled u'.id))
          fun c'' _ => c''.held = none := by
      intro c' hgo rep
      refine (ih hgo.free (hgo.due ▸ ha) (hgo.unmarked hmark List.not_mem_nil)
        (fun u' hu' => hus (List.mem_cons_of_mem _ hu')) hids.2 (fun u' hu' => ?_) rep).mono
        (fun c'' x h => ⟨hgo.trans h.1, h.1.settled, h.2⟩) fun _ _ h => h
      refine hgo.untried (hnew u' (List.mem_cons_of_mem _ hu')) fun hmem => hids.1 ?_
      rw [← List.mem_singleton.1 hmem]
      exact List.mem_map_of_mem hu'
    simp only [removeUploads, keeps_bind, keeps_outcome]
    refine (removeUpload_books hfree (hnew u List.mem_cons_self) hoffered).mono
      (fun c' removal h => ?_) fun c' s h => ?_
    · have dealt : ∀ rep, (removeUploads b us rep).Keeps (books keep) c'
          (fun c'' x => c.Goes [] (u.id :: us.map (·.id)) c'' ∧
            (x.2 = 0 → b.dryRun = false → ∀ u' ∈ u :: us, c''.Settled u'.id))
          fun c'' _ => c''.held = none := by
        intro rep
        refine (rest c' h.1 rep).mono (fun c'' x ⟨hgo, hkept, hus⟩ => ⟨hgo, fun hx hdry => ?_⟩)
          fun _ _ h => h
        exact List.forall_mem_cons.2 ⟨hkept (h.2 hdry), hus hx hdry⟩
      cases removal <;> exact dealt _
    · cases s with
      | hung => exact h.free
      | failed e =>
        refine Keeps.mono (rest c' h _) (fun c'' x hx => ?_) fun _ _ h => h
        exact ⟨hx.1, fun h0 => absurd h0 (Nat.succ_ne_zero _)⟩

structure Ahead (as : List Attempt) (c : Ledger) : Prop where
  free : c.held = none
  due : as ⊆ c.due
  apart : Apart as
  unmarked : ∀ a ∈ as, a.id ∉ c.marked
  untried : ∀ a ∈ as, ∀ u ∈ eligibles a, u.id ∉ c.tried

theorem Ahead.next {a : Attempt} {as : List Attempt} {c' : Ledger} (h : Ahead (a :: as) c)
    (hgo : c.Goes [a.id] ((eligibles a).map (·.id)) c') : Ahead as c' := by
  obtain ⟨hattempts, huploads⟩ := h.apart
  rw [List.map_cons, List.nodup_cons] at hattempts
  rw [List.flatMap_cons, List.map_append, List.nodup_append] at huploads
  refine ⟨hgo.free, fun a' ha' => hgo.due ▸ h.due (List.mem_cons_of_mem _ ha'),
    ⟨hattempts.2, huploads.2.1⟩, fun a' ha' => ?_, fun a' ha' u hu => ?_⟩
  · refine hgo.unmarked (h.unmarked a' (List.mem_cons_of_mem _ ha')) fun hmem => hattempts.1 ?_
    rw [← List.mem_singleton.1 hmem]
    exact List.mem_map_of_mem ha'
  · refine hgo.untried (h.untried a' (List.mem_cons_of_mem _ ha') u hu) fun hmem => ?_
    exact huploads.2.2 _ hmem _ (List.mem_map_of_mem (List.mem_flatMap.2 ⟨a', ha', hu⟩)) rfl

theorem markAttempt_books {a : Attempt} (hfree : c.held = none) (ha : a ∈ c.due)
    (hmark : a.id ∉ c.marked) (hall : ∀ u ∈ eligibles a, c.Settled u.id) (rep : Report) :
    (markAttempt a.id rep).Keeps (books keep) c (fun c' _ => c.Goes [a.id] [] c')
      fun c' _ => c'.held = none := by
  have unmoved : c.Goes [a.id] [] c :=
    ⟨rfl, hfree, List.subset_cons_self _ _, List.Subset.refl _, List.Subset.refl _,
      List.Subset.refl _⟩
  have marked : c.Goes [a.id] [] { c with marked := a.id :: c.marked } :=
    ⟨rfl, hfree, List.Subset.refl _, List.Subset.refl _, List.Subset.refl _, List.Subset.refl _⟩
  refine (keeps_bind _ _).2 ((keeps_act _).2 ⟨trivial, fun now _ => ?_⟩)
  cases now with
  | error e => exact unmoved
  | ok now =>
    dsimp only
    split
    · exact unmoved
    · refine (keeps_bind _ _).2 ((keeps_act _).2 ⟨⟨hfree, hmark, a, ha, rfl, hall⟩, fun done _ => ?_⟩)
      cases done <;> exact marked

theorem sweepAttempt_books {a : Attempt} {as : List Attempt} (h : Ahead (a :: as) c) (rep : Report) :
    (sweepAttempt b a rep).Keeps (books keep) c
      (fun c' _ => c.Goes [a.id] ((eligibles a).map (·.id)) c') fun c' _ => c'.held = none := by
  have ha : a ∈ c.due := h.due List.mem_cons_self
  have hmark := h.unmarked a List.mem_cons_self
  have hids : ((eligibles a).map (·.id)).Nodup := by
    have huploads := h.apart.uploads
    rw [List.flatMap_cons, List.map_append, List.nodup_append] at huploads
    exact huploads.1
  rw [sweepAttempt, keeps_bind]
  refine (removeUploads_books h.free ha hmark (List.Subset.refl _) hids
    (h.untried a List.mem_cons_self) rep).mono ?_ fun _ _ h => h
  rintro c' ⟨rep', failures⟩ ⟨hgo, hall⟩
  dsimp only at hall ⊢
  split
  case isTrue =>
    exact ⟨hgo.due, hgo.free, fun id hid => List.mem_append_right _ (hgo.marked hid), hgo.tried,
      hgo.removed, hgo.lost⟩
  case isFalse hclean =>
    simp only [Bool.or_eq_true, decide_eq_true_eq, not_or, Bool.not_eq_true, Nat.not_lt,
      Nat.le_zero, gt_iff_lt] at hclean
    refine (markAttempt_books hgo.free (hgo.due ▸ ha) (hgo.unmarked hmark List.not_mem_nil)
      (hall hclean.1 hclean.2) rep').mono (fun c'' _ h => ?_) fun _ _ h => h
    have hboth := hgo.trans h
    rwa [List.nil_append, List.append_nil] at hboth

theorem sweepAll_books {as : List Attempt} (h : Ahead as c) (rep : Report) :
    (sweepAll b as rep).Keeps (books keep) c (fun c' _ => c'.held = none)
      fun c' _ => c'.held = none := by
  induction as generalizing c rep with
  | nil => exact h.free
  | cons a as ih =>
    rw [sweepAll, keeps_bind]
    exact (sweepAttempt_books h rep).mono (fun c' rep' hgo => ih (h.next hgo) rep') fun _ _ h => h

theorem Apart.sublist {as as' : List Attempt} (h : Apart as') (hs : as.Sublist as') : Apart as :=
  ⟨h.attempts.sublist (hs.map _), h.uploads.sublist ((hs.flatMap _).map _)⟩

/-- A cleanup keeps its books from the first to the last. -/
theorem cycle_books (b : Broom) (keep : Nat) :
    (cycle b keep).Keeps (books keep) {} (fun c _ => c.held = none) fun c _ => c.held = none := by
  rw [cycle, keeps_bind, keeps_audit]
  refine ⟨rfl, fun as has => ?_, fun _ _ => rfl⟩
  have hahead : Ahead (surplus keep as)
      ((books keep).after {} (.audit .successful) (.ok as)) :=
    ⟨rfl, List.Subset.refl _, (has as rfl).sublist (surplus_sublist keep as),
      fun _ _ => List.not_mem_nil, fun _ _ _ _ => List.not_mem_nil⟩
  cases hs : surplus keep as with
  | nil => rfl
  | cons a as' =>
    rw [keeps_bind]
    exact (sweepAll_books (hs ▸ hahead) {}).mono (fun _ _ h => h) fun _ _ h => h

end Plans

/-- What an act of a cleanup makes of the rows if nothing stands in its way. -/
def wrought (s : Store) {β : Type} : Act β → Store
  | .audit (.claim id) =>
    s.mapUploads fun r => if r.id == id && r.eligible then { r with deleted := true } else r
  | .audit (.release id) =>
    s.mapUploads fun r => if r.id == id then { r with deleted := false } else r
  | .audit (.markDeleted id) => (markDeleted id s).2
  | _ => s

/-- Nothing is in the way of the cleanup, and the rows are those that it has listed. -/
structure Booked (c : Ledger) (d : Deployment) : Prop where
  calm : Calm d
  unlisted : c.listed = false → c.due = []
  own : ∀ a ∈ c.due, ∀ u ∈ eligibles a, ∀ r ∈ d.store.uploads, r.id = u.id →
    r.attemptId = a.id ∧ r.uploadPrefix = u.uploadPrefix

section Rows

variable {keep : Nat} {c c' : Ledger} {d d' : Deployment} {s : Store} {as : List Attempt}

theorem Booked.start (h : Calm d) : Booked {} d := ⟨h, fun _ => rfl, List.forall_mem_nil _⟩

theorem Booked.touches (h : Booked c d) (hcalm : Calm d') (ht : Touches d.store d'.store)
    (hlisted : c'.listed = c.listed) (hdue : c'.due = c.due) : Booked c' d' := by
  refine ⟨hcalm, hlisted ▸ hdue ▸ h.unlisted, fun a ha u hu r hr hid => ?_⟩
  obtain ⟨f, hf, huploads⟩ := ht.uploadRows
  rw [huploads] at hr
  obtain ⟨row, hrow, rfl⟩ := List.mem_map.1 hr
  obtain ⟨hrowid, hattempt, hpre⟩ := hf row
  rw [hattempt, hpre]
  exact h.own a (hdue ▸ ha) u hu row hrow (hrowid ▸ hid)

/-- A listed upload is a row of its attempt. -/
theorem own_of_records (hn : s.Numbered) {row : AttemptRow} {a : Attempt} (ha : Records s row a)
    {u : Upload} (hu : u ∈ a.uploads) {r : UploadRow} (hr : r ∈ s.uploads) (hid : r.id = u.id) :
    r.attemptId = a.id ∧ r.uploadPrefix = u.uploadPrefix := by
  obtain ⟨r', hr', hattempt, hread⟩ := ha.row_of_upload hu
  have hreads := UploadRow.reads hread
  obtain rfl := List.inj_on_of_nodup_map hn.uploads hr hr' (hid.trans hreads.id)
  exact ⟨hattempt.trans ha.reads.id.symm, hreads.uploadPrefix.symm⟩

theorem apart_of_records (hn : s.Numbered) (h : List.Forall₂ (Records s) (candidates s) as) :
    Apart as := by
  have hids : (as.map (·.id)).Nodup := by
    rw [map_eq_of_forall h fun r a hrec => hrec.reads.id]
    exact (((Order.sort_perm _ _).map _).nodup_iff).2
      (hn.attempts.sublist (List.filter_sublist.map _))
  refine ⟨hids, ?_⟩
  rw [List.map_flatMap, List.nodup_flatMap]
  refine ⟨fun a ha => ?_, (List.pairwise_map.1 hids).imp_of_mem fun {a a'} ha ha' hne => ?_⟩
  · obtain ⟨row, -, hrec⟩ := source_of_mem h ha
    have hall : (a.uploads.map (·.id)).Nodup := by
      rw [hrec.upload_ids]
      exact (((Order.sort_perm _ _).map _).nodup_iff).2
        (hn.uploads.sublist (List.filter_sublist.map _))
    exact hall.sublist (List.filter_sublist.map _)
  · obtain ⟨row, -, hrec⟩ := source_of_mem h ha
    obtain ⟨row', -, hrec'⟩ := source_of_mem h ha'
    -- an upload of both would have its row under both
    refine List.disjoint_left.2 ?_
    intro id hid hid'
    obtain ⟨u, hu, rfl⟩ := List.mem_map.1 hid
    obtain ⟨u', hu', hsame⟩ := List.mem_map.1 hid'
    have hmem := (List.mem_filter.1 hu).1
    obtain ⟨r, hr, -, hread⟩ := hrec.row_of_upload hmem
    have hrid := (UploadRow.reads hread).id.symm
    refine hne ?_
    rw [← (own_of_records hn hrec hmem hr hrid).1,
      (own_of_records hn hrec' (List.mem_filter.1 hu').1 hr (hrid.trans hsame.symm)).1]

/-- Every entry that a cleanup makes in its ledger is borne out by the rows. -/
theorem Booked.perform {β : Type} (act : Act β) (h : Booked c d)
    (hallows : (books keep).allows c act) :
    (books keep).expects c act (d.perform act).1 ∧
      Booked ((books keep).after c act (d.perform act).1) (d.perform act).2 := by
  have moves : ∀ {c' : Ledger}, c'.listed = c.listed → c'.due = c.due →
      Booked c' (d.perform act).2 :=
    h.touches (h.calm.perform (books_adds hallows))
      (d.perform_touches act h.calm.alone (books_adds hallows)).2
  cases act with
  | audit op =>
    cases op with
    | successful =>
      have hstill : (successful d.store).2 = d.store := successful_still _ h.calm.ready
      change (∀ as, (successful d.store).1 = .ok as → Apart as) ∧
        Booked ((books keep).after c (.audit .successful) (successful d.store).1)
          { d with store := (successful d.store).2 }
      rw [hstill]
      cases hs : (successful d.store).1 with
      | error e => exact ⟨nofun, h.calm, nofun, h.own⟩
      | ok as =>
        have hrecords := successful_ok hs
        refine ⟨fun as' has => ?_, h.calm, nofun, fun a ha u hu r hr hid => ?_⟩
        · cases has
          exact apart_of_records h.calm.numbered hrecords
        · obtain ⟨row, -, hrec⟩ := source_of_mem hrecords (mem_surplus ha).1
          exact own_of_records h.calm.numbered hrec (List.mem_filter.1 hu).1 hr hid
    | getUpload => exact ⟨trivial, moves rfl rfl⟩
    | getAttempt => exact ⟨trivial, moves rfl rfl⟩
    | claim upload =>
      refine ⟨trivial, moves ?_ ?_⟩ <;>
      · rcases (d.perform (.audit (.claim upload))).1 with e | _ | _ <;> rfl
    | release => exact ⟨trivial, moves rfl rfl⟩
    | markDeleted => exact ⟨trivial, moves rfl rfl⟩
    | _ => exact hallows.elim
  | openRemoval upload pre => exact ⟨trivial, moves rfl rfl⟩
  | closeRemoval upload pre =>
    refine ⟨trivial, moves ?_ ?_⟩ <;>
    · rcases (d.perform (.closeRemoval upload pre)).1 with e | _ <;> rfl
  | _ => exact hallows.elim

theorem Booked.store {β : Type} (act : Act β) (h : Booked c d)
    (hallows : (books keep).allows c act) : (d.perform act).2.store = wrought d.store act := by
  have hready := h.calm.ready
  cases act with
  | audit op =>
    cases op with
    | successful => exact successful_still _ hready
    | getUpload id => exact getUpload_still id _ hready
    | getAttempt id => exact getAttempt_still id _ hready
    | claim id => exact congrArg Prod.snd (claim_exact hready id)
    | release id => exact congrArg Prod.snd (release_ready hready id)
    | markDeleted id => rfl
    | _ => exact hallows.elim
  | openRemoval upload pre => rw [openRemoval_alone h.calm.alone]; rfl
  | closeRemoval upload pre =>
    simp only [Deployment.perform, Deployment.closeRemoval]
    split <;> rfl
  | _ => exact hallows.elim

end Rows

end FleetSnapshot.Sweep
