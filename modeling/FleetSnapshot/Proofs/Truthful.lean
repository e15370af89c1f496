import FleetSnapshot.Proofs.Ledger
import Mathlib.Data.List.Induction

/-! Whether an upload that a cleanup leaves marked as deleted has lost its data, when operators protect
records and let go of them in the meantime. The cleanup looks at the flag of an upload when it lists the
attempts and when it claims the upload. An upload that is protected at one of these moments is left
alone, but marking the attempt marks it as well, if it is not protected any more by then. -/

namespace FleetSnapshot.Sweep

open Audit

/-- By this act the attempts are listed, or the upload is claimed. -/
def considers (id : Int) {β : Type} : Act β → Bool
  | .audit .successful => true
  | .audit (.claim id') => id' == id
  | _ => false

/-- The next act of the cleanup goes by the flags of the upload. -/
def Crew.considers (c : Crew) (i : Nat) (id : Int) : Bool :=
  match c.cycles[i]? with
  | some (.step act _) => Sweep.considers id act
  | _ => false

def Shielded (s : Store) (id : Int) : Prop := ∃ r ∈ s.uploads, r.id = id ∧ r.persisted = true

/-- The cleanup goes by the flags of the upload while it is protected. -/
def PassedOver (b : Broom) (c : Crew) (ts : List Turn) (id : Int) : Prop :=
  ∃ before, before ++ [.act 0] <+: ts ∧ (c.turns b before).considers 0 id = true ∧
    Shielded (c.turns b before).deployment.store id

/-- What the ledger says of an upload, and whether it has been passed over. -/
structure Entry (t : UploadRow) (passed : Prop) (c : Ledger) : Prop where
  listed : passed → c.listed = true
  offered : ¬ passed → ∀ a ∈ c.due, a.id = t.attemptId → ∃ u ∈ eligibles a, u.id = t.id
  lost : t.id ∈ c.lost → passed
  spared : passed → c.held ≠ some t.id ∧ t.id ∉ c.removed ∧
    (t.id ∈ c.tried ∨ ∀ a ∈ c.due, ∀ u ∈ eligibles a, u.id ≠ t.id)
  tried : c.held = some t.id ∨ t.id ∈ c.removed → t.id ∈ c.tried
  marked : t.attemptId ∈ c.marked → passed ∨ t.id ∈ c.removed

/-- The row of the upload. It is marked only by a claim or together with its attempt. -/
structure Kin (t : UploadRow) (c : Ledger) (r : UploadRow) : Prop where
  id : r.id = t.id
  attemptId : r.attemptId = t.attemptId
  uploadPrefix : r.uploadPrefix = t.uploadPrefix
  status : r.status = Progress.success.text
  deleted : r.deleted = true → c.held = some t.id ∨ t.id ∈ c.removed ∨ t.attemptId ∈ c.marked

/-- Since the start the journal tells of the removal of its data just if the ledger does. -/
def Told (start : List Event) (t : UploadRow) (c : Ledger) (d : Deployment) : Prop :=
  ∃ events, d.journal = start ++ events ∧
    (.removalClosed t.id t.uploadPrefix true ∈ events ↔ t.id ∈ c.removed)

structure Truthful (start : List Event) (t : UploadRow) (passed : Prop) (c : Ledger)
    (d : Deployment) : Prop where
  booked : Booked c d
  entry : Entry t passed c
  row : ∃ r ∈ d.store.uploads, Kin t c r
  told : Told start t c d

section Entries

variable {t : UploadRow} {passed : Prop} {c c' : Ledger}

/-- An entry about another upload. -/
theorem Entry.other (h : Entry t passed c) (hlisted : c'.listed = c.listed) (hdue : c'.due = c.due)
    (hheld : c'.held = some t.id → c.held = some t.id) (htried : t.id ∈ c.tried → t.id ∈ c'.tried)
    (hlost : t.id ∈ c'.lost → t.id ∈ c.lost) (hremoved : t.id ∈ c'.removed ↔ t.id ∈ c.removed)
    (hmarked : t.attemptId ∈ c'.marked → t.attemptId ∈ c.marked) : Entry t passed c' := by
  refine ⟨fun hp => hlisted ▸ h.listed hp, hdue ▸ h.offered, fun hl => h.lost (hlost hl),
    fun hp => ?_, fun ht => ?_, fun hm => ?_⟩
  · obtain ⟨hnot, hdata, hnever⟩ := h.spared hp
    exact ⟨fun hh => hnot (hheld hh), fun hr => hdata (hremoved.1 hr),
      hnever.imp htried (hdue ▸ ·)⟩
  · exact htried (h.tried (ht.imp hheld hremoved.1))
  · exact (h.marked (hmarked hm)).imp_right hremoved.2

theorem Kin.flagged {r : UploadRow} (h : Kin t c r) {flag : Bool}
    (hflag : flag = true → c'.held = some t.id ∨ t.id ∈ c'.removed ∨ t.attemptId ∈ c'.marked) :
    Kin t c' { r with deleted := flag } :=
  ⟨h.id, h.attemptId, h.uploadPrefix, h.status, hflag⟩

theorem Kin.other {r : UploadRow} (h : Kin t c r)
    (hheld : c.held = some t.id → c'.held = some t.id)
    (hremoved : t.id ∈ c.removed → t.id ∈ c'.removed)
    (hmarked : t.attemptId ∈ c.marked → t.attemptId ∈ c'.marked) : Kin t c' r :=
  h.flagged fun hd => (h.deleted hd).imp hheld (Or.imp hremoved hmarked)

/-- Before the first claim the listing is all that there is. -/
theorem Entry.listing {listed : Bool} {due : List Attempt} (hlisted : passed → listed = true)
    (hfound : ¬ passed → ∀ a ∈ due, a.id = t.attemptId → ∃ u ∈ eligibles a, u.id = t.id)
    (hspared : passed → ∀ a ∈ due, ∀ u ∈ eligibles a, u.id ≠ t.id) :
    Entry t passed { listed, due } := by
  refine ⟨hlisted, hfound, ?_, fun hp => ⟨?_, ?_, Or.inr (hspared hp)⟩, ?_, ?_⟩ <;> simp

theorem Entry.won (h : Entry t passed c) (hnot : ¬ passed) :
    Entry t passed { c with held := some t.id, tried := t.id :: c.tried } := by
  refine ⟨h.listed, h.offered, h.lost, fun hp => absurd hp hnot, fun _ => List.mem_cons_self, ?_⟩
  exact h.marked

theorem Entry.refused (h : Entry t passed c) (hlisted : c.listed = true) (hfree : c.held = none)
    (hnew : t.id ∉ c.tried) {passed' : Prop} (hp : passed') :
    Entry t passed' { c with tried := t.id :: c.tried, lost := t.id :: c.lost } := by
  refine ⟨fun _ => hlisted, fun hnot => absurd hp hnot, fun _ => hp, fun _ => ⟨?_, ?_, ?_⟩,
    fun _ => List.mem_cons_self, fun _ => Or.inl hp⟩
  · change c.held ≠ some t.id
    rw [hfree]
    nofun
  · exact fun hr => hnew (h.tried (Or.inr hr))
  · exact Or.inl List.mem_cons_self

theorem Entry.closing (h : Entry t passed c) (hheld : c.held = some t.id) :
    Entry t passed { c with held := none, removed := t.id :: c.removed } := by
  have hnot : ¬ passed := fun hp => (h.spared hp).1 hheld
  exact ⟨h.listed, h.offered, h.lost, fun hp => absurd hp hnot, fun _ => h.tried (Or.inl hheld),
    fun _ => Or.inr List.mem_cons_self⟩

theorem Entry.marking (h : Entry t passed c)
    (hdone : ¬ passed → c.Settled t.id) (attempt : Int) :
    Entry t passed { c with marked := attempt :: c.marked } := by
  refine ⟨h.listed, h.offered, h.lost, h.spared, h.tried, fun _ => ?_⟩
  by_cases hp : passed
  · exact Or.inl hp
  · exact (hdone hp).elim Or.inr fun hlost => Or.inl (h.lost hlost)

end Entries

section Acts

variable {keep : Nat} {start : List Event} {t : UploadRow} {passed : Prop} {c : Ledger}
  {d : Deployment}

theorem shielded_iff (hn : d.store.Numbered) {r : UploadRow} (hr : r ∈ d.store.uploads)
    (hid : r.id = t.id) : Shielded d.store t.id ↔ r.persisted = true := by
  constructor
  · rintro ⟨r', hr', hid', hp⟩
    obtain rfl := List.inj_on_of_nodup_map hn.uploads hr hr' (hid.trans hid'.symm)
    exact hp
  · exact fun hp => ⟨r, hr, hid, hp⟩

/-- The listing shows an upload that is unprotected among those that may go, and no other. -/
theorem Kin.listing {s : Store} {r : UploadRow} {due : List Attempt} (h : Kin t {} r)
    (hr : r ∈ s.uploads) (hn : s.Numbered) (hdue : ∀ a ∈ due, ∃ row, Records s row a) :
    Entry t (r.persisted = true) { listed := true, due } := by
  have hdel : r.deleted = false := by
    cases hd : r.deleted with
    | false => rfl
    | true => simpa using h.deleted hd
  refine Entry.listing (fun _ => rfl) (fun hpers a ha hid => ?_) fun hpers a ha u hu huid => ?_
  · obtain ⟨row, hrec⟩ := hdue a ha
    obtain ⟨u, hu, hread⟩ := hrec.readable hr (h.attemptId.trans (hid.symm.trans hrec.reads.id))
    have hreads := UploadRow.reads hread
    refine ⟨u, List.mem_filter.2 ⟨hu, ?_⟩, hreads.id.trans h.id⟩
    rw [Bool.not_eq_true] at hpers
    rw [hreads.eligible, UploadRow.eligible, h.status, hdel, hpers]
    rfl
  · obtain ⟨row, hrec⟩ := hdue a ha
    obtain ⟨hmem, helig⟩ := List.mem_filter.1 hu
    obtain ⟨r', hr', -, hread⟩ := hrec.row_of_upload hmem
    have hreads := UploadRow.reads hread
    obtain rfl := List.inj_on_of_nodup_map hn.uploads hr hr'
      (h.id.trans (huid.symm.trans hreads.id))
    rw [hreads.eligible, UploadRow.eligible, hpers] at helig
    simp at helig

theorem Truthful.list (h : Truthful start t passed {} d)
    (hbooked : Booked ((books keep).after {} (.audit .successful)
      (d.perform (.audit .successful)).1) (d.perform (.audit .successful)).2) :
    Truthful start t (Shielded d.store t.id)
      ((books keep).after {} (.audit .successful) (d.perform (.audit .successful)).1)
      (d.perform (.audit .successful)).2 := by
  obtain ⟨r, hr, hkin⟩ := h.row
  have hn := h.booked.calm.numbered
  have hrow : r ∈ (d.perform (.audit .successful)).2.store.uploads := by
    rw [show (d.perform (.audit .successful)).2.store = d.store from
      successful_still _ h.booked.calm.ready]
    exact hr
  rw [show Shielded d.store t.id = (r.persisted = true) from propext (shielded_iff hn hr hkin.id)]
  rcases hs : (d.perform (.audit .successful)).1 with e | as <;> rw [hs] at hbooked
  · exact ⟨hbooked, hkin.listing hr hn (List.forall_mem_nil _), ⟨r, hrow, hkin.other id id id⟩, h.told⟩
  · refine ⟨hbooked, hkin.listing hr hn fun a ha => ?_, ⟨r, hrow, hkin.other id id id⟩, h.told⟩
    obtain ⟨row, -, hrec⟩ := source_of_mem (successful_ok hs) (mem_surplus ha).1
    exact ⟨row, hrec⟩

theorem Told.snoc (h : Told start t c d) {c' : Ledger} {d' : Deployment} {e : Event}
    (hj : d'.journal = d.journal ++ [e])
    (hc : t.id ∈ c'.removed ↔ t.id ∈ c.removed ∨ .removalClosed t.id t.uploadPrefix true = e) :
    Told start t c' d' := by
  obtain ⟨events, hjournal, htold⟩ := h
  refine ⟨events ++ [e], by rw [hj, hjournal, List.append_assoc], ?_⟩
  rw [List.mem_append, List.mem_singleton, htold, hc]

/-- A claim on a complete upload that is not marked is refused just if the upload is protected. -/
theorem claim_decided (h : Calm d) {r : UploadRow} (hr : r ∈ d.store.uploads)
    (hstatus : r.status = Progress.success.text) (hdel : r.deleted = false) :
    d.perform (.audit (.claim r.id)) = if r.persisted then (.ok false, d) else (.ok true, { d with
      store := d.store.mapUploads fun r' =>
        if r'.id == r.id then { r' with deleted := true } else r' }) := by
  have helig : r.eligible = !r.persisted := by
    rw [UploadRow.eligible, hstatus, hdel]
    cases r.persisted <;> rfl
  cases hpers : r.persisted with
  | false =>
    have hclaim := claim_ready h.ready h.numbered hr (helig.trans (by rw [hpers]; rfl))
    simp [Deployment.perform, Op.run, Op.query, hclaim]
  | true =>
    have hnone : ∀ r' ∈ d.store.uploads, ¬ (r'.id == r.id && r'.eligible) = true := by
      intro r' hr' hsel
      rw [Bool.and_eq_true, beq_iff_eq] at hsel
      obtain rfl := List.inj_on_of_nodup_map h.numbered.uploads hr' hr hsel.1
      simp [helig, hpers] at hsel
    have hclaim := claim_exact h.ready r.id
    rw [List.countP_eq_zero.2 hnone, Store.mapUploads_same fun r' hr' => if_neg (hnone r' hr')]
      at hclaim
    simp [Deployment.perform, Op.run, Op.query, hclaim]

/-- The first claim on the upload finds it unmarked. -/
theorem Truthful.unmarked (h : Truthful start t passed c d) (hfree : c.held = none)
    (hnew : t.id ∉ c.tried) {r : UploadRow} (hkin : Kin t c r) (hmark : t.attemptId ∉ c.marked) :
    r.deleted = false := by
  cases hd : r.deleted with
  | false => rfl
  | true =>
    rcases hkin.deleted hd with hheld | hremoved | hmarked
    · exact absurd (hheld.symm.trans hfree) nofun
    · exact absurd (h.entry.tried (Or.inr hremoved)) hnew
    · exact absurd hmarked hmark

theorem Truthful.claim (h : Truthful start t passed c d) (hfree : c.held = none)
    (hnew : t.id ∉ c.tried) (ho : ∃ pre, c.Offers t.id pre)
    (hbooked : Booked ((books keep).after c (.audit (.claim t.id))
      (d.perform (.audit (.claim t.id))).1) (d.perform (.audit (.claim t.id))).2) :
    Truthful start t (passed ∨ Shielded d.store t.id)
      ((books keep).after c (.audit (.claim t.id)) (d.perform (.audit (.claim t.id))).1)
      (d.perform (.audit (.claim t.id))).2 := by
  obtain ⟨r, hr, hkin⟩ := h.row
  obtain ⟨pre, a, ha, hmark, u, hu, huid, -⟩ := ho
  have hnot : ¬ passed := fun hp =>
    (h.entry.spared hp).2.2.elim hnew fun hnever => hnever a ha u hu huid
  have hattempt : t.attemptId = a.id :=
    hkin.attemptId.symm.trans (h.booked.own a ha u hu r hr (hkin.id.trans huid.symm)).1
  have hlisted : c.listed = true := by
    cases hl : c.listed with
    | true => rfl
    | false => rw [h.booked.unlisted hl] at ha; cases ha
  have hshielded := shielded_iff h.booked.calm.numbered hr hkin.id
  have hdecided := claim_decided h.booked.calm hr hkin.status
    (h.unmarked hfree hnew hkin (hattempt ▸ hmark))
  rw [hkin.id] at hdecided
  cases hpers : r.persisted with
  | false =>
    rw [hpers, if_neg Bool.false_ne_true] at hdecided
    have hsame : (passed ∨ Shielded d.store t.id) = passed := by
      rw [hshielded, hpers]
      simp
    rw [hdecided] at hbooked ⊢
    rw [hsame]
    refine ⟨hbooked, h.entry.won hnot,
      ⟨{ r with deleted := true }, ?_, hkin.flagged fun _ => Or.inl rfl⟩, h.told⟩
    rw [Store.mapUploads_uploads]
    exact List.mem_map.2 ⟨r, hr, if_pos (by simp [hkin.id])⟩
  | true =>
    rw [hpers, if_pos rfl] at hdecided
    have hpassed : passed ∨ Shielded d.store t.id := Or.inr (hshielded.2 hpers)
    rw [hdecided] at hbooked ⊢
    exact ⟨hbooked, h.entry.refused hlisted hfree hnew hpassed, ⟨r, hr, hkin.other id id id⟩, h.told⟩

/-- A claim on another upload. -/
theorem Truthful.claimOther (h : Truthful start t passed c d) {upload : Int} (hne : upload ≠ t.id)
    (hfree : c.held = none)
    (hbooked : Booked ((books keep).after c (.audit (.claim upload))
      (d.perform (.audit (.claim upload))).1) (d.perform (.audit (.claim upload))).2) :
    Truthful start t passed
      ((books keep).after c (.audit (.claim upload)) (d.perform (.audit (.claim upload))).1)
      (d.perform (.audit (.claim upload))).2 := by
  obtain ⟨r, hr, hkin⟩ := h.row
  have hstore : (d.perform (.audit (.claim upload))).2.store = d.store.mapUploads fun r =>
      if r.id == upload && r.eligible then { r with deleted := true } else r :=
    congrArg Prod.snd (claim_exact h.booked.calm.ready upload)
  have hrow : r ∈ (d.perform (.audit (.claim upload))).2.store.uploads := by
    rw [hstore, Store.mapUploads_uploads]
    exact List.mem_map.2 ⟨r, hr, if_neg (by simp [hkin.id, Ne.symm hne])⟩
  rcases hs : (d.perform (.audit (.claim upload))).1 with e | _ | _ <;> rw [hs] at hbooked
  · exact ⟨hbooked, h.entry, ⟨r, hrow, hkin⟩, h.told⟩
  · have hlost : t.id ∈ upload :: c.lost → t.id ∈ c.lost :=
      fun hmem => (List.mem_cons.1 hmem).resolve_left (Ne.symm hne)
    exact ⟨hbooked, h.entry.other rfl rfl id (List.mem_cons_of_mem _) hlost Iff.rfl id,
      ⟨r, hrow, hkin.other id id id⟩, h.told⟩
  · have hwon : some upload = some t.id → c.held = some t.id :=
      fun hh => absurd (Option.some.inj hh) hne
    have hhad : c.held = some t.id → some upload = some t.id :=
      fun hh => absurd (hh.symm.trans hfree) nofun
    exact ⟨hbooked, h.entry.other rfl rfl hwon (List.mem_cons_of_mem _) id Iff.rfl id,
      ⟨r, hrow, hkin.other hhad id id⟩, h.told⟩

theorem Truthful.release (h : Truthful start t passed c d) {upload : Int}
    (hheld : c.held = some upload)
    (hbooked : Booked { c with held := none } (d.perform (.audit (.release upload))).2) :
    Truthful start t passed { c with held := none } (d.perform (.audit (.release upload))).2 := by
  obtain ⟨r, hr, hkin⟩ := h.row
  have hstore : (d.perform (.audit (.release upload))).2.store = d.store.mapUploads fun r =>
      if r.id == upload then { r with deleted := false } else r :=
    congrArg Prod.snd (release_ready h.booked.calm.ready upload)
  refine ⟨hbooked, h.entry.other rfl rfl nofun id id Iff.rfl id, ?_, h.told⟩
  rw [hstore, Store.mapUploads_uploads]
  refine ⟨_, List.mem_map_of_mem hr, ?_⟩
  by_cases hid : upload = t.id
  · rw [if_pos (by simp [hkin.id, hid])]
    exact hkin.flagged nofun
  · rw [if_neg (by simp [hkin.id, Ne.symm hid])]
    exact hkin.other (fun hh => absurd (Option.some.inj (hheld.symm.trans hh)) hid) id id

/-- Its attempt is marked when the upload has been dealt with, or has been passed over. -/
theorem Truthful.mark (h : Truthful start t passed c d) {a : Attempt} (ha : a ∈ c.due)
    (hall : ∀ u ∈ eligibles a, c.Settled u.id)
    (hbooked : Booked { c with marked := a.id :: c.marked }
      (d.perform (.audit (.markDeleted a.id))).2) :
    Truthful start t passed { c with marked := a.id :: c.marked }
      (d.perform (.audit (.markDeleted a.id))).2 := by
  obtain ⟨r, hr, hkin⟩ := h.row
  obtain ⟨p, hp, hu⟩ := markDeleted_reaches a.id d.store
  have hrow := List.mem_map_of_mem (f := fun r => if p r then { r with deleted := true } else r) hr
  rw [← hu] at hrow
  by_cases hown : a.id = t.attemptId
  · refine ⟨hbooked, h.entry.marking (fun hnot => ?_) a.id, ⟨_, hrow, ?_⟩, h.told⟩
    · obtain ⟨u, hu, huid⟩ := h.entry.offered hnot a ha hown
      exact huid ▸ hall u hu
    · have hmarked : t.attemptId ∈ a.id :: c.marked := hown ▸ List.mem_cons_self
      split
      · exact hkin.flagged fun _ => Or.inr (Or.inr hmarked)
      · exact hkin.other id id (List.mem_cons_of_mem _)
  · have hout : ¬ p r = true := fun hpr => by
      have hsel := (Bool.and_eq_true_iff.1 (hp r hpr)).1
      rw [beq_iff_eq, hkin.attemptId] at hsel
      exact hown hsel.symm
    rw [if_neg hout] at hrow
    have hmarked : t.attemptId ∈ a.id :: c.marked → t.attemptId ∈ c.marked :=
      fun hmem => (List.mem_cons.1 hmem).resolve_left (Ne.symm hown)
    exact ⟨hbooked, h.entry.other rfl rfl id id id Iff.rfl hmarked,
      ⟨r, hrow, hkin.other id id (List.mem_cons_of_mem _)⟩, h.told⟩

/-- The data of the upload is removed while it is claimed. -/
theorem Truthful.close (h : Truthful start t passed c d) {upload : Int} {pre : String}
    (hheld : c.held = some upload) (ho : c.Offers upload pre)
    (hbooked : Booked ((books keep).after c (.closeRemoval upload pre)
      (d.perform (.closeRemoval upload pre)).1) (d.perform (.closeRemoval upload pre)).2) :
    Truthful start t passed
      ((books keep).after c (.closeRemoval upload pre) (d.perform (.closeRemoval upload pre)).1)
      (d.perform (.closeRemoval upload pre)).2 := by
  obtain ⟨r, hr, hkin⟩ := h.row
  obtain ⟨a, ha, -, u, hu, rfl, rfl⟩ := ho
  cases hrefused : refuses d u with
  | true =>
    rw [closeRemoval_refused hrefused] at hbooked ⊢
    refine ⟨hbooked, h.entry, ⟨r, hr, hkin⟩, h.told.snoc rfl ?_⟩
    change t.id ∈ c.removed ↔ _
    simp
  | false =>
    rw [closeRemoval_accepted hrefused] at hbooked ⊢
    by_cases hid : u.id = t.id
    · have hpre : u.uploadPrefix = t.uploadPrefix :=
        (h.booked.own a ha u hu r hr (hkin.id.trans hid.symm)).2.symm.trans hkin.uploadPrefix
      have hentry := h.entry.closing (hid ▸ hheld)
      have hremoved : t.id ∈ u.id :: c.removed := hid ▸ List.mem_cons_self
      rw [← hid] at hentry
      refine ⟨hbooked, hentry, ⟨r, hr, hkin.flagged fun _ => Or.inr (Or.inl hremoved)⟩,
        h.told.snoc rfl (iff_of_true hremoved (Or.inr ?_))⟩
      rw [hid, hpre]
    · have hremoved : t.id ∈ u.id :: c.removed ↔ t.id ∈ c.removed := by
        simp [Ne.symm hid]
      refine ⟨hbooked, h.entry.other rfl rfl nofun id id hremoved id, ⟨r, hr, hkin.other
        (fun hh => absurd (Option.some.inj (hheld.symm.trans hh)) hid) hremoved.2 id⟩,
        h.told.snoc rfl (hremoved.trans ?_)⟩
      simp [Ne.symm hid]

theorem Truthful.perform {β : Type} (act : Act β) (h : Truthful start t passed c d)
    (hallows : (books keep).allows c act) :
    (books keep).expects c act (d.perform act).1 ∧
      Truthful start t (passed ∨ considers t.id act = true ∧ Shielded d.store t.id)
        ((books keep).after c act (d.perform act).1) (d.perform act).2 := by
  obtain ⟨he, hbooked⟩ := h.booked.perform act hallows
  refine ⟨he, ?_⟩
  have hstore := h.booked.store act hallows
  have unnoticed : considers t.id act = false →
      (passed ∨ considers t.id act = true ∧ Shielded d.store t.id) = passed := by
    intro hc
    rw [hc]
    simp
  cases act with
  | audit op =>
    cases op with
    | successful =>
      obtain rfl : c = {} := hallows
      have hnot : ¬ passed := fun hp => Bool.false_ne_true (h.entry.listed hp)
      have hpassed : (passed ∨ considers t.id (.audit .successful) = true ∧
          Shielded d.store t.id) = Shielded d.store t.id := by
        simp [considers, hnot]
      rw [hpassed]
      exact h.list hbooked
    | getUpload upload =>
      rw [unnoticed rfl]
      have hrows : (d.perform (.audit (.getUpload upload))).2.store = d.store := hstore
      exact ⟨hbooked, h.entry, hrows ▸ h.row, h.told⟩
    | getAttempt attempt =>
      rw [unnoticed rfl]
      have hrows : (d.perform (.audit (.getAttempt attempt))).2.store = d.store := hstore
      exact ⟨hbooked, h.entry, hrows ▸ h.row, h.told⟩
    | claim upload =>
      obtain ⟨hfree, hnew, ho⟩ := hallows
      by_cases hid : upload = t.id
      · subst hid
        have hpassed : (passed ∨ considers t.id (.audit (.claim t.id)) = true ∧
            Shielded d.store t.id) = (passed ∨ Shielded d.store t.id) := by
          simp [considers]
        rw [hpassed]
        exact h.claim hfree hnew ho hbooked
      · rw [unnoticed (beq_false_of_ne hid)]
        exact h.claimOther hid hfree hbooked
    | release upload =>
      rw [unnoticed rfl]
      exact h.release hallows.1 hbooked
    | markDeleted attempt =>
      obtain ⟨-, -, a, ha, rfl, hall⟩ := hallows
      rw [unnoticed rfl]
      exact h.mark ha hall hbooked
    | _ => exact hallows.elim
  | openRemoval upload pre =>
    rw [unnoticed rfl]
    rw [openRemoval_alone h.booked.calm.alone] at hbooked ⊢
    refine ⟨hbooked, h.entry, h.row, h.told.snoc rfl ?_⟩
    change t.id ∈ c.removed ↔ _
    simp
  | closeRemoval upload pre =>
    rw [unnoticed rfl]
    exact h.close hallows.1 hallows.2 hbooked
  | _ => exact hallows.elim

theorem Truthful.persist {d' : Deployment} (h : Truthful start t passed c d) {value : Bool}
    {selects : UploadRow → Bool}
    (hreaches : Reaches selects ({ · with persisted := value }) d.store d'.store)
    (hbooked : Booked c d') (hjournal : d'.journal = d.journal) : Truthful start t passed c d' := by
  obtain ⟨r, hr, hkin⟩ := h.row
  obtain ⟨p, -, hu⟩ := hreaches
  refine ⟨hbooked, h.entry, ⟨_, hu ▸ List.mem_map_of_mem hr, ?_⟩, ?_⟩
  · split
    · exact ⟨hkin.id, hkin.attemptId, hkin.uploadPrefix, hkin.status, hkin.deleted⟩
    · exact hkin
  · rw [Told, hjournal]
    exact h.told

end Acts

section Turns

variable {b : Broom} {keep : Nat} {start : List Event} {t : UploadRow}

def solo (b : Broom) (keep : Nat) (d : Deployment) : Crew where
  deployment := d
  cycles := [(cycle b keep).run]

def Watched (start : List Event) (t : UploadRow) (keep : Nat) (passed : Prop) (crew : Crew) : Prop :=
  ∃ c p, crew.cycles = [p] ∧ p.Keeps (books keep) c (fun c _ => c.held = none) ∧
    Truthful start t passed c crew.deployment

theorem passedOver_snoc {c : Crew} {ts : List Turn} {turn : Turn} {id : Int} :
    PassedOver b c (ts ++ [turn]) id ↔ PassedOver b c ts id ∨ turn = .act 0 ∧
      (c.turns b ts).considers 0 id = true ∧ Shielded (c.turns b ts).deployment.store id := by
  simp only [PassedOver, List.prefix_concat_iff]
  constructor
  · rintro ⟨before, heq | hpre, h⟩
    · obtain ⟨rfl, hturn⟩ := List.append_inj' heq rfl
      exact Or.inr ⟨(List.singleton_inj.1 hturn).symm, h⟩
    · exact Or.inl ⟨before, hpre, h⟩
  · rintro (⟨before, hpre, h⟩ | ⟨rfl, h⟩)
    · exact ⟨before, Or.inr hpre, h⟩
    · exact ⟨ts, Or.inl rfl, h⟩

/-- The act is the next one of the cleanup, and what it goes by is known. -/
theorem Watched.act {passed : Prop} {crew : Crew} (h : Watched start t keep passed crew) :
    Watched start t keep
      (passed ∨ crew.considers 0 t.id = true ∧ Shielded crew.deployment.store t.id)
      (crew.turn b (.act 0)) := by
  obtain ⟨d, cycles⟩ := crew
  obtain ⟨c, p, rfl, hkeeps, htrue⟩ := h
  cases p with
  | done a =>
    have hsame : (passed ∨ Crew.considers ⟨d, [.done a]⟩ 0 t.id = true ∧ Shielded d.store t.id) =
        passed := by
      simp [Crew.considers]
    rw [hsame]
    exact ⟨c, _, rfl, hkeeps, htrue⟩
  | step act next =>
    obtain ⟨he, htrue'⟩ := htrue.perform act hkeeps.1
    exact ⟨_, _, rfl, hkeeps.2 _ he, htrue'⟩

theorem Watched.turn {passed : Prop} {crew : Crew} (h : Watched start t keep passed crew)
    {turn : Turn} (hstart : ∀ keep, turn ≠ .start keep) :
    Watched start t keep (passed ∨ turn = .act 0 ∧ crew.considers 0 t.id = true ∧
      Shielded crew.deployment.store t.id) (crew.turn b turn) := by
  by_cases hact : turn = .act 0
  · subst hact
    simpa using h.act
  have hsame : (passed ∨ turn = .act 0 ∧ crew.considers 0 t.id = true ∧
      Shielded crew.deployment.store t.id) = passed := by simp [hact]
  rw [hsame]
  obtain ⟨c, p, hcycles, hkeeps, htrue⟩ := h
  have persisted : ∀ (op : Op Bool) {value selects}, ¬ op.Adds →
      Reaches selects ({ · with persisted := value }) crew.deployment.store
        (op.query crew.deployment.store).2 →
      Watched start t keep passed
        { crew with deployment := (crew.deployment.perform (.audit op)).2 } := by
    intro op value selects hadds hreaches
    have hnone : ¬ (Act.audit op).Adds := hadds
    have hbooked : Booked c (crew.deployment.perform (.audit op)).2 :=
      htrue.booked.touches (htrue.booked.calm.perform hnone) (op.touches hadds _) rfl rfl
    exact ⟨c, p, hcycles, hkeeps, htrue.persist hreaches hbooked rfl⟩
  cases turn with
  | start k => exact absurd rfl (hstart k)
  | act i =>
    cases i with
    | zero => exact absurd rfl hact
    | succ i =>
      have hidle : crew.turn b (.act (i + 1)) = crew := by
        simp [Crew.turn, hcycles]
      rw [hidle]
      exact ⟨c, p, hcycles, hkeeps, htrue⟩
  | persistAttempt id value =>
    exact persisted (.persistAttempt id value) (fun h => h) (persistAttempt_reaches id value _)
  | persistUpload id value =>
    exact persisted (.persistUpload id value) (fun h => h) (persistUpload_reaches id value _)
  | refuse prefixes =>
    obtain ⟨⟨⟨halone, hready, hnumbered⟩, hunlisted, hown⟩, hentry, hrow, htold⟩ := htrue
    exact ⟨c, p, hcycles, hkeeps, ⟨⟨halone, hready, hnumbered⟩, hunlisted, hown⟩, hentry, hrow, htold⟩

theorem watched_turns {d : Deployment} (hcalm : Calm d) (ht : t ∈ d.store.uploads)
    (hstatus : t.status = Progress.success.text) (hdel : t.deleted = false) {ts : List Turn}
    (hts : ∀ keep, Turn.start keep ∉ ts) :
    Watched d.journal t keep (PassedOver b (solo b keep d) ts t.id) ((solo b keep d).turns b ts) := by
  induction ts using List.reverseRecOn with
  | nil =>
    have hnot : ¬ PassedOver b (solo b keep d) [] t.id := by
      rintro ⟨before, hpre, -⟩
      simp at hpre
    refine ⟨{}, (cycle b keep).run, rfl, Plan.Keeps.mono (cycle_books b keep) ?_,
      .start hcalm, ?_, ⟨t, ht, rfl, rfl, rfl, hstatus, ?_⟩, [], ?_, ?_⟩
    · rintro c (_ | _) h <;> exact h
    · exact Entry.listing (fun hp => absurd hp hnot) (fun _ => List.forall_mem_nil _)
        fun hp => absurd hp hnot
    · exact fun h => absurd (hdel.symm.trans h) nofun
    · exact (List.append_nil _).symm
    · simp
  | append_singleton ts turn ih =>
    have hbefore := ih fun k hk => hts k (List.mem_append_left _ hk)
    have hlast : ∀ k, turn ≠ .start k :=
      fun k hk => hts k (List.mem_append_right _ (hk ▸ List.mem_cons_self))
    rw [propext passedOver_snoc]
    rw [show (solo b keep d).turns b (ts ++ [turn]) = ((solo b keep d).turns b ts).turn b turn from
      List.foldl_append ..]
    exact hbefore.turn hlast

/-- Whatever operators do in the meantime, of an upload that is marked as deleted by a cleanup the data
has been removed in that cleanup, unless it was protected when the cleanup went by its flags. Then
nothing has been removed on its behalf. -/
theorem deleted_truthful_iff (b : Broom) (keep : Nat) (d : Deployment) (hcalm : Calm d)
    (ts : List Turn) (hts : ∀ keep, Turn.start keep ∉ ts)
    (hover : ∃ r, ((solo b keep d).turns b ts).cycles = [.done r]) (t : UploadRow)
    (ht : t ∈ d.store.uploads) (hstatus : t.status = Progress.success.text)
    (hdel : t.deleted = false)
    (hgone : ∃ r ∈ ((solo b keep d).turns b ts).deployment.store.uploads,
      r.id = t.id ∧ r.deleted = true) :
    .removalClosed t.id t.uploadPrefix true ∈
        ((solo b keep d).turns b ts).deployment.journal.drop d.journal.length ↔
      ¬ PassedOver b (solo b keep d) ts t.id := by
  have hwatched : Watched d.journal t keep _ ((solo b keep d).turns b ts) :=
    watched_turns hcalm ht hstatus hdel hts
  obtain ⟨c, p, hcycles, hkeeps, htrue⟩ := hwatched
  obtain ⟨r, hr, hkin⟩ := htrue.row
  obtain ⟨events, hjournal, htold⟩ := htrue.told
  obtain ⟨r', hr', hid', hdel'⟩ := hgone
  obtain ⟨answer, hdone⟩ := hover
  obtain rfl := List.inj_on_of_nodup_map htrue.booked.calm.numbered.uploads hr hr'
    (hkin.id.trans hid'.symm)
  -- the cleanup is over, and holds no claim
  obtain rfl : p = .done answer := List.singleton_inj.1 (hcycles.symm.trans hdone)
  have hfree : c.held = none := hkeeps
  rw [hjournal, List.drop_left, htold]
  constructor
  · exact fun hremoved hp => (htrue.entry.spared hp).2.1 hremoved
  · intro hnot
    rcases hkin.deleted hdel' with hheld | hremoved | hmarked
    · exact absurd (hheld.symm.trans hfree) nofun
    · exact hremoved
    · exact (htrue.entry.marked hmarked).resolve_left hnot

end Turns

def halfShielded : Deployment where
  hosts := []
  gate := { blockInterval := 1 }
  store := {
    clock := fun _ => default
    tables := {
      attempts := some [{ (default : AttemptRow) with id := 1, status := Progress.success.text }]
      uploads := some [
        { (default : UploadRow) with
          id := 1, attemptId := 1, uploadPrefix := "a", status := Progress.success.text },
        { (default : UploadRow) with
          id := 2, attemptId := 1, uploadPrefix := "b", status := Progress.success.text
          persisted := true }] } }

def hastyTurns : List Turn :=
  [.act 0, .act 0, .act 0, .persistUpload 2 false, .act 0, .act 0, .act 0]

theorem halfShielded_calm : Calm halfShielded :=
  ⟨rfl, ⟨rfl, rfl, rfl, rfl⟩, by decide, by decide⟩

theorem hastyTurns_start (keep : Nat) : Turn.start keep ∉ hastyTurns := by
  simp [hastyTurns]

theorem hastyTurns_over :
    ∃ r, ((solo ⟨false, "bucket"⟩ 0 halfShielded).turns ⟨false, "bucket"⟩ hastyTurns).cycles =
      [.done r] :=
  ⟨_, rfl⟩

theorem hastyTurns_passedOver :
    PassedOver ⟨false, "bucket"⟩ (solo ⟨false, "bucket"⟩ 0 halfShielded) hastyTurns 2 := by
  have hshielded : ∃ r ∈ halfShielded.store.uploads, r.id = 2 ∧ r.persisted = true := by decide
  exact ⟨[], List.prefix_append [_] _, rfl, hshielded⟩

theorem deleted_truthful_iff_hasty :
    ∃ t ∈ halfShielded.store.uploads, t.id = 2 ∧ t.status = Progress.success.text ∧
      t.deleted = false ∧
      (∃ r ∈ ((solo ⟨false, "bucket"⟩ 0 halfShielded).turns ⟨false, "bucket"⟩
          hastyTurns).deployment.store.uploads, r.id = t.id ∧ r.deleted = true) ∧
      .removalClosed t.id t.uploadPrefix true ∉ ((solo ⟨false, "bucket"⟩ 0 halfShielded).turns
        ⟨false, "bucket"⟩ hastyTurns).deployment.journal.drop halfShielded.journal.length := by
  have hmem : ∃ t ∈ halfShielded.store.uploads, t.id = 2 ∧ t.status = Progress.success.text ∧
      t.deleted = false ∧ ∃ r ∈ ((solo ⟨false, "bucket"⟩ 0 halfShielded).turns ⟨false, "bucket"⟩
        hastyTurns).deployment.store.uploads, r.id = t.id ∧ r.deleted = true := by
    decide +kernel
  obtain ⟨t, ht, hid, hstatus, hdel, hgone⟩ := hmem
  refine ⟨t, ht, hid, hstatus, hdel, hgone, fun htold => ?_⟩
  have hiff := deleted_truthful_iff ⟨false, "bucket"⟩ 0 halfShielded halfShielded_calm hastyTurns
    hastyTurns_start hastyTurns_over t ht hstatus hdel hgone
  exact hiff.1 htold (hid ▸ hastyTurns_passedOver)

def clears (pre : String) : Event → Bool
  | .removalClosed _ pre' accepted => pre' == pre && accepted
  | _ => false

/-- An upload is marked as deleted though its directory has not been removed, because an operator let
go of it while the data of another was being removed. -/
theorem mark_without_removal :
    ¬ ∀ (b : Broom) (keep : Nat) (d : Deployment) (ts : List Turn), Calm d → b.dryRun = false →
      (∀ keep, Turn.start keep ∉ ts) →
      (∀ i < ts.length, ts[i]? = some (.act 0) ∨
        (((solo b keep d).turns b (ts.take i)).removal? 0).isSome) →
      (∃ r, ((solo b keep d).turns b ts).cycles = [.done r]) →
      ∀ t ∈ d.store.uploads, t.status = Progress.success.text → t.deleted = false →
        (∃ r ∈ ((solo b keep d).turns b ts).deployment.store.uploads,
          r.id = t.id ∧ r.deleted = true) →
        (((solo b keep d).turns b ts).deployment.journal.drop d.journal.length).any
          (clears t.uploadPrefix) = true := by
  intro h
  have hinside : ∀ i < hastyTurns.length, hastyTurns[i]? = some (.act 0) ∨
      (((solo ⟨false, "bucket"⟩ 0 halfShielded).turns ⟨false, "bucket"⟩
        (hastyTurns.take i)).removal? 0).isSome := by
    decide +kernel
  have hleak : ∃ t ∈ halfShielded.store.uploads, t.status = Progress.success.text ∧
      t.deleted = false ∧
      (∃ r ∈ ((solo ⟨false, "bucket"⟩ 0 halfShielded).turns ⟨false, "bucket"⟩
        hastyTurns).deployment.store.uploads, r.id = t.id ∧ r.deleted = true) ∧
      (((solo ⟨false, "bucket"⟩ 0 halfShielded).turns ⟨false, "bucket"⟩
        hastyTurns).deployment.journal.drop halfShielded.journal.length).any
          (clears t.uploadPrefix) = false := by
    decide +kernel
  obtain ⟨t, ht, hstatus, hdel, hgone, hnone⟩ := hleak
  have hcleared := h ⟨false, "bucket"⟩ 0 halfShielded hastyTurns halfShielded_calm rfl
    hastyTurns_start hinside hastyTurns_over t ht hstatus hdel hgone
  exact Bool.false_ne_true (hnone.symm.trans hcleared)

end FleetSnapshot.Sweep
