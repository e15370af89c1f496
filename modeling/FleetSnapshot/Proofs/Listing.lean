import FleetSnapshot.Proofs.Operation
import Mathlib.Data.List.Forall2

/-! What is read out of the audit store: the attempts that a cleanup works from, each with its
uploads. A listing succeeds only as a whole, and then it says what the rows say. -/

namespace FleetSnapshot.Audit

open Query

theorem readStatus_ok {text : String} {p : Progress} (h : readStatus text = .ok p) :
    text = p.text := by
  unfold readStatus Progress.ofText? at h
  split at h
  · rename_i q hq
    split at hq <;> cases hq <;> cases h <;> rfl
  · cases h

structure AttemptRow.ReadsAs (r : AttemptRow) (a : Attempt) : Prop where
  id : a.id = r.id
  height : a.height = r.height.toUInt64
  status : r.status = a.status.text
  persisted : a.persisted = r.persisted
  deleted : a.deleted = r.deleted
  dryRun : a.dryRun = r.dryRun

structure UploadRow.ReadsAs (r : UploadRow) (u : Upload) : Prop where
  id : u.id = r.id
  attemptId : u.attemptId = r.attemptId
  uploadPrefix : u.uploadPrefix = r.uploadPrefix
  status : r.status = u.status.text
  persisted : u.persisted = r.persisted
  deleted : u.deleted = r.deleted

theorem AttemptRow.reads {r : AttemptRow} {a : Attempt} (h : r.read = .ok a) : r.ReadsAs a := by
  simp only [AttemptRow.read, bind, Except.bind] at h
  split at h
  · cases h
  split at h
  · cases h
  split at h
  · cases h
  rename_i status hs
  cases h
  exact ⟨rfl, rfl, readStatus_ok hs, rfl, rfl, rfl⟩

theorem UploadRow.reads {r : UploadRow} {u : Upload} (h : r.read = .ok u) : r.ReadsAs u := by
  simp only [UploadRow.read, bind, Except.bind] at h
  split at h
  · cases h
  split at h
  · cases h
  split at h
  · cases h
  rename_i status hs
  cases h
  exact ⟨rfl, rfl, rfl, readStatus_ok hs, rfl, rfl⟩

/-- A row can be read if its times and its status can. -/
theorem UploadRow.readable_iff (r : UploadRow) :
    (∃ u, r.read = .ok u) ↔ (∃ t, r.startTime.read "start_time" = .ok t) ∧
      (∃ t, readEnd r.endTime = .ok t) ∧ ∃ p, readStatus r.status = .ok p := by
  simp only [UploadRow.read, bind, Except.bind]
  cases r.startTime.read "start_time" with
  | error f => simp
  | ok t =>
    cases readEnd r.endTime with
    | error f => simp
    | ok t =>
      cases readStatus r.status with
      | error f => simp
      | ok p => simp [pure, Except.pure]

theorem AttemptRow.readable_iff (r : AttemptRow) :
    (∃ a, r.read = .ok a) ↔ (∃ t, r.startTime.read "start_time" = .ok t) ∧
      (∃ t, readEnd r.endTime = .ok t) ∧ ∃ p, readStatus r.status = .ok p := by
  simp only [AttemptRow.read, bind, Except.bind]
  cases r.startTime.read "start_time" with
  | error f => simp
  | ok t =>
    cases readEnd r.endTime with
    | error f => simp
    | ok t =>
      cases readStatus r.status with
      | error f => simp
      | ok p => simp [pure, Except.pure]

def Store.uploadRowsOf (s : Store) (attemptId : Int) : List UploadRow :=
  Order.sort (fun r r' => r'.latestFirst r) (s.uploads.filter (·.attemptId == attemptId))

theorem Store.mem_uploadRowsOf {s : Store} {attemptId : Int} {r : UploadRow} :
    r ∈ s.uploadRowsOf attemptId ↔ r ∈ s.uploads ∧ r.attemptId = attemptId := by
  rw [uploadRowsOf, (Order.sort_perm _ _).mem_iff, List.mem_filter, beq_iff_eq]

/-- An attempt with its uploads, as the rows of the store have it. -/
structure Records (s : Store) (r : AttemptRow) (a : Attempt) : Prop where
  own : ∃ a', r.read = .ok a' ∧ a = { a' with uploads := a.uploads }
  uploads : (s.uploadRowsOf r.id).mapM UploadRow.read = .ok a.uploads

namespace Records

variable {s s' : Store} {r : AttemptRow} {a : Attempt}

theorem reads (h : Records s r a) : r.ReadsAs a := by
  obtain ⟨a', hr, ha⟩ := h.own
  obtain ⟨hid, hheight, hstatus, hpers, hdel, hdry⟩ := AttemptRow.reads hr
  rw [ha]
  exact ⟨hid, hheight, hstatus, hpers, hdel, hdry⟩

theorem alike (h : Records s r a) (hs : Alike s s') : Records s' r a :=
  ⟨h.own, by rw [Store.uploadRowsOf, hs.uploads]; exact h.uploads⟩

end Records

theorem exists_of_isOk {ε α : Type} {x : Except ε α} (h : x.isOk = true) : ∃ a, x = .ok a := by
  cases x with
  | error e => cases h
  | ok a => exact ⟨a, rfl⟩

theorem mapM_except_ok {ε α β : Type} {f : α → Except ε β} {as : List α} {bs : List β} :
    as.mapM f = .ok bs ↔ List.Forall₂ (fun a b => f a = .ok b) as bs := by
  induction as generalizing bs with
  | nil =>
    rw [List.mapM_nil, List.forall₂_nil_left_iff]
    exact ⟨fun h => (Except.ok.inj h).symm, fun h => h ▸ rfl⟩
  | cons a as ih =>
    rw [List.mapM_cons, List.forall₂_cons_left_iff]
    constructor
    · intro h
      cases hf : f a with
      | error e => rw [hf] at h; cases h
      | ok b =>
        cases hs : as.mapM f with
        | error e => rw [hf, hs] at h; cases h
        | ok bs' =>
          rw [hf, hs] at h
          cases h
          exact ⟨b, bs', rfl, ih.1 hs, rfl⟩
    · rintro ⟨b, bs', hb, hbs, rfl⟩
      rw [hb, ih.2 hbs]
      rfl

theorem mapM_of_forall {ε α β : Type} {f : α → Except ε β} {as : List α}
    (h : ∀ a ∈ as, ∃ b, f a = .ok b) : ∃ bs, as.mapM f = .ok bs := by
  induction as with
  | nil => exact ⟨[], rfl⟩
  | cons a as ih =>
    obtain ⟨b, hb⟩ := h a List.mem_cons_self
    obtain ⟨bs, hbs⟩ := ih fun a' ha' => h a' (List.mem_cons_of_mem _ ha')
    exact ⟨b :: bs, mapM_except_ok.2 (.cons hb (mapM_except_ok.1 hbs))⟩

theorem forall₂_of_exists {α β : Type} {R : α → β → Prop} {as : List α}
    (h : ∀ a ∈ as, ∃ b, R a b) : ∃ bs, List.Forall₂ R as bs := by
  induction as with
  | nil => exact ⟨[], .nil⟩
  | cons a as ih =>
    obtain ⟨b, hb⟩ := h a List.mem_cons_self
    obtain ⟨bs, hbs⟩ := ih fun a' ha' => h a' (List.mem_cons_of_mem _ ha')
    exact ⟨b :: bs, .cons hb hbs⟩

theorem source_of_mem {α β : Type} {R : α → β → Prop} {as : List α} {bs : List β}
    (h : List.Forall₂ R as bs) {b : β} (hb : b ∈ bs) : ∃ a ∈ as, R a b := by
  induction h with
  | nil => cases hb
  | cons hab _ ih =>
    rcases List.mem_cons.1 hb with rfl | hb
    · exact ⟨_, List.mem_cons_self, hab⟩
    · obtain ⟨a, ha, h⟩ := ih hb
      exact ⟨a, List.mem_cons_of_mem _ ha, h⟩

theorem image_of_mem {α β : Type} {R : α → β → Prop} {as : List α} {bs : List β}
    (h : List.Forall₂ R as bs) {a : α} (ha : a ∈ as) : ∃ b ∈ bs, R a b := by
  induction h with
  | nil => cases ha
  | cons hab _ ih =>
    rcases List.mem_cons.1 ha with rfl | ha
    · exact ⟨_, List.mem_cons_self, hab⟩
    · obtain ⟨b, hb, h⟩ := ih ha
      exact ⟨b, List.mem_cons_of_mem _ hb, h⟩

theorem map_eq_of_forall {α β γ : Type} {R : α → β → Prop} {as : List α} {bs : List β}
    (h : List.Forall₂ R as bs) {f : α → γ} {g : β → γ} (hfg : ∀ a b, R a b → g b = f a) :
    bs.map g = as.map f := by
  induction h with
  | nil => rfl
  | cons hab _ ih => rw [List.map_cons, List.map_cons, ih, hfg _ _ hab]

theorem mem_of_mapM {ε α β : Type} {f : α → Except ε β} {as : List α} {bs : List β}
    (h : as.mapM f = .ok bs) {b : β} (hb : b ∈ bs) : ∃ a ∈ as, f a = .ok b :=
  source_of_mem (mapM_except_ok.1 h) hb

/-- An attempt can be read if its row can, and those of its uploads. -/
theorem exists_records {s : Store} {r : AttemptRow} {a : Attempt} (hr : r.read = .ok a)
    (hus : ∀ row ∈ s.uploads, row.attemptId = r.id → ∃ u, row.read = .ok u) :
    ∃ a', Records s r a' := by
  have hall : ∀ row ∈ s.uploadRowsOf r.id, ∃ u, UploadRow.read row = .ok u := by
    intro row hrow
    obtain ⟨hmem, hid⟩ := Store.mem_uploadRowsOf.1 hrow
    exact hus row hmem hid
  obtain ⟨us, h⟩ := mapM_of_forall hall
  exact ⟨{ a with uploads := us }, ⟨a, hr, rfl⟩, h⟩

theorem Records.readable {s : Store} {r : AttemptRow} {a : Attempt} (h : Records s r a)
    {row : UploadRow} (hrow : row ∈ s.uploads) (hid : row.attemptId = r.id) :
    ∃ u ∈ a.uploads, row.read = .ok u :=
  image_of_mem (mapM_except_ok.1 h.uploads) (Store.mem_uploadRowsOf.2 ⟨hrow, hid⟩)

theorem Records.upload_ids {s : Store} {r : AttemptRow} {a : Attempt} (h : Records s r a) :
    a.uploads.map (·.id) = (s.uploadRowsOf r.id).map (·.id) :=
  map_eq_of_forall (mapM_except_ok.1 h.uploads) fun _ _ hu => (UploadRow.reads hu).id

/-- Every upload of an attempt has its row. -/
theorem Records.row_of_upload {s : Store} {r : AttemptRow} {a : Attempt} (h : Records s r a)
    {u : Upload} (hu : u ∈ a.uploads) :
    ∃ row ∈ s.uploads, row.attemptId = r.id ∧ row.read = .ok u := by
  obtain ⟨row, hrow, hread⟩ := mem_of_mapM h.uploads hu
  obtain ⟨hmem, hid⟩ := Store.mem_uploadRowsOf.1 hrow
  exact ⟨row, hmem, hid, hread⟩

theorem bind_ok {α β : Type} {q : Query α} {f : α → Query β} {s : Store} {b : β}
    (h : ((q >>= f) s).1 = .ok b) : ∃ a, (q s).1 = .ok a ∧ (f a (q s).2).1 = .ok b := by
  rw [bind_apply] at h
  rcases hq : q s with ⟨e | a, s'⟩ <;> rw [hq] at h
  · cases h
  · exact ⟨a, rfl, h⟩

theorem selectUploads_ok {s : Store} {rows : List UploadRow} (h : (selectUploads s).1 = .ok rows) :
    rows = s.uploads := by
  rw [selectUploads, statement_apply, uploadRows_apply] at h
  cases hr : s.refusal? with
  | some f => rw [hr] at h; cases h
  | none =>
    rw [hr, Store.begun_tables] at h
    cases hu : s.tables.uploads with
    | none => rw [hu] at h; cases h
    | some rows' =>
      rw [hu] at h
      cases h
      rw [Store.uploads, hu, Option.getD_some]

theorem selectAttempts_ok {s : Store} {rows : List AttemptRow}
    (h : (selectAttempts s).1 = .ok rows) : rows = s.attempts := by
  rw [selectAttempts, statement_apply, attemptRows_apply] at h
  cases hr : s.refusal? with
  | some f => rw [hr] at h; cases h
  | none =>
    rw [hr, Store.begun_tables] at h
    cases hu : s.tables.attempts with
    | none => rw [hu] at h; cases h
    | some rows' =>
      rw [hu] at h
      cases h
      rw [Store.attempts, hu, Option.getD_some]

theorem ofRead_ok {α : Type} {x : Except StoreFault α} {s : Store} {a : α}
    (h : (ofRead x s).1 = .ok a) : x = .ok a := by
  cases x with
  | error f => cases h
  | ok a' =>
    cases h
    rfl

theorem uploadsOf_ok {s : Store} {attemptId : Int} {us : List Upload}
    (h : (uploadsOf attemptId s).1 = .ok us) :
    (s.uploadRowsOf attemptId).mapM UploadRow.read = .ok us := by
  obtain ⟨rows, hrows, h⟩ := bind_ok h
  rw [← ofRead_ok h, selectUploads_ok hrows]
  rfl

theorem attemptWithUploads_ok {s : Store} {r : AttemptRow} {a : Attempt}
    (h : (attemptWithUploads r s).1 = .ok a) : Records s r a := by
  obtain ⟨a', ha', h⟩ := bind_ok h
  have hread := ofRead_ok ha'
  rw [hread] at h
  obtain ⟨us, hus, h⟩ := bind_ok h
  cases h
  refine ⟨⟨a', hread, rfl⟩, ?_⟩
  rw [← (AttemptRow.reads hread).id]
  exact uploadsOf_ok hus

/-- The rows that a cleanup looks at, in the order in which it does. -/
def candidates (s : Store) : List AttemptRow :=
  Order.sort AttemptRow.highestFirst
    (s.attempts.filter fun r => r.status == Progress.success.text && !r.deleted)

theorem records_of_mapM {s : Store} {rows : List AttemptRow} {as : List Attempt}
    (h : (rows.mapM attemptWithUploads s).1 = .ok as) : List.Forall₂ (Records s) rows as := by
  induction rows generalizing s as with
  | nil =>
    cases h
    exact .nil
  | cons r rows ih =>
    rw [List.mapM_cons] at h
    obtain ⟨a, ha, h⟩ := bind_ok h
    obtain ⟨as', has, h⟩ := bind_ok h
    cases h
    -- reading the first attempt leaves the rows of the others as they are
    have hs := attemptWithUploads_alike r s
    refine .cons (attemptWithUploads_ok ha) ((ih has).imp fun r a hr => hr.alike ?_)
    exact ⟨hs.tables.symm, hs.triggers.symm⟩

theorem successful_ok {s : Store} {as : List Attempt} (h : (successful s).1 = .ok as) :
    List.Forall₂ (Records s) (candidates s) as := by
  obtain ⟨rows, hrows, h⟩ := bind_ok h
  have hs := selectAttempts_alike s
  rw [selectAttempts_ok hrows] at h
  exact (records_of_mapM h).imp fun r a hr => hr.alike ⟨hs.tables.symm, hs.triggers.symm⟩

/-- What a cleanup finds listed; nothing if the listing fails. -/
def listed (s : Store) : List Attempt := (successful s).1.toOption.getD []

theorem listed_ids (s : Store) : ((listed s).map (·.id)).Sublist ((candidates s).map (·.id)) := by
  unfold listed
  cases hs : (successful s).1 with
  | error e => exact List.nil_sublist _
  | ok as =>
    rw [show (Except.ok as : Except Error _).toOption.getD [] = as from rfl,
      map_eq_of_forall (successful_ok hs) fun r a h => h.reads.id]

theorem records_of_listed {s : Store} {a : Attempt} (ha : a ∈ listed s) :
    ∃ r ∈ s.attempts, r.status = Progress.success.text ∧ r.deleted = false ∧ Records s r a := by
  unfold listed at ha
  cases hs : (successful s).1 with
  | error e => rw [hs] at ha; cases ha
  | ok as =>
    rw [hs] at ha
    obtain ⟨r, hr, hrec⟩ := source_of_mem (successful_ok hs) ha
    rw [candidates, (Order.sort_perm _ _).mem_iff, List.mem_filter] at hr
    simp only [Bool.and_eq_true, beq_iff_eq, Bool.not_eq_true'] at hr
    exact ⟨r, hr.1, hr.2.1, hr.2.2, hrec⟩

end FleetSnapshot.Audit
