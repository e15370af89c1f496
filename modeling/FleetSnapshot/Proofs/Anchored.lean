import FleetSnapshot.Proofs.Directory
import FleetSnapshot.Proofs.Orphan
import FleetSnapshot.Proofs.Surpassed

/-! What holds of the marker and of the records at every moment, also in the middle of a cleanup. As
long as attempts come at rising heights, nothing is marked as deleted and no directory removed but
what a complete attempt has gone beyond, and the marker names nothing of that kind. -/

namespace FleetSnapshot

open Audit Capture Sweep

/-- A removal takes away what lies in the directory, and that only. -/
theorem Bucket.Objects.find?_remove (objects : Objects) (pre key : String) :
    Order.find? key (objects.remove pre) =
      if covers pre key then none else Order.find? key objects := by
  have hfind : (objects.remove pre).find? (·.1 == key) =
      objects.find? fun o => !covers pre key && o.1 == key := by
    refine List.find?_filter.trans (congrArg (List.find? · objects) (funext fun o => ?_))
    by_cases ho : o.1 = key
    · simp [ho]
    · simp [ho]
  rw [Order.find?, hfind]
  cases covers pre key <;> simp [Order.find?]

/-- The deployment comes up in the course of the move. -/
def Move.Passes (d : Deployment) : Move → Deployment → Prop
  | .attempt p height hosts gate refusesPut =>
    (Capture.run p height).run.Passes { d with hosts, gate, refusesPut }
  | .cleanup b keep _ => (cycle b keep).run.Passes d
  | .persistAttempt id value => (Plan.act (.audit (.persistAttempt id value))).Passes d
  | .persistUpload id value => (Plan.act (.audit (.persistUpload id value))).Passes d

theorem Move.passes_after (m : Move) (d : Deployment) : m.Passes d (m.after d) := by
  cases m with
  | attempt p height hosts gate refusesPut => exact Plan.passes_run _ _
  | cleanup b keep moods => exact Plan.passes_runFickle _ moods d
  | persistAttempt id value => exact Or.inr ⟨d.refusesRemoval, rfl⟩
  | persistUpload id value => exact Or.inr ⟨d.refusesRemoval, rfl⟩

def Move.heights : Move → List UInt64
  | .attempt _ height _ _ _ => [height]
  | .cleanup _ _ _ | .persistAttempt _ _ | .persistUpload _ _ => []

theorem Move.heights_snoc (ms : List Move) (m : Move) :
    (ms ++ [m]).flatMap Move.heights = ms.flatMap Move.heights ++ m.heights := by
  rw [List.flatMap_append, List.flatMap_singleton]

/-- The move is made for this fleet and its marker, and a cleanup spares one attempt at least. -/
def Move.Regular (p : Plant) : Move → Prop
  | .attempt p' _ _ _ _ => p' = p
  | .cleanup _ keep _ => 1 ≤ keep
  | _ => True

/-- What stands in the object that names the height of the last complete snapshot. -/
def Deployment.marker (p : Plant) (d : Deployment) : Option String :=
  Order.find? (markerKey p) d.objects

def Act.Puts {β : Type} (act : Act β) : Prop :=
  match act with
  | .put _ _ => True
  | _ => False

def Act.opens? {β : Type} : Act β → Option String
  | .openRemoval _ pre => some pre
  | _ => none

section Acts

variable {β : Type} (act : Act β) (d : Deployment)

/-- The marker is written or taken away, but never changed otherwise. -/
theorem Deployment.perform_marker (p : Plant) (hputs : ¬ act.Puts) :
    (d.perform act).2.marker p = d.marker p ∨ (d.perform act).2.marker p = none := by
  cases act with
  | audit op => exact Or.inl rfl
  | command node text =>
    simp only [perform, command]
    split <;> exact Or.inl rfl
  | put key text => exact absurd trivial hputs
  | openRemoval upload pre =>
    simp only [perform, openRemoval]
    split <;> exact Or.inl rfl
  | closeRemoval upload pre =>
    simp only [perform, closeRemoval]
    split
    · rw [marker, Bucket.Objects.find?_remove]
      split
      · exact Or.inr rfl
      · exact Or.inl rfl
    · exact Or.inl rfl
  | enter =>
    simp only [perform, enter]
    split <;> exact Or.inl rfl
  | leave => exact Or.inl rfl
  | phase φ => exact Or.inl rfl
  | agreed height next => exact Or.inl rfl

theorem Deployment.perform_opened (id : Int) (pre : String)
    (h : Event.removalOpened id pre ∈ (d.perform act).2.journal) :
    Event.removalOpened id pre ∈ d.journal ∨ act.opens? = some pre := by
  cases act with
  | audit op => exact Or.inl h
  | command node text =>
    simp only [perform, command] at h
    split at h
    · exact Or.inl h
    · simpa [note, Act.opens?] using h
  | put key text =>
    simp only [perform, put] at h
    split at h <;> simpa [note, Act.opens?] using h
  | openRemoval upload pre' =>
    have hjournal : (d.perform (.openRemoval upload pre')).2.journal =
        d.journal ++ [.removalOpened upload pre'] := by
      simp only [perform, openRemoval]
      split <;> rfl
    rw [hjournal, List.mem_append, List.mem_singleton] at h
    refine h.imp_right fun heq => ?_
    cases heq
    rfl
  | closeRemoval upload pre' =>
    simp only [perform, closeRemoval] at h
    split at h <;> simpa [note, Act.opens?] using h
  | enter =>
    simp only [perform, enter] at h
    split at h <;> exact Or.inl h
  | leave => exact Or.inl h
  | phase φ => exact Or.inl h
  | agreed height next => exact Or.inl h

end Acts

/-- The snapshot at a height is as it was left: nothing of it is marked as deleted, and no removal has
come near its data. -/
structure Intact (d : Deployment) (height : UInt64) : Prop where
  attempts : ∀ a ∈ d.store.attempts, a.height.toUInt64 = height → a.deleted = false
  uploads : ∀ a ∈ d.store.attempts, a.height.toUInt64 = height →
    ∀ u ∈ d.store.uploads, u.attemptId = a.id → u.deleted = false
  data : ∀ a ∈ d.store.attempts, a.height.toUInt64 = height →
    ∀ u ∈ d.store.uploads, u.attemptId = a.id → ∀ id pre, .removalOpened id pre ∈ d.journal →
      ∀ key, Bucket.covers u.uploadPrefix key = true → Bucket.covers pre key = false

/-- The directory is that of a snapshot that a complete one has gone beyond. -/
def Spent (fleet : List Node) (s : Store) (pre : String) : Prop :=
  ∃ n ∈ fleet, ∃ height, pre = uploadPrefix n height ∧ s.Surpasses height

/-- Attempts have been made at these heights, and the marker named `before` at first. Nothing is removed
but what is surpassed, and the marker is not. -/
structure Anchored (p : Plant) (heights : List UInt64) (before : Option String) (d : Deployment) :
    Prop where
  rest : AtRest d
  rising : Rising p.fleet d.store
  called : ∀ a ∈ d.store.attempts, a.height.toUInt64 ∈ heights
  removals : ∀ id pre, .removalOpened id pre ∈ d.journal → Spent p.fleet d.store pre
  unsurpassed : ∀ height, d.marker p = some (toString height.toNat) → ¬ d.store.Surpasses height
  origin : ∀ text, d.marker p = some text →
    before = some text ∨ ∃ a ∈ d.store.attempts, text = toString a.height.toUInt64.toNat

/-- A step that adds no row and does not put the marker. -/
structure Tends (p : Plant) (d d' : Deployment) : Prop where
  rest : AtRest d'
  rows : Tended d.store d'.store
  removals : ∀ id pre, .removalOpened id pre ∈ d'.journal →
    .removalOpened id pre ∈ d.journal ∨ Spent p.fleet d.store pre
  marker : d'.marker p = d.marker p ∨ d'.marker p = none
  level : ∀ height, d'.marker p = some (toString height.toNat) → d'.store.Surpasses height →
    d.store.Surpasses height

theorem marker_inj {height height' : UInt64} (h : toString height.toNat = toString height'.toNat) :
    height = height' :=
  height_inj (congrArg String.toList h)

theorem Spent.mono {fleet : List Node} {s s' : Store} {pre : String} (h : Spent fleet s pre)
    (hs : ∀ height, s.Surpasses height → s'.Surpasses height) : Spent fleet s' pre := by
  obtain ⟨n, hn, height, hpre, hsurpassed⟩ := h
  exact ⟨n, hn, height, hpre, hs height hsurpassed⟩

section Invariant

variable {p : Plant} {heights : List UInt64} {before : Option String} {d d' : Deployment}

/-- What the marker names is as it was left. -/
theorem Anchored.intact (h : Anchored p heights before d)
    (hapart : ∀ n ∈ p.fleet, ∀ m ∈ p.fleet,
      ¬ Bucket.Extends n.target.uploadPrefix m.target.uploadPrefix)
    {height : UInt64} (hmarker : d.marker p = some (toString height.toNat)) : Intact d height := by
  have hkept := h.unsurpassed height hmarker
  refine ⟨?_, ?_, ?_⟩
  · rintro a ha rfl
    rw [← Bool.not_eq_true]
    exact fun hdel => hkept (h.rising.attempts a ha hdel)
  · rintro a ha rfl u hu hid
    rw [← Bool.not_eq_true]
    exact fun hdel => hkept (h.rising.uploads u hu hdel a ha hid.symm)
  · rintro a ha rfl u hu hid id pre hopened key hkey
    obtain ⟨n, hn, height', rfl, hsurpassed⟩ := h.removals id pre hopened
    obtain ⟨m, hm, owner, howner, hown, hpre⟩ := h.rising.places u hu
    obtain rfl : owner = a := List.inj_on_of_nodup_map h.rest.filed.numbered.attempts howner ha
      (hown.trans hid)
    rw [hpre] at hkey
    rw [← Bool.not_eq_true]
    intro hcovered
    rcases shared_key hkey hcovered with ⟨-, hsame⟩ | hext | hext
    · exact hkept (hsame ▸ hsurpassed)
    · exact hapart m hm n hn hext
    · exact hapart n hn m hm hext

theorem Anchored.tends (h : Anchored p heights before d) (ht : Tends p d d') :
    Anchored p heights before d' := by
  have hsurpasses : ∀ height, d.store.Surpasses height → d'.store.Surpasses height :=
    fun _ => ht.rows.surpasses
  obtain ⟨g, hg, hattempts, -⟩ := ht.rows.attempts
  refine ⟨ht.rest, h.rising.tended ht.rows, fun a' ha' => ?_, fun id pre hopened => ?_,
    fun height hmarker hsurpassed => ?_, fun text hmarker => ?_⟩
  · rw [hattempts] at ha'
    obtain ⟨a, ha, rfl⟩ := List.mem_map.1 ha'
    rw [(hg a).2]
    exact h.called a ha
  · rcases ht.removals id pre hopened with hopened | hspent
    · exact (h.removals id pre hopened).mono hsurpasses
    · exact hspent.mono hsurpasses
  · have hbefore := ht.level height hmarker hsurpassed
    rcases ht.marker with hsame | hnone
    · exact h.unsurpassed height (hsame ▸ hmarker) hbefore
    · rw [hnone] at hmarker
      cases hmarker
  · rcases ht.marker with hsame | hnone
    · refine (h.origin text (hsame ▸ hmarker)).imp_right ?_
      rintro ⟨a, ha, htext⟩
      exact ⟨g a, hattempts ▸ List.mem_map_of_mem ha, by rw [(hg a).2, htext]⟩
    · rw [hnone] at hmarker
      cases hmarker

/-- Only the surroundings have become others. -/
theorem Tends.of_same (h : AtRest d) (hstore : d'.store = d.store)
    (halone : d'.meanwhile = d.meanwhile) (hobjects : d'.objects = d.objects)
    (hjournal : ∀ id pre, .removalOpened id pre ∈ d'.journal → .removalOpened id pre ∈ d.journal) :
    Tends p d d' where
  rest := ⟨⟨halone ▸ h.calm.alone, hstore ▸ h.calm.ready, hstore ▸ h.calm.numbered⟩,
    hstore ▸ h.filed⟩
  rows := .of_same (congrArg Store.attempts hstore) (congrArg Store.uploads hstore)
  removals id pre hopened := Or.inl (hjournal id pre hopened)
  marker := Or.inl (congrArg (Order.find? (markerKey p)) hobjects)
  level _ _ hsurpassed := hstore ▸ hsurpassed

theorem Tends.mood (h : AtRest d) (prefixes : List String) :
    Tends p d { d with refusesRemoval := prefixes } :=
  .of_same h rfl rfl rfl fun _ _ hopened => hopened

theorem Tends.perform {β : Type} {act : Act β} (h : AtRest d) (hadds : ¬ act.Adds)
    (hputs : ¬ act.Puts) (hopens : ∀ pre, act.opens? = some pre → Spent p.fleet d.store pre)
    (hrows : Tended d.store (d.perform act).2.store)
    (hlevel : ∀ height, (d.perform act).2.marker p = some (toString height.toNat) →
      (d.perform act).2.store.Surpasses height → d.store.Surpasses height) :
    Tends p d (d.perform act).2 where
  rest := h.perform hadds
  rows := hrows
  removals id pre hopened := (d.perform_opened act id pre hopened).imp_right (hopens pre)
  marker := d.perform_marker act p hputs
  level := hlevel

/-- A statement on the audit store has to do with the rows alone. -/
theorem Tends.op {α : Type} {op : Op α} (h : AtRest d) (hadds : ¬ op.Adds)
    (hrows : Tended d.store (op.run d.store).2)
    (hlevel : ∀ height, d.marker p = some (toString height.toNat) →
      (op.run d.store).2.Surpasses height → d.store.Surpasses height) :
    Tends p d (d.perform (.audit op)).2 :=
  Tends.perform h hadds (fun h => h) (fun pre hpre => by cases hpre) hrows hlevel

/-- A single act that tends all leaves all as it is to be. -/
theorem Anchored.act {β : Type} {act : Act β} (h : Anchored p heights before d)
    (hact : ∀ {d}, AtRest d → Tends p d (d.perform act).2) (hpasses : (Plan.act act).Passes d d') :
    Anchored p heights before d' := by
  rcases hpasses with rfl | ⟨prefixes, rfl⟩
  · exact h
  · have hmood := h.tends (.mood h.rest prefixes)
    exact hmood.tends (hact hmood.rest)

end Invariant

section Persist

variable {p : Plant} {d : Deployment} (h : AtRest d) (id : Int) (value : Bool)

include h

theorem Tends.persistUpload : Tends p d (d.perform (.audit (.persistUpload id value))).2 := by
  have hstore : ((Op.persistUpload id value).run d.store).2 = _ :=
    persistUpload_exact h.calm.ready id value
  refine .op h (fun h => h) ?_ fun height _ hsurpassed => ?_
  · rw [hstore]
    exact ⟨.of_same rfl, .of_changed (Store.mapUploads_uploads _ _) (fun _ => ⟨rfl, rfl⟩)
      fun _ _ _ => Or.inl⟩
  · rw [hstore] at hsurpassed
    exact hsurpassed

theorem Tends.persistAttempt : Tends p d (d.perform (.audit (.persistAttempt id value))).2 := by
  have hexact := persistAttempt_exact h.calm.ready id value
  have hstore : ((Op.persistAttempt id value).run d.store).2 =
      (Audit.persistAttempt id value d.store).2 := rfl
  split at hexact
  case isFalse =>
    exact .of_same h (hstore.trans hexact) rfl rfl fun _ _ hopened => hopened
  case isTrue =>
    rw [hexact] at hstore
    refine .op h (fun h => h) ?_ fun height _ hsurpassed => ?_
    · rw [hstore]
      exact ⟨.of_changed (Store.mapAttempts_attempts _ _) (fun _ => ⟨rfl, rfl⟩)
          fun _ _ _ => ⟨fun hdone => hdone, Or.inl⟩,
        .of_changed (Store.mapUploads_uploads _ _) (fun _ => ⟨rfl, rfl⟩) fun _ _ _ => Or.inl⟩
    · rw [hstore] at hsurpassed
      exact hsurpassed.of_changed (Store.mapAttempts_attempts _ _) (fun _ => rfl) fun _ hdone => hdone

end Persist

section Cleanup

/-- An attempt that is to go lies below a complete one, and so do the directories of its uploads. -/
structure Outdone (fleet : List Node) (s : Store) (a : Attempt) : Prop where
  surpassed : s.Surpasses a.height
  rows : ∀ r ∈ s.attempts, r.id = a.id → r.height.toUInt64 = a.height
  places : ∀ u ∈ eligibles a, ∃ n ∈ fleet, u.uploadPrefix = uploadPrefix n a.height

variable {fleet : List Node} {s s' : Store} {a : Attempt}

theorem Outdone.tended (h : Outdone fleet s a) (ht : Tended s s') : Outdone fleet s' a := by
  refine ⟨ht.surpasses h.surpassed, fun r' hr' hid => ?_, h.places⟩
  obtain ⟨g, hg, hattempts, -⟩ := ht.attempts
  rw [hattempts] at hr'
  obtain ⟨r, hr, rfl⟩ := List.mem_map.1 hr'
  rw [(hg r).2]
  exact h.rows r hr ((hg r).1.symm.trans hid)

/-- A cleanup that spares one attempt at least spares the highest. -/
theorem Outdone.of_surplus (hn : s.Numbered) (h : Rising fleet s)
    (hbound : ∀ r ∈ s.attempts, r.height.toUInt64 < 0x8000000000000000) {as : List Attempt}
    (hrecords : List.Forall₂ (Records s) (candidates s) as) {keep : Nat} (hkeep : 1 ≤ keep)
    (ha : a ∈ surplus keep as) : Outdone fleet s a := by
  obtain ⟨r, hr, hrec, hsurpassed⟩ := surplus_surpassed hn h hbound hrecords hkeep ha
  have hown : ∀ r' ∈ s.attempts, r'.id = r.id → r' = r := fun r' hr' hid =>
    List.inj_on_of_nodup_map hn.attempts hr' hr hid
  refine ⟨hsurpassed, fun r' hr' hid => ?_, fun u hu => ?_⟩
  · rw [hown r' hr' (hid.trans hrec.reads.id), hrec.reads.height]
  · obtain ⟨row, hrow, hid, hread⟩ := hrec.row_of_upload (List.mem_filter.1 hu).1
    obtain ⟨n, hn, owner, howner, hid', hpre⟩ := h.places row hrow
    rw [hown owner howner (hid'.trans hid)] at hpre
    exact ⟨n, hn, by rw [(UploadRow.reads hread).uploadPrefix, hpre, hrec.reads.height]⟩

/-- Of the rows of an attempt that is outdone, all are those of a surpassed height. -/
theorem Outdone.surpasses (h : Outdone fleet s a) {id : Int} (hid : id = a.id) :
    ∀ r ∈ s.attempts, r.id = id → s.Surpasses r.height.toUInt64 := by
  rintro r hr rfl
  rw [h.rows r hr hid]
  exact h.surpassed

variable {keep : Nat} {c : Ledger} {d : Deployment}

/-- What a cleanup does to the rows is done to those of outdone attempts. -/
theorem wrought_tended {β : Type} {act : Act β} (h : Booked c d)
    (hdue : ∀ a ∈ c.due, Outdone fleet d.store a) (hallows : (books keep).allows c act) :
    Tended d.store (wrought d.store act) ∧
      ∀ height, (wrought d.store act).Surpasses height → d.store.Surpasses height := by
  have still : Tended d.store d.store ∧ ∀ height, d.store.Surpasses height → d.store.Surpasses height :=
    ⟨.of_same rfl rfl, fun _ => id⟩
  cases act with
  | audit op =>
    cases op with
    | successful => exact still
    | getUpload id => exact still
    | getAttempt id => exact still
    | claim id =>
      obtain ⟨-, -, pre, a, ha, -, u, hu, rfl, -⟩ := hallows
      refine ⟨⟨.of_same rfl, .of_changed (Store.mapUploads_uploads _ _) (fun _ => ⟨rfl, rfl⟩)
        fun r hr hsel _ => Or.inr ?_⟩, fun _ hsurpassed => hsurpassed⟩
      simp only [Bool.and_eq_true, beq_iff_eq] at hsel
      exact (hdue a ha).surpasses (h.own a ha u hu r hr hsel.1).1
    | release id =>
      exact ⟨⟨.of_same rfl, .of_changed (Store.mapUploads_uploads _ _) (fun _ => ⟨rfl, rfl⟩)
        fun _ _ _ hdel => absurd hdel Bool.false_ne_true⟩, fun _ hsurpassed => hsurpassed⟩
    | markDeleted id =>
      obtain ⟨-, -, a, ha, rfl, -⟩ := hallows
      have hexact := markDeleted_exact h.calm.ready a.id
      have hstore : wrought d.store (.audit (.markDeleted a.id)) = (markDeleted a.id d.store).2 := rfl
      rw [hstore]
      split at hexact
      case isFalse =>
        rw [hexact]
        exact still
      case isTrue =>
        rw [hexact]
        refine ⟨⟨.of_changed (Store.mapAttempts_attempts _ _) (fun _ => ⟨rfl, rfl⟩)
            fun r hr hsel => ⟨fun hdone => hdone, fun _ => Or.inr ?_⟩,
          .of_changed (Store.mapUploads_uploads _ _) (fun _ => ⟨rfl, rfl⟩)
            fun r _ hsel _ => Or.inr ?_⟩,
          fun _ hsurpassed => hsurpassed.of_changed (Store.mapAttempts_attempts _ _) (fun _ => rfl)
            fun _ hdone => hdone⟩
        · simp only [Bool.and_eq_true, beq_iff_eq] at hsel
          exact (hdue a ha).surpasses rfl r hr hsel.1
        · simp only [Bool.and_eq_true, beq_iff_eq] at hsel
          exact (hdue a ha).surpasses hsel.1
    | _ => exact hallows.elim
  | openRemoval upload pre => exact still
  | closeRemoval upload pre => exact still
  | _ => exact hallows.elim

structure Clearing (p : Plant) (heights : List UInt64) (before : Option String) (c : Ledger)
    (d : Deployment) : Prop where
  booked : Booked c d
  anchored : Anchored p heights before d
  due : ∀ a ∈ c.due, Outdone p.fleet d.store a

variable {p : Plant} {heights : List UInt64} {before : Option String}

theorem Clearing.perform (hkeep : 1 ≤ keep) (hbound : ∀ height ∈ heights, height < 0x8000000000000000)
    {β : Type} {act : Act β} (h : Clearing p heights before c d)
    (hallows : (books keep).allows c act) :
    (books keep).expects c act (d.perform act).1 ∧
      Clearing p heights before ((books keep).after c act (d.perform act).1) (d.perform act).2 := by
  obtain ⟨he, hbooked⟩ := h.booked.perform act hallows
  obtain ⟨hrows, hlevel⟩ := wrought_tended h.booked h.due hallows
  rw [← h.booked.store act hallows] at hrows hlevel
  have hputs : ¬ act.Puts := by
    cases act with
    | put key text => exact hallows.elim
    | _ => exact id
  have hopens : ∀ pre, act.opens? = some pre → Spent p.fleet d.store pre := by
    intro pre hpre
    cases act with
    | openRemoval upload pre' =>
      cases hpre
      obtain ⟨-, a, ha, -, u, hu, -, rfl⟩ := hallows
      obtain ⟨n, hn, hplace⟩ := (h.due a ha).places u hu
      exact ⟨n, hn, a.height, hplace, (h.due a ha).surpassed⟩
    | _ => cases hpre
  have ht : Tends p d (d.perform act).2 :=
    .perform h.anchored.rest (books_adds hallows) hputs hopens hrows fun height _ => hlevel height
  refine ⟨he, hbooked, h.anchored.tends ht, fun a ha => Outdone.tended ?_ hrows⟩
  cases act with
  | audit op =>
    cases op with
    | successful =>
      rcases hs : (d.perform (.audit .successful)).1 with e | as
      · rw [hs] at ha
        exact h.due a ha
      · rw [hs] at ha
        exact .of_surplus h.booked.calm.numbered h.anchored.rising
          (fun r hr => hbound _ (h.anchored.called r hr)) (successful_ok hs) hkeep ha
    | claim id =>
      refine h.due a ?_
      rcases hs : (d.perform (.audit (.claim id))).1 with e | _ | _ <;> rw [hs] at ha <;> exact ha
    | getUpload id => exact h.due a ha
    | getAttempt id => exact h.due a ha
    | release id => exact h.due a ha
    | markDeleted id => exact h.due a ha
    | _ => exact hallows.elim
  | openRemoval upload pre => exact h.due a ha
  | closeRemoval upload pre =>
    refine h.due a ?_
    rcases hs : (d.perform (.closeRemoval upload pre)).1 with e | _ <;> rw [hs] at ha <;> exact ha
  | _ => exact hallows.elim

/-- At any moment of a cleanup. -/
theorem Anchored.cleanup (h : Anchored p heights before d) (hkeep : 1 ≤ keep)
    (hbound : ∀ height ∈ heights, height < 0x8000000000000000) {b : Broom} {d' : Deployment}
    (hpasses : (cycle b keep).run.Passes d d') : Anchored p heights before d' := by
  have hstart : Clearing p heights before {} d :=
    ⟨.start h.rest.calm, h, List.forall_mem_nil _⟩
  obtain ⟨c, hc⟩ := hpasses.maintains (I := Clearing p heights before) (D := books keep)
    (fun c d prefixes hc => by
      have ht : Tends p d { d with refusesRemoval := prefixes } := .mood hc.anchored.rest prefixes
      exact ⟨⟨ht.rest.calm, hc.booked.unlisted, hc.booked.own⟩, hc.anchored.tends ht, hc.due⟩)
    (fun act c d hallows hc => hc.perform hkeep hbound hallows) (cycle_books b keep) hstart
  exact hc.anchored

end Cleanup

end FleetSnapshot
