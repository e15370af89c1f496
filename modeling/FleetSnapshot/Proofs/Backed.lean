import FleetSnapshot.Proofs.Written

/-! Whether a successful attempt is backed by its uploads, whichever statements on the audit store are
refused. An upload that cannot be put on record counts as failed, and so the attempt fails. But the
statement that ends an upload may be refused without a word, and then the row goes on running under
an attempt that is a success. -/

namespace FleetSnapshot

open Audit Job

/-- The coming statement of this number, counted from nought, is refused. -/
def Audit.Store.balks (s : Store) (k : Nat) : Bool := (s.refusals[k]?).join.isSome

namespace Capture

/-- The row of a node's upload in a successful attempt. The node of number i takes up two statements,
those of the numbers 2i+1 and 2i+2. -/
def Backs (s₀ : Store) (height : UInt64) (place : Node × Nat) (u : UploadRow) : Prop :=
  u.target = place.1.target.name ∧ u.uploadPrefix = uploadPrefix place.1 height ∧
    u.status = (if s₀.balks (2 * place.2 + 2) then Progress.running else .success).text

section Uploads

variable {s₀ s : Store} {a : AttemptRow} {us : List UploadRow} {height : UInt64}

theorem uploadEnd_written {u : UploadRow} (h : Underway s₀ a (us ++ [u]) s)
    (hrunning : u.status = Progress.running.text) (n : Node) (outcome : Except Error Unit) :
    (uploadEnd n u.id outcome).Keeps follows s
      (fun s' failed => ∃ u', Underway s₀ a (us ++ [u']) s' ∧ (failed = none →
        u'.target = u.target ∧ u'.uploadPrefix = u.uploadPrefix ∧
          u'.status = (if s.refusal?.isSome then Progress.running else .success).text ∧
          s'.refusals = s.refusals.tail))
      fun s' _ => ∃ us', Underway s₀ a us' s' := by
  refine (keeps_bind _ _).2 ((keeps_act _).2 ⟨trivial, fun r _ => ?_⟩)
  obtain ⟨u', hu', htarget, hpre, hstatus, hrefusals⟩ :=
    h.finishUpload hrunning (statusOf outcome).1 (statusOf outcome).2
  cases outcome with
  | ok _ => exact ⟨u', hu', fun _ => ⟨htarget, hpre, hstatus, hrefusals⟩⟩
  | error e => exact ⟨u', hu', nofun⟩

/-- The upload of a node leaves a row if it goes well. -/
theorem uploadOne_written (h : Underway s₀ a us s) (dryRun : Bool) (n : Node) :
    (uploadOne dryRun a.id height n).Keeps follows s
      (fun s' failed => ∃ us', Underway s₀ a us' s' ∧ (failed = none → ∃ u, us' = us ++ [u] ∧
        u.target = n.target.name ∧ u.uploadPrefix = uploadPrefix n height ∧
          u.status = (if s.balks 1 then Progress.running else .success).text ∧
          s'.refusals = s.refusals.drop 2))
      fun s' _ => ∃ us', Underway s₀ a us' s' := by
  rw [uploadOne_eq, keeps_bind, keeps_act]
  refine ⟨trivial, fun r hr => ?_⟩
  rcases createUpload_cases h.filed.plain.triggers a.id n.target.name (uploadPrefix n height) dryRun
    with ⟨e, he, hs⟩ | ⟨record, hid, -, hs⟩
  · obtain rfl : r = .error e := hr.trans he
    exact ⟨us, h.alike hs, nofun⟩
  · let u := s.newUpload a.id n.target.name (uploadPrefix n height) dryRun
    obtain rfl : r = .ok record := hr.trans (congrArg Prod.fst hs)
    have hadded : Underway s₀ a (us ++ [u]) (s.addUpload u) :=
      h.addUpload n.target.name (uploadPrefix n height) dryRun
    have hbalks : (s.addUpload u).refusal?.isSome = s.balks 1 := by
      change (s.refusals.tail.head?).join.isSome = (s.refusals[1]?).join.isSome
      rw [List.head?_tail]
    have hend : ∀ outcome, (uploadEnd n record.id outcome).Keeps follows (s.addUpload u)
        (fun s' failed => ∃ us', Underway s₀ a us' s' ∧ (failed = none → ∃ u, us' = us ++ [u] ∧
          u.target = n.target.name ∧ u.uploadPrefix = uploadPrefix n height ∧
            u.status = (if s.balks 1 then Progress.running else .success).text ∧
            s'.refusals = s.refusals.drop 2))
        fun s' _ => ∃ us', Underway s₀ a us' s' := by
      intro outcome
      rw [show record.id = u.id from hid]
      refine (uploadEnd_written hadded rfl n outcome).mono ?_ fun _ _ h => h
      rintro s' failed ⟨u', hu', hexact⟩
      refine ⟨_, hu', fun hnone => ?_⟩
      obtain ⟨htarget, hpre, hstatus, hrefusals⟩ := hexact hnone
      refine ⟨u', rfl, htarget, hpre, hbalks ▸ hstatus, hrefusals.trans ?_⟩
      change s.refusals.tail.tail = _
      rw [← List.drop_one, ← List.drop_one, List.drop_drop]
    have hafter : follows.after s
        (.audit (.createUpload a.id n.target.name (uploadPrefix n height) dryRun)) (.ok record) =
        s.addUpload u := congrArg Prod.snd hs
    rw [hafter]
    cases dryRun with
    | true => exact hend (.ok ())
    | false =>
      refine (keeps_bind _ _).2 (Keeps.mono (stays_outcome
        (n.upload_stays follows_unmoved _ _ _ _)) (fun s' outcome hs' => ?_) fun s' _ hs' => ?_)
      · subst hs'
        exact hend outcome
      · subst hs'
        exact ⟨_, hadded⟩

def Started (s₀ : Store) (a : AttemptRow) (s : Store) : Prop := ∃ us, Underway s₀ a us s

/-- The attempt is on record with one upload for each of the nodes, in their order. -/
def Complete (s₀ : Store) (a : AttemptRow) (fleet : List Node) (height : UInt64) (s : Store) : Prop :=
  ∃ us, Underway s₀ a us s ∧ List.Forall₂ (Backs s₀ height) fleet.zipIdx us

/-- As long as no upload has failed, those that are over are complete. -/
def Entered (fleet : List Node) (s₀ : Store) (a : AttemptRow) (height : UInt64) (todo : List Node)
    (failed : List (Option String)) (s : Store) : Prop :=
  Started s₀ a s ∧ ((∀ f ∈ failed, f = none) → ∃ done, fleet = done ++ todo ∧
    Complete s₀ a done height s ∧ s.refusals = s₀.refusals.drop (2 * done.length + 1))

theorem Underway.rows_unique {us' : List UploadRow} (h : Underway s₀ a us s)
    (h' : Underway s₀ a us' s) : us' = us :=
  List.append_cancel_left (h'.uploads.symm.trans h.uploads)

theorem uploadOne_entered {p : Plant} {n : Node} {todo : List Node} {failed : List (Option String)}
    (h : Entered p.fleet s₀ a height (n :: todo) failed s) :
    (uploadOne p.dryRun a.id height n).Keeps follows s
      (fun s' f => Entered p.fleet s₀ a height todo (failed ++ [f]) s')
      fun s' _ => Started s₀ a s' := by
  obtain ⟨⟨us, hus⟩, hexact⟩ := h
  refine (uploadOne_written hus p.dryRun n).mono ?_ fun _ _ h => h
  rintro s' f ⟨us', hus', hnew⟩
  refine ⟨⟨us', hus'⟩, fun hnone => ?_⟩
  obtain ⟨done, hfleet, ⟨us₁, hus₁, hbacks⟩, hleft⟩ :=
    hexact fun f' hf' => hnone f' (List.mem_append_left _ hf')
  obtain rfl := Underway.rows_unique hus hus₁
  obtain ⟨u, rfl, htarget, hpre, hstatus, hleft'⟩ :=
    hnew (hnone f (List.mem_append_right _ List.mem_cons_self))
  refine ⟨done ++ [n], by rw [hfleet, List.append_assoc, List.singleton_append],
    ⟨_, hus', ?_⟩, ?_⟩
  · have hbalks : s.balks 1 = s₀.balks (2 * done.length + 2) := by
      rw [Store.balks, hleft, List.getElem?_drop, Store.balks]
    rw [List.zipIdx_append]
    refine List.rel_append hbacks (.cons ⟨htarget, hpre, ?_⟩ .nil)
    rw [hstatus, hbalks]
    simp
  · rw [hleft', hleft, List.drop_drop, List.length_append]
    simp only [List.length_singleton]
    congr 1

theorem uploadAll_written {p : Plant} (h : Underway s₀ a [] s)
    (hrefusals : s.refusals = s₀.refusals.drop 1) :
    (uploadAll p a.id height).Keeps follows s
      (fun s' failed => Started s₀ a s' ∧ (failed = [] → Complete s₀ a p.fleet height s'))
      fun s' _ => Started s₀ a s' := by
  have drift : ∀ n (todo : List Node) s, Started s₀ a s →
      (uploadOne p.dryRun a.id height n).Keeps follows s (fun s' _ => Started s₀ a s')
        fun s' _ => Started s₀ a s' := by
    rintro n todo s ⟨us, hus⟩
    exact (uploadOne_written hus p.dryRun n).mono (fun _ _ ⟨us', hus', _⟩ => ⟨us', hus'⟩)
      fun _ _ h => h
  have start : Entered p.fleet s₀ a height p.fleet [] s :=
    ⟨⟨[], h⟩, fun _ => ⟨[], rfl, ⟨[], h, .nil⟩, hrefusals⟩⟩
  rw [uploadAll, keeps_bind]
  refine (keeps_each (Entered p.fleet s₀ a height) (fun _ => Started s₀ a) (fun _ => True)
    (fun n todo failed s h => (uploadOne_entered h).mono (fun _ _ h => h) fun _ _ h => ⟨trivial, h⟩)
    drift p.fleet [] start).mono ?_ fun _ _ h => h.2
  rintro s' failed ⟨hstarted, hexact⟩
  refine ⟨hstarted, fun hnone => ?_⟩
  obtain ⟨done, hfleet, hcomplete, -⟩ := hexact fun f hf => by
    cases f with
    | none => rfl
    | some name => exact absurd hnone (List.ne_nil_of_mem (List.mem_filterMap.2 ⟨_, hf, rfl⟩))
  rwa [hfleet, List.append_nil]

theorem drive_written {p : Plant} (h : Underway s₀ a [] s)
    (hrefusals : s.refusals = s₀.refusals.drop 1) :
    (drive p a.id height).Keeps follows s (fun s' _ => Complete s₀ a p.fleet height s')
      fun s' _ => Started s₀ a s' := by
  refine drive_keeps follows_unmoved follows_unphased ⟨[], h⟩ ?_
  refine (uploadAll_written h hrefusals).mono (fun s failed ⟨hstarted, hcomplete⟩ => ?_) fun _ _ h => h
  exact ⟨hstarted, fun _ => hcomplete, fun _ hnone =>
    ⟨trivial, fun _ _ => ⟨hstarted, fun _ => hcomplete hnone⟩⟩⟩

/-- The attempt has come to its end, and is backed by its uploads if it is a success. -/
def Written (s₀ : Store) (fleet : List Node) (height : UInt64) (s : Store) : Prop :=
  ∃ a us, Underway s₀ a us s ∧
    (a.status = Progress.success.text → List.Forall₂ (Backs s₀ height) fleet.zipIdx us)

theorem Written.alike {fleet : List Node} {s' : Store} (h : Written s₀ fleet height s)
    (hs : Query.Alike s s') : Written s₀ fleet height s' := by
  obtain ⟨a, us, hus, hexact⟩ := h
  exact ⟨a, us, hus.alike hs, hexact⟩

def Unfinished (s₀ : Store) (id : Int) (s : Store) : Prop :=
  ∃ a us, Underway s₀ a us s ∧ a.id = id ∧ a.status = Progress.running.text

theorem record_written {p : Plant} (h : Underway s₀ a [] s)
    (hrunning : a.status = Progress.running.text) (hrefusals : s.refusals = s₀.refusals.drop 1) :
    (record p a.id height).Keeps follows s (fun s' _ => Written s₀ p.fleet height s')
      fun s' _ => Written s₀ p.fleet height s' := by
  have hconcludes : Concludes follows a.id (Complete s₀ a p.fleet height) (Unfinished s₀ a.id)
      (Written s₀ p.fleet height) := by
    refine ⟨?_, ?_, fun hwritten => ⟨trivial, fun _ _ => hwritten.alike (getAttempt_alike _ _)⟩⟩
    · rintro s' ⟨us, hus, hbacks⟩
      obtain ⟨a', ha', hid, hstatus⟩ := hus.finishAttempt hrunning .success none
      refine ⟨trivial, fun r hr => ?_⟩
      cases r with
      | ok _ => exact ⟨a', us, ha', fun _ => hbacks⟩
      | error e =>
        refine ⟨a', us, ha', hid, ?_⟩
        rw [hstatus, show (finishAttempt a.id .success none s').1 = .error e from hr.symm]
        rfl
    · rintro s' ⟨a', us, hus, hid, hrunning'⟩ message
      obtain ⟨a'', ha'', -, hstatus⟩ := hus.finishAttempt hrunning' .failed (some message)
      refine ⟨trivial, fun _ _ => ⟨a'', us, hid ▸ ha'', fun hsuccess => ?_⟩⟩
      refine absurd (hstatus.symm.trans hsuccess) ?_
      split <;> decide
  have hdrive : (drive p a.id height).Keeps follows s (fun s' _ => Complete s₀ a p.fleet height s')
      fun s' _ => Unfinished s₀ a.id s' :=
    (drive_written h hrefusals).mono (fun _ _ h => h) fun _ _ ⟨us, hus⟩ => ⟨a, us, hus, rfl, hrunning⟩
  refine (record_keeps follows_unphased hconcludes hdrive).mono (fun _ _ h => h) fun s' _ hend => ?_
  rcases hend with hwritten | ⟨-, a', us, hus, -, hrunning'⟩
  · exact hwritten
  · exact ⟨a', us, hus, fun hsuccess => absurd (hrunning'.symm.trans hsuccess) (by decide)⟩

theorem run_written (p : Plant) (h : Filed s) :
    (run p height).Keeps follows s
      (fun s' _ => Query.Alike s s' ∨ Written s p.fleet height s')
      fun s' _ => Query.Alike s s' ∨ Written s p.fleet height s' := by
  have entered : ∀ s₁ : Store, Query.Alike s s₁ → s₁.refusals = s.refusals →
      (leaving do
        let a ← Job.audit (.createAttempt height p.dryRun)
        record p a.id height).Keeps follows s₁
        (fun s' _ => Query.Alike s s' ∨ Written s p.fleet height s')
        fun s' _ => Query.Alike s s' ∨ Written s p.fleet height s' := by
    intro s₁ halike hrefusals
    have hfiled := h.touches (Touches.of_alike halike)
    refine leaving_keeps ?_
    rw [keeps_bind, keeps_audit]
    rcases createAttempt_cases hfiled.plain.triggers height p.dryRun with
      ⟨e, he, hs⟩ | ⟨a, hid, hs⟩
    · refine ⟨trivial, fun a ha => ?_, fun _ _ => ⟨trivial, Or.inl (halike.trans hs)⟩⟩
      exact absurd (Eq.trans (show _ = _ from ha) he) (by simp)
    · refine ⟨trivial, fun a' ha' => ?_, fun e he => ?_⟩
      · obtain rfl : a = a' := by
          have hok := Eq.trans (show _ = _ from ha') (congrArg Prod.fst hs)
          exact (Except.ok.inj hok).symm
        have hafter : follows.after s₁ (.audit (.createAttempt height p.dryRun)) (.ok a) =
            s₁.addAttempt (s₁.newAttempt height p.dryRun) := congrArg Prod.snd hs
        have hstart := Underway.of_create hfiled height p.dryRun
        have hunderway : Underway s (s₁.newAttempt height p.dryRun) []
            (s₁.addAttempt (s₁.newAttempt height p.dryRun)) := by
          refine ⟨hstart.filed, ?_, ?_, hstart.own, hstart.stands⟩
          · rw [hstart.attempts, halike.attempts]
          · rw [hstart.uploads, halike.uploads]
        have hleft : (s₁.addAttempt (s₁.newAttempt height p.dryRun)).refusals =
            s.refusals.drop 1 := by
          rw [← hrefusals, List.drop_one]
          rfl
        rw [hafter, hid]
        exact (record_written hunderway rfl hleft).mono (fun _ _ h => ⟨trivial, Or.inr h⟩)
          fun _ _ h => ⟨trivial, Or.inr h⟩
      · exact absurd (Eq.trans (show _ = _ from he) (congrArg Prod.fst hs)) (by simp)
  simp only [run, keeps_bind, keeps_act]
  refine ⟨trivial, fun r _ => ?_⟩
  cases r with
  | error e => exact Or.inl (Query.Alike.refl s)
  | ok _ => exact entered _ ⟨rfl, rfl⟩ rfl

/-- The uploads under the number of a new attempt are those made for it. -/
theorem Underway.filter_uploads (h : Underway s₀ a us s) (hs₀ : Filed s₀)
    (hnew : a.id ∉ s₀.attempts.map (·.id)) : s.uploads.filter (·.attemptId == a.id) = us := by
  rw [h.uploads, List.filter_append, List.filter_eq_nil_iff.2, List.nil_append,
    List.filter_eq_self.2]
  · exact fun u hu => by simpa using h.own u hu
  · intro u hu hid
    obtain ⟨a', ha', hid'⟩ := hs₀.owned u hu
    exact hnew (List.mem_map.2 ⟨a', ha', hid'.trans (by simpa using hid)⟩)

/-- All uploads of the fleet are successes just if each of them could be ended. -/
theorem backs_iff {fleet : List Node} (h : List.Forall₂ (Backs s₀ height) fleet.zipIdx us) :
    (∀ u ∈ us, u.status = Progress.success.text) ↔
      ∀ i < fleet.length, s₀.balks (2 * i + 2) = false := by
  constructor
  · intro hstatus i hi
    have hplace : (fleet[i], i) ∈ fleet.zipIdx := by simp [List.mem_zipIdx_iff_getElem?, hi]
    obtain ⟨u, hu, hback⟩ := image_of_mem h hplace
    have hstatus' := hback.2.2.symm.trans (hstatus u hu)
    cases hb : s₀.balks (2 * i + 2) with
    | false => rfl
    | true =>
      rw [if_pos hb] at hstatus'
      exact absurd hstatus' (by decide)
  · intro hopen u hu
    obtain ⟨⟨n, i⟩, hplace, hback⟩ := source_of_mem h hu
    have hi : i < fleet.length := by
      have hget := List.mem_zipIdx_iff_getElem?.1 hplace
      exact (List.getElem?_eq_some_iff.1 hget).1
    rw [hback.2.2, hopen i hi]
    rfl

end Uploads

/-- A successful attempt has one upload for each node, in their order, and each is a success unless
the statement that ends it was refused. -/
theorem success_backed (p : Plant) (height : UInt64) (d : Deployment) (h : Filed d.store) :
    ∀ r ∈ ((run p height).perform d).2.store.attempts, r.id ∉ d.store.attempts.map (·.id) →
      r.status = Progress.success.text →
      List.Forall₂ (Backs d.store height) p.fleet.zipIdx
          (((run p height).perform d).2.store.uploads.filter (·.attemptId == r.id)) ∧
        ((∀ u ∈ ((run p height).perform d).2.store.uploads, u.attemptId = r.id →
            u.status = Progress.success.text) ↔
          ∀ i < p.fleet.length, d.store.balks (2 * i + 2) = false) := by
  intro r hr hnew hsuccess
  rcases perform_follows (run_written p h) with hs | ⟨a, us, hus, hexact⟩
  · rw [hs.attempts] at hr
    exact absurd (List.mem_map_of_mem hr) hnew
  rw [hus.attempts] at hr
  obtain rfl : r = a := by
    rcases List.mem_append.1 hr with hr | hr
    · exact absurd (List.mem_map_of_mem hr) hnew
    · exact List.mem_singleton.1 hr
  have hrows := Underway.filter_uploads hus h hnew
  have hbacks := hexact hsuccess
  refine ⟨hrows ▸ hbacks, ?_⟩
  rw [← backs_iff hbacks, ← hrows]
  simp only [List.mem_filter, beq_iff_eq, and_imp]

/-- The statement that ends the only upload is refused. -/
def muteEnd : Deployment :=
  { loneHost "0x3e8" with
    refusesPut := false
    store := {
      clock := fun _ => default
      refusals := [none, none, some (.engine 10 "disk I/O error")] } }

theorem muteEnd_success :
    ∃ r ∈ ((run lonePlant 1000).perform muteEnd).2.store.attempts,
      r.id ∉ muteEnd.store.attempts.map (·.id) ∧ r.status = Progress.success.text := by
  decide +kernel

theorem success_backed_mute :
    Filed muteEnd.store ∧ ∃ r ∈ ((run lonePlant 1000).perform muteEnd).2.store.attempts,
      r.id ∉ muteEnd.store.attempts.map (·.id) ∧ r.status = Progress.success.text ∧
      List.Forall₂ (Backs muteEnd.store 1000) lonePlant.fleet.zipIdx
          (((run lonePlant 1000).perform muteEnd).2.store.uploads.filter (·.attemptId == r.id)) ∧
        ((∀ u ∈ ((run lonePlant 1000).perform muteEnd).2.store.uploads, u.attemptId = r.id →
            u.status = Progress.success.text) ↔
          ∀ i < lonePlant.fleet.length, muteEnd.store.balks (2 * i + 2) = false) := by
  obtain ⟨r, hr, hnew, hsuccess⟩ := muteEnd_success
  exact ⟨Filed.fresh rfl rfl, r, hr, hnew, hsuccess,
    success_backed lonePlant 1000 muteEnd (Filed.fresh rfl rfl) r hr hnew hsuccess⟩

/-- An attempt is a success although its only upload is on record as still running. -/
theorem success_unbacked :
    ¬ ∀ (p : Plant) (height : UInt64) (d : Deployment), Filed d.store →
      ∀ r ∈ ((run p height).perform d).2.store.attempts, r.id ∉ d.store.attempts.map (·.id) →
        r.status = Progress.success.text →
        (((run p height).perform d).2.store.uploads.filter (·.attemptId == r.id)).map (·.target) =
            p.fleet.map (·.target.name) ∧
          ∀ u ∈ ((run p height).perform d).2.store.uploads, u.attemptId = r.id →
            u.status = Progress.success.text := by
  intro h
  have hrunning : ∀ r ∈ ((run lonePlant 1000).perform muteEnd).2.store.attempts,
      ∃ u ∈ ((run lonePlant 1000).perform muteEnd).2.store.uploads, u.attemptId = r.id ∧
        u.status = Progress.running.text := by
    decide +kernel
  obtain ⟨r, hr, hnew, hsuccess⟩ := muteEnd_success
  obtain ⟨u, hu, hid, hstatus⟩ := hrunning r hr
  have hbacked := (h lonePlant 1000 muteEnd (Filed.fresh rfl rfl) r hr hnew hsuccess).2 u hu hid
  exact absurd (hstatus.symm.trans hbacked) (by decide)

end Capture

end FleetSnapshot
