import FleetSnapshot.Proofs.Chronicle
import FleetSnapshot.Proofs.Effect
import FleetSnapshot.Proofs.Inert

/-! Heights on record. A height is kept as a signed word and comes back as it was given, but the
records are ordered as signed words are: a height with the sign bit set is taken to lie below every
height without it. Among the heights of either half the order is right, so a cleanup spares the
highest attempts just as long as no two that may go lie in different halves. -/

namespace FleetSnapshot

open Audit

namespace Audit

section Clock

open Query

variable {α : Type}

theorem Query.transaction_timed {body : Query (Ending α)} (h : Timed body) :
    Timed (transaction body) := by
  intro s
  have hs : (body s.begun).2.clock = s.clock := h s.begun
  rw [transaction_apply]
  split
  · rfl
  · rcases hb : body s.begun with ⟨e | a | a, s'⟩ <;> rw [hb] at hs
    · exact hs
    · dsimp only
      split <;> exact hs
    · exact hs

theorem Query.selectAttempts_timed : Timed selectAttempts := timed_statement attemptRows_timed

theorem Query.selectUploads_timed : Timed selectUploads := timed_statement uploadRows_timed

theorem Query.getUpload_timed (id : Int) : Timed (Op.getUpload id).query :=
  fun s => Op.timed (s := s) (by trivial) s

/-- No operation sets the clock. -/
theorem Op.keeps_clock (op : Op α) : Timed op.query := by
  cases op with
  | createAttempt height dryRun =>
    exact timed_bind (fun _ => rfl) fun _ => timed_bind (insertAttempt_timed _) fun _ => timed_pure _
  | createUpload attemptId target pre dryRun =>
    exact timed_bind (fun _ => rfl) fun _ => timed_bind (insertUpload_timed _) fun _ => timed_pure _
  | finishAttempt id status message =>
    exact timed_bind (fun _ => rfl) fun _ => timed_bind (updateAttempts_timed _ _ _) fun _ =>
      timed_pure _
  | finishUpload id status message =>
    exact timed_bind (fun _ => rfl) fun _ => timed_bind (updateUploads_timed _ _ _) fun _ =>
      timed_pure _
  | getAttempt id => exact fun s => Op.timed (s := s) (by trivial) s
  | getUpload id => exact getUpload_timed id
  | uploadsOf attemptId => exact timed_bind selectUploads_timed fun _ => timed_ofRead _
  | mostRecent => exact fun s => Op.timed (s := s) (by trivial) s
  | listAttempts page limit filter =>
    exact timed_bind selectAttempts_timed fun _ =>
      leads_mapM (R := fun s s' => s'.clock = s.clock) (fun _ => rfl) (fun _ _ _ h h' => h'.trans h)
        attemptWithUploads_timed _
  | uploadsByTarget target page limit filter =>
    exact timed_bind selectUploads_timed fun _ => timed_ofRead _
  | successful => exact fun s => Op.timed (s := s) (by trivial) s
  | claim id => exact timed_bind (updateUploads_timed _ _ _) fun _ => timed_pure _
  | release id => exact timed_bind (updateUploads_timed _ _ _) fun _ => timed_pure _
  | markDeleted id =>
    refine transaction_timed (timed_bind (updateAttempts_timed _ _ _) fun n => ?_)
    split
    · refine timed_bind selectAttempts_timed fun rows => ?_
      split
      · split <;> exact fun _ => rfl
      · exact timed_pure _
    · exact timed_bind (updateUploads_timed _ _ _) fun _ => timed_pure _
  | persistAttempt id value =>
    refine transaction_timed (timed_bind (updateAttempts_timed _ _ _) fun n => ?_)
    split
    · exact timed_bind selectAttempts_timed fun _ => timed_pure _
    · exact timed_bind (updateUploads_timed _ _ _) fun _ => timed_pure _
  | persistUpload id value =>
    refine timed_bind (updateUploads_timed _ _ _) fun n => ?_
    split
    · exact timed_pure _
    · exact timed_bind (getUpload_timed id) fun _ => timed_pure _

end Clock

/-- An operation gives no ends but of kinds that are all there are. -/
theorem Op.ends_of {α : Type} (op : Op α) {kinds : Progress → Prop} (h : ∀ p, kinds p) :
    op.Ends kinds := by
  cases op with
  | finishAttempt id status message => exact h status
  | finishUpload id status message => exact h status
  | _ => exact True.intro

section Reading

abbrev Standing.telling (_ : Progress) (t : Stamp) : Prop := t.instant?.isSome = true

structure Standing.Readable (x : Standing) : Prop where
  status : ∃ p, readStatus x.status = .ok p
  endTime : ∃ t, readEnd x.endTime = .ok t

theorem Standing.Turn.readable {x y : Standing} (h : Turn telling x y) (hx : x.Readable) :
    y.Readable := by
  cases h with
  | finish p t message ht =>
    obtain ⟨t', ht'⟩ := Option.isSome_iff_exists.1 ht
    refine ⟨⟨p, by simp [readStatus, Progress.ofText?_text]⟩, some t', ?_⟩
    rw [readEnd, Stamp.read, ht']
    rfl
  | delete => exact ⟨hx.status, hx.endTime⟩
  | release => exact ⟨hx.status, hx.endTime⟩
  | protect => exact ⟨hx.status, hx.endTime⟩

theorem AttemptRow.readable_iff_standing (r : AttemptRow) :
    (∃ a, r.read = .ok a) ↔ (∃ t, r.startTime.read "start_time" = .ok t) ∧ r.standing.Readable := by
  rw [AttemptRow.readable_iff]
  exact ⟨fun h => ⟨h.1, h.2.2, h.2.1⟩, fun h => ⟨h.1, h.2.endTime, h.2.status⟩⟩

theorem UploadRow.readable_iff_standing (r : UploadRow) :
    (∃ u, r.read = .ok u) ↔ (∃ t, r.startTime.read "start_time" = .ok t) ∧ r.standing.Readable := by
  rw [UploadRow.readable_iff]
  exact ⟨fun h => ⟨h.1, h.2.2, h.2.1⟩, fun h => ⟨h.1, h.2.endTime, h.2.status⟩⟩

/-- The records can be read, and so will those be that are put down from now on. Statements may be
refused. -/
structure Store.Told (s : Store) : Prop where
  filed : Filed s
  telling : s.Telling
  attempts : ∀ r ∈ s.attempts, ∃ a, r.read = .ok a
  uploads : ∀ r ∈ s.uploads, ∃ u, r.read = .ok u

namespace Store.Told

variable {s s' : Store}

theorem fresh (hempty : s.tables = {}) (hquiet : s.triggers = []) (htelling : s.Telling) :
    s.Told := by
  have hattempts : s.attempts = [] := by rw [Store.attempts, hempty, Option.getD_some]
  have huploads : s.uploads = [] := by rw [Store.uploads, hempty, Option.getD_some]
  exact ⟨.fresh hempty hquiet, htelling, by simp [hattempts], by simp [huploads]⟩

theorem ready (h : s.Told) (hdone : s.refusals = []) : s.Ready :=
  ⟨h.filed.plain.triggers, hdone, h.filed.plain.attemptTable, h.filed.plain.uploadTable⟩

/-- Rows that live on under a clock that can be read stay readable. -/
theorem alters (h : s.Told) (hfiled : Filed s') (hclock : s'.clock = s.clock)
    (hs : Alters Standing.telling s s') : s'.Told := by
  obtain ⟨g, hg, hattempts⟩ := hs.attempts
  obtain ⟨f, hf, huploads⟩ := hs.uploads
  refine ⟨hfiled, fun k => hclock ▸ h.telling k, fun r hr => ?_, fun r hr => ?_⟩
  · rw [hattempts] at hr
    obtain ⟨row, hrow, rfl⟩ := List.mem_map.1 hr
    have hstart : (g row).startTime = row.startTime := congrArg (·.2.2.1) (hg row).fixed
    obtain ⟨htime, hstanding⟩ := (AttemptRow.readable_iff_standing row).1 (h.attempts row hrow)
    rw [AttemptRow.readable_iff_standing, hstart]
    exact ⟨htime, (hg row).turns.preserves (fun _ _ => Standing.Turn.readable) hstanding⟩
  · rw [huploads] at hr
    obtain ⟨row, hrow, rfl⟩ := List.mem_map.1 hr
    have hstart : (f row).startTime = row.startTime := congrArg (·.2.2.2.2.1) (hf row).fixed
    obtain ⟨htime, hstanding⟩ := (UploadRow.readable_iff_standing row).1 (h.uploads row hrow)
    rw [UploadRow.readable_iff_standing, hstart]
    exact ⟨htime, (hf row).turns.preserves (fun _ _ => Standing.Turn.readable) hstanding⟩

theorem addAttempt (h : s.Told) (height : UInt64) (dryRun : Bool) :
    (s.addAttempt (s.newAttempt height dryRun)).Told := by
  refine ⟨h.filed.addAttempt rfl, h.telling, fun r hr => ?_, h.uploads⟩
  rcases List.mem_append.1 hr with hr | hr
  · exact h.attempts r hr
  · rw [List.mem_singleton.1 hr]
    exact (AttemptRow.readable_iff _).2
      ⟨Chronicle.start_read h.telling _ _, ⟨none, rfl⟩, Chronicle.running_read⟩

theorem addUpload (h : s.Told) {attemptId : Int} (howned : ∃ a ∈ s.attempts, a.id = attemptId)
    (target pre : String) (dryRun : Bool) :
    (s.addUpload (s.newUpload attemptId target pre dryRun)).Told := by
  refine ⟨h.filed.addUpload rfl howned, h.telling, h.attempts, fun r hr => ?_⟩
  rcases List.mem_append.1 hr with hr | hr
  · exact h.uploads r hr
  · rw [List.mem_singleton.1 hr]
    exact (UploadRow.readable_iff _).2
      ⟨Chronicle.start_read h.telling _ _, ⟨none, rfl⟩, Chronicle.running_read⟩

theorem op (h : s.Told) {α : Type} (op : Op α) : (op.run s).2.Told := by
  by_cases hadds : op.Adds
  · cases op with
    | createAttempt height dryRun =>
      change (Audit.createAttempt height dryRun s).2.Told
      rcases createAttempt_cases h.filed.plain.triggers height dryRun with ⟨e, -, hs⟩ | ⟨a, -, hs⟩
      · exact h.alters (h.filed.op (.createAttempt height dryRun))
          (Op.keeps_clock (.createAttempt height dryRun) s) (.of_alike hs)
      · rw [hs]
        exact h.addAttempt height dryRun
    | createUpload attemptId target pre dryRun =>
      change (Audit.createUpload attemptId target pre dryRun s).2.Told
      rcases createUpload_cases h.filed.plain.triggers attemptId target pre dryRun with
        ⟨e, -, hs⟩ | ⟨u, -, howned, hs⟩
      · exact h.alters (h.filed.op (.createUpload attemptId target pre dryRun))
          (Op.keeps_clock (.createUpload attemptId target pre dryRun) s) (.of_alike hs)
      · rw [hs]
        exact h.addUpload howned target pre dryRun
    | _ => exact hadds.elim
  · refine h.alters (h.filed.op op) (op.keeps_clock s) (op.alters hadds ?_)
    exact op.ends_of fun _ => h.telling _

theorem after (h : s.Told) (calls : List Call) : (s.after calls).Told := by
  induction calls generalizing s with
  | nil => exact h
  | cons c calls ih => exact ih (h.op c.2)

/-- Rows keep their places, whatever is done. -/
theorem evolves (h : s.Told) (calls : List Call) :
    Evolves Standing.telling s (s.after calls) := by
  induction calls generalizing s with
  | nil => exact (Alters.of_rows rfl rfl).evolves
  | cons c calls ih =>
    have hends : c.2.Ends fun p => Standing.telling p (.ofInstant (s.clock s.ticks)) :=
      c.2.ends_of fun _ => h.telling _
    exact (c.2.evolves h.filed.plain.triggers hends).trans (ih (h.op c.2))

/-- An attempt that was put on record has its row for good. -/
theorem row_of_created (h : s.Told) {height : UInt64} {dryRun : Bool} {a : Attempt}
    (hcreated : (createAttempt height dryRun s).1 = .ok a) (later : List Call) :
    ∃ r ∈ (s.after (⟨_, .createAttempt height dryRun⟩ :: later)).attempts,
      r.id = a.id ∧ r.height = height.toInt64 := by
  rcases createAttempt_cases h.filed.plain.triggers height dryRun with ⟨e, he, -⟩ | ⟨a', ha', hs⟩
  · rw [he] at hcreated
    cases hcreated
  · have hopened : (Op.run (.createAttempt height dryRun) s).2 =
        s.addAttempt (s.newAttempt height dryRun) := congrArg (·.2) hs
    rw [hs] at hcreated
    obtain rfl : a' = a := Except.ok.inj hcreated
    have hrow : (s.addAttempt (s.newAttempt height dryRun)).attempts[s.attempts.length]? =
        some (s.newAttempt height dryRun) := List.getElem?_concat_length
    obtain ⟨r, hr, hlives⟩ :=
      ((h.addAttempt height dryRun).evolves later).attempts.get hrow
    refine ⟨r, ?_, ?_, ?_⟩
    · rw [Store.after, List.foldl_cons, hopened]
      exact List.mem_of_getElem? hr
    · exact (congrArg (·.1) hlives.fixed).trans ha'.symm
    · exact congrArg (·.2.1) hlives.fixed

end Store.Told

end Reading

section Ranks

/-- Half of the heights there are. From here on the sign bit is set. -/
def halfway : UInt64 := 0x8000000000000000

namespace Attempt

/-- The higher of two attempts, or the later of two at one height. -/
def Above (a b : Attempt) : Prop := b.height < a.height ∨ a.height = b.height ∧ b.id < a.id

/-- Both heights are in the lower half, or both in the upper one. -/
def Alongside (a b : Attempt) : Prop := a.height < halfway ↔ b.height < halfway

/-- The order that signed words give. -/
def Precedes (a b : Attempt) : Prop :=
  a.Alongside b ∧ a.Above b ∨ a.height < halfway ∧ ¬ b.height < halfway

instance : Std.Symm Alongside := ⟨fun _ _ h => h.symm⟩

variable {a b : Attempt} {as : List Attempt}

theorem Precedes.above_iff (h : a.Precedes b) : a.Above b ↔ a.Alongside b := by
  constructor
  · intro habove
    rcases h with ⟨halong, -⟩ | ⟨hlow, hhigh⟩
    · exact halong
    · -- from the lower half nothing reaches above the upper one
      refine absurd ?_ hhigh
      rcases habove with hlt | ⟨heq, -⟩
      · exact UInt64.lt_trans hlt hlow
      · exact heq ▸ hlow
  · intro halong
    rcases h with ⟨-, habove⟩ | ⟨hlow, hhigh⟩
    · exact habove
    · exact absurd (halong.1 hlow) hhigh

/-- What is in the order of signed words has the highest first if it lies within one half. -/
theorem pairwise_above_iff (h : as.Pairwise Precedes) :
    as.Pairwise Above ↔ ∀ a ∈ as, ∀ b ∈ as, a.Alongside b := by
  constructor
  · intro habove a ha b hb
    have halong : as.Pairwise Alongside :=
      (h.and habove).imp fun hab => hab.1.above_iff.1 hab.2
    exact List.Pairwise.forall_of_forall (R := Alongside) (fun _ _ => Iff.rfl) halong ha hb
  · intro halong
    exact h.imp_of_mem fun ha hb hab => hab.above_iff.2 (halong _ ha _ hb)

end Attempt

/-- In a list that is in order, whatever is taken comes before whatever is left, and only so. -/
theorem pairwise_iff_take_drop {α : Type} {R : α → α → Prop} {l : List α} :
    l.Pairwise R ↔ ∀ k, ∀ a ∈ l.take k, ∀ b ∈ l.drop k, R a b := by
  constructor
  · intro h k
    rw [← List.take_append_drop k l, List.pairwise_append] at h
    exact h.2.2
  · intro h
    induction l with
    | nil => exact List.Pairwise.nil
    | cons a l ih =>
      refine List.pairwise_cons.2 ⟨fun b hb => h 1 a (by simp) b hb, ih fun k b hb c hc => ?_⟩
      exact h (k + 1) b (List.mem_cons_of_mem _ hb) c hc

theorem pairwise_forall₂ {α β : Type} {R : α → β → Prop} {S : α → α → Prop} {T : β → β → Prop}
    {as : List α} {bs : List β} (h : List.Forall₂ R as bs) (hs : as.Pairwise S)
    (hst : ∀ a a' b b', R a b → R a' b' → S a a' → T b b') : bs.Pairwise T := by
  induction h with
  | nil => exact List.Pairwise.nil
  | cons hab hrest ih =>
    obtain ⟨hfirst, hs⟩ := List.pairwise_cons.1 hs
    refine List.pairwise_cons.2 ⟨fun b' hb' => ?_, ih hs⟩
    obtain ⟨a', ha', hab'⟩ := source_of_mem hrest hb'
    exact hst _ _ _ _ hab hab' (hfirst a' ha')

/-- A signed word tells the heights of either half apart as they are, and those of the upper half
stand below zero. -/
theorem toInt_eq (h : Int64) : h.toInt =
    if h.toUInt64 < halfway then (h.toUInt64.toNat : Int)
    else h.toUInt64.toNat - 18446744073709551616 := by
  split
  case isTrue hlow => exact toInt_of_lt hlow
  case isFalse hhigh =>
    have hbound : 18446744073709551616 ≤ 2 * h.toBitVec.toNat := by
      rw [UInt64.lt_iff_toNat_lt] at hhigh
      change ¬ h.toBitVec.toNat < 9223372036854775808 at hhigh
      omega
    change h.toBitVec.toInt = (h.toBitVec.toNat : Int) - 18446744073709551616
    rw [BitVec.toInt_eq_toNat_cond, if_neg (by omega)]
    rfl

theorem precedes_of_highestFirst {r r' : AttemptRow} {a b : Attempt} (hr : r.ReadsAs a)
    (hr' : r'.ReadsAs b) (hne : r.id ≠ r'.id) (h : r.highestFirst r' = true) : a.Precedes b := by
  have hbound : a.height.toNat < 2 ^ 64 := a.height.toNat_lt
  rw [AttemptRow.highestFirst_iff, toInt_eq, toInt_eq, ← hr.height, ← hr'.height, ← hr.id,
    ← hr'.id] at h
  rw [← hr.id, ← hr'.id] at hne
  unfold Attempt.Precedes Attempt.Alongside Attempt.Above
  rw [UInt64.lt_iff_toNat_lt (a := b.height) (b := a.height), ← UInt64.toNat_inj]
  by_cases hlow : a.height < halfway <;> by_cases hlow' : b.height < halfway
  · rw [if_pos hlow, if_pos hlow'] at h
    exact Or.inl ⟨iff_of_true hlow hlow', by omega⟩
  · exact Or.inr ⟨hlow, hlow'⟩
  · rw [if_neg hlow, if_pos hlow'] at h
    omega
  · rw [if_neg hlow, if_neg hlow'] at h
    exact Or.inl ⟨iff_of_false hlow hlow', by omega⟩

/-- The successful attempts are listed in the order of signed words. -/
theorem successful_precedes {s : Store} (hn : s.Numbered) {as : List Attempt}
    (has : List.Forall₂ (Records s) (candidates s) as) : as.Pairwise Attempt.Precedes := by
  have hsorted : (candidates s).Pairwise fun r r' => r.highestFirst r' = true :=
    Order.sort_pairwise AttemptRow.highestFirst_trans AttemptRow.highestFirst_total _
  have hapart : (candidates s).Pairwise fun r r' => r.id ≠ r'.id := by
    have hnodup : ((candidates s).map (·.id)).Nodup :=
      ((Order.sort_perm _ _).map _).nodup_iff.2 (hn.attempts.sublist (List.filter_sublist.map _))
    exact List.pairwise_map.1 hnodup
  exact pairwise_forall₂ has (hsorted.and hapart) fun _ _ _ _ hr hr' h =>
    precedes_of_highestFirst hr.reads hr'.reads h.2 h.1

end Ranks

end Audit

/-- Whatever calls are made on an empty store, with any of their statements refused. An attempt that
was put on record is found again at its height. The listing that cleanups go by has the successful
attempts that were not deleted, at their heights, in the order of signed words. It has the highest
first just if no two of its heights lie in different halves, and what cleanups spare is above all that
they take, however much they spare, just if the same is true of the attempts that may go. -/
theorem heights_ordered_iff (s : Store) (hempty : s.tables = {}) (hquiet : s.triggers = [])
    (htelling : s.Telling) (calls : List Call) (hdone : (s.after calls).refusals = []) :
    (∀ before height dryRun later, calls = before ++ ⟨_, .createAttempt height dryRun⟩ :: later →
      ((s.after before).refusal? = none →
        ∃ a, (createAttempt height dryRun (s.after before)).1 = .ok a) ∧
      ∀ a, (createAttempt height dryRun (s.after before)).1 = .ok a →
        ∃ a', (getAttempt a.id (s.after calls)).1 = .ok (some a') ∧ a'.id = a.id ∧
          a'.height = height) ∧
    ∃ as, (successful (s.after calls)).1 = .ok as ∧
      (as.map fun a => (a.id, a.height)).Perm
        (((s.after calls).attempts.filter fun r =>
          r.status == Progress.success.text && !r.deleted).map fun r => (r.id, r.height.toUInt64)) ∧
      as.Pairwise Attempt.Precedes ∧
      (as.Pairwise Attempt.Above ↔ ∀ a ∈ as, ∀ b ∈ as, a.Alongside b) ∧
      ((∀ keep, ∀ a ∈ (as.filter (!·.persisted)).take keep, ∀ b ∈ Sweep.surplus keep as, a.Above b) ↔
        ∀ a ∈ as, ∀ b ∈ as, a.persisted = false → b.persisted = false → a.Alongside b) := by
  have htold : s.Told := .fresh hempty hquiet htelling
  have hend : (s.after calls).Told := htold.after calls
  have hready : (s.after calls).Ready := hend.ready hdone
  have hrecords : ∀ r ∈ (s.after calls).attempts, ∃ a, Records (s.after calls) r a := by
    intro r hr
    obtain ⟨a, ha⟩ := hend.attempts r hr
    exact exists_records ha fun u hu _ => hend.uploads u hu
  refine ⟨fun before height dryRun later hcalls => ⟨fun hgoes => ?_, fun a ha => ?_⟩, ?_⟩
  · obtain ⟨a, -, ha⟩ := createAttempt_goes (htold.after before).filed.plain hgoes height dryRun
    exact ⟨a, congrArg (·.1) ha⟩
  · obtain ⟨r, hr, hid, hheight⟩ := (htold.after before).row_of_created ha later
    rw [← Store.after_append, ← hcalls] at hr
    obtain ⟨a', ha'⟩ := hrecords r hr
    refine ⟨a', ?_, ha'.reads.id.trans hid, ?_⟩
    · rw [← hid, getAttempt_ready hready hend.filed.numbered hr ha']
    · rw [ha'.reads.height, hheight, UInt64.toUInt64_toInt64]
  · have hlisted : ∀ r ∈ candidates (s.after calls), ∃ a, Records (s.after calls) r a :=
      fun r hr => hrecords r (List.mem_filter.1 ((Order.sort_perm _ _).mem_iff.1 hr)).1
    obtain ⟨as, has⟩ := forall₂_of_exists hlisted
    have hprecedes := successful_precedes hend.filed.numbered has
    refine ⟨as, by rw [successful_ready hready has], ?_, hprecedes,
      Attempt.pairwise_above_iff hprecedes, ?_⟩
    · rw [map_eq_of_forall has fun r a h => by rw [h.reads.id, h.reads.height]]
      exact (Order.sort_perm _ _).map _
    · have hfree : ∀ a, a ∈ as.filter (!·.persisted) ↔ a ∈ as ∧ a.persisted = false := by
        simp [List.mem_filter]
      refine pairwise_iff_take_drop.symm.trans ((Attempt.pairwise_above_iff
        (hprecedes.filter _)).trans ⟨fun h a ha b hb hfa hfb => ?_, fun h a ha b hb => ?_⟩)
      · exact h a ((hfree a).2 ⟨ha, hfa⟩) b ((hfree b).2 ⟨hb, hfb⟩)
      · obtain ⟨ha, hfa⟩ := (hfree a).1 ha
        obtain ⟨hb, hfb⟩ := (hfree b).1 hb
        exact h a ha b hb hfa hfb

def bothHalves : List Call :=
  [⟨_, .createAttempt halfway false⟩, ⟨_, .finishAttempt 1 .success none⟩,
    ⟨_, .createAttempt 1000 false⟩, ⟨_, .finishAttempt 2 .success none⟩]

theorem bothHalves_listed :
    ((successful (unused.after bothHalves)).1.toOption.map fun as => as.map (·.height)) =
      some [1000, halfway] := by
  decide +kernel

/-- The higher snapshot is listed last, and a cleanup that spares one takes it. -/
theorem higher_snapshot_surplus :
    1000 < halfway ∧
      ((successful (unused.after bothHalves)).1.toOption.map fun as => as.map (·.height)) =
        some [1000, halfway] ∧
      (Sweep.surplus 1 (listed (unused.after bothHalves))).map (·.height) = [halfway] :=
  ⟨by decide, bothHalves_listed, by decide +kernel⟩

theorem heights_ordered_iff_halves :
    unused.tables = {} ∧ unused.triggers = [] ∧ unused.Telling ∧
      (unused.after bothHalves).refusals = [] ∧
      (∃ a, (getAttempt 1 (unused.after bothHalves)).1 = .ok (some a) ∧ a.height = halfway) ∧
      ∃ as, (successful (unused.after bothHalves)).1 = .ok as ∧ as.Pairwise Attempt.Precedes ∧
        ¬ as.Pairwise Attempt.Above := by
  have hdefault : (Stamp.ofInstant default).instant?.isSome = true := by decide +kernel
  have htelling : unused.Telling := fun _ => hdefault
  have hdone : (unused.after bothHalves).refusals = [] := rfl
  obtain ⟨hkept, as, has, -, hprecedes, habove, -⟩ :=
    heights_ordered_iff unused rfl rfl htelling bothHalves hdone
  refine ⟨rfl, rfl, htelling, hdone, ?_, as, has, hprecedes, fun h => ?_⟩
  · obtain ⟨hcreates, hfound⟩ := hkept [] halfway false _ rfl
    obtain ⟨a, ha⟩ := hcreates rfl
    have hid : a.id = 1 := by
      cases ha
      rfl
    obtain ⟨a', ha', -, hheight⟩ := hfound a ha
    exact ⟨a', hid ▸ ha', hheight⟩
  · have hheights : as.map (·.height) = [1000, halfway] := by
      have hlisted := bothHalves_listed
      rw [has] at hlisted
      exact Option.some.inj hlisted
    have hlow : (1000 : UInt64) ∈ as.map (·.height) := by simp [hheights]
    have hhigh : halfway ∈ as.map (·.height) := by simp [hheights]
    obtain ⟨a, ha, hheight⟩ := List.mem_map.1 hlow
    obtain ⟨b, hb, hheight'⟩ := List.mem_map.1 hhigh
    have halong := habove.1 h a ha b hb
    rw [Attempt.Alongside, hheight, hheight'] at halong
    exact absurd (halong.1 (by decide)) (by decide)

end FleetSnapshot
