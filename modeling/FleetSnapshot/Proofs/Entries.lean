import FleetSnapshot.Proofs.Backed
import FleetSnapshot.Proofs.Barrier

/-! What a real attempt puts on record of its uploads when the audit store accepts every statement.
Each node has an entry of its own, which says what became of the upload of this node and of no
other. The marker is put just if all entries are successes. -/

namespace FleetSnapshot

open Audit Job

def Event.isPut : Event → Bool
  | .put _ _ _ _ => true
  | _ => false

namespace Node

def talk (n : Node) (φ : Phase) (es : List Event) : List (String × Reply) :=
  es.filterMap fun
    | .command node phase text reply => if node = n.index ∧ phase = φ then some (text, reply) else none
    | _ => none

/-- How the upload of a node ends, by the first reply that is held against the node. -/
def ending (n : Node) (replies : List Reply) : Except Error Unit :=
  match replies.findSome? n.blame? with
  | some e => .error e
  | none => .ok ()

def Sent (n : Node) (height : UInt64) (told : List (String × Reply)) : Prop :=
  ∃ image out out', told = [(n.inspectCommand, .output image),
    (n.metadataCommand n.target.dataDir image height, .output out),
    (n.uploadCommand n.target.dataDir n.target.uploadPrefix height, .output out')]

variable {n : Node} {height : UInt64} {φ : Phase} {es es' : List Event}

theorem talk_append (n : Node) (φ : Phase) (es es' : List Event) :
    n.talk φ (es ++ es') = n.talk φ es ++ n.talk φ es' := List.filterMap_append

theorem talk_other (h : ∀ e ∈ es, ∀ text reply, e ≠ .command n.index φ text reply) :
    n.talk φ es = [] := by
  refine List.filterMap_eq_nil_iff.2 fun e he => ?_
  cases e with
  | command node phase text reply =>
    refine if_neg ?_
    rintro ⟨rfl, rfl⟩
    exact h _ he text reply rfl
  | _ => rfl

/-- Nobody else is spoken to, and in no other phase. -/
theorem Sends.own {r : Except Stop Unit} (h : n.Sends height φ es r) :
    ∀ e ∈ es, ∃ text reply, e = .command n.index φ text reply := by
  cases h <;> simp

theorem Sends.ending {outcome : Except Error Unit}
    (h : n.Sends height φ es (outcome.mapError .failed)) :
    n.ending ((n.talk φ es).map (·.2)) = outcome := by
  generalize hr : outcome.mapError Stop.failed = r at h
  cases h with
  | @inspect reply s h =>
    rcases outcome with e | _ <;> cases hr
    cases reply <;> cases h <;> simp [talk, Node.ending, List.findSome?_cons, blame?]
  | @describe image reply s h =>
    rcases outcome with e | _ <;> cases hr
    cases reply <;> cases h <;> simp [talk, Node.ending, List.findSome?_cons, blame?]
  | send image out reply =>
    cases reply <;> rcases outcome with e | _ <;> cases hr <;>
      simp [talk, Node.ending, List.findSome?_cons, blame?]

/-- An upload is a success just if all three commands have gone through. -/
theorem Sends.sent_iff {outcome : Except Error Unit}
    (h : n.Sends height φ es (outcome.mapError .failed)) :
    outcome = .ok () ↔ n.Sent height (n.talk φ es) := by
  generalize hr : outcome.mapError Stop.failed = r at h
  cases h with
  | @inspect reply s h =>
    rcases outcome with e | _ <;> cases hr
    simp [talk, Sent]
  | @describe image reply s h =>
    rcases outcome with e | _ <;> cases hr
    simp [talk, Sent]
  | send image out reply =>
    cases reply <;> rcases outcome with e | _ <;> cases hr <;> simp [talk, Sent]

end Node

namespace Capture

/-- The row of the upload of a node, given its place in the fleet and all events of the attempt. -/
structure Entry (s₀ : Store) (attemptId : Int) (height : UInt64) (es : List Event)
    (place : Node × Nat) (u : UploadRow) : Prop where
  id : u.id = s₀.tables.lastUpload + 1 + place.2
  attemptId : u.attemptId = attemptId
  target : u.target = place.1.target.name
  uploadPrefix : u.uploadPrefix = uploadPrefix place.1 height
  real : u.dryRun = false
  begun : ∃ k, u.startTime = .ofInstant (s₀.clock k)
  ended : ∃ k, u.endTime = some (.ofInstant (s₀.clock k))
  status : u.status = (statusOf (place.1.ending ((place.1.talk .uploading es).map (·.2)))).1.text
  message : u.errorMessage = (statusOf (place.1.ending ((place.1.talk .uploading es).map (·.2)))).2
  complete : u.status = Progress.success.text ↔ place.1.Sent height (place.1.talk .uploading es)

/-- So many uploads have been gone through with, and two statements made for each, behind the one that
has put the attempt on record. -/
structure Since (s₀ : Store) (done : Nat) (s : Store) : Prop where
  clock : s.clock = s₀.clock
  refusals : s.refusals = s₀.refusals.drop (2 * done + 1)
  lastUpload : s.tables.lastUpload = s₀.tables.lastUpload + done

theorem statusOf_success {outcome : Except Error Unit} :
    (statusOf outcome).1.text = Progress.success.text ↔ outcome = .ok () := by
  cases outcome <;> simp [statusOf, Progress.text]

section Rows

variable {s₀ : Store} {a : AttemptRow} {us : List UploadRow} {height : UInt64} {c c' : Scene}
  {es : List Event}

theorem refusal_none {s : Store} {k : Nat} (h : s.refusals = s₀.refusals.drop k)
    (hopen : s₀.balks k = false) : s.refusal? = none := by
  rw [Store.refusal?, h, List.head?_drop]
  simpa [Store.balks] using hopen

theorem begun_refusals {s : Store} {k : Nat} (h : s.refusals = s₀.refusals.drop k) :
    s.begun.refusals = s₀.refusals.drop (k + 1) := by
  change s.refusals.tail = _
  rw [h, List.tail_drop]

/-- The upload of a node is gone through with, and its end put on record. -/
theorem Closes.entry {n : Node} {row : UploadRow} {lost : Option String}
    (h : Closes height n row.id c es c' (.ok lost)) (hphase : c.gate.phase = .uploading)
    (hus : Underway s₀ a (us ++ [row]) c.store) (hrunning : row.status = Progress.running.text)
    (hgoes : c.store.refusal? = none) :
    ∃ outcome, n.Sends height .uploading es (outcome.mapError .failed) ∧
      lost = failedAlias n outcome ∧
      Underway s₀ a (us ++ [row.ended (statusOf outcome).1 (statusOf outcome).2
        (c.store.clock c.store.ticks)]) c'.store ∧
      c'.store.clock = c.store.clock ∧ c'.store.refusals = c.store.begun.refusals ∧
      c'.store.tables.lastUpload = c.store.tables.lastUpload := by
  generalize hr : (Except.ok lost : Except Stop (Option String)) = r at h
  cases h with
  | waits => cases hr
  | ended outcome hsends =>
    cases hr
    rw [hphase] at hsends
    have hended := hus.endUpload hrunning hgoes (statusOf outcome).1 (statusOf outcome).2
    refine ⟨outcome, hsends, rfl, hended, ?_⟩
    have hstore : (Op.finishUpload row.id (statusOf outcome).1 (statusOf outcome).2).run c.store = _ :=
      finishUpload_plain hus.filed.plain row.id (statusOf outcome).1 (statusOf outcome).2
    rw [hgoes] at hstore
    rw [hstore]
    exact ⟨rfl, rfl, rfl⟩

/-- The upload of a node is put on record first of all. -/
theorem Uploads.entry {n : Node} {i : Nat} {lost : Option String}
    (h : Uploads a.id height n c es c' (.ok lost)) (hphase : c.gate.phase = .uploading)
    (hus : Underway s₀ a us c.store) (hsince : Since s₀ i c.store)
    (hopen : s₀.balks (2 * i + 1) = false) (hopen' : s₀.balks (2 * i + 2) = false)
    (all : List Event) (hall : n.talk .uploading all = n.talk .uploading es) :
    ∃ u, Underway s₀ a (us ++ [u]) c'.store ∧ Since s₀ (i + 1) c'.store ∧
      Entry s₀ a.id height all (n, i) u ∧
      lost = failedAlias n (n.ending ((n.talk .uploading all).map (·.2))) := by
  have howned : ∃ a' ∈ c.store.attempts, a'.id = a.id := by
    rw [hus.attempts]
    exact ⟨a, List.mem_append_right _ List.mem_cons_self, rfl⟩
  obtain ⟨u, hid, hcreated⟩ := createUpload_goes hus.filed.plain (refusal_none hsince.refusals hopen)
    howned n.target.name (uploadPrefix n height) false
  generalize hr : (Except.ok lost : Except Stop (Option String)) = r at h
  cases h with
  | unrecorded hop => exact absurd (congrArg Prod.fst (hcreated.symm.trans hop)) nofun
  | recorded hop hcloses =>
    obtain ⟨hu, rfl⟩ := Prod.mk.inj (hcreated.symm.trans hop)
    cases hu
    subst hr
    let row := c.store.newUpload a.id n.target.name (uploadPrefix n height) false
    let s := c.store.addUpload row
    have hadded : Underway s₀ a (us ++ [row]) s :=
      hus.addUpload n.target.name (uploadPrefix n height) false
    have hrefusals : s.refusals = s₀.refusals.drop (2 * i + 2) := begun_refusals hsince.refusals
    rw [show u.id = row.id from hid] at hcloses
    obtain ⟨outcome, hsends, rfl, hended, hclock, hdropped, hlast⟩ :=
      hcloses.entry hphase hadded rfl (refusal_none hrefusals hopen')
    have hending := hsends.ending
    have hsent := hsends.sent_iff
    rw [← hall] at hending hsent
    have hnumber : row.id = s₀.tables.lastUpload + i + 1 := congrArg (· + 1) hsince.lastUpload
    refine ⟨_, hended, ⟨hclock.trans hsince.clock, ?_, ?_⟩, ?_, by rw [hending]⟩
    · rw [hdropped]
      exact begun_refusals hrefusals
    · rw [hlast]
      push_cast
      exact hnumber.trans (Int.add_assoc _ _ _)
    · refine ⟨?_, rfl, rfl, rfl, rfl, ⟨c.store.ticks, ?_⟩, ⟨s.ticks, ?_⟩, ?_, ?_, ?_⟩
      · exact hnumber.trans (by omega)
      · rw [← hsince.clock]
        rfl
      · rw [← hsince.clock]
        rfl
      · rw [hending]
        rfl
      · rw [hending]
        rfl
      · rw [← hsent, ← statusOf_success]
        exact Iff.rfl

theorem Uploaded.own {fleet : List Node} (h : Uploaded fleet height es) :
    ∀ e ∈ es, ∃ n ∈ fleet, ∃ text reply, e = .command n.index .uploading text reply := by
  obtain ⟨parts, rfl, hparts⟩ := h
  intro e he
  obtain ⟨part, hpart, he⟩ := List.mem_flatten.1 he
  obtain ⟨n, hn, rfl | ⟨r, hsends⟩⟩ := source_of_mem hparts hpart
  · cases he
  · exact ⟨n, hn, hsends.own e he⟩

/-- What is said to others in the uploads is not said to this node. -/
theorem talk_apart {n : Node} {ns : List Node} (hn : n.index ∉ ns.map (·.index))
    (h : ∀ e ∈ es, ∃ m ∈ ns, ∃ text reply, e = .command m.index .uploading text reply) :
    n.talk .uploading es = [] := by
  refine Node.talk_other fun e he text reply heq => ?_
  obtain ⟨m, hm, text', reply', rfl⟩ := h e he
  exact hn (List.mem_map.2 ⟨m, hm, (Event.command.inj heq).1⟩)

/-- The uploads are put on record one after the other, each by what its own node replies. -/
theorem uploads_entries {fleet : List Node} {i : Nat} {lost : List (Option String)}
    (h : Each (Uploads a.id height) fleet c es c' (.ok lost))
    (hseats : (fleet.map (·.index)).Nodup) (hphase : c.gate.phase = .uploading)
    (hus : Underway s₀ a us c.store) (hsince : Since s₀ i c.store)
    (hopen : ∀ k ≤ 2 * (i + fleet.length), s₀.balks k = false) (all : List Event)
    (hall : ∀ n ∈ fleet, n.talk .uploading all = n.talk .uploading es) :
    ∃ rows, Underway s₀ a (us ++ rows) c'.store ∧ Since s₀ (i + fleet.length) c'.store ∧
      List.Forall₂ (Entry s₀ a.id height all) (fleet.zipIdx i) rows ∧
      lost = fleet.map fun n =>
        failedAlias n (n.ending ((n.talk .uploading all).map (·.2))) := by
  generalize hr : (Except.ok lost : Except Stop (List (Option String))) = r at h
  induction h generalizing us i lost with
  | nil =>
    cases hr
    exact ⟨[], by rwa [List.append_nil], hsince, .nil, rfl⟩
  | @cons n ns c es c₁ r es' c' rs h hrest ih =>
    obtain ⟨hn, hns⟩ := List.nodup_cons.1 hseats
    have hphase' : c₁.gate.phase = .uploading := by rw [h.gate, hphase]
    obtain ⟨x, rfl⟩ : ∃ x, r = .ok x := by
      rcases r with s | x
      · cases hr
      · exact ⟨x, rfl⟩
    obtain ⟨xs, rfl⟩ : ∃ xs, rs = .ok xs := by
      rcases rs with s | xs
      · cases hr
      · exact ⟨xs, rfl⟩
    obtain rfl : lost = x :: xs := Except.ok.inj hr
    rw [List.length_cons] at hopen
    -- what the others are told is not told to this node, nor the other way round
    have hmine : ∀ e ∈ es, ∃ m ∈ [n], ∃ text reply, e = .command m.index .uploading text reply := by
      intro e he
      rcases (h.part hphase).1 with rfl | ⟨r', hsends⟩
      · cases he
      · exact ⟨n, List.mem_singleton_self n, hsends.own e he⟩
    have htheirs := (uploads_parts hrest hphase').1.own
    obtain ⟨u, hus', hsince', hentry, rfl⟩ := h.entry hphase hus hsince (hopen _ (by omega))
      (hopen _ (by omega)) all (by
        rw [hall n List.mem_cons_self, Node.talk_append, talk_apart hn htheirs, List.append_nil])
    obtain ⟨rows, hunderway, hdone, hentries, rfl⟩ := ih hns hphase' hus' hsince'
      (fun k hk => hopen k (by omega)) (fun m hm => by
        have hne : m.index ∉ [n].map (·.index) := by
          rintro heq
          exact hn (List.mem_map.2 ⟨m, hm, List.mem_singleton.1 heq⟩)
        rw [hall m (List.mem_cons_of_mem _ hm), Node.talk_append, talk_apart hne hmine,
          List.nil_append]) rfl
    refine ⟨u :: rows, ?_, ?_, ?_, rfl⟩
    · rwa [List.append_assoc, List.singleton_append] at hunderway
    · rwa [List.length_cons, Nat.add_comm ns.length, ← Nat.add_assoc]
    · rw [List.zipIdx_cons]
      exact .cons hentry hentries

end Rows

def failedAliases (fleet : List Node) (es : List Event) : List String :=
  fleet.filterMap fun n => failedAlias n (n.ending ((n.talk .uploading es).map (·.2)))

/-- An attempt that has got past its preparations: its uploads are on record, and the marker and the
return to service go by what its events show. -/
structure Driven (p : Plant) (height : UInt64) (s₀ : Store) (a : AttemptRow) (es : List Event)
    (rows : List UploadRow) (s : Store) (r : Except Stop Unit) : Prop where
  prepared : unprepared? p.fleet (during .preparing es) = none
  quiesced : Quiesced p.fleet (during .preparing es)
  underway : Underway s₀ a rows s
  since : Since s₀ p.fleet.length s
  entries : List.Forall₂ (Entry s₀ a.id height es) p.fleet.zipIdx rows
  outcome : ∃ marker r', Marks p height (failedAliases p.fleet es) (es.filter Event.isPut) marker ∧
    Series .restoring (restoration p.fleet) (during .restoring es) r' ∧
    r = r'.bind fun _ => concluded (failedAliases p.fleet es) marker

section Driven

variable {p : Plant} {height : UInt64} {s₀ : Store} {a : AttemptRow} {c c' : Scene}
  {es prep up mark rest : List Event}

theorem Commanded.phase {φ : Phase} (h : Commanded φ es) : ∀ e ∈ es, e.phase? = some φ := by
  intro e he
  obtain ⟨node, text, reply, rfl⟩ := h e he
  rfl

theorem Commanded.puts {φ : Phase} (h : Commanded φ es) : es.filter Event.isPut = [] := by
  refine List.filter_eq_nil_iff.2 fun e he => ?_
  obtain ⟨node, text, reply, rfl⟩ := h e he
  exact Bool.false_ne_true

theorem Commanded.talk {φ ψ : Phase} (h : Commanded φ es) (hne : φ ≠ ψ) (n : Node) :
    n.talk ψ es = [] := by
  refine Node.talk_other fun e he text reply heq => ?_
  obtain ⟨node, text', reply', rfl⟩ := h e he
  exact hne (Event.command.inj heq).2.1

/-- The events of an attempt told apart by their phases and kinds. -/
theorem parted (hprep : Commanded .preparing prep) (hup : Commanded .uploading up)
    (hmark : mark = [] ∨ ∃ key text accepted, mark = [.put .uploading key text accepted])
    (hrest : Commanded .restoring rest) (hes : es = prep ++ (up ++ (mark ++ rest))) :
    during .preparing es = prep ∧ during .restoring es = rest ∧ es.filter Event.isPut = mark ∧
      ∀ n : Node, n.talk .uploading es = n.talk .uploading up := by
  subst hes
  have hphase : ∀ e ∈ mark, e.phase? = some .uploading := by
    rcases hmark with rfl | ⟨key, text, accepted, rfl⟩ <;> simp [Event.phase?]
  have hput : mark.filter Event.isPut = mark := by
    rcases hmark with rfl | ⟨key, text, accepted, rfl⟩ <;> rfl
  have hquiet : ∀ n : Node, n.talk .uploading mark = [] := by
    rcases hmark with rfl | ⟨key, text, accepted, rfl⟩ <;> intro n <;> rfl
  refine ⟨?_, ?_, ?_, fun n => ?_⟩
  · have hother := during_other (φ := .preparing) hup.phase (by decide)
    have hother' := during_other (φ := .preparing) hphase (by decide)
    have hother'' := during_other (φ := .preparing) hrest.phase (by decide)
    simp only [during_append, during_same hprep.phase, hother, hother', hother'', List.append_nil]
  · have hother := during_other (φ := .restoring) hprep.phase (by decide)
    have hother' := during_other (φ := .restoring) hup.phase (by decide)
    have hother'' := during_other (φ := .restoring) hphase (by decide)
    simp only [during_append, during_same hrest.phase, hother, hother', hother'', List.nil_append]
  · simp only [List.filter_append, hprep.puts, hup.puts, hrest.puts, hput, List.nil_append,
      List.append_nil]
  · have hother := hprep.talk (ψ := .uploading) (by decide) n
    have hother' := hrest.talk (ψ := .uploading) (by decide) n
    simp only [Node.talk_append, hother, hquiet, hother', List.nil_append, List.append_nil]

theorem Drives.driven {r : Except Stop Unit} (h : Drives p a.id height c es c' r)
    (hover : r ≠ .error .hung) (hseats : (p.fleet.map (·.index)).Nodup)
    (hus : Underway s₀ a [] c.store) (hsince : Since s₀ 0 c.store)
    (hopen : ∀ k ≤ 2 * p.fleet.length, s₀.balks k = false) :
    (∃ e, Commanded .preparing es ∧ unprepared? p.fleet (during .preparing es) = some e ∧
        r = .error (.failed e) ∧ c'.store = c.store) ∨
      ∃ rows, Driven p height s₀ a es rows c'.store r := by
  cases h with
  | @unprepared _ s hprep =>
    have hnone := hprep.unprepared hseats
    cases s with
    | hung => exact absurd rfl hover
    | failed e =>
      have hcommanded : Commanded .preparing es := (hprep.commands preparation_tells).1
      refine Or.inl ⟨e, hcommanded, ?_, rfl, rfl⟩
      rw [during_same hcommanded.phase]
      exact hnone
  | waits hprep hup =>
    obtain ⟨-, ⟨⟨failed, hs⟩, -⟩ | ⟨hs, -⟩⟩ := uploads_parts hup rfl
    · cases hs
    · cases hs
      exact absurd rfl hover
  | @restores prep up c₁ lost mark marker rest r' hprep hup hmark hrest =>
    refine Or.inr ?_
    have huploaded := (uploads_parts hup rfl).1
    have hmarking : mark = [] ∨ ∃ key text accepted, mark = [.put .uploading key text accepted] :=
      hmark.events.imp_right fun ⟨accepted, h⟩ => ⟨_, _, accepted, h⟩
    have hcommanded : Commanded .uploading up := by
      intro e he
      obtain ⟨n, -, text, reply, rfl⟩ := huploaded.own e he
      exact ⟨n.index, text, reply, rfl⟩
    obtain ⟨hpreparing, hrestoring, hputs, htalk⟩ := parted (hprep.commands preparation_tells).1
      hcommanded hmarking (hrest.commands restoration_tells).1 rfl
    generalize prep ++ (up ++ (mark ++ rest)) = es at hpreparing hrestoring hputs htalk ⊢
    obtain ⟨rows, hunderway, hdone, hentries, hlost⟩ := uploads_entries hup hseats rfl hus hsince
      (fun k hk => hopen k (by omega)) es fun n _ => htalk n
    have hfailed : lost.filterMap id = failedAliases p.fleet es := by
      rw [hlost, List.filterMap_map]
      rfl
    rw [Nat.zero_add] at hdone
    rw [hfailed] at hmark ⊢
    refine ⟨rows, ?_, ?_, hunderway, hdone, hentries, marker, r', ?_, ?_, rfl⟩
    · rw [hpreparing]
      exact hprep.unprepared hseats
    · rw [hpreparing]
      exact hprep.quiesced hseats
    · rwa [hputs]
    · rwa [hrestoring]

end Driven

/-- A real attempt that finds the gate free and the audit store in order. -/
structure Admitted (p : Plant) (height : UInt64) (d : Deployment) : Prop where
  real : p.dryRun = false
  seats : (p.fleet.map (·.index)).Nodup
  hosts : ∀ n ∈ p.fleet, n.index < d.hosts.length
  free : d.gate.inProgress = false
  filed : Filed d.store
  /-- Every command has a reply, or the attempt comes to an end all the same. -/
  replies : (∀ e ∈ (run p height).events d, e.hangs = false) ∨
    (run p height).result d ≠ .error .hung

def firstRow (height : UInt64) (d : Deployment) : AttemptRow :=
  (Scene.entered d.scene).store.newAttempt height false

section Admitted

variable {p : Plant} {height : UInt64} {d : Deployment}

theorem Admitted.ends (h : Admitted p height d) : (run p height).result d ≠ .error .hung := by
  rcases h.replies with hreplies | hends
  · intro hwaits
    obtain ⟨e, he, hhangs⟩ := run_waits_for p height d h.real h.seats h.hosts hwaits
    rw [hreplies e he] at hhangs
    cases hhangs
  · exact hends

theorem Admitted.drives (h : Admitted p height d) (hopen : d.store.balks 0 = false) :
    ∃ c c₁ r₁ c', Underway d.store (firstRow height d) [] c.store ∧ Since d.store 0 c.store ∧
      r₁ ≠ .error .hung ∧
      Drives p (firstRow height d).id height c ((run p height).events d) c₁ r₁ ∧
      Settles (firstRow height d).id c₁ r₁ c' ((run p height).result d) ∧
      ((run p height).perform d).2.scene = ⟨c'.gate.leave, c'.store⟩ := by
  have hruns := (run_does height h.real h.hosts).course
  have hends := h.ends
  generalize (run p height).events d = es at hruns ⊢
  generalize ((run p height).perform d).2.scene = c₂ at hruns ⊢
  generalize (run p height).result d = r at hruns hends ⊢
  cases hruns with
  | busy hbusy => exact absurd (hbusy.symm.trans h.free) (by decide)
  | admitted _ hattempts =>
    have hfiled : Filed (Scene.entered d.scene).store := h.filed.touches (Touches.of_same rfl rfl)
    have hgoes : (Scene.entered d.scene).store.refusal? = none :=
      refusal_none (k := 0) (List.drop_zero).symm hopen
    obtain ⟨a, hid, hcreated⟩ := createAttempt_goes hfiled.plain hgoes height false
    have hunderway := Underway.of_create hfiled height false
    cases hattempts with
    | unrecorded hop => exact absurd (congrArg Prod.fst (hcreated.symm.trans hop)) nofun
    | recorded hop hdrives hsettles =>
      obtain ⟨ha, rfl⟩ := Prod.mk.inj (hcreated.symm.trans hop)
      cases ha
      rw [show a.id = (firstRow height d).id from hid] at hdrives hsettles
      refine ⟨{ Scene.entered d.scene with
        store := (Scene.entered d.scene).store.addAttempt (firstRow height d) }, _, _, _,
        ⟨hunderway.filed, hunderway.attempts, hunderway.uploads, hunderway.own,
        hunderway.stands⟩, ⟨rfl, ?_, ?_⟩, mt hsettles.waits_iff.2 hends, hdrives, hsettles, rfl⟩
      · exact List.drop_one.symm
      · exact (Int.add_zero _).symm

/-- The number of the attempt has not been given before. -/
theorem firstRow_new (h : Filed d.store) (height : UInt64) :
    (firstRow height d).id ∉ d.store.attempts.map (·.id) := by
  intro hmem
  obtain ⟨r, hr, hid⟩ := List.mem_map.1 hmem
  have hbound := h.attemptBound r hr
  rw [hid] at hbound
  change d.store.tables.lastAttempt + 1 ≤ _ at hbound
  omega

end Admitted

/-- A real attempt that gets past its preparations, while the audit store accepts every statement. -/
structure Passing (p : Plant) (height : UInt64) (d : Deployment) : Prop
    extends Admitted p height d where
  accepts : ∀ k, d.store.balks k = false
  prepared : unprepared? p.fleet (during .preparing ((run p height).events d)) = none

def recorded (p : Plant) (height : UInt64) (d : Deployment) : List UploadRow :=
  ((run p height).perform d).2.store.uploads.filter (·.attemptId == (firstRow height d).id)

section Passing

variable {p : Plant} {height : UInt64} {d : Deployment}

theorem Passing.driven (h : Passing p height d) : ∃ s r,
    Driven p height d.store (firstRow height d) ((run p height).events d) (recorded p height d) s r ∧
      ((run p height).perform d).2.store.uploads = d.store.uploads ++ recorded p height d := by
  obtain ⟨c, c₁, r₁, c', hus, hsince, hover, hdrives, hsettles, hscene⟩ :=
    h.toAdmitted.drives (h.accepts 0)
  have hstore : ((run p height).perform d).2.store.uploads = c₁.store.uploads := by
    rw [← hsettles.uploads]
    exact congrArg (fun c => c.store.uploads) hscene
  rcases hdrives.driven hover h.seats hus hsince fun k _ => h.accepts k with
    ⟨e, -, he, -⟩ | ⟨rows, hdriven⟩
  · rw [h.prepared] at he
    cases he
  · have hrows : recorded p height d = rows := by
      rw [recorded, hstore]
      exact Underway.filter_uploads hdriven.underway h.filed (firstRow_new h.filed height)
    rw [hrows]
    exact ⟨c₁.store, r₁, hdriven, hstore.trans hdriven.underway.uploads⟩

/-- The entry of a node stands at the node's own place. -/
theorem entry_at {fleet : List Node} {rows : List UploadRow} {R : Node × Nat → UploadRow → Prop}
    (h : List.Forall₂ R fleet.zipIdx rows) {i : Nat} {n : Node} (hi : fleet[i]? = some n) :
    ∃ u, rows[i]? = some u ∧ R (n, i) u := by
  obtain ⟨hlt, hget⟩ := List.getElem?_eq_some_iff.1 hi
  have hlen : i < fleet.zipIdx.length := by rwa [List.length_zipIdx]
  have hlen' : i < rows.length := h.length_eq ▸ hlen
  have hrow := h.get hlen hlen'
  refine ⟨rows[i], List.getElem?_eq_getElem hlen', ?_⟩
  simpa [hget] using hrow

theorem Entry.success_iff {s₀ : Store} {attemptId : Int} {es : List Event} {place : Node × Nat}
    {u : UploadRow} (h : Entry s₀ attemptId height es place u) :
    u.status = Progress.success.text ↔
      failedAlias place.1 (place.1.ending ((place.1.talk .uploading es).map (·.2))) = none := by
  rw [h.status, statusOf_success]
  cases place.1.ending ((place.1.talk .uploading es).map (·.2)) <;> simp [failedAlias]

end Passing

end Capture

end FleetSnapshot
