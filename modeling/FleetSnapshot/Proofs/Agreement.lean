import FleetSnapshot.Proofs.Drill

/-! Agreement of the fleet, told by what the commands on its hosts put out. Hosts do not hear of each
other, so what a node replies is settled before the fleet is asked, and the order in which it is asked
makes no difference. -/

namespace FleetSnapshot

namespace Deployment

/-- What the host of the node replies to a command that comes behind these, the latest first. -/
def replyTo (d : Deployment) (n : Node) (before : List String) (text : String) : Reply :=
  match d.hosts[n.index]? with
  | none => .output ""
  | some h => h.answer (before ++ h.asked) text

def told (d : Deployment) (n : Node) (text : String) : Deployment := (d.command n.index text).2

variable (d : Deployment) (n : Node) (text : String)

theorem command_reply : (d.command n.index text).1 = d.replyTo n [] text := by
  unfold command replyTo
  cases d.hosts[n.index]? <;> rfl

theorem told_replyTo (before : List String) (text' : String) :
    (d.told n text).replyTo n before text' = d.replyTo n (before ++ [text]) text' := by
  unfold told command replyTo
  cases hhost : d.hosts[n.index]? with
  | none => simp only [hhost]
  | some host =>
    have hlt : n.index < d.hosts.length := (List.getElem?_eq_some_iff.1 hhost).1
    simp only [note, List.getElem?_set_self hlt, List.append_assoc, List.singleton_append]

theorem told_replyTo_other {m : Node} (h : m.index ≠ n.index) (before : List String) (text' : String) :
    (d.told n text).replyTo m before text' = d.replyTo m before text' := by
  unfold told command replyTo
  cases d.hosts[n.index]? with
  | none => rfl
  | some host => simp only [note, List.getElem?_set_ne h.symm]

end Deployment

namespace Node

variable (n : Node)

def syncingCommand : String := n.rpcCommand (requestOf "eth_syncing")

theorem perform_run (text : String) (d : Deployment) :
    (n.run text).perform d = (n.heard (d.replyTo n [] text), d.told n text) := by
  rw [Node.run, Job.perform_bind, Job.perform_act]
  simp only [Deployment.perform, d.command_reply n text]
  cases d.replyTo n [] text <;> rfl

section Query

variable {α : Type}

def learned (read : String → Option α) (complaint : String → String) (reply : Reply) :
    Except Stop α :=
  (n.heard reply).bind fun out => match read out with
    | some a => .ok a
    | none => .error (.failed (.commandFailed n.target.name (complaint out)))

theorem perform_query (read : String → Option α) (complaint : String → String)
    {use : String → Job α} (hsome : ∀ out a, read out = some a → use out = pure a)
    (hnone : ∀ out, read out = none → use out = n.refuse (complaint out)) (text : String)
    (d : Deployment) :
    (n.run text >>= use).perform d =
      (n.learned read complaint (d.replyTo n [] text), d.told n text) := by
  rw [Job.perform_bind, perform_run, learned]
  rcases n.heard (d.replyTo n [] text) with s | out
  · rfl
  · simp only [Except.bind]
    cases hread : read out with
    | some a => rw [hsome out a hread]; rfl
    | none => rw [hnone out hread]; rfl

/-- Without a reply that is waited for, a question comes to an answer just where the output can be
read. -/
theorem learned_outcome (read : String → Option α) (complaint : String → String) {reply : Reply}
    (h : reply ≠ .silent) :
    ∃ x : Except Error α, n.learned read complaint reply = x.mapError .failed ∧
      ∀ a, x = .ok a ↔ ∃ out, reply = .output out ∧ read out = some a := by
  cases reply with
  | output out =>
    cases hread : read out with
    | some a =>
      refine ⟨.ok a, by simp [learned, heard, Except.bind, hread, Except.mapError], fun a' => ?_⟩
      simp [hread]
    | none =>
      refine ⟨.error (.commandFailed n.target.name (complaint out)),
        by simp [learned, heard, Except.bind, hread, Except.mapError], fun a' => ?_⟩
      simp [hread]
  | unreachable reason => exact ⟨.error (.unreachable n.target.name reason), rfl, by simp⟩
  | failed reason => exact ⟨.error (.commandFailed n.target.name reason), rfl, by simp⟩
  | silent => exact absurd rfl h

end Query

end Node

open Node

structure Replies where
  report : Reply
  syncing : Reply
  height : Reply
  deriving DecidableEq

namespace Replies

variable (r : Replies)

/-- None of the commands goes on for ever. -/
structure Given : Prop where
  report : r.report ≠ .silent
  syncing : r.syncing ≠ .silent
  height : r.height ≠ .silent

def ConsensusReady : Prop :=
  ∃ out report, r.report = .output out ∧ syncReportOf out = some report ∧ report.isSyncing = false ∧
    report.isOptimistic = false ∧ report.elOffline = false ∧ report.distance ≤ 1

def ExecutionReady : Prop := ∃ out, r.syncing = .output out ∧ Text.trim out = "false"

/-- The node is in good order and says that it is at this height. -/
structure InStep (height : UInt64) : Prop where
  consensus : r.ConsensusReady
  execution : r.ExecutionReady
  height : ∃ out, r.height = .output out ∧ Quantity.read? out = some height

end Replies

def Deployment.replies (d : Deployment) (n : Node) : Replies where
  report := d.replyTo n [] n.syncCommand
  syncing := d.replyTo n [n.syncCommand] n.syncingCommand
  height := d.replyTo n [n.syncingCommand, n.syncCommand] n.heightCommand

/-- The node says that it is at this height when that is all that it is asked. -/
def Deployment.Tells (d : Deployment) (n : Node) (height : UInt64) : Prop :=
  ∃ out, d.replyTo n [] n.heightCommand = .output out ∧ Quantity.read? out = some height

theorem Node.syncingOf_false (out : String) : syncingOf out = some false ↔ Text.trim out = "false" := by
  unfold syncingOf
  split
  · simp_all
  · simp_all
  · rename_i hfalse htrue
    refine ⟨fun h => ?_, fun h => absurd h hfalse⟩
    split at h <;> simp at h

theorem SyncReport.ready_iff (r : SyncReport) : r.ready = true ↔
    r.isSyncing = false ∧ r.isOptimistic = false ∧ r.elOffline = false ∧ r.distance ≤ 1 := by
  have hdistance : decide (r.distance ≤ maxDistance) = true ↔ r.distance ≤ 1 := decide_eq_true_iff
  simp only [ready, Bool.and_eq_true, Bool.not_eq_true', hdistance, and_assoc]

namespace Agreement

open Job

theorem unanimous_eq_some (heights : List UInt64) (h : UInt64) :
    unanimous heights = some h ↔ heights ≠ [] ∧ ∀ x ∈ heights, x = h := by
  cases heights with
  | nil => simp [unanimous]
  | cons x xs =>
    have hall : xs.all (· == x) = true ↔ ∀ y ∈ xs, y = x := by simp [List.all_eq_true]
    simp only [unanimous, hall, Option.ite_none_right_eq_some, Option.some.injEq, List.mem_cons,
      forall_eq_or_imp]
    constructor
    · rintro ⟨hxs, rfl⟩
      exact ⟨List.cons_ne_nil _ _, rfl, hxs⟩
    · rintro ⟨-, rfl, hxs⟩
      exact ⟨hxs, rfl⟩

theorem mapM_eq_some {α β : Type} {f : α → Option β} {as : List α} {bs : List β} :
    as.mapM f = some bs ↔ as.map f = bs.map some := by
  induction as generalizing bs with
  | nil => cases bs <;> simp
  | cons a as ih =>
    cases bs with
    | nil => simp [List.mapM_cons, Option.bind_eq_some_iff]
    | cons b bs =>
      simp only [List.mapM_cons, Option.bind_eq_bind, Option.bind_eq_some_iff, Option.pure_def,
        Option.some.injEq, List.cons.injEq, ih, List.map_cons]
      constructor
      · rintro ⟨b', hb, bs', hbs, rfl, rfl⟩
        exact ⟨hb, hbs⟩
      · rintro ⟨hb, hbs⟩
        exact ⟨b, hb, bs, hbs, rfl, rfl⟩

theorem verdict_eq_some (ps : List Probe) (h : UInt64) :
    verdict ps = some h ↔ ps ≠ [] ∧ ∀ p ∈ ps, p.healthy = true ∧ p.height = some h := by
  simp only [verdict, Option.ite_none_right_eq_some, List.all_eq_true, Option.bind_eq_some_iff,
    mapM_eq_some, unanimous_eq_some]
  constructor
  · rintro ⟨hhealthy, heights, hmap, hne, heq⟩
    refine ⟨fun hnil => hne ?_, fun p hp => ⟨hhealthy p hp, ?_⟩⟩
    · rw [hnil] at hmap
      exact List.map_eq_nil_iff.1 hmap.symm
    · have hmem : p.height ∈ heights.map some := hmap ▸ List.mem_map_of_mem hp
      obtain ⟨x, hx, hpx⟩ := List.mem_map.1 hmem
      rw [← hpx, heq x hx]
  · rintro ⟨hne, hall⟩
    refine ⟨fun p hp => (hall p hp).1, ps.map fun _ => h, ?_, ?_, ?_⟩
    · rw [List.map_map]
      exact List.map_congr_left fun p hp => (hall p hp).2
    · rwa [Ne, List.map_eq_nil_iff]
    · intro x hx
      obtain ⟨-, -, rfl⟩ := List.mem_map.1 hx
      rfl

structure Shows (r : Replies) (p : Probe) : Prop where
  healthy : p.healthy = true ↔ r.ConsensusReady ∧ r.ExecutionReady
  height : ∀ h, p.height = some h ↔ ∃ out, r.height = .output out ∧ Quantity.read? out = some h

def probed (d : Deployment) (n : Node) : Deployment :=
  ((d.told n n.syncCommand).told n n.syncingCommand).told n n.heightCommand

theorem probed_replies {d : Deployment} {n m : Node} (h : m.index ≠ n.index) :
    (probed d n).replies m = d.replies m := by
  simp only [probed, Deployment.replies, Deployment.told_replyTo_other _ _ _ h]

theorem perform_both_ok {α β : Type} {j : Job α} {k : Job β} {a : α} {b : β} {d d' d'' : Deployment}
    (hj : j.perform d = (.ok a, d')) (hk : k.perform d' = (.ok b, d'')) :
    (both j k).perform d = (.ok (a, b), d'') := by
  refine (Plan.run_bind j.run _ d).trans ?_
  refine (Plan.run_bind k.run _ _).trans ?_
  change j.run.run d = _ at hj
  change k.run.run d' = _ at hk
  rw [hj, hk]
  rfl

/-- The outcome of a question that is replied to. -/
def Answers {α : Type} (j : Job α) (read : String → Option α) (n : Node) (text : String) : Prop :=
  ∀ d : Deployment, d.replyTo n [] text ≠ .silent →
    ∃ x, j.outcome.perform d = (.ok x, d.told n text) ∧
      ∀ a, x = .ok a ↔ ∃ out, d.replyTo n [] text = .output out ∧ read out = some a

theorem answers_query {α : Type} {n : Node} {read : String → Option α} {complaint : String → String}
    {use : String → Job α} (hsome : ∀ out a, read out = some a → use out = pure a)
    (hnone : ∀ out, read out = none → use out = n.refuse (complaint out)) (text : String) :
    Answers (n.run text >>= use) read n text := by
  intro d h
  obtain ⟨x, hx, hxs⟩ := n.learned_outcome read complaint h
  refine ⟨x, ?_, hxs⟩
  rw [perform_outcome, n.perform_query read complaint hsome hnone text d, hx]
  cases x <;> rfl

theorem answers_syncReport (n : Node) : Answers n.syncReport syncReportOf n n.syncCommand :=
  answers_query (fun _ _ h => by simp only [h]) (fun _ h => by simp only [h]; rfl) _

theorem answers_syncing (n : Node) : Answers n.executionSyncing syncingOf n n.syncingCommand :=
  answers_query (fun _ _ h => by simp only [h]) (fun _ h => by simp only [h]; rfl) _

theorem answers_height (n : Node) : Answers n.height Quantity.read? n n.heightCommand :=
  answers_query (fun _ _ h => by simp only [h]) (fun _ h => by simp only [h]; rfl) _

theorem probeOf_healthy (target : String) (x : Except Error SyncReport) (y : Except Error Bool)
    (z : Except Error UInt64) :
    (probeOf target x y z).healthy = true ↔ (∃ r, x = .ok r ∧ r.ready = true) ∧ y = .ok false := by
  cases x <;> cases y <;> simp [probeOf]

theorem probeOf_height (target : String) (x : Except Error SyncReport) (y : Except Error Bool)
    (z : Except Error UInt64) (h : UInt64) : (probeOf target x y z).height = some h ↔ z = .ok h := by
  cases z <;> simp [probeOf, Except.toOption]

theorem perform_probe (n : Node) (d : Deployment) (h : (d.replies n).Given) :
    ∃ p, (probe n).perform d = (.ok p, probed d n) ∧ Shows (d.replies n) p := by
  obtain ⟨x, hx, hxs⟩ := answers_syncReport n d h.report
  obtain ⟨y, hy, hys⟩ := answers_syncing n (d.told n n.syncCommand) (by
    rw [d.told_replyTo]
    exact h.syncing)
  obtain ⟨z, hz, hzs⟩ := answers_height n ((d.told n n.syncCommand).told n n.syncingCommand) (by
    rw [Deployment.told_replyTo, Deployment.told_replyTo]
    exact h.height)
  rw [d.told_replyTo] at hys
  rw [Deployment.told_replyTo, Deployment.told_replyTo] at hzs
  refine ⟨probeOf n.target.name x y z, ?_, ⟨?_, fun h => ?_⟩⟩
  · rw [probe, perform_bind, perform_both_ok hx (perform_both_ok hy hz)]
    rfl
  · rw [probeOf_healthy, hys, Replies.ConsensusReady, Replies.ExecutionReady]
    simp only [hxs, SyncReport.ready_iff, syncingOf_false]
    constructor
    · rintro ⟨⟨r, ⟨out, hout, hr⟩, hready⟩, hexecution⟩
      exact ⟨⟨out, r, hout, hr, hready⟩, hexecution⟩
    · rintro ⟨⟨out, r, hout, hr, hready⟩, hexecution⟩
      exact ⟨⟨r, ⟨out, hout, hr⟩, hready⟩, hexecution⟩
  · rw [probeOf_height]
    exact hzs h

/-- Each node shows what its replies are, however many were probed before it. -/
theorem perform_probes {fleet : List Node} (hseats : (fleet.map (·.index)).Nodup)
    {replies : Node → Replies} (h : ∀ n ∈ fleet, (replies n).Given) {d : Deployment}
    (hreplies : ∀ n ∈ fleet, d.replies n = replies n) :
    ∃ ps, ((all (fleet.map probe)).perform d).1 = .ok ps ∧
      List.Forall₂ (fun n p => Shows (replies n) p) fleet ps := by
  induction fleet generalizing d with
  | nil => exact ⟨[], rfl, .nil⟩
  | cons n fleet ih =>
    rw [List.map_cons, List.nodup_cons] at hseats
    rw [List.forall_mem_cons] at h hreplies
    obtain ⟨p, hp, hshows⟩ := perform_probe n d (hreplies.1 ▸ h.1)
    have hrest : ∀ m ∈ fleet, (probed d n).replies m = replies m := by
      intro m hm
      have hne : m.index ≠ n.index := fun heq => hseats.1 (heq ▸ List.mem_map_of_mem hm)
      rw [probed_replies hne, hreplies.2 m hm]
    obtain ⟨ps, hps, hall⟩ := ih hseats.2 h.2 hrest
    refine ⟨p :: ps, ?_, .cons (hreplies.1 ▸ hshows) hall⟩
    rw [perform_all_cons, hp, hps]
    rfl

theorem forall_mem_iff {α β : Type} {P : α → Prop} {Q : β → Prop} {as : List α} {bs : List β}
    (h : List.Forall₂ (fun a b => P a ↔ Q b) as bs) : (∀ a ∈ as, P a) ↔ ∀ b ∈ bs, Q b := by
  induction h with
  | nil => simp
  | cons hab _ ih => simp only [List.forall_mem_cons, hab, ih]

theorem check_result {fleet : List Node} (hseats : (fleet.map (·.index)).Nodup) {d : Deployment}
    (h : ∀ n ∈ fleet, (d.replies n).Given) :
    ∃ v, (check fleet).result d = .ok v ∧
      ∀ height, v = some height ↔ fleet ≠ [] ∧ ∀ n ∈ fleet, (d.replies n).InStep height := by
  obtain ⟨ps, hps, hshows⟩ := perform_probes hseats h fun _ _ => rfl
  refine ⟨verdict ps, ?_, fun height => ?_⟩
  · rw [result, check, perform_bind]
    rcases hr : (all (fleet.map probe)).perform d with ⟨r, d'⟩
    rw [hr] at hps
    subst hps
    rfl
  · have hall : List.Forall₂ (fun n p => (d.replies n).InStep height ↔
        p.healthy = true ∧ p.height = some height) fleet ps := by
      refine hshows.imp fun n p hp => ?_
      rw [hp.healthy, hp.height]
      exact ⟨fun h => ⟨⟨h.consensus, h.execution⟩, h.height⟩, fun h => ⟨h.1.1, h.1.2, h.2⟩⟩
    have hne : ps ≠ [] ↔ fleet ≠ [] := by
      rw [← List.length_pos_iff, ← List.length_pos_iff, hshows.length_eq]
    rw [verdict_eq_some, hne, forall_mem_iff hall]

def askTarget (n : Node) : Job (String × UInt64) := do return (n.target.name, ← n.height)

theorem perform_askTarget (n : Node) {d : Deployment} (h : d.replyTo n [] n.heightCommand ≠ .silent) :
    (∃ height, d.Tells n height ∧
        (askTarget n).perform d = (.ok (n.target.name, height), d.told n n.heightCommand)) ∨
      ∃ e, n.fault? n.heightCommand (d.replyTo n [] n.heightCommand) = some e ∧
        (askTarget n).perform d = (.error (.failed e), d.told n n.heightCommand) := by
  have hheight : n.height.perform d = (n.learned Quantity.read?
      (fun out => s!"invalid eth_blockNumber result '{Text.trim out}'")
      (d.replyTo n [] n.heightCommand), d.told n n.heightCommand) :=
    n.perform_query _ _ (fun _ _ h => by simp only [h]) (fun _ h => by simp only [h]) _ d
  rw [askTarget, perform_bind, hheight]
  unfold Deployment.Tells
  cases hreply : d.replyTo n [] n.heightCommand with
  | output out =>
    cases hread : Quantity.read? out with
    | some height =>
      refine Or.inl ⟨height, ⟨out, rfl, hread⟩, ?_⟩
      simp only [learned, heard, Except.bind, hread]
      rfl
    | none =>
      refine Or.inr ⟨n.misread out, by simp [fault?, hread], ?_⟩
      simp only [learned, heard, Except.bind, hread, misread]
  | unreachable reason => exact Or.inr ⟨_, rfl, rfl⟩
  | failed reason => exact Or.inr ⟨_, rfl, rfl⟩
  | silent => exact absurd hreply h

/-- What becomes of the question for the heights: either all tell theirs, or the first that does not
is to blame. -/
theorem heights_cases {fleet : List Node} (hseats : (fleet.map (·.index)).Nodup) {d : Deployment}
    (h : ∀ n ∈ fleet, d.replyTo n [] n.heightCommand ≠ .silent) :
    (∃ heights, ((upToFailure (fleet.map askTarget)).perform d).1 = .ok heights ∧
        List.Forall₂ (fun n x => d.Tells n x.2) fleet heights) ∨
      ∃ before n after e, fleet = before ++ n :: after ∧ (∀ m ∈ before, ∃ x, d.Tells m x) ∧
        n.fault? n.heightCommand (d.replyTo n [] n.heightCommand) = some e ∧
        ((upToFailure (fleet.map askTarget)).perform d).1 = .error (.failed e) := by
  induction fleet generalizing d with
  | nil => exact Or.inl ⟨[], rfl, .nil⟩
  | cons n fleet ih =>
    rw [List.map_cons, List.nodup_cons] at hseats
    rw [List.forall_mem_cons] at h
    rw [perform_upToFailure_cons]
    rcases perform_askTarget n h.1 with ⟨height, htells, hn⟩ | ⟨e, hfault, hn⟩
    · have hsame : ∀ m ∈ fleet, (d.told n n.heightCommand).replyTo m [] m.heightCommand =
          d.replyTo m [] m.heightCommand := by
        refine fun m hm => d.told_replyTo_other n _ (fun heq => hseats.1 ?_) _ _
        exact heq ▸ List.mem_map_of_mem hm
      have htold : ∀ m ∈ fleet, ∀ x, (d.told n n.heightCommand).Tells m x → d.Tells m x := by
        intro m hm x hx
        rwa [Deployment.Tells, hsame m hm] at hx
      rw [hn]
      rcases ih hseats.2 (fun m hm => hsame m hm ▸ h.2 m hm) with
        ⟨heights, hheights, hall⟩ | ⟨before, m, after, e, rfl, hbefore, hfault, hheights⟩
      · refine Or.inl ⟨(n.target.name, height) :: heights, ?_, .cons htells ?_⟩
        · simp only [hheights]
          rfl
        · have hboth := (List.forall₂_and_left _ _).2 ⟨htold, hall⟩
          exact hboth.imp fun m x hx => hx.1 _ hx.2
      · refine Or.inr ⟨n :: before, m, after, e, rfl, ?_, ?_, ?_⟩
        · refine List.forall_mem_cons.2 ⟨⟨height, htells⟩, fun m' hm' => ?_⟩
          obtain ⟨x, hx⟩ := hbefore m' hm'
          exact ⟨x, htold m' (List.mem_append_left _ hm') x hx⟩
        · rwa [hsame m (by simp)] at hfault
        · simp only [hheights]
          rfl
    · refine Or.inr ⟨[], n, fleet, e, rfl, by simp, hfault, ?_⟩
      rw [hn]

theorem fault_not_disagreement {n : Node} {text : String} {reply : Reply} {e : Error}
    (h : n.fault? text reply = some e) (detail : String) : e ≠ .disagreement detail := by
  cases reply with
  | output out =>
    simp only [fault?, Option.ite_none_right_eq_some, Option.some.injEq] at h
    rw [← h.2, misread]
    exact nofun
  | unreachable reason => cases h; exact nofun
  | failed reason => cases h; exact nofun
  | silent => cases h

theorem verifyHeights_result (fleet : List Node) (d : Deployment) :
    (verifyHeights fleet).result d =
      match ((upToFailure (fleet.map askTarget)).perform d).1 with
      | .error s => .error s
      | .ok heights => match unanimous (heights.map (·.2)) with
        | some h => .ok h
        | none => .error (.failed (disagreement heights)) := by
  have hperform := perform_bind d (upToFailure (fleet.map askTarget)) fun heights =>
    match unanimous (heights.map (·.2)) with
    | some h => return h
    | none => fail (disagreement heights)
  refine (congrArg Prod.fst hperform).trans ?_
  rcases (upToFailure (fleet.map askTarget)).perform d with ⟨s | heights, d'⟩
  · rfl
  · simp only
    cases unanimous (heights.map (·.2)) <;> rfl

theorem tells_unique {d : Deployment} {n : Node} {x y : UInt64} (hx : d.Tells n x)
    (hy : d.Tells n y) : x = y := by
  obtain ⟨out, hout, hx⟩ := hx
  obtain ⟨out', hout', hy⟩ := hy
  obtain rfl : out = out' := Reply.output.inj (hout.symm.trans hout')
  exact Option.some.inj (hx.symm.trans hy)

/-- All nodes of a fleet that is not empty tell one height. -/
def AllTell (d : Deployment) (fleet : List Node) (height : UInt64) : Prop :=
  fleet ≠ [] ∧ ∀ n ∈ fleet, d.Tells n height

theorem unanimous_tells {d : Deployment} {fleet : List Node} {heights : List (String × UInt64)}
    (h : List.Forall₂ (fun n x => d.Tells n x.2) fleet heights) (height : UInt64) :
    unanimous (heights.map (·.2)) = some height ↔ AllTell d fleet height := by
  have hall : List.Forall₂ (fun n x => d.Tells n height ↔ x.2 = height) fleet heights :=
    h.imp fun n x hx => ⟨fun hn => tells_unique hx hn, fun heq => heq ▸ hx⟩
  have hne : heights ≠ [] ↔ fleet ≠ [] := by
    rw [← List.length_pos_iff, ← List.length_pos_iff, h.length_eq]
  rw [unanimous_eq_some, AllTell, forall_mem_iff hall, List.forall_mem_map, ← hne, Ne, Ne,
    List.map_eq_nil_iff]

theorem not_tells_of_fault {d : Deployment} {n : Node} {e : Error}
    (h : n.fault? n.heightCommand (d.replyTo n [] n.heightCommand) = some e) (height : UInt64) :
    ¬ d.Tells n height := by
  rintro ⟨out, hout, hread⟩
  simp [hout, fault?, hread] at h

/-- Two ways to split a list at the first element of a kind are one. -/
theorem first_unique {α : Type} {P : α → Prop} {before before' after after' : List α} {a a' : α}
    (heq : before ++ a :: after = before' ++ a' :: after') (h : ∀ b ∈ before, P b) (ha : ¬ P a)
    (h' : ∀ b ∈ before', P b) (ha' : ¬ P a') : a = a' := by
  induction before generalizing before' with
  | nil =>
    cases before' with
    | nil => exact (List.cons.inj heq).1
    | cons b before' => exact absurd ((List.cons.inj heq).1 ▸ h' b List.mem_cons_self) ha
  | cons b before ih =>
    cases before' with
    | nil => exact absurd ((List.cons.inj heq).1 ▸ h b List.mem_cons_self) ha'
    | cons b' before' =>
      exact ih (List.cons.inj heq).2 (fun x hx => h x (List.mem_cons_of_mem _ hx))
        fun x hx => h' x (List.mem_cons_of_mem _ hx)

inductive Verified (d : Deployment) (fleet : List Node) : Except Stop UInt64 → Prop
  | agreed {height} (h : AllTell d fleet height) : Verified d fleet (.ok height)
  | disagreed {detail} (htell : ∀ n ∈ fleet, ∃ height, d.Tells n height)
      (h : ∀ height, ¬ AllTell d fleet height) :
      Verified d fleet (.error (.failed (.disagreement detail)))
  | failed {before n after e} (hsplit : fleet = before ++ n :: after)
      (hbefore : ∀ m ∈ before, ∃ height, d.Tells m height)
      (h : n.fault? n.heightCommand (d.replyTo n [] n.heightCommand) = some e) :
      Verified d fleet (.error (.failed e))

theorem verifyHeights_verified {fleet : List Node} (hseats : (fleet.map (·.index)).Nodup)
    {d : Deployment} (h : ∀ n ∈ fleet, d.replyTo n [] n.heightCommand ≠ .silent) :
    Verified d fleet ((verifyHeights fleet).result d) := by
  rw [verifyHeights_result]
  rcases heights_cases hseats h with
    ⟨heights, hok, htell⟩ | ⟨before, n, after, e, hsplit, hbefore, hfault, herror⟩
  · have htells := unanimous_tells htell
    rw [hok]
    dsimp only
    cases hu : unanimous (heights.map (·.2)) with
    | some height => exact .agreed ((htells height).1 hu)
    | none =>
      refine .disagreed (fun n hn => ?_) fun height hall => ?_
      · obtain ⟨x, -, hx⟩ := Audit.image_of_mem htell hn
        exact ⟨x.2, hx⟩
      · rw [(htells height).2 hall] at hu
        cases hu
  · rw [herror]
    exact .failed hsplit hbefore hfault

namespace Verified

variable {d : Deployment} {fleet : List Node} {r : Except Stop UInt64}

theorem ok_iff (h : Verified d fleet r) (height : UInt64) : r = .ok height ↔ AllTell d fleet height := by
  cases h with
  | @agreed height' h =>
    refine ⟨fun heq => Except.ok.inj heq ▸ h, fun hall => congrArg _ ?_⟩
    obtain ⟨n, hn⟩ := List.exists_mem_of_ne_nil fleet h.1
    exact tells_unique (h.2 n hn) (hall.2 n hn)
  | disagreed htell h => exact ⟨nofun, fun hall => absurd hall (h height)⟩
  | failed hsplit hbefore h =>
    refine ⟨nofun, fun hall => absurd (hall.2 _ ?_) (not_tells_of_fault h height)⟩
    simp [hsplit]

theorem disagreement_iff (h : Verified d fleet r) :
    (∃ detail, r = .error (.failed (.disagreement detail))) ↔
      (∀ n ∈ fleet, ∃ height, d.Tells n height) ∧ ∀ height, ¬ AllTell d fleet height := by
  cases h with
  | agreed h => exact ⟨nofun, fun hno => absurd h (hno.2 _)⟩
  | disagreed htell h => exact ⟨fun _ => ⟨htell, h⟩, fun _ => ⟨_, rfl⟩⟩
  | @failed before n after e hsplit hbefore h =>
    constructor
    · rintro ⟨detail, heq⟩
      exact absurd (Stop.failed.inj (Except.error.inj heq)) (fault_not_disagreement h detail)
    · rintro ⟨htell, -⟩
      obtain ⟨height, hheight⟩ := htell n (by simp [hsplit])
      exact absurd hheight (not_tells_of_fault h height)

theorem first_fault (h : Verified d fleet r) {before after : List Node} {n : Node}
    (hsplit : fleet = before ++ n :: after) (hbefore : ∀ m ∈ before, ∃ height, d.Tells m height)
    (hmute : ∀ height, ¬ d.Tells n height) :
    ∃ e, n.fault? n.heightCommand (d.replyTo n [] n.heightCommand) = some e ∧
      r = .error (.failed e) := by
  have hn : n ∈ fleet := by simp [hsplit]
  have hnone : ¬ ∃ height, d.Tells n height := fun ⟨height, h⟩ => hmute height h
  cases h with
  | agreed h => exact absurd (h.2 n hn) (hmute _)
  | disagreed htell h => exact absurd (htell n hn) hnone
  | failed hsplit' hbefore' h =>
    have hfirst := first_unique (hsplit.symm.trans hsplit') hbefore hnone hbefore'
      fun ⟨height, hheight⟩ => not_tells_of_fault h height hheight
    exact ⟨_, hfirst ▸ h, rfl⟩

end Verified

/-- Where every command on the hosts comes to an end, the fleet is in step at a height just if it has
nodes and each of them is ready and at it, whatever the order in which they are asked. The heights are
verified just if all nodes tell the same one; they disagree just if all tell theirs but these are not
one; and else the first node that tells none is to blame. -/
theorem agreement_exact (fleet : List Node) (hseats : (fleet.map (·.index)).Nodup) (d d' : Deployment)
    (hprobes : ∀ n ∈ fleet, (d.replies n).Given)
    (hheights : ∀ n ∈ fleet, d'.replyTo n [] n.heightCommand ≠ .silent) :
    (∀ height, (check fleet).result d = .ok (some height) ↔
        fleet ≠ [] ∧ ∀ n ∈ fleet, (d.replies n).InStep height) ∧
      ((∀ height, ¬ (fleet ≠ [] ∧ ∀ n ∈ fleet, (d.replies n).InStep height)) →
        (check fleet).result d = .ok none) ∧
      (∀ fleet' : List Node, fleet'.Perm fleet → (check fleet').result d = (check fleet).result d) ∧
      (∀ height, (verifyHeights fleet).result d' = .ok height ↔ AllTell d' fleet height) ∧
      ((∃ detail, (verifyHeights fleet).result d' = .error (.failed (.disagreement detail))) ↔
        (∀ n ∈ fleet, ∃ height, d'.Tells n height) ∧ ∀ height, ¬ AllTell d' fleet height) ∧
      ∀ before n after, fleet = before ++ n :: after → (∀ m ∈ before, ∃ height, d'.Tells m height) →
        (∀ height, ¬ d'.Tells n height) →
        ∃ e, n.fault? n.heightCommand (d'.replyTo n [] n.heightCommand) = some e ∧
          (verifyHeights fleet).result d' = .error (.failed e) := by
  obtain ⟨v, hv, hinstep⟩ := check_result hseats hprobes
  have hverified := verifyHeights_verified hseats hheights
  refine ⟨fun height => ?_, fun hno => ?_, fun fleet' hperm => ?_, hverified.ok_iff,
    hverified.disagreement_iff, fun before n after => hverified.first_fault⟩
  · rw [hv, Except.ok.injEq, hinstep]
  · rw [hv, Except.ok.injEq]
    exact Option.eq_none_iff_forall_ne_some.2 fun height hsome => hno height ((hinstep height).1 hsome)
  · have hseats' : (fleet'.map (·.index)).Nodup := (hperm.map _).nodup_iff.2 hseats
    obtain ⟨v', hv', hinstep'⟩ := check_result hseats' fun n hn => hprobes n (hperm.mem_iff.1 hn)
    rw [hv', hv]
    refine congrArg _ (Option.ext fun height => ?_)
    rw [hinstep', hinstep]
    simp only [hperm.mem_iff, ne_eq, ← List.length_eq_zero_iff, hperm.length_eq]

def farNode : Node :=
  { Capture.loneNode with
    index := 1
    target := { Capture.loneNode.target with
      name := "geth-2", endpoints := { beacon := "beacon:5052", execution := "geth:8545" } } }

def soundReport : String :=
  "\x7b\"is_syncing\":false,\"head_slot\":\"9\",\"sync_distance\":\"1\"\x7d"

def soundHost (n : Node) (height : String) : Host where
  answer _ text :=
    if text = n.syncCommand then .output soundReport
    else if text = n.syncingCommand then .output " false\n"
    else .output height

def soundPair (height height' : String) : Deployment where
  hosts := [soundHost Capture.loneNode height, soundHost farNode height']
  store := { clock := fun _ => default }
  gate := { blockInterval := 1000 }

theorem soundHost_inStep {height : String} (h : Quantity.read? height = some 1000) :
    Replies.InStep ⟨.output soundReport, .output " false\n", .output height⟩ 1000 where
  consensus := by
    have hreport : syncReportOf soundReport = some ⟨false, false, false, 9, 1⟩ := by decide +kernel
    exact ⟨soundReport, _, rfl, hreport, rfl, rfl, rfl, by decide⟩
  execution := ⟨" false\n", rfl, by decide +kernel⟩
  height := ⟨height, rfl, h⟩

/-- One height in two spellings is agreed on, and two heights are not. -/
theorem agreement_exact_pair :
    ([Capture.loneNode, farNode].map (·.index)).Nodup ∧
      (check [Capture.loneNode, farNode]).result (soundPair "0x3e8" "0X3E8") = .ok (some 1000) ∧
      ∃ detail, (verifyHeights [Capture.loneNode, farNode]).result (soundPair "0x3e8" "0x3e9") =
        .error (.failed (.disagreement detail)) := by
  have hseats : ([Capture.loneNode, farNode].map (·.index)).Nodup := by decide
  have hnear : (soundPair "0x3e8" "0X3E8").replies Capture.loneNode =
    ⟨.output soundReport, .output " false\n", .output "0x3e8"⟩ := by decide +kernel
  have hfar : (soundPair "0x3e8" "0X3E8").replies farNode =
    ⟨.output soundReport, .output " false\n", .output "0X3E8"⟩ := by decide +kernel
  have hnear' : (soundPair "0x3e8" "0x3e9").replyTo Capture.loneNode []
    Capture.loneNode.heightCommand = .output "0x3e8" := by decide +kernel
  have hfar' : (soundPair "0x3e8" "0x3e9").replyTo farNode [] farNode.heightCommand =
    .output "0x3e9" := by decide +kernel
  have htell : (soundPair "0x3e8" "0x3e9").Tells Capture.loneNode 1000 :=
    ⟨_, hnear', by decide +kernel⟩
  have htell' : (soundPair "0x3e8" "0x3e9").Tells farNode 1001 := ⟨_, hfar', by decide +kernel⟩
  have hgiven : ∀ n ∈ [Capture.loneNode, farNode],
      ((soundPair "0x3e8" "0X3E8").replies n).Given := by
    simp only [List.forall_mem_cons, hnear, hfar]
    exact ⟨⟨nofun, nofun, nofun⟩, ⟨nofun, nofun, nofun⟩, nofun⟩
  obtain ⟨hcheck, -, -, -, hdisagree, -⟩ := agreement_exact [Capture.loneNode, farNode] hseats
    (soundPair "0x3e8" "0X3E8") (soundPair "0x3e8" "0x3e9") hgiven (by simp [hnear', hfar'])
  refine ⟨hseats, (hcheck 1000).2 ⟨List.cons_ne_nil _ _, ?_⟩, hdisagree.2 ⟨?_, fun height hall => ?_⟩⟩
  · simp only [List.forall_mem_cons, hnear, hfar]
    exact ⟨soundHost_inStep (by decide +kernel), soundHost_inStep (by decide +kernel), nofun⟩
  · simp only [List.forall_mem_cons]
    exact ⟨⟨_, htell⟩, ⟨_, htell'⟩, nofun⟩
  · have h1 := tells_unique htell (hall.2 _ (by simp))
    have h2 := tells_unique htell' (hall.2 _ (by simp))
    exact absurd (h1.trans h2.symm) (by decide)

end Agreement

end FleetSnapshot
