import FleetSnapshot.Session
import Mathlib.Data.List.Count

/-! One session and the commands sent through it one after another, with any transport beneath. What was
done is read off a log that the transport keeps, not off what the session tells. A session that has been
started has no connection in use exactly when a command has failed on the last one (`Tracks`): each call
keeps it so, and all that a call may do follows from it. -/

namespace FleetSnapshot

namespace Session

namespace Contact

def isConnected : Contact → Bool
  | .connected _ => true
  | _ => false

def isAttempt : Contact → Bool
  | .connected _ | .refused => true
  | .executed .. => false

def isExecution : Contact → Bool
  | .executed .. => true
  | _ => false

end Contact

def linked (log : List Contact) : Nat :=
  log.countP Contact.isConnected

/-- A connection on which a command has failed, for the transport's sake and not with a status. -/
def Lost (log : List Contact) (n : Nat) : Prop :=
  ∃ command reason, .executed n command (.error reason) ∈ log

/-- A command has failed on its connection, and no connection has been made since. -/
def Severed (log : List Contact) : Prop :=
  ∃ before n command reason since, log = before ++ .executed n command (.error reason) :: since ∧
    ∀ c ∈ since, c.isConnected = false

end Session

open Session (Contact linked)

/-- The same transport, with all that is done with it written down in order. Connections bear the numbers
in which they were made. -/
def Transport.logged {σ : Type} (t : Transport σ) : Transport (σ × List Contact) where
  connect user host port credentials w :=
    match t.connect user host port credentials w.1 with
    | (some (.ok ()), s) => (some (.ok ()), s, w.2 ++ [.connected (linked w.2)])
    | (answer, s) => (answer, s, w.2 ++ [.refused])
  execute n command w :=
    let (outcome, s) := t.execute n command w.1
    (outcome, s, w.2 ++ [.executed n command outcome])

namespace Session

variable {σ : Type} {s s' : Session} {log made : List Contact} {command : String} {n : Nat}
  {result : Except Error String}

/-- The session after commands sent one after another, whatever becomes of them. -/
def runs (t : Transport σ) : List String → Session → σ → Session × σ
  | [], s, w => (s, w)
  | command :: commands, s, w =>
    match run t command s w with
    | (_, _, s, w) => runs t commands s w

theorem linked_snoc (c : Contact) :
    linked (log ++ [c]) = linked log + if c.isConnected then 1 else 0 := by
  rw [linked, linked, List.countP_append, List.countP_singleton]

theorem lost_snoc {c : Contact} :
    Lost (log ++ [c]) n ↔ Lost log n ∨ ∃ command reason, c = .executed n command (.error reason) := by
  simp only [Lost, List.mem_append, List.mem_singleton, exists_or, eq_comm]

theorem severed_snoc {c : Contact} : Severed (log ++ [c]) ↔
    (∃ n command reason, c = .executed n command (.error reason)) ∨ Severed log ∧ c.isConnected = false := by
  constructor
  · rintro ⟨before, n, command, reason, since, heq, hsince⟩
    rcases List.eq_nil_or_concat since with rfl | ⟨since, last, rfl⟩
    · exact Or.inl ⟨n, command, reason, (List.append_inj' heq rfl).2 |> List.singleton_inj.1⟩
    · rw [List.concat_eq_append, ← List.cons_append, ← List.append_assoc] at heq
      obtain ⟨rfl, hlast⟩ := List.append_inj' heq rfl
      rw [List.singleton_inj.1 hlast]
      rw [List.concat_eq_append, List.forall_mem_append] at hsince
      exact Or.inr ⟨⟨before, n, command, reason, since, rfl, hsince.1⟩, hsince.2 last (by simp)⟩
  · rintro (⟨n, command, reason, rfl⟩ | ⟨⟨before, n, command, reason, since, rfl, hsince⟩, hc⟩)
    · exact ⟨log, n, command, reason, [], rfl, by simp⟩
    · refine ⟨before, n, command, reason, since ++ [c], by simp, ?_⟩
      exact List.forall_mem_append.2 ⟨hsince, by simpa using hc⟩

/-- A connection to send a command over: the one in use, or else one that is made for it. -/
inductive Linked (s : Session) : Nat → List Contact → Session → Prop
  | kept {n : Nat} (held : s.connection = some n) : Linked s n [] s
  | made (free : s.connection = none) :
    Linked s s.opened [.connected s.opened] { s with opened := s.opened + 1, connection := some s.opened }

inductive Exchange (s : Session) (command : String) :
    Except Error String → List Contact → Session → Prop
  | refused (free : s.connection = none) (reason : String) :
    Exchange s command (.error (.unreachable s.target.name reason)) [.refused] s
  | answered {n : Nat} {made : List Contact} {s' : Session} (via : Linked s n made s') (e : Exit) :
    Exchange s command (judge s'.target.name e) (made ++ [.executed n command (.ok e)]) s'
  | lost {n : Nat} {made : List Contact} {s' : Session} (via : Linked s n made s') (why reason : String) :
    Exchange s command (.error (.unreachable s'.target.name why))
      (made ++ [.executed n command (.error reason)]) { s' with connection := none }

/-- The number of a session agrees with the transport's, so the log tells what a session does. -/
theorem reach_logged (t : Transport σ) (w : σ) (log : List Contact) (hopened : s.opened = linked log) :
    (∃ reason w', s.connection = none ∧ reach t.logged s (w, log) =
      (.error (.unreachable s.target.name reason), [.refused], s, w', log ++ [.refused])) ∨
    ∃ n made s' w', Linked s n made s' ∧ reach t.logged s (w, log) = (.ok n, made, s', w', log ++ made) := by
  rw [reach]
  cases hheld : s.connection with
  | some n => exact Or.inr ⟨n, [], s, w, .kept hheld, by simp⟩
  | none =>
    rcases hconnect : t.connect s.target.user s.target.host s.target.sshPort s.credentials w with
      ⟨_ | (reason | ⟨⟩), w'⟩
    · simp only [Transport.logged, hconnect]
      exact Or.inl ⟨_, w', trivial, rfl⟩
    · simp only [Transport.logged, hconnect]
      exact Or.inl ⟨_, w', trivial, rfl⟩
    · exact Or.inr ⟨_, _, _, w', .made hheld, by simp only [Transport.logged, hconnect, hopened]⟩

/-- What a call comes to, and what it tells to have done is what the log got. -/
theorem run_exchange (t : Transport σ) (command : String) (w : σ) (hopened : s.opened = linked log) :
    ∃ result made s' w', Exchange s command result made s' ∧
      run t.logged command s (w, log) = (result, made, s', w', log ++ made) := by
  rw [run]
  rcases reach_logged t w log hopened with
    ⟨reason, w', hnone, hreach⟩ | ⟨n, made, s', w', hover, hreach⟩
  · exact ⟨_, _, _, w', .refused hnone reason, by rw [hreach]⟩
  · rw [hreach]
    rcases hexecute : t.execute n command w' with ⟨reason | e, w''⟩
    · simp only [Transport.logged, hexecute, List.append_assoc]
      exact ⟨_, _, _, w'', .lost hover _ reason, rfl⟩
    · simp only [Transport.logged, hexecute, List.append_assoc]
      exact ⟨_, _, _, w'', .answered hover e, rfl⟩

/-- What a session knows of the log: how many connections there were, and whether the last one still
stands. -/
structure Tracks (target : Config.Target) (s : Session) (log : List Contact) : Prop where
  target : s.target = target
  opened : s.opened = linked log
  severed : s.connection = none ↔ Severed log
  last : ∀ n, s.connection = some n → n + 1 = linked log ∧ ¬ Lost log n
  past : ∀ n, Lost log n → n < linked log

variable {target : Config.Target}

namespace Tracks

/-- What neither makes a connection nor loses one changes nothing. -/
theorem quiet (h : Tracks target s log) {c : Contact} (hconnected : c.isConnected = false)
    (hfailed : ∀ n command reason, c ≠ .executed n command (.error reason)) :
    Tracks target s (log ++ [c]) := by
  have hlinked : linked (log ++ [c]) = linked log := by simp [linked_snoc, hconnected]
  have hlost : ∀ n, Lost (log ++ [c]) n ↔ Lost log n := by simp [lost_snoc, hfailed]
  refine ⟨h.target, by rw [hlinked, h.opened], ?_, ?_, ?_⟩
  · simp [severed_snoc, hfailed, hconnected, h.severed]
  · intro n hn
    rw [hlinked, hlost]
    exact h.last n hn
  · intro n hn
    rw [hlinked]
    exact h.past n ((hlost n).1 hn)

/-- A connection that is made has a number that none had before. -/
theorem connect (htarget : s.target = target) (hopened : s.opened = linked log)
    (hpast : ∀ n, Lost log n → n < linked log) :
    Tracks target { s with opened := s.opened + 1, connection := some s.opened }
      (log ++ [.connected s.opened]) := by
  have hlinked : linked (log ++ [.connected s.opened]) = linked log + 1 := linked_snoc _
  have hlost : ∀ n, Lost (log ++ [.connected s.opened]) n ↔ Lost log n := by simp [lost_snoc]
  refine ⟨htarget, by rw [hlinked, hopened], ?_, ?_, ?_⟩
  · simp [severed_snoc, Contact.isConnected]
  · rintro n ⟨⟩
    rw [hlinked, hlost]
    exact ⟨by rw [hopened], fun hbefore => Nat.ne_of_lt (hpast _ hbefore) hopened⟩
  · intro n hn
    rw [hlinked]
    exact Nat.lt_succ_of_lt (hpast n ((hlost n).1 hn))

/-- A connection that fails under a command is given up, and it was the last one. -/
theorem lose (h : Tracks target s log) (hheld : s.connection = some n) (command reason : String) :
    Tracks target { s with connection := none } (log ++ [.executed n command (.error reason)]) := by
  have hlinked : linked (log ++ [.executed n command (.error reason)]) = linked log := linked_snoc _
  refine ⟨h.target, by rw [hlinked, ← h.opened], ?_, ?_, ?_⟩
  · simp [severed_snoc]
  · rintro k ⟨⟩
  · intro k hk
    rw [hlinked]
    rcases lost_snoc.1 hk with hbefore | ⟨_, _, hsame⟩
    · exact h.past k hbefore
    · cases hsame
      exact (h.last n hheld).1 ▸ Nat.lt_succ_self n

end Tracks

/-- To reach the host mends a session that has no connection, and changes nothing in one that has. -/
theorem Linked.tracks (h : Tracks target s log) (hover : Linked s n made s') :
    Tracks target s' (log ++ made) ∧ s'.connection = some n := by
  cases hover with
  | kept hheld => exact ⟨by rwa [List.append_nil], hheld⟩
  | made _ => exact ⟨.connect h.target h.opened h.past, rfl⟩

/-- One call keeps a session in step with the log, whatever the transport does. -/
theorem Exchange.tracks (h : Tracks target s log) (hcall : Exchange s command result made s') :
    Tracks target s' (log ++ made) := by
  cases hcall with
  | refused hnone reason => exact h.quiet rfl nofun
  | answered hover e =>
    rw [← List.append_assoc]
    exact (hover.tracks h).1.quiet rfl nofun
  | lost hover why reason =>
    rw [← List.append_assoc]
    obtain ⟨h', hheld⟩ := hover.tracks h
    exact h'.lose hheld command reason

/-- And so do all of them. -/
theorem runs_tracks (t : Transport σ) (commands : List String) {w w' : σ × List Contact}
    (h : Tracks target s w.2) (hruns : runs t.logged commands s w = (s', w')) :
    Tracks target s' w'.2 := by
  induction commands generalizing s w with
  | nil =>
    cases hruns
    exact h
  | cons command commands ih =>
    obtain ⟨result, made, s₁, w₁, hcall, hrun⟩ := run_exchange t command w.1 h.opened
    rw [runs, hrun] at hruns
    exact ih (hcall.tracks h) hruns

/-- A session that starts has made its first connection. -/
theorem start_tracks {t : Transport σ} {credentials : Credentials} {w : σ} {w' : σ × List Contact}
    (hstart : start t.logged credentials target (w, []) = (.ok s, w')) : Tracks target s w'.2 := by
  rw [start] at hstart
  rcases reach_logged (s := { target, credentials }) t w [] rfl with
    ⟨reason, w₁, -, hreach⟩ | ⟨n, made, s₁, w₁, hover, hreach⟩ <;> rw [hreach] at hstart <;> cases hstart
  cases hover with
  | kept hheld => cases hheld
  | made _ => exact .connect rfl rfl (by simp [Lost])

structure Conduct (command : String) (s : Session) (log made : List Contact) (s' : Session) : Prop where
  attempts : made.countP Contact.isAttempt ≤ 1
  executions : made.countP Contact.isExecution ≤ 1
  connects : made.countP Contact.isAttempt = 1 ↔ s.connection = none
  idle : s.connection = none ↔ Severed log
  /-- Only the command that was asked for, over the connection made last. -/
  sends : ∀ n c outcome, .executed n c outcome ∈ made → c = command ∧ n + 1 = linked (log ++ made)
  spares : ∀ n, Lost log n → ∀ c outcome, .executed n c outcome ∉ made
  uses : ∀ k, s.connection = some k → ∀ n c outcome, .executed n c outcome ∈ made → n = k
  /-- Whatever the status. -/
  keeps : ∀ n c e, .executed n c (.ok e) ∈ made → s'.connection = some n

structure Told (target command : String) (made : List Contact) (result : Except Error String) : Prop where
  ok : ∀ out, result = .ok out ↔
    ∃ n e, .executed n command (.ok e) ∈ made ∧ e.status = 0 ∧ out = Text.trim e.stdout
  failed : (∃ reason, result = .error (.commandFailed target reason)) ↔
    ∃ n e, .executed n command (.ok e) ∈ made ∧ e.status ≠ 0
  unreachable : (∃ reason, result = .error (.unreachable target reason)) ↔
    ∀ n e, .executed n command (.ok e) ∉ made

/-- A connection is asked for if there is none, and no command is sent with it. -/
theorem Linked.attempts (hover : Linked s n made s') :
    made.countP Contact.isAttempt = (if s.connection = none then 1 else 0) ∧
      ∀ k c outcome, Contact.executed k c outcome ∉ made := by
  cases hover with
  | kept hheld => simp [hheld]
  | made hnone => simp [hnone, Contact.isAttempt]

section Sent

variable (hover : Linked s n made s') {outcome : Except String Exit}
include hover

/-- Of all commands only its own is sent in a call. -/
theorem Linked.mem_sent {k : Nat} {c : String} {o : Except String Exit} :
    Contact.executed k c o ∈ made ++ [.executed n command outcome] ↔ k = n ∧ c = command ∧ o = outcome := by
  simp [hover.attempts.2]

/-- The one connection that is good: the last one made, on which nothing has failed, and no other than the
one in use. -/
theorem Tracks.good (h : Tracks target s log) :
    n + 1 = linked (log ++ made) ∧ ¬ Lost log n ∧ ∀ k, s.connection = some k → n = k := by
  obtain ⟨h', hheld⟩ := hover.tracks h
  obtain ⟨hlast, hlost⟩ := h'.last n hheld
  refine ⟨hlast, fun ⟨c, reason, hmem⟩ => hlost ⟨c, reason, List.mem_append_left _ hmem⟩, ?_⟩
  intro k hk
  cases hover with
  | kept hsame => exact Option.some.inj (hsame.symm.trans hk)
  | made hnone =>
    rw [hnone] at hk
    cases hk

/-- A call that sends its command, however the command ends. -/
theorem Tracks.sent (h : Tracks target s log) {last : Session}
    (hkeeps : ∀ e, outcome = .ok e → last.connection = some n) :
    Conduct command s log (made ++ [.executed n command outcome]) last := by
  have hattempts : (made ++ [Contact.executed n command outcome]).countP Contact.isAttempt =
      if s.connection = none then 1 else 0 := by
    simp [hover.attempts.1, Contact.isAttempt]
  have hexecutions : made.countP Contact.isExecution = 0 := by
    cases hover <;> rfl
  obtain ⟨hlast, hlost, huses⟩ := h.good hover
  refine ⟨?_, ?_, ?_, h.severed, ?_, ?_, ?_, ?_⟩
  · rw [hattempts]
    split <;> decide
  · simp [hexecutions, Contact.isExecution]
  · rw [hattempts]
    simp
  · intro k c o hmem
    obtain ⟨rfl, rfl, rfl⟩ := hover.mem_sent.1 hmem
    refine ⟨rfl, ?_⟩
    rw [← List.append_assoc, linked_snoc]
    exact hlast
  · intro k hk c o hmem
    obtain ⟨rfl, -, -⟩ := hover.mem_sent.1 hmem
    exact hlost hk
  · intro k hk m c o hmem
    obtain ⟨rfl, -, -⟩ := hover.mem_sent.1 hmem
    exact huses k hk
  · intro k c e hmem
    obtain ⟨rfl, -, hok⟩ := hover.mem_sent.1 hmem
    exact hkeeps e hok.symm

end Sent

theorem Exchange.conduct (h : Tracks target s log) (hcall : Exchange s command result made s') :
    Conduct command s log made s' := by
  cases hcall with
  | refused hnone reason =>
    exact ⟨Nat.le_refl 1, Nat.zero_le _, ⟨fun _ => hnone, fun _ => rfl⟩, h.severed, by simp, by simp,
      by simp, by simp⟩
  | answered hover e => exact h.sent hover fun _ _ => (hover.tracks h).2
  | lost hover why reason => exact h.sent hover nofun

theorem judge_cases (name : String) (e : Exit) :
    e.status = 0 ∧ judge name e = .ok (Text.trim e.stdout) ∨
      e.status ≠ 0 ∧ ∃ reason, judge name e = .error (.commandFailed name reason) := by
  by_cases hstatus : e.status = 0
  · exact Or.inl ⟨hstatus, by rw [judge, if_pos hstatus]⟩
  · exact Or.inr ⟨hstatus, _, by rw [judge, if_neg hstatus]⟩

theorem Exchange.told (h : Tracks target s log) (hcall : Exchange s command result made s') :
    Told target.name command made result := by
  cases hcall with
  | refused hnone reason =>
    rw [h.target]
    exact ⟨by simp, by simp, by simp⟩
  | answered hover e =>
    rw [(hover.tracks h).1.target]
    rcases judge_cases target.name e with ⟨hstatus, hjudge⟩ | ⟨hstatus, reason, hjudge⟩ <;> rw [hjudge]
    · exact ⟨by simp [hover.mem_sent, hstatus, eq_comm], by simp [hover.mem_sent, hstatus],
        by simp [hover.mem_sent]⟩
    · exact ⟨by simp [hover.mem_sent, hstatus], by simp [hover.mem_sent, hstatus],
        by simp [hover.mem_sent]⟩
  | lost hover why reason =>
    rw [(hover.tracks h).1.target]
    exact ⟨by simp [hover.mem_sent], by simp [hover.mem_sent], by simp [hover.mem_sent]⟩

/-- Whatever commands went before, and whatever the transport makes of any of them. Then a call asks for a
connection at most once, which it does just when the last one is lost, and sends its command at most
once, over the connection made last. One that was lost is never used again, and one that gave any
status is kept. What the call tells is just what came of the command. -/
theorem session_reused {t : Transport σ} {credentials : Credentials} {target : Config.Target} {w : σ}
    {s : Session} {w' : σ × List Contact}
    (hstart : start t.logged credentials target (w, []) = (.ok s, w')) (before : List String)
    (command : String) {s₁ s₂ : Session} {w₁ w₂ : σ × List Contact} {result : Except Error String}
    {made : List Contact} (hbefore : runs t.logged before s w' = (s₁, w₁))
    (hrun : run t.logged command s₁ w₁ = (result, made, s₂, w₂)) :
    w₂.2 = w₁.2 ++ made ∧ Conduct command s₁ w₁.2 made s₂ ∧ Told target.name command made result := by
  have h := runs_tracks t before (start_tracks hstart) hbefore
  obtain ⟨_, _, _, _, hcall, hsame⟩ := run_exchange t command w₁.1 h.opened
  rw [hrun] at hsame
  cases hsame
  exact ⟨rfl, hcall.conduct h, hcall.told h⟩

/-- A host that loses its connection under the second thing asked of it, refuses the third, and has no
command succeed. -/
def moody : Transport Nat where
  connect _ _ _ _ w := (if w = 2 then some (.error "Connection refused") else some (.ok ()), w + 1)
  execute _ _ w :=
    (if w = 1 then .error "Channel closed" else .ok { status := 3, stdout := " no such node " }, w + 1)

def begun : Session where
  target := { name := "geth", host := "localhost", user := "ops", dataDir := "/data", uploadPrefix := "geth" }
  credentials := { privateKey := "key", passphrase := none, knownHostsPath := none, connectTimeout := 10 }
  opened := 1
  connection := some 0

def mishap : List Contact :=
  [.connected 0, .executed 0 "stop" (.error "Channel closed"), .refused]

/-- The third call makes a new connection, and keeps it for all that the command fails. -/
theorem session_reused_moody :
    start moody.logged begun.credentials begun.target (0, []) = (.ok begun, 1, [.connected 0]) ∧
      runs moody.logged ["stop", "stop"] begun (1, [.connected 0]) =
        ({ begun with connection := none }, 3, mishap) ∧
      Conduct "start" { begun with connection := none } mishap
        [.connected 1, .executed 1 "start" (.ok { status := 3, stdout := " no such node " })]
        { begun with opened := 2, connection := some 1 } ∧
      Told "geth" "start"
        [.connected 1, .executed 1 "start" (.ok { status := 3, stdout := " no such node " })]
        (judge "geth" { status := 3, stdout := " no such node " }) := by
  have hstart : start moody.logged begun.credentials begun.target (0, []) = (.ok begun, 1, [.connected 0]) :=
    rfl
  have hbefore : runs moody.logged ["stop", "stop"] begun (1, [.connected 0]) =
      ({ begun with connection := none }, 3, mishap) := rfl
  exact ⟨hstart, hbefore, (session_reused hstart _ "start" hbefore rfl).2⟩

end Session

end FleetSnapshot
