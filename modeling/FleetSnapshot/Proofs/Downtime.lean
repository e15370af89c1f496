import FleetSnapshot.Proofs.Trace

/-! Containers that are stopped and started, as the journal tells it. A command that stops or starts
a container is known by its text, and none of the other commands to a node has such a text. -/

namespace FleetSnapshot

open Node

namespace Event

def Stops (node : Nat) (container : String) : Event → Prop
  | .command n _ text (.output _) => n = node ∧ ∃ force, text = stopCommand container force
  | _ => False

def Starts (node : Nat) (container : String) : Event → Prop
  | .command n _ text (.output _) => n = node ∧ text = startCommand container
  | _ => False

end Event

def Restarted (es : List Event) : Prop :=
  ∀ before e after node container, es = before ++ e :: after → e.Stops node container →
    ∃ e' ∈ after, e'.Starts node container

def Down (es : List Event) (node : Nat) (container : String) : Prop :=
  ∃ before e after, es = before ++ e :: after ∧ e.Stops node container ∧
    ∀ e' ∈ after, ¬ e'.Starts node container

theorem restarted_of_up {es : List Event} (h : ∀ node container, ¬ Down es node container) :
    Restarted es := by
  intro before e after node container hes hstop
  by_cases hstart : ∃ e' ∈ after, e'.Starts node container
  · exact hstart
  · refine absurd ⟨before, e, after, hes, hstop, fun e' he' hs => ?_⟩ (h node container)
    exact hstart ⟨e', he', hs⟩

theorem restarted_iff_unstopped {es : List Event}
    (h : ∀ e ∈ es, ∀ node container, ¬ e.Starts node container) :
    Restarted es ↔ ∀ e ∈ es, ∀ node container, ¬ e.Stops node container := by
  constructor
  · intro hr e he node container hs
    obtain ⟨before, after, rfl⟩ := List.append_of_mem he
    obtain ⟨e', he', hs'⟩ := hr before e after node container rfl hs
    exact h e' (List.mem_append_right _ (List.mem_cons_of_mem _ he')) node container hs'
  · rintro hno before e after node container rfl hs
    exact absurd hs (hno e (List.mem_append_right _ List.mem_cons_self) node container)

theorem not_down_nil (node : Nat) (container : String) : ¬ Down [] node container := by
  rintro ⟨before, e, after, hes, -⟩
  cases before <;> cases hes

theorem down_snoc {es : List Event} {e : Event} {node : Nat} {container : String}
    (h : Down (es ++ [e]) node container) :
    e.Stops node container ∨ Down es node container ∧ ¬ e.Starts node container := by
  obtain ⟨before, e', after, hes, hstop, hno⟩ := h
  rcases List.eq_nil_or_concat after with rfl | ⟨after, e'', rfl⟩
  · obtain ⟨-, h⟩ := List.append_inj' hes rfl
    rw [List.singleton_inj.1 h]
    exact Or.inl hstop
  · rw [List.concat_eq_append, ← List.cons_append, ← List.append_assoc] at hes
    obtain ⟨hes, h⟩ := List.append_inj' hes rfl
    rw [List.singleton_inj.1 h]
    refine Or.inr ⟨⟨before, e', after, hes, hstop, fun e he => hno e ?_⟩, hno e'' ?_⟩
    · rw [List.concat_eq_append]
      exact List.mem_append_left _ he
    · simp

section Words

def Idle (text : String) : Prop :=
  ∀ container, text ≠ startCommand container ∧ ∀ force, text ≠ stopCommand container force

theorem stopCommand_inj {c c' : String} {f f' : Bool} (h : stopCommand c f = stopCommand c' f') :
    c = c' := by
  have hl := congrArg String.toList h
  cases f <;> cases f' <;> simp [stopCommand, String.toList_append] at hl
  all_goals exact String.toList_inj.1 hl

theorem start_ne_stop (c c' : String) (f : Bool) : startCommand c ≠ stopCommand c' f := by
  intro h
  have hl := congrArg String.toList h
  simp [startCommand, stopCommand, String.toList_append] at hl

/-- The text and the common opening of stops and starts part before either ends. -/
def Foreign (text : String) : Prop :=
  ¬ text.toList <+: "docker st".toList ∧ ¬ "docker st".toList <+: text.toList

instance (text : String) : Decidable (Foreign text) := inferInstanceAs (Decidable (_ ∧ _))

theorem Foreign.append {text : String} (h : Foreign text) (rest : String) :
    Foreign (text ++ rest) := by
  rw [Foreign, String.toList_append]
  refine ⟨fun hp => h.1 ((List.prefix_append _ _).trans hp), fun hp => ?_⟩
  rcases List.prefix_or_prefix_of_prefix hp (List.prefix_append _ _) with hp | hp
  · exact h.2 hp
  · exact h.1 hp

theorem Foreign.idle {text : String} (h : Foreign text) : Idle text := by
  have apart : ∀ tail : String, text ≠ "docker st" ++ tail := by
    intro tail he
    apply h.2
    rw [he, String.toList_append]
    exact List.prefix_append _ _
  refine fun c => ⟨fun he => apart ("art \"" ++ c ++ "\"") ?_, fun f he =>
    apart ("op " ++ (if f then "-t 0 " else "") ++ "\"" ++ c ++ "\"") ?_⟩
  · rw [he, startCommand, ← String.append_assoc, ← String.append_assoc]
    rfl
  · rw [he, stopCommand]
    simp only [← String.append_assoc]
    rfl

theorem foreign_rpcCommand (n : Node) (request : String) : Foreign (n.rpcCommand request) := by
  have h : Foreign "curl -s -X POST -H \"Content-Type: application/json\" --data " := by
    decide +kernel
  exact (((h.append _).append _).append _).append _

theorem foreign_dumpCommand (n : Node) (request path : String) :
    Foreign (n.dumpCommand request path) :=
  (((foreign_rpcCommand n request).append _).append _).append _

theorem foreign_inspectCommand (n : Node) : Foreign n.inspectCommand := by
  have h : Foreign "docker inspect --format '\x7b\x7b.Config.Image\x7d\x7d' \"" := by
    decide +kernel
  exact (h.append _).append _

theorem foreign_metadataCommand (n : Node) (dir image : String) (height : UInt64) :
    Foreign (n.metadataCommand dir image height) := by
  have h : Foreign "echo " := by decide +kernel
  exact (((((h.append _).append _).append _).append _).append _).append _

theorem foreign_uploadCommand (n : Node) (dir pre : String) (height : UInt64) :
    Foreign (n.uploadCommand dir pre height) := by
  have h : Foreign "docker run --rm -v " := by decide +kernel
  exact (((((((((h.append _).append _).append _).append _).append _).append _).append _).append
    _).append _).append _

end Words

/-- Whatever is down is on a host that there is, and on the list. -/
def Owes (hosts : Nat) (owed : List (Nat × String)) (es : List Event) : Prop :=
  ∀ node container, Down es node container → node < hosts ∧ (node, container) ∈ owed

section Owes

variable {hosts node : Nat} {owed : List (Nat × String)} {t : Trace} {container : String}
  {reply : Reply}

theorem owes_nil : Owes hosts owed [] := fun node container h =>
  absurd h (not_down_nil node container)

theorem Owes.restarted {es : List Event} (h : Owes hosts [] es) : Restarted es :=
  restarted_of_up fun node container hd => nomatch (h node container hd).2

theorem Owes.mono {owed' : List (Nat × String)} {es : List Event} (h : Owes hosts owed es)
    (hsub : owed ⊆ owed') : Owes hosts owed' es := fun node container hd =>
  ⟨(h node container hd).1, hsub (h node container hd).2⟩

theorem Owes.snoc {es : List Event} {e : Event} (h : Owes hosts owed es)
    (he : ∀ node container, e.Stops node container → node < hosts ∧ (node, container) ∈ owed) :
    Owes hosts owed (es ++ [e]) := by
  intro node container hd
  rcases down_snoc hd with hs | ⟨hd, -⟩
  · exact he node container hs
  · exact h node container hd

/-- What a command stops has to be on the list. -/
theorem Owes.command {text : String} (h : Owes hosts owed t.events)
    (hstop : ∀ container force, text = stopCommand container force → (node, container) ∈ owed) :
    Owes hosts owed (t.after hosts (.command node text) reply).events := by
  simp only [Trace.after]
  split
  case isFalse => exact h
  case isTrue hnode =>
    refine h.snoc fun node' container hs => ?_
    cases reply with
    | output out =>
      obtain ⟨rfl, force, htext⟩ := hs
      exact ⟨hnode, hstop container force htext⟩
    | _ => exact hs.elim

/-- What is started comes off the list. -/
theorem Owes.start {out : String} (h : Owes hosts ((node, container) :: owed) t.events) :
    Owes hosts owed
      (t.after hosts (.command node (startCommand container)) (.output out)).events := by
  intro node' container' hd
  simp only [Trace.after] at hd
  split at hd
  case isFalse hnode =>
    obtain ⟨hlt, hmem⟩ := h node' container' hd
    rcases List.mem_cons.1 hmem with heq | hmem
    · cases heq
      exact absurd hlt hnode
    · exact ⟨hlt, hmem⟩
  case isTrue hnode =>
    rcases down_snoc hd with ⟨rfl, force, htext⟩ | ⟨hd, hno⟩
    · exact absurd htext (start_ne_stop container container' force)
    · obtain ⟨hlt, hmem⟩ := h node' container' hd
      rcases List.mem_cons.1 hmem with heq | hmem
      · cases heq
        exact absurd ⟨rfl, rfl⟩ hno
      · exact ⟨hlt, hmem⟩

end Owes

/-- Nothing has been started, and what is down is on the list. -/
structure Quiet (hosts : Nat) (owed : List (Nat × String)) (t : Trace) : Prop where
  unstarted : ∀ e ∈ t.events, ∀ node container, ¬ e.Starts node container
  owes : Owes hosts owed t.events

end FleetSnapshot
