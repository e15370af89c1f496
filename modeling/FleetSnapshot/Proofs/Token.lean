import FleetSnapshot.Api
import FleetSnapshot.Proofs.Directory
import FleetSnapshot.Proofs.Rows
import FleetSnapshot.Proofs.Splitting
import Mathlib.Data.Nat.Bitwise

/-! What stands between a request and the records. Reading leaves them as they are, and so does
every request to protect something that comes without the token: its answer is settled before the
path is read for a number or the store for a row. -/

namespace FleetSnapshot

namespace Api

open Audit
open Audit.Query (Alike Leads)

section Token

variable {given expected : List Nat} {token : String} {header : Option String}

theorem difference_eq_zero (h : given.length = expected.length) :
    difference given expected = 0 ↔ given = expected := by
  induction expected generalizing given with
  | nil => simpa [difference] using h
  | cons e expected ih =>
    cases given with
    | nil => cases h
    | cons g given =>
      rw [difference, Nat.or_eq_zero_iff, List.headD_cons, List.tail_cons, ih (Nat.succ.inj h),
        Nat.xor_eq_zero_iff, List.cons.injEq, eq_comm (a := e)]

/-- To look at all of the expected bytes comes to comparing. -/
theorem tokensMatch_iff : tokensMatch given expected = true ↔ given = expected := by
  rw [tokensMatch, beq_iff_eq, Nat.or_eq_zero_iff, Nat.xor_eq_zero_iff]
  constructor
  · rintro ⟨hlength, hbytes⟩
    exact (difference_eq_zero hlength).1 hbytes
  · rintro rfl
    exact ⟨rfl, (difference_eq_zero rfl).2 rfl⟩

/-- The name of the scheme is taken off once at most. -/
theorem stripScheme_eq_iff {cs rest : List Char} :
    stripScheme cs = rest ↔
      cs = "Bearer ".toList ++ rest ∨ cs = rest ∧ ¬ "Bearer ".toList <+: cs := by
  rw [stripScheme, ← Bucket.strip?_isSome_iff]
  cases h : Text.strip? "Bearer ".toList cs with
  | some rest' => simp [Text.strip?_eq_some h]
  | none =>
    have hno : ¬ "Bearer ".toList <+: cs := by
      rw [← Bucket.strip?_isSome_iff, h]
      exact Bool.false_ne_true
    simp only [Option.getD_none, Option.isSome_none, Bool.false_eq_true, not_false_eq_true, and_true]
    exact ⟨Or.inr, fun h => h.resolve_left fun he => hno ⟨rest, he.symm⟩⟩

/-- The header gives the token, bare or behind the name of its scheme, with blanks around it. -/
def Gives (token : String) (header : Option String) : Prop :=
  ∃ h cs given, header = some h ∧ readable h = true ∧ cs = Text.trimChars h.toList ∧ cs ≠ [] ∧
    (cs = "Bearer ".toList ++ given ∨ cs = given ∧ ¬ "Bearer ".toList <+: cs) ∧
    Text.utf8 (String.ofList given) = Text.utf8 token

def complaint (header : Option String) : String :=
  match (header.filter readable).map fun h => Text.trimChars h.toList with
  | none | some [] => "Missing Authorization header"
  | some _ => "Invalid token"

theorem access_granted (h : Gives token header) : access token header = .granted := by
  obtain ⟨h, cs, given, rfl, hreadable, rfl, hne, hgiven, hsame⟩ := h
  obtain ⟨c, cs, hcs⟩ := List.exists_cons_of_ne_nil hne
  rw [hcs, ← stripScheme_eq_iff] at hgiven
  simp only [access, Option.filter_some, hreadable, if_true, Option.map_some, hcs, hgiven]
  rw [if_pos (tokensMatch_iff.2 hsame)]

theorem access_refused (h : ¬ Gives token header) :
    access token header = .missing ∧ complaint header = "Missing Authorization header" ∨
      access token header = .denied ∧ complaint header = "Invalid token" := by
  cases hheader : (header.filter readable).map fun h => Text.trimChars h.toList with
  | none => exact Or.inl ⟨by rw [access, hheader], by rw [complaint, hheader]⟩
  | some cs =>
    cases cs with
    | nil => exact Or.inl ⟨by rw [access, hheader], by rw [complaint, hheader]⟩
    | cons c cs =>
      refine Or.inr ⟨?_, by rw [complaint, hheader]⟩
      simp only [access, hheader]
      refine if_neg fun hmatch => h ?_
      obtain ⟨text, htext, hcs⟩ := Option.map_eq_some_iff.1 hheader
      obtain ⟨rfl, hreadable⟩ := Option.filter_eq_some_iff.1 htext
      exact ⟨text, _, _, rfl, hreadable, hcs.symm, List.cons_ne_nil _ _, stripScheme_eq_iff.1 rfl,
        tokensMatch_iff.1 hmatch⟩

example : access "secret" (some " Bearer secret\t") = .granted := by decide +kernel

end Token

/-! Answers and what they leave of the store. -/

/-- Every run leaves the rows and the triggers as they were. -/
def Idle {α : Type} (m : StateM Store α) : Prop := ∀ s, Alike s (m s).2

section Idle

variable {α β : Type}

def idOf? (segment : List Char) : Option Int :=
  (Text.ofUtf8? (Text.percentDecode (String.ofList segment))).bind fun s => Text.signed? s.toList

/-- The change of the store that protects a record, or lifts its protection. -/
def change (k : Kind) (id : Int) (value : Bool) : Query Bool :=
  match k with
  | .run => persistAttempt id value
  | .target => persistUpload id value

end Idle

section Respond

def Kind.plural : Kind → String
  | .run => "runs"
  | .target => "targets"

/-- The path of a request to protect a record, or to lift its protection. -/
def protectPath (k : Kind) (segment : List Char) (value : Bool) : List Char :=
  "/api/v1/".toList ++ (k.plural.toList ++ '/' :: (segment ++ '/' ::
    (if value then "persist" else "unpersist").toList))

variable {token : String} {gate : Gate} {q : Request} {k : Kind} {segment : List Char} {value : Bool}
  {s : Store}

theorem serves_persist {method : String} :
    (Route.persist k segment value).serves method = true ↔ method = "POST" := by
  rw [Route.serves, Route.writes, if_pos rfl, beq_iff_eq]

theorem respond_post (hmethod : q.method = "POST")
    (hroute : route? (splitUri q.uri).1 = some (.persist k segment value)) :
    respond token gate q = (do
      respondWith (← handle token gate (.persist k segment value) (splitUri q.uri).2 q.authorization)) := by
  simp only [respond, hroute, hmethod, serves_persist.2 rfl]
  rfl

theorem handle_given (hgives : Gives token q.authorization) (query : String) :
    handle token gate (.persist k segment value) query q.authorization =
      withId k segment (protect k · value) := by
  rw [handle, access_granted hgives]

/-- Without the token the path is not read any further, and neither is the store. -/
theorem handle_refused (hgives : ¬ Gives token q.authorization) (query : String) :
    handle token gate (.persist k segment value) query q.authorization =
      pure (.refuse 401 (complaint q.authorization)) := by
  rw [handle]
  rcases access_refused hgives with ⟨haccess, hcomplaint⟩ | ⟨haccess, hcomplaint⟩ <;>
    rw [haccess, hcomplaint]

theorem respond_refused (hmethod : q.method = "POST")
    (hroute : route? (splitUri q.uri).1 = some (.persist k segment value))
    (hgives : ¬ Gives token q.authorization) (s : Store) :
    respond token gate q s =
      (envelope 401 false .null (.text (complaint q.authorization)) (s.clock s.ticks),
        { s with ticks := s.ticks + 1 }) := by
  rw [respond_post hmethod hroute, handle_refused hgives, pure_bind]
  rfl

end Respond

/-- What a service guarded by a token lets a request do. -/
structure Guarded (token : String) : Prop where
  /-- Only a request to protect something that gives the token changes the records. -/
  opens : ∀ gate q s, ¬ Alike s (respond token gate q s).2 →
    q.method = "POST" ∧ Gives token q.authorization ∧
      ∃ k segment value, route? (splitUri q.uri).1 = some (.persist k segment value) ∧
        (splitUri q.uri).1 = protectPath k segment value
  /-- It changes them as protecting the record of its number does. -/
  changes : ∀ gate q s k segment value, q.method = "POST" →
    route? (splitUri q.uri).1 = some (.persist k segment value) → Gives token q.authorization →
      match idOf? segment with
      | some id => Alike (change k id value s).2 (respond token gate q s).2
      | none => Alike s (respond token gate q s).2
  /-- Any other header gets one answer, whatever is asked for and whatever is on record. -/
  refuses : ∀ gate q s k segment value, q.method = "POST" →
    route? (splitUri q.uri).1 = some (.persist k segment value) → ¬ Gives token q.authorization →
      respond token gate q s =
        (envelope 401 false .null (.text (complaint q.authorization)) (s.clock s.ticks),
          { s with ticks := s.ticks + 1 })

def persistRequest (header : String) : Request where
  method := "POST"
  uri := "/api/v1/runs/1/persist"
  authorization := some header

theorem persistRequest_route (header : String) :
    route? (splitUri (persistRequest header).uri).1 = some (.persist .run "1".toList true) := by
  have hroute : route? (splitUri "/api/v1/runs/1/persist").1 =
      some (.persist .run "1".toList true) := by decide +kernel
  exact hroute

end Api

end FleetSnapshot
