import FleetSnapshot.Config
import FleetSnapshot.Proofs.Token
import FleetSnapshot.Proofs.Trimming

/-! Which tokens open the service. A configuration is taken with any token that is not blank, while a
header is looked at without the blanks around it and without the name of its scheme, and what is left
of it has to be the token as it is configured. So no header gives a token that ends in a blank, and
one that begins with a blank or with the name of the scheme has to stand behind that name. -/

namespace FleetSnapshot

namespace Text

variable {cs : List Char}

theorem utf8_ascii (h : ∀ c ∈ cs, c.toNat < 0x80) : utf8 (String.ofList cs) = cs.map Char.toNat := by
  rw [utf8, String.toList_ofList]
  induction cs with
  | nil => rfl
  | cons c cs ih =>
    obtain ⟨hc, hcs⟩ := List.forall_mem_cons.1 h
    rw [List.flatMap_cons, ih hcs, utf8Char, if_pos hc]
    rfl

end Text

theorem Config.token_not_blank {c : Config} (h : c.validate = .ok ()) :
    Text.blank c.server.apiToken = false := by
  by_contra hblank
  rw [Bool.not_eq_false] at hblank
  have hfault : c.fault? ≠ none := by
    unfold Config.fault?
    split_ifs <;> exact nofun
  unfold Config.validate at h
  split at h
  · cases h
  · exact hfault ‹_›

namespace Api

open Audit

section Header

variable {token header : String} {cs given : List Char}

theorem ascii_of_readable (h : readable header = true) : ∀ c ∈ header.toList, c.toNat < 0x80 := by
  intro c hc
  have hchar := List.all_eq_true.1 h c hc
  simp only [Bool.or_eq_true, beq_iff_eq, Bool.and_eq_true, decide_eq_true_eq] at hchar
  rcases hchar with rfl | ⟨-, hlt⟩
  · decide
  · omega

/-- Of texts that a header can carry, the bytes are the same only if the letters are. -/
theorem eq_of_utf8 (htoken : readable token = true) (hgiven : ∀ c ∈ given, c.toNat < 0x80)
    (h : Text.utf8 (String.ofList given) = Text.utf8 token) : given = token.toList := by
  rw [← String.ofList_toList (s := token), Text.utf8_ascii hgiven,
    Text.utf8_ascii (ascii_of_readable htoken)] at h
  exact List.map_injective_iff.2 (fun _ _ => Char.toNat_inj.1) h

theorem gives_iff (htoken : readable token = true) (hheader : readable header = true) :
    Gives token (some header) ↔ Text.trimChars header.toList ≠ [] ∧
      (Text.trimChars header.toList = "Bearer ".toList ++ token.toList ∨
        Text.trimChars header.toList = token.toList ∧
          ¬ "Bearer ".toList <+: Text.trimChars header.toList) := by
  constructor
  · rintro ⟨h, cs, given, hh, -, rfl, hne, hgiven, hsame⟩
    obtain rfl := Option.some.inj hh
    have hascii : ∀ c ∈ Text.trimChars header.toList, c.toNat < 0x80 := fun c hc =>
      ascii_of_readable hheader c ((Text.trimChars_sublist _).mem hc)
    have hmem : ∀ c ∈ given, c ∈ Text.trimChars header.toList := by
      rcases hgiven with h | ⟨h, -⟩
      · exact fun c hc => h ▸ List.mem_append_right _ hc
      · exact fun c hc => h ▸ hc
    rw [eq_of_utf8 htoken (fun c hc => hascii c (hmem c hc)) hsame] at hgiven
    exact ⟨hne, hgiven⟩
  · rintro ⟨hne, hgiven⟩
    exact ⟨header, _, token.toList, rfl, hheader, rfl, hne, hgiven, by rw [String.ofList_toList]⟩

variable (htoken : readable token = true) (hsome : Text.blank token = false)

include htoken hsome

theorem gives_itself :
    Gives token (some token) ↔ Text.trim token = token ∧ ¬ "Bearer ".toList <+: token.toList := by
  have hne : token.toList ≠ [] := by
    intro hnil
    rw [Text.blank, hnil] at hsome
    cases hsome
  rw [gives_iff htoken htoken]
  constructor
  · rintro ⟨-, hlong | ⟨hsame, hbare⟩⟩
    · have hle := (Text.trimChars_sublist token.toList).length_le
      rw [hlong, List.length_append] at hle
      exact absurd hle (by simp)
    · rw [hsame] at hbare
      exact ⟨by rw [Text.trim, hsame, String.ofList_toList], hbare⟩
  · rintro ⟨htrim, hbare⟩
    have hsame : Text.trimChars token.toList = token.toList := by
      rw [Text.trim] at htrim
      exact String.toList_ofList.symm.trans (congrArg String.toList htrim)
    rw [hsame]
    exact ⟨hne, Or.inr ⟨rfl, hbare⟩⟩

theorem gives_behind_scheme :
    Gives token (some ("Bearer " ++ token)) ↔ Text.trimEnd token.toList = token.toList := by
  have hheader : readable ("Bearer " ++ token) = true := by
    rw [readable, String.toList_append, List.all_append, Bool.and_eq_true]
    exact ⟨by decide, htoken⟩
  have htrim : Text.trimChars ("Bearer " ++ token).toList =
      "Bearer ".toList ++ Text.trimEnd token.toList := by
    rw [String.toList_append, ← Text.trimEnd_append hsome]
    rfl
  rw [gives_iff htoken hheader, htrim]
  constructor
  · rintro ⟨-, hsame | ⟨-, hbare⟩⟩
    · exact List.append_cancel_left hsame
    · exact absurd (List.prefix_append _ _) hbare
  · intro hsame
    rw [hsame]
    exact ⟨by simp, Or.inl rfl⟩

/-- A header ends in no blank once it is looked at, and neither does the token that it gives. -/
theorem trimEnd_of_gives {header : Option String} (h : Gives token header) :
    Text.trimEnd token.toList = token.toList := by
  have hends := h
  obtain ⟨text, -, -, rfl, hreadable, -⟩ := hends
  have hends := Text.trimEnd_trimChars text.toList
  rcases ((gives_iff htoken hreadable).1 h).2 with hgiven | ⟨hgiven, -⟩
  · rw [hgiven, Text.trimEnd_append hsome] at hends
    exact List.append_cancel_left hends
  · rwa [hgiven] at hends

end Header

section Answers

def Answer.code : Answer → Nat
  | .data _ => 200
  | .refuse code _ => code
  | .plain code _ => code

theorem respondWith_code (a : Answer) (s : Store) : (respondWith a s).1.code = a.code := by
  cases a <;> rfl

/-- No run comes to the answer for a wrong token. -/
def Passes (m : StateM Store Answer) : Prop := ∀ s, (m s).1.code ≠ 401

theorem passes_pure {a : Answer} (h : a.code ≠ 401) : Passes (pure a) := fun _ => h

theorem passes_bind {α : Type} {m : StateM Store α} {f : α → StateM Store Answer}
    (hf : ∀ a, Passes (f a)) : Passes (m >>= f) :=
  fun s => hf (m s).1 (m s).2

theorem passes_notFound (k : Kind) : Passes (pure (notFound k)) := by
  cases k <;> exact passes_pure (by simp [notFound, Answer.code])

theorem passes_broken (k : Kind) (verb : String) : Passes (pure (broken k verb)) := by
  cases k <;> exact passes_pure (by simp [broken, Answer.code])

theorem passes_showRecord (k : Kind) (id : Int) : Passes (showRecord k id) := by
  refine passes_bind fun result => ?_
  rcases result with _ | _ | _
  · exact passes_broken k "get"
  · exact passes_notFound k
  · exact passes_pure (by simp [Answer.code])

theorem passes_protect (k : Kind) (id : Int) (value : Bool) : Passes (protect k id value) := by
  refine passes_bind fun result => ?_
  rcases result with _ | _ | _
  · exact passes_broken k "update"
  · exact passes_notFound k
  · exact passes_showRecord k id

theorem passes_withId {k : Kind} {next : Int → StateM Store Answer} (h : ∀ id, Passes (next id))
    (segment : List Char) : Passes (withId k segment next) := by
  rw [withId]
  split
  · exact passes_pure (by simp [Answer.code])
  · split
    · exact passes_pure (by simp [Answer.code])
    · exact h _

end Answers

/-- Every request to protect something passes with this header, whatever is on record. -/
def Authorised (token header : String) : Prop :=
  ∀ gate q s k segment value, q.method = "POST" →
    route? (splitUri q.uri).1 = some (.persist k segment value) → q.authorization = some header →
    (respond token gate q s).1.code ≠ 401

def Refused (token header : String) : Prop :=
  ∀ gate q s k segment value, q.method = "POST" →
    route? (splitUri q.uri).1 = some (.persist k segment value) → q.authorization = some header →
    (respond token gate q s).1.code = 401

theorem authorised_of_gives {token header : String} (h : Gives token (some header)) :
    Authorised token header := by
  intro gate q s k segment value hmethod hroute hheader
  rw [← hheader] at h
  rw [respond_post hmethod hroute, handle_given h]
  have hpasses := passes_withId (k := k) (fun id => passes_protect k id value) segment s
  change (respondWith (withId k segment (protect k · value) s).1 _).1.code ≠ 401
  rwa [respondWith_code]

theorem refused_of_not_gives {token header : String} (h : ¬ Gives token (some header)) :
    Refused token header := by
  intro gate q s k segment value hmethod hroute hheader
  rw [← hheader] at h
  rw [respond_refused hmethod hroute h]
  rfl

theorem authorised_iff (token header : String) :
    Authorised token header ↔ Gives token (some header) := by
  refine ⟨fun h => by_contra fun hno => ?_, authorised_of_gives⟩
  have hroute := persistRequest_route header
  have hrefused := refused_of_not_gives hno { blockInterval := 0 } (persistRequest header)
    { clock := fun _ => default } _ _ _ rfl hroute rfl
  exact h _ _ _ _ _ _ rfl hroute rfl hrefused

/-- A header opens the service for all requests or for none. Of the tokens that a configuration may
have and a header can carry, some header gives just those that end in no blank, and then the token
behind the name of its scheme does; the token itself does if moreover it begins neither with a blank
nor with that name. -/
theorem token_usable (c : Config) (hvalid : c.validate = .ok ())
    (hcarried : readable c.server.apiToken = true) :
    (∀ header, Authorised c.server.apiToken header ∨ Refused c.server.apiToken header) ∧
      ((∃ header, Authorised c.server.apiToken header) ↔
        Text.trimEnd c.server.apiToken.toList = c.server.apiToken.toList) ∧
      (Authorised c.server.apiToken ("Bearer " ++ c.server.apiToken) ↔
        Text.trimEnd c.server.apiToken.toList = c.server.apiToken.toList) ∧
      (Authorised c.server.apiToken c.server.apiToken ↔
        Text.trim c.server.apiToken = c.server.apiToken ∧
          ¬ "Bearer ".toList <+: c.server.apiToken.toList) ∧
      (Authorised c.server.apiToken c.server.apiToken ∧
          Authorised c.server.apiToken ("Bearer " ++ c.server.apiToken) ↔
        Text.trim c.server.apiToken = c.server.apiToken ∧
          ¬ "Bearer ".toList <+: c.server.apiToken.toList) := by
  have hsome := Config.token_not_blank hvalid
  have hbare := gives_itself hcarried hsome
  have hscheme := gives_behind_scheme hcarried hsome
  simp only [authorised_iff]
  refine ⟨fun header => ?_, ⟨?_, fun hends => ⟨_, hscheme.2 hends⟩⟩, hscheme, hbare, ?_⟩
  · rw [← authorised_iff]
    by_cases h : Gives c.server.apiToken (some header)
    · exact Or.inl (authorised_of_gives h)
    · exact Or.inr (refused_of_not_gives h)
  · rintro ⟨header, h⟩
    exact trimEnd_of_gives hcarried hsome h
  · rw [hbare]
    exact ⟨And.left, fun h => ⟨h, hscheme.2 (trimEnd_of_gives hcarried hsome (hbare.2 h))⟩⟩

def guardedBy (apiToken : String) : Config where
  chainId := "1"
  snapshots := { blockInterval := 1000 }
  server := { apiToken }
  targets := [{ name := "geth-1", host := "h", user := "u", dataDir := "/data", uploadPrefix := "p" }]

theorem token_usable_plain :
    (guardedBy "s3 cret").validate = .ok () ∧ readable "s3 cret" = true ∧
      Authorised "s3 cret" "s3 cret" ∧ Authorised "s3 cret" "Bearer s3 cret" := by
  have hvalid : (guardedBy "s3 cret").validate = .ok () := by decide +kernel
  have hcarried : readable "s3 cret" = true := by decide +kernel
  obtain ⟨-, -, -, -, hboth⟩ := token_usable (guardedBy "s3 cret") hvalid hcarried
  exact ⟨hvalid, hcarried, hboth.2 (by decide +kernel)⟩

/-- What comes of a request to protect a record that is not there. -/
def codeFor (token header : String) : Nat :=
  (respond token { blockInterval := 1000 } (persistRequest header) { clock := fun _ => default }).1.code

example : codeFor "s3 cret" "Bearer s3 cret" = 404 := by decide +kernel

/-- A token that begins with the name of the scheme is turned away when it comes as it is, and one
that ends in a blank is turned away either way. -/
theorem token_locked_out :
    ((guardedBy "Bearer s3cret").validate = .ok () ∧ readable "Bearer s3cret" = true ∧
        codeFor "Bearer s3cret" "Bearer s3cret" = 401) ∧
      (guardedBy "s3cret ").validate = .ok () ∧ readable "s3cret " = true ∧
        codeFor "s3cret " "s3cret " = 401 ∧ codeFor "s3cret " "Bearer s3cret " = 401 := by
  decide +kernel

end Api

end FleetSnapshot
