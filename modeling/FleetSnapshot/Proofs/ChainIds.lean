import FleetSnapshot.Proofs.Agreement
import FleetSnapshot.Proofs.Digits
import FleetSnapshot.Proofs.Trimming

/-! Chain identifiers. Two tests decide whether they agree, one for numbers and one for names, but the
number of a text is a matter of what the other test compares: the text without the blanks around it,
in small letters. So agreement is an equivalence, the spellings of a number are a class of it, and a
fleet that agrees with what it is configured for agrees among itself. -/

namespace FleetSnapshot

namespace ChainId

theorem read?_eq_some_iff (s : String) (v : UInt64) : Quantity.read? s = some v ↔
    ∃ x rest, Text.peel (· == '"') (Text.peel Text.isBlank s.toList) = '0' :: x :: rest ∧
      (x = 'x' ∨ x = 'X') ∧ rest ≠ [] ∧
      (Text.word? 16 UInt64.size rest).map UInt64.ofNat = some v := by
  have hbody : Quantity.stripQuotes (Text.trimChars s.toList) =
      Text.peel (· == '"') (Text.peel Text.isBlank s.toList) := rfl
  rw [Quantity.read?, hbody]
  split
  · next x rest heq =>
    rw [heq]
    simp only [Option.ite_none_right_eq_some, Bool.and_eq_true, decide_eq_true_eq, Bool.or_eq_true,
      Bool.not_eq_true', List.isEmpty_eq_false_iff, and_assoc]
    constructor
    · rintro h
      exact ⟨x, rest, rfl, h⟩
    · rintro ⟨x', rest', hsame, h⟩
      cases hsame
      exact h
  · next hno =>
    refine ⟨nofun, ?_⟩
    rintro ⟨x, rest, heq, -⟩
    exact absurd heq (hno x rest)

theorem isQuote_toLower (c : Char) : (c.toLower == '"') = (c == '"') := by
  rw [Bool.eq_iff_iff, beq_iff_eq, beq_iff_eq, Text.toLower_eq_iff (by decide) (by decide)]

theorem isX_of_toLower {x y : Char} (h : x = 'x' ∨ x = 'X') (hsame : y.toLower = x.toLower) :
    y = 'x' ∨ y = 'X' := by
  have hx : y.toLower = 'x' := by
    rcases h with rfl | rfl <;> exact hsame
  rcases Text.toLower_cases y with hy | ⟨-, -, hy⟩
  · exact Or.inl (hy.symm.trans hx)
  · rw [hx] at hy
    exact Or.inr (Char.toNat_inj.1 (by simp at hy ⊢; omega))

/-- A number is read alike in texts that are the same in small letters. -/
theorem read?_of_fold {a b : String} {v : UInt64}
    (h : (Text.peel Text.isBlank a.toList).map Char.toLower =
      (Text.peel Text.isBlank b.toList).map Char.toLower)
    (ha : Quantity.read? a = some v) : Quantity.read? b = some v := by
  rw [read?_eq_some_iff] at ha ⊢
  obtain ⟨x, rest, hbody, hx, hrest, hvalue⟩ := ha
  have hquotes := congrArg (Text.peel (· == '"')) h
  rw [Text.peel_map isQuote_toLower, Text.peel_map isQuote_toLower, hbody, eq_comm,
    List.map_cons, List.map_cons, List.map_eq_cons_iff] at hquotes
  obtain ⟨zero, tail, hbody', hzero, htail⟩ := hquotes
  obtain ⟨x', rest', rfl, hx', hrest'⟩ := List.map_eq_cons_iff.1 htail
  have hzero' : zero = '0' := (Text.toLower_eq_iff (by decide) (by decide)).1 hzero
  refine ⟨x', rest', hzero' ▸ hbody', isX_of_toLower hx hx', ?_, ?_⟩
  · rintro rfl
    exact hrest (List.map_eq_nil_iff.1 hrest'.symm)
  · rw [← Text.word?_map, hrest', Text.word?_map, hvalue]

theorem value?_of_fold {a b : String} (h : foldCase a = foldCase b) : value? a = value? b := by
  have hhex : Quantity.read? (Text.trim a) = Quantity.read? (Text.trim b) := by
    have htwice : (Text.peel Text.isBlank (Text.trim a).toList).map Char.toLower =
        (Text.peel Text.isBlank (Text.trim b).toList).map Char.toLower := by
      rw [← Text.peel_map Text.isBlank_toLower, ← Text.peel_map Text.isBlank_toLower, Text.trim,
        Text.trim, String.toList_ofList, String.toList_ofList]
      exact congrArg _ h
    exact Option.ext fun v => ⟨read?_of_fold htwice, read?_of_fold htwice.symm⟩
  have hdecimal : Text.word64? (Text.trim a) = Text.word64? (Text.trim b) := by
    rw [Text.word64?, Text.word64?, ← Text.word?_map, ← Text.word?_map _ _ (Text.trim b).toList,
      Text.trim, Text.trim, String.toList_ofList, String.toList_ofList]
    exact congrArg _ h
  rw [value?, value?, hhex, hdecimal]

/-- What an identifier stands for: a number if it is one, else a name. -/
def meaning (s : String) : UInt64 ⊕ List Char :=
  match value? s with
  | some v => .inl v
  | none => .inr (foldCase s)

/-- The test for names is never put to a number and a name that pass it. -/
theorem agree_iff (a b : String) : agree a b = true ↔ meaning a = meaning b := by
  have hfold : foldCase a = foldCase b → value? a = value? b := value?_of_fold
  unfold agree meaning
  cases ha : value? a <;> cases hb : value? b <;> simp_all

theorem agree_equivalence : Equivalence fun a b => agree a b = true := by
  have hsame : (fun a b => agree a b = true) = fun a b => meaning a = meaning b :=
    funext₂ fun a b => propext (agree_iff a b)
  rw [hsame]
  exact ⟨fun _ => rfl, Eq.symm, Eq.trans⟩

/-- The ways to write a number: in decimal, or in hexadecimal with letters of either case, behind any
number of zeros. -/
inductive Numeral (n : Nat) : List Char → Prop
  | decimal (zeros : Nat) : Numeral n (List.replicate zeros '0' ++ Nat.toDigits 10 n)
  | hexadecimal {x : Char} {digits : List Char} (zeros : Nat) (hx : x = 'x' ∨ x = 'X')
      (hdigits : digits.map Char.toLower = Nat.toDigits 16 n) :
      Numeral n ('0' :: x :: (List.replicate zeros '0' ++ digits))

def Renders (s : String) (n : Nat) : Prop :=
  ∃ front core back, s.toList = front ++ core ++ back ∧ (∀ c ∈ front, Text.isBlank c = true) ∧
    (∀ c ∈ back, Text.isBlank c = true) ∧ Numeral n core

section Renders

variable {n : Nat} {cs digits : List Char}

theorem word?_numeral (base : Nat) (hdigit : ∀ d < base, Text.digit? base d.digitChar = some d)
    (hbase : 1 < base) (hn : n < UInt64.size) (zeros : Nat)
    (hcs : cs = List.replicate zeros '0' ++ Nat.toDigits base n) :
    Text.word? base UInt64.size cs = some n ∧ ∀ c ∈ cs, (Text.digit? base c).isSome := by
  obtain ⟨ds, hds, hvalue⟩ := Text.digits?_toDigits hdigit hbase n
  obtain ⟨ds', hds', hsame⟩ := Text.digits?_zeros (Nat.zero_lt_of_lt hbase) zeros hds
  rw [← hcs] at hds'
  refine ⟨Text.word?_of_numeral ?_ hn, Text.digit?_of_mem hds'⟩
  have hne : cs ≠ [] := by simp [hcs, Nat.toDigits_ne_nil]
  obtain ⟨c, cs, rfl⟩ := List.exists_cons_of_ne_nil hne
  change (Text.digits? base (c :: cs)).map (Text.ofDigits base) = some n
  rw [hds', Option.map_some, hsame, hvalue]

/-- Without blanks and quotes of its own, the number is all that is left of the text. -/
theorem value?_padded {s : String} {front core back : List Char} (hs : s.toList = front ++ core ++ back)
    (hfront : ∀ c ∈ front, Text.isBlank c = true) (hback : ∀ c ∈ back, Text.isBlank c = true)
    (hcore : ∀ c ∈ core, Text.isBlank c = false ∧ (c == '"') = false) :
    (Text.trim s).toList = core ∧
      Text.peel (· == '"') (Text.peel Text.isBlank (Text.trim s).toList) = core := by
  have htrim : (Text.trim s).toList = core := by
    rw [Text.trim, String.toList_ofList]
    change Text.peel Text.isBlank s.toList = core
    rw [hs, Text.peel_pad hfront hback fun c hc => (hcore c hc).1]
  refine ⟨htrim, ?_⟩
  rw [htrim, Text.peel_self fun c hc => (hcore c hc).1, Text.peel_self fun c hc => (hcore c hc).2]

theorem value?_renders {s : String} (h : Renders s n) (hn : n < UInt64.size) :
    value? s = some (UInt64.ofNat n) := by
  obtain ⟨front, core, back, hs, hfront, hback, hcore⟩ := h
  cases hcore with
  | decimal zeros =>
    obtain ⟨hword, hdigits⟩ := word?_numeral 10 (by decide) (by decide) hn zeros rfl
    have hmarks := fun c hc => Text.digit?_mark (hdigits c hc)
    obtain ⟨htrim, hbody⟩ := value?_padded hs hfront hback fun c hc =>
      ⟨(hmarks c hc).1, beq_false_of_ne fun heq => (hmarks c hc).2 (by simp [heq])⟩
    have hhex : Quantity.read? (Text.trim s) = none := by
      refine Option.eq_none_iff_forall_ne_some.2 fun v hv => ?_
      obtain ⟨x, rest, heq, hx, -⟩ := (read?_eq_some_iff _ _).1 hv
      refine (hmarks x ?_).2 (by rcases hx with rfl | rfl <;> simp)
      rw [← hbody, heq]
      simp
    rw [value?, hhex, Option.none_or, Text.word64?, htrim, hword]
    rfl
  | @hexadecimal x digits zeros hx hdigits =>
    have hsmall : (List.replicate zeros '0' ++ digits).map Char.toLower =
        List.replicate zeros '0' ++ Nat.toDigits 16 n := by
      rw [List.map_append, List.map_replicate, hdigits]
      rfl
    obtain ⟨hword, hall⟩ := word?_numeral 16 (by decide) (by decide) hn zeros hsmall
    rw [Text.word?_map] at hword
    have hmarks : ∀ c ∈ List.replicate zeros '0' ++ digits,
        Text.isBlank c = false ∧ c ∉ ['"', '+', 'x', 'X'] := by
      intro c hc
      have hdigit := hall c.toLower (List.mem_map_of_mem hc)
      rw [Text.digit?_toLower] at hdigit
      exact Text.digit?_mark hdigit
    obtain ⟨-, hbody⟩ := value?_padded hs hfront hback fun c hc => by
      rcases List.mem_cons.1 hc with rfl | hc
      · decide
      rcases List.mem_cons.1 hc with rfl | hc
      · rcases hx with rfl | rfl <;> decide
      · exact ⟨(hmarks c hc).1, beq_false_of_ne fun heq => (hmarks c hc).2 (by simp [heq])⟩
    have hne : List.replicate zeros '0' ++ digits ≠ [] := by
      intro hnil
      rw [hnil] at hsmall
      simp [Nat.toDigits_ne_nil] at hsmall
    have hhex : Quantity.read? (Text.trim s) = some (UInt64.ofNat n) :=
      (read?_eq_some_iff _ _).2 ⟨x, _, hbody, hx, hne, by rw [hword]; rfl⟩
    rw [value?, hhex, Option.some_or]

theorem agree_renders {m : Nat} {a b : String} (hn : n < UInt64.size) (hm : m < UInt64.size)
    (ha : Renders a n) (hb : Renders b m) : agree a b = true ↔ n = m := by
  rw [agree_iff, meaning, meaning, value?_renders ha hn, value?_renders hb hm]
  refine ⟨fun h => ?_, fun h => h ▸ rfl⟩
  have hsame := congrArg UInt64.toNat (Sum.inl.inj h)
  rwa [UInt64.toNat_ofNat_of_lt' hn, UInt64.toNat_ofNat_of_lt' hm] at hsame

end Renders

end ChainId

open Node

def Node.chainCommand (n : Node) : String := n.rpcCommand (requestOf "eth_chainId")

namespace Deployment

/-- The node says that it is on this chain when that is all that it is asked. -/
def Reports (d : Deployment) (n : Node) (id : String) : Prop :=
  ∃ out, d.replyTo n [] n.chainCommand = .output out ∧ chainIdOf out = some id

def OnChain (d : Deployment) (expected : String) (n : Node) : Prop :=
  ∃ id, d.Reports n id ∧ ChainId.agree expected id = true

variable {d : Deployment} {n : Node}

theorem reports_unique {id id' : String} (h : d.Reports n id) (h' : d.Reports n id') : id = id' := by
  obtain ⟨out, hout, hid⟩ := h
  obtain ⟨out', hout', hid'⟩ := h'
  obtain rfl : out = out' := Reply.output.inj (hout.symm.trans hout')
  exact Option.some.inj (hid.symm.trans hid')

end Deployment

namespace Agreement

open Job

def askChain (n : Node) : Job (String × String) := do return (n.target.name, ← n.chainId)

theorem perform_askChain (n : Node) (d : Deployment) :
    (∃ id, d.Reports n id ∧
        (askChain n).perform d = (.ok (n.target.name, id), d.told n n.chainCommand)) ∨
      (∀ id, ¬ d.Reports n id) ∧
        ∃ s, (askChain n).perform d = (.error s, d.told n n.chainCommand) := by
  have hchain : n.chainId.perform d = (n.learned chainIdOf
      (fun _ => "eth_chainId returned no result")
      (d.replyTo n [] n.chainCommand), d.told n n.chainCommand) :=
    n.perform_query _ _ (fun _ _ h => by simp only [h]) (fun _ h => by simp only [h]) _ d
  rw [askChain, perform_bind, hchain]
  unfold Deployment.Reports
  cases hreply : d.replyTo n [] n.chainCommand with
  | output out =>
    cases hread : chainIdOf out with
    | some id =>
      refine Or.inl ⟨id, ⟨out, rfl, hread⟩, ?_⟩
      simp only [learned, heard, Except.bind, hread]
      rfl
    | none =>
      refine Or.inr ⟨?_, .failed (.commandFailed n.target.name "eth_chainId returned no result"), ?_⟩
      · rintro id ⟨out', hout, hid⟩
        cases hout
        rw [hread] at hid
        cases hid
      · simp only [learned, heard, Except.bind, hread]
  | unreachable reason => exact Or.inr ⟨by simp, _, rfl⟩
  | failed reason => exact Or.inr ⟨by simp, _, rfl⟩
  | silent => exact Or.inr ⟨by simp, _, rfl⟩

theorem waiting_error {α : Type} (r : Except Stop (List α)) : ∃ s, waiting r = .error s := by
  unfold waiting
  split
  · exact ⟨_, rfl⟩
  · exact ⟨_, rfl⟩

/-- Either all nodes report their chains, or the question stops at the first that does not. -/
theorem chains_cases {fleet : List Node} (hseats : (fleet.map (·.index)).Nodup) (d : Deployment) :
    (∃ reported, ((upToFailure (fleet.map askChain)).perform d).1 = .ok reported ∧
        List.Forall₂ (fun n x => x.1 = n.target.name ∧ d.Reports n x.2) fleet reported) ∨
      (∃ n ∈ fleet, ∀ id, ¬ d.Reports n id) ∧
        ∃ s, ((upToFailure (fleet.map askChain)).perform d).1 = .error s := by
  induction fleet generalizing d with
  | nil => exact Or.inl ⟨[], rfl, .nil⟩
  | cons n fleet ih =>
    rw [List.map_cons, List.nodup_cons] at hseats
    rw [perform_upToFailure_cons]
    rcases perform_askChain n d with ⟨id, hreports, hn⟩ | ⟨hmute, s, hn⟩
    · -- the others do not hear of the question
      have htold : ∀ m ∈ fleet, ∀ id, (d.told n n.chainCommand).Reports m id ↔ d.Reports m id := by
        intro m hm id
        have hne : m.index ≠ n.index := fun heq => hseats.1 (heq ▸ List.mem_map_of_mem hm)
        rw [Deployment.Reports, d.told_replyTo_other n _ hne, Deployment.Reports]
      rw [hn]
      rcases ih hseats.2 (d.told n n.chainCommand) with
        ⟨reported, hreported, hall⟩ | ⟨⟨m, hm, hmute⟩, s, hs⟩
      · refine Or.inl ⟨(n.target.name, id) :: reported, by simp only [hreported]; rfl,
          .cons ⟨rfl, hreports⟩ ?_⟩
        have hboth := (List.forall₂_and_left _ _).2 ⟨htold, hall⟩
        exact hboth.imp fun m x hx => ⟨hx.2.1, (hx.1 _).1 hx.2.2⟩
      · refine Or.inr ⟨⟨m, List.mem_cons_of_mem _ hm, fun id h => hmute id ?_⟩, s, ?_⟩
        · exact (htold m hm id).2 h
        · simp only [hs]
          rfl
    · refine Or.inr ⟨⟨n, List.mem_cons_self, hmute⟩, ?_⟩
      rw [hn]
      cases s with
      | failed e => exact ⟨_, rfl⟩
      | hung => exact waiting_error _

theorem verifyChains_result (fleet : List Node) (expected : String) (d : Deployment) :
    (verifyChains fleet expected).result d =
      match ((upToFailure (fleet.map askChain)).perform d).1 with
      | .error s => .error s
      | .ok reported => match otherChain? expected reported with
        | some e => .error (.failed e)
        | none => .ok () := by
  have hperform := perform_bind d (upToFailure (fleet.map askChain)) fun reported =>
    match otherChain? expected reported with
    | some e => fail e
    | none => return ()
  refine (congrArg Prod.fst hperform).trans ?_
  rcases (upToFailure (fleet.map askChain)).perform d with ⟨s | reported, d'⟩
  · rfl
  · simp only
    cases otherChain? expected reported <;> rfl

/-- Among nodes that report their chains, the first on another one is found. -/
theorem otherChain?_cases {d : Deployment} (expected : String) {fleet : List Node}
    {reported : List (String × String)}
    (h : List.Forall₂ (fun n x => x.1 = n.target.name ∧ d.Reports n x.2) fleet reported) :
    otherChain? expected reported = none ∧ (∀ n ∈ fleet, d.OnChain expected n) ∨
      ∃ before n after id, fleet = before ++ n :: after ∧ (∀ m ∈ before, d.OnChain expected m) ∧
        d.Reports n id ∧ ChainId.agree expected id = false ∧
        otherChain? expected reported = some (.otherChain n.target.name expected id) := by
  induction h with
  | nil => exact Or.inl ⟨rfl, nofun⟩
  | @cons n x fleet reported hn hrest ih =>
    obtain ⟨target, id⟩ := x
    obtain ⟨rfl, hreports⟩ := hn
    cases hagree : ChainId.agree expected id with
    | false =>
      refine Or.inr ⟨[], n, fleet, id, rfl, nofun, hreports, hagree, ?_⟩
      simp [otherChain?, hagree]
    | true =>
      have hskip : otherChain? expected ((n.target.name, id) :: reported) =
          otherChain? expected reported := by
        simp [otherChain?, hagree]
      have hon : d.OnChain expected n := ⟨id, hreports, hagree⟩
      rw [hskip]
      rcases ih with ⟨hnone, hall⟩ | ⟨before, m, after, id', rfl, hbefore, hother⟩
      · exact Or.inl ⟨hnone, List.forall_mem_cons.2 ⟨hon, hall⟩⟩
      · exact Or.inr ⟨n :: before, m, after, id', rfl, List.forall_mem_cons.2 ⟨hon, hbefore⟩, hother⟩

/-- Agreement of chain identifiers is an equivalence, under which two spellings of numbers agree just
if the numbers are one. A fleet is verified just if each of its nodes reports a chain that agrees with
the one expected, and these agree with each other. If all report theirs but one is on another chain,
the first of these is to blame. -/
theorem chains_verified (expected : String) :
    Equivalence (fun a b => ChainId.agree a b = true) ∧
      (∀ n m a b, n < UInt64.size → m < UInt64.size → ChainId.Renders a n → ChainId.Renders b m →
        (ChainId.agree a b = true ↔ n = m)) ∧
      ∀ (fleet : List Node) (d : Deployment), (fleet.map (·.index)).Nodup →
        ((verifyChains fleet expected).result d = .ok () ↔ ∀ n ∈ fleet, d.OnChain expected n) ∧
        ((verifyChains fleet expected).result d = .ok () → ∀ n ∈ fleet, ∀ m ∈ fleet, ∀ id id',
          d.Reports n id → d.Reports m id' → ChainId.agree id id' = true) ∧
        ((∀ n ∈ fleet, ∃ id, d.Reports n id) → (¬ ∀ n ∈ fleet, d.OnChain expected n) →
          ∃ before n after id, fleet = before ++ n :: after ∧ (∀ m ∈ before, d.OnChain expected m) ∧
            d.Reports n id ∧ ChainId.agree expected id = false ∧
            (verifyChains fleet expected).result d =
              .error (.failed (.otherChain n.target.name expected id))) := by
  refine ⟨ChainId.agree_equivalence, fun n m a b hn hm ha hb => ChainId.agree_renders hn hm ha hb,
    fun fleet d hseats => ?_⟩
  have hok : (verifyChains fleet expected).result d = .ok () ↔ ∀ n ∈ fleet, d.OnChain expected n := by
    rw [verifyChains_result]
    rcases chains_cases hseats d with ⟨reported, hreported, hall⟩ | ⟨⟨n, hn, hmute⟩, s, hs⟩
    · rw [hreported]
      dsimp only
      rcases otherChain?_cases expected hall with
        ⟨hnone, hon⟩ | ⟨before, n, after, id, rfl, -, hreports, hagree, hsome⟩
      · rw [hnone]
        exact ⟨fun _ => hon, fun _ => rfl⟩
      · rw [hsome]
        refine ⟨nofun, fun hon => ?_⟩
        obtain ⟨id', hreports', hagree'⟩ := hon n (by simp)
        rw [Deployment.reports_unique hreports' hreports, hagree] at hagree'
        cases hagree'
    · rw [hs]
      refine ⟨nofun, fun hon => ?_⟩
      obtain ⟨id, hreports, -⟩ := hon n hn
      exact absurd hreports (hmute id)
  refine ⟨hok, fun hverified n hn m hm id id' hid hid' => ?_, fun hreport hother => ?_⟩
  · obtain ⟨a, ha, hagree⟩ := hok.1 hverified n hn
    obtain ⟨b, hb, hagree'⟩ := hok.1 hverified m hm
    rw [Deployment.reports_unique hid ha, Deployment.reports_unique hid' hb]
    exact ChainId.agree_equivalence.trans (ChainId.agree_equivalence.symm hagree) hagree'
  · rw [verifyChains_result]
    rcases chains_cases hseats d with ⟨reported, hreported, hall⟩ | ⟨⟨n, hn, hmute⟩, -⟩
    · rcases otherChain?_cases expected hall with
        ⟨-, hon⟩ | ⟨before, n, after, id, hsplit, hbefore, hreports, hagree, hsome⟩
      · exact absurd hon hother
      · refine ⟨before, n, after, id, hsplit, hbefore, hreports, hagree, ?_⟩
        rw [hreported]
        dsimp only
        rw [hsome]
    · obtain ⟨id, hreports⟩ := hreport n hn
      exact absurd hreports (hmute id)

def chainPair (id id' : String) : Deployment where
  hosts := [{ answer := fun _ _ => .output id }, { answer := fun _ _ => .output id' }]
  store := { clock := fun _ => default }
  gate := { blockInterval := 1000 }

theorem chainPair_reports {id id' x x' : String} (h : chainIdOf id = some x)
    (h' : chainIdOf id' = some x') :
    (chainPair id id').Reports Capture.loneNode x ∧ (chainPair id id').Reports farNode x' :=
  ⟨⟨id, rfl, h⟩, ⟨id', rfl, h'⟩⟩

/-- Spellings of one number pass, and a node on another chain does not. -/
theorem chains_verified_pair :
    ChainId.agree " 0x00aB\n" "0171" = true ∧ ([Capture.loneNode, farNode].map (·.index)).Nodup ∧
      (verifyChains [Capture.loneNode, farNode] " 0x00aB\n").result (chainPair "0171" "0Xab") = .ok () ∧
      (∀ n ∈ [Capture.loneNode, farNode], ∃ id, (chainPair "0171" "0x1").Reports n id) ∧
      ∃ n id, (chainPair "0171" "0x1").Reports n id ∧
        (verifyChains [Capture.loneNode, farNode] " 0x00aB\n").result (chainPair "0171" "0x1") =
          .error (.failed (.otherChain n.target.name " 0x00aB\n" id)) := by
  obtain ⟨-, hsame, hfleet⟩ := chains_verified " 0x00aB\n"
  have hhex : ChainId.Renders " 0x00aB\n" 171 :=
    ⟨[' '], _, ['\n'], rfl, List.forall_mem_singleton.2 rfl, List.forall_mem_singleton.2 rfl,
      @ChainId.Numeral.hexadecimal 171 'x' ['a', 'B'] 2 (.inl rfl) rfl⟩
  have hdecimal : ChainId.Renders "0171" 171 :=
    ⟨[], _, [], rfl, nofun, nofun, .decimal 1⟩
  have hseats : ([Capture.loneNode, farNode].map (·.index)).Nodup := by decide
  obtain ⟨hnear, hfar⟩ : (chainPair "0171" "0Xab").Reports Capture.loneNode "0171" ∧
      (chainPair "0171" "0Xab").Reports farNode "0Xab" :=
    chainPair_reports (by decide +kernel) (by decide +kernel)
  obtain ⟨hnear', hother⟩ : (chainPair "0171" "0x1").Reports Capture.loneNode "0171" ∧
      (chainPair "0171" "0x1").Reports farNode "0x1" :=
    chainPair_reports (by decide +kernel) (by decide +kernel)
  have hreport : ∀ n ∈ [Capture.loneNode, farNode], ∃ id, (chainPair "0171" "0x1").Reports n id := by
    simp only [List.forall_mem_cons]
    exact ⟨⟨_, hnear'⟩, ⟨_, hother⟩, nofun⟩
  refine ⟨(hsame 171 171 _ _ (by decide) (by decide) hhex hdecimal).2 rfl, hseats,
    (hfleet _ _ hseats).1.2 ?_, hreport, ?_⟩
  · simp only [List.forall_mem_cons]
    exact ⟨⟨_, hnear, by decide +kernel⟩, ⟨_, hfar, by decide +kernel⟩, nofun⟩
  · obtain ⟨-, n, -, id, -, -, hid, -, hresult⟩ := (hfleet _ _ hseats).2.2 hreport fun hon => by
      obtain ⟨id, hid, hagree⟩ := hon farNode (by simp)
      rw [Deployment.reports_unique hid hother] at hagree
      exact absurd hagree (by decide +kernel)
    exact ⟨n, id, hid, hresult⟩

end Agreement

end FleetSnapshot
