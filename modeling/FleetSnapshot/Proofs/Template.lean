import FleetSnapshot.Proofs.Attempt
import FleetSnapshot.Proofs.Replacement
import FleetSnapshot.Proofs.Written

/-! What an upload is told, against what is put on record of it. A template is filled by one pass
for each name, and a pass looks at what the passes before it have put in. If each pass finds no more
than the places of the template, all places might as well be filled at once. The places of the
default template are too far apart for two values to meet, so each value is passed over on its own:
the data goes where the record says if and only if the upload prefix has no place for the height. -/

namespace FleetSnapshot

namespace Template

inductive Place where
  | dataDir
  | bucketName
  | uploadPrefix
  | blockNumber
  deriving DecidableEq, Repr

namespace Place

def text : Place → String
  | dataDir => "\x7bdata_dir\x7d"
  | bucketName => "\x7bbucket_name\x7d"
  | uploadPrefix => "\x7bupload_prefix\x7d"
  | blockNumber => "\x7bblock_number\x7d"

def name (p : Place) : List Char := p.text.toList

/-- In the order of the passes. -/
def all : List Place := [dataDir, bucketName, uploadPrefix, blockNumber]

def later : Place → List Place
  | dataDir => [bucketName, uploadPrefix, blockNumber]
  | bucketName => [uploadPrefix, blockNumber]
  | uploadPrefix => [blockNumber]
  | blockNumber => []

theorem mem_all (p : Place) : p ∈ all := by cases p <;> decide

/-- A name opens with a brace and has no other. -/
theorem name_eq (p : Place) : ∃ rest, p.name = '{' :: rest ∧ '{' ∉ rest := by
  cases p <;> exact ⟨_, rfl, by decide⟩

theorem name_ne_nil (p : Place) : p.name ≠ [] := by
  obtain ⟨rest, hname, -⟩ := p.name_eq
  rw [hname]
  exact List.cons_ne_nil _ _

/-- No name begins another. -/
theorem eq_of_begins {p q : Place} {t : List Char} (h : q.name <+: p.name ++ t) : q = p := by
  have hnone : ∀ p ∈ all, ∀ q ∈ all, p.name <+: q.name → p = q := by decide
  rcases List.prefix_or_prefix_of_prefix h (List.prefix_append p.name t) with h | h
  · exact hnone q q.mem_all p p.mem_all h
  · exact (hnone p p.mem_all q q.mem_all h).symm

theorem count_brace_free (p : Place) {w cs : List Char} (h : '{' ∉ w) :
    Text.count p.name (w ++ cs) = Text.count p.name cs := by
  obtain ⟨rest, hname, -⟩ := p.name_eq
  rw [hname, Text.count_append h]

theorem count_name (p q : Place) (t : List Char) :
    Text.count p.name (q.name ++ t) = (if q = p then 1 else 0) + Text.count p.name t := by
  obtain ⟨rest, hname, hrest⟩ := q.name_eq
  have htail : Text.count p.name (rest ++ t) = Text.count p.name t := p.count_brace_free hrest
  by_cases hqp : q = p
  · have hpre : p.name <+: '{' :: (rest ++ t) := by
      rw [← hqp, hname]
      exact List.prefix_append ('{' :: rest) t
    rw [if_pos hqp, hname, List.cons_append, Text.count_cons_of_prefix hpre, htail, Nat.add_comm]
  · have hnot : ¬ p.name <+: '{' :: (rest ++ t) := by
      intro hpre
      rw [← List.cons_append, ← hname] at hpre
      exact hqp (eq_of_begins hpre).symm
    rw [if_neg hqp, hname, List.cons_append, Text.count_cons_of_not_prefix hnot, htail, Nat.zero_add]

end Place

section Fill

def place? (cs : List Char) : Option Place :=
  Place.all.find? fun p => (Text.strip? p.name cs).isSome

/-- Every place becomes its value, and a value is not looked at again. The number counts the
characters left of a place that has been filled. -/
def fillFrom (value : Place → List Char) : Nat → List Char → List Char
  | _, [] => []
  | n + 1, _ :: cs => fillFrom value n cs
  | 0, c :: cs =>
    match place? (c :: cs) with
    | some p => value p ++ fillFrom value (p.name.length - 1) cs
    | none => c :: fillFrom value 0 cs

def fill (value : Place → List Char) (t : List Char) : List Char := fillFrom value 0 t

variable {value : Place → List Char} {p : Place} {c : Char} {cs t : List Char}

theorem prefix_of_place? (h : place? cs = some p) : p.name <+: cs := by
  have hfound := List.find?_some h
  exact Bucket.strip?_isSome_iff.1 hfound

theorem not_prefix_of_place? (h : place? cs = none) (p : Place) : ¬ p.name <+: cs := by
  intro hpre
  exact List.find?_eq_none.1 h p p.mem_all (Bucket.strip?_isSome_iff.2 hpre)

theorem place?_name (p : Place) (t : List Char) : place? (p.name ++ t) = some p := by
  cases h : place? (p.name ++ t) with
  | none => exact absurd (List.prefix_append p.name t) (not_prefix_of_place? h p)
  | some q => rw [Place.eq_of_begins (prefix_of_place? h)]

theorem fillFrom_passed (w t : List Char) : fillFrom value w.length (w ++ t) = fill value t := by
  induction w with
  | nil => rfl
  | cons c w ih => exact ih

theorem fill_place (value : Place → List Char) (p : Place) (t : List Char) :
    fill value (p.name ++ t) = value p ++ fill value t := by
  obtain ⟨rest, hname, -⟩ := p.name_eq
  have hplace := place?_name p t
  rw [hname, List.cons_append] at hplace
  have hpassed : p.name.length - 1 = rest.length := congrArg (·.length - 1) hname
  rw [hname, List.cons_append, fill, fillFrom, hplace]
  change value p ++ fillFrom value (p.name.length - 1) (rest ++ t) = _
  rw [hpassed, fillFrom_passed]

theorem fill_char (h : place? (c :: t) = none) : fill value (c :: t) = c :: fill value t := by
  rw [fill, fillFrom, h]
  rfl

/-- A template is read from the left, by places and by characters of its own. -/
theorem reading {motive : List Char → Prop} (nil : motive [])
    (char : ∀ c t, place? (c :: t) = none → motive t → motive (c :: t))
    (place : ∀ (p : Place) (t), motive t → motive (p.name ++ t)) (t : List Char) : motive t := by
  induction hlen : t.length using Nat.strongRecOn generalizing t with
  | _ n ih =>
    cases t with
    | nil => exact nil
    | cons c t =>
      subst hlen
      cases hplace : place? (c :: t) with
      | none => exact char c t hplace (ih t.length (Nat.lt_succ_self _) t rfl)
      | some p =>
        obtain ⟨rest, hrest⟩ := prefix_of_place? hplace
        have hlen := congrArg List.length hrest
        have hpos := List.length_pos_iff.2 p.name_ne_nil
        rw [List.length_append] at hlen
        rw [← hrest]
        exact place p rest (ih rest.length (by omega) rest rfl)

theorem fill_name (t : List Char) : fill Place.name t = t := by
  induction t using reading with
  | nil => rfl
  | char c t h ih => rw [fill_char h, ih]
  | place p t ih => rw [fill_place, ih]

theorem fill_brace_free {w : List Char} (h : '{' ∉ w) (t : List Char) :
    fill value (w ++ t) = w ++ fill value t := by
  induction w with
  | nil => rfl
  | cons c w ih =>
    obtain ⟨hc, hw⟩ := not_or.1 (mt List.mem_cons.2 h)
    have hnone : place? (c :: (w ++ t)) = none := by
      refine List.find?_eq_none.2 fun p _ hpre => ?_
      obtain ⟨rest, hname, -⟩ := p.name_eq
      rw [Bucket.strip?_isSome_iff, hname] at hpre
      exact hc (List.cons_prefix_cons.1 hpre).1
    rw [List.cons_append, fill_char hnone, ih hw, List.cons_append]

/-- A place that is not filled yet is still there. -/
theorem count_le_fill (hp : value p = p.name) (t : List Char) :
    Text.count p.name t ≤ Text.count p.name (fill value t) := by
  induction t using reading with
  | nil => exact Nat.le_refl _
  | char c t h ih =>
    rw [fill_char h, Text.count_cons_of_not_prefix (not_prefix_of_place? h p)]
    exact Nat.le_trans ih (Text.count_le_append p.name [c] _)
  | place q t ih =>
    rw [fill_place, Place.count_name]
    by_cases hqp : q = p
    · rw [if_pos hqp, hqp, hp, Place.count_name, if_pos rfl]
      exact Nat.add_le_add_left ih 1
    · rw [if_neg hqp, Nat.zero_add]
      exact Nat.le_trans ih (Text.count_le_append p.name (value q) _)

/-- A piece with which no more is found than there are places behind it. -/
theorem passed_over {w rest : List Char} {p : Place} {n : Nat} (hle : n ≤ Text.count p.name rest)
    (h : Text.count p.name (w ++ rest) = n) (new : List Char) : Text.count p.name rest = n ∧
      Text.replaceChars p.name new (w ++ rest) = w ++ Text.replaceChars p.name new rest := by
  have hmore := Text.count_le_append p.name w rest
  have hrest : Text.count p.name rest = n := by omega
  exact ⟨hrest, Text.replaceChars_append (h.trans hrest.symm)⟩

/-- A pass that finds no more than the places of the template fills these and does nothing else. -/
theorem replaceChars_fill (hp : value p = p.name) (new : List Char)
    (h : Text.count p.name (fill value t) = Text.count p.name t) :
    Text.replaceChars p.name new (fill value t) = fill (Function.update value p new) t := by
  induction t using reading with
  | nil => rfl
  | char c t hc ih =>
    rw [fill_char hc, Text.count_cons_of_not_prefix (not_prefix_of_place? hc p)] at h
    obtain ⟨hrest, hkept⟩ := passed_over (w := [c]) (count_le_fill hp t) h new
    rw [fill_char hc, fill_char hc, ← ih hrest]
    exact hkept
  | place q t ih =>
    rw [fill_place, Place.count_name] at h
    rw [fill_place, fill_place]
    by_cases hqp : q = p
    · rw [if_pos hqp, hqp, hp, Place.count_name, if_pos rfl] at h
      rw [hqp, hp, Text.replaceChars_here p.name_ne_nil, Function.update_self,
        ih (Nat.add_left_cancel h)]
    · rw [if_neg hqp, Nat.zero_add] at h
      obtain ⟨hrest, hkept⟩ := passed_over (count_le_fill hp t) h new
      rw [Function.update_of_ne hqp, hkept, ih hrest]

end Fill

section Passes

variable {value : Place → String} {ps : List Place} {s t : String}

/-- One pass for each of the names, over all that is there by then. -/
def passes (value : Place → String) (ps : List Place) (s : String) : String :=
  ps.foldl (fun s p => Text.replace s p.text (value p)) s

/-- Each pass finds as many places as the template has of its name. -/
def OwnOnly (value : Place → String) (t : String) : List Place → String → Prop
  | [], _ => True
  | p :: ps, s => Text.count p.name s.toList = Text.count p.name t.toList ∧
      OwnOnly value t ps (Text.replace s p.text (value p))

instance OwnOnly.decidable (value : Place → String) (t : String) :
    (ps : List Place) → (s : String) → Decidable (OwnOnly value t ps s)
  | [], _ => isTrue trivial
  | p :: ps, s =>
    have := OwnOnly.decidable value t ps (Text.replace s p.text (value p))
    inferInstanceAs (Decidable (_ ∧ _))

def filledBut (value : Place → String) (ps : List Place) (p : Place) : List Char :=
  if p ∈ ps then p.name else (value p).toList

theorem fill_filledBut_all (value : Place → String) (cs : List Char) :
    fill (filledBut value Place.all) cs = cs := by
  have hunfilled : filledBut value Place.all = Place.name := funext fun p => if_pos p.mem_all
  rw [hunfilled, fill_name]

theorem passes_toList (hps : ps.Nodup) (hs : s.toList = fill (filledBut value ps) t.toList)
    (h : OwnOnly value t ps s) :
    (passes value ps s).toList = fill (fun p => (value p).toList) t.toList := by
  induction ps generalizing s with
  | nil =>
    rw [passes, List.foldl_nil, hs]
    refine congrArg (fill · t.toList) (funext fun p => ?_)
    exact if_neg List.not_mem_nil
  | cons p ps ih =>
    obtain ⟨hp, hps⟩ := List.nodup_cons.1 hps
    obtain ⟨hcount, hrest⟩ := h
    refine ih hps ?_ hrest
    have hunfilled : filledBut value (p :: ps) p = p.name := if_pos List.mem_cons_self
    rw [hs] at hcount
    rw [Text.replace_toList, hs, ← Place.name, replaceChars_fill hunfilled _ hcount]
    refine congrArg (fill · t.toList) (funext fun q => ?_)
    by_cases hq : q = p
    · subst hq
      rw [Function.update_self, filledBut, if_neg hp]
    · rw [Function.update_of_ne hq, filledBut, filledBut]
      simp only [List.mem_cons, hq, false_or]

theorem replace_own (p : Place) (new : String) : Text.replace p.text p.text new = new := by
  refine String.toList_inj.1 ?_
  have hown := Text.replaceChars_here p.name_ne_nil new.toList []
  rw [List.append_nil] at hown
  exact (Text.replace_toList _ _ _).trans (hown.trans (List.append_nil _))

theorem replace_other {p q : Place} (h : p ≠ q) (new : String) :
    Text.replace p.text q.text new = p.text := by
  have hnone : ∀ p ∈ Place.all, ∀ q ∈ Place.all, p ≠ q → Text.occurs q.name p.name = false := by
    decide
  exact Text.replace_absent (hnone p p.mem_all q q.mem_all h) new

def late (value : Place → String) (p : Place) : String := passes value p.later (value p)

/-- A value without the names of later passes is left as it is. -/
theorem late_eq {value : Place → String} {p : Place}
    (h : ∀ q ∈ p.later, Text.contains (value p) q.text = false) : late value p = value p := by
  unfold late passes
  generalize p.later = ps at h ⊢
  induction ps with
  | nil => rfl
  | cons q ps ih =>
    obtain ⟨hq, hps⟩ := List.forall_mem_cons.1 h
    rw [List.foldl_cons, Text.replace_absent hq, ih hps]

theorem passes_text (value : Place → String) (p : Place) :
    passes value Place.all p.text = late value p := by
  cases p <;> simp [late, passes, Place.all, Place.later, replace_own, replace_other]

end Passes

section Layout

variable {value : Place → List Char} {l : List (Place × String)}

def lay (value : Place → List Char) : List (Place × String) → List Char
  | [] => []
  | (p, behind) :: l => value p ++ (behind.toList ++ lay value l)

/-- The text behind a place sets in with a character of no name, and it opens no place. -/
def Apart (l : List (Place × String)) : Prop :=
  ∀ e ∈ l, (∃ s ∈ e.2.toList.head?, ∀ p ∈ Place.all, s ∉ p.name) ∧ '{' ∉ e.2.toList.tail

theorem replaceChars_lay (p : Place) (new : List Char) (h : Apart l) :
    Text.replaceChars p.name new (lay value l) =
      lay (fun q => Text.replaceChars p.name new (value q)) l := by
  induction l with
  | nil => rfl
  | cons e l ih =>
    obtain ⟨he, hl⟩ := List.forall_mem_cons.1 h
    obtain ⟨⟨s, hhead, hs⟩, hw⟩ := he
    have hbehind : e.2.toList = s :: e.2.toList.tail := (List.cons_head?_tail hhead).symm
    rw [lay, lay, hbehind, List.cons_append, List.cons_append,
      Text.replaceChars_apart p.name_ne_nil (hs p p.mem_all),
      Text.replaceChars_append (p.count_brace_free hw), ih hl]

theorem brace_not_mem_behind {e : Place × String} (h : Apart l) (he : e ∈ l) : '{' ∉ e.2.toList := by
  obtain ⟨⟨s, hhead, hs⟩, hw⟩ := h e he
  rw [← List.cons_head?_tail hhead, List.mem_cons]
  rintro (rfl | hmem)
  · exact hs .dataDir (by decide) (by decide)
  · exact hw hmem

theorem fill_lay (h : Apart l) : fill value (lay Place.name l) = lay value l := by
  induction l with
  | nil => rfl
  | cons e l ih =>
    rw [lay, lay, fill_place, fill_brace_free (brace_not_mem_behind h List.mem_cons_self),
      ih fun e he => h e (List.mem_cons_of_mem _ he)]

/-- Each value is passed over on its own. -/
theorem passes_lay {u : Place → String} {lead s : String} (v : Place → String) (ps : List Place)
    (hlead : '{' ∉ lead.toList) (h : Apart l)
    (hs : s.toList = lead.toList ++ lay (fun q => (u q).toList) l) :
    (passes v ps s).toList = lead.toList ++ lay (fun q => (passes v ps (u q)).toList) l := by
  induction ps generalizing s u with
  | nil => exact hs
  | cons p ps ih =>
    refine ih (u := fun q => Text.replace (u q) p.text (v p)) ?_
    rw [Text.replace_toList, hs, ← Place.name, Text.replaceChars_append (p.count_brace_free hlead),
      replaceChars_lay p _ h]
    refine congrArg (fun f => lead.toList ++ lay f l) (funext fun q => ?_)
    exact (Text.replace_toList _ _ _).symm

end Layout

section Default

/-- The default command. The data goes under `path` in the bucket, the height under `pre`. -/
def defaultCommand (dir bucket pre path number : String) : String :=
  "-ac \"\napk add --no-cache tar zstd jq &&\ncd " ++ dir ++ " &&\ncat " ++ dir ++
    "/_snapshot_metadata.json | jq . &&\ntar -I zstd \\\n" ++
    "--exclude=./nodekey \\\n--exclude=./key \\\n--exclude=./discovery-secret \\\n" ++
    "-cvf - . \\\n| rclone rcat --s3-chunk-size 150M mys3:/" ++ bucket ++ "/" ++ path ++
    "/snapshot.tar.zst &&\nrclone copy " ++
    dir ++ "/_snapshot_eth_getBlockByNumber.json mys3:/" ++ bucket ++ "/" ++ path ++
    " &&\nrclone copy " ++
    dir ++ "/_snapshot_web3_clientVersion.json mys3:/" ++ bucket ++ "/" ++ path ++
    " &&\nrclone copy " ++
    dir ++ "/_snapshot_metadata.json mys3:/" ++ bucket ++ "/" ++ path ++
    " &&\necho " ++ number ++ " | rclone rcat mys3:/" ++ bucket ++ "/" ++ pre ++ "/latest\n\""

def defaultLead : String := "-ac \"\napk add --no-cache tar zstd jq &&\ncd "

def remote (behind : String) (l : List (Place × String)) : List (Place × String) :=
  (.bucketName, "/") :: (.uploadPrefix, "/") :: (.blockNumber, behind) :: l

def defaultLayout : List (Place × String) :=
  (.dataDir, " &&\ncat ") :: (.dataDir, "/_snapshot_metadata.json | jq . &&\ntar -I zstd \\\n" ++
    ("--exclude=./nodekey \\\n--exclude=./key \\\n--exclude=./discovery-secret \\\n" ++
    "-cvf - . \\\n| rclone rcat --s3-chunk-size 150M mys3:/")) ::
  remote "/snapshot.tar.zst &&\nrclone copy " (
  (.dataDir, "/_snapshot_eth_getBlockByNumber.json mys3:/") :: remote " &&\nrclone copy " (
  (.dataDir, "/_snapshot_web3_clientVersion.json mys3:/") :: remote " &&\nrclone copy " (
  (.dataDir, "/_snapshot_metadata.json mys3:/") :: remote " &&\necho " [
  (.blockNumber, " | rclone rcat mys3:/"), (.bucketName, "/"), (.uploadPrefix, "/latest\n\"")])))

theorem defaultCommand_toList (u : Place → String) :
    (defaultCommand (u .dataDir) (u .bucketName) (u .uploadPrefix)
      (u .uploadPrefix ++ "/" ++ u .blockNumber) (u .blockNumber)).toList =
      defaultLead.toList ++ lay (fun q => (u q).toList) defaultLayout := by
  -- the equation lemma of so long a text is not found in time
  delta defaultCommand defaultLead defaultLayout remote
  simp only [lay, String.toList_append, List.append_assoc, List.append_nil]

theorem defaultLayout_apart : Apart defaultLayout := by
  have h : (defaultLayout.all fun e =>
      (e.2.toList.head?.any fun s => Place.all.all fun p => !p.name.contains s) &&
        !e.2.toList.tail.contains '{') = true := by decide +kernel
  intro e he
  have hbehind := List.all_eq_true.1 h e he
  simpa only [Bool.and_eq_true, Option.any_eq_true, List.all_eq_true, Bool.not_eq_true',
    List.contains_eq_mem, decide_eq_false_iff_not, Option.mem_def] using hbehind

theorem defaultTemplate_eq : Config.defaultCommandTemplate =
    defaultCommand Place.dataDir.text Place.bucketName.text Place.uploadPrefix.text
      (Place.uploadPrefix.text ++ "/" ++ Place.blockNumber.text) Place.blockNumber.text := by
  decide +kernel

theorem defaultTemplate_toList :
    Config.defaultCommandTemplate.toList = defaultLead.toList ++ lay Place.name defaultLayout := by
  rw [defaultTemplate_eq, defaultCommand_toList]
  rfl

theorem brace_not_mem_lead : '{' ∉ defaultLead.toList := by decide

theorem fill_default (value : Place → String) :
    fill (fun p => (value p).toList) Config.defaultCommandTemplate.toList =
      (defaultCommand (value .dataDir) (value .bucketName) (value .uploadPrefix)
        (value .uploadPrefix ++ "/" ++ value .blockNumber) (value .blockNumber)).toList := by
  rw [defaultTemplate_toList, fill_brace_free brace_not_mem_lead, fill_lay defaultLayout_apart,
    defaultCommand_toList]

/-- What the default template comes to, whatever the values are. -/
theorem passes_default (value : Place → String) :
    passes value Place.all Config.defaultCommandTemplate =
      defaultCommand (late value .dataDir) (late value .bucketName) (late value .uploadPrefix)
        (late value .uploadPrefix ++ "/" ++ late value .blockNumber) (late value .blockNumber) := by
  have hpassed := passes_lay value Place.all brace_not_mem_lead defaultLayout_apart
    defaultTemplate_toList
  refine String.toList_inj.1 (hpassed.trans ?_)
  simp only [passes_text]
  exact (defaultCommand_toList (late value)).symm

end Default

end Template

open Template (Place passes late fill OwnOnly defaultCommand)

def Node.placed (n : Node) (dir pre : String) (height : UInt64) : Place → String
  | .dataDir => dir
  | .bucketName => n.bucketName
  | .uploadPrefix => pre
  | .blockNumber => toString height.toNat

theorem Node.fillTemplate_eq (n : Node) (dir pre : String) (height : UInt64) :
    n.fillTemplate dir pre height =
      passes (n.placed dir pre height) Place.all n.rclone.commandTemplate := rfl

def Node.Told (n : Node) (height : UInt64) (text : String) : Prop :=
  text = n.inspectCommand ∨ (∃ image, text = n.metadataCommand n.target.dataDir image height) ∨
    text = n.uploadCommand n.target.dataDir n.target.uploadPrefix height

theorem Node.Sends.told {n : Node} {height : UInt64} {φ : Phase} {es : List Event}
    {r : Except Stop Unit} (h : n.Sends height φ es r) :
    ∀ e ∈ es, ∃ text reply, e = .command n.index φ text reply ∧ n.Told height text := by
  have hinspect : n.Told height n.inspectCommand := Or.inl rfl
  have hmetadata : ∀ image, n.Told height (n.metadataCommand n.target.dataDir image height) :=
    fun image => Or.inr (Or.inl ⟨image, rfl⟩)
  have hupload : n.Told height (n.uploadCommand n.target.dataDir n.target.uploadPrefix height) :=
    Or.inr (Or.inr rfl)
  cases h <;> simp [hinspect, hmetadata, hupload]

namespace Capture

open Audit Job

/-- The directory that the default command puts the data in. -/
def sentTo (pre : String) (height : UInt64) : String :=
  Text.replace pre Place.blockNumber.text (toString height.toNat) ++ "/" ++ toString height.toNat

theorem sentTo_toList (pre : String) (height : UInt64) : (sentTo pre height).toList =
    Text.replaceChars Place.blockNumber.name (toString height.toNat).toList pre.toList ++
      '/' :: (toString height.toNat).toList := by
  rw [sentTo, String.toList_append, String.toList_append, List.append_assoc, Text.replace_toList]
  rfl

theorem sentTo_uploadPrefix {n : Node} {height : UInt64}
    (h : Text.contains n.target.uploadPrefix Place.blockNumber.text = false) :
    sentTo n.target.uploadPrefix height = uploadPrefix n height := by
  rw [sentTo, Text.replace_absent h, uploadPrefix]

/-- At the first place for the height the directory on record parts from the one in the bucket. -/
theorem covers_sentTo_iff (n : Node) (height : UInt64) (file : String) :
    Bucket.covers (uploadPrefix n height) (sentTo n.target.uploadPrefix height ++ "/" ++ file) = true ↔
      Text.contains n.target.uploadPrefix Place.blockNumber.text = false := by
  rw [Bucket.covers_iff, closeSlash_uploadPrefix, String.toList_append, String.toList_append]
  cases hplace : Text.contains n.target.uploadPrefix Place.blockNumber.text with
  | false =>
    rw [sentTo_uploadPrefix hplace, uploadPrefix_toList]
    exact iff_of_true ⟨file.toList, by simp⟩ rfl
  | true =>
    obtain ⟨before, after, hpre, hsent⟩ := Text.replaceChars_first Place.blockNumber.name_ne_nil
      hplace (toString height.toNat).toList
    refine iff_of_false (fun hcovers => ?_) Bool.true_eq_false.mp
    rw [sentTo_toList, hsent, hpre] at hcovers
    simp only [List.append_assoc, List.prefix_append_right_inj] at hcovers
    -- here one goes on with the brace of the place, the other with a digit
    obtain ⟨rest, hname, -⟩ := Place.blockNumber.name_eq
    obtain ⟨d, ds, hdigits⟩ := List.exists_cons_of_ne_nil (height_ne_nil height)
    have hd : d.isDigit = true := isDigit_of_mem_height (hdigits ▸ List.mem_cons_self)
    rw [hname, hdigits] at hcovers
    rw [← (List.cons_prefix_cons.1 hcovers).1] at hd
    exact absurd hd (by decide)

theorem sentTo_eq_iff (n : Node) (height : UInt64) :
    sentTo n.target.uploadPrefix height = uploadPrefix n height ↔
      Text.contains n.target.uploadPrefix Place.blockNumber.text = false := by
  refine ⟨fun hsame => (covers_sentTo_iff n height "").1 ?_, sentTo_uploadPrefix⟩
  rw [hsame, Bucket.covers_iff, closeSlash_uploadPrefix, String.toList_append, String.toList_append,
    uploadPrefix_toList]
  exact ⟨[], by simp⟩

/-- The end of an upload goes into its row, and leaves the directory as it is. -/
theorem finishUpload_keeps {s : Store} {row : UploadRow} (hplain : s.Plain) (hrow : row ∈ s.uploads)
    (id : Int) (status : Progress) (message : Option String) :
    ∃ u ∈ ((Op.finishUpload id status message).run s).2.uploads, u.attemptId = row.attemptId ∧
      u.target = row.target ∧ u.uploadPrefix = row.uploadPrefix := by
  have hended := congrArg Prod.snd (finishUpload_plain hplain id status message)
  change ∃ u ∈ (finishUpload id status message s).2.uploads, _
  rw [hended]
  cases s.refusal? with
  | some f => exact ⟨row, hrow, rfl, rfl, rfl⟩
  | none =>
    dsimp only
    rw [Store.mapUploads_uploads]
    refine ⟨_, List.mem_map_of_mem hrow, ?_⟩
    split <;> exact ⟨rfl, rfl, rfl⟩

section Uploads

variable {attemptId : Int} {height : UInt64} {n : Node} {c c' : Scene} {es : List Event}
  {r : Except Stop (Option String)}

/-- Nothing is said to a node before the directory is on record. -/
theorem Uploads.row (h : Uploads attemptId height n c es c' r) (hplain : c.store.Plain)
    (hes : es ≠ []) :
    ∃ u ∈ c'.store.uploads, u.attemptId = attemptId ∧ u.target = n.target.name ∧
      u.uploadPrefix = uploadPrefix n height := by
  cases h with
  | unrecorded => exact absurd rfl hes
  | recorded hop hcloses =>
    rename_i u s
    let row := c.store.newUpload attemptId n.target.name (uploadPrefix n height) false
    have hs : s = c.store.addUpload row := by
      rcases createUpload_cases hplain.triggers attemptId n.target.name (uploadPrefix n height)
        false with ⟨e, he, -⟩ | ⟨u', -, -, hcreated⟩
      · exact absurd (he.symm.trans (congrArg Prod.fst hop)) nofun
      · exact (Prod.mk.inj (hop.symm.trans hcreated)).2
    have hrow : row ∈ s.uploads := hs ▸ List.mem_append_right _ List.mem_cons_self
    cases hcloses with
    | waits => exact ⟨row, hrow, rfl, rfl, rfl⟩
    | ended outcome =>
      have hplain' : s.Plain := hs ▸ ⟨hplain.triggers, hplain.attemptTable, rfl⟩
      exact finishUpload_keeps hplain' hrow u.id (statusOf outcome).1 (statusOf outcome).2

theorem Uploads.told (h : Uploads attemptId height n c es c' r) :
    ∀ e ∈ es, ∃ text reply, e = .command n.index c.gate.phase text reply ∧ n.Told height text := by
  cases h with
  | unrecorded => exact fun e he => absurd he List.not_mem_nil
  | recorded hop hcloses =>
    cases hcloses with
    | ended outcome hsends => exact hsends.told
    | waits hsends => exact hsends.told

end Uploads

/-- Filling a template by one pass for each name is filling all places at once if each pass finds the
places of the template and no others. In the default command each value is passed over on its own,
and one without the names of later passes is left as it is. The directory of the data is the one on
record, and lies in it, if and only if the upload prefix has no place for the height. And no node is
told to upload but under a row with the directory on record. -/
theorem sent_as_recorded (n : Node) (height : UInt64) :
    (∀ dir pre, OwnOnly (n.placed dir pre height) n.rclone.commandTemplate Place.all
        n.rclone.commandTemplate →
      (n.fillTemplate dir pre height).toList =
        fill (fun p => (n.placed dir pre height p).toList) n.rclone.commandTemplate.toList) ∧
      (n.rclone.commandTemplate = Config.defaultCommandTemplate → ∀ dir pre,
        fill (fun p => (n.placed dir pre height p).toList) n.rclone.commandTemplate.toList =
          (defaultCommand dir n.bucketName pre (pre ++ "/" ++ toString height.toNat)
            (toString height.toNat)).toList ∧
        n.fillTemplate dir pre height = defaultCommand (late (n.placed dir pre height) .dataDir)
          (late (n.placed dir pre height) .bucketName) (late (n.placed dir pre height) .uploadPrefix)
          (sentTo pre height) (toString height.toNat)) ∧
      (∀ dir pre p, (∀ q ∈ Place.later p, Text.contains (n.placed dir pre height p) q.text = false) →
        late (n.placed dir pre height) p = n.placed dir pre height p) ∧
      (sentTo n.target.uploadPrefix height = uploadPrefix n height ↔
        Text.contains n.target.uploadPrefix Place.blockNumber.text = false) ∧
      (∀ file, Bucket.covers (uploadPrefix n height)
          (sentTo n.target.uploadPrefix height ++ "/" ++ file) = true ↔
        Text.contains n.target.uploadPrefix Place.blockNumber.text = false) ∧
      ∀ (attemptId : Int) (d : Deployment), n.index < d.hosts.length → d.store.Plain →
        (∀ e ∈ (uploadOne false attemptId height n).events d, ∃ text reply,
          e = .command n.index d.gate.phase text reply ∧ n.Told height text) ∧
        ((uploadOne false attemptId height n).events d ≠ [] →
          ∃ u ∈ ((uploadOne false attemptId height n).perform d).2.store.uploads,
            u.attemptId = attemptId ∧ u.target = n.target.name ∧
              u.uploadPrefix = uploadPrefix n height) := by
  refine ⟨fun dir pre hown => ?filled, fun hdefault dir pre => ⟨?atOnce, ?passed⟩,
    fun dir pre p => Template.late_eq, sentTo_eq_iff n height, covers_sentTo_iff n height,
    fun attemptId d hn hplain => ?recorded⟩
  case filled =>
    have hfilled := Template.fill_filledBut_all (n.placed dir pre height) n.rclone.commandTemplate.toList
    rw [Node.fillTemplate_eq]
    exact Template.passes_toList (by decide) hfilled.symm hown
  case atOnce =>
    rw [hdefault]
    exact Template.fill_default (n.placed dir pre height)
  case passed =>
    rw [Node.fillTemplate_eq, hdefault]
    exact Template.passes_default (n.placed dir pre height)
  case recorded =>
    have hdoes : (uploadOne false attemptId height n).Does d.hosts.length
      (Uploads attemptId height n) := uploadOne_does hn
    exact ⟨hdoes.course.told, hdoes.course.row hplain⟩

def plainNode : Node := { loneNode with rclone := {} }

def terseNode : Node :=
  { loneNode with
    rclone := { commandTemplate :=
      "put \x7bdata_dir\x7d \x7bbucket_name\x7d:\x7bupload_prefix\x7d/\x7bblock_number\x7d" } }

def recordedHost : Deployment :=
  { loneHost "0x3e8" with store := (createAttempt 1000 false (loneHost "0x3e8").store).2 }

theorem sent_as_recorded_plain :
    (OwnOnly (terseNode.placed "/data" "p" 1000) terseNode.rclone.commandTemplate Place.all
        terseNode.rclone.commandTemplate ∧
      (terseNode.fillTemplate "/data" "p" 1000).toList =
        fill (fun p => (terseNode.placed "/data" "p" 1000 p).toList)
          terseNode.rclone.commandTemplate.toList) ∧
      plainNode.fillTemplate "/data" "p" 1000 =
        defaultCommand "/data" "bucket" "p" (uploadPrefix plainNode 1000) "1000" ∧
      Bucket.covers (uploadPrefix plainNode 1000) (sentTo "p" 1000 ++ "/" ++ "snapshot.tar.zst") = true ∧
      (uploadOne false 1 1000 plainNode).events recordedHost ≠ [] ∧
      ∃ u ∈ ((uploadOne false 1 1000 plainNode).perform recordedHost).2.store.uploads,
        u.attemptId = 1 ∧ u.target = "geth-1" ∧ u.uploadPrefix = uploadPrefix plainNode 1000 := by
  have hown : OwnOnly (terseNode.placed "/data" "p" 1000) terseNode.rclone.commandTemplate
    Place.all terseNode.rclone.commandTemplate := by decide +kernel
  obtain ⟨-, hdefault, hlate, hsame, hcovers, hruns⟩ := sent_as_recorded plainNode 1000
  have hkept : ∀ p ∈ Place.all, late (plainNode.placed "/data" "p" 1000) p =
      plainNode.placed "/data" "p" 1000 p := by
    intro p hp
    refine hlate "/data" "p" p ?_
    revert p
    decide +kernel
  have hcommand := (hdefault rfl "/data" "p").2
  rw [hkept .dataDir (by decide), hkept .bucketName (by decide), hkept .uploadPrefix (by decide)]
    at hcommand
  have hevents : (uploadOne false 1 1000 plainNode).events recordedHost ≠ [] := by decide +kernel
  exact ⟨⟨hown, (sent_as_recorded terseNode 1000).1 "/data" "p" hown⟩,
    hcommand.trans (congrArg (defaultCommand "/data" "bucket" "p" · "1000") (hsame.2 (by decide +kernel))),
    (hcovers _).2 (by decide +kernel), hevents,
    (hruns 1 recordedHost (by decide) ⟨rfl, rfl, rfl⟩).2 hevents⟩

def roamingNode : Node :=
  { plainNode with
    target := { plainNode.target with uploadPrefix := "p/\x7bblock_number\x7d" } }

/-- The height goes into the prefix of the upload, but not into the one on record. -/
theorem sent_elsewhere :
    (roamingNode.fillTemplate "/data" roamingNode.target.uploadPrefix 1000).toList ≠
        fill (fun p => (roamingNode.placed "/data" roamingNode.target.uploadPrefix 1000 p).toList)
          roamingNode.rclone.commandTemplate.toList ∧
      roamingNode.fillTemplate "/data" roamingNode.target.uploadPrefix 1000 =
        defaultCommand "/data" "bucket" "p/1000" "p/1000/1000" "1000" ∧
      uploadPrefix roamingNode 1000 = "p/\x7bblock_number\x7d/1000" ∧
      Bucket.covers (uploadPrefix roamingNode 1000) "p/1000/1000/snapshot.tar.zst" = false := by
  have hlate : ∀ p ∈ Place.all, late (roamingNode.placed "/data" roamingNode.target.uploadPrefix 1000) p =
      plainNode.placed "/data" "p/1000" 1000 p := by decide +kernel
  have hpath : "p/1000" ++ "/" ++ toString (1000 : UInt64).toNat = "p/1000/1000" := by decide +kernel
  have hnumber : toString (1000 : UInt64).toNat = "1000" := by decide +kernel
  have hsent : roamingNode.fillTemplate "/data" roamingNode.target.uploadPrefix 1000 =
      defaultCommand "/data" "bucket" "p/1000" "p/1000/1000" "1000" := by
    have hpassed := Template.passes_default
      (roamingNode.placed "/data" roamingNode.target.uploadPrefix 1000)
    rw [hlate .dataDir (by decide), hlate .bucketName (by decide), hlate .uploadPrefix (by decide),
      hlate .blockNumber (by decide)] at hpassed
    exact hpassed.trans (congrArg₂ (defaultCommand "/data" "bucket" "p/1000") hpath hnumber)
  refine ⟨fun hsame => ?_, hsent, by decide +kernel, by decide +kernel⟩
  have hfilled := Template.fill_default
    (roamingNode.placed "/data" roamingNode.target.uploadPrefix 1000)
  rw [hsent] at hsame
  exact absurd (String.toList_inj.1 (hsame.trans hfilled)) (by decide +kernel)

end Capture

end FleetSnapshot
