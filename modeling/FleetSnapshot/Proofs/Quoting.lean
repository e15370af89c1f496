import FleetSnapshot.Node
import Mathlib.Tactic.SplitIfs

/-! Commands as a POSIX shell reads them: words between blanks, operators between the words, and
comments. Between apostrophes every character stands for itself, between double quotes most do, and
outside of both the one behind a backslash. Expansions are not carried out, but letters that may begin
one are told from those that are literal. A quoted text is read letter by letter as it is wherever the
reader stands outside of quotes, and leaves it there. -/

namespace FleetSnapshot

namespace Shell

structure Letter where
  char : Char
  /-- The shell makes nothing else of it. -/
  literal : Bool
  deriving DecidableEq, Repr

abbrev Word := List Letter

inductive Token where
  | word (w : Word)
  | operator (c : Char)
  deriving DecidableEq, Repr

inductive Mode where
  | bare
  | escaped
  | single
  | double
  | doubleEscaped
  | comment
  deriving DecidableEq, Repr

structure Reader where
  tokens : List Token := []
  /-- The word that has begun, be it empty. -/
  word : Option Word := none
  mode : Mode := .bare
  deriving DecidableEq, Repr

def isBlank (c : Char) : Bool := c == ' ' || c == '\t'

def isOperator (c : Char) : Bool := c ∈ ['|', '&', ';', '<', '>', '(', ')', '\n']

/-- A backslash between double quotes escapes these and no others. -/
def isSpecial (c : Char) : Bool := c ∈ ['$', '`', '"', '\\']

namespace Reader

def close (r : Reader) : Reader :=
  { r with tokens := r.tokens ++ r.word.toList.map .word, word := none }

/-- The word goes on with these letters. If none has begun, it begins with them. -/
def add (w : Word) (r : Reader) : Reader := { r with word := some (r.word.getD [] ++ w) }

def turn (mode : Mode) (r : Reader) : Reader := { r with mode }

def push (t : Token) (r : Reader) : Reader := { r with tokens := r.tokens ++ [t] }

def step (r : Reader) (c : Char) : Reader :=
  match r.mode with
  | .bare =>
    if isBlank c then r.close
    else if isOperator c then r.close.push (.operator c)
    else if c = '#' ∧ r.word = none then r.turn .comment
    else if c = '\'' then (r.add []).turn .single
    else if c = '"' then (r.add []).turn .double
    else if c = '\\' then r.turn .escaped
    else r.add [⟨c, false⟩]
  | .escaped => (if c = '\n' then r else r.add [⟨c, true⟩]).turn .bare
  | .single => if c = '\'' then r.turn .bare else r.add [⟨c, true⟩]
  | .double =>
    if c = '"' then r.turn .bare
    else if c = '\\' then r.turn .doubleEscaped
    else r.add [⟨c, c != '$' && c != '`'⟩]
  | .doubleEscaped =>
    (if c = '\n' then r
      else if isSpecial c then r.add [⟨c, true⟩]
      else r.add [⟨'\\', true⟩, ⟨c, true⟩]).turn .double
  | .comment => if c = '\n' then (r.push (.operator c)).turn .bare else r

def read (r : Reader) (s : String) : Reader := s.toList.foldl step r

def done? (r : Reader) : Option (List Token) :=
  if r.mode = .bare ∨ r.mode = .comment then some r.close.tokens else none

def behind (ts : List Token) (r : Reader) : Reader := { r with tokens := ts ++ r.tokens }

end Reader

open Reader

/-- The words and operators of a command. There are none if a quote is left open. -/
def tokens? (s : String) : Option (List Token) := (({} : Reader).read s).done?

def bare (s : String) : Word := s.toList.map (⟨·, false⟩)

def literal (s : String) : Word := s.toList.map (⟨·, true⟩)

namespace Reader

variable {r : Reader}

theorem read_append (r : Reader) (s t : String) : r.read (s ++ t) = (r.read s).read t := by
  rw [read, String.toList_append, List.foldl_append]
  rfl

@[simp] theorem add_add (w w' : Word) (r : Reader) : (r.add w).add w' = r.add (w ++ w') := by
  simp [add]

@[simp] theorem turn_turn (m m' : Mode) (r : Reader) : (r.turn m).turn m' = r.turn m' := rfl

@[simp] theorem add_turn (w : Word) (m : Mode) (r : Reader) :
    (r.turn m).add w = (r.add w).turn m := rfl

@[simp] theorem turn_mode (m : Mode) (r : Reader) : (r.turn m).mode = m := rfl

theorem turn_bare (h : r.mode = .bare) (w : Word) : (r.add w).turn .bare = r.add w := by
  rw [turn, add, ← h]

/-- Between apostrophes the text comes out as it was, however often it has to leave them. -/
theorem read_escaped (cs : List Char) (r : Reader) (w : Word) :
    (escapeQuotes cs).foldl step ((r.add w).turn .single) =
      (r.add (w ++ cs.map (⟨·, true⟩))).turn .single := by
  induction cs generalizing w with
  | nil => simp [escapeQuotes]
  | cons c cs ih =>
    rw [escapeQuotes]
    split
    case isTrue h =>
      subst h
      have hleave : ['\'', '\\', '\'', '\''].foldl step ((r.add w).turn .single) =
          (r.add (w ++ [⟨'\'', true⟩])).turn .single := by
        simp [step, isBlank, isOperator]
      change (escapeQuotes cs).foldl step
        (['\'', '\\', '\'', '\''].foldl step ((r.add w).turn .single)) = _
      rw [hleave, ih]
      simp
    case isFalse h =>
      rw [List.foldl_cons]
      have hstep : step ((r.add w).turn .single) c = (r.add (w ++ [⟨c, true⟩])).turn .single := by
        simp [step, h]
      rw [hstep, ih]
      simp

/-- Outside of quotes a quoted text is read as it is, and the reader stays outside. -/
theorem read_quote (h : r.mode = .bare) (s : String) : r.read (quote s) = r.add (literal s) := by
  have hopen : r.step '\'' = (r.add []).turn .single := by
    simp [step, h, isBlank, isOperator]
  rw [read, quote, String.toList_ofList, quoteChars, List.foldl_cons, List.foldl_append, hopen,
    read_escaped]
  have hclose : step ((r.add (literal s)).turn .single) '\'' = r.add (literal s) := by
    simp [step, turn_bare h]
  exact hclose

@[simp] theorem behind_mode (ts : List Token) (r : Reader) : (r.behind ts).mode = r.mode := rfl

@[simp] theorem behind_word (ts : List Token) (r : Reader) : (r.behind ts).word = r.word := rfl

@[simp] theorem behind_close (ts : List Token) (r : Reader) :
    (r.behind ts).close = r.close.behind ts := by
  simp [behind, close]

@[simp] theorem behind_push (ts : List Token) (t : Token) (r : Reader) :
    (r.behind ts).push t = (r.push t).behind ts := by
  simp [behind, push]

@[simp] theorem behind_add (ts : List Token) (w : Word) (r : Reader) :
    (r.behind ts).add w = (r.add w).behind ts := rfl

@[simp] theorem behind_turn (ts : List Token) (m : Mode) (r : Reader) :
    (r.behind ts).turn m = (r.turn m).behind ts := rfl

theorem step_behind (ts : List Token) (r : Reader) (c : Char) :
    (r.behind ts).step c = (r.step c).behind ts := by
  cases hm : r.mode <;> cases hw : r.word <;>
    simp [step, hm, hw, apply_ite (behind ts), apply_ite (turn _)]

theorem read_behind (ts : List Token) (r : Reader) (s : String) :
    (r.behind ts).read s = (r.read s).behind ts := by
  unfold read
  induction s.toList generalizing r with
  | nil => rfl
  | cons c cs ih => rw [List.foldl_cons, List.foldl_cons, step_behind, ih]

theorem done?_behind (ts : List Token) (r : Reader) :
    (r.behind ts).done? = r.done?.map (ts ++ ·) := by
  unfold done?
  by_cases h : r.mode = .bare ∨ r.mode = .comment <;> simp [behind, close, h]

theorem read_blank (h : r.mode = .bare) : r.read " " = r.close := by
  change r.step ' ' = r.close
  simp [step, h, isBlank]

end Reader

/-- Outside of quotes the text adds these letters to the word under way, or begins one with them. -/
def Spells (s : String) (w : Word) : Prop := ∀ r : Reader, r.mode = .bare → r.read s = r.add w

/-- The text is whole words and operators, up to a blank that has yet to come. -/
structure Whole (front : String) (ts : List Token) : Prop where
  bare : (({} : Reader).read front).mode = .bare
  tokens : (({} : Reader).read front).close.tokens = ts

/-- A text without anything that the shell makes more of than a letter. -/
def Plain (s : String) : Prop :=
  ∀ c ∈ s.toList, isBlank c = false ∧ isOperator c = false ∧ c ∉ ['#', '\'', '"', '\\']

instance (s : String) : Decidable (Plain s) :=
  List.decidableBAll _ s.toList

section Words

variable {s t front : String} {w w' : Word} {ts : List Token}

theorem spells_quote (s : String) : Spells (quote s) (literal s) := fun _ h => read_quote h s

theorem Spells.append (hs : Spells s w) (ht : Spells t w') : Spells (s ++ t) (w ++ w') := by
  intro r h
  rw [read_append, hs r h, ht (r.add w) h, add_add]

theorem step_plain {r : Reader} {c : Char} (h : r.mode = .bare)
    (hc : isBlank c = false ∧ isOperator c = false ∧ c ∉ ['#', '\'', '"', '\\']) :
    r.step c = r.add [⟨c, false⟩] := by
  obtain ⟨hblank, hoperator, hc⟩ := hc
  simp only [List.mem_cons, List.not_mem_nil, or_false, not_or] at hc
  simp [step, h, hblank, hoperator, hc]

theorem Plain.spells (hs : Plain s) (hne : s ≠ "") : Spells s (bare s) := by
  intro r h
  have hmore : ∀ (cs : List Char) (w : Word), (∀ c ∈ cs, c ∈ s.toList) →
      cs.foldl step (r.add w) = r.add (w ++ cs.map (⟨·, false⟩)) := by
    intro cs
    induction cs with
    | nil => simp
    | cons c cs ih =>
      intro w hcs
      obtain ⟨hc, hcs⟩ := List.forall_mem_cons.1 hcs
      rw [List.foldl_cons, step_plain (r := r.add w) h (hs c hc), add_add, ih _ hcs]
      simp
  have hne' : s.toList ≠ [] := fun hnil => hne (String.toList_eq_nil_iff.1 hnil)
  obtain ⟨c, cs, hlist⟩ := List.exists_cons_of_ne_nil hne'
  have hmem : ∀ d ∈ c :: cs, d ∈ s.toList := fun d hd => hlist ▸ hd
  obtain ⟨hc, hcs⟩ := List.forall_mem_cons.1 hmem
  rw [Reader.read, bare, hlist, List.foldl_cons, step_plain h (hs c hc), hmore cs _ hcs]
  rfl

theorem Plain.append (hs : Plain s) (ht : Plain t) : Plain (s ++ t) := by
  intro c hc
  rw [String.toList_append, List.mem_append] at hc
  exact hc.elim (hs c) (ht c)

theorem Plain.spells_append (hs : Plain s) (ht : Plain t) (hne : t ≠ "") :
    Spells (s ++ t) (bare (s ++ t)) :=
  (hs.append ht).spells fun hempty => hne (String.append_eq_empty_iff.1 hempty).2

theorem Whole.tokens_eq (h : Whole front ts) : tokens? front = some ts := by
  rw [tokens?, done?, if_pos (.inl h.bare), h.tokens]

/-- Where a word ends, all is as at the start, but for what has been read. -/
theorem Whole.read_blank (h : Whole front ts) :
    ({} : Reader).read (front ++ " ") = behind ts {} := by
  rw [read_append, Reader.read_blank h.bare, ← h.tokens]
  simp [behind, close, h.bare]

theorem Whole.tokens_append (h : Whole front ts) (t : String) :
    tokens? (front ++ " " ++ t) = (tokens? t).map (ts ++ ·) := by
  rw [tokens?, read_append, h.read_blank, read_behind, done?_behind]
  rfl

theorem Spells.whole (h : Spells s w) : Whole s [.word w] := by
  have hread := h {} rfl
  exact ⟨by rw [hread]; rfl, by rw [hread]; rfl⟩

theorem Whole.word (h : Whole front ts) (hs : Spells s w) :
    Whole (front ++ " " ++ s) (ts ++ [.word w]) := by
  have hread : ({} : Reader).read (front ++ " " ++ s) = (add w {}).behind ts := by
    rw [read_append, h.read_blank, read_behind, hs {} rfl]
  exact ⟨by rw [hread]; rfl, by rw [hread]; simp [behind, close, add]⟩

theorem tokens_blank (t : String) : tokens? (" " ++ t) = tokens? t := by
  rw [tokens?, read_append]
  rfl

end Words

section Places

def Outside (front : String) : Prop := (({} : Reader).read front).mode = .bare

/-- Quoted behind the text, the value adds its own letters to the word, each for itself, and nothing
else comes of it. -/
def Unaltered (front v : String) : Prop :=
  ({} : Reader).read (front ++ quote v) = (({} : Reader).read front).add (literal v)

/-- No other place would do: within quotes, behind a backslash and in a comment the first apostrophe
of a quoted value means something else. -/
theorem unaltered_iff (front : String) : (∀ v, Unaltered front v) ↔ Outside front := by
  refine ⟨fun h => ?_, fun h v => (read_append _ _ _).trans (read_quote h v)⟩
  have ha := h "a"
  unfold Unaltered at ha
  unfold Outside
  rw [read_append] at ha
  generalize ({} : Reader).read front = r at ha
  have hquote : quote "a" = "'a'" := by decide
  rw [hquote] at ha
  change ((r.step '\'').step 'a').step '\'' = r.add [⟨'a', true⟩] at ha
  cases hm : r.mode
  case bare => rfl
  all_goals
    obtain ⟨tokens, word, mode⟩ := r
    subst hm
    cases word <;> simp [step, add, turn, isBlank, isOperator, isSpecial] at ha

def through (front v : String) : List Token :=
  (({} : Reader).read front).tokens ++
    [.word ((({} : Reader).read front).word.getD [] ++ literal v)]

theorem Outside.whole {front : String} (h : Outside front) (v : String) :
    Whole (front ++ quote v) (through front v) := by
  have hread : ({} : Reader).read (front ++ quote v) = (({} : Reader).read front).add (literal v) :=
    (unaltered_iff front).2 h v
  exact ⟨by rw [hread]; exact h, by rw [hread]; rfl⟩

end Places

end Shell

namespace Node

open Shell

section Commands

def optionsOf (env : List (String × String)) : String :=
  String.join (env.map fun (k, v) => " -e " ++ k ++ "=" ++ quote v)

def beforeValue (dir : String) (before : List (String × String)) (name : String) : String :=
  "docker run --rm -v " ++ dir ++ ":" ++ dir ++ optionsOf before ++ " -e " ++ name ++ "="

def entrypointOn (n : Node) (dir pre : String) (height : UInt64) : String :=
  " --entrypoint " ++ n.rclone.entrypoint ++ " rclone/rclone:" ++ n.rclone.version ++ " " ++
    n.fillTemplate dir pre height

def optionWords (env : List (String × String)) : List Token :=
  env.flatMap fun (k, v) => [.word (bare "-e"), .word (bare (k ++ "=") ++ literal v)]

def requestWords : List Token :=
  ["curl", "-s", "-X", "POST", "-H"].map (.word ∘ bare) ++
    [.word (literal "Content-Type: application/json"), .word (bare "--data")]

def uploadWords (dir : String) : List Token :=
  ["docker", "run", "--rm", "-v", dir ++ ":" ++ dir].map (.word ∘ bare)

variable {n : Node} {dir front : String} {env before after : List (String × String)} {k v : String}
  {ts : List Token}

theorem uploadCommand_eq (n : Node) (dir pre : String) (height : UInt64) :
    n.uploadCommand dir pre height =
      "docker run --rm -v " ++ dir ++ ":" ++ dir ++ optionsOf n.rclone.env ++
        n.entrypointOn dir pre height := by
  have henv : n.envOptions = optionsOf n.rclone.env := rfl
  unfold uploadCommand entrypointOn
  rw [henv]
  simp only [String.append_assoc]

theorem optionsOf_cons (k v : String) (env : List (String × String)) :
    optionsOf ((k, v) :: env) = " -e " ++ k ++ "=" ++ quote v ++ optionsOf env :=
  String.join_cons

theorem optionsOf_append (before after : List (String × String)) :
    optionsOf (before ++ after) = optionsOf before ++ optionsOf after := by
  rw [optionsOf, List.map_append, String.join_append]
  rfl

theorem uploadCommand_split (h : n.rclone.env = before ++ (k, v) :: after) (dir pre : String)
    (height : UInt64) :
    n.uploadCommand dir pre height =
      beforeValue dir before k ++ quote v ++ (optionsOf after ++ n.entrypointOn dir pre height) := by
  rw [uploadCommand_eq, h, optionsOf_append, optionsOf_cons]
  unfold beforeValue
  simp only [String.append_assoc]

/-- Behind a value a blank follows, so that its word is over. -/
theorem blank_first (n : Node) (after : List (String × String)) (dir pre : String) (height : UInt64) :
    ∃ t, optionsOf after ++ n.entrypointOn dir pre height = " " ++ t := by
  cases after with
  | nil =>
    have hblank : " --entrypoint " = " " ++ "--entrypoint " := by decide
    have hnone : optionsOf [] = "" := rfl
    unfold entrypointOn
    rw [hnone, String.empty_append, hblank]
    simp only [String.append_assoc]
    exact ⟨_, rfl⟩
  | cons e after =>
    have hblank : " -e " = " " ++ "-e " := by decide
    rw [optionsOf_cons, hblank]
    simp only [String.append_assoc]
    exact ⟨_, rfl⟩

theorem tokens_command (h : Whole front ts) (n : Node) (after : List (String × String))
    (dir pre : String) (height : UInt64) :
    tokens? (front ++ (optionsOf after ++ n.entrypointOn dir pre height)) =
      (tokens? (optionsOf after ++ n.entrypointOn dir pre height)).map (ts ++ ·) := by
  obtain ⟨t, ht⟩ := n.blank_first after dir pre height
  rw [ht, tokens_blank, ← String.append_assoc, h.tokens_append]

theorem whole_options (hnames : ∀ e ∈ env, Plain e.1) (h : Whole front ts) :
    Whole (front ++ optionsOf env) (ts ++ optionWords env) := by
  induction env generalizing front ts with
  | nil =>
    have hnone : optionsOf [] = "" := rfl
    rw [hnone, String.append_empty]
    simpa [optionWords] using h
  | cons e env ih =>
    obtain ⟨k, v⟩ := e
    obtain ⟨hk, hnames⟩ := List.forall_mem_cons.1 hnames
    have hvalue : Spells (k ++ "=" ++ quote v) (bare (k ++ "=") ++ literal v) :=
      (hk.spells_append (by decide) (by decide)).append (spells_quote v)
    have hcut : front ++ optionsOf ((k, v) :: env) =
        front ++ " " ++ "-e" ++ " " ++ (k ++ "=" ++ quote v) ++ optionsOf env := by
      have hblanks : " -e " = " " ++ "-e" ++ " " := by decide
      rw [optionsOf_cons, hblanks]
      simp only [String.append_assoc]
    have hflag : Spells "-e" (bare "-e") := Plain.spells (by decide) (by decide)
    rw [hcut]
    simpa [optionWords] using ih hnames ((h.word hflag).word hvalue)

theorem whole_volume (hdir : Plain dir) :
    Whole ("docker run --rm -v " ++ dir ++ ":" ++ dir) (uploadWords dir) := by
  have hdocker : Whole "docker run --rm -v" (["docker", "run", "--rm", "-v"].map (.word ∘ bare)) :=
    ⟨by decide +kernel, by decide +kernel⟩
  have hvolume : Spells (dir ++ ":" ++ dir) (bare (dir ++ ":" ++ dir)) := by
    refine ((hdir.append (by decide)).append hdir).spells fun hempty => ?_
    exact absurd (String.append_eq_empty_iff.1 (String.append_eq_empty_iff.1 hempty).1).2 (by decide)
  have hcut : "docker run --rm -v " ++ dir ++ ":" ++ dir =
      "docker run --rm -v" ++ " " ++ (dir ++ ":" ++ dir) := by
    have hblank : "docker run --rm -v " = "docker run --rm -v" ++ " " := by decide
    rw [hblank]
    simp only [String.append_assoc]
  rw [hcut]
  exact hdocker.word hvolume

theorem whole_request :
    Whole "curl -s -X POST -H \"Content-Type: application/json\" --data" requestWords :=
  ⟨by decide +kernel, by decide +kernel⟩

theorem tokens_rpcCommand (n : Node) (request rest : String) :
    tokens? (n.rpcCommand request ++ rest) =
      (tokens? (n.target.endpoints.execution ++ " | jq -r \".result\"" ++ rest)).map
        (requestWords ++ [.word (literal request)] ++ ·) := by
  have hcut : n.rpcCommand request ++ rest =
      "curl -s -X POST -H \"Content-Type: application/json\" --data" ++ " " ++ quote request ++ " " ++
        (n.target.endpoints.execution ++ " | jq -r \".result\"" ++ rest) := by
    have hblank : "curl -s -X POST -H \"Content-Type: application/json\" --data " =
      "curl -s -X POST -H \"Content-Type: application/json\" --data" ++ " " := by decide
    unfold rpcCommand
    rw [hblank]
    simp only [String.append_assoc]
  rw [hcut, (whole_request.word (spells_quote request)).tokens_append]

theorem tokens_metadataCommand (n : Node) (dir image : String) (height : UInt64) :
    tokens? (n.metadataCommand dir image height) =
      (tokens? ("| sudo tee " ++ dir ++ "/" ++ metadataFile ++ " > /dev/null")).map
        ([.word (bare "echo"), .word (literal (Doc.Json.write (n.metadataDoc image height)))] ++ ·) := by
  have hecho : Whole "echo" [.word (bare "echo")] := ⟨by decide, by decide⟩
  have hcut : n.metadataCommand dir image height =
      "echo" ++ " " ++ quote (Doc.Json.write (n.metadataDoc image height)) ++ " " ++
        ("| sudo tee " ++ dir ++ "/" ++ metadataFile ++ " > /dev/null") := by
    have hblank : "echo " = "echo" ++ " " := by decide
    have hblanks : " | sudo tee " = " " ++ "| sudo tee " := by decide
    unfold metadataCommand
    rw [hblank, hblanks]
    simp only [String.append_assoc]
  rw [hcut, (hecho.word (spells_quote _)).tokens_append]
  rfl

/-- A quoted text is one word, the text letter by letter, and the words of what follows a blank come
after it. So it is with the payload of a call and with the description of an upload. A variable's
value is itself too, in any place outside of quotes and in no other. Whether it stands there is up to
what the upload command does not quote: the data directory and the names of the variables. -/
theorem quoting_faithful (n : Node) :
    (∀ s, tokens? (quote s) = some [.word (literal s)]) ∧
      (∀ s t, tokens? (quote s ++ " " ++ t) = (tokens? t).map (.word (literal s) :: ·)) ∧
      (∀ request rest, tokens? (n.rpcCommand request ++ rest) =
        (tokens? (n.target.endpoints.execution ++ " | jq -r \".result\"" ++ rest)).map
          (requestWords ++ [.word (literal request)] ++ ·)) ∧
      (∀ dir image height, tokens? (n.metadataCommand dir image height) =
        (tokens? ("| sudo tee " ++ dir ++ "/" ++ metadataFile ++ " > /dev/null")).map
          ([.word (bare "echo"), .word (literal (Doc.Json.write (n.metadataDoc image height)))] ++ ·)) ∧
      (∀ front, (∀ v, Unaltered front v) ↔ Outside front) ∧
      (∀ dir pre height before k v after, n.rclone.env = before ++ (k, v) :: after →
        n.uploadCommand dir pre height = beforeValue dir before k ++ quote v ++
            (optionsOf after ++ n.entrypointOn dir pre height) ∧
          (Outside (beforeValue dir before k) →
            tokens? (n.uploadCommand dir pre height) =
              (tokens? (optionsOf after ++ n.entrypointOn dir pre height)).map
                (through (beforeValue dir before k) v ++ ·))) ∧
      ∀ dir pre height, Plain dir → (∀ e ∈ n.rclone.env, Plain e.1) →
        tokens? (n.uploadCommand dir pre height) = (tokens? (n.entrypointOn dir pre height)).map
          (uploadWords dir ++ optionWords n.rclone.env ++ ·) := by
  refine ⟨fun s => (spells_quote s).whole.tokens_eq, fun s t => (spells_quote s).whole.tokens_append t,
    n.tokens_rpcCommand, n.tokens_metadataCommand, unaltered_iff, ?value, ?values⟩
  case value =>
    intro dir pre height before k v after henv
    have hsplit := uploadCommand_split henv dir pre height
    refine ⟨hsplit, fun houtside => ?_⟩
    rw [hsplit, tokens_command (houtside.whole v)]
  case values =>
    intro dir pre height hdir hnames
    have hnone : optionsOf [] = "" := rfl
    have hwhole := tokens_command (whole_options hnames (whole_volume hdir)) n [] dir pre height
    rw [hnone, String.empty_append] at hwhole
    rw [uploadCommand_eq, hwhole]

def nodeWith (env : List (String × String)) : Node where
  index := 0
  target := { name := "geth-1", host := "", user := "", dataDir := "/data", uploadPrefix := "p" }
  rclone := { env, commandTemplate := "-c \"rclone sync \x7bdata_dir\x7d s3:/\x7bbucket_name\x7d\"" }
  bucketName := "bucket"

def quaintEnv : List (String × String) := [("KEY", "it's '' $x\n"), ("NONE", "")]

theorem quoting_faithful_quaint :
    (Outside (beforeValue "/data" [] "KEY") ∧
      tokens? ((nodeWith quaintEnv).uploadCommand "/data" "p" 1000) =
        (tokens? (optionsOf [("NONE", "")] ++ (nodeWith quaintEnv).entrypointOn "/data" "p" 1000)).map
          (through (beforeValue "/data" [] "KEY") "it's '' $x\n" ++ ·)) ∧
      Plain "/data" ∧ (∀ e ∈ quaintEnv, Plain e.1) ∧
      tokens? ((nodeWith quaintEnv).uploadCommand "/data" "p" 1000) =
        (tokens? ((nodeWith quaintEnv).entrypointOn "/data" "p" 1000)).map
          (uploadWords "/data" ++ optionWords quaintEnv ++ ·) ∧
      (tokens? ((nodeWith quaintEnv).entrypointOn "/data" "p" 1000)).isSome := by
  obtain ⟨-, -, -, -, -, hvalue, hvalues⟩ := quoting_faithful (nodeWith quaintEnv)
  have houtside : Outside (beforeValue "/data" [] "KEY") := by
    unfold Outside
    decide +kernel
  have hnames : ∀ e ∈ quaintEnv, Plain e.1 := by decide +kernel
  exact ⟨⟨houtside, (hvalue "/data" "p" 1000 [] "KEY" _ _ rfl).2 houtside⟩, by decide +kernel, hnames,
    hvalues "/data" "p" 1000 (by decide +kernel) hnames, by decide +kernel⟩

/-- An apostrophe in a variable's name turns the quotes of its value inside out. -/
theorem value_split :
    ¬ Unaltered (beforeValue "/data" [] "A'") "x y" ∧
      tokens? ((nodeWith [("A'", "x y")]).uploadCommand "/data" "p" 1000) = none := by
  unfold Unaltered
  decide +kernel

end Commands

end Node

end FleetSnapshot
