import FleetSnapshot.Files.Pattern
import FleetSnapshot.Proofs.Splitting
import Mathlib.Data.List.DropRight

/-! Searching a directory by a pattern. A directory whose path has no wildcard in it is taken name by name
as it is written, so what is found are its entries, under paths that lead where their names in it do. -/

namespace FleetSnapshot

namespace Files

/-- Paths with the same names in them lead to the same place. -/
structure Same (path path' : String) : Prop where
  rooted : rooted path = rooted path'
  split : split path = split path'
  empty : path.isEmpty = path'.isEmpty

namespace Same

variable {path path' : String}

theorem names (fs : Files) (h : Same path path') : fs.names path = fs.names path' := by
  rw [Files.names, Files.names, h.split, h.rooted]

theorem readText (fs : Files) (h : Same path path') : fs.readText path = fs.readText path' := by
  rw [Files.readText, Files.readText, find, find, locate, locate, h.names, h.empty]

theorem list (fs : Files) (h : Same path path') : fs.list path = fs.list path' := by
  rw [Files.list, Files.list, locate, locate, h.names, h.empty]

end Same

structure Named (name : String) : Prop where
  some : name ≠ ""
  whole : '/' ∉ name.toList

theorem named_of_mem_written {path name : String} (h : name ∈ written path) : Named name := by
  obtain ⟨f, hf, rfl⟩ := List.mem_map.1 h
  obtain ⟨hfield, hsome⟩ := List.mem_filter.1 hf
  refine ⟨fun hempty => ?_, ?_⟩
  · rw [String.ofList_eq_empty_iff] at hempty
    simp [hempty] at hsome
  · rw [String.toList_ofList]
    exact (Text.of_mem_fields hfield).1

theorem written_slash (front back : String) :
    written (front ++ "/" ++ back) = written front ++ written back := by
  simp only [written, String.toList_append]
  have hslash : front.toList ++ "/".toList ++ back.toList = front.toList ++ '/' :: back.toList := by
    simp
  rw [hslash, Text.fields_append_sep, List.filter_append, List.map_append]

theorem written_name {name : String} (h : Named name) : written name = [name] := by
  have hsome : name.toList.isEmpty = false := by
    simpa using h.some
  simp [written, Text.fields_self h.whole, hsome]

theorem written_empty : written "" = [] := by
  decide

theorem rooted_slash (front back : String) : rooted (front ++ "/" ++ back) = rooted (front ++ "/") := by
  simp only [rooted, String.toList_append]
  cases front.toList <;> rfl

end Files

namespace Pattern

/-- The characters that are not for themselves. -/
def wild : List Char := ['*', '?', '[']

theorem tokens_plain {cs : List Char} (h : ∀ c ∈ cs, c ∉ wild) (rest : List Char) (before : Option Char)
    (position : Nat) : ∃ before' position', tokens? before position 0 (cs ++ rest) =
      (tokens? before' position' 0 rest).map (cs.map Token.char ++ ·) := by
  induction cs generalizing before position with
  | nil =>
    refine ⟨before, position, ?_⟩
    rw [List.nil_append]
    cases tokens? before position 0 rest <;> rfl
  | cons c cs ih =>
    rw [List.forall_mem_cons] at h
    obtain ⟨before', position', hrest⟩ := ih h.2 (some c) (position + 1)
    refine ⟨before', position', ?_⟩
    have hchar : tokens? before position 0 (c :: (cs ++ rest)) =
        (tokens? (some c) (position + 1) 0 (cs ++ rest)).map (Token.char c :: ·) := by
      have hc := h.1
      simp only [wild, List.mem_cons, List.not_mem_nil, or_false, not_or] at hc
      rw [tokens?]
      · exact hc.2.1
      · exact hc.2.2
      · exact hc.1
    rw [List.cons_append, hchar, hrest]
    cases tokens? before' position' 0 rest <;> rfl

theorem part_plain {cs : List Char} (h : ∀ c ∈ cs, c ∉ wild) : part? cs = .ok (.name (String.ofList cs)) := by
  obtain ⟨before, position, htokens⟩ := tokens_plain h [] none 0
  rw [List.append_nil] at htokens
  have hdeep : cs.map Token.char ≠ [.deep] := by
    cases cs <;> simp
  have hchars : (cs.map Token.char).all (·.isChar) = true := by simp [Token.isChar]
  simp only [part?, htokens, tokens?, Except.map, List.append_nil, if_neg hdeep, hchars, if_true]

theorem anyEnd_iff {p : List Char → Bool} {cs : List Char} :
    anyEnd p cs = true ↔ ∃ front back, cs = front ++ back ∧ p back = true := by
  induction cs with
  | nil => simp [anyEnd]
  | cons c cs ih =>
    rw [anyEnd, Bool.or_eq_true, ih]
    constructor
    · rintro (hp | ⟨front, back, rfl, hp⟩)
      · exact ⟨[], c :: cs, rfl, hp⟩
      · exact ⟨c :: front, back, rfl, hp⟩
    · rintro ⟨_ | ⟨_, front⟩, back, heq, hp⟩
      · exact Or.inl (heq ▸ hp)
      · cases heq
        exact Or.inr ⟨front, back, rfl, hp⟩

theorem fits_chars {w cs : List Char} : fits (w.map Token.char) cs = true ↔ cs = w := by
  induction w generalizing cs with
  | nil => simp [fits]
  | cons c w ih => cases cs <;> simp [fits, ih]

theorem fits_ending {w cs : List Char} :
    fits (.run :: w.map Token.char) cs = true ↔ ∃ front, cs = front ++ w := by
  simp [fits, anyEnd_iff, fits_chars]

def ending (w : String) : List Token := .run :: w.toList.map .char

theorem unrooted_append {cs : List Char} (h : cs ≠ []) (rest : List Char) :
    unrooted (cs ++ rest) = unrooted cs ++ rest := by
  obtain ⟨c, cs, rfl⟩ := List.exists_cons_of_ne_nil h
  by_cases hc : c = '/'
  · subst hc
    rfl
  · rw [List.cons_append, unrooted, unrooted]
    · rfl
    · simpa using hc
    · simpa using hc

theorem unrooted_subset (cs : List Char) : ∀ c ∈ unrooted cs, c ∈ cs := by
  rw [unrooted.eq_def]
  split
  · exact fun c hc => List.mem_cons_of_mem _ hc
  · exact fun c hc => hc

/-- The names of a directory as a pattern has them, empty ones included. -/
def steps (dir : String) : List String :=
  if dir.isEmpty then [] else (Text.fields '/' (unrooted dir.toList)).map String.ofList

theorem parts_plain {cs : List Char} (h : ∀ c ∈ cs, c ∉ wild) :
    (Text.fields '/' cs).mapM part? = .ok ((Text.fields '/' cs).map fun f => .name (String.ofList f)) := by
  have hfields : ∀ f ∈ Text.fields '/' cs, part? f = .ok (.name (String.ofList f)) :=
    fun f hf => part_plain fun c hc => h c ((Text.of_mem_fields hf).2 c hc)
  generalize Text.fields '/' cs = fs at hfields ⊢
  induction fs with
  | nil => rfl
  | cons f fs ih =>
    rw [List.forall_mem_cons] at hfields
    rw [List.mapM_cons, hfields.1, ih hfields.2]
    rfl

theorem read_plain {dir : String} (h : ∀ c ∈ dir.toList, c ∉ wild) :
    read? (dir ++ "/" ++ "*.toml") = .ok {
      rooted := Files.rooted (dir ++ "/")
      parts := (steps dir).map .name ++ [.shape (ending ".toml")] } := by
  have htext : (dir ++ "/" ++ "*.toml").toList = dir.toList ++ '/' :: "*.toml".toList := by
    rw [String.toList_append, String.toList_append, List.append_assoc]
    rfl
  have hwhole : ∃ ts, tokens? none 0 0 (dir.toList ++ '/' :: "*.toml".toList) = .ok ts := by
    have hfront : ∀ c ∈ dir.toList ++ ['/'], c ∉ wild := by
      rw [List.forall_mem_append]
      exact ⟨h, by simp [wild]⟩
    obtain ⟨before, position, htokens⟩ := tokens_plain hfront "*.toml".toList none 0
    rw [List.append_assoc] at htokens
    exact ⟨_, htokens.trans rfl⟩
  have hparts : (Text.fields '/' (unrooted (dir.toList ++ '/' :: "*.toml".toList))).mapM part? =
      .ok ((steps dir).map .name ++ [.shape (ending ".toml")]) := by
    rw [steps]
    cases hempty : dir.isEmpty with
    | true =>
      rw [String.isEmpty_iff.1 hempty]
      rfl
    | false =>
      have hsome : dir.toList ≠ [] := by simpa using hempty
      have hdir := parts_plain fun c hc => h c (unrooted_subset _ c hc)
      rw [unrooted_append hsome, Text.fields_append_sep, List.mapM_append, hdir]
      simp only [Bool.false_eq_true, if_false, List.map_map]
      rfl
  obtain ⟨ts, hts⟩ := hwhole
  rw [read?, htext, hts]
  simp only [bind, Except.bind, hparts, Files.rooted_slash]
  rfl

namespace Place

open Files (Named Same written split)

variable {p : Place} {name dir : String}

theorem written_names {names : List String} (h : ∀ n ∈ names, Named n) :
    written ("/".intercalate names) = names := by
  induction names with
  | nil => exact Files.written_empty
  | cons n names ih =>
    rw [List.forall_mem_cons] at h
    cases names with
    | nil => rw [String.intercalate_singleton, Files.written_name h.1]
    | cons m names =>
      rw [String.intercalate_cons_cons, Files.written_slash, Files.written_name h.1, ih h.2]
      rfl

theorem shown_names (h : ∀ n ∈ p.names, Named n) :
    written p.shown = p.names ∧ Files.rooted p.shown = p.rooted := by
  rw [shown]
  cases hp : p.rooted with
  | true =>
    refine ⟨?_, by simp [Files.rooted]⟩
    have hfront := Files.written_slash "" ("/".intercalate p.names)
    rw [Files.written_empty, written_names h] at hfront
    simpa using hfront
  | false =>
    refine ⟨by simpa using written_names h, ?_⟩
    cases hnames : p.names with
    | nil => simp [Files.rooted]
    | cons n names =>
      rw [hnames, List.forall_mem_cons] at h
      obtain ⟨c, cs, hn⟩ := List.exists_cons_of_ne_nil (String.toList_eq_nil_iff.not.2 h.1.some)
      have hslash : c ≠ '/' := by
        rintro rfl
        exact h.1.whole (hn ▸ List.mem_cons_self)
      have hfirst : ("/".intercalate (n :: names)).toList.head? = some c := by
        cases names with
        | nil => simp [hn]
        | cons m names => simp [String.intercalate_cons_cons, hn]
      rw [if_neg Bool.false_ne_true, String.empty_append, Files.rooted, hfirst]
      simpa using hslash

theorem split_shown (h : ∀ n ∈ p.names, Named n) :
    split p.shown = if p.rooted then p.names else p.names.dropWhile (· == ".") := by
  rw [split, (shown_names h).1, (shown_names h).2]

theorem shown_ne_empty (h : ∀ n ∈ p.names, Named n) (hnames : p.rooted = false → p.names ≠ []) :
    p.shown.isEmpty = false := by
  rw [Bool.eq_false_iff, ne_eq, String.isEmpty_iff]
  intro hempty
  have hrooted := (shown_names h).2
  have hwritten := (shown_names h).1
  rw [hempty] at hrooted hwritten
  exact hnames (hrooted.symm.trans (by decide)) (hwritten.symm.trans Files.written_empty)

def lead (p : Place) (names : List String) : Option Place := names.foldlM follow? p

theorem lead_away (h : p.here = false) (names : List String) :
    p.lead names = some { p with names := p.names ++ names.filter (!·.isEmpty) } := by
  induction names generalizing p with
  | nil => simp [lead]
  | cons n names ih =>
    rw [lead, List.foldlM_cons, follow?]
    cases hn : n.isEmpty with
    | true =>
      simp only [h, if_true, Bool.false_eq_true, if_false]
      refine (ih h).trans ?_
      rw [List.filter_cons, hn]
      rfl
    | false =>
      have henter : p.enter n = { p with names := p.names ++ [n] } := by simp [enter, h]
      have haway : (p.enter n).here = false := by
        rw [henter, here, List.all_append, ← Bool.and_assoc]
        rw [here] at h
        simp [h]
      refine (ih haway).trans ?_
      rw [List.filter_cons, hn, henter]
      simp

/-- From the working directory its own name leads nowhere else. -/
theorem lead_start {names : List String} (h : (names.dropWhile (· == ".")).head? ≠ some "") :
    (start false).lead names = some {
      rooted := false
      names :=
        let way := (names.filter (!·.isEmpty)).dropWhile (· == ".")
        if way = [] then ["."] else way } := by
  induction names with
  | nil => rfl
  | cons n names ih =>
    by_cases hn : n = "."
    · subst hn
      refine (ih h).trans ?_
      rfl
    · have hsome : n.isEmpty = false := by
        simpa [hn] using h
      have henter : (start false).enter n = { rooted := false, names := [n] } := rfl
      have haway : ((start false).enter n).here = false := by simp [henter, here, hn]
      rw [lead, List.foldlM_cons, follow?, hsome]
      refine (lead_away haway names).trans ?_
      simp [henter, hsome, hn]

def directory (dir : String) : Place where
  rooted := Files.rooted (dir ++ "/")
  names := if Files.rooted (dir ++ "/") = false ∧ split dir = [] then ["."] else split dir

theorem split_named : ∀ n ∈ split dir, Named n := by
  intro n hn
  rw [split] at hn
  split at hn
  · exact Files.named_of_mem_written hn
  · exact Files.named_of_mem_written ((List.dropWhile_suffix _).subset hn)

theorem directory_named : ∀ n ∈ (directory dir).names, Named n := by
  intro n hn
  rw [directory] at hn
  dsimp only at hn
  split at hn
  · rw [List.mem_singleton.1 hn]
    exact ⟨by decide, by decide⟩
  · exact split_named n hn

/-- A directory without a name is the root. -/
theorem split_directory : split dir =
    if Files.rooted (dir ++ "/") then written dir else (written dir).dropWhile (· == ".") := by
  rw [split]
  cases hdir : dir.toList with
  | nil =>
    rw [String.toList_eq_nil_iff.1 hdir]
    decide
  | cons c cs =>
    have hrooted : Files.rooted (dir ++ "/") = Files.rooted dir := by
      rw [Files.rooted, Files.rooted, String.toList_append, hdir]
      rfl
    rw [hrooted]

theorem split_self (hrooted : Files.rooted (dir ++ "/") = false) :
    (split dir).dropWhile (· == ".") = split dir := by
  rw [split_directory, hrooted]
  exact List.dropWhile_idempotent _ _

theorem directory_here :
    (directory dir).here = true ↔ Files.rooted (dir ++ "/") = false ∧ split dir = [] := by
  cases hrooted : Files.rooted (dir ++ "/") with
  | true => simp [here, directory, hrooted]
  | false =>
    by_cases hempty : split dir = []
    · simp [here, directory, hrooted, hempty]
    · have hother : (split dir).all (· == ".") = false := by
        rw [Bool.eq_false_iff, ne_eq, List.all_eq_true, ← List.dropWhile_eq_nil_iff, split_self hrooted]
        exact hempty
      simp [here, directory, hrooted, hempty, hother]

theorem directory_shown_ne_empty : (directory dir).shown.isEmpty = false := by
  refine shown_ne_empty directory_named fun hrooted => ?_
  rw [directory] at hrooted ⊢
  dsimp only at hrooted ⊢
  split
  · exact List.cons_ne_nil _ _
  · next hsome => exact fun hempty => hsome ⟨hrooted, hempty⟩

theorem same_directory : Same (directory dir).shown (dir ++ "/") := by
  have hwritten : written (dir ++ "/") = written dir := by
    have hslash := Files.written_slash dir ""
    rwa [Files.written_empty, String.append_empty, List.append_nil] at hslash
  refine ⟨(shown_names directory_named).2, ?_, directory_shown_ne_empty.trans (by simp)⟩
  rw [split_shown directory_named, split, hwritten, ← split_directory, directory]
  dsimp only
  cases hrooted : Files.rooted (dir ++ "/") with
  | true => simp
  | false =>
    by_cases hempty : split dir = []
    · simp [hempty]
    · simp [hempty, split_self hrooted]

theorem enter_directory : (directory dir).enter name =
    { rooted := Files.rooted (dir ++ "/"), names := split dir ++ [name] } := by
  by_cases hhere : (directory dir).here = true
  · rw [enter, if_pos hhere, (directory_here.1 hhere).2]
    rfl
  · rw [enter, if_neg hhere, directory, if_neg (directory_here.not.1 hhere)]

/-- An entry is come by under a path that leads where its name in the directory does. -/
theorem same_entry (hname : Named name) (hself : name ≠ ".") :
    Same ((directory dir).enter name).shown (dir ++ "/" ++ name) := by
  rw [enter_directory]
  have hnamed : ∀ n ∈ split dir ++ [name], Named n := by
    exact List.forall_mem_append.2 ⟨split_named, by simpa using hname⟩
  refine ⟨(shown_names hnamed).2.trans (Files.rooted_slash dir name).symm, ?_,
    (shown_ne_empty hnamed fun _ => by simp).trans (by simp)⟩
  have hlast : [name].dropWhile (· == ".") = [name] := by simp [hself]
  have hentry : split (dir ++ "/" ++ name) = if Files.rooted (dir ++ "/") then written dir ++ [name]
      else (written dir ++ [name]).dropWhile (· == ".") := by
    rw [split, Files.written_slash, Files.written_name hname, Files.rooted_slash]
  rw [split_shown hnamed, hentry]
  cases hrooted : Files.rooted (dir ++ "/") with
  | true => simp [split_directory, hrooted]
  | false =>
    simp only [Bool.false_eq_true, if_false, List.dropWhile_append, split_self hrooted, hlast]
    rw [split_directory, hrooted, if_neg Bool.false_ne_true]

end Place

theorem search_names (fs : Files) (names : List String) (parts : List Part) (p : Place) :
    search fs (names.map .name ++ parts) p = (p.lead names).toList.flatMap (search fs parts) := by
  induction names generalizing p with
  | nil => simp [Place.lead]
  | cons n names ih =>
    rw [List.map_cons, List.cons_append, search, Place.lead, List.foldlM_cons]
    cases p.follow? n with
    | none => rfl
    | some q =>
      simp [ih, Place.lead]

/-- A directory that a pattern takes as it is written. There is no wildcard in its path, and where the
path begins with the working directory, a name comes next that is not empty. -/
structure Plain (dir : String) : Prop where
  unwild : ∀ c ∈ dir.toList, c ∉ wild
  opens : Files.rooted (dir ++ "/") = false → ((steps dir).dropWhile (· == ".")).head? ≠ some ""

theorem steps_written (dir : String) : (steps dir).filter (!·.isEmpty) = Files.written dir := by
  have hroot : (Text.fields '/' (unrooted dir.toList)).filter (!·.isEmpty) =
      (Text.fields '/' dir.toList).filter (!·.isEmpty) := by
    cases dir.toList with
    | nil => rfl
    | cons c cs =>
      by_cases hc : c = '/'
      · subst hc
        rfl
      · rw [unrooted]
        simpa using hc
  rw [steps, Files.written, ← hroot]
  split
  · next hempty =>
    rw [String.isEmpty_iff.1 hempty]
    decide
  · rw [List.filter_map]
    congr 1
    refine List.filter_congr fun f _ => ?_
    have hempty : (String.ofList f).isEmpty = f.isEmpty := by
      rw [Bool.eq_iff_iff, String.isEmpty_iff, String.ofList_eq_empty_iff, List.isEmpty_iff]
    rw [Function.comp_apply, hempty]

theorem lead_steps {dir : String} (h : Plain dir) :
    (Place.start (Files.rooted (dir ++ "/"))).lead (steps dir) = some (.directory dir) := by
  cases hrooted : Files.rooted (dir ++ "/") with
  | true =>
    have haway : (Place.start true).here = false := rfl
    rw [Place.lead_away haway, steps_written, Place.directory, hrooted, Place.split_directory, hrooted]
    simp [Place.start]
  | false =>
    rw [Place.lead_start (h.opens hrooted), steps_written, Place.directory, hrooted, Place.split_directory,
      hrooted]
    simp

/-- The files with an ending in a directory. -/
theorem find_plain {dir : String} (h : Plain dir) (fs : Files) : ∃ pattern,
    read? (dir ++ "/" ++ "*.toml") = .ok pattern ∧ pattern.find fs =
      ((fs.list (dir ++ "/")).filter fun name => fits (ending ".toml") name.toList).map
        (Place.directory dir).enter := by
  refine ⟨_, read_plain h.unwild, ?_⟩
  rw [find, search_names, lead_steps h, Option.toList_some, List.flatMap_singleton, search,
    Place.entries, Place.same_directory.list]
  simp [ending, search]

end Pattern

end FleetSnapshot
