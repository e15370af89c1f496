import FleetSnapshot.Proofs.Destination
import FleetSnapshot.Proofs.Listing
import FleetSnapshot.Proofs.Pattern
import FleetSnapshot.Proofs.Ranking
import Mathlib.Data.List.Nodup

/-! What is loaded from a directory. Its files are found by a pattern, so a path with wildcards in it may
lead to none of them. Otherwise nothing gets lost and nothing is made up: what is in the files is loaded
whenever it is sound, with its references filled in and its targets in the order of their aliases. -/

namespace FleetSnapshot

theorem Files.nodup_eraseDups {names : List String} : names.eraseDups.Nodup := by
  induction h : names.length using Nat.strongRecOn generalizing names with
  | _ n ih =>
    cases names with
    | nil => exact List.nodup_nil
    | cons name names =>
      rw [List.eraseDups_cons, List.nodup_cons]
      refine ⟨by simp [List.mem_eraseDups], ih _ ?_ rfl⟩
      rw [← h, List.length_cons]
      exact Nat.lt_succ_of_le (List.length_filter_le _ _)

theorem Files.list_nodup (fs : Files) (path : String) : (fs.list path).Nodup := by
  rw [list]
  split
  · exact List.nodup_nil
  · exact (Order.sort_perm _ _).nodup_iff.2 nodup_eraseDups

theorem forall₂_congr_left {α β : Type} {R S : α → β → Prop} {as : List α} {bs : List β}
    (h : ∀ a ∈ as, ∀ b, R a b ↔ S a b) : List.Forall₂ R as bs ↔ List.Forall₂ S as bs := by
  induction as generalizing bs with
  | nil => simp
  | cons a as ih =>
    rw [List.forall_mem_cons] at h
    simp only [List.forall₂_cons_left_iff, h.1, ih h.2]

/-- What is made of each element of one list and one that goes with it. -/
theorem forall₂_exists_iff {α β γ : Type} {R : α → β → Prop} {f : α → β → γ} {as : List α} {cs : List γ} :
    List.Forall₂ (fun a c => ∃ b, R a b ∧ f a b = c) as cs ↔
      ∃ bs, List.Forall₂ R as bs ∧ List.zipWith f as bs = cs := by
  induction as generalizing cs with
  | nil => simp [eq_comm]
  | cons a as ih =>
    constructor
    · rintro (_ | ⟨⟨b, hab, rfl⟩, hrest⟩)
      obtain ⟨bs, hbs, rfl⟩ := ih.1 hrest
      exact ⟨b :: bs, .cons hab hbs, rfl⟩
    · rintro ⟨_, _ | ⟨hab, hbs⟩, rfl⟩
      exact .cons ⟨_, hab, rfl⟩ (ih.2 ⟨_, hbs, rfl⟩)

namespace Config

variable {fs : Files} {env : Text.Env} {dir name stem : String} {given c : Config}

def stems (fs : Files) (dir : String) : List String := (fs.list s!"{dir}/").filterMap stem?

theorem stem?_eq_some_iff : stem? name = some stem ↔ name ≠ "main.toml" ∧ name = stem ++ ".toml" := by
  have hback : "lmot.".toList = ".toml".toList.reverse := by decide
  rw [stem?]
  split
  case isTrue hmain => exact ⟨nofun, fun h => absurd hmain h.1⟩
  case isFalse hmain =>
    simp only [Option.map_eq_some_iff, hback]
    refine ⟨fun ⟨cs, hstrip, hstem⟩ => ⟨hmain, ?_⟩, fun ⟨_, hname⟩ => ⟨stem.toList.reverse, ?_, ?_⟩⟩
    · have hname := congrArg List.reverse (Text.strip?_eq_some hstrip)
      rw [List.reverse_reverse, List.reverse_append, List.reverse_reverse] at hname
      rw [← hstem, ← String.toList_inj, String.toList_append, String.toList_ofList, hname]
    · rw [hname, String.toList_append, List.reverse_append]
      exact Text.strip?_append _ _
    · rw [List.reverse_reverse, String.ofList_toList]

theorem stems_nodup : (stems fs dir).Nodup := by
  refine List.Nodup.filterMap (fun name name' stem h h' => ?_) (fs.list_nodup _)
  rw [(stem?_eq_some_iff.1 h).2, (stem?_eq_some_iff.1 h').2]

theorem mem_stems : stem ∈ stems fs dir ↔ stem ≠ "main" ∧ stem ++ ".toml" ∈ fs.list s!"{dir}/" := by
  have hmain : stem ++ ".toml" ≠ "main.toml" ↔ stem ≠ "main" := by
    rw [show "main.toml" = "main" ++ ".toml" by decide, ne_eq, String.append_left_inj]
  simp only [stems, List.mem_filterMap, stem?_eq_some_iff]
  constructor
  · rintro ⟨_, hmem, hother, rfl⟩
    exact ⟨hmain.1 hother, hmem⟩
  · rintro ⟨hother, hmem⟩
    exact ⟨_, hmem, hmain.2 hother, rfl⟩

def Holds {α : Type} (fs : Files) (ofDoc : Doc → Option α) (path : String) (a : α) : Prop :=
  ∃ text, fs.readText path = .ok text ∧ (Doc.Toml.read? text).bind ofDoc = some a

theorem readMain_ok_iff : readMain fs dir = .ok given ↔ Holds fs ofDoc s!"{dir}/main.toml" given := by
  have hslash : "/" ++ mainFile = "/main.toml" := by decide
  have hpath : s!"{dir}/{mainFile}" = s!"{dir}/main.toml" :=
    String.append_assoc.trans (congrArg (dir ++ ·) hslash)
  rw [readMain, hpath, Holds]
  cases fs.readText s!"{dir}/main.toml" with
  | error f => simp [throw, throwThe, MonadExceptOf.throw]
  | ok text =>
    cases hread : (Doc.Toml.read? text).bind ofDoc <;>
      simp [hread, throw, throwThe, MonadExceptOf.throw, pure, Except.pure]

theorem readTarget_ok_iff {path : String} {t : Target} : readTarget fs path stem = .ok t ↔
    ∃ raw, Holds fs Target.ofDoc path raw ∧ raw.inFile stem = t := by
  rw [readTarget]
  simp only [Holds]
  cases fs.readText path with
  | error f => simp [throw, throwThe, MonadExceptOf.throw]
  | ok text =>
    cases hread : (Doc.Toml.read? text).bind Target.ofDoc <;>
      simp [hread, throw, throwThe, MonadExceptOf.throw, pure, Except.pure]

theorem targetFiles_plain (h : Pattern.Plain dir) : targetFiles fs dir =
    .ok ((stems fs dir).map fun stem =>
      (((Pattern.Place.directory dir).enter (stem ++ ".toml")).shown, stem)) := by
  obtain ⟨pattern, hread, hfind⟩ := Pattern.find_plain h fs
  have hslash : "/" ++ "*.toml" = "/*.toml" := by decide
  have htext : s!"{dir}/*.toml" = dir ++ "/" ++ "*.toml" :=
    (String.append_assoc.trans (congrArg (dir ++ ·) hslash)).symm
  have hdir : s!"{dir}/" = dir ++ "/" := rfl
  rw [targetFiles, htext, hread]
  dsimp only
  rw [hfind, stems, hdir, List.filterMap_map, List.map_filterMap, List.filterMap_filter]
  congr 1
  refine List.filterMap_congr fun name _ => ?_
  have hname : ((Pattern.Place.directory dir).enter name).name = name := by
    simp [Pattern.Place.enter_directory, Pattern.Place.name]
  rw [Function.comp_apply, hname]
  cases hstem : stem? name with
  | none => simp
  | some stem =>
    obtain ⟨-, rfl⟩ := stem?_eq_some_iff.1 hstem
    have hfits : Pattern.fits (Pattern.ending ".toml") (stem ++ ".toml").toList = true :=
      Pattern.fits_ending.2 ⟨stem.toList, String.toList_append⟩
    rw [if_pos hfits]
    rfl

/-- The targets of a directory are those its files hold, each under the name of its file if it has none of
its own. -/
theorem readTargets_ok_iff (h : Pattern.Plain dir)
    (hwhole : ∀ name ∈ fs.list s!"{dir}/", '/' ∉ name.toList) {targets : List Target} :
    readTargets fs dir = .ok targets ↔ ∃ raw,
      List.Forall₂ (fun stem t => Holds fs Target.ofDoc s!"{dir}/{stem}.toml" t) (stems fs dir) raw ∧
        List.zipWith Target.inFile (stems fs dir) raw = targets := by
  have hread : readTargets fs dir = ((stems fs dir).map fun stem =>
      (((Pattern.Place.directory dir).enter (stem ++ ".toml")).shown, stem)).mapM
        fun file => readTarget fs file.1 file.2 := by
    rw [readTargets, targetFiles_plain h]
    rfl
  have hpath : ∀ stem ∈ stems fs dir, ∀ t,
      readTarget fs ((Pattern.Place.directory dir).enter (stem ++ ".toml")).shown stem = .ok t ↔
        ∃ raw, Holds fs Target.ofDoc s!"{dir}/{stem}.toml" raw ∧ raw.inFile stem = t := by
    intro stem hstem t
    have hlisted := (mem_stems.1 hstem).2
    have hsame : Files.Same ((Pattern.Place.directory dir).enter (stem ++ ".toml")).shown
        (dir ++ "/" ++ (stem ++ ".toml")) :=
      Pattern.Place.same_entry ⟨by simp, hwhole _ hlisted⟩ (by
        intro hself
        have hlength := congrArg (fun s => s.toList.length) hself
        simp at hlength)
    have htext : s!"{dir}/{stem}.toml" = dir ++ "/" ++ (stem ++ ".toml") := String.append_assoc
    rw [readTarget_ok_iff, htext]
    simp only [Holds, hsame.readText]
  rw [hread, Audit.mapM_except_ok, List.forall₂_map_left_iff, ← forall₂_exists_iff]
  exact forall₂_congr_left hpath

/-- No two targets go by one alias, and none lacks a field, if no fault is found among them. -/
theorem targetFault?_eq_none_iff {seen : List String} {targets : List Target} :
    targetFault? seen targets = none ↔ (targets.map (·.name)).Nodup ∧
      ∀ t ∈ targets, t.name ∉ seen ∧ t.blankField? = none := by
  induction targets generalizing seen with
  | nil => simp [targetFault?]
  | cons t ts ih =>
    rw [targetFault?]
    split
    case isTrue hseen => simp [hseen]
    case isFalse hnew =>
      cases hblank : t.blankField? with
      | some field => simp [hblank]
      | none =>
        simp only [ih, List.map_cons, List.nodup_cons, List.mem_cons, not_or, List.mem_map, not_exists,
          not_and]
        grind

/-- What no configuration can do without, once the references in it are filled in. -/
structure Sound (chainId apiToken : String) (snapshots : Snapshots) (targets : List Target) : Prop where
  chainId : Text.blank chainId = false
  apiToken : Text.blank apiToken = false
  blockInterval : 0 < snapshots.blockInterval
  checkInterval : 0 < snapshots.checkIntervalSeconds
  some : targets ≠ []
  fields : ∀ t ∈ targets, Text.blank t.host = false ∧ Text.blank t.user = false ∧
    Text.blank t.dataDir = false ∧ Text.blank t.uploadPrefix = false

theorem blankField?_eq_none_iff {t : Target} : t.blankField? = none ↔ Text.blank t.host = false ∧
    Text.blank t.user = false ∧ Text.blank t.dataDir = false ∧ Text.blank t.uploadPrefix = false := by
  simp [Target.blankField?]

theorem fault?_eq_none_iff : c.fault? = none ↔
    Sound c.chainId c.server.apiToken c.snapshots c.targets ∧ (c.targets.map (·.name)).Nodup := by
  constructor
  · intro h
    unfold fault? at h
    split_ifs at h with hchain hblock hcheck htoken hnone
    obtain ⟨hnodup, hall⟩ := targetFault?_eq_none_iff.1 h
    refine ⟨⟨by simpa using hchain, by simpa using htoken, UInt64.pos_iff_ne_zero.2 hblock,
      UInt64.pos_iff_ne_zero.2 hcheck, by simpa using hnone, ?_⟩, hnodup⟩
    exact fun t ht => blankField?_eq_none_iff.1 (hall t ht).2
  · rintro ⟨h, hnodup⟩
    have hblock := UInt64.pos_iff_ne_zero.1 h.blockInterval
    have hcheck := UInt64.pos_iff_ne_zero.1 h.checkInterval
    have hsome : c.targets.isEmpty = false := by simpa using h.some
    simp only [fault?, h.chainId, hblock, hcheck, h.apiToken, hsome, Bool.false_eq_true, if_false]
    exact targetFault?_eq_none_iff.2
      ⟨hnodup, fun t ht => ⟨List.not_mem_nil, blankField?_eq_none_iff.2 (h.fields t ht)⟩⟩

def placed (env : Text.Env) (stem : String) (t : Target) : Target :=
  { t with
    name := if Text.blank t.name then stem else t.name
    dataDir := Text.expand env t.dataDir }

structure Loaded (env : Text.Env) (given : Config) (targets : List Target) (c : Config) : Prop where
  targets : c.targets.Perm targets
  increasing : (c.targets.map (·.name)).Pairwise (· < ·)
  chainId : c.chainId = given.chainId
  apiToken : c.server.apiToken = Text.expand env given.server.apiToken
  sound : Sound c.chainId c.server.apiToken c.snapshots c.targets
  uploadEnv : ∀ name value, Order.find? name given.snapshots.rclone.env = some value →
    Order.find? name c.snapshots.rclone.env = some (Text.expand env value)
  /-- What was not written is at most filled in from the storage. -/
  others : ∀ name, (∀ x : Detail, x.key ≠ name) →
    Order.find? name given.snapshots.rclone.env = none → Order.find? name c.snapshots.rclone.env = none

theorem find?_uploadEnv_other {s : Storage} {name : String} (h : ∀ x : Detail, x.key ≠ name)
    (es : List (String × String)) : Order.find? name (uploadEnv s es) = Order.find? name es := by
  have hendpoint : "RCLONE_CONFIG_MYS3_ENDPOINT" ≠ name := h .endpoint
  have hbucket : "RCLONE_CONFIG_MYS3_BUCKET_NAME" ≠ name := h .bucketName
  have hregion : "RCLONE_CONFIG_MYS3_REGION" ≠ name := h .region
  rw [uploadEnv]
  repeat' split
  all_goals simp [find?_putDefault, hendpoint, hbucket, hregion]

theorem find?_uploadEnv_of_some {s : Storage} {name value : String} {es : List (String × String)}
    (h : Order.find? name es = some value) : Order.find? name (uploadEnv s es) = some value := by
  rw [uploadEnv]
  repeat' split
  all_goals simp [find?_putDefault, h]

theorem find?_expanded (name : String) (es : List (String × String)) :
    Order.find? name (es.map fun (k, v) => (k, Text.expand env v)) =
      (Order.find? name es).map (Text.expand env) := by
  induction es with
  | nil => rfl
  | cons e es ih =>
    rw [List.map_cons, Order.find?_cons, Order.find?_cons, ih]
    split <;> rfl

theorem byAlias_iff {t u : Target} : byAlias t u = true ↔ t.name ≤ u.name := by
  rw [byAlias, Bool.not_eq_true', decide_eq_false_iff_not, String.not_lt]

theorem sorted_byAlias (targets : List Target) :
    (Order.sort byAlias targets).Pairwise (fun t u => t.name ≤ u.name) := by
  refine (Order.sort_pairwise (fun t u v htu huv => ?_) (fun t u => ?_) targets).imp fun h => byAlias_iff.1 h
  · exact byAlias_iff.2 (String.le_trans (byAlias_iff.1 htu) (byAlias_iff.1 huv))
  · exact (String.le_total t.name u.name).imp byAlias_iff.2 byAlias_iff.2

def expanded (env : Text.Env) (t : Target) : Target := { t with dataDir := Text.expand env t.dataDir }

theorem zipWith_placed (env : Text.Env) (stems : List String) (raw : List Target) :
    List.zipWith (placed env) stems raw = (List.zipWith Target.inFile stems raw).map (expanded env) := by
  rw [List.map_zipWith]
  congr 1
  funext stem t
  rw [placed, Target.inFile]
  split <;> rfl

section Assembled

variable {targets : List Target}

/-- Filling in references and sorting leave every alias as it is. -/
theorem names_assembled (env : Text.Env) (targets : List Target) :
    (((Order.sort byAlias targets).map (expanded env)).map (·.name)).Perm (targets.map (·.name)) := by
  rw [List.map_map]
  exact (Order.sort_perm _ _).map _

theorem assemble_loaded (h : assemble env given targets = .ok c) :
    Loaded env given (targets.map (expanded env)) c ∧ (targets.map (·.name)).Nodup := by
  obtain ⟨rfl, hfault⟩ := assemble_ok_iff.1 h
  obtain ⟨hsound, hnodup⟩ := fault?_eq_none_iff.1 hfault
  refine ⟨⟨(Order.sort_perm _ _).map _, ?_, rfl, rfl, hsound, fun name value hvalue => ?_,
    fun name hother hnone => ?_⟩, (names_assembled env targets).nodup_iff.1 hnodup⟩
  · have hsorted : (((Order.sort byAlias targets).map (expanded env)).map (·.name)).Pairwise (· ≤ ·) := by
      rw [List.map_map, List.pairwise_map]
      exact sorted_byAlias targets
    refine hsorted.imp₂ (fun name name' hle hne => ?_) hnodup
    exact String.not_le.1 fun hge => hne (String.le_antisymm hle hge)
  · refine find?_uploadEnv_of_some ?_
    refine (find?_expanded name _).trans ?_
    rw [hvalue, Option.map_some]
  · refine (find?_uploadEnv_other hother _).trans ((find?_expanded name _).trans ?_)
    rw [hnone, Option.map_none]

/-- Targets that go by different aliases are in order of them in one way only. -/
theorem assemble_perm {targets' : List Target} (hperm : targets.Perm targets')
    (h : assemble env given targets = .ok c) : assemble env given targets' = .ok c := by
  have hsame : Order.sort byAlias targets = Order.sort byAlias targets' := by
    refine List.Perm.eq_of_pairwise (fun t u ht hu htu hut => ?_) (sorted_byAlias targets)
      (sorted_byAlias targets') ((Order.sort_perm _ _).trans (hperm.trans (Order.sort_perm _ _).symm))
    have hmem := (Order.sort_perm _ _).mem_iff.1 ht
    have hmem' := hperm.mem_iff.2 ((Order.sort_perm _ _).mem_iff.1 hu)
    exact List.inj_on_of_nodup_map (assemble_loaded h).2 hmem hmem' (String.le_antisymm htu hut)
  rwa [assemble, ← hsame]

theorem assemble_of_sound (h : Sound given.chainId (Text.expand env given.server.apiToken) given.snapshots
    (targets.map (expanded env))) (hnodup : (targets.map (·.name)).Nodup) :
    ∃ c, assemble env given targets = .ok c := by
  have hperm : ((Order.sort byAlias targets).map (expanded env)).Perm (targets.map (expanded env)) :=
    (Order.sort_perm _ _).map _
  refine ⟨_, assemble_ok_iff.2 ⟨rfl, fault?_eq_none_iff.2 ⟨⟨h.chainId, h.apiToken, h.blockInterval,
    h.checkInterval, fun hnone => h.some ?_, fun t ht => h.fields t (hperm.mem_iff.1 ht)⟩,
    (names_assembled env targets).nodup_iff.2 hnodup⟩⟩⟩
  exact List.nil_perm.1 (hnone ▸ hperm)

end Assembled

/-- Every file that a configuration is loaded from can be read: these are the settings, and these the
targets in the order of their files. -/
structure Reads (fs : Files) (dir : String) (given : Config) (raw : List Target) : Prop where
  main : Holds fs ofDoc s!"{dir}/main.toml" given
  targets : List.Forall₂ (fun stem t => Holds fs Target.ofDoc s!"{dir}/{stem}.toml" t) (stems fs dir) raw

theorem Reads.load_eq (hplain : Pattern.Plain dir)
    (hwhole : ∀ name ∈ fs.list s!"{dir}/", '/' ∉ name.toList) {raw : List Target}
    (h : Reads fs dir given raw) (env : Text.Env) :
    load fs env dir = assemble env given (List.zipWith Target.inFile (stems fs dir) raw) := by
  rw [load, readMain_ok_iff.2 h.main, (readTargets_ok_iff hplain hwhole).2 ⟨raw, h.targets, rfl⟩]
  rfl

theorem exists_reads (hplain : Pattern.Plain dir)
    (hwhole : ∀ name ∈ fs.list s!"{dir}/", '/' ∉ name.toList) (h : load fs env dir = .ok c) :
    ∃ given raw, Reads fs dir given raw := by
  obtain ⟨given, targets, hmain, htargets, -⟩ := load_ok_iff.1 h
  obtain ⟨raw, hraw, -⟩ := (readTargets_ok_iff hplain hwhole).1 htargets
  exact ⟨given, raw, readMain_ok_iff.1 hmain, hraw⟩

/-- A directory without wildcards in its path. Its targets are those of its files that end in `.toml`, but
for the one with the settings, and they are loaded just if all of the files can be read, nothing that has to
be there is blank and no two aliases are the same. Each is loaded as it is written, except for what stands
in for a blank alias and for references, and it does not matter in which order they are come by. -/
theorem load_lossless (hplain : Pattern.Plain dir)
    (hwhole : ∀ name ∈ fs.list s!"{dir}/", '/' ∉ name.toList) (env : Text.Env) :
    (stems fs dir).Nodup ∧
    (∀ stem, stem ∈ stems fs dir ↔ stem ≠ "main" ∧ stem ++ ".toml" ∈ fs.list s!"{dir}/") ∧
    (∀ c, load fs env dir = .ok c → ∃ given raw, Reads fs dir given raw) ∧
    ∀ given raw, Reads fs dir given raw →
      (∀ c, load fs env dir = .ok c →
        Loaded env given (List.zipWith (placed env) (stems fs dir) raw) c ∧
          ∀ visited, visited.Perm (List.zipWith Target.inFile (stems fs dir) raw) →
            assemble env given visited = .ok c) ∧
      (Sound given.chainId (Text.expand env given.server.apiToken) given.snapshots
          (List.zipWith (placed env) (stems fs dir) raw) →
        ((List.zipWith (placed env) (stems fs dir) raw).map (·.name)).Nodup →
          ∃ c, load fs env dir = .ok c) := by
  refine ⟨stems_nodup, fun stem => mem_stems, fun c hload => exists_reads hplain hwhole hload,
    fun given raw hreads => ?_⟩
  rw [hreads.load_eq hplain hwhole, zipWith_placed]
  refine ⟨fun c hc => ⟨(assemble_loaded hc).1, fun visited hperm => assemble_perm hperm.symm hc⟩,
    fun hsound hnodup => assemble_of_sound hsound ?_⟩
  rwa [List.map_map] at hnodup

def loneTarget : Target where
  host := "h"
  user := "u"
  dataDir := "/d"
  uploadPrefix := "p"

theorem reads_lone (hmain : readMain fs dir = .ok (mainWith {})) (hstems : stems fs dir = ["node"])
    (htext : fs.readText (dir ++ "/" ++ "node" ++ ".toml") =
      .ok "host = \"h\"\nuser = \"u\"\ndata_dir = \"/d\"\nupload_prefix = \"p\"\n") :
    Reads fs dir (mainWith {}) [loneTarget] := by
  refine ⟨readMain_ok_iff.1 hmain, ?_⟩
  rw [hstems]
  exact .cons ⟨_, htext, by decide +kernel⟩ .nil

theorem load_lossless_lone :
    Pattern.Plain "c" ∧ (∀ name ∈ (directoryWith "").list "c/", '/' ∉ name.toList) ∧
      load (directoryWith "") surroundings "c" = .ok (configWith {}) ∧
      Loaded surroundings (mainWith {}) [{ loneTarget with name := "node" }] (configWith {}) := by
  have hplain : Pattern.Plain "c" := ⟨by simp [Pattern.wild], fun _ => by decide⟩
  have hwhole : ∀ name ∈ (directoryWith "").list "c/", '/' ∉ name.toList := by decide +kernel
  have hload : load (directoryWith "") surroundings "c" = .ok (configWith {}) := by decide +kernel
  have hstems : stems (directoryWith "") "c" = ["node"] := by decide +kernel
  have hreads : Reads (directoryWith "") "c" (mainWith {}) [loneTarget] :=
    reads_lone (by decide +kernel) hstems (by decide +kernel)
  have hloaded := ((load_lossless hplain hwhole surroundings).2.2.2 _ _ hreads).1 _ hload
  rw [hstems] at hloaded
  exact ⟨hplain, hwhole, hload, hloaded.1⟩

def bracketed : Files where
  home := ""
  entries := (directoryWith "").entries.map fun (way, e) => ("conf[1]" :: way.tail, e)

/-- The brackets are taken for a range, and no target is found, although nothing is wrong with any of the
files. -/
theorem bracketed_targets_lost :
    stems bracketed "conf[1]" = ["node"] ∧ Reads bracketed "conf[1]" (mainWith {}) [loneTarget] ∧
      Sound (mainWith {}).chainId (Text.expand surroundings (mainWith {}).server.apiToken)
        (mainWith {}).snapshots [placed surroundings "node" loneTarget] ∧
      load bracketed surroundings "conf[1]" = .error (.invalid .noTargets) := by
  have hstems : stems bracketed "conf[1]" = ["node"] := by decide +kernel
  have hsound : Sound (mainWith {}).chainId (Text.expand surroundings (mainWith {}).server.apiToken)
      (mainWith {}).snapshots [placed surroundings "node" loneTarget] :=
    ⟨by decide, by decide +kernel, by decide, by decide, List.cons_ne_nil _ _,
      List.forall_mem_singleton.2 (by decide +kernel)⟩
  exact ⟨hstems, reads_lone (by decide +kernel) hstems (by decide +kernel), hsound, by decide +kernel⟩

end Config

end FleetSnapshot
