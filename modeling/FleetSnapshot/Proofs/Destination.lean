import FleetSnapshot.Bucket.Settings
import FleetSnapshot.Config.Directory
import Mathlib.Control.Monad.Basic

/-! Where uploads go and where the cleanup works. Both read the storage of one configuration. The
cleanup falls back on the environment for what is left empty there; the upload container is told
only what is written there, and nothing at all unless an endpoint is. So it is told the storage of
the cleanup, or nothing, but never another storage. -/

namespace FleetSnapshot

namespace Order

variable {α : Type}

theorem find?_eq_none {name : String} {es : List (String × α)} :
    find? name es = none ↔ name ∉ es.map Prod.fst := by
  rw [find?, Option.map_eq_none_iff, List.find?_eq_none]
  simp only [beq_iff_eq, List.mem_map, not_exists, not_and]

end Order

namespace Config

open Bucket (Settings nonEmpty fromEnv)

theorem find?_putDefault (name key value : String) (es : List (String × String)) :
    Order.find? name (putDefault key value es) =
      (Order.find? name es).or (if key = name then some value else none) := by
  have hany : es.any (·.1 == key) = (Order.find? key es).isSome := by
    rw [Order.find?, Option.isSome_map, Bool.eq_iff_iff, List.any_eq_true, List.find?_isSome]
  rw [putDefault, hany]
  by_cases hname : key = name
  · subst hname
    cases hfound : Order.find? key es with
    | some v => simp [hfound]
    | none => simp [Order.find?_put]
  · split <;> simp [Order.find?_put, hname]

/-- What can be told of a storage by a variable of the upload container. -/
inductive Detail where
  | endpoint
  | region
  | bucketName
  deriving DecidableEq, Repr

namespace Detail

def key : Detail → String
  | endpoint => "RCLONE_CONFIG_MYS3_ENDPOINT"
  | region => "RCLONE_CONFIG_MYS3_REGION"
  | bucketName => "RCLONE_CONFIG_MYS3_BUCKET_NAME"

def written (s : Storage) : Detail → String
  | endpoint => s.endpoint
  | region => s.region
  | bucketName => s.bucketName

/-- What the cleanup and the marker go by. -/
def used (s : Settings) : Detail → String
  | endpoint => s.endpoint
  | region => s.region
  | bucketName => s.bucketName

end Detail

variable {fs : Files} {env : Text.Env} {dir : String} {given c : Config} {settings : Settings}

/-- A variable that has not been set is told what is written, if an endpoint is. -/
theorem find?_uploadEnv (s : Storage) (x : Detail) (es : List (String × String)) :
    Order.find? x.key (uploadEnv s es) =
      (Order.find? x.key es).or (if s.endpoint.isEmpty then none else nonEmpty (x.written s)) := by
  rw [uploadEnv]
  by_cases hendpoint : s.endpoint.isEmpty = true
  · simp [hendpoint]
  by_cases hbucket : s.bucketName.isEmpty = true <;> by_cases hregion : s.region.isEmpty = true <;>
    cases x <;> simp [find?_putDefault, Detail.key, Detail.written, nonEmpty, hendpoint, hbucket, hregion]

/-- References are filled in in the values only. -/
theorem expandAll_keys (env : Text.Env) (c : Config) :
    (expandAll env c).snapshots.rclone.env.map Prod.fst = c.snapshots.rclone.env.map Prod.fst := by
  simp [expandAll, Function.comp_def]

theorem load_ok_iff : load fs env dir = .ok c ↔ ∃ given targets,
    readMain fs dir = .ok given ∧ readTargets fs dir = .ok targets ∧ assemble env given targets = .ok c := by
  rw [load]
  cases readMain fs dir with
  | error f => simp [bind, Except.bind]
  | ok given => cases readTargets fs dir <;> simp [bind, Except.bind]

theorem assemble_ok_iff {targets : List Target} : assemble env given targets = .ok c ↔
    c = withUploadEnv (expandAll env { given with targets := Order.sort byAlias targets }) ∧
      c.fault? = none := by
  rw [assemble]
  split
  · next f hfault =>
    refine ⟨nofun, fun ⟨heq, hnone⟩ => ?_⟩
    rw [← heq, hnone] at hfault
    cases hfault
  · next hnone =>
    refine ⟨fun heq => ?_, fun ⟨heq, _⟩ => heq ▸ rfl⟩
    cases heq
    exact ⟨rfl, hnone⟩

theorem load_eq (hread : readMain fs dir = .ok given) (hload : load fs env dir = .ok c) :
    ∃ targets, c = withUploadEnv (expandAll env { given with targets }) := by
  obtain ⟨given', targets, hread', -, hassemble⟩ := load_ok_iff.1 hload
  rw [hread] at hread'
  cases hread'
  exact ⟨_, (assemble_ok_iff.1 hassemble).1⟩

/-- What a loaded configuration tells the upload container of its own accord. -/
theorem told (hread : readMain fs dir = .ok given) (hload : load fs env dir = .ok c) (x : Detail)
    (hunset : x.key ∉ given.snapshots.rclone.env.map Prod.fst) :
    Order.find? x.key c.snapshots.rclone.env =
      if c.snapshots.storage.endpoint.isEmpty then none
      else nonEmpty (x.written c.snapshots.storage) := by
  obtain ⟨targets, rfl⟩ := load_eq hread hload
  have hnone : Order.find? x.key (expandAll env { given with targets }).snapshots.rclone.env = none := by
    rw [Order.find?_eq_none, expandAll_keys]
    exact hunset
  refine (find?_uploadEnv _ x _).trans ?_
  rw [hnone, Option.none_or]
  rfl

/-- What is written goes before what the environment says. -/
theorem used_of_written {s : Storage} (hresolve : Settings.resolve s env = .ok settings) (x : Detail)
    (hwritten : (x.written s).isEmpty = false) : x.used settings = x.written s := by
  simp only [Settings.resolve] at hresolve
  split at hresolve
  · split at hresolve
    · split at hresolve
      · next hendpoint _ _ _ _ =>
        cases hresolve
        cases x <;> simp_all [Detail.used, Detail.written, nonEmpty, Settings.bucketName?]
      · cases hresolve
    · cases hresolve
  · cases hresolve

/-- The upload container is told what the cleanup goes by. A bucket without a name need not be
told of. -/
def Shared (c : Config) (settings : Settings) (x : Detail) : Prop :=
  (x = .bucketName → settings.bucketName ≠ "") →
    Order.find? x.key c.snapshots.rclone.env = some (x.used settings)

/-- The upload container is told the storage of the cleanup or nothing. -/
theorem told_used_or_nothing (hread : readMain fs dir = .ok given) (hload : load fs env dir = .ok c)
    (hresolve : Settings.resolve c.snapshots.storage env = .ok settings) (x : Detail)
    (hunset : x.key ∉ given.snapshots.rclone.env.map Prod.fst) :
    Order.find? x.key c.snapshots.rclone.env =
      if c.snapshots.storage.endpoint.isEmpty || (x.written c.snapshots.storage).isEmpty then none
      else some (x.used settings) := by
  rw [told hread hload x hunset]
  cases hendpoint : c.snapshots.storage.endpoint.isEmpty with
  | true => simp
  | false =>
    cases hwritten : (x.written c.snapshots.storage).isEmpty with
    | true => simp [nonEmpty, hwritten]
    | false => simp [nonEmpty, hwritten, used_of_written hresolve x hwritten]

/-- Uploads and cleanup share what is written in the configuration, given that an endpoint is, and
nothing that comes from the environment or by default. -/
theorem shared_iff_written (hread : readMain fs dir = .ok given) (hload : load fs env dir = .ok c)
    (hresolve : Settings.resolve c.snapshots.storage env = .ok settings) (x : Detail)
    (hunset : x.key ∉ given.snapshots.rclone.env.map Prod.fst) :
    Shared c settings x ↔
      c.snapshots.storage.endpoint ≠ "" ∧ x.written c.snapshots.storage ≠ "" ∨
        x = .bucketName ∧ settings.bucketName = "" := by
  rw [Shared, told_used_or_nothing hread hload hresolve x hunset]
  simp only [Bool.or_eq_true, String.isEmpty_iff]
  by_cases hnameless : x = .bucketName ∧ settings.bucketName = ""
  · exact ⟨fun _ => Or.inr hnameless, fun _ hnamed => absurd hnameless.2 (hnamed hnameless.1)⟩
  by_cases hsilent : c.snapshots.storage.endpoint = "" ∨ x.written c.snapshots.storage = ""
  · simp [hsilent, hnameless, ← not_or]
  · simp [hsilent, ← not_or]

def directoryWith (s3 : String) : Files where
  home := ""
  entries := [
    (["c", "main.toml"], .file (Text.utf8 ("chain_id = \"1\"\nserver.api_token = \"t\"\n[snapshots]\n" ++
      "block_interval = 1\nrclone.command_template = \"true\"\n" ++ s3))),
    (["c", "node.toml"], .file (Text.utf8
      "host = \"h\"\nuser = \"u\"\ndata_dir = \"/d\"\nupload_prefix = \"p\"\n"))]

def mainWith (storage : Storage) : Config where
  chainId := "1"
  snapshots := { blockInterval := 1, rclone := { commandTemplate := "true" }, storage }
  server := { apiToken := "t" }

def configWith (storage : Storage) : Config :=
  withUploadEnv { mainWith storage with
    targets := [{ name := "node", host := "h", user := "u", dataDir := "/d", uploadPrefix := "p" }] }

def surroundings : Text.Env
  | "S3_ENDPOINT_URL" => some "http://s3"
  | "AWS_ACCESS_KEY_ID" => some "id"
  | "AWS_SECRET_ACCESS_KEY" => some "key"
  | _ => none

def settingsWith (region : String) : Settings where
  endpoint := "http://s3"
  region := region
  bucketName := "b"
  rootPrefix := ""
  accessKey := "id"
  secretKey := "key"

/-- With endpoint and bucket written, the bucket is shared, but not the region, which the cleanup
takes by default. -/
theorem shared_iff_written_defaulted :
    ∃ fs c, readMain fs "c" = .ok (mainWith { endpoint := "http://s3", bucketName := "b" }) ∧
      load fs surroundings "c" = .ok c ∧
      Settings.resolve c.snapshots.storage surroundings = .ok (settingsWith "us-east-1") ∧
      Shared c (settingsWith "us-east-1") .bucketName ∧ ¬ Shared c (settingsWith "us-east-1") .region := by
  let storage : Storage := { endpoint := "http://s3", bucketName := "b" }
  let fs := directoryWith "s3 = \x7b endpoint = \"http://s3\", bucket_name = \"b\" \x7d"
  have hread : readMain fs "c" = .ok (mainWith storage) := by decide +kernel
  have hload : load fs surroundings "c" = .ok (configWith storage) := by decide +kernel
  have hresolve : Settings.resolve (configWith storage).snapshots.storage surroundings =
      .ok (settingsWith "us-east-1") := by decide +kernel
  refine ⟨fs, configWith storage, hread, hload, hresolve, ?_, fun hshared => ?_⟩
  · exact (shared_iff_written hread hload hresolve .bucketName (by decide)).2
      (Or.inl ⟨by decide, by decide⟩)
  · exact absurd ((shared_iff_written hread hload hresolve .region (by decide)).1 hshared) (by decide)

/-- An endpoint from the environment leaves the upload container without the bucket and the region
that are written. -/
theorem written_not_shared :
    ∃ fs given c settings, readMain fs "c" = .ok given ∧ given.snapshots.rclone.env = [] ∧
      load fs surroundings "c" = .ok c ∧
      Settings.resolve c.snapshots.storage surroundings = .ok settings ∧
      ∀ x, x.used settings ≠ "" ∧ ¬ Shared c settings x := by
  let storage : Storage := { bucketName := "b", region := "r" }
  let fs := directoryWith "s3 = \x7b bucket_name = \"b\", region = \"r\" \x7d"
  have hread : readMain fs "c" = .ok (mainWith storage) := by decide +kernel
  have hload : load fs surroundings "c" = .ok (configWith storage) := by decide +kernel
  refine ⟨fs, mainWith storage, configWith storage, settingsWith "r", hread, rfl, hload,
    by decide +kernel, fun x => ⟨?_, fun hshared => ?_⟩⟩
  · cases x <;> decide
  · have hnone : Order.find? x.key (configWith storage).snapshots.rclone.env = none := by
      cases x <;> decide
    rw [hshared (fun _ => by decide)] at hnone
    cases hnone

end Config

end FleetSnapshot
