import FleetSnapshot.Proofs.Loading
import FleetSnapshot.Proofs.Pages
import FleetSnapshot.Proofs.Provenance
import FleetSnapshot.Proofs.Token
import FleetSnapshot.World

/-! Looking the uploads of a node up by its alias. A configuration that is loaded keeps every alias
as it is written, blanks and all, and so do the rows, while a request is answered for what is left of
the alias without the blanks around it. So the rows of a node are found by its alias if there are no
blanks around it, and otherwise they are not. -/

namespace FleetSnapshot

namespace Config

/-- Loaded targets go by different aliases. -/
theorem load_distinct {fs : Files} {env : Text.Env} {dir : String} {c : Config}
    (hload : load fs env dir = .ok c) : (c.targets.map (·.name)).Nodup := by
  obtain ⟨given, targets, -, -, hassemble⟩ := load_ok_iff.1 hload
  exact (fault?_eq_none_iff.1 (assemble_ok_iff.1 hassemble).2).2

end Config

namespace World

variable {ts : List Config.Target} {rclone : Config.Rclone} {bucketName : String} {k : Nat}
  {t : Config.Target}

theorem fleetOf_get (h : ts[k]? = some t) :
    (fleetOf ts rclone bucketName)[k]? = some { index := k, target := t, rclone, bucketName } := by
  rw [fleetOf, List.getElem?_map, List.getElem?_zipIdx, h, Nat.zero_add]
  rfl

theorem target_of_fleetOf {n : Node} (h : (fleetOf ts rclone bucketName)[k]? = some n) :
    ts[k]? = some n.target := by
  rw [fleetOf, List.getElem?_map, List.getElem?_zipIdx, Option.map_map, Option.map_eq_some_iff] at h
  obtain ⟨t, ht, rfl⟩ := h
  exact ht

theorem fleetOf_names (ts : List Config.Target) (rclone : Config.Rclone) (bucketName : String) :
    (fleetOf ts rclone bucketName).map (·.target.name) = ts.map (·.name) := by
  rw [fleetOf, List.map_map]
  exact (List.map_map (f := Prod.fst) (g := Config.Target.name) (l := ts.zipIdx)).symm.trans
    (congrArg _ (List.zipIdx_map_fst 0 ts))

end World

namespace Audit

theorem UploadRow.read_target {r : UploadRow} {u : Upload} (h : r.read = .ok u) :
    u.target = r.target := by
  simp only [UploadRow.read, bind, Except.bind] at h
  split at h
  · cases h
  split at h
  · cases h
  split at h
  · cases h
  cases h
  rfl

theorem Upload.target_of_toDoc {u u' : Upload} (h : u.toDoc = u'.toDoc) : u.target = u'.target := by
  simp only [Upload.toDoc, Doc.table.injEq, List.cons.injEq, Prod.mk.injEq, Doc.text.injEq] at h
  exact h.2.2.1.2

end Audit

namespace Api

open Audit

/-- The rows that have come of the node at a place, those of them that a listing is to show and in the
order in which it does. -/
def rowsAt (made : List (Nat × Int)) (k : Nat) (s : Store) (f : Filter) : List UploadRow :=
  Order.sort UploadRow.latestFirst
    (s.uploads.filter fun r => (k, r.id) ∈ made && f.admits r.deleted r.persisted)

def ShowsPage (q : ListQuery) (rows : List UploadRow) (answer : Response) : Prop :=
  ∃ name us now, List.Forall₂ (fun r u => r.read = .ok u) (pageOf q.pageNumber q.pageSize rows) us ∧
    answer = envelope 200 true (.table [("page", .int q.pageNumber), ("limit", .int q.pageSize),
      ("alias", .text name), ("targets", .list (us.map Upload.toDoc))]) .null now

structure Asks (r : Request) (q : ListQuery) (name : String) : Prop where
  method : r.method = "GET"
  path : (splitUri r.uri).1 = "/api/v1/targets".toList
  query : ListQuery.ofPairs (Text.queryPairs (splitUri r.uri).2) = .ok q
  target : q.target = some name

section Answers

variable {r : Request} {q : ListQuery} {name : String} {s : Store}

theorem respond_targets (h : Asks r q name) (token : String) (gate : Gate) (s : Store) :
    (respond token gate r s).1 = (respondWith (listTargets q s).1 (listTargets q s).2).1 := by
  have hroute : route? (splitUri r.uri).1 = some (.list .target) := by
    rw [h.path]
    decide +kernel
  have hhandle : handle token gate (.list .target) (splitUri r.uri).2 r.authorization =
      listTargets q := by
    rw [handle, h.query]
  have hserves : (Route.list .target).serves "GET" = true := by decide
  have hoptions : ("GET" == "OPTIONS") = false := by decide
  have hhead : ("GET" == "HEAD") = false := by decide
  simp only [respond, hroute, h.method, hserves, hoptions, hhead, hhandle, Bool.false_eq_true,
    if_true, if_false]
  generalize listTargets q = m
  rfl

theorem envelope_inj {code code' : Nat} {success success' : Bool} {d d' message message' : Doc}
    {now now' : Instant}
    (h : envelope code success d message now = envelope code' success' d' message' now') :
    success = success' ∧ d = d' := by
  simp only [envelope, Response.mk.injEq, Body.json.injEq, Doc.table.injEq, List.cons.injEq,
    Prod.mk.injEq, Doc.bool.injEq] at h
  exact ⟨h.2.2.2.1.2, h.2.2.2.2.1.2⟩

theorem respondWith_data_iff {a : Answer} {d : Doc} :
    (∃ now, (respondWith a s).1 = envelope 200 true d .null now) ↔ a = .data d := by
  constructor
  · rintro ⟨now, h⟩
    cases a with
    | data d' => exact congrArg Answer.data (envelope_inj h).2
    | refuse code message => exact absurd (envelope_inj h).1 Bool.false_ne_true
    | plain code message => exact Body.noConfusion (congrArg Response.body h)
  · rintro rfl
    exact ⟨_, rfl⟩

/-- The answer is made of the rows that have the alias without the blanks around it. -/
theorem showsPage_iff (hready : s.Ready) (h : Asks r q name) (token : String) (gate : Gate)
    (rows : List UploadRow) :
    ShowsPage q rows (respond token gate r s).1 ↔ (Text.trim name).isEmpty = false ∧
      ∃ us us' : List Upload,
        List.Forall₂ (fun r u => r.read = .ok u) (pageOf q.pageNumber q.pageSize rows) us ∧
        List.Forall₂ (fun r u => r.read = .ok u)
          (pageOf q.pageNumber q.pageSize (s.shownUploads (Text.trim name) q.filter)) us' ∧
        us.map Upload.toDoc = us'.map Upload.toDoc := by
  have hname : q.target.getD "" = name := by rw [h.target, Option.getD_some]
  constructor
  · rintro ⟨echo, us, now, hus, hanswer⟩
    rw [respond_targets h] at hanswer
    have hdata := (listTargets_data_iff hready).1 (respondWith_data_iff.1 ⟨now, hanswer⟩)
    rw [hname] at hdata
    obtain ⟨hsome, us', hus', hdoc⟩ := hdata
    rw [← pageOf_query] at hus'
    simp only [Doc.table.injEq, List.cons.injEq, Prod.mk.injEq, Doc.list.injEq] at hdoc
    exact ⟨hsome, us, us', hus, hus', hdoc.2.2.2.1.2⟩
  · rintro ⟨hsome, us, us', hus, hus', hdocs⟩
    rw [pageOf_query] at hus'
    have hdata := (listTargets_data_iff (q := q) hready).2
      ⟨hname.symm ▸ hsome, us', hname.symm ▸ hus', rfl⟩
    obtain ⟨now, hanswer⟩ := (respondWith_data_iff (s := (listTargets q s).2)).2 hdata
    exact ⟨_, us, now, hus, by rw [respond_targets h, hanswer, hdocs]⟩

end Answers

section Rows

variable {fleet : List Node} {d : Deployment} {made : List (Nat × Int)} {k : Nat} {n : Node}
  {f : Filter}

theorem rowsAt_target (h : Ascribed fleet made d) (hnames : (fleet.map (·.target.name)).Nodup)
    (hn : fleet[k]? = some n) {r : UploadRow} (hr : r ∈ rowsAt made k d.store f) :
    r.target = n.target.name := by
  obtain ⟨hmem, hshown⟩ := List.mem_filter.1 ((Order.sort_perm _ _).mem_iff.1 hr)
  rw [Bool.and_eq_true, decide_eq_true_iff] at hshown
  exact (h.mem_made_iff hnames hn hmem).1 hshown.1

/-- The rows that have come of a node are those with its alias. -/
theorem rowsAt_eq (h : Ascribed fleet made d) (hnames : (fleet.map (·.target.name)).Nodup)
    (hn : fleet[k]? = some n) : rowsAt made k d.store f = d.store.shownUploads n.target.name f := by
  refine congrArg (Order.sort UploadRow.latestFirst) (List.filter_congr fun r hr => ?_)
  rw [Bool.eq_iff_iff, Bool.and_eq_true, Bool.and_eq_true, decide_eq_true_iff, beq_iff_eq,
    h.mem_made_iff hnames hn hr]

theorem mem_of_pageOf {α : Type} {page limit : Nat} {rows : List α} {a : α}
    (h : a ∈ pageOf page limit rows) : a ∈ rows :=
  List.mem_of_mem_drop (List.mem_of_mem_take h)

theorem exists_reads {s : Store} (h : s.Told) (page limit : Nat) {rows : List UploadRow}
    (hrows : ∀ r ∈ rows, r ∈ s.uploads) :
    ∃ us, List.Forall₂ (fun r u => UploadRow.read r = .ok u) (pageOf page limit rows) us :=
  forall₂_of_exists fun r hr => h.uploads r (hrows r (mem_of_pageOf hr))

/-- Pages of rows with different aliases look different unless both are empty. -/
theorem pages_empty {rows rows' : List UploadRow} {us us' : List Upload} {name name' : String}
    (h : List.Forall₂ (fun r u => UploadRow.read r = .ok u) rows us)
    (h' : List.Forall₂ (fun r u => UploadRow.read r = .ok u) rows' us')
    (hdocs : us.map Upload.toDoc = us'.map Upload.toDoc) (hrows : ∀ r ∈ rows, r.target = name)
    (hrows' : ∀ r ∈ rows', r.target = name') (hne : name' ≠ name) : rows = [] ∧ rows' = [] := by
  cases h with
  | nil =>
    cases h' with
    | nil => exact ⟨rfl, rfl⟩
    | cons _ _ => cases hdocs
  | @cons r u _ _ hread _ =>
    cases h' with
    | nil => cases hdocs
    | @cons r' u' _ _ hread' _ =>
      refine absurd ?_ hne
      calc name' = r'.target := (hrows' r' List.mem_cons_self).symm
        _ = u'.target := (UploadRow.read_target hread').symm
        _ = u.target := (Upload.target_of_toDoc (List.cons.inj hdocs).1).symm
        _ = r.target := UploadRow.read_target hread
        _ = name := hrows r List.mem_cons_self

theorem shownUploads_target {s : Store} {target : String} {r : UploadRow}
    (hr : r ∈ s.shownUploads target f) : r ∈ s.uploads ∧ r.target = target := by
  obtain ⟨hmem, hshown⟩ := List.mem_filter.1 ((Order.sort_perm _ _).mem_iff.1 hr)
  rw [Bool.and_eq_true, beq_iff_eq] at hshown
  exact ⟨hmem, hshown.1⟩

/-- Asked for its alias, the service shows the rows of a node just if the alias has no blanks around
it, or if there is nothing to be seen either way. -/
theorem showsPage_rowsAt_iff (h : Ascribed fleet made d) (hnames : (fleet.map (·.target.name)).Nodup)
    (hdone : d.store.refusals = []) (hn : fleet[k]? = some n) {r : Request} {q : ListQuery}
    (hasks : Asks r q n.target.name) (token : String) (gate : Gate) :
    ShowsPage q (rowsAt made k d.store q.filter) (respond token gate r d.store).1 ↔
      (Text.trim n.target.name).isEmpty = false ∧
        (Text.trim n.target.name = n.target.name ∨
          pageOf q.pageNumber q.pageSize (rowsAt made k d.store q.filter) = [] ∧
            pageOf q.pageNumber q.pageSize
              (d.store.shownUploads (Text.trim n.target.name) q.filter) = []) := by
  rw [showsPage_iff (h.told.ready hdone) hasks]
  refine and_congr_right fun _ => ⟨?_, ?_⟩
  · rintro ⟨us, us', hus, hus', hdocs⟩
    by_cases hplain : Text.trim n.target.name = n.target.name
    · exact Or.inl hplain
    · exact Or.inr (pages_empty hus hus' hdocs
        (fun r hr => rowsAt_target h hnames hn (mem_of_pageOf hr))
        (fun r hr => (shownUploads_target (mem_of_pageOf hr)).2) hplain)
  · rintro (hplain | ⟨hnone, hnone'⟩)
    · rw [rowsAt_eq h hnames hn, hplain]
      obtain ⟨us, hus⟩ := exists_reads h.told q.pageNumber q.pageSize
        fun r (hr : r ∈ d.store.shownUploads n.target.name q.filter) => (shownUploads_target hr).1
      exact ⟨us, us, hus, hus, rfl⟩
    · rw [hnone, hnone']
      exact ⟨[], [], .nil, .nil, rfl⟩

end Rows

end Api

open Audit Api

/-- A configuration that has been loaded, whatever its deployment has been through. The rows on record
are those that have come of its targets, and each has the alias of its own. Asked for the alias of a
target, the service shows the page of the rows that have come of it just if the alias has no blanks
around it and is not empty, or if it is more than blanks and neither this page nor the one that is
shown in its place has anything on it. -/
theorem lookup_iff {fs : Files} {env : Text.Env} {dir : String} {c : Config}
    (hload : Config.load fs env dir = .ok c) (bucketName : String) {d : Deployment}
    {made : List (Nat × Int)}
    (hpast : Past (World.fleetOf c.targets c.snapshots.rclone bucketName) d made)
    (hdone : d.store.refusals = []) :
    made.map (·.2) = d.store.uploads.map (·.id) ∧
    (∀ r ∈ d.store.uploads, ∃ k t, c.targets[k]? = some t ∧ (k, r.id) ∈ made ∧ r.target = t.name) ∧
    ∀ k t, c.targets[k]? = some t → ∀ r q, Asks r q t.name → ∀ token gate,
      (ShowsPage q (rowsAt made k d.store q.filter) (respond token gate r d.store).1 ↔
        (Text.trim t.name).isEmpty = false ∧
          (Text.trim t.name = t.name ∨
            pageOf q.pageNumber q.pageSize (rowsAt made k d.store q.filter) = [] ∧
              pageOf q.pageNumber q.pageSize
                (d.store.shownUploads (Text.trim t.name) q.filter) = [])) := by
  have hascribed := hpast.ascribed
  have hnames := (World.fleetOf_names c.targets c.snapshots.rclone bucketName).symm ▸
    Config.load_distinct hload
  refine ⟨map_eq_of_forall hascribed.rows fun _ _ h => h.id, fun r hr => ?_,
    fun k t ht r q hasks token gate => ?_⟩
  · obtain ⟨⟨k, id⟩, hmade, hid, hname⟩ := image_of_mem hascribed.rows hr
    obtain ⟨n, hn, hname⟩ := Option.map_eq_some_iff.1 hname
    exact ⟨k, n.target, World.target_of_fleetOf hn, hid ▸ hmade, hname.symm⟩
  · exact showsPage_rowsAt_iff hascribed hnames hdone (World.fleetOf_get ht) hasks token gate

/-- The directory of a deployment with one target: the name of its file, and what is in it besides what
every target has. -/
def directoryNaming (file line : String) : Files where
  home := ""
  entries := [
    (["c", "main.toml"], .file (Text.utf8
      ("chain_id = \"1\"\nserver.api_token = \"t\"\n[snapshots]\nblock_interval = 1000\n" ++
        "rclone.command_template = \"true\"\n"))),
    (["c", file], .file (Text.utf8
      (line ++ "host = \"h\"\nuser = \"u\"\ndata_dir = \"/d\"\nupload_prefix = \"p\"\n")))]

def configNaming (name : String) : Config where
  chainId := "1"
  snapshots := { blockInterval := 1000, rclone := { commandTemplate := "true" } }
  server := { apiToken := "t" }
  targets := [{ name, host := "h", user := "u", dataDir := "/d", uploadPrefix := "p" }]

def plantNaming (name : String) : Capture.Plant where
  fleet := World.fleetOf (configNaming name).targets (configNaming name).snapshots.rclone "bucket"
  dryRun := false
  rootPrefix := ""

def snapshotNaming (name : String) : Deployment :=
  ((Capture.run (plantNaming name) 1000).perform (Capture.loneHost "0x3e8")).2

def madeNaming (name : String) : List (Nat × Int) :=
  ((Capture.run (plantNaming name) 1000).run.trail (ascribes (plantNaming name).fleet) {}
    (Capture.loneHost "0x3e8")).made

theorem snapshotNaming_past (name : String) :
    Past (plantNaming name).fleet (snapshotNaming name) (madeNaming name) := by
  have hdefault : (Stamp.ofInstant default).instant?.isSome = true := by decide +kernel
  have hfresh : Past (plantNaming name).fleet (Capture.loneHost "0x3e8") [] :=
    .fresh rfl rfl (fun _ => hdefault) rfl
  exact hfresh.attempt (plantNaming name) rfl 1000

def lookupRequest (name : String) : Request where
  method := "GET"
  uri := "/api/v1/targets?alias=" ++ name
  authorization := none

theorem lookup_iff_plain :
    Config.load (directoryNaming "geth-1.toml" "") (fun _ => none) "c" = .ok (configNaming "geth-1") ∧
      (snapshotNaming "geth-1").store.refusals = [] ∧
      (rowsAt (madeNaming "geth-1") 0 (snapshotNaming "geth-1").store {}).map (·.uploadPrefix) =
        ["p/1000"] ∧
      ShowsPage { target := some "geth-1" }
        (rowsAt (madeNaming "geth-1") 0 (snapshotNaming "geth-1").store {})
        (respond "t" (snapshotNaming "geth-1").gate (lookupRequest "geth-1")
          (snapshotNaming "geth-1").store).1 := by
  have hload : Config.load (directoryNaming "geth-1.toml" "") (fun _ => none) "c" =
      .ok (configNaming "geth-1") := by decide +kernel
  have hdone : (snapshotNaming "geth-1").store.refusals = [] := by decide +kernel
  have hasks : Asks (lookupRequest "geth-1") { target := some "geth-1" } "geth-1" :=
    ⟨rfl, by decide +kernel, by decide +kernel, rfl⟩
  obtain ⟨-, -, hshows⟩ := lookup_iff hload "bucket" (snapshotNaming_past "geth-1") hdone
  have hshown := (hshows 0 _ rfl _ _ hasks "t" (snapshotNaming "geth-1").gate).2
    ⟨by decide +kernel, Or.inl (by decide +kernel)⟩
  have hfilter : ListQuery.filter { target := some "geth-1" } = {} := by decide
  rw [hfilter] at hshown
  exact ⟨hload, hdone, by decide +kernel, hshown⟩

/-- A target with blanks around its alias has a row on record, and yet the page that is shown for its
alias is empty. One that goes by a blank is not looked for at all. -/
theorem blanks_hide_rows :
    Config.load (directoryNaming "geth-1.toml" "alias = \" geth-1 \"\n") (fun _ => none) "c" =
        .ok (configNaming " geth-1 ") ∧
      (rowsAt (madeNaming " geth-1 ") 0 (snapshotNaming " geth-1 ").store {}).map (·.target) =
        [" geth-1 "] ∧
      Asks (lookupRequest "%20geth-1%20") { target := some " geth-1 " } " geth-1 " ∧
      ShowsPage { target := some " geth-1 " } []
        (respond "t" (snapshotNaming " geth-1 ").gate (lookupRequest "%20geth-1%20")
          (snapshotNaming " geth-1 ").store).1 ∧
      Config.load (directoryNaming " .toml" "") (fun _ => none) "c" = .ok (configNaming " ") ∧
      Asks (lookupRequest "%20") { target := some " " } " " ∧
      (respond "t" (snapshotNaming " ").gate (lookupRequest "%20") (snapshotNaming " ").store).1.code =
        400 := by
  have hasks : Asks (lookupRequest "%20geth-1%20") { target := some " geth-1 " } " geth-1 " :=
    ⟨rfl, by decide +kernel, by decide +kernel, rfl⟩
  have hdone : (snapshotNaming " geth-1 ").store.refusals = [] := by decide +kernel
  have hnone : pageOf 1 20 ((snapshotNaming " geth-1 ").store.shownUploads (Text.trim " geth-1 ") {}) =
      [] := by decide +kernel
  refine ⟨by decide +kernel, by decide +kernel, hasks, ?_, by decide +kernel,
    ⟨rfl, by decide +kernel, by decide +kernel, rfl⟩, by decide +kernel⟩
  refine (showsPage_iff ((snapshotNaming_past " geth-1 ").ascribed.told.ready hdone) hasks "t" _ []).2
    ⟨by decide +kernel, [], [], .nil, ?_, rfl⟩
  exact hnone ▸ .nil

end FleetSnapshot
