import FleetSnapshot.Api
import FleetSnapshot.Proofs.Chronicle
import FleetSnapshot.Proofs.Moments
import FleetSnapshot.Proofs.Ranking
import FleetSnapshot.Proofs.Removed

/-! Pages of the history. The records that a listing is to show are put in order, the latest first,
and cut into pages of one length, so the pages one after the other are all of them, each once. What
the service says about a page it shows is what it has asked the store for. -/

namespace FleetSnapshot

namespace Audit

section Order

theorem Stamp.le_total (s s' : Stamp) : Stamp.le s s' = true ∨ Stamp.le s' s = true := by
  cases s with
  | number q =>
    cases s' with
    | number q' => simpa [Stamp.le] using Rat.le_total
    | text t' => exact Or.inl rfl
  | text t =>
    cases s' with
    | number q' => exact Or.inr rfl
    | text t' =>
      simp only [Stamp.le, Bool.not_eq_true', decide_eq_false_iff_not, String.not_lt]
      exact String.le_total t t'

theorem Stamp.le_trans {s s' s'' : Stamp} (h : Stamp.le s s' = true) (h' : Stamp.le s' s'' = true) :
    Stamp.le s s'' = true := by
  cases s <;> cases s' <;> cases s'' <;> simp only [Stamp.le, decide_eq_true_eq, Bool.not_eq_true',
    decide_eq_false_iff_not, String.not_lt, Bool.false_eq_true] at *
  · exact Rat.le_trans h h'
  · exact String.le_trans h h'

/-- Of two records, that one is the later that began later, or was put down later at the same time. -/
def Later (s : Stamp) (id : Int) (s' : Stamp) (id' : Int) : Prop :=
  Stamp.le s s' = false ∨ s = s' ∧ id' < id

def AttemptRow.Later (r r' : AttemptRow) : Prop := Audit.Later r.startTime r.id r'.startTime r'.id

def UploadRow.Later (r r' : UploadRow) : Prop := Audit.Later r.startTime r.id r'.startTime r'.id

variable {s s' s'' : Stamp} {id id' id'' : Int}

theorem latestFirst_total (s s' : Stamp) (id id' : Int) :
    latestFirst s id s' id' = true ∨ latestFirst s' id' s id = true := by
  unfold latestFirst
  by_cases h : s = s'
  · rw [if_pos h, if_pos h.symm, decide_eq_true_iff, decide_eq_true_iff]
    omega
  · rw [if_neg h, if_neg (Ne.symm h)]
    exact Stamp.le_total s' s

theorem latestFirst_trans (h : latestFirst s id s' id' = true)
    (h' : latestFirst s' id' s'' id'' = true) : latestFirst s id s'' id'' = true := by
  unfold latestFirst at *
  by_cases hsame : s = s'
  · subst hsame
    by_cases hsame' : s = s''
    · rw [if_pos rfl, decide_eq_true_iff] at h
      rw [if_pos hsame', decide_eq_true_iff] at h'
      rw [if_pos hsame', decide_eq_true_iff]
      omega
    · rwa [if_neg hsame'] at h' ⊢
  · rw [if_neg hsame] at h
    have hle : Stamp.le s'' s' = true := by
      split at h'
      case isTrue heq =>
        subst heq
        exact (Stamp.le_total s' s').elim (fun h => h) fun h => h
      case isFalse => exact h'
    have hne : s ≠ s'' := fun heq => hsame (Stamp.le_antisymm (heq ▸ hle) h)
    rw [if_neg hne]
    exact Stamp.le_trans hle h

theorem later_of_latestFirst (h : latestFirst s id s' id' = true) (hne : id ≠ id') :
    Later s id s' id' := by
  unfold latestFirst at h
  by_cases hsame : s = s'
  · rw [if_pos hsame, decide_eq_true_iff] at h
    exact Or.inr ⟨hsame, by omega⟩
  · rw [if_neg hsame] at h
    refine Or.inl (Bool.eq_false_iff.2 fun hle => hsame ?_)
    exact Stamp.le_antisymm hle h

/-- Rows with numbers of their own, once sorted, come the latest first. -/
theorem sort_later {ρ : Type} {stamp : ρ → Stamp} {id : ρ → Int} {rows : List ρ}
    (hn : (rows.map id).Nodup) :
    (Order.sort (fun r r' => latestFirst (stamp r) (id r) (stamp r') (id r')) rows).Pairwise
      fun r r' => Later (stamp r) (id r) (stamp r') (id r') := by
  let le (r r' : ρ) : Bool := latestFirst (stamp r) (id r) (stamp r') (id r')
  have htotal : ∀ r r', le r r' = true ∨ le r' r = true := fun _ _ => latestFirst_total _ _ _ _
  have htrans : ∀ r r' r'', le r r' = true → le r' r'' = true → le r r'' = true :=
    fun _ _ _ => latestFirst_trans
  have hsorted : (Order.sort le rows).Pairwise fun r r' => le r r' = true :=
    Order.sort_pairwise htrans htotal rows
  have hnodup : ((Order.sort le rows).map id).Nodup :=
    ((Order.sort_perm le rows).map id).nodup_iff.2 hn
  have hapart : (Order.sort le rows).Pairwise fun r r' => id r ≠ id r' := List.pairwise_map.1 hnodup
  exact (hsorted.and hapart).imp fun h => later_of_latestFirst h.1 h.2

/-- Of records that the store has stamped, the later one is that of the later moment. -/
theorem later_ofInstant {t t' : Instant} (h : t.Common) (h' : t'.Common) (id id' : Int) :
    Later (.ofInstant t) id (.ofInstant t') id' ↔ t'.Before t ∨ t = t' ∧ id' < id := by
  have hle : Stamp.le (.ofInstant t) (.ofInstant t') = false ↔ t'.Before t := by
    rw [← Instant.columnText_lt_iff h' h]
    simp [Stamp.le, Stamp.ofInstant]
  have hsame : Stamp.ofInstant t = Stamp.ofInstant t' ↔ t = t' := by
    refine ⟨fun heq => ?_, congrArg Stamp.ofInstant⟩
    have htext : t.columnText = t'.columnText := Stamp.text.inj heq
    rcases Instant.before_trichotomy t t' with hbefore | heq | hafter
    · have hlt := Instant.columnText_lt h h' hbefore
      rw [htext] at hlt
      exact absurd hlt (String.lt_irrefl _)
    · exact heq
    · have hlt := Instant.columnText_lt h' h hafter
      rw [htext] at hlt
      exact absurd hlt (String.lt_irrefl _)
  rw [Later, hle, hsame]

end Order

section Pages

/-- Pages of this length that show all of the list one after the other: each but the last is full,
and behind the last there is nothing. -/
structure Paged {α : Type} (size : Nat) (page : Nat → List α) (all : List α) : Prop where
  first : page 0 = page 1
  short : ∀ k, (page k).length ≤ size
  last : ∃ n, (∀ k < n, page (k + 1) ≠ []) ∧ (∀ k, k + 1 < n → (page (k + 1)).length = size) ∧
    (∀ k ≥ n, page (k + 1) = []) ∧ (List.range n).flatMap (fun k => page (k + 1)) = all

theorem pageOf_succ {α : Type} (k limit : Nat) (rows : List α) :
    pageOf (k + 1) limit rows =
      (rows.drop (k * max 1 (min limit maxPage))).take (max 1 (min limit maxPage)) := by
  simp [pageOf, window]

/-- The pages up to one of them are all that stands before the next. -/
theorem pages_flatMap {α : Type} (n limit : Nat) (rows : List α) :
    (List.range n).flatMap (fun k => pageOf (k + 1) limit rows) =
      rows.take (n * max 1 (min limit maxPage)) := by
  induction n with
  | zero => simp
  | succ n ih =>
    rw [List.range_succ, List.flatMap_append, ih, List.flatMap_singleton, pageOf_succ, Nat.succ_mul,
      List.take_add]

theorem pageOf_paged {α : Type} (limit : Nat) (rows : List α) :
    Paged (max 1 (min limit maxPage)) (fun page => pageOf page limit rows) rows := by
  have hpos : 0 < max 1 (min limit maxPage) := by omega
  have hsucc := fun k => pageOf_succ k limit rows
  have hall := fun n => pages_flatMap n limit rows
  generalize max 1 (min limit maxPage) = size at *
  have hlength (k : Nat) : (pageOf (k + 1) limit rows).length = min size (rows.length - k * size) := by
    rw [hsucc, List.length_take, List.length_drop]
  have hcount (k : Nat) : k < (rows.length + size - 1) / size ↔ k * size < rows.length := by
    rw [Nat.lt_iff_add_one_le, Nat.le_div_iff_mul_le hpos, Nat.succ_mul]
    omega
  refine ⟨rfl, fun k => ?_, (rows.length + size - 1) / size, fun k hk => ?_, fun k hk => ?_,
    fun k hk => ?_, ?_⟩
  · cases k with
    | zero => exact (hlength 0).trans_le (Nat.min_le_left _ _)
    | succ k => exact (hlength k).trans_le (Nat.min_le_left _ _)
  · rw [hcount] at hk
    rw [← List.length_pos_iff, hlength]
    omega
  · rw [hcount, Nat.succ_mul] at hk
    rw [hlength]
    omega
  · rw [ge_iff_le, ← Nat.not_lt, hcount] at hk
    rw [← List.length_eq_zero_iff, hlength]
    omega
  · have hend := (hcount ((rows.length + size - 1) / size)).not.1 (Nat.lt_irrefl _)
    rw [hall]
    exact List.take_of_length_le (Nat.not_lt.1 hend)

/-- Pages that are read one by one are pages of what is read of the whole list. -/
theorem Paged.read {α β : Type} {R : α → β → Prop} {size : Nat} {page : Nat → List α} {all : List α}
    (h : Paged size page all) {reads : Nat → List β} (hfirst : reads 0 = reads 1)
    (hreads : ∀ k, List.Forall₂ R (page k) (reads k)) :
    ∃ read, List.Forall₂ R all read ∧ Paged size reads read := by
  have hlength (k : Nat) : (reads k).length = (page k).length := (hreads k).length_eq.symm
  have hempty (k : Nat) : reads k = [] ↔ page k = [] := by
    rw [← List.length_eq_zero_iff, hlength, List.length_eq_zero_iff]
  obtain ⟨n, hsome, hfull, hnone, hall⟩ := h.last
  refine ⟨(List.range n).flatMap fun k => reads (k + 1), ?_, hfirst, fun k => ?_, n,
    fun k hk => ?_, fun k hk => ?_, fun k hk => ?_, rfl⟩
  · rw [← hall]
    exact List.rel_flatMap (List.forall₂_same.2 fun k _ => rfl) (fun k _ heq => heq ▸ hreads (k + 1))
  · rw [hlength]
    exact h.short k
  · exact (hempty _).not.2 (hsome k hk)
  · rw [hlength]
    exact hfull k hk
  · exact (hempty _).2 (hnone k hk)

/-- A listing whose pages show records of these rows, each page those rows that are on it. It fails
for a page just if some row on it cannot be read. -/
structure Displays {ρ α : Type} (R : ρ → α → Prop) (size : Nat)
    (list : Nat → Except Error (List α)) (rows : List ρ) : Prop where
  first : list 0 = list 1
  pages : ∃ on : Nat → List ρ, Paged size on rows ∧
    ∀ page as, list page = .ok as ↔ List.Forall₂ R (on page) as
  complete : (∀ page, ∃ as, list page = .ok as) ↔ ∀ r ∈ rows, ∃ a, R r a
  partition : ∀ as : Nat → List α, (∀ page, list page = .ok (as page)) →
    ∃ all, List.Forall₂ R rows all ∧ Paged size as all

theorem Paged.mem_iff {α : Type} {size : Nat} {page : Nat → List α} {all : List α}
    (h : Paged size page all) (a : α) : a ∈ all ↔ ∃ k, a ∈ page k := by
  obtain ⟨n, -, -, hnone, hall⟩ := h.last
  rw [← hall, List.mem_flatMap]
  constructor
  · rintro ⟨k, -, ha⟩
    exact ⟨k + 1, ha⟩
  · rintro ⟨k, ha⟩
    have hsome (k : Nat) (ha : a ∈ page (k + 1)) : k ∈ List.range n := by
      rw [List.mem_range]
      by_contra hk
      rw [hnone k (by omega)] at ha
      cases ha
    cases k with
    | zero =>
      rw [h.first] at ha
      exact ⟨0, hsome 0 ha, ha⟩
    | succ k => exact ⟨k, hsome k ha, ha⟩

theorem displays_of_pages {ρ α : Type} {R : ρ → α → Prop} {limit : Nat}
    {list : Nat → Except Error (List α)} {rows : List ρ}
    (hfirst : list 0 = list 1)
    (h : ∀ page as, list page = .ok as ↔ List.Forall₂ R (pageOf page limit rows) as) :
    Displays R (max 1 (min limit maxPage)) list rows := by
  have hpaged := pageOf_paged limit rows
  refine ⟨hfirst, ⟨_, hpaged, h⟩, ⟨fun hall r hr => ?_, fun hall page => ?_⟩, fun as has => ?_⟩
  · obtain ⟨page, hr⟩ := (hpaged.mem_iff r).1 hr
    obtain ⟨as, has⟩ := hall page
    obtain ⟨a, -, ha⟩ := image_of_mem ((h page as).1 has) hr
    exact ⟨a, ha⟩
  · obtain ⟨as, has⟩ := forall₂_of_exists fun r hr => hall r ((hpaged.mem_iff r).2 ⟨page, hr⟩)
    exact ⟨as, (h page as).2 has⟩
  · have hsame : as 0 = as 1 := Except.ok.inj ((has 0).symm.trans (hfirst.trans (has 1)))
    exact hpaged.read hsame fun page => (h page (as page)).1 (has page)

end Pages

section Listings

variable {s : Store}

/-- What has been deleted is shown if it is asked for, and what is not protected unless only what is
protected is asked for. -/
theorem Filter.admits_iff {f : Filter} {deleted persisted : Bool} :
    f.admits deleted persisted = true ↔
      (deleted = true → f.includeDeleted = true) ∧ (f.onlyPersisted = true → persisted = true) := by
  obtain ⟨includeDeleted, onlyPersisted⟩ := f
  revert includeDeleted onlyPersisted deleted persisted
  decide

def Store.shownAttempts (s : Store) (f : Filter) : List AttemptRow :=
  Order.sort AttemptRow.latestFirst (s.attempts.filter fun r => f.admits r.deleted r.persisted)

def Store.shownUploads (s : Store) (target : String) (f : Filter) : List UploadRow :=
  Order.sort UploadRow.latestFirst
    (s.uploads.filter fun r => r.target == target && f.admits r.deleted r.persisted)

theorem mem_shownAttempts {f : Filter} {r : AttemptRow} :
    r ∈ s.shownAttempts f ↔ r ∈ s.attempts ∧
      (r.deleted = true → f.includeDeleted = true) ∧ (f.onlyPersisted = true → r.persisted = true) := by
  rw [Store.shownAttempts, (Order.sort_perm _ _).mem_iff, List.mem_filter, Filter.admits_iff]

theorem mem_shownUploads {target : String} {f : Filter} {r : UploadRow} :
    r ∈ s.shownUploads target f ↔ r ∈ s.uploads ∧ r.target = target ∧
      (r.deleted = true → f.includeDeleted = true) ∧ (f.onlyPersisted = true → r.persisted = true) := by
  rw [Store.shownUploads, (Order.sort_perm _ _).mem_iff, List.mem_filter, Bool.and_eq_true, beq_iff_eq,
    Filter.admits_iff]

theorem listAttempts_ok_iff (h : s.Ready) (page limit : Nat) (f : Filter) {as : List Attempt} :
    (listAttempts page limit f s).1 = .ok as ↔
      List.Forall₂ (Records s) (pageOf page limit (s.shownAttempts f)) as := by
  rw [listAttempts, Query.bind_apply, selectAttempts_ready h]
  exact ⟨records_of_mapM, fun has => congrArg (·.1) (mapM_ready h has)⟩

theorem uploadsByTarget_ok_iff (h : s.Ready) (target : String) (page limit : Nat) (f : Filter)
    {us : List Upload} :
    (uploadsByTarget target page limit f s).1 = .ok us ↔
      List.Forall₂ (fun r u => r.read = .ok u) (pageOf page limit (s.shownUploads target f)) us := by
  rw [uploadsByTarget, Query.bind_apply, selectUploads_ready h, ← mapM_except_ok]
  refine ⟨ofRead_ok, fun hread => ?_⟩
  change (Query.ofRead ((pageOf page limit (s.shownUploads target f)).mapM UploadRow.read) s).1 = _
  rw [hread]
  rfl

theorem listAttempts_displays (h : s.Ready) (limit : Nat) (f : Filter) :
    Displays (Records s) (max 1 (min limit maxPage)) (fun page => (listAttempts page limit f s).1)
      (s.shownAttempts f) :=
  displays_of_pages rfl fun page _ => listAttempts_ok_iff h page limit f

theorem uploadsByTarget_displays (h : s.Ready) (target : String) (limit : Nat) (f : Filter) :
    Displays (fun r u => r.read = .ok u) (max 1 (min limit maxPage))
      (fun page => (uploadsByTarget target page limit f s).1) (s.shownUploads target f) :=
  displays_of_pages rfl fun page _ => uploadsByTarget_ok_iff h target page limit f

theorem shownAttempts_later (hn : s.Numbered) (f : Filter) :
    (s.shownAttempts f).Pairwise AttemptRow.Later :=
  sort_later (hn.attempts.sublist (List.filter_sublist.map _))

theorem shownUploads_later (hn : s.Numbered) (target : String) (f : Filter) :
    (s.shownUploads target f).Pairwise UploadRow.Later :=
  sort_later (hn.uploads.sublist (List.filter_sublist.map _))

end Listings

/-- How far a page of a number of 32 bits is from the beginning, without the sign bit of a word. -/
theorem window_lt {page : Nat} (h : page < 2 ^ 32) (limit : Nat) : (window page limit).1 < 2 ^ 63 := by
  have hlimit : max 1 (min limit maxPage) ≤ 20 := by
    unfold maxPage
    omega
  have hpage : max page 1 - 1 ≤ 2 ^ 32 := by omega
  calc (max page 1 - 1) * max 1 (min limit maxPage)
      ≤ 2 ^ 32 * 20 := Nat.mul_le_mul hpage hlimit
    _ < 2 ^ 63 := by norm_num

end Audit

namespace Api

open Audit

variable {s : Store} {q : ListQuery} {d : Doc}

theorem positive?_bounds {text : Option String} {n : Nat} (h : ListQuery.positive? text = some n) :
    1 ≤ n ∧ n < 2 ^ 32 := by
  obtain ⟨hread, hpos⟩ := Option.filter_eq_some_iff.1 h
  obtain ⟨t, -, hword⟩ := Option.bind_eq_some_iff.1 hread
  obtain ⟨-, hbound⟩ := Option.filter_eq_some_iff.1 hword
  rw [decide_eq_true_iff] at hpos hbound
  exact ⟨hpos, hbound⟩

theorem pageNumber_bounds (q : ListQuery) : 1 ≤ q.pageNumber ∧ q.pageNumber < 2 ^ 32 := by
  unfold ListQuery.pageNumber
  cases h : ListQuery.positive? q.page with
  | none => exact ⟨Nat.le_refl 1, by decide⟩
  | some n => exact positive?_bounds h

theorem pageSize_bounds (q : ListQuery) : 1 ≤ q.pageSize ∧ q.pageSize ≤ maxPage := by
  unfold ListQuery.pageSize
  cases h : ListQuery.positive? q.limit with
  | none => exact ⟨by decide, Nat.min_le_right _ _⟩
  | some n =>
    have hpos := (positive?_bounds h).1
    exact ⟨Nat.le_min.2 ⟨hpos, by decide⟩, Nat.min_le_right _ _⟩

/-- The length that a query comes to is one that the store goes by. -/
theorem pageOf_query {α : Type} (q : ListQuery) (rows : List α) :
    pageOf q.pageNumber q.pageSize rows =
      (rows.drop ((q.pageNumber - 1) * q.pageSize)).take q.pageSize := by
  obtain ⟨hpage, -⟩ := pageNumber_bounds q
  obtain ⟨hsize, hsize'⟩ := pageSize_bounds q
  have hclamped : max 1 (min q.pageSize maxPage) = q.pageSize := by omega
  rw [pageOf, window, hclamped, Nat.max_eq_left hpage]

theorem attempted_bind {α β : Type} (query : Query α) (next : Except Error α → StateM Store β)
    (s : Store) : (attempted query >>= next) s = next (query s).1 (query s).2 := rfl

/-- A page of attempts is what stands in the store at the place and in the length that are told with
it. -/
theorem listRuns_data_iff (h : s.Ready) :
    (listRuns q s).1 = .data d ↔ ∃ as : List Attempt,
      List.Forall₂ (Records s)
        (((s.shownAttempts q.filter).drop ((q.pageNumber - 1) * q.pageSize)).take q.pageSize) as ∧
      d = .table [("page", .int q.pageNumber), ("limit", .int q.pageSize),
        ("runs", .list (as.map Attempt.toDoc))] := by
  simp only [← pageOf_query, ← listAttempts_ok_iff h]
  rw [listRuns, attempted_bind]
  cases (listAttempts q.pageNumber q.pageSize q.filter s).1 with
  | error e => exact ⟨nofun, fun ⟨_, hno, _⟩ => nomatch hno⟩
  | ok as =>
    constructor
    · intro hdata
      exact ⟨as, rfl, (Answer.data.inj hdata).symm⟩
    · rintro ⟨as', has, rfl⟩
      cases has
      rfl

theorem listTargets_data_iff (h : s.Ready) :
    (listTargets q s).1 = .data d ↔
      (Text.trim (q.target.getD "")).isEmpty = false ∧ ∃ us : List Upload,
        List.Forall₂ (fun r u => r.read = .ok u)
          (((s.shownUploads (Text.trim (q.target.getD "")) q.filter).drop
            ((q.pageNumber - 1) * q.pageSize)).take q.pageSize) us ∧
        d = .table [("page", .int q.pageNumber), ("limit", .int q.pageSize),
          ("alias", .text (Text.trim (q.target.getD ""))),
          ("targets", .list (us.map Upload.toDoc))] := by
  simp only [← pageOf_query, ← uploadsByTarget_ok_iff h]
  unfold listTargets
  generalize Text.trim (q.target.getD "") = target
  cases target.isEmpty with
  | true => exact ⟨nofun, fun ⟨hno, _⟩ => nomatch hno⟩
  | false =>
    rw [if_neg Bool.false_ne_true, attempted_bind]
    cases (uploadsByTarget target q.pageNumber q.pageSize q.filter s).1 with
    | error e => exact ⟨nofun, fun ⟨_, _, hno, _⟩ => nomatch hno⟩
    | ok us =>
      constructor
      · intro hdata
        exact ⟨rfl, us, rfl, (Answer.data.inj hdata).symm⟩
      · rintro ⟨-, us', hus, rfl⟩
        cases hus
        rfl

/-- The query of a request for a list is heeded as it is read. -/
theorem handle_list (token : String) (gate : Gate) (k : Kind) (query : String)
    (header : Option String) :
    (handle token gate (.list k) query header s).1 = .data d ↔
      ∃ q, ListQuery.ofPairs (Text.queryPairs query) = .ok q ∧
        ((match k with | .run => listRuns q | .target => listTargets q) s).1 = .data d := by
  rw [handle]
  cases ListQuery.ofPairs (Text.queryPairs query) with
  | error message => exact ⟨nofun, fun ⟨_, hno, _⟩ => nomatch hno⟩
  | ok q =>
    constructor
    · intro hdata
      exact ⟨q, rfl, hdata⟩
    · rintro ⟨q', hq, hdata⟩
      cases hq
      exact hdata

end Api

open Audit Api

/-- For every filter and every limit, the pages of a listing show what there is to show, each record
once, the latest first, and of records that the store has stamped at moments of common years the one
of the later moment. No page lies out of reach of a word, and the page and the limit that the service
tells are those it has read by, whatever it was asked for. -/
theorem pages_partition {s : Store} (h : s.Ready) (hn : s.Numbered) (limit : Nat) (f : Filter)
    (target : String) :
    ((s.shownAttempts f).Perm (s.attempts.filter fun r => f.admits r.deleted r.persisted) ∧
      (∀ r, r ∈ s.shownAttempts f ↔ r ∈ s.attempts ∧ (r.deleted = true → f.includeDeleted = true) ∧
        (f.onlyPersisted = true → r.persisted = true)) ∧
      (s.shownAttempts f).Pairwise AttemptRow.Later ∧
      Displays (Records s) (max 1 (min limit 20)) (fun page => (listAttempts page limit f s).1)
        (s.shownAttempts f)) ∧
    ((s.shownUploads target f).Perm
        (s.uploads.filter fun r => r.target == target && f.admits r.deleted r.persisted) ∧
      (∀ r, r ∈ s.shownUploads target f ↔ r ∈ s.uploads ∧ r.target = target ∧
        (r.deleted = true → f.includeDeleted = true) ∧ (f.onlyPersisted = true → r.persisted = true)) ∧
      (s.shownUploads target f).Pairwise UploadRow.Later ∧
      Displays (fun r u => r.read = .ok u) (max 1 (min limit 20))
        (fun page => (uploadsByTarget target page limit f s).1) (s.shownUploads target f)) ∧
    (∀ t t' : Instant, t.Common → t'.Common → ∀ id id' : Int,
      Later (.ofInstant t) id (.ofInstant t') id' ↔ t'.Before t ∨ t = t' ∧ id' < id) ∧
    (∀ page < 2 ^ 32, (window page limit).1 < 2 ^ 63) ∧
    (∀ token gate query header d,
      (handle token gate (.list .run) query header s).1 = .data d ↔
        ∃ q as, ListQuery.ofPairs (Text.queryPairs query) = .ok q ∧
          List.Forall₂ (Records s)
            (((s.shownAttempts q.filter).drop ((q.pageNumber - 1) * q.pageSize)).take q.pageSize)
            as ∧
          d = .table [("page", .int q.pageNumber), ("limit", .int q.pageSize),
            ("runs", .list (as.map Attempt.toDoc))]) ∧
    (∀ token gate query header d,
      (handle token gate (.list .target) query header s).1 = .data d ↔
        ∃ q target us, ListQuery.ofPairs (Text.queryPairs query) = .ok q ∧
          target = Text.trim (q.target.getD "") ∧ target.isEmpty = false ∧
          List.Forall₂ (fun r u => r.read = .ok u)
            (((s.shownUploads target q.filter).drop ((q.pageNumber - 1) * q.pageSize)).take
              q.pageSize) us ∧
          d = .table [("page", .int q.pageNumber), ("limit", .int q.pageSize),
            ("alias", .text target), ("targets", .list (us.map Upload.toDoc))]) ∧
    ∀ q : ListQuery, (1 ≤ q.pageNumber ∧ q.pageNumber < 2 ^ 32) ∧ 1 ≤ q.pageSize ∧
      q.pageSize ≤ 20 := by
  refine ⟨⟨Order.sort_perm _ _, fun _ => mem_shownAttempts, shownAttempts_later hn f,
      listAttempts_displays h limit f⟩,
    ⟨Order.sort_perm _ _, fun _ => mem_shownUploads, shownUploads_later hn target f,
      uploadsByTarget_displays h target limit f⟩,
    fun t t' ht ht' id id' => later_ofInstant ht ht' id id', fun page hpage => window_lt hpage limit,
    fun token gate query header d => ?_, fun token gate query header d => ?_,
    fun q => ⟨pageNumber_bounds q, pageSize_bounds q⟩⟩
  · rw [handle_list]
    constructor
    · rintro ⟨q, hq, hdata⟩
      obtain ⟨as, has, hd⟩ := (listRuns_data_iff h).1 hdata
      exact ⟨q, as, hq, has, hd⟩
    · rintro ⟨q, as, hq, has, hd⟩
      exact ⟨q, hq, (listRuns_data_iff h).2 ⟨as, has, hd⟩⟩
  · rw [handle_list]
    constructor
    · rintro ⟨q, hq, hdata⟩
      obtain ⟨hsome, us, hus, hd⟩ := (listTargets_data_iff h).1 hdata
      exact ⟨q, _, us, hq, rfl, hsome, hus, hd⟩
    · rintro ⟨q, target, us, hq, rfl, hsome, hus, hd⟩
      exact ⟨q, hq, (listTargets_data_iff h).2 ⟨hsome, us, hus, hd⟩⟩

/-- Two snapshots that began at one time, the first of them deleted. -/
def oneGone : Store := Sweep.twoSnapshots.mapAttempts fun a => { a with deleted := a.id == 1 }

/-- On pages of one record each, the deleted one is shown only if it is asked for, and then as the
earlier one. -/
theorem pages_partition_tied :
    oneGone.Ready ∧ oneGone.Numbered ∧
      (∃ as : Nat → List Attempt, (∀ page, (listAttempts page 0 {} oneGone).1 = .ok (as page)) ∧
        ∃ all, Paged 1 as all ∧ all.map (·.height) = [2000]) ∧
      ∃ as : Nat → List Attempt,
        (∀ page, (listAttempts page 0 { includeDeleted := true } oneGone).1 = .ok (as page)) ∧
        ∃ all, Paged 1 as all ∧ all.map (·.height) = [2000, 1000] := by
  have hready : oneGone.Ready := Sweep.twoSnapshots_ready.mapAttempts _
  have hn : oneGone.Numbered := ⟨by decide +kernel, by decide +kernel⟩
  have hattempts : ∀ r ∈ oneGone.attempts, r.read.isOk = true := by decide +kernel
  have huploads : ∀ u ∈ oneGone.uploads, u.read.isOk = true := by decide +kernel
  have hpages (f : Filter) : ∃ as : Nat → List Attempt,
      (∀ page, (listAttempts page 0 f oneGone).1 = .ok (as page)) ∧
        ∃ all, Paged 1 as all ∧
          all.map (·.height) = (oneGone.shownAttempts f).map (·.height.toUInt64) := by
    obtain ⟨⟨-, hmem, -, hshown⟩, -⟩ := pages_partition hready hn 0 f "geth-1"
    have hreadable : ∀ r ∈ oneGone.shownAttempts f, ∃ a, Records oneGone r a := by
      intro r hr
      obtain ⟨a, ha⟩ := exists_of_isOk (hattempts r ((hmem r).1 hr).1)
      exact exists_records ha fun u hu _ => exists_of_isOk (huploads u hu)
    choose as has using hshown.complete.2 hreadable
    obtain ⟨all, hall, hpaged⟩ := hshown.partition as has
    exact ⟨as, has, all, hpaged, map_eq_of_forall hall fun r a h => h.reads.height⟩
  have hdefault := hpages {}
  have hdeleted := hpages { includeDeleted := true }
  rw [show (oneGone.shownAttempts {}).map (·.height.toUInt64) = [2000] by decide +kernel] at hdefault
  rw [show (oneGone.shownAttempts { includeDeleted := true }).map (·.height.toUInt64) = [2000, 1000]
    by decide +kernel] at hdeleted
  exact ⟨hready, hn, hdefault, hdeleted⟩

end FleetSnapshot
