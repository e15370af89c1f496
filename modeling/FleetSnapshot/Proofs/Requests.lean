import FleetSnapshot.Bucket.Service

/-! What is asked of a bucket's service to empty a directory, and what it answers. The listing goes
from page to page by the service's own tokens, and what it names is deleted in batches. It all
succeeds just if each of these requests does, and a service that keeps a log is asked for the same. -/

namespace FleetSnapshot.Bucket

section Batches

variable {α : Type} (size : Nat) (keys : List α)

theorem batches_flatten : (batches size keys).flatten = keys := by
  induction keys using batches.induct size with
  | case1 => rw [batches, List.flatten_nil]
  | case2 key keys ih => rw [batches, List.flatten_cons, ih, List.cons_append, List.take_append_drop]

theorem batches_eq_nil_iff : batches size keys = [] ↔ keys = [] := by
  cases keys <;> simp [batches]

theorem batch_length {batch : List α} (h : batch ∈ batches size keys) :
    1 ≤ batch.length ∧ batch.length ≤ max size 1 := by
  induction keys using batches.induct size with
  | case1 => simp [batches] at h
  | case2 key keys ih =>
    rw [batches, List.mem_cons] at h
    rcases h with rfl | h
    · rw [List.length_cons, List.length_take]
      omega
    · exact ih h

/-- Only the last batch may have room left. -/
theorem batch_full {batch : List α} (h : batch ∈ (batches size keys).dropLast) :
    batch.length = max size 1 := by
  induction keys using batches.induct size with
  | case1 => simp [batches] at h
  | case2 key keys ih =>
    rw [batches] at h
    by_cases hrest : batches size (keys.drop (size - 1)) = []
    · simp [hrest] at h
    · rw [List.dropLast_cons_of_ne_nil hrest, List.mem_cons] at h
      rcases h with rfl | h
      · rw [batches_eq_nil_iff, List.drop_eq_nil_iff] at hrest
        rw [List.length_cons, List.length_take]
        omega
      · exact ih h

/-- What is in the lists once is in one of them. -/
theorem count_flatten [DecidableEq α] {lists : List (List α)} {key : α}
    (hnodup : lists.flatten.Nodup) (h : key ∈ lists.flatten) :
    lists.countP (fun l => key ∈ l) = 1 := by
  induction lists with
  | nil => simp at h
  | cons l lists ih =>
    rw [List.flatten_cons] at hnodup h
    obtain ⟨-, hnodup', hdisj⟩ := List.nodup_append.1 hnodup
    rw [List.countP_cons]
    rcases List.mem_append.1 h with hl | hl
    · have hrest : lists.countP (fun l => key ∈ l) = 0 := by
        refine List.countP_eq_zero.2 fun l' hl' hkey => ?_
        exact hdisj key hl key (List.mem_flatten.2 ⟨l', hl', of_decide_eq_true hkey⟩) rfl
      rw [hrest, if_pos (decide_eq_true hl)]
    · have hnot : key ∉ l := fun hkey => hdisj key hkey key hl rfl
      rw [ih hnodup' hl, if_neg (by simpa using hnot)]

end Batches

variable {σ : Type}

/-- A listing, page by page, each one asked for with the token of the one before. -/
inductive Pages (service : Service σ) (bucket pre : String) :
    Option String → σ → List Page → σ → Prop
  | last {start : Option String} {s s' : σ} {page : Page}
      (answer : service.page bucket pre start s = (.ok page, s')) (done : page.next = none) :
      Pages service bucket pre start s [page] s'
  | more {start : Option String} {s s' s'' : σ} {page : Page} {token : String} {pages : List Page}
      (answer : service.page bucket pre start s = (.ok page, s')) (next : page.next = some token)
      (rest : Pages service bucket pre (some token) s' pages s'') :
      Pages service bucket pre start s (page :: pages) s''

def keysOn (pages : List Page) : List String := pages.flatMap (·.keys)

theorem keysOn_cons (page : Page) (pages : List Page) :
    keysOn (page :: pages) = page.keys ++ keysOn pages := List.flatMap_cons

/-- Deletions that are answered, each with the keys it names and those of them that are refused. -/
inductive Answers (service : Service σ) (bucket : String) :
    σ → List (List String × List String) → σ → Prop
  | nil (s : σ) : Answers service bucket s [] s
  | cons {s s' s'' : σ} {keys refused : List String} {rest : List (List String × List String)}
      (answer : service.delete bucket keys s = (.ok refused, s'))
      (answers : Answers service bucket s' rest s'') :
      Answers service bucket s ((keys, refused) :: rest) s''

section Runs

variable {service : Service σ} {bucket pre : String} {start : Option String} {s s' : σ}

theorem keysFrom_ok_iff {bound : Nat} {keys : List String} :
    keysFrom service bucket pre bound start s = (some (.ok keys), s') ↔
      ∃ pages, Pages service bucket pre start s pages s' ∧ pages.length ≤ bound ∧
        keys = keysOn pages := by
  constructor
  · intro h
    induction bound generalizing start s keys with
    | zero => simp [keysFrom] at h
    | succ bound ih =>
      rw [keysFrom] at h
      split at h
      · simp at h
      · next page s₁ hpage =>
        split at h
        · next hnext =>
          simp only [Prod.mk.injEq, Option.some.injEq, Except.ok.injEq] at h
          obtain ⟨rfl, rfl⟩ := h
          refine ⟨[page], .last hpage hnext, ?_, ?_⟩ <;> simp [keysOn]
        · next token hnext =>
          split at h
          · next keys' s₂ hrest =>
            simp only [Prod.mk.injEq, Option.some.injEq, Except.ok.injEq] at h
            obtain ⟨rfl, rfl⟩ := h
            obtain ⟨pages, hpages, hlength, rfl⟩ := ih hrest
            refine ⟨page :: pages, .more hpage hnext hpages, ?_, (keysOn_cons page pages).symm⟩
            rw [List.length_cons]
            omega
          · next hno => exact absurd h (hno keys s')
  · rintro ⟨pages, hpages, hlength, rfl⟩
    induction hpages generalizing bound with
    | last answer done =>
      obtain ⟨bound, rfl⟩ : ∃ n, bound = n + 1 := ⟨bound - 1, by simp at hlength; omega⟩
      rw [keysFrom, answer]
      simp [done, keysOn]
    | more answer next rest ih =>
      rw [List.length_cons] at hlength
      obtain ⟨bound, rfl⟩ : ∃ n, bound = n + 1 := ⟨bound - 1, by omega⟩
      rw [keysFrom, answer]
      simp only [next, ih (Nat.le_of_succ_le_succ hlength), keysOn_cons]

theorem deleteAll_ok_iff {requests : List (List String)} :
    deleteAll service bucket requests s = (.ok (), s') ↔
      ∃ answered, Answers service bucket s answered s' ∧ answered.map Prod.fst = requests := by
  constructor
  · intro h
    induction requests generalizing s with
    | nil =>
      rw [deleteAll, Prod.mk.injEq] at h
      obtain ⟨-, rfl⟩ := h
      exact ⟨[], .nil s, rfl⟩
    | cons keys rest ih =>
      rw [deleteAll] at h
      split at h
      · simp at h
      · next refused s₁ hdelete =>
        obtain ⟨answered, hanswers, rfl⟩ := ih h
        exact ⟨(keys, refused) :: answered, .cons hdelete hanswers, rfl⟩
  · rintro ⟨answered, hanswers, rfl⟩
    induction hanswers with
    | nil s => rfl
    | cons answer answers ih =>
      rw [List.map_cons, deleteAll, answer]
      exact ih

/-- The requests that empty a directory when all of them succeed: its listing, and then deletions of
all that was listed. -/
structure Round (service : Service σ) (bucket pre : String) (s : σ) (pages : List Page)
    (answered : List (List String × List String)) (s' : σ) : Prop where
  asked : answered.map Prod.fst = batches batchSize (keysOn pages)
  served : ∃ s₁, Pages service bucket pre none s pages s₁ ∧ Answers service bucket s₁ answered s'

theorem deletePrefix_ok_iff {settings : Settings} {bound n : Nat} :
    deletePrefix service settings bound pre s = (some (.ok n), s') ↔
      settings.bucketName.isEmpty = false ∧ ∃ pages answered, pages.length ≤ bound ∧
        Round service settings.bucketName (directory pre) s pages answered s' ∧
          n = (keysOn pages).length := by
  unfold deletePrefix requireBucket
  cases hname : settings.bucketName.isEmpty with
  | true => simp
  | false =>
    simp only [Bool.false_eq_true, if_false, true_and]
    constructor
    · intro h
      split at h
      · next keys s₁ hkeys =>
        obtain ⟨pages, hpages, hlength, rfl⟩ := keysFrom_ok_iff.1 hkeys
        split at h
        · next s₂ hdelete =>
          simp only [Prod.mk.injEq, Option.some.injEq, Except.ok.injEq] at h
          obtain ⟨rfl, rfl⟩ := h
          obtain ⟨answered, hanswers, hasked⟩ := deleteAll_ok_iff.1 hdelete
          exact ⟨pages, answered, hlength, ⟨hasked, s₁, hpages, hanswers⟩, rfl⟩
        · simp at h
      · simp at h
      · simp at h
    · rintro ⟨pages, answered, hlength, ⟨hasked, s₁, hpages, hanswers⟩, rfl⟩
      rw [keysFrom_ok_iff.2 ⟨pages, hpages, hlength, rfl⟩]
      simp only [deleteAll_ok_iff.2 ⟨answered, hanswers, hasked⟩]

end Runs

inductive Exchange where
  | put (bucket key text : String) (answer : Except String Unit)
  | page (bucket pre : String) (start : Option String) (answer : Except String Page)
  | delete (bucket : String) (keys : List String) (answer : Except String (List String))

def Service.logged (service : Service σ) : Service (σ × List Exchange) where
  put bucket key text s :=
    let r := service.put bucket key text s.1
    (r.1, r.2, s.2 ++ [.put bucket key text r.1])
  page bucket pre start s :=
    let r := service.page bucket pre start s.1
    (r.1, r.2, s.2 ++ [.page bucket pre start r.1])
  delete bucket keys s :=
    let r := service.delete bucket keys s.1
    (r.1, r.2, s.2 ++ [.delete bucket keys r.1])

namespace Exchange

def listed : Exchange → List String
  | .page _ _ _ (.ok found) => found.keys
  | _ => []

def deleted? : Exchange → Option (List String)
  | .delete _ keys _ => some keys
  | _ => none

/-- The request did not fail as a whole. -/
def Served : Exchange → Prop
  | .put _ _ _ answer => answer.isOk = true
  | .page _ _ _ answer => answer.isOk = true
  | .delete _ _ answer => answer.isOk = true

def Clean : Exchange → Prop
  | .put _ _ _ answer => answer = .ok ()
  | .page _ _ _ answer => ∃ found, answer = .ok found
  | .delete _ _ answer => answer = .ok []

/-- A deletion of the key that is not refused for it. -/
def Grants (key : String) : Exchange → Prop
  | .delete _ keys (.ok refused) => key ∈ keys ∧ key ∉ refused
  | _ => False

end Exchange

def listedIn (log : List Exchange) : List String := log.flatMap (·.listed)

def deletions (log : List Exchange) : List (List String) := log.filterMap (·.deleted?)

section Logs

variable {service : Service σ} {bucket pre : String} {start : Option String} {s s' : σ}

theorem logged_delete (keys : List String) (log : List Exchange) :
    service.logged.delete bucket keys (s, log) = ((service.delete bucket keys s).1,
      (service.delete bucket keys s).2,
      log ++ [.delete bucket keys (service.delete bucket keys s).1]) := rfl

def pageLog (bucket pre : String) : Option String → List Page → List Exchange
  | _, [] => []
  | start, page :: pages => .page bucket pre start (.ok page) :: pageLog bucket pre page.next pages

def deletionLog (bucket : String) (answered : List (List String × List String)) : List Exchange :=
  answered.map fun (keys, refused) => .delete bucket keys (.ok refused)

theorem listedIn_pageLog (pages : List Page) :
    listedIn (pageLog bucket pre start pages) = keysOn pages := by
  induction pages generalizing start with
  | nil => rfl
  | cons page pages ih =>
    rw [pageLog, listedIn, List.flatMap_cons, ← listedIn, ih, keysOn_cons]
    rfl

theorem listedIn_deletionLog (answered : List (List String × List String)) :
    listedIn (deletionLog bucket answered) = [] := by
  rw [listedIn, deletionLog, List.flatMap_map]
  exact List.flatMap_eq_nil_iff.2 fun _ _ => rfl

theorem deletions_pageLog (pages : List Page) : deletions (pageLog bucket pre start pages) = [] := by
  induction pages generalizing start with
  | nil => rfl
  | cons page pages ih =>
    rw [pageLog, deletions, List.filterMap_cons]
    exact ih

theorem deletions_deletionLog (answered : List (List String × List String)) :
    deletions (deletionLog bucket answered) = answered.map Prod.fst := by
  induction answered with
  | nil => rfl
  | cons a answered ih =>
    rw [deletionLog, List.map_cons, deletions, List.filterMap_cons]
    exact congrArg (a.1 :: ·) ih

def roundLog (bucket pre : String) (pages : List Page)
    (answered : List (List String × List String)) : List Exchange :=
  pageLog bucket pre none pages ++ deletionLog bucket answered

theorem listedIn_roundLog (pages : List Page) (answered : List (List String × List String)) :
    listedIn (roundLog bucket pre pages answered) = keysOn pages := by
  rw [roundLog, listedIn, List.flatMap_append, ← listedIn, ← listedIn, listedIn_pageLog,
    listedIn_deletionLog, List.append_nil]

theorem deletions_roundLog (pages : List Page) (answered : List (List String × List String)) :
    deletions (roundLog bucket pre pages answered) = answered.map Prod.fst := by
  rw [roundLog, deletions, List.filterMap_append, ← deletions, ← deletions, deletions_pageLog,
    deletions_deletionLog, List.nil_append]

/-- A listing asks for pages alone. -/
theorem mem_pageLog {e : Exchange} {pages : List Page} (h : e ∈ pageLog bucket pre start pages) :
    ∃ start page, e = .page bucket pre start (.ok page) := by
  induction pages generalizing start with
  | nil => exact absurd h List.not_mem_nil
  | cons page pages ih =>
    rw [pageLog, List.mem_cons] at h
    rcases h with rfl | h
    · exact ⟨start, page, rfl⟩
    · exact ih h

theorem served_roundLog {pages : List Page} {answered : List (List String × List String)} :
    ∀ e ∈ roundLog bucket pre pages answered, e.Served := by
  intro e he
  rcases List.mem_append.1 he with he | he
  · obtain ⟨start, page, rfl⟩ := mem_pageLog he
    rfl
  · obtain ⟨a, -, rfl⟩ := List.mem_map.1 he
    rfl

theorem grants_roundLog {key : String} {pages : List Page}
    {answered : List (List String × List String)} :
    (∃ e ∈ roundLog bucket pre pages answered, e.Grants key) ↔
      ∃ a ∈ answered, key ∈ a.1 ∧ key ∉ a.2 := by
  constructor
  · rintro ⟨e, he, hgrants⟩
    rcases List.mem_append.1 he with he | he
    · obtain ⟨start, page, rfl⟩ := mem_pageLog he
      exact hgrants.elim
    · obtain ⟨a, ha, rfl⟩ := List.mem_map.1 he
      exact ⟨a, ha, hgrants⟩
  · rintro ⟨a, ha, hgrants⟩
    exact ⟨_, List.mem_append_right _ (List.mem_map_of_mem ha), hgrants⟩

theorem Pages.logged {pages : List Page} (h : Pages service bucket pre start s pages s')
    (log : List Exchange) :
    Pages service.logged bucket pre start (s, log) pages
      (s', log ++ pageLog bucket pre start pages) := by
  induction h generalizing log with
  | last answer done =>
    refine .last ?_ done
    simp only [pageLog, Service.logged, answer]
  | more answer next rest ih =>
    rw [pageLog, List.append_cons, next]
    refine .more ?_ next (ih _)
    simp only [Service.logged, answer]

theorem Answers.logged {answered : List (List String × List String)}
    (h : Answers service bucket s answered s') (log : List Exchange) :
    Answers service.logged bucket (s, log) answered (s', log ++ deletionLog bucket answered) := by
  induction h generalizing log with
  | nil s =>
    rw [deletionLog, List.map_nil, List.append_nil]
    exact .nil _
  | cons answer answers ih =>
    rw [deletionLog, List.map_cons, List.append_cons]
    refine .cons ?_ (ih _)
    simp only [Service.logged, answer]

theorem Round.logged {pages : List Page} {answered : List (List String × List String)}
    (h : Round service bucket pre s pages answered s') :
    Round service.logged bucket pre (s, []) pages answered
      (s', roundLog bucket pre pages answered) := by
  obtain ⟨hasked, s₁, hpages, hanswers⟩ := h
  exact ⟨hasked, _, hpages.logged [], hanswers.logged _⟩

theorem deleteAll_log (requests : List (List String)) (s : σ) (log : List Exchange) :
    log <+: (deleteAll service.logged bucket requests (s, log)).2.2 := by
  induction requests generalizing s log with
  | nil => exact List.prefix_refl log
  | cons keys rest ih =>
    have hstep : log <+: log ++ [.delete bucket keys (service.delete bucket keys s).1] :=
      List.prefix_append _ _
    rw [deleteAll, logged_delete]
    rcases hdelete : service.delete bucket keys s with ⟨reason | refused, s₁⟩ <;> rw [hdelete] at hstep
    · exact hstep
    · exact hstep.trans (ih s₁ _)

/-- Deletions without a failure in the log are all answered, and nothing is refused. -/
theorem answers_of_clean {requests : List (List String)} {log : List Exchange}
    (h : ∀ e ∈ (deleteAll service.logged bucket requests (s, log)).2.2, e.Clean) :
    ∃ s', Answers service bucket s (requests.map (·, [])) s' := by
  induction requests generalizing s log with
  | nil => exact ⟨s, .nil s⟩
  | cons keys rest ih =>
    rw [deleteAll, logged_delete] at h
    rcases hdelete : service.delete bucket keys s with ⟨reason | refused, s₁⟩ <;>
      simp only [hdelete] at h
    · have hfailed := h (.delete bucket keys (.error reason)) (by simp)
      cases hfailed
    · have hclean := h (.delete bucket keys (.ok refused))
        ((deleteAll_log rest s₁ _).subset (by simp))
      obtain rfl := Except.ok.inj hclean
      obtain ⟨s', hanswers⟩ := ih h
      exact ⟨s', .cons hdelete hanswers⟩

/-- Where the log of a whole round shows no failure, the round goes through. -/
theorem round_of_clean {settings : Settings} {bound : Nat} {pages : List Page} {s₁ : σ}
    (hname : settings.bucketName.isEmpty = false)
    (hpages : Pages service settings.bucketName (directory pre) none s pages s₁)
    (hbound : pages.length ≤ bound)
    (hclean : ∀ e ∈ (deletePrefix service.logged settings bound pre (s, [])).2.2, e.Clean) :
    ∃ s', Round service settings.bucketName (directory pre) s pages
      ((batches batchSize (keysOn pages)).map (·, [])) s' := by
  have hlisted := keysFrom_ok_iff.2 ⟨pages, hpages.logged [], hbound, rfl⟩
  rw [deletePrefix, requireBucket, hname] at hclean
  simp only [Bool.false_eq_true, if_false, hlisted, List.nil_append] at hclean
  have hdeletions : ∀ e ∈ (deleteAll service.logged settings.bucketName
      (batches batchSize (keysOn pages))
      (s₁, pageLog settings.bucketName (directory pre) none pages)).2.2, e.Clean := by
    split at hclean
    all_goals
      next hdelete =>
        rw [hdelete]
        exact hclean
  obtain ⟨s', hanswers⟩ := answers_of_clean hdeletions
  exact ⟨s', (List.map_map ..).trans (List.map_id' _), s₁, hpages, hanswers⟩

end Logs

end FleetSnapshot.Bucket
