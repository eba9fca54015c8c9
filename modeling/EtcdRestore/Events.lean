import EtcdRestore.Types

/-! Replaying a delta's events (`applyEventsToEtcd`, `verifySnapshotRevision`,
`applyEventsAndVerify`). A failing commit leaves the store as it was. The intended meaning is
`commitRuns`, one transaction per maximal run of one `modRevision`, and
`applyEventsToEtcd_eq_commitRuns` says the loop computes it on every ordered event list. -/
namespace EtcdRestore

variable {σ : Type}

/-- Commit one transaction; a failing commit changes nothing. -/
def commit (kv : KV σ) (ops : List Op) (s : σ) : σ × Except String Unit :=
  match kv.txn s ops with
  | .ok s' => (s', .ok ())
  | .error err => (s, .error err)

/-- The operation an event replays; `none` is the "unexpected event type" branch. -/
def eventOp (e : Event) : Option Op :=
  match e.type with
  | .put => some (.put e.kv.key e.kv.value)
  | .delete => some (.delete e.kv.key)
  | .other _ => none

/-- The batch is committed before an event whose revision is above `lastRev ≠ 0`. -/
def flushBatch (kv : KV σ) (lastRev nextRev : Int) (ops : List Op) (s : σ) :
    Except String (List Op × σ) :=
  if lastRev ≠ 0 ∧ nextRev > lastRev then (kv.txn s ops).map fun s' => ([], s')
  else .ok (ops, s)

/-- The loop of `applyEventsToEtcd` with the pending batch `ops` of revision `lastRev`. -/
def applyEventsFrom (kv : KV σ) (lastRev : Int) (ops : List Op) :
    List Event → σ → σ × Except String Unit
  | [], s => commit kv ops s
  | e :: es, s =>
    match flushBatch kv lastRev e.kv.modRevision ops s with
    | .error err => (s, .error err)
    | .ok (ops', s') =>
      match eventOp e with
      | none => (s', .error "unexpected event type")
      | some op => applyEventsFrom kv e.kv.modRevision (ops' ++ [op]) es s'

def applyEventsToEtcd (kv : KV σ) (events : List Event) (s : σ) : σ × Except String Unit :=
  applyEventsFrom kv 0 [] events s

def verifySnapshotRevision (kv : KV σ) (snap : Snapshot) (s : σ) : Except String Unit :=
  match kv.get s "foo" with
  | .error err => .error ("failed to connect to etcd KV client: " ++ err)
  | .ok etcdRevision =>
    if snap.lastRevision ≠ etcdRevision then
      .error ("mismatched event revision while applying delta snapshot, expected " ++
        toString snap.lastRevision ++ " but applied " ++ toString etcdRevision ++ " ")
    else .ok ()

def applyEventsAndVerify (kv : KV σ) (events : List Event) (snap : Snapshot) (s : σ) :
    σ × Except String Unit :=
  match applyEventsToEtcd kv events s with
  | (s', .error err) =>
    (s', .error ("failed to apply events to etcd for delta snapshot " ++ snap.snapName ++ " : " ++ err))
  | (s', .ok ()) =>
    (s', (verifySnapshotRevision kv snap s').mapError fun err =>
      "snapshot revision verification failed for delta snapshot " ++ snap.snapName ++ " : " ++ err)

theorem applyEventsAndVerify_ok {kv : KV σ} {events : List Event} {snap : Snapshot} {s s' : σ}
    (ok : applyEventsAndVerify kv events snap s = (s', .ok ())) :
    kv.get s' "foo" = .ok snap.lastRevision := by
  unfold applyEventsAndVerify at ok
  split at ok
  · simp at ok
  · simp only [Prod.mk.injEq, verifySnapshotRevision] at ok
    obtain ⟨rfl, ok⟩ := ok
    split at ok
    · simp [Except.mapError] at ok
    · rename_i got
      split at ok
      · simp [Except.mapError] at ok
      · rename_i same
        rw [got, not_not.mp same]

/-! ### Runs of one revision -/

def revisionRuns : List Event → List (List Event)
  | [] => []
  | e :: es =>
    match revisionRuns es with
    | (f :: run) :: runs =>
      if f.kv.modRevision = e.kv.modRevision then (e :: f :: run) :: runs
      else [e] :: (f :: run) :: runs
    | _ => [[e]]

/-- Commit every run as one transaction, in order. A run holding an event of another
type stops with an error before its commit, a failing commit stops with its error. -/
def commitRuns (kv : KV σ) : List (List Event) → σ → σ × Except String Unit
  | [], s => (s, .ok ())
  | run :: runs, s =>
    match run.mapM eventOp with
    | none => (s, .error "unexpected event type")
    | some ops =>
      match kv.txn s ops with
      | .error err => (s, .error err)
      | .ok s' => commitRuns kv runs s'

/-- Revisions as a delta snapshot stores them. -/
structure Ordered (events : List Event) : Prop where
  positive : ∀ e ∈ events, 0 < e.kv.modRevision
  sorted : events.Pairwise fun a b => a.kv.modRevision ≤ b.kv.modRevision

theorem revisionRuns_cons (e : Event) (es : List Event) :
    revisionRuns (e :: es) =
      (e :: es.takeWhile (·.kv.modRevision == e.kv.modRevision)) ::
        revisionRuns (es.dropWhile (·.kv.modRevision == e.kv.modRevision)) := by
  induction es generalizing e with
  | nil => rfl
  | cons f fs ih =>
    rw [revisionRuns, ih f]
    by_cases same : f.kv.modRevision = e.kv.modRevision
    · simp [same]
    · simp [same, ih f]

def commitRunsFrom (kv : KV σ) (pending : List Op) (run : List Event)
    (runs : List (List Event)) (s : σ) : σ × Except String Unit :=
  match run.mapM eventOp with
  | none => (s, .error "unexpected event type")
  | some ops =>
    match kv.txn s (pending ++ ops) with
    | .error err => (s, .error err)
    | .ok s' => commitRuns kv runs s'

theorem commitRuns_cons (kv : KV σ) (run : List Event) (runs : List (List Event)) (s : σ) :
    commitRuns kv (run :: runs) s = commitRunsFrom kv [] run runs s := rfl

theorem commitRunsFrom_cons_some (kv : KV σ) {e : Event} {op : Op} (h : eventOp e = some op)
    (pending : List Op) (run : List Event) (runs : List (List Event)) (s : σ) :
    commitRunsFrom kv pending (e :: run) runs s = commitRunsFrom kv (pending ++ [op]) run runs s := by
  simp only [commitRunsFrom, List.mapM_cons, h, Option.pure_def, Option.bind_eq_bind, Option.some_bind]
  cases run.mapM eventOp <;> simp

theorem commitRunsFrom_cons_none (kv : KV σ) {e : Event} (h : eventOp e = none)
    (pending : List Op) (run : List Event) (runs : List (List Event)) (s : σ) :
    commitRunsFrom kv pending (e :: run) runs s = (s, .error "unexpected event type") := by
  rw [commitRunsFrom, List.mapM_cons, h]
  rfl

theorem applyEventsFrom_eq (kv : KV σ) (es : List Event) (lastRev : Int) (ops : List Op) (s : σ)
    (pos : 0 < lastRev) (above : ∀ e ∈ es, lastRev ≤ e.kv.modRevision)
    (sorted : es.Pairwise fun a b => a.kv.modRevision ≤ b.kv.modRevision) :
    applyEventsFrom kv lastRev ops es s =
      commitRunsFrom kv ops (es.takeWhile (·.kv.modRevision == lastRev))
        (revisionRuns (es.dropWhile (·.kv.modRevision == lastRev))) s := by
  induction es generalizing lastRev ops s with
  | nil =>
    simp only [applyEventsFrom, commit, commitRunsFrom, List.takeWhile_nil, List.dropWhile_nil,
      List.mapM_nil, List.append_nil, revisionRuns]
    cases kv.txn s ops <;> rfl
  | cons e es ih =>
    have tail := List.pairwise_cons.mp sorted
    by_cases same : e.kv.modRevision = lastRev
    · subst same
      have flush : flushBatch kv e.kv.modRevision e.kv.modRevision ops s = .ok (ops, s) := by
        simp [flushBatch]
      cases hop : eventOp e with
      | none => simp [applyEventsFrom, flush, hop, commitRunsFrom_cons_none kv hop]
      | some op =>
        simp only [applyEventsFrom, flush, hop, List.takeWhile_cons, List.dropWhile_cons,
          beq_self_eq_true, ite_true, commitRunsFrom_cons_some kv hop]
        exact ih _ _ _ pos tail.1 tail.2
    · have later : lastRev < e.kv.modRevision := by
        have := above e (List.mem_cons_self e es)
        omega
      have flush : flushBatch kv lastRev e.kv.modRevision ops s = (kv.txn s ops).map fun s' => ([], s') := by
        simp [flushBatch, later, Int.ne_of_gt pos]
      simp only [applyEventsFrom, flush, List.takeWhile_cons, List.dropWhile_cons, same,
        beq_iff_eq, ite_false, commitRunsFrom, List.mapM_nil, List.append_nil]
      cases kv.txn s ops with
      | error err => rfl
      | ok s' =>
        simp only [Except.map, revisionRuns_cons, commitRuns_cons]
        cases hop : eventOp e with
        | none => simp [commitRunsFrom_cons_none kv hop]
        | some op =>
          rw [commitRunsFrom_cons_some kv hop]
          exact ih e.kv.modRevision _ _ (by omega) tail.1 tail.2

theorem applyEventsToEtcd_eq_commitRuns (kv : KV σ) (events : List Event) (s : σ)
    (ordered : Ordered events) :
    applyEventsToEtcd kv events s =
      if events = [] then commit kv [] s else commitRuns kv (revisionRuns events) s := by
  cases events with
  | nil => rfl
  | cons e es =>
    have flush : flushBatch kv 0 e.kv.modRevision [] s = .ok ([], s) := by simp [flushBatch]
    have tail := List.pairwise_cons.mp ordered.sorted
    simp only [applyEventsToEtcd, applyEventsFrom, flush, List.cons_ne_nil, ite_false,
      revisionRuns_cons, commitRuns_cons]
    cases hop : eventOp e with
    | none => simp [commitRunsFrom_cons_none kv hop]
    | some op =>
      rw [commitRunsFrom_cons_some kv hop]
      exact applyEventsFrom_eq kv es _ _ s (ordered.positive e (List.mem_cons_self e es)) tail.1 tail.2

/-! ### Properties of the runs -/

theorem runs_induction {motive : List Event → Prop} (nil : motive [])
    (cons : ∀ e es, motive (es.dropWhile (·.kv.modRevision == e.kv.modRevision)) → motive (e :: es)) :
    ∀ events, motive events
  | [] => nil
  | e :: es => cons e es (runs_induction nil cons _)
termination_by events => events.length
decreasing_by
  simp_wf
  have := (@List.dropWhile_suffix _ es (·.kv.modRevision == e.kv.modRevision)).length_le
  omega

theorem takeWhile_revision {e x : Event} {es : List Event}
    (h : x ∈ es.takeWhile (·.kv.modRevision == e.kv.modRevision)) :
    x.kv.modRevision = e.kv.modRevision := by
  simpa using List.all_eq_true.mp List.all_takeWhile x h

theorem mem_dropWhile_revision {r : Int} {x : Event} : ∀ {l : List Event},
    l.Pairwise (fun a b => a.kv.modRevision ≤ b.kv.modRevision) → (∀ y ∈ l, r ≤ y.kv.modRevision) →
    (x ∈ l.dropWhile (·.kv.modRevision == r) ↔ x ∈ l ∧ r < x.kv.modRevision)
  | [], _, _ => by simp
  | y :: ys, sorted, above => by
    have tail := List.pairwise_cons.mp sorted
    have hy := above y (List.mem_cons_self y ys)
    by_cases same : y.kv.modRevision = r
    · rw [List.dropWhile_cons, if_pos (by simpa using same),
        mem_dropWhile_revision tail.2 fun z hz => same ▸ tail.1 z hz]
      constructor
      · exact fun ⟨hx, lt⟩ => ⟨List.mem_cons_of_mem y hx, lt⟩
      · rintro ⟨hx, lt⟩
        rcases List.mem_cons.mp hx with rfl | hx
        · omega
        · exact ⟨hx, lt⟩
    · rw [List.dropWhile_cons, if_neg (by simpa using same)]
      constructor
      · intro hx
        refine ⟨hx, ?_⟩
        rcases List.mem_cons.mp hx with rfl | hx
        · omega
        · have := tail.1 x hx
          omega
      · exact fun h => h.1

theorem revisionRuns_flatten (events : List Event) : (revisionRuns events).flatten = events := by
  induction events using runs_induction with
  | nil => rfl
  | cons e es ih =>
    rw [revisionRuns_cons, List.flatten_cons, ih, List.cons_append, List.takeWhile_append_dropWhile]

theorem revisionRuns_uniform (events : List Event) :
    ∀ run ∈ revisionRuns events, run ≠ [] ∧
      ∀ e ∈ run, ∀ f ∈ run, e.kv.modRevision = f.kv.modRevision := by
  induction events using runs_induction with
  | nil => simp [revisionRuns]
  | cons e es ih =>
    rw [revisionRuns_cons]
    intro run h
    rcases List.mem_cons.mp h with rfl | h
    · have same : ∀ x ∈ e :: es.takeWhile (·.kv.modRevision == e.kv.modRevision),
          x.kv.modRevision = e.kv.modRevision := by
        intro x hx
        rcases List.mem_cons.mp hx with rfl | hx
        · rfl
        · exact takeWhile_revision hx
      exact ⟨List.cons_ne_nil _ _, fun x hx y hy => (same x hx).trans (same y hy).symm⟩
    · exact ih run h

theorem revisionRuns_increasing (events : List Event)
    (sorted : events.Pairwise fun a b => a.kv.modRevision ≤ b.kv.modRevision) :
    (revisionRuns events).Pairwise fun r r' => ∀ e ∈ r, ∀ f ∈ r', e.kv.modRevision < f.kv.modRevision := by
  induction events using runs_induction with
  | nil => exact List.Pairwise.nil
  | cons e es ih =>
    have tail := List.pairwise_cons.mp sorted
    rw [revisionRuns_cons, List.pairwise_cons]
    refine ⟨fun r' hr' x hx f hf => ?_, ih (tail.2.sublist (List.dropWhile_suffix _).sublist)⟩
    have hx : x.kv.modRevision = e.kv.modRevision := by
      rcases List.mem_cons.mp hx with rfl | hx
      · rfl
      · exact takeWhile_revision hx
    have hf : f ∈ es.dropWhile (·.kv.modRevision == e.kv.modRevision) := by
      rw [← revisionRuns_flatten (es.dropWhile _)]
      exact List.mem_flatten.mpr ⟨r', hr', hf⟩
    rw [hx]
    exact ((mem_dropWhile_revision tail.2 tail.1).mp hf).2

/-! ### Replaying a delta against a revision counter -/

def countingStore : KV Int where
  txn r ops := .ok (if ops = [] then r else r + 1)
  get r _ := .ok r

theorem countingStore_txn (r : Int) (ops : List Op) :
    countingStore.txn r ops = .ok (if ops = [] then r else r + 1) := rfl

theorem mapM_eventOp_some : ∀ {run : List Event}, (∀ e ∈ run, (eventOp e).isSome) →
    ∃ ops, run.mapM eventOp = some ops ∧ ops.length = run.length
  | [], _ => ⟨[], rfl, rfl⟩
  | e :: run, valid => by
    obtain ⟨op, hop⟩ := Option.isSome_iff_exists.mp (valid e (List.mem_cons_self e run))
    obtain ⟨ops, hops, len⟩ := mapM_eventOp_some fun x hx => valid x (List.mem_cons_of_mem e hx)
    exact ⟨op :: ops, by rw [List.mapM_cons, hop, hops]; rfl, by simp [len]⟩

theorem commitRuns_countingStore (R : Int) : ∀ {runs : List (List Event)},
    (∀ run ∈ runs, run ≠ [] ∧ ∀ e ∈ run, (eventOp e).isSome) →
    commitRuns countingStore runs R = (R + runs.length, .ok ())
  | [], _ => by simp [commitRuns]
  | run :: runs, good => by
    have hrun := good run (List.mem_cons_self run runs)
    obtain ⟨ops, hops, len⟩ := mapM_eventOp_some hrun.2
    have nonempty : ops ≠ [] := by
      rintro rfl
      exact hrun.1 (List.eq_nil_of_length_eq_zero len.symm)
    have rest := @commitRuns_countingStore (R + 1) runs fun r hr => good r (List.mem_cons_of_mem run hr)
    simp only [commitRuns, hops, countingStore_txn, nonempty, if_false, rest, List.length_cons]
    congr 1
    omega

theorem revisionRuns_length (events : List Event) (R L : Int)
    (sorted : events.Pairwise fun a b => a.kv.modRevision ≤ b.kv.modRevision)
    (covers : ∀ r, (∃ e ∈ events, e.kv.modRevision = r) ↔ R < r ∧ r ≤ L) (le : R ≤ L) :
    ((revisionRuns events).length : Int) = L - R := by
  induction events using runs_induction generalizing R with
  | nil =>
    have : ¬ R < L := fun lt => by simpa using (covers (R + 1)).mpr ⟨by omega, by omega⟩
    simp [revisionRuns]
    omega
  | cons e es ih =>
    have tail := List.pairwise_cons.mp sorted
    have he := (covers e.kv.modRevision).mp ⟨e, List.mem_cons_self e es, rfl⟩
    obtain ⟨x, hx, hxr⟩ := (covers (R + 1)).mpr ⟨by omega, by omega⟩
    have first : e.kv.modRevision = R + 1 := by
      rcases List.mem_cons.mp hx with rfl | hx
      · exact hxr
      · have := tail.1 x hx
        omega
    have rest : ∀ r, (∃ f ∈ es.dropWhile (·.kv.modRevision == e.kv.modRevision), f.kv.modRevision = r) ↔
        R + 1 < r ∧ r ≤ L := by
      intro r
      constructor
      · rintro ⟨f, hf, rfl⟩
        have hf := (mem_dropWhile_revision tail.2 tail.1).mp hf
        exact ⟨by omega, ((covers _).mp ⟨f, List.mem_cons_of_mem e hf.1, rfl⟩).2⟩
      · intro h
        obtain ⟨f, hf, rfl⟩ := (covers r).mpr ⟨by omega, h.2⟩
        rcases List.mem_cons.mp hf with rfl | hf
        · omega
        · exact ⟨f, (mem_dropWhile_revision tail.2 tail.1).mpr ⟨hf, by omega⟩, rfl⟩
    have step := ih (R + 1) (tail.2.sublist (List.dropWhile_suffix _).sublist) rest (by omega)
    rw [revisionRuns_cons, List.length_cons]
    omega

/-- On ordered events `applyEventsToEtcd` commits one transaction per maximal run of one
revision, in order, and replaying revisions `R+1, …, L` at revision `R` ends at `L`. -/
theorem applyEventsToEtcd_commits_runs :
    (∀ {σ : Type} (kv : KV σ) (events : List Event) (s : σ), Ordered events →
      applyEventsToEtcd kv events s =
        if events = [] then commit kv [] s else commitRuns kv (revisionRuns events) s) ∧
    (∀ events : List Event, (revisionRuns events).flatten = events ∧
      (∀ run ∈ revisionRuns events, run ≠ [] ∧
        ∀ e ∈ run, ∀ f ∈ run, e.kv.modRevision = f.kv.modRevision) ∧
      (Ordered events → (revisionRuns events).Pairwise fun r r' =>
        ∀ e ∈ r, ∀ f ∈ r', e.kv.modRevision < f.kv.modRevision)) ∧
    (∀ (events : List Event) (R L : Int) (snap : Snapshot), Ordered events →
      (∀ e ∈ events, (eventOp e).isSome) →
      (∀ r, (∃ e ∈ events, e.kv.modRevision = r) ↔ R < r ∧ r ≤ L) → R ≤ L →
      snap.lastRevision = L → applyEventsAndVerify countingStore events snap R = (L, .ok ())) := by
  refine ⟨fun kv events s ordered => applyEventsToEtcd_eq_commitRuns kv events s ordered,
    fun events => ⟨revisionRuns_flatten events, revisionRuns_uniform events,
      fun ordered => revisionRuns_increasing events ordered.sorted⟩, ?_⟩
  intro events R L snap ordered valid covers le hsnap
  have applied : applyEventsToEtcd countingStore events R = (L, .ok ()) := by
    rw [applyEventsToEtcd_eq_commitRuns countingStore events R ordered]
    split
    · rename_i empty
      subst empty
      have : ¬ R < L := fun lt => by simpa using (covers (R + 1)).mpr ⟨by omega, by omega⟩
      simp only [commit, countingStore, if_true]
      congr 1
      omega
    · have len := revisionRuns_length events R L ordered.sorted covers le
      rw [commitRuns_countingStore R fun run hr => ⟨(revisionRuns_uniform events run hr).1,
        fun e he => valid e (by rw [← revisionRuns_flatten events]; exact List.mem_flatten.mpr ⟨run, hr, he⟩)⟩]
      congr 1
      omega
  rw [applyEventsAndVerify, applied]
  simp [verifySnapshotRevision, countingStore, hsnap, Except.mapError]

theorem replay_two_runs :
    applyEventsAndVerify countingStore
      [⟨.put, ⟨"a", "1", 6⟩⟩, ⟨.delete, ⟨"a", "", 6⟩⟩, ⟨.put, ⟨"b", "2", 7⟩⟩] ⟨"", "d", 7, ""⟩ 5 =
      (7, .ok ()) :=
  applyEventsToEtcd_commits_runs.2.2 _ 5 7 _ ⟨by decide, by decide⟩ (by decide)
    (fun r => by simp only [List.mem_cons, List.mem_nil_iff, or_false, exists_eq_or_imp, exists_eq_left]; omega) (by decide) rfl

end EtcdRestore
