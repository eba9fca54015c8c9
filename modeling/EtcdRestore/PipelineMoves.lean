import EtcdRestore.PipelineRuns

/-! What one step of each goroutine does, once for all proofs over runs: the orchestrator's
and a fetcher's steps as relations with one constructor per branch, and what the applier's
and the handler's steps leave alone. Restricted runs take the same steps with allowed
outcomes only. -/
namespace EtcdRestore

/-! ### Runs with restricted outcomes -/

/-- The states a run reaches when the outcome of every step is one `allowed` admits in the
state it is taken from. -/
inductive PipelineReachUnder (cfg : PipelineConfig) (allowed : Pipeline → Goroutine → Outcome → Prop) :
    Pipeline → Prop where
  | init : PipelineReachUnder cfg allowed (.init cfg)
  | step {s s' : Pipeline} (g : Goroutine) (o : Outcome) : PipelineReachUnder cfg allowed s →
      allowed s g o → s.step cfg g o = some s' → PipelineReachUnder cfg allowed s'

section Restricted

variable {cfg : PipelineConfig} {allowed : Pipeline → Goroutine → Outcome → Prop} {s : Pipeline}

theorem PipelineReachUnder.reach (h : PipelineReachUnder cfg allowed s) : PipelineReach cfg s := by
  induction h with
  | init => exact .init
  | step g o _ _ step ih => exact .step g o ih step

theorem PipelineReachUnder.mono {allowed' : Pipeline → Goroutine → Outcome → Prop}
    (weaker : ∀ s g o, allowed s g o → allowed' s g o) (h : PipelineReachUnder cfg allowed s) :
    PipelineReachUnder cfg allowed' s := by
  induction h with
  | init => exact .init
  | step g o _ ok step ih => exact .step g o ih (weaker _ g o ok) step

/-- `cleanup`'s `os.Remove` succeeds on every path it takes from `snapLocationsCh`. -/
def Pipeline.CleanupRemoves (_ : Pipeline) : Goroutine → Outcome → Prop
  | .orchestrator, .removed ok => ok = true
  | _, _ => True

/-- Each `Fetch` returns the stream the store holds for the fetcher's delta. -/
def Pipeline.FetchesFromStore (cfg : PipelineConfig) (s : Pipeline) : Goroutine → Outcome → Prop
  | .fetcher f, .fetched r =>
    ∀ i, s.fetchers[f]? = some (.fetch i) → r = cfg.applier.restorer.store.fetch (cfg.applier.snap i)
  | _, _ => True

/-- Every `Fetch` returns a stream that reads to its end, and every temp file is created,
written and closed. -/
def Pipeline.FetchesAndPersists (_ : Pipeline) : Goroutine → Outcome → Prop
  | _, .fetched r => ∃ rc, r = .ok rc ∧ rc.readError = none
  | _, .persisted r => r = .created (.ok ())
  | _, _ => True

/-- Nothing fails: each `Fetch` returns the store's stream and reads to its end, each temp file
is written and closed, and etcd accepts every delta's events. -/
def Pipeline.Succeeds (cfg : PipelineConfig) (s : Pipeline) (g : Goroutine) (o : Outcome) : Prop :=
  s.FetchesFromStore cfg g o ∧ s.FetchesAndPersists g o ∧ ∀ r, o = .applied r → r = .ok ()

end Restricted

/-! ### The orchestrator -/

/-- The position of the orchestrator in `applyDeltaSnapshots` and `cleanup`. -/
def OrchestratorPC.phase : OrchestratorPC → Nat
  | .enqueue _ => 0
  | .recvErr => 1
  | .closeStop _ => 2
  | .wait _ => 3
  | .closeLocations _ => 4
  | .drain _ => 5
  | .closeHandler _ => 6
  | .returned _ => 7

inductive OrchestratorMove (cfg : PipelineConfig) (s : Pipeline) : Outcome → Pipeline → Prop where
  | enqueue {i : Nat} : s.orchestrator = .enqueue i → i < cfg.numSnaps →
      s.fetcherInfoCh.length < cfg.numSnaps →
      OrchestratorMove cfg s .none { s with fetcherInfoCh := s.fetcherInfoCh ++ [i], orchestrator := .enqueue (i + 1) }
  | closeFetcherInfo {i : Nat} : s.orchestrator = .enqueue i → cfg.numSnaps ≤ i →
      OrchestratorMove cfg s .none { s with fetcherInfoClosed := true, orchestrator := .recvErr }
  | recvErr {err : Option String} {rest : List (Option String)} : s.orchestrator = .recvErr →
      s.errCh = err :: rest → OrchestratorMove cfg s .none { s with errCh := rest, orchestrator := .closeStop err }
  | closeStop {err : Option String} : s.orchestrator = .closeStop err →
      OrchestratorMove cfg s .none { s with stopClosed := true, orchestrator := .wait err }
  | wait {err : Option String} : s.orchestrator = .wait err → s.wg = 0 →
      OrchestratorMove cfg s .none { s with orchestrator := .closeLocations err }
  | closeLocations {err : Option String} : s.orchestrator = .closeLocations err →
      OrchestratorMove cfg s .none { s with snapLocationsClosed := true, orchestrator := .drain err }
  | drained {err : Option String} : s.orchestrator = .drain err → s.snapLocationsCh = [] →
      OrchestratorMove cfg s .none { s with orchestrator := .closeHandler err }
  | skip {err : Option String} {path : String} {rest : List String} : s.orchestrator = .drain err →
      s.snapLocationsCh = path :: rest → (s.files.lookup path).isSome = false →
      OrchestratorMove cfg s .none { s with snapLocationsCh := rest }
  | remove {err : Option String} {path : String} {rest : List String} (ok : Bool) : s.orchestrator = .drain err →
      s.snapLocationsCh = path :: rest → (s.files.lookup path).isSome →
      OrchestratorMove cfg s (.removed ok)
        { s with snapLocationsCh := rest, files := if ok then removeFile path s.files else s.files }
  | closeHandler {err : Option String} : s.orchestrator = .closeHandler err →
      OrchestratorMove cfg s .none { s with stopHandleAlarmClosed := true, orchestrator := .returned err }

theorem Pipeline.orchestratorStep_iff {cfg : PipelineConfig} {s s' : Pipeline} {o : Outcome} :
    s.orchestratorStep cfg o = some s' ↔ OrchestratorMove cfg s o s' := by
  constructor
  · intro h
    unfold Pipeline.orchestratorStep at h
    repeat' split at h
    all_goals cases h
    all_goals try simp only [Bool.not_eq_true] at *
    all_goals subst_vars
    all_goals first
          | exact .enqueue ‹_› ‹_› ‹_›
          | exact .closeFetcherInfo ‹_› (Nat.le_of_not_lt ‹_›)
          | exact .recvErr ‹_› ‹_›
          | exact .closeStop ‹_›
          | exact .wait ‹_› ‹_›
          | exact .closeLocations ‹_›
          | exact .drained ‹_› ‹_›
          | exact .skip ‹_› ‹_› ‹_›
          | exact .remove _ ‹_› ‹_› ‹_›
          | exact .closeHandler ‹_›
  · intro move
    cases move <;> simp [Pipeline.orchestratorStep, *]

theorem OrchestratorMove.frame {cfg : PipelineConfig} {s s' : Pipeline} {o : Outcome}
    (move : OrchestratorMove cfg s o s') :
    s'.applier = s.applier ∧ s'.fetchers = s.fetchers ∧ s'.handler = s.handler ∧ s'.crashed = s.crashed ∧
      s'.applierInfoCh = s.applierInfoCh ∧ s'.files ⊆ s.files := by
  cases move <;> refine ⟨rfl, rfl, rfl, rfl, rfl, ?_⟩ <;> try exact List.Subset.refl _
  split
  · exact List.filter_subset' _
  · exact List.Subset.refl _

/-! ### A fetcher -/

inductive FetcherMove (cfg : PipelineConfig) (s : Pipeline) : FetcherPC → Outcome → Pipeline → FetcherPC → Prop where
  | wgAdd : FetcherMove cfg s .start .none { s with wg := s.wg + 1 } .range
  | take {i : Nat} {rest : List Nat} : s.fetcherInfoCh = i :: rest →
      FetcherMove cfg s .range .none { s with fetcherInfoCh := rest } (.select i)
  | finish : s.fetcherInfoCh = [] → s.fetcherInfoClosed = true →
      FetcherMove cfg s .range .none { s with wg := s.wg - 1 } .done
  | stop {i : Nat} : s.stopClosed = true → FetcherMove cfg s (.select i) .none { s with wg := s.wg - 1 } .done
  | proceed {i : Nat} : s.stopClosed = false → FetcherMove cfg s (.select i) .none s (.fetch i)
  | fetchFailed {i : Nat} {err : String} :
      FetcherMove cfg s (.fetch i) (.fetched (.error err)) s (.fetchFailed i
        ("failed to fetch delta snapshot " ++ (cfg.applier.snap i).snapName ++ " from store : " ++ err))
  | fetched {i : Nat} {rc : Stream} : FetcherMove cfg s (.fetch i) (.fetched (.ok rc)) s (.persist i (some rc))
  | sendFetchError {i : Nat} {err : String} : s.errCh.length < cfg.numFetchers + 1 →
      FetcherMove cfg s (.fetchFailed i err) .none { s with errCh := s.errCh ++ [some err] } (.fetchSentinel i)
  | fetchSentinel {i : Nat} : s.applierInfoCh.length < cfg.numSnaps →
      FetcherMove cfg s (.fetchSentinel i) .none { s with applierInfoCh := s.applierInfoCh ++ [⟨"", -1⟩] }
        (.persist i none)
  | createFailed {i : Nat} {rc : Option Stream} :
      FetcherMove cfg s (.persist i rc) (.persisted .createFailed) s (.persistFailed i (persistFailure cfg i
        ("failed to create temp file " ++ cfg.snapTempFilePath i ++ " to store raw delta snapshot")))
  | readNil {i : Nat} {close : Except String Unit} :
      FetcherMove cfg s (.persist i none) (.persisted (.created close))
        { s with files := writeFile (cfg.snapTempFilePath i) [] s.files, crashed := true } (.persist i none)
  | readFailed {i : Nat} {rc : Stream} {close : Except String Unit} {err : String} : rc.readError = some err →
      FetcherMove cfg s (.persist i (some rc)) (.persisted (.created close))
        { s with files := writeFile (cfg.snapTempFilePath i) rc.data s.files } (.persistFailed i (persistFailure cfg i err))
  | closeFailed {i : Nat} {rc : Stream} {err : String} : rc.readError = none →
      FetcherMove cfg s (.persist i (some rc)) (.persisted (.created (.error err)))
        { s with files := writeFile (cfg.snapTempFilePath i) rc.data s.files } (.persistFailed i (persistFailure cfg i err))
  | persisted {i : Nat} {rc : Stream} : rc.readError = none →
      FetcherMove cfg s (.persist i (some rc)) (.persisted (.created (.ok ())))
        { s with files := writeFile (cfg.snapTempFilePath i) rc.data s.files } (.sendLocation i)
  | sendPersistError {i : Nat} {err : String} : s.errCh.length < cfg.numFetchers + 1 →
      FetcherMove cfg s (.persistFailed i err) .none { s with errCh := s.errCh ++ [some err] } (.persistSentinel i)
  | persistSentinel {i : Nat} : s.applierInfoCh.length < cfg.numSnaps →
      FetcherMove cfg s (.persistSentinel i) .none { s with applierInfoCh := s.applierInfoCh ++ [⟨"", -1⟩] }
        (.sendLocation i)
  | sendOnClosed {i : Nat} : s.snapLocationsClosed = true →
      FetcherMove cfg s (.sendLocation i) .none { s with crashed := true } (.sendLocation i)
  | sendLocation {i : Nat} : s.snapLocationsClosed = false → s.snapLocationsCh.length < cfg.numSnaps →
      FetcherMove cfg s (.sendLocation i) .none
        { s with snapLocationsCh := s.snapLocationsCh ++ [cfg.snapTempFilePath i] } (.sendInfo i)
  | sendInfo {i : Nat} : s.applierInfoCh.length < cfg.numSnaps →
      FetcherMove cfg s (.sendInfo i) .none
        { s with applierInfoCh := s.applierInfoCh ++ [⟨cfg.snapTempFilePath i, i⟩] } .range

theorem fetcherNext_iff {cfg : PipelineConfig} {s t : Pipeline} {pc pc' : FetcherPC} {o : Outcome} :
    fetcherNext cfg s pc o = some (t, pc') ↔ FetcherMove cfg s pc o t pc' := by
  constructor
  · intro h
    unfold fetcherNext at h
    repeat' split at h
    all_goals cases h
    all_goals first
          | exact .wgAdd
          | exact .take ‹_›
          | exact .finish ‹_› ‹_›
          | exact .stop ‹_›
          | exact .proceed (Bool.eq_false_iff.mpr ‹_›)
          | exact .fetchFailed
          | exact .fetched
          | exact .sendFetchError ‹_›
          | exact .fetchSentinel ‹_›
          | exact .createFailed
          | exact .readNil
          | exact .readFailed ‹_›
          | exact .closeFailed ‹_›
          | exact .persisted ‹_›
          | exact .sendPersistError ‹_›
          | exact .persistSentinel ‹_›
          | exact .sendOnClosed ‹_›
          | exact .sendLocation (Bool.eq_false_iff.mpr ‹_›) ‹_›
          | exact .sendInfo ‹_›
  · intro move
    cases move <;> simp_all [fetcherNext]

theorem FetcherMove.frame {cfg : PipelineConfig} {s t : Pipeline} {pc pc' : FetcherPC} {o : Outcome}
    (move : FetcherMove cfg s pc o t pc') :
    t.orchestrator = s.orchestrator ∧ t.applier = s.applier ∧ t.handler = s.handler ∧ t.fetchers = s.fetchers ∧
      t.fetcherInfoClosed = s.fetcherInfoClosed ∧ t.stopClosed = s.stopClosed ∧
      t.snapLocationsClosed = s.snapLocationsClosed ∧ t.stopHandleAlarmClosed = s.stopHandleAlarmClosed := by
  cases move <;> exact ⟨rfl, rfl, rfl, rfl, rfl, rfl, rfl, rfl⟩

theorem FetcherMove.writes {cfg : PipelineConfig} {s t : Pipeline} {pc pc' : FetcherPC} {o : Outcome}
    (move : FetcherMove cfg s pc o t pc') :
    t.files = s.files ∨ t.crashed = true ∨
      ∃ i rc, pc = .persist i (some rc) ∧ t.files = writeFile (cfg.snapTempFilePath i) rc.data s.files := by
  cases move
  all_goals first | exact .inl rfl | exact .inr (.inl rfl) | exact .inr (.inr ⟨_, _, rfl, rfl⟩)

theorem FetcherMove.to_persist {cfg : PipelineConfig} {s t : Pipeline} {pc : FetcherPC} {o : Outcome}
    {i : Nat} {rc : Stream} (move : FetcherMove cfg s pc o t (.persist i (some rc))) :
    pc = .fetch i ∧ o = .fetched (.ok rc) := by
  cases move
  exact ⟨rfl, rfl⟩

theorem Pipeline.step_fetcher_move {cfg : PipelineConfig} {s s' : Pipeline} {f : Nat} {o : Outcome}
    (h : s.step cfg (.fetcher f) o = some s') : s.crashed = false ∧ ∃ pc t pc', s.fetchers[f]? = some pc ∧
      FetcherMove cfg s pc o t pc' ∧ s' = { t with fetchers := s.fetchers.set f pc' } := by
  unfold Pipeline.step at h
  split at h
  · cases h
  · dsimp only [Pipeline.fetcherStep] at h
    split at h
    · obtain ⟨⟨t, pc'⟩, next, rfl⟩ := Option.map_eq_some'.mp h
      exact ⟨Bool.eq_false_iff.mpr ‹_›, _, t, pc', ‹_›, fetcherNext_iff.mp next, rfl⟩
    · cases h

theorem Pipeline.step_orchestrator_move {cfg : PipelineConfig} {s s' : Pipeline} {o : Outcome}
    (h : s.step cfg .orchestrator o = some s') : s.crashed = false ∧ OrchestratorMove cfg s o s' := by
  unfold Pipeline.step at h
  split at h
  · cases h
  · exact ⟨Bool.eq_false_iff.mpr ‹_›, Pipeline.orchestratorStep_iff.mp (by simpa only using h)⟩

/-! ### The applier and the handler -/

/-- What a step of the applier leaves alone: the orchestrator, the fetchers and the channels
between them; on disk it at most removes a file. -/
structure Pipeline.ApplierFrame (s s' : Pipeline) : Prop where
  orchestrator : s'.orchestrator = s.orchestrator
  fetchers : s'.fetchers = s.fetchers
  fetcherInfoCh : s'.fetcherInfoCh = s.fetcherInfoCh
  fetcherInfoClosed : s'.fetcherInfoClosed = s.fetcherInfoClosed
  snapLocationsCh : s'.snapLocationsCh = s.snapLocationsCh
  snapLocationsClosed : s'.snapLocationsClosed = s.snapLocationsClosed
  stopClosed : s'.stopClosed = s.stopClosed
  stopHandleAlarmClosed : s'.stopHandleAlarmClosed = s.stopHandleAlarmClosed
  files : s'.files = s.files ∨ ∃ path, s'.files = removeFile path s.files

theorem Pipeline.applierStep_frame {cfg : PipelineConfig} {s s' : Pipeline} {o : Outcome}
    (h : s.applierStep cfg o = some s') : s.ApplierFrame s' := by
  unfold Pipeline.applierStep at h
  repeat' split at h
  all_goals first
    | cases h
    | obtain ⟨a, -, rfl⟩ := Option.map_eq_some'.mp h
      exact ⟨rfl, rfl, rfl, rfl, rfl, rfl, rfl, rfl, by first | exact .inl rfl | exact .inr ⟨_, rfl⟩⟩

theorem Pipeline.applierStep_read {cfg : PipelineConfig} {s s' : Pipeline} {o : Outcome} {cur : Nat}
    (at_read : s.applier.pc = .read cur) (h : s.applierStep cfg o = some s') :
    s'.applier = { s.applier with
      pc := readNext cfg.applier cur (s.applier.pathList.getD cur "") (openFile s.files (s.applier.pathList.getD cur "")) } := by
  unfold Pipeline.applierStep at h
  rcases o with _ | _ | _ | _ | ⟨_ | _⟩ | _ | l | _ <;>
    simp [at_read, Applier.step, Pipeline.withApplier] at h
  subst h
  simp [List.getD_eq_getElem?_getD]

theorem Pipeline.handlerStep_eq {s s' : Pipeline} {o : Outcome} (h : s.handlerStep o = some s') :
    s' = { s with handler := s'.handler } := by
  unfold Pipeline.handlerStep at h
  repeat' split at h
  all_goals cases h <;> rfl

end EtcdRestore
