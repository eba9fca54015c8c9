import EtcdRestore.AlarmRefinement
import EtcdRestore.Reassembly

/-! Runs in which every `Fetch` reads to its end and every temp file is created, written and
closed (`Pipeline.FetchesAndPersists`): no fetcher reaches an error branch, `errCh` holds at
most the applier's one send, the buffered channels have room for what the fetchers hold, and
every enqueued delta is on its way to the applier until `stopCh` is closed. -/
namespace EtcdRestore

/-! ### The applier on its own -/

/-- Before its first step the applier is where it starts; at the `select` it waits for the
delta it applies next, one of the remaining ones, whose path it does not hold yet. -/
structure ApplierWaits (cfg : ApplierConfig) (a : Applier) : Prop where
  start : a.pc = .start → a = .init cfg.remainingSnaps.length
  select : a.pc = .select →
    a.pathList.getD a.nextSnapIndexToApply "" = "" ∧ a.nextSnapIndexToApply < cfg.remainingSnaps.length

theorem ApplierWaits.drain {cfg : ApplierConfig} {a : Applier} {cur : Nat} (lt : cur < cfg.remainingSnaps.length)
    (same : cur = a.nextSnapIndexToApply) : ApplierWaits cfg { a with pc := a.drainFrom cfg cur } :=
  ⟨fun h => absurd h (Applier.drainFrom_ne_start _ _ _), fun h => same ▸ ⟨Applier.drainFrom_select h lt, lt⟩⟩

theorem ApplierWaits.step {cfg : ApplierConfig} {a a' : Applier} {l : ApplierLabel}
    (pos : 0 < cfg.remainingSnaps.length) (inv : ApplierInv cfg a) (waits : ApplierWaits cfg a)
    (step : a.step cfg l = some a') : ApplierWaits cfg a' := by
  unfold Applier.step at step
  split at step
  case h_1 at_start =>
    cases step
    obtain rfl := waits.start at_start
    refine ⟨nofun, fun _ => ⟨?_, pos⟩⟩
    simp only [Applier.init, List.getD_eq_getElem?_getD, List.getElem?_replicate]
    split <;> rfl
  case h_3 info at_select =>
    cases step
    obtain ⟨waiting, lt⟩ := waits.select at_select
    unfold Applier.receive
    split
    · exact ⟨nofun, nofun⟩
    · exact ⟨nofun, nofun⟩
    · rename_i idx _
      split
      · dsimp only
        split
        · exact ⟨nofun, nofun⟩
        · split
          · rename_i same
            exact .drain (same ▸ lt) same
          · rename_i differs
            exact ⟨nofun, fun _ => ⟨by rwa [getD_set_ne differs], lt⟩⟩
      · exact ⟨nofun, nofun⟩
  case h_4 cur file _ =>
    cases step
    rcases readNext_eq cfg cur (a.pathList.getD cur "") file with ⟨_, h⟩ | ⟨_, h⟩ <;> rw [h] <;> exact ⟨nofun, nofun⟩
  case h_7 cur at_remove =>
    cases step
    obtain ⟨rfl, lt⟩ := inv.remove _ at_remove
    unfold Applier.afterRemove
    dsimp only
    split
    · exact ⟨nofun, nofun⟩
    · split
      · exact ⟨nofun, nofun⟩
      · exact .drain (by omega) rfl
  case h_8 cur pc _ at_lean =>
    obtain ⟨same, lt⟩ := inv.lean cur pc at_lean
    obtain ⟨next, -, rfl⟩ := Option.map_eq_some'.mp step
    cases next with
    | next => exact ⟨nofun, nofun⟩
    | returned => exact .drain (same ▸ lt) same
  -- the other steps leave the applier neither at its start nor at its select
  all_goals cases step <;> exact ⟨nofun, nofun⟩

theorem ApplierReach.waits {cfg : ApplierConfig} {a : Applier} (pos : 0 < cfg.remainingSnaps.length)
    (reach : ApplierReach cfg a) : ApplierWaits cfg a := by
  induction reach with
  | init => exact ⟨fun _ => rfl, nofun⟩
  | step _ reach step ih => exact ih.step pos reach.inv step

def ApplierPC.exited : ApplierPC → Bool
  | .done | .crashed => true
  | _ => false

theorem Applier.drainFrom_exited (cfg : ApplierConfig) (a : Applier) (cur : Nat) :
    (a.drainFrom cfg cur).exited = false := by
  rcases @drainFrom_eq cfg a cur with h | ⟨h, -⟩ <;> rw [h] <;> rfl

theorem Applier.step_exited {cfg : ApplierConfig} {a a' : Applier} {l : ApplierLabel}
    (step : a.step cfg l = some a')
    (stored : ∀ info, l = .recv info → ∃ idx : Nat, info.snapIndex = idx ∧ idx < a.pathList.length)
    (exited : a'.pc.exited = true) : a'.pc = .done ∧ ((a.pc = .select ∧ l = .stop) ∨ ∃ err, a.pc = .send err) := by
  unfold Applier.step at step
  split at step <;> (try cases step) <;> (try cases exited)
  · exact ⟨rfl, .inl ⟨‹_›, rfl⟩⟩
  · rename_i info _
    obtain ⟨idx, at_idx, lt⟩ := stored info rfl
    rw [Applier.receive_of_lt cfg a at_idx lt] at exited
    dsimp only at exited
    split_ifs at exited
    · cases exited
    · rw [Applier.drainFrom_exited] at exited
      cases exited
    · cases exited
  · rename_i cur file _
    rcases readNext_eq cfg cur (a.pathList.getD cur "") file with ⟨_, h⟩ | ⟨_, h⟩ <;> rw [h] at exited <;>
      cases exited
  · revert exited
    unfold Applier.afterRemove
    dsimp only
    split
    · nofun
    · split
      · nofun
      · simp only [Applier.drainFrom_exited, Bool.false_eq_true, false_implies]
  · obtain ⟨next, -, rfl⟩ := Option.map_eq_some'.mp step
    cases next with
    | next => cases exited
    | returned =>
      simp only [Applier.afterLean, Applier.drainFrom_exited] at exited
      cases exited
  · exact ⟨rfl, .inr ⟨_, ‹_›⟩⟩

theorem Applier.step_recv {cfg : ApplierConfig} {a a' : Applier} {info : ApplierInfo}
    (h : a.step cfg (.recv info) = some a') : a.pc = .select ∧ a.receive cfg info = a' := by
  cases at_pc : a.pc <;> simp [Applier.step, at_pc] at h
  exact ⟨rfl, h⟩

/-! ### Runs where every fetch and persist succeeds -/

/-- The points of `fetchSnaps` such runs reach: none of the error branches, and a stream
that has read to its end. -/
def FetcherPC.healthy : FetcherPC → Bool
  | .start | .range | .select _ | .fetch _ | .sendLocation _ | .sendInfo _ | .done => true
  | .persist _ (some rc) => rc.readError.isNone
  | _ => false

theorem FetcherMove.healthy {cfg : PipelineConfig} {s t : Pipeline} {pc pc' : FetcherPC} {o : Outcome} {f : Nat}
    (move : FetcherMove cfg s pc o t pc') (healthy : pc.healthy = true) (ok : s.FetchesAndPersists (.fetcher f) o)
    (sending : ∀ i, pc = .sendLocation i → s.snapLocationsClosed = false) :
    pc'.healthy = true ∧ t.errCh = s.errCh ∧ t.crashed = s.crashed ∧
      (t.applierInfoCh = s.applierInfoCh ∨
        ∃ i, pc = .sendInfo i ∧ t.applierInfoCh = s.applierInfoCh ++ [⟨cfg.snapTempFilePath i, i⟩]) := by
  cases move with
  | fetchFailed => obtain ⟨_, h, -⟩ := ok; cases h
  | fetched =>
    obtain ⟨_, h, read⟩ := ok
    cases h
    exact ⟨by simp [FetcherPC.healthy, read], rfl, rfl, .inl rfl⟩
  | createFailed | closeFailed => cases ok
  | readFailed failed => simp [FetcherPC.healthy, failed] at healthy
  | sendFetchError | fetchSentinel | readNil | sendPersistError | persistSentinel => cases healthy
  | sendOnClosed closed => rw [sending _ rfl] at closed; cases closed
  | sendInfo => exact ⟨rfl, rfl, rfl, .inr ⟨_, rfl, rfl⟩⟩
  | wgAdd | take | finish | stop | proceed | persisted | sendLocation => exact ⟨rfl, rfl, rfl, .inl rfl⟩

theorem OrchestratorPC.taken_isSome (pc : OrchestratorPC) : pc.taken.isSome = true ↔ 2 ≤ pc.phase := by
  cases pc <;> simp [OrchestratorPC.taken, OrchestratorPC.phase]

/-- What a run keeps when every fetch and persist succeeds: healthy fetchers, only temp paths on
`applierInfoCh`, no panic, and at most the applier's one send on `errCh`. -/
structure Pipeline.Healthy (cfg : PipelineConfig) (s : Pipeline) : Prop where
  fetchers : ∀ pc ∈ s.fetchers, pc.healthy = true
  infos : ∀ info ∈ s.applierInfoCh, ∃ i < cfg.numSnaps, info = ⟨cfg.snapTempFilePath i, i⟩
  running : s.crashed = false
  applier : s.applier.pc ≠ .crashed
  errCh : s.errCh.length + (if s.orchestrator.taken.isSome then 1 else 0) = if s.applier.pc = .done then 1 else 0

section Healthy

variable {cfg : PipelineConfig} {s s' : Pipeline}

theorem Pipeline.Healthy.init (cfg : PipelineConfig) : (Pipeline.init cfg).Healthy cfg where
  fetchers _ mem := by rw [List.eq_of_mem_replicate mem]; rfl
  infos _ := nofun
  running := rfl
  applier := nofun
  errCh := rfl

theorem Pipeline.Healthy.orchestratorMove {o : Outcome} (inv : s.Healthy cfg) (move : OrchestratorMove cfg s o s') :
    s'.Healthy cfg := by
  obtain ⟨applier, fetchers, -, crashed, infos, -⟩ := move.frame
  refine ⟨fetchers ▸ inv.fetchers, infos ▸ inv.infos, crashed ▸ inv.running, applier ▸ inv.applier, ?_⟩
  have errCh := inv.errCh
  rw [applier]
  rcases Pipeline.orchestratorStep_taken (Pipeline.orchestratorStep_iff.mpr move) with
    ⟨same, taken⟩ | ⟨err, queued, taken⟩
  · rwa [same, taken]
  · rw [queued, List.length_cons] at errCh
    rw [taken, Option.isSome_some, if_pos rfl]
    split_ifs at errCh ⊢ <;> omega

theorem Pipeline.Healthy.fetcherMove {f : Nat} {pc pc' : FetcherPC} {o : Outcome} {t : Pipeline}
    (cleanup : s.CleanupInv) (fetchInv : s.FetchInv cfg) (inv : s.Healthy cfg)
    (ok : s.FetchesAndPersists (.fetcher f) o) (at_f : s.fetchers[f]? = some pc)
    (move : FetcherMove cfg s pc o t pc') : ({ t with fetchers := s.fetchers.set f pc' } : Pipeline).Healthy cfg := by
  have mem := List.getElem?_mem at_f
  have sending : ∀ i, pc = .sendLocation i → s.snapLocationsClosed = false := fun i at_send => by
    by_contra closed
    have idle := cleanup.idle (by have := cleanup.snapLocationsClosed.mp (by simpa using closed); omega) pc mem
    rw [at_send] at idle
    cases idle
  obtain ⟨healthy, errCh, crashed, infos⟩ := move.healthy (inv.fetchers pc mem) ok sending
  obtain ⟨orchestrator, applier, -⟩ := move.frame
  refine ⟨fun q mem' => ?_, ?_, crashed.trans inv.running, by simp only [applier]; exact inv.applier, ?_⟩
  · rcases List.mem_or_eq_of_mem_set mem' with old | rfl
    · exact inv.fetchers q old
    · exact healthy
  · rcases infos with same | ⟨i, rfl, more⟩
    · simpa only [same] using inv.infos
    · intro info mem'
      simp only [more, List.mem_append, List.mem_singleton] at mem'
      rcases mem' with old | rfl
      · exact inv.infos info old
      · exact ⟨i, fetchInv.held_lt (f := f) (by simp [Pipeline.holds, at_f, FetcherPC.index]), rfl⟩
  · simp only [errCh, orchestrator, applier]
    exact inv.errCh

theorem Pipeline.Healthy.applierStep {o : Outcome} (reach : PipelineReach cfg s) (inv : s.Healthy cfg)
    (h : s.applierStep cfg o = some s') : s'.Healthy cfg := by
  obtain ⟨l, move, crashed, stop, -⟩ := Pipeline.applierStep_move h
  have stored : ∀ info, l = .recv info → ∃ idx : Nat, info.snapIndex = idx ∧ idx < s.applier.pathList.length := by
    rintro info rfl
    obtain ⟨i, lt, rfl⟩ := inv.infos info (by rw [move.received]; simp [ApplierLabel.received])
    exact ⟨i, rfl, reach.applier.inv.length ▸ lt⟩
  have alive : s'.applier.pc ≠ .crashed := fun panicked => by
    have done := (Applier.step_exited move.step stored (by rw [panicked]; rfl)).1
    rw [panicked] at done
    cases done
  refine ⟨(Pipeline.applierStep_frame h).fetchers ▸ inv.fetchers,
    fun info mem => inv.infos info (by rw [move.received]; exact List.mem_append_right _ mem),
    by rw [crashed, inv.running, decide_eq_false alive]; rfl, alive, ?_⟩
  have errCh := inv.errCh
  have not_done : s.applier.pc ≠ .done := fun done => by
    have step := move.step
    rw [Applier.step_done done] at step
    cases step
  rw [if_neg not_done] at errCh
  rw [move.sent, move.orchestrator, List.length_append]
  by_cases done : s'.applier.pc = .done
  · obtain ⟨-, ⟨-, rfl⟩ | ⟨err, at_send⟩⟩ := Applier.step_exited move.step stored (by rw [done]; rfl)
    · have taken := (OrchestratorPC.taken_isSome s.orchestrator).mpr
        (by have := (reach.cleanupInv.stopClosed).mp (stop rfl); omega)
      rw [if_pos taken] at errCh
      omega
    · obtain ⟨rfl, -⟩ := Applier.step_of_send_eq at_send move.step
      simp only [at_send, ApplierLabel.sends, List.length_singleton, if_pos done]
      omega
  · have sends : l.sends s.applier.pc = [] := by
      cases at_pc : s.applier.pc with
      | send err => exact absurd (by rw [(Applier.step_of_send_eq at_pc move.step).2]) done
      | _ => cases l <;> rfl
    rw [sends, if_neg done]
    simpa using errCh

theorem Pipeline.Healthy.step {g : Goroutine} {o : Outcome} (reach : PipelineReach cfg s) (inv : s.Healthy cfg)
    (ok : s.FetchesAndPersists g o) (h : s.step cfg g o = some s') : s'.Healthy cfg := by
  rcases g with _ | _ | f | _
  · exact inv.orchestratorMove (Pipeline.step_orchestrator_move h).2
  · unfold Pipeline.step at h
    split at h
    · cases h
    · exact inv.applierStep reach h
  · obtain ⟨-, pc, t, pc', at_f, move, rfl⟩ := Pipeline.step_fetcher_move h
    exact inv.fetcherMove reach.cleanupInv reach.fetchInv ok at_f move
  · unfold Pipeline.step at h
    split at h
    · cases h
    · rw [Pipeline.handlerStep_eq h]
      exact ⟨inv.1, inv.2, inv.3, inv.4, inv.5⟩

theorem PipelineReachUnder.healthy (reach : PipelineReachUnder cfg Pipeline.FetchesAndPersists s) : s.Healthy cfg := by
  induction reach with
  | init => exact .init cfg
  | step g o reach ok step ih => exact ih.step reach.reach ok step

end Healthy

/-! ### Room on the buffered channels -/

def FetcherPC.locationPending : FetcherPC → Bool
  | .start | .range | .sendInfo _ | .done => false
  | _ => true

def FetcherPC.holding : FetcherPC → Bool
  | .start | .range | .done => false
  | _ => true

theorem OrchestratorMove.feeds {cfg : PipelineConfig} {s s' : Pipeline} {o : Outcome}
    (enqueue_le : ∀ i, s.orchestrator = .enqueue i → i ≤ cfg.numSnaps) (move : OrchestratorMove cfg s o s') :
    ((∃ i, s.orchestrator = .enqueue i ∧ i < cfg.numSnaps ∧ s'.orchestrator.enqueued cfg.numSnaps = i + 1 ∧
        s'.fetcherInfoCh = s.fetcherInfoCh ++ [i]) ∨
      (s'.orchestrator.enqueued cfg.numSnaps = s.orchestrator.enqueued cfg.numSnaps ∧
        s'.fetcherInfoCh = s.fetcherInfoCh)) ∧
    (s.stopClosed = true → s'.stopClosed = true) ∧ (s.fetcherInfoClosed = true → s'.fetcherInfoClosed = true) ∧
    s'.snapLocationsCh.length ≤ s.snapLocationsCh.length := by
  cases move with
  | enqueue at_pc lt => exact ⟨.inl ⟨_, at_pc, lt, rfl, rfl⟩, id, id, le_refl _⟩
  | closeFetcherInfo at_pc le =>
    refine ⟨.inr ⟨?_, rfl⟩, id, fun _ => rfl, le_refl _⟩
    have := enqueue_le _ at_pc
    simp only [at_pc, OrchestratorPC.enqueued]
    omega
  | closeStop at_pc => exact ⟨.inr ⟨by simp [at_pc, OrchestratorPC.enqueued], rfl⟩, fun _ => rfl, id, le_refl _⟩
  | skip at_pc queued | remove _ at_pc queued =>
    exact ⟨.inr ⟨by simp [at_pc, OrchestratorPC.enqueued], rfl⟩, id, id, by simp [queued]⟩
  | recvErr at_pc | wait at_pc | closeLocations at_pc | drained at_pc | closeHandler at_pc =>
    exact ⟨.inr ⟨by simp [at_pc, OrchestratorPC.enqueued], rfl⟩, id, id, le_refl _⟩

theorem FetcherMove.passes {cfg : PipelineConfig} {s t : Pipeline} {pc pc' : FetcherPC} {o : Outcome}
    (move : FetcherMove cfg s pc o t pc') (healthy : pc.healthy = true) :
    t.snapLocationsCh.length + (if pc'.locationPending then 1 else 0) + t.fetcherInfoCh.length ≤
        s.snapLocationsCh.length + (if pc.locationPending then 1 else 0) + s.fetcherInfoCh.length ∧
      t.applierInfoCh.length + (if pc'.holding then 1 else 0) + t.fetcherInfoCh.length ≤
        s.applierInfoCh.length + (if pc.holding then 1 else 0) + s.fetcherInfoCh.length := by
  cases move <;> simp_all [FetcherPC.locationPending, FetcherPC.holding, FetcherPC.healthy]; omega

/-- The paths and messages on the buffered channels, with the deltas still to be passed on,
are at most one per remaining delta, so a fetcher about to send finds room. -/
structure Pipeline.Room (cfg : PipelineConfig) (s : Pipeline) : Prop where
  locations : s.snapLocationsCh.length + s.fetchers.countP FetcherPC.locationPending + s.fetcherInfoCh.length +
    (cfg.numSnaps - s.orchestrator.enqueued cfg.numSnaps) ≤ cfg.numSnaps
  infos : s.applierInfoCh.length + s.fetchers.countP FetcherPC.holding + s.fetcherInfoCh.length +
    (cfg.numSnaps - s.orchestrator.enqueued cfg.numSnaps) ≤ cfg.numSnaps

section Room

variable {cfg : PipelineConfig} {s s' : Pipeline}

theorem Pipeline.Room.init (cfg : PipelineConfig) : (Pipeline.init cfg).Room cfg := by
  constructor <;> simp [Pipeline.init, List.countP_replicate, FetcherPC.locationPending, FetcherPC.holding,
    OrchestratorPC.enqueued]

theorem Pipeline.Room.step {g : Goroutine} {o : Outcome} (reach : PipelineReach cfg s) (healthy : s.Healthy cfg)
    (inv : s.Room cfg) (h : s.step cfg g o = some s') : s'.Room cfg := by
  obtain ⟨locations, infos⟩ := inv
  rcases g with _ | _ | f | _
  · obtain ⟨-, move⟩ := Pipeline.step_orchestrator_move h
    obtain ⟨enqueued, -, -, fewer⟩ := move.feeds reach.fetchInv.enqueue_le
    obtain ⟨-, fetchers, -, -, sent, -⟩ := move.frame
    rcases enqueued with ⟨i, at_pc, lt, more, queue⟩ | ⟨same, queue⟩
    · rw [at_pc] at locations infos
      simp only [OrchestratorPC.enqueued] at locations infos
      constructor <;> simp only [more, queue, fetchers, sent, List.length_append, List.length_singleton] <;> omega
    · constructor <;> simp only [same, queue, fetchers, sent] <;> omega
  · unfold Pipeline.step at h
    split at h
    · cases h
    · obtain ⟨l, move, -⟩ := Pipeline.applierStep_move h
      have frame := Pipeline.applierStep_frame h
      have fewer := congrArg List.length move.received
      rw [List.length_append] at fewer
      constructor <;> simp only [frame.fetchers, frame.fetcherInfoCh, frame.snapLocationsCh, move.orchestrator] <;>
        omega
  · obtain ⟨-, pc, t, pc', at_f, move, rfl⟩ := Pipeline.step_fetcher_move h
    have pending := countP_set_add FetcherPC.locationPending pc' at_f
    have holding := countP_set_add FetcherPC.holding pc' at_f
    obtain ⟨passes₁, passes₂⟩ := move.passes (healthy.fetchers pc (List.getElem?_mem at_f))
    obtain ⟨orchestrator, -⟩ := move.frame
    constructor <;> simp only [orchestrator] <;> omega
  · unfold Pipeline.step at h
    split at h
    · cases h
    · rw [Pipeline.handlerStep_eq h]
      exact ⟨locations, infos⟩

end Room

/-! ### Every enqueued delta is on its way to the applier -/

theorem FetcherMove.lets_go {cfg : PipelineConfig} {s t : Pipeline} {pc pc' : FetcherPC} {o : Outcome}
    (move : FetcherMove cfg s pc o t pc') :
    (∀ j, pc.index = some j → pc'.index = some j ∨ s.stopClosed = true ∨
      (j : Int) ∈ t.applierInfoCh.map ApplierInfo.snapIndex) ∧
    (t.fetcherInfoCh = s.fetcherInfoCh ∨ ∃ i, s.fetcherInfoCh = i :: t.fetcherInfoCh ∧ pc'.index = some i) ∧
    s.applierInfoCh ⊆ t.applierInfoCh ∧
    (pc' = .done → s.stopClosed = true ∨ (s.fetcherInfoCh = [] ∧ s.fetcherInfoClosed = true)) := by
  cases move
  all_goals refine ⟨?_, ?_, ?_, ?_⟩
  all_goals first
    | exact List.Subset.refl _
    | exact List.subset_append_left _ _
    | exact .inl rfl
    | exact .inr ⟨_, ‹_›, rfl⟩
    | exact fun _ held => .inl held
    | exact fun _ _ => .inr (.inl ‹_›)
    | exact fun _ held => .inr (.inr (by cases held; simp))
    | exact fun _ held => by cases held
    | exact fun _ => .inl ‹_›
    | exact fun _ => .inr ⟨‹_›, ‹_›⟩
    | exact fun same => by cases same

/-- Until `stopCh` is closed, every enqueued delta is on `fetcherInfoCh`, held by a fetcher, on
`applierInfoCh` or in `pathList`, and no fetcher returns while `fetcherInfoCh` still has one. -/
structure Pipeline.Tracked (cfg : PipelineConfig) (s : Pipeline) : Prop where
  tracked : ∀ j < s.orchestrator.enqueued cfg.numSnaps, s.stopClosed = true ∨ j ∈ s.fetcherInfoCh ∨
    (∃ f, s.holds f = some j) ∨ (j : Int) ∈ s.applierInfoCh.map ApplierInfo.snapIndex ∨
    s.applier.pathList.getD j "" ≠ ""
  done : FetcherPC.done ∈ s.fetchers → s.stopClosed = true ∨ (s.fetcherInfoCh = [] ∧ s.fetcherInfoClosed = true)

section Tracked

variable {cfg : PipelineConfig} {s s' : Pipeline}

theorem Pipeline.Tracked.init (cfg : PipelineConfig) : (Pipeline.init cfg).Tracked cfg where
  tracked _ lt := absurd lt (Nat.not_lt_zero _)
  done mem := by cases List.eq_of_mem_replicate mem

theorem Pipeline.Tracked.orchestratorMove {o : Outcome} (cleanup : s.CleanupInv) (fetchInv : s.FetchInv cfg)
    (inv : s.Tracked cfg) (move : OrchestratorMove cfg s o s') : s'.Tracked cfg := by
  obtain ⟨enqueued, stop, closed, -⟩ := move.feeds fetchInv.enqueue_le
  obtain ⟨applier, fetchers, -, -, infos, -⟩ := move.frame
  have sub : ∀ j ∈ s.fetcherInfoCh, j ∈ s'.fetcherInfoCh := by
    rcases enqueued with ⟨_, -, -, -, queue⟩ | ⟨-, queue⟩ <;> rw [queue] <;> simp +contextual
  have keep : ∀ j, s.stopClosed = true ∨ j ∈ s.fetcherInfoCh ∨ (∃ f, s.holds f = some j) ∨
      (j : Int) ∈ s.applierInfoCh.map ApplierInfo.snapIndex ∨ s.applier.pathList.getD j "" ≠ "" →
      s'.stopClosed = true ∨ j ∈ s'.fetcherInfoCh ∨ (∃ f, s'.holds f = some j) ∨
      (j : Int) ∈ s'.applierInfoCh.map ApplierInfo.snapIndex ∨ s'.applier.pathList.getD j "" ≠ "" := by
    rintro j (h | h | ⟨f, h⟩ | h | h)
    · exact .inl (stop h)
    · exact .inr (.inl (sub j h))
    · exact .inr (.inr (.inl ⟨f, by simp only [Pipeline.holds, fetchers]; exact h⟩))
    · exact .inr (.inr (.inr (.inl (by rw [infos]; exact h))))
    · exact .inr (.inr (.inr (.inr (by rw [applier]; exact h))))
  rcases enqueued with ⟨i, at_pc, -, more, queue⟩ | ⟨same, queue⟩
  · have fresh := (cleanup.fetcherInfoClosed.not.mpr (by simp [at_pc, OrchestratorPC.phase]))
    have running := (cleanup.stopClosed.not.mpr (by simp [at_pc, OrchestratorPC.phase]))
    refine ⟨fun j lt => ?_, fun mem => ?_⟩
    · rw [more] at lt
      rcases Nat.lt_succ_iff_lt_or_eq.mp lt with lt | rfl
      · exact keep j (inv.tracked j (by rw [at_pc]; exact lt))
      · exact .inr (.inl (by rw [queue]; simp))
    · rcases inv.done (fetchers ▸ mem) with stopped | ⟨-, closed⟩
      · exact absurd stopped running
      · exact absurd closed fresh
  · refine ⟨fun j lt => keep j (inv.tracked j (same ▸ lt)), fun mem => ?_⟩
    rcases inv.done (fetchers ▸ mem) with stopped | ⟨empty, info⟩
    · exact .inl (stop stopped)
    · exact .inr ⟨queue ▸ empty, closed info⟩

theorem Pipeline.Tracked.fetcherMove {f : Nat} {pc pc' : FetcherPC} {o : Outcome} {t : Pipeline}
    (inv : s.Tracked cfg) (at_f : s.fetchers[f]? = some pc) (move : FetcherMove cfg s pc o t pc') :
    ({ t with fetchers := s.fetchers.set f pc' } : Pipeline).Tracked cfg := by
  obtain ⟨lets_go, queue, sent, done⟩ := move.lets_go
  obtain ⟨orchestrator, applier, -, -, info, stop, -⟩ := move.frame
  have holds := Pipeline.holds_set at_f
    (show ({ t with fetchers := s.fetchers.set f pc' } : Pipeline).fetchers = s.fetchers.set f pc' from rfl)
  refine ⟨fun j lt => ?_, fun mem => ?_⟩
  · simp only [orchestrator] at lt
    rcases inv.tracked j lt with h | h | ⟨g, h⟩ | h | h
    · exact .inl (stop.trans h)
    · rcases queue with same | ⟨i, queued, took⟩
      · exact .inr (.inl (by rw [← same] at h; exact h))
      · rw [queued] at h
        rcases List.mem_cons.mp h with rfl | h
        · exact .inr (.inr (.inl ⟨f, by rw [holds f, if_pos rfl, took]⟩))
        · exact .inr (.inl h)
    · by_cases same : f = g
      · subst same
        rcases lets_go j (by simpa [Pipeline.holds, at_f] using h) with kept | stopped | passed
        · exact .inr (.inr (.inl ⟨f, by rw [holds f, if_pos rfl, kept]⟩))
        · exact .inl (stop.trans stopped)
        · exact .inr (.inr (.inr (.inl passed)))
      · exact .inr (.inr (.inl ⟨g, by rw [holds g, if_neg same, h]⟩))
    · exact .inr (.inr (.inr (.inl (List.map_subset _ sent h))))
    · exact .inr (.inr (.inr (.inr (by dsimp only; rw [applier]; exact h))))
  · simp only [stop, info]
    rcases List.mem_or_eq_of_mem_set mem with old | new
    · rcases inv.done old with stopped | ⟨empty, closed⟩
      · exact .inl stopped
      · rcases queue with same | ⟨i, queued, -⟩
        · exact .inr ⟨same ▸ empty, closed⟩
        · rw [empty] at queued
          cases queued
    · rcases done new.symm with stopped | ⟨empty, closed⟩
      · exact .inl stopped
      · rcases queue with same | ⟨i, queued, -⟩
        · exact .inr ⟨same ▸ empty, closed⟩
        · rw [empty] at queued
          cases queued

theorem Pipeline.Tracked.applierStep {o : Outcome} (reach : PipelineReach cfg s) (healthy : s.Healthy cfg)
    (inv : s.Tracked cfg) (h : s.applierStep cfg o = some s') : s'.Tracked cfg := by
  obtain ⟨l, move, -⟩ := Pipeline.applierStep_move h
  have frame := Pipeline.applierStep_frame h
  have length := reach.applier.inv.length
  -- a message the applier takes is a temp path of a remaining delta, which it stores
  have stores : ∀ info, l = .recv info → ∃ i : Nat, i < s.applier.pathList.length ∧ info.snapIndex = i ∧
      info.snapFilePath ≠ "" ∧ s'.applier.pathList = s.applier.pathList.set i info.snapFilePath := by
    rintro info rfl
    obtain ⟨i, lt, rfl⟩ := healthy.infos info (by rw [move.received]; simp [ApplierLabel.received])
    refine ⟨i, length ▸ lt, rfl, PipelineConfig.snapTempFilePath_ne _ _, ?_⟩
    rw [← (Applier.step_recv move.step).2, Applier.receive_of_lt _ _ rfl (length ▸ lt)]
  refine ⟨fun j lt => ?_, fun mem => ?_⟩
  · rw [move.orchestrator] at lt
    rcases inv.tracked j lt with h | h | ⟨g, h⟩ | h | h
    · exact .inl (frame.stopClosed ▸ h)
    · exact .inr (.inl (frame.fetcherInfoCh ▸ h))
    · exact .inr (.inr (.inl ⟨g, by simp only [Pipeline.holds, frame.fetchers]; exact h⟩))
    · rw [move.received, List.map_append, List.mem_append] at h
      rcases h with now | later
      · refine .inr (.inr (.inr (.inr ?_)))
        cases l <;> simp only [ApplierLabel.received, List.map_nil, List.not_mem_nil] at now
        rename_i info
        obtain ⟨i, lt, at_i, path, stored⟩ := stores info rfl
        simp only [List.map_cons, List.map_nil, List.mem_singleton, at_i, Nat.cast_inj] at now
        subst now
        simpa [stored, List.getD_eq_getElem?_getD, lt] using path
      · exact .inr (.inr (.inr (.inl later)))
    · refine .inr (.inr (.inr (.inr ?_)))
      rcases Applier.step_pathList move.step with same | ⟨info, rfl, idx, -, -⟩
      · rwa [same]
      · obtain ⟨i, -, -, path, stored⟩ := stores info rfl
        rw [stored]
        exact filled_set h i path
  · rcases inv.done (frame.fetchers ▸ mem) with stopped | ⟨empty, closed⟩
    · exact .inl (frame.stopClosed ▸ stopped)
    · exact .inr ⟨frame.fetcherInfoCh ▸ empty, frame.fetcherInfoClosed ▸ closed⟩

theorem Pipeline.Tracked.step {g : Goroutine} {o : Outcome} (reach : PipelineReach cfg s) (healthy : s.Healthy cfg)
    (inv : s.Tracked cfg) (h : s.step cfg g o = some s') : s'.Tracked cfg := by
  rcases g with _ | _ | f | _
  · exact inv.orchestratorMove reach.cleanupInv reach.fetchInv (Pipeline.step_orchestrator_move h).2
  · unfold Pipeline.step at h
    split at h
    · cases h
    · exact inv.applierStep reach healthy h
  · obtain ⟨-, pc, t, pc', at_f, move, rfl⟩ := Pipeline.step_fetcher_move h
    exact inv.fetcherMove at_f move
  · unfold Pipeline.step at h
    split at h
    · cases h
    · rw [Pipeline.handlerStep_eq h]
      exact ⟨inv.1, inv.2⟩

end Tracked

theorem PipelineReachUnder.room {cfg : PipelineConfig} {s : Pipeline}
    (reach : PipelineReachUnder cfg Pipeline.FetchesAndPersists s) : s.Room cfg := by
  induction reach with
  | init => exact .init cfg
  | step _ _ reach _ step ih => exact ih.step reach.reach reach.healthy step

theorem PipelineReachUnder.tracked {cfg : PipelineConfig} {s : Pipeline}
    (reach : PipelineReachUnder cfg Pipeline.FetchesAndPersists s) : s.Tracked cfg := by
  induction reach with
  | init => exact .init cfg
  | step _ _ reach _ step ih => exact ih.step reach.reach reach.healthy step

end EtcdRestore
