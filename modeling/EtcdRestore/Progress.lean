import EtcdRestore.HealthyRuns

/-! Progress when every `Fetch` reads to its end and every temp file is written and closed:
with at least one fetcher and one remaining delta, some goroutine can move until
`applyDeltaSnapshots` returns, whatever the interleaving and whatever etcd, the removals and
the defragmentation answer. -/
namespace EtcdRestore

/-- Goroutine `g` has a step whose outcome lets every fetch and persist succeed. -/
def Pipeline.CanMove (cfg : PipelineConfig) (s : Pipeline) (g : Goroutine) : Prop :=
  ∃ o, s.FetchesAndPersists g o ∧ (s.step cfg g o).isSome

theorem Pipeline.step_orchestrator_eq {cfg : PipelineConfig} {s : Pipeline} {o : Outcome}
    (running : s.crashed = false) : s.step cfg .orchestrator o = s.orchestratorStep cfg o := by
  simp only [Pipeline.step, running, Bool.false_eq_true, ↓reduceIte]

theorem Pipeline.step_applier_eq {cfg : PipelineConfig} {s : Pipeline} {o : Outcome}
    (running : s.crashed = false) : s.step cfg .applier o = s.applierStep cfg o := by
  simp only [Pipeline.step, running, Bool.false_eq_true, ↓reduceIte]

theorem Pipeline.step_handler_eq {cfg : PipelineConfig} {s : Pipeline} {o : Outcome}
    (running : s.crashed = false) : s.step cfg .handler o = s.handlerStep o := by
  simp only [Pipeline.step, running, Bool.false_eq_true, ↓reduceIte]

theorem PipelineReach.fetchers_length {cfg : PipelineConfig} {s : Pipeline} (reach : PipelineReach cfg s) :
    s.fetchers.length = cfg.numFetchers := by
  induction reach with
  | init => exact List.length_replicate _ _
  | step g o _ h ih =>
    rw [← ih]
    unfold Pipeline.step at h
    split at h
    · cases h
    · rcases g with _ | _ | f | _
      · rw [(Pipeline.orchestratorStep_frame h).fetchers]
      · rw [(Pipeline.applierStep_wg h).1]
      · obtain ⟨_, _, _, fetchers, -⟩ := Pipeline.fetcherStep_spec h
        rw [fetchers, List.length_set]
      · rw [(Pipeline.handlerStep_frame h).fetchers]

section Moves

variable {cfg : PipelineConfig} {s : Pipeline}

theorem Pipeline.orchestrator_moves (running : s.crashed = false) (room : s.Room cfg)
    (live : ∀ err, s.orchestrator ≠ .returned err) (taking : s.orchestrator = .recvErr → s.errCh ≠ [])
    (waiting : ∀ err, s.orchestrator = .wait err → s.wg = 0) : s.CanMove cfg .orchestrator := by
  suffices ∃ o s', s.FetchesAndPersists .orchestrator o ∧ OrchestratorMove cfg s o s' by
    obtain ⟨o, s', ok, move⟩ := this
    refine ⟨o, ok, Option.isSome_iff_exists.mpr ⟨s', ?_⟩⟩
    rw [Pipeline.step_orchestrator_eq running]
    exact Pipeline.orchestratorStep_iff.mpr move
  have locations := room.locations
  cases at_pc : s.orchestrator with
  | enqueue i =>
    by_cases lt : i < cfg.numSnaps
    · rw [at_pc] at locations
      exact ⟨.none, _, trivial, .enqueue at_pc lt (by simp only [OrchestratorPC.enqueued] at locations; omega)⟩
    · exact ⟨.none, _, trivial, .closeFetcherInfo at_pc (Nat.le_of_not_lt lt)⟩
  | recvErr =>
    obtain ⟨err, rest, queued⟩ := List.exists_cons_of_ne_nil (taking at_pc)
    exact ⟨.none, _, trivial, .recvErr at_pc queued⟩
  | closeStop => exact ⟨.none, _, trivial, .closeStop at_pc⟩
  | wait err => exact ⟨.none, _, trivial, .wait at_pc (waiting err at_pc)⟩
  | closeLocations => exact ⟨.none, _, trivial, .closeLocations at_pc⟩
  | drain =>
    cases queued : s.snapLocationsCh with
    | nil => exact ⟨.none, _, trivial, .drained at_pc queued⟩
    | cons path rest =>
      cases present : (s.files.lookup path).isSome
      · exact ⟨.none, _, trivial, .skip at_pc queued present⟩
      · exact ⟨.removed true, _, trivial, .remove true at_pc queued present⟩
  | closeHandler => exact ⟨.none, _, trivial, .closeHandler at_pc⟩
  | returned err => exact absurd at_pc (live err)

theorem Pipeline.fetcher_moves {f : Nat} {pc : FetcherPC} (running : s.crashed = false) (cleanup : s.CleanupInv)
    (healthy : s.Healthy cfg) (room : s.Room cfg) (at_f : s.fetchers[f]? = some pc) (not_done : pc ≠ .done)
    (ready : pc = .range → s.fetcherInfoCh ≠ [] ∨ s.fetcherInfoClosed = true) : s.CanMove cfg (.fetcher f) := by
  suffices ∃ o t pc', s.FetchesAndPersists (.fetcher f) o ∧ FetcherMove cfg s pc o t pc' by
    obtain ⟨o, t, pc', ok, move⟩ := this
    exact ⟨o, ok, by rw [Pipeline.step_fetcher running at_f (fetcherNext_iff.mpr move)]; rfl⟩
  have mem := List.getElem?_mem at_f
  have at_healthy := healthy.fetchers pc mem
  cases pc with
  | start => exact ⟨.none, _, _, trivial, .wgAdd⟩
  | range =>
    cases queued : s.fetcherInfoCh with
    | nil =>
      have closed := (ready rfl).resolve_left (by simp [queued])
      exact ⟨.none, _, _, trivial, .finish queued closed⟩
    | cons i rest => exact ⟨.none, _, _, trivial, .take queued⟩
  | select i =>
    cases stopped : s.stopClosed
    · exact ⟨.none, _, _, trivial, .proceed stopped⟩
    · exact ⟨.none, _, _, trivial, .stop stopped⟩
  | fetch i => exact ⟨.fetched (.ok ⟨[], none⟩), _, _, ⟨⟨[], none⟩, rfl, rfl⟩, .fetched⟩
  | persist i rc =>
    cases rc with
    | none => cases at_healthy
    | some rc =>
      exact ⟨.persisted (.created (.ok ())), _, _, rfl, .persisted (Option.isNone_iff_eq_none.mp at_healthy)⟩
  | sendLocation i =>
    have locationsOpen : s.snapLocationsClosed = false := by
      by_contra closed
      have idle := cleanup.idle (by have := cleanup.snapLocationsClosed.mp (by simpa using closed); omega) _ mem
      cases idle
    have pending := List.countP_pos_iff.mpr ⟨_, mem, (rfl : FetcherPC.locationPending (.sendLocation i) = true)⟩
    exact ⟨.none, _, _, trivial, .sendLocation locationsOpen (by have := room.locations; omega)⟩
  | sendInfo i =>
    have holding := List.countP_pos_iff.mpr ⟨_, mem, (rfl : FetcherPC.holding (.sendInfo i) = true)⟩
    exact ⟨.none, _, _, trivial, .sendInfo (by have := room.infos; omega)⟩
  | done => exact absurd rfl not_done
  | fetchFailed | fetchSentinel | persistFailed | persistSentinel => cases at_healthy

theorem Pipeline.applier_moves (running : s.crashed = false) (healthy : s.Healthy cfg)
    (handlerInv : s.HandlerInv) (cleanup : s.CleanupInv) (early : s.orchestrator.phase ≤ 1)
    (not_done : s.applier.pc ≠ .done) (waiting : s.applier.pc = .select → s.applierInfoCh ≠ []) :
    s.CanMove cfg .applier ∨ s.CanMove cfg .handler := by
  have empty : s.errCh = [] := by
    have sent := healthy.errCh
    rw [if_neg not_done] at sent
    exact List.eq_nil_of_length_eq_zero (by omega)
  have handler_open : s.stopHandleAlarmClosed = false :=
    Bool.eq_false_iff.mpr fun closed => absurd (cleanup.stopHandleAlarmClosed.mp closed) (by omega)
  have busy := handlerInv.busy
  simp only [Pipeline.CanMove, Pipeline.step_applier_eq running, Pipeline.step_handler_eq running]
  cases at_pc : s.applier.pc with
  | start => exact .inl ⟨.none, trivial, by simp [Pipeline.applierStep, at_pc, Applier.step]⟩
  | select =>
    obtain ⟨info, rest, queued⟩ := List.exists_cons_of_ne_nil (waiting at_pc)
    exact .inl ⟨.none, trivial, by simp [Pipeline.applierStep, at_pc, queued, Applier.step]⟩
  | read cur => exact .inl ⟨.none, trivial, by simp [Pipeline.applierStep, at_pc, Applier.step]⟩
  | apply cur events =>
    exact .inl ⟨.applied (.ok ()), trivial, by simp [Pipeline.applierStep, at_pc, Applier.step]⟩
  | remove cur =>
    exact .inl ⟨.removed true, trivial, by simp [Pipeline.applierStep, at_pc, Applier.step]⟩
  | lean cur pc =>
    rw [at_pc] at busy
    cases pc with
    | compact revision =>
      exact .inl ⟨.lean (.compact (.ok ())), trivial, by
        simp [Pipeline.applierStep, at_pc, Applier.step, LeanLabel.isCall, leanStep]⟩
    | status =>
      exact .inl ⟨.lean (.status (.error "")), trivial, by
        simp [Pipeline.applierStep, at_pc, Applier.step, LeanLabel.isCall, leanStep]⟩
    | alarm endPoint rest =>
      -- the handler is not busy, and it has not returned since `stopHandleAlarmCh` is open
      have at_select : s.handler = .select := by
        cases at_h : s.handler with
        | select => rfl
        | done => rw [handlerInv.done at_h] at handler_open; cases handler_open
        | defrag | reply => rw [at_h] at busy; cases busy
      exact .inl ⟨.none, trivial, by simp [Pipeline.applierStep, at_pc, at_select, Applier.step, leanStep]⟩
    | disarm endPoint rest =>
      cases at_h : s.handler with
      | defrag =>
        exact .inr ⟨.defragmented true, trivial, by simp [Pipeline.handlerStep, at_h]⟩
      | reply ok =>
        exact .inl ⟨.none, trivial, by simp [Pipeline.applierStep, at_pc, at_h, Applier.step, leanStep]⟩
      | select | done => rw [at_h] at busy; cases busy
    | defragStatus endPoint rest =>
      exact .inl ⟨.lean .defragStatus, trivial, by
        simp [Pipeline.applierStep, at_pc, Applier.step, LeanLabel.isCall, leanStep]⟩
  | send err =>
    exact .inl ⟨.none, trivial, by simp [Pipeline.applierStep, at_pc, empty, Applier.step]⟩
  | done => exact absurd at_pc not_done
  | crashed => exact absurd at_pc healthy.applier

end Moves

theorem PipelineReachUnder.returned_or_moves {cfg : PipelineConfig} {s : Pipeline} (fetchers : 0 < cfg.maxFetchers)
    (deltas : 0 < cfg.numSnaps) (reach : PipelineReachUnder cfg Pipeline.FetchesAndPersists s) :
    (∃ err, s.orchestrator = .returned err) ∨ ∃ g, s.CanMove cfg g := by
  refine or_iff_not_imp_left.mpr fun returned => ?_
  have live : ∀ err, s.orchestrator ≠ .returned err := fun err at_return => returned ⟨err, at_return⟩
  have healthy := reach.healthy
  have room := reach.room
  have tracked := reach.tracked
  have cleanup := reach.reach.cleanupInv
  have running := healthy.running
  have errCh := healthy.errCh
  by_cases taking : s.orchestrator = .recvErr ∧ s.errCh = []
  · -- `applyDeltaSnapshots` waits for the applier's send
    obtain ⟨at_recv, empty⟩ := taking
    have early : s.orchestrator.phase ≤ 1 := by rw [at_recv]; decide
    have stop_open : s.stopClosed = false :=
      Bool.eq_false_iff.mpr fun closed => absurd (cleanup.stopClosed.mp closed) (by omega)
    have not_done : s.applier.pc ≠ .done := fun done => by
      rw [empty, at_recv, if_pos done] at errCh
      cases errCh
    by_cases blocked : s.applier.pc = .select ∧ s.applierInfoCh = []
    · -- the applier waits for the delta it applies next, which is on its way
      obtain ⟨at_select, no_info⟩ := blocked
      obtain ⟨unheld, lt⟩ := (reach.reach.applier.waits deltas).select at_select
      rcases tracked.tracked _ (by rw [at_recv]; exact lt) with stopped | queued | ⟨f, held⟩ | sent | stored
      · rw [stop_open] at stopped
        cases stopped
      · have some_fetcher : 0 < s.fetchers.length := by
          rw [reach.reach.fetchers_length, PipelineConfig.numFetchers]
          omega
        obtain ⟨pc, at_0⟩ : ∃ pc, s.fetchers[0]? = some pc := ⟨_, List.getElem?_eq_getElem some_fetcher⟩
        have not_done : pc ≠ .done := by
          rintro rfl
          rcases tracked.done (List.getElem?_mem at_0) with stopped | ⟨nothing, -⟩
          · rw [stop_open] at stopped
            cases stopped
          · rw [nothing] at queued
            cases queued
        exact ⟨_, Pipeline.fetcher_moves running cleanup healthy room at_0 not_done
          fun _ => .inl (List.ne_nil_of_mem queued)⟩
      · obtain ⟨pc, at_f, index⟩ : ∃ pc, s.fetchers[f]? = some pc ∧ pc.index = some _ := by
          simpa [Pipeline.holds, Option.bind_eq_some] using held
        exact ⟨_, Pipeline.fetcher_moves running cleanup healthy room at_f
          (by rintro rfl; cases index) (by rintro rfl; cases index)⟩
      · rw [no_info] at sent
        cases sent
      · exact absurd unheld stored
    · rcases Pipeline.applier_moves running healthy reach.reach.handlerInv cleanup early not_done
          fun at_select no_info => blocked ⟨at_select, no_info⟩ with moves | moves
      exacts [⟨_, moves⟩, ⟨_, moves⟩]
  · by_cases waiting : ∃ err, s.orchestrator = .wait err ∧ s.wg ≠ 0
    · -- `wg.Wait` waits for a fetcher, since the applier has returned
      obtain ⟨err, at_wait, busy⟩ := waiting
      have done : s.applier.pc = .done := by
        by_contra not_done
        rw [at_wait, if_neg not_done] at errCh
        simp [OrchestratorPC.taken] at errCh
      rw [reach.reach.wg_eq_running, Pipeline.running, done] at busy
      have uncounted : (if ApplierPC.done.counted then 1 else 0) = 0 := rfl
      obtain ⟨pc, mem, counted⟩ := List.countP_pos_iff.mp (show 0 < s.fetchers.countP FetcherPC.counted by omega)
      obtain ⟨f, at_f⟩ := List.mem_iff_getElem?.mp mem
      exact ⟨_, Pipeline.fetcher_moves running cleanup healthy room at_f (by rintro rfl; cases counted)
        fun _ => .inr (cleanup.fetcherInfoClosed.mpr (by rw [at_wait]; exact (by decide : 1 ≤ 3)))⟩
    · exact ⟨_, Pipeline.orchestrator_moves running room live (fun at_recv empty => taking ⟨at_recv, empty⟩)
        fun err at_wait => by_contra fun busy => waiting ⟨err, at_wait, busy⟩⟩

/-- When every fetch and persist succeeds the pipeline never deadlocks: with a fetcher and a
delta, some goroutine can move until `applyDeltaSnapshots` returns. -/
theorem PipelineReachUnder.never_stuck {cfg : PipelineConfig} {s : Pipeline} (fetchers : 0 < cfg.maxFetchers)
    (deltas : 0 < cfg.numSnaps) (reach : PipelineReachUnder cfg Pipeline.FetchesAndPersists s)
    (live : ∀ err, s.orchestrator ≠ .returned err) : ∃ g, s.CanMove cfg g :=
  (reach.returned_or_moves fetchers deltas).resolve_left fun ⟨err, at_return⟩ => live err at_return

theorem one_delta_waiting_moves :
    ∃ s, PipelineReachUnder oneDelta Pipeline.FetchesAndPersists s ∧ s.orchestrator = .recvErr ∧ s.errCh = [] ∧
      s.applier.pc = .select ∧ s.applierInfoCh = [] ∧ ∃ g, s.CanMove oneDelta g := by
  obtain ⟨s, -, -, -, -, reach, waiting, errCh, selecting, infos, -⟩ := oneDelta_run
  have reach := reach.mono fun _ _ _ ok => ok.2.2.1
  exact ⟨s, reach, waiting, errCh, selecting, infos,
    PipelineReachUnder.never_stuck (by decide) (by decide) reach fun err returned => by
      rw [waiting] at returned
      cases returned⟩

end EtcdRestore
