import EtcdRestore.Termination
import EtcdRestore.Config

/-! What `Validate` does for the delta pipeline: with a config it accepts and more than one
delta, every healthy schedule of the pipeline ends with `applyDeltaSnapshots` returned, while
with no fetcher, which `Validate` rejects, it never returns. -/
namespace EtcdRestore

/-- The pipeline `applyDeltaSnapshots` starts once the first delta is applied: the applier
gets `snapList[1:]`, the fetchers `ro.Config.MaxFetchers` and `ro.Config.TempSnapshotsDir`. -/
def deltaPipelineConfig {urls : Type} (r : Restorer) (lean : LeanConfig) (filepath : FilepathClean)
    (c : RestorationConfig urls) (snapList : List Snapshot) : PipelineConfig where
  applier := ⟨r, snapList.drop 1, lean⟩
  maxFetchers := c.maxFetchers
  tempDir := c.tempSnapshotsDir
  filepath := filepath

/-! ### Every healthy schedule ends with `applyDeltaSnapshots` returned -/

/-- Every schedule of healthy steps from `s`, followed while one is possible, ends with
`applyDeltaSnapshots` returned; being inductive, no such schedule goes on for ever. -/
inductive Pipeline.Returns (cfg : PipelineConfig) : Pipeline → Prop where
  | returned {s : Pipeline} {err : Option String} : s.orchestrator = .returned err → Pipeline.Returns cfg s
  | step {s : Pipeline} : (∃ g, s.CanMove cfg g) →
      (∀ g o s', s.FetchesAndPersists g o → s.step cfg g o = some s' → Pipeline.Returns cfg s') →
      Pipeline.Returns cfg s

theorem PipelineReachUnder.returns_of_potential_lt {cfg : PipelineConfig} (fetchers : 0 < cfg.maxFetchers)
    (deltas : 0 < cfg.numSnaps) : ∀ (n : Nat) {s : Pipeline}, s.potential cfg < n →
      PipelineReachUnder cfg Pipeline.FetchesAndPersists s → Pipeline.Returns cfg s
  | 0, _, lt, _ => absurd lt (Nat.not_lt_zero _)
  | n + 1, _, lt, reach =>
    (reach.returned_or_moves fetchers deltas).elim (fun ⟨_, returned⟩ => .returned returned) fun moves =>
      .step moves fun g o _ ok step =>
        returns_of_potential_lt fetchers deltas n (by have := reach.reach.potential_lt step; omega)
          (.step g o reach ok step)

/-- With a config `Validate` accepted and more than one delta snapshot, every healthy schedule
of the pipeline can go on until `applyDeltaSnapshots` returns, and then has. -/
theorem RestorationConfig.validated_pipeline_returns (p : ConfigChecks) (r : Restorer) (lean : LeanConfig)
    (filepath : FilepathClean) {c c' : RestorationConfig (List String)} {snapList : List Snapshot}
    (accepted : c.validate p = (none, c')) (more : 1 < snapList.length) :
    Pipeline.Returns (deltaPipelineConfig r lean filepath c' snapList)
      (.init (deltaPipelineConfig r lean filepath c' snapList)) :=
  PipelineReachUnder.returns_of_potential_lt (RestorationConfig.validate_maxFetchers accepted)
    (by simp only [PipelineConfig.numSnaps, deltaPipelineConfig, List.length_drop]; omega) _ (Nat.lt_succ_self _)
    .init

def acceptAll : ConfigChecks := ⟨fun _ => .ok (), fun _ => .ok (), id⟩

theorem default_config_two_deltas_return :
    Pipeline.Returns (deltaPipelineConfig (deltaRestorer zeroSha256 []) alwaysDefragment cleanPaths
        newRestorationConfig [⟨"", "d1", 7, ""⟩, ⟨"", "d2", 8, ""⟩])
      (.init (deltaPipelineConfig (deltaRestorer zeroSha256 []) alwaysDefragment cleanPaths
        newRestorationConfig [⟨"", "d1", 7, ""⟩, ⟨"", "d2", 8, ""⟩])) :=
  RestorationConfig.validated_pipeline_returns acceptAll _ _ _ (c := newRestorationConfig) rfl (by decide)

/-! ### Without a fetcher `applyDeltaSnapshots` hangs -/

/-- With no fetcher nothing ever reaches `applierInfoCh` or `errCh`: the applier waits at its
select, the alarm handler at its own, and `applyDeltaSnapshots` at `err = <-errCh`. -/
structure Pipeline.Starved (s : Pipeline) : Prop where
  fetchers : s.fetchers = []
  applierInfoCh : s.applierInfoCh = []
  errCh : s.errCh = []
  orchestrator : s.orchestrator.phase ≤ 1
  applier : s.applier.pc = .start ∨ s.applier.pc = .select
  handler : s.handler = .select
  stopClosed : s.stopClosed = false
  stopHandleAlarmClosed : s.stopHandleAlarmClosed = false

theorem Applier.step_select {cfg : ApplierConfig} {a a' : Applier} {l : ApplierLabel} (at_select : a.pc = .select)
    (h : a.step cfg l = some a') : l = .stop ∨ ∃ info, l = .recv info := by
  cases l <;> simp [Applier.step, at_select] at h ⊢

theorem Pipeline.Starved.init {cfg : PipelineConfig} (zero : cfg.maxFetchers = 0) : (Pipeline.init cfg).Starved :=
  ⟨by simp [Pipeline.init, PipelineConfig.numFetchers, zero], rfl, rfl, Nat.zero_le _, .inl rfl, rfl, rfl, rfl⟩

theorem Pipeline.Starved.step {cfg : PipelineConfig} {s s' : Pipeline} {g : Goroutine} {o : Outcome}
    (starved : s.Starved) (h : s.step cfg g o = some s') : s'.Starved := by
  have running := Pipeline.step_not_crashed h
  rcases g with _ | _ | f | _
  · have phase := starved.orchestrator
    cases (Pipeline.step_orchestrator_move h).2
    case enqueue => exact { starved with orchestrator := Nat.zero_le _ }
    case closeFetcherInfo => exact { starved with orchestrator := Nat.le_refl 1 }
    case recvErr cons =>
      rw [starved.errCh] at cons
      cases cons
    all_goals
      simp only [‹s.orchestrator = _›, OrchestratorPC.phase] at phase
      omega
  · rw [Pipeline.step_applier_eq running] at h
    obtain ⟨l, move, -, stop, handler⟩ := Pipeline.applierStep_move h
    have frame := Pipeline.applierStep_frame h
    obtain ⟨rfl, at_select⟩ : l = .wgAdd ∧ s'.applier.pc = .select := by
      rcases starved.applier with at_start | at_select
      · exact Applier.step_start at_start move.step
      · rcases Applier.step_select at_select move.step with rfl | ⟨info, rfl⟩
        · rw [starved.stopClosed] at stop
          cases stop rfl
        · have received := move.received
          rw [starved.applierInfoCh] at received
          cases received
    rcases handler with ⟨alarm, -⟩ | ⟨ok, disarm, -⟩ | ⟨-, -, same⟩
    · cases alarm
    · cases disarm
    refine ⟨by rw [frame.fetchers, starved.fetchers], ?_, ?_, by rw [frame.orchestrator]; exact starved.orchestrator,
      .inr at_select, by rw [same, starved.handler], by rw [frame.stopClosed, starved.stopClosed],
      by rw [frame.stopHandleAlarmClosed, starved.stopHandleAlarmClosed]⟩
    · simpa [starved.applierInfoCh, ApplierLabel.received] using move.received.symm
    · simp [move.sent, starved.errCh, ApplierLabel.sends]
  · obtain ⟨-, pc, t, pc', at_f, -⟩ := Pipeline.step_fetcher_move h
    simp [starved.fetchers] at at_f
  · rw [Pipeline.step_handler_eq running] at h
    rcases Pipeline.handlerStep_cases h with ⟨-, ⟨-, closed, -⟩ | ⟨endPoint, ok, at_defrag, -⟩⟩
    · rw [starved.stopHandleAlarmClosed] at closed
      cases closed
    · rw [starved.handler] at at_defrag
      cases at_defrag

theorem PipelineReach.starved {cfg : PipelineConfig} {s : Pipeline} (zero : cfg.maxFetchers = 0)
    (reach : PipelineReach cfg s) : s.Starved := by
  induction reach with
  | init => exact .init zero
  | step _ _ _ step ih => exact ih.step step

/-- With `MaxFetchers` zero no fetcher starts, nothing reaches `errCh`, and in no run does
`applyDeltaSnapshots` return. -/
theorem PipelineReach.never_returns_without_fetchers {cfg : PipelineConfig} {s : Pipeline}
    (zero : cfg.maxFetchers = 0) (reach : PipelineReach cfg s) (err : Option String) :
    s.orchestrator ≠ .returned err := fun returned => by
  have phase := (reach.starved zero).orchestrator
  rw [returned] at phase
  cases phase
  contradiction

def noFetchers : PipelineConfig := { oneDelta with maxFetchers := 0 }

theorem no_fetcher_queued_never_returns :
    ∃ s, (Pipeline.init noFetchers).run noFetchers [(.orchestrator, .none), (.orchestrator, .none)] = some s ∧
      s.orchestrator ≠ .returned none :=
  let ⟨s, h⟩ := Option.isSome_iff_exists.mp
    (by decide : ((Pipeline.init noFetchers).run noFetchers [(.orchestrator, .none), (.orchestrator, .none)]).isSome)
  ⟨s, h, PipelineReach.never_returns_without_fetchers rfl (PipelineReach.init.run _ h) none⟩

end EtcdRestore
