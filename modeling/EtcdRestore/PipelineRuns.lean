import EtcdRestore.Pipeline

/-! The wait group's counter counts the goroutines between their own `wg.Add(1)` and `wg.Done()`.
Three schedules from a reachable state: a failed `Fetch` that ends in a panic, two failed
persists that leave no goroutine able to move, and a `wg.Wait` that returns before the
applier has started. -/
namespace EtcdRestore

/-! ### The wait group -/

/-- Between the applier's `wg.Add(1)` and its `wg.Done()`. -/
def ApplierPC.counted : ApplierPC → Bool
  | .start | .done => false
  | _ => true

theorem ApplierPC.counted_iff {pc : ApplierPC} : pc.counted = true ↔ pc ≠ .start ∧ pc ≠ .done := by
  cases pc <;> simp [ApplierPC.counted]

/-- The goroutines `wg` should count: the applier and the fetchers that have run their
`wg.Add(1)` and not yet their `wg.Done()`. -/
def Pipeline.running (s : Pipeline) : Nat :=
  (if s.applier.pc.counted then 1 else 0) + s.fetchers.countP FetcherPC.counted

theorem countP_set_add {α : Type} (p : α → Bool) {l : List α} {i : Nat} {a : α} (b : α)
    (at_i : l[i]? = some a) :
    (l.set i b).countP p + (if p a then 1 else 0) = l.countP p + (if p b then 1 else 0) := by
  obtain ⟨bound, rfl⟩ := List.getElem?_eq_some_iff.mp at_i
  have counted : (if p l[i] then 1 else 0) ≤ l.countP p := by
    split
    · exact List.countP_pos_iff.mpr ⟨_, List.getElem_mem bound, ‹_›⟩
    · exact Nat.zero_le _
  rw [List.countP_set p l i b bound]
  omega

theorem Pipeline.Frame.running {s s' : Pipeline} (frame : s.Frame s') : s'.running = s.running := by
  simp only [Pipeline.running, frame.applier, frame.fetchers]

theorem Pipeline.fetcherStep_running {cfg : PipelineConfig} {s s' : Pipeline} {f : Nat} {o : Outcome}
    (h : s.fetcherStep cfg f o = some s') (inv : s.wg = s.running) : s'.wg = s'.running := by
  obtain ⟨pc, pc', at_f, fetchers, applier, -, wg, -⟩ := Pipeline.fetcherStep_spec h
  have count := countP_set_add FetcherPC.counted pc' at_f
  unfold Pipeline.running at inv ⊢
  rw [fetchers, applier]
  rcases wg with ⟨same, wg⟩ | ⟨rfl, rfl, wg⟩ | ⟨counted, rfl, wg⟩
  · rw [same] at count
    omega
  · simp [FetcherPC.counted] at count
    omega
  · rw [counted] at count
    simp [FetcherPC.counted] at count
    omega

theorem Pipeline.applierStep_running {cfg : PipelineConfig} {s s' : Pipeline} {o : Outcome}
    (h : s.applierStep cfg o = some s') (inv : s.wg = s.running) : s'.wg = s'.running := by
  obtain ⟨l, step, -, -, -, -, -⟩ := Pipeline.applierStep_spec h
  obtain ⟨fetchers, wg⟩ := Pipeline.applierStep_wg h
  unfold Pipeline.running at inv ⊢
  rw [fetchers]
  by_cases at_start : s.applier.pc = .start
  · have selected := (Applier.step_start at_start step).2
    simp [at_start, selected, ApplierPC.counted] at inv wg ⊢
    omega
  · have not_done : s.applier.pc ≠ .done := fun done => by simp [Applier.step_done done] at step
    rw [if_pos (ApplierPC.counted_iff.mpr ⟨at_start, not_done⟩)] at inv
    rw [if_neg at_start] at wg
    by_cases done : s'.applier.pc = .done
    · simp [done, ApplierPC.counted] at wg ⊢
      omega
    · rw [if_neg done] at wg
      rw [if_pos (ApplierPC.counted_iff.mpr ⟨Applier.step_ne_start step, done⟩)]
      omega

theorem Pipeline.step_running {cfg : PipelineConfig} {s s' : Pipeline} {g : Goroutine} {o : Outcome}
    (h : s.step cfg g o = some s') (inv : s.wg = s.running) : s'.wg = s'.running := by
  unfold Pipeline.step at h
  split at h
  · cases h
  · rcases g with _ | _ | f | _
    · have frame := Pipeline.orchestratorStep_frame h
      rw [frame.wg, frame.running, inv]
    · exact Pipeline.applierStep_running h inv
    · exact Pipeline.fetcherStep_running h inv
    · have frame := Pipeline.handlerStep_frame h
      rw [frame.wg, frame.running, inv]

theorem PipelineReach.wg_eq_running {cfg : PipelineConfig} {s : Pipeline} (reach : PipelineReach cfg s) :
    s.wg = s.running := by
  induction reach with
  | init =>
    simp [Pipeline.init, Pipeline.running, Applier.init, ApplierPC.counted, List.countP_replicate,
      FetcherPC.counted]
  | step g o _ step ih => exact Pipeline.step_running step ih

theorem PipelineReach.wait_passes {cfg : PipelineConfig} {s : Pipeline} (reach : PipelineReach cfg s)
    (zero : s.wg = 0) :
    (s.applier.pc = .start ∨ s.applier.pc = .done) ∧ ∀ pc ∈ s.fetchers, pc = .start ∨ pc = .done := by
  rw [reach.wg_eq_running, Pipeline.running, Nat.add_eq_zero_iff, List.countP_eq_zero] at zero
  obtain ⟨applier, fetchers⟩ := zero
  refine ⟨?_, fun pc mem => FetcherPC.counted_eq_false.mp (by simpa using fetchers pc mem)⟩
  by_contra running
  rw [if_pos (ApplierPC.counted_iff.mpr (not_or.mp running))] at applier
  exact one_ne_zero applier

def framedStream : Stream := ⟨[0] ++ List.replicate 32 0, none⟩

/-- `filepath.Clean` on the paths of the schedules below, which are clean already: it changes
only the empty path. -/
def cleanPaths : FilepathClean where
  clean p := if p = "" then "." else p
  ne_empty p := by by_cases empty : p = "" <;> simp [empty]

def threeDeltaPipeline : PipelineConfig where
  applier := ⟨deltaRestorer zeroSha256 [], [⟨"", "d1", 7, ""⟩, ⟨"", "d2", 8, ""⟩, ⟨"", "d3", 9, ""⟩],
    alwaysDefragment⟩
  maxFetchers := 1
  tempDir := "/tmp"
  filepath := cleanPaths

/-- The fetcher hands on delta 0, fails to create delta 1's temp file and, once `stopCh` is
closed, returns at delta 2; `wg.Wait` returns with the applier not started. -/
def earlyWaitSchedule : List (Goroutine × Outcome) :=
  [(.orchestrator, .none), (.orchestrator, .none), (.orchestrator, .none), (.orchestrator, .none),
    (.fetcher 0, .none), (.fetcher 0, .none), (.fetcher 0, .none), (.fetcher 0, .fetched (.ok framedStream)),
    (.fetcher 0, .persisted (.created (.ok ()))), (.fetcher 0, .none), (.fetcher 0, .none),
    (.fetcher 0, .none), (.fetcher 0, .none), (.fetcher 0, .fetched (.ok framedStream)),
    (.fetcher 0, .persisted .createFailed), (.fetcher 0, .none), (.fetcher 0, .none), (.fetcher 0, .none),
    (.fetcher 0, .none), (.orchestrator, .none), (.orchestrator, .none), (.fetcher 0, .none),
    (.fetcher 0, .none), (.orchestrator, .none)]

/-- `cleanup` removes delta 0's file and `applyDeltaSnapshots` returns; then the applier starts,
takes delta 0's info, fails to open the file and sends the error. -/
def lateApplierSchedule : List (Goroutine × Outcome) :=
  [(.orchestrator, .none), (.orchestrator, .removed true), (.orchestrator, .none), (.orchestrator, .none),
    (.orchestrator, .none), (.handler, .none), (.applier, .none), (.applier, .none), (.applier, .none),
    (.applier, .none)]

/-- With three deltas and one fetcher, `wg.Wait` returns before the applier starts, which
then reads a removed temp file and sends on `errCh` after the return. -/
theorem wait_returns_before_applier_starts :
    ∃ s s', PipelineReach threeDeltaPipeline s ∧ s.run threeDeltaPipeline lateApplierSchedule = some s' ∧
      s.orchestrator = .closeLocations (some (persistFailure threeDeltaPipeline 1
        "failed to create temp file /tmp/d2 to store raw delta snapshot")) ∧
      s.applier.pc = .start ∧ s.errCh = [] ∧
      s'.orchestrator = .returned (some (persistFailure threeDeltaPipeline 1
        "failed to create temp file /tmp/d2 to store raw delta snapshot")) ∧
      s'.errCh = [some ("failed to read events data from delta snapshot file /tmp/d1 : " ++
        "failed to open file /tmp/d1 for delta snapshot d1 : open /tmp/d1: no such file or directory")] :=
  PipelineReach.init.run_then earlyWaitSchedule lateApplierSchedule (by set_option maxRecDepth 4096 in decide)


/-! ### A failed fetch -/

theorem fetch_failure_panics {cfg : PipelineConfig} {s : Pipeline} {f i : Nat} (err : String)
    (close : Except String Unit) (reach : PipelineReach cfg s) (running : s.crashed = false)
    (at_fetch : s.fetchers[f]? = some (.fetch i)) (errRoom : s.errCh.length < cfg.numFetchers + 1)
    (infoRoom : s.applierInfoCh.length < cfg.numSnaps) :
    ∃ s', PipelineReach cfg s' ∧ s'.crashed = true ∧
      s'.errCh = s.errCh ++
        [some ("failed to fetch delta snapshot " ++ (cfg.applier.snap i).snapName ++ " from store : " ++ err)] ∧
      s'.applierInfoCh = s.applierInfoCh ++ [⟨"", -1⟩] := by
  have bound : f < s.fetchers.length := (List.getElem?_eq_some_iff.mp at_fetch).1
  have failed := reach.step _ (.fetched (.error err)) (Pipeline.step_fetcher running at_fetch rfl)
  have sent := failed.step _ .none (Pipeline.step_fetcher running (List.getElem?_set_self bound) (if_pos errRoom))
  have sentinel := sent.step _ .none
    (Pipeline.step_fetcher running (List.getElem?_set_self (by simpa using bound)) (if_pos infoRoom))
  exact ⟨_, sentinel.step _ (.persisted (.created close))
    (Pipeline.step_fetcher running (List.getElem?_set_self (by simpa using bound)) rfl), rfl, rfl, rfl⟩

def oneDelta : PipelineConfig where
  applier := ⟨deltaRestorer zeroSha256 [], [⟨"", "d1", 7, ""⟩], alwaysDefragment⟩
  maxFetchers := 1
  tempDir := "/tmp"
  filepath := cleanPaths

/-- The orchestrator queues the delta; the fetcher's `Fetch` fails, it sends the error and
the `-1` sentinel, and `os.Create` succeeds. -/
def fetchFailureSchedule : List (Goroutine × Outcome) :=
  [(.orchestrator, .none), (.orchestrator, .none), (.fetcher 0, .none), (.fetcher 0, .none),
    (.fetcher 0, .none), (.fetcher 0, .fetched (.error "connection reset")), (.fetcher 0, .none),
    (.fetcher 0, .none), (.fetcher 0, .persisted (.created (.ok ())))]

theorem fetch_failure_crashes :
    ∃ s, PipelineReach oneDelta s ∧
      (s.crashed, s.errCh, s.applierInfoCh) =
        (true, [some "failed to fetch delta snapshot d1 from store : connection reset"], [⟨"", -1⟩]) := by
  have fetching : ((Pipeline.init oneDelta).run oneDelta (fetchFailureSchedule.take 5)).map
      (fun s => (s.crashed, s.fetchers[0]?, s.errCh, s.applierInfoCh)) = some (false, some (.fetch 0), [], []) := by
    decide
  obtain ⟨s, reach, same⟩ := PipelineReach.init.run_map _ fetching
  simp only [Prod.mk.injEq] at same
  obtain ⟨running, at_fetch, errCh, infos⟩ := same
  obtain ⟨s', reach', crashed, errCh', infos'⟩ := fetch_failure_panics "connection reset" (.ok ()) reach running
    at_fetch (by rw [errCh]; decide) (by rw [infos]; decide)
  exact ⟨s', reach', by rw [crashed, errCh', infos', errCh, infos]; rfl⟩


/-! ### Two failed persists -/

def twoDeltaPipeline : PipelineConfig where
  applier := ⟨deltaRestorer zeroSha256 [], [⟨"", "d1", 7, ""⟩, ⟨"", "d2", 8, ""⟩], alwaysDefragment⟩
  maxFetchers := 1
  tempDir := "/tmp"
  filepath := cleanPaths

/-- Both temp files fail to be created; the applier takes the first sentinel and returns, and
the fetcher waits on the full `applierInfoCh` while the orchestrator waits in `wg.Wait`. -/
def persistFailureSchedule : List (Goroutine × Outcome) :=
  [(.orchestrator, .none), (.orchestrator, .none), (.orchestrator, .none),
    (.fetcher 0, .none), (.fetcher 0, .none), (.fetcher 0, .none), (.fetcher 0, .fetched (.ok framedStream)),
    (.fetcher 0, .persisted .createFailed), (.fetcher 0, .none), (.fetcher 0, .none), (.fetcher 0, .none),
    (.fetcher 0, .none), (.applier, .none), (.applier, .none),
    (.fetcher 0, .none), (.fetcher 0, .none), (.fetcher 0, .fetched (.ok framedStream)),
    (.fetcher 0, .persisted .createFailed), (.fetcher 0, .none), (.fetcher 0, .none), (.fetcher 0, .none),
    (.orchestrator, .none), (.orchestrator, .none)]

def persistFailureDeadlock : Pipeline where
  orchestrator := .wait (some (persistFailure twoDeltaPipeline 0
    "failed to create temp file /tmp/d1 to store raw delta snapshot"))
  applier := ⟨.done, ["", ""], 0, 1, false⟩
  fetchers := [.sendInfo 1]
  handler := .select
  fetcherInfoCh := []
  fetcherInfoClosed := true
  applierInfoCh := [⟨"/tmp/d1", 0⟩, ⟨"", -1⟩]
  snapLocationsCh := ["/tmp/d1", "/tmp/d2"]
  snapLocationsClosed := false
  errCh := [some (persistFailure twoDeltaPipeline 1
    "failed to create temp file /tmp/d2 to store raw delta snapshot")]
  stopClosed := true
  stopHandleAlarmClosed := false
  wg := 1
  files := []
  applied := []
  crashed := false

/-- With two deltas and one fetcher, two failed persists leave no goroutine able to take a
step. -/
theorem persist_failures_deadlock :
    PipelineReach twoDeltaPipeline persistFailureDeadlock ∧
      persistFailureDeadlock.applier.pc = .done ∧ persistFailureDeadlock.fetchers = [.sendInfo 1] ∧
      ∀ g o, persistFailureDeadlock.step twoDeltaPipeline g o = none := by
  refine ⟨PipelineReach.init.run persistFailureSchedule (by decide), rfl, rfl, ?_⟩
  intro g o
  rcases g with _ | _ | (_ | f) | _ <;> rcases o with _ | _ | r | r | r | ok | l | ok <;> (try cases l) <;> rfl

/-! ### A fetcher blocked for ever -/

/-- `fetchSnaps`'s sends on `applierInfoCh`: the sentinel after a failed fetch or persist,
and a delta's info. -/
def FetcherPC.sendsApplierInfo : FetcherPC → Bool
  | .fetchSentinel _ | .persistSentinel _ | .sendInfo _ => true
  | _ => false

theorem FetcherPC.counted_of_sendsApplierInfo {pc : FetcherPC} (sends : pc.sendsApplierInfo = true) :
    pc.counted = true := by
  cases pc <;> first | rfl | exact absurd sends Bool.false_ne_true

theorem fetcherNext_sendsApplierInfo {cfg : PipelineConfig} {s t : Pipeline} {pc pc' : FetcherPC}
    {o : Outcome} (sends : pc.sendsApplierInfo = true) (h : fetcherNext cfg s pc o = some (t, pc')) :
    s.applierInfoCh.length < cfg.numSnaps := by
  cases pc <;> (try exact absurd sends Bool.false_ne_true) <;> cases o <;> (try cases h) <;>
    simp only [fetcherNext] at h <;> split at h <;> first | assumption | cases h

/-- The applier has returned, so nothing receives on `applierInfoCh` any more, and fetcher
`f` is at a send on it with the buffer full. -/
structure Pipeline.StuckOnApplierInfo (cfg : PipelineConfig) (f : Nat) (pc : FetcherPC) (s : Pipeline) :
    Prop where
  returned : s.applier.pc = .done
  at_send : s.fetchers[f]? = some pc
  full : cfg.numSnaps ≤ s.applierInfoCh.length

theorem Pipeline.StuckOnApplierInfo.of_frame {cfg : PipelineConfig} {f : Nat} {pc : FetcherPC} {s s' : Pipeline}
    (stuck : s.StuckOnApplierInfo cfg f pc) (frame : s.Frame s') : s'.StuckOnApplierInfo cfg f pc :=
  ⟨frame.applier ▸ stuck.returned, frame.fetchers ▸ stuck.at_send, frame.applierInfoCh ▸ stuck.full⟩

theorem Pipeline.StuckOnApplierInfo.step {cfg : PipelineConfig} {f : Nat} {pc : FetcherPC}
    {s s' : Pipeline} {g : Goroutine} {o : Outcome} (stuck : s.StuckOnApplierInfo cfg f pc)
    (sends : pc.sendsApplierInfo = true) (h : s.step cfg g o = some s') : s'.StuckOnApplierInfo cfg f pc := by
  unfold Pipeline.step at h
  split at h
  · cases h
  rcases g with _ | _ | f' | _
  · exact stuck.of_frame (Pipeline.orchestratorStep_frame h)
  · obtain ⟨l, step, -, -, -, -, -⟩ := Pipeline.applierStep_spec h
    simp [Applier.step_done stuck.returned] at step
  · change s.fetcherStep cfg f' o = some s' at h
    by_cases same : f' = f
    · subst same
      simp only [Pipeline.fetcherStep, stuck.at_send, Option.map_eq_some'] at h
      obtain ⟨_, next, -⟩ := h
      exact absurd stuck.full (not_le.mpr (fetcherNext_sendsApplierInfo sends next))
    · obtain ⟨_, _, -, updated, applier, longer, -, -⟩ := Pipeline.fetcherStep_spec h
      refine ⟨applier ▸ stuck.returned, ?_, stuck.full.trans longer.length_le⟩
      rw [updated, List.getElem?_set_ne same]
      exact stuck.at_send
  · exact stuck.of_frame (Pipeline.handlerStep_frame h)

theorem Pipeline.StuckOnApplierInfo.run {cfg : PipelineConfig} {f : Nat} {pc : FetcherPC}
    (sends : pc.sendsApplierInfo = true) :
    ∀ {s s' : Pipeline} (steps : List (Goroutine × Outcome)), s.StuckOnApplierInfo cfg f pc →
      s.run cfg steps = some s' → s'.StuckOnApplierInfo cfg f pc
  | _, _, [], stuck, h => by cases h; exact stuck
  | _, _, (g, o) :: rest, stuck, h => by
    simp only [Pipeline.run, Option.bind_eq_some] at h
    obtain ⟨s₁, step, h⟩ := h
    exact Pipeline.StuckOnApplierInfo.run sends rest (stuck.step sends step) h

/-- A fetcher sending on the full `applierInfoCh` after the applier has returned stays at that
send on every continuation, so `cleanup`'s `wg.Wait` never returns. -/
theorem PipelineReach.stuck_forever {cfg : PipelineConfig} {f : Nat} {pc : FetcherPC} {s s' : Pipeline}
    (reach : PipelineReach cfg s) (stuck : s.StuckOnApplierInfo cfg f pc) (sends : pc.sendsApplierInfo = true)
    (steps : List (Goroutine × Outcome)) (h : s.run cfg steps = some s') :
    s'.fetchers[f]? = some pc ∧ s'.wg ≠ 0 := by
  have stuck' := stuck.run sends steps h
  refine ⟨stuck'.at_send, ?_⟩
  have counted : 0 < s'.fetchers.countP FetcherPC.counted :=
    List.countP_pos_iff.mpr ⟨pc, List.getElem?_mem stuck'.at_send, FetcherPC.counted_of_sendsApplierInfo sends⟩
  rw [(reach.run steps h).wg_eq_running, Pipeline.running]
  omega

theorem persist_failures_block_fetcher :
    ∃ s s', PipelineReach twoDeltaPipeline s ∧ s.StuckOnApplierInfo twoDeltaPipeline 0 (.sendInfo 1) ∧
      s.run twoDeltaPipeline [(.orchestrator, .none), (.orchestrator, .none)] = some s' ∧
      s'.fetchers[0]? = some (.sendInfo 1) ∧ s'.wg ≠ 0 := by
  have before : ((Pipeline.init twoDeltaPipeline).run twoDeltaPipeline (persistFailureSchedule.take 21)).map
      (fun s => (s.applier.pc, s.fetchers[0]?, s.applierInfoCh.length,
        decide (s.run twoDeltaPipeline [(.orchestrator, .none), (.orchestrator, .none)] =
          some persistFailureDeadlock))) =
      some (.done, some (.sendInfo 1), 2, true) := by
    decide
  obtain ⟨s, run, same⟩ := Option.map_eq_some'.mp before
  simp only [Prod.mk.injEq, decide_eq_true_eq] at same
  obtain ⟨returned, at_send, full, next⟩ := same
  have reach := PipelineReach.init.run _ run
  have stuck : s.StuckOnApplierInfo twoDeltaPipeline 0 (.sendInfo 1) := ⟨returned, at_send, full ▸ le_refl _⟩
  exact ⟨s, _, reach, stuck, next, PipelineReach.stuck_forever reach stuck rfl _ next⟩

end EtcdRestore
