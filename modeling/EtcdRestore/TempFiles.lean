import EtcdRestore.PipelineMoves
import EtcdRestore.PipelineSafety

/-! The temp files of the pipeline: once `wg.Wait` has returned no file is written, so when
`cleanup`'s removals succeed none is left when `applyDeltaSnapshots` returns; and when the
store answers every fetch and the temp paths are distinct, the events the applier sends for
a delta are those decoded from the store's stream for it. -/
namespace EtcdRestore

/-! ### What `cleanup` relies on -/

/-- A fetcher that writes no file and sends no path before it next takes a delta while `stopCh`
is closed. -/
def FetcherPC.idle : FetcherPC → Bool
  | .start | .range | .select _ | .done => true
  | _ => false

theorem FetcherMove.idle {cfg : PipelineConfig} {s t : Pipeline} {pc pc' : FetcherPC} {o : Outcome}
    (move : FetcherMove cfg s pc o t pc') (idle : pc.idle = true) (stopped : s.stopClosed = true) :
    pc'.idle = true ∧ t.files = s.files ∧ t.snapLocationsCh = s.snapLocationsCh ∧ t.crashed = s.crashed := by
  cases move <;> simp_all [FetcherPC.idle]

/-- The orchestrator's flags mark its phase; from `wg.Wait` on every fetcher is idle; once
the drain is over `snapLocationsCh` is empty. -/
structure Pipeline.CleanupInv (s : Pipeline) : Prop where
  fetcherInfoClosed : s.fetcherInfoClosed = true ↔ 1 ≤ s.orchestrator.phase
  stopClosed : s.stopClosed = true ↔ 3 ≤ s.orchestrator.phase
  snapLocationsClosed : s.snapLocationsClosed = true ↔ 5 ≤ s.orchestrator.phase
  stopHandleAlarmClosed : s.stopHandleAlarmClosed = true ↔ 7 ≤ s.orchestrator.phase
  idle : 4 ≤ s.orchestrator.phase → ∀ pc ∈ s.fetchers, pc.idle = true
  drained : 6 ≤ s.orchestrator.phase → s.snapLocationsCh = []

section Cleanup

variable {cfg : PipelineConfig} {s s' : Pipeline}

theorem Pipeline.CleanupInv.init (cfg : PipelineConfig) : (Pipeline.init cfg).CleanupInv := by
  refine ⟨?_, ?_, ?_, ?_, ?_, ?_⟩ <;> simp [Pipeline.init, OrchestratorPC.phase]

theorem Pipeline.CleanupInv.orchestratorMove {o : Outcome} (reach : PipelineReach cfg s) (inv : s.CleanupInv)
    (move : OrchestratorMove cfg s o s') : s'.CleanupInv := by
  obtain ⟨info, stop, locations, handler, idle, drained⟩ := inv
  cases move with
  | wait at_pc zero =>
    -- `wg.Wait` returns only when every fetcher has returned or not started
    have passes := (reach.wait_passes zero).2
    clear reach
    refine ⟨?_, ?_, ?_, ?_, fun _ pc mem => ?_, ?_⟩
    · simp [OrchestratorPC.phase, *]
    · simp [OrchestratorPC.phase, *]
    · simp [OrchestratorPC.phase, *]
    · simp [OrchestratorPC.phase, *]
    · rcases passes pc mem with rfl | rfl <;> rfl
    · simp [OrchestratorPC.phase, *]
  | enqueue at_pc | closeFetcherInfo at_pc | recvErr at_pc | closeStop at_pc | closeLocations at_pc
  | drained at_pc | skip at_pc | remove _ at_pc | closeHandler at_pc =>
    clear reach
    refine ⟨?_, ?_, ?_, ?_, fun late => idle (by simp [OrchestratorPC.phase, at_pc] at late ⊢), ?_⟩ <;>
      simp [OrchestratorPC.phase, *]

theorem Pipeline.CleanupInv.step {g : Goroutine} {o : Outcome} (reach : PipelineReach cfg s) (inv : s.CleanupInv)
    (h : s.step cfg g o = some s') : s'.CleanupInv := by
  rcases g with _ | _ | f | _
  · exact inv.orchestratorMove reach (Pipeline.step_orchestrator_move h).2
  · unfold Pipeline.step at h
    split at h
    · cases h
    · have frame := Pipeline.applierStep_frame h
      exact ⟨frame.fetcherInfoClosed ▸ frame.orchestrator ▸ inv.fetcherInfoClosed,
        frame.stopClosed ▸ frame.orchestrator ▸ inv.stopClosed,
        frame.snapLocationsClosed ▸ frame.orchestrator ▸ inv.snapLocationsClosed,
        frame.stopHandleAlarmClosed ▸ frame.orchestrator ▸ inv.stopHandleAlarmClosed,
        frame.fetchers ▸ frame.orchestrator ▸ inv.idle, frame.snapLocationsCh ▸ frame.orchestrator ▸ inv.drained⟩
  · obtain ⟨-, pc, t, pc', at_f, move, rfl⟩ := Pipeline.step_fetcher_move h
    obtain ⟨orchestrator, -, -, -, info, stop, locations, handler⟩ := move.frame
    refine ⟨?_, ?_, ?_, ?_, fun late q mem => ?_, fun late => ?_⟩
    · rw [info, orchestrator]; exact inv.fetcherInfoClosed
    · rw [stop, orchestrator]; exact inv.stopClosed
    · rw [locations, orchestrator]; exact inv.snapLocationsClosed
    · rw [handler, orchestrator]; exact inv.stopHandleAlarmClosed
    · rw [orchestrator] at late
      have stopped := inv.stopClosed.mpr (by omega)
      rcases List.mem_or_eq_of_mem_set mem with old | rfl
      · exact inv.idle late q old
      · exact (move.idle (inv.idle late pc (List.getElem?_mem at_f)) stopped).1
    · rw [orchestrator] at late
      have stopped := inv.stopClosed.mpr (by omega)
      rw [(move.idle (inv.idle (by omega) pc (List.getElem?_mem at_f)) stopped).2.2.1]
      exact inv.drained late
  · unfold Pipeline.step at h
    split at h
    · cases h
    · rw [Pipeline.handlerStep_eq h]
      exact ⟨inv.1, inv.2, inv.3, inv.4, inv.5, inv.6⟩

theorem PipelineReach.cleanupInv (reach : PipelineReach cfg s) : s.CleanupInv := by
  induction reach with
  | init => exact .init cfg
  | step g o reach step ih => exact ih.step reach step

end Cleanup

/-! ### No temp file is left behind -/

def FetcherPC.written : FetcherPC → Option Nat
  | .persistFailed i _ | .persistSentinel i | .sendLocation i => some i
  | _ => none

theorem FetcherPC.written_of_idle {pc : FetcherPC} (idle : pc.idle = true) : pc.written = none := by
  cases pc <;> first | rfl | cases idle

def Pipeline.writtenBy (s : Pipeline) (f : Nat) : Option Nat := (s.fetchers[f]?).bind FetcherPC.written

theorem Pipeline.writtenBy_set {s t : Pipeline} {f : Nat} {pc pc' : FetcherPC} (at_f : s.fetchers[f]? = some pc)
    (g : Nat) : ({ t with fetchers := s.fetchers.set f pc' } : Pipeline).writtenBy g =
      if f = g then pc'.written else s.writtenBy g := by
  have bound := (List.getElem?_eq_some_iff.mp at_f).1
  simp only [Pipeline.writtenBy, List.getElem?_set, bound, if_true]
  split <;> rfl

theorem FetcherMove.written {cfg : PipelineConfig} {s t : Pipeline} {pc pc' : FetcherPC} {o : Outcome}
    (move : FetcherMove cfg s pc o t pc') :
    t.crashed = true ∨
    (t.snapLocationsCh = s.snapLocationsCh ∧ pc.written = none ∧
      ∃ i data, pc'.written = some i ∧ t.files = writeFile (cfg.snapTempFilePath i) data s.files) ∨
    (∃ i, pc.written = some i ∧ t.files = s.files ∧
      t.snapLocationsCh = s.snapLocationsCh ++ [cfg.snapTempFilePath i]) ∨
    (t.files = s.files ∧ t.snapLocationsCh = s.snapLocationsCh ∧ (pc.written = none ∨ pc'.written = pc.written)) := by
  cases move
  all_goals first
    | exact .inl rfl
    | exact .inr (.inl ⟨rfl, rfl, _, _, rfl, rfl⟩)
    | exact .inr (.inr (.inl ⟨_, rfl, rfl, rfl⟩))
    | exact .inr (.inr (.inr ⟨rfl, rfl, by first | exact .inl rfl | exact .inr rfl⟩))

/-- Every temp file on disk is on `snapLocationsCh`, or written by a fetcher that has not
sent its path yet; once the drain is over there is none. -/
structure Pipeline.FilesInv (cfg : PipelineConfig) (s : Pipeline) : Prop where
  tracked : s.crashed = false → ∀ p ∈ s.files.map Prod.fst,
    p ∈ s.snapLocationsCh ∨ ∃ f i, s.writtenBy f = some i ∧ p = cfg.snapTempFilePath i
  removed : 6 ≤ s.orchestrator.phase → s.files = []

theorem mem_removeFile {path p : String} {files : List (String × List UInt8)} :
    p ∈ (removeFile path files).map Prod.fst ↔ p ∈ files.map Prod.fst ∧ p ≠ path := by
  simp only [removeFile, List.mem_map, List.mem_filter, decide_eq_true_eq]
  constructor
  · rintro ⟨⟨q, d⟩, ⟨mem, ne⟩, rfl⟩
    exact ⟨⟨_, mem, rfl⟩, ne⟩
  · rintro ⟨⟨⟨q, d⟩, mem, rfl⟩, ne⟩
    exact ⟨_, ⟨mem, ne⟩, rfl⟩

theorem mem_writeFile {path p : String} {data : List UInt8} {files : List (String × List UInt8)} :
    p ∈ (writeFile path data files).map Prod.fst ↔ p = path ∨ (p ∈ files.map Prod.fst ∧ p ≠ path) := by
  rw [writeFile, List.map_cons, List.mem_cons, ← removeFile, mem_removeFile]

theorem lookup_isSome_of_mem {files : List (String × List UInt8)} {p : String} (mem : p ∈ files.map Prod.fst) :
    (files.lookup p).isSome := by
  obtain ⟨⟨q, d⟩, held, rfl⟩ := List.mem_map.mp mem
  exact List.lookup_isSome_iff.mpr ⟨_, held, by simp⟩

section Files

variable {cfg : PipelineConfig} {s s' : Pipeline}

theorem Pipeline.FilesInv.init (cfg : PipelineConfig) : (Pipeline.init cfg).FilesInv cfg :=
  ⟨fun _ _ => nofun, fun h => absurd h (by simp [Pipeline.init, OrchestratorPC.phase])⟩

theorem Pipeline.FilesInv.orchestratorMove {o : Outcome} (cleanup : s.CleanupInv) (inv : s.FilesInv cfg)
    (running : s.crashed = false) (ok : Pipeline.CleanupRemoves s .orchestrator o)
    (move : OrchestratorMove cfg s o s') : s'.FilesInv cfg := by
  obtain ⟨tracked, removed⟩ := inv
  have untouched : ∀ s' : Pipeline, s'.files = s.files → s'.snapLocationsCh = s.snapLocationsCh →
      s'.fetchers = s.fetchers → s'.crashed = false → ∀ p ∈ s'.files.map Prod.fst,
        p ∈ s'.snapLocationsCh ∨ ∃ f i, s'.writtenBy f = some i ∧ p = cfg.snapTempFilePath i := by
    intro s' files queued fetchers _ p mem
    simp only [Pipeline.writtenBy, files, queued, fetchers] at mem ⊢
    exact tracked running p mem
  cases move with
  | drained at_pc empty =>
    have none_left : s.files = [] := by
      refine List.eq_nil_iff_forall_not_mem.mpr fun (p, d) mem => ?_
      rcases tracked running p (List.mem_map_of_mem Prod.fst mem) with queued | ⟨f, i, written, -⟩
      · rw [empty] at queued
        cases queued
      · simp only [Pipeline.writtenBy, Option.bind_eq_some] at written
        obtain ⟨pc, at_f, pc_written⟩ := written
        have idle := cleanup.idle (by simp [at_pc, OrchestratorPC.phase]) pc (List.getElem?_mem at_f)
        rw [FetcherPC.written_of_idle idle] at pc_written
        cases pc_written
    exact ⟨fun _ p mem => absurd mem (by simp [none_left]), fun _ => none_left⟩
  | @skip _ path rest at_pc queued absent =>
    refine ⟨fun _ p mem => ?_, fun late => absurd late (by simp [at_pc, OrchestratorPC.phase])⟩
    dsimp only at mem ⊢
    have ne : p ≠ path := fun same => by
      rw [← same, lookup_isSome_of_mem mem] at absent
      cases absent
    rcases tracked running p mem with queued' | written
    · exact .inl ((List.mem_cons.mp (queued ▸ queued')).resolve_left ne)
    · exact .inr written
  | @remove _ path rest keep at_pc queued present =>
    obtain rfl : keep = true := ok
    refine ⟨fun _ p mem => ?_, fun late => absurd late (by simp [at_pc, OrchestratorPC.phase])⟩
    dsimp only at mem ⊢
    obtain ⟨mem, ne⟩ := mem_removeFile.mp mem
    rcases tracked running p mem with queued' | written
    · exact .inl ((List.mem_cons.mp (queued ▸ queued')).resolve_left ne)
    · exact .inr written
  | closeHandler at_pc =>
    exact ⟨untouched _ rfl rfl rfl, fun _ => removed (by simp [at_pc, OrchestratorPC.phase])⟩
  | _ =>
    exact ⟨untouched _ rfl rfl rfl, fun late => absurd late (by simp [OrchestratorPC.phase])⟩

theorem Pipeline.FilesInv.fetcherMove {f : Nat} {pc pc' : FetcherPC} {o : Outcome} {t : Pipeline}
    (cleanup : s.CleanupInv) (inv : s.FilesInv cfg) (running : s.crashed = false)
    (at_f : s.fetchers[f]? = some pc) (move : FetcherMove cfg s pc o t pc') :
    ({ t with fetchers := s.fetchers.set f pc' } : Pipeline).FilesInv cfg := by
  obtain ⟨orchestrator, -, -, -, -, stop, -, -⟩ := move.frame
  have was : s.writtenBy f = pc.written := by simp [Pipeline.writtenBy, at_f]
  -- a file another fetcher has pending stays pending
  have other : ∀ g i, s.writtenBy g = some i → f ≠ g →
      ({ t with fetchers := s.fetchers.set f pc' } : Pipeline).writtenBy g = some i := fun g i wg ne => by
    rw [Pipeline.writtenBy_set at_f, if_neg ne, wg]
  refine ⟨fun alive p mem => ?_, fun late => ?_⟩
  · dsimp only at alive mem ⊢
    rcases move.written with crashed | ⟨queued, none_before, i, data, now_i, files⟩ |
      ⟨i, written_i, files, queued⟩ | ⟨files, queued, kept⟩
    · rw [crashed] at alive
      cases alive
    · rw [files] at mem
      rcases mem_writeFile.mp mem with rfl | ⟨old, -⟩
      · exact .inr ⟨f, i, by rw [Pipeline.writtenBy_set at_f, if_pos rfl, now_i], rfl⟩
      · rcases inv.tracked running p old with q | ⟨g, j, wg, rfl⟩
        · exact .inl (queued ▸ q)
        · refine .inr ⟨g, j, other g j wg fun same => ?_, rfl⟩
          rw [← same, was, none_before] at wg
          cases wg
    · rw [files] at mem
      rcases inv.tracked running p mem with q | ⟨g, j, wg, rfl⟩
      · exact .inl (by rw [queued]; exact List.mem_append_left _ q)
      · by_cases same : f = g
        · subst same
          rw [was, written_i] at wg
          cases wg
          exact .inl (by rw [queued]; exact List.mem_append_right _ (List.mem_singleton_self _))
        · exact .inr ⟨g, j, other g j wg same, rfl⟩
    · rw [files] at mem
      rcases inv.tracked running p mem with q | ⟨g, j, wg, rfl⟩
      · exact .inl (queued ▸ q)
      · by_cases same : f = g
        · subst same
          rcases kept with none_before | kept
          · rw [was, none_before] at wg
            cases wg
          · exact .inr ⟨f, j, by rw [Pipeline.writtenBy_set at_f, if_pos rfl, kept, ← was, wg], rfl⟩
        · exact .inr ⟨g, j, other g j wg same, rfl⟩
  · dsimp only at late ⊢
    rw [orchestrator] at late
    have idle := cleanup.idle (by omega) pc (List.getElem?_mem at_f)
    rw [(move.idle idle (cleanup.stopClosed.mpr (by omega))).2.1]
    exact inv.removed late

theorem Pipeline.FilesInv.applierStep {o : Outcome} (inv : s.FilesInv cfg) (running : s.crashed = false)
    (h : s.applierStep cfg o = some s') : s'.FilesInv cfg := by
  have frame := Pipeline.applierStep_frame h
  have writtenBy : s'.writtenBy = s.writtenBy := funext fun g => by simp only [Pipeline.writtenBy, frame.fetchers]
  have kept : ∀ p ∈ s'.files.map Prod.fst, p ∈ s.files.map Prod.fst := fun p mem => by
    rcases frame.files with same | ⟨path, removed⟩
    · rwa [same] at mem
    · exact (mem_removeFile.mp (removed ▸ mem)).1
  refine ⟨fun _ p mem => ?_, fun late => ?_⟩
  · rw [writtenBy, frame.snapLocationsCh]
    exact inv.tracked running p (kept p mem)
  · rcases frame.files with same | ⟨path, removed⟩ <;>
      simp [*, inv.removed (frame.orchestrator ▸ late), removeFile]

theorem Pipeline.FilesInv.step {g : Goroutine} {o : Outcome} (cleanup : s.CleanupInv) (inv : s.FilesInv cfg)
    (ok : Pipeline.CleanupRemoves s g o) (h : s.step cfg g o = some s') : s'.FilesInv cfg := by
  rcases g with _ | _ | f | _
  · obtain ⟨running, move⟩ := Pipeline.step_orchestrator_move h
    exact inv.orchestratorMove cleanup running ok move
  · unfold Pipeline.step at h
    split at h
    · cases h
    · exact inv.applierStep (Bool.eq_false_iff.mpr ‹_›) h
  · obtain ⟨running, pc, t, pc', at_f, move, rfl⟩ := Pipeline.step_fetcher_move h
    exact inv.fetcherMove cleanup running at_f move
  · unfold Pipeline.step at h
    split at h
    · cases h
    · rw [Pipeline.handlerStep_eq h]
      exact ⟨inv.1, inv.2⟩

theorem PipelineReachUnder.filesInv (reach : PipelineReachUnder cfg Pipeline.CleanupRemoves s) : s.FilesInv cfg := by
  induction reach with
  | init => exact .init cfg
  | step g o reach ok step ih => exact ih.step reach.reach.cleanupInv ok step

end Files

theorem oneDelta_run : ∃ s₀ s₁ s₂ s₃ s₄,
    PipelineReachUnder oneDelta (fun s g o => s.CleanupRemoves g o ∧ s.Succeeds oneDelta g o) s₀ ∧
    s₀.orchestrator = .recvErr ∧ s₀.errCh = [] ∧ s₀.applier.pc = .select ∧ s₀.applierInfoCh = [] ∧
    PipelineReachUnder oneDelta (fun s g o => s.CleanupRemoves g o ∧ s.Succeeds oneDelta g o) s₁ ∧
    s₁.applier.pc = .apply 0 [] ∧
    PipelineReachUnder oneDelta (fun s g o => s.CleanupRemoves g o ∧ s.Succeeds oneDelta g o) s₂ ∧
    s₂.orchestrator = .closeLocations none ∧ s₂.step oneDelta .orchestrator .none = some s₃ ∧
    PipelineReachUnder oneDelta (fun s g o => s.CleanupRemoves g o ∧ s.Succeeds oneDelta g o) s₄ ∧
    s₄.orchestrator = .returned none := by
  have r0 := @PipelineReachUnder.init oneDelta (fun s g o => s.CleanupRemoves g o ∧ s.Succeeds oneDelta g o)
  have r1 := r0.step .orchestrator .none ⟨trivial, trivial, trivial, nofun⟩ rfl
  have r2 := r1.step .orchestrator .none ⟨trivial, trivial, trivial, nofun⟩ rfl
  have r3 := r2.step .applier .none ⟨trivial, trivial, trivial, nofun⟩ rfl
  have r4 := r3.step (.fetcher 0) .none ⟨trivial, trivial, trivial, nofun⟩ rfl
  have r5 := r4.step (.fetcher 0) .none ⟨trivial, trivial, trivial, nofun⟩ rfl
  have r6 := r5.step (.fetcher 0) .none ⟨trivial, trivial, trivial, nofun⟩ rfl
  have r7 := r6.step (.fetcher 0) (.fetched (.ok framedStream)) ⟨trivial, fun _ _ => rfl, ⟨_, rfl, rfl⟩, nofun⟩ rfl
  have r8 := r7.step (.fetcher 0) (.persisted (.created (.ok ()))) ⟨trivial, trivial, rfl, nofun⟩ rfl
  have r9 := r8.step (.fetcher 0) .none ⟨trivial, trivial, trivial, nofun⟩ rfl
  have r10 := r9.step (.fetcher 0) .none ⟨trivial, trivial, trivial, nofun⟩ rfl
  have r11 := r10.step .applier .none ⟨trivial, trivial, trivial, nofun⟩ rfl
  have r12 := r11.step .applier .none ⟨trivial, trivial, trivial, nofun⟩ rfl
  have r13 := r12.step .applier (.applied (.ok ()))
    ⟨trivial, trivial, trivial, fun _ h => (Outcome.applied.inj h).symm⟩ rfl
  have r14 := r13.step .applier (.removed false) ⟨trivial, trivial, trivial, nofun⟩ rfl
  have r15 := r14.step .applier .none ⟨trivial, trivial, trivial, nofun⟩ rfl
  have r16 := r15.step (.fetcher 0) .none ⟨trivial, trivial, trivial, nofun⟩ rfl
  have r17 := r16.step .orchestrator .none ⟨trivial, trivial, trivial, nofun⟩ rfl
  have r18 := r17.step .orchestrator .none ⟨trivial, trivial, trivial, nofun⟩ rfl
  have r19 := r18.step .orchestrator .none ⟨trivial, trivial, trivial, nofun⟩ rfl
  have r20 := r19.step .orchestrator .none ⟨trivial, trivial, trivial, nofun⟩ rfl
  have r21 := r20.step .orchestrator (.removed true) ⟨rfl, trivial, trivial, nofun⟩ rfl
  have r22 := r21.step .orchestrator .none ⟨trivial, trivial, trivial, nofun⟩ rfl
  have r23 := r22.step .orchestrator .none ⟨trivial, trivial, trivial, nofun⟩ rfl
  exact ⟨_, _, _, _, _, r3, rfl, rfl, rfl, rfl, r12, rfl, r19, rfl, rfl, r23, rfl⟩

/-- When every removal of `cleanup` succeeds, whatever else fails, `applyDeltaSnapshots`
returns with no temp file left on disk. -/
theorem PipelineReachUnder.no_temp_file_left {cfg : PipelineConfig} {s : Pipeline} {err : Option String}
    (reach : PipelineReachUnder cfg Pipeline.CleanupRemoves s) (returned : s.orchestrator = .returned err) :
    s.files = [] :=
  reach.filesInv.removed (by simp [returned, OrchestratorPC.phase])

theorem one_delta_leaves_no_temp_file :
    ∃ s, PipelineReachUnder oneDelta Pipeline.CleanupRemoves s ∧ s.orchestrator = .returned none ∧ s.files = [] := by
  obtain ⟨-, -, -, -, s, -, -, -, -, -, -, -, -, -, -, reach, returned⟩ := oneDelta_run
  have reach := reach.mono fun _ _ _ ok => ok.1
  exact ⟨s, reach, returned, reach.no_temp_file_left returned⟩

/-- In every run, no step after the return of `cleanup`'s `wg.Wait` writes a file. -/
theorem PipelineReach.no_write_after_wait {cfg : PipelineConfig} {s s' : Pipeline} {g : Goroutine} {o : Outcome}
    (reach : PipelineReach cfg s) (waited : 4 ≤ s.orchestrator.phase) (h : s.step cfg g o = some s') :
    s'.files ⊆ s.files := by
  have cleanup := reach.cleanupInv
  rcases g with _ | _ | f | _
  · exact (Pipeline.step_orchestrator_move h).2.frame.2.2.2.2.2
  · unfold Pipeline.step at h
    split at h
    · cases h
    · rcases (Pipeline.applierStep_frame h).files with same | ⟨path, removed⟩
      · exact same ▸ List.Subset.refl _
      · exact removed ▸ List.filter_subset' _
  · obtain ⟨-, pc, t, pc', at_f, move, rfl⟩ := Pipeline.step_fetcher_move h
    have idle := cleanup.idle waited pc (List.getElem?_mem at_f)
    exact (move.idle idle (cleanup.stopClosed.mpr (by omega))).2.1 ▸ List.Subset.refl _
  · unfold Pipeline.step at h
    split at h
    · cases h
    · exact Pipeline.handlerStep_eq h ▸ List.Subset.refl _

theorem closing_locations_writes_nothing :
    ∃ s s', PipelineReach oneDelta s ∧ 4 ≤ s.orchestrator.phase ∧
      s.step oneDelta .orchestrator .none = some s' ∧ s'.files ⊆ s.files := by
  obtain ⟨-, -, s, s', -, -, -, -, -, -, -, -, reach, waited, step, -⟩ := oneDelta_run
  have waited : 4 ≤ s.orchestrator.phase := by simp [waited, OrchestratorPC.phase]
  exact ⟨s, s', reach.reach, waited, step, reach.reach.no_write_after_wait waited step⟩

/-! ### What the temp files hold -/

/-- The store holds for delta `i` a stream that reads to the bytes `data`. -/
def PipelineConfig.Stored (cfg : PipelineConfig) (i : Nat) (data : List UInt8) : Prop :=
  ∃ rc, cfg.applier.restorer.store.fetch (cfg.applier.snap i) = .ok rc ∧ rc.data = data

/-- The events `applySnaps` reads from bytes `data` for delta `cur`: they pass the check of
`readSnapshotContentsFromReadCloser` and decode to `events`. -/
def PipelineConfig.Decodes (cfg : PipelineConfig) (cur : Nat) (data : List UInt8) (events : List Event) : Prop :=
  ∃ eventsData, cfg.applier.restorer.readSnapshotContentsFromReadCloser ⟨data, none⟩ (cfg.applier.snap cur) =
    .ok eventsData ∧ cfg.applier.restorer.codec.unmarshal eventsData = .ok events

theorem readNext_apply {cfg : ApplierConfig} {c cur : Nat} {path : String} {file : Except String Stream}
    {events : List Event} (h : readNext cfg c path file = .apply cur events) :
    c = cur ∧ ∃ rc eventsData, file = .ok rc ∧
      cfg.restorer.readSnapshotContentsFromReadCloser rc (cfg.snap c) = .ok eventsData ∧
      cfg.restorer.codec.unmarshal eventsData = .ok events := by
  unfold readNext at h
  dsimp only at h
  split at h
  · cases h
  · split at h
    · cases h
    · split at h
      · cases h
      · cases h
        exact ⟨rfl, _, _, rfl, ‹_›, ‹_›⟩

theorem Applier.step_apply {cfg : ApplierConfig} {a a' : Applier} {l : ApplierLabel} {cur : Nat}
    {events : List Event} (h : a.step cfg l = some a') (at_apply : a'.pc = .apply cur events) :
    ∃ c file, a.pc = .read c ∧ l = .read file := by
  have not_drain : ∀ (b : Applier) c, b.drainFrom cfg c ≠ .apply cur events := fun b c same => by
    rcases @drainFrom_eq cfg b c with h | ⟨h, -⟩ <;> rw [h] at same <;> cases same
  unfold Applier.step at h
  split at h <;> (try cases h) <;> (try cases at_apply)
  · revert at_apply
    unfold Applier.receive
    split
    · nofun
    · nofun
    · dsimp only
      split
      · split
        · nofun
        · split
          · exact fun h => absurd h (not_drain _ _)
          · nofun
      · nofun
  · exact ⟨_, _, ‹_›, rfl⟩
  · revert at_apply
    unfold Applier.afterRemove
    dsimp only
    split_ifs
    · nofun
    · nofun
    · exact fun h => absurd h (not_drain _ _)
  · obtain ⟨next, -, rfl⟩ := Option.map_eq_some'.mp h
    revert at_apply
    cases next
    · nofun
    · exact fun h => absurd h (not_drain _ _)

theorem PipelineReach.fetchInv {cfg : PipelineConfig} {s : Pipeline} (reach : PipelineReach cfg s) :
    s.FetchInv cfg := by
  induction reach with
  | init => exact .init cfg
  | step _ _ _ step ih => exact ih.step step

theorem Pipeline.FetchInv.held_lt {cfg : PipelineConfig} {s : Pipeline} (inv : s.FetchInv cfg) {f j : Nat}
    (held : s.holds f = some j) : j < cfg.numSnaps := by
  have below := (inv.held f j held).1
  cases at_pc : s.orchestrator <;> simp only [at_pc, OrchestratorPC.enqueued] at below
  · exact lt_of_lt_of_le below (inv.enqueue_le _ at_pc)
  all_goals exact below

theorem mem_of_lookup {files : List (String × List UInt8)} {p : String} {data : List UInt8}
    (h : files.lookup p = some data) : (p, data) ∈ files := by
  obtain ⟨l₁, l₂, rfl, -⟩ := List.lookup_eq_some_iff.mp h
  exact List.mem_append_right _ (List.mem_cons_self _ _)

/-- The streams the fetchers hold, the files on disk and the events about to reach etcd all
come from the store's bytes for their own delta. -/
structure Pipeline.ContentInv (cfg : PipelineConfig) (s : Pipeline) : Prop where
  fetched : ∀ (f i : Nat) (rc : Stream), s.fetchers[f]? = some (.persist i (some rc)) →
    cfg.applier.restorer.store.fetch (cfg.applier.snap i) = .ok rc
  files : s.crashed = false → ∀ (p : String) (data : List UInt8), (p, data) ∈ s.files →
    ∃ i < cfg.numSnaps, p = cfg.snapTempFilePath i ∧ cfg.Stored i data
  applying : ∀ (cur : Nat) (events : List Event), s.applier.pc = .apply cur events →
    ∃ data, cfg.Stored cur data ∧ cfg.Decodes cur data events

section Content

variable {cfg : PipelineConfig} {s s' : Pipeline}

theorem Pipeline.ContentInv.init (cfg : PipelineConfig) : (Pipeline.init cfg).ContentInv cfg where
  fetched f _ _ h := by
    simp only [Pipeline.init, List.getElem?_replicate] at h
    split at h <;> cases h
  files _ _ _ := nofun
  applying _ _ := nofun

theorem Pipeline.ContentInv.applierStep {o : Outcome}
    (distinct : cfg.tempPaths.Nodup) (reach : PipelineReach cfg s)
    (inv : s.ContentInv cfg) (running : s.crashed = false) (h : s.applierStep cfg o = some s') :
    s'.ContentInv cfg := by
  have frame := Pipeline.applierStep_frame h
  obtain ⟨l, move⟩ := Pipeline.applierStep_spec h
  refine ⟨fun f i rc at_f => inv.fetched f i rc (frame.fetchers ▸ at_f), fun _ p data mem => ?_,
    fun cur events at_apply => ?_⟩
  · rcases frame.files with same | ⟨path, removed⟩
    · exact inv.files running p data (same ▸ mem)
    · exact inv.files running p data (List.mem_of_mem_filter (removed ▸ mem))
  · obtain ⟨c, file, at_read, -⟩ := Applier.step_apply move.step at_apply
    have read := Pipeline.applierStep_read at_read h
    rw [read] at at_apply
    obtain ⟨rfl, rc, eventsData, opened, checked, decoded⟩ := readNext_apply at_apply
    have own := reach.reads_own_temp_file at_read
    have lt := (reach.applier.inv.read c at_read).2
    rw [own] at opened
    unfold openFile at opened
    split at opened
    · rename_i data found
      cases opened
      obtain ⟨i, lt_i, same, stored⟩ := inv.files running _ data (mem_of_lookup found)
      obtain rfl := PipelineConfig.snapTempFilePath_inj distinct lt lt_i same
      exact ⟨data, stored, eventsData, checked, decoded⟩
    · cases opened

theorem Pipeline.ContentInv.fetcherMove {f : Nat} {pc pc' : FetcherPC} {o : Outcome} {t : Pipeline}
    (fetchInv : s.FetchInv cfg) (inv : s.ContentInv cfg) (running : s.crashed = false)
    (ok : Pipeline.FetchesFromStore cfg s (.fetcher f) o) (at_f : s.fetchers[f]? = some pc)
    (move : FetcherMove cfg s pc o t pc') : ({ t with fetchers := s.fetchers.set f pc' } : Pipeline).ContentInv cfg := by
  obtain ⟨-, applier, -, -, -, -, -, -⟩ := move.frame
  have bound := (List.getElem?_eq_some_iff.mp at_f).1
  refine ⟨fun g i rc at_g => ?_, fun alive p data mem => ?_,
    fun cur events at_apply => inv.applying cur events (applier ▸ at_apply)⟩
  · simp only [List.getElem?_set, bound, if_true] at at_g
    split at at_g
    · cases at_g
      obtain ⟨rfl, rfl⟩ := move.to_persist
      exact (ok i at_f).symm
    · exact inv.fetched g i rc at_g
  · dsimp only at alive mem
    rcases move.writes with same | crashed | ⟨i, rc, rfl, written⟩
    · exact inv.files running p data (same ▸ mem)
    · rw [crashed] at alive
      cases alive
    · rw [written] at mem
      rcases List.mem_cons.mp mem with new | old
      · cases new
        have held : s.holds f = some i := by simp [Pipeline.holds, at_f, FetcherPC.index]
        exact ⟨i, fetchInv.held_lt held, rfl, rc, inv.fetched f i rc at_f, rfl⟩
      · exact inv.files running p data (List.mem_of_mem_filter old)

theorem Pipeline.ContentInv.step {g : Goroutine} {o : Outcome}
    (distinct : cfg.tempPaths.Nodup) (reach : PipelineReach cfg s)
    (inv : s.ContentInv cfg) (ok : Pipeline.FetchesFromStore cfg s g o) (h : s.step cfg g o = some s') :
    s'.ContentInv cfg := by
  rcases g with _ | _ | f | _
  · obtain ⟨applier, fetchers, -, crashed, -, files⟩ := (Pipeline.step_orchestrator_move h).2.frame
    exact ⟨fun f i rc at_f => inv.fetched f i rc (fetchers ▸ at_f),
      fun alive p data mem => inv.files (crashed ▸ alive) p data (files mem),
      fun cur events at_apply => inv.applying cur events (applier ▸ at_apply)⟩
  · unfold Pipeline.step at h
    split at h
    · cases h
    · exact inv.applierStep distinct reach (Bool.eq_false_iff.mpr ‹_›) h
  · obtain ⟨running, pc, t, pc', at_f, move, rfl⟩ := Pipeline.step_fetcher_move h
    exact inv.fetcherMove reach.fetchInv running ok at_f move
  · unfold Pipeline.step at h
    split at h
    · cases h
    · rw [Pipeline.handlerStep_eq h]
      exact ⟨inv.1, inv.2, inv.3⟩

theorem PipelineReachUnder.contentInv (distinct : cfg.tempPaths.Nodup)
    (reach : PipelineReachUnder cfg (Pipeline.FetchesFromStore cfg) s) : s.ContentInv cfg := by
  induction reach with
  | init => exact .init cfg
  | step g o reach ok step ih => exact ih.step distinct reach.reach ok step

end Content

/-- When the store answers every `Fetch` and the temp paths are distinct, the events the
applier is about to send for delta `cur` are those checked and decoded from the store's stream. -/
theorem PipelineReachUnder.applies_stored_events {cfg : PipelineConfig} {s : Pipeline} {cur : Nat}
    {events : List Event} (distinct : cfg.tempPaths.Nodup)
    (reach : PipelineReachUnder cfg (Pipeline.FetchesFromStore cfg) s) (at_apply : s.applier.pc = .apply cur events) :
    ∃ rc eventsData, cfg.applier.restorer.store.fetch (cfg.applier.snap cur) = .ok rc ∧
      cfg.applier.restorer.readSnapshotContentsFromReadCloser ⟨rc.data, none⟩ (cfg.applier.snap cur) =
        .ok eventsData ∧
      cfg.applier.restorer.codec.unmarshal eventsData = .ok events := by
  obtain ⟨_, ⟨rc, fetched, rfl⟩, eventsData, checked, decoded⟩ := (reach.contentInv distinct).applying cur events at_apply
  exact ⟨rc, eventsData, fetched, checked, decoded⟩

theorem one_delta_applies_stored_events :
    ∃ s, PipelineReachUnder oneDelta (Pipeline.FetchesFromStore oneDelta) s ∧ s.applier.pc = .apply 0 [] ∧
      ∃ rc eventsData, oneDelta.applier.restorer.store.fetch (oneDelta.applier.snap 0) = .ok rc ∧
        oneDelta.applier.restorer.readSnapshotContentsFromReadCloser ⟨rc.data, none⟩ (oneDelta.applier.snap 0) =
          .ok eventsData ∧ oneDelta.applier.restorer.codec.unmarshal eventsData = .ok [] := by
  obtain ⟨-, s, -, -, -, -, -, -, -, -, reach, at_apply, -⟩ := oneDelta_run
  have reach := reach.mono fun _ _ _ ok => ok.2.1
  exact ⟨s, reach, at_apply, reach.applies_stored_events (by decide) at_apply⟩

end EtcdRestore
