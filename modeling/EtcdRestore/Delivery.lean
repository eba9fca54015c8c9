import EtcdRestore.Termination

/-! Each delta reaches the applier at most once: not yet enqueued, on `fetcherInfoCh`, held by
a fetcher, on `applierInfoCh` or recorded in `pathList`, it is never in two places at once,
and a message on `applierInfoCh` is for a delta at or above `nextSnapIndexToApply`. The
deltas sent to etcd are the first ones in order. -/
namespace EtcdRestore

def Pipeline.copies (cfg : PipelineConfig) (s : Pipeline) (j : Nat) : Nat :=
  (if s.orchestrator.enqueued cfg.numSnaps ≤ j ∧ j < cfg.numSnaps then 1 else 0) + s.fetcherInfoCh.count j +
    s.fetchers.countP (fun pc => pc.index = some j) + s.applierInfoCh.countP (fun info => info.snapIndex = (j : Int)) +
    (if s.applier.pathList.getD j "" = "" then 0 else 1)

/-! ### No step copies a delta -/

section Copies

variable {cfg : PipelineConfig} {s s' : Pipeline} {o : Outcome}

theorem Pipeline.copies_init (cfg : PipelineConfig) (j : Nat) : (Pipeline.init cfg).copies cfg j ≤ 1 := by
  have idle : (List.replicate cfg.numFetchers FetcherPC.start).countP (fun pc => pc.index = some j) = 0 :=
    List.countP_eq_zero.mpr fun pc mem => by simp [List.eq_of_mem_replicate mem, FetcherPC.index]
  have empty : (List.replicate cfg.numSnaps "").getD j "" = "" := by
    simp only [List.getD_eq_getElem?_getD, List.getElem?_replicate]
    split <;> rfl
  simp only [Pipeline.copies, Pipeline.init, Applier.init, OrchestratorPC.enqueued, idle, empty]
  split <;> simp

theorem OrchestratorMove.copies_le (move : OrchestratorMove cfg s o s') (j : Nat) :
    s'.copies cfg j ≤ s.copies cfg j := by
  cases move <;> simp [Pipeline.copies, OrchestratorPC.enqueued, List.count_singleton, *]
  all_goals split_ifs <;> omega

theorem FetcherMove.copies_le {pc pc' : FetcherPC} {t : Pipeline} (move : FetcherMove cfg s pc o t pc') (j : Nat) :
    t.fetcherInfoCh.count j + (if pc'.index = some j then 1 else 0) +
        t.applierInfoCh.countP (fun info => info.snapIndex = (j : Int)) ≤
      s.fetcherInfoCh.count j + (if pc.index = some j then 1 else 0) +
        s.applierInfoCh.countP (fun info => info.snapIndex = (j : Int)) := by
  cases move <;> simp [FetcherPC.index, List.count_cons, List.countP_append, List.countP_cons, *]
  all_goals split_ifs <;> omega

theorem Pipeline.fetcherStep_copies_le {f : Nat} (h : s.step cfg (.fetcher f) o = some s') (j : Nat) :
    s'.copies cfg j ≤ s.copies cfg j := by
  obtain ⟨-, pc, t, pc', at_f, move, rfl⟩ := Pipeline.step_fetcher_move h
  obtain ⟨orchestrator, applier, -⟩ := move.frame
  have moved := move.copies_le j
  have set := countP_set_add (fun pc => decide (pc.index = some j)) pc' at_f
  simp only [decide_eq_true_eq] at set
  simp only [Pipeline.copies, orchestrator, applier]
  omega

theorem Pipeline.applierStep_copies_le (h : s.applierStep cfg o = some s') (j : Nat) :
    s'.copies cfg j ≤ s.copies cfg j := by
  obtain ⟨l, move⟩ := Pipeline.applierStep_spec h
  have frame := Pipeline.applierStep_frame h
  have received := congrArg (List.countP fun info : ApplierInfo => decide (info.snapIndex = (j : Int))) move.received
  rw [List.countP_append] at received
  simp only [Pipeline.copies, frame.orchestrator, frame.fetchers, frame.fetcherInfoCh]
  rcases Applier.step_pathList move.step with same | ⟨info, rfl, idx, index, set⟩
  · rw [same]
    omega
  · simp only [ApplierLabel.received, List.countP_cons, List.countP_nil, index, Nat.cast_inj, decide_eq_true_eq]
      at received
    rw [set]
    by_cases recorded : idx = j
    · subst recorded
      simp only [↓reduceIte] at received
      split_ifs <;> omega
    · rw [List.getD_eq_getElem?_getD, List.getElem?_set_ne recorded, ← List.getD_eq_getElem?_getD]
      omega

theorem Pipeline.copies_le {g : Goroutine} (h : s.step cfg g o = some s') (j : Nat) :
    s'.copies cfg j ≤ s.copies cfg j := by
  have running := Pipeline.step_not_crashed h
  rcases g with _ | _ | f | _
  · exact (Pipeline.step_orchestrator_move h).2.copies_le j
  · rw [Pipeline.step_applier_eq running] at h
    exact Pipeline.applierStep_copies_le h j
  · exact Pipeline.fetcherStep_copies_le h j
  · rw [Pipeline.step_handler_eq running, ] at h
    rw [Pipeline.handlerStep_eq h]
    exact Nat.le_refl _

end Copies

theorem PipelineReach.copies_le_one {cfg : PipelineConfig} {s : Pipeline} (reach : PipelineReach cfg s) (j : Nat) :
    s.copies cfg j ≤ 1 := by
  induction reach with
  | init => exact Pipeline.copies_init cfg j
  | step _ _ _ step ih => exact (Pipeline.copies_le step j).trans ih

/-! ### The applier records every delta below its next one -/

/-- Every delta below `nextSnapIndexToApply`, and the one the inner loop works on, has its
path recorded. -/
structure ApplierFilled (a : Applier) : Prop where
  below : ∀ i < a.nextSnapIndexToApply, a.pathList.getD i "" ≠ ""
  current : ∀ cur, a.pc.working = some cur → a.pathList.getD cur "" ≠ ""

theorem ApplierFilled.drain {cfg : ApplierConfig} {a : Applier} {cur : Nat}
    (below : ∀ i < a.nextSnapIndexToApply, a.pathList.getD i "" ≠ "") :
    ApplierFilled { a with pc := a.drainFrom cfg cur } := by
  refine ⟨below, fun c working => ?_⟩
  rcases @drainFrom_eq cfg a cur with h | ⟨h, -⟩ <;> simp only [h, ApplierPC.working, Option.some.injEq, reduceCtorEq] at working
  subst working
  exact Applier.drainFrom_read (a := a) h

theorem ApplierFilled.step {cfg : ApplierConfig} {a a' : Applier} {l : ApplierLabel} (inv : ApplierInv cfg a)
    (filled : ApplierFilled a)
    (recorded : ∀ info (idx : Nat), l = .recv info → info.snapIndex = idx → info.snapFilePath ≠ "")
    (step : a.step cfg l = some a') : ApplierFilled a' := by
  unfold Applier.step at step
  split at step
  case h_3 info at_select =>
    cases step
    unfold Applier.receive
    split
    · exact ⟨filled.below, nofun⟩
    · exact ⟨filled.below, nofun⟩
    · rename_i idx index
      split
      · rename_i in_range
        have below : ∀ i < a.nextSnapIndexToApply, (a.pathList.set idx info.snapFilePath).getD i "" ≠ "" :=
          fun i lt => by
            rw [List.getD_eq_getElem?_getD]
            by_cases same : idx = i
            · rw [← same, List.getElem?_set_self in_range]
              exact recorded info idx rfl index
            · rw [List.getElem?_set_ne same, ← List.getD_eq_getElem?_getD]
              exact filled.below i lt
        dsimp only
        split_ifs
        · exact ⟨below, nofun⟩
        · exact ApplierFilled.drain below
        · exact ⟨below, nofun⟩
      · exact ⟨filled.below, nofun⟩
  case h_4 cur file at_read =>
    cases step
    rcases readNext_eq cfg cur (a.pathList.getD cur "") file with ⟨_, h⟩ | ⟨_, h⟩ <;> rw [h]
    · exact ⟨filled.below, nofun⟩
    · refine ⟨filled.below, fun c working => ?_⟩
      obtain rfl : cur = c := Option.some.inj working
      exact filled.current cur (by rw [at_read]; rfl)
  case h_6 cur _ at_apply =>
    cases step
    refine ⟨filled.below, fun c working => ?_⟩
    obtain rfl : cur = c := Option.some.inj working
    exact filled.current cur (by rw [at_apply]; rfl)
  case h_7 cur at_remove =>
    cases step
    obtain ⟨rfl, -⟩ := inv.remove cur at_remove
    have below : ∀ i < a.nextSnapIndexToApply + 1, a.pathList.getD i "" ≠ "" := fun i lt => by
      rcases Nat.lt_succ_iff_lt_or_eq.mp lt with lt | rfl
      · exact filled.below i lt
      · exact filled.current _ (by rw [at_remove]; rfl)
    unfold Applier.afterRemove
    dsimp only
    split_ifs
    · exact ⟨below, nofun⟩
    · exact ⟨below, nofun⟩
    · exact ApplierFilled.drain below
  case h_8 cur pc _ _ =>
    obtain ⟨next, -, rfl⟩ := Option.map_eq_some'.mp step
    cases next with
    | next => exact ⟨filled.below, nofun⟩
    | returned => exact ApplierFilled.drain filled.below
  all_goals cases step <;> exact ⟨filled.below, nofun⟩

theorem Pipeline.step_applierMove {cfg : PipelineConfig} {s s' : Pipeline} {g : Goroutine} {o : Outcome}
    (h : s.step cfg g o = some s') : s'.applier = s.applier ∨ ∃ l, Pipeline.ApplierMove cfg s s' l := by
  unfold Pipeline.step at h
  split at h
  · cases h
  · rcases g with _ | _ | f | _
    · exact .inl (Pipeline.orchestratorStep_frame h).applier
    · exact .inr (Pipeline.applierStep_spec h)
    · obtain ⟨_, _, _, _, applier, _⟩ := Pipeline.fetcherStep_spec h
      exact .inl applier
    · exact .inl (Pipeline.handlerStep_frame h).applier

theorem PipelineReach.filled {cfg : PipelineConfig} {s : Pipeline} (reach : PipelineReach cfg s) :
    ApplierFilled s.applier := by
  induction reach with
  | init => exact ⟨fun _ lt => absurd lt (Nat.not_lt_zero _), nofun⟩
  | @step s s' g o reach step ih =>
    rcases Pipeline.step_applierMove step with same | ⟨l, move⟩
    · exact same ▸ ih
    · refine ih.step reach.applier.inv (fun info idx recv index => ?_) move.step
      have on_channel : info ∈ s.applierInfoCh := by
        rw [move.received, recv]
        exact List.mem_cons_self info _
      rcases reach.pathsInv.sent info on_channel with rfl | ⟨i, rfl⟩
      · cases index
      · exact PipelineConfig.snapTempFilePath_ne _ i

/-! ### Each delta reaches the applier once -/

theorem PipelineReach.sent_unrecorded {cfg : PipelineConfig} {s : Pipeline} (reach : PipelineReach cfg s)
    {info : ApplierInfo} {idx : Nat} (sent : info ∈ s.applierInfoCh) (index : info.snapIndex = idx) :
    s.applier.pathList.getD idx "" = "" ∧ s.applier.nextSnapIndexToApply ≤ idx := by
  have once := reach.copies_le_one idx
  have some_copy : 0 < s.applierInfoCh.countP (fun info => info.snapIndex = (idx : Int)) :=
    List.countP_pos_iff.mpr ⟨info, sent, by simpa using index⟩
  have unrecorded : s.applier.pathList.getD idx "" = "" := by
    by_contra recorded
    simp only [Pipeline.copies, if_neg recorded] at once
    omega
  exact ⟨unrecorded, Nat.le_of_not_lt fun below => reach.filled.below idx below unrecorded⟩

theorem PipelineReach.recorded_alone {cfg : PipelineConfig} {s : Pipeline} (reach : PipelineReach cfg s) {i : Nat}
    (recorded : s.applier.pathList.getD i "" ≠ "") :
    (∀ info ∈ s.applierInfoCh, info.snapIndex ≠ i) ∧ ∀ pc ∈ s.fetchers, pc.index ≠ some i := by
  refine ⟨fun info sent index => recorded (reach.sent_unrecorded sent index).1, fun pc mem held => ?_⟩
  have once := reach.copies_le_one i
  have : 0 < s.fetchers.countP (fun pc => pc.index = some i) := List.countP_pos_iff.mpr ⟨pc, mem, by simpa using held⟩
  simp only [Pipeline.copies, if_neg recorded] at once
  omega

/-- In every run, a message on `applierInfoCh` for delta `idx` is its only copy in the pipeline,
and `idx` is at or above `nextSnapIndexToApply`. -/
theorem PipelineReach.delivered_once {cfg : PipelineConfig} {s : Pipeline} (reach : PipelineReach cfg s)
    {info : ApplierInfo} {idx : Nat} (sent : info ∈ s.applierInfoCh) (index : info.snapIndex = idx) :
    s.applierInfoCh.countP (fun info => info.snapIndex = (idx : Int)) = 1 ∧ idx ∉ s.fetcherInfoCh ∧
      (∀ pc ∈ s.fetchers, pc.index ≠ some idx) ∧ s.applier.pathList.getD idx "" = "" ∧
      s.applier.nextSnapIndexToApply ≤ idx := by
  obtain ⟨unrecorded, above⟩ := reach.sent_unrecorded sent index
  have once := reach.copies_le_one idx
  have some_copy : 0 < s.applierInfoCh.countP (fun info => info.snapIndex = (idx : Int)) :=
    List.countP_pos_iff.mpr ⟨info, sent, by simpa using index⟩
  simp only [Pipeline.copies, unrecorded, if_true] at once
  refine ⟨by omega, fun queued => ?_, fun pc mem held => ?_, unrecorded, above⟩
  · have := List.count_pos_iff.mpr queued
    omega
  · have : 0 < s.fetchers.countP (fun pc => pc.index = some idx) :=
      List.countP_pos_iff.mpr ⟨pc, mem, by simpa using held⟩
    omega

/-- The orchestrator queues the one delta and closes `fetcherInfoCh`; the fetcher fetches
it, persists it and sends its path and its info. -/
def deliverySchedule : List (Goroutine × Outcome) :=
  [(.orchestrator, .none), (.orchestrator, .none), (.fetcher 0, .none), (.fetcher 0, .none),
    (.fetcher 0, .none), (.fetcher 0, .fetched (.ok framedStream)), (.fetcher 0, .persisted (.created (.ok ()))),
    (.fetcher 0, .none), (.fetcher 0, .none), (.fetcher 0, .none)]

theorem fetched_delta_delivered_once :
    ∃ s, (Pipeline.init oneDelta).run oneDelta deliverySchedule = some s ∧
      s.applierInfoCh.countP (fun info => info.snapIndex = ((0 : Nat) : Int)) = 1 ∧ 0 ∉ s.fetcherInfoCh ∧
        (∀ pc ∈ s.fetchers, pc.index ≠ some 0) ∧ s.applier.pathList.getD 0 "" = "" ∧
        s.applier.nextSnapIndexToApply ≤ 0 :=
  let ⟨s, run, sent⟩ := Option.map_eq_some'.mp (by decide :
    ((Pipeline.init oneDelta).run oneDelta deliverySchedule).map
      (fun s => decide ((⟨"/tmp/d1", 0⟩ : ApplierInfo) ∈ s.applierInfoCh)) = some true)
  ⟨s, run, PipelineReach.delivered_once (PipelineReach.init.run _ run) (of_decide_eq_true sent) rfl⟩

/-- In every run, the deltas whose events have been sent to etcd are `0, 1, …, k - 1` in this
order, each once, with `k` at most their number. -/
theorem PipelineReach.applied_in_order {cfg : PipelineConfig} {s : Pipeline} (reach : PipelineReach cfg s) :
    s.applied = List.range s.applied.length ∧ s.applied.length ≤ cfg.numSnaps :=
  ⟨reach.appliedInv.in_order, reach.appliedInv.bounded⟩

theorem one_delta_run_applied_in_order :
    ∃ s, PipelineReach oneDelta s ∧ s.orchestrator = .returned none ∧
      s.applied = List.range s.applied.length ∧ s.applied.length ≤ oneDelta.numSnaps := by
  obtain ⟨-, -, -, -, s, -, -, -, -, -, -, -, -, -, -, reach, returned⟩ := oneDelta_run
  exact ⟨s, reach.reach, returned, PipelineReach.applied_in_order reach.reach⟩

end EtcdRestore
