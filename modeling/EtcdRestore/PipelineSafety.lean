import EtcdRestore.Pipeline

/-! What every run of the pipeline keeps, under any interleaving and any outcome outside it:
the applier reads each delta from the temp path sent for its index, the deltas sent to etcd
are the first ones in order, nil comes only after all of them, and no two fetchers hold one
delta. Each is an invariant proved from what one step of each goroutine can do. -/
namespace EtcdRestore

/-! ### What a step of the applier does to its paths and its counter -/

theorem Applier.drainFrom_read {cfg : ApplierConfig} {a : Applier} {cur c : Nat}
    (h : a.drainFrom cfg cur = .read c) : a.pathList.getD c "" ≠ "" := by
  unfold Applier.drainFrom at h
  split at h
  · cases h
    exact ‹_ ∧ _›.2
  · cases h

theorem Applier.receive_pathList (cfg : ApplierConfig) (a : Applier) (info : ApplierInfo) :
    (a.receive cfg info).pathList = a.pathList ∨
      ∃ idx : Nat, info.snapIndex = idx ∧ (a.receive cfg info).pathList = a.pathList.set idx info.snapFilePath := by
  unfold Applier.receive
  split
  · exact .inl rfl
  · exact .inl rfl
  · rename_i idx at_idx
    split
    · refine .inr ⟨idx, at_idx, ?_⟩
      dsimp only
      split_ifs <;> rfl
    · exact .inl rfl

theorem Applier.step_pathList {cfg : ApplierConfig} {a a' : Applier} {l : ApplierLabel}
    (h : a.step cfg l = some a') :
    a'.pathList = a.pathList ∨ ∃ info, l = .recv info ∧
      ∃ idx : Nat, info.snapIndex = idx ∧ a'.pathList = a.pathList.set idx info.snapFilePath := by
  unfold Applier.step at h
  split at h <;> (try cases h) <;> (try exact .inl rfl)
  · rcases Applier.receive_pathList cfg a _ with same | set
    · exact .inl same
    · exact .inr ⟨_, rfl, set⟩
  · unfold Applier.afterRemove
    dsimp only
    split_ifs <;> exact .inl rfl
  · obtain ⟨next, -, rfl⟩ := Option.map_eq_some'.mp h
    cases next <;> exact .inl rfl

theorem Applier.step_read {cfg : ApplierConfig} {a a' : Applier} {l : ApplierLabel}
    (h : a.step cfg l = some a') {c : Nat} (at_read : a'.pc = .read c) : a'.pathList.getD c "" ≠ "" := by
  unfold Applier.step at h
  split at h <;> (try cases h) <;> (try cases at_read)
  · revert at_read
    unfold Applier.receive
    split
    · nofun
    · nofun
    · dsimp only
      split
      · split
        · nofun
        · split
          · exact Applier.drainFrom_read
          · nofun
      · nofun
  · rcases readNext_eq cfg _ (a.pathList.getD _ "") _ with ⟨_, h⟩ | ⟨_, h⟩ <;>
      rw [h] at at_read <;> cases at_read
  · revert at_read
    unfold Applier.afterRemove
    dsimp only
    split_ifs
    · nofun
    · nofun
    · exact Applier.drainFrom_read
  · obtain ⟨next, -, rfl⟩ := Option.map_eq_some'.mp h
    revert at_read
    cases next
    · nofun
    · exact Applier.drainFrom_read

/-! ### The applier reads each delta from its own temp file -/

/-- What a fetcher sends on `applierInfoCh`: the `-1` sentinel, or a delta's temp path with
its index. -/
def ApplierInfo.Sent (cfg : PipelineConfig) (info : ApplierInfo) : Prop :=
  info = ⟨"", -1⟩ ∨ ∃ i : Nat, info = ⟨cfg.snapTempFilePath i, i⟩

def OwnPaths (path : Nat → String) (pathList : List String) : Prop :=
  ∀ j, pathList.getD j "" = "" ∨ pathList.getD j "" = path j

theorem OwnPaths.set {path : Nat → String} {pathList : List String} (own : OwnPaths path pathList) (i : Nat) :
    OwnPaths path (pathList.set i (path i)) := by
  intro j
  simp only [List.getD_eq_getElem?_getD, List.getElem?_set]
  split_ifs with same
  · exact .inr (same ▸ rfl)
  · exact .inl rfl
  · simpa only [List.getD_eq_getElem?_getD] using own j

/-- Every message on `applierInfoCh` is one a fetcher sends, every path the applier holds
is empty or the temp path of its own delta, and a read is of a path it holds. -/
structure Pipeline.PathsInv (cfg : PipelineConfig) (s : Pipeline) : Prop where
  sent : ∀ info ∈ s.applierInfoCh, info.Sent cfg
  own : OwnPaths cfg.snapTempFilePath s.applier.pathList
  reading : ∀ c, s.applier.pc = .read c → s.applier.pathList.getD c "" ≠ ""

theorem Pipeline.PathsInv.init (cfg : PipelineConfig) : (Pipeline.init cfg).PathsInv cfg where
  sent _ := nofun
  own j := .inl (by
    simp only [Pipeline.init, Applier.init, List.getD_eq_getElem?_getD, List.getElem?_replicate]
    split <;> rfl)
  reading _ := nofun

theorem Pipeline.PathsInv.of_frame {cfg : PipelineConfig} {s s' : Pipeline} (inv : s.PathsInv cfg)
    (frame : s.Frame s') : s'.PathsInv cfg :=
  ⟨frame.applierInfoCh ▸ inv.sent, frame.applier ▸ inv.own, frame.applier ▸ inv.reading⟩

theorem Pipeline.PathsInv.applierStep {cfg : PipelineConfig} {s s' : Pipeline} {o : Outcome}
    (inv : s.PathsInv cfg) (h : s.applierStep cfg o = some s') : s'.PathsInv cfg := by
  obtain ⟨l, step, taken, -, -, -, -⟩ := Pipeline.applierStep_spec h
  refine ⟨fun info mem => inv.sent info (taken ▸ List.mem_append_right _ mem), ?_,
    fun _ => Applier.step_read step⟩
  rcases Applier.step_pathList step with same | ⟨info, rfl, idx, at_idx, set⟩
  · exact same ▸ inv.own
  · rcases inv.sent info (taken ▸ List.mem_cons_self _ _) with rfl | ⟨i, rfl⟩
    · cases at_idx
    · obtain rfl : i = idx := Int.ofNat_inj.mp at_idx
      exact set ▸ inv.own.set i

theorem Pipeline.PathsInv.fetcherStep {cfg : PipelineConfig} {s s' : Pipeline} {f : Nat} {o : Outcome}
    (inv : s.PathsInv cfg) (h : s.fetcherStep cfg f o = some s') : s'.PathsInv cfg := by
  obtain ⟨-, applier, -, -, sends⟩ := Pipeline.fetcherStep_sends h
  refine ⟨?_, applier ▸ inv.own, applier ▸ inv.reading⟩
  rcases sends with more | more | ⟨i, more⟩ <;> rw [more]
  · exact inv.sent
  · exact List.forall_mem_append.mpr ⟨inv.sent, List.forall_mem_singleton.mpr (.inl rfl)⟩
  · exact List.forall_mem_append.mpr ⟨inv.sent, List.forall_mem_singleton.mpr (.inr ⟨i, rfl⟩)⟩

theorem Pipeline.PathsInv.step {cfg : PipelineConfig} {s s' : Pipeline} {g : Goroutine} {o : Outcome}
    (inv : s.PathsInv cfg) (h : s.step cfg g o = some s') : s'.PathsInv cfg := by
  unfold Pipeline.step at h
  split at h
  · cases h
  rcases g with _ | _ | f | _
  · exact inv.of_frame (Pipeline.orchestratorStep_frame h)
  · exact inv.applierStep h
  · exact inv.fetcherStep h
  · exact inv.of_frame (Pipeline.handlerStep_frame h)

theorem PipelineReach.pathsInv {cfg : PipelineConfig} {s : Pipeline} (reach : PipelineReach cfg s) :
    s.PathsInv cfg := by
  induction reach with
  | init => exact .init cfg
  | step _ _ _ step ih => exact ih.step step

theorem PipelineReach.reads_own_temp_file {cfg : PipelineConfig} {s : Pipeline} {cur : Nat}
    (reach : PipelineReach cfg s) (at_read : s.applier.pc = .read cur) :
    s.applier.pathList.getD cur "" = cfg.snapTempFilePath cur :=
  (reach.pathsInv.own cur).resolve_left (reach.pathsInv.reading cur at_read)

/-! ### The deltas reach etcd in order, each once -/

/-- How many deltas the applier has sent to etcd, read off its state; unknown once it is
returning. -/
def Applier.progress (a : Applier) : Option Nat :=
  match a.pc with
  | .remove _ => some (a.nextSnapIndexToApply + 1)
  | .send _ | .done | .crashed => none
  | _ => some a.nextSnapIndexToApply

theorem Applier.progress_drainFrom (cfg : ApplierConfig) (a : Applier) (cur : Nat) (pathList : List String)
    (next applied : Nat) (failed : Bool) :
    (⟨a.drainFrom cfg cur, pathList, next, applied, failed⟩ : Applier).progress = some next := by
  rcases @drainFrom_eq cfg a cur with h | ⟨h, -⟩ <;> rw [h] <;> rfl

theorem Applier.receive_progress (cfg : ApplierConfig) (a : Applier) (info : ApplierInfo) :
    (a.receive cfg info).progress = none ∨ (a.receive cfg info).progress = some a.nextSnapIndexToApply := by
  unfold Applier.receive
  split
  · exact .inl rfl
  · exact .inl rfl
  · dsimp only
    split
    · split
      · exact .inl rfl
      · split
        · exact .inr (Applier.progress_drainFrom _ _ _ _ _ _ _)
        · exact .inr rfl
    · exact .inl rfl

theorem Applier.step_progress {cfg : ApplierConfig} {a a' : Applier} {l : ApplierLabel}
    (inv : ApplierInv cfg a) (h : a.step cfg l = some a') :
    (l.applies a.pc = [] ∧ (a'.progress = none ∨ a'.progress = a.progress)) ∨
      ∃ k, a.progress = some k ∧ k < cfg.remainingSnaps.length ∧ l.applies a.pc = [k] ∧
        (a'.progress = none ∨ a'.progress = some (k + 1)) := by
  unfold Applier.step at h
  split at h <;> (try cases h) <;> rename_i at_pc
  · exact .inl ⟨rfl, .inr (by simp [Applier.progress, at_pc])⟩
  · exact .inl ⟨rfl, .inl rfl⟩
  · refine .inl ⟨rfl, ?_⟩
    simpa [Applier.progress, at_pc] using Applier.receive_progress cfg a _
  · rename_i cur file
    refine .inl ⟨rfl, ?_⟩
    rcases readNext_eq cfg cur (a.pathList.getD cur "") file with ⟨_, h⟩ | ⟨_, h⟩ <;>
      simp only [Applier.progress, at_pc, h, or_true, true_or]
  · obtain ⟨rfl, lt⟩ := inv.apply _ _ at_pc
    exact .inr ⟨a.nextSnapIndexToApply, by simp [Applier.progress, at_pc], lt,
      by simp [ApplierLabel.applies, at_pc], .inl rfl⟩
  · obtain ⟨rfl, lt⟩ := inv.apply _ _ at_pc
    exact .inr ⟨a.nextSnapIndexToApply, by simp [Applier.progress, at_pc], lt,
      by simp [ApplierLabel.applies, at_pc], .inr rfl⟩
  · refine .inl ⟨rfl, ?_⟩
    rw [show a.progress = some (a.nextSnapIndexToApply + 1) by simp [Applier.progress, at_pc]]
    unfold Applier.afterRemove
    dsimp only
    split_ifs
    · exact .inl rfl
    · exact .inr rfl
    · exact .inr (Applier.progress_drainFrom _ _ _ _ _ _ _)
  · obtain ⟨next, -, rfl⟩ := Option.map_eq_some'.mp h
    refine .inl ⟨rfl, .inr ?_⟩
    rw [show a.progress = some a.nextSnapIndexToApply by simp [Applier.progress, at_pc]]
    cases next
    · rfl
    · exact Applier.progress_drainFrom _ _ _ _ _ _ _
  · exact .inl ⟨rfl, .inl rfl⟩

/-- The deltas sent to etcd so far are `0, …, k - 1` in this order, `k` is at most the
number of deltas, and it is the applier's progress while it has one. -/
structure Pipeline.AppliedInv (cfg : PipelineConfig) (s : Pipeline) : Prop where
  in_order : s.applied = List.range s.applied.length
  bounded : s.applied.length ≤ cfg.numSnaps
  progress : ∀ k, s.applier.progress = some k → s.applied.length = k

theorem Pipeline.AppliedInv.init (cfg : PipelineConfig) : (Pipeline.init cfg).AppliedInv cfg where
  in_order := rfl
  bounded := Nat.zero_le _
  progress _ h := Option.some.inj h

theorem Pipeline.AppliedInv.of_eq {cfg : PipelineConfig} {s s' : Pipeline} (inv : s.AppliedInv cfg)
    (applied : s'.applied = s.applied) (applier : s'.applier = s.applier) : s'.AppliedInv cfg :=
  ⟨applied ▸ inv.in_order, applied ▸ inv.bounded, applier ▸ applied ▸ inv.progress⟩

theorem Pipeline.AppliedInv.applierStep {cfg : PipelineConfig} {s s' : Pipeline} {o : Outcome}
    (inv : s.AppliedInv cfg) (applierInv : ApplierInv cfg.applier s.applier)
    (h : s.applierStep cfg o = some s') : s'.AppliedInv cfg := by
  obtain ⟨l, step, -, applied, -, -, -⟩ := Pipeline.applierStep_spec h
  rcases Applier.step_progress applierInv step with ⟨none_applied, kept⟩ | ⟨k, at_k, lt, one, moved⟩
  · rw [none_applied, List.append_nil] at applied
    refine ⟨applied ▸ inv.in_order, applied ▸ inv.bounded, fun k hk => applied ▸ ?_⟩
    rcases kept with gone | same
    · exact absurd (gone ▸ hk) nofun
    · exact inv.progress k (same ▸ hk)
  · have after : s'.applied = List.range (k + 1) := by
      rw [applied, one, inv.in_order, inv.progress k at_k, List.range_succ]
    refine ⟨by rw [after, List.length_range], by rw [after, List.length_range]; exact lt, fun k' hk' => ?_⟩
    rcases moved with gone | next
    · exact absurd (gone ▸ hk') nofun
    · rw [after, List.length_range, Option.some.inj (next.symm.trans hk')]

theorem Pipeline.AppliedInv.step {cfg : PipelineConfig} {s s' : Pipeline} {g : Goroutine} {o : Outcome}
    (inv : s.AppliedInv cfg) (applierInv : ApplierInv cfg.applier s.applier) (h : s.step cfg g o = some s') :
    s'.AppliedInv cfg := by
  unfold Pipeline.step at h
  split at h
  · cases h
  rcases g with _ | _ | f | _
  · have frame := Pipeline.orchestratorStep_frame h
    exact inv.of_eq frame.applied frame.applier
  · exact inv.applierStep applierInv h
  · obtain ⟨applied, applier, -, -, -⟩ := Pipeline.fetcherStep_sends h
    exact inv.of_eq applied applier
  · have frame := Pipeline.handlerStep_frame h
    exact inv.of_eq frame.applied frame.applier

theorem PipelineReach.appliedInv {cfg : PipelineConfig} {s : Pipeline} (reach : PipelineReach cfg s) :
    s.AppliedInv cfg := by
  induction reach with
  | init => exact .init cfg
  | step g o reach step ih => exact ih.step reach.applier.inv step

/-! ### Nil comes after the last delta -/

theorem Applier.drainFrom_ne_send (cfg : ApplierConfig) (a : Applier) (cur : Nat) (err : Option String) :
    a.drainFrom cfg cur ≠ .send err := by
  rcases @drainFrom_eq cfg a cur with h | ⟨h, -⟩ <;> rw [h] <;> nofun

theorem Applier.step_send_none {cfg : ApplierConfig} {a a' : Applier} {l : ApplierLabel}
    (h : a.step cfg l = some a') (sending : a'.pc = .send none) :
    (∃ cur, a.pc = .remove cur) ∧ a'.nextSnapIndexToApply = a.nextSnapIndexToApply + 1 ∧
      a'.nextSnapIndexToApply = cfg.remainingSnaps.length := by
  unfold Applier.step at h
  split at h <;> (try cases h) <;> (try cases sending)
  · revert sending
    unfold Applier.receive
    split
    · nofun
    · nofun
    · dsimp only
      split
      · split
        · nofun
        · split
          · exact fun h => absurd h (Applier.drainFrom_ne_send _ _ _ _)
          · nofun
      · nofun
  · rename_i cur file _
    rcases readNext_eq cfg cur (a.pathList.getD cur "") file with ⟨_, h⟩ | ⟨_, h⟩ <;>
      rw [h] at sending <;> cases sending
  · rename_i cur at_remove
    revert sending
    unfold Applier.afterRemove
    dsimp only
    split_ifs with last
    · exact fun _ => ⟨⟨cur, at_remove⟩, rfl, last⟩
    · nofun
    · exact fun h => absurd h (Applier.drainFrom_ne_send _ _ _ _)
  · obtain ⟨next, -, rfl⟩ := Option.map_eq_some'.mp h
    revert sending
    cases next
    · nofun
    · exact fun h => absurd h (Applier.drainFrom_ne_send _ _ _ _)

theorem Applier.step_of_send {cfg : ApplierConfig} {a a' : Applier} {l : ApplierLabel} {err : Option String}
    (at_send : a.pc = .send err) (h : a.step cfg l = some a') : a'.pc = .done := by
  cases l <;> simp [Applier.step, at_send] at h
  rw [← h]

theorem ApplierLabel.applies_remove (l : ApplierLabel) (cur : Nat) : l.applies (.remove cur) = [] := by
  cases l <;> rfl

theorem ApplierLabel.none_mem_sends {l : ApplierLabel} {pc : ApplierPC} (h : none ∈ l.sends pc) :
    pc = .send none := by
  cases l <;> cases pc <;> simp_all [ApplierLabel.sends]

/-- Nil on `errCh` means every delta has been applied, and once it is sent the applier has
returned. -/
structure Pipeline.NilInv (cfg : PipelineConfig) (s : Pipeline) : Prop where
  sending : s.applier.pc = .send none → s.applied = List.range cfg.numSnaps
  sent : none ∈ s.errCh ∨ s.orchestrator.taken = some none →
    s.applier.pc = .done ∧ s.applied = List.range cfg.numSnaps

theorem Pipeline.NilInv.init (cfg : PipelineConfig) : (Pipeline.init cfg).NilInv cfg where
  sending := nofun
  sent := nofun

theorem Pipeline.NilInv.of_applier_eq {cfg : PipelineConfig} {s s' : Pipeline} (inv : s.NilInv cfg)
    (applier : s'.applier = s.applier) (applied : s'.applied = s.applied)
    (nil : none ∈ s'.errCh ∨ s'.orchestrator.taken = some none →
      none ∈ s.errCh ∨ s.orchestrator.taken = some none) : s'.NilInv cfg :=
  ⟨applier ▸ applied ▸ inv.sending, fun h => applier ▸ applied ▸ inv.sent (nil h)⟩

theorem Pipeline.NilInv.applierStep {cfg : PipelineConfig} {s s' : Pipeline} {o : Outcome}
    (inv : s.NilInv cfg) (appliedInv : s.AppliedInv cfg) (h : s.applierStep cfg o = some s') :
    s'.NilInv cfg := by
  obtain ⟨l, step, -, applied, sent, orchestrator, -⟩ := Pipeline.applierStep_spec h
  constructor
  · intro sending
    obtain ⟨⟨cur, at_remove⟩, next, last⟩ := Applier.step_send_none step sending
    have len := appliedInv.progress (s.applier.nextSnapIndexToApply + 1) (by simp [Applier.progress, at_remove])
    rw [applied, at_remove, ApplierLabel.applies_remove, List.append_nil, appliedInv.in_order, len, ← next, last]
    rfl
  · intro nil
    rw [sent, orchestrator, List.mem_append] at nil
    rcases nil with (old | new) | taken
    · exact absurd step (by simp [Applier.step_done (inv.sent (.inl old)).1])
    · have at_send := ApplierLabel.none_mem_sends new
      refine ⟨Applier.step_of_send at_send step, ?_⟩
      rw [applied, at_send]
      cases l <;> simpa [ApplierLabel.applies] using inv.sending at_send
    · exact absurd step (by simp [Applier.step_done (inv.sent (.inr taken)).1])

theorem Pipeline.NilInv.step {cfg : PipelineConfig} {s s' : Pipeline} {g : Goroutine} {o : Outcome}
    (inv : s.NilInv cfg) (appliedInv : s.AppliedInv cfg) (h : s.step cfg g o = some s') : s'.NilInv cfg := by
  unfold Pipeline.step at h
  split at h
  · cases h
  rcases g with _ | _ | f | _
  · have frame := Pipeline.orchestratorStep_frame h
    refine inv.of_applier_eq frame.applier frame.applied fun nil => ?_
    rcases Pipeline.orchestratorStep_taken h with ⟨errCh, taken⟩ | ⟨err, took, taken⟩
    · rwa [errCh, taken] at nil
    · rw [taken] at nil
      rw [took]
      rcases nil with mem | same
      · exact .inl (List.mem_cons_of_mem _ mem)
      · exact .inl (Option.some.inj same ▸ List.mem_cons_self _ _)
  · exact inv.applierStep appliedInv h
  · obtain ⟨applied, applier, orchestrator, errCh, -⟩ := Pipeline.fetcherStep_sends h
    refine inv.of_applier_eq applier applied fun nil => ?_
    rw [orchestrator] at nil
    rcases errCh with same | ⟨err, more⟩
    · rwa [same] at nil
    · simpa [more] using nil
  · have frame := Pipeline.handlerStep_frame h
    obtain ⟨errCh, orchestrator, -⟩ := Pipeline.handlerStep_same h
    exact inv.of_applier_eq frame.applier frame.applied (errCh ▸ orchestrator ▸ id)

theorem PipelineReach.nilInv {cfg : PipelineConfig} {s : Pipeline} (reach : PipelineReach cfg s) :
    s.NilInv cfg := by
  induction reach with
  | init => exact .init cfg
  | step g o reach step ih => exact ih.step reach.appliedInv step

theorem PipelineReach.nil_after_all_applied {cfg : PipelineConfig} {s : Pipeline} (reach : PipelineReach cfg s)
    (returned : s.orchestrator = .returned none) :
    s.applier.pc = .done ∧ s.applied = List.range cfg.numSnaps :=
  reach.nilInv.sent (.inr (by rw [returned]; rfl))

/-! ### Each delta goes to one fetcher at a time -/

def Pipeline.holds (s : Pipeline) (f : Nat) : Option Nat := (s.fetchers[f]?).bind FetcherPC.index

theorem Pipeline.holds_set {s s' : Pipeline} {f : Nat} {pc pc' : FetcherPC} (at_f : s.fetchers[f]? = some pc)
    (updated : s'.fetchers = s.fetchers.set f pc') (g : Nat) :
    s'.holds g = if f = g then pc'.index else s.holds g := by
  have bound := (List.getElem?_eq_some_iff.mp at_f).1
  simp only [Pipeline.holds, updated, List.getElem?_set, bound, if_true]
  split <;> rfl

/-- The deltas on `fetcherInfoCh` and those the fetchers hold have been enqueued, and each is
in one of these places at most once. -/
structure Pipeline.FetchInv (cfg : PipelineConfig) (s : Pipeline) : Prop where
  enqueue_le : ∀ i, s.orchestrator = .enqueue i → i ≤ cfg.numSnaps
  nodup : s.fetcherInfoCh.Nodup
  queued : ∀ j ∈ s.fetcherInfoCh, j < s.orchestrator.enqueued cfg.numSnaps
  held : ∀ f j, s.holds f = some j → j < s.orchestrator.enqueued cfg.numSnaps ∧ j ∉ s.fetcherInfoCh
  distinct : ∀ f g j, s.holds f = some j → s.holds g = some j → f = g

theorem Pipeline.FetchInv.init (cfg : PipelineConfig) : (Pipeline.init cfg).FetchInv cfg where
  enqueue_le _ h := by cases h; exact Nat.zero_le _
  nodup := List.nodup_nil
  queued _ := nofun
  held f _ h := by
    simp only [Pipeline.holds, Pipeline.init, List.getElem?_replicate] at h
    split at h <;> cases h
  distinct f _ _ h := by
    simp only [Pipeline.holds, Pipeline.init, List.getElem?_replicate] at h
    split at h <;> cases h

theorem Pipeline.FetchInv.of_eq {cfg : PipelineConfig} {s s' : Pipeline} (inv : s.FetchInv cfg)
    (fetchers : s'.fetchers = s.fetchers) (orchestrator : s'.orchestrator = s.orchestrator)
    (fetcherInfoCh : s'.fetcherInfoCh = s.fetcherInfoCh) : s'.FetchInv cfg := by
  have holds : s'.holds = s.holds := funext fun f => by simp only [Pipeline.holds, fetchers]
  exact ⟨orchestrator ▸ inv.enqueue_le, fetcherInfoCh ▸ inv.nodup, fetcherInfoCh ▸ orchestrator ▸ inv.queued,
    holds ▸ fetcherInfoCh ▸ orchestrator ▸ inv.held, holds ▸ inv.distinct⟩

theorem Pipeline.FetchInv.orchestratorStep {cfg : PipelineConfig} {s s' : Pipeline} {o : Outcome}
    (inv : s.FetchInv cfg) (h : s.orchestratorStep cfg o = some s') : s'.FetchInv cfg := by
  have holds : s'.holds = s.holds :=
    funext fun f => by simp only [Pipeline.holds, (Pipeline.orchestratorStep_frame h).fetchers]
  rcases Pipeline.orchestratorStep_enqueue h with ⟨i, was, lt, now, channel⟩ | ⟨channel, same | ⟨done, -⟩⟩
  · have enqueued : s.orchestrator.enqueued cfg.numSnaps = i := by rw [was]; rfl
    have enqueued' : s'.orchestrator.enqueued cfg.numSnaps = i + 1 := by rw [now]; rfl
    have fresh : i ∉ s.fetcherInfoCh := fun mem => (inv.queued i mem).ne enqueued.symm
    refine ⟨fun _ h => (OrchestratorPC.enqueue.inj (now.symm.trans h)) ▸ lt, ?_, ?_, ?_, holds ▸ inv.distinct⟩
    · rw [channel]
      exact List.nodup_append.mpr ⟨inv.nodup, List.nodup_singleton i, List.disjoint_singleton.mpr fresh⟩
    · intro j mem
      rw [channel, List.mem_append, List.mem_singleton] at mem
      rw [enqueued']
      rcases mem with old | rfl
      · exact Nat.lt_succ_of_lt (enqueued ▸ inv.queued j old)
      · exact Nat.lt_succ_self j
    · intro f j held
      obtain ⟨below, unqueued⟩ := inv.held f j (holds ▸ held)
      rw [enqueued] at below
      rw [enqueued', channel, List.mem_append, List.mem_singleton]
      exact ⟨Nat.lt_succ_of_lt below, not_or.mpr ⟨unqueued, below.ne⟩⟩
  · exact inv.of_eq (Pipeline.orchestratorStep_frame h).fetchers same channel
  · have enqueued : s.orchestrator.enqueued cfg.numSnaps ≤ s'.orchestrator.enqueued cfg.numSnaps := by
      have not_enqueue : s'.orchestrator.enqueued cfg.numSnaps = cfg.numSnaps := by
        cases now : s'.orchestrator <;> first | rfl | exact absurd now (done _)
      rw [not_enqueue]
      cases was : s.orchestrator <;> first | exact le_refl _ | exact inv.enqueue_le _ was
    refine ⟨fun i h => absurd h (done i), channel ▸ inv.nodup,
      fun j mem => lt_of_lt_of_le (inv.queued j (channel ▸ mem)) enqueued, fun f j held => ?_,
      holds ▸ inv.distinct⟩
    obtain ⟨below, unqueued⟩ := inv.held f j (holds ▸ held)
    exact ⟨lt_of_lt_of_le below enqueued, channel ▸ unqueued⟩

theorem Pipeline.FetchInv.fetcherStep {cfg : PipelineConfig} {s s' : Pipeline} {f : Nat} {o : Outcome}
    (inv : s.FetchInv cfg) (h : s.fetcherStep cfg f o = some s') : s'.FetchInv cfg := by
  obtain ⟨pc, pc', at_f, updated, -, -, -, queue⟩ := Pipeline.fetcherStep_spec h
  have orchestrator := (Pipeline.fetcherStep_sends h).orchestrator
  have holds := Pipeline.holds_set at_f updated
  have was : s.holds f = pc.index := by simp only [Pipeline.holds, at_f, Option.some_bind]
  rcases queue with ⟨channel, kept⟩ | ⟨i, took, none_before, now⟩
  · -- the fetcher keeps its delta or drops it
    have held : ∀ g j, s'.holds g = some j → s.holds g = some j := by
      intro g j held
      rw [holds] at held
      split at held
      · rename_i same
        subst same
        rcases kept with kept | dropped
        · rw [was, ← kept, held]
        · rw [dropped] at held
          cases held
      · exact held
    exact ⟨orchestrator ▸ inv.enqueue_le, channel ▸ inv.nodup, orchestrator ▸ channel ▸ inv.queued,
      fun g j h => orchestrator ▸ channel ▸ inv.held g j (held g j h),
      fun g g' j hg hg' => inv.distinct g g' j (held g j hg) (held g' j hg')⟩
  · -- the fetcher takes delta `i` off the channel
    have nodup := inv.nodup
    rw [took] at nodup
    obtain ⟨unqueued, rest⟩ := List.nodup_cons.mp nodup
    have queued := inv.queued i (took ▸ List.mem_cons_self _ _)
    have held : ∀ g j, s'.holds g = some j → (f = g ∧ j = i) ∨ (f ≠ g ∧ s.holds g = some j) := by
      intro g j held
      rw [holds] at held
      split at held
      · exact .inl ⟨‹_›, (Option.some.inj (now.symm.trans held)).symm⟩
      · exact .inr ⟨‹_›, held⟩
    refine ⟨orchestrator ▸ inv.enqueue_le, rest,
      fun j mem => orchestrator ▸ inv.queued j (took ▸ List.mem_cons_of_mem _ mem), fun g j h => ?_,
      fun g g' j hg hg' => ?_⟩
    · rw [orchestrator]
      rcases held g j h with ⟨-, rfl⟩ | ⟨-, old⟩
      · exact ⟨queued, unqueued⟩
      · obtain ⟨below, unqueued'⟩ := inv.held g j old
        exact ⟨below, fun mem => unqueued' (took ▸ List.mem_cons_of_mem _ mem)⟩
    · rcases held g j hg with ⟨rfl, rfl⟩ | ⟨-, old⟩ <;>
        rcases held g' j hg' with ⟨rfl, same⟩ | ⟨-, old'⟩
      · rfl
      · exact absurd (took ▸ List.mem_cons_self _ _) (inv.held g' j old').2
      · exact absurd (same ▸ took ▸ List.mem_cons_self _ _) (inv.held g j old).2
      · exact inv.distinct g g' j old old'

theorem Pipeline.FetchInv.step {cfg : PipelineConfig} {s s' : Pipeline} {g : Goroutine} {o : Outcome}
    (inv : s.FetchInv cfg) (h : s.step cfg g o = some s') : s'.FetchInv cfg := by
  unfold Pipeline.step at h
  split at h
  · cases h
  rcases g with _ | _ | f | _
  · exact inv.orchestratorStep h
  · obtain ⟨_, move⟩ := Pipeline.applierStep_spec h
    exact inv.of_eq (Pipeline.applierStep_wg h).1 move.orchestrator move.fetcherInfoCh
  · exact inv.fetcherStep h
  · obtain ⟨-, orchestrator, channel⟩ := Pipeline.handlerStep_same h
    exact inv.of_eq (Pipeline.handlerStep_frame h).fetchers orchestrator channel

end EtcdRestore
