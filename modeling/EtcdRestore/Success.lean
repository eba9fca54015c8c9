import EtcdRestore.Delivery

/-! When nothing fails, `applyDeltaSnapshots` returns nil: the applier never sends an error,
every temp file it opens is still on disk and decodes, and no message comes below
`nextSnapIndexToApply`; so whenever it returns, it returns nil with every delta applied in
order, and every schedule where nothing fails gets there. -/
namespace EtcdRestore

/-- The store holds, for every remaining delta, bytes that pass the check of
`readSnapshotContentsFromReadCloser` and decode: a premise about the store. -/
def PipelineConfig.WellFormed (cfg : PipelineConfig) : Prop :=
  ∀ i < cfg.numSnaps, ∃ data events, cfg.Stored i data ∧ cfg.Decodes i data events

theorem PipelineConfig.Stored.unique {cfg : PipelineConfig} {i : Nat} {data data' : List UInt8}
    (stored : cfg.Stored i data) (stored' : cfg.Stored i data') : data = data' := by
  obtain ⟨rc, fetched, rfl⟩ := stored
  obtain ⟨rc', fetched', rfl⟩ := stored'
  exact congrArg Stream.data (Except.ok.inj (fetched.symm.trans fetched'))

/-! ### What the applier does -/

theorem ApplierLabel.mem_sends {l : ApplierLabel} {pc : ApplierPC} {err : Option String} (h : err ∈ l.sends pc) :
    pc = .send err := by
  cases l <;> cases pc <;> simp_all [ApplierLabel.sends]

theorem Applier.step_next {cfg : ApplierConfig} {a a' : Applier} {l : ApplierLabel} (h : a.step cfg l = some a') :
    a'.nextSnapIndexToApply = a.nextSnapIndexToApply ∨ ∃ cur, a.pc = .remove cur ∧ a' = a.afterRemove cfg cur := by
  unfold Applier.step at h
  split at h
  case h_3 =>
    cases h
    unfold Applier.receive
    refine .inl ?_
    split
    · rfl
    · rfl
    · dsimp only
      split_ifs <;> rfl
  case h_7 cur at_remove =>
    cases h
    exact .inr ⟨cur, at_remove, rfl⟩
  case h_8 =>
    obtain ⟨next, -, rfl⟩ := Option.map_eq_some'.mp h
    cases next <;> exact .inl rfl
  all_goals cases h <;> exact .inl rfl

theorem Applier.afterRemove_next (cfg : ApplierConfig) (a : Applier) (cur : Nat) :
    (a.afterRemove cfg cur).nextSnapIndexToApply = a.nextSnapIndexToApply + 1 := by
  unfold Applier.afterRemove
  dsimp only
  split_ifs <;> rfl

theorem Applier.step_send_some {cfg : ApplierConfig} {a a' : Applier} {l : ApplierLabel} {e : String}
    (h : a.step cfg l = some a') (at_send : a'.pc = .send (some e)) :
    (∃ (info : ApplierInfo) (idx : Nat), l = .recv info ∧ info.snapIndex = idx ∧ idx < a.nextSnapIndexToApply) ∨
      (∃ cur, a.pc = .read cur) ∨ ∃ cur events, a.pc = .apply cur events := by
  unfold Applier.step at h
  split at h
  case h_3 info _ =>
    cases h
    revert at_send
    unfold Applier.receive
    split
    · nofun
    · nofun
    · rename_i idx index
      dsimp only
      split_ifs with _ below
      · exact fun _ => .inl ⟨info, idx, rfl, index, below⟩
      · exact fun same => absurd same (Applier.drainFrom_ne_send _ _ _ _)
      · nofun
      · nofun
  case h_4 cur _ at_read => exact .inr (.inl ⟨cur, at_read⟩)
  case h_5 cur events _ at_apply => exact .inr (.inr ⟨cur, events, at_apply⟩)
  case h_7 =>
    cases h
    revert at_send
    unfold Applier.afterRemove
    dsimp only
    split_ifs
    · nofun
    · nofun
    · exact fun same => absurd same (Applier.drainFrom_ne_send _ _ _ _)
  case h_8 =>
    obtain ⟨next, -, rfl⟩ := Option.map_eq_some'.mp h
    revert at_send
    cases next
    · nofun
    · exact fun same => absurd same (Applier.drainFrom_ne_send _ _ _ _)
  all_goals cases h <;> cases at_send

theorem Pipeline.applierStep_files {cfg : PipelineConfig} {s s' : Pipeline} {o : Outcome}
    (h : s.applierStep cfg o = some s') :
    s'.files = s.files ∨ ∃ cur, s.applier.pc = .remove cur ∧ s'.applier = s.applier.afterRemove cfg.applier cur ∧
      s'.files = removeFile (s.applier.pathList.getD cur "") s.files := by
  unfold Pipeline.applierStep at h
  repeat' split at h
  all_goals first
    | cases h
    | obtain ⟨a, step, rfl⟩ := Option.map_eq_some'.mp h
      first
        | exact .inl rfl
        | refine .inr ⟨_, ‹_›, ?_, rfl⟩
          simp only [Applier.step, ‹s.applier.pc = _›, Option.some.injEq] at step
          exact step.symm

theorem Pipeline.applierStep_apply {cfg : PipelineConfig} {s s' : Pipeline} {o : Outcome} {cur : Nat}
    {events : List Event} (at_apply : s.applier.pc = .apply cur events) (h : s.applierStep cfg o = some s') :
    ∃ r, o = .applied r ∧ s.applier.step cfg.applier (.apply r) = some s'.applier := by
  unfold Pipeline.applierStep at h
  cases o
  case applied r =>
    simp only [at_apply] at h
    obtain ⟨a, step, rfl⟩ := Option.map_eq_some'.mp h
    exact ⟨r, rfl, step⟩
  all_goals simp [at_apply, Applier.step] at h

/-! ### The temp files stay until they are read -/

def FetcherPC.persisted : FetcherPC → Option Nat
  | .sendLocation i | .sendInfo i => some i
  | _ => none

theorem FetcherPC.index_of_persisted {pc : FetcherPC} {i : Nat} (h : pc.persisted = some i) : pc.index = some i := by
  cases pc <;> cases h <;> rfl

/-- Delta `i` is past its persist and not applied yet: a fetcher, `applierInfoCh` or the
applier's `pathList` has it. -/
def Pipeline.Pending (cfg : PipelineConfig) (s : Pipeline) (i : Nat) : Prop :=
  (∃ pc ∈ s.fetchers, pc.persisted = some i) ∨ (⟨cfg.snapTempFilePath i, i⟩ : ApplierInfo) ∈ s.applierInfoCh ∨
    (s.applier.nextSnapIndexToApply ≤ i ∧ s.applier.pathList.getD i "" ≠ "")

/-- What a run in which nothing fails keeps: the temp file of every pending delta is on disk,
and only nil is on `errCh` or taken from it. -/
structure Pipeline.Succeeding (cfg : PipelineConfig) (s : Pipeline) : Prop where
  present : s.orchestrator.taken = none → ∀ i < cfg.numSnaps, s.Pending cfg i →
    cfg.snapTempFilePath i ∈ s.files.map Prod.fst
  errCh : ∀ err ∈ s.errCh, err = none
  taken : ∀ err, s.orchestrator.taken = some err → err = none
  sending : ∀ err, s.applier.pc = .send err → err = none

section Succeeding

variable {cfg : PipelineConfig} {s s' : Pipeline}

theorem Pipeline.Succeeding.init (cfg : PipelineConfig) : (Pipeline.init cfg).Succeeding cfg where
  present _ i _ := by
    rintro (⟨pc, mem, persisted⟩ | sent | ⟨-, recorded⟩)
    · rw [List.eq_of_mem_replicate mem] at persisted
      cases persisted
    · exact absurd sent (List.not_mem_nil _)
    · exact absurd (by rw [List.getD_eq_getElem?_getD]; exact List.getElem?_getD_replicate_default_eq _ _ _) recorded
  errCh _ := nofun
  taken _ := nofun
  sending _ := nofun

theorem FetcherMove.keeps_pending {pc pc' : FetcherPC} {o : Outcome} {t : Pipeline}
    (move : FetcherMove cfg s pc o t pc') (healthy : pc.healthy = true) :
    t.errCh = s.errCh ∧ (∀ p ∈ s.files.map Prod.fst, p ∈ t.files.map Prod.fst) ∧
      (∀ i, pc'.persisted = some i → pc.persisted = some i ∨ cfg.snapTempFilePath i ∈ t.files.map Prod.fst) ∧
      ∀ info ∈ t.applierInfoCh, info ∈ s.applierInfoCh ∨
        ∃ i, pc.persisted = some i ∧ info = ⟨cfg.snapTempFilePath i, i⟩ := by
  have written : ∀ path data, ∀ p ∈ s.files.map Prod.fst, p ∈ (writeFile path data s.files).map Prod.fst :=
    fun path data p mem => mem_writeFile.mpr (or_iff_not_imp_left.mpr fun other => ⟨mem, other⟩)
  cases move
  case readFailed failed => simp [FetcherPC.healthy, failed] at healthy
  case sendFetchError | fetchSentinel | readNil | sendPersistError | persistSentinel => cases healthy
  case persisted =>
    refine ⟨rfl, written _ _, fun i h => .inr ?_, fun info mem => .inl mem⟩
    cases h
    exact mem_writeFile.mpr (.inl rfl)
  case closeFailed => exact ⟨rfl, written _ _, fun _ h => (by cases h), fun info mem => .inl mem⟩
  case sendInfo i _ =>
    refine ⟨rfl, fun _ => id, fun _ h => (by cases h), fun info mem => ?_⟩
    rcases List.mem_append.mp mem with old | new
    · exact .inl old
    · exact .inr ⟨i, rfl, List.mem_singleton.mp new⟩
  all_goals exact ⟨rfl, fun _ => id, fun _ h => .inl h, fun info mem => .inl mem⟩

theorem Pipeline.Succeeding.fetcherMove {f : Nat} {pc pc' : FetcherPC} {o : Outcome} {t : Pipeline}
    (healthy : s.Healthy cfg) (inv : s.Succeeding cfg) (at_f : s.fetchers[f]? = some pc)
    (move : FetcherMove cfg s pc o t pc') : ({ t with fetchers := s.fetchers.set f pc' } : Pipeline).Succeeding cfg := by
  have mem := List.getElem?_mem at_f
  obtain ⟨errCh, files, persisted, infos⟩ := move.keeps_pending (healthy.fetchers pc mem)
  obtain ⟨orchestrator, applier, -⟩ := move.frame
  refine ⟨fun waiting i lt pending => ?_, fun err sent => inv.errCh err (errCh ▸ sent),
    fun err taken => inv.taken err (orchestrator ▸ taken), fun err at_send => inv.sending err (applier ▸ at_send)⟩
  have old : s.Pending cfg i ∨ cfg.snapTempFilePath i ∈ t.files.map Prod.fst := by
    rcases pending with ⟨q, mem', h⟩ | sent | recorded
    · rcases List.mem_or_eq_of_mem_set mem' with old | rfl
      · exact .inl (.inl ⟨q, old, h⟩)
      · exact (persisted i h).imp_left fun h => .inl ⟨pc, mem, h⟩
    · rcases infos _ sent with old | ⟨j, h, same⟩
      · exact .inl (.inr (.inl old))
      · obtain rfl : i = j := by simpa using congrArg ApplierInfo.snapIndex same
        exact .inl (.inl ⟨pc, mem, h⟩)
    · exact .inl (.inr (.inr (applier ▸ recorded)))
  exact old.elim (fun pending => files _ (inv.present (orchestrator ▸ waiting) i lt pending)) id

theorem Pipeline.Succeeding.orchestratorMove {o : Outcome} (inv : s.Succeeding cfg)
    (move : OrchestratorMove cfg s o s') : s'.Succeeding cfg := by
  obtain ⟨applier, fetchers, -, -, infos, -⟩ := move.frame
  have taken := Pipeline.orchestratorStep_taken (Pipeline.orchestratorStep_iff.mpr move)
  refine ⟨fun waiting i lt pending => ?_, fun err sent => ?_, fun err at_taken => ?_,
    fun err at_send => inv.sending err (applier ▸ at_send)⟩
  · have was_none : s.orchestrator.taken = none := by
      rcases taken with ⟨-, same⟩ | ⟨_, -, took⟩
      · exact same ▸ waiting
      · rw [took] at waiting
        cases waiting
    have pending : s.Pending cfg i := by simpa only [Pipeline.Pending, applier, fetchers, infos] using pending
    cases move
    case remove at_pc _ _ => simp [at_pc, OrchestratorPC.taken] at was_none
    all_goals exact inv.present was_none i lt pending
  · rcases taken with ⟨same, -⟩ | ⟨_, queued, -⟩
    · exact inv.errCh err (same ▸ sent)
    · exact inv.errCh err (queued ▸ List.mem_cons_of_mem _ sent)
  · rcases taken with ⟨-, same⟩ | ⟨_, queued, took⟩
    · exact inv.taken err (same ▸ at_taken)
    · obtain rfl := Option.some.inj (took.symm.trans at_taken)
      exact inv.errCh _ (queued ▸ List.mem_cons_self _ _)

theorem Pipeline.Succeeding.handlerStep {o : Outcome} (inv : s.Succeeding cfg) (h : s.handlerStep o = some s') :
    s'.Succeeding cfg := by
  unfold Pipeline.handlerStep at h
  repeat' split at h
  all_goals cases h
  all_goals exact ⟨inv.present, inv.errCh, inv.taken, inv.sending⟩

theorem Pipeline.Succeeding.read_decodes (distinct : cfg.tempPaths.Nodup)
    (wellFormed : cfg.WellFormed) (reach : PipelineReach cfg s) (healthy : s.Healthy cfg) (content : s.ContentInv cfg)
    (inv : s.Succeeding cfg) {cur : Nat} (at_read : s.applier.pc = .read cur) :
    ∃ events, readNext cfg.applier cur (s.applier.pathList.getD cur "")
      (openFile s.files (s.applier.pathList.getD cur "")) = .apply cur events := by
  obtain ⟨rfl, lt⟩ := reach.applier.inv.read cur at_read
  have recorded := reach.pathsInv.reading _ at_read
  have waiting : s.orchestrator.taken = none := by
    have errCh := healthy.errCh
    rw [at_read] at errCh
    cases taken : s.orchestrator.taken
    · rfl
    · simp [taken] at errCh
  have present := inv.present waiting _ lt (.inr (.inr ⟨le_refl _, recorded⟩))
  rw [(reach.pathsInv.own _).resolve_left recorded]
  obtain ⟨data, found⟩ := Option.isSome_iff_exists.mp (lookup_isSome_of_mem present)
  obtain ⟨i, lt_i, same, stored⟩ := content.files healthy.running _ data (mem_of_lookup found)
  obtain rfl := PipelineConfig.snapTempFilePath_inj distinct lt lt_i same
  obtain ⟨data', events, stored', eventsData, checked, decoded⟩ := wellFormed _ lt
  obtain rfl := stored.unique stored'
  exact ⟨events, by rw [openFile, found]; exact readNext_ok checked decoded⟩

theorem Pipeline.Succeeding.applierStep_present (distinct : cfg.tempPaths.Nodup)
    (reach : PipelineReach cfg s) (healthy : s.Healthy cfg) (inv : s.Succeeding cfg) {o : Outcome}
    (h : s.applierStep cfg o = some s') (waiting : s'.orchestrator.taken = none) (i : Nat) (lt : i < cfg.numSnaps)
    (pending : s'.Pending cfg i) : cfg.snapTempFilePath i ∈ s'.files.map Prod.fst := by
  obtain ⟨l, move⟩ := Pipeline.applierStep_spec h
  have frame := Pipeline.applierStep_frame h
  have kept : ∀ {info}, info ∈ s'.applierInfoCh → info ∈ s.applierInfoCh := fun sent => by
    rw [move.received]
    exact List.mem_append_right _ sent
  have old : s.Pending cfg i := by
    rcases pending with ⟨pc, mem, persisted⟩ | sent | ⟨above, recorded⟩
    · exact .inl ⟨pc, frame.fetchers ▸ mem, persisted⟩
    · exact .inr (.inl (kept sent))
    · have next_le : s.applier.nextSnapIndexToApply ≤ s'.applier.nextSnapIndexToApply := by
        rcases Applier.step_next move.step with same | ⟨cur, -, after⟩
        · exact same.ge
        · rw [after, Applier.afterRemove_next]
          exact Nat.le_succ _
      rcases Applier.step_pathList move.step with same | ⟨info, recv, idx, index, set⟩
      · exact .inr (.inr ⟨le_trans next_le above, same ▸ recorded⟩)
      · by_cases at_idx : idx = i
        · subst at_idx
          have sent : info ∈ s.applierInfoCh := by
            rw [move.received, recv]
            exact List.mem_cons_self _ _
          obtain ⟨j, -, rfl⟩ := healthy.infos info sent
          obtain rfl : idx = j := by simpa using index.symm
          exact .inr (.inl sent)
        · rw [set, List.getD_eq_getElem?_getD, List.getElem?_set_ne at_idx, ← List.getD_eq_getElem?_getD] at recorded
          exact .inr (.inr ⟨le_trans next_le above, recorded⟩)
  have present := inv.present (frame.orchestrator ▸ waiting) i lt old
  rcases Pipeline.applierStep_files h with same | ⟨cur, at_remove, after, removed⟩
  · exact same ▸ present
  · obtain ⟨rfl, lt_cur⟩ := reach.applier.inv.remove cur at_remove
    have recorded := reach.filled.current _ (by rw [at_remove]; rfl)
    have other : i ≠ s.applier.nextSnapIndexToApply := by
      rintro rfl
      obtain ⟨alone_sent, alone_held⟩ := reach.recorded_alone recorded
      rcases pending with ⟨pc, mem, persisted⟩ | sent | ⟨above, -⟩
      · exact alone_held pc (frame.fetchers ▸ mem) (FetcherPC.index_of_persisted persisted)
      · exact alone_sent _ (kept sent) rfl
      · rw [after, Applier.afterRemove_next] at above
        omega
    rw [removed, mem_removeFile, (reach.pathsInv.own _).resolve_left recorded]
    exact ⟨present, fun same => other (PipelineConfig.snapTempFilePath_inj distinct lt lt_cur same)⟩

theorem Pipeline.Succeeding.applierStep (distinct : cfg.tempPaths.Nodup)
    (wellFormed : cfg.WellFormed) (reach : PipelineReach cfg s) (healthy : s.Healthy cfg) (content : s.ContentInv cfg)
    (inv : s.Succeeding cfg) {o : Outcome} (ok : ∀ r, o = .applied r → r = .ok ())
    (h : s.applierStep cfg o = some s') : s'.Succeeding cfg := by
  obtain ⟨l, move⟩ := Pipeline.applierStep_spec h
  have frame := Pipeline.applierStep_frame h
  refine ⟨fun waiting => inv.applierStep_present distinct reach healthy h waiting, fun err sent => ?_,
    fun err taken => inv.taken err (frame.orchestrator ▸ taken), fun err at_send => ?_⟩
  · rw [move.sent, List.mem_append] at sent
    rcases sent with old | new
    · exact inv.errCh err old
    · exact inv.sending err (ApplierLabel.mem_sends new)
  cases err with
  | none => rfl
  | some e =>
    exfalso
    rcases Applier.step_send_some move.step at_send with
      ⟨info, idx, recv, index, below⟩ | ⟨cur, at_read⟩ | ⟨cur, events, at_apply⟩
    · have sent : info ∈ s.applierInfoCh := by
        rw [move.received, recv]
        exact List.mem_cons_self _ _
      exact Nat.not_le_of_lt below (reach.sent_unrecorded sent index).2
    · obtain ⟨events, decoded⟩ := inv.read_decodes distinct wellFormed reach healthy content at_read
      have at_pc : s'.applier.pc = readNext cfg.applier cur (s.applier.pathList.getD cur "")
          (openFile s.files (s.applier.pathList.getD cur "")) := by
        rw [Pipeline.applierStep_read at_read h]
      rw [at_pc, decoded] at at_send
      cases at_send
    · obtain ⟨r, rfl, step⟩ := Pipeline.applierStep_apply at_apply h
      rw [ok r rfl] at step
      simp only [Applier.step, at_apply, Option.some.injEq] at step
      rw [← step] at at_send
      cases at_send

theorem Pipeline.Succeeding.step (distinct : cfg.tempPaths.Nodup)
    (wellFormed : cfg.WellFormed) (reach : PipelineReachUnder cfg (Pipeline.Succeeds cfg) s) (inv : s.Succeeding cfg)
    {g : Goroutine} {o : Outcome} (ok : s.Succeeds cfg g o) (h : s.step cfg g o = some s') : s'.Succeeding cfg := by
  have healthy := (reach.mono fun _ _ _ ok => ok.2.1).healthy
  rcases g with _ | _ | f | _
  · exact inv.orchestratorMove (Pipeline.step_orchestrator_move h).2
  · rw [Pipeline.step_applier_eq healthy.running] at h
    exact inv.applierStep distinct wellFormed reach.reach healthy
      ((reach.mono fun _ _ _ ok => ok.1).contentInv distinct) ok.2.2 h
  · obtain ⟨-, pc, t, pc', at_f, move, rfl⟩ := Pipeline.step_fetcher_move h
    exact inv.fetcherMove healthy at_f move
  · rw [Pipeline.step_handler_eq healthy.running] at h
    exact inv.handlerStep h

theorem PipelineReachUnder.succeeding (distinct : cfg.tempPaths.Nodup)
    (wellFormed : cfg.WellFormed) (reach : PipelineReachUnder cfg (Pipeline.Succeeds cfg) s) : s.Succeeding cfg := by
  induction reach with
  | init => exact .init cfg
  | step g o reach ok step ih => exact ih.step distinct wellFormed reach ok step

end Succeeding

/-- The store answers the `Fetch` of every remaining delta with a stream that reads to its end. -/
def PipelineConfig.Serves (cfg : PipelineConfig) : Prop :=
  ∀ i < cfg.numSnaps, ∃ rc, cfg.applier.restorer.store.fetch (cfg.applier.snap i) = .ok rc ∧ rc.readError = none

theorem Pipeline.CanMove.succeeds {cfg : PipelineConfig} {s : Pipeline} {g : Goroutine} (serves : cfg.Serves)
    (reach : PipelineReach cfg s) (moves : s.CanMove cfg g) : ∃ o s', s.Succeeds cfg g o ∧ s.step cfg g o = some s' := by
  obtain ⟨o, ok, isSome⟩ := moves
  obtain ⟨s', step⟩ := Option.isSome_iff_exists.mp isSome
  have running := Pipeline.step_not_crashed step
  cases o
  case fetched r =>
    rcases g with _ | _ | f | _
    · simp [Pipeline.step, Pipeline.orchestratorStep] at step
    · simp [Pipeline.step, Pipeline.applierStep] at step
    · obtain ⟨-, pc, t, pc', at_f, move, rfl⟩ := Pipeline.step_fetcher_move step
      obtain ⟨i, rfl⟩ : ∃ i, pc = .fetch i := by cases move <;> exact ⟨_, rfl⟩
      obtain ⟨rc, fetched, ready⟩ :=
        serves i (reach.fetchInv.held_lt (f := f) (by simp [Pipeline.holds, at_f, FetcherPC.index]))
      refine ⟨.fetched (.ok rc), _, ⟨fun j at_j => ?_, ⟨rc, rfl, ready⟩, nofun⟩, Pipeline.step_fetcher running at_f rfl⟩
      obtain rfl : i = j := by simpa [at_f] using at_j
      exact fetched.symm
    · simp [Pipeline.step, Pipeline.handlerStep] at step
  case applied r =>
    rcases g with _ | _ | f | _
    · simp [Pipeline.step, Pipeline.orchestratorStep] at step
    · rw [Pipeline.step_applier_eq running] at step
      simp only [Pipeline.applierStep] at step
      split at step
      · rename_i cur events at_apply
        obtain ⟨s'', accepted⟩ := Option.isSome_iff_exists.mp (show (s.step cfg .applier (.applied (.ok ()))).isSome by
          simp [Pipeline.step, running, Pipeline.applierStep, at_apply, Applier.step])
        exact ⟨.applied (.ok ()), s'', ⟨trivial, trivial, fun _ h => (Outcome.applied.inj h).symm⟩, accepted⟩
      · cases step
    · obtain ⟨-, pc, t, pc', -, move, -⟩ := Pipeline.step_fetcher_move step
      cases move
    · simp [Pipeline.step, Pipeline.handlerStep] at step
  all_goals exact ⟨_, s', ⟨by cases g <;> trivial, ok, nofun⟩, step⟩

/-- Every schedule in which nothing fails, followed while a step is possible, ends with
`applyDeltaSnapshots` returned nil and every delta applied in order. -/
inductive Pipeline.ReturnsNil (cfg : PipelineConfig) : Pipeline → Prop where
  | returned {s : Pipeline} : s.orchestrator = .returned none → s.applied = List.range cfg.numSnaps →
      Pipeline.ReturnsNil cfg s
  | step {s : Pipeline} : (∃ g o s', s.Succeeds cfg g o ∧ s.step cfg g o = some s') →
      (∀ g o s', s.Succeeds cfg g o → s.step cfg g o = some s' → Pipeline.ReturnsNil cfg s') →
      Pipeline.ReturnsNil cfg s

theorem PipelineReachUnder.returnsNil_of_potential_lt {cfg : PipelineConfig} (fetchers : 0 < cfg.maxFetchers)
    (deltas : 0 < cfg.numSnaps) (distinct : cfg.tempPaths.Nodup)
    (wellFormed : cfg.WellFormed) (serves : cfg.Serves) : ∀ (n : Nat) {s : Pipeline}, s.potential cfg < n →
      PipelineReachUnder cfg (Pipeline.Succeeds cfg) s → Pipeline.ReturnsNil cfg s
  | 0, _, lt, _ => absurd lt (Nat.not_lt_zero _)
  | n + 1, _, lt, reach =>
    ((reach.mono fun _ _ _ ok => ok.2.1).returned_or_moves fetchers deltas).elim
      (fun ⟨err, returned⟩ => by
        obtain rfl := (reach.succeeding distinct wellFormed).taken err (by rw [returned]; rfl)
        exact .returned returned (reach.reach.nil_after_all_applied returned).2)
      fun ⟨_, moves⟩ => .step ⟨_, moves.succeeds serves reach.reach⟩ fun g o _ ok step =>
        returnsNil_of_potential_lt fetchers deltas distinct wellFormed serves n
          (by have := reach.reach.potential_lt step; omega) (.step g o reach ok step)

/-- With a fetcher, a delta, distinct temp paths and a store whose streams read and decode,
every schedule in which nothing fails runs to `applyDeltaSnapshots` returning nil. -/
theorem Pipeline.init_returnsNil {cfg : PipelineConfig} (fetchers : 0 < cfg.maxFetchers) (deltas : 0 < cfg.numSnaps)
    (distinct : cfg.tempPaths.Nodup) (wellFormed : cfg.WellFormed)
    (serves : cfg.Serves) : Pipeline.ReturnsNil cfg (.init cfg) :=
  PipelineReachUnder.returnsNil_of_potential_lt fetchers deltas distinct wellFormed serves _ (Nat.lt_succ_self _) .init

theorem oneDelta_wellFormed : oneDelta.WellFormed := fun i lt => by
  obtain rfl : i = 0 := Nat.lt_one_iff.mp lt
  exact ⟨_, [], ⟨_, rfl, rfl⟩, _, rfl, rfl⟩

theorem one_delta_always_returns_nil : Pipeline.ReturnsNil oneDelta (.init oneDelta) :=
  Pipeline.init_returnsNil (by decide) (by decide) (by decide) oneDelta_wellFormed
    fun i lt => ⟨_, rfl, rfl⟩

end EtcdRestore
