import EtcdRestore.Progress

/-! Every run of the pipeline ends. A potential counts, with margins, the steps each goroutine
has left and prices each message at what its receiver spends on it; every step lowers it, so
a schedule from the start has at most as many steps as the start's potential. -/
namespace EtcdRestore

/-! ### Potentials -/

/-- What a fetcher can still do before it next takes a delta, with room for what it sends:
ten for a message on `applierInfoCh`, one for one on `errCh` or `snapLocationsCh`. -/
def FetcherPC.potential : FetcherPC → Nat
  | .start => 2
  | .range => 1
  | .select _ => 43
  | .fetch _ => 42
  | .fetchFailed _ _ => 41
  | .fetchSentinel _ => 39
  | .persist _ _ => 28
  | .persistFailed _ _ => 27
  | .persistSentinel _ => 25
  | .sendLocation _ => 14
  | .sendInfo _ => 12
  | .done => 0

def LeanPC.potential (endPoints : Nat) : LeanPC → Nat
  | .compact _ => 8 * endPoints + 10
  | .status => 8 * endPoints + 8
  | .alarm _ rest => 8 * rest.length + 6
  | .disarm _ rest => 8 * rest.length + 4
  | .defragStatus _ rest => 8 * rest.length

def ApplierPC.potential (endPoints : Nat) : ApplierPC → Nat
  | .start | .send _ => 4
  | .select => 2
  | .read _ => 10
  | .apply _ _ => 8
  | .remove _ => 6
  | .lean _ pc => 12 + pc.potential endPoints
  | .done | .crashed => 0

/-- The applier's remaining deltas, each priced at a whole round of the inner loop, and its
point in the current one. -/
def Applier.potential (cfg : ApplierConfig) (a : Applier) : Nat :=
  (8 * cfg.lean.endPoints.length + 18) * (cfg.remainingSnaps.length - a.nextSnapIndexToApply) +
    a.pc.potential cfg.lean.endPoints.length

def HandlerPC.potential : HandlerPC → Nat
  | .select | .defrag _ => 2
  | .reply _ => 1
  | .done => 0

/-- The pipeline's potential: the orchestrator's remaining work, every goroutine's potential,
the priced messages, and one while nothing has panicked. -/
def Pipeline.potential (cfg : PipelineConfig) (s : Pipeline) : Nat :=
  44 * (cfg.numSnaps - s.orchestrator.enqueued cfg.numSnaps) + (7 - s.orchestrator.phase) +
    43 * s.fetcherInfoCh.length + (s.fetchers.map FetcherPC.potential).sum + 10 * s.applierInfoCh.length +
    s.applier.potential cfg.applier + s.handler.potential + s.snapLocationsCh.length + s.errCh.length +
    (if s.crashed then 0 else 1)

/-! ### Each step lowers the potential -/

theorem sum_map_set {α : Type} (F : α → Nat) :
    ∀ {l : List α} {i : Nat} {a : α} (b : α), l[i]? = some a →
      ((l.set i b).map F).sum + F a = (l.map F).sum + F b
  | _ :: _, 0, _, _, at_i => by
    simp only [List.getElem?_cons_zero, Option.some.injEq] at at_i
    subst at_i
    simp only [List.set_cons_zero, List.map_cons, List.sum_cons]
    omega
  | _ :: _, _ + 1, _, b, at_i => by
    have := sum_map_set F b (by simpa using at_i)
    simp only [List.set_cons_succ, List.map_cons, List.sum_cons]
    omega

theorem FetcherMove.potential_lt {cfg : PipelineConfig} {s t : Pipeline} {pc pc' : FetcherPC} {o : Outcome}
    (running : s.crashed = false) (move : FetcherMove cfg s pc o t pc') :
    43 * t.fetcherInfoCh.length + 10 * t.applierInfoCh.length + t.snapLocationsCh.length + t.errCh.length +
        (if t.crashed then 0 else 1) + pc'.potential <
      43 * s.fetcherInfoCh.length + 10 * s.applierInfoCh.length + s.snapLocationsCh.length + s.errCh.length +
        (if s.crashed then 0 else 1) + pc.potential := by
  cases move <;> simp [FetcherPC.potential, running, *] <;> omega

theorem leanStep_potential {cfg : LeanConfig} {pc pc' : LeanPC} {l : LeanLabel}
    (h : leanStep cfg pc l = some (.next pc')) :
    pc'.potential cfg.endPoints.length + 2 ≤ pc.potential cfg.endPoints.length := by
  have next_alarm : ∀ {eps : List String}, alarmNext eps = .next pc' →
      pc'.potential cfg.endPoints.length + 2 = 8 * eps.length := by
    rintro (_ | ⟨ep, rest⟩) next <;> simp only [alarmNext, reduceCtorEq, LeanNext.next.injEq] at next
    subst next
    simp only [LeanPC.potential, List.length_cons]
    omega
  rcases pc with _ | _ | ⟨ep, rest⟩ | ⟨ep, rest⟩ | ⟨ep, rest⟩ <;>
    rcases l with ⟨_ | _⟩ | ⟨_ | st⟩ | _ | ⟨_ | _⟩ | _ <;>
    simp only [leanStep, reduceCtorEq, Option.some.injEq, LeanNext.next.injEq, Bool.false_eq_true, ↓reduceIte] at h
  · subst h
    simp only [LeanPC.potential]
    omega
  · split at h
    · rw [LeanPC.potential, ← next_alarm h]
      omega
    · cases h
  · subst h
    simp only [LeanPC.potential]
    omega
  · subst h
    simp only [LeanPC.potential]
    omega
  · rw [LeanPC.potential, ← next_alarm h]

theorem Applier.drainFrom_potential (cfg : ApplierConfig) (a : Applier) (cur endPoints : Nat) :
    (a.drainFrom cfg cur).potential endPoints ≤ 10 := by
  rcases @drainFrom_eq cfg a cur with h | ⟨h, -⟩ <;> rw [h] <;> simp [ApplierPC.potential]

theorem Applier.receive_potential (cfg : ApplierConfig) (a : Applier) (info : ApplierInfo) (endPoints : Nat) :
    (a.receive cfg info).nextSnapIndexToApply = a.nextSnapIndexToApply ∧
      (a.receive cfg info).pc.potential endPoints ≤ 10 := by
  unfold Applier.receive
  split
  · exact ⟨rfl, by simp [ApplierPC.potential]⟩
  · exact ⟨rfl, by simp [ApplierPC.potential]⟩
  · split
    · dsimp only
      split_ifs
      · exact ⟨rfl, by simp [ApplierPC.potential]⟩
      · exact ⟨rfl, Applier.drainFrom_potential _ _ _ _⟩
      · exact ⟨rfl, by simp [ApplierPC.potential]⟩
    · exact ⟨rfl, by simp [ApplierPC.potential]⟩

theorem readNext_potential (cfg : ApplierConfig) (cur : Nat) (filePath : String) (file : Except String Stream)
    (endPoints : Nat) : (readNext cfg cur filePath file).potential endPoints ≤ 8 := by
  rcases readNext_eq cfg cur filePath file with ⟨_, h⟩ | ⟨_, h⟩ <;> rw [h] <;> simp [ApplierPC.potential]

theorem Applier.afterRemove_potential {cfg : ApplierConfig} {a : Applier} {cur : Nat} (inv : ApplierInv cfg a)
    (at_remove : a.pc = .remove cur) : (a.afterRemove cfg cur).potential cfg + 2 ≤ a.potential cfg := by
  obtain ⟨rfl, lt⟩ := inv.remove cur at_remove
  have after : (a.afterRemove cfg a.nextSnapIndexToApply).nextSnapIndexToApply = a.nextSnapIndexToApply + 1 ∧
      (a.afterRemove cfg a.nextSnapIndexToApply).pc.potential cfg.lean.endPoints.length ≤
        8 * cfg.lean.endPoints.length + 22 := by
    unfold Applier.afterRemove
    dsimp only
    split_ifs
    · exact ⟨rfl, by simp [ApplierPC.potential]⟩
    · exact ⟨rfl, by simp [ApplierPC.potential, LeanPC.potential]; omega⟩
    · exact ⟨rfl, le_trans (Applier.drainFrom_potential _ _ _ _) (by omega)⟩
  have remaining : cfg.remainingSnaps.length - a.nextSnapIndexToApply =
      cfg.remainingSnaps.length - (a.nextSnapIndexToApply + 1) + 1 := by omega
  rw [Applier.potential, Applier.potential, after.1, at_remove, remaining, Nat.mul_succ]
  have := after.2
  simp only [ApplierPC.potential] at this ⊢
  omega

theorem Applier.afterLean_potential (cfg : ApplierConfig) (a : Applier) (cur : Nat) (next : LeanNext) (endPoints : Nat) :
    (a.afterLean cfg cur next).nextSnapIndexToApply = a.nextSnapIndexToApply ∧
      ((∃ pc, next = .next pc ∧ (a.afterLean cfg cur next).pc = .lean cur pc) ∨
        (a.afterLean cfg cur next).pc.potential endPoints ≤ 10) := by
  cases next with
  | next pc => exact ⟨rfl, .inl ⟨pc, rfl, rfl⟩⟩
  | returned r => exact ⟨rfl, .inr (Applier.drainFrom_potential _ _ _ _)⟩

theorem Applier.step_potential {cfg : ApplierConfig} {a a' : Applier} {l : ApplierLabel}
    (inv : ApplierInv cfg a) (step : a.step cfg l = some a') :
    a'.potential cfg + 2 + (l.sends a.pc).length ≤ a.potential cfg + 10 * l.received.length := by
  unfold Applier.step at step
  split at step <;> (try cases step) <;> rename_i at_pc <;>
    simp only [ApplierLabel.sends, ApplierLabel.received, List.length_nil, List.length_singleton]
  case h_3.refl info =>
    obtain ⟨next, low⟩ := Applier.receive_potential cfg a info cfg.lean.endPoints.length
    simp only [Applier.potential, next, at_pc, ApplierPC.potential] at low ⊢
    omega
  case h_4.refl cur file =>
    have low := readNext_potential cfg cur (a.pathList.getD cur "") file cfg.lean.endPoints.length
    simp only [Applier.potential, at_pc, ApplierPC.potential] at low ⊢
    omega
  case h_7.refl cur =>
    have := Applier.afterRemove_potential inv at_pc
    omega
  case h_8 cur pc ll =>
    obtain ⟨next, lstep, rfl⟩ := Option.map_eq_some'.mp step
    obtain ⟨same, ⟨pc', rfl, at_pc'⟩ | low⟩ := Applier.afterLean_potential cfg a cur next cfg.lean.endPoints.length
    · have lowers := leanStep_potential lstep
      simp only [Applier.potential, same, at_pc, at_pc', ApplierPC.potential]
      omega
    · rw [Applier.potential, Applier.potential, same, at_pc]
      have in_lean : (ApplierPC.lean cur pc).potential cfg.lean.endPoints.length = 12 + pc.potential _ := rfl
      omega
  all_goals
    simp only [Applier.potential, at_pc, ApplierPC.potential, List.length_singleton]
    omega

theorem OrchestratorMove.potential_lt {cfg : PipelineConfig} {s s' : Pipeline} {o : Outcome}
    (move : OrchestratorMove cfg s o s') : s'.potential cfg < s.potential cfg := by
  cases move <;>
    simp only [Pipeline.potential, OrchestratorPC.enqueued, OrchestratorPC.phase, List.length_append,
      List.length_cons, List.length_singleton, List.length_nil, *] <;>
    omega

theorem Pipeline.fetcherStep_potential_lt {cfg : PipelineConfig} {s s' : Pipeline} {f : Nat} {o : Outcome}
    (h : s.step cfg (.fetcher f) o = some s') : s'.potential cfg < s.potential cfg := by
  obtain ⟨running, pc, t, pc', at_f, move, rfl⟩ := Pipeline.step_fetcher_move h
  obtain ⟨orchestrator, applier, handler, -⟩ := move.frame
  have drop := move.potential_lt running
  have sum := sum_map_set FetcherPC.potential pc' at_f
  simp only [Pipeline.potential, orchestrator, applier, handler]
  omega

theorem Pipeline.applierStep_potential_lt {cfg : PipelineConfig} {s s' : Pipeline} {o : Outcome}
    (inv : ApplierInv cfg.applier s.applier) (running : s.crashed = false) (h : s.applierStep cfg o = some s') :
    s'.potential cfg < s.potential cfg := by
  obtain ⟨l, move, crashed, -, handler⟩ := Pipeline.applierStep_move h
  have frame := Pipeline.applierStep_frame h
  have drop := Applier.step_potential inv move.step
  have handler_le : s'.handler.potential ≤ s.handler.potential + 1 := by
    rcases handler with ⟨-, at_select, -, endPoint, -, -, at_defrag⟩ | ⟨ok, -, at_reply, at_select⟩ | ⟨-, -, same⟩
    · simp only [at_select, at_defrag, HandlerPC.potential]
      omega
    · simp only [at_select, at_reply, HandlerPC.potential]
      omega
    · rw [same]; omega
  have still : (if s'.crashed then 0 else 1) ≤ (if s.crashed then 0 else 1) := by
    rw [running]; split <;> decide
  have received := congrArg List.length move.received
  have sent := congrArg List.length move.sent
  simp only [List.length_append] at received sent
  simp only [Pipeline.potential, frame.orchestrator, frame.fetchers, frame.fetcherInfoCh, frame.snapLocationsCh]
  omega

theorem Pipeline.handlerStep_potential_lt {cfg : PipelineConfig} {s s' : Pipeline} {o : Outcome}
    (h : s.handlerStep o = some s') : s'.potential cfg < s.potential cfg := by
  obtain ⟨same, ⟨at_select, -, at_done⟩ | ⟨endPoint, ok, at_defrag, at_reply⟩⟩ := Pipeline.handlerStep_cases h
  · rw [same]
    simp only [Pipeline.potential, at_select, at_done, HandlerPC.potential]
    omega
  · rw [same]
    simp only [Pipeline.potential, at_defrag, at_reply, HandlerPC.potential]
    omega

theorem Pipeline.step_not_crashed {cfg : PipelineConfig} {s s' : Pipeline} {g : Goroutine} {o : Outcome}
    (h : s.step cfg g o = some s') : s.crashed = false := by
  unfold Pipeline.step at h
  split at h
  · cases h
  · exact Bool.eq_false_iff.mpr ‹_›

theorem PipelineReach.potential_lt {cfg : PipelineConfig} {s s' : Pipeline} {g : Goroutine} {o : Outcome}
    (reach : PipelineReach cfg s) (h : s.step cfg g o = some s') : s'.potential cfg < s.potential cfg := by
  have running := Pipeline.step_not_crashed h
  rcases g with _ | _ | f | _
  · exact (Pipeline.step_orchestrator_move h).2.potential_lt
  · rw [Pipeline.step_applier_eq running] at h
    exact Pipeline.applierStep_potential_lt reach.applier.inv running h
  · exact Pipeline.fetcherStep_potential_lt h
  · rw [Pipeline.step_handler_eq running] at h
    exact Pipeline.handlerStep_potential_lt h

/-! ### Every run ends -/

theorem PipelineReach.run_length {cfg : PipelineConfig} : ∀ {s s' : Pipeline} (steps : List (Goroutine × Outcome)),
    PipelineReach cfg s → s.run cfg steps = some s' → steps.length + s'.potential cfg ≤ s.potential cfg
  | _, _, [], _, h => by
    cases h
    simp
  | _, _, (g, o) :: rest, reach, h => by
    simp only [Pipeline.run, Option.bind_eq_some] at h
    obtain ⟨t, step, run⟩ := h
    have lt := reach.potential_lt step
    have := PipelineReach.run_length rest (.step g o reach step) run
    simp only [List.length_cons]
    omega

theorem Pipeline.init_potential (cfg : PipelineConfig) :
    (Pipeline.init cfg).potential cfg =
      (8 * cfg.applier.lean.endPoints.length + 62) * cfg.numSnaps + 2 * cfg.numFetchers + 14 := by
  simp only [Pipeline.potential, Pipeline.init, OrchestratorPC.enqueued, OrchestratorPC.phase, List.length_nil,
    List.map_replicate, List.sum_replicate, FetcherPC.potential, Applier.potential, Applier.init,
    ApplierPC.potential, HandlerPC.potential, PipelineConfig.numSnaps, Nat.sub_zero, smul_eq_mul, Nat.add_mul,
    Nat.mul_assoc]
  simp
  omega

theorem Pipeline.run_length_le (cfg : PipelineConfig) {s' : Pipeline} (steps : List (Goroutine × Outcome))
    (h : (Pipeline.init cfg).run cfg steps = some s') :
    steps.length ≤ (8 * cfg.applier.lean.endPoints.length + 62) * cfg.numSnaps + 2 * cfg.numFetchers + 14 := by
  have := PipelineReach.run_length steps .init h
  rw [Pipeline.init_potential] at this
  omega

theorem one_delta_failed_fetch_within_bound :
    ∃ s', (Pipeline.init oneDelta).run oneDelta fetchFailureSchedule = some s' ∧
      fetchFailureSchedule.length ≤
        (8 * oneDelta.applier.lean.endPoints.length + 62) * oneDelta.numSnaps + 2 * oneDelta.numFetchers + 14 :=
  let ⟨s', h⟩ := Option.isSome_iff_exists.mp (by decide : ((Pipeline.init oneDelta).run oneDelta fetchFailureSchedule).isSome)
  ⟨s', h, Pipeline.run_length_le oneDelta fetchFailureSchedule h⟩

end EtcdRestore
