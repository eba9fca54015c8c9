import EtcdRestore.TempFiles

/-! `HandleAlarm` and the `dbSizeAlarmCh` rendezvous in the pipeline against the two-party
model of `LeanKeep`: each pipeline step is one `AlarmStep` or leaves the applier's call, the
handler and `stopHandleAlarmCh` as they were, so every reachable pipeline state is seen as a
reachable state of the model, and the model's coupling of handler and call holds for it. -/
namespace EtcdRestore

/-! ### The applier as the handler's client -/

/-- The applier at `pc` as the alarm handler's client: inside `MakeEtcdLeanAndCheckAlarm`,
called after delta `cur` at its last revision, or between calls. -/
def ApplierPC.SeenAs (cfg : ApplierConfig) : ApplierPC → Client → Prop
  | .lean cur pc, c => ∃ history, c = .lean (cfg.snap cur).lastRevision history pc
  | _, c => c = .idle

def ApplierPC.awaitsReply : ApplierPC → Bool
  | .lean _ (.disarm _ _) => true
  | _ => false

theorem ApplierPC.SeenAs.awaitsReply {cfg : ApplierConfig} {pc : ApplierPC} {c : Client}
    (seen : pc.SeenAs cfg c) : pc.awaitsReply = true ↔ ∃ endPoint, c.Waiting endPoint := by
  cases pc with
  | lean cur lpc =>
    obtain ⟨history, rfl⟩ := seen
    cases lpc <;> simp [ApplierPC.awaitsReply, Client.Waiting]
  | _ => subst seen; simp [ApplierPC.awaitsReply, Client.Waiting]

theorem Applier.drainFrom_seen (cfg : ApplierConfig) (a : Applier) (cur : Nat) :
    (a.drainFrom cfg cur).SeenAs cfg .idle := by
  rcases @drainFrom_eq cfg a cur with h | ⟨h, -⟩ <;> rw [h] <;> rfl

theorem Applier.receive_seen (cfg : ApplierConfig) (a : Applier) (info : ApplierInfo) :
    (a.receive cfg info).pc.SeenAs cfg .idle := by
  unfold Applier.receive
  split
  · rfl
  · rfl
  · split
    · dsimp only
      split_ifs
      · rfl
      · exact Applier.drainFrom_seen _ _ _
      · rfl
    · rfl

theorem readNext_seen (cfg : ApplierConfig) (cur : Nat) (filePath : String) (file : Except String Stream) :
    (readNext cfg cur filePath file).SeenAs cfg .idle := by
  rcases readNext_eq cfg cur filePath file with ⟨_, h⟩ | ⟨_, h⟩ <;> rw [h] <;> rfl

theorem Applier.afterRemove_seen (cfg : ApplierConfig) (a : Applier) (cur : Nat) :
    (a.afterRemove cfg cur).pc.SeenAs cfg .idle ∨
      (a.afterRemove cfg cur).pc = .lean cur (.compact (cfg.snap cur).lastRevision) := by
  unfold Applier.afterRemove
  dsimp only
  split_ifs
  · exact .inl rfl
  · exact .inr rfl
  · exact .inl (Applier.drainFrom_seen _ _ _)

theorem Applier.step_client {cfg : ApplierConfig} {a a' : Applier} {l : ApplierLabel} {c : Client}
    (step : a.step cfg l = some a') (seen : a.pc.SeenAs cfg c) :
    (c = .idle ∧ a'.pc.SeenAs cfg .idle ∧ ∀ ll, l ≠ .lean ll) ∨
    (c = .idle ∧ l = .remove ∧ ∃ cur, a'.pc = .lean cur (.compact (cfg.snap cur).lastRevision)) ∨
    ∃ revision history cur pc ll n, c = .lean revision history pc ∧ a.pc = .lean cur pc ∧ l = .lean ll ∧
      leanStep cfg.lean pc ll = some n ∧ a'.pc.SeenAs cfg (Client.after revision history ll n) := by
  unfold Applier.step at step
  split at step <;> (try cases step) <;> rw [‹a.pc = _›] at seen
  case h_7 cur at_remove =>
    rcases Applier.afterRemove_seen cfg a cur with idle | at_lean
    · exact .inl ⟨seen, idle, nofun⟩
    · exact .inr (.inl ⟨seen, rfl, cur, at_lean⟩)
  case h_8 cur pc ll at_lean =>
    obtain ⟨next, lstep, rfl⟩ := Option.map_eq_some'.mp step
    obtain ⟨history, rfl⟩ := seen
    refine .inr (.inr ⟨_, history, cur, pc, ll, next, rfl, at_lean, rfl, lstep, ?_⟩)
    cases next with
    | next pc' => exact ⟨history ++ [ll], rfl⟩
    | returned r => exact Applier.drainFrom_seen _ _ _
  all_goals
    refine .inl ⟨seen, ?_, nofun⟩
    first
      | rfl
      | exact Applier.receive_seen _ _ _
      | exact readNext_seen _ _ _ _

/-! ### The pipeline refines the two-party model -/

theorem leanStep_alarm {cfg : LeanConfig} {pc : LeanPC} {n : LeanNext} (h : leanStep cfg pc .alarm = some n) :
    ∃ endPoint rest, pc = .alarm endPoint rest ∧ n = .next (.disarm endPoint rest) := by
  cases pc <;> simp only [leanStep, reduceCtorEq, Option.some.injEq] at h
  exact ⟨_, _, rfl, h.symm⟩

theorem leanStep_disarm_label {cfg : LeanConfig} {pc : LeanPC} {ok : Bool} {n : LeanNext}
    (h : leanStep cfg pc (.disarm ok) = some n) : ∃ endPoint rest, pc = .disarm endPoint rest := by
  cases pc <;> simp only [leanStep, reduceCtorEq] at h
  exact ⟨_, _, rfl⟩

theorem Pipeline.applierStep_move {cfg : PipelineConfig} {s s' : Pipeline} {o : Outcome}
    (h : s.applierStep cfg o = some s') :
    ∃ l, Pipeline.ApplierMove cfg s s' l ∧
      s'.crashed = (s.crashed || decide (s'.applier.pc = .crashed)) ∧ (l = .stop → s.stopClosed = true) ∧
      ((l = .lean .alarm ∧ s.handler = .select ∧
          ∃ cur endPoint rest, s.applier.pc = .lean cur (.alarm endPoint rest) ∧ s'.handler = .defrag endPoint) ∨
        (∃ ok, l = .lean (.disarm ok) ∧ s.handler = .reply ok ∧ s'.handler = .select) ∨
        (l ≠ .lean .alarm ∧ (∀ ok, l ≠ .lean (.disarm ok)) ∧ s'.handler = s.handler)) := by
  unfold Pipeline.applierStep at h
  repeat' split at h
  all_goals first
    | cases h
    | obtain ⟨a, step, rfl⟩ := Option.map_eq_some'.mp h
      refine ⟨_, ⟨step, ?_, ?_, ?_, rfl, rfl⟩, rfl, fun stop => (by cases stop <;> assumption), ?_⟩
      · first | exact ‹s.applierInfoCh = _› | rfl
      · first | exact (List.append_nil _).symm | (rw [‹s.applier.pc = _›]; rfl)
      · first | exact (List.append_nil _).symm | (rw [‹s.applier.pc = _›]; rfl)
      first
        | exact .inl ⟨rfl, ‹_›, _, _, _, ‹s.applier.pc = _›, rfl⟩
        | exact .inr (.inl ⟨_, rfl, ‹_›, rfl⟩)
        | exact .inr (.inr ⟨fun same => by cases same <;> simp_all [LeanLabel.isCall],
            fun _ same => by cases same <;> simp_all [LeanLabel.isCall], rfl⟩)

theorem Pipeline.handlerStep_cases {s s' : Pipeline} {o : Outcome} (h : s.handlerStep o = some s') :
    s' = { s with handler := s'.handler } ∧
      ((s.handler = .select ∧ s.stopHandleAlarmClosed = true ∧ s'.handler = .done) ∨
        ∃ endPoint ok, s.handler = .defrag endPoint ∧ s'.handler = .reply ok) := by
  unfold Pipeline.handlerStep at h
  repeat' split at h
  all_goals cases h
  · exact ⟨rfl, .inl ⟨‹_ ∧ _›.1, ‹_ ∧ _›.2, rfl⟩⟩
  · exact ⟨rfl, .inr ⟨_, _, ‹_›, rfl⟩⟩

/-- The applier, the alarm handler and `stopHandleAlarmCh` of a pipeline state as the
two-party model sees them; the call's history and the log are the model's alone. -/
structure Pipeline.AlarmView (cfg : PipelineConfig) (s : Pipeline) (sys : AlarmSystem) : Prop where
  client : s.applier.pc.SeenAs cfg.applier sys.client
  handler : sys.handler = s.handler
  stopped : sys.stopped = s.stopHandleAlarmClosed

section View

variable {cfg : PipelineConfig} {s s' : Pipeline} {sys : AlarmSystem}

theorem Pipeline.AlarmView.init (cfg : PipelineConfig) : (Pipeline.init cfg).AlarmView cfg .init :=
  ⟨rfl, rfl, rfl⟩

theorem Pipeline.AlarmView.of_same (view : s.AlarmView cfg sys) (applier : s'.applier = s.applier)
    (handler : s'.handler = s.handler) (stopped : s'.stopHandleAlarmClosed = s.stopHandleAlarmClosed) :
    s'.AlarmView cfg sys :=
  ⟨applier ▸ view.client, handler ▸ view.handler, stopped ▸ view.stopped⟩

theorem Pipeline.AlarmView.orchestratorMove {o : Outcome} (view : s.AlarmView cfg sys)
    (move : OrchestratorMove cfg s o s') :
    ∃ sys', (sys' = sys ∨ AlarmStep cfg.applier.lean sys sys') ∧ s'.AlarmView cfg sys' := by
  obtain ⟨applier, -, handler, -⟩ := move.frame
  have closes : s'.stopHandleAlarmClosed = s.stopHandleAlarmClosed ∨ s'.stopHandleAlarmClosed = true := by
    cases move <;> simp
  rcases closes with same | closed
  · exact ⟨sys, .inl rfl, view.of_same applier handler same⟩
  obtain ⟨c, hpc, stopped, log⟩ := sys
  refine ⟨⟨c, hpc, true, log⟩, ?_, ⟨applier ▸ view.client, handler ▸ view.handler, closed.symm⟩⟩
  cases stopped
  · exact .inr .stop
  · exact .inl rfl

theorem Pipeline.AlarmView.handlerStep {o : Outcome} (view : s.AlarmView cfg sys) (h : s.handlerStep o = some s') :
    ∃ sys', (sys' = sys ∨ AlarmStep cfg.applier.lean sys sys') ∧ s'.AlarmView cfg sys' := by
  obtain ⟨same, moves⟩ := Pipeline.handlerStep_cases h
  obtain ⟨c, hpc, stopped, log⟩ := sys
  obtain ⟨seen, rfl, rfl⟩ := view
  have applier : s'.applier = s.applier := by rw [same]
  have closed : s'.stopHandleAlarmClosed = s.stopHandleAlarmClosed := by rw [same]
  rcases moves with ⟨at_select, stop, at_done⟩ | ⟨endPoint, ok, at_defrag, at_reply⟩
  · refine ⟨⟨c, .done, true, log⟩, .inr ?_, ⟨applier ▸ seen, at_done.symm, by rw [closed, stop]⟩⟩
    rw [at_select, stop]
    exact .handlerStop
  · refine ⟨⟨c, .reply ok, s.stopHandleAlarmClosed, log ++ [.defragmented endPoint ok]⟩, .inr ?_,
      ⟨applier ▸ seen, at_reply.symm, closed.symm⟩⟩
    rw [at_defrag]
    exact .defragment ok

theorem Pipeline.AlarmView.applierStep {o : Outcome} (view : s.AlarmView cfg sys) (h : s.applierStep cfg o = some s') :
    ∃ sys', (sys' = sys ∨ AlarmStep cfg.applier.lean sys sys') ∧ s'.AlarmView cfg sys' := by
  obtain ⟨l, move, -, -, handler⟩ := Pipeline.applierStep_move h
  have closed := (Pipeline.applierStep_frame h).stopHandleAlarmClosed
  obtain ⟨c, hpc, stopped, log⟩ := sys
  obtain ⟨seen, rfl, rfl⟩ := view
  have keeps : (∀ ll, l ≠ .lean ll) → s'.handler = s.handler := fun not_lean => by
    rcases handler with ⟨alarm, -⟩ | ⟨_, disarm, -⟩ | ⟨-, -, same⟩ <;>
      first | exact absurd alarm (not_lean _) | exact absurd disarm (not_lean _) | exact same
  rcases Applier.step_client move.step seen with
    ⟨rfl, idle, not_lean⟩ | ⟨rfl, rfl, cur, at_call⟩ |
      ⟨revision, history, cur, pc, ll, n, rfl, at_pc, rfl, lstep, seen'⟩
  · exact ⟨_, .inl rfl, ⟨idle, (keeps not_lean).symm, closed.symm⟩⟩
  · exact ⟨_, .inr (.leanCall (cfg.applier.snap cur).lastRevision), ⟨by rw [at_call]; exact ⟨[], rfl⟩,
      (keeps nofun).symm, closed.symm⟩⟩
  · rcases handler with ⟨alarm, at_select, cur', endPoint, rest, at_alarm, at_defrag⟩ |
      ⟨ok, disarm, at_reply, at_select⟩ | ⟨not_alarm, not_disarm, same⟩
    · cases alarm
      obtain ⟨endPoint', rest', rfl, rfl⟩ := leanStep_alarm lstep
      cases at_pc.symm.trans at_alarm
      refine ⟨⟨Client.after revision history .alarm (.next (.disarm endPoint rest)), .defrag endPoint,
        s.stopHandleAlarmClosed, log ++ [.alarm endPoint]⟩, .inr ?_, ⟨seen', at_defrag.symm, closed.symm⟩⟩
      rw [at_select]
      exact .alarm
    · cases disarm
      obtain ⟨endPoint, rest, rfl⟩ := leanStep_disarm_label lstep
      refine ⟨⟨Client.after revision history (.disarm ok) n, .select, s.stopHandleAlarmClosed,
        log ++ [.disarm ok]⟩, .inr ?_, ⟨seen', at_select.symm, closed.symm⟩⟩
      rw [at_reply]
      exact .disarm lstep
    · have isCall : ll.isCall = true := by
        cases ll <;> first | rfl | exact absurd rfl not_alarm | exact absurd rfl (not_disarm _)
      exact ⟨_, .inr (.call ll isCall lstep), ⟨seen', same.symm, closed.symm⟩⟩

theorem Pipeline.AlarmView.step {g : Goroutine} {o : Outcome} (view : s.AlarmView cfg sys)
    (h : s.step cfg g o = some s') :
    ∃ sys', (sys' = sys ∨ AlarmStep cfg.applier.lean sys sys') ∧ s'.AlarmView cfg sys' := by
  rcases g with _ | _ | f | _
  · exact view.orchestratorMove (Pipeline.step_orchestrator_move h).2
  · unfold Pipeline.step at h
    split at h
    · cases h
    · exact view.applierStep h
  · obtain ⟨-, pc, t, pc', -, move, rfl⟩ := Pipeline.step_fetcher_move h
    obtain ⟨-, applier, handler, -, -, -, -, closed⟩ := move.frame
    exact ⟨sys, .inl rfl, view.of_same applier handler closed⟩
  · unfold Pipeline.step at h
    split at h
    · cases h
    · exact view.handlerStep h

/-- Every reachable state of the pipeline, under any interleaving and any answers from outside,
is seen as a reachable state of the model of `MakeEtcdLeanAndCheckAlarm` and `HandleAlarm`. -/
theorem PipelineReach.alarmView (reach : PipelineReach cfg s) :
    ∃ sys, AlarmReach cfg.applier.lean sys ∧ s.AlarmView cfg sys := by
  induction reach with
  | init => exact ⟨.init, .init, .init cfg⟩
  | step g o _ step ih =>
    obtain ⟨sys, alarmReach, view⟩ := ih
    obtain ⟨sys', moved, view'⟩ := view.step step
    exact ⟨sys', moved.elim (fun same => same ▸ alarmReach) alarmReach.step, view'⟩

end View

theorem one_delta_waiting_seen :
    ∃ s, PipelineReach oneDelta s ∧ s.orchestrator = .recvErr ∧ s.applier.pc = .select ∧
      ∃ sys, AlarmReach oneDelta.applier.lean sys ∧ s.AlarmView oneDelta sys := by
  obtain ⟨s, -, -, -, -, reach, waiting, -, selecting, -⟩ := oneDelta_run
  exact ⟨s, reach.reach, waiting, selecting, PipelineReach.alarmView reach.reach⟩

/-! ### The handler's coupling in the pipeline -/

/-- The alarm handler is busy exactly while the applier waits for its reply, and it returns
only once `stopHandleAlarmCh` is closed. -/
structure Pipeline.HandlerInv (s : Pipeline) : Prop where
  busy : s.handler.busy = s.applier.pc.awaitsReply
  done : s.handler = .done → s.stopHandleAlarmClosed = true

theorem PipelineReach.handlerInv {cfg : PipelineConfig} {s : Pipeline} (reach : PipelineReach cfg s) :
    s.HandlerInv := by
  obtain ⟨sys, alarmReach, view⟩ := reach.alarmView
  refine ⟨Bool.eq_iff_iff.mpr ?_, fun done => view.stopped ▸ alarmReach.stopped_of_done (view.handler ▸ done)⟩
  rw [← view.handler, alarmReach.inv.coupled.busy, view.client.awaitsReply]

end EtcdRestore
