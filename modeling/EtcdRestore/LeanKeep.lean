import EtcdRestore.Types

/-! `MakeEtcdLeanAndCheckAlarm` as a program over labels, each what one of its steps observes,
against `HandleAlarm`, which receives on the unbuffered `dbSizeAlarmCh`, defragments and
answers on `dbSizeAlarmDisarmCh`. The `float64` size check is a parameter, given by
`dbSizeAlarmCheck` for the code. -/
namespace EtcdRestore

/-- The fields of a `Status` response that the restorer reads. -/
structure DbStatus where
  dbSize : Int
  dbSizeInUse : Int
  deriving DecidableEq, Repr

def thresholdPercentageForDBSizeAlarm : Float := 80.0 / 100.0

/-- The size check of `MakeEtcdLeanAndCheckAlarm`, in `float64`. -/
def dbSizeAlarmCheck (embeddedEtcdQuotaBytes : Float) (status : DbStatus) : Bool :=
  decide (Float.ofInt status.dbSizeInUse > thresholdPercentageForDBSizeAlarm * embeddedEtcdQuotaBytes) ||
    decide (Float.ofInt status.dbSize > thresholdPercentageForDBSizeAlarm * embeddedEtcdQuotaBytes)

/-- What `MakeEtcdLeanAndCheckAlarm` is called with: the endpoints (the restorer passes
the one client address of the embedded etcd) and the size check. -/
structure LeanConfig where
  endPoints : List String
  endPoints_ne_nil : endPoints ≠ []
  crossesThreshold : DbStatus → Bool

/-- A point of `MakeEtcdLeanAndCheckAlarm`: a call in flight or a channel operation. -/
inductive LeanPC where
  | compact (revision : Int)
  | status
  | alarm (endPoint : String) (rest : List String)
  | disarm (endPoint : String) (rest : List String)
  | defragStatus (endPoint : String) (rest : List String)
  deriving DecidableEq, Repr

inductive LeanLabel where
  | compact (result : Except String Unit)
  | status (result : Except String DbStatus)
  | alarm
  | disarm (ok : Bool)
  | defragStatus
  deriving Repr

inductive LeanNext where
  | next (pc : LeanPC)
  | returned (result : Except String Unit)

/-- The loop over the endpoints still to be defragmented. -/
def alarmNext : List String → LeanNext
  | [] => .returned (.ok ())
  | endPoint :: rest => .next (.alarm endPoint rest)

def leanStep (cfg : LeanConfig) : LeanPC → LeanLabel → Option LeanNext
  | .compact _, .compact (.error err) => some (.returned (.error ("compact API call failed: " ++ err)))
  | .compact _, .compact (.ok ()) => some (.next .status)
  | .status, .status (.error err) =>
    some (.returned (.error ("unable to check embedded etcd status: " ++ err)))
  | .status, .status (.ok status) =>
    some (if cfg.crossesThreshold status then alarmNext cfg.endPoints else .returned (.ok ()))
  | .alarm endPoint rest, .alarm => some (.next (.disarm endPoint rest))
  | .disarm endPoint rest, .disarm ok =>
    some (if ok then .next (.defragStatus endPoint rest)
      else .returned (.error "failed to disalarm the embedded etcd dbSize alarm"))
  | .defragStatus _ rest, .defragStatus => some (alarmNext rest)
  | _, _ => none

/-- A run of the call over a list of labels; nothing may follow its return. -/
def leanRun (cfg : LeanConfig) : LeanPC → List LeanLabel → Option LeanNext
  | pc, [] => some (.next pc)
  | pc, l :: ls =>
    match leanStep cfg pc l with
    | some (.next pc') => leanRun cfg pc' ls
    | some (.returned r) => if ls.isEmpty then some (.returned r) else none
    | none => none

theorem leanRun_cons_next {cfg : LeanConfig} {pc pc' : LeanPC} {l : LeanLabel}
    {ls : List LeanLabel} (h : leanRun cfg pc (l :: ls) = some (.next pc')) :
    ∃ pc'', leanStep cfg pc l = some (.next pc'') ∧ leanRun cfg pc'' ls = some (.next pc') := by
  unfold leanRun at h
  split at h
  · exact ⟨_, ‹_›, h⟩
  · split at h <;> cases h
  · cases h

theorem leanRun_snoc {cfg : LeanConfig} {pc pc' : LeanPC} : ∀ {labels : List LeanLabel},
    leanRun cfg pc labels = some (.next pc') →
    ∀ l, leanRun cfg pc (labels ++ [l]) = leanStep cfg pc' l
  | [], h, l => by
    cases h
    show leanRun cfg pc [l] = _
    unfold leanRun
    split <;> simp_all [leanRun]
  | l₀ :: ls, h, l => by
    obtain ⟨pc'', step, rest⟩ := leanRun_cons_next h
    rw [List.cons_append]
    unfold leanRun
    rw [step]
    exact leanRun_snoc rest l

inductive HandlerPC where
  | select
  | defrag (endPoint : String)
  | reply (ok : Bool)
  | done
  deriving DecidableEq, Repr

/-- The applier as the alarm handler sees it: between calls, in a KV call, or inside
`MakeEtcdLeanAndCheckAlarm` at `revision` with what this call has observed so far. -/
inductive Client where
  | idle
  | kv
  | lean (revision : Int) (history : List LeanLabel) (pc : LeanPC)

/-- The operations on `dbSizeAlarmCh` and `dbSizeAlarmDisarmCh` and the results of
`Defragment`, in the order they happen. -/
inductive AlarmEvent where
  | alarm (endPoint : String)
  | defragmented (endPoint : String) (ok : Bool)
  | disarm (ok : Bool)
  deriving DecidableEq, Repr

/-- The applier, the handler, whether `stopHandleAlarmCh` is closed, and the log. -/
structure AlarmSystem where
  client : Client
  handler : HandlerPC
  stopped : Bool
  log : List AlarmEvent

def LeanLabel.isCall : LeanLabel → Bool
  | .compact _ | .status _ | .defragStatus => true
  | .alarm | .disarm _ => false

def Client.after (revision : Int) (history : List LeanLabel) (l : LeanLabel) : LeanNext → Client
  | .next pc => .lean revision (history ++ [l]) pc
  | .returned _ => .idle

/-- The steps of the applier and the handler; the channels are unbuffered, so a send and
its receive are one step. -/
inductive AlarmStep (cfg : LeanConfig) : AlarmSystem → AlarmSystem → Prop where
  | kvCall {h stopped log} : AlarmStep cfg ⟨.idle, h, stopped, log⟩ ⟨.kv, h, stopped, log⟩
  | kvReturn {h stopped log} : AlarmStep cfg ⟨.kv, h, stopped, log⟩ ⟨.idle, h, stopped, log⟩
  | leanCall {h stopped log} (revision : Int) :
      AlarmStep cfg ⟨.idle, h, stopped, log⟩ ⟨.lean revision [] (.compact revision), h, stopped, log⟩
  | call {h stopped log revision history pc n} (l : LeanLabel) :
      l.isCall = true → leanStep cfg pc l = some n →
      AlarmStep cfg ⟨.lean revision history pc, h, stopped, log⟩
        ⟨Client.after revision history l n, h, stopped, log⟩
  | alarm {stopped log revision history endPoint rest} :
      AlarmStep cfg ⟨.lean revision history (.alarm endPoint rest), .select, stopped, log⟩
        ⟨.lean revision (history ++ [.alarm]) (.disarm endPoint rest), .defrag endPoint, stopped,
          log ++ [.alarm endPoint]⟩
  | defragment {c stopped log endPoint} (ok : Bool) :
      AlarmStep cfg ⟨c, .defrag endPoint, stopped, log⟩
        ⟨c, .reply ok, stopped, log ++ [.defragmented endPoint ok]⟩
  | disarm {stopped log revision history endPoint rest ok n} :
      leanStep cfg (.disarm endPoint rest) (.disarm ok) = some n →
      AlarmStep cfg ⟨.lean revision history (.disarm endPoint rest), .reply ok, stopped, log⟩
        ⟨Client.after revision history (.disarm ok) n, .select, stopped, log ++ [.disarm ok]⟩
  | stop {c h log} : AlarmStep cfg ⟨c, h, false, log⟩ ⟨c, h, true, log⟩
  | handlerStop {c log} : AlarmStep cfg ⟨c, .select, true, log⟩ ⟨c, .done, true, log⟩

def AlarmSystem.init : AlarmSystem := ⟨.idle, .select, false, []⟩

inductive AlarmReach (cfg : LeanConfig) : AlarmSystem → Prop where
  | init : AlarmReach cfg .init
  | step {s s'} : AlarmReach cfg s → AlarmStep cfg s s' → AlarmReach cfg s'

def rounds (rs : List (String × Bool)) : List AlarmEvent :=
  rs.flatMap fun r => [.alarm r.1, .defragmented r.1 r.2, .disarm r.2]

def Client.Waiting (c : Client) (endPoint : String) : Prop :=
  ∃ revision history rest, c = .lean revision history (.disarm endPoint rest)

/-- While the handler works on an endpoint the client waits for that endpoint's reply,
and the log is complete rounds followed by the current one. -/
structure Coupled (s : AlarmSystem) : Prop where
  defrag : ∀ endPoint, s.handler = .defrag endPoint →
    s.client.Waiting endPoint ∧ ∃ rs, s.log = rounds rs ++ [.alarm endPoint]
  reply : ∀ ok, s.handler = .reply ok → ∃ endPoint, s.client.Waiting endPoint ∧
    ∃ rs, s.log = rounds rs ++ [.alarm endPoint, .defragmented endPoint ok]
  free : s.handler = .select ∨ s.handler = .done →
    (∀ endPoint, ¬ s.client.Waiting endPoint) ∧ ∃ rs, s.log = rounds rs

structure AlarmInv (cfg : LeanConfig) (s : AlarmSystem) : Prop where
  coupled : Coupled s
  history : ∀ revision history pc, s.client = .lean revision history pc →
    leanRun cfg (.compact revision) history = some (.next pc)

theorem rounds_snoc (rs : List (String × Bool)) (endPoint : String) (ok : Bool) :
    rounds rs ++ [.alarm endPoint, .defragmented endPoint ok, .disarm ok] =
      rounds (rs ++ [(endPoint, ok)]) := by
  simp [rounds]

theorem alarmInv_init (cfg : LeanConfig) : AlarmInv cfg .init where
  coupled :=
    ⟨(fun _ h => nomatch h), (fun _ h => nomatch h),
      fun _ => ⟨(fun _ ⟨_, _, _, h⟩ => nomatch h), [], rfl⟩⟩
  history _ _ _ h := by cases h

theorem leanStep_disarm {cfg : LeanConfig} {pc : LeanPC} {l : LeanLabel} {endPoint : String}
    {rest : List String} (h : leanStep cfg pc l = some (.next (.disarm endPoint rest))) :
    l = .alarm := by
  have never : ∀ eps, alarmNext eps ≠ .next (.disarm endPoint rest) := by
    intro eps
    cases eps <;> simp [alarmNext]
  rcases pc with _ | _ | ⟨ep, rest⟩ | ⟨ep, rest⟩ | ⟨ep, rest⟩ <;>
    rcases l with ⟨_ | _⟩ | ⟨_ | st⟩ | _ | ⟨_ | _⟩ | _ <;> simp [leanStep] at h ⊢
  · split at h
    · exact never _ h
    · cases h
  · exact never _ h

theorem leanStep_disarm_isCall {cfg : LeanConfig} {endPoint : String} {rest : List String}
    {l : LeanLabel} (call : l.isCall = true) : leanStep cfg (.disarm endPoint rest) l = none := by
  rcases l with ⟨_ | _⟩ | ⟨_ | st⟩ | _ | ⟨_ | _⟩ | _ <;> simp_all [leanStep, LeanLabel.isCall]

theorem Client.after_not_waiting {revision : Int} {history : List LeanLabel} {l : LeanLabel}
    {n : LeanNext} (notAlarm : ∀ endPoint rest, n ≠ .next (.disarm endPoint rest)) (endPoint : String) :
    ¬ (Client.after revision history l n).Waiting endPoint := by
  rintro ⟨revision', history', rest, h⟩
  cases n with
  | next pc =>
    simp only [Client.after, Client.lean.injEq] at h
    exact notAlarm endPoint rest (by rw [h.2.2])
  | returned r => cases h

theorem Client.after_history {cfg : LeanConfig} {revision : Int} {history : List LeanLabel}
    {pc : LeanPC} {l : LeanLabel} {n : LeanNext}
    (run : leanRun cfg (.compact revision) history = some (.next pc)) (step : leanStep cfg pc l = some n) :
    ∀ revision' history' pc', Client.after revision history l n = .lean revision' history' pc' →
      leanRun cfg (.compact revision') history' = some (.next pc') := by
  intro revision' history' pc' h
  cases n with
  | next pc'' =>
    simp only [Client.after, Client.lean.injEq] at h
    obtain ⟨rfl, rfl, rfl⟩ := h
    rw [leanRun_snoc run, step]
  | returned r => cases h

theorem Coupled.free_of_not_waiting {s : AlarmSystem} (coupled : Coupled s)
    (free : ∀ endPoint, ¬ s.client.Waiting endPoint) :
    (s.handler = .select ∨ s.handler = .done) ∧ ∃ rs, s.log = rounds rs := by
  have handler : s.handler = .select ∨ s.handler = .done := by
    rcases h : s.handler with _ | endPoint | ok | _
    · exact .inl rfl
    · exact absurd (coupled.defrag endPoint h).1 (free endPoint)
    · obtain ⟨endPoint, waiting, -⟩ := coupled.reply ok h
      exact absurd waiting (free endPoint)
    · exact .inr rfl
  exact ⟨handler, (coupled.free handler).2⟩

theorem Coupled.client_step {c c' : Client} {h : HandlerPC} {stopped : Bool} {log : List AlarmEvent}
    (coupled : Coupled ⟨c, h, stopped, log⟩) (before : ∀ endPoint, ¬ c.Waiting endPoint)
    (after : ∀ endPoint, ¬ c'.Waiting endPoint) : Coupled ⟨c', h, stopped, log⟩ := by
  obtain ⟨handler, rs, hlog⟩ := coupled.free_of_not_waiting before
  refine ⟨fun _ hd => ?_, fun _ hr => ?_, fun _ => ⟨after, rs, hlog⟩⟩ <;>
    rcases handler with hs | hs <;> simp_all

theorem alarmInv_step {cfg : LeanConfig} {s s' : AlarmSystem} (inv : AlarmInv cfg s)
    (step : AlarmStep cfg s s') : AlarmInv cfg s' := by
  obtain ⟨coupled, history⟩ := inv
  cases step with
  | kvCall | kvReturn =>
    exact ⟨coupled.client_step (fun _ ⟨_, _, _, h⟩ => nomatch h) (fun _ ⟨_, _, _, h⟩ => nomatch h),
      fun _ _ _ h => nomatch h⟩
  | leanCall revision =>
    refine ⟨coupled.client_step (fun _ ⟨_, _, _, h⟩ => nomatch h) (fun _ ⟨_, _, _, h⟩ => by cases h), ?_⟩
    rintro _ _ _ ⟨⟩
    rfl
  | call l isCall step =>
    refine ⟨coupled.client_step ?_ (Client.after_not_waiting fun endPoint rest hn => ?_),
      Client.after_history (history _ _ _ rfl) step⟩
    rotate_left
    · subst hn
      cases leanStep_disarm step
      cases isCall
    rintro endPoint ⟨_, _, _, h⟩
    cases h
    rw [leanStep_disarm_isCall isCall] at step
    cases step
  | alarm =>
    obtain ⟨-, rs, hlog⟩ := coupled.free (.inl rfl)
    refine ⟨⟨fun _ h => ?_, (fun _ h => nomatch h), fun h => ?_⟩, ?_⟩
    · cases h
      exact ⟨⟨_, _, _, rfl⟩, rs, by dsimp only at hlog ⊢; rw [hlog]⟩
    · rcases h with h | h <;> cases h
    · rintro _ _ _ ⟨⟩
      rw [leanRun_snoc (history _ _ _ rfl)]
      rfl
  | defragment ok =>
    obtain ⟨waiting, rs, hlog⟩ := coupled.defrag _ rfl
    refine ⟨⟨(fun _ h => nomatch h), fun _ h => ?_, fun h => ?_⟩, history⟩
    · cases h
      dsimp only at hlog ⊢
      exact ⟨_, waiting, rs, by simp [hlog]⟩
    · rcases h with h | h <;> cases h
  | @disarm stopped log revision hist endPoint rest ok n step =>
    obtain ⟨endPoint, ⟨_, _, _, same⟩, rs, hlog⟩ := coupled.reply _ rfl
    cases same
    refine ⟨⟨(fun _ h => nomatch h), (fun _ h => nomatch h), fun _ =>
      ⟨Client.after_not_waiting fun _ _ hn => ?_, rs ++ [(endPoint, ok)], ?_⟩⟩,
      Client.after_history (history _ _ _ rfl) step⟩
    · subst hn
      cases leanStep_disarm step
    · dsimp only at hlog ⊢
      rw [← rounds_snoc, hlog]
      simp
  | stop => exact ⟨⟨coupled.defrag, coupled.reply, coupled.free⟩, history⟩
  | handlerStop =>
    refine ⟨⟨(fun _ h => nomatch h), (fun _ h => nomatch h), fun _ => coupled.free (.inl rfl)⟩, history⟩

theorem AlarmReach.inv {cfg : LeanConfig} {s : AlarmSystem} (reach : AlarmReach cfg s) :
    AlarmInv cfg s := by
  induction reach with
  | init => exact alarmInv_init cfg
  | step _ step ih => exact alarmInv_step ih step

def HandlerPC.busy : HandlerPC → Bool
  | .defrag _ | .reply _ => true
  | .select | .done => false

theorem Coupled.busy {s : AlarmSystem} (coupled : Coupled s) :
    s.handler.busy = true ↔ ∃ endPoint, s.client.Waiting endPoint := by
  rcases h : s.handler with _ | endPoint | ok | _
  · simpa [HandlerPC.busy] using (coupled.free (.inl h)).1
  · exact iff_of_true rfl ⟨endPoint, (coupled.defrag endPoint h).1⟩
  · exact iff_of_true rfl ((coupled.reply ok h).imp fun _ waits => waits.1)
  · simpa [HandlerPC.busy] using (coupled.free (.inr h)).1

theorem AlarmReach.stopped_of_done {cfg : LeanConfig} {s : AlarmSystem} (reach : AlarmReach cfg s) :
    s.handler = .done → s.stopped = true := by
  induction reach with
  | init => nofun
  | step _ step ih =>
    intro done
    cases step <;> first | rfl | exact ih done | cases done

def alwaysDefragment : LeanConfig := ⟨["127.0.0.1:2379"], List.cons_ne_nil _ _, fun _ => true⟩

end EtcdRestore
