import EtcdRestore.FirstDelta
import EtcdRestore.LeanKeep

/-! The applier goroutine (`applySnaps`). A step is labelled by what it observes: a message,
the closed `stopCh`, a temp file's content, the result of `applyEventsAndVerify` or of a step
of `MakeEtcdLeanAndCheckAlarm`, its own send; here every label sequence is a run. Go's
indexing out of range crashes the applier. -/
namespace EtcdRestore

def periodicallyMakeEtcdLeanDeltaSnapshotInterval : Nat := 10

structure ApplierConfig where
  restorer : Restorer
  remainingSnaps : List Snapshot
  lean : LeanConfig

/-- `remainingSnaps[i]`; the applier reads it only below the length. -/
def ApplierConfig.snap (cfg : ApplierConfig) (i : Nat) : Snapshot :=
  cfg.remainingSnaps.getD i ⟨"", "", 0, ""⟩

inductive ApplierPC where
  | start
  | select
  | read (cur : Nat)
  | apply (cur : Nat) (events : List Event)
  | remove (cur : Nat)
  | lean (cur : Nat) (pc : LeanPC)
  | send (err : Option String)
  | done
  | crashed
  deriving DecidableEq, Repr

structure Applier where
  pc : ApplierPC
  pathList : List String
  nextSnapIndexToApply : Nat
  numberOfDeltaSnapApplied : Nat
  prevAttemptToMakeEtcdLeanFailed : Bool
  deriving DecidableEq, Repr

def Applier.init (n : Nat) : Applier := ⟨.start, List.replicate n "", 0, 1, false⟩

inductive ApplierLabel where
  | wgAdd
  | stop
  | recv (info : ApplierInfo)
  | read (file : Except String Stream)
  | apply (result : Except String Unit)
  | remove
  | lean (l : LeanLabel)
  | send

/-- The head of the inner loop at `currSnapIndex = cur`. -/
def Applier.drainFrom (cfg : ApplierConfig) (a : Applier) (cur : Nat) : ApplierPC :=
  if cur < cfg.remainingSnaps.length ∧ a.pathList.getD cur "" ≠ "" then .read cur else .select

/-- The `applierInfoCh` case of the `select`. -/
def Applier.receive (cfg : ApplierConfig) (a : Applier) (info : ApplierInfo) : Applier :=
  match info.snapIndex with
  | .negSucc 0 => { a with pc := .done }
  | .negSucc _ => { a with pc := .crashed }
  | .ofNat idx =>
    if idx < a.pathList.length then
      let a := { a with pathList := a.pathList.set idx info.snapFilePath }
      if idx < a.nextSnapIndexToApply then
        { a with pc := .send (some ("snap index mismatch for delta snapshot " ++ toString idx ++
          "; expected snap index to be atleast " ++ toString a.nextSnapIndexToApply)) }
      else if idx = a.nextSnapIndexToApply then { a with pc := a.drainFrom cfg idx }
      else { a with pc := .select }
    else { a with pc := .crashed }

/-- Reading, checking and decoding the temp file of delta `cur`. -/
def readNext (cfg : ApplierConfig) (cur : Nat) (filePath : String) (file : Except String Stream) :
    ApplierPC :=
  let snap := cfg.snap cur
  let readFailed := fun err : String =>
    ApplierPC.send (some ("failed to read events data from delta snapshot file " ++ filePath ++ " : " ++ err))
  match file with
  | .error err =>
    readFailed ("failed to open file " ++ filePath ++ " for delta snapshot " ++ snap.snapName ++ " : " ++ err)
  | .ok rc =>
    match cfg.restorer.readSnapshotContentsFromReadCloser rc snap with
    | .error err => readFailed err
    | .ok eventsData =>
      match cfg.restorer.codec.unmarshal eventsData with
      | .error err =>
        .send (some ("failed to unmarshal events from events data for delta snapshot " ++
          snap.snapName ++ " : " ++ err))
      | .ok events => .apply cur events

/-- After removing the temp file of delta `cur`: count it, finish on the last delta, and
make etcd lean every tenth delta or after a failed attempt. -/
def Applier.afterRemove (cfg : ApplierConfig) (a : Applier) (cur : Nat) : Applier :=
  let next := a.nextSnapIndexToApply + 1
  if next = cfg.remainingSnaps.length then { a with nextSnapIndexToApply := next, pc := .send none }
  else
    let applied := a.numberOfDeltaSnapApplied + 1
    let a := { a with nextSnapIndexToApply := next, numberOfDeltaSnapApplied := applied }
    if applied % periodicallyMakeEtcdLeanDeltaSnapshotInterval = 0 ∨
        a.prevAttemptToMakeEtcdLeanFailed = true then
      { a with pc := .lean cur (.compact (cfg.snap cur).lastRevision) }
    else { a with pc := a.drainFrom cfg (cur + 1) }

def Applier.afterLean (cfg : ApplierConfig) (a : Applier) (cur : Nat) : LeanNext → Applier
  | .next pc => { a with pc := .lean cur pc }
  | .returned r =>
    let a := { a with prevAttemptToMakeEtcdLeanFailed := match r with | .error _ => true | .ok _ => false }
    { a with pc := a.drainFrom cfg (cur + 1) }

def Applier.step (cfg : ApplierConfig) (a : Applier) (l : ApplierLabel) : Option Applier :=
  match a.pc, l with
  | .start, .wgAdd => some { a with pc := .select }
  | .select, .stop => some { a with pc := .done }
  | .select, .recv info => some (a.receive cfg info)
  | .read cur, .read file => some { a with pc := readNext cfg cur (a.pathList.getD cur "") file }
  | .apply _ _, .apply (.error err) => some { a with pc := .send (some err) }
  | .apply cur _, .apply (.ok ()) => some { a with pc := .remove cur }
  | .remove cur, .remove => some (a.afterRemove cfg cur)
  | .lean cur pc, .lean l => (leanStep cfg.lean pc l).map (a.afterLean cfg cur)
  | .send _, .send => some { a with pc := .done }
  | _, _ => none

inductive ApplierReach (cfg : ApplierConfig) : Applier → Prop where
  | init : ApplierReach cfg (.init cfg.remainingSnaps.length)
  | step {a a' : Applier} (l : ApplierLabel) : ApplierReach cfg a → a.step cfg l = some a' →
      ApplierReach cfg a'

def Applier.run (cfg : ApplierConfig) : Applier → List ApplierLabel → Option Applier
  | a, [] => some a
  | a, l :: ls => (a.step cfg l).bind fun a' => a'.run cfg ls

theorem ApplierReach.run {cfg : ApplierConfig} : ∀ {a a' : Applier} {ls : List ApplierLabel},
    ApplierReach cfg a → a.run cfg ls = some a' → ApplierReach cfg a'
  | _, _, [], reach, h => Option.some.inj h ▸ reach
  | _, _, _ :: _, reach, h => by
    obtain ⟨_, step, run⟩ := Option.bind_eq_some.mp h
    exact ApplierReach.run (.step _ reach step) run

theorem readNext_unread (cfg : ApplierConfig) (cur : Nat) (filePath : String) {rc : Stream}
    {err : String} (unread : cfg.restorer.readSnapshotContentsFromReadCloser rc (cfg.snap cur) = .error err) :
    readNext cfg cur filePath (.ok rc) =
      .send (some ("failed to read events data from delta snapshot file " ++ filePath ++ " : " ++ err)) := by
  simp only [readNext, unread]

/-! ### Invariants of a run -/

theorem drainFrom_eq {cfg : ApplierConfig} {a : Applier} {cur : Nat} :
    a.drainFrom cfg cur = .select ∨ (a.drainFrom cfg cur = .read cur ∧ cur < cfg.remainingSnaps.length) := by
  unfold Applier.drainFrom
  split
  · exact .inr ⟨rfl, ‹_ ∧ _›.1⟩
  · exact .inl rfl

theorem readNext_eq (cfg : ApplierConfig) (cur : Nat) (filePath : String) (file : Except String Stream) :
    (∃ err, readNext cfg cur filePath file = .send (some err)) ∨
      ∃ events, readNext cfg cur filePath file = .apply cur events := by
  unfold readNext
  dsimp only
  split
  · exact .inl ⟨_, rfl⟩
  · split
    · exact .inl ⟨_, rfl⟩
    · split
      · exact .inl ⟨_, rfl⟩
      · exact .inr ⟨_, rfl⟩

theorem Applier.step_start {cfg : ApplierConfig} {a a' : Applier} {l : ApplierLabel} (at_start : a.pc = .start)
    (h : a.step cfg l = some a') : l = .wgAdd ∧ a'.pc = .select := by
  cases l <;> simp [Applier.step, at_start] at h
  cases h
  exact ⟨rfl, rfl⟩

theorem Applier.step_done {cfg : ApplierConfig} {a : Applier} (done : a.pc = .done) (l : ApplierLabel) :
    a.step cfg l = none := by
  cases l <;> simp [Applier.step, done]

theorem Applier.drainFrom_ne_start (cfg : ApplierConfig) (a : Applier) (cur : Nat) :
    a.drainFrom cfg cur ≠ .start := by
  rcases @drainFrom_eq cfg a cur with h | ⟨h, -⟩ <;> rw [h] <;> nofun

theorem Applier.step_ne_start {cfg : ApplierConfig} {a a' : Applier} {l : ApplierLabel}
    (h : a.step cfg l = some a') : a'.pc ≠ .start := by
  unfold Applier.step at h
  split at h <;> try cases h
  · nofun
  · nofun
  · unfold Applier.receive
    split
    · nofun
    · nofun
    · dsimp only
      split
      · split
        · nofun
        · split
          · exact Applier.drainFrom_ne_start _ _ _
          · nofun
      · nofun
  · rename_i cur file _
    rcases readNext_eq cfg cur (a.pathList.getD cur "") file with ⟨_, h⟩ | ⟨_, h⟩ <;>
      exact h ▸ nofun
  · nofun
  · nofun
  · unfold Applier.afterRemove
    dsimp only
    split
    · nofun
    · split
      · nofun
      · exact Applier.drainFrom_ne_start _ _ _
  · obtain ⟨next, -, rfl⟩ := Option.map_eq_some'.mp h
    cases next
    · nofun
    · exact Applier.drainFrom_ne_start _ _ _
  · nofun

/-- The delta a point of the inner loop is at is the next one to apply. -/
structure ApplierInv (cfg : ApplierConfig) (a : Applier) : Prop where
  length : a.pathList.length = cfg.remainingSnaps.length
  next_le : a.nextSnapIndexToApply ≤ cfg.remainingSnaps.length
  counter : a.nextSnapIndexToApply < cfg.remainingSnaps.length →
    a.numberOfDeltaSnapApplied = a.nextSnapIndexToApply + 1
  read : ∀ cur, a.pc = .read cur → cur = a.nextSnapIndexToApply ∧ cur < cfg.remainingSnaps.length
  apply : ∀ cur events, a.pc = .apply cur events →
    cur = a.nextSnapIndexToApply ∧ cur < cfg.remainingSnaps.length
  remove : ∀ cur, a.pc = .remove cur → cur = a.nextSnapIndexToApply ∧ cur < cfg.remainingSnaps.length
  lean : ∀ cur pc, a.pc = .lean cur pc →
    cur + 1 = a.nextSnapIndexToApply ∧ a.nextSnapIndexToApply < cfg.remainingSnaps.length

theorem applierInv_init (cfg : ApplierConfig) : ApplierInv cfg (.init cfg.remainingSnaps.length) where
  length := List.length_replicate _ _
  next_le := Nat.zero_le _
  counter _ := rfl
  read _ h := nomatch h
  apply _ _ h := nomatch h
  remove _ h := nomatch h
  lean _ _ h := nomatch h

theorem ApplierInv.of_outside {cfg : ApplierConfig} {a : Applier}
    (length : a.pathList.length = cfg.remainingSnaps.length)
    (next_le : a.nextSnapIndexToApply ≤ cfg.remainingSnaps.length)
    (counter : a.nextSnapIndexToApply < cfg.remainingSnaps.length →
      a.numberOfDeltaSnapApplied = a.nextSnapIndexToApply + 1)
    (outside : a.pc = .select ∨ a.pc = .done ∨ a.pc = .crashed ∨ ∃ err, a.pc = .send err) :
    ApplierInv cfg a := by
  refine ⟨length, next_le, counter, ?_, ?_, ?_, ?_⟩ <;> intros <;>
    rcases outside with h | h | h | ⟨_, h⟩ <;> simp_all

theorem ApplierInv.with_pc {cfg : ApplierConfig} {a : Applier} (inv : ApplierInv cfg a)
    {pc : ApplierPC} (outside : pc = .select ∨ pc = .done ∨ pc = .crashed ∨ ∃ err, pc = .send err) :
    ApplierInv cfg { a with pc := pc } :=
  .of_outside inv.length inv.next_le inv.counter outside

theorem ApplierInv.drain {cfg : ApplierConfig} {a : Applier}
    (length : a.pathList.length = cfg.remainingSnaps.length)
    (next_le : a.nextSnapIndexToApply ≤ cfg.remainingSnaps.length)
    (counter : a.nextSnapIndexToApply < cfg.remainingSnaps.length →
      a.numberOfDeltaSnapApplied = a.nextSnapIndexToApply + 1) :
    ApplierInv cfg { a with pc := a.drainFrom cfg a.nextSnapIndexToApply } := by
  rcases @drainFrom_eq cfg a a.nextSnapIndexToApply with h | ⟨h, lt⟩ <;>
    rw [h]
  · exact .of_outside length next_le counter (.inl rfl)
  · refine ⟨length, next_le, counter, ?_, ?_, ?_, ?_⟩ <;> intros <;> simp_all

theorem ApplierInv.receive {cfg : ApplierConfig} {a : Applier} (inv : ApplierInv cfg a)
    (info : ApplierInfo) : ApplierInv cfg (a.receive cfg info) := by
  unfold Applier.receive
  split
  · exact inv.with_pc (.inr (.inl rfl))
  · exact inv.with_pc (.inr (.inr (.inl rfl)))
  · rename_i idx _
    split
    · have length : (a.pathList.set idx info.snapFilePath).length = cfg.remainingSnaps.length := by
        simp [inv.length]
      dsimp only
      split
      · exact .of_outside length inv.next_le inv.counter (.inr (.inr (.inr ⟨_, rfl⟩)))
      · split
        · rename_i same
          subst same
          exact .drain length inv.next_le inv.counter
        · exact .of_outside length inv.next_le inv.counter (.inl rfl)
    · exact inv.with_pc (.inr (.inr (.inl rfl)))

theorem ApplierInv.afterRemove {cfg : ApplierConfig} {a : Applier} {cur : Nat}
    (inv : ApplierInv cfg a) (at_remove : a.pc = .remove cur) : ApplierInv cfg (a.afterRemove cfg cur) := by
  obtain ⟨rfl, lt⟩ := inv.remove cur at_remove
  have counter := inv.counter lt
  unfold Applier.afterRemove
  dsimp only
  split
  · exact .of_outside inv.length (by dsimp only; omega) (fun _ => by dsimp only at *; omega)
      (.inr (.inr (.inr ⟨_, rfl⟩)))
  · split
    · refine ⟨inv.length, by simp; omega, by simp; omega, ?_, ?_, ?_, ?_⟩ <;> intros <;>
        (simp_all; try omega)
    · exact .drain inv.length (by simp; omega) (by simp; omega)

theorem applierInv_step {cfg : ApplierConfig} {a a' : Applier} {l : ApplierLabel}
    (inv : ApplierInv cfg a) (step : a.step cfg l = some a') : ApplierInv cfg a' := by
  unfold Applier.step at step
  split at step <;> (try cases step)
  · exact inv.with_pc (.inl rfl)
  · exact inv.with_pc (.inr (.inl rfl))
  · exact inv.receive _
  · rename_i cur file at_read
    obtain ⟨rfl, lt⟩ := inv.read _ at_read
    rcases readNext_eq cfg a.nextSnapIndexToApply (a.pathList.getD a.nextSnapIndexToApply "") file with
      ⟨err, h⟩ | ⟨events, h⟩ <;> rw [h]
    · exact inv.with_pc (.inr (.inr (.inr ⟨_, rfl⟩)))
    · refine ⟨inv.length, inv.next_le, inv.counter, ?_, ?_, ?_, ?_⟩ <;> intros <;> simp_all
  · exact inv.with_pc (.inr (.inr (.inr ⟨_, rfl⟩)))
  · rename_i cur events at_apply
    obtain ⟨rfl, lt⟩ := inv.apply _ _ at_apply
    refine ⟨inv.length, inv.next_le, inv.counter, ?_, ?_, ?_, ?_⟩ <;> intros <;> simp_all
  · exact inv.afterRemove ‹_›
  · rename_i cur pc l at_lean
    obtain ⟨same, lt⟩ := inv.lean _ _ at_lean
    obtain ⟨next, -, rfl⟩ := Option.map_eq_some'.mp step
    cases next with
    | next pc' =>
      refine ⟨inv.length, inv.next_le, inv.counter, ?_, ?_, ?_, ?_⟩ <;> intros <;> simp_all [Applier.afterLean]
    | returned r =>
      dsimp only [Applier.afterLean]
      rw [same]
      exact .drain inv.length inv.next_le inv.counter
  · exact inv.with_pc (.inr (.inl rfl))

theorem ApplierReach.inv {cfg : ApplierConfig} {a : Applier} (reach : ApplierReach cfg a) :
    ApplierInv cfg a := by
  induction reach with
  | init => exact applierInv_init cfg
  | step _ _ step ih => exact applierInv_step ih step

/-! ### When etcd is made lean -/

@[simp]
theorem Applier.receive_prevAttemptToMakeEtcdLeanFailed (cfg : ApplierConfig) (a : Applier)
    (info : ApplierInfo) :
    (a.receive cfg info).prevAttemptToMakeEtcdLeanFailed = a.prevAttemptToMakeEtcdLeanFailed := by
  simp only [Applier.receive]
  split <;> (try split_ifs) <;> rfl

@[simp]
theorem Applier.afterRemove_prevAttemptToMakeEtcdLeanFailed (cfg : ApplierConfig) (a : Applier)
    (cur : Nat) :
    (a.afterRemove cfg cur).prevAttemptToMakeEtcdLeanFailed = a.prevAttemptToMakeEtcdLeanFailed := by
  unfold Applier.afterRemove
  dsimp only
  split_ifs <;> rfl

def Applier.leanReturn (cfg : ApplierConfig) (a : Applier) (l : ApplierLabel) : Option (Except String Unit) :=
  match l, a.pc with
  | .lean ll, .lean _ pc =>
    match leanStep cfg.lean pc ll with
    | some (.returned r) => some r
    | _ => none
  | _, _ => none

def Applier.leanReturns (cfg : ApplierConfig) : Applier → List ApplierLabel → List (Except String Unit)
  | _, [] => []
  | a, l :: ls =>
    match a.step cfg l with
    | some a' => a'.leanReturns cfg ls ++ (a.leanReturn cfg l).toList
    | none => []

/-- Whether the latest call of `MakeEtcdLeanAndCheckAlarm` that returned along a run failed. -/
def Applier.lastLeanFailed (cfg : ApplierConfig) (a : Applier) (ls : List ApplierLabel) : Bool :=
  (a.leanReturns cfg ls).head?.any fun r => !r.toBool

theorem Applier.step_lean_returned {cfg : ApplierConfig} {a : Applier} {cur : Nat} {pc : LeanPC}
    {ll : LeanLabel} {r : Except String Unit} (at_lean : a.pc = .lean cur pc)
    (returned : leanStep cfg.lean pc ll = some (.returned r)) :
    a.step cfg (.lean ll) =
      some { a with pc := a.drainFrom cfg (cur + 1), prevAttemptToMakeEtcdLeanFailed := !r.toBool } := by
  simp only [Applier.step, at_lean, returned, Option.map_some', Applier.afterLean]
  cases r <;> rfl

theorem Applier.step_prevAttemptToMakeEtcdLeanFailed {cfg : ApplierConfig} {a a' : Applier}
    {l : ApplierLabel} (step : a.step cfg l = some a') :
    a'.prevAttemptToMakeEtcdLeanFailed =
      ((a.leanReturn cfg l).map fun r => !r.toBool).getD a.prevAttemptToMakeEtcdLeanFailed := by
  cases l
  case lean ll =>
    cases at_pc : a.pc <;> simp only [Applier.step, at_pc, reduceCtorEq] at step
    case lean cur pc =>
      cases hstep : leanStep cfg.lean pc ll with
      | none => simp only [hstep, Option.map_none', reduceCtorEq] at step
      | some next =>
        simp only [hstep, Option.map_some', Option.some.injEq] at step
        subst step
        simp only [Applier.leanReturn, at_pc, hstep]
        cases next with
        | next pc' => rfl
        | returned r => cases r <;> rfl
  all_goals
    unfold Applier.step at step
    split at step <;> (try contradiction) <;> cases step <;>
      (try simp only [Applier.receive_prevAttemptToMakeEtcdLeanFailed,
        Applier.afterRemove_prevAttemptToMakeEtcdLeanFailed]) <;> rfl

theorem Applier.run_prevAttemptToMakeEtcdLeanFailed {cfg : ApplierConfig} : ∀ {a a' : Applier}
    {ls : List ApplierLabel}, a.run cfg ls = some a' →
    a'.prevAttemptToMakeEtcdLeanFailed =
      ((a.leanReturns cfg ls).head?.map fun r => !r.toBool).getD a.prevAttemptToMakeEtcdLeanFailed
  | _, _, [], h => by cases h; rfl
  | a, _, l :: ls, h => by
    obtain ⟨a₁, step, run⟩ := Option.bind_eq_some.mp h
    rw [Applier.run_prevAttemptToMakeEtcdLeanFailed run, Applier.step_prevAttemptToMakeEtcdLeanFailed step]
    simp only [Applier.leanReturns, step]
    cases a₁.leanReturns cfg ls <;> cases a.leanReturn cfg l <;> rfl

theorem Applier.init_run_prevAttemptToMakeEtcdLeanFailed {cfg : ApplierConfig} {a : Applier}
    {ls : List ApplierLabel} (h : (Applier.init cfg.remainingSnaps.length).run cfg ls = some a) :
    a.prevAttemptToMakeEtcdLeanFailed = (Applier.init cfg.remainingSnaps.length).lastLeanFailed cfg ls := by
  rw [Applier.run_prevAttemptToMakeEtcdLeanFailed h, Applier.lastLeanFailed]
  cases (Applier.init cfg.remainingSnaps.length).leanReturns cfg ls <;> rfl

theorem ApplierInv.afterRemove_eq {cfg : ApplierConfig} {a : Applier} {j : Nat}
    (inv : ApplierInv cfg a) (at_remove : a.pc = .remove j) :
    a.afterRemove cfg j =
      if j + 1 = cfg.remainingSnaps.length then
        { a with nextSnapIndexToApply := j + 1, pc := .send none }
      else if (j + 2) % periodicallyMakeEtcdLeanDeltaSnapshotInterval = 0 ∨
          a.prevAttemptToMakeEtcdLeanFailed = true then
        { a with
          nextSnapIndexToApply := j + 1, numberOfDeltaSnapApplied := j + 2,
          pc := .lean j (.compact (cfg.snap j).lastRevision) }
      else
        { a with
          nextSnapIndexToApply := j + 1, numberOfDeltaSnapApplied := j + 2,
          pc := a.drainFrom cfg (j + 1) } := by
  obtain ⟨rfl, lt⟩ := inv.remove j at_remove
  simp only [Applier.afterRemove, inv.counter lt]
  rfl

/-- Along every run of `applySnaps`, etcd is made lean after delta `j` exactly when `j + 2` is a
multiple of ten or the latest call failed; a failed call sets the flag and the next delta goes on. -/
theorem lean_keep_schedule (cfg : ApplierConfig) :
    (∀ ls a j, (Applier.init cfg.remainingSnaps.length).run cfg ls = some a → a.pc = .remove j →
      a.step cfg .remove = some
        (if j + 1 = cfg.remainingSnaps.length then
          { a with nextSnapIndexToApply := j + 1, pc := .send none }
        else if (j + 2) % periodicallyMakeEtcdLeanDeltaSnapshotInterval = 0 ∨
            (Applier.init cfg.remainingSnaps.length).lastLeanFailed cfg ls = true then
          { a with
            nextSnapIndexToApply := j + 1, numberOfDeltaSnapApplied := j + 2,
            pc := .lean j (.compact (cfg.snap j).lastRevision) }
        else
          { a with
            nextSnapIndexToApply := j + 1, numberOfDeltaSnapApplied := j + 2,
            pc := a.drainFrom cfg (j + 1) })) ∧
    (∀ (a : Applier) (cur : Nat) (pc : LeanPC) (ll : LeanLabel) (r : Except String Unit),
      a.pc = .lean cur pc → leanStep cfg.lean pc ll = some (.returned r) →
      a.step cfg (.lean ll) =
        some { a with pc := a.drainFrom cfg (cur + 1), prevAttemptToMakeEtcdLeanFailed := !r.toBool }) ∧
    (∀ ls a, (Applier.init cfg.remainingSnaps.length).run cfg ls = some a →
      a.prevAttemptToMakeEtcdLeanFailed = (Applier.init cfg.remainingSnaps.length).lastLeanFailed cfg ls) ∧
    (∀ {σ : Type} (kv : KV σ) j events (s s' : σ),
      applyEventsAndVerify kv events (cfg.snap j) s = (s', .ok ()) →
      kv.get s' "foo" = .ok (cfg.snap j).lastRevision) :=
  ⟨fun _ _ _ run at_remove => by
      rw [← Applier.init_run_prevAttemptToMakeEtcdLeanFailed run,
        ← (ApplierReach.init.run run).inv.afterRemove_eq at_remove]
      simp only [Applier.step, at_remove],
    fun _ _ _ _ _ => Applier.step_lean_returned, fun _ _ => Applier.init_run_prevAttemptToMakeEtcdLeanFailed,
    fun _ _ _ _ _ => applyEventsAndVerify_ok⟩

def zeroSha256 : List UInt8 → Digest := fun _ => ⟨List.replicate 32 0, rfl⟩

def twoDeltas : ApplierConfig where
  restorer := deltaRestorer zeroSha256 []
  remainingSnaps := [⟨"", "a", 6, ""⟩, ⟨"", "b", 7, ""⟩]
  lean := alwaysDefragment

def elevenDeltas : ApplierConfig where
  restorer := deltaRestorer zeroSha256 []
  remainingSnaps := (List.range 11).map fun i => ⟨"", "d", i + 7, ""⟩
  lean := alwaysDefragment

def applyDeltaLabels (i : Nat) : List ApplierLabel :=
  [.recv ⟨"p", i⟩, .read (.ok ⟨[0] ++ List.replicate 32 0, none⟩), .apply (.ok ())]

/-- Deltas 0 to 8 are applied, so ten deltas have been and etcd is made lean; its
compaction fails; delta 9 is applied. -/
def failedCompactionRun : List ApplierLabel :=
  .wgAdd :: (List.range 9).flatMap (fun i => applyDeltaLabels i ++ [.remove]) ++
    .lean (.compact (.error "timeout")) :: applyDeltaLabels 9

theorem failed_compaction_retried :
    (Applier.init elevenDeltas.remainingSnaps.length).run elevenDeltas failedCompactionRun =
        some ⟨.remove 9, List.replicate 10 "p" ++ [""], 9, 10, true⟩ ∧
      Applier.step elevenDeltas ⟨.remove 9, List.replicate 10 "p" ++ [""], 9, 10, true⟩ .remove =
        some ⟨.lean 9 (.compact 16), List.replicate 10 "p" ++ [""], 10, 11, true⟩ :=
  have run : (Applier.init elevenDeltas.remainingSnaps.length).run elevenDeltas failedCompactionRun =
      some ⟨.remove 9, List.replicate 10 "p" ++ [""], 9, 10, true⟩ := by decide
  ⟨run, ((lean_keep_schedule elevenDeltas).1 _ _ 9 run rfl).trans (by decide)⟩

/-! ### Only verified payloads are decoded -/

theorem readSnapshotContents_unread (r : Restorer) (snap : Snapshot) {p : String}
    (plain : r.codec.compressor.isSnapshotCompressed snap.compressionSuffix = .ok (false, p))
    {b : List UInt8} (unframed : ∀ d, ¬ Framed r.codec.sha256 b d) :
    ∃ err, r.readSnapshotContentsFromReadCloser ⟨b, none⟩ snap = .error err := by
  cases read : r.readSnapshotContentsFromReadCloser ⟨b, none⟩ snap with
  | error err => exact ⟨err, rfl⟩
  | ok d => exact absurd ((readSnapshotContents_ok_iff r snap plain b d).mp read) (unframed d)

/-- The reader returns `d` exactly from `d` framed with its SHA-256, and neither the applier nor
`applyFirstDeltaSnapshot` decodes a buffer that is not framed. -/
theorem readSnapshotContents_verifies :
    (∀ (r : Restorer) (snap : Snapshot) (p : String),
      r.codec.compressor.isSnapshotCompressed snap.compressionSuffix = .ok (false, p) →
      (∀ b d, r.readSnapshotContentsFromReadCloser ⟨b, none⟩ snap = .ok d ↔ Framed r.codec.sha256 b d) ∧
      (∀ d, d ≠ [] → r.readSnapshotContentsFromReadCloser ⟨d ++ (r.codec.sha256 d).val, none⟩ snap = .ok d) ∧
      (∀ b, b.length ≤ sha256Size ∨
          b.drop (b.length - sha256Size) ≠ (r.codec.sha256 (b.take (b.length - sha256Size))).val →
        ∀ d, r.readSnapshotContentsFromReadCloser ⟨b, none⟩ snap ≠ .ok d)) ∧
    (∀ (cfg : ApplierConfig) (a : Applier) (cur : Nat) (b : List UInt8) (p : String),
      cfg.restorer.codec.compressor.isSnapshotCompressed (cfg.snap cur).compressionSuffix = .ok (false, p) →
      a.pc = .read cur → (∀ d, ¬ Framed cfg.restorer.codec.sha256 b d) →
      ∃ err, ∀ unmarshal,
        a.step { cfg with restorer := { cfg.restorer with codec := { cfg.restorer.codec with unmarshal } } }
          (.read (.ok ⟨b, none⟩)) = some { a with pc := .send (some err) }) ∧
    (∀ {σ : Type} (r : Restorer) (kv : KV σ) (snap : Snapshot) (s : σ) (b : List UInt8) (p : String),
      r.codec.compressor.isSnapshotCompressed snap.compressionSuffix = .ok (false, p) →
      r.store.fetch snap = .ok ⟨b, none⟩ → (∀ d, ¬ Framed r.codec.sha256 b d) →
      ∃ err, ∀ unmarshal,
        { r with codec := { r.codec with unmarshal } }.applyFirstDeltaSnapshot kv snap s = (s, .error err)) := by
  refine ⟨fun r snap _ plain => ⟨readSnapshotContents_ok_iff r snap plain,
    readSnapshotContents_framed r snap plain, readSnapshotContents_rejects r snap plain⟩, ?_, ?_⟩
  · intro cfg a cur b _ plain at_read unframed
    obtain ⟨err, unread⟩ := readSnapshotContents_unread _ _ plain unframed
    refine ⟨"failed to read events data from delta snapshot file " ++ a.pathList.getD cur "" ++ " : " ++ err,
      fun unmarshal => ?_⟩
    simp only [Applier.step, at_read]
    rw [readNext_unread { cfg with restorer := { cfg.restorer with codec := { cfg.restorer.codec with unmarshal } } }
      cur _ unread]
  · intro σ r kv snap s b _ plain fetched unframed
    obtain ⟨err, unread⟩ := readSnapshotContents_unread _ _ plain unframed
    exact ⟨_, fun _ => applyFirstDeltaSnapshot_unread _ kv snap s fetched unread⟩

theorem one_byte_framed :
    (∀ d, (deltaRestorer zeroSha256 []).readSnapshotContentsFromReadCloser
      ⟨[] ++ (zeroSha256 []).val, none⟩ ⟨"", "d", 5, ""⟩ ≠ .ok d) ∧
    (deltaRestorer zeroSha256 []).readSnapshotContentsFromReadCloser
      ⟨[0] ++ (zeroSha256 [0]).val, none⟩ ⟨"", "d", 5, ""⟩ = .ok [0] :=
  ⟨(readSnapshotContents_verifies.1 _ _ "" rfl).2.2 _ (.inl (by decide)),
    (readSnapshotContents_verifies.1 _ _ "" rfl).2.1 [0] (List.cons_ne_nil 0 [])⟩

end EtcdRestore
