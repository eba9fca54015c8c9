import EtcdRestore.Applier

/-! The pipeline of `applyDeltaSnapshots` after the first delta: orchestrator, applier, fetchers
and alarm handler over their channels and the `sync.WaitGroup`, from right after the `go`
statements. A step is one goroutine's next statement with what it observes outside; a send
and a receive on an unbuffered channel are one step, and a panic ends the process. -/
namespace EtcdRestore

/-- `filepath.Clean`, which the repository does not have: a function that, as `Clean` does,
never returns the empty path. -/
structure FilepathClean where
  clean : String → String
  ne_empty : ∀ p, clean p ≠ ""

/-- What `applyDeltaSnapshots` starts the pipeline with. -/
structure PipelineConfig where
  applier : ApplierConfig
  maxFetchers : Nat
  tempDir : String
  filepath : FilepathClean

def PipelineConfig.numSnaps (cfg : PipelineConfig) : Nat := cfg.applier.remainingSnaps.length

/-- `numFetchers = min(MaxFetchers, numSnaps)`. -/
def PipelineConfig.numFetchers (cfg : PipelineConfig) : Nat := min cfg.maxFetchers cfg.numSnaps

/-- `filepath.Join(tempDir, SnapName)`: the two joined by the separator and cleaned. `Restore`
has made `tempDir` with `os.MkdirAll`, which fails on "", so `Join` never skips it. -/
def PipelineConfig.snapTempFilePath (cfg : PipelineConfig) (i : Nat) : String :=
  cfg.filepath.clean (cfg.tempDir ++ "/" ++ (cfg.applier.snap i).snapName)

def PipelineConfig.tempPaths (cfg : PipelineConfig) : List String :=
  (List.range cfg.numSnaps).map cfg.snapTempFilePath

theorem PipelineConfig.snapTempFilePath_ne (cfg : PipelineConfig) (i : Nat) : cfg.snapTempFilePath i ≠ "" :=
  cfg.filepath.ne_empty _

theorem PipelineConfig.snapTempFilePath_inj {cfg : PipelineConfig} (distinct : cfg.tempPaths.Nodup) {i j : Nat}
    (hi : i < cfg.numSnaps) (hj : j < cfg.numSnaps) (same : cfg.snapTempFilePath i = cfg.snapTempFilePath j) :
    i = j :=
  List.inj_on_of_nodup_map distinct (List.mem_range.mpr hi) (List.mem_range.mpr hj) same

/-- How `persistRawDeltaSnapshot` gets on: `os.Create` fails, or the file is created and,
once `ReadFrom` has read the stream, `rc.Close()` returns. -/
inductive PersistResult where
  | createFailed
  | created (close : Except String Unit)
  deriving Repr

/-- A point of `fetchSnaps` on the delta with index `i`. -/
inductive FetcherPC where
  | start
  | range
  | select (i : Nat)
  | fetch (i : Nat)
  | fetchFailed (i : Nat) (err : String)
  | fetchSentinel (i : Nat)
  | persist (i : Nat) (rc : Option Stream)
  | persistFailed (i : Nat) (err : String)
  | persistSentinel (i : Nat)
  | sendLocation (i : Nat)
  | sendInfo (i : Nat)
  | done
  deriving DecidableEq, Repr

/-- A point of `applyDeltaSnapshots` from its first send on `fetcherInfoCh`, with the
error it took from `errCh`; `cleanup` is inlined. -/
inductive OrchestratorPC where
  | enqueue (i : Nat)
  | recvErr
  | closeStop (err : Option String)
  | wait (err : Option String)
  | closeLocations (err : Option String)
  | drain (err : Option String)
  | closeHandler (err : Option String)
  | returned (err : Option String)
  deriving DecidableEq, Repr

/-- The goroutines, the channels, the wait group's counter, the temp files, the deltas sent to
etcd, and whether a goroutine panicked. -/
structure Pipeline where
  orchestrator : OrchestratorPC
  applier : Applier
  fetchers : List FetcherPC
  handler : HandlerPC
  fetcherInfoCh : List Nat
  fetcherInfoClosed : Bool
  applierInfoCh : List ApplierInfo
  snapLocationsCh : List String
  snapLocationsClosed : Bool
  errCh : List (Option String)
  stopClosed : Bool
  stopHandleAlarmClosed : Bool
  wg : Nat
  files : List (String × List UInt8)
  applied : List Nat
  crashed : Bool
  deriving DecidableEq, Repr

def Pipeline.init (cfg : PipelineConfig) : Pipeline where
  orchestrator := .enqueue 0
  applier := .init cfg.numSnaps
  fetchers := List.replicate cfg.numFetchers .start
  handler := .select
  fetcherInfoCh := []
  fetcherInfoClosed := false
  applierInfoCh := []
  snapLocationsCh := []
  snapLocationsClosed := false
  errCh := []
  stopClosed := false
  stopHandleAlarmClosed := false
  wg := 0
  files := []
  applied := []
  crashed := false

inductive Outcome where
  | none
  | stop
  | fetched (result : Except String Stream)
  | persisted (result : PersistResult)
  | applied (result : Except String Unit)
  | removed (ok : Bool)
  | lean (l : LeanLabel)
  | defragmented (ok : Bool)

inductive Goroutine where
  | orchestrator
  | applier
  | fetcher (f : Nat)
  | handler
  deriving DecidableEq, Repr

/-! ### Files -/

def writeFile (path : String) (data : List UInt8) (files : List (String × List UInt8)) :
    List (String × List UInt8) :=
  (path, data) :: files.filter (·.1 ≠ path)

def removeFile (path : String) (files : List (String × List UInt8)) : List (String × List UInt8) :=
  files.filter (·.1 ≠ path)

/-- `os.Open` read to its end. -/
def openFile (files : List (String × List UInt8)) (path : String) : Except String Stream :=
  match files.lookup path with
  | some data => .ok ⟨data, none⟩
  | none => .error ("open " ++ path ++ ": no such file or directory")

/-! ### Steps -/

/-- The applier after its own step: `wg.Done` when it returns, and a panic ends the process. -/
def Pipeline.withApplier (s : Pipeline) (a : Applier) : Pipeline :=
  { s with
    applier := a
    wg := if a.pc = .done then s.wg - 1 else s.wg
    crashed := s.crashed || decide (a.pc = .crashed) }

def Pipeline.orchestratorStep (cfg : PipelineConfig) (s : Pipeline) : Outcome → Option Pipeline
  | .none =>
    match s.orchestrator with
    | .enqueue i =>
      if i < cfg.numSnaps then
        if s.fetcherInfoCh.length < cfg.numSnaps then
          some { s with fetcherInfoCh := s.fetcherInfoCh ++ [i], orchestrator := .enqueue (i + 1) }
        else none
      else some { s with fetcherInfoClosed := true, orchestrator := .recvErr }
    | .recvErr =>
      match s.errCh with
      | err :: rest => some { s with errCh := rest, orchestrator := .closeStop err }
      | [] => none
    | .closeStop err => some { s with stopClosed := true, orchestrator := .wait err }
    | .wait err => if s.wg = 0 then some { s with orchestrator := .closeLocations err } else none
    | .closeLocations err => some { s with snapLocationsClosed := true, orchestrator := .drain err }
    | .drain err =>
      match s.snapLocationsCh with
      | [] => some { s with orchestrator := .closeHandler err }
      | path :: rest =>
        if (s.files.lookup path).isSome then none else some { s with snapLocationsCh := rest }
    | .closeHandler err => some { s with stopHandleAlarmClosed := true, orchestrator := .returned err }
    | .returned _ => none
  | .removed ok =>
    match s.orchestrator, s.snapLocationsCh with
    | .drain _, path :: rest =>
      if (s.files.lookup path).isSome then
        some { s with snapLocationsCh := rest, files := if ok then removeFile path s.files else s.files }
      else none
    | _, _ => none
  | _ => none

def Pipeline.applierStep (cfg : PipelineConfig) (s : Pipeline) : Outcome → Option Pipeline
  | .none =>
    match s.applier.pc with
    | .start => (s.applier.step cfg.applier .wgAdd).map fun a => { s.withApplier a with wg := s.wg + 1 }
    | .select =>
      match s.applierInfoCh with
      | info :: rest => (s.applier.step cfg.applier (.recv info)).map { s with applierInfoCh := rest }.withApplier
      | [] => none
    | .read cur =>
      (s.applier.step cfg.applier (.read (openFile s.files (s.applier.pathList.getD cur "")))).map
        s.withApplier
    | .lean _ (.alarm endPoint _) =>
      if s.handler = .select then
        (s.applier.step cfg.applier (.lean .alarm)).map fun a =>
          { s.withApplier a with handler := .defrag endPoint }
      else none
    | .lean _ (.disarm _ _) =>
      match s.handler with
      | .reply ok =>
        (s.applier.step cfg.applier (.lean (.disarm ok))).map fun a => { s.withApplier a with handler := .select }
      | _ => none
    | .send err =>
      if s.errCh.length < cfg.numFetchers + 1 then
        (s.applier.step cfg.applier .send).map { s with errCh := s.errCh ++ [err] }.withApplier
      else none
    | _ => none
  | .stop => if s.stopClosed then (s.applier.step cfg.applier .stop).map s.withApplier else none
  | .applied r =>
    match s.applier.pc with
    | .apply cur _ => (s.applier.step cfg.applier (.apply r)).map { s with applied := s.applied ++ [cur] }.withApplier
    | _ => none
  | .removed ok =>
    match s.applier.pc with
    | .remove cur =>
      (s.applier.step cfg.applier .remove).map
        { s with files := if ok then removeFile (s.applier.pathList.getD cur "") s.files else s.files }.withApplier
    | _ => none
  | .lean l => if l.isCall then (s.applier.step cfg.applier (.lean l)).map s.withApplier else none
  | _ => none

/-- The message `persistRawDeltaSnapshot`'s error gets in `fetchSnaps`. -/
def persistFailure (cfg : PipelineConfig) (i : Nat) (err : String) : String :=
  "failed to persist delta snapshot " ++ (cfg.applier.snap i).snapName ++ " to temp file path " ++
    cfg.snapTempFilePath i ++ " : " ++ err

/-- One step of a fetcher at `pc`: the shared state after it and the fetcher's next point. -/
def fetcherNext (cfg : PipelineConfig) (s : Pipeline) : FetcherPC → Outcome → Option (Pipeline × FetcherPC)
  | .start, .none => some ({ s with wg := s.wg + 1 }, .range)
  | .range, .none =>
    match s.fetcherInfoCh with
    | i :: rest => some ({ s with fetcherInfoCh := rest }, .select i)
    | [] => if s.fetcherInfoClosed then some ({ s with wg := s.wg - 1 }, .done) else none
  | .select i, .none => if s.stopClosed then some ({ s with wg := s.wg - 1 }, .done) else some (s, .fetch i)
  | .fetch i, .fetched (.error err) =>
    some (s, .fetchFailed i
      ("failed to fetch delta snapshot " ++ (cfg.applier.snap i).snapName ++ " from store : " ++ err))
  | .fetch i, .fetched (.ok rc) => some (s, .persist i (some rc))
  | .fetchFailed i err, .none =>
    if s.errCh.length < cfg.numFetchers + 1 then some ({ s with errCh := s.errCh ++ [some err] }, .fetchSentinel i)
    else none
  | .fetchSentinel i, .none =>
    if s.applierInfoCh.length < cfg.numSnaps then
      some ({ s with applierInfoCh := s.applierInfoCh ++ [⟨"", -1⟩] }, .persist i none)
    else none
  | .persist i _, .persisted .createFailed =>
    some (s, .persistFailed i (persistFailure cfg i
      ("failed to create temp file " ++ cfg.snapTempFilePath i ++ " to store raw delta snapshot")))
  | .persist i none, .persisted (.created _) =>
    -- `tempFile.ReadFrom(nil)` reads from a nil `io.Reader`
    some ({ s with files := writeFile (cfg.snapTempFilePath i) [] s.files, crashed := true }, .persist i none)
  | .persist i (some rc), .persisted (.created close) =>
    let s := { s with files := writeFile (cfg.snapTempFilePath i) rc.data s.files }
    match rc.readError, close with
    | some err, _ => some (s, .persistFailed i (persistFailure cfg i err))
    | none, .error err => some (s, .persistFailed i (persistFailure cfg i err))
    | none, .ok () => some (s, .sendLocation i)
  | .persistFailed i err, .none =>
    if s.errCh.length < cfg.numFetchers + 1 then some ({ s with errCh := s.errCh ++ [some err] }, .persistSentinel i)
    else none
  | .persistSentinel i, .none =>
    if s.applierInfoCh.length < cfg.numSnaps then
      some ({ s with applierInfoCh := s.applierInfoCh ++ [⟨"", -1⟩] }, .sendLocation i)
    else none
  | .sendLocation i, .none =>
    -- a send on the closed `snapLocationsCh` panics
    if s.snapLocationsClosed then some ({ s with crashed := true }, .sendLocation i)
    else if s.snapLocationsCh.length < cfg.numSnaps then
      some ({ s with snapLocationsCh := s.snapLocationsCh ++ [cfg.snapTempFilePath i] }, .sendInfo i)
    else none
  | .sendInfo i, .none =>
    if s.applierInfoCh.length < cfg.numSnaps then
      some ({ s with applierInfoCh := s.applierInfoCh ++ [⟨cfg.snapTempFilePath i, i⟩] }, .range)
    else none
  | _, _ => none

def Pipeline.fetcherStep (cfg : PipelineConfig) (s : Pipeline) (f : Nat) (o : Outcome) : Option Pipeline :=
  match s.fetchers[f]? with
  | some pc => (fetcherNext cfg s pc o).map fun next => { next.1 with fetchers := s.fetchers.set f next.2 }
  | none => none

def Pipeline.handlerStep (s : Pipeline) : Outcome → Option Pipeline
  | .none => if s.handler = .select ∧ s.stopHandleAlarmClosed then some { s with handler := .done } else none
  | .defragmented ok =>
    match s.handler with
    | .defrag _ => some { s with handler := .reply ok }
    | _ => none
  | _ => none

/-- One step of goroutine `g` observing `o`; nothing moves once a goroutine has panicked. -/
def Pipeline.step (cfg : PipelineConfig) (s : Pipeline) (g : Goroutine) (o : Outcome) : Option Pipeline :=
  if s.crashed then none
  else
    match g with
    | .orchestrator => s.orchestratorStep cfg o
    | .applier => s.applierStep cfg o
    | .fetcher f => s.fetcherStep cfg f o
    | .handler => s.handlerStep o

inductive PipelineReach (cfg : PipelineConfig) : Pipeline → Prop where
  | init : PipelineReach cfg (.init cfg)
  | step {s s' : Pipeline} (g : Goroutine) (o : Outcome) :
      PipelineReach cfg s → s.step cfg g o = some s' → PipelineReach cfg s'

def Pipeline.run (cfg : PipelineConfig) (s : Pipeline) : List (Goroutine × Outcome) → Option Pipeline
  | [] => some s
  | (g, o) :: rest => (s.step cfg g o).bind fun s' => s'.run cfg rest

theorem PipelineReach.run {cfg : PipelineConfig} : ∀ {s s' : Pipeline} (steps : List (Goroutine × Outcome)),
    PipelineReach cfg s → s.run cfg steps = some s' → PipelineReach cfg s'
  | _, _, [], reach, h => by cases h; exact reach
  | s, s', (g, o) :: rest, reach, h => by
    simp only [Pipeline.run, Option.bind_eq_some] at h
    obtain ⟨s₁, step, h⟩ := h
    exact PipelineReach.run rest (.step g o reach step) h

theorem PipelineReach.run_map {cfg : PipelineConfig} {s : Pipeline} {α : Type} {p : Pipeline → α} {x : α}
    (reach : PipelineReach cfg s) (steps : List (Goroutine × Outcome)) (h : (s.run cfg steps).map p = some x) :
    ∃ s', PipelineReach cfg s' ∧ p s' = x := by
  obtain ⟨s', run, hp⟩ := Option.map_eq_some'.mp h
  exact ⟨s', reach.run steps run, hp⟩

theorem PipelineReach.run_then {cfg : PipelineConfig} {s₀ : Pipeline} (reach : PipelineReach cfg s₀)
    (first second : List (Goroutine × Outcome)) {P : Pipeline → Pipeline → Prop} [∀ s s', Decidable (P s s')]
    (h : (s₀.run cfg first).bind (fun s => (s.run cfg second).map fun s' => decide (P s s')) = some true) :
    ∃ s s', PipelineReach cfg s ∧ s.run cfg second = some s' ∧ P s s' := by
  simp only [Option.bind_eq_some, Option.map_eq_some', decide_eq_true_eq] at h
  obtain ⟨s, run₁, s', run₂, holds⟩ := h
  exact ⟨s, s', reach.run first run₁, run₂, holds⟩

/-! ### What each goroutine's step changes -/

structure Pipeline.Frame (s s' : Pipeline) : Prop where
  applier : s'.applier = s.applier
  fetchers : s'.fetchers = s.fetchers
  wg : s'.wg = s.wg
  applierInfoCh : s'.applierInfoCh = s.applierInfoCh
  applied : s'.applied = s.applied
  crashed : s'.crashed = s.crashed

theorem Pipeline.orchestratorStep_frame {cfg : PipelineConfig} {s s' : Pipeline} {o : Outcome}
    (h : s.orchestratorStep cfg o = some s') : s.Frame s' := by
  unfold Pipeline.orchestratorStep at h
  repeat' split at h
  all_goals cases h <;> exact ⟨rfl, rfl, rfl, rfl, rfl, rfl⟩

theorem Pipeline.handlerStep_frame {s s' : Pipeline} {o : Outcome} (h : s.handlerStep o = some s') :
    s.Frame s' := by
  unfold Pipeline.handlerStep at h
  repeat' split at h
  all_goals cases h <;> exact ⟨rfl, rfl, rfl, rfl, rfl, rfl⟩

def OrchestratorPC.taken : OrchestratorPC → Option (Option String)
  | .enqueue _ | .recvErr => none
  | .closeStop err | .wait err | .closeLocations err | .drain err | .closeHandler err | .returned err => some err

theorem Pipeline.orchestratorStep_taken {cfg : PipelineConfig} {s s' : Pipeline} {o : Outcome}
    (h : s.orchestratorStep cfg o = some s') :
    (s'.errCh = s.errCh ∧ s'.orchestrator.taken = s.orchestrator.taken) ∨
      ∃ err, s.errCh = err :: s'.errCh ∧ s'.orchestrator.taken = some err := by
  unfold Pipeline.orchestratorStep at h
  repeat' split at h
  all_goals cases h
  all_goals first
    | exact .inl ⟨rfl, rfl⟩
    | exact .inl ⟨rfl, by rw [‹s.orchestrator = _›]; rfl⟩
    | exact .inr ⟨_, ‹_›, rfl⟩

def OrchestratorPC.enqueued (numSnaps : Nat) : OrchestratorPC → Nat
  | .enqueue i => i
  | _ => numSnaps

theorem Pipeline.orchestratorStep_enqueue {cfg : PipelineConfig} {s s' : Pipeline} {o : Outcome}
    (h : s.orchestratorStep cfg o = some s') :
    (∃ i, s.orchestrator = .enqueue i ∧ i < cfg.numSnaps ∧ s'.orchestrator = .enqueue (i + 1) ∧
      s'.fetcherInfoCh = s.fetcherInfoCh ++ [i]) ∨
    (s'.fetcherInfoCh = s.fetcherInfoCh ∧ (s'.orchestrator = s.orchestrator ∨
      (∀ i, s'.orchestrator ≠ .enqueue i) ∧ ∀ i, s.orchestrator = .enqueue i → cfg.numSnaps ≤ i)) := by
  unfold Pipeline.orchestratorStep at h
  repeat' split at h
  all_goals cases h
  all_goals first
    | exact .inl ⟨_, ‹_›, ‹_›, rfl, rfl⟩
    | exact .inr ⟨rfl, .inl rfl⟩
    | have was := ‹s.orchestrator = _›
      refine .inr ⟨rfl, .inr ⟨fun _ h => (by cases h), fun _ at_i => ?_⟩⟩
      cases was.symm.trans at_i <;> exact Nat.not_lt.mp ‹_›

theorem Pipeline.handlerStep_same {s s' : Pipeline} {o : Outcome} (h : s.handlerStep o = some s') :
    s'.errCh = s.errCh ∧ s'.orchestrator = s.orchestrator ∧ s'.fetcherInfoCh = s.fetcherInfoCh := by
  unfold Pipeline.handlerStep at h
  repeat' split at h
  all_goals cases h <;> exact ⟨rfl, rfl, rfl⟩

/-- Between its `wg.Add(1)` and its `wg.Done()`. -/
def FetcherPC.counted : FetcherPC → Bool
  | .start | .done => false
  | _ => true

@[simp] theorem FetcherPC.counted_eq_false {pc : FetcherPC} : pc.counted = false ↔ pc = .start ∨ pc = .done := by
  cases pc <;> simp [FetcherPC.counted]

/-- The delta a fetcher works on, from taking it off `fetcherInfoCh` until it goes back to
the `range` loop. -/
def FetcherPC.index : FetcherPC → Option Nat
  | .select i | .fetch i | .fetchFailed i _ | .fetchSentinel i | .persist i _ | .persistFailed i _
  | .persistSentinel i | .sendLocation i | .sendInfo i => some i
  | .start | .range | .done => none

structure Pipeline.FetcherSends (cfg : PipelineConfig) (s t : Pipeline) : Prop where
  applied : t.applied = s.applied
  applier : t.applier = s.applier
  orchestrator : t.orchestrator = s.orchestrator
  errCh : t.errCh = s.errCh ∨ ∃ err, t.errCh = s.errCh ++ [some err]
  applierInfoCh : t.applierInfoCh = s.applierInfoCh ∨ t.applierInfoCh = s.applierInfoCh ++ [⟨"", -1⟩] ∨
    ∃ i : Nat, t.applierInfoCh = s.applierInfoCh ++ [⟨cfg.snapTempFilePath i, i⟩]

theorem Pipeline.FetcherSends.prefix {cfg : PipelineConfig} {s t : Pipeline} (sent : Pipeline.FetcherSends cfg s t) :
    s.applierInfoCh <+: t.applierInfoCh := by
  rcases sent.applierInfoCh with more | more | ⟨_, more⟩ <;> rw [more]
  all_goals exact List.prefix_append _ _

theorem fetcherNext_spec {cfg : PipelineConfig} {s t : Pipeline} {pc pc' : FetcherPC} {o : Outcome}
    (h : fetcherNext cfg s pc o = some (t, pc')) :
    Pipeline.FetcherSends cfg s t ∧
      ((pc'.counted = pc.counted ∧ t.wg = s.wg) ∨ (pc = .start ∧ pc' = .range ∧ t.wg = s.wg + 1) ∨
        (pc.counted = true ∧ pc' = .done ∧ t.wg = s.wg - 1)) ∧
      ((t.fetcherInfoCh = s.fetcherInfoCh ∧ (pc'.index = pc.index ∨ pc'.index = none)) ∨
        ∃ i, s.fetcherInfoCh = i :: t.fetcherInfoCh ∧ pc.index = none ∧ pc'.index = some i) := by
  unfold fetcherNext at h
  repeat' split at h
  all_goals cases h
  all_goals exact ⟨⟨rfl, rfl, rfl, by first | exact .inl rfl | exact .inr ⟨_, rfl⟩,
      by first | exact .inl rfl | exact .inr (.inl rfl) | exact .inr (.inr ⟨_, rfl⟩)⟩,
    by first
      | exact .inl ⟨rfl, rfl⟩ | exact .inr (.inl ⟨rfl, rfl, rfl⟩) | exact .inr (.inr ⟨rfl, rfl, rfl⟩),
    by first | exact .inl ⟨rfl, .inl rfl⟩ | exact .inl ⟨rfl, .inr rfl⟩ | exact .inr ⟨_, ‹_›, rfl, rfl⟩⟩

theorem Pipeline.fetcherStep_sends {cfg : PipelineConfig} {s s' : Pipeline} {f : Nat} {o : Outcome}
    (h : s.fetcherStep cfg f o = some s') : Pipeline.FetcherSends cfg s s' := by
  unfold Pipeline.fetcherStep at h
  split at h
  · obtain ⟨⟨t, pc'⟩, next, rfl⟩ := Option.map_eq_some'.mp h
    have sent := (fetcherNext_spec next).1
    exact ⟨sent.applied, sent.applier, sent.orchestrator, sent.errCh, sent.applierInfoCh⟩
  · cases h

theorem Pipeline.fetcherStep_spec {cfg : PipelineConfig} {s s' : Pipeline} {f : Nat} {o : Outcome}
    (h : s.fetcherStep cfg f o = some s') :
    ∃ pc pc', s.fetchers[f]? = some pc ∧ s'.fetchers = s.fetchers.set f pc' ∧
      s'.applier = s.applier ∧ s.applierInfoCh <+: s'.applierInfoCh ∧
      ((pc'.counted = pc.counted ∧ s'.wg = s.wg) ∨ (pc = .start ∧ pc' = .range ∧ s'.wg = s.wg + 1) ∨
        (pc.counted = true ∧ pc' = .done ∧ s'.wg = s.wg - 1)) ∧
      ((s'.fetcherInfoCh = s.fetcherInfoCh ∧ (pc'.index = pc.index ∨ pc'.index = none)) ∨
        ∃ i, s.fetcherInfoCh = i :: s'.fetcherInfoCh ∧ pc.index = none ∧ pc'.index = some i) := by
  unfold Pipeline.fetcherStep at h
  split at h
  · rename_i pc at_f
    obtain ⟨⟨t, pc'⟩, next, rfl⟩ := Option.map_eq_some'.mp h
    obtain ⟨sent, wg, queue⟩ := fetcherNext_spec next
    exact ⟨pc, pc', at_f, rfl, sent.applier, sent.prefix, wg, queue⟩
  · cases h

theorem Pipeline.step_fetcher {cfg : PipelineConfig} {s t : Pipeline} {f : Nat} {pc pc' : FetcherPC}
    {o : Outcome} (running : s.crashed = false) (at_f : s.fetchers[f]? = some pc)
    (next : fetcherNext cfg s pc o = some (t, pc')) :
    s.step cfg (.fetcher f) o = some { t with fetchers := s.fetchers.set f pc' } := by
  simp only [Pipeline.step, running, Pipeline.fetcherStep, at_f, next, Option.map_some']
  rfl

def ApplierLabel.received : ApplierLabel → List ApplierInfo
  | .recv info => [info]
  | _ => []

def ApplierLabel.applies (pc : ApplierPC) : ApplierLabel → List Nat
  | .apply _ => match pc with
    | .apply cur _ => [cur]
    | _ => []
  | _ => []

def ApplierLabel.sends (pc : ApplierPC) : ApplierLabel → List (Option String)
  | .send => match pc with
    | .send err => [err]
    | _ => []
  | _ => []

/-- A step of the applier goroutine is a step of `applySnaps`: it takes the head of
`applierInfoCh`, records what it applies, appends what it sends, and leaves the rest. -/
structure Pipeline.ApplierMove (cfg : PipelineConfig) (s s' : Pipeline) (l : ApplierLabel) : Prop where
  step : s.applier.step cfg.applier l = some s'.applier
  received : s.applierInfoCh = l.received ++ s'.applierInfoCh
  applied : s'.applied = s.applied ++ l.applies s.applier.pc
  sent : s'.errCh = s.errCh ++ l.sends s.applier.pc
  orchestrator : s'.orchestrator = s.orchestrator
  fetcherInfoCh : s'.fetcherInfoCh = s.fetcherInfoCh

theorem Pipeline.applierStep_spec {cfg : PipelineConfig} {s s' : Pipeline} {o : Outcome}
    (h : s.applierStep cfg o = some s') : ∃ l, Pipeline.ApplierMove cfg s s' l := by
  unfold Pipeline.applierStep at h
  repeat' split at h
  all_goals first
    | cases h
    | obtain ⟨a, step, rfl⟩ := Option.map_eq_some'.mp h
      refine ⟨_, step, ?_, ?_, ?_, rfl, rfl⟩
      · first | exact ‹s.applierInfoCh = _› | rfl
      · first | exact (List.append_nil _).symm | (rw [‹s.applier.pc = _›]; rfl)
      · first | exact (List.append_nil _).symm | (rw [‹s.applier.pc = _›]; rfl)

theorem Pipeline.applierStep_wg {cfg : PipelineConfig} {s s' : Pipeline} {o : Outcome}
    (h : s.applierStep cfg o = some s') :
    s'.fetchers = s.fetchers ∧
      s'.wg = if s.applier.pc = .start then s.wg + 1 else if s'.applier.pc = .done then s.wg - 1 else s.wg := by
  unfold Pipeline.applierStep at h
  repeat' split at h
  all_goals first
    | cases h
    | obtain ⟨a, step, rfl⟩ := Option.map_eq_some'.mp h
      by_cases at_start : s.applier.pc = .start
      · obtain ⟨label, -⟩ := Applier.step_start at_start step
        first | (cases label; done) | exact ⟨rfl, by rw [if_pos at_start]⟩
      · first
          | exact absurd ‹s.applier.pc = .start› at_start
          | exact ⟨rfl, by rw [if_neg at_start]; rfl⟩

theorem Pipeline.step_applier {cfg : PipelineConfig} {s s' : Pipeline} {g : Goroutine} {o : Outcome}
    (h : s.step cfg g o = some s') :
    s'.applier = s.applier ∨ ∃ l, s.applier.step cfg.applier l = some s'.applier := by
  unfold Pipeline.step at h
  split at h
  · cases h
  · rcases g with _ | _ | f | _
    · exact .inl (Pipeline.orchestratorStep_frame h).applier
    · obtain ⟨l, move⟩ := Pipeline.applierStep_spec h
      exact .inr ⟨l, move.step⟩
    · obtain ⟨_, _, _, _, applier, _⟩ := Pipeline.fetcherStep_spec h
      exact .inl applier
    · exact .inl (Pipeline.handlerStep_frame h).applier

theorem PipelineReach.applier {cfg : PipelineConfig} {s : Pipeline} (reach : PipelineReach cfg s) :
    ApplierReach cfg.applier s.applier := by
  induction reach with
  | init => exact .init
  | step g o _ step ih =>
    rcases Pipeline.step_applier step with same | ⟨l, astep⟩
    · exact same ▸ ih
    · exact .step l ih astep

end EtcdRestore
