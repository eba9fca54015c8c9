import EtcdRestore.PipelineSafety

/-! `applySnaps` on its own, fed messages on `applierInfoCh` in any order, duplicates included.
It keeps every path it is sent in `pathList` and, on the message for `nextSnapIndexToApply`,
applies the longest run of deltas from there whose paths it holds. The calls of
`MakeEtcdLeanAndCheckAlarm` and the closing of `stopCh` are left free. -/
namespace EtcdRestore

/-! ### Feeding the applier -/

/-- `applySnaps` with what it has observed: the messages it took from `applierInfoCh`, the
deltas whose events it sent to etcd and the values it sent on `errCh`. -/
structure ApplierTrace where
  applier : Applier
  received : List ApplierInfo
  applied : List Nat
  sent : List (Option String)
  deriving DecidableEq, Repr

def ApplierTrace.step (cfg : ApplierConfig) (x : ApplierTrace) (l : ApplierLabel) : Option ApplierTrace :=
  (x.applier.step cfg l).map fun a =>
    ⟨a, x.received ++ l.received, x.applied ++ l.applies x.applier.pc, x.sent ++ l.sends x.applier.pc⟩

/-- The outcomes the applier is fed: messages for deltas `0, …, n - 1` with non-empty paths,
and files that open, check, decode and apply at their revision. -/
def ApplierLabel.Succeeds (cfg : ApplierConfig) (pc : ApplierPC) : ApplierLabel → Prop
  | .recv info =>
    (∃ idx : Nat, info.snapIndex = idx ∧ idx < cfg.remainingSnaps.length) ∧ info.snapFilePath ≠ ""
  | .read file => ∀ cur, pc = .read cur → ∃ rc data events, file = .ok rc ∧
    cfg.restorer.readSnapshotContentsFromReadCloser rc (cfg.snap cur) = .ok data ∧
    cfg.restorer.codec.unmarshal data = .ok events
  | .apply result => result = .ok ()
  | _ => True

inductive ApplierFed (cfg : ApplierConfig) : ApplierTrace → Prop where
  | init : ApplierFed cfg ⟨.init cfg.remainingSnaps.length, [], [], []⟩
  | step {x x' : ApplierTrace} (l : ApplierLabel) : ApplierFed cfg x → l.Succeeds cfg x.applier.pc →
      x.step cfg l = some x' → ApplierFed cfg x'

theorem ApplierFed.reach {cfg : ApplierConfig} {x : ApplierTrace} (fed : ApplierFed cfg x) :
    ApplierReach cfg x.applier := by
  induction fed with
  | init => exact .init
  | step l _ _ step ih =>
    obtain ⟨a, astep, rfl⟩ := Option.map_eq_some'.mp step
    exact .step l ih astep

/-! ### What one step of the applier does -/

theorem Applier.receive_of_lt (cfg : ApplierConfig) (a : Applier) {info : ApplierInfo} {idx : Nat}
    (at_idx : info.snapIndex = idx) (lt : idx < a.pathList.length) :
    a.receive cfg info =
      let a' := { a with pathList := a.pathList.set idx info.snapFilePath }
      { a' with pc :=
        if idx < a.nextSnapIndexToApply then ApplierPC.send (some ("snap index mismatch for delta snapshot " ++
          toString idx ++ "; expected snap index to be atleast " ++ toString a.nextSnapIndexToApply))
        else if idx = a.nextSnapIndexToApply then a'.drainFrom cfg idx else .select } := by
  unfold Applier.receive
  rw [at_idx]
  simp only [lt, if_true]
  split_ifs <;> rfl

theorem Applier.drainFrom_select {cfg : ApplierConfig} {a : Applier} {cur : Nat}
    (h : a.drainFrom cfg cur = .select) (lt : cur < cfg.remainingSnaps.length) : a.pathList.getD cur "" = "" := by
  by_contra held
  rw [Applier.drainFrom, if_pos ⟨lt, held⟩] at h
  cases h

theorem readNext_ok {cfg : ApplierConfig} {cur : Nat} {filePath : String} {rc : Stream}
    {data : List UInt8} {events : List Event}
    (read : cfg.restorer.readSnapshotContentsFromReadCloser rc (cfg.snap cur) = .ok data)
    (decoded : cfg.restorer.codec.unmarshal data = .ok events) :
    readNext cfg cur filePath (.ok rc) = .apply cur events := by
  simp only [readNext, read, decoded]

theorem Applier.step_of_send_eq {cfg : ApplierConfig} {a a' : Applier} {l : ApplierLabel} {err : Option String}
    (at_send : a.pc = .send err) (h : a.step cfg l = some a') : l = .send ∧ a' = { a with pc := .done } := by
  cases l <;> simp [Applier.step, at_send] at h
  exact ⟨rfl, h.symm⟩

/-- How many deltas the applier has sent to etcd: `next`, and one more from sending the
events of delta `next` until its temp file is removed. -/
def Applier.appliedCount (a : Applier) : Nat :=
  match a.pc with
  | .remove _ => a.nextSnapIndexToApply + 1
  | _ => a.nextSnapIndexToApply

theorem Applier.appliedCount_eq {a : Applier} (h : ∀ cur, a.pc ≠ .remove cur) :
    a.appliedCount = a.nextSnapIndexToApply := by
  unfold Applier.appliedCount
  split
  · exact absurd ‹_› (h _)
  · rfl

theorem getD_set_ne {pathList : List String} {i j : Nat} (ne : i ≠ j) (path : String) :
    (pathList.set i path).getD j "" = pathList.getD j "" := by
  simp [List.getElem?_set_ne ne]

theorem filled_set {pathList : List String} {i : Nat} (held : pathList.getD i "" ≠ "") (idx : Nat)
    {path : String} (ne : path ≠ "") : (pathList.set idx path).getD i "" ≠ "" := by
  by_cases same : idx = i
  · subst same
    have lt : idx < pathList.length := by
      by_contra out
      simp [List.getD_eq_getElem?_getD, List.getElem?_eq_none (Nat.le_of_not_lt out)] at held
    simpa [List.getD_eq_getElem?_getD, lt] using ne
  · rwa [getD_set_ne same]

theorem paths_set {pathList : List String} {received : List ApplierInfo}
    (paths : ∀ i : Nat, pathList.getD i "" ≠ "" ↔ (i : Int) ∈ received.map ApplierInfo.snapIndex)
    {info : ApplierInfo} {idx : Nat} (at_idx : info.snapIndex = idx) (lt : idx < pathList.length)
    (path : info.snapFilePath ≠ "") (i : Nat) :
    (pathList.set idx info.snapFilePath).getD i "" ≠ "" ↔
      (i : Int) ∈ (received ++ [info]).map ApplierInfo.snapIndex := by
  rw [List.map_append, List.mem_append, ← paths i, List.map_singleton, List.mem_singleton, at_idx,
    Int.ofNat_inj]
  by_cases same : i = idx
  · subst same
    simp [List.getD_eq_getElem?_getD, lt, path]
  · simp only [List.getD_eq_getElem?_getD, List.getElem?_set_ne (Ne.symm same), same, or_false]

/-! ### What a fed run keeps -/

def ApplierPC.working : ApplierPC → Option Nat
  | .read cur | .apply cur _ | .remove cur => some cur
  | _ => none

/-- Between messages: not started yet, waiting on the `select`, or returning. -/
def ApplierPC.betweenMessages : ApplierPC → Bool
  | .start | .select | .send _ | .done => true
  | _ => false

/-- What a fed run keeps: `pathList` against the deltas received and applied, the deltas
sent to etcd, and when nil is sent. -/
structure Reassembled (cfg : ApplierConfig) (x : ApplierTrace) : Prop where
  paths : ∀ i : Nat, x.applier.pathList.getD i "" ≠ "" ↔ (i : Int) ∈ x.received.map ApplierInfo.snapIndex
  filled : ∀ i < x.applier.nextSnapIndexToApply, x.applier.pathList.getD i "" ≠ ""
  current : ∀ cur, x.applier.pc.working = some cur → x.applier.pathList.getD cur "" ≠ ""
  waiting : x.applier.pc.betweenMessages → x.applier.pathList.getD x.applier.nextSnapIndexToApply "" = ""
  applied : x.applied = List.range x.applier.appliedCount
  nil : (x.applier.pc = .send none ∨ none ∈ x.sent) ↔ x.applier.nextSnapIndexToApply = cfg.remainingSnaps.length

theorem Reassembled.init {cfg : ApplierConfig} (pos : 0 < cfg.remainingSnaps.length) :
    Reassembled cfg ⟨.init cfg.remainingSnaps.length, [], [], []⟩ := by
  have empty : ∀ i, (List.replicate cfg.remainingSnaps.length "").getD i "" = "" := fun i => by
    simp only [List.getD_eq_getElem?_getD, List.getElem?_replicate]
    split <;> rfl
  exact ⟨fun i => by simp [Applier.init, empty], nofun, nofun, fun _ => empty 0, rfl,
    by simp [Applier.init]; omega⟩

theorem Reassembled.move {cfg : ApplierConfig} {x : ApplierTrace} (inv : Reassembled cfg x)
    {pc : ApplierPC} (working : pc.working = none ∨ pc.working = x.applier.pc.working)
    (between : pc.betweenMessages → x.applier.pc.betweenMessages)
    (count : ∀ cur, pc ≠ .remove cur ∧ x.applier.pc ≠ .remove cur)
    (nil : pc ≠ .send none ∧ x.applier.pc ≠ .send none) :
    Reassembled cfg ⟨{ x.applier with pc }, x.received, x.applied, x.sent⟩ := by
  have same : ({ x.applier with pc } : Applier).appliedCount = x.applier.appliedCount :=
    (Applier.appliedCount_eq fun cur => (count cur).1).trans (Applier.appliedCount_eq fun cur => (count cur).2).symm
  refine ⟨inv.paths, inv.filled, fun cur at_cur => ?_, fun b => inv.waiting (between b),
    same ▸ inv.applied, ?_⟩
  · rcases working with none | same
    · exact absurd (none ▸ at_cur) nofun
    · exact inv.current cur (same ▸ at_cur)
  · simpa [nil.1, nil.2] using inv.nil

theorem Reassembled.drain {cfg : ApplierConfig} {b : Applier} {received : List ApplierInfo}
    {applied : List Nat} {sent : List (Option String)}
    (paths : ∀ i : Nat, b.pathList.getD i "" ≠ "" ↔ (i : Int) ∈ received.map ApplierInfo.snapIndex)
    (filled : ∀ i < b.nextSnapIndexToApply, b.pathList.getD i "" ≠ "")
    (lt : b.nextSnapIndexToApply < cfg.remainingSnaps.length)
    (at_pc : b.pc = b.drainFrom cfg b.nextSnapIndexToApply)
    (in_order : applied = List.range b.nextSnapIndexToApply) (no_nil : none ∉ sent) :
    Reassembled cfg ⟨b, received, applied, sent⟩ := by
  rcases @drainFrom_eq cfg b b.nextSnapIndexToApply with waits | ⟨reads, -⟩
  · refine ⟨paths, filled, by simp [at_pc, waits, ApplierPC.working], fun _ => Applier.drainFrom_select waits lt,
      by simpa [Applier.appliedCount, at_pc, waits] using in_order, by simp [at_pc, waits, no_nil]; omega⟩
  · refine ⟨paths, filled, fun _ working => ?_, by simp [at_pc, reads, ApplierPC.betweenMessages],
      by simpa [Applier.appliedCount, at_pc, reads] using in_order, by simp [at_pc, reads, no_nil]; omega⟩
    simp only [at_pc, reads, ApplierPC.working, Option.some.injEq] at working
    exact working ▸ Applier.drainFrom_read reads

theorem Reassembled.not_sent_nil {cfg : ApplierConfig} {x : ApplierTrace} (inv : Reassembled cfg x)
    (lt : x.applier.nextSnapIndexToApply < cfg.remainingSnaps.length) : none ∉ x.sent :=
  fun mem => absurd (inv.nil.mp (.inr mem)) (Nat.ne_of_lt lt)

theorem Reassembled.step {cfg : ApplierConfig} {x x' : ApplierTrace} {l : ApplierLabel}
    (ainv : ApplierInv cfg x.applier) (inv : Reassembled cfg x) (ok : l.Succeeds cfg x.applier.pc)
    (h : x.step cfg l = some x') : Reassembled cfg x' := by
  obtain ⟨a', step, rfl⟩ := Option.map_eq_some'.mp h
  clear h
  unfold Applier.step at step
  split at step <;> (try cases step) <;>
    (try simp only [ApplierLabel.received, ApplierLabel.applies, ApplierLabel.sends, List.append_nil])
  -- `wg.Add(1)`, and the closed `stopCh`
  case h_1.refl at_pc | h_2.refl at_pc =>
    exact inv.move (.inl rfl) (fun _ => by simp [at_pc, ApplierPC.betweenMessages])
      (fun _ => by simp [at_pc]) (by simp [at_pc])
  -- a message on `applierInfoCh`
  · rename_i info at_pc
    obtain ⟨⟨idx, at_idx, lt⟩, path⟩ := ok
    have lt' : idx < x.applier.pathList.length := ainv.length ▸ lt
    have paths := paths_set inv.paths at_idx lt' path
    have filled := fun i hi => filled_set (inv.filled i hi) idx path
    have count : x.applier.appliedCount = x.applier.nextSnapIndexToApply := by
      simp [Applier.appliedCount, at_pc]
    have kept : idx ≠ x.applier.nextSnapIndexToApply →
        (x.applier.pathList.set idx info.snapFilePath).getD x.applier.nextSnapIndexToApply "" = "" :=
      fun ne => (getD_set_ne ne _).trans (inv.waiting (by simp [at_pc, ApplierPC.betweenMessages]))
    have nil : none ∈ x.sent ↔ x.applier.nextSnapIndexToApply = cfg.remainingSnaps.length := by
      simpa [at_pc] using inv.nil
    rw [Applier.receive_of_lt cfg _ at_idx lt']
    dsimp only
    split_ifs with below same
    · exact ⟨paths, filled, nofun, fun _ => kept (by omega), count ▸ inv.applied, by simpa using nil⟩
    · subst same
      exact .drain paths filled lt rfl (count ▸ inv.applied) (inv.not_sent_nil lt)
    · exact ⟨paths, filled, nofun, fun _ => kept (by omega), count ▸ inv.applied, by simpa using nil⟩
  -- reading, checking and decoding delta `cur`
  · rename_i cur file at_pc
    obtain ⟨rc, data, events, rfl, read, decoded⟩ := ok cur at_pc
    rw [readNext_ok read decoded]
    exact inv.move (.inr (by simp [at_pc, ApplierPC.working])) (by simp [ApplierPC.betweenMessages])
      (fun _ => by simp [at_pc]) (by simp [at_pc])
  -- `applyEventsAndVerify` fails or succeeds
  · cases ok
  · rename_i cur events at_pc
    obtain ⟨rfl, -⟩ := ainv.apply _ _ at_pc
    simp only [ApplierLabel.applies, ApplierLabel.sends, at_pc, List.append_nil]
    refine ⟨inv.paths, inv.filled, fun _ h => ?_, nofun, ?_, by simpa [at_pc] using inv.nil⟩
    · cases h
      exact inv.current _ (by simp [at_pc, ApplierPC.working])
    · rw [inv.applied]
      simp [Applier.appliedCount, at_pc, List.range_succ]
  -- removing the temp file of delta `cur`
  · rename_i cur at_pc
    rw [ainv.afterRemove_eq at_pc]
    obtain ⟨rfl, lt⟩ := ainv.remove cur at_pc
    have filled : ∀ i < x.applier.nextSnapIndexToApply + 1, x.applier.pathList.getD i "" ≠ "" := fun i hi =>
      (Nat.lt_succ_iff_lt_or_eq.mp hi).elim (inv.filled i)
        fun h => h ▸ inv.current _ (by simp [at_pc, ApplierPC.working])
    have in_order : x.applied = List.range (x.applier.nextSnapIndexToApply + 1) := by
      simpa [Applier.appliedCount, at_pc] using inv.applied
    have no_nil := inv.not_sent_nil lt
    split_ifs with last lean
    · refine ⟨inv.paths, filled, nofun, fun _ => ?_, in_order, by simp [last]⟩
      exact List.getD_eq_default _ _ (by dsimp only; rw [ainv.length]; omega)
    · exact ⟨inv.paths, filled, nofun, nofun, in_order, by simp [no_nil]; omega⟩
    · exact .drain inv.paths filled (by dsimp only; omega) rfl in_order no_nil
  -- a step of `MakeEtcdLeanAndCheckAlarm`
  · obtain ⟨next, -, rfl⟩ := Option.map_eq_some'.mp step
    rename_i cur pc l at_pc
    cases next with
    | next pc' =>
      exact inv.move (.inl rfl) nofun (fun _ => by simp [at_pc]) (by simp [at_pc])
    | returned r =>
      obtain ⟨same, lt⟩ := ainv.lean _ _ at_pc
      simp only [Applier.afterLean]
      rw [same]
      exact .drain inv.paths inv.filled lt rfl (by simpa [Applier.appliedCount, at_pc] using inv.applied)
        (inv.not_sent_nil lt)
  -- the send on `errCh`
  · rename_i e at_pc
    simp only [ApplierLabel.applies, ApplierLabel.sends, at_pc, List.append_nil]
    refine ⟨inv.paths, inv.filled, nofun, fun _ => inv.waiting (by simp [at_pc, ApplierPC.betweenMessages]),
      by simpa [Applier.appliedCount, at_pc] using inv.applied, ?_⟩
    rw [← inv.nil, at_pc]
    simp [eq_comm, or_comm]

theorem ApplierFed.reassembled {cfg : ApplierConfig} (pos : 0 < cfg.remainingSnaps.length) {x : ApplierTrace}
    (fed : ApplierFed cfg x) : Reassembled cfg x := by
  induction fed with
  | init => exact .init pos
  | step _ fed ok step ih => exact ih.step fed.reach.inv ok step

/-! ### Messages in any order -/

/-- Fed deltas `0, …, n - 1` in any order, the applier sends `0, …, next - 1` to etcd in order,
each once, answers a message below `next` with the ordering error, and sends nil at `n`. -/
theorem applySnaps_reassembles (cfg : ApplierConfig) (pos : 0 < cfg.remainingSnaps.length)
    (x : ApplierTrace) (fed : ApplierFed cfg x) :
    (x.applier.pc.betweenMessages →
      x.applied = List.range x.applier.nextSnapIndexToApply ∧
      (∀ i < x.applier.nextSnapIndexToApply, (i : Int) ∈ x.received.map ApplierInfo.snapIndex) ∧
      (x.applier.nextSnapIndexToApply : Int) ∉ x.received.map ApplierInfo.snapIndex) ∧
    (x.applier.pc = .select → x.applier.pathList.getD x.applier.nextSnapIndexToApply "" = "") ∧
    (∀ (info : ApplierInfo) (idx : Nat), info.snapIndex = idx → idx < x.applier.nextSnapIndexToApply →
      x.applier.pc = .select →
      let err := "snap index mismatch for delta snapshot " ++ toString idx ++
        "; expected snap index to be atleast " ++ toString x.applier.nextSnapIndexToApply
      ∃ x', x.step cfg (.recv info) = some x' ∧ x'.applier.pc = .send (some err) ∧ x'.applied = x.applied ∧
        ∀ l x'', x'.step cfg l = some x'' →
          x''.applier.pc = .done ∧ x''.applied = x.applied ∧ x''.sent = x.sent ++ [some err] ∧
            ∀ l', x''.step cfg l' = none) ∧
    ((x.applier.pc = .send none ∨ none ∈ x.sent) ↔ x.applier.nextSnapIndexToApply = cfg.remainingSnaps.length) := by
  have inv := fed.reassembled pos
  have ainv := fed.reach.inv
  refine ⟨fun between => ⟨?_, fun i lt => (inv.paths i).mp (inv.filled i lt),
      fun mem => (inv.paths _).mpr mem (inv.waiting between)⟩,
    fun at_select => inv.waiting (by simp [at_select, ApplierPC.betweenMessages]),
    fun info idx at_idx below at_select => ?_, inv.nil⟩
  · rw [inv.applied, Applier.appliedCount_eq]
    intro cur at_remove
    simp [at_remove, ApplierPC.betweenMessages] at between
  · have lt : idx < x.applier.pathList.length := by rw [ainv.length]; have := ainv.next_le; omega
    have at_send : (x.applier.receive cfg info).pc = .send (some ("snap index mismatch for delta snapshot " ++
        toString idx ++ "; expected snap index to be atleast " ++ toString x.applier.nextSnapIndexToApply)) := by
      simp only [Applier.receive_of_lt cfg _ at_idx lt, if_pos below]
    refine ⟨⟨x.applier.receive cfg info, x.received ++ [info], x.applied, x.sent⟩,
      by simp [ApplierTrace.step, Applier.step, at_select, ApplierLabel.received, ApplierLabel.applies,
        ApplierLabel.sends], at_send, rfl, fun l x'' h => ?_⟩
    · obtain ⟨a'', step, rfl⟩ := Option.map_eq_some'.mp h
      obtain ⟨rfl, rfl⟩ := Applier.step_of_send_eq at_send step
      refine ⟨rfl, by simp [ApplierLabel.applies], by simp [ApplierLabel.sends, at_send], fun l' => ?_⟩
      simp [ApplierTrace.step, Applier.step_done]

def deltaOneFirst : ApplierTrace :=
  ⟨⟨.done, ["p0", "p1"], 2, 2, false⟩, [⟨"p1", 1⟩, ⟨"p0", 0⟩], [0, 1], [none]⟩

theorem delta_one_first_applied_in_order :
    ApplierFed twoDeltas deltaOneFirst ∧ deltaOneFirst.applied = List.range 2 ∧ none ∈ deltaOneFirst.sent := by
  have framed : ∀ cur, (ApplierLabel.read (.ok ⟨[0] ++ List.replicate 32 0, none⟩)).Succeeds twoDeltas (.read cur) :=
    fun cur _ h => by cases h; exact ⟨_, _, _, rfl, rfl, rfl⟩
  have started : ApplierFed twoDeltas ⟨⟨.select, ["", ""], 0, 1, false⟩, [], [], []⟩ :=
    .step .wgAdd .init trivial (by decide)
  have kept : ApplierFed twoDeltas ⟨⟨.select, ["", "p1"], 0, 1, false⟩, [⟨"p1", 1⟩], [], []⟩ :=
    .step (.recv ⟨"p1", 1⟩) started ⟨⟨1, rfl, by decide⟩, by decide⟩ (by decide)
  have read0 : ApplierFed twoDeltas ⟨⟨.read 0, ["p0", "p1"], 0, 1, false⟩, [⟨"p1", 1⟩, ⟨"p0", 0⟩], [], []⟩ :=
    .step (.recv ⟨"p0", 0⟩) kept ⟨⟨0, rfl, by decide⟩, by decide⟩ (by decide)
  have apply0 : ApplierFed twoDeltas ⟨⟨.apply 0 [], ["p0", "p1"], 0, 1, false⟩, [⟨"p1", 1⟩, ⟨"p0", 0⟩], [], []⟩ :=
    .step _ read0 (framed 0) (by decide)
  have remove0 : ApplierFed twoDeltas ⟨⟨.remove 0, ["p0", "p1"], 0, 1, false⟩, [⟨"p1", 1⟩, ⟨"p0", 0⟩], [0], []⟩ :=
    .step (.apply (.ok ())) apply0 rfl (by decide)
  have read1 : ApplierFed twoDeltas ⟨⟨.read 1, ["p0", "p1"], 1, 2, false⟩, [⟨"p1", 1⟩, ⟨"p0", 0⟩], [0], []⟩ :=
    .step .remove remove0 trivial (by decide)
  have apply1 : ApplierFed twoDeltas ⟨⟨.apply 1 [], ["p0", "p1"], 1, 2, false⟩, [⟨"p1", 1⟩, ⟨"p0", 0⟩], [0], []⟩ :=
    .step _ read1 (framed 1) (by decide)
  have remove1 : ApplierFed twoDeltas ⟨⟨.remove 1, ["p0", "p1"], 1, 2, false⟩, [⟨"p1", 1⟩, ⟨"p0", 0⟩], [0, 1], []⟩ :=
    .step (.apply (.ok ())) apply1 rfl (by decide)
  have sending : ApplierFed twoDeltas ⟨⟨.send none, ["p0", "p1"], 2, 2, false⟩, [⟨"p1", 1⟩, ⟨"p0", 0⟩], [0, 1], []⟩ :=
    .step .remove remove1 trivial (by decide)
  have fed : ApplierFed twoDeltas deltaOneFirst := .step .send sending trivial (by decide)
  have reassembled := applySnaps_reassembles twoDeltas (by decide) _ fed
  exact ⟨fed, (reassembled.1 rfl).1, (reassembled.2.2.2.mpr rfl).resolve_left nofun⟩

end EtcdRestore
