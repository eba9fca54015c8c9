import EtcdRestore.Events
import EtcdRestore.Integrity

/-! The first delta snapshot is applied before the pipeline starts
(`applyFirstDeltaSnapshot`). The base snapshot may already hold some of its revisions, so
only the events after the first one above etcd's latest revision are replayed. When no
event is above that revision the scan leaves `newRevisionIndex` at zero. -/
namespace EtcdRestore

variable {σ : Type}

/-- The index of the first event above `lastRevision`, if there is one. -/
def indexAbove (lastRevision : Int) : List Event → Option Nat
  | [] => none
  | e :: es =>
    if e.kv.modRevision > lastRevision then some 0 else (indexAbove lastRevision es).map (· + 1)

/-- `newRevisionIndex` after the scan with `break`; it keeps its zero value when the scan
finds nothing. -/
def newRevisionIndex (events : List Event) (lastRevision : Int) : Nat :=
  (indexAbove lastRevision events).getD 0

def Restorer.applyFirstDeltaSnapshot (r : Restorer) (kv : KV σ) (snap : Snapshot) (s : σ) :
    σ × Except String Unit :=
  match r.store.fetch snap with
  | .error err =>
    (s, .error ("failed to fetch delta snapshot " ++ snap.snapName ++ " from store : " ++ err))
  | .ok rc =>
    match r.readSnapshotContentsFromReadCloser rc snap with
    | .error err =>
      (s, .error ("failed to read events data from delta snapshot " ++ snap.snapName ++ " : " ++ err))
    | .ok eventsData =>
      match r.codec.unmarshal eventsData with
      | .error err =>
        (s, .error ("failed to unmarshal events data from delta snapshot " ++ snap.snapName ++ " : " ++ err))
      | .ok events =>
        match kv.get s "" with
        | .error err => (s, .error ("failed to get etcd latest revision: " ++ err))
        | .ok lastRevision =>
          if lastRevision = snap.lastRevision then (s, .ok ())
          else applyEventsToEtcd kv (events.drop (newRevisionIndex events lastRevision)) s

theorem applyFirstDeltaSnapshot_decoded (r : Restorer) (kv : KV σ) (snap : Snapshot) (s : σ)
    {rc : Stream} {eventsData : List UInt8} {events : List Event} {R : Int}
    (fetched : r.store.fetch snap = .ok rc)
    (read : r.readSnapshotContentsFromReadCloser rc snap = .ok eventsData)
    (decoded : r.codec.unmarshal eventsData = .ok events) (latest : kv.get s "" = .ok R) :
    r.applyFirstDeltaSnapshot kv snap s =
      if R = snap.lastRevision then (s, .ok ())
      else applyEventsToEtcd kv (events.drop (newRevisionIndex events R)) s := by
  simp only [Restorer.applyFirstDeltaSnapshot, fetched, read, decoded, latest]

theorem applyFirstDeltaSnapshot_unread (r : Restorer) (kv : KV σ) (snap : Snapshot) (s : σ)
    {rc : Stream} {err : String} (fetched : r.store.fetch snap = .ok rc)
    (unread : r.readSnapshotContentsFromReadCloser rc snap = .error err) :
    r.applyFirstDeltaSnapshot kv snap s =
      (s, .error ("failed to read events data from delta snapshot " ++ snap.snapName ++ " : " ++ err)) := by
  simp only [Restorer.applyFirstDeltaSnapshot, fetched, unread]

theorem indexAbove_some {R : Int} : ∀ {events : List Event} {i : Nat}, indexAbove R events = some i →
    events.drop i = events.dropWhile fun e => e.kv.modRevision ≤ R
  | [], _, h => by simp [indexAbove] at h
  | e :: es, i, h => by
    by_cases above : e.kv.modRevision > R
    · simp only [indexAbove, above, if_true, Option.some.injEq] at h
      subst h
      simp [List.dropWhile_cons, Int.not_le.mpr above]
    · simp only [indexAbove, above, if_false, Option.map_eq_some'] at h
      obtain ⟨j, hj, rfl⟩ := h
      simp [List.dropWhile_cons, Int.not_lt.mp above, indexAbove_some hj]

theorem indexAbove_none {R : Int} : ∀ {events : List Event}, indexAbove R events = none →
    ∀ e ∈ events, e.kv.modRevision ≤ R
  | [], _ => by simp
  | e :: es, h => by
    by_cases above : e.kv.modRevision > R
    · simp [indexAbove, above] at h
    · simp only [indexAbove, above, if_false, Option.map_eq_none'] at h
      intro x hx
      rcases List.mem_cons.mp hx with rfl | hx
      · exact Int.not_lt.mp above
      · exact indexAbove_none h x hx

theorem dropWhile_le_eq_filter {R : Int} : ∀ {events : List Event},
    events.Pairwise (fun a b => a.kv.modRevision ≤ b.kv.modRevision) →
    events.dropWhile (fun e => e.kv.modRevision ≤ R) = events.filter fun e => R < e.kv.modRevision
  | [], _ => rfl
  | e :: es, sorted => by
    have tail := List.pairwise_cons.mp sorted
    by_cases le : e.kv.modRevision ≤ R
    · simp [List.dropWhile_cons, le, dropWhile_le_eq_filter tail.2, Int.not_lt.mpr le]
    · have lt := Int.not_le.mp le
      have above : ∀ x ∈ es, R < x.kv.modRevision := fun x hx => Int.lt_of_lt_of_le lt (tail.1 x hx)
      simp [List.dropWhile_cons, le, lt, List.filter_eq_self.mpr fun x hx => decide_eq_true (above x hx)]

theorem applyFirstDeltaSnapshot_replays_above (r : Restorer) (kv : KV σ) (snap : Snapshot) (s : σ)
    {rc : Stream} {eventsData : List UInt8} {events : List Event} {R : Int}
    (fetched : r.store.fetch snap = .ok rc)
    (read : r.readSnapshotContentsFromReadCloser rc snap = .ok eventsData)
    (decoded : r.codec.unmarshal eventsData = .ok events) (latest : kv.get s "" = .ok R)
    (ordered : events.Pairwise fun a b => a.kv.modRevision ≤ b.kv.modRevision)
    (differs : R ≠ snap.lastRevision) (some_above : ∃ e ∈ events, R < e.kv.modRevision) :
    r.applyFirstDeltaSnapshot kv snap s =
      applyEventsToEtcd kv (events.filter fun e => R < e.kv.modRevision) s := by
  rw [applyFirstDeltaSnapshot_decoded r kv snap s fetched read decoded latest, if_neg differs]
  cases found : indexAbove R events with
  | none =>
    obtain ⟨e, he, lt⟩ := some_above
    exact absurd (indexAbove_none found e he) (Int.not_le.mpr lt)
  | some i =>
    simp only [newRevisionIndex, found, Option.getD_some, indexAbove_some found,
      dropWhile_le_eq_filter ordered]

def txnLog (revision : Int) : KV (List (List Op)) where
  txn log ops := .ok (log ++ [ops])
  get _ _ := .ok revision

/-- A snapstore whose delta decodes to `events`, its payload framed with its hash. -/
def deltaRestorer (sha256 : List UInt8 → Digest) (events : List Event) : Restorer where
  store := ⟨fun _ => .ok ⟨[0] ++ (sha256 [0]).val, none⟩⟩
  codec := ⟨sha256, ⟨fun _ => .ok (false, ""), fun rc _ => .ok rc⟩, fun _ => .ok events⟩

/-- The first delta's only event is at revision 5 while etcd reports 6: the event is
replayed, where replaying the events above 6 commits one empty transaction. -/
theorem first_delta_replays_below (sha256 : List UInt8 → Digest) :
    (deltaRestorer sha256 [⟨.put, ⟨"a", "1", 5⟩⟩]).applyFirstDeltaSnapshot (txnLog 6)
        ⟨"", "d", 5, ""⟩ [] = ([[.put "a" "1"]], .ok ()) ∧
    applyEventsToEtcd (txnLog 6)
        ([⟨.put, ⟨"a", "1", 5⟩⟩].filter fun e : Event => 6 < e.kv.modRevision) [] = ([[]], .ok ()) := by
  refine ⟨?_, rfl⟩
  rw [applyFirstDeltaSnapshot_decoded _ _ _ _ rfl
    (readSnapshotContents_framed _ _ rfl [0] (List.cons_ne_nil 0 [])) rfl rfl]
  rfl

end EtcdRestore
