import EtcdRestore.DeepCopy

/-! `NewRestorationConfig`, `RestorationConfig.Validate` and `InitIndex.ConsistentIndex`.
`types.NewURLsMap`, `types.NewURLs` and `path.Clean` are not in the repository, so they are
parameters (`ConfigChecks`); `Validate` works on `*c`, so the model returns the error and the
config as `Validate` leaves it. -/
namespace EtcdRestore

def defaultName : String := "default"
def defaultInitialAdvertisePeerURLs : String := "http://localhost:2380"
def defaultInitialClusterToken : String := "etcd-cluster"
def defaultMaxFetchers : Nat := 6
def defaultMaxCallSendMsgSize : Int := 10 * 1024 * 1024
def defaultMaxRequestBytes : Nat := 10 * 1024 * 1024
def defaultMaxTxnOps : Nat := 10 * 1024
def defaultEmbeddedEtcdQuotaBytes : Int := 8 * 1024 * 1024 * 1024
def defaultAutoCompactionMode : String := "periodic"
def defaultAutoCompactionRetention : String := "30m"

def initialClusterFromName (name : String) : String :=
  let n := if name = "" then defaultName else name
  n ++ "=http://localhost:2380"

def newRestorationConfig : RestorationConfig (List String) where
  initialCluster := initialClusterFromName defaultName
  initialClusterToken := defaultInitialClusterToken
  dataDir := defaultName ++ ".etcd"
  tempSnapshotsDir := defaultName ++ ".restoration.tmp"
  initialAdvertisePeerURLs := [defaultInitialAdvertisePeerURLs]
  name := defaultName
  skipHashCheck := false
  maxFetchers := defaultMaxFetchers
  maxCallSendMsgSize := defaultMaxCallSendMsgSize
  maxRequestBytes := defaultMaxRequestBytes
  maxTxnOps := defaultMaxTxnOps
  embeddedEtcdQuotaBytes := defaultEmbeddedEtcdQuotaBytes
  autoCompactionMode := defaultAutoCompactionMode
  autoCompactionRetention := defaultAutoCompactionRetention

/-- `types.NewURLsMap`, `types.NewURLs` and `path.Clean`, as far as `Validate` uses them. -/
structure ConfigChecks where
  newURLsMap : String → Except String Unit
  newURLs : List String → Except String Unit
  clean : String → String

def RestorationConfig.validate (p : ConfigChecks) (c : RestorationConfig (List String)) :
    Option String × RestorationConfig (List String) :=
  match p.newURLsMap c.initialCluster with
  | .error err => (some ("failed creating url map for restore cluster: " ++ err), c)
  | .ok () =>
    match p.newURLs c.initialAdvertisePeerURLs with
    | .error err => (some ("failed parsing peers urls for restore cluster: " ++ err), c)
    | .ok () =>
      if c.maxCallSendMsgSize ≤ 0 then (some "max call send message should be greater than zero", c)
      else if c.maxFetchers ≤ 0 then (some "max fetchers should be greater than zero", c)
      else if c.embeddedEtcdQuotaBytes ≤ 0 then (some "etcd quota size for etcd must be greater than 0", c)
      else if c.autoCompactionMode ≠ "periodic" ∧ c.autoCompactionMode ≠ "revision" then
        (some "UnSupported auto-compaction-mode", c)
      else (none, { c with dataDir := p.clean c.dataDir, tempSnapshotsDir := p.clean c.tempSnapshotsDir })

/-- What `Validate` checks, in its order. -/
structure RestorationConfig.Checks (p : ConfigChecks) (c : RestorationConfig (List String)) : Prop where
  initialCluster : p.newURLsMap c.initialCluster = .ok ()
  initialAdvertisePeerURLs : p.newURLs c.initialAdvertisePeerURLs = .ok ()
  maxCallSendMsgSize : 0 < c.maxCallSendMsgSize
  maxFetchers : 0 < c.maxFetchers
  embeddedEtcdQuotaBytes : 0 < c.embeddedEtcdQuotaBytes
  autoCompactionMode : c.autoCompactionMode = "periodic" ∨ c.autoCompactionMode = "revision"

theorem RestorationConfig.Checks.with_dirs {p : ConfigChecks} {c : RestorationConfig (List String)}
    (checks : c.Checks p) (dataDir tempSnapshotsDir : String) :
    RestorationConfig.Checks p { c with dataDir := dataDir, tempSnapshotsDir := tempSnapshotsDir } :=
  ⟨checks.initialCluster, checks.initialAdvertisePeerURLs, checks.maxCallSendMsgSize, checks.maxFetchers,
    checks.embeddedEtcdQuotaBytes, checks.autoCompactionMode⟩

theorem RestorationConfig.validate_spec (p : ConfigChecks) (c : RestorationConfig (List String)) :
    (c.Checks p ∧
        c.validate p = (none, { c with dataDir := p.clean c.dataDir, tempSnapshotsDir := p.clean c.tempSnapshotsDir })) ∨
      (¬ c.Checks p ∧ ∃ err, c.validate p = (some err, c)) := by
  unfold RestorationConfig.validate
  split
  · rename_i failed
    exact .inr ⟨fun checks => (by rw [checks.initialCluster] at failed; cases failed), _, rfl⟩
  rename_i cluster
  split
  · rename_i failed
    exact .inr ⟨fun checks => (by rw [checks.initialAdvertisePeerURLs] at failed; cases failed), _, rfl⟩
  rename_i peers
  split_ifs with size fetchers quota mode
  · exact .inr ⟨fun checks => by have := checks.maxCallSendMsgSize; omega, _, rfl⟩
  · exact .inr ⟨fun checks => by have := checks.maxFetchers; omega, _, rfl⟩
  · exact .inr ⟨fun checks => by have := checks.embeddedEtcdQuotaBytes; omega, _, rfl⟩
  · exact .inr ⟨fun checks => checks.autoCompactionMode.elim mode.1 mode.2, _, rfl⟩
  · exact .inl ⟨⟨cluster, peers, by omega, by omega, by omega, by tauto⟩, rfl⟩

theorem RestorationConfig.validate_eq_none_iff {p : ConfigChecks} {c : RestorationConfig (List String)} :
    (c.validate p).1 = none ↔ c.Checks p := by
  rcases c.validate_spec p with ⟨checks, h⟩ | ⟨failed, err, h⟩ <;> simp only [h, true_iff, reduceCtorEq, false_iff]
  exacts [checks, failed]

theorem RestorationConfig.validate_failed {p : ConfigChecks} {c : RestorationConfig (List String)}
    (failed : (c.validate p).1 ≠ none) : (c.validate p).2 = c := by
  rcases c.validate_spec p with ⟨-, h⟩ | ⟨-, err, h⟩ <;> rw [h] at failed ⊢
  exact absurd rfl failed

theorem RestorationConfig.validate_maxFetchers {p : ConfigChecks} {c c' : RestorationConfig (List String)}
    (accepted : c.validate p = (none, c')) : 0 < c'.maxFetchers := by
  rcases c.validate_spec p with ⟨checks, h⟩ | ⟨-, err, h⟩ <;> rw [h] at accepted <;> cases accepted
  exact checks.maxFetchers

theorem RestorationConfig.validate_validate {p : ConfigChecks} {c : RestorationConfig (List String)}
    (idempotent : ∀ dir, p.clean (p.clean dir) = p.clean dir) (accepted : (c.validate p).1 = none) :
    (c.validate p).2.validate p = c.validate p := by
  rcases c.validate_spec p with ⟨checks, h⟩ | ⟨-, err, h⟩
  · rcases (c.validate p).2.validate_spec p with ⟨-, again⟩ | ⟨failed, -⟩
    · rw [again, h]
      simp only [idempotent]
    · rw [h] at failed
      exact absurd (checks.with_dirs _ _) failed
  · rw [h] at accepted
    cases accepted

theorem newRestorationConfig_checks {p : ConfigChecks}
    (cluster : p.newURLsMap (initialClusterFromName defaultName) = .ok ())
    (peers : p.newURLs [defaultInitialAdvertisePeerURLs] = .ok ()) : newRestorationConfig.Checks p :=
  ⟨cluster, peers, by decide, by decide, by decide, .inl rfl⟩

/-! ### `InitIndex` -/

/-- `InitIndex`, a Go `int`: 64 bits wide, as on the platforms the restorer is built for. -/
structure InitIndex where
  val : Int
  ge : -2 ^ 63 ≤ val
  lt : val < 2 ^ 63

/-- `uint64(*i)`: the two's complement bits of the index, read as unsigned. -/
def InitIndex.consistentIndex (i : InitIndex) : UInt64 := UInt64.ofNat (i.val % 2 ^ 64).toNat

theorem InitIndex.consistentIndex_toNat (i : InitIndex) :
    (i.consistentIndex.toNat : Int) = if 0 ≤ i.val then i.val else i.val + 2 ^ 64 := by
  have lt := i.lt
  have ge := i.ge
  rw [InitIndex.consistentIndex, UInt64.toNat_ofNat_of_lt (by simp only [UInt64.size]; omega)]
  split <;> omega

example : (⟨-1, by decide, by decide⟩ : InitIndex).consistentIndex = 18446744073709551615 := by decide

end EtcdRestore
