import EtcdRestore.Types

/-! `RestoreOptions.DeepCopy` over an explicit store of the mutable cells a `RestoreOptions`
value reaches: a pointer, slice or map is `none` when nil and otherwise a cell's address, and
`new` and `make` append a cell. `url.URL` and `Snapshot` values are copied whole. -/
namespace EtcdRestore

/-- `url.URL`, with the fields a copy carries over. -/
structure URL where
  scheme : String
  user : Option String
  host : String
  path : String
  deriving DecidableEq, Repr, Inhabited

/-- `RestorationConfig`, its `InitialAdvertisePeerURLs` of type `urls`: a reference to a
cell in the store, or the strings it denotes. -/
structure RestorationConfig (urls : Type) where
  initialCluster : String
  initialClusterToken : String
  dataDir : String
  tempSnapshotsDir : String
  name : String
  autoCompactionRetention : String
  autoCompactionMode : String
  initialAdvertisePeerURLs : urls
  maxTxnOps : Nat
  maxRequestBytes : Nat
  maxCallSendMsgSize : Int
  embeddedEtcdQuotaBytes : Int
  maxFetchers : Nat
  skipHashCheck : Bool
  deriving DecidableEq, Repr, Inhabited

/-- The cells: configs, `[]string` and `types.URLs` backing arrays, `types.URLsMap`s,
`SnapList` backing arrays of `*Snapshot`, and `Snapshot`s. -/
structure Store where
  configs : List (RestorationConfig (Option Nat))
  strings : List (List String)
  urlsMaps : List (List (String × Option Nat))
  urls : List (List URL)
  snapLists : List (List (Option Nat))
  snapshots : List Snapshot
  deriving DecidableEq, Repr

/-- `RestoreOptions`. `NewClientFactory` is a function value, named by a number. -/
structure RestoreOptions where
  config : Option Nat
  clusterURLs : Option Nat
  baseSnapshot : Option Nat
  newClientFactory : Option Nat
  peerURLs : Option Nat
  deltaSnapList : Option Nat
  originalClusterSize : Int
  deriving DecidableEq, Repr

/-! ### The copy -/

/-- `if in.X != nil { out.X = copy(in.X) }`. -/
def copyRef (copy : Store → Nat → Store × Nat) (s : Store) : Option Nat → Store × Option Nat
  | none => (s, none)
  | some a => ((copy s a).1, some (copy s a).2)

/-- `make([]string, len(*c))` and `copy`. -/
def copyStrings (s : Store) (a : Nat) : Store × Nat :=
  ({ s with strings := s.strings ++ [s.strings.getD a []] }, s.strings.length)

def RestorationConfig.deepCopyInto (s : Store) (c : RestorationConfig (Option Nat)) :
    Store × RestorationConfig (Option Nat) :=
  let urls := copyRef copyStrings s c.initialAdvertisePeerURLs
  (urls.1, { c with initialAdvertisePeerURLs := urls.2 })

/-- `RestorationConfig.DeepCopy` of the config at `a`, which is also what
`RestoreOptions.DeepCopyInto` does with `Config`. -/
def RestorationConfig.deepCopy (s : Store) (a : Nat) : Store × Nat :=
  let out := (s.configs.getD a default).deepCopyInto s
  ({ out.1 with configs := out.1.configs ++ [out.2] }, out.1.configs.length)

/-- `DeepCopyURLs`: a fresh backing array with the same URLs; the `new(url.Userinfo)` of
`DeepCopyURL` is overwritten with `*in` at once. -/
def deepCopyURLs (s : Store) (a : Nat) : Store × Nat :=
  ({ s with urls := s.urls ++ [s.urls.getD a []] }, s.urls.length)

/-- The loop over `ClusterURLs`: a key whose value is nil is skipped. -/
def copyURLsMapEntries (s : Store) : List (String × Option Nat) → Store × List (String × Option Nat)
  | [] => (s, [])
  | (_, none) :: m => copyURLsMapEntries s m
  | (k, some a) :: m =>
    let rest := copyURLsMapEntries (deepCopyURLs s a).1 m
    (rest.1, (k, some (deepCopyURLs s a).2) :: rest.2)

/-- `make(types.URLsMap)` filled by the loop. -/
def copyURLsMap (s : Store) (a : Nat) : Store × Nat :=
  let out := copyURLsMapEntries s (s.urlsMaps.getD a [])
  ({ out.1 with urlsMaps := out.1.urlsMaps ++ [out.2] }, out.1.urlsMaps.length)

/-- The loop of `DeepCopySnapList`: a fresh cell for each non-nil snapshot. -/
def copySnapshots (s : Store) : List (Option Nat) → Store × List (Option Nat)
  | [] => (s, [])
  | none :: ps => ((copySnapshots s ps).1, none :: (copySnapshots s ps).2)
  | some p :: ps =>
    let rest := copySnapshots { s with snapshots := s.snapshots ++ [s.snapshots.getD p default] } ps
    (rest.1, some s.snapshots.length :: rest.2)

def deepCopySnapList (s : Store) (a : Nat) : Store × Nat :=
  let out := copySnapshots s (s.snapLists.getD a [])
  ({ out.1 with snapLists := out.1.snapLists ++ [out.2] }, out.1.snapLists.length)

def deepCopyNewClientFactory (f : Option Nat) : Option Nat := f

/-- `RestoreOptions.DeepCopyInto`: `*out = *in`, then fresh copies of the non-nil `Config`,
`ClusterURLs`, `PeerURLs` and `DeltaSnapList`; `BaseSnapshot` keeps the copied pointer. -/
def RestoreOptions.deepCopyInto (s : Store) (o : RestoreOptions) : Store × RestoreOptions :=
  let config := copyRef RestorationConfig.deepCopy s o.config
  let clusterURLs := copyRef copyURLsMap config.1 o.clusterURLs
  let peerURLs := copyRef deepCopyURLs clusterURLs.1 o.peerURLs
  let deltaSnapList := copyRef deepCopySnapList peerURLs.1 o.deltaSnapList
  (deltaSnapList.1,
    { o with
      config := config.2, clusterURLs := clusterURLs.2, peerURLs := peerURLs.2,
      deltaSnapList := deltaSnapList.2, newClientFactory := deepCopyNewClientFactory o.newClientFactory })

/-- `RestoreOptions.DeepCopy`, on a nil or non-nil receiver. -/
def RestoreOptions.deepCopy (s : Store) : Option RestoreOptions → Store × Option RestoreOptions
  | none => (s, none)
  | some o => ((o.deepCopyInto s).1, some (o.deepCopyInto s).2)

/-! ### What a value denotes -/

structure RestoreOptionsValue where
  config : Option (RestorationConfig (Option (List String)))
  clusterURLs : Option (List (String × Option (List URL)))
  baseSnapshot : Option Snapshot
  newClientFactory : Option Nat
  peerURLs : Option (List URL)
  deltaSnapList : Option (List (Option Snapshot))
  originalClusterSize : Int
  deriving DecidableEq, Repr

def derefWith {α β : Type} (cells : List α) (f : α → Option β) : Option Nat → Option (Option β)
  | none => some none
  | some a => (cells[a]?.bind f).map some

def RestorationConfig.withURLs {α β : Type} (c : RestorationConfig α) (urls : β) : RestorationConfig β :=
  { c with initialAdvertisePeerURLs := urls }

def Store.configValue (s : Store) (c : RestorationConfig (Option Nat)) :
    Option (RestorationConfig (Option (List String))) :=
  (derefWith s.strings some c.initialAdvertisePeerURLs).map c.withURLs

def Store.urlsMapValue (s : Store) (m : List (String × Option Nat)) :
    Option (List (String × Option (List URL))) :=
  m.mapM fun e => (derefWith s.urls some e.2).map (e.1, ·)

def Store.snapListValue (s : Store) (ps : List (Option Nat)) : Option (List (Option Snapshot)) :=
  ps.mapM (derefWith s.snapshots some)

def Store.value (s : Store) (o : RestoreOptions) : Option RestoreOptionsValue := do
  let config ← derefWith s.configs s.configValue o.config
  let clusterURLs ← derefWith s.urlsMaps s.urlsMapValue o.clusterURLs
  let baseSnapshot ← derefWith s.snapshots some o.baseSnapshot
  let peerURLs ← derefWith s.urls some o.peerURLs
  let deltaSnapList ← derefWith s.snapLists s.snapListValue o.deltaSnapList
  pure ⟨config, clusterURLs, baseSnapshot, o.newClientFactory, peerURLs, deltaSnapList,
    o.originalClusterSize⟩

/-! ### The copy only allocates -/

structure Store.Extends (s s' : Store) : Prop where
  configs : s.configs <+: s'.configs
  strings : s.strings <+: s'.strings
  urlsMaps : s.urlsMaps <+: s'.urlsMaps
  urls : s.urls <+: s'.urls
  snapLists : s.snapLists <+: s'.snapLists
  snapshots : s.snapshots <+: s'.snapshots

theorem Store.Extends.refl (s : Store) : s.Extends s :=
  ⟨List.prefix_refl _, List.prefix_refl _, List.prefix_refl _, List.prefix_refl _, List.prefix_refl _,
    List.prefix_refl _⟩

theorem Store.Extends.trans {s₁ s₂ s₃ : Store} (h₁ : s₁.Extends s₂) (h₂ : s₂.Extends s₃) :
    s₁.Extends s₃ :=
  ⟨h₁.1.trans h₂.1, h₁.2.trans h₂.2, h₁.3.trans h₂.3, h₁.4.trans h₂.4, h₁.5.trans h₂.5,
    h₁.6.trans h₂.6⟩

theorem Store.extends_configs (s : Store) (c : RestorationConfig (Option Nat)) :
    s.Extends { s with configs := s.configs ++ [c] } :=
  ⟨List.prefix_append _ _, List.prefix_refl _, List.prefix_refl _, List.prefix_refl _, List.prefix_refl _,
    List.prefix_refl _⟩

theorem Store.extends_strings (s : Store) (xs : List String) :
    s.Extends { s with strings := s.strings ++ [xs] } :=
  ⟨List.prefix_refl _, List.prefix_append _ _, List.prefix_refl _, List.prefix_refl _, List.prefix_refl _,
    List.prefix_refl _⟩

theorem Store.extends_urlsMaps (s : Store) (m : List (String × Option Nat)) :
    s.Extends { s with urlsMaps := s.urlsMaps ++ [m] } :=
  ⟨List.prefix_refl _, List.prefix_refl _, List.prefix_append _ _, List.prefix_refl _, List.prefix_refl _,
    List.prefix_refl _⟩

theorem Store.extends_urls (s : Store) (us : List URL) : s.Extends { s with urls := s.urls ++ [us] } :=
  ⟨List.prefix_refl _, List.prefix_refl _, List.prefix_refl _, List.prefix_append _ _, List.prefix_refl _,
    List.prefix_refl _⟩

theorem Store.extends_snapLists (s : Store) (ps : List (Option Nat)) :
    s.Extends { s with snapLists := s.snapLists ++ [ps] } :=
  ⟨List.prefix_refl _, List.prefix_refl _, List.prefix_refl _, List.prefix_refl _, List.prefix_append _ _,
    List.prefix_refl _⟩

theorem Store.extends_snapshots (s : Store) (snap : Snapshot) :
    s.Extends { s with snapshots := s.snapshots ++ [snap] } :=
  ⟨List.prefix_refl _, List.prefix_refl _, List.prefix_refl _, List.prefix_refl _, List.prefix_refl _,
    List.prefix_append _ _⟩

theorem getElem?_of_prefix {α : Type} {l l' : List α} (pre : l <+: l') {n : Nat} {x : α}
    (h : l[n]? = some x) : l'[n]? = some x := by
  obtain ⟨t, rfl⟩ := pre
  rw [List.getElem?_append_left (List.getElem?_eq_some_iff.mp h).1, h]

theorem derefWith_mono {α β : Type} {cells cells' : List α} {f g : α → Option β}
    (pre : cells <+: cells') (agree : ∀ x y, f x = some y → g x = some y) :
    ∀ {r : Option Nat} {v : Option β}, derefWith cells f r = some v → derefWith cells' g r = some v
  | none, _, h => h
  | some a, v, h => by
    simp only [derefWith, Option.map_eq_some', Option.bind_eq_some] at h ⊢
    obtain ⟨y, ⟨x, hx, fx⟩, rfl⟩ := h
    exact ⟨y, ⟨x, getElem?_of_prefix pre hx, agree x y fx⟩, rfl⟩

theorem mapM_mono {α β : Type} {f g : α → Option β} (agree : ∀ x y, f x = some y → g x = some y) :
    ∀ {l : List α} {v : List β}, l.mapM f = some v → l.mapM g = some v
  | [], _, h => h
  | a :: l, v, h => by
    rw [List.mapM_cons] at h ⊢
    simp only [Option.bind_eq_bind, Option.bind_eq_some, Option.pure_def, Option.some.injEq] at h ⊢
    obtain ⟨b, fb, bs, fl, rfl⟩ := h
    exact ⟨b, agree a b fb, bs, mapM_mono agree fl, rfl⟩

theorem Store.Extends.configValue {s s' : Store} (ext : s.Extends s') :
    ∀ c y, s.configValue c = some y → s'.configValue c = some y := by
  intro c y h
  simp only [Store.configValue, Option.map_eq_some'] at h ⊢
  obtain ⟨urls, hurls, rfl⟩ := h
  exact ⟨urls, derefWith_mono ext.strings (fun _ _ => id) hurls, rfl⟩

theorem Store.Extends.urlsMapValue {s s' : Store} (ext : s.Extends s') :
    ∀ m y, s.urlsMapValue m = some y → s'.urlsMapValue m = some y :=
  fun _ _ => mapM_mono fun e y h => by
    simp only [Option.map_eq_some'] at h ⊢
    obtain ⟨urls, hurls, rfl⟩ := h
    exact ⟨urls, derefWith_mono ext.urls (fun _ _ => id) hurls, rfl⟩

theorem Store.Extends.snapListValue {s s' : Store} (ext : s.Extends s') :
    ∀ ps y, s.snapListValue ps = some y → s'.snapListValue ps = some y :=
  fun _ _ => mapM_mono fun _ _ => derefWith_mono ext.snapshots fun _ _ => id

theorem Store.Extends.value {s s' : Store} (ext : s.Extends s') {o : RestoreOptions}
    {v : RestoreOptionsValue} (h : s.value o = some v) : s'.value o = some v := by
  simp only [Store.value, Option.bind_eq_bind, Option.bind_eq_some, Option.pure_def,
    Option.some.injEq] at h ⊢
  obtain ⟨config, hc, clusterURLs, hm, base, hb, peers, hp, deltas, hd, rfl⟩ := h
  exact ⟨config, derefWith_mono ext.configs ext.configValue hc,
    clusterURLs, derefWith_mono ext.urlsMaps ext.urlsMapValue hm,
    base, derefWith_mono ext.snapshots (fun _ _ => id) hb,
    peers, derefWith_mono ext.urls (fun _ _ => id) hp,
    deltas, derefWith_mono ext.snapLists ext.snapListValue hd, rfl⟩

/-! ### The copy denotes the same value -/

def Allocates (copy : Store → Nat → Store × Nat) : Prop := ∀ (s : Store) (a : Nat), s.Extends (copy s a).1

def Copies {α β : Type} (cells : Store → List α) (f : Store → α → Option β) (g : β → β)
    (copy : Store → Nat → Store × Nat) : Prop :=
  ∀ s a y, (cells s)[a]?.bind (f s) = some y →
    (cells (copy s a).1)[(copy s a).2]?.bind (f (copy s a).1) = some (g y)

theorem copyRef_extends {copy : Store → Nat → Store × Nat} (alloc : Allocates copy) (s : Store) :
    ∀ r, s.Extends (copyRef copy s r).1
  | none => .refl s
  | some a => alloc s a

theorem copyRef_value {α β : Type} {cells : Store → List α} {f : Store → α → Option β} {g : β → β}
    {copy : Store → Nat → Store × Nat} (copies : Copies cells f g copy) {s : Store} :
    ∀ {r : Option Nat} {v : Option β}, derefWith (cells s) (f s) r = some v →
      derefWith (cells (copyRef copy s r).1) (f (copyRef copy s r).1) (copyRef copy s r).2 = some (v.map g)
  | none, _, h => by cases h; rfl
  | some a, v, h => by
    simp only [derefWith, Option.map_eq_some'] at h
    obtain ⟨y, hy, rfl⟩ := h
    simp only [copyRef, derefWith, copies s a y hy, Option.map_some']

theorem getElem?_append_length {α : Type} (l : List α) (x : α) : (l ++ [x])[l.length]? = some x := by
  simp

theorem copyStrings_allocates : Allocates copyStrings := fun s _ => s.extends_strings _

theorem copyStrings_copies : Copies Store.strings (fun _ => some) id copyStrings := by
  intro s a y h
  simp only [Option.bind_eq_some, Option.some.injEq, exists_eq_right] at h
  simp [copyStrings, h]

theorem deepCopyURLs_allocates : Allocates deepCopyURLs := fun s _ => s.extends_urls _

theorem deepCopyURLs_copies : Copies Store.urls (fun _ => some) id deepCopyURLs := by
  intro s a y h
  simp only [Option.bind_eq_some, Option.some.injEq, exists_eq_right] at h
  simp [deepCopyURLs, h]

theorem RestorationConfig.deepCopyInto_extends (s : Store) (c : RestorationConfig (Option Nat)) :
    s.Extends (c.deepCopyInto s).1 :=
  copyRef_extends copyStrings_allocates s _

theorem RestorationConfig.deepCopyInto_value {s : Store} {c : RestorationConfig (Option Nat)}
    {y : RestorationConfig (Option (List String))} (h : s.configValue c = some y) :
    (c.deepCopyInto s).1.configValue (c.deepCopyInto s).2 = some y := by
  simp only [Store.configValue, Option.map_eq_some'] at h ⊢
  obtain ⟨urls, hurls, rfl⟩ := h
  exact ⟨urls, by simpa using copyRef_value copyStrings_copies hurls, rfl⟩

theorem RestorationConfig.deepCopy_allocates : Allocates RestorationConfig.deepCopy := fun s _ =>
  (RestorationConfig.deepCopyInto_extends s _).trans (Store.extends_configs _ _)

theorem RestorationConfig.deepCopy_copies :
    Copies Store.configs Store.configValue id RestorationConfig.deepCopy := by
  intro s a y h
  simp only [Option.bind_eq_some] at h
  obtain ⟨c, hc, hy⟩ := h
  have get : s.configs.getD a default = c := by simp [hc]
  simp only [RestorationConfig.deepCopy, get, getElem?_append_length, Option.some_bind, id]
  exact (Store.extends_configs _ _).configValue _ _ (RestorationConfig.deepCopyInto_value hy)

theorem Store.urlsMapValue_cons {s : Store} {e : String × Option Nat} {m : List (String × Option Nat)}
    {y : List (String × Option (List URL))} :
    s.urlsMapValue (e :: m) = some y ↔
      ∃ u, derefWith s.urls some e.2 = some u ∧ ∃ ys, s.urlsMapValue m = some ys ∧ y = (e.1, u) :: ys := by
  rw [Store.urlsMapValue, List.mapM_cons]
  simp only [Option.bind_eq_bind, Option.bind_eq_some, Option.map_eq_some', Option.pure_def,
    Option.some.injEq]
  constructor
  · rintro ⟨_, ⟨u, hu, rfl⟩, ys, hys, rfl⟩
    exact ⟨u, hu, ys, hys, rfl⟩
  · rintro ⟨u, hu, ys, hys, rfl⟩
    exact ⟨_, ⟨u, hu, rfl⟩, ys, hys, rfl⟩

theorem copyURLsMapEntries_extends : ∀ (s : Store) (m : List (String × Option Nat)),
    s.Extends (copyURLsMapEntries s m).1
  | s, [] => .refl s
  | s, (_, none) :: m => copyURLsMapEntries_extends s m
  | s, (_, some a) :: m => (deepCopyURLs_allocates s a).trans (copyURLsMapEntries_extends _ m)

theorem copyURLsMapEntries_value : ∀ {s : Store} {m : List (String × Option Nat)}
    {y : List (String × Option (List URL))}, s.urlsMapValue m = some y →
    (copyURLsMapEntries s m).1.urlsMapValue (copyURLsMapEntries s m).2 =
      some (y.filter fun e => e.2.isSome)
  | _, [], _, h => by cases h; rfl
  | s, (k, none) :: m, y, h => by
    obtain ⟨u, hu, ys, hys, rfl⟩ := Store.urlsMapValue_cons.mp h
    cases hu
    simpa [copyURLsMapEntries] using copyURLsMapEntries_value hys
  | s, (k, some a) :: m, y, h => by
    obtain ⟨u, hu, ys, hys, rfl⟩ := Store.urlsMapValue_cons.mp h
    have copied := copyRef_value deepCopyURLs_copies hu
    have rest := copyURLsMapEntries_value ((deepCopyURLs_allocates s a).urlsMapValue _ _ hys)
    simp only [copyRef, Option.map_id'] at copied
    have ext := copyURLsMapEntries_extends (deepCopyURLs s a).1 m
    obtain ⟨x, -, rfl⟩ : ∃ x, s.urls[a]? = some x ∧ some x = u := by simpa [derefWith] using hu
    simp only [copyURLsMapEntries, List.filter_cons, Option.isSome_some, if_true]
    exact Store.urlsMapValue_cons.mpr ⟨_, derefWith_mono ext.urls (fun _ _ => id) copied, _, rest, rfl⟩

theorem copyURLsMap_allocates : Allocates copyURLsMap := fun s _ =>
  (copyURLsMapEntries_extends s _).trans (Store.extends_urlsMaps _ _)

theorem copyURLsMap_copies :
    Copies Store.urlsMaps Store.urlsMapValue (List.filter fun e => e.2.isSome) copyURLsMap := by
  intro s a y h
  simp only [Option.bind_eq_some] at h
  obtain ⟨m, hm, hy⟩ := h
  have get : s.urlsMaps.getD a [] = m := by simp [hm]
  simp only [copyURLsMap, get, getElem?_append_length, Option.some_bind]
  exact (Store.extends_urlsMaps _ _).urlsMapValue _ _ (copyURLsMapEntries_value hy)

theorem Store.snapListValue_cons {s : Store} {p : Option Nat} {ps : List (Option Nat)}
    {y : List (Option Snapshot)} :
    s.snapListValue (p :: ps) = some y ↔
      ∃ x, derefWith s.snapshots some p = some x ∧ ∃ xs, s.snapListValue ps = some xs ∧ y = x :: xs := by
  rw [Store.snapListValue, List.mapM_cons]
  simp only [Option.bind_eq_bind, Option.bind_eq_some, Option.pure_def, Option.some.injEq]
  exact ⟨fun ⟨x, hx, xs, hxs, e⟩ => ⟨x, hx, xs, hxs, e.symm⟩,
    fun ⟨x, hx, xs, hxs, e⟩ => ⟨x, hx, xs, hxs, e.symm⟩⟩

theorem copySnapshots_extends : ∀ (s : Store) (ps : List (Option Nat)), s.Extends (copySnapshots s ps).1
  | s, [] => .refl s
  | s, none :: ps => copySnapshots_extends s ps
  | s, some _ :: ps => (s.extends_snapshots _).trans (copySnapshots_extends _ ps)

theorem copySnapshots_value : ∀ {s : Store} {ps : List (Option Nat)} {y : List (Option Snapshot)},
    s.snapListValue ps = some y → (copySnapshots s ps).1.snapListValue (copySnapshots s ps).2 = some y
  | _, [], _, h => by cases h; rfl
  | s, none :: ps, y, h => by
    obtain ⟨x, hx, xs, hxs, rfl⟩ := Store.snapListValue_cons.mp h
    cases hx
    exact Store.snapListValue_cons.mpr ⟨none, rfl, xs, copySnapshots_value hxs, rfl⟩
  | s, some p :: ps, y, h => by
    obtain ⟨x, hx, xs, hxs, rfl⟩ := Store.snapListValue_cons.mp h
    obtain ⟨snap, hsnap, rfl⟩ : ∃ snap, s.snapshots[p]? = some snap ∧ some snap = x := by
      simpa [derefWith] using hx
    have ext := copySnapshots_extends { s with snapshots := s.snapshots ++ [s.snapshots.getD p default] } ps
    refine Store.snapListValue_cons.mpr ⟨some snap, ?_, xs,
      copySnapshots_value ((s.extends_snapshots _).snapListValue _ _ hxs), rfl⟩
    exact derefWith_mono ext.snapshots (fun _ _ => id) (by simp [derefWith, hsnap])

theorem deepCopySnapList_allocates : Allocates deepCopySnapList := fun s _ =>
  (copySnapshots_extends s _).trans (Store.extends_snapLists _ _)

theorem deepCopySnapList_copies : Copies Store.snapLists Store.snapListValue id deepCopySnapList := by
  intro s a y h
  simp only [Option.bind_eq_some] at h
  obtain ⟨ps, hps, hy⟩ := h
  have get : s.snapLists.getD a [] = ps := by simp [hps]
  simp only [deepCopySnapList, get, getElem?_append_length, Option.some_bind, id]
  exact (Store.extends_snapLists _ _).snapListValue _ _ (copySnapshots_value hy)

theorem RestoreOptions.deepCopyInto_value {s : Store} {o : RestoreOptions} {v : RestoreOptionsValue}
    (h : s.value o = some v) :
    (o.deepCopyInto s).1.value (o.deepCopyInto s).2 =
        some { v with clusterURLs := v.clusterURLs.map (List.filter fun e => e.2.isSome) } ∧
      (o.deepCopyInto s).1.value o = some v := by
  have e₁ := copyRef_extends RestorationConfig.deepCopy_allocates s o.config
  have e₂ := copyRef_extends copyURLsMap_allocates (copyRef RestorationConfig.deepCopy s o.config).1 o.clusterURLs
  have e₃ := copyRef_extends deepCopyURLs_allocates (copyRef copyURLsMap
    (copyRef RestorationConfig.deepCopy s o.config).1 o.clusterURLs).1 o.peerURLs
  have e₄ := copyRef_extends deepCopySnapList_allocates (copyRef deepCopyURLs (copyRef copyURLsMap
    (copyRef RestorationConfig.deepCopy s o.config).1 o.clusterURLs).1 o.peerURLs).1 o.deltaSnapList
  refine ⟨?_, (e₁.trans (e₂.trans (e₃.trans e₄))).value h⟩
  simp only [Store.value, Option.bind_eq_bind, Option.bind_eq_some, Option.pure_def,
    Option.some.injEq] at h ⊢
  obtain ⟨config, hc, clusterURLs, hm, base, hb, peers, hp, deltas, hd, rfl⟩ := h
  have hc₁ := copyRef_value RestorationConfig.deepCopy_copies hc
  have hm₂ := copyRef_value copyURLsMap_copies (derefWith_mono e₁.urlsMaps e₁.urlsMapValue hm)
  have hp₃ := copyRef_value deepCopyURLs_copies (derefWith_mono (e₁.trans e₂).urls (fun _ _ => id) hp)
  have hd₄ := copyRef_value deepCopySnapList_copies
    (derefWith_mono (e₁.trans (e₂.trans e₃)).snapLists (e₁.trans (e₂.trans e₃)).snapListValue hd)
  simp only [Option.map_id, id_eq] at hc₁ hp₃ hd₄
  exact ⟨config, derefWith_mono (e₂.trans (e₃.trans e₄)).configs (e₂.trans (e₃.trans e₄)).configValue hc₁,
    _, derefWith_mono (e₃.trans e₄).urlsMaps (e₃.trans e₄).urlsMapValue hm₂,
    base, derefWith_mono (e₁.trans (e₂.trans (e₃.trans e₄))).snapshots (fun _ _ => id) hb,
    peers, derefWith_mono e₄.urls (fun _ _ => id) hp₃, deltas, hd₄, rfl⟩

/-! ### Which cells the copy shares -/

inductive CellRef where
  | config (a : Nat)
  | strings (a : Nat)
  | urlsMap (a : Nat)
  | urls (a : Nat)
  | snapList (a : Nat)
  | snapshot (a : Nat)
  deriving DecidableEq, Repr

def Store.Fresh (s : Store) : CellRef → Prop
  | .config a => s.configs.length ≤ a
  | .strings a => s.strings.length ≤ a
  | .urlsMap a => s.urlsMaps.length ≤ a
  | .urls a => s.urls.length ≤ a
  | .snapList a => s.snapLists.length ≤ a
  | .snapshot a => s.snapshots.length ≤ a

def refCells {α : Type} [Inhabited α] (cells : List α) (kind : Nat → CellRef) (inner : α → List CellRef) :
    Option Nat → List CellRef
  | none => []
  | some a => kind a :: inner (cells.getD a default)

def Store.cells (s : Store) (o : RestoreOptions) : List CellRef :=
  refCells s.configs .config (fun c => (c.initialAdvertisePeerURLs.map .strings).toList) o.config ++
  refCells s.urlsMaps .urlsMap (List.filterMap fun e => e.2.map .urls) o.clusterURLs ++
  refCells s.snapshots .snapshot (fun _ => []) o.baseSnapshot ++
  refCells s.urls .urls (fun _ => []) o.peerURLs ++
  refCells s.snapLists .snapList (List.filterMap fun p => p.map .snapshot) o.deltaSnapList

theorem derefWith_lt {α β : Type} {cells : List α} {f : α → Option β} {a : Nat} {v : Option β}
    (h : derefWith cells f (some a) = some v) : ∃ x, cells[a]? = some x ∧ ∃ y, f x = some y := by
  simp only [derefWith, Option.map_eq_some', Option.bind_eq_some] at h
  obtain ⟨y, ⟨x, hx, fx⟩, -⟩ := h
  exact ⟨x, hx, y, fx⟩

theorem mapM_some_of_mem {α β : Type} {f : α → Option β} :
    ∀ {l : List α} {ys : List β}, l.mapM f = some ys → ∀ x ∈ l, ∃ y, f x = some y
  | [], _, _, _, hx => nomatch hx
  | a :: l, ys, h, x, hx => by
    rw [List.mapM_cons] at h
    simp only [Option.bind_eq_bind, Option.bind_eq_some] at h
    obtain ⟨b, fb, bs, fl, -⟩ := h
    rcases List.mem_cons.mp hx with rfl | hx
    · exact ⟨b, fb⟩
    · exact mapM_some_of_mem fl x hx

theorem not_fresh_of_getElem? {α : Type} {l : List α} {a : Nat} {x : α} (h : l[a]? = some x) :
    ¬ l.length ≤ a :=
  Nat.not_le.mpr (List.getElem?_eq_some_iff.mp h).1

theorem refCells_not_fresh {α β : Type} [Inhabited α] {s : Store} {cells : List α} {kind : Nat → CellRef}
    {inner : α → List CellRef} {f : α → Option β} {r : Option Nat} {v : Option β}
    (h : derefWith cells f r = some v) (kind_in : ∀ a, a < cells.length → ¬ s.Fresh (kind a))
    (inner_in : ∀ x y, f x = some y → ∀ c ∈ inner x, ¬ s.Fresh c) :
    ∀ c ∈ refCells cells kind inner r, ¬ s.Fresh c := by
  intro c mem
  cases r with
  | none => simp [refCells] at mem
  | some a =>
    obtain ⟨x, hx, y, hy⟩ := derefWith_lt h
    simp only [refCells, List.getD_eq_getElem?_getD, hx, Option.getD_some, List.mem_cons] at mem
    rcases mem with rfl | mem
    · exact kind_in a (List.getElem?_eq_some_iff.mp hx).1
    · exact inner_in x y hy c mem

theorem Store.cells_not_fresh {s : Store} {o : RestoreOptions} {v : RestoreOptionsValue}
    (h : s.value o = some v) : ∀ c ∈ s.cells o, ¬ s.Fresh c := by
  simp only [Store.value, Option.bind_eq_bind, Option.bind_eq_some, Option.pure_def] at h
  obtain ⟨_, hc, _, hm, _, hb, _, hp, _, hd, -⟩ := h
  intro c mem
  simp only [Store.cells, List.mem_append] at mem
  rcases mem with (((config | urlsMap) | base) | peers) | deltas
  · refine refCells_not_fresh hc (fun _ => Nat.not_le.mpr) (fun x y hy c mem => ?_) c config
    simp only [Store.configValue, Option.map_eq_some'] at hy
    simp only [Option.mem_toList, Option.mem_def, Option.map_eq_some'] at mem
    obtain ⟨_, hurls, -⟩ := hy
    obtain ⟨b, hb, rfl⟩ := mem
    obtain ⟨_, hs, -⟩ := derefWith_lt (hb ▸ hurls)
    exact not_fresh_of_getElem? hs
  · refine refCells_not_fresh hm (fun _ => Nat.not_le.mpr) (fun x y hy c mem => ?_) c urlsMap
    simp only [List.mem_filterMap, Option.map_eq_some'] at mem
    obtain ⟨e, he, b, hb, rfl⟩ := mem
    obtain ⟨_, hu⟩ := mapM_some_of_mem hy e he
    simp only [hb, Option.map_eq_some'] at hu
    obtain ⟨_, hurls, -⟩ := hu
    obtain ⟨_, hs, -⟩ := derefWith_lt hurls
    exact not_fresh_of_getElem? hs
  · exact refCells_not_fresh hb (fun _ => Nat.not_le.mpr) (fun _ _ _ _ => by simp) c base
  · exact refCells_not_fresh hp (fun _ => Nat.not_le.mpr) (fun _ _ _ _ => by simp) c peers
  · refine refCells_not_fresh hd (fun _ => Nat.not_le.mpr) (fun x y hy c mem => ?_) c deltas
    simp only [List.mem_filterMap, Option.map_eq_some'] at mem
    obtain ⟨p, hp', b, rfl, rfl⟩ := mem
    obtain ⟨_, hsnap⟩ := mapM_some_of_mem hy _ hp'
    obtain ⟨_, hs, -⟩ := derefWith_lt hsnap
    exact not_fresh_of_getElem? hs

theorem getD_of_prefix {α : Type} {l l' : List α} (pre : l <+: l') {a : Nat} {x d : α}
    (h : l[a]? = some x) : l'.getD a d = x := by
  simp [List.getD_eq_getElem?_getD, getElem?_of_prefix pre h]

theorem copyURLsMapEntries_fresh : ∀ (s : Store) (m : List (String × Option Nat)),
    ∀ e ∈ (copyURLsMapEntries s m).2, ∀ b, e.2 = some b → s.urls.length ≤ b
  | _, [] => by simp [copyURLsMapEntries]
  | s, (_, none) :: m => copyURLsMapEntries_fresh s m
  | s, (k, some a) :: m => by
    intro e he b hb
    simp only [copyURLsMapEntries, List.mem_cons] at he
    rcases he with rfl | he
    · cases hb
      exact Nat.le_refl _
    · exact Nat.le_trans (by simp [deepCopyURLs]) (copyURLsMapEntries_fresh _ m e he b hb)

theorem copySnapshots_fresh : ∀ (s : Store) (ps : List (Option Nat)),
    ∀ p ∈ (copySnapshots s ps).2, ∀ b, p = some b → s.snapshots.length ≤ b
  | _, [] => by simp [copySnapshots]
  | s, none :: ps => by
    intro p hp b hb
    simp only [copySnapshots, List.mem_cons] at hp
    rcases hp with rfl | hp
    · cases hb
    · exact copySnapshots_fresh s ps p hp b hb
  | s, some _ :: ps => by
    intro p hp b hb
    simp only [copySnapshots, List.mem_cons] at hp
    rcases hp with rfl | hp
    · cases hb
      exact Nat.le_refl _
    · exact Nat.le_trans (by simp) (copySnapshots_fresh _ ps p hp b hb)

section Fresh

variable {s t : Store}

theorem RestorationConfig.deepCopy_cells {r : Option Nat}
    (ext : (copyRef RestorationConfig.deepCopy s r).1.Extends t) :
    ∀ c ∈ refCells t.configs .config (fun c => (c.initialAdvertisePeerURLs.map .strings).toList)
      (copyRef RestorationConfig.deepCopy s r).2, s.Fresh c := by
  cases r with
  | none => simp [copyRef, refCells]
  | some a =>
    have inner := RestorationConfig.deepCopyInto_extends s (s.configs.getD a default)
    simp only [copyRef, refCells, RestorationConfig.deepCopy,
      getD_of_prefix ext.configs (getElem?_append_length _ _), List.mem_cons]
    generalize s.configs.getD a default = c₀ at inner ⊢
    rintro c (rfl | hc)
    · exact inner.configs.length_le
    · cases urls : c₀.initialAdvertisePeerURLs <;>
        simp [RestorationConfig.deepCopyInto, urls, copyRef, copyStrings] at hc
      subst hc
      exact Nat.le_refl _

theorem copyURLsMap_cells {r : Option Nat} (ext : (copyRef copyURLsMap s r).1.Extends t) :
    ∀ c ∈ refCells t.urlsMaps .urlsMap (List.filterMap fun e => e.2.map .urls) (copyRef copyURLsMap s r).2,
      s.Fresh c := by
  cases r with
  | none => simp [copyRef, refCells]
  | some a =>
    have inner := copyURLsMapEntries_extends s (s.urlsMaps.getD a [])
    simp only [copyRef, refCells, copyURLsMap, getD_of_prefix ext.urlsMaps (getElem?_append_length _ _),
      List.mem_cons, List.mem_filterMap, Option.map_eq_some']
    rintro c (rfl | ⟨e, he, b, hb, rfl⟩)
    · exact inner.urlsMaps.length_le
    · exact copyURLsMapEntries_fresh s _ e he b hb

theorem deepCopyURLs_cells {r : Option Nat} :
    ∀ c ∈ refCells t.urls .urls (fun _ => []) (copyRef deepCopyURLs s r).2, s.Fresh c := by
  cases r <;> simp [copyRef, refCells, deepCopyURLs, Store.Fresh]

theorem deepCopySnapList_cells {r : Option Nat} (ext : (copyRef deepCopySnapList s r).1.Extends t) :
    ∀ c ∈ refCells t.snapLists .snapList (List.filterMap fun p => p.map .snapshot)
      (copyRef deepCopySnapList s r).2, s.Fresh c := by
  cases r with
  | none => simp [copyRef, refCells]
  | some a =>
    have inner := copySnapshots_extends s (s.snapLists.getD a [])
    simp only [copyRef, refCells, deepCopySnapList, getD_of_prefix ext.snapLists (getElem?_append_length _ _),
      List.mem_cons, List.mem_filterMap, Option.map_eq_some']
    rintro c (rfl | ⟨p, hp, b, rfl, rfl⟩)
    · exact inner.snapLists.length_le
    · exact copySnapshots_fresh s _ _ hp b rfl

theorem Store.Extends.fresh (ext : s.Extends t) : ∀ {c : CellRef}, t.Fresh c → s.Fresh c
  | .config _, h => Nat.le_trans ext.configs.length_le h
  | .strings _, h => Nat.le_trans ext.strings.length_le h
  | .urlsMap _, h => Nat.le_trans ext.urlsMaps.length_le h
  | .urls _, h => Nat.le_trans ext.urls.length_le h
  | .snapList _, h => Nat.le_trans ext.snapLists.length_le h
  | .snapshot _, h => Nat.le_trans ext.snapshots.length_le h

end Fresh

theorem RestoreOptions.deepCopyInto_fresh (s : Store) (o : RestoreOptions) :
    ∀ c ∈ (o.deepCopyInto s).1.cells (o.deepCopyInto s).2,
      (∀ b, o.baseSnapshot = some b → c ≠ .snapshot b) → s.Fresh c := by
  have e₁ := copyRef_extends RestorationConfig.deepCopy_allocates s o.config
  have e₂ := copyRef_extends copyURLsMap_allocates (copyRef RestorationConfig.deepCopy s o.config).1 o.clusterURLs
  have e₃ := copyRef_extends deepCopyURLs_allocates (copyRef copyURLsMap
    (copyRef RestorationConfig.deepCopy s o.config).1 o.clusterURLs).1 o.peerURLs
  have e₄ := copyRef_extends deepCopySnapList_allocates (copyRef deepCopyURLs (copyRef copyURLsMap
    (copyRef RestorationConfig.deepCopy s o.config).1 o.clusterURLs).1 o.peerURLs).1 o.deltaSnapList
  intro c mem not_base
  simp only [Store.cells, List.mem_append] at mem
  rcases mem with (((config | urlsMap) | base) | peers) | deltas
  · exact RestorationConfig.deepCopy_cells (e₂.trans (e₃.trans e₄)) c config
  · exact e₁.fresh (copyURLsMap_cells (e₃.trans e₄) c urlsMap)
  · cases r : o.baseSnapshot with
    | none => simp [RestoreOptions.deepCopyInto, r, refCells] at base
    | some b =>
      simp only [RestoreOptions.deepCopyInto, r, refCells, List.mem_singleton] at base
      exact absurd base (not_base b r)
  · exact (e₁.trans e₂).fresh (deepCopyURLs_cells c peers)
  · exact (e₁.trans (e₂.trans e₃)).fresh (deepCopySnapList_cells (.refl _) c deltas)

theorem RestoreOptions.deepCopyInto_shares {s : Store} {o : RestoreOptions} {v : RestoreOptionsValue}
    (h : s.value o = some v) (c : CellRef) :
    (c ∈ (o.deepCopyInto s).1.cells (o.deepCopyInto s).2 ∧ c ∈ s.cells o) ↔
      ∃ b, o.baseSnapshot = some b ∧ c = .snapshot b := by
  constructor
  · rintro ⟨copied, original⟩
    by_contra shared
    exact Store.cells_not_fresh h c original
      (o.deepCopyInto_fresh s c copied fun b hb same => shared ⟨b, hb, same⟩)
  · rintro ⟨b, hb, rfl⟩
    simp [Store.cells, RestoreOptions.deepCopyInto, refCells, hb]

/-- `*p = snap` on the snapshot cell at `a`. -/
def Store.setSnapshot (s : Store) (a : Nat) (snap : Snapshot) : Store :=
  { s with snapshots := s.snapshots.set a snap }

/-- A store in which `ClusterURLs` maps one member to a nil `types.URLs` and `BaseSnapshot`
points to a snapshot at revision 5. -/
def baseStore : Store := ⟨[], [], [[("infra0", none)]], [], [], [⟨"", "base", 5, ""⟩]⟩

def baseOptions : RestoreOptions := ⟨none, some 0, some 0, none, none, none, 1⟩

/-- The copy of these options drops the nil-valued key, reaches the snapshot cell of the
original, and writing revision 7 through the copy's `BaseSnapshot` changes the original. -/
theorem deepCopy_shares_base_snapshot :
    baseStore.value baseOptions =
        some ⟨none, some [("infra0", none)], some ⟨"", "base", 5, ""⟩, none, none, none, 1⟩ ∧
      (baseOptions.deepCopyInto baseStore).1.value (baseOptions.deepCopyInto baseStore).2 =
        some ⟨none, some [], some ⟨"", "base", 5, ""⟩, none, none, none, 1⟩ ∧
      (baseOptions.deepCopyInto baseStore).2.baseSnapshot = some 0 ∧
      CellRef.snapshot 0 ∈ (baseOptions.deepCopyInto baseStore).1.cells (baseOptions.deepCopyInto baseStore).2 ∧
      CellRef.snapshot 0 ∈ baseStore.cells baseOptions ∧
      ((baseOptions.deepCopyInto baseStore).1.setSnapshot 0 ⟨"", "base", 7, ""⟩).value baseOptions =
        some ⟨none, some [("infra0", none)], some ⟨"", "base", 7, ""⟩, none, none, none, 1⟩ := by
  decide

end EtcdRestore
