import EtcdRestore.Types

/-! One pass of the purge goroutine of `purgeFile` (vendored `fileutil`): keep the `max` newest
files ending in `suffix` and remove the others, oldest first. The directory is the list
`ReadDir` returns; `uint` and `int` are 64 bits wide, and `int(max)` reads `max`'s bits as a
signed number. -/
namespace EtcdRestore

/-- Go's `int(x)` for a 64-bit `uint`: every `x ≥ 2^63` becomes negative. -/
def goInt (x : UInt64) : Int := if x.toNat < 2 ^ 63 then x.toNat else x.toNat - 2 ^ 64

/-- `sort.Strings`. Equal strings are identical, so every sort gives this list. -/
def sortStrings (names : List String) : List String := names.insertionSort (· ≤ ·)

/-- The calls a purge makes on a file, by name; `Except.error` is a failed call. -/
structure PurgeFs where
  tryLockFile : String → Except String Unit
  remove : String → Except String Unit
  close : String → Except String Unit

inductive PurgeLoopEnd where
  /-- The condition failed or `TryLockFile` broke out, with the names left. -/
  | exited (dir newfnames : List String)
  /-- A remove or an unlock failed: the error is sent on `errC` and the goroutine returns. -/
  | failed (dir : List String) (err : String)
  /-- `newfnames[0]` on an empty slice. -/
  | panicked (dir : List String)
  deriving DecidableEq, Repr

/-- The purge loop over `newfnames`, with the directory `dir` that each remove shrinks. -/
def purgeLoop (fs : PurgeFs) (flock : Bool) (bound : Int) (dir : List String) :
    List String → PurgeLoopEnd
  | [] => if 0 > bound then .panicked dir else .exited dir []
  | name :: rest =>
    if ((rest.length + 1 : Nat) : Int) > bound then
      match flock, fs.tryLockFile name with
      | true, .error _ => .exited dir (name :: rest)
      | _, _ =>
        match fs.remove name with
        | .error err => .failed dir err
        | .ok () =>
          match flock, fs.close name with
          | true, .error err => .failed (dir.erase name) err
          | _, _ => purgeLoop fs flock bound (dir.erase name) rest
    else .exited dir (name :: rest)

inductive PurgePassEnd where
  /-- At the `select` before the next pass, with the names sent on `purgec`. -/
  | waiting (dir purged : List String)
  | failed (dir : List String) (err : String)
  | panicked (dir : List String)
  deriving DecidableEq, Repr

/-- One pass over the directory `dir`; `purgec` says whether the channel is non-nil. -/
def purgePass (fs : PurgeFs) (flock : Bool) (suffix : String) (max : UInt64) (purgec : Bool)
    (dir : List String) : PurgePassEnd :=
  let newfnames := sortStrings (dir.filter fun fname => fname.endsWith suffix)
  let fnames := newfnames
  match purgeLoop fs flock (goInt max) dir newfnames with
  | .exited dir rest => .waiting dir (if purgec then fnames.take (fnames.length - rest.length) else [])
  | .failed dir err => .failed dir err
  | .panicked dir => .panicked dir

/-! ### What a pass removes -/

/-- The leading names `TryLockFile` locks (all of them without `flock`). -/
def lockedPrefix (fs : PurgeFs) (flock : Bool) (names : List String) : List String :=
  names.takeWhile fun name => !flock || (fs.tryLockFile name).isOk

def PurgeFs.Succeeds (fs : PurgeFs) : Prop := ∀ name, fs.remove name = .ok () ∧ fs.close name = .ok ()

theorem goInt_of_lt {x : UInt64} (small : x.toNat < 2 ^ 63) : goInt x = x.toNat := by
  rw [goInt, if_pos small]

theorem goInt_neg {x : UInt64} (large : 2 ^ 63 ≤ x.toNat) : goInt x < 0 := by
  have := x.toNat_lt
  simp only [goInt, if_neg (Nat.not_lt.mpr large)]
  simp only [UInt64.size] at this
  omega

theorem lockedPrefix_cons (fs : PurgeFs) (flock : Bool) (name : String) (rest : List String) :
    lockedPrefix fs flock (name :: rest) =
      match flock, fs.tryLockFile name with
      | true, .error _ => []
      | _, _ => name :: lockedPrefix fs flock rest := by
  cases flock <;> cases locked : fs.tryLockFile name <;>
    simp [lockedPrefix, List.takeWhile_cons, locked, Except.isOk, Except.toBool]

theorem purgeLoop_nonneg (fs : PurgeFs) (flock : Bool) {bound : Int} (nonneg : 0 ≤ bound)
    (succeeds : fs.Succeeds) :
    ∀ (names dir : List String),
      let removed := lockedPrefix fs flock (names.take (names.length - bound.toNat))
      purgeLoop fs flock bound dir names = .exited (dir.diff removed) (names.drop removed.length)
  | [], dir => by simp [purgeLoop, lockedPrefix, Int.not_lt.mpr nonneg]
  | name :: rest, dir => by
    have ok := succeeds name
    by_cases above : ((rest.length + 1 : Nat) : Int) > bound
    · have take : (name :: rest).take ((name :: rest).length - bound.toNat) =
          name :: rest.take (rest.length - bound.toNat) := by
        rw [List.length_cons, show rest.length + 1 - bound.toNat = rest.length - bound.toNat + 1 by omega,
          List.take_succ_cons]
      simp only [purgeLoop, if_pos above, take, lockedPrefix_cons]
      cases flock <;> cases fs.tryLockFile name <;>
        simp [ok, purgeLoop_nonneg fs _ nonneg succeeds rest, List.diff_cons]
    · have take : (name :: rest).length - bound.toNat = 0 := by simp only [List.length_cons]; omega
      simp only [purgeLoop, if_neg above, take, List.take_zero, lockedPrefix, List.takeWhile_nil,
        List.diff_nil, List.length_nil, List.drop_zero]

theorem purgeLoop_neg (fs : PurgeFs) (flock : Bool) {bound : Int} (neg : bound < 0)
    (succeeds : fs.Succeeds) (locks : ∀ name, fs.tryLockFile name = .ok ()) :
    ∀ (names dir : List String), purgeLoop fs flock bound dir names = .panicked (dir.diff names)
  | [], dir => by simp [purgeLoop, neg]
  | name :: rest, dir => by
    have above : bound < rest.length + 1 := by omega
    simp [purgeLoop, above, locks, succeeds name, purgeLoop_neg fs flock neg succeeds locks rest,
      List.diff_cons]

theorem lockedPrefix_of_granted (fs : PurgeFs) (flock : Bool) :
    ∀ names : List String, (∀ name ∈ names, fs.tryLockFile name = .ok ()) →
      lockedPrefix fs flock names = names
  | [], _ => rfl
  | name :: rest, granted => by
    rw [lockedPrefix_cons, granted name (List.mem_cons_self _ _),
      lockedPrefix_of_granted fs flock rest fun n hn => granted n (List.mem_cons_of_mem _ hn)]
    cases flock <;> rfl

theorem lockedPrefix_of_refused (fs : PurgeFs) {name err : String} (rest : List String)
    (refused : fs.tryLockFile name = .error err) :
    ∀ pre : List String, (∀ n ∈ pre, fs.tryLockFile n = .ok ()) →
      lockedPrefix fs true (pre ++ name :: rest) = pre
  | [], _ => by rw [List.nil_append, lockedPrefix_cons, refused]
  | n :: pre, granted => by
    rw [List.cons_append, lockedPrefix_cons, granted n (List.mem_cons_self _ _),
      lockedPrefix_of_refused fs rest refused pre fun m hm => granted m (List.mem_cons_of_mem _ hm)]

theorem lockedPrefix_take_prefix (fs : PurgeFs) (flock : Bool) (names : List String) (k : Nat) :
    lockedPrefix fs flock (names.take k) = names.take (lockedPrefix fs flock (names.take k)).length :=
  List.prefix_iff_eq_take.mp ((List.takeWhile_prefix _).trans (List.take_prefix k names))

theorem purgePass_of_lt (fs : PurgeFs) (flock : Bool) (suffix : String) {max : UInt64}
    (purgec : Bool) (dir : List String) (small : max.toNat < 2 ^ 63) (succeeds : fs.Succeeds) :
    let names := sortStrings (dir.filter fun fname => fname.endsWith suffix)
    let removed := lockedPrefix fs flock (names.take (names.length - max.toNat))
    purgePass fs flock suffix max purgec dir = .waiting (dir.diff removed) (if purgec then removed else []) := by
  intro names removed
  have loop := purgeLoop_nonneg fs flock (Int.natCast_nonneg max.toNat) succeeds names dir
  simp only [Int.toNat_ofNat] at loop
  have within : removed.length ≤ names.length :=
    ((List.takeWhile_prefix _).trans (List.take_prefix _ names)).length_le
  simp only [purgePass, goInt_of_lt small, loop, List.length_drop,
    show names.length - (names.length - removed.length) = removed.length by omega]
  rw [← lockedPrefix_take_prefix]

theorem purgePass_of_ge (fs : PurgeFs) (flock : Bool) (suffix : String) {max : UInt64}
    (purgec : Bool) (dir : List String) (large : 2 ^ 63 ≤ max.toNat) (succeeds : fs.Succeeds)
    (locks : ∀ name, fs.tryLockFile name = .ok ()) :
    purgePass fs flock suffix max purgec dir =
      .panicked (dir.diff (sortStrings (dir.filter fun fname => fname.endsWith suffix))) := by
  simp only [purgePass, purgeLoop_neg fs flock (goInt_neg large) succeeds locks]

def grantingFs : PurgeFs := ⟨fun _ => .ok (), fun _ => .ok (), fun _ => .ok ()⟩

/-- With `max` the largest `uint`, `int(max)` is `-1`: a pass removes every file ending in
`suffix` and then indexes an empty slice and panics. -/
theorem purge_max_uint_panics :
    purgePass grantingFs true ".snap" 18446744073709551615 true [] = .panicked [] ∧
    ∀ suffix dir, purgePass grantingFs true suffix 18446744073709551615 true dir =
      .panicked (dir.diff (sortStrings (dir.filter fun fname => fname.endsWith suffix))) :=
  ⟨by decide, fun suffix dir => purgePass_of_ge grantingFs true suffix true dir (by decide)
    (fun _ => ⟨rfl, rfl⟩) fun _ => rfl⟩

end EtcdRestore
