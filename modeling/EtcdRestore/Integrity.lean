import EtcdRestore.Types

/-! Reading a delta snapshot (`getNormalizedSnapshotReadCloser`,
`readSnapshotContentsFromReadCloser`). SHA-256, the compressor package and the object store
are outside the repository: a digest is any function to 32-byte strings, and a stream is
what reading it to its end gives. -/
namespace EtcdRestore

def sha256Size : Nat := 32

def Digest := {d : List UInt8 // d.length = sha256Size}

/-- An `io.ReadCloser` read to its end: the bytes it yields, then the error that stopped it. -/
structure Stream where
  data : List UInt8
  readError : Option String
  deriving DecidableEq, Repr

/-- `compressor.IsSnapshotCompressed` and `compressor.DecompressSnapshot`. -/
structure Compressor where
  isSnapshotCompressed : String → Except String (Bool × String)
  decompressSnapshot : Stream → String → Except String Stream

/-- The library calls on a delta's bytes: SHA-256, the compressor and `json.Unmarshal`
into a list of events. -/
structure Codec where
  sha256 : List UInt8 → Digest
  compressor : Compressor
  unmarshal : List UInt8 → Except String (List Event)

/-- `brtypes.SnapStore`: only `Fetch` is called on restore. -/
structure SnapStore where
  fetch : Snapshot → Except String Stream

/-- `Restorer`, without its loggers. -/
structure Restorer where
  store : SnapStore
  codec : Codec

def getNormalizedSnapshotReadCloser (c : Compressor) (rc : Stream) (snap : Snapshot) :
    Except String (Stream × Bool × String) :=
  match c.isSnapshotCompressed snap.compressionSuffix with
  | .error err => .error err
  | .ok (false, compressionPolicy) => .ok (rc, false, compressionPolicy)
  | .ok (true, compressionPolicy) =>
    match c.decompressSnapshot rc compressionPolicy with
    | .error err => .error ("unable to decompress the snapshot: " ++ err)
    | .ok rc' => .ok (rc', true, compressionPolicy)

/-- `fmt`'s `%v` of a byte slice or array: the bytes in decimal, between brackets, by spaces. -/
def fmtBytes (bs : List UInt8) : String :=
  "[" ++ " ".intercalate (bs.map toString) ++ "]"

example : fmtBytes [110, 52, 0] = "[110 52 0]" := by decide

def Restorer.readSnapshotContentsFromReadCloser (r : Restorer) (rc : Stream) (snap : Snapshot) :
    Except String (List UInt8) :=
  match getNormalizedSnapshotReadCloser r.codec.compressor rc snap with
  | .error err => .error ("failed to decompress delta snapshot " ++ snap.snapName ++ " : " ++ err)
  | .ok (rc, _, _) =>
    match rc.readError with
    | some err => .error ("failed to parse contents from delta snapshot " ++ snap.snapName ++ " : " ++ err)
    | none =>
      let bufSize := rc.data.length
      if bufSize ≤ sha256Size then .error "delta snapshot is missing hash"
      else
        let data := rc.data.take (bufSize - sha256Size)
        let snapHash := rc.data.drop (bufSize - sha256Size)
        let computedSha := (r.codec.sha256 data).val
        if snapHash ≠ computedSha then
          .error ("expected sha256 " ++ fmtBytes snapHash ++ ", got " ++ fmtBytes computedSha)
        else .ok data

/-- The framing of a delta: the payload followed by its SHA-256. -/
def Framed (sha256 : List UInt8 → Digest) (b d : List UInt8) : Prop :=
  sha256Size < b.length ∧ b = d ++ (sha256 d).val

theorem getNormalized_uncompressed (c : Compressor) (snap : Snapshot) (rc : Stream) {p : String}
    (plain : c.isSnapshotCompressed snap.compressionSuffix = .ok (false, p)) :
    getNormalizedSnapshotReadCloser c rc snap = .ok (rc, false, p) := by
  simp [getNormalizedSnapshotReadCloser, plain]

theorem readSnapshotContents_ok_iff (r : Restorer) (snap : Snapshot) {p : String}
    (plain : r.codec.compressor.isSnapshotCompressed snap.compressionSuffix = .ok (false, p))
    (b d : List UInt8) :
    r.readSnapshotContentsFromReadCloser ⟨b, none⟩ snap = .ok d ↔ Framed r.codec.sha256 b d := by
  simp only [Restorer.readSnapshotContentsFromReadCloser, getNormalized_uncompressed _ _ _ plain]
  have digest := (r.codec.sha256 d).property
  by_cases short : b.length ≤ sha256Size
  · simp only [short, if_true, Framed]
    constructor
    · intro h
      cases h
    · rintro ⟨long, -⟩
      omega
  · simp only [short, if_false, Framed]
    constructor
    · intro h
      split at h
      · cases h
      · rename_i same
        cases h
        refine ⟨by omega, ?_⟩
        conv_lhs => rw [← List.take_append_drop (b.length - sha256Size) b]
        rw [not_not.mp same]
    · rintro ⟨-, rfl⟩
      have len : (d ++ (r.codec.sha256 d).val).length - sha256Size = d.length := by
        simp [digest]
      simp [len]

theorem readSnapshotContents_framed (r : Restorer) (snap : Snapshot) {p : String}
    (plain : r.codec.compressor.isSnapshotCompressed snap.compressionSuffix = .ok (false, p))
    (d : List UInt8) (nonempty : d ≠ []) :
    r.readSnapshotContentsFromReadCloser ⟨d ++ (r.codec.sha256 d).val, none⟩ snap = .ok d := by
  refine (readSnapshotContents_ok_iff r snap plain _ d).mpr ⟨?_, rfl⟩
  have digest := (r.codec.sha256 d).property
  have := List.length_pos.mpr nonempty
  simp only [List.length_append, digest]
  omega

theorem readSnapshotContents_rejects (r : Restorer) (snap : Snapshot) {p : String}
    (plain : r.codec.compressor.isSnapshotCompressed snap.compressionSuffix = .ok (false, p))
    (b : List UInt8)
    (bad : b.length ≤ sha256Size ∨
      b.drop (b.length - sha256Size) ≠ (r.codec.sha256 (b.take (b.length - sha256Size))).val) :
    ∀ d, r.readSnapshotContentsFromReadCloser ⟨b, none⟩ snap ≠ .ok d := by
  intro d ok
  obtain ⟨long, rfl⟩ := (readSnapshotContents_ok_iff r snap plain b d).mp ok
  have digest := (r.codec.sha256 d).property
  have split : (d ++ (r.codec.sha256 d).val).length - sha256Size = d.length := by
    simp [digest]
  rcases bad with short | mismatch
  · omega
  · simp [split] at mismatch

end EtcdRestore
