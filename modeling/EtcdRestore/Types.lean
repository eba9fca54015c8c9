import Mathlib
/-! The data the restorer reads (`pkg/types/restorer.go`, `pkg/restorer/restorer.go`).
Byte slices are lists of bytes, keys and values of events are strings as the restorer
converts them, `int64` revisions are integers. The transient etcd is reached only
through the calls of `client.KVCloser` the restorer makes, over an abstract state. -/
namespace EtcdRestore

/-- The fields of a snapshot handle that the restore path reads. -/
structure Snapshot where
  snapDir : String
  snapName : String
  lastRevision : Int
  compressionSuffix : String
  deriving DecidableEq, Repr, Inhabited

/-- `mvccpb.Event_EventType`: a decoded event may carry a code other than PUT and DELETE. -/
inductive EventType where
  | put
  | delete
  | other (code : Int)
  deriving DecidableEq, Repr

structure KeyValue where
  key : String
  value : String
  modRevision : Int
  deriving DecidableEq, Repr

/-- The etcd event inside `brtypes.Event`; its timestamp is never read on restore. -/
structure Event where
  type : EventType
  kv : KeyValue
  deriving DecidableEq, Repr

/-- `clientv3.OpPut` and `clientv3.OpDelete`. -/
inductive Op where
  | put (key value : String)
  | delete (key : String)
  deriving DecidableEq, Repr

/-- `brtypes.ApplierInfo`; a fetcher sends index `-1` to stop the applier. -/
structure ApplierInfo where
  snapFilePath : String
  snapIndex : Int
  deriving DecidableEq, Repr

/-- The two calls of `client.KVCloser` that replay and check a delta: a transaction
`Txn(ctx).Then(ops...).Commit()` and the header revision of a `Get`. -/
structure KV (σ : Type) where
  txn : σ → List Op → Except String σ
  get : σ → String → Except String Int

end EtcdRestore
