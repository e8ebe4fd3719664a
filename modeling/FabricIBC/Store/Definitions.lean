import FabricIBC.Database.Definitions

/-!
# Fabric-IBC — stores: definitions

`chaincode/store/store.go` and `dbadapter.go`: the multi-store of the chaincode,
whose stores of type `StoreTypeDB` share one database under prefixes of their own.

`PrefixDB` is tm-db's and `dbadapter.Store` is the sdk's; they are written down as
documented there. Stores of the other types are not kept in the world state.

Tracing (`SetTracer`, `SetTracingContext`) and the fake commit hashes of the
adapter are left out.
-/

namespace FabricIBC

open Go

namespace store

/-! ## Store keys -/

/-- The implementations of `types.StoreKey`. -/
inductive KeyKind
  | kv
  | transient
  | memory
  deriving DecidableEq, Repr

/-- A `types.StoreKey`: a pointer to a named key. -/
structure StoreKey where
  address : Nat
  kind : KeyKind
  name : Bytes
  deriving DecidableEq, Repr

/-- `types.StoreType`. -/
inductive StoreType
  | multi
  | db
  | iavl
  | transient
  | memory
  deriving DecidableEq, Repr

/-! ## The multi-store -/

section

variable {δ : Type}

/-- `storeParams`; `δ` are the databases a store can be given for itself. -/
structure StoreParams (δ : Type) where
  key : StoreKey
  db : Option δ
  typ : StoreType
  deriving DecidableEq, Repr

/-- A loaded store: the adapter of a `PrefixDB` over the common database
(`none`) or one of its own, or a store in memory. -/
inductive CommitKVStore (δ : Type)
  | adapter (db : Option δ) (pfx : Bytes)
  | transient
  | mem
  deriving DecidableEq, Repr

/-- `Store`. Its maps are lists in the order of insertion. -/
structure Store (δ : Type) where
  storesParams : List (StoreKey × StoreParams δ)
  stores : List (StoreKey × CommitKVStore δ)
  keysByName : List (Bytes × StoreKey)

def newStore : Store δ := ⟨[], [], []⟩

namespace Store

variable (rs : Store δ)

def mountStoreWithDB (key : Option StoreKey) (typ : StoreType) (db : Option δ) :
    Result (Store δ) :=
  match key with
  | none => .panic (.explicit "MountIAVLStore() key cannot be nil")
  | some key =>
    if (rs.storesParams.lookup key).isSome then .panic (.explicit "store duplicate store key")
    else if (rs.keysByName.lookup key.name).isSome then
      .panic (.explicit "store duplicate store key name")
    else
      .ok { rs with
        storesParams := rs.storesParams ++ [(key, ⟨key, db, typ⟩)]
        keysByName := rs.keysByName ++ [(key.name, key)] }

def loadStoreFromParams (key : StoreKey) (params : StoreParams δ) : Result (CommitKVStore δ) :=
  let db : CommitKVStore δ :=
    match params.db with
    | some db => .adapter (some db) (str "s/_/")
    | none => .adapter none (storePath params.key.name)
  match params.typ with
  | .multi => .panic (.explicit "recursive MultiStores not yet supported")
  | .db => .ok db
  | .transient =>
    if key.kind = .transient then .ok .transient
    else .err (.errorf "invalid StoreKey for StoreTypeTransient: %s" [.bytes key.name])
  | .memory =>
    if key.kind = .memory then .ok .mem
    else .err (.errorf "unexpected key type for a MemoryStoreKey; got: %s" [.bytes key.name])
  | .iavl => .panic (.explicit "unrecognized store type")

def loadStores : Result (Store δ) := do
  let newStores ← Outcome.collect (fun kp : StoreKey × StoreParams δ => do
    let store ← loadStoreFromParams kp.1 kp.2
    .ok (kp.1, store)) rs.storesParams
  .ok { rs with stores := newStores }

/-- `GetKVStore`; a store that was not loaded is a nil interface. -/
def getKVStore (key : StoreKey) : Result (CommitKVStore δ) :=
  match rs.stores.lookup key with
  | none => .panic .typeAssertion
  | some store => .ok store

/-- `BaseApp.MountStore` for each key: the common database. -/
def mountStores (typ : StoreType) : Store δ → List StoreKey → Result (Store δ)
  | rs, [] => .ok rs
  | rs, key :: keys => do
    let rs' ← rs.mountStoreWithDB (some key) typ none
    rs'.mountStores typ keys

end Store

end

/-! ## `PrefixDB` over the common database -/

/-- `cpIncr` on the reversed bytes. -/
def incrReversed : Bytes → Option Bytes
  | [] => none
  | b :: bs => if b < 255 then some ((b + 1) :: bs) else (incrReversed bs).map (0 :: ·)

/-- `cpIncr`: the next byte string of the same length. -/
def cpIncr (bz : Bytes) : Option Bytes := (incrReversed bz.reverse).map List.reverse

namespace PrefixDB

variable (pfx : Bytes) (stub : Stub)

def get (key : Bytes) : Result (Option Bytes) :=
  if key = [] then .err compat.errKeyEmpty else compat.get stub (pfx ++ key)

def has (key : Bytes) : Result Bool :=
  if key = [] then .err compat.errKeyEmpty else compat.has stub (pfx ++ key)

/-- `Set` and `Delete`: the call of the database below. -/
def command : compat.Command → Result compat.Command
  | .set key value =>
    if key = [] then .err compat.errKeyEmpty
    else if value = none then .err compat.errValueNil
    else .ok (.set (pfx ++ key) value)
  | .delete key => if key = [] then .err compat.errKeyEmpty else .ok (.delete (pfx ++ key))

/-- `Set` and `Delete`. -/
def exec (cmd : compat.Command) : Result Write := do
  let below ← command pfx cmd
  below.exec

/-- The end of an iteration: an open one ends with the prefix. -/
def stopKey (stop : Option Bytes) : Option Bytes :=
  match stop with
  | none => cpIncr pfx
  | some key => some (pfx ++ key)

/-- What the iterator makes of the pairs below it: keys without the prefix; a key
that is the prefix itself is skipped. -/
def strip (items : List (Bytes × Bytes)) : List (Bytes × Bytes) :=
  (items.filter fun kv => kv.1 ≠ pfx).map fun kv => (kv.1.drop pfx.length, kv.2)

/-- The common body of `Iterator` and `ReverseIterator`, drained. -/
def iterate (list : Stub → Option Bytes → Option Bytes → Result (List (Bytes × Bytes)))
    (start stop : Option Bytes) : Result (List (Bytes × Bytes)) :=
  if start = some [] ∨ stop = some [] then .err compat.errKeyEmpty
  else do
    let items ← list stub (some (pfx ++ start.getD [])) (stopKey pfx stop)
    .ok (strip pfx items)

def iterator (start stop : Option Bytes) : Result (List (Bytes × Bytes)) :=
  iterate pfx stub compat.ascending start stop

def reverseIterator (start stop : Option Bytes) : Result (List (Bytes × Bytes)) :=
  iterate pfx stub compat.descending start stop

end PrefixDB

/-! ## `dbadapter.Store` -/

/-- The adapter panics on the errors of its database. -/
def orPanic {α : Type} : Result α → Result α
  | .ok a => .ok a
  | .err _ => .panic (.explicit "dbadapter")
  | .panic p => .panic p

/-- A call of a `types.KVStore`; an iterator is drained on the spot. -/
inductive Request
  | get (key : Bytes)
  | has (key : Bytes)
  | set (key : Bytes) (value : Option Bytes)
  | delete (key : Bytes)
  | iterator (start stop : Option Bytes)
  | reverseIterator (start stop : Option Bytes)
  deriving DecidableEq, Repr

/-- A call of the adapter that writes. -/
def write (pfx : Bytes) (stub : Stub) (cmd : compat.Command) : Result compat.Reply × Stub :=
  match orPanic (PrefixDB.exec pfx cmd) with
  | .ok w => (.ok .done, stub.write w)
  | .err e => (.err e, stub)
  | .panic p => (.panic p, stub)

/-- A call of the adapter over a stub that shows its own writes. -/
def perform (pfx : Bytes) (stub : Stub) : Request → Result compat.Reply × Stub
  | .get key => (orPanic (PrefixDB.get pfx stub key) >>= fun v => .ok (.value v), stub)
  | .has key => (orPanic (PrefixDB.has pfx stub key) >>= fun b => .ok (.found b), stub)
  | .set key value => write pfx stub (.set key value)
  | .delete key => write pfx stub (.delete key)
  | .iterator start stop =>
    (orPanic (PrefixDB.iterator pfx stub start stop) >>= fun l => .ok (.pairs l), stub)
  | .reverseIterator start stop =>
    (orPanic (PrefixDB.reverseIterator pfx stub start stop) >>= fun l => .ok (.pairs l), stub)

/-! ## Clients -/

/-- A call of a mounted store. Stores outside the common database are no concern
of the world state. -/
def Store.step {δ : Type} (rs : Store δ) (stub : Stub) (req : StoreKey × Request) :
    Result compat.Reply × Stub :=
  match rs.getKVStore req.1 with
  | .ok (.adapter none pfx) => perform pfx stub req.2
  | .ok _ => (.err (.external "not in the common database"), stub)
  | .err e => (.err e, stub)
  | .panic p => (.panic p, stub)

/-- The calls of the common database when the pending writes of a store reach it. -/
def CommitKVStore.commands {δ : Type} (pending : List compat.Command) :
    CommitKVStore δ → Result (List compat.Command)
  | .adapter none pfx => Outcome.collect (fun cmd => orPanic (PrefixDB.command pfx cmd)) pending
  -- another database, or memory
  | .adapter (some _) _ => .ok []
  | .transient => .ok []
  | .mem => .ok []

/-- `Write` of a `CacheMultiStore`: the stores one after the other, in the order
of a loop over a map. -/
def Store.commands {δ : Type} (rs : Store δ) (pending : StoreKey → List compat.Command) :
    (order : List StoreKey) → Result (List compat.Command)
  | [] => .ok []
  | key :: order => do
    let store ← rs.getKVStore key
    let commands ← store.commands (pending key)
    let rest ← rs.commands pending order
    .ok (commands ++ rest)

/-- The calls of the stub. A call that `PrefixDB` has let through does not fail in the
database below, so it makes no difference that all of them are gathered first. -/
def Store.flush {δ : Type} (rs : Store δ) (pending : StoreKey → List compat.Command)
    (order : List StoreKey) : Result (List Write) := do
  let commands ← rs.commands pending order
  compat.flush commands

end store

end FabricIBC
