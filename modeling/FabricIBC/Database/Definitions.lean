import FabricIBC.Lib.OrderedMap
import FabricIBC.Lib.Run
import FabricIBC.Chaincode.Definitions

/-!
# Fabric-IBC — database: definitions

The rest of `x/compat/db.go`: `DB` with its iterators and batches, over a stub
whose `GetState` and `GetStateByRange` show the writes made before.

`DB.Print`, `DB.Stats` and `Domain` of the iterators panic and have no callers;
`DB.Close`, `Iterator.Error` and `Iterator.Close` do nothing here.
-/

namespace FabricIBC

open Go

/-! ## A stub that shows its own writes -/

/-- `PutState` or `DelState`. -/
def Stub.write (stub : Stub) (w : Write) : Stub := { stub with state := w.apply stub.state }

/-- A bound of `GetStateByRange`; the empty string is none. -/
def rangeBound (key : Bytes) : Option Bytes := if key = [] then none else some key

/-- `GetStateByRange`: the pairs its iterator goes through. -/
def Stub.getStateByRange (stub : Stub) (startKey endKey : Bytes) : List (Bytes × Bytes) :=
  OrderedMap.range stub.state (rangeBound startKey) (rangeBound endKey)

namespace compat

/-! ## Keys -/

/-- `DB.Has`. -/
def has (stub : Stub) (key : Bytes) : Result Bool :=
  if key = [] then .err errKeyEmpty
  else do
    let v ← get stub key
    .ok v.isSome

/-- A call of `DB.Set` or `DB.Delete` together with its effect on the stub. -/
def Command.run (stub : Stub) (cmd : Command) : Result Unit × Stub :=
  match cmd.exec with
  | .ok w => (.ok (), stub.write w)
  | .err e => (.err e, stub)
  | .panic p => (.panic p, stub)

def set (stub : Stub) (key : Bytes) (value : Option Bytes) : Result Unit × Stub :=
  Command.run stub (.set key value)

def setSync (stub : Stub) (key : Bytes) (value : Option Bytes) : Result Unit × Stub :=
  set stub key value

def delete (stub : Stub) (key : Bytes) : Result Unit × Stub := Command.run stub (.delete key)

def deleteSync (stub : Stub) (key : Bytes) : Result Unit × Stub := delete stub key

/-! ## Iterators -/

/-- What loops use of `dbm.Iterator`. -/
class DBIterator (ι : Type) where
  valid : ι → Bool
  next : ι → Result ι
  key : ι → Result Bytes
  value : ι → Result Bytes

/-- `for ; itr.Valid(); itr.Next() { … itr.Key() … itr.Value() … }`, for at most
`fuel` checks of `Valid`. -/
def drain {ι : Type} [DBIterator ι] : (fuel : Nat) → ι → Result (List (Bytes × Bytes))
  | 0, _ => .panic (.explicit "out of fuel")
  | fuel + 1, itr =>
    if DBIterator.valid itr then do
      let key ← DBIterator.key itr
      let value ← DBIterator.value itr
      let itr' ← DBIterator.next itr
      let items ← drain fuel itr'
      .ok ((key, value) :: items)
    else .ok []

/-- `Iterator`: the current pair, and the pairs the query iterator still has. -/
structure Iterator where
  current : Option (Bytes × Bytes)
  qi : List (Bytes × Bytes)
  deriving DecidableEq, Repr

namespace Iterator

def valid (iter : Iterator) : Bool := iter.current.isSome

def next (iter : Iterator) : Iterator :=
  match iter.qi with
  -- `!iter.qi.HasNext()`
  | [] => { iter with current := none }
  | kv :: qi => ⟨some kv, qi⟩

def key (iter : Iterator) : Result Bytes :=
  match iter.current with
  | none => .panic .nilDereference
  | some kv =>
    match hexDecode kv.1 with
    | none => .panic (.explicit "hex.DecodeString")
    | some bz => .ok bz

def value (iter : Iterator) : Result Bytes :=
  match iter.current with
  | none => .panic .nilDereference
  | some kv => .ok kv.2

end Iterator

instance : DBIterator Iterator where
  valid := Iterator.valid
  next iter := .ok iter.next
  key := Iterator.key
  value := Iterator.value

/-- `NewIterator` moves to the first pair. -/
def newIterator (qi : List (Bytes × Bytes)) : Iterator := (Iterator.mk none qi).next

/-- `DB.Iterator`; a `none` bound is Go's `nil`, whose hex dump is empty. -/
def iterator (stub : Stub) (start stop : Option Bytes) : Result Iterator :=
  if start = some [] ∨ stop = some [] then .err errKeyEmpty
  else
    let s := hexEncode (start.getD [])
    let e := hexEncode (stop.getD [])
    .ok (newIterator (stub.getStateByRange s e))

/-- `simpleIterator`. -/
structure SimpleIterator where
  items : List (Bytes × Bytes)
  current : Nat
  deriving DecidableEq, Repr

namespace SimpleIterator

def valid (iter : SimpleIterator) : Bool := iter.current < iter.items.length

def next (iter : SimpleIterator) : Result SimpleIterator :=
  if iter.valid then .ok { iter with current := iter.current + 1 }
  else .panic (.explicit "iterator has ended")

/-- `iter.items[iter.current]`. -/
def item (iter : SimpleIterator) : Result (Bytes × Bytes) :=
  match iter.items[iter.current]? with
  | none => .panic .indexOutOfRange
  | some item => .ok item

def key (iter : SimpleIterator) : Result Bytes := do
  let item ← iter.item
  .ok item.1

def value (iter : SimpleIterator) : Result Bytes := do
  let item ← iter.item
  .ok item.2

end SimpleIterator

instance : DBIterator SimpleIterator where
  valid := SimpleIterator.valid
  next := SimpleIterator.next
  key := SimpleIterator.key
  value := SimpleIterator.value

def newSimpleIterator (items : List (Bytes × Bytes)) : SimpleIterator := ⟨items, 0⟩

/-- `reflect.Swapper`. -/
def swap {α : Type} (s : List α) (i j : Nat) : List α :=
  match s[i]?, s[j]? with
  | some a, some b => (s.set i b).set j a
  | _, _ => s

/-- `for ; i < j; i, j = i+1, j-1 { swap(i, j) }`, for at most `fuel` turns. -/
def reverseLoop {α : Type} : (fuel : Nat) → (i j : Nat) → List α → List α
  | 0, _, _, s => s
  | fuel + 1, i, j, s => if i < j then reverseLoop fuel (i + 1) (j - 1) (swap s i j) else s

def reverseAnySlice {α : Type} (s : List α) : List α :=
  reverseLoop s.length 0 (s.length - 1) s

/-- `ReverseIterator`: read everything, then turn it round. -/
def reverse {ι : Type} [DBIterator ι] (fuel : Nat) (itr : ι) : Result SimpleIterator := do
  let items ← drain fuel itr
  .ok (newSimpleIterator (reverseAnySlice items))

/-- One check of `Valid` for each pair of the state, and the last one. -/
def turns (stub : Stub) : Nat := stub.state.size + 1

/-- `DB.ReverseIterator`. -/
def reverseIterator (stub : Stub) (start stop : Option Bytes) : Result SimpleIterator := do
  let iter ← iterator stub start stop
  reverse (turns stub) iter

/-- `DB.Iterator`, drained. -/
def ascending (stub : Stub) (start stop : Option Bytes) : Result (List (Bytes × Bytes)) := do
  let iter ← iterator stub start stop
  drain (turns stub) iter

/-- `DB.ReverseIterator`, drained. -/
def descending (stub : Stub) (start stop : Option Bytes) : Result (List (Bytes × Bytes)) := do
  let iter ← reverseIterator stub start stop
  drain (turns stub) iter

/-! ## Batches -/

/-- `BatchDB`. -/
structure BatchDB where
  commands : List Command
  closed : Bool
  deriving DecidableEq, Repr

/-- `DB.NewBatch`. -/
def newBatch : BatchDB := ⟨[], false⟩

/-- `Exec` of a command. -/
def Command.execOn (sync : Bool) (stub : Stub) : Command → Result Unit × Stub
  | .set key value => if sync then setSync stub key value else compat.set stub key value
  | .delete key => if sync then deleteSync stub key else compat.delete stub key

/-- The loop over the commands of a batch: it stops at the first error. -/
def execAll (sync : Bool) (stub : Stub) : List Command → Result Unit × Stub
  | [] => (.ok (), stub)
  | cmd :: commands =>
    match cmd.execOn sync stub with
    | (.ok _, stub') => execAll sync stub' commands
    | (.err e, stub') => (.err e, stub')
    | (.panic p, stub') => (.panic p, stub')

namespace BatchDB

/-- The error of a closed or written batch; `errBatchClosed` is declared and not used. -/
def errClosed : Error := .new "batchDB is already closed"

/-- The common body of `Write` and `WriteSync`. -/
def writeWith (sync : Bool) (stub : Stub) (batch : BatchDB) : Result Unit × Stub × BatchDB :=
  if batch.closed then (.err errClosed, stub, batch)
  else
    match execAll sync stub batch.commands with
    | (.ok _, stub') => (.ok (), stub', { batch with closed := true })
    | (.err e, stub') => (.err e, stub', batch)
    | (.panic p, stub') => (.panic p, stub', batch)

def write (stub : Stub) (batch : BatchDB) : Result Unit × Stub × BatchDB :=
  batch.writeWith false stub

def writeSync (stub : Stub) (batch : BatchDB) : Result Unit × Stub × BatchDB :=
  batch.writeWith true stub

def set (batch : BatchDB) (key : Bytes) (value : Option Bytes) : Result Unit × BatchDB :=
  if batch.closed then (.err errClosed, batch)
  else if key = [] then (.err errKeyEmpty, batch)
  else if value = none then (.err errValueNil, batch)
  else (.ok (), { batch with commands := batch.commands ++ [.set key value] })

def delete (batch : BatchDB) (key : Bytes) : Result Unit × BatchDB :=
  if batch.closed then (.err errClosed, batch)
  else if key = [] then (.err errKeyEmpty, batch)
  else (.ok (), { batch with commands := batch.commands ++ [.delete key] })

def close (batch : BatchDB) : Result Unit × BatchDB := (.ok (), { batch with closed := true })

end BatchDB

/-! ## Clients -/

/-- A call into the database. Batches are named by their number; an iterator is
drained on the spot. -/
inductive Operation
  | get (key : Bytes)
  | has (key : Bytes)
  | set (key : Bytes) (value : Option Bytes)
  | setSync (key : Bytes) (value : Option Bytes)
  | delete (key : Bytes)
  | deleteSync (key : Bytes)
  | iterator (start stop : Option Bytes)
  | reverseIterator (start stop : Option Bytes)
  | newBatch
  | batchSet (i : Nat) (key : Bytes) (value : Option Bytes)
  | batchDelete (i : Nat) (key : Bytes)
  | batchWrite (i : Nat)
  | batchWriteSync (i : Nat)
  | batchClose (i : Nat)
  deriving DecidableEq, Repr

/-- What a call returns. -/
inductive Reply
  | done
  | value (v : Option Bytes)
  | found (b : Bool)
  | pairs (l : List (Bytes × Bytes))
  | batch (i : Nat)
  deriving DecidableEq, Repr

/-- A database in use: its stub, and the batches made so far. -/
structure Session where
  stub : Stub
  batches : List BatchDB

namespace Session

/-- A call that changes the stub. -/
def onStub (s : Session) (f : Stub → Result Unit × Stub) : Result Reply × Session :=
  ((f s.stub).1 >>= fun _ => .ok .done, { s with stub := (f s.stub).2 })

/-- A call of a batch; there is nothing behind a number that was never given. -/
def onBatch (s : Session) (i : Nat) (f : Stub → BatchDB → Result Unit × Stub × BatchDB) :
    Result Reply × Session :=
  match s.batches[i]? with
  | none => (.panic .nilDereference, s)
  | some batch =>
    ((f s.stub batch).1 >>= fun _ => .ok .done,
      ⟨(f s.stub batch).2.1, s.batches.set i (f s.stub batch).2.2⟩)

/-- A call of a batch that does not reach the stub. -/
def inBatch (f : BatchDB → Result Unit × BatchDB) (stub : Stub) (batch : BatchDB) :
    Result Unit × Stub × BatchDB :=
  ((f batch).1, stub, (f batch).2)

/-- One call. -/
def step (s : Session) : Operation → Result Reply × Session
  | .get key => (compat.get s.stub key >>= fun v => .ok (.value v), s)
  | .has key => (compat.has s.stub key >>= fun b => .ok (.found b), s)
  | .set key value => s.onStub fun stub => compat.set stub key value
  | .setSync key value => s.onStub fun stub => compat.setSync stub key value
  | .delete key => s.onStub fun stub => compat.delete stub key
  | .deleteSync key => s.onStub fun stub => compat.deleteSync stub key
  | .iterator start stop =>
    (ascending s.stub start stop >>= fun items => .ok (.pairs items), s)
  | .reverseIterator start stop =>
    (descending s.stub start stop >>= fun items => .ok (.pairs items), s)
  | .newBatch => (.ok (.batch s.batches.length), { s with batches := s.batches ++ [compat.newBatch] })
  | .batchSet i key value => s.onBatch i (inBatch fun batch => batch.set key value)
  | .batchDelete i key => s.onBatch i (inBatch fun batch => batch.delete key)
  | .batchWrite i => s.onBatch i BatchDB.write
  | .batchWriteSync i => s.onBatch i BatchDB.writeSync
  | .batchClose i => s.onBatch i (inBatch BatchDB.close)

end Session

end compat

end FabricIBC
