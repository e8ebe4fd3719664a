import FabricIBC.Lib.Cache
import FabricIBC.Chaincode.BlockTime
import FabricIBC.Database.Reference
import FabricIBC.Store.Definitions

/-!
# Fabric-IBC — application: definitions

`RunTx`, `runMsgs`, `validateBasicTxMsgs` and `cacheTxContext` of
`chaincode/app/baseapp.go`, over the stores of `chaincode/store`.

The ante handler and the message handlers are programs over the mounted stores.
A `CacheMultiStore` of the sdk is a write-back cache; what the sdk does with
transactions and messages besides is a parameter (`Sdk`). A context is its
multi-store, which is passed along, and the rest of it (`Γ`). Gas and the logger
are left out.
-/

namespace FabricIBC

open Go
open store (StoreKey Store CommitKVStore)
open Reference (Change Contents)

/-! ## The sdk -/

/-- `sdk.Result` of a handler. -/
structure MsgResult where
  data : Bytes
  log : Bytes
  events : List Event
  deriving DecidableEq, Repr

/-- `sdk.MsgData`. -/
structure MsgData where
  msgType : Bytes
  data : Bytes
  deriving DecidableEq, Repr

/-- `sdk.ABCIMessageLog`. -/
structure MsgLog where
  index : Nat
  log : Bytes
  events : List Event
  deriving DecidableEq, Repr

/-- `legacytx.LegacyMsg`. -/
structure LegacyMsg where
  route : Bytes
  type : Bytes
  deriving DecidableEq, Repr

/-- What the application uses of transactions `τ` and messages `μ`. -/
structure Sdk (τ μ : Type) where
  txDecoder : (txBytes : Bytes) → Except Error τ
  getMsgs : τ → List μ
  validateBasic : μ → Except Error Unit
  msgTypeURL : μ → Bytes
  /-- The type assertion `msg.(legacytx.LegacyMsg)`. -/
  legacy : μ → Option LegacyMsg
  /-- `%+v`. -/
  print : μ → Bytes
  /-- `proto.Marshal` of a `sdk.TxMsgData`. -/
  marshal : List MsgData → Except Error Bytes
  /-- `strings.TrimSpace(msgLogs.String())`. -/
  logText : List MsgLog → Bytes

/-- A program over the stores `I`. -/
abbrev StoreProgram (I α : Type) := Cache.Program I Key Bytes Error α

abbrev Handler (I Γ μ : Type) := Γ → μ → StoreProgram I MsgResult

/-- `BaseApp`. An ante handler returns a new context, unless that is the zero one,
with the events of its event manager. -/
structure BaseApp (τ μ Γ I : Type) where
  name : Bytes
  sdk : Sdk τ μ
  /-- `setupContext(sdk.NewContext(…), stub)`, for the stub of the transaction. -/
  newContext : BlockHeader → Γ
  anteHandler : Option (Γ → τ → StoreProgram I (Option (Γ × List Event)))
  msgServiceRouter : μ → Option (Handler I Γ μ)
  router : Γ → (route : Bytes) → Option (Handler I Γ μ)

/-- The stub in a context, as far as the code behind `StubFromContext` asks it: the
ante handler for the creator, and `GetSequenceFromHeight` of a sequence manager for a
sequence by its number. -/
structure ContextStub where
  getCreator : Except Error Bytes
  getSequence : (value : UInt64) → Result Sequence

/-- A stub in the contexts of an application with this sequence manager. -/
def SequenceManager.contextStub (m : SequenceManager) (stub : Stub) : ContextStub :=
  ⟨stub.creator, m.getSequence stub⟩

/-! ## Messages -/

/-- The pending writes of a `CacheMultiStore`. -/
abbrev CacheMultiStore (I : Type) := I → Cache.Pending Key Bytes

/-- `CacheMultiStore()`: a fresh cache. -/
def newCache {I : Type} : CacheMultiStore I := fun _ => ∅

/-- `Write` of a cache over another cache. -/
def CacheMultiStore.write {I : Type} (msCache below : CacheMultiStore I) : CacheMultiStore I :=
  fun i => Cache.writeBack (below i) (msCache i)

/-- `message.action`. -/
def actionEvent (eventMsgName : Bytes) : Event :=
  ⟨str "message", [⟨str "action", eventMsgName⟩]⟩

namespace BaseApp

variable {τ μ Γ I : Type} (app : BaseApp τ μ Γ I)

def validateBasicTxMsgs (msgs : List μ) : Result Unit :=
  if msgs = [] then .err (.wrap .invalidRequest (.new "must contain at least one message"))
  else Outcome.forEach (fun msg => Outcome.ofExcept (app.sdk.validateBasic msg)) msgs

/-- The handler of a message, and its name in the action event. -/
def route (ctx : Γ) (i : Nat) (msg : μ) : Result (StoreProgram I MsgResult × Bytes) :=
  match app.msgServiceRouter msg with
  | some handler => .ok (handler ctx msg, app.sdk.msgTypeURL msg)
  | none =>
    match app.sdk.legacy msg with
    | some legacyMsg =>
      match app.router ctx legacyMsg.route with
      | none => .err (.wrap .unknownRequest
          (.errorf "unrecognized message route: %s; message index: %d"
            [.bytes legacyMsg.route, .int i]))
      | some handler => .ok (handler ctx msg, legacyMsg.type)
    | none => .err (.wrap .unknownRequest
        (.errorf "can't route message %+v" [.bytes (app.sdk.print msg)]))

/-- The error of a message that fails. -/
def failed (i : Nat) (e : Error) : Error :=
  .wrapf e (.errorf "failed to execute message; message index: %d" [.int i])

/-- What `runMsgs` has gathered. -/
structure Gathered where
  events : List Event
  data : List MsgData
  logs : List MsgLog
  deriving DecidableEq, Repr

/-- The results of one more message. -/
def Gathered.add (acc : Gathered) (i : Nat) (msgType name : Bytes) (res : MsgResult) :
    Gathered where
  events := acc.events ++ (actionEvent name :: res.events)
  data := acc.data ++ [⟨msgType, res.data⟩]
  logs := acc.logs ++ [⟨i, res.log, actionEvent name :: res.events⟩]

variable [DecidableEq I]

/-- The loop of `runMsgs`, in the cache `msCache` over `r`. -/
def runMsgsLoop (ctx : Γ) (r : Cache.Reader I Key Bytes Error) :
    List μ → (i : Nat) → Gathered → CacheMultiStore I → Result (Gathered × CacheMultiStore I)
  | [], _, acc, msCache => .ok (acc, msCache)
  | msg :: msgs, i, acc, msCache => do
    let handler ← app.route ctx i msg
    let res ← Outcome.mapErr (failed i) (handler.1.exec r msCache)
    runMsgsLoop ctx r msgs (i + 1) (acc.add i (app.sdk.msgTypeURL msg) handler.2 res.1) res.2

/-- The result of `runMsgs`. -/
def result (acc : Gathered) : Result TxResult := do
  let data ← Outcome.mapErr (fun e => .wrapf e (.new "failed to marshal tx data"))
    (Outcome.ofExcept (app.sdk.marshal acc.data))
  .ok ⟨data, app.sdk.logText acc.logs, acc.events⟩

def runMsgs (ctx : Γ) (r : Cache.Reader I Key Bytes Error) (msgs : List μ) :
    Result (TxResult × CacheMultiStore I) := do
  let done ← app.runMsgsLoop ctx r msgs 0 ⟨[], [], []⟩ newCache
  let result ← app.result done.1
  .ok (result, done.2)

/-! ## Transactions -/

/-- The call of the ante handler: the context and the events after it, and the
cache `ms` with the writes of the handler. -/
def runAnte (ctx : Γ) (tx : τ) (r : Cache.Reader I Key Bytes Error) (ms : CacheMultiStore I) :
    Result ((Γ × List Event) × CacheMultiStore I) :=
  match app.anteHandler with
  | none => .ok ((ctx, []), ms)
  | some anteHandler => do
    -- the handler runs in a cache over `ms`, which is written if it succeeds
    let res ← (anteHandler ctx tx).exec (r.cached ms) newCache
    -- without a new context the old one stays, whose event manager is empty
    .ok (res.1.getD (ctx, []), CacheMultiStore.write res.2 ms)

/-- `RunTx` up to the last `ms.Write()`: the result and the cache `ms`. -/
def runTx (blockProvider : Result Block) (txBytes : Bytes)
    (r : Cache.Reader I Key Bytes Error) : Result (TxResult × CacheMultiStore I) := do
  let tx ← Outcome.ofExcept (app.sdk.txDecoder txBytes)
  let header ← getBlockHeader app.name blockProvider
  let msgs := app.sdk.getMsgs tx
  app.validateBasicTxMsgs msgs
  let ante ← app.runAnte (app.newContext header) tx r newCache
  let events := ante.1.2
  let ms := ante.2
  let res ← app.runMsgs ante.1.1 (r.cached ms) msgs
  let result := if events.length > 0 then { res.1 with events := events ++ res.1.events } else res.1
  .ok (result, CacheMultiStore.write res.2 ms)

end BaseApp

/-! ## Stores below the caches -/

section Base

variable {δ : Type}

/-- The pairs of an iteration with their keys. -/
def keyed (items : List (Bytes × Bytes)) : List (Key × Bytes) :=
  items.filterMap fun kv => if h : kv.1 = [] then none else some (⟨kv.1, h⟩, kv.2)

namespace store.CommitKVStore

/-- `Get` of a loaded store; `contents` are those of a store that is not kept in
the common database. -/
def get (stub : Stub) (contents : Contents) (k : Key) : CommitKVStore δ → Result (Option Bytes)
  | .adapter none pfx => orPanic (PrefixDB.get pfx stub k.bytes)
  | _ => .ok contents[k]?

/-- `Iterator` and `ReverseIterator` of a loaded store. -/
def list (stub : Stub) (contents : Contents) (dir : Cache.Direction) (lo hi : Option Key) :
    CommitKVStore δ → Result (List (Key × Bytes))
  | .adapter none pfx => do
    let items ← orPanic (match dir with
      | .ascending => PrefixDB.iterator pfx stub (lo.map Key.bytes) (hi.map Key.bytes)
      | .descending => PrefixDB.reverseIterator pfx stub (lo.map Key.bytes) (hi.map Key.bytes))
    .ok (keyed items)
  | _ => .ok (dir.arrange (OrderedMap.range contents lo hi))

end store.CommitKVStore

/-- The mounted stores. -/
abbrev Mounted (keys : List StoreKey) := { key : StoreKey // key ∈ keys }

/-- What the caches are laid over: the stores of `cms`, read through the stub. -/
def baseReader (rs : Store δ) {keys : List StoreKey} (elsewhere : Mounted keys → Contents)
    (stub : Stub) : Cache.Reader (Mounted keys) Key Bytes Error where
  get key k := do
    let s ← rs.getKVStore key.1
    s.get stub (elsewhere key) k
  list key dir lo hi := do
    let s ← rs.getKVStore key.1
    s.list stub (elsewhere key) dir lo hi

/-- A pending write as a call of the store below. -/
def pendingChange (w : Key × Option Bytes) : Change :=
  match w.2 with
  | some v => .put w.1 v
  | none => .remove w.1

/-- The calls a cache makes when it is written, in the order of the keys. -/
def pendingChanges {keys : List StoreKey} (ms : CacheMultiStore (Mounted keys)) (key : StoreKey) :
    List Change :=
  if h : key ∈ keys then (ms ⟨key, h⟩).toList.map pendingChange else []

end Base

/-! ## The stub -/

/-- What a stub answers to reads: the committed state, as in Fabric, or also the
writes made before, as the stub of the tests. -/
inductive ReadRule
  | committed
  | ownWrites
  deriving DecidableEq, Repr

/-- A simulation of a transaction: the stub it began with and its writes so far. -/
structure Simulation where
  start : Stub
  writes : List Write

namespace Simulation

/-- The stub as reads see it. -/
def stub (t : Simulation) : ReadRule → Stub
  | .committed => t.start
  | .ownWrites => { t.start with state := applyWrites t.start.state t.writes }

/-- The world state if the writes are committed. -/
def state (t : Simulation) : WorldState := applyWrites t.start.state t.writes

end Simulation

/-- `BaseApp.RunTx`. At the end `ms` is written to the stores, one after the other
in the given order. -/
def BaseApp.runTxOn {τ μ Γ δ : Type} {keys : List StoreKey} (app : BaseApp τ μ Γ (Mounted keys))
    (rs : Store δ) (elsewhere : Mounted keys → Contents) (blockProvider : Stub → Result Block)
    (order : List StoreKey) (rule : ReadRule) (t : Simulation) (txBytes : Bytes) :
    Result TxResult × Simulation :=
  match app.runTx (blockProvider (t.stub rule)) txBytes (baseReader rs elsewhere (t.stub rule)) with
  | .ok res =>
    match rs.flush (fun key => (pendingChanges res.2 key).map Change.command) order with
    | .ok writes => (.ok res.1, { t with writes := t.writes ++ writes })
    -- nobody recovers from a panic of `Write`; the peer then drops the transaction
    | .err e => (.err e, t)
    | .panic p => (.panic p, t)
  | .err e => (.err e, t)
  | .panic p => (.panic p, t)

end FabricIBC
