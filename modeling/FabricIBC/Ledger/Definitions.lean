import FabricIBC.App.Atomicity

/-!
# Fabric-IBC — ledger: definitions

The chaincode with an application built on `BaseApp`, and what the two are for.

At the bottom is the application as `NewIBCApp` puts it together for every call:
the stores are mounted and loaded, `InitializeAndSeal` runs in a cache that is
written at once, and then `InitChain` or `RunTx` runs in a cache of its own
(`IBCApp`). It is an application of the chaincode (`IBCApp.application`). Through the
stub in their contexts the handlers of a transaction ask for the creator and for
numbered sequences (`ContextStub`).

Above it is the ledger (`Ledger`): stores that are maps, sequences that are
values, commitments and packets. A call changes it without keys of the world
state, encodings, caches or flushes (`Deployment.perform`).

The order in which a `CacheMultiStore` writes its stores is that of a Go map. It
is arbitrary, also from one call to the next.
-/

namespace FabricIBC

open Go
open store (StoreKey Store CommitKVStore)
open Reference (Change Contents)

/-! ## Writing a cache -/

/-- `Write` of a `CacheMultiStore` over loaded stores. -/
def CacheMultiStore.commands {δ : Type} {keys : List StoreKey} (ms : CacheMultiStore (Mounted keys))
    (rs : Store δ) (order : List StoreKey) : Result (List compat.Command) :=
  rs.commands (fun key => (pendingChanges ms key).map Change.command) order

/-! ## The application -/

/-- An application built on `BaseApp`, as `NewIBCApp` does it. -/
structure IBCApp (τ μ Γ : Type) where
  keys : store.StoreKeys
  base : BaseApp τ μ Γ (Mounted keys.all)
  setupContext : Γ → ContextStub → Γ
  initChainer : Option ((appStateBytes : Bytes) → StoreProgram (Mounted keys.all) Unit)
  /-- `CapabilityKeeper.InitializeAndSeal`. -/
  initializeAndSeal : StoreProgram (Mounted keys.all) Unit
  /-- It copies the capabilities to memory. -/
  quiet : ∀ {M u M'}, initializeAndSeal.run M = .ok (u, M') → ∀ key : Mounted keys.all,
    key.1 ∈ keys.kv → M' key = M key
  order : Stub → List StoreKey
  order_perm : ∀ stub, (order stub).Perm keys.all

/-- The application of one call: its stores, and what those in memory hold. -/
structure Loaded (K : store.StoreKeys) where
  rs : Store Empty
  memory : Mounted K.all → Contents

/-- The stores as a `CacheMultiStore` reads them. -/
def Loaded.reader {K : store.StoreKeys} (l : Loaded K) (stub : Stub) :
    Cache.Reader (Mounted K.all) Key Bytes Error := baseReader l.rs l.memory stub

namespace IBCApp

variable {τ μ Γ : Type} (app : IBCApp τ μ Γ) (stub : Stub)

/-- The application with a stub in the contexts of its transactions. -/
def withStub (ctxStub : ContextStub) : BaseApp τ μ Γ (Mounted app.keys.all) :=
  { app.base with newContext := fun header => app.setupContext (app.base.newContext header) ctxStub }

/-- `NewIBCApp`, from the mounting of the stores on. -/
def newIBCApp : Result (Loaded app.keys × List compat.Command) := do
  let rs ← app.keys.openStores
  -- the stores in memory are new with every call
  let started ← app.initializeAndSeal.exec (baseReader rs (fun _ => ∅) stub) newCache
  let commands ← CacheMultiStore.commands started.2 rs (app.order stub)
  .ok (⟨rs, Cache.views (fun _ => ∅) started.2⟩, commands)

/-- `BaseApp.InitChain`. -/
def initChain (appStateBytes : Bytes) (l : Loaded app.keys) : Result (List compat.Command) :=
  match app.initChainer with
  | none => .ok []
  | some initChainer => do
    let res ← (initChainer appStateBytes).exec (l.reader stub) newCache
    CacheMultiStore.commands res.2 l.rs (app.order stub)

/-- `BaseApp.RunTx`. -/
def runTx (seqMgr : SequenceManager) (blockProvider : Result Block) (txBytes : Bytes)
    (l : Loaded app.keys) : Result (TxResult × List compat.Command) := do
  let res ← (app.withStub (seqMgr.contextStub stub)).runTx blockProvider txBytes (l.reader stub)
  let commands ← CacheMultiStore.commands res.2 l.rs (app.order stub)
  .ok (res.1, commands)

/-- The application as the chaincode runs it, with its sequence manager. -/
def application (seqMgr : SequenceManager) : Application where
  provide stub _ := do
    let app ← app.newIBCApp stub
    .ok app.2
  initChain stub appStateBytes := do
    let loaded ← app.newIBCApp stub
    app.initChain stub appStateBytes loaded.1
  runTx stub blockProvider txBytes := do
    let loaded ← app.newIBCApp stub
    app.runTx stub seqMgr blockProvider txBytes loaded.1

end IBCApp

/-- A chaincode with its application; `ibc` is the store of the IBC module. -/
structure Deployment (C : Codec) (τ μ Γ : Type) where
  sequenceMgr : SequenceManager
  app : IBCApp τ μ Γ
  ibc : Mounted app.keys.kv
  ibc_name : ibc.1.name = host.storeKey
  keeper : Keeper C
  packetCodec : PacketCodec

def Deployment.chaincode {C : Codec} {τ μ Γ : Type} (d : Deployment C τ μ Γ) : IBCChaincode C :=
  ⟨d.sequenceMgr, d.app.application d.sequenceMgr, d.keeper, d.packetCodec⟩

/-- A transaction that is endorsed and committed: what it returns, and the world
state after it. -/
def IBCChaincode.serve {C : Codec} (cc : IBCChaincode C) (ws : WorldState) (inv : Invocation) :
    Result Response × WorldState :=
  (cc.invoke (inv.stub ws) inv.call >>= fun res => .ok res.1, cc.commit ws inv)

/-! ## Ledgers -/

/-- What the world state holds. Commitments, packets and acknowledgements are
kept under the names they are found by. -/
@[ext] structure Ledger (K : store.StoreKeys) where
  stores : Mounted K.kv → Contents
  current : Option Sequence
  sequences : UInt64 → Option Sequence
  commitments : Bytes → Option Bytes
  packets : Bytes → Option Bytes

/-- Nothing is on the ledger. -/
def Ledger.empty (K : store.StoreKeys) : Ledger K :=
  ⟨fun _ => ∅, none, fun _ => none, fun _ => none, fun _ => none⟩

/-- All stores at the start of a call: those in memory are empty. -/
def fresh {K : store.StoreKeys} (M : Mounted K.kv → Contents) : Mounted K.all → Contents :=
  fun key => spread M key.1

/-- The stores that outlive a call. -/
def lasting {K : store.StoreKeys} (M : Mounted K.all → Contents) : Mounted K.kv → Contents :=
  fun key => M ⟨key.1, List.mem_append_left _ key.2⟩

/-- What is read of a sequence record. -/
def recorded : Option Sequence → Result Sequence
  | some seq => .ok seq
  | none => .err (.new "key not found")

namespace Ledger

variable {K : store.StoreKeys} (L : Ledger K)

/-- The next sequence begins. -/
def advance (seq : Sequence) : Ledger K :=
  { L with current := some seq, sequences := Function.update L.sequences seq.value (some seq) }

/-- An entry is there for relayers to point at. -/
def endorse (e : Entry) : Ledger K :=
  { L with commitments := Function.update L.commitments e.key (some e.value) }

/-- A packet or an acknowledgement is kept. -/
def keep : Write → Ledger K
  | .put key value => { L with packets := Function.update L.packets key (some value) }
  | .del key => { L with packets := Function.update L.packets key none }

/-- A sequence by its number, or the current one without a number. -/
def sequence (n : Option UInt64) : Result Sequence := recorded (n.elim L.current L.sequences)

/-- What is asked of a stub in a context, when the ledger answers. -/
def contextStub (inv : Invocation) : ContextStub := ⟨inv.creator, fun n => L.sequence (some n)⟩

/-- The block a transaction runs in. -/
def block : Result Block :=
  match L.current with
  | some seq => .ok ⟨seq.value.toInt64, seq.timestamp⟩
  | none => .panic (.explicit "GetBlockProvider")

end Ledger

/-! ## Endorsing -/

section Endorsing

variable {C : Codec}

/-- What the IBC store says about a subject. Nothing but the absence of a receipt
is stated about a subject it does not hold. -/
def Statement.about (keeper : Keeper C) (store : KVStore) : EntryID → Result (Option (Statement C))
  | .clientState a => do
    let cs ← keeper.getClientState store a
    .ok (cs.map (.clientState a))
  | .consensusState a h => do
    let css ← keeper.getClientConsensusState store a h
    .ok (css.map (.consensusState a h))
  | .connection a => do
    let connection ← keeper.getConnection store a
    .ok (connection.map (.connection a))
  | .channel p c => do
    let channel ← keeper.getChannel store p c
    .ok (channel.map (.channel p c))
  | .packetCommitment p c n => do
    let bz ← keeper.getPacketCommitment store p c n
    .ok (bz.map (.packetCommitment p c n))
  | .packetAcknowledgement p c n => do
    let bz ← keeper.getPacketAcknowledgement store p c n
    .ok (bz.map (.packetAcknowledgement p c n))
  | .packetReceiptAbsence p c n => do
    let receipt ← keeper.getPacketReceipt store p c n
    .ok (if receipt.isNone then some (.packetReceiptAbsence p c n) else none)
  | .nextSequenceRecv p c => do
    let n ← keeper.getNextSequenceRecv store p c
    .ok (n.map (.nextSequenceRecv p c))
  -- sequences are not in the IBC store
  | .sequence _ => .ok none

/-- The error of a subject about which there is nothing to state. -/
def EntryID.notFound : EntryID → Error
  | .clientState a => .wrap .clientNotFound (.errorf "clientID '%v' not found" [.bytes a])
  | .consensusState a h => .errorf "consensusState not found: clientID=%v height=%v"
      [.bytes a, .int h.revisionHeight.toNat]
  | .connection a => .wrap .connectionNotFound
      (.errorf "cannot relay ACK of open attempt: %v" [.bytes a])
  | .channel _ c => .wrap .channelNotFound (.errorf "%s" [.bytes c])
  | .packetCommitment .. => .new "commitment not found"
  | .packetAcknowledgement .. => .new "acknowledgement packet not found"
  | .packetReceiptAbsence .. => .new "the packet receipt found"
  | .nextSequenceRecv p c => .wrap .sequenceReceiveNotFound
      (.errorf "port: %s, channel: %s" [.bytes p, .bytes c])
  | .sequence _ => .new "key not found"

/-- The entry about a subject. -/
def entryAbout (keeper : Keeper C) (store : KVStore) (id : EntryID) : Result Entry := do
  let stmt ← found id.notFound (Statement.about keeper store id)
  let bz ← stmt.bytes
  .ok ⟨id.key host.storeKey, bz⟩

end Endorsing

/-! ## Calls -/

/-- The sequence an invocation of `EndorseSequenceCommitment` asks for. -/
def Invocation.requested (inv : Invocation) : Result (Option UInt64) :=
  match inv.args with
  | _ :: arg :: _ => do
    let value ← bigEndianToUint64 arg
    .ok (some value)
  | _ => .ok none

namespace Deployment

variable {C : Codec} {τ μ Γ : Type} (d : Deployment C τ μ Γ)

/-- The ledgers of a deployment. -/
abbrev State := Ledger d.app.keys

/-- The IBC store of the ledger. -/
def ibcStoreOf (L : d.State) : KVStore := fun key =>
  if h : key = [] then none else (L.stores d.ibc)[(⟨key, h⟩ : Key)]?

/-- The stores once the application has started. -/
def start (L : d.State) : Result (Mounted d.app.keys.all → Contents) := do
  let started ← d.app.initializeAndSeal.run (fresh L.stores)
  .ok started.2

/-- The genesis of the application, on all its stores. -/
def genesis (appStateBytes : Bytes) (M : Mounted d.app.keys.all → Contents) :
    Result (Mounted d.app.keys.all → Contents) :=
  match d.app.initChainer with
  | none => .ok M
  | some initChainer => do
    let res ← (initChainer appStateBytes).run M
    .ok res.2

/-- The application starts and makes its genesis. -/
def init (L : d.State) (appStateBytes : Bytes) : Result (Mounted d.app.keys.all → Contents) := do
  let M ← d.start L
  d.genesis appStateBytes M

/-- The application starts and runs a transaction on a private copy of the stores. Its
handlers may ask for the creator and for the sequences of the ledger. -/
def runTx (L : d.State) (inv : Invocation) (txBytes : Bytes) :
    Result (TxResult × (Mounted d.app.keys.all → Contents)) := do
  let M ← d.start L
  (d.app.withStub (L.contextStub inv)).reference L.block txBytes M

/-- The time of an invocation, if it may follow `prevSec`. -/
def time (inv : Invocation) (prevSec : Int64) : Result Int64 := do
  let tm ← Outcome.ofExcept inv.txTimestamp
  d.sequenceMgr.validateTimestamp inv.now prevSec tm
  .ok tm

def initChaincode (L : d.State) (inv : Invocation) (appStateJSON : Bytes) :
    Result (Response × d.State) := do
  let M ← d.init L appStateJSON
  let tm ← d.time inv 0
  .ok (.unit, { L with stores := lasting M }.advance ⟨1, tm⟩)

def handleTx (L : d.State) (inv : Invocation) (txJSON : Bytes) : Result (Response × d.State) := do
  let res ← d.runTx L inv txJSON
  let kept ← multiEventHandle (defaultMultiEventHandler d.packetCodec) res.1.events
  .ok (.tx res.1, kept.foldl Ledger.keep { L with stores := lasting res.2 })

def updateSequence (L : d.State) (inv : Invocation) : Result (Response × d.State) := do
  let current ← L.sequence none
  let tm ← d.time inv current.timestamp
  let next : Sequence := ⟨current.value + 1, tm⟩
  .ok (.sequence next, L.advance next)

def endorseSequence (L : d.State) (inv : Invocation) : Result (Response × d.State) := do
  let n ← inv.requested
  let seq ← L.sequence n
  let e := makeSequenceCommitmentEntry seq
  .ok (.entry e, L.endorse e)

/-- The other endorsing calls, by their subject. -/
def endorseAbout (L : d.State) (id : EntryID) : Result (Response × d.State) := do
  -- the application starts, but only the keepers are used
  let _ ← d.start L
  let e ← entryAbout d.keeper (d.ibcStoreOf L) id
  .ok (.entry e, L.endorse e)

/-- **A call, on the ledger.** -/
def perform (L : d.State) (inv : Invocation) : Result (Response × d.State) :=
  match inv.call with
  | .initChaincode appStateJSON => d.initChaincode L inv appStateJSON
  | .handleTx txJSON => d.handleTx L inv txJSON
  | .updateSequence => d.updateSequence L inv
  | .endorseSequenceCommitment => d.endorseSequence L inv
  | .endorseClientState a => d.endorseAbout L (.clientState a)
  | .endorseConsensusStateCommitment a n =>
    d.endorseAbout L (.consensusState a (IBCChaincode.makeHeight n))
  | .endorseConnectionState a => d.endorseAbout L (.connection a)
  | .endorseChannelState p c => d.endorseAbout L (.channel p c)
  | .endorsePacketCommitment p c n => d.endorseAbout L (.packetCommitment p c n)
  | .endorsePacketAcknowledgement p c n => d.endorseAbout L (.packetAcknowledgement p c n)
  | .endorsePacketReceiptAbsence p c n => d.endorseAbout L (.packetReceiptAbsence p c n)
  | .endorseNextSequenceRecv p c => d.endorseAbout L (.nextSequenceRecv p c)

/-- A call that fails leaves the ledger as it is. -/
def serve (L : d.State) (inv : Invocation) : Result Response × d.State :=
  match d.perform L inv with
  | .ok (res, L') => (.ok res, L')
  | .err e => (.err e, L)
  | .panic p => (.panic p, L)

end Deployment

end FabricIBC
