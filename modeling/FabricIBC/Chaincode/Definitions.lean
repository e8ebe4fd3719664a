import FabricIBC.Chaincode.Events
import FabricIBC.LightClient.Membership

/-!
# Fabric-IBC — chaincode: definitions

`chaincode.go` and `app.go`: the functions of the chaincode that write to the
world state, over the database of `x/compat` and the stores of
`chaincode/store`.

A transaction sees the committed state only (Fabric's `GetState`) and proposes
a list of writes. It either fails, and then has no effect, or its writes are
committed (`IBCChaincode.commit`).

The application and the keepers of ibc-go it is built from are parameters
(`Application`, `Keeper`). An application reaches the world state through its
database, that is through `Command`s.
-/

namespace FabricIBC

open Go

/-! ## The database (`x/compat/db.go`) -/

namespace compat

def errKeyEmpty : Error := .new "key cannot be empty"

def errValueNil : Error := .new "value cannot be nil"

/-- `DB.Get`. -/
def get (stub : Stub) (key : Bytes) : Result (Option Bytes) :=
  if key = [] then .err errKeyEmpty else .ok (stub.getState (hexEncode key))

/-- A call of `DB.Set` or `DB.Delete`; a `none` value is Go's `nil`. -/
inductive Command
  | set (key : Bytes) (value : Option Bytes)
  | delete (key : Bytes)
  deriving DecidableEq, Repr

/-- `DB.Set` and `DB.Delete`. -/
def Command.exec : Command → Result Write
  | set key value =>
    if key = [] then .err errKeyEmpty
    else
      match value with
      | none => .err errValueNil
      | some bz => .ok (.put (hexEncode key) bz)
  | delete key => if key = [] then .err errKeyEmpty else .ok (.del (hexEncode key))

/-- The calls a store makes when it is written; the sdk's adapter panics on an error. -/
def flush (commands : List Command) : Result (List Write) :=
  Outcome.collect (fun cmd =>
    match cmd.exec with
    | .ok w => .ok w
    | .err _ => .panic (.explicit "dbadapter")
    | .panic p => .panic p) commands

end compat

/-! ## Stores (`store/store.go`) -/

/-- A key-value store as a keeper reads it. -/
abbrev KVStore := Bytes → Option Bytes

/-- The place of a mounted store in the database: `"s/k:" + name + "/"`. -/
def storePath (name : Bytes) : Bytes := str "s/k:" ++ name ++ str "/"

/-- The store `name` in the committed state. Its keys are never empty in the database. -/
def kvStore (ws : WorldState) (name : Bytes) : KVStore :=
  fun key => ws[hexEncode (storePath name ++ key)]?

/-- The store of the IBC module. -/
def ibcStore (ws : WorldState) : KVStore := kvStore ws host.storeKey

/-! ## Code outside the repository: keepers and application -/

/-- The reading functions of ibc-go's keepers. They return `none` for "not
found" (or `nil`) and panic where stored bytes do not decode. -/
structure Keeper (C : Codec) where
  getClientState : KVStore → (clientID : Bytes) → Result (Option C.ClientStateI)
  getClientConsensusState : KVStore → (clientID : Bytes) → Height →
    Result (Option (ConsensusStateI C.OtherConsensusState))
  getConnection : KVStore → (connectionID : Bytes) → Result (Option C.ConnectionEnd)
  getChannel : KVStore → (portID channelID : Bytes) → Result (Option C.Channel)
  getPacketCommitment : KVStore → (portID channelID : Bytes) → UInt64 → Result (Option Bytes)
  getPacketAcknowledgement : KVStore → (portID channelID : Bytes) → UInt64 → Result (Option Bytes)
  getPacketReceipt : KVStore → (portID channelID : Bytes) → UInt64 → Result (Option Bytes)
  getNextSequenceRecv : KVStore → (portID channelID : Bytes) → Result (Option UInt64)
  /-- ICS-24: the data of a channel are stored under its path. -/
  by_path : ∀ {p c p' c' : Bytes}, host.portChannel p c = host.portChannel p' c' → ∀ store,
    getChannel store p c = getChannel store p' c' ∧
    getNextSequenceRecv store p c = getNextSequenceRecv store p' c' ∧
    ∀ n, getPacketCommitment store p c n = getPacketCommitment store p' c' n ∧
      getPacketAcknowledgement store p c n = getPacketAcknowledgement store p' c' n ∧
      getPacketReceipt store p c n = getPacketReceipt store p' c' n

/-- `app.Block`. -/
structure Block where
  height : Int64
  timestamp : Int64
  deriving DecidableEq, Repr

/-- What the chaincode uses of `sdk.Result`. -/
structure TxResult where
  data : Bytes
  log : Bytes
  events : List Event
  deriving DecidableEq, Repr

/-- `AppProvider` and `app.Application`. The block provider panics without a
current sequence; the commands are those of the flushed stores. -/
structure Application where
  provide : Stub → Result Block → Result (List compat.Command)
  initChain : Stub → (appStateBytes : Bytes) → Result (List compat.Command)
  runTx : Stub → Result Block → (txBytes : Bytes) → Result (TxResult × List compat.Command)

/-! ## The chaincode -/

structure IBCChaincode (C : Codec) where
  sequenceMgr : SequenceManager
  app : Application
  keeper : Keeper C
  packetCodec : PacketCodec

/-- `sdk.BigEndianToUint64`: the first eight bytes; shorter slices but the
empty one are out of range. -/
def bigEndianToUint64 (bz : Bytes) : Result UInt64 :=
  if bz = [] then .ok 0
  else if bz.length < 8 then .panic .indexOutOfRange
  else .ok ((bz.take 8).foldl (fun n b => n * 256 + b.toUInt64) 0)

/-- The value of a keeper's answer, or the error for "not found". -/
def found {α : Type} (e : Error) : Result (Option α) → Result α
  | .ok (some a) => .ok a
  | .ok none => .err e
  | .err e' => .err e'
  | .panic p => .panic p

namespace IBCChaincode

variable {C : Codec} (cc : IBCChaincode C) (stub : Stub)

/-- `GetBlockProvider`. -/
def getBlockProvider : Result Block :=
  match cc.sequenceMgr.getCurrentSequence stub with
  -- `int64(seq.Value)` wraps
  | .ok seq => .ok ⟨seq.value.toInt64, seq.timestamp⟩
  | .err _ => .panic (.explicit "GetBlockProvider")
  | .panic p => .panic p

/-- `RunFunc`: the application is set up, then `f` runs. -/
def runFunc {α : Type} (f : Result (α × List Write)) : Result (α × List Write) := do
  let commands ← cc.app.provide stub (cc.getBlockProvider stub)
  let loaded ← compat.flush commands
  let (a, writes) ← f
  .ok (a, loaded ++ writes)

/-- `AppRunner.Init`. -/
def init (appStateBytes : Bytes) : Result (Unit × List Write) :=
  cc.runFunc stub do
    let commands ← cc.app.initChain stub appStateBytes
    let writes ← compat.flush commands
    .ok ((), writes)

/-- `AppRunner.RunTx`. -/
def runTx (txBytes : Bytes) : Result (TxResult × List Write) :=
  cc.runFunc stub do
    let (res, commands) ← cc.app.runTx stub (cc.getBlockProvider stub) txBytes
    let writes ← compat.flush commands
    .ok (res, writes)

/-- `InitChaincode`. -/
def initChaincode (appStateJSON : Bytes) : Result (Unit × List Write) := do
  -- nothing asks whether the chaincode was initialised before
  let (_, appWrites) ← cc.init stub appStateJSON
  let (_, seqWrites) ← cc.sequenceMgr.initSequence stub
  .ok ((), appWrites ++ seqWrites)

/-- `HandleTx`, with the default event handlers. -/
def handleTx (txJSON : Bytes) : Result (TxResult × List Write) := do
  let (res, appWrites) ← cc.runTx stub txJSON
  let eventWrites ← multiEventHandle (defaultMultiEventHandler cc.packetCodec) res.events
  .ok (res, appWrites ++ eventWrites)

/-- The sequence `EndorseSequenceCommitment` is asked for: the one whose
number is the first argument, or else the current one. -/
def requestedSequence : Result Sequence :=
  match stub.args with
  -- `args[0]` is the name of the function
  | _ :: arg :: _ => do
    let value ← bigEndianToUint64 arg
    cc.sequenceMgr.getSequence stub value
  | _ => cc.sequenceMgr.getCurrentSequence stub

/-- `EndorseSequenceCommitment`. -/
def endorseSequenceCommitment : Result (Entry × List Write) := do
  let seq ← cc.requestedSequence stub
  let entry := makeSequenceCommitmentEntry seq
  .ok (entry, [.put entry.key entry.value])

/-- The common body of the other `Endorse*` functions: make an entry from what
the keepers find in the IBC store and put it. -/
def endorseEntry (make : KVStore → Result Entry) : Result (Entry × List Write) :=
  cc.runFunc stub do
    -- the keepers read the committed state, without the writes of the start
    let entry ← make (ibcStore stub.state)
    .ok (entry, [.put entry.key entry.value])

def endorseClientState (clientID : Bytes) : Result (Entry × List Write) :=
  cc.endorseEntry stub fun store => do
    let cs ← found (.wrap .clientNotFound (.errorf "clientID '%v' not found" [.bytes clientID]))
      (cc.keeper.getClientState store clientID)
    let bz ← Outcome.ofExcept (C.clientState.marshal cs)
    .ok (makeClientStateCommitmentEntry host.storeKey clientID bz)

def makeHeight (height : UInt64) : Height := ⟨0, height⟩

def endorseConsensusStateCommitment (clientID : Bytes) (height : UInt64) :
    Result (Entry × List Write) :=
  cc.endorseEntry stub fun store => do
    let h := makeHeight height
    let css ← found (.errorf "consensusState not found: clientID=%v height=%v"
      [.bytes clientID, .int height.toNat]) (cc.keeper.getClientConsensusState store clientID h)
    let bz ← Outcome.ofExcept (C.consensusState.marshal css)
    .ok (makeConsensusStateCommitmentEntry host.storeKey clientID h bz)

def endorseConnectionState (connectionID : Bytes) : Result (Entry × List Write) :=
  cc.endorseEntry stub fun store => do
    let connection ← found (.wrap .connectionNotFound
      (.errorf "cannot relay ACK of open attempt: %v" [.bytes connectionID]))
      (cc.keeper.getConnection store connectionID)
    let bz ← Outcome.ofExcept (C.connection.marshal connection)
    .ok (makeConnectionStateCommitmentEntry host.storeKey connectionID bz)

def endorseChannelState (portID channelID : Bytes) : Result (Entry × List Write) :=
  cc.endorseEntry stub fun store => do
    let channel ← found (.wrap .channelNotFound (.errorf "%s" [.bytes channelID]))
      (cc.keeper.getChannel store portID channelID)
    let bz ← Outcome.ofExcept (C.channel.marshal channel)
    .ok (makeChannelStateCommitmentEntry host.storeKey portID channelID bz)

def endorsePacketCommitment (portID channelID : Bytes) (sequence : UInt64) :
    Result (Entry × List Write) :=
  cc.endorseEntry stub fun store => do
    let cmbz ← found (.new "commitment not found")
      (cc.keeper.getPacketCommitment store portID channelID sequence)
    .ok (makePacketCommitmentEntry host.storeKey portID channelID sequence cmbz)

def endorsePacketAcknowledgement (portID channelID : Bytes) (sequence : UInt64) :
    Result (Entry × List Write) :=
  cc.endorseEntry stub fun store => do
    let ackBytes ← found (.new "acknowledgement packet not found")
      (cc.keeper.getPacketAcknowledgement store portID channelID sequence)
    .ok (makePacketAcknowledgementEntry host.storeKey portID channelID sequence ackBytes)

/-- The one function that wants nothing to be found. -/
def endorsePacketReceiptAbsence (portID channelID : Bytes) (sequence : UInt64) :
    Result (Entry × List Write) :=
  cc.endorseEntry stub fun store =>
    match cc.keeper.getPacketReceipt store portID channelID sequence with
    | .ok none => .ok (makePacketReceiptAbsenceEntry host.storeKey portID channelID sequence)
    | .ok (some _) => .err (.new "the packet receipt found")
    | .err e => .err e
    | .panic p => .panic p

def endorseNextSequenceRecv (portID channelID : Bytes) : Result (Entry × List Write) :=
  cc.endorseEntry stub fun store => do
    let seq ← found (.wrap .sequenceReceiveNotFound
      (.errorf "port: %s, channel: %s" [.bytes portID, .bytes channelID]))
      (cc.keeper.getNextSequenceRecv store portID channelID)
    .ok (makeNextSequenceRecvEntry host.storeKey portID channelID seq)

end IBCChaincode

/-! ## Transactions -/

/-- A function of the chaincode that writes, with its arguments. -/
inductive Call
  | initChaincode (appStateJSON : Bytes)
  | handleTx (txJSON : Bytes)
  | updateSequence
  | endorseSequenceCommitment
  | endorseClientState (clientID : Bytes)
  | endorseConsensusStateCommitment (clientID : Bytes) (height : UInt64)
  | endorseConnectionState (connectionID : Bytes)
  | endorseChannelState (portID channelID : Bytes)
  | endorsePacketCommitment (portID channelID : Bytes) (sequence : UInt64)
  | endorsePacketAcknowledgement (portID channelID : Bytes) (sequence : UInt64)
  | endorsePacketReceiptAbsence (portID channelID : Bytes) (sequence : UInt64)
  | endorseNextSequenceRecv (portID channelID : Bytes)
  deriving DecidableEq, Repr

/-- What a call returns. -/
inductive Response
  | unit
  | tx (res : TxResult)
  | sequence (seq : Sequence)
  | entry (e : Entry)
  deriving DecidableEq, Repr

/-- Name the kind of a result. -/
def respond {α : Type} (f : α → Response) (r : Result (α × List Write)) :
    Result (Response × List Write) := do
  let (a, writes) ← r
  .ok (f a, writes)

/-- Run a call. -/
def IBCChaincode.invoke {C : Codec} (cc : IBCChaincode C) (stub : Stub) :
    Call → Result (Response × List Write)
  | .initChaincode appState => respond (fun _ => .unit) (cc.initChaincode stub appState)
  | .handleTx tx => respond .tx (cc.handleTx stub tx)
  | .updateSequence => respond .sequence (cc.sequenceMgr.updateSequence stub)
  | .endorseSequenceCommitment => respond .entry (cc.endorseSequenceCommitment stub)
  | .endorseClientState id => respond .entry (cc.endorseClientState stub id)
  | .endorseConsensusStateCommitment id h =>
    respond .entry (cc.endorseConsensusStateCommitment stub id h)
  | .endorseConnectionState id => respond .entry (cc.endorseConnectionState stub id)
  | .endorseChannelState p c => respond .entry (cc.endorseChannelState stub p c)
  | .endorsePacketCommitment p c n => respond .entry (cc.endorsePacketCommitment stub p c n)
  | .endorsePacketAcknowledgement p c n =>
    respond .entry (cc.endorsePacketAcknowledgement stub p c n)
  | .endorsePacketReceiptAbsence p c n =>
    respond .entry (cc.endorsePacketReceiptAbsence stub p c n)
  | .endorseNextSequenceRecv p c => respond .entry (cc.endorseNextSequenceRecv stub p c)

/-- A transaction proposal: the call, and what its stub shows besides the state. -/
structure Invocation where
  call : Call
  args : List Bytes
  txTimestamp : Except Error Int64
  now : Int64
  creator : Except Error Bytes

/-- The stub of the transaction on a world state. -/
def Invocation.stub (inv : Invocation) (ws : WorldState) : Stub :=
  ⟨ws, inv.args, inv.txTimestamp, inv.now, inv.creator⟩

/-- The world state after a transaction. -/
def IBCChaincode.commit {C : Codec} (cc : IBCChaincode C) (ws : WorldState) (inv : Invocation) :
    WorldState :=
  match cc.invoke (inv.stub ws) inv.call with
  | .ok (_, writes) => applyWrites ws writes
  -- a transaction that fails is not committed, and a panic ends it
  | .err _ => ws
  | .panic _ => ws

end FabricIBC
