import Std.Data.ExtTreeMap
import FabricIBC.Lib.Outcome
import FabricIBC.Lib.ByteString
import FabricIBC.Lib.Wire

/-!
# Fabric-IBC — commitments and sequences: definitions

What both sides of a Fabric-IBC connection share: the errors of the
repository, heights, the key formats of `chaincode/commitment/key.go` and
`chaincode/commitment/commitment.go`, the `Sequence` message with its
generated codec, and the sequence manager of
`chaincode/commitment/sequence.go` over a chaincode stub.

The paths of the host state machine (ICS-24) are ibc-go's; they are written
down as documented there.
-/

namespace FabricIBC

open Go

/-! ## Errors -/

/-- The registered sdk errors the repository wraps. -/
inductive SdkError
  | invalidHeader
  | invalidConsensus
  | consensusStateNotFound
  | invalidClient
  | clientFrozen
  | clientNotFound
  | connectionNotFound
  | channelNotFound
  | sequenceReceiveNotFound
  | invalidHeight
  | invalidType
  | invalidPrefix
  | invalidProof
  | invalidRequest
  | unknownRequest
  | txDecode
  | keyNotFound
  | unauthorized
  deriving DecidableEq, Repr

/-- A value printed by a format string. -/
inductive FmtArg
  | int (i : Int)
  | bytes (b : Bytes)
  | height (revisionNumber revisionHeight : UInt64)
  | sequence (value : UInt64) (timestamp : Int64)
  | chaincodeID (path name version : Bytes)
  deriving DecidableEq, Repr

/-- An error value: its text, or the format string and the values (or the error)
printed by it, and the sdk error (or the error of a call) it wraps. -/
inductive Error
  | new (text : String)
  | errorf (format : String) (args : List FmtArg)
  | printing (format : String) (e : Error)
  | sdk (root : SdkError)
  | wrap (root : SdkError) (description : Error)
  | wrapf (inner description : Error)
  | wire (e : Wire.Error)
  -- an error made by a package outside the repository
  | external (text : String)
  deriving DecidableEq, Repr

/-- `Error()` of an error made by `errors.New`; no other text is asked for. -/
def Error.text : Error → String
  | new text => text
  | _ => ""

/-- The outcome of a call into the repository's code. -/
abbrev Result := Outcome Error

/-! ## Heights -/

/-- `clienttypes.Height`. -/
structure Height where
  revisionNumber : UInt64
  revisionHeight : UInt64
  deriving DecidableEq, Repr

/-- `Height.Compare` is negative: revision numbers first, then heights. -/
def Height.lt (a b : Height) : Bool :=
  if a.revisionNumber ≠ b.revisionNumber then a.revisionNumber < b.revisionNumber
  else a.revisionHeight < b.revisionHeight

/-- `Height.LTE`. -/
def Height.lte (a b : Height) : Bool := a.lt b || a == b

/-- `Height.String`: `%d-%d`. -/
def Height.string (h : Height) : Bytes :=
  dec h.revisionNumber.toNat ++ str "-" ++ dec h.revisionHeight.toNat

/-! ## Paths of the host state machine -/

namespace host

/-- `host.StoreKey`, also the commitment prefix of the chaincode. -/
def storeKey : Bytes := str "ibc"

def consensusStatePath (h : Height) : Bytes := str "consensusStates/" ++ h.string

def connectionPath (connectionID : Bytes) : Bytes := str "connections/" ++ connectionID

/-- `ports/{port}/channels/{channel}`, the tail of every channel path. -/
def portChannel (portID channelID : Bytes) : Bytes :=
  str "ports/" ++ portID ++ str "/channels/" ++ channelID

def channelPath (portID channelID : Bytes) : Bytes :=
  str "channelEnds/" ++ portChannel portID channelID

def nextSequenceRecvPath (portID channelID : Bytes) : Bytes :=
  str "nextSequenceRecv/" ++ portChannel portID channelID

/-- `ports/{port}/channels/{channel}/sequences/{n}`, the tail of every packet path. -/
def packetTail (portID channelID : Bytes) (sequence : UInt64) : Bytes :=
  portChannel portID channelID ++ str "/sequences/" ++ dec sequence.toNat

def packetCommitmentPath (portID channelID : Bytes) (sequence : UInt64) : Bytes :=
  str "commitments/" ++ packetTail portID channelID sequence

def packetAcknowledgementPath (portID channelID : Bytes) (sequence : UInt64) : Bytes :=
  str "acks/" ++ packetTail portID channelID sequence

def packetReceiptPath (portID channelID : Bytes) (sequence : UInt64) : Bytes :=
  str "receipts/" ++ packetTail portID channelID sequence

end host

/-! ## Keys -/

/-- `MakeCurrentSequenceKey`. -/
def makeCurrentSequenceKey (pfx : Bytes) : Bytes := str "h/k:" ++ pfx ++ str "/current"

/-- `MakeSequenceKey`. -/
def makeSequenceKey (pfx : Bytes) (seq : UInt64) : Bytes :=
  str "h/k:" ++ pfx ++ str "/seq/" ++ dec seq.toNat

/-- `MakeEntryKey`. -/
def makeEntryKey (pfx key : Bytes) : Bytes := str "e/k:" ++ pfx ++ str "/" ++ key

def makeClientStateCommitmentEntryKey (pfx clientID : Bytes) : Bytes :=
  str "h/k:" ++ pfx ++ str "/clients/" ++ clientID ++ str "/clientState"

def makeConsensusStateCommitmentEntryKey (pfx clientID : Bytes) (height : Height) : Bytes :=
  str "h/k:" ++ pfx ++ str "/clients/" ++ clientID ++ str "/" ++ host.consensusStatePath height ++
    str "/commitment"

def makeSequenceCommitmentEntryKey (seq : UInt64) : Bytes :=
  str "h/_/seq/" ++ dec seq.toNat ++ str "/commitment"

def makeConnectionStateCommitmentEntryKey (pfx connectionID : Bytes) : Bytes :=
  str "h/k:" ++ pfx ++ str "/" ++ host.connectionPath connectionID ++ str "/commitment"

def makeChannelStateCommitmentEntryKey (pfx portID channelID : Bytes) : Bytes :=
  str "h/k:" ++ pfx ++ str "/" ++ host.channelPath portID channelID ++ str "/commitment"

def makePacketCommitmentEntryKey (pfx portID channelID : Bytes) (sequence : UInt64) : Bytes :=
  makeEntryKey pfx (host.packetCommitmentPath portID channelID sequence)

def makePacketAcknowledgementEntryKey (pfx portID channelID : Bytes) (sequence : UInt64) : Bytes :=
  makeEntryKey pfx (host.packetAcknowledgementPath portID channelID sequence)

def makePacketReceiptAbsenceEntryKey (pfx portID channelID : Bytes) (sequence : UInt64) : Bytes :=
  makeEntryKey pfx (host.packetReceiptPath portID channelID sequence)

def makeNextSequenceRecvEntryKey (pfx portID channelID : Bytes) : Bytes :=
  makeEntryKey pfx (host.nextSequenceRecvPath portID channelID)

/-! ## Sequences -/

/-- `commitment.Sequence`. -/
structure Sequence where
  value : UInt64
  timestamp : Int64
  deriving DecidableEq, Repr

/-- `Sequence.Bytes`: the generated marshaller. -/
def Sequence.bytes (seq : Sequence) : Bytes :=
  Wire.varintField 0x08 seq.value.toNat ++ Wire.varintField 0x10 seq.timestamp.toUInt64.toNat

/-- The generated unmarshaller. -/
def Sequence.reader : Wire.Reader Sequence where
  message := "Sequence"
  field
    | 1 => some (.varint "Value" fun m v => { m with value := v })
    | 2 => some (.varint "Timestamp" fun m v => { m with timestamp := v.toInt64 })
    | _ => none

def Sequence.zero : Sequence := ⟨0, 0⟩

/-- `proto.Unmarshal(bz, &seq)`. -/
def Sequence.unmarshal (bz : Bytes) : Result Sequence :=
  (Sequence.reader.unmarshal .zero bz).mapErr .wire

/-- `commitment.Entry`. -/
structure Entry where
  key : Bytes
  value : Bytes
  deriving DecidableEq, Repr

def makeSequenceCommitmentEntry (seq : Sequence) : Entry :=
  ⟨makeSequenceCommitmentEntryKey seq.value, seq.bytes⟩

/-! ## Commitment entries -/

/-- `sdk.Uint64ToBigEndian`. -/
def uint64ToBigEndian (n : UInt64) : Bytes :=
  [56, 48, 40, 32, 24, 16, 8, 0].map fun (shift : UInt64) => (n >>> shift).toUInt8

def makeClientStateCommitmentEntry (pfx clientID clientStateBytes : Bytes) : Entry :=
  ⟨makeClientStateCommitmentEntryKey pfx clientID, clientStateBytes⟩

def makeConsensusStateCommitmentEntry (pfx clientID : Bytes) (height : Height)
    (consensusStateBytes : Bytes) : Entry :=
  ⟨makeConsensusStateCommitmentEntryKey pfx clientID height, consensusStateBytes⟩

def makeConnectionStateCommitmentEntry (pfx connectionID connectionBytes : Bytes) : Entry :=
  ⟨makeConnectionStateCommitmentEntryKey pfx connectionID, connectionBytes⟩

def makeChannelStateCommitmentEntry (pfx portID channelID channelBytes : Bytes) : Entry :=
  ⟨makeChannelStateCommitmentEntryKey pfx portID channelID, channelBytes⟩

def makePacketCommitmentEntry (pfx portID channelID : Bytes) (sequence : UInt64)
    (packetCommitmentBytes : Bytes) : Entry :=
  ⟨makePacketCommitmentEntryKey pfx portID channelID sequence, packetCommitmentBytes⟩

def makePacketAcknowledgementEntry (pfx portID channelID : Bytes) (sequence : UInt64)
    (ackBytes : Bytes) : Entry :=
  ⟨makePacketAcknowledgementEntryKey pfx portID channelID sequence, ackBytes⟩

/-- The absence of a receipt is a single zero byte. -/
def makePacketReceiptAbsenceEntry (pfx portID channelID : Bytes) (sequence : UInt64) : Entry :=
  ⟨makePacketReceiptAbsenceEntryKey pfx portID channelID sequence, [0]⟩

def makeNextSequenceRecvEntry (pfx portID channelID : Bytes) (seq : UInt64) : Entry :=
  ⟨makeNextSequenceRecvEntryKey pfx portID channelID, uint64ToBigEndian seq⟩

/-! ## The stub -/

/-- The world state of a chaincode: Fabric keys and their values. -/
abbrev WorldState := Std.ExtTreeMap Bytes Bytes compare

/-- A call of `PutState` or `DelState`. -/
inductive Write
  | put (key value : Bytes)
  | del (key : Bytes)
  deriving DecidableEq, Repr

def Write.key : Write → Bytes
  | .put key _ => key
  | .del key => key

/-- Commit one write. -/
def Write.apply (ws : WorldState) : Write → WorldState
  | .put key value => ws.insert key value
  | .del key => ws.erase key

/-- Commit the writes of a transaction in the order of the calls. -/
def applyWrites (ws : WorldState) (writes : List Write) : WorldState :=
  writes.foldl Write.apply ws

/-- What a transaction sees through `shim.ChaincodeStubInterface`: the
committed state (`GetState` does not see the transaction's own writes), its
arguments, its timestamp in seconds and its creator (`GetCreator`); `now` is the
endorser's clock. -/
structure Stub where
  state : WorldState
  args : List Bytes
  txTimestamp : Except Error Int64
  now : Int64
  creator : Except Error Bytes

/-- `GetState`; `none` is Go's `nil`. -/
def Stub.getState (stub : Stub) (key : Bytes) : Option Bytes := stub.state[key]?

/-! ## The sequence manager -/

/-- `time.Second` in nanoseconds. -/
def second : Int64 := 1000000000

/-- `CommitmentConfig`; durations are in nanoseconds. -/
structure CommitmentConfig where
  minTimeInterval : Int64
  maxTimestampDiff : Int64
  deriving DecidableEq, Repr

def defaultConfig : CommitmentConfig := ⟨5 * second, 30 * second⟩

/-- `sequenceManager`; its clock is read through the stub. -/
structure SequenceManager where
  config : CommitmentConfig
  pfx : Bytes
  deriving DecidableEq, Repr

namespace SequenceManager

/-- `NewDefaultSequenceManager`. -/
def newDefault : SequenceManager := ⟨defaultConfig, host.storeKey⟩

/-- `ValidateTimestamp`: all sums are 64-bit. -/
def validateTimestamp (m : SequenceManager) (now prevSec next : Int64) : Result Unit :=
  if now + m.config.maxTimestampDiff / second < next then
    .err (.new "the next timestamp indicates future time")
  else if next < now - m.config.maxTimestampDiff / second then
    .err (.new "the next timestamp indicates past time")
  -- a previous timestamp that is not positive does not constrain the next one
  else if 0 < prevSec ∧ next < prevSec + m.config.minTimeInterval / second then
    .err (.new "the next timestamp is less than the minimum time for advancing the sequence")
  else .ok ()

/-- Read a sequence record. -/
def readSequence (stub : Stub) (key : Bytes) : Result Sequence :=
  match stub.getState key with
  | none => .err (.new "key not found")
  | some bz => Sequence.unmarshal bz

/-- `GetCurrentSequence`. -/
def getCurrentSequence (m : SequenceManager) (stub : Stub) : Result Sequence :=
  readSequence stub (makeCurrentSequenceKey m.pfx)

/-- `GetSequence`. -/
def getSequence (m : SequenceManager) (stub : Stub) (value : UInt64) : Result Sequence :=
  readSequence stub (makeSequenceKey m.pfx value)

/-- The private `updateSequence`: the pointer record and the historical one. -/
def putSequence (m : SequenceManager) (nextSeq : Sequence) : List Write :=
  [.put (makeCurrentSequenceKey m.pfx) nextSeq.bytes,
    .put (makeSequenceKey m.pfx nextSeq.value) nextSeq.bytes]

/-- `InitSequence`: writes sequence 1, whatever the state holds. -/
def initSequence (m : SequenceManager) (stub : Stub) : Result (Sequence × List Write) := do
  let tm ← Outcome.ofExcept stub.txTimestamp
  m.validateTimestamp stub.now 0 tm
  -- the records are not looked at
  let seq : Sequence := ⟨1, tm⟩
  .ok (seq, m.putSequence seq)

/-- `UpdateSequence`. -/
def updateSequence (m : SequenceManager) (stub : Stub) : Result (Sequence × List Write) := do
  let current ← m.getCurrentSequence stub
  let tm ← Outcome.ofExcept stub.txTimestamp
  m.validateTimestamp stub.now current.timestamp tm
  -- after the largest `uint64` comes 0
  let next : Sequence := ⟨current.value + 1, tm⟩
  .ok (next, m.putSequence next)

end SequenceManager

end FabricIBC
