import FabricIBC.Commitment.Definitions

/-!
# Fabric-IBC — chaincode: packet and acknowledgement events

`packet_event_handler.go` and `event_handler.go`: after a transaction the
chaincode reads the packets and acknowledgements back from the events of the
application and keeps them in the world state for relayers.

The handlers expect the attributes in the order in which ibc-go emits them.
Numbers and hex strings that do not parse are panics, not errors.
-/

namespace FabricIBC

open Go

/-! ## Events -/

/-- The event types the handlers look for (`channeltypes.EventType*`). -/
inductive EventType
  | sendPacket
  | writeAck
  deriving DecidableEq, Repr

def EventType.text : EventType → Bytes
  | sendPacket => str "send_packet"
  | writeAck => str "write_acknowledgement"

/-- The attribute keys the handlers know (`channeltypes.AttributeKey*`). -/
inductive AttributeKey
  | data
  | dataHex
  | timeoutHeight
  | timeoutTimestamp
  | sequence
  | srcPort
  | srcChannel
  | dstPort
  | dstChannel
  | ack
  deriving DecidableEq, Repr

namespace AttributeKey

def text : AttributeKey → Bytes
  | data => str "packet_data"
  | dataHex => str "packet_data_hex"
  | timeoutHeight => str "packet_timeout_height"
  | timeoutTimestamp => str "packet_timeout_timestamp"
  | sequence => str "packet_sequence"
  | srcPort => str "packet_src_port"
  | srcChannel => str "packet_src_channel"
  | dstPort => str "packet_dst_port"
  | dstChannel => str "packet_dst_channel"
  | ack => str "packet_ack"

def all : List AttributeKey :=
  [data, dataHex, timeoutHeight, timeoutTimestamp, sequence, srcPort, srcChannel, dstPort,
    dstChannel, ack]

/-- The `switch` over the key of an attribute. -/
def ofBytes (key : Bytes) : Option AttributeKey := all.find? fun k => k.text == key

end AttributeKey

/-- `abci.EventAttribute`. -/
structure Attribute where
  key : Bytes
  value : Bytes
  deriving DecidableEq, Repr

/-- `abci.Event`. -/
structure Event where
  type : Bytes
  attributes : List Attribute
  deriving DecidableEq, Repr

/-- `channeltypes.Packet`. -/
structure Packet where
  sequence : UInt64
  sourcePort : Bytes
  sourceChannel : Bytes
  destinationPort : Bytes
  destinationChannel : Bytes
  data : Bytes
  timeoutHeight : Height
  timeoutTimestamp : UInt64
  deriving DecidableEq, Repr

/-- The zero value `channeltypes.Packet{}`. -/
def Packet.empty : Packet := ⟨0, [], [], [], [], [], ⟨0, 0⟩, 0⟩

/-- What the handlers use of ibc-go's `Packet`. -/
structure PacketCodec where
  validateBasic : Packet → Except Error Unit
  marshal : Packet → Except Error Bytes

/-! ## Reading attributes -/

def assertIndex (actual expected : Nat) : Result Unit :=
  if actual = expected then .ok () else .err (.errorf "%v != %v" [.int actual, .int expected])

def strToUint64 (s : Bytes) : Result UInt64 :=
  match parseUint s with
  | some v => .ok v
  | none => .panic (.explicit "strconv.ParseUint")

/-- `strings.Split(v, "-")` and its first two parts. -/
def strToHeight (v : Bytes) : Result Height :=
  match v.splitOn 45 with
  | p₀ :: p₁ :: _ => do
    let number ← strToUint64 p₀
    let height ← strToUint64 p₁
    .ok ⟨number, height⟩
  -- `parts[1]` of a text without a dash
  | _ => .panic .indexOutOfRange

/-- One attribute of a `send_packet` event, at index `i`. -/
def packetAttribute (i : Nat) (packet : Packet) (attr : Attribute) : Result Packet :=
  match AttributeKey.ofBytes attr.key with
  | some .data => do
    -- a start of packet attributes
    assertIndex i 0
    .ok { Packet.empty with data := attr.value }
  | some .dataHex =>
    match hexDecode attr.value with
    | none => .panic (.explicit "hex.DecodeString")
    | some bz => do
      assertIndex i 1
      .ok { packet with data := bz }
  | some .timeoutHeight => do
    let h ← strToHeight attr.value
    assertIndex i 2
    .ok { packet with timeoutHeight := h }
  | some .timeoutTimestamp => do
    let v ← strToUint64 attr.value
    assertIndex i 3
    .ok { packet with timeoutTimestamp := v }
  | some .sequence => do
    let v ← strToUint64 attr.value
    assertIndex i 4
    .ok { packet with sequence := v }
  | some .srcPort => do
    assertIndex i 5
    .ok { packet with sourcePort := attr.value }
  | some .srcChannel => do
    assertIndex i 6
    .ok { packet with sourceChannel := attr.value }
  | some .dstPort => do
    assertIndex i 7
    .ok { packet with destinationPort := attr.value }
  | some .dstChannel => do
    assertIndex i 8
    .ok { packet with destinationChannel := attr.value }
  -- other attributes are passed over, at any index
  | some .ack => .ok packet
  | none => .ok packet

/-- The loop over the attributes of one event, from index `i`. -/
def attributeLoop {σ : Type} (f : Nat → σ → Attribute → Result σ) (i : Nat) (s : σ) :
    List Attribute → Result σ
  | [] => .ok s
  | attr :: attrs => do
    let s ← f i s attr
    attributeLoop f (i + 1) s attrs

/-- `getPacketsFromEvents`. -/
def getPacketsFromEvents (P : PacketCodec) (events : List Event) : Result (List Packet) :=
  Outcome.collect (fun ev => do
      -- all attributes of a packet are in one event
      let packet ← attributeLoop packetAttribute 0 Packet.empty ev.attributes
      Outcome.ofExcept (P.validateBasic packet)
      .ok packet)
    (events.filter fun ev => ev.type == EventType.sendPacket.text)

/-- `packetAcknowledgement`. -/
structure PacketAcknowledgement where
  srcPortID : Bytes
  srcChannelID : Bytes
  dstPortID : Bytes
  dstChannelID : Bytes
  sequence : UInt64
  data : Bytes
  deriving DecidableEq, Repr

/-- One attribute of a `write_acknowledgement` event, at index `i`. -/
def acknowledgementAttribute (i : Nat) (ack : PacketAcknowledgement) (attr : Attribute) :
    Result PacketAcknowledgement :=
  match AttributeKey.ofBytes attr.key with
  | some .sequence => do
    let v ← strToUint64 attr.value
    assertIndex i 4
    .ok { ack with sequence := v }
  | some .srcPort => do
    assertIndex i 5
    .ok { ack with srcPortID := attr.value }
  | some .srcChannel => do
    assertIndex i 6
    .ok { ack with srcChannelID := attr.value }
  | some .dstPort => do
    assertIndex i 7
    .ok { ack with dstPortID := attr.value }
  | some .dstChannel => do
    assertIndex i 8
    .ok { ack with dstChannelID := attr.value }
  | some .ack => do
    assertIndex i 9
    .ok { ack with data := attr.value }
  | _ => .ok ack

/-- `getPacketAcknowledgementsFromEvents`. -/
def getPacketAcknowledgementsFromEvents (events : List Event) :
    Result (List PacketAcknowledgement) :=
  Outcome.collect
    (fun ev => attributeLoop acknowledgementAttribute 0 ⟨[], [], [], [], 0, []⟩ ev.attributes)
    (events.filter fun ev => ev.type == EventType.writeAck.text)

/-! ## The handlers -/

/-- `fmt.Sprintf("%v/%v/%v/%v", keyPrefix, portID, channelID, sequence)`, the key of a
packet and of an acknowledgement alike. -/
def eventKey (keyPrefix portID channelID : Bytes) (sequence : UInt64) : Bytes :=
  keyPrefix ++ str "/" ++ portID ++ str "/" ++ channelID ++ str "/" ++ dec sequence.toNat

def makePacketKey (keyPrefix portID channelID : Bytes) (sequence : UInt64) : Bytes :=
  eventKey keyPrefix portID channelID sequence

def makePacketAcknowledgementKey (keyPrefix portID channelID : Bytes) (sequence : UInt64) : Bytes :=
  eventKey keyPrefix portID channelID sequence

def packetEventKeyPrefix : Bytes := str "/packets"

def packetAcknowledgementEventKeyPrefix : Bytes := str "/acks"

/-- An event handler: whether the next one runs, and the calls of `PutState`. -/
abbrev EventHandler := List Event → Result (Bool × List Write)

def handlePacketEvent (P : PacketCodec) : EventHandler := fun events => do
  let packets ← getPacketsFromEvents P events
  let writes ← Outcome.collect (fun (p : Packet) => do
    let bz ← Outcome.ofExcept (P.marshal p)
    .ok (Write.put
      (makePacketKey packetEventKeyPrefix p.sourcePort p.sourceChannel p.sequence) bz)) packets
  .ok (true, writes)

def handlePacketAcknowledgementEvent : EventHandler := fun events => do
  let acks ← getPacketAcknowledgementsFromEvents events
  .ok (true, acks.map fun a =>
    .put (makePacketAcknowledgementKey packetAcknowledgementEventKeyPrefix a.dstPortID
      a.dstChannelID a.sequence) a.data)

/-- `MultiEventHandler.Handle`: the handlers run until one says to stop. -/
def multiEventHandle : List EventHandler → List Event → Result (List Write)
  | [], _ => .ok []
  | h :: hs, events => do
    let (cont, writes) ← h events
    if cont then do
      let rest ← multiEventHandle hs events
      .ok (writes ++ rest)
    else .ok writes

def defaultMultiEventHandler (P : PacketCodec) : List EventHandler :=
  [handlePacketEvent P, handlePacketAcknowledgementEvent]

end FabricIBC
