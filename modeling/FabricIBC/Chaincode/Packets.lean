import FabricIBC.Chaincode.KeySpace
import FabricIBC.Lib.Reading

/-!
# Fabric-IBC — chaincode: packets for relayers

`QueryPacket` and `QueryPacketAcknowledgement` of `packet_event_handler.go`, and the
whole way of a packet: ibc-go emits it as an event, the handlers read it back and
keep it, and a relayer asks for it.

The events of a transaction are given by what ibc-go emitted (`Emission`), with
events of other types in between. What it does with packets otherwise is a
parameter (`PacketFormat`) under the laws it documents (`Lawful`).

* `attributeLoop_packet`, `attributeLoop_ack` — the positional loops read back what
  was emitted;
* `getPackets_emitted`, `getAcks_emitted` — from all the events of a transaction;
* `getElem?_applyWrites_last` — the last of the writes to a key stays;
* `packets_recovered` — the two together: the last packet (acknowledgement) under a
  port, a channel and a sequence is the one a relayer gets;
* `Sample.channelFormat_lawful` — ibc-go's own checks and its protobuf form keep the
  laws.
-/

namespace FabricIBC

open Go
open Wire (Part Reads)

/-! ## Queries -/

/-- What the chaincode uses of ibc-go's `Packet` and of its JSON form. -/
structure PacketFormat extends PacketCodec where
  unmarshal : Bytes → Except Error Packet
  jsonMarshal : Packet → Except Error Bytes

/-- The value under a key that has to be there. -/
def getRecord (stub : Stub) (k : Bytes) : Result Bytes :=
  match stub.getState k with
  | none => .err (.errorf "key not found: %v" [.bytes k])
  | some bz => .ok bz

def queryPacket (F : PacketFormat) (stub : Stub) (portID channelID : Bytes) (sequence : UInt64) :
    Result Bytes := do
  let bz ← getRecord stub (makePacketKey packetEventKeyPrefix portID channelID sequence)
  let p ← Outcome.ofExcept (F.unmarshal bz)
  Outcome.ofExcept (F.jsonMarshal p)

def queryPacketAcknowledgement (stub : Stub) (portID channelID : Bytes) (sequence : UInt64) :
    Result Bytes := do
  let bz ← getRecord stub
    (makePacketAcknowledgementKey packetAcknowledgementEventKeyPrefix portID channelID sequence)
  .ok (base64Encode bz)

/-! ## What ibc-go emits -/

/-- The attributes both kinds of events begin with. -/
def Packet.attributes (p : Packet) : List Attribute :=
  [⟨AttributeKey.data.text, p.data⟩,
    ⟨AttributeKey.dataHex.text, hexEncode p.data⟩,
    ⟨AttributeKey.timeoutHeight.text, p.timeoutHeight.string⟩,
    ⟨AttributeKey.timeoutTimestamp.text, dec p.timeoutTimestamp.toNat⟩,
    ⟨AttributeKey.sequence.text, dec p.sequence.toNat⟩,
    ⟨AttributeKey.srcPort.text, p.sourcePort⟩,
    ⟨AttributeKey.srcChannel.text, p.sourceChannel⟩,
    ⟨AttributeKey.dstPort.text, p.destinationPort⟩,
    ⟨AttributeKey.dstChannel.text, p.destinationChannel⟩]

/-- An event and where it comes from: a packet or an acknowledgement, with further
attributes such as the ordering of the channel, or anything else. -/
inductive Emission
  | send (packet : Packet) (more : List Attribute)
  | writeAck (packet : Packet) (ack : Bytes) (more : List Attribute)
  | other (ev : Event)

namespace Emission

def event : Emission → Event
  | send p more => ⟨EventType.sendPacket.text, p.attributes ++ more⟩
  | writeAck q ack more =>
    ⟨EventType.writeAck.text, q.attributes ++ ⟨AttributeKey.ack.text, ack⟩ :: more⟩
  | other ev => ev

/-- The packet of a `send_packet` event. -/
def packet? : Emission → Option Packet
  | send p _ => some p
  | _ => none

/-- The acknowledgement of a `write_acknowledgement` event. -/
def ack? : Emission → Option PacketAcknowledgement
  | writeAck q ack _ =>
    some ⟨q.sourcePort, q.sourceChannel, q.destinationPort, q.destinationChannel, q.sequence, ack⟩
  | _ => none

/-- Attributes under keys of their own. -/
def Unread (more : List Attribute) : Prop := ∀ attr ∈ more, AttributeKey.ofBytes attr.key = none

instance (more : List Attribute) : Decidable (Unread more) :=
  inferInstanceAs (Decidable (∀ attr ∈ more, _))

/-- The packets are valid, and the other events of other types. -/
def Genuine (P : PacketCodec) : Emission → Prop
  | send p more => P.validateBasic p = .ok () ∧ Unread more
  | writeAck q _ more => P.validateBasic q = .ok () ∧ Unread more
  | other ev => ∀ t : EventType, ev.type ≠ t.text

end Emission

/-- The laws of ibc-go's packets. -/
structure PacketFormat.Lawful (F : PacketFormat) : Prop where
  /-- Valid identifiers contain no slash. -/
  identifiers : ∀ p, F.validateBasic p = .ok () →
    slash ∉ p.sourcePort ∧ slash ∉ p.sourceChannel ∧
      slash ∉ p.destinationPort ∧ slash ∉ p.destinationChannel
  /-- `Marshal` does not fail, and `Unmarshal` reads the packet back. -/
  roundTrip : ∀ p, F.validateBasic p = .ok () →
    ∃ bz, F.marshal p = .ok bz ∧ F.unmarshal bz = .ok p
  /-- A packet has a JSON form. -/
  json : ∀ p, ∃ text, F.jsonMarshal p = .ok text

/-! ## Reading attributes -/

@[simp] theorem AttributeKey.ofBytes_text (k : AttributeKey) : ofBytes k.text = some k := by
  cases k <;> decide

@[simp] theorem strToUint64_dec (n : UInt64) : strToUint64 (dec n.toNat) = .ok n := by
  rw [strToUint64, parseUint_dec]

@[simp] theorem strToHeight_string (h : Height) : strToHeight h.string = .ok h := by
  have hdash : ∀ n, (45 : UInt8) ∉ dec n := fun n => notMem_dec (Or.inl (by decide))
  have hstring : h.string =
      dec h.revisionNumber.toNat ++ 45 :: dec h.revisionHeight.toNat := by
    rw [Height.string, List.append_assoc]
    rfl
  rw [strToHeight, hstring, splitOn_append (hdash _), splitOn_of_notMem (hdash _)]
  show (strToUint64 _ >>= fun number => strToUint64 _ >>= fun height => _) = _
  rw [strToUint64_dec, Outcome.ok_bind, strToUint64_dec]
  rfl

section Loop

variable {σ : Type} {f : Nat → σ → Attribute → Result σ}

theorem attributeLoop_append (i : Nat) (s : σ) (l l' : List Attribute) :
    attributeLoop f i s (l ++ l') =
      attributeLoop f i s l >>= fun s => attributeLoop f (i + l.length) s l' := by
  induction l generalizing i s with
  | nil => rfl
  | cons attr l ih =>
    rw [List.cons_append, attributeLoop, attributeLoop, Outcome.bind_bind]
    refine bind_congr fun s' => ?_
    rw [ih, List.length_cons, Nat.add_assoc, Nat.add_comm 1]

/-- Attributes the loop passes over. -/
theorem attributeLoop_pass {l : List Attribute} (h : ∀ attr ∈ l, ∀ i s, f i s attr = .ok s)
    (i : Nat) (s : σ) : attributeLoop f i s l = .ok s := by
  induction l generalizing i with
  | nil => rfl
  | cons attr l ih =>
    obtain ⟨hattr, hl⟩ := List.forall_mem_cons.mp h
    rw [attributeLoop, hattr, Outcome.ok_bind, ih hl]

end Loop

/-- The loop over a `send_packet` event. -/
theorem attributeLoop_packet (p : Packet) {more : List Attribute} (hmore : Emission.Unread more) :
    attributeLoop packetAttribute 0 Packet.empty (p.attributes ++ more) = .ok p := by
  have hread : attributeLoop packetAttribute 0 Packet.empty p.attributes = .ok p := by
    -- every attribute stands where `assertIndex` wants it
    simp [Packet.attributes, attributeLoop, packetAttribute, assertIndex, hexDecode_hexEncode]
  have hpass : ∀ attr ∈ more, ∀ i (s : Packet), packetAttribute i s attr = .ok s := by
    intro attr hattr i s
    rw [packetAttribute, hmore attr hattr]
  rw [attributeLoop_append, hread, Outcome.ok_bind, attributeLoop_pass hpass]

/-- The loop over a `write_acknowledgement` event. -/
theorem attributeLoop_ack (q : Packet) (ack : Bytes) {more : List Attribute}
    (hmore : Emission.Unread more) :
    attributeLoop acknowledgementAttribute 0 ⟨[], [], [], [], 0, []⟩
      (q.attributes ++ ⟨AttributeKey.ack.text, ack⟩ :: more) =
    .ok ⟨q.sourcePort, q.sourceChannel, q.destinationPort, q.destinationChannel, q.sequence,
      ack⟩ := by
  have hread : attributeLoop acknowledgementAttribute 0 ⟨[], [], [], [], 0, []⟩
      (q.attributes ++ [⟨AttributeKey.ack.text, ack⟩]) =
      .ok ⟨q.sourcePort, q.sourceChannel, q.destinationPort, q.destinationChannel, q.sequence,
        ack⟩ := by
    simp [Packet.attributes, attributeLoop, acknowledgementAttribute, assertIndex]
  have hpass : ∀ attr ∈ more, ∀ i (s : PacketAcknowledgement),
      acknowledgementAttribute i s attr = .ok s := by
    intro attr hattr i s
    rw [acknowledgementAttribute, hmore attr hattr]
  rw [List.append_cons, attributeLoop_append, hread, Outcome.ok_bind, attributeLoop_pass hpass]

/-! ## Reading events -/

theorem EventType.text_ne : EventType.sendPacket.text ≠ EventType.writeAck.text := by decide

section Emitted

variable {F : PacketFormat} {items : List Emission}

theorem getPackets_emitted {P : PacketCodec} (h : ∀ e ∈ items, e.Genuine P) :
    getPacketsFromEvents P (items.map Emission.event) =
      .ok (items.filterMap Emission.packet?) := by
  refine Outcome.collect_filter_map ?_ ?_
  · -- the events of this type are read
    intro e he p hp
    cases e with
    | send p' more =>
      cases hp
      obtain ⟨hvalid, hmore⟩ := h _ he
      refine ⟨beq_self_eq_true _, ?_⟩
      show (attributeLoop packetAttribute 0 Packet.empty (p.attributes ++ more) >>= _) = _
      rw [attributeLoop_packet p hmore, Outcome.ok_bind, hvalid]
      rfl
    | writeAck q ack more => cases hp
    | other ev => cases hp
  · -- and the others passed over
    intro e he hnone
    cases e with
    | send p more => cases hnone
    | writeAck q ack more => exact beq_eq_false_iff_ne.mpr EventType.text_ne.symm
    | other ev => exact beq_eq_false_iff_ne.mpr (h _ he .sendPacket)

theorem getAcks_emitted {P : PacketCodec} (h : ∀ e ∈ items, e.Genuine P) :
    getPacketAcknowledgementsFromEvents (items.map Emission.event) =
      .ok (items.filterMap Emission.ack?) := by
  refine Outcome.collect_filter_map ?_ ?_
  · intro e he a ha
    cases e with
    | writeAck q ack more =>
      cases ha
      exact ⟨beq_self_eq_true _, attributeLoop_ack q ack (h _ he).2⟩
    | send p more => cases ha
    | other ev => cases ha
  · intro e he hnone
    cases e with
    | writeAck q ack more => cases hnone
    | send p more => exact beq_eq_false_iff_ne.mpr EventType.text_ne
    | other ev => exact beq_eq_false_iff_ne.mpr (h _ he .writeAck)

/-! ## Keeping records -/

/-- The record of a packet. -/
def PacketFormat.packetWrite (F : PacketFormat) (p : Packet) : Write :=
  .put (makePacketKey packetEventKeyPrefix p.sourcePort p.sourceChannel p.sequence)
    ((F.marshal p).toOption.getD [])

/-- The record of an acknowledgement. -/
def PacketAcknowledgement.write (a : PacketAcknowledgement) : Write :=
  .put (makePacketAcknowledgementKey packetAcknowledgementEventKeyPrefix a.dstPortID
    a.dstChannelID a.sequence) a.data

theorem valid_of_mem_packets {P : PacketCodec} (h : ∀ e ∈ items, e.Genuine P) {p : Packet}
    (hp : p ∈ items.filterMap Emission.packet?) : P.validateBasic p = .ok () := by
  obtain ⟨e, he, hpacket⟩ := List.mem_filterMap.mp hp
  cases e with
  | send p' more =>
    cases hpacket
    exact (h _ he).1
  | writeAck q ack more => cases hpacket
  | other ev => cases hpacket

theorem handlePacketEvent_emitted (hF : F.Lawful)
    (h : ∀ e ∈ items, e.Genuine F.toPacketCodec) :
    handlePacketEvent F.toPacketCodec (items.map Emission.event) =
      .ok (true, (items.filterMap Emission.packet?).map F.packetWrite) := by
  have hmarshal : ∀ p ∈ items.filterMap Emission.packet?, (do
      let bz ← Outcome.ofExcept (F.marshal p)
      (.ok (Write.put
        (makePacketKey packetEventKeyPrefix p.sourcePort p.sourceChannel p.sequence) bz) :
        Result Write)) = .ok (F.packetWrite p) := by
    intro p hp
    obtain ⟨bz, hbz, -⟩ := hF.roundTrip p (valid_of_mem_packets h hp)
    rw [PacketFormat.packetWrite, hbz]
    rfl
  rw [handlePacketEvent, getPackets_emitted h, Outcome.ok_bind, Outcome.collect_eq_ok_map hmarshal]
  rfl

theorem handleAckEvent_emitted {P : PacketCodec} (h : ∀ e ∈ items, e.Genuine P) :
    handlePacketAcknowledgementEvent (items.map Emission.event) =
      .ok (true, (items.filterMap Emission.ack?).map PacketAcknowledgement.write) := by
  rw [handlePacketAcknowledgementEvent, getAcks_emitted h]
  rfl

/-- The last write to a key stays. -/
theorem getElem?_applyWrites_last (ws : WorldState) (before : List Write) {k v : Bytes}
    {after : List Write} (h : ∀ w ∈ after, w.key ≠ k) :
    (applyWrites ws (before ++ .put k v :: after))[k]? = some v := by
  have hput : (Write.apply (applyWrites ws before) (.put k v))[k]? = some v :=
    Std.ExtTreeMap.getElem?_insert_self
  rw [applyWrites_append]
  show (applyWrites (Write.apply (applyWrites ws before) (.put k v)) after)[k]? = _
  rw [getElem?_applyWrites_of_ne h, hput]

/-! ## Keys of records -/

def Packet.source (p : Packet) : Bytes × Bytes × UInt64 :=
  (p.sourcePort, p.sourceChannel, p.sequence)

def PacketAcknowledgement.destination (a : PacketAcknowledgement) : Bytes × Bytes × UInt64 :=
  (a.dstPortID, a.dstChannelID, a.sequence)

/-- The record of a packet as a key of the world state. -/
def Packet.stateKey (p : Packet) : StateKey := .packet p.sourcePort p.sourceChannel p.sequence

def PacketAcknowledgement.stateKey (a : PacketAcknowledgement) : StateKey :=
  .acknowledgement a.dstPortID a.dstChannelID a.sequence

theorem Packet.slashFree (hF : F.Lawful) {p : Packet} (hp : F.validateBasic p = .ok ()) :
    p.stateKey.SlashFree :=
  ⟨(hF.identifiers p hp).1, (hF.identifiers p hp).2.1⟩

theorem slashFree_of_mem_acks (hF : F.Lawful) (h : ∀ e ∈ items, e.Genuine F.toPacketCodec)
    {a : PacketAcknowledgement} (ha : a ∈ items.filterMap Emission.ack?) :
    a.stateKey.SlashFree := by
  obtain ⟨e, he, hack⟩ := List.mem_filterMap.mp ha
  cases e with
  | writeAck q ack more =>
    cases hack
    exact (hF.identifiers q (h _ he).1).2.2
  | send p more => cases hack
  | other ev => cases hack

/-- Packets from different places have records of their own. -/
theorem packetKey_ne (hF : F.Lawful) {p p' : Packet} (hp : F.validateBasic p = .ok ())
    (hp' : F.validateBasic p' = .ok ()) (hne : p'.source ≠ p.source) :
    (F.packetWrite p').key ≠ (F.packetWrite p).key := by
  intro heq
  have hkey : p'.stateKey = p.stateKey :=
    StateKey.eq_of_bytes_eq nofun nofun (p'.slashFree hF hp') (p.slashFree hF hp) heq
  injection hkey with hport hchannel hseq
  exact hne (by rw [Packet.source, Packet.source, hport, hchannel, hseq])

theorem ackKey_ne {a a' : PacketAcknowledgement} (ha : a.stateKey.SlashFree)
    (ha' : a'.stateKey.SlashFree) (hne : a'.destination ≠ a.destination) :
    a'.write.key ≠ a.write.key := by
  intro heq
  have hkey : a'.stateKey = a.stateKey := StateKey.eq_of_bytes_eq nofun nofun ha' ha heq
  injection hkey with hport hchannel hseq
  exact hne (by rw [PacketAcknowledgement.destination, PacketAcknowledgement.destination, hport,
    hchannel, hseq])

/-- Packets and acknowledgements do not meet. -/
theorem ackKey_ne_packetKey (hF : F.Lawful) {p : Packet} (hp : F.validateBasic p = .ok ())
    {a : PacketAcknowledgement} (ha : a.stateKey.SlashFree) :
    a.write.key ≠ (F.packetWrite p).key := by
  intro heq
  have hkey : a.stateKey = p.stateKey :=
    StateKey.eq_of_bytes_eq nofun nofun ha (p.slashFree hF hp) heq
  exact nomatch hkey

/-! ## The whole way -/

/-- What the two handlers write. -/
def PacketFormat.writes (F : PacketFormat) (items : List Emission) : List Write :=
  (items.filterMap Emission.packet?).map F.packetWrite ++
    (items.filterMap Emission.ack?).map PacketAcknowledgement.write

/-- The record of the last packet from its place: neither a later packet nor an
acknowledgement has its key. -/
theorem packet_record (hF : F.Lawful) (h : ∀ e ∈ items, e.Genuine F.toPacketCodec)
    {before after : List Emission} {p : Packet} {more : List Attribute}
    (hitems : items = before ++ .send p more :: after)
    (hlast : ∀ p' ∈ after.filterMap Emission.packet?, p'.source ≠ p.source) (ws : WorldState) :
    (applyWrites ws (F.writes items))[(F.packetWrite p).key]? =
      some ((F.marshal p).toOption.getD []) := by
  have hpackets : items.filterMap Emission.packet? =
      before.filterMap Emission.packet? ++ p :: after.filterMap Emission.packet? := by
    rw [hitems, List.filterMap_append]
    rfl
  have hvalid : ∀ p' ∈ p :: after.filterMap Emission.packet?, F.validateBasic p' = .ok () := by
    intro p' hp'
    refine valid_of_mem_packets h ?_
    rw [hpackets]
    exact List.mem_append_right _ hp'
  obtain ⟨hp, hafter⟩ := List.forall_mem_cons.mp hvalid
  rw [PacketFormat.writes, hpackets, List.map_append, List.map_cons, List.append_assoc,
    List.cons_append]
  refine getElem?_applyWrites_last ws _ fun w hw => ?_
  -- what is written afterwards: later packets, and all the acknowledgements
  rcases List.mem_append.mp hw with hw | hw
  · obtain ⟨p', hp', rfl⟩ := List.mem_map.mp hw
    exact packetKey_ne hF hp (hafter p' hp') (hlast p' hp')
  · obtain ⟨a, ha, rfl⟩ := List.mem_map.mp hw
    exact ackKey_ne_packetKey hF hp (slashFree_of_mem_acks hF h ha)

/-- The record of the last acknowledgement for its place. -/
theorem ack_record (hF : F.Lawful) (h : ∀ e ∈ items, e.Genuine F.toPacketCodec)
    {before after : List Emission} {e : Emission} {a : PacketAcknowledgement}
    (hitems : items = before ++ e :: after) (he : e.ack? = some a)
    (hlast : ∀ a' ∈ after.filterMap Emission.ack?, a'.destination ≠ a.destination)
    (ws : WorldState) : (applyWrites ws (F.writes items))[a.write.key]? = some a.data := by
  have hacks : items.filterMap Emission.ack? =
      before.filterMap Emission.ack? ++ a :: after.filterMap Emission.ack? := by
    rw [hitems, List.filterMap_append, List.filterMap_cons_some he]
  have hfree : ∀ a' ∈ a :: after.filterMap Emission.ack?, a'.stateKey.SlashFree := by
    intro a' ha'
    refine slashFree_of_mem_acks hF h ?_
    rw [hacks]
    exact List.mem_append_right _ ha'
  obtain ⟨ha, hafter⟩ := List.forall_mem_cons.mp hfree
  rw [PacketFormat.writes, hacks, List.map_append, List.map_cons, ← List.append_assoc]
  refine getElem?_applyWrites_last ws _ fun w hw => ?_
  obtain ⟨a', ha', rfl⟩ := List.mem_map.mp hw
  exact ackKey_ne ha (hafter a' ha') (hlast a' ha')

theorem getRecord_eq {stub : Stub} {k bz : Bytes} (h : stub.state[k]? = some bz) :
    getRecord stub k = .ok bz := by
  rw [getRecord, Stub.getState, h]

/-- **Packets and acknowledgements are recovered from events.** The handlers read
exactly what was emitted, in its order, and put it into the world state, where
a relayer finds the last packet sent from a port and channel with a sequence, and the
last acknowledgement written for one. -/
theorem packets_recovered (hF : F.Lawful) (items : List Emission)
    (h : ∀ e ∈ items, e.Genuine F.toPacketCodec) :
    getPacketsFromEvents F.toPacketCodec (items.map Emission.event) =
      .ok (items.filterMap Emission.packet?) ∧
    getPacketAcknowledgementsFromEvents (items.map Emission.event) =
      .ok (items.filterMap Emission.ack?) ∧
    ∃ packetWrites ackWrites,
      handlePacketEvent F.toPacketCodec (items.map Emission.event) = .ok (true, packetWrites) ∧
      handlePacketAcknowledgementEvent (items.map Emission.event) = .ok (true, ackWrites) ∧
      ∀ stub : Stub,
        let kept := { stub with state := applyWrites stub.state (packetWrites ++ ackWrites) }
        (∀ before p more after, items = before ++ .send p more :: after →
          (∀ p' ∈ after.filterMap Emission.packet?, p'.source ≠ p.source) →
          ∃ text, F.jsonMarshal p = .ok text ∧
            queryPacket F kept p.sourcePort p.sourceChannel p.sequence = .ok text) ∧
        ∀ before q ack more after, items = before ++ .writeAck q ack more :: after →
          (∀ a ∈ after.filterMap Emission.ack?,
            a.destination ≠ (q.destinationPort, q.destinationChannel, q.sequence)) →
          queryPacketAcknowledgement kept q.destinationPort q.destinationChannel q.sequence =
            .ok (base64Encode ack) := by
  refine ⟨getPackets_emitted h, getAcks_emitted h, _, _, handlePacketEvent_emitted hF h,
    handleAckEvent_emitted h, ?_⟩
  intro stub kept
  constructor
  · -- a packet goes through `Marshal`, `Unmarshal` and its JSON form
    intro before p more after hitems hlast
    have hp : F.validateBasic p = .ok () := (h (.send p more) (by simp [hitems])).1
    obtain ⟨bz, hmarshal, hunmarshal⟩ := hF.roundTrip p hp
    obtain ⟨text, htext⟩ := hF.json p
    have hrecord : getRecord kept
        (makePacketKey packetEventKeyPrefix p.sourcePort p.sourceChannel p.sequence) = .ok bz := by
      refine getRecord_eq ((packet_record hF h hitems hlast stub.state).trans ?_)
      rw [hmarshal]
      rfl
    refine ⟨text, htext, ?_⟩
    rw [queryPacket, hrecord, Outcome.ok_bind, hunmarshal]
    show Outcome.ofExcept (F.jsonMarshal p) = _
    rw [htext]
    rfl
  · -- the bytes of an acknowledgement are kept as they are
    intro before q ack more after hitems hlast
    have hrecord : getRecord kept (makePacketAcknowledgementKey packetAcknowledgementEventKeyPrefix
        q.destinationPort q.destinationChannel q.sequence) = .ok ack :=
      getRecord_eq (ack_record hF h hitems rfl hlast stub.state)
    rw [queryPacketAcknowledgement, hrecord]
    rfl

end Emitted

/-! ## Packets on the wire -/

/-- The fields of `clienttypes.Height`. -/
def Height.wire (h : Height) : Part :=
  .varint 0x08 h.revisionNumber.toNat ++ .varint 0x10 h.revisionHeight.toNat

/-- The fields of `channeltypes.Packet`. -/
def Packet.wire (p : Packet) : Part :=
  .varint 0x08 p.sequence.toNat ++ .bytesField 0x12 p.sourcePort ++
    .bytesField 0x1a p.sourceChannel ++ .bytesField 0x22 p.destinationPort ++
    .bytesField 0x2a p.destinationChannel ++ .bytesField 0x32 p.data ++
    .message 0x3a p.timeoutHeight.wire ++ .varint 0x40 p.timeoutTimestamp.toNat

def Height.reader : Wire.Reader Height where
  message := "Height"
  field
    | 1 => some (.varint "RevisionNumber" fun h v => { h with revisionNumber := v })
    | 2 => some (.varint "RevisionHeight" fun h v => { h with revisionHeight := v })
    | _ => none

def Packet.reader : Wire.Reader Packet where
  message := "Packet"
  field
    | 1 => some (.varint "Sequence" fun p v => { p with sequence := v })
    | 2 => some (.bytes "SourcePort" fun p b => { p with sourcePort := b })
    | 3 => some (.bytes "SourceChannel" fun p b => { p with sourceChannel := b })
    | 4 => some (.bytes "DestinationPort" fun p b => { p with destinationPort := b })
    | 5 => some (.bytes "DestinationChannel" fun p b => { p with destinationChannel := b })
    | 6 => some (.bytes "Data" fun p b => { p with data := b })
    | 7 => some (.message "TimeoutHeight" Height.reader (·.timeoutHeight) fun p h =>
        { p with timeoutHeight := h })
    | 8 => some (.varint "TimeoutTimestamp" fun p v => { p with timeoutTimestamp := v })
    | _ => none

section Wire

variable {l : Nat}

theorem Height.reads (h : Height) : Reads Height.reader l ⟨0, 0⟩ h.wire.bytes h := by
  obtain ⟨n, m⟩ := h
  have hn : Reads Height.reader l ⟨0, 0⟩ (Wire.varintField 0x08 n.toNat) ⟨n, 0⟩ :=
    Reads.varintField 0x08 (by decide) rfl rfl rfl
  have hm : Reads Height.reader l ⟨n, 0⟩ (Wire.varintField 0x10 m.toNat) ⟨n, m⟩ :=
    Reads.varintField 0x10 (by decide) rfl rfl rfl
  exact hn.append hm

theorem Packet.reads (hl : l < Wire.intLimit) (p : Packet) :
    Reads Packet.reader l .empty p.wire.bytes p := by
  obtain ⟨seq, sp, sc, dp, dc, data, h, t⟩ := p
  have hseq : Reads Packet.reader l .empty (Wire.varintField 0x08 seq.toNat)
      ⟨seq, [], [], [], [], [], ⟨0, 0⟩, 0⟩ := Reads.varintField 0x08 (by decide) rfl rfl rfl
  have hsp : Reads Packet.reader l ⟨seq, [], [], [], [], [], ⟨0, 0⟩, 0⟩
      (Wire.bytesField 0x12 sp) ⟨seq, sp, [], [], [], [], ⟨0, 0⟩, 0⟩ :=
    Reads.bytesField 0x12 hl (by decide) rfl rfl rfl
  have hsc : Reads Packet.reader l ⟨seq, sp, [], [], [], [], ⟨0, 0⟩, 0⟩
      (Wire.bytesField 0x1a sc) ⟨seq, sp, sc, [], [], [], ⟨0, 0⟩, 0⟩ :=
    Reads.bytesField 0x1a hl (by decide) rfl rfl rfl
  have hdp : Reads Packet.reader l ⟨seq, sp, sc, [], [], [], ⟨0, 0⟩, 0⟩
      (Wire.bytesField 0x22 dp) ⟨seq, sp, sc, dp, [], [], ⟨0, 0⟩, 0⟩ :=
    Reads.bytesField 0x22 hl (by decide) rfl rfl rfl
  have hdc : Reads Packet.reader l ⟨seq, sp, sc, dp, [], [], ⟨0, 0⟩, 0⟩
      (Wire.bytesField 0x2a dc) ⟨seq, sp, sc, dp, dc, [], ⟨0, 0⟩, 0⟩ :=
    Reads.bytesField 0x2a hl (by decide) rfl rfl rfl
  have hdata : Reads Packet.reader l ⟨seq, sp, sc, dp, dc, [], ⟨0, 0⟩, 0⟩
      (Wire.bytesField 0x32 data) ⟨seq, sp, sc, dp, dc, data, ⟨0, 0⟩, 0⟩ :=
    Reads.bytesField 0x32 hl (by decide) rfl rfl rfl
  -- the height is not nullable: it is written even if it is zero
  have hheight : Reads Packet.reader l ⟨seq, sp, sc, dp, dc, data, ⟨0, 0⟩, 0⟩
      (Wire.messageField 0x3a h.wire.bytes) ⟨seq, sp, sc, dp, dc, data, h, 0⟩ :=
    Reads.messageField 0x3a hl (by decide) rfl (fun _ => Wire.unmarshal_of_reads h.reads) rfl
  have htime : Reads Packet.reader l ⟨seq, sp, sc, dp, dc, data, h, 0⟩
      (Wire.varintField 0x40 t.toNat) ⟨seq, sp, sc, dp, dc, data, h, t⟩ :=
    Reads.varintField 0x40 (by decide) rfl rfl rfl
  exact ((((((hseq.append hsp).append hsc).append hdp).append hdc).append hdata).append
    hheight).append htime

end Wire

/-! ## A channel -/

namespace Sample

/-- Letters, digits and `._+-#[]<>`. -/
def identifierChar (c : UInt8) : Bool :=
  (97 ≤ c && c ≤ 122) || (65 ≤ c && c ≤ 90) || (48 ≤ c && c ≤ 57) ||
    (str "._+-#[]<>").contains c

/-- `host.defaultIdentifierValidator`. -/
def validIdentifier (id : Bytes) (least most : Nat) : Bool :=
  decide (least ≤ id.length) && decide (id.length ≤ most) && id.all identifierChar

/-- What `Packet.ValidateBasic` asks of a packet. -/
def ValidPacket (p : Packet) : Prop :=
  validIdentifier p.sourcePort 2 128 ∧ validIdentifier p.destinationPort 2 128 ∧
    validIdentifier p.sourceChannel 8 64 ∧ validIdentifier p.destinationChannel 8 64 ∧
    p.sequence ≠ 0 ∧ (p.timeoutHeight ≠ ⟨0, 0⟩ ∨ p.timeoutTimestamp ≠ 0) ∧ p.data ≠ [] ∧
    -- and that it is the message of a Go slice
    p.wire.size < Wire.intLimit

instance (p : Packet) : Decidable (ValidPacket p) := inferInstanceAs (Decidable (_ ∧ _))

/-- A member of a JSON object. -/
def jsonMember (name : String) (value : Bytes) : Bytes := [34] ++ str name ++ [34, 58] ++ value

/-- A number with `omitempty`. -/
def jsonNumber (name : String) (n : UInt64) : List Bytes :=
  if n = 0 then [] else [jsonMember name (dec n.toNat)]

/-- A string with `omitempty`; of what stands in identifiers `json.Marshal` escapes the
angle brackets. -/
def jsonString (name : String) (s : Bytes) : List Bytes :=
  let escape := fun c : UInt8 =>
    if c = 60 then str "\\u003c" else if c = 62 then str "\\u003e" else [c]
  if s = [] then [] else [jsonMember name ([34] ++ s.flatMap escape ++ [34])]

def jsonObject (members : List Bytes) : Bytes := [123] ++ (members.intersperse [44]).flatten ++ [125]

/-- `json.Marshal` of a packet. -/
def jsonPacket (p : Packet) : Bytes :=
  jsonObject (jsonNumber "sequence" p.sequence ++ jsonString "source_port" p.sourcePort ++
    jsonString "source_channel" p.sourceChannel ++
    jsonString "destination_port" p.destinationPort ++
    jsonString "destination_channel" p.destinationChannel ++
    jsonString "data" (base64Encode p.data) ++
    [jsonMember "timeout_height" (jsonObject
      (jsonNumber "revision_number" p.timeoutHeight.revisionNumber ++
        jsonNumber "revision_height" p.timeoutHeight.revisionHeight))] ++
    jsonNumber "timeout_timestamp" p.timeoutTimestamp)

/-- The result of a generated function; none of them panics. -/
def generated {α : Type} : Outcome Wire.Error α → Except Error α
  | .ok a => .ok a
  | .err e => .error (.wire e)
  | .panic _ => .error (.external "panic")

/-- The packets of ibc-go. -/
def channelFormat : PacketFormat where
  validateBasic p := if ValidPacket p then .ok () else .error (.external "invalid packet")
  marshal p := generated p.wire.marshal
  unmarshal bz := generated (Packet.reader.unmarshal .empty bz)
  jsonMarshal p := .ok (jsonPacket p)

theorem validPacket_of_validateBasic {p : Packet} (hp : channelFormat.validateBasic p = .ok ()) :
    ValidPacket p := by
  by_contra hne
  have herr : channelFormat.validateBasic p = .error _ := if_neg hne
  rw [herr] at hp
  cases hp

theorem slash_notMem_of_validIdentifier {id : Bytes} {least most : Nat}
    (h : validIdentifier id least most) : slash ∉ id := by
  intro hmem
  rw [validIdentifier, Bool.and_eq_true] at h
  have hslash : identifierChar slash = true := List.all_eq_true.mp h.2 slash hmem
  revert hslash
  decide

theorem channelFormat_lawful : channelFormat.Lawful where
  identifiers p hp := by
    obtain ⟨hsp, hdp, hsc, hdc, -⟩ := validPacket_of_validateBasic hp
    exact ⟨slash_notMem_of_validIdentifier hsp, slash_notMem_of_validIdentifier hsc,
      slash_notMem_of_validIdentifier hdp, slash_notMem_of_validIdentifier hdc⟩
  roundTrip p hp := by
    obtain ⟨-, -, -, -, -, -, -, hsize⟩ := validPacket_of_validateBasic hp
    rw [p.wire.size_eq] at hsize
    refine ⟨p.wire.bytes, ?_, ?_⟩
    · show generated p.wire.marshal = _
      rw [p.wire.marshal_eq.2]
      rfl
    · show generated (Packet.reader.unmarshal .empty p.wire.bytes) = _
      rw [Wire.unmarshal_of_reads (p.reads hsize)]
      rfl
  json p := ⟨jsonPacket p, rfl⟩

/-- The first packet of a channel, with any data. -/
def channelPacket (data : Bytes) : Packet where
  sequence := 1
  sourcePort := str "transfer"
  sourceChannel := str "channel-0"
  destinationPort := str "transfer"
  destinationChannel := str "channel-1"
  data := data
  timeoutHeight := ⟨0, 110⟩
  timeoutTimestamp := 0

/-- The attributes ibc-go adds to an acknowledgement. -/
def connectionAttributes : List Attribute := [⟨str "packet_connection", str "connection-0"⟩]

/-- The attributes ibc-go adds to a packet. -/
def orderingAttributes : List Attribute :=
  ⟨str "packet_channel_ordering", str "ORDER_UNORDERED"⟩ :: connectionAttributes

theorem unread_orderingAttributes : Emission.Unread orderingAttributes := by decide

theorem valid_channelPacket :
    ∀ data ∈ [[1], [2], [7], [8]], channelFormat.validateBasic (channelPacket data) = .ok () := by
  decide +kernel

/-- A transaction that sends a packet and acknowledges another one. -/
def channelItems : List Emission :=
  [.other ⟨str "message", []⟩, .send (channelPacket [7]) orderingAttributes,
    .writeAck (channelPacket [8]) [1] connectionAttributes]

theorem packets_recovered_channel :
    ∃ packetWrites ackWrites,
      handlePacketEvent channelFormat.toPacketCodec (channelItems.map Emission.event) =
        .ok (true, packetWrites) ∧
      handlePacketAcknowledgementEvent (channelItems.map Emission.event) = .ok (true, ackWrites) ∧
      queryPacket channelFormat ⟨applyWrites ∅ (packetWrites ++ ackWrites), [], .ok 0, 0, .ok []⟩
        (str "transfer") (str "channel-0") 1 = .ok (jsonPacket (channelPacket [7])) := by
  have hgenuine : ∀ e ∈ channelItems, e.Genuine channelFormat.toPacketCodec := by
    simp only [channelItems, List.forall_mem_cons]
    refine ⟨?_, ⟨valid_channelPacket _ (by simp), unread_orderingAttributes⟩,
      ⟨valid_channelPacket _ (by simp), by decide⟩, by simp⟩
    intro t
    cases t <;> decide
  obtain ⟨-, -, packetWrites, ackWrites, hpackets, hacks, hquery⟩ :=
    packets_recovered channelFormat_lawful channelItems hgenuine
  refine ⟨packetWrites, ackWrites, hpackets, hacks, ?_⟩
  obtain ⟨text, htext, hanswer⟩ := (hquery ⟨∅, [], .ok 0, 0, .ok []⟩).1 [.other ⟨str "message", []⟩]
    (channelPacket [7]) orderingAttributes _ rfl (by decide)
  cases htext
  exact hanswer

/-- Two packets from one place. -/
def repeatedItems : List Emission :=
  [.send (channelPacket [1]) orderingAttributes, .send (channelPacket [2]) orderingAttributes]

/-- Of two packets from one place the first is lost. -/
theorem later_packet_replaces :
    (∀ e ∈ repeatedItems, e.Genuine channelFormat.toPacketCodec) ∧
    ∃ writes,
      handlePacketEvent channelFormat.toPacketCodec (repeatedItems.map Emission.event) =
        .ok (true, writes) ∧
      queryPacket channelFormat ⟨applyWrites ∅ writes, [], .ok 0, 0, .ok []⟩ (str "transfer")
        (str "channel-0") 1 = .ok (jsonPacket (channelPacket [2])) ∧
      channelFormat.jsonMarshal (channelPacket [1]) ≠ channelFormat.jsonMarshal (channelPacket [2]) := by
  refine ⟨?_, [channelFormat.packetWrite (channelPacket [1]),
    channelFormat.packetWrite (channelPacket [2])], ?_, ?_, ?_⟩
  · simp only [repeatedItems, List.forall_mem_cons]
    exact ⟨⟨valid_channelPacket _ (by simp), unread_orderingAttributes⟩,
      ⟨valid_channelPacket _ (by simp), unread_orderingAttributes⟩, by simp⟩
  · decide +kernel
  · decide +kernel
  · decide +kernel

end Sample

end FabricIBC
