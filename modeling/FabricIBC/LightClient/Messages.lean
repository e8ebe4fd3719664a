import FabricIBC.Commitment.Sequence
import FabricIBC.LightClient.Membership

/-!
# Fabric-IBC — light client: the messages on the wire

`fabric.pb.go` and the `Sequence` of `chaincode/commitment/types.pb.go`: `Size`,
`MarshalToSizedBuffer`, `Marshal` and `Unmarshal` of the messages of the light
client. What the generated functions do with a field is in the library
(`Wire.Part` for the writing half, `Wire.Field` for the reading half); a message lists
its fields.

`Unmarshal` reads into a message that may hold something already: a nested message
that occurs twice is merged, a repeated field grows.

A field that is not written reads back as nil. For the optional byte strings
`Config` and `Policy` this makes a difference, because the light client tells nil
from empty.

* `message_round_trip` — what comes back of a marshalled message, and for which
  messages it is the message itself;
* `message_unmarshal_safe` — `Unmarshal` on arbitrary bytes.
-/

namespace FabricIBC

open Go
open Wire (Part)

/-! ## Writing -/

/-- The fields of a `Sequence`. -/
def Sequence.wire (m : Sequence) : Part :=
  .varint 0x08 m.value.toNat ++ .varint 0x10 m.timestamp.toUInt64.toNat

def ChaincodeID.wire (m : ChaincodeID) : Part :=
  .bytesField 0x0a m.path ++ .bytesField 0x12 m.name ++ .bytesField 0x1a m.version

def CommitmentProof.wire (m : CommitmentProof) : Part :=
  .bytesField 0x0a m.proposal ++ .varint 0x10 m.nsIndex.toNat ++
    .varint 0x18 m.writeSetIndex.toNat ++ .repeated (.element 0x22) m.identities ++
    .repeated (.element 0x2a) m.signatures

def MessageProof.wire (m : MessageProof) : Part :=
  .repeated (.element 0x0a) m.identities ++ .repeated (.element 0x12) m.signatures

def ChaincodeHeader.wire (m : ChaincodeHeader) : Part :=
  .message 0x0a m.sequence.wire ++ .message 0x12 m.proof.wire

def ChaincodeInfo.wire (m : ChaincodeInfo) : Part :=
  .bytesField 0x0a m.channelId ++ .message 0x12 m.chaincodeId.wire ++
    .bytesField 0x1a m.endorsementPolicy ++ .bytesField 0x22 m.ibcPolicy ++
    .nullable 0x2a MessageProof.wire m.proof

def MSPHeader.wire (m : MSPHeader) : Part :=
  .varint 0x08 m.type.code.toNat ++ .bytesField 0x12 m.mspID ++
    -- `len(m.Config) > 0`, which nil and the empty slice fail alike
    .bytesField 0x1a (m.config.getD []) ++ .bytesField 0x22 (m.policy.getD []) ++
    .nullable 0x2a MessageProof.wire m.proof

def MSPHeaders.wire (m : MSPHeaders) : Part :=
  .repeated (fun mh => .message 0x0a (MSPHeader.wire mh)) m.headers

def MSPInfo.wire (m : MSPInfo) : Part :=
  .bytesField 0x0a m.mspID ++ .bytesField 0x12 (m.config.getD []) ++
    .bytesField 0x1a (m.policy.getD []) ++ .flag 0x20 m.freezed

def MSPInfos.wire (m : MSPInfos) : Part :=
  .repeated (fun mi => .message 0x0a (MSPInfo.wire mi)) m.infos

def Header.wire (m : Header) : Part :=
  .nullable 0x0a ChaincodeHeader.wire m.chaincodeHeader ++
    .nullable 0x12 ChaincodeInfo.wire m.chaincodeInfo ++
    .nullable 0x1a MSPHeaders.wire m.mspHeaders

def ClientState.wire (m : ClientState) : Part :=
  .bytesField 0x0a m.id ++ .message 0x12 m.lastChaincodeHeader.wire ++
    .message 0x1a m.lastChaincodeInfo.wire ++ .message 0x22 m.lastMspInfos.wire

def ConsensusState.wire (m : ConsensusState) : Part :=
  .varint 0x08 m.timestamp.toUInt64.toNat

/-! ## Reading -/

/-- `MSPHeaderType` of an `int32`. -/
def MSPHeaderType.ofCode (code : Int32) : MSPHeaderType :=
  if h : code.toInt < 0 ∨ 3 < code.toInt then .unrecognized code h
  else if code = 0 then .create
  else if code = 1 then .updatePolicy
  else if code = 2 then .updateConfig
  else .freeze

def ChaincodeID.zero : ChaincodeID := ⟨[], [], []⟩

def MessageProof.zero : MessageProof := ⟨[], []⟩

def ChaincodeHeader.zero : ChaincodeHeader := ⟨.zero, .zero⟩

def ChaincodeInfo.zero : ChaincodeInfo := ⟨[], .zero, [], [], none⟩

def MSPHeader.zero : MSPHeader := ⟨.create, [], none, none, none⟩

def MSPHeaders.zero : MSPHeaders := ⟨[]⟩

def MSPInfo.zero : MSPInfo := ⟨[], none, none, false⟩

def MSPInfos.zero : MSPInfos := ⟨[]⟩

def Header.zero : Header := ⟨none, none, none⟩

def ClientState.zero : ClientState := ⟨[], .zero, .zero, .zero⟩

def ConsensusState.zero : ConsensusState := ⟨0⟩

def ChaincodeID.reader : Wire.Reader ChaincodeID where
  message := "ChaincodeID"
  field
    | 1 => some (.bytes "Path" fun m b => { m with path := b })
    | 2 => some (.bytes "Name" fun m b => { m with name := b })
    | 3 => some (.bytes "Version" fun m b => { m with version := b })
    | _ => none

def MessageProof.reader : Wire.Reader MessageProof where
  message := "MessageProof"
  field
    | 1 => some (.bytes "Identities" fun m b => { m with identities := m.identities ++ [b] })
    | 2 => some (.bytes "Signatures" fun m b => { m with signatures := m.signatures ++ [b] })
    | _ => none

def ChaincodeHeader.reader : Wire.Reader ChaincodeHeader where
  message := "ChaincodeHeader"
  field
    | 1 => some (.message "Sequence" Sequence.reader (·.sequence) fun m v =>
        { m with sequence := v })
    | 2 => some (.message "Proof" CommitmentProof.reader (·.proof) fun m v => { m with proof := v })
    | _ => none

def ChaincodeInfo.reader : Wire.Reader ChaincodeInfo where
  message := "ChaincodeInfo"
  field
    | 1 => some (.bytes "ChannelId" fun m b => { m with channelId := b })
    | 2 => some (.message "ChaincodeId" ChaincodeID.reader (·.chaincodeId) fun m v =>
        { m with chaincodeId := v })
    | 3 => some (.bytes "EndorsementPolicy" fun m b => { m with endorsementPolicy := b })
    | 4 => some (.bytes "IbcPolicy" fun m b => { m with ibcPolicy := b })
    -- `if m.Proof == nil { m.Proof = &MessageProof{} }`
    | 5 => some (.message "Proof" MessageProof.reader (·.proof.getD .zero) fun m v =>
        { m with proof := some v })
    | _ => none

def MSPHeader.reader : Wire.Reader MSPHeader where
  message := "MSPHeader"
  field
    -- the groups are added up in an `int32`, which keeps the low bits
    | 1 => some (.varint "Type" fun m v => { m with type := .ofCode v.toUInt32.toInt32 })
    | 2 => some (.bytes "MSPID" fun m b => { m with mspID := b })
    -- a field of length zero is there, and not nil
    | 3 => some (.bytes "Config" fun m b => { m with config := some b })
    | 4 => some (.bytes "Policy" fun m b => { m with policy := some b })
    | 5 => some (.message "Proof" MessageProof.reader (·.proof.getD .zero) fun m v =>
        { m with proof := some v })
    | _ => none

def MSPHeaders.reader : Wire.Reader MSPHeaders where
  message := "MSPHeaders"
  field
    | 1 => some (.message "Headers" MSPHeader.reader (fun _ => .zero) fun m v =>
        { m with headers := m.headers ++ [v] })
    | _ => none

def MSPInfo.reader : Wire.Reader MSPInfo where
  message := "MSPInfo"
  field
    | 1 => some (.bytes "MSPID" fun m b => { m with mspID := b })
    | 2 => some (.bytes "Config" fun m b => { m with config := some b })
    | 3 => some (.bytes "Policy" fun m b => { m with policy := some b })
    | 4 => some (.varint "Freezed" fun m v => { m with freezed := v != 0 })
    | _ => none

def MSPInfos.reader : Wire.Reader MSPInfos where
  message := "MSPInfos"
  field
    | 1 => some (.message "Infos" MSPInfo.reader (fun _ => .zero) fun m v =>
        { m with infos := m.infos ++ [v] })
    | _ => none

def Header.reader : Wire.Reader Header where
  message := "Header"
  field
    | 1 => some (.message "ChaincodeHeader" ChaincodeHeader.reader (·.chaincodeHeader.getD .zero)
        fun m v => { m with chaincodeHeader := some v })
    | 2 => some (.message "ChaincodeInfo" ChaincodeInfo.reader (·.chaincodeInfo.getD .zero)
        fun m v => { m with chaincodeInfo := some v })
    | 3 => some (.message "MSPHeaders" MSPHeaders.reader (·.mspHeaders.getD .zero) fun m v =>
        { m with mspHeaders := some v })
    | _ => none

def ClientState.reader : Wire.Reader ClientState where
  message := "ClientState"
  field
    | 1 => some (.bytes "Id" fun m b => { m with id := b })
    | 2 => some (.message "LastChaincodeHeader" ChaincodeHeader.reader (·.lastChaincodeHeader)
        fun m v => { m with lastChaincodeHeader := v })
    | 3 => some (.message "LastChaincodeInfo" ChaincodeInfo.reader (·.lastChaincodeInfo)
        fun m v => { m with lastChaincodeInfo := v })
    | 4 => some (.message "LastMspInfos" MSPInfos.reader (·.lastMspInfos) fun m v =>
        { m with lastMspInfos := v })
    | _ => none

def ConsensusState.reader : Wire.Reader ConsensusState where
  message := "ConsensusState"
  field
    | 1 => some (.varint "Timestamp" fun m v => { m with timestamp := v.toInt64 })
    | _ => none

/-! ## All messages -/

inductive MessageType
  | sequence
  | chaincodeID
  | commitmentProof
  | messageProof
  | chaincodeHeader
  | chaincodeInfo
  | mspHeader
  | mspHeaders
  | mspInfo
  | mspInfos
  | header
  | clientState
  | consensusState
  deriving DecidableEq, Repr

/-- A message of the light client. -/
inductive Message
  | sequence (m : Sequence)
  | chaincodeID (m : ChaincodeID)
  | commitmentProof (m : CommitmentProof)
  | messageProof (m : MessageProof)
  | chaincodeHeader (m : ChaincodeHeader)
  | chaincodeInfo (m : ChaincodeInfo)
  | mspHeader (m : MSPHeader)
  | mspHeaders (m : MSPHeaders)
  | mspInfo (m : MSPInfo)
  | mspInfos (m : MSPInfos)
  | header (m : Header)
  | clientState (m : ClientState)
  | consensusState (m : ConsensusState)
  deriving DecidableEq, Repr

namespace Message

def type : Message → MessageType
  | sequence _ => .sequence
  | chaincodeID _ => .chaincodeID
  | commitmentProof _ => .commitmentProof
  | messageProof _ => .messageProof
  | chaincodeHeader _ => .chaincodeHeader
  | chaincodeInfo _ => .chaincodeInfo
  | mspHeader _ => .mspHeader
  | mspHeaders _ => .mspHeaders
  | mspInfo _ => .mspInfo
  | mspInfos _ => .mspInfos
  | header _ => .header
  | clientState _ => .clientState
  | consensusState _ => .consensusState

def wire : Message → Part
  | sequence m => m.wire
  | chaincodeID m => m.wire
  | commitmentProof m => m.wire
  | messageProof m => m.wire
  | chaincodeHeader m => m.wire
  | chaincodeInfo m => m.wire
  | mspHeader m => m.wire
  | mspHeaders m => m.wire
  | mspInfo m => m.wire
  | mspInfos m => m.wire
  | header m => m.wire
  | clientState m => m.wire
  | consensusState m => m.wire

/-- `Size`. -/
def size (m : Message) : Nat := m.wire.size

/-- `MarshalToSizedBuffer`. -/
def marshalToSizedBuffer (m : Message) : Wire.Writer := m.wire.write

/-- `Marshal`. -/
def marshal (m : Message) : Outcome Wire.Error Bytes := m.wire.marshal

end Message

/-- `Unmarshal` into a new message of the type. -/
def MessageType.unmarshal : MessageType → Bytes → Outcome Wire.Error Message
  | .sequence, bz => Sequence.reader.unmarshal .zero bz >>= fun m => .ok (.sequence m)
  | .chaincodeID, bz => ChaincodeID.reader.unmarshal .zero bz >>= fun m => .ok (.chaincodeID m)
  | .commitmentProof, bz => CommitmentProof.reader.unmarshal .zero bz >>= fun m => .ok (.commitmentProof m)
  | .messageProof, bz => MessageProof.reader.unmarshal .zero bz >>= fun m => .ok (.messageProof m)
  | .chaincodeHeader, bz => ChaincodeHeader.reader.unmarshal .zero bz >>= fun m => .ok (.chaincodeHeader m)
  | .chaincodeInfo, bz => ChaincodeInfo.reader.unmarshal .zero bz >>= fun m => .ok (.chaincodeInfo m)
  | .mspHeader, bz => MSPHeader.reader.unmarshal .zero bz >>= fun m => .ok (.mspHeader m)
  | .mspHeaders, bz => MSPHeaders.reader.unmarshal .zero bz >>= fun m => .ok (.mspHeaders m)
  | .mspInfo, bz => MSPInfo.reader.unmarshal .zero bz >>= fun m => .ok (.mspInfo m)
  | .mspInfos, bz => MSPInfos.reader.unmarshal .zero bz >>= fun m => .ok (.mspInfos m)
  | .header, bz => Header.reader.unmarshal .zero bz >>= fun m => .ok (.header m)
  | .clientState, bz => ClientState.reader.unmarshal .zero bz >>= fun m => .ok (.clientState m)
  | .consensusState, bz => ConsensusState.reader.unmarshal .zero bz >>= fun m => .ok (.consensusState m)

/-! ## What the wire keeps -/

/-- An optional byte string after the wire: an empty one comes back as nil. -/
def wireBytes (b : Option Bytes) : Option Bytes := if b = some [] then none else b

def MSPHeader.onWire (m : MSPHeader) : MSPHeader :=
  { m with config := wireBytes m.config, policy := wireBytes m.policy }

def MSPHeaders.onWire (m : MSPHeaders) : MSPHeaders := ⟨m.headers.map MSPHeader.onWire⟩

def MSPInfo.onWire (m : MSPInfo) : MSPInfo :=
  { m with config := wireBytes m.config, policy := wireBytes m.policy }

def MSPInfos.onWire (m : MSPInfos) : MSPInfos := ⟨m.infos.map MSPInfo.onWire⟩

def Header.onWire (m : Header) : Header := { m with mspHeaders := m.mspHeaders.map MSPHeaders.onWire }

def ClientState.onWire (m : ClientState) : ClientState :=
  { m with lastMspInfos := m.lastMspInfos.onWire }

/-- The message as it comes back. -/
def Message.onWire : Message → Message
  | mspHeader m => mspHeader m.onWire
  | mspHeaders m => mspHeaders m.onWire
  | mspInfo m => mspInfo m.onWire
  | mspInfos m => mspInfos m.onWire
  | header m => header m.onWire
  | clientState m => clientState m.onWire
  | m => m

/-- No optional byte string of the message is there but empty. -/
def MSPHeader.Full (m : MSPHeader) : Prop := m.config ≠ some [] ∧ m.policy ≠ some []

instance (m : MSPHeader) : Decidable m.Full := inferInstanceAs (Decidable (_ ∧ _))

def MSPHeaders.Full (m : MSPHeaders) : Prop := ∀ mh ∈ m.headers, mh.Full

instance (m : MSPHeaders) : Decidable m.Full := inferInstanceAs (Decidable (∀ mh ∈ m.headers, mh.Full))

def MSPInfo.Full (m : MSPInfo) : Prop := m.config ≠ some [] ∧ m.policy ≠ some []

instance (m : MSPInfo) : Decidable m.Full := inferInstanceAs (Decidable (_ ∧ _))

def MSPInfos.Full (m : MSPInfos) : Prop := ∀ mi ∈ m.infos, mi.Full

instance (m : MSPInfos) : Decidable m.Full := inferInstanceAs (Decidable (∀ mi ∈ m.infos, mi.Full))

def Header.Full (m : Header) : Prop := ∀ mhs ∈ m.mspHeaders, mhs.Full

instance (m : Header) : Decidable m.Full := inferInstanceAs (Decidable (∀ mhs ∈ m.mspHeaders, mhs.Full))

def ClientState.Full (m : ClientState) : Prop := m.lastMspInfos.Full

instance (m : ClientState) : Decidable m.Full := inferInstanceAs (Decidable m.lastMspInfos.Full)

def Message.Full : Message → Prop
  | mspHeader m => m.Full
  | mspHeaders m => m.Full
  | mspInfo m => m.Full
  | mspInfos m => m.Full
  | header m => m.Full
  | clientState m => m.Full
  | _ => True

theorem wireBytes_eq_self_iff {b : Option Bytes} : wireBytes b = b ↔ b ≠ some [] := by
  unfold wireBytes
  split
  · rename_i h
    simp [h]
  · simp_all

theorem MSPHeader.onWire_eq_self_iff {m : MSPHeader} : m.onWire = m ↔ m.Full := by
  obtain ⟨t, i, c, p, r⟩ := m
  simp [onWire, Full, wireBytes_eq_self_iff]

theorem MSPInfo.onWire_eq_self_iff {m : MSPInfo} : m.onWire = m ↔ m.Full := by
  obtain ⟨i, c, p, f⟩ := m
  simp [onWire, Full, wireBytes_eq_self_iff]

theorem map_eq_self_iff {α : Type} {f : α → α} {l : List α} : l.map f = l ↔ ∀ a ∈ l, f a = a := by
  have h := List.map_inj_left (l := l) (f := f) (g := id)
  rw [List.map_id] at h
  exact h

theorem MSPHeaders.onWire_eq_self_iff {m : MSPHeaders} : m.onWire = m ↔ m.Full := by
  obtain ⟨headers⟩ := m
  simp [onWire, Full, map_eq_self_iff, MSPHeader.onWire_eq_self_iff]

theorem MSPInfos.onWire_eq_self_iff {m : MSPInfos} : m.onWire = m ↔ m.Full := by
  obtain ⟨infos⟩ := m
  simp [onWire, Full, map_eq_self_iff, MSPInfo.onWire_eq_self_iff]

theorem Header.onWire_eq_self_iff {m : Header} : m.onWire = m ↔ m.Full := by
  obtain ⟨ch, ci, mhs⟩ := m
  cases mhs <;> simp [onWire, Full, MSPHeaders.onWire_eq_self_iff]

theorem ClientState.onWire_eq_self_iff {m : ClientState} : m.onWire = m ↔ m.Full := by
  obtain ⟨id, ch, ci, infos⟩ := m
  simp [onWire, Full, MSPInfos.onWire_eq_self_iff]

theorem Message.onWire_eq_self_iff {m : Message} : m.onWire = m ↔ m.Full := by
  cases m <;> simp [onWire, Full, MSPHeader.onWire_eq_self_iff, MSPHeaders.onWire_eq_self_iff,
    MSPInfo.onWire_eq_self_iff, MSPInfos.onWire_eq_self_iff, Header.onWire_eq_self_iff,
    ClientState.onWire_eq_self_iff]

/-! ## Reading back what was written -/

section RoundTrip

open Wire (Reads intLimit)

variable {l : Nat}

theorem ChaincodeID.reads (hl : l < intLimit) (m : ChaincodeID) :
    Reads ChaincodeID.reader l .zero m.wire.bytes m := by
  obtain ⟨path, name, version⟩ := m
  have hpath : Reads ChaincodeID.reader l .zero (Wire.bytesField 0x0a path)
      ⟨path, [], []⟩ := Reads.bytesField 0x0a hl (by decide) rfl rfl rfl
  have hname : Reads ChaincodeID.reader l ⟨path, [], []⟩ (Wire.bytesField 0x12 name)
      ⟨path, name, []⟩ := Reads.bytesField 0x12 hl (by decide) rfl rfl rfl
  have hversion : Reads ChaincodeID.reader l ⟨path, name, []⟩
      (Wire.bytesField 0x1a version) ⟨path, name, version⟩ :=
    Reads.bytesField 0x1a hl (by decide) rfl rfl rfl
  exact (hpath.append hname).append hversion

theorem CommitmentProof.reads (hl : l < intLimit) (m : CommitmentProof) :
    Reads CommitmentProof.reader l .zero m.wire.bytes m := by
  obtain ⟨proposal, ns, ws, ids, sigs⟩ := m
  have hproposal : Reads CommitmentProof.reader l .zero
      (Wire.bytesField 0x0a proposal) ⟨proposal, 0, 0, [], []⟩ :=
    Reads.bytesField 0x0a hl (by decide) rfl rfl rfl
  -- a 32-bit number is written with 64 bits, and its low 32 bits are read
  have hnarrow : ∀ v : UInt32, v.toUInt64.toUInt32 = v := fun v => UInt32.toUInt32_toUInt64 v
  have hwide : ∀ v : UInt32, v.toUInt64.toNat = v.toNat := fun v => UInt32.toNat_toUInt64 v
  have hns : Reads CommitmentProof.reader l ⟨proposal, 0, 0, [], []⟩
      (Wire.varintField 0x10 ns.toNat) ⟨proposal, ns, 0, [], []⟩ := by
    rw [← hwide]
    exact Reads.varintField 0x10 (by decide) rfl rfl (by rw [hnarrow])
  have hws : Reads CommitmentProof.reader l ⟨proposal, ns, 0, [], []⟩
      (Wire.varintField 0x18 ws.toNat) ⟨proposal, ns, ws, [], []⟩ := by
    rw [← hwide]
    exact Reads.varintField 0x18 (by decide) rfl rfl (by rw [hnarrow])
  have hids : Reads CommitmentProof.reader l ⟨proposal, ns, ws, [], []⟩
      (Part.repeated (.element 0x22) ids).bytes ⟨proposal, ns, ws, ids, []⟩ := by
    rw [Part.bytes_repeated]
    refine Reads.repeated (fun ids => CommitmentProof.mk proposal ns ws ids []) (fun _ _ => ?_) ids
    exact Reads.element 0x22 hl (by decide) rfl rfl
  have hsigs : Reads CommitmentProof.reader l ⟨proposal, ns, ws, ids, []⟩
      (Part.repeated (.element 0x2a) sigs).bytes ⟨proposal, ns, ws, ids, sigs⟩ := by
    rw [Part.bytes_repeated]
    refine Reads.repeated (fun sigs => CommitmentProof.mk proposal ns ws ids sigs) (fun _ _ => ?_) sigs
    exact Reads.element 0x2a hl (by decide) rfl rfl
  exact (((hproposal.append hns).append hws).append hids).append hsigs

theorem MessageProof.reads (hl : l < intLimit) (m : MessageProof) :
    Reads MessageProof.reader l .zero m.wire.bytes m := by
  obtain ⟨ids, sigs⟩ := m
  have hids : Reads MessageProof.reader l .zero
      (Part.repeated (.element 0x0a) ids).bytes ⟨ids, []⟩ := by
    rw [Part.bytes_repeated]
    refine Reads.repeated (fun ids => MessageProof.mk ids []) (fun _ _ => ?_) ids
    exact Reads.element 0x0a hl (by decide) rfl rfl
  have hsigs : Reads MessageProof.reader l ⟨ids, []⟩
      (Part.repeated (.element 0x12) sigs).bytes ⟨ids, sigs⟩ := by
    rw [Part.bytes_repeated]
    refine Reads.repeated (fun sigs => MessageProof.mk ids sigs) (fun _ _ => ?_) sigs
    exact Reads.element 0x12 hl (by decide) rfl rfl
  exact hids.append hsigs

theorem ChaincodeHeader.reads (hl : l < intLimit) (m : ChaincodeHeader) :
    Reads ChaincodeHeader.reader l .zero m.wire.bytes m := by
  obtain ⟨seq, proof⟩ := m
  have hseq : Reads ChaincodeHeader.reader l .zero
      (Wire.messageField 0x0a seq.wire.bytes) ⟨seq, .zero⟩ :=
    Reads.messageField 0x0a hl (by decide) rfl
      (fun _ => Wire.unmarshal_of_reads seq.reads) rfl
  have hproof : Reads ChaincodeHeader.reader l ⟨seq, .zero⟩
      (Wire.messageField 0x12 proof.wire.bytes) ⟨seq, proof⟩ :=
    Reads.messageField 0x12 hl (by decide) rfl
      (fun h => Wire.unmarshal_of_reads (proof.reads h)) rfl
  exact hseq.append hproof

theorem ChaincodeInfo.reads (hl : l < intLimit) (m : ChaincodeInfo) :
    Reads ChaincodeInfo.reader l .zero m.wire.bytes m := by
  obtain ⟨channel, ccid, ep, ip, proof⟩ := m
  have hchannel : Reads ChaincodeInfo.reader l .zero (Wire.bytesField 0x0a channel)
      ⟨channel, .zero, [], [], none⟩ := Reads.bytesField 0x0a hl (by decide) rfl rfl rfl
  have hccid : Reads ChaincodeInfo.reader l ⟨channel, .zero, [], [], none⟩
      (Wire.messageField 0x12 ccid.wire.bytes) ⟨channel, ccid, [], [], none⟩ :=
    Reads.messageField 0x12 hl (by decide) rfl
      (fun h => Wire.unmarshal_of_reads (ccid.reads h)) rfl
  have hep : Reads ChaincodeInfo.reader l ⟨channel, ccid, [], [], none⟩
      (Wire.bytesField 0x1a ep) ⟨channel, ccid, ep, [], none⟩ :=
    Reads.bytesField 0x1a hl (by decide) rfl rfl rfl
  have hip : Reads ChaincodeInfo.reader l ⟨channel, ccid, ep, [], none⟩
      (Wire.bytesField 0x22 ip) ⟨channel, ccid, ep, ip, none⟩ :=
    Reads.bytesField 0x22 hl (by decide) rfl rfl rfl
  have hproof : Reads ChaincodeInfo.reader l ⟨channel, ccid, ep, ip, none⟩
      (Part.nullable 0x2a MessageProof.wire proof).bytes ⟨channel, ccid, ep, ip, proof⟩ :=
    Reads.nullable 0x2a id hl (by decide) rfl
      (fun p h => Wire.unmarshal_of_reads (p.reads h)) (by rintro rfl; rfl) (by rintro p rfl; rfl)
  exact (((hchannel.append hccid).append hep).append hip).append hproof

/-- The low 32 bits of a sign-extended `int32` are the number. -/
theorem MSPHeaderType.ofCode_code (t : MSPHeaderType) : ofCode t.code.toUInt32.toInt32 = t := by
  cases t with
  | create | updatePolicy | updateConfig | freeze => decide
  | unrecognized code h =>
    have hcode : code.toInt64.toUInt64.toUInt32.toInt32 = code := by
      apply Int32.toBitVec_inj.mp
      show (code.toBitVec.signExtend 64).setWidth 32 = code.toBitVec
      ext i hi
      rw [BitVec.getElem_setWidth, BitVec.getLsbD_signExtend, BitVec.getLsbD_eq_getElem hi]
      simp only [hi, if_true, Bool.and_eq_right_iff_imp, decide_eq_true_eq]
      omega
    rw [MSPHeaderType.code, hcode, ofCode, dif_pos h]

theorem wireBytes_of_nil {b : Option Bytes} (h : b.getD [] = []) : wireBytes b = none := by
  cases b with
  | none => rfl
  | some b =>
    obtain rfl : b = [] := h
    rfl

theorem wireBytes_of_ne_nil {b : Option Bytes} (h : b.getD [] ≠ []) :
    some (b.getD []) = wireBytes b := by
  cases b with
  | none => exact absurd rfl h
  | some b =>
    have hb : b ≠ [] := h
    simp [wireBytes, hb]

theorem MSPHeader.reads (hl : l < intLimit) (m : MSPHeader) :
    Reads MSPHeader.reader l .zero m.wire.bytes m.onWire := by
  obtain ⟨type, mspID, config, policy, proof⟩ := m
  have htype : Reads MSPHeader.reader l .zero (Wire.varintField 0x08 type.code.toNat)
      ⟨type, [], none, none, none⟩ :=
    Reads.varintField 0x08 (by decide) rfl rfl (by rw [MSPHeaderType.ofCode_code]; rfl)
  have hid : Reads MSPHeader.reader l ⟨type, [], none, none, none⟩
      (Wire.bytesField 0x12 mspID) ⟨type, mspID, none, none, none⟩ :=
    Reads.bytesField 0x12 hl (by decide) rfl rfl rfl
  have hconfig : Reads MSPHeader.reader l ⟨type, mspID, none, none, none⟩
      (Wire.bytesField 0x1a (config.getD [])) ⟨type, mspID, wireBytes config, none, none⟩ :=
    Reads.optionalBytes 0x1a hl (by decide) rfl (fun h => by rw [wireBytes_of_nil h])
      (fun h => by rw [← wireBytes_of_ne_nil h])
  have hpolicy : Reads MSPHeader.reader l ⟨type, mspID, wireBytes config, none, none⟩
      (Wire.bytesField 0x22 (policy.getD [])) ⟨type, mspID, wireBytes config, wireBytes policy, none⟩ :=
    Reads.optionalBytes 0x22 hl (by decide) rfl (fun h => by rw [wireBytes_of_nil h])
      (fun h => by rw [← wireBytes_of_ne_nil h])
  have hproof : Reads MSPHeader.reader l
      ⟨type, mspID, wireBytes config, wireBytes policy, none⟩
      (Part.nullable 0x2a MessageProof.wire proof).bytes
      ⟨type, mspID, wireBytes config, wireBytes policy, proof⟩ :=
    Reads.nullable 0x2a id hl (by decide) rfl
      (fun p h => Wire.unmarshal_of_reads (p.reads h)) (by rintro rfl; rfl) (by rintro p rfl; rfl)
  exact (((htype.append hid).append hconfig).append hpolicy).append hproof

theorem MSPHeaders.reads (hl : l < intLimit) (m : MSPHeaders) :
    Reads MSPHeaders.reader l .zero m.wire.bytes m.onWire := by
  obtain ⟨headers⟩ := m
  rw [MSPHeaders.wire, Part.bytes_repeated]
  refine Reads.repeated (fun mhs => MSPHeaders.mk (mhs.map MSPHeader.onWire)) (fun mhs mh => ?_) headers
  exact Reads.messageField 0x0a hl (by decide) rfl
    (fun h => Wire.unmarshal_of_reads (mh.reads h)) (by rw [List.map_append]; rfl)

theorem MSPInfo.reads (hl : l < intLimit) (m : MSPInfo) :
    Reads MSPInfo.reader l .zero m.wire.bytes m.onWire := by
  obtain ⟨id, config, policy, freezed⟩ := m
  have hid : Reads MSPInfo.reader l .zero (Wire.bytesField 0x0a id) ⟨id, none, none, false⟩ :=
    Reads.bytesField 0x0a hl (by decide) rfl rfl rfl
  have hconfig : Reads MSPInfo.reader l ⟨id, none, none, false⟩
      (Wire.bytesField 0x12 (config.getD [])) ⟨id, wireBytes config, none, false⟩ :=
    Reads.optionalBytes 0x12 hl (by decide) rfl (fun h => by rw [wireBytes_of_nil h])
      (fun h => by rw [← wireBytes_of_ne_nil h])
  have hpolicy : Reads MSPInfo.reader l ⟨id, wireBytes config, none, false⟩
      (Wire.bytesField 0x1a (policy.getD [])) ⟨id, wireBytes config, wireBytes policy, false⟩ :=
    Reads.optionalBytes 0x1a hl (by decide) rfl (fun h => by rw [wireBytes_of_nil h])
      (fun h => by rw [← wireBytes_of_ne_nil h])
  have hfreezed : Reads MSPInfo.reader l ⟨id, wireBytes config, wireBytes policy, false⟩
      (Part.flag 0x20 freezed).bytes ⟨id, wireBytes config, wireBytes policy, freezed⟩ := by
    cases freezed with
    | false => exact Reads.nil
    -- the flag is written as the number 1
    | true => exact Reads.varintField 0x20 (v := 1) (by decide) rfl rfl rfl
  exact ((hid.append hconfig).append hpolicy).append hfreezed

theorem MSPInfos.reads (hl : l < intLimit) (m : MSPInfos) :
    Reads MSPInfos.reader l .zero m.wire.bytes m.onWire := by
  obtain ⟨infos⟩ := m
  rw [MSPInfos.wire, Part.bytes_repeated]
  refine Reads.repeated (fun mis => MSPInfos.mk (mis.map MSPInfo.onWire)) (fun mis mi => ?_) infos
  exact Reads.messageField 0x0a hl (by decide) rfl
    (fun h => Wire.unmarshal_of_reads (mi.reads h)) (by rw [List.map_append]; rfl)

theorem Header.reads (hl : l < intLimit) (m : Header) :
    Reads Header.reader l .zero m.wire.bytes m.onWire := by
  obtain ⟨ch, ci, mhs⟩ := m
  have hch : Reads Header.reader l .zero (Part.nullable 0x0a ChaincodeHeader.wire ch).bytes
      ⟨ch, none, none⟩ :=
    Reads.nullable 0x0a id hl (by decide) rfl
      (fun p h => Wire.unmarshal_of_reads (p.reads h)) (by rintro rfl; rfl) (by rintro p rfl; rfl)
  have hci : Reads Header.reader l ⟨ch, none, none⟩
      (Part.nullable 0x12 ChaincodeInfo.wire ci).bytes ⟨ch, ci, none⟩ :=
    Reads.nullable 0x12 id hl (by decide) rfl
      (fun p h => Wire.unmarshal_of_reads (p.reads h)) (by rintro rfl; rfl) (by rintro p rfl; rfl)
  have hmhs : Reads Header.reader l ⟨ch, ci, none⟩
      (Part.nullable 0x1a MSPHeaders.wire mhs).bytes ⟨ch, ci, mhs.map MSPHeaders.onWire⟩ :=
    Reads.nullable 0x1a MSPHeaders.onWire hl (by decide) rfl
      (fun p h => Wire.unmarshal_of_reads (p.reads h)) (by rintro rfl; rfl) (by rintro p rfl; rfl)
  exact (hch.append hci).append hmhs

theorem ClientState.reads (hl : l < intLimit) (m : ClientState) :
    Reads ClientState.reader l .zero m.wire.bytes m.onWire := by
  obtain ⟨id, ch, ci, infos⟩ := m
  have hid : Reads ClientState.reader l .zero (Wire.bytesField 0x0a id)
      ⟨id, .zero, .zero, .zero⟩ := Reads.bytesField 0x0a hl (by decide) rfl rfl rfl
  have hch : Reads ClientState.reader l ⟨id, .zero, .zero, .zero⟩
      (Wire.messageField 0x12 ch.wire.bytes) ⟨id, ch, .zero, .zero⟩ :=
    Reads.messageField 0x12 hl (by decide) rfl
      (fun h => Wire.unmarshal_of_reads (ch.reads h)) rfl
  have hci : Reads ClientState.reader l ⟨id, ch, .zero, .zero⟩
      (Wire.messageField 0x1a ci.wire.bytes) ⟨id, ch, ci, .zero⟩ :=
    Reads.messageField 0x1a hl (by decide) rfl
      (fun h => Wire.unmarshal_of_reads (ci.reads h)) rfl
  have hinfos : Reads ClientState.reader l ⟨id, ch, ci, .zero⟩
      (Wire.messageField 0x22 infos.wire.bytes) ⟨id, ch, ci, infos.onWire⟩ :=
    Reads.messageField 0x22 hl (by decide) rfl
      (fun h => Wire.unmarshal_of_reads (infos.reads h)) rfl
  exact ((hid.append hch).append hci).append hinfos

theorem ConsensusState.reads (m : ConsensusState) :
    Reads ConsensusState.reader l .zero m.wire.bytes m :=
  Reads.varintField 0x08 (by decide) rfl rfl (by rw [Int64.toInt64_toUInt64])

theorem ok_named {α β ε : Type} {x : Outcome ε α} {a : α} (h : x = .ok a) (f : α → β) :
    (x >>= fun a => .ok (f a)) = .ok (f a) := by
  rw [h, Outcome.ok_bind]

/-- A message is unmarshalled as the wire has it. -/
theorem Message.unmarshal_bytes (m : Message) (hsize : m.wire.bytes.length < intLimit) :
    m.type.unmarshal m.wire.bytes = .ok m.onWire := by
  cases m with
  | sequence m =>
    exact ok_named (Wire.unmarshal_of_reads m.reads) Message.sequence
  | chaincodeID m =>
    exact ok_named (Wire.unmarshal_of_reads (m.reads hsize)) Message.chaincodeID
  | commitmentProof m =>
    exact ok_named (Wire.unmarshal_of_reads (m.reads hsize)) Message.commitmentProof
  | messageProof m =>
    exact ok_named (Wire.unmarshal_of_reads (m.reads hsize)) Message.messageProof
  | chaincodeHeader m =>
    exact ok_named (Wire.unmarshal_of_reads (m.reads hsize)) Message.chaincodeHeader
  | chaincodeInfo m =>
    exact ok_named (Wire.unmarshal_of_reads (m.reads hsize)) Message.chaincodeInfo
  | mspHeader m =>
    exact ok_named (Wire.unmarshal_of_reads (m.reads hsize)) Message.mspHeader
  | mspHeaders m =>
    exact ok_named (Wire.unmarshal_of_reads (m.reads hsize)) Message.mspHeaders
  | mspInfo m =>
    exact ok_named (Wire.unmarshal_of_reads (m.reads hsize)) Message.mspInfo
  | mspInfos m =>
    exact ok_named (Wire.unmarshal_of_reads (m.reads hsize)) Message.mspInfos
  | header m =>
    exact ok_named (Wire.unmarshal_of_reads (m.reads hsize)) Message.header
  | clientState m =>
    exact ok_named (Wire.unmarshal_of_reads (m.reads hsize)) Message.clientState
  | consensusState m =>
    exact ok_named (Wire.unmarshal_of_reads m.reads) Message.consensusState

/-- **What comes back of a message.** Marshalling fills its buffer exactly; the bytes
unmarshal to the message with nil for every optional byte string that is empty. So
the messages that survive are those without such a string. -/
theorem message_round_trip (m : Message) (hsize : m.size < intLimit) :
    ∃ bz, m.marshalToSizedBuffer ⟨List.replicate m.size 0, m.size⟩ = .ok ⟨bz, 0⟩ ∧
      m.marshal = .ok bz ∧ m.type.unmarshal bz = .ok m.onWire ∧
      (m.type.unmarshal bz = .ok m ↔ m.Full) := by
  have hread : m.type.unmarshal m.wire.bytes = .ok m.onWire :=
    m.unmarshal_bytes (m.wire.size_eq ▸ hsize)
  refine ⟨m.wire.bytes, m.wire.marshal_eq.1, m.wire.marshal_eq.2, hread, ?_⟩
  rw [hread, Outcome.ok.injEq, Message.onWire_eq_self_iff]

/-- An empty config comes back as nil. -/
theorem message_round_trip_empty_config :
    ∃ bz, (Message.mspInfo ⟨str "Org1", some [], some [1], true⟩).marshal = .ok bz ∧
      MessageType.mspInfo.unmarshal bz = .ok (.mspInfo ⟨str "Org1", none, some [1], true⟩) := by
  obtain ⟨bz, -, hmarshal, hread, -⟩ :=
    message_round_trip (.mspInfo ⟨str "Org1", some [], some [1], true⟩) (by decide +kernel)
  exact ⟨bz, hmarshal, hread⟩

/-! ## The messages that are signed or committed to -/

/-- `Sequence.Bytes` is `Marshal`. -/
theorem Sequence.marshal_eq (m : Sequence) : m.wire.marshal = .ok m.bytes := m.wire.marshal_eq.2

/-- What is signed is the message with `Proof = nil`. -/
theorem ChaincodeInfo.marshal_without_proof (ci : ChaincodeInfo) :
    { ci with proof := none }.wire.marshal = .ok ci.getSignBytes := by
  rw [(Part.marshal_eq _).2]
  simp [ChaincodeInfo.wire, ChaincodeID.wire, ChaincodeInfo.getSignBytes, Part.nullable, Part.empty,
    Part.bytesField, Part.message]

theorem MSPHeader.marshal_without_proof (mh : MSPHeader) :
    { mh with proof := none }.wire.marshal = .ok mh.getSignBytes := by
  rw [(Part.marshal_eq _).2]
  simp [MSPHeader.wire, MSPHeader.getSignBytes, Part.nullable, Part.empty, Part.bytesField,
    Part.varint]

/-- The proof a relayer marshals is the proof a client unmarshals. -/
theorem CommitmentProof.unmarshal_marshal {proof : CommitmentProof}
    (hsize : proof.wire.size < intLimit) :
    proof.wire.marshal = .ok proof.wire.bytes ∧
      CommitmentProof.unmarshal proof.wire.bytes = .ok proof :=
  ⟨proof.wire.marshal_eq.2, Wire.unmarshal_of_reads (proof.reads (proof.wire.size_eq ▸ hsize))⟩

end RoundTrip

/-! ## Arbitrary bytes -/

/-- **No bytes make `Unmarshal` panic.** -/
theorem message_unmarshal_safe (t : MessageType) (bz : Bytes) : ¬ (t.unmarshal bz).Panics := by
  have hnamed : ∀ {α : Type} (R : Wire.Reader α) (zero : α) (f : α → Message),
      ¬ (R.unmarshal zero bz >>= fun m => .ok (f m)).Panics := by
    intro α R zero f
    have hsafe : (R.unmarshal zero bz >>= fun m => .ok (f m)).Safe fun _ => True :=
      (R.unmarshal_safe zero bz).bind fun _ _ => trivial
    exact hsafe.not_panics
  cases t with
  | _ => exact hnamed _ _ _

end FabricIBC
