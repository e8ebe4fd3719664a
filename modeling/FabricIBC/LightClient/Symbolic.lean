import FabricIBC.LightClient.Messages

/-!
# Fabric-IBC — a Fabric with symbolic signatures

An instance of `Fabric` and of `Codec` that can be evaluated. The messages
have the wire formats of Fabric's protobuf definitions, cut down to the fields
the light client reads. Certificates are symbolic: an MSP config is the name of
an organisation, which has one member of the same name; a signature policy
names the organisation that has to sign; and a signature is the signer's name
put in front of the data.
-/

namespace FabricIBC.Symbolic

open Go

/-! ## Decoders -/

def toExcept {α : Type} : Outcome Wire.Error α → Except Error α
  | .ok a => .ok a
  | .err e => .error (.wire e)
  | .panic _ => .error (.external "panic")

/-- `MSPConfig`: type = 1, config = 2. -/
def mspConfig : Wire.Reader Bytes where
  message := "MSPConfig"
  field
    | 1 => some (.varint "Type" fun s _ => s)
    | 2 => some (.bytes "Config" fun _ b => b)
    | _ => none

/-- `ApplicationPolicy`: a oneof of signature_policy = 1 and
channel_config_policy_reference = 2. -/
def applicationPolicy : Wire.Reader (Option (ApplicationPolicyType Bytes)) where
  message := "ApplicationPolicy"
  field
    | 1 => some (.bytes "SignaturePolicy" fun _ b => some (.signaturePolicy b))
    | 2 => some (.bytes "ChannelConfigPolicyReference" fun _ b =>
        some (.channelConfigPolicyReference b))
    | _ => none

/-- `ProposalResponsePayload`: extension = 2. -/
def proposalResponsePayload : Wire.Reader Bytes where
  message := "ProposalResponsePayload"
  field
    | 2 => some (.bytes "Extension" fun _ b => b)
    | _ => none

/-- `ChaincodeAction`: results = 1, chaincode_id = 4. -/
def chaincodeAction : Wire.Reader ChaincodeAction where
  message := "ChaincodeAction"
  field
    | 1 => some (.bytes "Results" fun s b => { s with results := b })
    | 4 => some (.message "ChaincodeId" ChaincodeID.reader (·.chaincodeId.getD .zero) fun s id =>
        { s with chaincodeId := some id })
    | _ => none

/-- `KVWrite`: key = 1, is_delete = 2, value = 3. -/
def kvWrite : Wire.Reader KVWrite where
  message := "KVWrite"
  field
    | 1 => some (.bytes "Key" fun s b => { s with key := b })
    | 2 => some (.varint "IsDelete" fun s v => { s with isDelete := v != 0 })
    | 3 => some (.bytes "Value" fun s b => { s with value := b })
    | _ => none

/-- `KVRWSet`: writes = 3. -/
def kvRwSet : Wire.Reader (List KVWrite) where
  message := "KVRWSet"
  field
    | 3 => some (.message "Writes" kvWrite (fun _ => ⟨[], false, []⟩) fun s w => s ++ [w])
    | _ => none

/-- `NsReadWriteSet`: namespace = 1, rwset = 2. -/
def nsRwSet : Wire.Reader NsRwSet where
  message := "NsReadWriteSet"
  field
    | 1 => some (.bytes "Namespace" fun s b => { s with nameSpace := b })
    | 2 => some (.message "Rwset" kvRwSet (fun _ => []) fun s ws => { s with writes := ws })
    | _ => none

/-- `TxReadWriteSet`: data_model = 1, ns_rwset = 2. -/
def txRwSet : Wire.Reader (List NsRwSet) where
  message := "TxReadWriteSet"
  field
    | 1 => some (.varint "DataModel" fun s _ => s)
    | 2 => some (.message "NsRwset" nsRwSet (fun _ => ⟨[], []⟩) fun s ns => s ++ [ns])
    | _ => none

/-! ## Signatures -/

/-- The signature of a member. -/
def sign (identity data : Bytes) : Bytes := identity ++ str "!" ++ data

/-- The organisation of the policy is known and has signed. -/
def evaluate (orgs : List Bytes) (org : Bytes) (sigs : List SignedData) : Except Error Unit :=
  if orgs.contains org &&
      sigs.any (fun sd => sd.identity == org && sd.signature == sign org sd.data) then .ok ()
  else .error (.external "signature set did not satisfy policy")

/-- Fabric with symbolic signatures. -/
def fabric : Fabric where
  MSPConfig := Bytes
  MSP := Bytes
  MSPManager := List Bytes
  SignaturePolicy := Bytes
  Policy := List Bytes × Bytes
  unmarshalMSPConfig bz := toExcept (mspConfig.unmarshal [] bz)
  unmarshalApplicationPolicy bz := toExcept (applicationPolicy.unmarshal none bz)
  setupMSP config :=
    if config = [] then .error (.external "expected at least one CA certificate") else .ok config
  setupMSPManager msps := .ok msps
  newPolicy mgr p := .ok (mgr, p)
  evaluateSignedData policy sigs := evaluate policy.1 policy.2 sigs
  unmarshalProposalResponsePayload bz := toExcept (proposalResponsePayload.unmarshal [] bz)
  unmarshalChaincodeAction bz := toExcept (chaincodeAction.unmarshal ⟨[], none⟩ bz)
  txRwSetFromProtoBytes bz := toExcept (txRwSet.unmarshal [] bz)

instance : DecidableEq fabric.MSPConfig := inferInstanceAs (DecidableEq Bytes)

instance : DecidableEq fabric.Policy := inferInstanceAs (DecidableEq (List Bytes × Bytes))

/-! ## The codec -/

/-- A type that is its own encoding. -/
def bytesMarshaller : Marshaller Bytes where
  marshal b := .ok b
  unmarshal b := .ok b
  unmarshal_marshal _ _ h := h ▸ rfl

def marshalConsensusState : ConsensusStateI Empty → Except Error Bytes
  | .fabric cs => .ok cs.wire.bytes

def unmarshalConsensusState (bz : Bytes) : Except Error (ConsensusStateI Empty) :=
  toExcept (ConsensusState.reader.unmarshal .zero bz >>= fun cs => .ok (.fabric cs))

theorem unmarshal_marshal_consensusState (cs : ConsensusStateI Empty) (bz : Bytes)
    (h : marshalConsensusState cs = .ok bz) : unmarshalConsensusState bz = .ok cs := by
  obtain cs | e := cs
  · simp only [marshalConsensusState, Except.ok.injEq] at h
    subst h
    rw [unmarshalConsensusState, Wire.unmarshal_of_reads cs.reads]
    rfl
  · exact e.elim

def codec : Codec where
  ClientStateI := Bytes
  OtherConsensusState := Empty
  ConnectionEnd := Bytes
  Channel := Bytes
  clientState := bytesMarshaller
  consensusState := ⟨marshalConsensusState, unmarshalConsensusState, unmarshal_marshal_consensusState⟩
  marshal_fabric _ := ⟨_, rfl⟩
  connection := bytesMarshaller
  channel := bytesMarshaller
  commitAcknowledgement ack := str "hash:" ++ ack
  chaincodeIDString id := id.name

/-! ## Encoders -/

def encodeMSPConfig (org : Bytes) : Bytes := Wire.bytesField 0x12 org

def encodePolicy (org : Bytes) : Bytes := Wire.bytesField 0x0a org

def encodeKVWrite (w : KVWrite) : Bytes :=
  Wire.bytesField 0x0a w.key ++ Wire.varintField 0x10 (if w.isDelete then 1 else 0) ++
    Wire.bytesField 0x1a w.value

def encodeNsRwSet (ns : NsRwSet) : Bytes :=
  Wire.bytesField 0x0a ns.nameSpace ++
    Wire.bytesField 0x12 (ns.writes.flatMap fun w => Wire.messageField 0x1a (encodeKVWrite w))

/-- A `ProposalResponsePayload` for the given chaincode and write sets. -/
def encodePayload (id : Option ChaincodeID) (sets : List NsRwSet) : Bytes :=
  let results := sets.flatMap fun ns => Wire.messageField 0x12 (encodeNsRwSet ns)
  let action := Wire.bytesField 0x0a results ++
    match id with
    | none => []
    | some id => Wire.messageField 0x22 id.wire.bytes
  Wire.bytesField 0x12 action

/-- An endorsement of the write sets by one organisation, pointing at a write. -/
def endorse (org : Bytes) (id : ChaincodeID) (sets : List NsRwSet) (nsIndex writeSetIndex : UInt32) :
    CommitmentProof :=
  let proposal := encodePayload (some id) sets
  ⟨proposal, nsIndex, writeSetIndex, [org], [sign org (proposal ++ org)]⟩

/-- A governance message signed by one organisation. -/
def signMessage (org message : Bytes) : MessageProof := ⟨[org], [sign org message]⟩

/-! ## A small network -/

def org1 : Bytes := str "Org1"

def org2 : Bytes := str "Org2"

def org3 : Bytes := str "Org3"

def cc : ChaincodeID := ⟨[], str "ibccc", str "1"⟩

/-- Both policies of the chaincode are in the hands of `Org1`. -/
def info : ChaincodeInfo := ⟨str "ch1", cc, encodePolicy org1, encodePolicy org1, none⟩

def mspInfo (org : Bytes) : MSPInfo :=
  newMSPInfo org (some (encodeMSPConfig org)) (some (encodePolicy org))

/-- A client at sequence 1 that knows two organisations. -/
def client : ClientState :=
  ⟨str "fabric-ibc-0", ⟨⟨1, 100⟩, ⟨[], 0, 0, [], []⟩⟩, info, ⟨[mspInfo org1, mspInfo org2]⟩⟩

/-- The client as its creation leaves it: one consensus state, at sequence 1. -/
def createdClient : Client :=
  ⟨client, (∅ : ClientStore).insert (host.consensusStatePath ⟨0, 1⟩) (Wire.varintField 0x08 100)⟩

/-- The endorsed header of a sequence. -/
def sequenceHeader (seq : Sequence) : ChaincodeHeader :=
  ⟨seq, endorse org1 cc
    [⟨cc.name, [⟨makeSequenceCommitmentEntryKey seq.value, false, seq.bytes⟩]⟩] 0 0⟩

def signInfo (org : Bytes) (ci : ChaincodeInfo) : ChaincodeInfo :=
  { ci with proof := some (signMessage org ci.getSignBytes) }

def signMSPHeader (org : Bytes) (mh : MSPHeader) : MSPHeader :=
  { mh with proof := some (signMessage org mh.getSignBytes) }

def createHeader (org : Bytes) : MSPHeader :=
  ⟨.create, org, some (encodeMSPConfig org), some (encodePolicy org), none⟩

def configHeader (org config : Bytes) : MSPHeader := ⟨.updateConfig, org, some config, none, none⟩

def policyHeader (org policy : Bytes) : MSPHeader := ⟨.updatePolicy, org, none, some policy, none⟩

def freezeHeader (org : Bytes) : MSPHeader := ⟨.freeze, org, none, none, none⟩

/-- Arguments of a verification at the height of the created client. -/
def argsFor (proof : CommitmentProof) : VerifyArgs :=
  ⟨createdClient.store, ⟨0, 1⟩, .merkle host.storeKey, some proof.wire.bytes⟩

end FabricIBC.Symbolic
