import FabricIBC.Commitment.Definitions

/-!
# Fabric-IBC — light client: definitions

The code of `light-clients/fabric/types`: the messages of a header, the
verification of their parts (`fabric.go`), the update of the client state
(`update.go`) and the eight proof verifications (`client_state.go`).

Fabric's own code (certificates, policies, read-write sets) and the codec of
the application stand outside the repository; they are the fields of `Fabric`
and `Codec`. A function of theirs reports failures as errors, never as panics.

Conventions:

* a Go slice whose `nil` is told apart from the empty slice is an
  `Option Bytes`; a pointer to a message is an `Option`;
* a call that can run into a Go panic returns a `Result`.
-/

namespace FabricIBC

open Go

/-! ## Messages -/

/-- `ChaincodeID`, of this package and of Fabric's `peer` package. -/
structure ChaincodeID where
  path : Bytes
  name : Bytes
  version : Bytes
  deriving DecidableEq, Repr

/-- `CommitmentProof`: an endorsed proposal response and the position of an
entry in its write sets. -/
structure CommitmentProof where
  proposal : Bytes
  nsIndex : UInt32
  writeSetIndex : UInt32
  identities : List Bytes
  signatures : List Bytes
  deriving DecidableEq, Repr

/-- `MessageProof`: signatures over a message of the governance. -/
structure MessageProof where
  identities : List Bytes
  signatures : List Bytes
  deriving DecidableEq, Repr

structure ChaincodeHeader where
  sequence : Sequence
  proof : CommitmentProof
  deriving DecidableEq, Repr

structure ChaincodeInfo where
  channelId : Bytes
  chaincodeId : ChaincodeID
  endorsementPolicy : Bytes
  ibcPolicy : Bytes
  proof : Option MessageProof
  deriving DecidableEq, Repr

/-- `MSPHeaderType`, an open protobuf enumeration. -/
inductive MSPHeaderType
  | create
  | updatePolicy
  | updateConfig
  | freeze
  | unrecognized (code : Int32) (h : code.toInt < 0 ∨ 3 < code.toInt)
  deriving DecidableEq, Repr

structure MSPHeader where
  type : MSPHeaderType
  mspID : Bytes
  config : Option Bytes
  policy : Option Bytes
  proof : Option MessageProof
  deriving DecidableEq, Repr

structure MSPHeaders where
  headers : List MSPHeader
  deriving DecidableEq, Repr

structure Header where
  chaincodeHeader : Option ChaincodeHeader
  chaincodeInfo : Option ChaincodeInfo
  mspHeaders : Option MSPHeaders
  deriving DecidableEq, Repr

structure MSPInfo where
  mspID : Bytes
  config : Option Bytes
  policy : Option Bytes
  freezed : Bool
  deriving DecidableEq, Repr

structure MSPInfos where
  infos : List MSPInfo
  deriving DecidableEq, Repr

structure ClientState where
  id : Bytes
  lastChaincodeHeader : ChaincodeHeader
  lastChaincodeInfo : ChaincodeInfo
  lastMspInfos : MSPInfos
  deriving DecidableEq, Repr

structure ConsensusState where
  timestamp : Int64
  deriving DecidableEq, Repr

/-- What a value of the interface `exported.Header` holds. -/
inductive HeaderI
  | fabric (h : Header)
  | other
  deriving DecidableEq, Repr

/-! ## Code outside the repository: Fabric -/

/-- `protoutil.SignedData`. -/
structure SignedData where
  data : Bytes
  identity : Bytes
  signature : Bytes
  deriving DecidableEq, Repr

/-- The oneof of `peer.ApplicationPolicy`. -/
inductive ApplicationPolicyType (SignaturePolicy : Type)
  | signaturePolicy (p : SignaturePolicy)
  | channelConfigPolicyReference (reference : Bytes)

/-- `kvrwset.KVWrite`. -/
structure KVWrite where
  key : Bytes
  isDelete : Bool
  value : Bytes
  deriving DecidableEq, Repr

/-- `rwsetutil.NsRwSet`, its writes only. -/
structure NsRwSet where
  nameSpace : Bytes
  writes : List KVWrite
  deriving DecidableEq, Repr

/-- `peer.ChaincodeAction`; the chaincode id is a pointer. -/
structure ChaincodeAction where
  results : Bytes
  chaincodeId : Option ChaincodeID
  deriving DecidableEq, Repr

/-- The part of Fabric the light client calls. -/
structure Fabric where
  MSPConfig : Type
  MSP : Type
  MSPManager : Type
  SignaturePolicy : Type
  Policy : Type
  /-- `proto.Unmarshal` into an `msp.MSPConfig`. -/
  unmarshalMSPConfig : Bytes → Except Error MSPConfig
  /-- `proto.Unmarshal` into a `peer.ApplicationPolicy`; its `Type` may be unset. -/
  unmarshalApplicationPolicy :
    Bytes → Except Error (Option (ApplicationPolicyType SignaturePolicy))
  /-- `msp.New` with the default crypto provider, and `Setup` of the new MSP. -/
  setupMSP : MSPConfig → Except Error MSP
  /-- `Setup` of a new MSP manager. -/
  setupMSPManager : List MSP → Except Error MSPManager
  /-- `cauthdsl.EnvelopeBasedPolicyProvider.NewPolicy`. -/
  newPolicy : MSPManager → SignaturePolicy → Except Error Policy
  evaluateSignedData : Policy → List SignedData → Except Error Unit
  /-- `proto.Unmarshal` into a `peer.ProposalResponsePayload`: its extension. -/
  unmarshalProposalResponsePayload : Bytes → Except Error Bytes
  unmarshalChaincodeAction : Bytes → Except Error ChaincodeAction
  /-- `TxRwSet.FromProtoBytes`. -/
  txRwSetFromProtoBytes : Bytes → Except Error (List NsRwSet)

/-! ## MSPs (`msp.go`) -/

/-- `NewMSPInfo`. -/
def newMSPInfo (mspID : Bytes) (config policy : Option Bytes) : MSPInfo :=
  ⟨mspID, config, policy, false⟩

namespace MSPInfos

/-- The loop of `GetMSPPBConfigs`. -/
def pbConfigs (F : Fabric) : List MSPInfo → Result (List F.MSPConfig)
  | [] => .ok []
  | info :: rest =>
    -- freezed MSPInfo is skipped
    if info.freezed then pbConfigs F rest
    else
      match info.config with
      | none => .err (.new "a MSPInfo has no config")
      | some config => do
        let mspConfig ← Outcome.ofExcept (F.unmarshalMSPConfig config)
        let configs ← pbConfigs F rest
        .ok (mspConfig :: configs)

def getMSPPBConfigs (F : Fabric) (mi : MSPInfos) : Result (List F.MSPConfig) :=
  pbConfigs F mi.infos

/-- `indexOfMSPID`, with `none` for `-1`; also the method `IndexOf`. -/
def indexOf (mi : MSPInfos) (mspID : Bytes) : Option Nat :=
  mi.infos.findIdx? fun info => info.mspID == mspID

def hasMSPID (mi : MSPInfos) (mspID : Bytes) : Bool := (mi.indexOf mspID).isSome

def findMSPInfo (mi : MSPInfos) (mspID : Bytes) : Result MSPInfo :=
  match mi.indexOf mspID with
  | none => .err (.new "MSPInfo not found")
  | some idx =>
    match mi.infos[idx]? with
    -- not reached: the index was just found
    | none => .panic .indexOutOfRange
    | some info => .ok info

end MSPInfos

/-! ## Headers (`header.go`) -/

/-- `CompareMSPID`: `strings.Compare`. -/
def compareMSPID (a b : Bytes) : Ordering := compare a b

namespace ChaincodeInfo

/-- `GetFabricChaincodeID`: the same three fields. -/
def getFabricChaincodeID (ci : ChaincodeInfo) : ChaincodeID := ci.chaincodeId

/-- `GetSignBytes`: the message without its proof. -/
def getSignBytes (ci : ChaincodeInfo) : Bytes :=
  Wire.bytesField 0x0a ci.channelId ++
  Wire.messageField 0x12
    (Wire.bytesField 0x0a ci.chaincodeId.path ++ Wire.bytesField 0x12 ci.chaincodeId.name ++
      Wire.bytesField 0x1a ci.chaincodeId.version) ++
  Wire.bytesField 0x1a ci.endorsementPolicy ++
  Wire.bytesField 0x22 ci.ibcPolicy

end ChaincodeInfo

/-- The number of the enumeration on the wire, as a varint. -/
def MSPHeaderType.code : MSPHeaderType → UInt64
  | create => 0
  | updatePolicy => 1
  | updateConfig => 2
  | freeze => 3
  -- a negative `int32` is sign-extended on the wire
  | unrecognized code _ => code.toInt64.toUInt64

namespace MSPHeader

/-- Which of `Config` and `Policy` a header of the type carries. -/
def validConfigPolicy (mh : MSPHeader) : Bool :=
  match mh.type with
  | .create => mh.config.isSome && mh.policy.isSome
  | .updatePolicy => mh.config.isNone && mh.policy.isSome
  | .updateConfig => mh.config.isSome && mh.policy.isNone
  | .freeze => mh.config.isNone && mh.policy.isNone
  | .unrecognized _ _ => false

def validateBasic (mh : MSPHeader) : Result Unit :=
  if mh.mspID = [] then .err (.new "MSPID is empty")
  else if !mh.validConfigPolicy then .err (.new "config or policy is invalid")
  else if mh.proof.isNone then .err (.new "proof is empty")
  else .ok ()

/-- `GetSignBytes`: the message without its proof. -/
def getSignBytes (mh : MSPHeader) : Bytes :=
  Wire.varintField 0x08 mh.type.code.toNat ++
  Wire.bytesField 0x12 mh.mspID ++
  -- an absent and an empty byte string look the same on the wire
  Wire.bytesField 0x1a (mh.config.getD []) ++
  Wire.bytesField 0x22 (mh.policy.getD [])

end MSPHeader

/-- The loop of `MSPHeaders.ValidateBasic`, with the ids seen so far. -/
def MSPHeaders.validateLoop (seen : List Bytes) (prevID : Bytes) : List MSPHeader → Result Unit
  | [] => .ok ()
  | mh :: rest => do
    mh.validateBasic
    if mh.mspID ∈ seen then .err (.new "some MSPHeaders are duplicated")
    -- `prevID` starts as the empty string
    else if compareMSPID prevID mh.mspID = .gt then
      .err (.new "MSPID must be sorted by ascending order")
    else validateLoop (mh.mspID :: seen) mh.mspID rest

def MSPHeaders.validateBasic (mhs : MSPHeaders) : Result Unit :=
  validateLoop [] [] mhs.headers

def ChaincodeHeader.validateBasic (_ : ChaincodeHeader) : Result Unit := .ok ()

def ChaincodeInfo.validateBasic (_ : ChaincodeInfo) : Result Unit := .ok ()

/-- `if p != nil { if err := f(*p); err != nil { return err } }`. -/
def ifPresent {α : Type} (p : Option α) (f : α → Result Unit) : Result Unit :=
  match p with
  | none => .ok ()
  | some a => f a

namespace Header

/-- `GetHeight`; without a `ChaincodeHeader` it dereferences a nil pointer. -/
def getHeight (h : Header) : Result Height :=
  match h.chaincodeHeader with
  | none => .panic .nilDereference
  | some ch => .ok ⟨0, ch.sequence.value⟩

def validateBasic (h : Header) : Result Unit := do
  if h.chaincodeHeader.isNone && h.chaincodeInfo.isNone && h.mspHeaders.isNone then
    .err (.new "either ChaincodeHeader, ChaincodeInfo or MSPHeaders must be non-nil value")
  ifPresent h.chaincodeHeader ChaincodeHeader.validateBasic
  ifPresent h.chaincodeInfo ChaincodeInfo.validateBasic
  ifPresent h.mspHeaders MSPHeaders.validateBasic

end Header

end FabricIBC
