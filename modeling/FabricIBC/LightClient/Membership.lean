import FabricIBC.LightClient.Transition

/-!
# Fabric-IBC — light client: proof verification

`client_state.go` and `store.go`: the validation of a client state, the eight
`Verify*` functions a counterparty calls, and the client keeper's update as
ibc-go runs it around `CheckHeaderAndUpdateState`.

The eight verifications have one body (`verifyMembership`): they check the
arguments, produce the bytes of the claimed value, and look for the entry
under the key of the statement in an endorsed write set. They differ in the
key and in how the bytes are produced. The consensus state of the proof height
must exist; nothing else about it is used.
-/

namespace FabricIBC

open Go

/-! ## Code outside the repository: the codec -/

/-- What a value of the interface `exported.ConsensusState` holds. -/
inductive ConsensusStateI (Other : Type)
  | fabric (cs : ConsensusState)
  | other (cs : Other)

/-- Marshalling of one type of the codec: what it writes it reads back.
Messages that differ only where the wire format does not are one value here. -/
structure Marshaller (α : Type) where
  marshal : α → Except Error Bytes
  unmarshal : Bytes → Except Error α
  unmarshal_marshal : ∀ a bz, marshal a = .ok bz → unmarshal bz = .ok a

theorem Marshaller.marshal_inj {α : Type} (M : Marshaller α) {a b : α} {bz : Bytes}
    (ha : M.marshal a = .ok bz) (hb : M.marshal b = .ok bz) : a = b := by
  have h := (M.unmarshal_marshal a bz ha).symm.trans (M.unmarshal_marshal b bz hb)
  simpa using h

/-- The application's codec and the ibc-go types it is used for. -/
structure Codec where
  ClientStateI : Type
  OtherConsensusState : Type
  ConnectionEnd : Type
  Channel : Type
  clientState : Marshaller ClientStateI
  consensusState : Marshaller (ConsensusStateI OtherConsensusState)
  /-- The consensus state of this client is a registered type. -/
  marshal_fabric : ∀ cs, ∃ bz, consensusState.marshal (.fabric cs) = .ok bz
  connection : Marshaller ConnectionEnd
  channel : Marshaller Channel
  /-- `channeltypes.CommitAcknowledgement`. -/
  commitAcknowledgement : Bytes → Bytes
  /-- `proto.CompactTextString`, behind `ChaincodeID.String`. -/
  chaincodeIDString : ChaincodeID → Bytes

/-- A key-value store of the counterparty, restricted to one client. -/
abbrev ClientStore := Std.ExtTreeMap Bytes Bytes compare

/-- What a value of the interface `exported.Prefix` holds. -/
inductive PrefixI
  | nil
  | merkle (keyPrefix : Bytes)
  | other (bytes : Bytes)
  deriving DecidableEq, Repr

def PrefixI.bytes : PrefixI → Bytes
  | nil => []
  | merkle b => b
  | other b => b

/-! ## Identifiers and blank strings -/

/-- The string consists of white space only, that is `strings.TrimSpace` empties it. -/
def isBlank : Bytes → Bool
  | [] => true
  | 0x09 :: s | 0x0a :: s | 0x0b :: s | 0x0c :: s | 0x0d :: s | 0x20 :: s => isBlank s
  -- U+0085, U+00A0, U+1680, U+2000..U+200A, U+2028, U+2029, U+202F, U+205F, U+3000
  | 0xc2 :: 0x85 :: s | 0xc2 :: 0xa0 :: s => isBlank s
  | 0xe1 :: 0x9a :: 0x80 :: s => isBlank s
  | 0xe2 :: 0x80 :: b :: s =>
    ((0x80 ≤ b && b ≤ 0x8a) || b == 0xa8 || b == 0xa9 || b == 0xaf) && isBlank s
  | 0xe2 :: 0x81 :: 0x9f :: s => isBlank s
  | 0xe3 :: 0x80 :: 0x80 :: s => isBlank s
  | _ => false

namespace host

/-- The characters of a valid identifier (ICS-24). -/
def isValidIDChar (b : UInt8) : Bool :=
  (0x30 ≤ b && b ≤ 0x39) || (0x41 ≤ b && b ≤ 0x5a) || (0x61 ≤ b && b ≤ 0x7a) ||
    (str "._+-#[]<>").contains b

/-- `defaultIdentifierValidator`. -/
def defaultIdentifierValidator (id : Bytes) (min max : Nat) : Result Unit :=
  if isBlank id then .err (.external "identifier cannot be blank")
  else if slash ∈ id then .err (.external "identifier cannot contain separator '/'")
  else if id.length < min ∨ max < id.length then .err (.external "identifier has invalid length")
  else if !id.all isValidIDChar then .err (.external "identifier must contain only valid characters")
  else .ok ()

/-- `host.ClientIdentifierValidator`. -/
def clientIdentifierValidator (id : Bytes) : Result Unit := defaultIdentifierValidator id 9 64

end host

/-! ## The client state (`client_state.go`) -/

/-- `ChaincodeInfo.GetChainID`: `%v/%v`. -/
def ChaincodeInfo.getChainID (C : Codec) (ci : ChaincodeInfo) : Bytes :=
  ci.channelId ++ str "/" ++ C.chaincodeIDString ci.chaincodeId

namespace ClientState

/-- `Validate`. -/
def validate (C : Codec) (cs : ClientState) : Result Unit :=
  if isBlank (cs.lastChaincodeInfo.getChainID C) then .err (.new "chain id cannot be blank")
  else if cs.getLatestHeight.lte ⟨0, 0⟩ then
    .err (.errorf "height must be '>=': %d"
      [.height cs.getLatestHeight.revisionNumber cs.getLatestHeight.revisionHeight])
  else host.clientIdentifierValidator cs.id

/-- `IsFrozen`. -/
def isFrozen (_ : ClientState) : Bool := false

end ClientState

/-- `GetConsensusState` (`store.go`). -/
def getConsensusState (C : Codec) (store : ClientStore) (height : Height) :
    Result ConsensusState :=
  match store[host.consensusStatePath height]? with
  | none =>
    .err (.wrap .consensusStateNotFound
      (.errorf "consensus state does not exist for height %s"
        [.height height.revisionNumber height.revisionHeight]))
  | some bz =>
    match C.consensusState.unmarshal bz with
    | .error e => .err (.wrap .invalidConsensus (.printing "unmarshal error: %v" e))
    -- the consensus state of another kind of client
    | .ok (.other _) => .err (.wrap .invalidConsensus (.errorf "invalid consensus type %T, expected %T" []))
    | .ok (.fabric cs) => .ok cs

/-- The generated unmarshaller of `CommitmentProof`. -/
def CommitmentProof.reader : Wire.Reader CommitmentProof where
  message := "CommitmentProof"
  field
    | 1 => some (.bytes "Proposal" fun m b => { m with proposal := b })
    | 2 => some (.varint "NsIndex" fun m v => { m with nsIndex := v.toUInt32 })
    | 3 => some (.varint "WriteSetIndex" fun m v => { m with writeSetIndex := v.toUInt32 })
    -- repeated fields accumulate, the others keep the last occurrence
    | 4 => some (.bytes "Identities" fun m b => { m with identities := m.identities ++ [b] })
    | 5 => some (.bytes "Signatures" fun m b => { m with signatures := m.signatures ++ [b] })
    | _ => none

def CommitmentProof.zero : CommitmentProof := ⟨[], 0, 0, [], []⟩

/-- `cdc.Unmarshal(proof, &commitmentProof)`. -/
def CommitmentProof.unmarshal (bz : Bytes) : Outcome Wire.Error CommitmentProof :=
  CommitmentProof.reader.unmarshal .zero bz

/-- `produceVerificationArgs`. -/
def produceVerificationArgs (C : Codec) (store : ClientStore) (cs : ClientState) (height : Height)
    (pfx : PrefixI) (proof : Option Bytes) : Result (CommitmentProof × ConsensusState) :=
  if cs.getLatestHeight.lt height then
    .err (.wrap .invalidHeight (.errorf "client state height < proof height (%d < %d)"
      [.height cs.getLatestHeight.revisionNumber cs.getLatestHeight.revisionHeight,
        .height height.revisionNumber height.revisionHeight]))
  else if cs.isFrozen then .err (.sdk .clientFrozen)
  else
    match pfx with
    | .nil => .err (.wrap .invalidPrefix (.new "prefix cannot be empty"))
    | .other _ =>
      .err (.wrap .invalidPrefix (.errorf "invalid prefix type %T, expected *MerklePrefix" []))
    | .merkle _ =>
      match proof with
      | none => .err (.wrap .invalidProof (.new "proof cannot be empty"))
      | some bz => do
        let commitmentProof ← (CommitmentProof.unmarshal bz).mapErr fun _ =>
          .wrap .invalidProof (.new "failed to unmarshal proof into commitment merkle proof")
        let consensusState ← getConsensusState C store height
        .ok (commitmentProof, consensusState)

/-- The common arguments of the `Verify*` functions. -/
structure VerifyArgs where
  store : ClientStore
  height : Height
  pfx : PrefixI
  proof : Option Bytes

section Verify

variable (F : Fabric) (C : Codec)

/-- The common body of the `Verify*` functions: `key` for a prefix, and the
bytes of the claimed value. -/
def verifyMembership (cs : ClientState) (args : VerifyArgs) (key : Bytes → Bytes)
    (value : Result Bytes) : Result Unit := do
  -- the consensus state at the height has to exist, but is not used
  let (fabProof, _) ← produceVerificationArgs C args.store cs args.height args.pfx args.proof
  let bz ← value
  let configs ← cs.lastMspInfos.getMSPPBConfigs F
  let ok ← verifyEndorsedCommitment F cs.lastChaincodeInfo.getFabricChaincodeID
    cs.lastChaincodeInfo.endorsementPolicy fabProof (key args.pfx.bytes) bz configs
  if ok then .ok () else .err (.errorf "unexpected value" [])

def verifyClientState (cs : ClientState) (args : VerifyArgs) (clientID : Bytes)
    (clientState : Option C.ClientStateI) : Result Unit :=
  verifyMembership F C cs args (fun pfx => makeClientStateCommitmentEntryKey pfx clientID)
    (match clientState with
      | none => .err (.wrap .invalidClient (.new "client state cannot be empty"))
      | some s => Outcome.ofExcept (C.clientState.marshal s))

def verifyClientConsensusState (cs : ClientState) (args : VerifyArgs) (clientID : Bytes)
    (consensusHeight : Height) (consensusState : Option (ConsensusStateI C.OtherConsensusState)) :
    Result Unit :=
  verifyMembership F C cs args
    (fun pfx => makeConsensusStateCommitmentEntryKey pfx clientID consensusHeight)
    (match consensusState with
      -- the codec refuses a nil interface
      | none => .err (.external "can't marshal <nil> value")
      | some s => Outcome.ofExcept (C.consensusState.marshal s))

/-- `none` is a connection of another type than `connectiontypes.ConnectionEnd`. -/
def verifyConnectionState (cs : ClientState) (args : VerifyArgs) (connectionID : Bytes)
    (connectionEnd : Option C.ConnectionEnd) : Result Unit :=
  verifyMembership F C cs args (fun pfx => makeConnectionStateCommitmentEntryKey pfx connectionID)
    (match connectionEnd with
      | none => .err (.wrap .invalidType (.errorf "invalid connection type %T" []))
      | some c => Outcome.ofExcept (C.connection.marshal c))

/-- `none` is a channel of another type than `channeltypes.Channel`. -/
def verifyChannelState (cs : ClientState) (args : VerifyArgs) (portID channelID : Bytes)
    (channel : Option C.Channel) : Result Unit :=
  verifyMembership F C cs args (fun pfx => makeChannelStateCommitmentEntryKey pfx portID channelID)
    (match channel with
      | none => .err (.wrap .invalidType (.errorf "invalid channel type %T" []))
      | some c => Outcome.ofExcept (C.channel.marshal c))

def verifyPacketCommitment (cs : ClientState) (args : VerifyArgs) (portID channelID : Bytes)
    (sequence : UInt64) (commitmentBytes : Bytes) : Result Unit :=
  verifyMembership F C cs args
    (fun pfx => makePacketCommitmentEntryKey pfx portID channelID sequence) (.ok commitmentBytes)

def verifyPacketAcknowledgement (cs : ClientState) (args : VerifyArgs) (portID channelID : Bytes)
    (sequence : UInt64) (acknowledgement : Bytes) : Result Unit :=
  verifyMembership F C cs args
    (fun pfx => makePacketAcknowledgementEntryKey pfx portID channelID sequence)
    (.ok (C.commitAcknowledgement acknowledgement))

def verifyPacketReceiptAbsence (cs : ClientState) (args : VerifyArgs) (portID channelID : Bytes)
    (sequence : UInt64) : Result Unit :=
  verifyMembership F C cs args
    (fun pfx => makePacketReceiptAbsenceEntryKey pfx portID channelID sequence) (.ok [0])

def verifyNextSequenceRecv (cs : ClientState) (args : VerifyArgs) (portID channelID : Bytes)
    (nextSequenceRecv : UInt64) : Result Unit :=
  verifyMembership F C cs args (fun pfx => makeNextSequenceRecvEntryKey pfx portID channelID)
    (.ok (uint64ToBigEndian nextSequenceRecv))

end Verify

/-! ## The client keeper -/

/-- What the counterparty stores for one client. -/
structure Client where
  state : ClientState
  store : ClientStore

/-- `UpdateClient` of ibc-go's client keeper for a fabric client: the returned
client state and, at the height of the header, the returned consensus state
are stored. -/
def updateClient (F : Fabric) (C : Codec) (client : Client) (header : Header) : Result Client := do
  let (state, cons) ← checkHeaderAndUpdateState F client.state (.fabric header)
  let height ← header.getHeight
  match cons with
  -- a header without a sequence brings no consensus state
  | none => .panic .nilDereference
  | some cons =>
    match C.consensusState.marshal (.fabric cons) with
    | .error _ => .panic (.explicit "MustMarshalConsensusState")
    | .ok bz => .ok ⟨state, client.store.insert (host.consensusStatePath height) bz⟩

end FabricIBC
