import FabricIBC.LightClient.Definitions

/-!
# Fabric-IBC — light client: checking and applying a header

`fabric.go` and `update.go`, function by function. Everything a header
carries is checked against the client state before it (`checkValidity`); only
then are the parts applied one after the other (`update`).

An index of `-1` or beyond the end of a slice, a nil pointer and a failed type
assertion are panics.
-/

namespace FabricIBC

open Go

/-! ## Endorsements (`fabric.go`, `commitment.go`) -/

section Endorsement

variable (F : Fabric)

/-- `setupVerifyingMSP`. -/
def setupVerifyingMSP (config : F.MSPConfig) : Result F.MSP :=
  Outcome.ofExcept (F.setupMSP config)

/-- The loop of `setupVerifyingMSPManager`. -/
def setupVerifyingMSPs : List F.MSPConfig → Result (List F.MSP)
  | [] => .ok []
  | config :: configs => do
    let m ← setupVerifyingMSP F config
    let msps ← setupVerifyingMSPs configs
    .ok (m :: msps)

def setupVerifyingMSPManager (configs : List F.MSPConfig) : Result F.MSPManager := do
  let msps ← setupVerifyingMSPs F configs
  Outcome.ofExcept (F.setupMSPManager msps)

/-- `ap.Type.(*peer.ApplicationPolicy_SignaturePolicy)`. -/
def assertSignaturePolicy {S : Type} : Option (ApplicationPolicyType S) → Result S
  | some (.signaturePolicy p) => .ok p
  -- the assertion is the one-value form, which panics
  | some (.channelConfigPolicyReference _) => .panic .typeAssertion
  | none => .panic .typeAssertion

def getPolicyEvaluator (policyBytes : Bytes) (configs : List F.MSPConfig) : Result F.Policy := do
  let ap ← Outcome.ofExcept (F.unmarshalApplicationPolicy policyBytes)
  let sigp ← assertSignaturePolicy ap
  let mgr ← setupVerifyingMSPManager F configs
  Outcome.ofExcept (F.newPolicy mgr sigp)

/-- One turn of a loop over the signatures: the identity of the same index. -/
def signedDataLoop (data : Bytes → Bytes) : (identities signatures : List Bytes) →
    Result (List SignedData)
  | _, [] => .ok []
  -- `proof.Identities[i]` for a signature without an identity
  | [], _ :: _ => .panic .indexOutOfRange
  | identity :: identities, signature :: signatures => do
    let rest ← signedDataLoop data identities signatures
    .ok (⟨data identity, identity, signature⟩ :: rest)

/-- `makeSignedDataListWithMessageProof`: every signer signs the value. -/
def makeSignedDataListWithMessageProof (proof : MessageProof) (value : Bytes) :
    Result (List SignedData) :=
  signedDataLoop (fun _ => value) proof.identities proof.signatures

/-- `ToSignedData`: every endorser signs the proposal followed by its identity. -/
def CommitmentProof.toSignedData (proof : CommitmentProof) : Result (List SignedData) :=
  signedDataLoop (fun identity => proof.proposal ++ identity) proof.identities proof.signatures

/-- `CommitmentProof.ValidateBasic`. -/
def CommitmentProof.validateBasic (proof : CommitmentProof) : Result Unit :=
  if proof.identities.length ≠ proof.signatures.length then
    .err (.errorf "mismatch length: %v != %v"
      [.int proof.identities.length, .int proof.signatures.length])
  else .ok ()

def verifyEndorsedMessage (policyBytes : Bytes) (proof : MessageProof) (value : Bytes)
    (configs : List F.MSPConfig) : Result Unit := do
  let policy ← getPolicyEvaluator F policyBytes configs
  let sigs ← makeSignedDataListWithMessageProof proof value
  Outcome.ofExcept (F.evaluateSignedData policy sigs)

def getTxReadWriteSetFromProposalResponsePayload (proposal : Bytes) :
    Result (Option ChaincodeID × List NsRwSet) := do
  let extension ← Outcome.ofExcept (F.unmarshalProposalResponsePayload proposal)
  let cact ← Outcome.ofExcept (F.unmarshalChaincodeAction extension)
  let txRWSet ← Outcome.ofExcept (F.txRwSetFromProtoBytes cact.results)
  .ok (cact.chaincodeId, txRWSet)

def equalChaincodeID (a b : ChaincodeID) : Bool :=
  a.name == b.name && a.path == b.path && a.version == b.version

def ensureWriteSetIncludesCommitment (set : List NsRwSet) (nsIdx rwsIdx : UInt32)
    (targetKey expectValue : Bytes) : Result Bool :=
  match set[nsIdx.toNat]? with
  -- only the index of the write is checked against its range
  | none => .panic .indexOutOfRange
  | some ns =>
    match ns.writes[rwsIdx.toNat]? with
    | none =>
      .err (.errorf "not found index '%v'(length=%v)" [.int rwsIdx.toNat, .int ns.writes.length])
    | some w =>
      if targetKey ≠ w.key then
        .err (.errorf "unexpected key '%v'(expected=%v)" [.bytes w.key, .bytes targetKey])
      else .ok (w.value == expectValue)

def ChaincodeID.fmtArg (id : ChaincodeID) : FmtArg := .chaincodeID id.path id.name id.version

def verifyEndorsedCommitment (ccID : ChaincodeID) (policyBytes : Bytes) (proof : CommitmentProof)
    (key value : Bytes) (configs : List F.MSPConfig) : Result Bool := do
  let policy ← getPolicyEvaluator F policyBytes configs
  let sigs ← proof.toSignedData
  Outcome.ofExcept (F.evaluateSignedData policy sigs)
  let (id, rwset) ← getTxReadWriteSetFromProposalResponsePayload F proof.proposal
  match id with
  -- `*id` of a proposal without a chaincode id
  | none => .panic .nilDereference
  | some id =>
    if !equalChaincodeID ccID id then
      .err (.errorf "got unexpected chaincodeID: expected=%v actual=%v" [ccID.fmtArg, id.fmtArg])
    else ensureWriteSetIncludesCommitment rwset proof.nsIndex proof.writeSetIndex key value

end Endorsement

/-! ## Verification of the parts of a header (`fabric.go`) -/

namespace ClientState

/-- `GetLatestHeight`. -/
def getLatestHeight (cs : ClientState) : Height := ⟨0, cs.lastChaincodeHeader.sequence.value⟩

/-- `GetLatestTimestamp`. -/
def getLatestTimestamp (cs : ClientState) : Int64 := cs.lastChaincodeHeader.sequence.timestamp

end ClientState

section Verification

variable (F : Fabric)

/-- `VerifyChaincodeHeader`. -/
def verifyChaincodeHeader (cs : ClientState) (h : ChaincodeHeader) : Result Unit := do
  let configs ← cs.lastMspInfos.getMSPPBConfigs F
  let ok ← verifyEndorsedCommitment F cs.lastChaincodeInfo.getFabricChaincodeID
    cs.lastChaincodeInfo.endorsementPolicy h.proof
    (makeSequenceCommitmentEntryKey h.sequence.value) h.sequence.bytes configs
  if ok then .ok () else .err (.new "failed to verify a endorsed commitment")

/-- `VerifyChaincodeInfo`. -/
def verifyChaincodeInfo (cs : ClientState) (info : ChaincodeInfo) : Result Unit :=
  match info.proof with
  | none => .err (.new "a proof is empty")
  | some proof => do
    let configs ← cs.lastMspInfos.getMSPPBConfigs F
    -- the policy of the last info, not the one of the info to be verified
    verifyEndorsedMessage F cs.lastChaincodeInfo.ibcPolicy proof info.getSignBytes configs

/-- The last lines of all four MSP verifiers. -/
def verifyMSPMessage (cs : ClientState) (mh : MSPHeader) (policy : Bytes) (proof : MessageProof) :
    Result Unit := do
  let lastConfigs ← cs.lastMspInfos.getMSPPBConfigs F
  verifyEndorsedMessage F policy proof mh.getSignBytes lastConfigs

def verifyMSPCreate (cs : ClientState) (mh : MSPHeader) : Result Unit :=
  match mh.proof with
  | none => .err (.new "proof is nil")
  | some proof =>
    if cs.lastMspInfos.hasMSPID mh.mspID then .err (.new "MSPInfo has already been created")
    else verifyMSPMessage F cs mh cs.lastChaincodeInfo.ibcPolicy proof

/-- The verifiers of an existing MSP differ only in the policy they ask. -/
def verifyExistingMSP (policy : MSPInfo → Bytes) (cs : ClientState) (mh : MSPHeader) :
    Result Unit :=
  match mh.proof with
  | none => .err (.new "proof is nil")
  | some proof => do
    let mi ← cs.lastMspInfos.findMSPInfo mh.mspID
    if mi.freezed then .err (.new "MSPInfo is freezed")
    else verifyMSPMessage F cs mh (policy mi) proof

def verifyMSPUpdatePolicy (cs : ClientState) : MSPHeader → Result Unit :=
  verifyExistingMSP F (fun _ => cs.lastChaincodeInfo.ibcPolicy) cs

/-- The only verifier that asks the MSP's own policy. -/
def verifyMSPUpdateConfig (cs : ClientState) : MSPHeader → Result Unit :=
  verifyExistingMSP F (fun mi => mi.policy.getD []) cs

def verifyMSPFreeze (cs : ClientState) : MSPHeader → Result Unit :=
  verifyExistingMSP F (fun _ => cs.lastChaincodeInfo.ibcPolicy) cs

/-- `VerifyMSPHeader`. -/
def verifyMSPHeader (cs : ClientState) (mh : MSPHeader) : Result Unit :=
  match mh.type with
  | .create => verifyMSPCreate F cs mh
  | .updatePolicy => verifyMSPUpdatePolicy F cs mh
  | .updateConfig => verifyMSPUpdateConfig F cs mh
  | .freeze => verifyMSPFreeze F cs mh
  | .unrecognized _ _ => .err (.new "invalid type")

/-- `VerifyMSPHeaders`: every header against the same client state. -/
def verifyMSPHeaders (cs : ClientState) (mhs : MSPHeaders) : Result Unit :=
  Outcome.forEach (verifyMSPHeader F cs) mhs.headers

end Verification

/-! ## Checking a header (`update.go`) -/

section Check

variable (F : Fabric)

/-- `sdkerrors.Wrap(clienttypes.ErrInvalidHeader, err.Error())`. -/
def wrapInvalidHeader (e : Error) : Error := .wrap .invalidHeader e

/-- The block of `checkValidity` about the `ChaincodeHeader`. -/
def checkChaincodeHeader (cs : ClientState) (ch : ChaincodeHeader) : Result Unit :=
  if ch.sequence.timestamp ≤ cs.getLatestTimestamp then
    .err (wrapInvalidHeader (.errorf "header blocktime ≤ latest client state block time (%v ≤ %v)"
      [.int ch.sequence.timestamp.toInt, .int cs.getLatestTimestamp.toInt]))
  else
    -- the successor is taken in `uint64`
    let lh := cs.getLatestHeight
    if (⟨0, ch.sequence.value⟩ : Height) ≠ ⟨lh.revisionNumber, lh.revisionHeight + 1⟩ then
      .err (wrapInvalidHeader
        (.errorf "header sequence != expected client state sequence (%d != %d)"
          [.sequence ch.sequence.value ch.sequence.timestamp,
            .int (lh.revisionHeight + 1).toNat]))
    else (verifyChaincodeHeader F cs ch).mapErr wrapInvalidHeader

/-- The block of `checkValidity` about the `ChaincodeInfo`. -/
def checkChaincodeInfo (cs : ClientState) (ci : ChaincodeInfo) : Result Unit :=
  if ci.endorsementPolicy.length = 0 then
    .err (wrapInvalidHeader (.new "ChaincodeInfo.EndorsementPolicy must be non-empty value"))
  else (verifyChaincodeInfo F cs ci).mapErr wrapInvalidHeader

/-- `checkValidity`: all parts are checked against the client state before the header. -/
def checkValidity (cs : ClientState) (header : Header) : Result Unit := do
  header.validateBasic.mapErr wrapInvalidHeader
  ifPresent header.chaincodeHeader (checkChaincodeHeader F cs)
  ifPresent header.chaincodeInfo (checkChaincodeInfo F cs)
  ifPresent header.mspHeaders fun mhs => (verifyMSPHeaders F cs mhs).mapErr wrapInvalidHeader

end Check

/-! ## Applying a header (`update.go`) -/

/-- The loop of `createMSPInfo`, with its flag `appended`. -/
def insertMSPInfo (new : MSPInfo) (appended : Bool) : List MSPInfo → List MSPInfo
  -- behind the loop: append unless inserted before
  | [] => if appended then [] else [new]
  | info :: rest =>
    if !appended && compareMSPID new.mspID info.mspID == .lt then
      new :: info :: insertMSPInfo new true rest
    else info :: insertMSPInfo new appended rest

def ClientState.withInfos (cs : ClientState) (infos : List MSPInfo) : ClientState :=
  { cs with lastMspInfos := ⟨infos⟩ }

def createMSPInfo (cs : ClientState) (mh : MSPHeader) : Result ClientState :=
  .ok (cs.withInfos
    (insertMSPInfo (newMSPInfo mh.mspID mh.config mh.policy) false cs.lastMspInfos.infos))

/-- `clientState.LastMspInfos.Infos[idx].Field = …` with `idx` from `IndexOf`. -/
def modifyMSPInfo (f : MSPInfo → MSPInfo) (cs : ClientState) (mspID : Bytes) :
    Result ClientState :=
  match cs.lastMspInfos.indexOf mspID with
  -- the index is `-1`
  | none => .panic .indexOutOfRange
  | some idx => .ok (cs.withInfos (cs.lastMspInfos.infos.modify idx f))

def updateMSPConfig (cs : ClientState) (mh : MSPHeader) : Result ClientState :=
  modifyMSPInfo (fun info => { info with config := mh.config }) cs mh.mspID

def updateMSPPolicy (cs : ClientState) (mh : MSPHeader) : Result ClientState :=
  modifyMSPInfo (fun info => { info with policy := mh.policy }) cs mh.mspID

def freezeMSPInfo (cs : ClientState) (mh : MSPHeader) : Result ClientState :=
  modifyMSPInfo (fun info => { info with freezed := true }) cs mh.mspID

def updateMSPInfo (cs : ClientState) (mh : MSPHeader) : Result ClientState :=
  match mh.type with
  | .create => createMSPInfo cs mh
  | .updatePolicy => updateMSPPolicy cs mh
  | .updateConfig => updateMSPConfig cs mh
  | .freeze => freezeMSPInfo cs mh
  -- not reached after a check: the verifier knows the same four types
  | .unrecognized _ _ => .panic (.explicit "invalid MSPHeaderType")

/-- The loop of `updateMSPInfos`. -/
def foldMSPHeaders (cs : ClientState) : List MSPHeader → Result ClientState
  | [] => .ok cs
  | mh :: rest => do
    let cs' ← updateMSPInfo cs mh
    foldMSPHeaders cs' rest

def updateMSPInfos (cs : ClientState) (mhs : MSPHeaders) : Result ClientState :=
  foldMSPHeaders cs mhs.headers

/-- The last block of `update`: nothing without `MSPHeaders`. -/
def updateMSPInfosIfPresent (cs : ClientState) (p : Option MSPHeaders) : Result ClientState :=
  match p with
  | none => .ok cs
  | some mhs => updateMSPInfos cs mhs

/-- `update`; the consensus state is nil when the header has no `ChaincodeHeader`. -/
def update (cs : ClientState) (header : Header) : Result (ClientState × Option ConsensusState) :=
  match header.validateBasic with
  -- `panic(err.Error())`; every error of `ValidateBasic` is made by `errors.New`
  | .err e => .panic (.explicit e.text)
  | .panic p => .panic p
  | .ok _ => do
    let cs := { cs with
      lastChaincodeInfo := header.chaincodeInfo.getD cs.lastChaincodeInfo
      lastChaincodeHeader := header.chaincodeHeader.getD cs.lastChaincodeHeader }
    let consensusState := header.chaincodeHeader.map fun ch =>
      (⟨ch.sequence.timestamp⟩ : ConsensusState)
    -- the MSPs come last, on the state with the new info and header
    let cs ← updateMSPInfosIfPresent cs header.mspHeaders
    .ok (cs, consensusState)

/-- `CheckHeaderAndUpdateState`. -/
def checkHeaderAndUpdateState (F : Fabric) (cs : ClientState) (header : HeaderI) :
    Result (ClientState × Option ConsensusState) :=
  match header with
  | .other => .err (.wrap .invalidHeader (.new "header is not from Fabric"))
  | .fabric fabHeader => do
    checkValidity F cs fabHeader
    update cs fabHeader

end FabricIBC
