import FabricIBC.LightClient.LifeCycle

/-!
# Fabric-IBC — light client: when verification panics

The verifiers index parallel lists, dereference a pointer of a decoded message
and assert the type of a policy. A relayer chooses most of what they work on,
and some of it is used before a signature is checked. This module says exactly
on which inputs they panic (`verification_panic_free_iff`): the conditions are

* `SafePolicy` — policy bytes that decode hold a signature policy;
* at least as many identities as signatures;
* a payload whose endorsements satisfy the policy names its chaincode, and its
  namespace index is in range.

`CommitmentProof.validateBasic` checks the second one, but no verifier calls it.
-/

namespace FabricIBC

open Go

/-! ## The partial operations -/

section Operations

variable {F : Fabric}

/-- Policy bytes that decode hold a signature policy. -/
def SafePolicy (F : Fabric) (policy : Bytes) : Prop :=
  ∀ ap, F.unmarshalApplicationPolicy policy = .ok ap → ∃ p, ap = some (.signaturePolicy p)

theorem setupVerifyingMSPManager_not_panics (configs : List F.MSPConfig) :
    ¬ (setupVerifyingMSPManager F configs).Panics := by
  have hmsps : ¬ (setupVerifyingMSPs F configs).Panics := by
    induction configs with
    | nil => simp [setupVerifyingMSPs]
    | cons config configs ih => simp [setupVerifyingMSPs, setupVerifyingMSP, ih,
        Outcome.panics_bind_iff]
  simp [setupVerifyingMSPManager, Outcome.panics_bind_iff, hmsps]

theorem pbConfigs_not_panics (infos : List MSPInfo) : ¬ (MSPInfos.pbConfigs F infos).Panics := by
  induction infos with
  | nil => simp [MSPInfos.pbConfigs]
  | cons info infos ih =>
    rw [MSPInfos.pbConfigs]
    split
    · exact ih
    · split
      · simp
      · simp [Outcome.panics_bind_iff, ih]

theorem getMSPPBConfigs_not_panics (mi : MSPInfos) : ¬ (mi.getMSPPBConfigs F).Panics :=
  pbConfigs_not_panics mi.infos

theorem getPolicyEvaluator_panics_iff {policy : Bytes} {configs : List F.MSPConfig} :
    (getPolicyEvaluator F policy configs).Panics ↔ ¬ SafePolicy F policy := by
  have hmgr := setupVerifyingMSPManager_not_panics configs
  simp only [getPolicyEvaluator, Outcome.panics_bind_iff, Outcome.not_panics_ofExcept, hmgr,
    Outcome.ofExcept_eq_ok_iff, SafePolicy, false_or, and_false, exists_false, or_false,
    not_forall, not_exists]
  constructor
  · rintro ⟨ap, hap, hpanic⟩
    refine ⟨ap, hap, fun p heq => ?_⟩
    subst heq
    simp [assertSignaturePolicy] at hpanic
  · rintro ⟨ap, hap, hne⟩
    refine ⟨ap, hap, ?_⟩
    rcases ap with _ | (p | r)
    · simp [assertSignaturePolicy]
    · exact absurd rfl (hne p)
    · simp [assertSignaturePolicy]

theorem signedDataLoop_panics_iff {data : Bytes → Bytes} {identities signatures : List Bytes} :
    (signedDataLoop data identities signatures).Panics ↔ identities.length < signatures.length := by
  induction signatures generalizing identities with
  | nil => cases identities <;> simp [signedDataLoop]
  | cons s signatures ih =>
    cases identities with
    | nil => simp [signedDataLoop]
    | cons i identities => simp [signedDataLoop, Outcome.panics_bind_iff, ih]

/-- The conditions under which a governance proof can be evaluated. -/
def SafeMessage (F : Fabric) (policy : Bytes) (configs : List F.MSPConfig) (proof : MessageProof) :
    Prop :=
  SafePolicy F policy ∧
  ∀ p, getPolicyEvaluator F policy configs = .ok p →
    proof.signatures.length ≤ proof.identities.length

theorem verifyEndorsedMessage_panics_iff {policy value : Bytes} {proof : MessageProof}
    {configs : List F.MSPConfig} :
    (verifyEndorsedMessage F policy proof value configs).Panics ↔
      ¬ SafeMessage F policy configs proof := by
  simp only [verifyEndorsedMessage, Outcome.panics_bind_iff, getPolicyEvaluator_panics_iff,
    makeSignedDataListWithMessageProof, signedDataLoop_panics_iff, Outcome.not_panics_ofExcept,
    and_false, exists_false, or_false, SafeMessage, not_and_or, not_forall, not_le, exists_prop]

theorem getTxReadWriteSet_not_panics (proposal : Bytes) :
    ¬ (getTxReadWriteSetFromProposalResponsePayload F proposal).Panics := by
  simp [getTxReadWriteSetFromProposalResponsePayload, Outcome.panics_bind_iff]

theorem ensureWriteSetIncludesCommitment_panics_iff {set : List NsRwSet} {nsIdx rwsIdx : UInt32}
    {key value : Bytes} :
    (ensureWriteSetIncludesCommitment set nsIdx rwsIdx key value).Panics ↔
      set.length ≤ nsIdx.toNat := by
  unfold ensureWriteSetIncludesCommitment
  cases hns : set[nsIdx.toNat]? with
  | none => simpa using hns
  | some ns =>
    have hlt : nsIdx.toNat < set.length := (List.getElem?_eq_some_iff.mp hns).1
    cases hw : ns.writes[rwsIdx.toNat]? with
    | none => simp [hw, hlt]
    | some w => by_cases hkey : key = w.key <;> simp [hw, hkey, hlt]

/-- The conditions under which a commitment proof can be evaluated. -/
def SafeCommitment (F : Fabric) (ccID : ChaincodeID) (policy : Bytes) (configs : List F.MSPConfig)
    (proof : CommitmentProof) : Prop :=
  SafePolicy F policy ∧
  ∀ p, getPolicyEvaluator F policy configs = .ok p →
    proof.signatures.length ≤ proof.identities.length ∧
    ∀ sigs, proof.toSignedData = .ok sigs → F.evaluateSignedData p sigs = .ok () →
      ∀ id rwset, getTxReadWriteSetFromProposalResponsePayload F proof.proposal = .ok (id, rwset) →
        id ≠ none ∧ (id = some ccID → proof.nsIndex.toNat < rwset.length)

theorem verifyEndorsedCommitment_panics_iff {ccID : ChaincodeID} {policy key value : Bytes}
    {proof : CommitmentProof} {configs : List F.MSPConfig} :
    (verifyEndorsedCommitment F ccID policy proof key value configs).Panics ↔
      ¬ SafeCommitment F ccID policy configs proof := by
  simp only [verifyEndorsedCommitment, Outcome.panics_bind_iff, getPolicyEvaluator_panics_iff,
    CommitmentProof.toSignedData, signedDataLoop_panics_iff, Outcome.not_panics_ofExcept,
    Outcome.ofExcept_eq_ok_iff, getTxReadWriteSet_not_panics, false_or, SafeCommitment,
    not_and_or, not_forall, not_le, exists_prop]
  constructor
  · rintro (h | ⟨p, hp, h | ⟨sigs, hsigs, _, heval, ⟨id, rwset⟩, hset, h⟩⟩)
    · exact Or.inl h
    · exact Or.inr ⟨p, hp, Or.inl h⟩
    · refine Or.inr ⟨p, hp, Or.inr ⟨sigs, hsigs, heval, id, rwset, hset, ?_⟩⟩
      -- the last two lines of the source, on a decoded payload
      cases id with
      | none => exact Or.inl fun hne => hne rfl
      | some id =>
        right
        by_cases hid : ccID = id
        · subst hid
          simpa [equalChaincodeID_eq_true_iff.mpr, ensureWriteSetIncludesCommitment_panics_iff]
            using h
        · have hne : equalChaincodeID ccID id = false := by
            rw [← Bool.not_eq_true, equalChaincodeID_eq_true_iff]
            exact hid
          simp [hne] at h
  · rintro (h | ⟨p, hp, h | ⟨sigs, hsigs, heval, id, rwset, hset, h⟩⟩)
    · exact Or.inl h
    · exact Or.inr ⟨p, hp, Or.inl h⟩
    · refine Or.inr ⟨p, hp, Or.inr ⟨sigs, hsigs, (), heval, (id, rwset), hset, ?_⟩⟩
      rcases h with hnone | ⟨rfl, hrange⟩
      · obtain rfl := not_not.mp hnone
        simp
      · simpa [equalChaincodeID_eq_true_iff.mpr, ensureWriteSetIncludesCommitment_panics_iff]
          using hrange

end Operations

/-! ## Proof verification -/

namespace ClientState

/-- The proof can be evaluated by the client, if it gets to that. -/
def SafeProof (F : Fabric) (cs : ClientState) (proof : CommitmentProof) : Prop :=
  ∀ configs, cs.lastMspInfos.getMSPPBConfigs F = .ok configs →
    SafeCommitment F cs.lastChaincodeInfo.chaincodeId cs.lastChaincodeInfo.endorsementPolicy configs
      proof

/-- The signatures can be evaluated by the client under a policy, if it gets to that. -/
def SafeSignatures (F : Fabric) (cs : ClientState) (policy : Bytes) (proof : MessageProof) : Prop :=
  ∀ configs, cs.lastMspInfos.getMSPPBConfigs F = .ok configs → SafeMessage F policy configs proof

end ClientState

/-- The proof bytes of the call, if they get past the argument checks, hold a
proof that can be evaluated. -/
def VerifyArgs.Safe (F : Fabric) (C : Codec) (cs : ClientState) (args : VerifyArgs) : Prop :=
  ∀ proof cons,
    produceVerificationArgs C args.store cs args.height args.pfx args.proof = .ok (proof, cons) →
    cs.SafeProof F proof

section Verify

variable {F : Fabric} {C : Codec} {cs : ClientState}

theorem commitmentProof_unmarshal_not_panics (bz : Bytes) :
    ¬ (CommitmentProof.unmarshal bz).Panics :=
  (CommitmentProof.reader.unmarshal_safe .zero bz).not_panics

theorem getConsensusState_not_panics (store : ClientStore) (height : Height) :
    ¬ (getConsensusState C store height).Panics := by
  unfold getConsensusState
  split
  · simp
  · split <;> simp

theorem produceVerificationArgs_not_panics (store : ClientStore) (height : Height) (pfx : PrefixI)
    (proof : Option Bytes) : ¬ (produceVerificationArgs C store cs height pfx proof).Panics := by
  unfold produceVerificationArgs
  split_ifs
  · simp
  · simp
  · cases pfx with
    | nil => simp
    | other b => simp
    | merkle b =>
      cases proof with
      | none => simp
      | some bz => simp [Outcome.panics_bind_iff, commitmentProof_unmarshal_not_panics,
          getConsensusState_not_panics]

/-- Looking up an endorsed entry under the policy in force. -/
theorem endorsedCommitment_panics_iff {proof : CommitmentProof} {key value : Bytes} {e : Error} :
    (do
      let configs ← cs.lastMspInfos.getMSPPBConfigs F
      let ok ← verifyEndorsedCommitment F cs.lastChaincodeInfo.getFabricChaincodeID
        cs.lastChaincodeInfo.endorsementPolicy proof key value configs
      if ok then .ok () else .err e : Result Unit).Panics ↔ ¬ cs.SafeProof F proof := by
  simp only [Outcome.panics_bind_iff, getMSPPBConfigs_not_panics, false_or,
    verifyEndorsedCommitment_panics_iff, ClientState.SafeProof, not_forall, exists_prop]
  -- the comparison at the end ends in a result or an error
  have hlast : ∀ ok : Bool, ¬ (if ok = true then .ok () else .err e : Result Unit).Panics := by
    intro ok
    cases ok <;> simp
  simp only [hlast, and_false, exists_false, or_false]
  rfl

theorem verifyMembership_panics_iff {args : VerifyArgs} {key : Bytes → Bytes}
    {value : Result Bytes} (hvalue : ¬ value.Panics) :
    ¬ (verifyMembership F C cs args key value).Panics ↔
      ((∃ bz, value = .ok bz) → args.Safe F C cs) := by
  unfold verifyMembership
  simp only [Outcome.panics_bind_iff (x := produceVerificationArgs _ _ _ _ _ _),
    produceVerificationArgs_not_panics, false_or, Outcome.panics_bind_iff (x := value), hvalue,
    endorsedCommitment_panics_iff, VerifyArgs.Safe]
  constructor
  · rintro h ⟨bz, hbz⟩ proof cons hargs
    by_contra hsafe
    exact h ⟨(proof, cons), hargs, bz, hbz, hsafe⟩
  · rintro h ⟨⟨proof, cons⟩, hargs, bz, hbz, hsafe⟩
    exact hsafe (h ⟨bz, hbz⟩ proof cons hargs)

end Verify

/-! ## Headers -/

section Headers

variable {F : Fabric} {cs : ClientState}

theorem ifPresent_panics_iff {α : Type} {p : Option α} {f : α → Result Unit} :
    (ifPresent p f).Panics ↔ ∃ a, p = some a ∧ (f a).Panics := by
  cases p <;> simp [ifPresent]

theorem validateLoop_not_panics (seen : List Bytes) (prevID : Bytes) (headers : List MSPHeader) :
    ¬ (MSPHeaders.validateLoop seen prevID headers).Panics := by
  induction headers generalizing seen prevID with
  | nil => simp [MSPHeaders.validateLoop]
  | cons mh headers ih =>
    have hbasic : ¬ mh.validateBasic.Panics := by
      unfold MSPHeader.validateBasic
      split_ifs <;> simp
    rw [MSPHeaders.validateLoop, Outcome.panics_check_bind_iff]
    rintro (h | ⟨-, h⟩)
    · exact hbasic h
    · split_ifs at h
      · simp at h
      · simp at h
      · exact ih _ _ h

theorem header_validateBasic_not_panics (h : Header) : ¬ h.validateBasic.Panics := by
  obtain ⟨ch, ci, mhs⟩ := h
  cases ch <;> cases ci <;> cases mhs <;>
    simp [Header.validateBasic, ifPresent, ChaincodeHeader.validateBasic,
      ChaincodeInfo.validateBasic, MSPHeaders.validateBasic, validateLoop_not_panics]

theorem checkChaincodeHeader_panics_iff {ch : ChaincodeHeader} :
    (checkChaincodeHeader F cs ch).Panics ↔
      cs.getLatestTimestamp < ch.sequence.timestamp ∧
      ch.sequence.value = cs.getLatestHeight.revisionHeight + 1 ∧ ¬ cs.SafeProof F ch.proof := by
  have hrev : cs.getLatestHeight.revisionNumber = 0 := rfl
  unfold checkChaincodeHeader
  by_cases htime : ch.sequence.timestamp ≤ cs.getLatestTimestamp
  · simp [htime, Int64.not_lt.mpr htime]
  · by_cases hval : ch.sequence.value = cs.getLatestHeight.revisionHeight + 1
    · simp [htime, hval, hrev, Int64.not_le.mp htime, verifyChaincodeHeader,
        endorsedCommitment_panics_iff]
    · simp [htime, hval, hrev]

theorem signedMessage_panics_iff {policy message : Bytes} {proof : MessageProof} :
    (do
      let configs ← cs.lastMspInfos.getMSPPBConfigs F
      verifyEndorsedMessage F policy proof message configs : Result Unit).Panics ↔
      ¬ cs.SafeSignatures F policy proof := by
  simp only [Outcome.panics_bind_iff, getMSPPBConfigs_not_panics, false_or,
    verifyEndorsedMessage_panics_iff, ClientState.SafeSignatures, not_forall, exists_prop]

theorem checkChaincodeInfo_panics_iff {ci : ChaincodeInfo} :
    (checkChaincodeInfo F cs ci).Panics ↔
      ci.endorsementPolicy ≠ [] ∧ ∃ proof, ci.proof = some proof ∧
        ¬ cs.SafeSignatures F cs.lastChaincodeInfo.ibcPolicy proof := by
  unfold checkChaincodeInfo verifyChaincodeInfo
  by_cases hpol : ci.endorsementPolicy = []
  · simp [hpol]
  · cases hproof : ci.proof with
    | none => simp [hpol]
    | some proof => simp [hpol, signedMessage_panics_iff]

theorem verifyExistingMSP_panics_iff {policy : MSPInfo → Bytes} {mh : MSPHeader} {required : Bytes}
    (hpolicy : ∀ info, cs.registry mh.mspID = some info → policy info = required) :
    (verifyExistingMSP F policy cs mh).Panics ↔
      ∃ proof, mh.proof = some proof ∧
        (∃ info, cs.registry mh.mspID = some info ∧ info.freezed = false) ∧
        ¬ cs.SafeSignatures F required proof := by
  have hreg : cs.lastMspInfos.registry = cs.registry := rfl
  unfold verifyExistingMSP verifyMSPMessage
  cases hproof : mh.proof with
  | none => simp
  | some proof =>
    simp only [findMSPInfo_eq, hreg]
    cases hinfo : cs.registry mh.mspID with
    | none => simp
    | some info =>
      cases hfr : info.freezed <;> simp [hfr, hpolicy info hinfo, signedMessage_panics_iff]

theorem verifyMSPCreate_panics_iff {mh : MSPHeader} :
    (verifyMSPCreate F cs mh).Panics ↔
      ∃ proof, mh.proof = some proof ∧ cs.registry mh.mspID = none ∧
        ¬ cs.SafeSignatures F cs.lastChaincodeInfo.ibcPolicy proof := by
  have hnone : cs.registry mh.mspID = none ↔ cs.lastMspInfos.hasMSPID mh.mspID = false :=
    hasMSPID_eq_false_iff.symm
  unfold verifyMSPCreate verifyMSPMessage
  cases hproof : mh.proof with
  | none => simp
  | some proof =>
    cases hhas : cs.lastMspInfos.hasMSPID mh.mspID <;>
      simp [hnone, hhas, signedMessage_panics_iff]

theorem verifyMSPHeader_panics_iff {mh : MSPHeader} :
    (verifyMSPHeader F cs mh).Panics ↔
      ∃ proof, mh.proof = some proof ∧ mh.Enabled cs.registry ∧
        ¬ cs.SafeSignatures F (mh.requiredPolicy cs) proof := by
  unfold verifyMSPHeader MSPHeader.Enabled MSPHeader.requiredPolicy
  cases htype : mh.type with
  | create => exact verifyMSPCreate_panics_iff
  | updatePolicy => exact verifyExistingMSP_panics_iff fun _ _ => rfl
  | updateConfig =>
    -- the record that names the policy is the one `Enabled` speaks of
    refine verifyExistingMSP_panics_iff fun info hinfo => ?_
    rw [hinfo]
    rfl
  | freeze => exact verifyExistingMSP_panics_iff fun _ _ => rfl
  | unrecognized code h => simp

/-- The exact condition on a header, following the checks in their order: each
part is evaluated only when the checks before it have passed. -/
def Header.Safe (F : Fabric) (cs : ClientState) (h : Header) : Prop :=
  h.validateBasic = .ok () →
    (∀ ch, h.chaincodeHeader = some ch → cs.getLatestTimestamp < ch.sequence.timestamp →
      ch.sequence.value = cs.getLatestHeight.revisionHeight + 1 → cs.SafeProof F ch.proof) ∧
    ((∀ ch, h.chaincodeHeader = some ch → ch.Acceptable F cs) →
      (∀ ci proof, h.chaincodeInfo = some ci → ci.endorsementPolicy ≠ [] → ci.proof = some proof →
        cs.SafeSignatures F cs.lastChaincodeInfo.ibcPolicy proof) ∧
      ((∀ ci, h.chaincodeInfo = some ci → ci.Acceptable F cs) →
        ∀ pre mh post proof, h.batch = pre ++ mh :: post → (∀ m ∈ pre, m.Authorised F cs) →
          mh.proof = some proof → mh.Enabled cs.registry →
          cs.SafeSignatures F (mh.requiredPolicy cs) proof))

theorem verifyMSPHeaders_panics_iff {h : Header} :
    (ifPresent h.mspHeaders fun mhs =>
      (verifyMSPHeaders F cs mhs).mapErr wrapInvalidHeader).Panics ↔
      ∃ pre mh post, h.batch = pre ++ mh :: post ∧ (∀ m ∈ pre, m.Authorised F cs) ∧
        (verifyMSPHeader F cs mh).Panics := by
  unfold Header.batch verifyMSPHeaders
  cases h.mspHeaders with
  | none => simp [ifPresent]
  | some mhs =>
    simp only [ifPresent, Outcome.panics_mapErr_iff, Outcome.panics_forEach_iff,
      verifyMSPHeader_eq_ok_iff]

theorem checkValidity_panics_iff {h : Header} :
    ¬ (checkValidity F cs h).Panics ↔ h.Safe F cs := by
  simp only [checkValidity, Outcome.panics_check_bind_iff, verifyMSPHeaders_panics_iff,
    verifyMSPHeader_panics_iff]
  simp only [Outcome.panics_mapErr_iff, header_validateBasic_not_panics, false_or,
    Outcome.mapErr_eq_ok_iff, ifPresent_eq_ok_iff, checkChaincodeHeader_eq_ok_iff,
    checkChaincodeInfo_eq_ok_iff, ifPresent_panics_iff, checkChaincodeHeader_panics_iff,
    checkChaincodeInfo_panics_iff, Header.Safe]
  constructor
  · intro hno hbasic
    refine ⟨?_, fun hch => ⟨?_, fun hci => ?_⟩⟩
    · intro ch hch htime hval
      by_contra hunsafe
      exact hno ⟨hbasic, Or.inl ⟨ch, hch, htime, hval, hunsafe⟩⟩
    · intro ci proof hci hpol hproof
      by_contra hunsafe
      exact hno ⟨hbasic, Or.inr ⟨hch, Or.inl ⟨ci, hci, hpol, proof, hproof, hunsafe⟩⟩⟩
    · intro pre mh post proof hsplit hpre hproof hen
      by_contra hunsafe
      exact hno ⟨hbasic, Or.inr ⟨hch, Or.inr ⟨hci, pre, mh, post, hsplit, hpre, proof, hproof, hen,
        hunsafe⟩⟩⟩
  · rintro hsafe ⟨hbasic, ⟨ch, hch, htime, hval, hunsafe⟩ | ⟨hch, ⟨ci, hci, hpol, proof, hproof,
      hunsafe⟩ | ⟨hci, pre, mh, post, hsplit, hpre, proof, hproof, hen, hunsafe⟩⟩⟩
    · exact hunsafe ((hsafe hbasic).1 ch hch htime hval)
    · exact hunsafe (((hsafe hbasic).2 hch).1 ci proof hci hpol hproof)
    · exact hunsafe (((hsafe hbasic).2 hch).2 hci pre mh post proof hsplit hpre hproof hen)

/-- After a successful check the update does not panic, from any client state. -/
theorem checkHeaderAndUpdateState_panics_iff {h : Header} :
    ¬ (checkHeaderAndUpdateState F cs (.fabric h)).Panics ↔ h.Safe F cs := by
  rw [← checkValidity_panics_iff, checkHeaderAndUpdateState, Outcome.panics_check_bind_iff, not_or]
  refine ⟨fun hno => hno.1, fun hno => ⟨hno, ?_⟩⟩
  -- an accepted header finds every index it writes to
  rintro ⟨hcheck, hpanic⟩
  obtain ⟨cs', hupd, -⟩ := update_of_acceptable (checkValidity_eq_ok_iff.mp hcheck)
  rw [hupd] at hpanic
  exact absurd hpanic (by simp)

end Headers

/-- **When verification panics.** For every client state, each of the nine entry
points returns a result or an error exactly on the inputs that are safe; the
update that follows a successful check never panics. The values that are
marshalled first are refused, if they do not marshal, before the proof is looked
at. -/
theorem verification_panic_free_iff (F : Fabric) (C : Codec) (cs : ClientState) :
    (∀ header, ¬ (checkHeaderAndUpdateState F cs header).Panics ↔
      ∀ h, header = .fabric h → h.Safe F cs) ∧
    (∀ args clientID v, ¬ (verifyClientState F C cs args clientID v).Panics ↔
      ((∃ s bz, v = some s ∧ C.clientState.marshal s = .ok bz) → args.Safe F C cs)) ∧
    (∀ args clientID height v,
      ¬ (verifyClientConsensusState F C cs args clientID height v).Panics ↔
      ((∃ s bz, v = some s ∧ C.consensusState.marshal s = .ok bz) → args.Safe F C cs)) ∧
    (∀ args connectionID v, ¬ (verifyConnectionState F C cs args connectionID v).Panics ↔
      ((∃ c bz, v = some c ∧ C.connection.marshal c = .ok bz) → args.Safe F C cs)) ∧
    (∀ args portID channelID v, ¬ (verifyChannelState F C cs args portID channelID v).Panics ↔
      ((∃ c bz, v = some c ∧ C.channel.marshal c = .ok bz) → args.Safe F C cs)) ∧
    (∀ args portID channelID sequence commitment,
      ¬ (verifyPacketCommitment F C cs args portID channelID sequence commitment).Panics ↔
      args.Safe F C cs) ∧
    (∀ args portID channelID sequence ack,
      ¬ (verifyPacketAcknowledgement F C cs args portID channelID sequence ack).Panics ↔
      args.Safe F C cs) ∧
    (∀ args portID channelID sequence,
      ¬ (verifyPacketReceiptAbsence F C cs args portID channelID sequence).Panics ↔
      args.Safe F C cs) ∧
    (∀ args portID channelID next,
      ¬ (verifyNextSequenceRecv F C cs args portID channelID next).Panics ↔ args.Safe F C cs) := by
  refine ⟨?_, ?_, ?_, ?_, ?_, ?_, ?_, ?_, ?_⟩
  · intro header
    cases header with
    | other => simp [checkHeaderAndUpdateState]
    | fabric h => simp [checkHeaderAndUpdateState_panics_iff]
  · intro args clientID v
    cases v <;> simp [verifyClientState, verifyMembership_panics_iff, Outcome.ofExcept_eq_ok_iff]
  · intro args clientID height v
    cases v <;>
      simp [verifyClientConsensusState, verifyMembership_panics_iff, Outcome.ofExcept_eq_ok_iff]
  · intro args connectionID v
    cases v <;> simp [verifyConnectionState, verifyMembership_panics_iff, Outcome.ofExcept_eq_ok_iff]
  · intro args portID channelID v
    cases v <;> simp [verifyChannelState, verifyMembership_panics_iff, Outcome.ofExcept_eq_ok_iff]
  all_goals
    intros
    simp [verifyPacketCommitment, verifyPacketAcknowledgement, verifyPacketReceiptAbsence,
      verifyNextSequenceRecv, verifyMembership_panics_iff]

namespace Symbolic

/-- An endorsement by `Org1` of a given payload. -/
def endorsePayload (payload : Bytes) (nsIndex : UInt32) : CommitmentProof :=
  ⟨payload, nsIndex, 0, [org1], [sign org1 (payload ++ org1)]⟩

/-- A valid client whose endorsement policy refers to a policy of the channel. -/
def referenceClient : ClientState :=
  { client with
    lastChaincodeInfo :=
      { info with endorsementPolicy := Wire.bytesField 0x12 (str "/Channel/Application") } }

end Symbolic

open Symbolic in
/-- Inputs that make valid clients panic: a signature without an identity, in a
commitment proof and in a governance proof; an endorsed payload without a
chaincode id; a namespace index out of range; and a client whose policy is not a
signature policy. -/
theorem verification_panics :
    client.validate codec = .ok () ∧ referenceClient.validate codec = .ok () ∧
    verifyPacketCommitment fabric codec client (argsFor ⟨[], 0, 0, [], [[1]]⟩) (str "port")
      (str "channel") 1 [] = .panic .indexOutOfRange ∧
    checkHeaderAndUpdateState fabric client
      (.fabric ⟨none, some { info with proof := some ⟨[], [[1]]⟩ }, none⟩) =
        .panic .indexOutOfRange ∧
    verifyPacketCommitment fabric codec client
      (argsFor (endorsePayload (encodePayload none [⟨cc.name, []⟩]) 0)) (str "port")
      (str "channel") 1 [] = .panic .nilDereference ∧
    verifyPacketCommitment fabric codec client
      (argsFor (endorsePayload (encodePayload (some cc) [⟨cc.name, []⟩]) 1)) (str "port")
      (str "channel") 1 [] = .panic .indexOutOfRange ∧
    verifyPacketCommitment fabric codec referenceClient (argsFor ⟨[], 0, 0, [], []⟩) (str "port")
      (str "channel") 1 [] = .panic .typeAssertion := by
  decide +kernel

end FabricIBC
