import FabricIBC.LightClient.Registry
import FabricIBC.LightClient.Membership

/-!
# Fabric-IBC — light client: what acceptance means

One specification for each verifying function: when it succeeds, in terms of
what the client state holds. Later modules never unfold the verifiers.

* `Satisfies` — a list of signatures satisfies a policy under some MSP configs;
* `ClientState.Signed` — a governance message carries signatures to the
  satisfaction of a policy, under the configs in force;
* `ClientState.Endorsed` — a proof shows a write endorsed to the satisfaction
  of the endorsement policy in force, by the chaincode of the client;
* `verifyMembership_eq_ok_iff` — the eight `Verify*` functions;
* `checkValidity_eq_ok_iff` — a header is accepted exactly when it is
  `Acceptable`.
-/

namespace FabricIBC

open Go

/-! ## Signatures and policies -/

section Signatures

variable (F : Fabric)

/-- The signatures satisfy the policy. -/
def Satisfies (policy : Bytes) (configs : List F.MSPConfig) (sigs : List SignedData) : Prop :=
  ∃ p, getPolicyEvaluator F policy configs = .ok p ∧ F.evaluateSignedData p sigs = .ok ()

theorem verifyEndorsedMessage_eq_ok_iff {policy value : Bytes} {proof : MessageProof}
    {configs : List F.MSPConfig} :
    verifyEndorsedMessage F policy proof value configs = .ok () ↔
      ∃ sigs, makeSignedDataListWithMessageProof proof value = .ok sigs ∧
        Satisfies F policy configs sigs := by
  simp only [verifyEndorsedMessage, Outcome.bind_eq_ok_iff, Outcome.ofExcept_eq_ok_iff, Satisfies]
  constructor
  · rintro ⟨p, hp, sigs, hsigs, heval⟩
    exact ⟨sigs, hsigs, p, hp, heval⟩
  · rintro ⟨sigs, hsigs, p, hp, heval⟩
    exact ⟨p, hp, sigs, hsigs, heval⟩

/-- A policy that can be asked at all: it decodes to a signature policy, and
the MSPs can be set up. -/
theorem getPolicyEvaluator_eq_ok_iff {policy : Bytes} {configs : List F.MSPConfig}
    {p : F.Policy} :
    getPolicyEvaluator F policy configs = .ok p ↔
      ∃ sigp mgr, F.unmarshalApplicationPolicy policy = .ok (some (.signaturePolicy sigp)) ∧
        setupVerifyingMSPManager F configs = .ok mgr ∧ F.newPolicy mgr sigp = .ok p := by
  simp only [getPolicyEvaluator, Outcome.bind_eq_ok_iff, Outcome.ofExcept_eq_ok_iff]
  constructor
  · rintro ⟨ap, hap, sigp, hsigp, mgr, hmgr, hp⟩
    rcases ap with _ | (sigp' | _) <;> simp [assertSignaturePolicy] at hsigp
    subst hsigp
    exact ⟨sigp', mgr, hap, hmgr, hp⟩
  · rintro ⟨sigp, mgr, hap, hmgr, hp⟩
    exact ⟨_, hap, sigp, rfl, mgr, hmgr, hp⟩

end Signatures

theorem exists_forall₂_iff {α β : Type} {R : α → β → Prop} {l : List α} :
    (∃ l', List.Forall₂ R l l') ↔ ∀ a ∈ l, ∃ b, R a b := by
  induction l with
  | nil => simp
  | cons a l ih => simp [List.forall₂_cons_left_iff, ← ih]

/-- The configs in force: those of the MSPs that are not frozen, all of which decode. -/
theorem getMSPPBConfigs_eq_ok_iff {F : Fabric} {mi : MSPInfos} {configs : List F.MSPConfig} :
    mi.getMSPPBConfigs F = .ok configs ↔
      List.Forall₂ (fun info c => ∃ bz, info.config = some bz ∧ F.unmarshalMSPConfig bz = .ok c)
        (mi.infos.filter fun info => !info.freezed) configs := by
  unfold MSPInfos.getMSPPBConfigs
  induction mi.infos generalizing configs with
  | nil => cases configs <;> simp [MSPInfos.pbConfigs]
  | cons info infos ih =>
    rw [MSPInfos.pbConfigs]
    cases hfr : info.freezed with
    | true => simp [hfr, ih]
    | false =>
      rw [List.filter_cons_of_pos (by simp [hfr]), List.forall₂_cons_left_iff]
      cases hcfg : info.config with
      | none => simp
      | some bz =>
        simp only [Bool.false_eq_true, if_false, Outcome.bind_eq_ok_iff,
          Outcome.ofExcept_eq_ok_iff, ih, Outcome.ok.injEq]
        constructor
        · rintro ⟨c, hc, cs, hcs, rfl⟩
          exact ⟨c, cs, ⟨bz, rfl, hc⟩, hcs, rfl⟩
        · rintro ⟨c, cs, ⟨bz', hbz, hc⟩, hcs, rfl⟩
          cases hbz
          exact ⟨c, hc, cs, hcs, rfl⟩

/-! ## Endorsed writes -/

theorem equalChaincodeID_eq_true_iff {a b : ChaincodeID} : equalChaincodeID a b = true ↔ a = b := by
  cases a
  cases b
  simp only [equalChaincodeID, Bool.and_eq_true, beq_iff_eq, ChaincodeID.mk.injEq]
  tauto

/-- The proof shows the write `w`: its endorsements satisfy the policy, it
names the chaincode, and `w` stands at its position. -/
def EndorsedWrite (F : Fabric) (ccID : ChaincodeID) (policy : Bytes) (configs : List F.MSPConfig)
    (proof : CommitmentProof) (w : KVWrite) : Prop :=
  ∃ sigs rwset ns, proof.toSignedData = .ok sigs ∧ Satisfies F policy configs sigs ∧
    getTxReadWriteSetFromProposalResponsePayload F proof.proposal = .ok (some ccID, rwset) ∧
    rwset[proof.nsIndex.toNat]? = some ns ∧ ns.writes[proof.writeSetIndex.toNat]? = some w

theorem ensureWriteSetIncludesCommitment_eq_true_iff {set : List NsRwSet} {nsIdx rwsIdx : UInt32}
    {key value : Bytes} :
    ensureWriteSetIncludesCommitment set nsIdx rwsIdx key value = .ok true ↔
      ∃ ns w, set[nsIdx.toNat]? = some ns ∧ ns.writes[rwsIdx.toNat]? = some w ∧
        w.key = key ∧ w.value = value := by
  unfold ensureWriteSetIncludesCommitment
  cases hns : set[nsIdx.toNat]? with
  | none => simp
  | some ns =>
    cases hw : ns.writes[rwsIdx.toNat]? with
    | none => simp [hw]
    | some w =>
      by_cases hkey : key = w.key
      · simp [hw, hkey]
      · simp [hw, hkey, Ne.symm hkey]

theorem verifyEndorsedCommitment_eq_true_iff {F : Fabric} {ccID : ChaincodeID}
    {policy key value : Bytes} {proof : CommitmentProof} {configs : List F.MSPConfig} :
    verifyEndorsedCommitment F ccID policy proof key value configs = .ok true ↔
      ∃ w, EndorsedWrite F ccID policy configs proof w ∧ w.key = key ∧ w.value = value := by
  simp only [verifyEndorsedCommitment, Outcome.bind_eq_ok_iff, Outcome.ofExcept_eq_ok_iff,
    EndorsedWrite, Satisfies]
  constructor
  · rintro ⟨p, hp, sigs, hsigs, _, heval, ⟨id, rwset⟩, hset, hrest⟩
    -- only with the client's chaincode id is the write looked up
    cases id with
    | none => simp at hrest
    | some id =>
      by_cases hid : equalChaincodeID ccID id = true
      · obtain rfl := equalChaincodeID_eq_true_iff.mp hid
        simp only [hid, Bool.not_true, Bool.false_eq_true, if_false,
          ensureWriteSetIncludesCommitment_eq_true_iff] at hrest
        obtain ⟨ns, w, hns, hw, hkey, hvalue⟩ := hrest
        exact ⟨w, ⟨sigs, rwset, ns, hsigs, ⟨p, hp, heval⟩, hset, hns, hw⟩, hkey, hvalue⟩
      · simp [hid] at hrest
  · rintro ⟨w, ⟨sigs, rwset, ns, hsigs, ⟨p, hp, heval⟩, hset, hns, hw⟩, hkey, hvalue⟩
    refine ⟨p, hp, sigs, hsigs, (), heval, (some ccID, rwset), hset, ?_⟩
    have hid : equalChaincodeID ccID ccID = true := equalChaincodeID_eq_true_iff.mpr rfl
    simp only [hid, Bool.not_true, Bool.false_eq_true, if_false]
    exact ensureWriteSetIncludesCommitment_eq_true_iff.mpr ⟨ns, w, hns, hw, hkey, hvalue⟩

namespace ClientState

/-- The message was signed to the satisfaction of `policy` under the configs in force. -/
def Signed (F : Fabric) (cs : ClientState) (policy : Bytes) (proof : MessageProof)
    (message : Bytes) : Prop :=
  ∃ configs sigs, cs.lastMspInfos.getMSPPBConfigs F = .ok configs ∧
    makeSignedDataListWithMessageProof proof message = .ok sigs ∧ Satisfies F policy configs sigs

/-- The proof shows a write endorsed under the policy and the configs in force,
by the chaincode of the client. -/
def Endorsed (F : Fabric) (cs : ClientState) (proof : CommitmentProof) (w : KVWrite) : Prop :=
  ∃ configs, cs.lastMspInfos.getMSPPBConfigs F = .ok configs ∧
    EndorsedWrite F cs.lastChaincodeInfo.chaincodeId cs.lastChaincodeInfo.endorsementPolicy configs
      proof w

theorem signed_iff {F : Fabric} {cs : ClientState} {policy : Bytes} {proof : MessageProof}
    {message : Bytes} :
    cs.Signed F policy proof message ↔
      ∃ configs, cs.lastMspInfos.getMSPPBConfigs F = .ok configs ∧
        verifyEndorsedMessage F policy proof message configs = .ok () := by
  simp only [verifyEndorsedMessage_eq_ok_iff, Signed, exists_and_left]

theorem exists_endorsed_iff {F : Fabric} {cs : ClientState} {proof : CommitmentProof}
    {key value : Bytes} :
    (∃ w, cs.Endorsed F proof w ∧ w.key = key ∧ w.value = value) ↔
      ∃ configs, cs.lastMspInfos.getMSPPBConfigs F = .ok configs ∧
        verifyEndorsedCommitment F cs.lastChaincodeInfo.getFabricChaincodeID
          cs.lastChaincodeInfo.endorsementPolicy proof key value configs = .ok true := by
  simp only [verifyEndorsedCommitment_eq_true_iff, ChaincodeInfo.getFabricChaincodeID]
  constructor
  · rintro ⟨w, ⟨configs, hconfigs, hw⟩, hkey, hvalue⟩
    exact ⟨configs, hconfigs, w, hw, hkey, hvalue⟩
  · rintro ⟨configs, hconfigs, w, hw, hkey, hvalue⟩
    exact ⟨w, ⟨configs, hconfigs, hw⟩, hkey, hvalue⟩

end ClientState

/-- The arguments of a verification: a height the client knows, the prefix, and
a proof that decodes. -/
theorem produceVerificationArgs_eq_ok_iff {C : Codec} {store : ClientStore} {cs : ClientState}
    {height : Height} {pfx : PrefixI} {proof : Option Bytes} {p : CommitmentProof}
    {cons : ConsensusState} :
    produceVerificationArgs C store cs height pfx proof = .ok (p, cons) ↔
      cs.getLatestHeight.lt height = false ∧ (∃ b, pfx = .merkle b) ∧
      (∃ bz, proof = some bz ∧ CommitmentProof.unmarshal bz = .ok p) ∧
      getConsensusState C store height = .ok cons := by
  unfold produceVerificationArgs ClientState.isFrozen
  cases hlt : cs.getLatestHeight.lt height with
  | true => simp
  | false =>
    cases pfx with
    | nil => simp
    | other b => simp
    | merkle b =>
      cases proof with
      | none => simp
      | some bz => simp [Outcome.bind_eq_ok_iff, Outcome.mapErr_eq_ok_iff]

/-- What the eight verifications accept. -/
theorem verifyMembership_eq_ok_iff {F : Fabric} {C : Codec} {cs : ClientState} {args : VerifyArgs}
    {key : Bytes → Bytes} {value : Result Bytes} :
    verifyMembership F C cs args key value = .ok () ↔
      ∃ proof cons bz w,
        produceVerificationArgs C args.store cs args.height args.pfx args.proof = .ok (proof, cons) ∧
        value = .ok bz ∧ cs.Endorsed F proof w ∧ w.key = key args.pfx.bytes ∧ w.value = bz := by
  simp only [verifyMembership, Outcome.bind_eq_ok_iff]
  constructor
  · rintro ⟨⟨proof, cons⟩, hargs, bz, hbz, configs, hconfigs, ok, hok, hres⟩
    cases ok with
    | false => simp at hres
    | true =>
      obtain ⟨w, hw⟩ := ClientState.exists_endorsed_iff.mpr ⟨configs, hconfigs, hok⟩
      exact ⟨proof, cons, bz, w, hargs, hbz, hw⟩
  · rintro ⟨proof, cons, bz, w, hargs, hbz, hw⟩
    obtain ⟨configs, hconfigs, hok⟩ := ClientState.exists_endorsed_iff.mp ⟨w, hw⟩
    exact ⟨(proof, cons), hargs, bz, hbz, configs, hconfigs, true, hok, rfl⟩

/-! ## The parts of a header -/

theorem ifPresent_eq_ok_iff {α : Type} {p : Option α} {f : α → Result Unit} :
    ifPresent p f = .ok () ↔ ∀ a, p = some a → f a = .ok () := by
  cases p <;> simp [ifPresent]

theorem mspHeader_validateBasic_eq_ok_iff {mh : MSPHeader} :
    mh.validateBasic = .ok () ↔
      mh.mspID ≠ [] ∧ mh.validConfigPolicy = true ∧ mh.proof.isSome = true := by
  unfold MSPHeader.validateBasic
  by_cases hid : mh.mspID = []
  · simp [hid]
  · cases hvalid : mh.validConfigPolicy <;> cases hproof : mh.proof <;> simp [hid]

theorem compareMSPID_ne_gt_iff {a b : Bytes} :
    compareMSPID a b ≠ .gt ↔ a = b ∨ compare a b = .lt := by
  unfold compareMSPID
  cases hcmp : compare a b with
  | lt => simp
  | eq => simp [Std.LawfulEqOrd.eq_of_compare hcmp]
  | gt =>
    simp only [ne_eq, not_true_eq_false, reduceCtorEq, or_false, false_iff]
    rintro rfl
    rw [Std.ReflOrd.compare_self] at hcmp
    exact absurd hcmp (by decide)

/-- The loop with the map of seen ids and the previous id checks that the ids
ascend strictly, that none was seen before and none is below the previous one. -/
theorem validateLoop_eq_ok_iff {seen : List Bytes} {prevID : Bytes} {headers : List MSPHeader} :
    MSPHeaders.validateLoop seen prevID headers = .ok () ↔
      (∀ mh ∈ headers, mh.validateBasic = .ok ()) ∧ Keyed.Ascending MSPHeader.mspID headers ∧
      ∀ mh ∈ headers, mh.mspID ∉ seen ∧ compareMSPID prevID mh.mspID ≠ .gt := by
  induction headers generalizing seen prevID with
  | nil => simp [MSPHeaders.validateLoop, Keyed.Ascending]
  | cons mh headers ih =>
    -- one turn of the loop
    have hloop : MSPHeaders.validateLoop seen prevID (mh :: headers) = .ok () ↔
        mh.validateBasic = .ok () ∧ mh.mspID ∉ seen ∧ compareMSPID prevID mh.mspID ≠ .gt ∧
          MSPHeaders.validateLoop (mh.mspID :: seen) mh.mspID headers = .ok () := by
      rw [MSPHeaders.validateLoop, Outcome.check_bind_eq_ok_iff]
      by_cases hseen : mh.mspID ∈ seen
      · simp [hseen]
      · by_cases hgt : compareMSPID prevID mh.mspID = .gt
        · simp [hseen, hgt]
        · simp [hseen, hgt]
    rw [hloop, ih, Keyed.ascending_cons]
    simp only [List.forall_mem_cons]
    constructor
    · rintro ⟨hmh, hseen, hprev, hbasic, hasc, hrest⟩
      -- not below and, since it was not seen, not equal
      have hlt : ∀ b ∈ headers, compare mh.mspID b.mspID = .lt := by
        intro b hb
        obtain ⟨hnotin, hle⟩ := hrest b hb
        rcases compareMSPID_ne_gt_iff.mp hle with heq | hlt
        · exact absurd (heq ▸ List.mem_cons_self) hnotin
        · exact hlt
      refine ⟨⟨hmh, hbasic⟩, ⟨hlt, hasc⟩, ⟨hseen, hprev⟩, ?_⟩
      intro b hb
      refine ⟨fun hmem => (hrest b hb).1 (List.mem_cons_of_mem _ hmem), ?_⟩
      refine compareMSPID_ne_gt_iff.mpr (Or.inr ?_)
      rcases compareMSPID_ne_gt_iff.mp hprev with heq | hprev
      · exact heq ▸ hlt b hb
      · exact Std.TransCmp.lt_trans hprev (hlt b hb)
    · rintro ⟨⟨hmh, hbasic⟩, ⟨hlt, hasc⟩, ⟨hseen, hprev⟩, hrest⟩
      refine ⟨hmh, hseen, hprev, hbasic, hasc, fun b hb => ⟨?_, ?_⟩⟩
      · rw [List.mem_cons, not_or]
        exact ⟨(Keyed.key_ne_of_lt (hlt b hb)).symm, (hrest b hb).1⟩
      · exact compareMSPID_ne_gt_iff.mpr (Or.inr (hlt b hb))

theorem mspHeaders_validateBasic_eq_ok_iff {mhs : MSPHeaders} :
    mhs.validateBasic = .ok () ↔
      (∀ mh ∈ mhs.headers, mh.validateBasic = .ok ()) ∧
      Keyed.Ascending MSPHeader.mspID mhs.headers := by
  rw [MSPHeaders.validateBasic, validateLoop_eq_ok_iff]
  refine ⟨fun h => ⟨h.1, h.2.1⟩, fun h => ⟨h.1, h.2, fun mh _ => ⟨by simp, ?_⟩⟩⟩
  -- the first id is compared with the empty string
  cases hid : mh.mspID with
  | nil => decide
  | cons b bs => exact compareMSPID_ne_gt_iff.mpr (Or.inr rfl)

/-- The policy a header has to satisfy. -/
def MSPHeader.requiredPolicy (mh : MSPHeader) (cs : ClientState) : Bytes :=
  match mh.type with
  | .updateConfig => ((cs.registry mh.mspID).bind MSPInfo.policy).getD []
  | _ => cs.lastChaincodeInfo.ibcPolicy

/-- The header can be applied and carries the signatures its type asks for. -/
def MSPHeader.Authorised (F : Fabric) (cs : ClientState) (mh : MSPHeader) : Prop :=
  ∃ proof, mh.proof = some proof ∧ mh.Enabled cs.registry ∧
    cs.Signed F (mh.requiredPolicy cs) proof mh.getSignBytes

theorem verifyMSPMessage_eq_ok_iff {F : Fabric} {cs : ClientState} {mh : MSPHeader}
    {policy : Bytes} {proof : MessageProof} :
    verifyMSPMessage F cs mh policy proof = .ok () ↔ cs.Signed F policy proof mh.getSignBytes := by
  rw [ClientState.signed_iff, verifyMSPMessage, Outcome.bind_eq_ok_iff]

/-- A record that is not frozen, and a proof under the policy that goes with it. -/
theorem verifyExistingMSP_eq_ok_iff {F : Fabric} {policy : MSPInfo → Bytes} {cs : ClientState}
    {mh : MSPHeader} {required : Bytes}
    (hpolicy : ∀ info, cs.registry mh.mspID = some info → policy info = required) :
    verifyExistingMSP F policy cs mh = .ok () ↔
      ∃ proof, mh.proof = some proof ∧
        (∃ info, cs.registry mh.mspID = some info ∧ info.freezed = false) ∧
        cs.Signed F required proof mh.getSignBytes := by
  unfold verifyExistingMSP
  cases hproof : mh.proof with
  | none => simp
  | some proof =>
    have hreg : cs.lastMspInfos.registry = cs.registry := rfl
    simp only [findMSPInfo_eq, hreg, Outcome.bind_eq_ok_iff]
    cases hinfo : cs.registry mh.mspID with
    | none => simp
    | some info =>
      cases hfr : info.freezed <;> simp [hfr, hpolicy info hinfo, verifyMSPMessage_eq_ok_iff]

theorem verifyMSPCreate_eq_ok_iff {F : Fabric} {cs : ClientState} {mh : MSPHeader} :
    verifyMSPCreate F cs mh = .ok () ↔
      ∃ proof, mh.proof = some proof ∧ cs.registry mh.mspID = none ∧
        cs.Signed F cs.lastChaincodeInfo.ibcPolicy proof mh.getSignBytes := by
  unfold verifyMSPCreate
  cases hproof : mh.proof with
  | none => simp
  | some proof =>
    have hnone : cs.registry mh.mspID = none ↔ cs.lastMspInfos.hasMSPID mh.mspID = false :=
      hasMSPID_eq_false_iff.symm
    cases hhas : cs.lastMspInfos.hasMSPID mh.mspID <;>
      simp [hnone, hhas, verifyMSPMessage_eq_ok_iff]

/-- The four verifiers in one statement. -/
theorem verifyMSPHeader_eq_ok_iff {F : Fabric} {cs : ClientState} {mh : MSPHeader} :
    verifyMSPHeader F cs mh = .ok () ↔ mh.Authorised F cs := by
  unfold verifyMSPHeader MSPHeader.Authorised MSPHeader.Enabled MSPHeader.requiredPolicy
  cases htype : mh.type with
  | create => exact verifyMSPCreate_eq_ok_iff
  | updatePolicy => exact verifyExistingMSP_eq_ok_iff fun _ _ => rfl
  | updateConfig =>
    -- the policy asked is that of the record, which exists by the check before
    refine verifyExistingMSP_eq_ok_iff fun info hinfo => ?_
    rw [hinfo]
    rfl
  | freeze => exact verifyExistingMSP_eq_ok_iff fun _ _ => rfl
  | unrecognized code h => simp

/-! ## Headers -/

/-- The MSP headers of a header. -/
def Header.batch (h : Header) : List MSPHeader :=
  match h.mspHeaders with
  | none => []
  | some mhs => mhs.headers

/-- The consensus state a header brings. -/
def Header.consensusState (h : Header) : Option ConsensusState :=
  h.chaincodeHeader.map fun ch => ⟨ch.sequence.timestamp⟩

/-- The next sequence, later than the last one, with its endorsed commitment. -/
def ChaincodeHeader.Acceptable (F : Fabric) (cs : ClientState) (ch : ChaincodeHeader) : Prop :=
  cs.getLatestTimestamp < ch.sequence.timestamp ∧
  ch.sequence.value = cs.getLatestHeight.revisionHeight + 1 ∧
  ∃ w, cs.Endorsed F ch.proof w ∧ w.key = makeSequenceCommitmentEntryKey ch.sequence.value ∧
    w.value = ch.sequence.bytes

def ChaincodeInfo.Acceptable (F : Fabric) (cs : ClientState) (ci : ChaincodeInfo) : Prop :=
  ci.endorsementPolicy ≠ [] ∧
  ∃ proof, ci.proof = some proof ∧
    cs.Signed F cs.lastChaincodeInfo.ibcPolicy proof ci.getSignBytes

/-- What `checkValidity` demands of a header. -/
structure Header.Acceptable (F : Fabric) (cs : ClientState) (h : Header) : Prop where
  some_part : h.chaincodeHeader.isSome ∨ h.chaincodeInfo.isSome ∨ h.mspHeaders.isSome
  chaincodeHeader : ∀ ch, h.chaincodeHeader = some ch → ch.Acceptable F cs
  chaincodeInfo : ∀ ci, h.chaincodeInfo = some ci → ci.Acceptable F cs
  well_formed : ∀ mh ∈ h.batch, mh.validateBasic = .ok ()
  ascending : Keyed.Ascending MSPHeader.mspID h.batch
  authorised : ∀ mh ∈ h.batch, mh.Authorised F cs

theorem header_validateBasic_eq_ok_iff {h : Header} :
    h.validateBasic = .ok () ↔
      (h.chaincodeHeader.isSome ∨ h.chaincodeInfo.isSome ∨ h.mspHeaders.isSome) ∧
      (∀ mh ∈ h.batch, mh.validateBasic = .ok ()) ∧
      Keyed.Ascending MSPHeader.mspID h.batch := by
  obtain ⟨ch, ci, mhs⟩ := h
  have hnil : Keyed.Ascending MSPHeader.mspID [] := List.Pairwise.nil
  cases ch <;> cases ci <;> cases mhs <;>
    simp [Header.validateBasic, Header.batch, ifPresent, ChaincodeHeader.validateBasic,
      ChaincodeInfo.validateBasic, mspHeaders_validateBasic_eq_ok_iff, hnil]

theorem verifyChaincodeHeader_eq_ok_iff {F : Fabric} {cs : ClientState} {ch : ChaincodeHeader} :
    verifyChaincodeHeader F cs ch = .ok () ↔
      ∃ w, cs.Endorsed F ch.proof w ∧ w.key = makeSequenceCommitmentEntryKey ch.sequence.value ∧
        w.value = ch.sequence.bytes := by
  rw [ClientState.exists_endorsed_iff]
  simp only [verifyChaincodeHeader, Outcome.bind_eq_ok_iff]
  constructor
  · rintro ⟨configs, hconfigs, ok, hok, hres⟩
    cases ok with
    | false => simp at hres
    | true => exact ⟨configs, hconfigs, hok⟩
  · rintro ⟨configs, hconfigs, hok⟩
    exact ⟨configs, hconfigs, true, hok, rfl⟩

theorem checkChaincodeHeader_eq_ok_iff {F : Fabric} {cs : ClientState} {ch : ChaincodeHeader} :
    checkChaincodeHeader F cs ch = .ok () ↔ ch.Acceptable F cs := by
  have hrev : cs.getLatestHeight.revisionNumber = 0 := rfl
  unfold checkChaincodeHeader ChaincodeHeader.Acceptable
  by_cases htime : ch.sequence.timestamp ≤ cs.getLatestTimestamp
  · simp [htime, Int64.not_lt.mpr htime]
  · by_cases hval : ch.sequence.value = cs.getLatestHeight.revisionHeight + 1
    · simp [htime, hval, hrev, Int64.not_le.mp htime, Outcome.mapErr_eq_ok_iff,
        verifyChaincodeHeader_eq_ok_iff]
    · simp [htime, hval, hrev]

theorem checkChaincodeInfo_eq_ok_iff {F : Fabric} {cs : ClientState} {ci : ChaincodeInfo} :
    checkChaincodeInfo F cs ci = .ok () ↔ ci.Acceptable F cs := by
  unfold checkChaincodeInfo ChaincodeInfo.Acceptable verifyChaincodeInfo
  by_cases hpol : ci.endorsementPolicy = []
  · simp [hpol]
  · cases hproof : ci.proof with
    | none => simp [hpol, Outcome.mapErr]
    | some proof =>
      simp only [List.length_eq_zero_iff, hpol, if_false, Outcome.mapErr_eq_ok_iff,
        Outcome.bind_eq_ok_iff, ClientState.signed_iff, ne_eq, not_false_eq_true, true_and,
        Option.some.injEq, exists_eq_left']

/-- **The meaning of `checkValidity`.** -/
theorem checkValidity_eq_ok_iff {F : Fabric} {cs : ClientState} {h : Header} :
    checkValidity F cs h = .ok () ↔ h.Acceptable F cs := by
  have hbatch : (∀ mhs, h.mspHeaders = some mhs → verifyMSPHeaders F cs mhs = .ok ()) ↔
      ∀ mh ∈ h.batch, mh.Authorised F cs := by
    unfold Header.batch
    cases h.mspHeaders with
    | none => simp
    | some mhs =>
      simp [verifyMSPHeaders, Outcome.forEach_eq_ok_iff, verifyMSPHeader_eq_ok_iff]
  simp only [checkValidity, Outcome.check_bind_eq_ok_iff, Outcome.mapErr_eq_ok_iff,
    ifPresent_eq_ok_iff, checkChaincodeHeader_eq_ok_iff, checkChaincodeInfo_eq_ok_iff,
    header_validateBasic_eq_ok_iff, hbatch]
  constructor
  · rintro ⟨⟨hpart, hwf, hasc⟩, hch, hci, hauth⟩
    exact ⟨hpart, hch, hci, hwf, hasc, hauth⟩
  · rintro ⟨hpart, hch, hci, hwf, hasc, hauth⟩
    exact ⟨⟨hpart, hwf, hasc⟩, hch, hci, hauth⟩

/-! ## Updates -/

/-- The client state after an accepted header. -/
structure Updated (cs : ClientState) (h : Header) (cs' : ClientState) : Prop where
  id : cs'.id = cs.id
  chaincodeHeader : cs'.lastChaincodeHeader = h.chaincodeHeader.getD cs.lastChaincodeHeader
  chaincodeInfo : cs'.lastChaincodeInfo = h.chaincodeInfo.getD cs.lastChaincodeInfo
  slice : SliceFor cs.lastMspInfos.infos (fun id => Registry.batch h.batch id (cs.registry id))
    cs'.lastMspInfos.infos

theorem Updated.registry {cs cs' : ClientState} {h : Header} (hu : Updated cs h cs') (id : Bytes) :
    cs'.registry id = Registry.batch h.batch id (cs.registry id) := congrFun hu.slice.registry id

theorem Header.Acceptable.batch_distinct {F : Fabric} {cs : ClientState} {h : Header}
    (hacc : h.Acceptable F cs) : (h.batch.map MSPHeader.mspID).Nodup :=
  hacc.ascending.nodup_keys

theorem Header.Acceptable.enabled {F : Fabric} {cs : ClientState} {h : Header}
    (hacc : h.Acceptable F cs) : ∀ mh ∈ h.batch, mh.Enabled cs.registry := fun mh hmem =>
  let ⟨_, _, hen, _⟩ := hacc.authorised mh hmem
  hen

/-- The MSP block of `update` is the loop over the batch, empty or not. -/
theorem updateMSPInfosIfPresent_eq (cs : ClientState) (h : Header) :
    updateMSPInfosIfPresent cs h.mspHeaders = foldMSPHeaders cs h.batch := by
  unfold updateMSPInfosIfPresent Header.batch
  cases h.mspHeaders <;> rfl

/-- An acceptable header is applied without a panic. -/
theorem update_of_acceptable {F : Fabric} {cs : ClientState} {h : Header}
    (hacc : h.Acceptable F cs) :
    ∃ cs', update cs h = .ok (cs', h.consensusState) ∧ Updated cs h cs' := by
  have hbasic : h.validateBasic = .ok () :=
    header_validateBasic_eq_ok_iff.mpr ⟨hacc.some_part, hacc.well_formed, hacc.ascending⟩
  -- the MSP loop starts from the state with the new chaincode info and header
  let cs₁ : ClientState := { cs with
    lastChaincodeInfo := h.chaincodeInfo.getD cs.lastChaincodeInfo
    lastChaincodeHeader := h.chaincodeHeader.getD cs.lastChaincodeHeader }
  have hen : ∀ mh ∈ h.batch, mh.Enabled cs₁.registry := hacc.enabled
  obtain ⟨infos, hfold, hslice⟩ := foldMSPHeaders_refines hacc.batch_distinct hen
  have hreg : cs₁.registry.run h.batch = fun id => Registry.batch h.batch id (cs.registry id) :=
    funext fun id => Registry.run_apply hacc.batch_distinct cs.registry id
  rw [hreg] at hslice
  refine ⟨cs₁.withInfos infos, ?_, rfl, rfl, rfl, hslice⟩
  unfold update
  rw [hbasic]
  show (updateMSPInfosIfPresent cs₁ h.mspHeaders >>= fun cs' => _) = _
  rw [updateMSPInfosIfPresent_eq, hfold]
  rfl

theorem accepted_iff {F : Fabric} {cs cs' : ClientState} {h : Header}
    {cons : Option ConsensusState} :
    checkHeaderAndUpdateState F cs (.fabric h) = .ok (cs', cons) ↔
      h.Acceptable F cs ∧ update cs h = .ok (cs', cons) := by
  rw [checkHeaderAndUpdateState, Outcome.check_bind_eq_ok_iff, checkValidity_eq_ok_iff]

/-- Headers of other light clients are not accepted. -/
theorem fabric_of_accepted {F : Fabric} {cs cs' : ClientState} {header : HeaderI}
    {cons : Option ConsensusState}
    (hok : checkHeaderAndUpdateState F cs header = .ok (cs', cons)) : ∃ h, header = .fabric h := by
  cases header with
  | other => simp [checkHeaderAndUpdateState] at hok
  | fabric h => exact ⟨h, rfl⟩

/-- **What an accepted header was, and what it did.** -/
theorem accepted_spec {F : Fabric} {cs cs' : ClientState} {h : Header}
    {cons : Option ConsensusState}
    (hok : checkHeaderAndUpdateState F cs (.fabric h) = .ok (cs', cons)) :
    h.Acceptable F cs ∧ Updated cs h cs' ∧ cons = h.consensusState := by
  obtain ⟨hacc, hupd⟩ := accepted_iff.mp hok
  obtain ⟨cs'', hupd', hspec⟩ := update_of_acceptable hacc
  rw [hupd, Outcome.ok.injEq, Prod.mk.injEq] at hupd'
  obtain ⟨rfl, rfl⟩ := hupd'
  exact ⟨hacc, hspec, rfl⟩

end FabricIBC
