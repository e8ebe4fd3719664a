import FabricIBC.LightClient.Membership
import FabricIBC.LightClient.Symbolic
import FabricIBC.Lib.Run

/-!
# Fabric-IBC — light client: frozen MSPs

A two-run property. Two client states that differ only in the `Config` and
`Policy` of frozen MSPs (`ClientState.SameButFrozen`) cannot be told apart: no
header and no proof verification gets another verdict, and accepted headers
lead to client states that again differ only there (`frozen_msp_no_influence`).

The MSPs are looked up in four ways, and each is shown to respect the relation:
the list of configs in force (`pbConfigs_congr`), the index of an id
(`indexOf_congr`), the record of an id (`findMSPInfo_rel`), and the policy of a
record that was found not to be frozen (`verifyExistingMSP_congr`). Fabric's
policies are asked only through these.
-/

namespace FabricIBC

open Go

/-! ## The relation -/

/-- Equal records, or two frozen records of one id. -/
structure MSPInfo.SameButFrozen (a b : MSPInfo) : Prop where
  mspID : a.mspID = b.mspID
  freezed : a.freezed = b.freezed
  unfrozen : a.freezed = false → a.config = b.config ∧ a.policy = b.policy

/-- Equal client states, up to the `Config` and `Policy` of frozen MSPs. -/
structure ClientState.SameButFrozen (cs cs' : ClientState) : Prop where
  id : cs.id = cs'.id
  lastChaincodeHeader : cs.lastChaincodeHeader = cs'.lastChaincodeHeader
  lastChaincodeInfo : cs.lastChaincodeInfo = cs'.lastChaincodeInfo
  infos : List.Forall₂ MSPInfo.SameButFrozen cs.lastMspInfos.infos cs'.lastMspInfos.infos

theorem MSPInfo.SameButFrozen.refl (info : MSPInfo) : info.SameButFrozen info :=
  ⟨rfl, rfl, fun _ => ⟨rfl, rfl⟩⟩

/-! ## Looking MSPs up -/

section Lookup

variable {infos infos' : List MSPInfo}

/-- A frozen MSP contributes no config. -/
theorem pbConfigs_congr (F : Fabric) (h : List.Forall₂ MSPInfo.SameButFrozen infos infos') :
    MSPInfos.pbConfigs F infos = MSPInfos.pbConfigs F infos' := by
  induction h with
  | nil => rfl
  | @cons a b l l' hab hl ih =>
    rw [MSPInfos.pbConfigs, MSPInfos.pbConfigs, ← hab.freezed, ih]
    by_cases hfr : a.freezed = true
    · rw [if_pos hfr, if_pos hfr]
    · rw [if_neg hfr, if_neg hfr, (hab.unfrozen (Bool.eq_false_iff.mpr hfr)).1]

theorem findIdx?_congr (h : List.Forall₂ MSPInfo.SameButFrozen infos infos') (mspID : Bytes) :
    (infos.findIdx? fun info => info.mspID == mspID) =
      infos'.findIdx? fun info => info.mspID == mspID := by
  induction h with
  | nil => rfl
  | cons hab _ ih => rw [List.findIdx?_cons, List.findIdx?_cons, hab.mspID, ih]

theorem findMSPInfo_rel (h : List.Forall₂ MSPInfo.SameButFrozen infos infos') (mspID : Bytes) :
    Outcome.Rel MSPInfo.SameButFrozen (MSPInfos.findMSPInfo ⟨infos⟩ mspID)
      (MSPInfos.findMSPInfo ⟨infos'⟩ mspID) := by
  have hidx : MSPInfos.indexOf ⟨infos⟩ mspID = MSPInfos.indexOf ⟨infos'⟩ mspID :=
    findIdx?_congr h mspID
  unfold MSPInfos.findMSPInfo
  rw [hidx]
  cases MSPInfos.indexOf ⟨infos'⟩ mspID with
  | none => exact rfl
  | some idx =>
    -- the two slices have the same length, and related records at the index
    have hlen := h.length_eq
    by_cases hlt : idx < infos.length
    · have hlt' : idx < infos'.length := hlen ▸ hlt
      simp only [List.getElem?_eq_getElem hlt, List.getElem?_eq_getElem hlt']
      exact h.get hlt hlt'
    · have hge : infos.length ≤ idx := Nat.le_of_not_lt hlt
      simp only [List.getElem?_eq_none hge, List.getElem?_eq_none (hlen ▸ hge)]
      exact rfl

end Lookup

/-! ## Verification -/

section Verification

variable {F : Fabric} {cs cs' : ClientState}

theorem getMSPPBConfigs_congr (h : cs.SameButFrozen cs') :
    cs.lastMspInfos.getMSPPBConfigs F = cs'.lastMspInfos.getMSPPBConfigs F :=
  pbConfigs_congr F h.infos

theorem indexOf_congr (h : cs.SameButFrozen cs') (mspID : Bytes) :
    cs.lastMspInfos.indexOf mspID = cs'.lastMspInfos.indexOf mspID :=
  findIdx?_congr h.infos mspID

theorem verifyChaincodeHeader_congr (h : cs.SameButFrozen cs') (ch : ChaincodeHeader) :
    verifyChaincodeHeader F cs ch = verifyChaincodeHeader F cs' ch := by
  unfold verifyChaincodeHeader
  rw [getMSPPBConfigs_congr h, h.lastChaincodeInfo]

theorem verifyChaincodeInfo_congr (h : cs.SameButFrozen cs') (ci : ChaincodeInfo) :
    verifyChaincodeInfo F cs ci = verifyChaincodeInfo F cs' ci := by
  unfold verifyChaincodeInfo
  rw [getMSPPBConfigs_congr h, h.lastChaincodeInfo]

theorem verifyMSPMessage_congr (h : cs.SameButFrozen cs') (mh : MSPHeader) (policy : Bytes)
    (proof : MessageProof) :
    verifyMSPMessage F cs mh policy proof = verifyMSPMessage F cs' mh policy proof := by
  unfold verifyMSPMessage
  rw [getMSPPBConfigs_congr h]

theorem verifyMSPCreate_congr (h : cs.SameButFrozen cs') (mh : MSPHeader) :
    verifyMSPCreate F cs mh = verifyMSPCreate F cs' mh := by
  unfold verifyMSPCreate MSPInfos.hasMSPID
  simp only [indexOf_congr h, h.lastChaincodeInfo, verifyMSPMessage_congr h]

/-- The record is asked for its policy only after it was found not to be frozen. -/
theorem verifyExistingMSP_congr (h : cs.SameButFrozen cs') {policy policy' : MSPInfo → Bytes}
    (hpolicy : ∀ a b : MSPInfo, a.SameButFrozen b → a.freezed = false → policy a = policy' b)
    (mh : MSPHeader) :
    verifyExistingMSP F policy cs mh = verifyExistingMSP F policy' cs' mh := by
  unfold verifyExistingMSP
  cases mh.proof with
  | none => rfl
  | some proof =>
    refine (findMSPInfo_rel h.infos mh.mspID).bind_eq ?_
    intro a b hab
    rw [← hab.freezed]
    cases hfr : a.freezed with
    | true => rfl
    | false =>
      show verifyMSPMessage F cs mh (policy a) proof = verifyMSPMessage F cs' mh (policy' b) proof
      rw [hpolicy a b hab hfr, verifyMSPMessage_congr h]

theorem verifyMSPHeader_congr (h : cs.SameButFrozen cs') (mh : MSPHeader) :
    verifyMSPHeader F cs mh = verifyMSPHeader F cs' mh := by
  -- two of the three verifiers of existing MSPs ask the policy of the chaincode info
  have hinfo : ∀ a b : MSPInfo, a.SameButFrozen b → a.freezed = false →
      cs.lastChaincodeInfo.ibcPolicy = cs'.lastChaincodeInfo.ibcPolicy :=
    fun _ _ _ _ => congrArg ChaincodeInfo.ibcPolicy h.lastChaincodeInfo
  unfold verifyMSPHeader
  cases mh.type with
  | create => exact verifyMSPCreate_congr h mh
  | updatePolicy => exact verifyExistingMSP_congr h hinfo mh
  | updateConfig =>
    refine verifyExistingMSP_congr h ?_ mh
    intro a b hab hfr
    rw [(hab.unfrozen hfr).2]
  | freeze => exact verifyExistingMSP_congr h hinfo mh
  | unrecognized code hcode => rfl

theorem checkValidity_congr (h : cs.SameButFrozen cs') (header : Header) :
    checkValidity F cs header = checkValidity F cs' header := by
  have hch : checkChaincodeHeader F cs = checkChaincodeHeader F cs' := by
    funext ch
    unfold checkChaincodeHeader ClientState.getLatestTimestamp ClientState.getLatestHeight
    rw [h.lastChaincodeHeader, verifyChaincodeHeader_congr h]
  have hci : checkChaincodeInfo F cs = checkChaincodeInfo F cs' := by
    funext ci
    unfold checkChaincodeInfo
    rw [verifyChaincodeInfo_congr h]
  have hmsp : verifyMSPHeaders F cs = verifyMSPHeaders F cs' := by
    funext mhs
    unfold verifyMSPHeaders
    rw [funext (verifyMSPHeader_congr h)]
  unfold checkValidity
  rw [hch, hci, hmsp]

/-- The common body of the eight `Verify*` functions. -/
theorem verifyMembership_congr {C : Codec} (h : cs.SameButFrozen cs') (args : VerifyArgs)
    (key : Bytes → Bytes) (value : Result Bytes) :
    verifyMembership F C cs args key value = verifyMembership F C cs' args key value := by
  have hargs : produceVerificationArgs C args.store cs args.height args.pfx args.proof =
      produceVerificationArgs C args.store cs' args.height args.pfx args.proof := by
    unfold produceVerificationArgs ClientState.getLatestHeight ClientState.isFrozen
    rw [h.lastChaincodeHeader]
  unfold verifyMembership
  rw [hargs, getMSPPBConfigs_congr h, h.lastChaincodeInfo]

end Verification

/-! ## Updates -/

section Update

variable {cs cs' : ClientState}

theorem forall₂_modify {α β : Type} {R : α → β → Prop} {f : α → α} {g : β → β}
    (hfg : ∀ a b, R a b → R (f a) (g b)) {l : List α} {l' : List β} (h : List.Forall₂ R l l')
    (i : Nat) : List.Forall₂ R (l.modify i f) (l'.modify i g) := by
  induction h generalizing i with
  | nil => simp
  | cons hab hl ih =>
    cases i with
    | zero => exact .cons (hfg _ _ hab) hl
    | succ i => exact .cons hab (ih i)

theorem insertMSPInfo_congr (new : MSPInfo) {infos infos' : List MSPInfo}
    (h : List.Forall₂ MSPInfo.SameButFrozen infos infos') (appended : Bool) :
    List.Forall₂ MSPInfo.SameButFrozen (insertMSPInfo new appended infos)
      (insertMSPInfo new appended infos') := by
  induction h generalizing appended with
  | nil =>
    cases appended with
    | true => exact .nil
    | false => exact .cons (.refl new) .nil
  | cons hab _ ih =>
    -- the place of the new record depends on the ids only
    rw [insertMSPInfo, insertMSPInfo, ← hab.mspID]
    split
    · exact .cons (.refl new) (.cons hab (ih true))
    · exact .cons hab (ih appended)

theorem ClientState.SameButFrozen.withInfos (h : cs.SameButFrozen cs') {infos infos' : List MSPInfo}
    (hinfos : List.Forall₂ MSPInfo.SameButFrozen infos infos') :
    (cs.withInfos infos).SameButFrozen (cs'.withInfos infos') :=
  ⟨h.id, h.lastChaincodeHeader, h.lastChaincodeInfo, hinfos⟩

theorem modifyMSPInfo_rel (h : cs.SameButFrozen cs') {f : MSPInfo → MSPInfo}
    (hf : ∀ a b : MSPInfo, a.SameButFrozen b → (f a).SameButFrozen (f b)) (mspID : Bytes) :
    Outcome.Rel ClientState.SameButFrozen (modifyMSPInfo f cs mspID)
      (modifyMSPInfo f cs' mspID) := by
  unfold modifyMSPInfo
  rw [indexOf_congr h]
  cases cs'.lastMspInfos.indexOf mspID with
  | none => exact rfl
  | some idx => exact h.withInfos (forall₂_modify hf h.infos idx)

/-- An updater of an MSP that both slices have: whether it is frozen or not,
what it writes is the same on both sides. -/
theorem updateMSPInfo_rel (h : cs.SameButFrozen cs') (mh : MSPHeader) :
    Outcome.Rel ClientState.SameButFrozen (updateMSPInfo cs mh) (updateMSPInfo cs' mh) := by
  unfold updateMSPInfo
  cases mh.type with
  | create => exact h.withInfos (insertMSPInfo_congr _ h.infos false)
  | updatePolicy =>
    refine modifyMSPInfo_rel h ?_ mh.mspID
    intro a b hab
    exact ⟨hab.mspID, hab.freezed, fun hfr => ⟨(hab.unfrozen hfr).1, rfl⟩⟩
  | updateConfig =>
    refine modifyMSPInfo_rel h ?_ mh.mspID
    intro a b hab
    exact ⟨hab.mspID, hab.freezed, fun hfr => ⟨rfl, (hab.unfrozen hfr).2⟩⟩
  | freeze =>
    -- frozen records may differ as they like
    refine modifyMSPInfo_rel h ?_ mh.mspID
    intro a b hab
    exact ⟨hab.mspID, rfl, fun hfr => nomatch hfr⟩
  | unrecognized code hcode => exact rfl

theorem foldMSPHeaders_rel (h : cs.SameButFrozen cs') (headers : List MSPHeader) :
    Outcome.Rel ClientState.SameButFrozen (foldMSPHeaders cs headers)
      (foldMSPHeaders cs' headers) := by
  induction headers generalizing cs cs' with
  | nil => exact h
  | cons mh headers ih => exact (updateMSPInfo_rel h mh).bind fun _ _ hab => ih hab

/-- Client states that differ only in frozen MSPs, and equal consensus states. -/
def SameUpdate (r r' : ClientState × Option ConsensusState) : Prop :=
  r.1.SameButFrozen r'.1 ∧ r.2 = r'.2

theorem update_rel (h : cs.SameButFrozen cs') (header : Header) :
    Outcome.Rel SameUpdate (update cs header) (update cs' header) := by
  unfold update
  cases header.validateBasic with
  | err e => exact rfl
  | panic p => exact rfl
  | ok _ =>
    refine Outcome.Rel.bind (R := ClientState.SameButFrozen) ?_ fun a b hab => ⟨hab, rfl⟩
    have hstart : ClientState.SameButFrozen
        { cs with
          lastChaincodeInfo := header.chaincodeInfo.getD cs.lastChaincodeInfo
          lastChaincodeHeader := header.chaincodeHeader.getD cs.lastChaincodeHeader }
        { cs' with
          lastChaincodeInfo := header.chaincodeInfo.getD cs'.lastChaincodeInfo
          lastChaincodeHeader := header.chaincodeHeader.getD cs'.lastChaincodeHeader } :=
      ⟨h.id, congrArg header.chaincodeHeader.getD h.lastChaincodeHeader,
        congrArg header.chaincodeInfo.getD h.lastChaincodeInfo, h.infos⟩
    unfold updateMSPInfosIfPresent
    cases header.mspHeaders with
    | none => exact hstart
    | some mhs => exact foldMSPHeaders_rel hstart mhs.headers

theorem checkHeaderAndUpdateState_rel (F : Fabric) (h : cs.SameButFrozen cs') (header : HeaderI) :
    Outcome.Rel SameUpdate (checkHeaderAndUpdateState F cs header)
      (checkHeaderAndUpdateState F cs' header) := by
  cases header with
  | other => exact rfl
  | fabric fabHeader =>
    have hcheck : Outcome.Rel (fun _ _ => True) (checkValidity F cs fabHeader)
        (checkValidity F cs' fabHeader) := by
      rw [checkValidity_congr h]
      exact .refl (fun _ => trivial) _
    exact hcheck.bind fun _ _ _ => update_rel h fabHeader

end Update

/-! ## Two runs -/

/-- Neither a header nor a proof verification tells the client states apart. -/
structure SameVerdicts (F : Fabric) (C : Codec) (cs cs' : ClientState) : Prop where
  header : ∀ header, Outcome.Rel SameUpdate (checkHeaderAndUpdateState F cs header)
    (checkHeaderAndUpdateState F cs' header)
  clientState : ∀ args clientID s,
    verifyClientState F C cs args clientID s = verifyClientState F C cs' args clientID s
  clientConsensusState : ∀ args clientID height s,
    verifyClientConsensusState F C cs args clientID height s =
      verifyClientConsensusState F C cs' args clientID height s
  connectionState : ∀ args connectionID c,
    verifyConnectionState F C cs args connectionID c =
      verifyConnectionState F C cs' args connectionID c
  channelState : ∀ args portID channelID c,
    verifyChannelState F C cs args portID channelID c =
      verifyChannelState F C cs' args portID channelID c
  packetCommitment : ∀ args portID channelID sequence bz,
    verifyPacketCommitment F C cs args portID channelID sequence bz =
      verifyPacketCommitment F C cs' args portID channelID sequence bz
  packetAcknowledgement : ∀ args portID channelID sequence ack,
    verifyPacketAcknowledgement F C cs args portID channelID sequence ack =
      verifyPacketAcknowledgement F C cs' args portID channelID sequence ack
  packetReceiptAbsence : ∀ args portID channelID sequence,
    verifyPacketReceiptAbsence F C cs args portID channelID sequence =
      verifyPacketReceiptAbsence F C cs' args portID channelID sequence
  nextSequenceRecv : ∀ args portID channelID next,
    verifyNextSequenceRecv F C cs args portID channelID next =
      verifyNextSequenceRecv F C cs' args portID channelID next

theorem ClientState.SameButFrozen.sameVerdicts {cs cs' : ClientState} (h : cs.SameButFrozen cs')
    (F : Fabric) (C : Codec) : SameVerdicts F C cs cs' where
  header := checkHeaderAndUpdateState_rel F h
  clientState args _ _ := verifyMembership_congr h args _ _
  clientConsensusState args _ _ _ := verifyMembership_congr h args _ _
  connectionState args _ _ := verifyMembership_congr h args _ _
  channelState args _ _ _ := verifyMembership_congr h args _ _
  packetCommitment args _ _ _ _ := verifyMembership_congr h args _ _
  packetAcknowledgement args _ _ _ _ := verifyMembership_congr h args _ _
  packetReceiptAbsence args _ _ _ := verifyMembership_congr h args _ _
  nextSequenceRecv args _ _ _ := verifyMembership_congr h args _ _

/-- A header is submitted: the verdict, with the consensus state it brings, and
the client state kept afterwards. -/
def submitHeader (F : Fabric) (cs : ClientState) (header : HeaderI) :
    Result (Option ConsensusState) × ClientState :=
  match checkHeaderAndUpdateState F cs header with
  | .ok (cs', cons) => (.ok cons, cs')
  | .err e => (.err e, cs)
  | .panic p => (.panic p, cs)

theorem submitHeader_congr (F : Fabric) {cs cs' : ClientState} (h : cs.SameButFrozen cs')
    (header : HeaderI) :
    (submitHeader F cs header).1 = (submitHeader F cs' header).1 ∧
      (submitHeader F cs header).2.SameButFrozen (submitHeader F cs' header).2 := by
  have hrel := checkHeaderAndUpdateState_rel F h header
  unfold submitHeader
  cases hx : checkHeaderAndUpdateState F cs header <;>
    cases hy : checkHeaderAndUpdateState F cs' header <;> rw [hx, hy] at hrel
  -- the outcomes are of one kind
  case ok.ok r r' =>
    obtain ⟨hstate, hcons⟩ := hrel
    exact ⟨congrArg Outcome.ok hcons, hstate⟩
  case err.err e e' => exact ⟨congrArg Outcome.err hrel, h⟩
  case panic.panic p p' => exact ⟨congrArg Outcome.panic hrel, h⟩
  all_goals exact hrel.elim

/-- **A frozen MSP has no influence**: on one verdict, and along any run of headers. -/
theorem frozen_msp_no_influence (F : Fabric) (C : Codec) (cs cs' : ClientState)
    (h : cs.SameButFrozen cs') :
    SameVerdicts F C cs cs' ∧
    ∀ headers : List HeaderI,
      (Run.transcript (submitHeader F) cs headers).1 =
        (Run.transcript (submitHeader F) cs' headers).1 ∧
      (Run.transcript (submitHeader F) cs headers).2.SameButFrozen
        (Run.transcript (submitHeader F) cs' headers).2 ∧
      SameVerdicts F C (Run.transcript (submitHeader F) cs headers).2
        (Run.transcript (submitHeader F) cs' headers).2 := by
  refine ⟨h.sameVerdicts F C, ?_⟩
  intro headers
  obtain ⟨hreplies, hend⟩ := Run.transcript_eq (f := id)
    (R := ClientState.SameButFrozen) (fun _ _ header hs => submitHeader_congr F hs header) h headers
  rw [List.map_id] at hreplies
  exact ⟨hreplies, hend, hend.sameVerdicts F C⟩

namespace Symbolic

/-- The client of `client` after `Org2` was frozen, with some bytes left in its record. -/
def frozenClient (config policy : Option Bytes) : ClientState :=
  client.withInfos [mspInfo org1, ⟨org2, config, policy, true⟩]

end Symbolic

theorem frozen_msp_no_influence_org2 :
    (Symbolic.frozenClient (some (str "old")) (some (str "old"))).SameButFrozen
      (Symbolic.frozenClient none none) ∧
    SameVerdicts Symbolic.fabric Symbolic.codec
      (Symbolic.frozenClient (some (str "old")) (some (str "old")))
      (Symbolic.frozenClient none none) := by
  have h : (Symbolic.frozenClient (some (str "old")) (some (str "old"))).SameButFrozen
      (Symbolic.frozenClient none none) :=
    ⟨rfl, rfl, rfl, .cons (.refl _) (.cons ⟨rfl, rfl, fun hfr => nomatch hfr⟩ .nil)⟩
  exact ⟨h, (frozen_msp_no_influence Symbolic.fabric Symbolic.codec _ _ h).1⟩

end FabricIBC
