import FabricIBC.LightClient.Acceptance
import FabricIBC.LightClient.Symbolic

/-!
# Fabric-IBC — light client: who authorises an update

A header may carry a new sequence, a new chaincode info and a batch of MSP
headers at once. Each part is authorised by the policies and configs of the
client state *before* the header, never by one the header brings along
(`update_authorised`).

What a governance signature covers is read off the sign bytes: they determine
every field of the message except its proof (`chaincodeInfo_signBytes_inj`,
`mspHeader_signBytes_inj`).
-/

namespace FabricIBC

open Go

/-! ## What the signatures cover -/

theorem chaincodeID_bytes_inj {a b : ChaincodeID}
    (h : Wire.bytesField 0x0a a.path ++ Wire.bytesField 0x12 a.name ++
        Wire.bytesField 0x1a a.version =
      Wire.bytesField 0x0a b.path ++ Wire.bytesField 0x12 b.name ++
        Wire.bytesField 0x1a b.version) : a = b := by
  have hpath (id : ChaincodeID) : Wire.StartsAbove 0x0a
      (Wire.bytesField 0x12 id.name ++ Wire.bytesField 0x1a id.version) :=
    Wire.startsAbove_bytesField (by decide) _ (Wire.startsAbove_bytesField_last (by decide) _)
  have hname (id : ChaincodeID) : Wire.StartsAbove 0x12 (Wire.bytesField 0x1a id.version) :=
    Wire.startsAbove_bytesField_last (by decide) _
  rw [List.append_assoc, List.append_assoc] at h
  obtain ⟨hp, h⟩ := Wire.bytesField_append_inj (hpath a) (hpath b) h
  obtain ⟨hn, h⟩ := Wire.bytesField_append_inj (hname a) (hname b) h
  have hv := Wire.bytesField_inj h
  cases a
  cases b
  simp only at hp hn hv
  rw [hp, hn, hv]

/-- The sign bytes of a chaincode info determine all its fields but the proof. -/
theorem chaincodeInfo_signBytes_inj {a b : ChaincodeInfo} (h : a.getSignBytes = b.getSignBytes) :
    { a with proof := none } = { b with proof := none } := by
  have hchannel (ci : ChaincodeInfo) (m : Bytes) : Wire.StartsAbove 0x0a
      (Wire.messageField 0x12 m ++ (Wire.bytesField 0x1a ci.endorsementPolicy ++
        Wire.bytesField 0x22 ci.ibcPolicy)) :=
    Wire.startsAbove_messageField (by decide) _ _
  have hpolicy (ci : ChaincodeInfo) : Wire.StartsAbove 0x1a (Wire.bytesField 0x22 ci.ibcPolicy) :=
    Wire.startsAbove_bytesField_last (by decide) _
  simp only [ChaincodeInfo.getSignBytes, List.append_assoc] at h
  obtain ⟨hc, h⟩ := Wire.bytesField_append_inj (hchannel a _) (hchannel b _) h
  obtain ⟨hid, h⟩ := Wire.messageField_append_inj h
  obtain ⟨he, h⟩ := Wire.bytesField_append_inj (hpolicy a) (hpolicy b) h
  have hid' : a.chaincodeId = b.chaincodeId := chaincodeID_bytes_inj (by simpa using hid)
  simp only [ChaincodeInfo.mk.injEq]
  exact ⟨hc, hid', he, Wire.bytesField_inj h, trivial⟩

/-- The sign bytes of an MSP header as a sequence of fields. -/
theorem mspHeader_fields_inj {a b : MSPHeader} (h : a.getSignBytes = b.getSignBytes) :
    a.type.code = b.type.code ∧ a.mspID = b.mspID ∧ a.config.getD [] = b.config.getD [] ∧
      a.policy.getD [] = b.policy.getD [] := by
  have htype (mh : MSPHeader) : Wire.StartsAbove 0x08
      (Wire.bytesField 0x12 mh.mspID ++ (Wire.bytesField 0x1a (mh.config.getD []) ++
        Wire.bytesField 0x22 (mh.policy.getD []))) :=
    Wire.startsAbove_bytesField (by decide) _
      (Wire.startsAbove_bytesField (by decide) _ (Wire.startsAbove_bytesField_last (by decide) _))
  have hid (mh : MSPHeader) : Wire.StartsAbove 0x12
      (Wire.bytesField 0x1a (mh.config.getD []) ++ Wire.bytesField 0x22 (mh.policy.getD [])) :=
    Wire.startsAbove_bytesField (by decide) _ (Wire.startsAbove_bytesField_last (by decide) _)
  have hconfig (mh : MSPHeader) :
      Wire.StartsAbove 0x1a (Wire.bytesField 0x22 (mh.policy.getD [])) :=
    Wire.startsAbove_bytesField_last (by decide) _
  simp only [MSPHeader.getSignBytes, List.append_assoc] at h
  obtain ⟨ht, h⟩ := Wire.varintField_append_inj (htype a) (htype b) h
  obtain ⟨hi, h⟩ := Wire.bytesField_append_inj (hid a) (hid b) h
  obtain ⟨hc, h⟩ := Wire.bytesField_append_inj (hconfig a) (hconfig b) h
  exact ⟨UInt64.toNat_inj.mp ht, hi, hc, Wire.bytesField_inj h⟩

/-- A valid header has one of the four known types. -/
theorem MSPHeader.type_of_valid {mh : MSPHeader} (h : mh.validateBasic = .ok ()) :
    mh.type = .create ∨ mh.type = .updatePolicy ∨ mh.type = .updateConfig ∨ mh.type = .freeze := by
  obtain ⟨-, hvalid, -⟩ := mspHeader_validateBasic_eq_ok_iff.mp h
  unfold MSPHeader.validConfigPolicy at hvalid
  cases htype : mh.type <;> simp_all

/-- Among valid headers the sign bytes determine all fields but the proof: the
type says which of config and policy is present. -/
theorem mspHeader_signBytes_inj {a b : MSPHeader} (ha : a.validateBasic = .ok ())
    (hb : b.validateBasic = .ok ()) (h : a.getSignBytes = b.getSignBytes) :
    { a with proof := none } = { b with proof := none } := by
  obtain ⟨hcode, hid, hconfig, hpolicy⟩ := mspHeader_fields_inj h
  -- valid types are told apart by their codes
  have htype : a.type = b.type := by
    rcases a.type_of_valid ha with hta | hta | hta | hta <;>
      rcases b.type_of_valid hb with htb | htb | htb | htb <;>
      first
      | (rw [hta, htb]; done)
      | (rw [hta, htb] at hcode; exact absurd hcode (by decide))
  obtain ⟨-, hva, -⟩ := mspHeader_validateBasic_eq_ok_iff.mp ha
  obtain ⟨-, hvb, -⟩ := mspHeader_validateBasic_eq_ok_iff.mp hb
  obtain ⟨ta, ia, ca, pa, qa⟩ := a
  obtain ⟨tb, ib, cb, pb, qb⟩ := b
  simp only at htype hid hconfig hpolicy
  subst htype hid
  -- an empty and an absent field have the same bytes, but the type allows only one
  simp only [MSPHeader.mk.injEq, true_and, and_true]
  cases ta <;> cases ca <;> cases cb <;> cases pa <;> cases pb <;>
    simp_all [MSPHeader.validConfigPolicy]

/-! ## Authorisation -/

/-- A record changes only through a header of the batch for its id. -/
theorem Updated.header_of_ne {cs cs' : ClientState} {h : Header} (hu : Updated cs h cs') {id : Bytes}
    (hne : cs'.registry id ≠ cs.registry id) :
    ∃ mh ∈ h.batch, mh.mspID = id ∧ cs'.registry id = mh.effect (cs.registry id) := by
  have hreg := hu.registry id
  unfold Registry.batch at hreg
  cases hentry : Keyed.entry MSPHeader.mspID h.batch id with
  | none =>
    rw [hentry] at hreg
    exact absurd hreg hne
  | some mh =>
    rw [hentry] at hreg
    exact ⟨mh, Keyed.mem_of_entry hentry, Keyed.key_of_entry hentry, hreg⟩

theorem recordsOf_eq (cs : ClientState) (id : Bytes) :
    cs.recordsOf id = (cs.registry id).toList ++ (cs.recordsOf id).tail := by
  have hhead : cs.registry id = (cs.recordsOf id).head? := (Keyed.head?_entries _ _).symm
  rw [hhead]
  cases cs.recordsOf id <;> rfl

/-- If anything changes among the records of an id, the first one does, by a header
of the batch for the id. -/
theorem Updated.header_of_records_ne {cs cs' : ClientState} {h : Header} (hu : Updated cs h cs')
    {id : Bytes} (hne : cs'.recordsOf id ≠ cs.recordsOf id) :
    ∃ mh ∈ h.batch, mh.mspID = id ∧
      cs'.recordsOf id = (mh.effect (cs.registry id)).toList ++ (cs.recordsOf id).tail := by
  have hothers : (cs'.recordsOf id).tail = (cs.recordsOf id).tail := hu.slice.others id
  have hfirst : cs'.registry id ≠ cs.registry id := by
    intro heq
    rw [recordsOf_eq cs', heq, hothers, ← recordsOf_eq] at hne
    exact hne rfl
  obtain ⟨mh, hmem, hid, heffect⟩ := hu.header_of_ne hfirst
  refine ⟨mh, hmem, hid, ?_⟩
  rw [recordsOf_eq, heffect, hothers]

/-- Every record is an old one, or the effect of a header of the batch for its id. -/
theorem Updated.record_cases {cs cs' : ClientState} {h : Header} (hu : Updated cs h cs')
    {info : MSPInfo} (hinfo : info ∈ cs'.lastMspInfos.infos) :
    info ∈ cs.lastMspInfos.infos ∨
      ∃ mh ∈ h.batch, mh.mspID = info.mspID ∧ mh.effect (cs.registry mh.mspID) = some info := by
  have hrecord : info ∈ cs'.recordsOf info.mspID := Keyed.mem_entries.mpr ⟨hinfo, rfl⟩
  by_cases hsame : cs'.recordsOf info.mspID = cs.recordsOf info.mspID
  · rw [hsame] at hrecord
    exact Or.inl (Keyed.mem_entries.mp hrecord).1
  · obtain ⟨mh, hmem, hid, heq⟩ := hu.header_of_records_ne hsame
    rw [heq, List.mem_append] at hrecord
    rcases hrecord with hnew | hold
    · refine Or.inr ⟨mh, hmem, hid, ?_⟩
      rw [hid]
      exact Option.mem_toList.mp hnew
    · exact Or.inl (Keyed.mem_entries.mp (List.mem_of_mem_tail hold)).1

/-- The policy an MSP header was checked against, by its type. -/
theorem MSPHeader.Authorised.signed {F : Fabric} {cs : ClientState} {mh : MSPHeader}
    (h : mh.Authorised F cs) :
    ∃ proof, mh.proof = some proof ∧
      ((mh.type = .updateConfig ∧ ∃ info, cs.registry mh.mspID = some info ∧
          cs.Signed F (info.policy.getD []) proof mh.getSignBytes) ∨
        ((mh.type = .create ∨ mh.type = .updatePolicy ∨ mh.type = .freeze) ∧
          cs.Signed F cs.lastChaincodeInfo.ibcPolicy proof mh.getSignBytes)) := by
  obtain ⟨proof, hproof, hen, hsigned⟩ := h
  refine ⟨proof, hproof, ?_⟩
  unfold MSPHeader.Enabled at hen
  unfold MSPHeader.requiredPolicy at hsigned
  cases htype : mh.type with
  | create => exact Or.inr ⟨Or.inl rfl, by simpa [htype] using hsigned⟩
  | updatePolicy => exact Or.inr ⟨Or.inr (Or.inl rfl), by simpa [htype] using hsigned⟩
  | updateConfig =>
    rw [htype] at hen hsigned
    obtain ⟨info, hinfo, -⟩ := hen
    rw [hinfo] at hsigned
    exact Or.inl ⟨rfl, info, hinfo, hsigned⟩
  | freeze => exact Or.inr ⟨Or.inr (Or.inr rfl), by simpa [htype] using hsigned⟩
  | unrecognized code hcode => simp [htype] at hen

/-- **Authorisation of light-client updates.** Whatever changes in an accepted
update is replaced by a part of the header, and every part the header carries
was authorised by the policies, the unfrozen configs and the chaincode id of the
client state before it: the sequence by its endorsement policy, the chaincode
info by its ibc policy, an MSP header by its ibc policy or, for a change of
config, by the old policy of that MSP. This holds for the whole slice of MSP infos:
of an id without a header every record stays, of an id with one the first record is
replaced, and no other record appears. The signatures are over bytes that determine
every field of the message but its proof. -/
theorem update_authorised {F : Fabric} {cs cs' : ClientState} {header : HeaderI}
    {cons : Option ConsensusState}
    (hok : checkHeaderAndUpdateState F cs header = .ok (cs', cons)) :
    ∃ h, header = .fabric h ∧ cs'.id = cs.id ∧
      (cs'.lastChaincodeHeader ≠ cs.lastChaincodeHeader →
        h.chaincodeHeader = some cs'.lastChaincodeHeader) ∧
      (∀ ch, h.chaincodeHeader = some ch →
        ∃ configs, cs.lastMspInfos.getMSPPBConfigs F = .ok configs ∧
          verifyEndorsedCommitment F cs.lastChaincodeInfo.getFabricChaincodeID
            cs.lastChaincodeInfo.endorsementPolicy ch.proof
            (makeSequenceCommitmentEntryKey ch.sequence.value) ch.sequence.bytes configs =
              .ok true) ∧
      (cs'.lastChaincodeInfo ≠ cs.lastChaincodeInfo →
        h.chaincodeInfo = some cs'.lastChaincodeInfo) ∧
      (∀ ci, h.chaincodeInfo = some ci →
        ∃ proof, ci.proof = some proof ∧
          cs.Signed F cs.lastChaincodeInfo.ibcPolicy proof ci.getSignBytes ∧
          ∀ ci' : ChaincodeInfo, ci'.getSignBytes = ci.getSignBytes →
            { ci' with proof := none } = { ci with proof := none }) ∧
      (∀ id, cs'.recordsOf id ≠ cs.recordsOf id →
        ∃ mh ∈ h.batch, mh.mspID = id ∧
          cs'.recordsOf id = (mh.effect (cs.registry id)).toList ++ (cs.recordsOf id).tail) ∧
      (∀ info ∈ cs'.lastMspInfos.infos, info ∈ cs.lastMspInfos.infos ∨
        ∃ mh ∈ h.batch, mh.mspID = info.mspID ∧ mh.effect (cs.registry mh.mspID) = some info) ∧
      (∀ mh ∈ h.batch,
        ∃ proof, mh.proof = some proof ∧
          ((mh.type = .updateConfig ∧ ∃ info, cs.registry mh.mspID = some info ∧
              cs.Signed F (info.policy.getD []) proof mh.getSignBytes) ∨
            ((mh.type = .create ∨ mh.type = .updatePolicy ∨ mh.type = .freeze) ∧
              cs.Signed F cs.lastChaincodeInfo.ibcPolicy proof mh.getSignBytes)) ∧
          ∀ mh' : MSPHeader, mh'.validateBasic = .ok () → mh'.getSignBytes = mh.getSignBytes →
            { mh' with proof := none } = { mh with proof := none }) := by
  obtain ⟨h, rfl⟩ := fabric_of_accepted hok
  obtain ⟨hacc, hupd, -⟩ := accepted_spec hok
  refine ⟨h, rfl, hupd.id, ?_, ?_, ?_, ?_, fun id hne => hupd.header_of_records_ne hne,
    fun info hinfo => hupd.record_cases hinfo, ?_⟩
  · intro hne
    rw [hupd.chaincodeHeader] at hne ⊢
    cases hch : h.chaincodeHeader with
    | none => rw [hch] at hne; exact absurd rfl hne
    | some ch => rfl
  · intro ch hch
    exact ClientState.exists_endorsed_iff.mp (hacc.chaincodeHeader ch hch).2.2
  · intro hne
    rw [hupd.chaincodeInfo] at hne ⊢
    cases hci : h.chaincodeInfo with
    | none => rw [hci] at hne; exact absurd rfl hne
    | some ci => rfl
  · intro ci hci
    obtain ⟨-, proof, hproof, hsigned⟩ := hacc.chaincodeInfo ci hci
    exact ⟨proof, hproof, hsigned, fun ci' heq => chaincodeInfo_signBytes_inj heq⟩
  · intro mh hmem
    obtain ⟨proof, hproof, hsigned⟩ := (hacc.authorised mh hmem).signed
    exact ⟨proof, hproof, hsigned,
      fun mh' hvalid heq => mspHeader_signBytes_inj hvalid (hacc.well_formed mh hmem) heq⟩

open Symbolic in
/-- A header with all three parts: the next sequence, a new channel, a config
signed by its own organisation and a new organisation admitted by `Org1`. -/
theorem update_authorised_full_header :
    ∃ cs' cons, checkHeaderAndUpdateState fabric client (.fabric
        ⟨some (sequenceHeader ⟨2, 110⟩), some (signInfo org1 { info with channelId := str "ch2" }),
          some ⟨[signMSPHeader org2 (configHeader org2 (encodeMSPConfig org3)),
            signMSPHeader org1 (createHeader org3)]⟩⟩) = .ok (cs', cons) ∧
      cs'.id = client.id := by
  obtain ⟨⟨cs', cons⟩, hok⟩ := Outcome.isOk_iff.mp (show (checkHeaderAndUpdateState fabric client
    (.fabric ⟨some (sequenceHeader ⟨2, 110⟩),
      some (signInfo org1 { info with channelId := str "ch2" }),
      some ⟨[signMSPHeader org2 (configHeader org2 (encodeMSPConfig org3)),
        signMSPHeader org1 (createHeader org3)]⟩⟩)).isOk = true by decide +kernel)
  obtain ⟨-, -, hid, -⟩ := update_authorised hok
  exact ⟨cs', cons, hok, hid⟩

end FabricIBC
