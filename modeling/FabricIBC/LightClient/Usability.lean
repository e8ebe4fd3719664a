import FabricIBC.LightClient.LifeCycle

/-!
# Fabric-IBC — light client: updates that disable the client

Every verification starts by decoding the configs of all MSPs that are not
frozen. The configs and policies a header brings are stored as bytes; nothing
decodes them when they are accepted.

* `disabled_forever` — a client whose configs do not decode never changes its
  state again and verifies nothing;
* `usable_after_update_iff` — from a usable client, an accepted header leaves a
  usable client exactly when the configs it carries decode, the MSPs set up and
  the policies are signature policies; and any bytes are accepted as a config.
-/

namespace FabricIBC

open Go

/-- The client can evaluate proofs and signatures. -/
def Usable (F : Fabric) (cs : ClientState) : Prop :=
  ∃ configs, cs.lastMspInfos.getMSPPBConfigs F = .ok configs ∧
    (∃ p, getPolicyEvaluator F cs.lastChaincodeInfo.endorsementPolicy configs = .ok p) ∧
    ∃ p, getPolicyEvaluator F cs.lastChaincodeInfo.ibcPolicy configs = .ok p

/-- The computable form of `Usable`. -/
def isUsable (F : Fabric) (cs : ClientState) : Bool :=
  match cs.lastMspInfos.getMSPPBConfigs F with
  | .ok configs =>
    (getPolicyEvaluator F cs.lastChaincodeInfo.endorsementPolicy configs).isOk &&
      (getPolicyEvaluator F cs.lastChaincodeInfo.ibcPolicy configs).isOk
  | .err _ => false
  | .panic _ => false

theorem isUsable_iff {F : Fabric} {cs : ClientState} : isUsable F cs = true ↔ Usable F cs := by
  unfold isUsable Usable
  cases cs.lastMspInfos.getMSPPBConfigs F <;> simp [Outcome.isOk_iff]

instance (F : Fabric) (cs : ClientState) : Decidable (Usable F cs) :=
  decidable_of_iff _ isUsable_iff

/-! ## Decoding the configs -/

/-- The record is frozen or its config decodes. -/
def MSPInfo.Decodes (F : Fabric) (info : MSPInfo) : Prop :=
  info.freezed = false → ∃ bz c, info.config = some bz ∧ F.unmarshalMSPConfig bz = .ok c

/-- The config a header brings, if its type brings one, decodes. -/
def MSPHeader.ConfigDecodes (F : Fabric) (mh : MSPHeader) : Prop :=
  mh.type = .create ∨ mh.type = .updateConfig →
    ∃ bz c, mh.config = some bz ∧ F.unmarshalMSPConfig bz = .ok c

theorem getMSPPBConfigs_ok_iff {F : Fabric} {mi : MSPInfos} :
    (∃ configs, mi.getMSPPBConfigs F = .ok configs) ↔ ∀ info ∈ mi.infos, info.Decodes F := by
  rw [exists_congr fun _ => getMSPPBConfigs_eq_ok_iff, exists_forall₂_iff]
  simp only [List.mem_filter, Bool.not_eq_true', MSPInfo.Decodes, and_imp]
  refine forall_congr' fun info => imp_congr_right fun _ => imp_congr_right fun _ => ?_
  exact exists_comm

/-- One updater keeps all configs decodable, if the one it brings decodes. -/
theorem updateMSPInfo_decodes {F : Fabric} {cs cs' : ClientState} {mh : MSPHeader}
    (hmh : mh.ConfigDecodes F) (hstep : updateMSPInfo cs mh = .ok cs')
    (hold : ∀ info ∈ cs.lastMspInfos.infos, info.Decodes F) :
    ∀ info ∈ cs'.lastMspInfos.infos, info.Decodes F := by
  -- a change in place that keeps records decodable
  have hmodify : ∀ f : MSPInfo → MSPInfo, (∀ info, info.Decodes F → (f info).Decodes F) →
      modifyMSPInfo f cs mh.mspID = .ok cs' →
      ∀ info ∈ cs'.lastMspInfos.infos, info.Decodes F := by
    intro f hf hok info hmem
    obtain ⟨idx, -, rfl⟩ := modifyMSPInfo_eq_ok_iff.mp hok
    rcases Keyed.mem_modify hmem with hmem | ⟨b, hb, rfl⟩
    · exact hold info hmem
    · exact hf b (hold b hb)
  unfold updateMSPInfo at hstep
  unfold MSPHeader.ConfigDecodes at hmh
  cases htype : mh.type with
  | create =>
    rw [htype] at hstep hmh
    rw [createMSPInfo, Outcome.ok.injEq] at hstep
    subst hstep
    intro info hmem
    simp only [ClientState.withInfos, insertMSPInfo_false, Keyed.mem_insert] at hmem
    rcases hmem with rfl | hmem
    · exact fun _ => hmh (Or.inl rfl)
    · exact hold info hmem
  | updatePolicy =>
    rw [htype] at hstep
    exact hmodify (fun info => { info with policy := mh.policy }) (fun info h => h) hstep
  | updateConfig =>
    -- the new config decodes whatever the record was
    rw [htype] at hstep hmh
    exact hmodify _ (fun info _ _ => hmh (Or.inr rfl)) hstep
  | freeze =>
    -- the config of a frozen record is not asked for
    rw [htype] at hstep
    exact hmodify _ (fun info _ h => absurd h (by simp)) hstep
  | unrecognized code h => simp [htype] at hstep

/-- Records in place that keep their config and their frozen flag. -/
theorem pbConfigs_modify {F : Fabric} {f : MSPInfo → MSPInfo}
    (hfr : ∀ info, (f info).freezed = info.freezed) (hcfg : ∀ info, (f info).config = info.config)
    (infos : List MSPInfo) (i : Nat) :
    MSPInfos.pbConfigs F (infos.modify i f) = MSPInfos.pbConfigs F infos := by
  induction infos generalizing i with
  | nil => simp
  | cons info infos ih =>
    cases i with
    | zero => simp only [List.modify_zero_cons, MSPInfos.pbConfigs, hfr, hcfg]
    | succ i => simp only [List.modify_succ_cons, MSPInfos.pbConfigs, ih]

/-- A batch of new policies leaves the configs in force as they are. -/
theorem foldMSPHeaders_updatePolicy {F : Fabric} {headers : List MSPHeader} {cs cs' : ClientState}
    (htypes : ∀ mh ∈ headers, mh.type = .updatePolicy)
    (hrun : foldMSPHeaders cs headers = .ok cs') :
    cs'.lastMspInfos.getMSPPBConfigs F = cs.lastMspInfos.getMSPPBConfigs F := by
  refine foldMSPHeaders_invariant
    (P := fun c => c.lastMspInfos.getMSPPBConfigs F = cs.lastMspInfos.getMSPPBConfigs F)
    (fun mh hmem c c' hstep hc => ?_) hrun rfl
  rw [← hc]
  unfold updateMSPInfo at hstep
  rw [htypes mh hmem] at hstep
  obtain ⟨idx, -, rfl⟩ := modifyMSPInfo_eq_ok_iff.mp hstep
  exact pbConfigs_modify (f := fun info => { info with policy := mh.policy }) (fun _ => rfl)
    (fun _ => rfl) _ _

/-- The MSP loop of an update starts from the MSP infos of the client state. -/
theorem update_fold {cs cs' : ClientState} {h : Header} {cons : Option ConsensusState}
    (hupd : update cs h = .ok (cs', cons)) :
    ∃ cs₁, cs₁.lastMspInfos = cs.lastMspInfos ∧ foldMSPHeaders cs₁ h.batch = .ok cs' := by
  unfold update at hupd
  cases hbasic : h.validateBasic with
  | err e => simp [hbasic] at hupd
  | panic p => simp [hbasic] at hupd
  | ok u =>
    rw [hbasic] at hupd
    obtain ⟨cs₂, hmsp, hres⟩ := Outcome.bind_eq_ok_iff.mp hupd
    simp only [Outcome.ok.injEq, Prod.mk.injEq] at hres
    obtain ⟨rfl, -⟩ := hres
    refine ⟨{ cs with
      lastChaincodeInfo := h.chaincodeInfo.getD cs.lastChaincodeInfo
      lastChaincodeHeader := h.chaincodeHeader.getD cs.lastChaincodeHeader }, rfl, ?_⟩
    rwa [updateMSPInfosIfPresent_eq] at hmsp

/-- After an accepted header the configs decode exactly when those it brought do. -/
theorem decodes_after_update_iff {F : Fabric} {cs cs' : ClientState} {h : Header}
    {cons : Option ConsensusState}
    (hok : checkHeaderAndUpdateState F cs (.fabric h) = .ok (cs', cons))
    (hold : ∃ configs, cs.lastMspInfos.getMSPPBConfigs F = .ok configs) :
    (∃ configs, cs'.lastMspInfos.getMSPPBConfigs F = .ok configs) ↔
      ∀ mh ∈ h.batch, mh.ConfigDecodes F := by
  obtain ⟨hacc, hupd, -⟩ := accepted_spec hok
  rw [getMSPPBConfigs_ok_iff] at hold ⊢
  constructor
  · -- the record a header leaves is one of the slice, and not frozen
    intro hnew mh hmem htype
    have hreg := hupd.registry mh.mspID
    rw [Registry.batch_of_mem hacc.batch_distinct hmem] at hreg
    have hen := hacc.enabled mh hmem
    unfold MSPHeader.effect at hreg
    unfold MSPHeader.Enabled at hen
    rcases htype with htype | htype
    · rw [htype] at hreg
      exact hnew _ (Keyed.mem_of_entry hreg) rfl
    · rw [htype] at hreg hen
      obtain ⟨info, hinfo, hfr⟩ := hen
      rw [hinfo] at hreg
      exact hnew _ (Keyed.mem_of_entry hreg) hfr
  · intro hmhs
    obtain ⟨cs₁, hinfos, hfold⟩ := update_fold (accepted_iff.mp hok).2
    refine foldMSPHeaders_invariant
      (P := fun c => ∀ info ∈ c.lastMspInfos.infos, info.Decodes F)
      (fun mh hmem _ _ hstep => updateMSPInfo_decodes (hmhs mh hmem) hstep) hfold ?_
    rw [hinfos]
    exact hold

/-! ## Disabled for ever -/

/-- Without decodable configs nothing is signed or endorsed. -/
theorem not_signed_of_disabled {F : Fabric} {cs : ClientState}
    (hdis : ¬ ∃ configs, cs.lastMspInfos.getMSPPBConfigs F = .ok configs) :
    (∀ policy proof message, ¬ cs.Signed F policy proof message) ∧
      ∀ proof w, ¬ cs.Endorsed F proof w :=
  ⟨fun _ _ _ ⟨configs, _, hconfigs, _⟩ => hdis ⟨configs, hconfigs⟩,
    fun _ _ ⟨configs, hconfigs, _⟩ => hdis ⟨configs, hconfigs⟩⟩

theorem submit_of_disabled {F : Fabric} {cs : ClientState}
    (hdis : ¬ ∃ configs, cs.lastMspInfos.getMSPPBConfigs F = .ok configs) (header : HeaderI) :
    submit F cs header = cs := by
  obtain ⟨hsigned, hendorsed⟩ := not_signed_of_disabled hdis
  by_cases hacc : Accepts F cs header
  · obtain ⟨⟨cs', cons⟩, hok⟩ := hacc
    obtain ⟨h, rfl⟩ := fabric_of_accepted hok
    -- only an empty batch of MSP headers is accepted
    obtain ⟨hacc, hupd, -⟩ := accepted_spec hok
    have hch : h.chaincodeHeader = none := by
      refine Option.eq_none_iff_forall_ne_some.mpr fun ch hch => ?_
      obtain ⟨-, -, w, hw, -⟩ := hacc.chaincodeHeader ch hch
      exact hendorsed _ w hw
    have hci : h.chaincodeInfo = none := by
      refine Option.eq_none_iff_forall_ne_some.mpr fun ci hci => ?_
      obtain ⟨-, proof, -, hs⟩ := hacc.chaincodeInfo ci hci
      exact hsigned _ _ _ hs
    have hbatch : h.batch = [] := by
      refine List.eq_nil_iff_forall_not_mem.mpr fun mh hmem => ?_
      obtain ⟨proof, -, -, hs⟩ := hacc.authorised mh hmem
      exact hsigned _ _ _ hs
    obtain ⟨cs₁, hinfos, hfold⟩ := update_fold (accepted_iff.mp hok).2
    rw [hbatch, foldMSPHeaders, Outcome.ok.injEq] at hfold
    have hsubmit : submit F cs (.fabric h) = cs' := by
      unfold submit
      rw [hok]
    have hheader := hupd.chaincodeHeader
    have hinfo := hupd.chaincodeInfo
    rw [hch] at hheader
    rw [hci] at hinfo
    rw [hsubmit]
    obtain ⟨id, lastHeader, lastInfo, lastInfos⟩ := cs
    subst hfold
    exact ClientState.mk.injEq .. ▸ ⟨hupd.id, hheader, hinfo, hinfos⟩
  · exact submit_of_not_accepts hacc

/-- **Disabled for ever.** Once the configs of a client do not decode, no run
of headers changes its state, and none of the eight verifications succeeds
after it. -/
theorem disabled_forever {F : Fabric} {C : Codec} {cs : ClientState}
    (hdis : ¬ ∃ configs, cs.lastMspInfos.getMSPPBConfigs F = .ok configs) (headers : List HeaderI) :
    runHeaders F cs headers = cs ∧
      ∀ args key value, verifyMembership F C (runHeaders F cs headers) args key value ≠ .ok () := by
  have hrun : runHeaders F cs headers = cs :=
    Run.run_invariant (P := fun s => s = cs)
      (fun s header hs => by rw [hs]; exact submit_of_disabled hdis header) rfl headers
  refine ⟨hrun, fun args key value hok => ?_⟩
  rw [hrun] at hok
  obtain ⟨proof, -, -, w, -, -, hw, -⟩ := verifyMembership_eq_ok_iff.mp hok
  exact (not_signed_of_disabled hdis).2 proof w hw

/-! ## Usable clients -/

/-- One manager for all the MSPs in force evaluates both policies. -/
theorem usable_iff {F : Fabric} {cs : ClientState} :
    Usable F cs ↔
      (∃ configs, cs.lastMspInfos.getMSPPBConfigs F = .ok configs) ∧
      ∀ configs, cs.lastMspInfos.getMSPPBConfigs F = .ok configs →
        ∃ mgr, setupVerifyingMSPManager F configs = .ok mgr ∧
          ∀ policy ∈ [cs.lastChaincodeInfo.endorsementPolicy, cs.lastChaincodeInfo.ibcPolicy],
            ∃ sigp p, F.unmarshalApplicationPolicy policy = .ok (some (.signaturePolicy sigp)) ∧
              F.newPolicy mgr sigp = .ok p := by
  unfold Usable
  simp only [getPolicyEvaluator_eq_ok_iff, List.mem_cons, List.not_mem_nil, or_false,
    forall_eq_or_imp, forall_eq]
  constructor
  · rintro ⟨configs, hconfigs, ⟨p, sigp, mgr, hap, hmgr, hp⟩, p', sigp', mgr', hap', hmgr', hp'⟩
    refine ⟨⟨configs, hconfigs⟩, ?_⟩
    intro configs' hconfigs'
    obtain rfl : configs = configs' := Outcome.ok.inj (hconfigs.symm.trans hconfigs')
    -- both policies are evaluated by one manager
    obtain rfl : mgr = mgr' := Outcome.ok.inj (hmgr.symm.trans hmgr')
    exact ⟨mgr, hmgr, ⟨sigp, p, hap, hp⟩, sigp', p', hap', hp'⟩
  · rintro ⟨⟨configs, hconfigs⟩, heval⟩
    obtain ⟨mgr, hmgr, ⟨sigp, p, hap, hp⟩, sigp', p', hap', hp'⟩ := heval configs hconfigs
    exact ⟨configs, hconfigs, ⟨p, sigp, mgr, hap, hmgr, hp⟩, p', sigp', mgr, hap', hmgr, hp'⟩

/-- New policies of MSPs leave a usable client usable. -/
theorem usable_of_updatePolicy {F : Fabric} {cs cs' : ClientState} {h : Header}
    {cons : Option ConsensusState} (husable : Usable F cs)
    (hok : checkHeaderAndUpdateState F cs (.fabric h) = .ok (cs', cons))
    (hci : h.chaincodeInfo = none) (hpolicy : ∀ mh ∈ h.batch, mh.type = .updatePolicy) :
    Usable F cs' := by
  -- neither the configs nor the policies of the chaincode change
  obtain ⟨cs₁, hinfos, hfold⟩ := update_fold (accepted_iff.mp hok).2
  have hconfigs : cs'.lastMspInfos.getMSPPBConfigs F = cs.lastMspInfos.getMSPPBConfigs F :=
    hinfos ▸ foldMSPHeaders_updatePolicy hpolicy hfold
  unfold Usable
  rw [(accepted_spec hok).2.1.chaincodeInfo, hci, hconfigs]
  exact husable

/-- A config is accepted whatever its bytes are: the policy of the MSP is all that is
asked. -/
theorem accepts_updateConfig {F : Fabric} {cs : ClientState} {mh : MSPHeader} {info : MSPInfo}
    {proof : MessageProof} (htype : mh.type = .updateConfig) (hid : mh.mspID ≠ [])
    (hconfig : mh.config.isSome) (hpolicy : mh.policy = none) (hproof : mh.proof = some proof)
    (hinfo : cs.registry mh.mspID = some info) (hfr : info.freezed = false)
    (hsigned : cs.Signed F (info.policy.getD []) proof mh.getSignBytes) :
    Accepts F cs (.fabric ⟨none, none, some ⟨[mh]⟩⟩) := by
  have hvalid : mh.validateBasic = .ok () := by
    refine mspHeader_validateBasic_eq_ok_iff.mpr ⟨hid, ?_, Option.isSome_of_eq_some hproof⟩
    rw [MSPHeader.validConfigPolicy, htype, hpolicy]
    simpa using hconfig
  have hauth : mh.Authorised F cs := by
    refine ⟨proof, hproof, ?_, ?_⟩
    · rw [MSPHeader.Enabled, htype]
      exact ⟨info, hinfo, hfr⟩
    · rw [MSPHeader.requiredPolicy, htype, hinfo]
      exact hsigned
  refine accepts_fabric_iff.mpr ⟨Or.inr (Or.inr rfl), ?_, ?_, ?_, ?_, ?_⟩
  · intro ch hch
    cases hch
  · intro ci hci
    cases hci
  · intro m hm
    rwa [List.mem_singleton.mp hm]
  · exact List.pairwise_singleton _ _
  · intro m hm
    rwa [List.mem_singleton.mp hm]

/-- **When an accepted update leaves the client usable.** The configs its
`Create` and `UpdateConfig` headers carry have to decode; the MSPs in force
afterwards have to set up, and both policies in force afterwards have to be
signature policies Fabric can evaluate. Without a chaincode info and such MSP
headers the configs stay decodable, and without a `Freeze` either the client
stays usable. If a config does not decode, no later header changes the client state
and none of the eight verifications succeeds any more.

Nothing else is asked of a new config: with any bytes it is accepted, if the policy of
its MSP alone is satisfied. -/
theorem usable_after_update_iff {F : Fabric} {C : Codec} {cs : ClientState}
    (husable : Usable F cs) :
    (∀ header cs' cons, checkHeaderAndUpdateState F cs header = .ok (cs', cons) →
      ∃ h, header = .fabric h ∧
        (Usable F cs' ↔
          (∀ mh ∈ h.batch, mh.type = .create ∨ mh.type = .updateConfig →
            ∃ bz c, mh.config = some bz ∧ F.unmarshalMSPConfig bz = .ok c) ∧
          ∀ configs, cs'.lastMspInfos.getMSPPBConfigs F = .ok configs →
            ∃ mgr, setupVerifyingMSPManager F configs = .ok mgr ∧
              ∀ policy ∈ [cs'.lastChaincodeInfo.endorsementPolicy, cs'.lastChaincodeInfo.ibcPolicy],
                ∃ sigp p, F.unmarshalApplicationPolicy policy = .ok (some (.signaturePolicy sigp)) ∧
                  F.newPolicy mgr sigp = .ok p) ∧
        (h.chaincodeInfo = none →
          (∀ mh ∈ h.batch, mh.type = .updatePolicy ∨ mh.type = .freeze) →
          (∃ configs, cs'.lastMspInfos.getMSPPBConfigs F = .ok configs) ∧
          ((∀ mh ∈ h.batch, mh.type = .updatePolicy) → Usable F cs')) ∧
        ((∃ mh ∈ h.batch, (mh.type = .create ∨ mh.type = .updateConfig) ∧
            ¬ ∃ bz c, mh.config = some bz ∧ F.unmarshalMSPConfig bz = .ok c) →
          ∀ later, runHeaders F cs' later = cs' ∧
            ∀ args key value,
              verifyMembership F C (runHeaders F cs' later) args key value ≠ .ok ())) ∧
    ∀ (mh : MSPHeader) (info : MSPInfo) (proof : MessageProof) (bz : Bytes),
      mh.type = .updateConfig → mh.mspID ≠ [] → mh.config = some bz → mh.policy = none →
      mh.proof = some proof → cs.registry mh.mspID = some info → info.freezed = false →
      cs.Signed F (info.policy.getD []) proof mh.getSignBytes →
      Accepts F cs (.fabric ⟨none, none, some ⟨[mh]⟩⟩) := by
  refine ⟨?_, ?_⟩
  · intro header cs' cons hok
    obtain ⟨h, rfl⟩ := fabric_of_accepted hok
    have hdec := decodes_after_update_iff hok ⟨_, husable.choose_spec.1⟩
    refine ⟨h, rfl, ?_, ?_, ?_⟩
    · rw [usable_iff, hdec]
      rfl
    · intro hci htypes
      refine ⟨hdec.mpr fun mh hmem htype => ?_, usable_of_updatePolicy husable hok hci⟩
      rcases htypes mh hmem with ht | ht <;> rw [ht] at htype <;> simp at htype
    · rintro ⟨mh, hmem, htype, hnot⟩ later
      exact disabled_forever (fun hconfigs => hnot (hdec.mp hconfigs mh hmem htype)) later
  · intro mh info proof bz htype hid hconfig hpolicy hproof hinfo hfr hsigned
    exact accepts_updateConfig htype hid (Option.isSome_of_eq_some hconfig) hpolicy hproof hinfo
      hfr hsigned

open Symbolic in
/-- Freezing an organisation leaves the configs decodable. -/
theorem usable_after_update_freeze :
    ∃ cs' cons, checkHeaderAndUpdateState fabric client
        (.fabric ⟨none, none, some ⟨[signMSPHeader org1 (freezeHeader org2)]⟩⟩) = .ok (cs', cons) ∧
      ∃ configs, cs'.lastMspInfos.getMSPPBConfigs fabric = .ok configs := by
  have husable : Usable fabric client := by decide +kernel
  obtain ⟨⟨cs', cons⟩, hok⟩ := Outcome.isOk_iff.mp (show (checkHeaderAndUpdateState fabric client
    (.fabric ⟨none, none, some ⟨[signMSPHeader org1 (freezeHeader org2)]⟩⟩)).isOk = true by
      decide +kernel)
  obtain ⟨h, heq, -, hkeep, -⟩ := (usable_after_update_iff (C := codec) husable).1 _ _ _ hok
  cases heq
  refine ⟨cs', cons, hok, (hkeep rfl fun mh hmem => ?_).1⟩
  rw [List.mem_singleton.mp hmem]
  exact Or.inr rfl

open Symbolic in
/-- A usable client accepts a config for `Org2`, signed by `Org2` alone, that
does not decode; afterwards it is not usable. -/
theorem update_config_disables :
    Usable fabric client ∧
    (checkHeaderAndUpdateState fabric client (.fabric ⟨none, none,
      some ⟨[signMSPHeader org2 (configHeader org2 (str "config"))]⟩⟩)).isOk = true ∧
    ¬ Usable fabric (submit fabric client (.fabric ⟨none, none,
      some ⟨[signMSPHeader org2 (configHeader org2 (str "config"))]⟩⟩)) := by
  decide +kernel

end FabricIBC
