import FabricIBC.LightClient.LifeCycle

/-!
# Fabric-IBC — light client: replayed governance messages

The bytes that are signed for a chaincode info or an MSP header hold the new
value and nothing of the client state: no counter and no previous value. So a
governance part that was accepted once is judged again on its signatures alone.

* `no_replay_create_freeze` — a `Create` and a `Freeze` are never accepted again;
* `governance_replay` — the other parts are accepted again, and bring their old
  value back, whenever the policy they need and the configs in force are again
  those under which they were accepted.
-/

namespace FabricIBC

open Go

/-- The parts of a header that members sign. -/
inductive GovernancePart
  | info (ci : ChaincodeInfo)
  | msp (mh : MSPHeader)
  deriving DecidableEq, Repr

namespace GovernancePart

/-- The header that carries the part and nothing else. -/
def alone : GovernancePart → Header
  | info ci => ⟨none, some ci, none⟩
  | msp mh => ⟨none, none, some ⟨[mh]⟩⟩

def proof : GovernancePart → Option MessageProof
  | info ci => ci.proof
  | msp mh => mh.proof

def getSignBytes : GovernancePart → Bytes
  | info ci => ci.getSignBytes
  | msp mh => mh.getSignBytes

/-- The policy the signatures have to satisfy. -/
def requiredPolicy (cs : ClientState) : GovernancePart → Bytes
  | info _ => cs.lastChaincodeInfo.ibcPolicy
  | msp mh => mh.requiredPolicy cs

/-- The value of the part is the one the client holds. -/
def InForce (cs : ClientState) : GovernancePart → Prop
  | info ci => cs.lastChaincodeInfo = ci
  | msp mh => ∃ info, cs.registry mh.mspID = some info ∧
    (mh.type = .updatePolicy → info.policy = mh.policy) ∧
    (mh.type = .updateConfig → info.config = mh.config)

/-- The MSP a header changes is not frozen. -/
def NotFrozen (cs : ClientState) : GovernancePart → Prop
  | info _ => True
  | msp mh => ∀ info, cs.registry mh.mspID = some info → info.freezed = false

end GovernancePart

/-- The header carries the part. -/
def Header.Carries (h : Header) : GovernancePart → Prop
  | .info ci => h.chaincodeInfo = some ci
  | .msp mh => mh ∈ h.batch

/-! ## What an accepted header says about one of its parts -/

theorem signed_of_carries {F : Fabric} {cs : ClientState} {h : Header} {part : GovernancePart}
    (hacc : Accepts F cs (.fabric h)) (hpart : h.Carries part) :
    ∃ proof, part.proof = some proof ∧
      cs.Signed F (part.requiredPolicy cs) proof part.getSignBytes := by
  have hacc := accepts_fabric_iff.mp hacc
  cases part with
  | info ci =>
    obtain ⟨-, proof, hproof, hsigned⟩ := hacc.chaincodeInfo ci hpart
    exact ⟨proof, hproof, hsigned⟩
  | msp mh =>
    obtain ⟨proof, hproof, -, hsigned⟩ := hacc.authorised mh hpart
    exact ⟨proof, hproof, hsigned⟩

theorem inForce_of_carries {F : Fabric} {cs : ClientState} {h : Header} {part : GovernancePart}
    (hacc : Accepts F cs (.fabric h)) (hpart : h.Carries part) :
    part.InForce (submit F cs (.fabric h)) := by
  cases part with
  | info ci =>
    have hinfo := (updated_of_accepts hacc).chaincodeInfo
    rw [show h.chaincodeInfo = some ci from hpart] at hinfo
    exact hinfo
  | msp mh =>
    have hen := (accepts_fabric_iff.mp hacc).enabled mh hpart
    obtain ⟨info, hinfo⟩ := Option.isSome_iff_exists.mp hen.effect_isSome
    refine ⟨info, (registry_after_header hacc hpart).trans hinfo, ?_, ?_⟩ <;> intro htype <;>
      simp only [MSPHeader.effect, htype, Option.map_eq_some_iff] at hinfo <;>
      obtain ⟨old, -, rfl⟩ := hinfo <;> rfl

theorem enabled_of_record {mh : MSPHeader} {r : Registry}
    (htype : mh.type = .updatePolicy ∨ mh.type = .updateConfig) {info : MSPInfo}
    (hinfo : r mh.mspID = some info) (hfr : info.freezed = false) : mh.Enabled r := by
  unfold MSPHeader.Enabled
  rcases htype with htype | htype <;> rw [htype] <;> exact ⟨info, hinfo, hfr⟩

/-- What signatures were good for once they are good for under the same policy
and the same configs. -/
theorem ClientState.Signed.congr {F : Fabric} {cs cs' : ClientState} {policy policy' : Bytes}
    {proof : MessageProof} {message : Bytes} (h : cs.Signed F policy proof message)
    (hpolicy : policy' = policy)
    (hconfigs : cs'.lastMspInfos.getMSPPBConfigs F = cs.lastMspInfos.getMSPPBConfigs F) :
    cs'.Signed F policy' proof message := by
  unfold ClientState.Signed
  rw [hpolicy, hconfigs]
  exact h

/-! ## Replays -/

/-- A `Create` and a `Freeze` are used up. -/
theorem no_replay_create_freeze {F : Fabric} {cs : ClientState} {h h' : Header} {mh : MSPHeader}
    (hacc : Accepts F cs (.fabric h)) (hmem : mh ∈ h.batch)
    (htype : mh.type = .create ∨ mh.type = .freeze) (later : List HeaderI) (hmem' : mh ∈ h'.batch) :
    ¬ Accepts F (runHeaders F (submit F cs (.fabric h)) later) (.fabric h') := by
  obtain ⟨info, hinfo, hfrozen⟩ := record_after_run hacc hmem later
  rcases htype with htype | htype
  · -- the record is still there
    intro hacc'
    have hnone := registry_none_of_create hacc' hmem' htype
    rw [hinfo] at hnone
    exact Option.some_ne_none _ hnone
  · -- the record is still frozen
    exact rejected_of_frozen hmem' hinfo (hfrozen htype)

/-- A part that was accepted and can still be applied is accepted again under
the same policy and configs. -/
theorem accepts_alone_again {F : Fabric} {cs t : ClientState} {h : Header} {part : GovernancePart}
    (hacc : Accepts F cs (.fabric h)) (hpart : h.Carries part)
    (hen : ∀ mh, part = .msp mh → mh.Enabled t.registry)
    (hpolicy : part.requiredPolicy t = part.requiredPolicy cs)
    (hconfigs : t.lastMspInfos.getMSPPBConfigs F = cs.lastMspInfos.getMSPPBConfigs F) :
    Accepts F t (.fabric part.alone) := by
  -- the sign bytes hold nothing of the client state, so the signatures are as good
  obtain ⟨proof, hproof, hsigned⟩ := signed_of_carries hacc hpart
  have hsigned := hsigned.congr hpolicy hconfigs
  have hacc := accepts_fabric_iff.mp hacc
  rw [accepts_fabric_iff]
  cases part with
  | info ci =>
    exact {
      some_part := Or.inr (Or.inl rfl)
      chaincodeHeader := fun _ h => absurd h (Option.some_ne_none _).symm
      chaincodeInfo := by
        rintro _ ⟨⟩
        exact ⟨(hacc.chaincodeInfo ci hpart).1, proof, hproof, hsigned⟩
      well_formed := fun _ h => absurd h List.not_mem_nil
      ascending := List.Pairwise.nil
      authorised := fun _ h => absurd h List.not_mem_nil }
  | msp mh =>
    exact {
      some_part := Or.inr (Or.inr rfl)
      chaincodeHeader := fun _ h => absurd h (Option.some_ne_none _).symm
      chaincodeInfo := fun _ h => absurd h (Option.some_ne_none _).symm
      well_formed := fun m hm => List.mem_singleton.mp hm ▸ hacc.well_formed mh hpart
      ascending := List.pairwise_singleton _ _
      authorised := fun m hm =>
        List.mem_singleton.mp hm ▸ ⟨proof, hproof, hen mh rfl, hsigned⟩ }

/-- **Replay of governance parts.** Take a part that was accepted and any run
of headers after it. A `Create` and a `Freeze` are rejected from then on, in
whatever header they come. Any other part is accepted only with signatures
that satisfy the policy it needs at that time under the configs in force at
that time; and when that policy and these configs are those under which it was
accepted, it is accepted again, unless its MSP is frozen, and its value is in
force again. -/
theorem governance_replay {F : Fabric} {cs : ClientState} {h : Header} {part : GovernancePart}
    (hacc : Accepts F cs (.fabric h)) (hpart : h.Carries part) (later : List HeaderI) :
    (∀ mh, part = .msp mh → mh.type = .create ∨ mh.type = .freeze →
      ∀ h', h'.Carries part →
        ¬ Accepts F (runHeaders F (submit F cs (.fabric h)) later) (.fabric h')) ∧
    (∀ h', h'.Carries part →
      Accepts F (runHeaders F (submit F cs (.fabric h)) later) (.fabric h') →
      ∃ proof, part.proof = some proof ∧
        (runHeaders F (submit F cs (.fabric h)) later).Signed F
          (part.requiredPolicy (runHeaders F (submit F cs (.fabric h)) later)) proof
          part.getSignBytes) ∧
    ((∀ mh, part = .msp mh → mh.type = .updatePolicy ∨ mh.type = .updateConfig) →
      part.requiredPolicy (runHeaders F (submit F cs (.fabric h)) later) =
        part.requiredPolicy cs →
      (runHeaders F (submit F cs (.fabric h)) later).lastMspInfos.getMSPPBConfigs F =
        cs.lastMspInfos.getMSPPBConfigs F →
      part.NotFrozen (runHeaders F (submit F cs (.fabric h)) later) →
      Accepts F (runHeaders F (submit F cs (.fabric h)) later) (.fabric part.alone) ∧
        part.InForce (runHeaders F (submit F cs (.fabric h)) (later ++ [.fabric part.alone]))) := by
  refine ⟨?_, fun h' hpart' hacc' => signed_of_carries hacc' hpart', ?_⟩
  · rintro mh rfl htype h' hpart'
    exact no_replay_create_freeze hacc hpart htype later hpart'
  · intro htypes hpolicy hconfigs hfrozen
    -- its record is still there
    have hen : ∀ mh, part = .msp mh →
        mh.Enabled (runHeaders F (submit F cs (.fabric h)) later).registry := by
      rintro mh rfl
      obtain ⟨info, hinfo, -⟩ := record_after_run hacc hpart later
      exact enabled_of_record (htypes mh rfl) hinfo (hfrozen info hinfo)
    have hagain := accepts_alone_again hacc hpart hen hpolicy hconfigs
    refine ⟨hagain, ?_⟩
    rw [runHeaders, Run.run_append, Run.run_cons, Run.run_nil]
    refine inForce_of_carries hagain ?_
    cases part with
    | info ci => rfl
    | msp mh => exact List.mem_singleton.mpr rfl

namespace Symbolic

/-- A header with a chaincode info, a policy for `Org1` and a config for `Org2`. -/
def governanceHeader (channel policy config : Bytes) : Header :=
  ⟨none, some (signInfo org1 { info with channelId := channel }),
    some ⟨[signMSPHeader org1 (policyHeader org1 policy),
      signMSPHeader org2 (configHeader org2 config)]⟩⟩

def firstGovernance : Header :=
  governanceHeader (str "ch1") (encodePolicy org1) (encodeMSPConfig org2)

/-- New values for all three; the members and the IBC policy stay. -/
def secondGovernance : Header :=
  governanceHeader (str "ch2") (encodePolicy org2)
    (Wire.varintField 0x08 1 ++ encodeMSPConfig org2)

end Symbolic

open Symbolic in
/-- The first chaincode info after the second header. -/
theorem governance_replay_info :
    (GovernancePart.info (signInfo org1 { info with channelId := str "ch1" })).InForce
      (runHeaders fabric (submit fabric client (.fabric firstGovernance))
        ([.fabric secondGovernance] ++
          [.fabric (GovernancePart.info (signInfo org1 { info with channelId := str "ch1" })).alone])) := by
  have hacc : Accepts fabric client (.fabric firstGovernance) :=
    Outcome.isOk_iff.mp (by decide +kernel)
  have hpart : firstGovernance.Carries
      (.info (signInfo org1 { info with channelId := str "ch1" })) := rfl
  refine ((governance_replay hacc hpart [.fabric secondGovernance]).2.2 ?_ ?_ ?_ ?_).2
  · intro mh h
    cases h
  · decide +kernel
  · decide +kernel
  · trivial

open Symbolic in
/-- A chaincode info, the policy of an MSP and the config of an MSP are
replaced, and then brought back by the header that installed them first. -/
theorem client_rolled_back :
    (checkHeaderAndUpdateState fabric client (.fabric firstGovernance)).isOk = true ∧
    (checkHeaderAndUpdateState fabric (runHeaders fabric client [.fabric firstGovernance])
      (.fabric secondGovernance)).isOk = true ∧
    (runHeaders fabric client [.fabric firstGovernance, .fabric secondGovernance]).lastChaincodeInfo ≠
      (runHeaders fabric client [.fabric firstGovernance]).lastChaincodeInfo ∧
    (runHeaders fabric client [.fabric firstGovernance, .fabric secondGovernance]).registry org1 ≠
      (runHeaders fabric client [.fabric firstGovernance]).registry org1 ∧
    (runHeaders fabric client [.fabric firstGovernance, .fabric secondGovernance]).registry org2 ≠
      (runHeaders fabric client [.fabric firstGovernance]).registry org2 ∧
    (checkHeaderAndUpdateState fabric
      (runHeaders fabric client [.fabric firstGovernance, .fabric secondGovernance])
      (.fabric firstGovernance)).isOk = true ∧
    runHeaders fabric client
        [.fabric firstGovernance, .fabric secondGovernance, .fabric firstGovernance] =
      runHeaders fabric client [.fabric firstGovernance] := by
  decide +kernel

end FabricIBC
