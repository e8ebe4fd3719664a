import FabricIBC.Chaincode.Agreement

/-!
# Fabric-IBC — both chains: where an accepted proof comes from

A commitment proof carries the endorsed payload of one proposal and the
position of a write in it. What `VerifyEndorsedCommitment` checks of the origin
is the chaincode id of the payload; the name of the namespace at the position
and the channel of the proposal are not looked at.

* `accepted_proof_origin` — so an accepted write stands in some namespace of a
  proposal of the client's chaincode, a proof is never accepted by clients of
  different chaincodes, and it is accepted by clients of all channels alike;
* `foreign_origin_accepted` — a write of another namespace, presented to
  clients of two channels.
-/

namespace FabricIBC

open Go

/-! ## The chaincode of a proof -/

section Chaincode

variable {F : Fabric} {cs cs' : ClientState} {proof : CommitmentProof} {w w' : KVWrite}

/-- The payload of an accepted proof names the chaincode of the client. -/
theorem ClientState.Endorsed.chaincodeId (h : cs.Endorsed F proof w) :
    ∃ rwset, getTxReadWriteSetFromProposalResponsePayload F proof.proposal =
      .ok (some cs.lastChaincodeInfo.chaincodeId, rwset) := by
  obtain ⟨configs, -, sigs, rwset, ns, -, -, hset, -, -⟩ := h
  exact ⟨rwset, hset⟩

/-- Clients that accept one proof follow one chaincode. -/
theorem ClientState.Endorsed.chaincodeId_eq (h : cs.Endorsed F proof w)
    (h' : cs'.Endorsed F proof w') :
    cs.lastChaincodeInfo.chaincodeId = cs'.lastChaincodeInfo.chaincodeId := by
  obtain ⟨rwset, hset⟩ := h.chaincodeId
  obtain ⟨rwset', hset'⟩ := h'.chaincodeId
  rw [hset] at hset'
  simp only [Outcome.ok.injEq, Prod.mk.injEq, Option.some.injEq] at hset'
  exact hset'.1

end Chaincode

/-! ## The channel of a client -/

/-- The same client on another channel. -/
def ClientState.onChannel (cs : ClientState) (channelId : Bytes) : ClientState :=
  { cs with lastChaincodeInfo := { cs.lastChaincodeInfo with channelId := channelId } }

/-- A verification does not read the channel. -/
theorem verifyMembership_onChannel (F : Fabric) (C : Codec) (cs : ClientState) (channelId : Bytes)
    (args : VerifyArgs) (key : Bytes → Bytes) (value : Result Bytes) :
    verifyMembership F C (cs.onChannel channelId) args key value =
      verifyMembership F C cs args key value := rfl

/-! ## Origin -/

/-- **What is known of the origin of an accepted proof.** The accepted write
stands at the position of the proof, in a namespace of a proposal that carries
the chaincode id asked for. No proof is accepted by two clients whose chaincode
ids differ, whatever is verified with it. Of two clients that differ in the
channel only, every verification says the same. -/
theorem accepted_proof_origin (F : Fabric) (C : Codec) :
    (∀ ccID policy proof key value configs,
      verifyEndorsedCommitment F ccID policy proof key value configs = .ok true →
      ∃ rwset ns w,
        getTxReadWriteSetFromProposalResponsePayload F proof.proposal = .ok (some ccID, rwset) ∧
        rwset[proof.nsIndex.toNat]? = some ns ∧ ns.writes[proof.writeSetIndex.toNat]? = some w ∧
        w.key = key ∧ w.value = value) ∧
    (∀ (cs cs' : ClientState) (v v' : VerifyCall C) (args args' : VerifyArgs),
      cs.lastChaincodeInfo.chaincodeId ≠ cs'.lastChaincodeInfo.chaincodeId →
      args.proof = args'.proof →
      ¬ (v.run F cs args = .ok () ∧ v'.run F cs' args' = .ok ())) ∧
    ∀ (cs : ClientState) (channelId : Bytes) (v : VerifyCall C) (args : VerifyArgs),
      v.run F (cs.onChannel channelId) args = v.run F cs args := by
  refine ⟨?_, ?_, ?_⟩
  · intro ccID policy proof key value configs htrue
    obtain ⟨w, ⟨sigs, rwset, ns, -, -, hset, hns, hw⟩, hkey, hvalue⟩ :=
      verifyEndorsedCommitment_eq_true_iff.mp htrue
    exact ⟨rwset, ns, w, hset, hns, hw, hkey, hvalue⟩
  · intro cs cs' v v' args args' hne hproof haccept
    obtain ⟨hrun, hrun'⟩ := haccept
    obtain ⟨p, cons, bz, w, hargs, -, hw, -, -⟩ := VerifyCall.run_eq_ok_iff.mp hrun
    obtain ⟨p', cons', bz', w', hargs', -, hw', -, -⟩ := VerifyCall.run_eq_ok_iff.mp hrun'
    obtain ⟨-, -, ⟨raw, hraw, hp⟩, -⟩ := produceVerificationArgs_eq_ok_iff.mp hargs
    obtain ⟨-, -, ⟨raw', hraw', hp'⟩, -⟩ := produceVerificationArgs_eq_ok_iff.mp hargs'
    -- the same bytes decode to the same proof
    rw [hraw, hraw', Option.some.injEq] at hproof
    rw [hproof, hp', Outcome.ok.injEq] at hp
    subst hp
    exact hne (hw.chaincodeId_eq hw')
  · intro cs channelId v args
    rw [VerifyCall.run_eq, VerifyCall.run_eq, verifyMembership_onChannel]

namespace Sample

open Symbolic

/-- The absence of a receipt, endorsed by the client's chaincode in a namespace of the given name. -/
def absenceIn (nameSpace : Bytes) : CommitmentProof :=
  endorse org1 Symbolic.cc [⟨nameSpace, [absence.kv]⟩] 0 0

/-- Another version of the chaincode. -/
def upgraded : ClientState :=
  { client with lastChaincodeInfo := { info with chaincodeId := ⟨[], str "ibccc", str "2"⟩ } }

end Sample

open Symbolic Sample in
/-- A proof accepted by a client is refused by a client of the upgraded chaincode. -/
theorem accepted_proof_origin_upgraded :
    ¬ (VerifyCall.packetReceiptAbsence port channel 1 : VerifyCall codec).run fabric upgraded
      (argsFor (absenceIn Symbolic.cc.name)) = .ok () := by
  intro hother
  have hown : (VerifyCall.packetReceiptAbsence port channel 1 : VerifyCall codec).run fabric client
      (argsFor (absenceIn Symbolic.cc.name)) = .ok () := by decide +kernel
  exact (accepted_proof_origin fabric codec).2.1 client upgraded _ _ _ _ (by decide +kernel) rfl
    ⟨hown, hother⟩

open Symbolic Sample in
/-- A write in the namespace `lscc` is accepted for the chaincode `ibccc`, and
its proof is good on the channel `ch1` and on the channel `ch2`. -/
theorem foreign_origin_accepted :
    verifyEndorsedCommitment fabric Symbolic.cc info.endorsementPolicy (absenceIn (str "lscc"))
        absenceEntry.key absenceEntry.value [org1, org2] = .ok true ∧
    getTxReadWriteSetFromProposalResponsePayload fabric (absenceIn (str "lscc")).proposal =
      .ok (some Symbolic.cc, [⟨str "lscc", [absence.kv]⟩]) ∧
    str "lscc" ≠ Symbolic.cc.name ∧
    client.lastChaincodeInfo.channelId ≠ (client.onChannel (str "ch2")).lastChaincodeInfo.channelId ∧
    (VerifyCall.packetReceiptAbsence port channel 1 : VerifyCall codec).run fabric client
      (argsFor (absenceIn (str "lscc"))) = .ok () ∧
    (VerifyCall.packetReceiptAbsence port channel 1 : VerifyCall codec).run fabric
      (client.onChannel (str "ch2")) (argsFor (absenceIn (str "lscc"))) = .ok () := by
  decide +kernel

end FabricIBC
