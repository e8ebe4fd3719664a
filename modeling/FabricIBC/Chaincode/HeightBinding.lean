import FabricIBC.Lib.Run
import FabricIBC.Chaincode.Agreement
import FabricIBC.LightClient.History

/-!
# Fabric-IBC — both chains: what a proof says about time

The chaincode, the endorsements it ever gave, and a client of the counterparty
in one system. Calls, endorsements and client updates come in any order, and
every endorsement stays available to relayers.

* `endorsement_source` — every endorsement was made in some state of the run;
* `accepted_value_was_held` — so a value that is verified against an available
  proof was held by the IBC store at some moment of the run.

That moment is not tied to the height of the verification: no entry contains a
height, and of the consensus state at the proof height only its existence is
checked. A proof is good at every height the client knows, and stays good when
the store has changed (`stale_absence_accepted`).
-/

namespace FabricIBC

open Go

/-! ## The system -/

structure System where
  ws : WorldState
  /-- The write sets of all endorsed proposals so far. -/
  endorsements : List (List Write)
  client : Client

/-- An event of the system. -/
inductive SystemStep
  -- a call that is endorsed and committed
  | transact (inv : Invocation)
  -- a call that is endorsed only
  | endorse (inv : Invocation)
  | updateClient (header : Header)

/-- The endorsement of a call on a world state, if it succeeds. -/
def IBCChaincode.simulate {C : Codec} (cc : IBCChaincode C) (ws : WorldState) (inv : Invocation) :
    List (List Write) :=
  match cc.invoke (inv.stub ws) inv.call with
  | .ok (_, writes) => [writes]
  | .err _ => []
  | .panic _ => []

namespace System

variable {C : Codec} (F : Fabric) (cc : IBCChaincode C)

def step (s : System) : SystemStep → System
  | .transact inv =>
    { s with ws := cc.commit s.ws inv, endorsements := cc.simulate s.ws inv ++ s.endorsements }
  | .endorse inv => { s with endorsements := cc.simulate s.ws inv ++ s.endorsements }
  | .updateClient header => { s with client := submitUpdate F C s.client header }

/-- Before the first call. -/
def start (client : Client) : System := ⟨∅, [], client⟩

/-- The system after the steps. -/
def run (client : Client) (steps : List SystemStep) : System :=
  Run.run (step F cc) (start client) steps

/-- Whatever write the proof points at, it is one of an endorsement given so far. -/
def Available (s : System) (proof : CommitmentProof) : Prop :=
  ∀ id rwset ns w,
    getTxReadWriteSetFromProposalResponsePayload F proof.proposal = .ok (id, rwset) →
    rwset[proof.nsIndex.toNat]? = some ns → ns.writes[proof.writeSetIndex.toNat]? = some w →
    ∃ writes ∈ s.endorsements, ∃ x ∈ writes, x.kv = w

/-- The arguments of a verification against the client at a height. -/
def argsAt (s : System) (height : Height) (proofBytes : Bytes) : VerifyArgs :=
  ⟨s.client.store, height, .merkle host.storeKey, some proofBytes⟩

end System

/-! ## Where endorsements come from -/

section Source

variable {C : Codec} {F : Fabric} {cc : IBCChaincode C} {client : Client}

theorem mem_simulate {ws : WorldState} {inv : Invocation} {writes : List Write}
    (h : writes ∈ cc.simulate ws inv) : Effect cc (inv.stub ws) inv.call writes := by
  unfold IBCChaincode.simulate at h
  cases hok : cc.invoke (inv.stub ws) inv.call with
  | ok r =>
    obtain ⟨res, ws'⟩ := r
    rw [hok] at h
    rw [List.mem_singleton.mp h]
    exact invoke_effect hok
  | err e => simp [hok] at h
  | panic p => simp [hok] at h

/-- A step adds the endorsement of its call and nothing else. -/
theorem System.mem_endorsements_step {s : System} {st : SystemStep} {writes : List Write}
    (h : writes ∈ (s.step F cc st).endorsements) :
    (∃ inv : Invocation, Effect cc (inv.stub s.ws) inv.call writes) ∨ writes ∈ s.endorsements := by
  cases st with
  | transact inv | endorse inv =>
    rcases List.mem_append.mp h with h | h
    · exact Or.inl ⟨inv, mem_simulate h⟩
    · exact Or.inr h
  | updateClient header => exact Or.inr h

/-- Every endorsement was made in a state of the run. -/
theorem endorsement_source {steps : List SystemStep} {writes : List Write}
    (h : writes ∈ (System.run F cc client steps).endorsements) :
    ∃ before after inv, steps = before ++ after ∧
      Effect cc (Invocation.stub inv (System.run F cc client before).ws) inv.call writes := by
  -- by the last step: it made the endorsement, or the run before it did
  induction steps using List.reverseRecOn with
  | nil => exact absurd h List.not_mem_nil
  | append_singleton steps st ih =>
    rw [System.run, Run.run_append, Run.run_cons, Run.run_nil] at h
    rcases System.mem_endorsements_step h with ⟨inv, heff⟩ | h
    · exact ⟨steps, [st], inv, rfl, heff⟩
    · obtain ⟨before, after, inv, rfl, heff⟩ := ih h
      exact ⟨before, after ++ [st], inv, List.append_assoc .., heff⟩

/-- A statement whose subject shares its path with that of a statement that
holds, and whose bytes are the same, holds. -/
theorem Statement.heldIn_of_same {K : Keeper C} {store : KVStore} {s t : Statement C}
    (hsame : s.id.Same t.id) {bz : Bytes} (hs : s.bytes = .ok bz) (ht : t.bytes = .ok bz)
    (hheld : s.HeldIn K store) : t.HeldIn K store := by
  cases s <;> cases t <;> simp only [id, EntryID.Same] at hsame <;>
    simp only [bytes, Outcome.ofExcept_eq_ok_iff, Outcome.ok.injEq] at hs ht <;>
    simp only [HeldIn] at hheld ⊢
  case clientState.clientState => rw [← hsame, ← C.clientState.marshal_inj hs ht, hheld]
  case consensusState.consensusState =>
    rw [← hsame.1, ← hsame.2, ← C.consensusState.marshal_inj hs ht, hheld]
  case connection.connection => rw [← hsame, ← C.connection.marshal_inj hs ht, hheld]
  case channel.channel =>
    rw [← (K.by_path hsame store).1, ← C.channel.marshal_inj hs ht, hheld]
  case packetCommitment.packetCommitment =>
    rw [← hsame.2, ← ((K.by_path hsame.1 store).2.2 _).1, ht, ← hs, hheld]
  case packetAcknowledgement.packetAcknowledgement =>
    rw [← hsame.2, ← ((K.by_path hsame.1 store).2.2 _).2.1, ht, ← hs, hheld]
  case packetReceiptAbsence.packetReceiptAbsence =>
    rw [← hsame.2, ← ((K.by_path hsame.1 store).2.2 _).2.2, hheld]
  case nextSequenceRecv.nextSequenceRecv =>
    rw [← (K.by_path hsame store).2.1, ← uint64ToBigEndian_injective (hs.trans ht.symm), hheld]

end Source

/-! ## What a proof says -/

section Accepted

variable {C : Codec} {F : Fabric} {cc : IBCChaincode C} {s : System} {v : VerifyCall C}

/-- The proof height enters a verification only through its existence. -/
theorem System.run_argsAt_iff {height : Height} {proofBytes : Bytes} {proof : CommitmentProof}
    (hproof : CommitmentProof.unmarshal proofBytes = .ok proof) :
    v.run F s.client.state (s.argsAt height proofBytes) = .ok () ↔
      s.client.state.getLatestHeight.lt height = false ∧
      (∃ cons, getConsensusState C s.client.store height = .ok cons) ∧
      ∃ w, s.client.state.Endorsed F proof w ∧ w.key = v.statement.id.key host.storeKey ∧
        v.statement.bytes = .ok w.value := by
  rw [VerifyCall.run_eq_ok_iff]
  simp only [System.argsAt, produceVerificationArgs_eq_ok_iff]
  constructor
  · rintro ⟨proof', cons, _, w, ⟨hlt, -, ⟨_, ⟨⟩, hproof'⟩, hcons⟩, hbz, hw, hkey, rfl⟩
    cases hproof.symm.trans hproof'
    exact ⟨hlt, ⟨cons, hcons⟩, w, hw, hkey, hbz⟩
  · rintro ⟨hlt, ⟨cons, hcons⟩, w, hw, hkey, hbz⟩
    exact ⟨proof, cons, _, w, ⟨hlt, ⟨_, rfl⟩, ⟨proofBytes, rfl, hproof⟩, hcons⟩, hbz, hw, hkey, rfl⟩

/-- An available proof that a client takes for a write shows a write of an
endorsement. -/
theorem System.Available.exists_write {proof : CommitmentProof} {w : KVWrite}
    (havail : s.Available F proof) (hw : s.client.state.Endorsed F proof w) :
    ∃ writes ∈ s.endorsements, ∃ x ∈ writes, x.kv = w := by
  obtain ⟨configs, -, sigs, rwset, ns, -, -, hset, hns, hw⟩ := hw
  exact havail _ rwset ns w hset hns hw

/-- **What a verified value says about the chaincode.** In every state the
system can reach, when one of the `Verify*` functions accepts an available
proof at some height, then the IBC store held exactly the claimed value (or
had no receipt) under the given identifiers at some moment of the run. The
height is one the client knows, and the proof is accepted at every other such
height as well. -/
theorem accepted_value_was_held {client : Client} {steps : List SystemStep} {height : Height}
    {proofBytes : Bytes} {proof : CommitmentProof}
    (hproof : CommitmentProof.unmarshal proofBytes = .ok proof)
    (havail : (System.run F cc client steps).Available F proof)
    (haccept : v.run F (System.run F cc client steps).client.state
      ((System.run F cc client steps).argsAt height proofBytes) = .ok ()) :
    (∃ before after, steps = before ++ after ∧
      v.statement.HeldIn cc.keeper (ibcStore (System.run F cc client before).ws)) ∧
    (System.run F cc client steps).client.state.getLatestHeight.lt height = false ∧
    (∃ cons, getConsensusState C (System.run F cc client steps).client.store height = .ok cons) ∧
    ∀ height', (System.run F cc client steps).client.state.getLatestHeight.lt height' = false →
      (∃ cons,
        getConsensusState C (System.run F cc client steps).client.store height' = .ok cons) →
      v.run F (System.run F cc client steps).client.state
        ((System.run F cc client steps).argsAt height' proofBytes) = .ok () := by
  obtain ⟨hlt, hcons, w, hw, hkey, hbytes⟩ := (System.run_argsAt_iff hproof).mp haccept
  refine ⟨?_, hlt, hcons, fun height' hlt' hcons' => ?_⟩
  · -- write, endorsement, state of the run, statement
    obtain ⟨writes, hwrites, x, hx, rfl⟩ := havail.exists_write hw
    obtain ⟨before, after, inv, hsteps, heff⟩ := endorsement_source hwrites
    rw [x.kv_key] at hkey
    obtain ⟨stmt, -, hheld, hbz, hsame⟩ := heff.source_statement hx hkey hbytes
    exact ⟨before, after, hsteps, Statement.heldIn_of_same hsame hbz hbytes hheld⟩
  · exact (System.run_argsAt_iff hproof).mpr ⟨hlt', hcons', w, hw, hkey, hbytes⟩

end Accepted

namespace Sample

open Symbolic

/-- The absence of a receipt is endorsed at sequence 1, where the packet is
then received. At sequence 2 the client is updated. -/
def receivedRun : List SystemStep :=
  [.transact (callAt 100 (.initChaincode [])),
    .endorse (callAt 100 (.endorsePacketReceiptAbsence port channel 1)),
    .transact (callAt 101 (.handleTx (host.packetReceiptPath port channel 1))),
    .transact (callAt 105 .updateSequence),
    .endorse (callAt 105 .endorseSequenceCommitment),
    .updateClient ⟨some (sequenceHeader ⟨2, 105⟩), none, none⟩]

/-- The system after the first steps of the run. -/
def received (k : Nat) : System := System.run fabric chaincode createdClient (receivedRun.take k)

/-- The value of the current sequence. -/
def currentValue (ws : WorldState) : Option UInt64 :=
  match chaincode.sequenceMgr.getCurrentSequence ((callAt 0 .updateSequence).stub ws) with
  | .ok seq => some seq.value
  | .err _ => none
  | .panic _ => none

/-- A proof of one write of an endorsement is available. -/
theorem available_proofOf {s : System} {w : Write} {writes : List Write}
    (hwrites : writes ∈ s.endorsements) (hw : w ∈ writes)
    (hpayload : getTxReadWriteSetFromProposalResponsePayload fabric (proofOf w).proposal =
      .ok (some Symbolic.cc, [⟨Symbolic.cc.name, [w.kv]⟩])) : s.Available fabric (proofOf w) := by
  intro id rwset ns w' hset hns hw'
  rw [hpayload, Outcome.ok.injEq, Prod.mk.injEq] at hset
  obtain ⟨-, rfl⟩ := hset
  cases hns
  cases hw'
  exact ⟨writes, hwrites, w, hw, rfl⟩

end Sample

open Symbolic Sample in
/-- The proof of the absent receipt at the end of the run. -/
theorem accepted_value_was_held_absence :
    ∃ before after, receivedRun = before ++ after ∧
      keeper.getPacketReceipt (ibcStore (System.run fabric chaincode createdClient before).ws)
        port channel 1 = .ok none := by
  have hproof : CommitmentProof.unmarshal (proofOf absence).wire.bytes = .ok (proofOf absence) := by
    decide +kernel
  have hmem : [absence] ∈ (System.run fabric chaincode createdClient receivedRun).endorsements := by
    decide +kernel
  have haccept : (VerifyCall.packetReceiptAbsence port channel 1 : VerifyCall codec).run fabric
      (System.run fabric chaincode createdClient receivedRun).client.state
      ((System.run fabric chaincode createdClient receivedRun).argsAt ⟨0, 2⟩
        (proofOf absence).wire.bytes) = .ok () := by decide +kernel
  exact (accepted_value_was_held hproof
    (available_proofOf hmem List.mem_cons_self (by decide +kernel)) haccept).1

open Symbolic Sample in
/-- A proof that packet 1 was not received is accepted at height `(0, 2)`,
although its receipt was there all the time while the sequence was 2. The proof
and the one of the sequence header were endorsed before they are used. -/
theorem stale_absence_accepted :
    (received 6).Available fabric (proofOf absence) ∧
    (received 5).Available fabric (sequenceHeader ⟨2, 105⟩).proof ∧
    (VerifyCall.packetReceiptAbsence port channel 1 : VerifyCall codec).run fabric
      (received 6).client.state ((received 6).argsAt ⟨0, 2⟩ (proofOf absence).wire.bytes) =
        .ok () ∧
    ∀ k < 7, currentValue (received k).ws = some 2 →
      keeper.getPacketReceipt (ibcStore (received k).ws) port channel 1 = .ok (some [1]) := by
  refine ⟨?_, ?_, by decide +kernel, by decide +kernel⟩
  · have hmem : [absence] ∈ (received 6).endorsements := by decide +kernel
    exact available_proofOf hmem List.mem_cons_self (by decide +kernel)
  · have hmem : [.put (makeSequenceCommitmentEntryKey 2) (Sequence.bytes ⟨2, 105⟩)] ∈
        (received 5).endorsements := by decide +kernel
    show (received 5).Available fabric
      (proofOf (.put (makeSequenceCommitmentEntryKey 2) (Sequence.bytes ⟨2, 105⟩)))
    exact available_proofOf hmem List.mem_cons_self (by decide +kernel)

end FabricIBC
