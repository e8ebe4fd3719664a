import FabricIBC.Chaincode.Effects
import FabricIBC.Chaincode.Sample
import FabricIBC.LightClient.Acceptance

/-!
# Fabric-IBC — prover and verifier

The chaincode makes commitment entries, the light client of the counterparty
looks for them in endorsed write sets. Each side builds keys and values on its
own.

* `VerifyCall` — the eight `Verify*` functions with their arguments, and the
  `Statement` each asks for;
* `Effect.source` — where a write under the key of an entry comes from;
* `prover_verifier_agree` — the verifier accepts what the prover endorsed, and
  accepts a write only for the statement it was endorsed for.
-/

namespace FabricIBC

open Go

/-! ## The verifier -/

/-- A call of one of the `Verify*` functions. -/
inductive VerifyCall (C : Codec)
  | clientState (clientID : Bytes) (clientState : C.ClientStateI)
  | clientConsensusState (clientID : Bytes) (consensusHeight : Height)
      (consensusState : ConsensusStateI C.OtherConsensusState)
  | connectionState (connectionID : Bytes) (connectionEnd : C.ConnectionEnd)
  | channelState (portID channelID : Bytes) (channel : C.Channel)
  | packetCommitment (portID channelID : Bytes) (sequence : UInt64) (commitmentBytes : Bytes)
  | packetAcknowledgement (portID channelID : Bytes) (sequence : UInt64) (acknowledgement : Bytes)
  | packetReceiptAbsence (portID channelID : Bytes) (sequence : UInt64)
  | nextSequenceRecv (portID channelID : Bytes) (nextSequenceRecv : UInt64)

namespace VerifyCall

variable {C : Codec}

def run (F : Fabric) (cs : ClientState) (args : VerifyArgs) : VerifyCall C → Result Unit
  | clientState a s => verifyClientState F C cs args a (some s)
  | clientConsensusState a h s => verifyClientConsensusState F C cs args a h (some s)
  | connectionState a c => verifyConnectionState F C cs args a (some c)
  | channelState p c ch => verifyChannelState F C cs args p c (some ch)
  | packetCommitment p c n bz => verifyPacketCommitment F C cs args p c n bz
  | packetAcknowledgement p c n ack => verifyPacketAcknowledgement F C cs args p c n ack
  | packetReceiptAbsence p c n => verifyPacketReceiptAbsence F C cs args p c n
  | nextSequenceRecv p c n => verifyNextSequenceRecv F C cs args p c n

/-- What the call wants to be shown. The store holds acknowledgements as commitments. -/
def statement : VerifyCall C → Statement C
  | clientState a s => .clientState a s
  | clientConsensusState a h s => .consensusState a h s
  | connectionState a c => .connection a c
  | channelState p c ch => .channel p c ch
  | packetCommitment p c n bz => .packetCommitment p c n bz
  | packetAcknowledgement p c n ack => .packetAcknowledgement p c n (C.commitAcknowledgement ack)
  | packetReceiptAbsence p c n => .packetReceiptAbsence p c n
  | nextSequenceRecv p c n => .nextSequenceRecv p c n

/-- The eight functions are one function of the statement. -/
theorem run_eq (F : Fabric) (cs : ClientState) (args : VerifyArgs) (v : VerifyCall C) :
    v.run F cs args =
      verifyMembership F C cs args (fun pfx => v.statement.id.key pfx) v.statement.bytes := by
  cases v <;> rfl

/-- A call succeeds when the proof shows the entry of its statement. -/
theorem run_eq_ok_iff {F : Fabric} {cs : ClientState} {args : VerifyArgs} {v : VerifyCall C} :
    v.run F cs args = .ok () ↔
      ∃ proof cons bz w,
        produceVerificationArgs C args.store cs args.height args.pfx args.proof = .ok (proof, cons) ∧
        v.statement.bytes = .ok bz ∧ cs.Endorsed F proof w ∧
        w.key = v.statement.id.key args.pfx.bytes ∧ w.value = bz := by
  rw [run_eq, verifyMembership_eq_ok_iff]

end VerifyCall

/-- A proof shows one write. -/
theorem ClientState.Endorsed.unique {F : Fabric} {cs : ClientState} {proof : CommitmentProof}
    {w w' : KVWrite} (h : cs.Endorsed F proof w) (h' : cs.Endorsed F proof w') : w = w' := by
  obtain ⟨configs, -, sigs, rwset, ns, -, -, hset, hns, hw⟩ := h
  obtain ⟨configs', -, sigs', rwset', ns', -, -, hset', hns', hw'⟩ := h'
  rw [hset, Outcome.ok.injEq, Prod.mk.injEq] at hset'
  obtain ⟨-, rfl⟩ := hset'
  rw [hns, Option.some.injEq] at hns'
  subst hns'
  rw [hw, Option.some.injEq] at hw'
  exact hw'

/-- A write as the write set of a transaction lists it; a deletion has no value. -/
def Write.kv : Write → KVWrite
  | .put key value => ⟨key, false, value⟩
  | .del key => ⟨key, true, []⟩

theorem Write.kv_key (w : Write) : w.kv.key = w.key := by cases w <;> rfl

/-- What a call accepts, given the write its proof shows. -/
theorem VerifyCall.run_of_endorsed {C : Codec} {F : Fabric} {cs : ClientState} {args : VerifyArgs}
    {proof : CommitmentProof} {cons : ConsensusState} {w : Write} {v : VerifyCall C}
    (hpfx : args.pfx = .merkle host.storeKey)
    (hargs : produceVerificationArgs C args.store cs args.height args.pfx args.proof =
      .ok (proof, cons))
    (hw : cs.Endorsed F proof w.kv) :
    v.run F cs args = .ok () ↔
      w.key = v.statement.id.key host.storeKey ∧ v.statement.bytes = .ok w.kv.value := by
  have hbytes : args.pfx.bytes = host.storeKey := by rw [hpfx]; rfl
  rw [run_eq_ok_iff, hargs, hbytes]
  constructor
  · -- the proof shows no other write
    rintro ⟨proof', cons', bz, w', hok, hbz, hw', hkey, rfl⟩
    cases hok
    rw [← hw.unique hw', w.kv_key] at hkey
    exact ⟨hkey, by rw [hbz, hw.unique hw']⟩
  · rintro ⟨hkey, hbz⟩
    exact ⟨proof, cons, _, w.kv, rfl, hbz, hw, by rw [w.kv_key, hkey], rfl⟩

/-- The same for a sequence header. -/
theorem verifyChaincodeHeader_of_endorsed {F : Fabric} {cs : ClientState} {ch : ChaincodeHeader}
    {w : Write} (hw : cs.Endorsed F ch.proof w.kv) :
    verifyChaincodeHeader F cs ch = .ok () ↔
      w.key = makeSequenceCommitmentEntryKey ch.sequence.value ∧
        w.kv.value = ch.sequence.bytes := by
  rw [verifyChaincodeHeader_eq_ok_iff]
  constructor
  · rintro ⟨w', hw', hkey, hvalue⟩
    rw [← hw.unique hw'] at hkey hvalue
    exact ⟨w.kv_key ▸ hkey, hvalue⟩
  · rintro ⟨hkey, hvalue⟩
    exact ⟨w.kv, hw, w.kv_key ▸ hkey, hvalue⟩

/-! ## The prover -/

section Statements

variable {C : Codec} {K : Keeper C} {store : KVStore} {s t : Statement C}

/-- The store holds one value for a subject. -/
theorem Statement.eq_of_heldIn (hid : s.id = t.id) (hs : s.HeldIn K store)
    (ht : t.HeldIn K store) : s = t := by
  cases s <;> cases t <;> simp only [id] at hid <;> cases hid <;> simp only [HeldIn] at hs ht
  case packetReceiptAbsence.packetReceiptAbsence => rfl
  all_goals
    cases hs.symm.trans ht
    rfl

/-- The value of an entry can be read off its bytes. -/
theorem Statement.eq_of_bytes (hid : s.id = t.id) {bz : Bytes} (hs : s.bytes = .ok bz)
    (ht : t.bytes = .ok bz) : s = t := by
  cases s <;> cases t <;> simp only [id] at hid <;> cases hid <;>
    simp only [bytes, Outcome.ofExcept_eq_ok_iff, Outcome.ok.injEq] at hs ht
  case clientState.clientState => rw [C.clientState.marshal_inj hs ht]
  case consensusState.consensusState => rw [C.consensusState.marshal_inj hs ht]
  case connection.connection => rw [C.connection.marshal_inj hs ht]
  case channel.channel => rw [C.channel.marshal_inj hs ht]
  case packetCommitment.packetCommitment | packetAcknowledgement.packetAcknowledgement =>
    rw [hs, ht]
  case packetReceiptAbsence.packetReceiptAbsence => rfl
  case nextSequenceRecv.nextSequenceRecv => rw [uint64ToBigEndian_injective (hs.trans ht.symm)]

theorem Statement.id_ne_sequence (n : UInt64) : ¬ s.id.Same (.sequence n) := by
  cases s <;> exact fun h => h

end Statements

section Source

variable {C : Codec} {cc : IBCChaincode C} {stub : Stub} {call : Call} {writes : List Write}
  {w : Write} {id : EntryID}

/-- A write under the key of an entry is no sequence record. -/
theorem notMem_putSequence (hkey : w.key = id.key host.storeKey) (m : SequenceManager)
    (seq : Sequence) : w ∉ m.putSequence seq := by
  intro hw
  simp only [SequenceManager.putSequence, List.mem_cons, List.not_mem_nil, or_false] at hw
  rcases hw with rfl | rfl
  · exact id.key_ne_current host.storeKey m.pfx hkey.symm
  · exact id.key_ne_sequence host.storeKey m.pfx seq.value hkey.symm

theorem ApplicationWrites.notMem {app : List Write} (happ : ApplicationWrites app)
    (hkey : w.key = id.key host.storeKey) : w ∉ app := fun hw =>
  (id.recordKey host.storeKey).not_applicationKey (hkey ▸ happ w hw)

/-- **Where an entry comes from.** A write under the key of an entry is the
entry of a statement that the call was asked for and that held, or the
commitment of the sequence it was asked for. -/
theorem Effect.source (heff : Effect cc stub call writes) (hw : w ∈ writes)
    (hkey : w.key = id.key host.storeKey) :
    (∃ (stmt : Statement C) (bz : Bytes), stmt.AskedBy call ∧
      stmt.HeldIn cc.keeper (ibcStore stub.state) ∧ stmt.bytes = .ok bz ∧
      w = .put (stmt.id.key host.storeKey) bz) ∨
    ∃ seq, call = .endorseSequenceCommitment ∧ cc.requestedSequence stub = .ok seq ∧
      w = .put (makeSequenceCommitmentEntryKey seq.value) seq.bytes := by
  cases heff with
  | init happ htime =>
    rcases List.mem_append.mp hw with hw | hw
    · exact absurd hw (happ.notMem hkey)
    · exact absurd hw (notMem_putSequence hkey _ _)
  | tx happ => exact absurd hw (happ.notMem hkey)
  | update hcurrent htime => exact absurd hw (notMem_putSequence hkey _ _)
  -- the only two effects that put an entry
  | sequence hseq => exact Or.inr ⟨_, rfl, hseq, List.mem_singleton.mp hw⟩
  | statement hcall hheld hbytes happ =>
    rcases List.mem_append.mp hw with hw | hw
    · exact absurd hw (happ.notMem hkey)
    · exact Or.inl ⟨_, _, hcall, hheld, hbytes, List.mem_singleton.mp hw⟩

/-- A write under the key of a statement: the statement it was made for has
the same subject. -/
theorem Effect.source_statement (heff : Effect cc stub call writes) (hw : w ∈ writes)
    {stmt : Statement C} (hkey : w.key = stmt.id.key host.storeKey)
    (hbytes : stmt.bytes = .ok w.kv.value) :
    ∃ stmt' : Statement C, stmt'.AskedBy call ∧ stmt'.HeldIn cc.keeper (ibcStore stub.state) ∧
      stmt'.bytes = .ok w.kv.value ∧ stmt'.id.Same stmt.id := by
  rcases heff.source hw hkey with ⟨stmt', bz, hcall, hheld, hbz, rfl⟩ | ⟨seq, -, -, rfl⟩
  · exact ⟨stmt', hcall, hheld, hbz, EntryID.key_inj hkey⟩
  · have hsame : (EntryID.sequence seq.value).Same stmt.id := EntryID.key_inj hkey
    cases stmt <;> exact hsame.elim

end Source

/-! ## Agreement -/

section Agreement

variable {C : Codec} {cc : IBCChaincode C} {stub : Stub} {call : Call} {writes : List Write}

/-- An endorsing call that succeeds found a value. -/
theorem Effect.held (heff : Effect cc stub call writes) (hcall : call.subject.isSome) :
    ∃ stmt : Statement C, stmt.AskedBy call ∧ stmt.HeldIn cc.keeper (ibcStore stub.state) := by
  cases heff with
  | init | tx | update | sequence => exact absurd hcall (by simp [Call.subject])
  | statement hcall hheld hbytes happ => exact ⟨_, hcall, hheld⟩

/-- The last write of an endorsing call is the entry of what the store holds. -/
theorem Effect.complete (heff : Effect cc stub call writes) {stmt : Statement C}
    (hcall : stmt.AskedBy call) (hheld : stmt.HeldIn cc.keeper (ibcStore stub.state)) :
    ∃ app bz, writes = app ++ [.put (stmt.id.key host.storeKey) bz] ∧ stmt.bytes = .ok bz := by
  cases heff with
  | init | tx | update | sequence => exact absurd hcall (Option.some_ne_none _).symm
  | statement hcall' hheld' hbytes happ =>
    have hid := Option.some.inj (hcall'.symm.trans hcall)
    rw [Statement.eq_of_heldIn hid hheld' hheld] at hbytes ⊢
    exact ⟨_, _, rfl, hbytes⟩

theorem Effect.sequence_complete (heff : Effect cc stub .endorseSequenceCommitment writes) :
    ∃ seq, cc.requestedSequence stub = .ok seq ∧
      writes = [.put (makeSequenceCommitmentEntryKey seq.value) seq.bytes] := by
  generalize hcall : Call.endorseSequenceCommitment = call at heff
  cases heff with
  | init | tx | update => cases hcall
  | sequence hseq => exact ⟨_, hseq, rfl⟩
  | statement hsub => exact absurd (hcall ▸ hsub) (Option.some_ne_none _).symm

/-- **Prover and verifier agree.** For every call that succeeds:

1. if it is an `Endorse*` call, the IBC store holds a value for its subject, and
   the corresponding verification with the same identifiers and this value
   accepts the endorsed entry, which is the last write;
2. `EndorseSequenceCommitment` yields a header for the sequence it read;
3. any of its writes that a verification with slash-free identifiers accepts
   is the entry of the matching `Endorse*` call with these identifiers, and the
   store held the verified value;
4. any of its writes that passes as the proof of a sequence header comes from
   `EndorseSequenceCommitment`, which read this very sequence. -/
theorem prover_verifier_agree {res : Response} (hok : cc.invoke stub call = .ok (res, writes)) :
    (call.subject.isSome → ∃ stmt : Statement C, stmt.AskedBy call ∧
      stmt.HeldIn cc.keeper (ibcStore stub.state)) ∧
    (∀ v : VerifyCall C, v.statement.AskedBy call →
      v.statement.HeldIn cc.keeper (ibcStore stub.state) →
      ∃ app w, writes = app ++ [w] ∧ ∀ F cs args proof cons, args.pfx = .merkle host.storeKey →
        produceVerificationArgs C args.store cs args.height args.pfx args.proof =
          .ok (proof, cons) →
        cs.Endorsed F proof w.kv → v.run F cs args = .ok ()) ∧
    (call = .endorseSequenceCommitment →
      ∃ seq w, cc.requestedSequence stub = .ok seq ∧ writes = [w] ∧ ∀ F cs proof,
        cs.Endorsed F proof w.kv → verifyChaincodeHeader F cs ⟨seq, proof⟩ = .ok ()) ∧
    (∀ w ∈ writes, ∀ F cs args proof cons (v : VerifyCall C), args.pfx = .merkle host.storeKey →
      v.statement.id.SlashFree →
      produceVerificationArgs C args.store cs args.height args.pfx args.proof = .ok (proof, cons) →
      cs.Endorsed F proof w.kv → v.run F cs args = .ok () →
      v.statement.AskedBy call ∧ v.statement.HeldIn cc.keeper (ibcStore stub.state)) ∧
    ∀ w ∈ writes, ∀ F cs ch, cs.Endorsed F ch.proof w.kv → verifyChaincodeHeader F cs ch = .ok () →
      call = .endorseSequenceCommitment ∧ cc.requestedSequence stub = .ok ch.sequence := by
  have heff := invoke_effect hok
  refine ⟨heff.held, ?_, ?_, ?_, ?_⟩
  · intro v hcall hheld
    obtain ⟨app, bz, hwrites, hbz⟩ := heff.complete hcall hheld
    refine ⟨app, _, hwrites, fun F cs args proof cons hpfx hargs hw => ?_⟩
    exact (VerifyCall.run_of_endorsed hpfx hargs hw).mpr ⟨rfl, hbz⟩
  · rintro rfl
    obtain ⟨seq, hseq, hwrites⟩ := heff.sequence_complete
    refine ⟨seq, _, hseq, hwrites, fun F cs proof hw => ?_⟩
    exact (verifyChaincodeHeader_of_endorsed hw).mpr ⟨rfl, rfl⟩
  · intro w hmem F cs args proof cons v hpfx hslash hargs hw hrun
    obtain ⟨hkey, hbytes⟩ := (VerifyCall.run_of_endorsed hpfx hargs hw).mp hrun
    obtain ⟨stmt, hcall, hheld, hbz, hsame⟩ := heff.source_statement hmem hkey hbytes
    -- slash-free identifiers have no other reading, and bytes no other value
    rw [Statement.eq_of_bytes (hsame.eq_of_slashFree hslash) hbz hbytes] at hcall hheld
    exact ⟨hcall, hheld⟩
  · intro w hmem F cs ch hw hver
    obtain ⟨hkey, hvalue⟩ := (verifyChaincodeHeader_of_endorsed hw).mp hver
    have hentry : w.key = (EntryID.sequence ch.sequence.value).key host.storeKey := hkey
    rcases heff.source hmem hentry with ⟨stmt, bz, -, -, -, rfl⟩ | ⟨seq, hcall, hseq, rfl⟩
    · exact absurd (EntryID.key_inj hentry) (Statement.id_ne_sequence _)
    · rw [← Sequence.bytes_injective hvalue]
      exact ⟨hcall, hseq⟩

end Agreement

namespace Sample

/-- The proof relayers make of an endorsed write. -/
def proofOf (w : Write) : CommitmentProof :=
  Symbolic.endorse Symbolic.org1 Symbolic.cc [⟨Symbolic.cc.name, [w.kv]⟩] 0 0

end Sample

open Symbolic Sample in
/-- The absence of a receipt in an empty store, endorsed and verified. -/
theorem prover_verifier_agree_receipt_absence :
    (VerifyCall.packetReceiptAbsence port channel 1 : VerifyCall codec).run fabric client
      (argsFor (proofOf absence)) = .ok () := by
  have hok : chaincode.invoke ((callAt 100 (.endorsePacketReceiptAbsence port channel 1)).stub ∅)
      (.endorsePacketReceiptAbsence port channel 1) = .ok (.entry absenceEntry, [absence]) := by
    decide +kernel
  have hheld : keeper.getPacketReceipt (ibcStore ∅) port channel 1 = .ok none := by
    decide +kernel
  obtain ⟨app, w, hwrites, haccept⟩ := (prover_verifier_agree hok).2.1
    (.packetReceiptAbsence port channel 1) rfl hheld
  have hw : w = absence := by simpa using (congrArg List.getLast? hwrites).symm
  subst hw
  refine haccept fabric client (argsFor (proofOf absence)) (proofOf absence) ⟨100⟩ rfl
    (by decide +kernel) ?_
  refine ⟨[org1, org2], by decide +kernel, [⟨(proofOf absence).proposal ++ org1, org1,
      sign org1 ((proofOf absence).proposal ++ org1)⟩], [⟨Symbolic.cc.name, [absence.kv]⟩],
    ⟨Symbolic.cc.name, [absence.kv]⟩, by decide +kernel,
    ⟨([org1, org2], org1), by decide +kernel, by decide +kernel⟩, by decide +kernel, rfl, rfl⟩

end FabricIBC
