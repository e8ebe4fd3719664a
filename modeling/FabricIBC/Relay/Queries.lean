import FabricIBC.LightClient.Following
import FabricIBC.Relay.Position

/-!
# Fabric-IBC — relay: queries with a proof

The six `Query*WithProof` functions of `relay/prover.go`. Each asks the chaincode
for an endorsed entry, takes the value out of it, and then asks for the current
sequence, which becomes the height of the proof.

A connection or a channel that does not exist is no error: the prover finds the
text of the error and returns a constant.

Assumed of the network (`Endorsement`): the peers that answer put the read-write
set of the invocation into the payload and satisfy the endorsement policy of the
counterparty's client.

* `relayed_proof_accepted_iff` — the value that is returned is in the store, and a
  counterparty accepts it with the returned proof at the returned height, whatever
  has happened on the chain since, exactly when its client knows the height and the
  name of the chaincode begins with a lower-case letter;
* `not_found_never_accepted` — the constant for what does not exist is accepted by
  no client.
-/

namespace FabricIBC

open Go

/-- `strings.Contains`. -/
def strings.contains (s substr : Bytes) : Bool := s.tails.any substr.isPrefixOf

/-- `conntypes.ErrConnectionNotFound.Error()`. -/
def errConnectionNotFound : Bytes := str "connection not found"

/-- `chantypes.ErrChannelNotFound.Error()`. -/
def errChannelNotFound : Bytes := str "channel not found"

/-! ## The prover with its path -/

def QueryResponse.map {α β : Type} (f : α → β) (res : QueryResponse α) : QueryResponse β :=
  ⟨f res.value, res.proof, res.proofHeight⟩

/-- The prover of a chain whose end of the path is complete. -/
structure PathProver (C : Codec) extends Prover C where
  connectionID : Bytes
  portID : Bytes
  channelID : Bytes
  /-- `err.Error()` of an error that has come through the gateway. -/
  errorText : Error → Bytes
  /-- The text of a wrapped error goes on with that of the sdk error. -/
  connection_text : ∀ d,
    strings.contains (errorText (.wrap .connectionNotFound d)) errConnectionNotFound = true
  channel_text : ∀ d, strings.contains (errorText (.wrap .channelNotFound d)) errChannelNotFound = true
  /-- The uninitialised connection of `emptyConnRes`. -/
  emptyConnection : C.ConnectionEnd
  /-- The uninitialised channel of `emptyChannelRes`. -/
  emptyChannel : C.Channel

namespace PathProver

variable {C : Codec} (pr : PathProver C) (stub now : Stub)

def endorseClientState (clientID : Bytes) : Result (C.ClientStateI × CommitmentProof) :=
  pr.endorseCommitment stub C.clientState endorseClientStateFunc [clientID]

def endorseConnectionState (connectionID : Bytes) : Result (C.ConnectionEnd × CommitmentProof) :=
  pr.endorseCommitment stub C.connection endorseConnectionStateFunc [connectionID]

def endorseChannelState (portID channelID : Bytes) : Result (C.Channel × CommitmentProof) :=
  pr.endorseCommitment stub C.channel endorseChannelStateFunc [portID, channelID]

def endorsePacketCommitment (portID channelID : Bytes) (sequence : UInt64) :
    Result (Bytes × CommitmentProof) :=
  pr.endorseCommitmentRaw stub endorsePacketCommitmentFunc
    [portID, channelID, dec sequence.toNat]

def endorsePacketAcknowledgement (portID channelID : Bytes) (sequence : UInt64) :
    Result (Bytes × CommitmentProof) :=
  pr.endorseCommitmentRaw stub endorsePacketAcknowledgementFunc
    [portID, channelID, dec sequence.toNat]

/-- `withProof`, but an error whose text contains `text` is answered with a constant. -/
def withProofOr {α : Type} (text : Bytes) (empty : α) (endorsed : Result (α × CommitmentProof)) :
    Result (QueryResponse α) :=
  match endorsed with
  | .err e =>
    if strings.contains (pr.errorText e) text then .ok ⟨empty, [], ⟨0, 0⟩⟩ else .err e
  | endorsed => pr.withProof now endorsed

def queryClientStateWithProof : Result (QueryResponse C.ClientStateI) :=
  pr.withProof now (pr.endorseClientState stub pr.clientID)

/-- With `emptyConnRes` for a connection that is not found. -/
def queryConnectionWithProof : Result (QueryResponse C.ConnectionEnd) :=
  pr.withProofOr now errConnectionNotFound pr.emptyConnection
    (pr.endorseConnectionState stub pr.connectionID)

/-- With `emptyChannelRes` for a channel that is not found. -/
def queryChannelWithProof : Result (QueryResponse C.Channel) :=
  pr.withProofOr now errChannelNotFound pr.emptyChannel
    (pr.endorseChannelState stub pr.portID pr.channelID)

def queryPacketCommitmentWithProof (seq : UInt64) : Result (QueryResponse Bytes) :=
  pr.withProof now (pr.endorsePacketCommitment stub pr.portID pr.channelID seq)

def queryPacketAcknowledgementCommitmentWithProof (seq : UInt64) : Result (QueryResponse Bytes) :=
  pr.withProof now (pr.endorsePacketAcknowledgement stub pr.portID pr.channelID seq)

end PathProver

/-! ## The six queries as one -/

/-- A query with its arguments. -/
inductive RelayQuery
  | clientState
  | clientConsensusState (dstClientConsHeight : Height)
  | connection
  | channel
  | packetCommitment (seq : UInt64)
  | packetAcknowledgementCommitment (seq : UInt64)
  deriving DecidableEq, Repr

namespace RelayQuery

variable {C : Codec} (pr : PathProver C) (stub now : Stub)

/-- The function of the chaincode and its arguments. -/
def proposal : RelayQuery → Bytes × List Bytes
  | clientState => (endorseClientStateFunc, [pr.clientID])
  | clientConsensusState height =>
    (endorseConsensusStateFunc, [pr.clientID, dec height.revisionHeight.toNat])
  | connection => (endorseConnectionStateFunc, [pr.connectionID])
  | channel => (endorseChannelStateFunc, [pr.portID, pr.channelID])
  | packetCommitment seq =>
    (endorsePacketCommitmentFunc, [pr.portID, pr.channelID, dec seq.toNat])
  | packetAcknowledgementCommitment seq =>
    (endorsePacketAcknowledgementFunc, [pr.portID, pr.channelID, dec seq.toNat])

/-- The call the query leads to. -/
def call : RelayQuery → Call
  | clientState => .endorseClientState pr.clientID
  | clientConsensusState height =>
    .endorseConsensusStateCommitment pr.clientID height.revisionHeight
  | connection => .endorseConnectionState pr.connectionID
  | channel => .endorseChannelState pr.portID pr.channelID
  | packetCommitment seq => .endorsePacketCommitment pr.portID pr.channelID seq
  | packetAcknowledgementCommitment seq =>
    .endorsePacketAcknowledgement pr.portID pr.channelID seq

/-- The stub on which it runs. -/
def stubOf (q : RelayQuery) : Stub :=
  Prover.proposalStub stub (q.proposal pr).1 (q.proposal pr).2

/-- Run the query. The answer is a value for the identifiers of the path. -/
def run : RelayQuery → Result (QueryResponse (Statement C))
  | clientState => do
    let res ← pr.queryClientStateWithProof stub now
    .ok (res.map (.clientState pr.clientID))
  | clientConsensusState height => do
    let res ← pr.queryClientConsensusStateWithProof stub now height
    -- the chaincode has looked at `(0, h)`
    .ok (res.map (.consensusState pr.clientID ⟨0, height.revisionHeight⟩))
  | connection => do
    let res ← pr.queryConnectionWithProof stub now
    .ok (res.map (.connection pr.connectionID))
  | channel => do
    let res ← pr.queryChannelWithProof stub now
    .ok (res.map (.channel pr.portID pr.channelID))
  | packetCommitment seq => do
    let res ← pr.queryPacketCommitmentWithProof stub now seq
    .ok (res.map (.packetCommitment pr.portID pr.channelID seq))
  | packetAcknowledgementCommitment seq => do
    let res ← pr.queryPacketAcknowledgementCommitmentWithProof stub now seq
    .ok (res.map (.packetAcknowledgement pr.portID pr.channelID seq))

/-- The answer that stands for "not found". -/
def notFound : RelayQuery → Option (QueryResponse (Statement C))
  | connection => some ⟨.connection pr.connectionID pr.emptyConnection, [], ⟨0, 0⟩⟩
  | channel => some ⟨.channel pr.portID pr.channelID pr.emptyChannel, [], ⟨0, 0⟩⟩
  | _ => none

theorem proposal_call (q : RelayQuery) : (q.call pr).proposal = some (q.proposal pr) := by
  cases q <;> rfl

theorem subject_isSome (q : RelayQuery) : (q.call pr).subject.isSome := by cases q <;> rfl

/-- The value of the entry as the query reads it. -/
def read : RelayQuery → Bytes → Result (Statement C)
  | clientState, v => do
    let cs ← Outcome.ofExcept (C.clientState.unmarshal v)
    .ok (.clientState pr.clientID cs)
  | clientConsensusState height, v => do
    let css ← Outcome.ofExcept (C.consensusState.unmarshal v)
    .ok (.consensusState pr.clientID ⟨0, height.revisionHeight⟩ css)
  | connection, v => do
    let conn ← Outcome.ofExcept (C.connection.unmarshal v)
    .ok (.connection pr.connectionID conn)
  | channel, v => do
    let ch ← Outcome.ofExcept (C.channel.unmarshal v)
    .ok (.channel pr.portID pr.channelID ch)
  | packetCommitment seq, v => .ok (.packetCommitment pr.portID pr.channelID seq v)
  | packetAcknowledgementCommitment seq, v =>
    .ok (.packetAcknowledgement pr.portID pr.channelID seq v)

/-- What is read from the value of a statement's entry is the statement. -/
theorem read_of_bytes {q : RelayQuery} {stmt : Statement C} {v : Bytes}
    (hcall : stmt.AskedBy (q.call pr)) (hbytes : stmt.bytes = .ok v) : q.read pr v = .ok stmt := by
  have hid : (q.call pr).subject = some stmt.id := hcall
  cases q <;> cases stmt <;> simp only [call, Call.subject, Statement.id, Option.some.injEq,
    reduceCtorEq] at hid <;> cases hid
  case clientState.clientState cs =>
    have hcs := C.clientState.unmarshal_marshal cs v (Outcome.ofExcept_eq_ok_iff.mp hbytes)
    simp only [read, hcs, Outcome.ofExcept, Outcome.ok_bind]
  case clientConsensusState.consensusState css =>
    have hcss := C.consensusState.unmarshal_marshal css v (Outcome.ofExcept_eq_ok_iff.mp hbytes)
    simp only [read, hcss, Outcome.ofExcept, Outcome.ok_bind]
    rfl
  case connection.connection conn =>
    have hconn := C.connection.unmarshal_marshal conn v (Outcome.ofExcept_eq_ok_iff.mp hbytes)
    simp only [read, hconn, Outcome.ofExcept, Outcome.ok_bind]
  case channel.channel ch =>
    have hch := C.channel.unmarshal_marshal ch v (Outcome.ofExcept_eq_ok_iff.mp hbytes)
    simp only [read, hch, Outcome.ofExcept, Outcome.ok_bind]
  case packetCommitment.packetCommitment bz =>
    cases hbytes
    rfl
  case packetAcknowledgementCommitment.packetAcknowledgement bz =>
    cases hbytes
    rfl

end RelayQuery

/-! ## What a query returns -/

section Answer

variable {C : Codec} {pr : PathProver C} {stub now : Stub}

theorem withProofOr_eq_ok {α : Type} {text : Bytes} {empty : α}
    {endorsed : Result (α × CommitmentProof)} {res : QueryResponse α}
    (h : pr.withProofOr now text empty endorsed = .ok res) :
    res = ⟨empty, [], ⟨0, 0⟩⟩ ∨ pr.withProof now endorsed = .ok res := by
  cases endorsed with
  | ok _ => exact .inr h
  | panic _ => exact .inr h
  | err e =>
    rw [PathProver.withProofOr] at h
    split at h
    · exact .inl (Outcome.ok.inj h).symm
    · cases h

/-- An answer comes from an endorsed entry, whose value is read. -/
def RelayQuery.Answered (pr : PathProver C) (stub now : Stub) (q : RelayQuery)
    (ans : QueryResponse (Statement C)) : Prop :=
  ∃ v proof, pr.endorseCommitmentRaw stub (q.proposal pr).1 (q.proposal pr).2 = .ok (v, proof) ∧
    q.read pr v = .ok ans.value ∧ ans.proof = proof.wire.bytes ∧
    pr.getCurrentHeight now = .ok ans.proofHeight

/-- The queries that unmarshal the value. -/
theorem answered_of_withProof {q : RelayQuery} {α : Type} {M : Marshaller α}
    {make : α → Statement C} {res : QueryResponse α}
    (hread : ∀ v, q.read pr v = Outcome.ofExcept (M.unmarshal v) >>= fun a => .ok (make a))
    (h : pr.withProof now (pr.endorseCommitment stub M (q.proposal pr).1 (q.proposal pr).2) = .ok res) :
    q.Answered pr stub now (res.map make) := by
  obtain ⟨proof, hendorsed, hproof, hheight⟩ := withProof_eq_ok_iff.mp h
  obtain ⟨⟨v, proof'⟩, hraw, hvalue⟩ := Outcome.bind_eq_ok_iff.mp hendorsed
  obtain ⟨a, ha, heq⟩ := Outcome.bind_eq_ok_iff.mp hvalue
  cases heq
  exact ⟨v, proof, hraw, by rw [hread, ha]; rfl, hproof, hheight⟩

/-- An answer is the constant for "not found", or it has been endorsed. -/
theorem relayQuery_run_eq_ok {q : RelayQuery} {ans : QueryResponse (Statement C)}
    (h : q.run pr stub now = .ok ans) : q.notFound pr = some ans ∨ q.Answered pr stub now ans := by
  cases q with
  | clientState =>
    obtain ⟨res, hres, hans⟩ := Outcome.bind_eq_ok_iff.mp h
    cases hans
    exact .inr (answered_of_withProof (fun _ => rfl) hres)
  | clientConsensusState height =>
    obtain ⟨res, hres, hans⟩ := Outcome.bind_eq_ok_iff.mp h
    cases hans
    exact .inr (answered_of_withProof (M := C.consensusState) (fun _ => rfl) hres)
  | connection =>
    obtain ⟨res, hres, hans⟩ := Outcome.bind_eq_ok_iff.mp h
    cases hans
    rcases withProofOr_eq_ok hres with rfl | hres
    · exact .inl rfl
    · exact .inr (answered_of_withProof (fun _ => rfl) hres)
  | channel =>
    obtain ⟨res, hres, hans⟩ := Outcome.bind_eq_ok_iff.mp h
    cases hans
    rcases withProofOr_eq_ok hres with rfl | hres
    · exact .inl rfl
    · exact .inr (answered_of_withProof (fun _ => rfl) hres)
  | packetCommitment seq | packetAcknowledgementCommitment seq =>
    -- the value is taken as it is
    obtain ⟨res, hres, hans⟩ := Outcome.bind_eq_ok_iff.mp h
    cases hans
    obtain ⟨proof, hraw, hproof, hheight⟩ := withProof_eq_ok_iff.mp hres
    exact .inr ⟨res.value, proof, hraw, rfl, hproof, hheight⟩

/-- An endorsed value is that of the entry the chaincode returned. -/
theorem endorseCommitmentRaw_eq_ok {q : RelayQuery} {v : Bytes} {proof : CommitmentProof}
    (h : pr.endorseCommitmentRaw stub (q.proposal pr).1 (q.proposal pr).2 = .ok (v, proof)) :
    ∃ e writes, pr.chaincode.invoke (q.stubOf pr stub) (q.call pr) = .ok (.entry e, writes) ∧
      v = e.value ∧ makeCommitmentProof ⟨pr.gateway.marshalEntry e,
        pr.gateway.endorse (pr.gateway.marshalEntry e) writes⟩ = .ok proof := by
  have hdispatch := pr.gateway.dispatch_proposal _ _ (q.proposal_call pr)
  simp only [Prover.endorseCommitmentRaw, Prover.simulate, hdispatch,
    Outcome.ok_bind, Outcome.bind_eq_ok_iff, Outcome.ofExcept_eq_ok_iff] at h
  obtain ⟨res, ⟨⟨r, writes⟩, hinvoke, hres⟩, e', he', proof', hproof, heq⟩ := h
  cases heq
  cases r with
  | entry e =>
    cases hres
    obtain ⟨e'', he'', hvalue⟩ := pr.gateway.unmarshal_value e
    rw [he''] at he'
    cases he'
    exact ⟨e, writes, hinvoke, hvalue, hproof⟩
  | unit | tx _ | sequence _ => cases hres

/-- The entry of an endorsing call, when the start writes nothing: it belongs to a
statement that the store holds. -/
theorem entry_of_quiet {cc : IBCChaincode C} (hquiet : cc.app.Quiet) {call : Call} {e : Entry}
    {writes : List Write} (hcall : call.subject.isSome)
    (h : cc.invoke stub call = .ok (.entry e, writes)) :
    writes = [.put e.key e.value] ∧ ∃ stmt : Statement C, stmt.AskedBy call ∧
      stmt.HeldIn cc.keeper (ibcStore stub.state) ∧ stmt.bytes = .ok e.value ∧
      e.key = stmt.id.key host.storeKey := by
  have hwrites := writes_of_quiet hquiet h
  have heff := invoke_effect h
  obtain ⟨stmt, hasked, hheld⟩ := heff.held hcall
  obtain ⟨app, bz, happ, hbz⟩ := heff.complete hasked hheld
  refine ⟨hwrites, stmt, hasked, hheld, ?_⟩
  -- the one write is the entry
  have hlast : Write.put e.key e.value = Write.put (stmt.id.key host.storeKey) bz := by
    have hlist := congrArg List.getLast? (hwrites.symm.trans happ)
    simpa using hlist
  obtain ⟨hkey, hvalue⟩ := Write.put.inj hlast
  exact ⟨hvalue ▸ hbz, hkey⟩

end Answer

/-! ## What a counterparty accepts -/

/-- The peers that have answered a proposal with the given writes: all of them carry
the read-write set of the invocation, and together they satisfy the endorsement
policy of the client. -/
structure Endorsement (F : Fabric) (cs : ClientState) (writes : List Write)
    (responses : List ProposalResponse) : Prop where
  payload : ∀ r ∈ responses, getTxReadWriteSetFromProposalResponsePayload F r.payload =
    .ok (some cs.lastChaincodeInfo.chaincodeId,
      nsRwSets cs.lastChaincodeInfo.chaincodeId.name writes)
  same : ∀ r ∈ responses, ∀ r' ∈ responses, r.payload = r'.payload
  policy : ∃ configs, cs.lastMspInfos.getMSPPBConfigs F = .ok configs ∧
    Satisfies F cs.lastChaincodeInfo.endorsementPolicy configs
      (responses.map fun r => ⟨r.payload ++ r.endorser, r.endorser, r.signature⟩)

section Accept

variable {F : Fabric} {C : Codec} {cs : ClientState}

/-- The signatures of the responses, in their order. -/
theorem signedDataLoop_responses (payload : Bytes) (responses : List ProposalResponse)
    (h : ∀ r ∈ responses, r.payload = payload) :
    signedDataLoop (fun identity => payload ++ identity)
        (responses.map ProposalResponse.endorser) (responses.map ProposalResponse.signature) =
      .ok (responses.map fun r => ⟨r.payload ++ r.endorser, r.endorser, r.signature⟩) := by
  induction responses with
  | nil => rfl
  | cons r responses ih =>
    obtain ⟨hr, hrest⟩ := List.forall_mem_cons.mp h
    simp only [List.map_cons, signedDataLoop, ih hrest, Outcome.ok_bind, hr]

/-- The second namespace of a read-write set with one write: the chaincode's with
this write, or `_lifecycle` without one. -/
theorem write_at_position {name : Bytes} (hname : admittedName name = true) (key value : Bytes)
    {w : KVWrite} :
    (∃ ns, (nsRwSets name [.put key value])[(1 : UInt32).toNat]? = some ns ∧
        ns.writes[(0 : UInt32).toNat]? = some w) ↔
      name.head?.any isLower = true ∧ w = ⟨key, false, value⟩ := by
  have hbefore := lifecycle_before_iff hname
  rw [nsRwSets_eq, kvWrites_singleton]
  by_cases hlower : name.head?.any isLower = true
  · rw [if_neg (fun hlt => hbefore.mp hlt hlower)]
    simp [hlower, eq_comm]
  · rw [if_pos (hbefore.mpr hlower)]
    simp [hlower]

/-- What the relayer's proof shows to the client. -/
theorem endorsed_relayed_iff {response : ChannelResponse} {key value : Bytes}
    {proof : CommitmentProof} (hends : Endorsement F cs [.put key value] response.responses)
    (hname : admittedName cs.lastChaincodeInfo.chaincodeId.name = true)
    (hne : response.responses ≠ []) (hproof : makeCommitmentProof response = .ok proof)
    {w : KVWrite} :
    cs.Endorsed F proof w ↔
      cs.lastChaincodeInfo.chaincodeId.name.head?.any isLower = true ∧ w = ⟨key, false, value⟩ := by
  obtain ⟨res, hmem, hok⟩ := makeCommitmentProof_eq_ok response hne
  obtain rfl := Outcome.ok.inj (hproof.symm.trans hok)
  obtain ⟨configs, hconfigs, hsat⟩ := hends.policy
  have hsigs : CommitmentProof.toSignedData ⟨res.payload, 1, 0,
      response.responses.map ProposalResponse.endorser,
      response.responses.map ProposalResponse.signature⟩ =
      .ok (response.responses.map fun r => ⟨r.payload ++ r.endorser, r.endorser, r.signature⟩) :=
    signedDataLoop_responses _ _ fun r hr => hends.same r hr res hmem
  have hset := hends.payload res hmem
  rw [← write_at_position hname key value]
  constructor
  · rintro ⟨-, -, -, rwset, ns, -, -, hset', hns, hw⟩
    obtain ⟨-, rfl⟩ := Prod.mk.inj (Outcome.ok.inj (hset.symm.trans hset'))
    exact ⟨ns, hns, hw⟩
  · rintro ⟨ns, hns, hw⟩
    exact ⟨configs, hconfigs, _, _, ns, hsigs, hsat, hset, hns, hw⟩

variable {pr : PathProver C} {q : RelayQuery} {stub now : Stub}

/-- The proof of an endorsed entry is accepted for the entry's statement, at the
heights the client knows. -/
theorem run_relayed_iff {e : Entry} {stmt : Statement C} {proof : CommitmentProof}
    (hends : Endorsement F cs [.put e.key e.value]
      (pr.gateway.endorse (pr.gateway.marshalEntry e) [.put e.key e.value]))
    (hname : admittedName cs.lastChaincodeInfo.chaincodeId.name = true)
    (hproof : makeCommitmentProof ⟨pr.gateway.marshalEntry e,
      pr.gateway.endorse (pr.gateway.marshalEntry e) [.put e.key e.value]⟩ = .ok proof)
    (hbytes : stmt.bytes = .ok e.value) (hkey : e.key = stmt.id.key host.storeKey)
    (hsize : proof.wire.bytes.length < Wire.intLimit) (v : VerifyCall C)
    (hslash : v.statement.id.SlashFree) (store : ClientStore) (height : Height) :
    v.run F cs ⟨store, height, .merkle host.storeKey, some proof.wire.bytes⟩ = .ok () ↔
      v.statement = stmt ∧ cs.lastChaincodeInfo.chaincodeId.name.head?.any isLower = true ∧
      cs.getLatestHeight.lt height = false ∧ ∃ cons, getConsensusState C store height = .ok cons := by
  -- the proof comes back as it was, and shows the entry or nothing
  have hunmarshal : CommitmentProof.unmarshal proof.wire.bytes = .ok proof :=
    (CommitmentProof.unmarshal_marshal (proof.wire.size_eq ▸ hsize)).2
  have hshown := fun w' => endorsed_relayed_iff hends hname (pr.gateway.endorsed _ _) hproof (w := w')
  rw [VerifyCall.run_eq_ok_iff]
  simp only [produceVerificationArgs_eq_ok_iff]
  constructor
  · rintro ⟨proof', cons, bz, w', ⟨hlt, -, ⟨bz', hbz', hproof'⟩, hcons⟩, hvbytes, hw', hvkey, rfl⟩
    obtain rfl := Option.some.inj hbz'
    obtain rfl := Outcome.ok.inj (hunmarshal.symm.trans hproof')
    obtain ⟨hlower, rfl⟩ := (hshown w').mp hw'
    have hkeys : stmt.id.key host.storeKey = v.statement.id.key host.storeKey :=
      hkey.symm.trans hvkey
    have hid := (EntryID.key_inj hkeys).eq_of_slashFree hslash
    exact ⟨Statement.eq_of_bytes hid.symm hvbytes hbytes, hlower, hlt, cons, hcons⟩
  · rintro ⟨rfl, hlower, hlt, cons, hcons⟩
    exact ⟨proof, cons, e.value, _, ⟨hlt, ⟨_, rfl⟩, ⟨_, rfl, hunmarshal⟩, hcons⟩, hbytes,
      (hshown _).mpr ⟨hlower, rfl⟩, hkey, rfl⟩

end Accept

/-! ## That a query is answered -/

section Complete

variable {C : Codec} {pr : PathProver C} {q : RelayQuery} {stub now : Stub}

/-- The chaincode endorses what the store holds. -/
theorem invoke_of_held {cc : IBCChaincode C} (hstart : cc.Starts stub) {call : Call}
    {stmt : Statement C} {bz : Bytes} (hcall : stmt.AskedBy call)
    (hheld : stmt.HeldIn cc.keeper (ibcStore stub.state)) (hbz : stmt.bytes = .ok bz) :
    ∃ writes, cc.invoke stub call = .ok (.entry ⟨stmt.id.key host.storeKey, bz⟩, writes) := by
  obtain ⟨commands, loaded, hprovide, hflush⟩ := hstart
  -- each function makes the entry from what its keeper finds
  have hends : ∀ make : KVStore → Result Entry,
      make (ibcStore stub.state) = .ok ⟨stmt.id.key host.storeKey, bz⟩ →
      respond .entry (cc.endorseEntry stub make) =
        .ok (.entry ⟨stmt.id.key host.storeKey, bz⟩, loaded ++ [.put (stmt.id.key host.storeKey) bz]) :=
    fun make hmake => respond_eq_ok_iff.mpr ⟨_, endorseEntry_eq_ok hprovide hflush hmake, rfl⟩
  refine ⟨loaded ++ [.put (stmt.id.key host.storeKey) bz], ?_⟩
  have hid : call.subject = some stmt.id := hcall
  cases call <;> cases stmt <;> simp only [Call.subject, Statement.id, Option.some.injEq,
    reduceCtorEq] at hid <;> cases hid <;> refine hends _ ?_ <;>
    simp only [Statement.HeldIn, Statement.bytes] at hheld hbz
  case endorsePacketReceiptAbsence.packetReceiptAbsence =>
    cases hbz
    simp only [hheld]
    rfl
  all_goals
    simp only [hheld, found, Outcome.ok_bind]
    first
    | rw [hbz]; rfl
    | cases hbz; rfl

/-- A query is answered with what the chaincode has endorsed. -/
theorem relayQuery_run_of_raw {v : Bytes} {proof : CommitmentProof} {stmt : Statement C}
    {height : Height}
    (hraw : pr.endorseCommitmentRaw stub (q.proposal pr).1 (q.proposal pr).2 = .ok (v, proof))
    (hread : q.read pr v = .ok stmt) (hheight : pr.getCurrentHeight now = .ok height) :
    q.run pr stub now = .ok ⟨stmt, proof.wire.bytes, height⟩ := by
  have hcommitment : ∀ {α : Type} {M : Marshaller α} {a : α}, M.unmarshal v = .ok a →
      pr.endorseCommitment stub M (q.proposal pr).1 (q.proposal pr).2 = .ok (a, proof) := by
    intro α M a ha
    simp only [Prover.endorseCommitment, hraw, Outcome.ok_bind, ha, Outcome.ofExcept]
  have hproof : ∀ {α : Type} (a : α), pr.withProof now (.ok (a, proof)) =
      .ok ⟨a, proof.wire.bytes, height⟩ :=
    fun a => withProof_eq_ok_iff.mpr ⟨proof, rfl, rfl, hheight⟩
  cases q with
  | clientState =>
    obtain ⟨cs, hcs, heq⟩ := Outcome.bind_eq_ok_iff.mp hread
    cases heq
    have hends : pr.endorseClientState stub pr.clientID = .ok (cs, proof) :=
      hcommitment (Outcome.ofExcept_eq_ok_iff.mp hcs)
    simp only [RelayQuery.run, PathProver.queryClientStateWithProof, hends, hproof, Outcome.ok_bind]
    rfl
  | clientConsensusState h =>
    obtain ⟨css, hcss, heq⟩ := Outcome.bind_eq_ok_iff.mp hread
    cases heq
    have hends : pr.endorseConsensusState stub pr.clientID h.revisionHeight = .ok (css, proof) :=
      hcommitment (M := C.consensusState) (Outcome.ofExcept_eq_ok_iff.mp hcss)
    simp only [RelayQuery.run, Prover.queryClientConsensusStateWithProof, hends, hproof,
      Outcome.ok_bind]
    rfl
  | connection =>
    obtain ⟨conn, hconn, heq⟩ := Outcome.bind_eq_ok_iff.mp hread
    cases heq
    have hends : pr.endorseConnectionState stub pr.connectionID = .ok (conn, proof) :=
      hcommitment (Outcome.ofExcept_eq_ok_iff.mp hconn)
    simp only [RelayQuery.run, PathProver.queryConnectionWithProof, hends, PathProver.withProofOr,
      hproof, Outcome.ok_bind]
    rfl
  | channel =>
    obtain ⟨ch, hch, heq⟩ := Outcome.bind_eq_ok_iff.mp hread
    cases heq
    have hends : pr.endorseChannelState stub pr.portID pr.channelID = .ok (ch, proof) :=
      hcommitment (Outcome.ofExcept_eq_ok_iff.mp hch)
    simp only [RelayQuery.run, PathProver.queryChannelWithProof, hends, PathProver.withProofOr,
      hproof, Outcome.ok_bind]
    rfl
  | packetCommitment seq =>
    cases hread
    have hends : pr.endorsePacketCommitment stub pr.portID pr.channelID seq = .ok (v, proof) := hraw
    simp only [RelayQuery.run, PathProver.queryPacketCommitmentWithProof, hends, hproof,
      Outcome.ok_bind]
    rfl
  | packetAcknowledgementCommitment seq =>
    cases hread
    have hends : pr.endorsePacketAcknowledgement stub pr.portID pr.channelID seq = .ok (v, proof) :=
      hraw
    simp only [RelayQuery.run, PathProver.queryPacketAcknowledgementCommitmentWithProof, hends,
      hproof, Outcome.ok_bind]
    rfl

/-- The query for something the store holds is answered with it, at the sequence that
is current when the chain is asked for it. -/
theorem relayQuery_run_of_held (hstart : pr.chaincode.Starts (q.stubOf pr stub))
    {stmt : Statement C} {bz : Bytes} (hcall : stmt.AskedBy (q.call pr))
    (hheld : stmt.HeldIn pr.chaincode.keeper (ibcStore stub.state)) (hbz : stmt.bytes = .ok bz)
    {seq : Sequence} (hseq : pr.chaincode.sequenceMgr.getCurrentSequence now = .ok seq) :
    ∃ e writes proof, e = ⟨stmt.id.key host.storeKey, bz⟩ ∧
      pr.chaincode.invoke (q.stubOf pr stub) (q.call pr) = .ok (.entry e, writes) ∧
      makeCommitmentProof ⟨pr.gateway.marshalEntry e,
        pr.gateway.endorse (pr.gateway.marshalEntry e) writes⟩ = .ok proof ∧
      q.run pr stub now = .ok ⟨stmt, proof.wire.bytes, ⟨0, seq.value⟩⟩ := by
  obtain ⟨writes, hinvoke⟩ := invoke_of_held hstart hcall hheld hbz
  obtain ⟨proof, hproof, hraw⟩ := endorseCommitmentRaw_of_entry (q.proposal_call pr) hinvoke
  have hheight : pr.getCurrentHeight now = .ok ⟨0, seq.value⟩ := by
    rw [Prover.getCurrentHeight, hseq]
  exact ⟨_, writes, proof, rfl, hinvoke, hproof,
    relayQuery_run_of_raw hraw (RelayQuery.read_of_bytes pr hcall hbz) hheight⟩

end Complete

/-! ## A path -/

namespace Sample

open Symbolic

def connectionID : Bytes := str "connection-0"

/-- The texts of the two errors the prover looks for. -/
def errorText : Error → Bytes
  | .wrap .connectionNotFound _ => errConnectionNotFound
  | .wrap .channelNotFound _ => errChannelNotFound
  | _ => []

def pathProver : PathProver codec where
  toProver := prover
  connectionID := connectionID
  portID := port
  channelID := channel
  errorText := errorText
  connection_text _ :=
    (by decide +kernel : strings.contains errConnectionNotFound errConnectionNotFound = true)
  channel_text _ := (by decide +kernel : strings.contains errChannelNotFound errChannelNotFound = true)
  emptyConnection := []
  emptyChannel := []

/-- A chaincode at sequence 1 with one connection. -/
def withConnection : Stub :=
  ⟨(withConsensusStates []).state.insert
    (hexEncode (storePath host.storeKey ++ host.connectionPath connectionID)) (str "open"),
    [], .ok 100, 100, .ok []⟩

def connectionEntry : Entry := makeConnectionStateCommitmentEntry host.storeKey connectionID (str "open")

theorem invoke_connection :
    pathProver.chaincode.invoke (RelayQuery.connection.stubOf pathProver withConnection)
        (RelayQuery.connection.call pathProver) =
      .ok (.entry connectionEntry, [.put connectionEntry.key connectionEntry.value]) := by
  decide +kernel

theorem connection_endorsement (e : Entry) (writes : List Write)
    (h : pathProver.chaincode.invoke (RelayQuery.connection.stubOf pathProver withConnection)
      (RelayQuery.connection.call pathProver) = .ok (.entry e, writes)) :
    Endorsement fabric client writes
      (pathProver.gateway.endorse (pathProver.gateway.marshalEntry e) writes) := by
  rw [invoke_connection] at h
  cases h
  refine ⟨?_, ?_, [org1, org2], by decide +kernel, ([org1, org2], org1), by decide +kernel,
    by decide +kernel⟩
  · intro r hr
    rw [List.mem_singleton.mp hr]
    decide +kernel
  · intro r hr r' hr'
    rw [List.mem_singleton.mp hr, List.mem_singleton.mp hr']

theorem connection_starts :
    pathProver.chaincode.Starts (RelayQuery.connection.stubOf pathProver withConnection) :=
  ⟨[], [], rfl, rfl⟩

/-- What the store says about the connection. -/
def connectionStatement : Statement codec := .connection connectionID (str "open")

theorem connection_held :
    connectionStatement.HeldIn pathProver.chaincode.keeper (ibcStore withConnection.state) := by
  have hstored : ibcStore withConnection.state (host.connectionPath connectionID) =
      some (str "open") := by decide +kernel
  show read (mustUnmarshal codec.connection)
    (ibcStore withConnection.state (host.connectionPath connectionID)) = _
  rw [hstored]
  rfl

theorem connection_asked :
    connectionStatement.AskedBy (RelayQuery.connection.call pathProver) := rfl

theorem connection_sequence :
    pathProver.chaincode.sequenceMgr.getCurrentSequence withConnection = .ok ⟨1, 100⟩ := by
  decide +kernel

/-- The proof that is returned is of moderate size. -/
theorem connection_proof_size {ans : QueryResponse (Statement codec)}
    (h : RelayQuery.connection.run pathProver withConnection withConnection = .ok ans) :
    ans.proof.length < Wire.intLimit := by
  have hlen : (RelayQuery.connection.run pathProver withConnection withConnection >>= fun ans =>
      .ok (decide (ans.proof.length < Wire.intLimit)) : Result Bool) = .ok true := by decide +kernel
  rw [h] at hlen
  simpa using hlen

end Sample

/-! ## End to end -/

section EndToEnd

variable {F : Fabric} {C : Codec} {cs : ClientState} {pr : PathProver C} {q : RelayQuery}
  {stub now : Stub}

/-- **What a relayed proof is good for.** The prover answers a query with something
other than the constant for "not found". Then the IBC store held the returned value
when the proposal was simulated. A counterparty with slash-free identifiers accepts
the returned proof at the returned height for this value and for no other; it does so
exactly when its client has a consensus state at the height, which is not above its
latest one, and the name of the chaincode begins with a lower-case letter. What the
chain did before it was asked for its height plays no part. -/
theorem relayed_proof_accepted_iff {ans : QueryResponse (Statement C)}
    (hans : q.run pr stub now = .ok ans) (hfound : q.notFound pr ≠ some ans)
    (hquiet : pr.chaincode.app.Quiet)
    (hname : admittedName cs.lastChaincodeInfo.chaincodeId.name = true)
    (hends : ∀ e writes, pr.chaincode.invoke (q.stubOf pr stub) (q.call pr) = .ok (.entry e, writes) →
      Endorsement F cs writes (pr.gateway.endorse (pr.gateway.marshalEntry e) writes))
    (hsize : ans.proof.length < Wire.intLimit) :
    ans.value.AskedBy (q.call pr) ∧ ans.value.HeldIn pr.chaincode.keeper (ibcStore stub.state) ∧
    ∀ (v : VerifyCall C) (store : ClientStore), v.statement.id.SlashFree →
      (v.run F cs ⟨store, ans.proofHeight, .merkle host.storeKey, some ans.proof⟩ = .ok () ↔
        v.statement = ans.value ∧
        cs.lastChaincodeInfo.chaincodeId.name.head?.any isLower = true ∧
        cs.getLatestHeight.lt ans.proofHeight = false ∧
        ∃ cons, getConsensusState C store ans.proofHeight = .ok cons) := by
  obtain hnone | ⟨v, proof, hraw, hread, hbz, -⟩ := relayQuery_run_eq_ok hans
  · exact absurd hnone hfound
  obtain ⟨e, writes, hinvoke, rfl, hproof⟩ := endorseCommitmentRaw_eq_ok hraw
  obtain ⟨rfl, stmt, hasked, hheld, hbytes, hkey⟩ := entry_of_quiet hquiet (q.subject_isSome pr) hinvoke
  obtain rfl : stmt = ans.value :=
    Outcome.ok.inj ((RelayQuery.read_of_bytes pr hasked hbytes).symm.trans hread)
  rw [hbz] at hsize ⊢
  exact ⟨hasked, hheld, fun v store hslash => run_relayed_iff (hends e _ hinvoke) hname hproof hbytes
    hkey hsize v hslash store _⟩

open Symbolic Sample in
/-- A client that knows sequence 1 accepts the connection. -/
theorem relayed_proof_accepted_connection :
    ∃ ans, RelayQuery.connection.run pathProver withConnection withConnection = .ok ans ∧
      (VerifyCall.connectionState connectionID (str "open") : VerifyCall codec).run fabric client
        ⟨createdClient.store, ans.proofHeight, .merkle host.storeKey, some ans.proof⟩ = .ok () := by
  obtain ⟨e, writes, proof, -, -, -, hans⟩ := relayQuery_run_of_held connection_starts
    connection_asked connection_held rfl connection_sequence
  refine ⟨_, hans, ?_⟩
  have hiff := (relayed_proof_accepted_iff hans (by rintro ⟨⟩) app_quiet (by decide)
    connection_endorsement (connection_proof_size hans)).2.2
    (.connectionState connectionID (str "open")) createdClient.store
    (show slash ∉ connectionID by decide)
  have hcons : getConsensusState codec createdClient.store ⟨0, 1⟩ = .ok ⟨100⟩ := by decide +kernel
  exact hiff.mpr ⟨rfl, by decide, show client.getLatestHeight.lt ⟨0, 1⟩ = false by decide, _, hcons⟩

/-- **A value is relayed.** The IBC store holds a value of a kind the prover can ask
for, and the chaincode starts. Then the query is answered with this value, at the
sequence that is current when the chain is asked for it; and once the counterparty's
client has the consensus state of this height, the matching verification passes. -/
theorem relayed_value_accepted {stmt : Statement C} {bz : Bytes} {seq : Sequence}
    (hcall : stmt.AskedBy (q.call pr))
    (hheld : stmt.HeldIn pr.chaincode.keeper (ibcStore stub.state)) (hbz : stmt.bytes = .ok bz)
    (hstart : pr.chaincode.Starts (q.stubOf pr stub)) (hquiet : pr.chaincode.app.Quiet)
    (hseq : pr.chaincode.sequenceMgr.getCurrentSequence now = .ok seq)
    (hname : admittedName cs.lastChaincodeInfo.chaincodeId.name = true)
    (hlower : cs.lastChaincodeInfo.chaincodeId.name.head?.any isLower = true)
    (hends : ∀ e writes, pr.chaincode.invoke (q.stubOf pr stub) (q.call pr) = .ok (.entry e, writes) →
      Endorsement F cs writes (pr.gateway.endorse (pr.gateway.marshalEntry e) writes)) :
    ∃ ans, q.run pr stub now = .ok ans ∧ ans.value = stmt ∧ ans.proofHeight = ⟨0, seq.value⟩ ∧
      (ans.proof.length < Wire.intLimit → ∀ (v : VerifyCall C) (store : ClientStore),
        v.statement = stmt → v.statement.id.SlashFree →
        cs.getLatestHeight.lt ⟨0, seq.value⟩ = false →
        (getConsensusState C store ⟨0, seq.value⟩).isOk = true →
        v.run F cs ⟨store, ans.proofHeight, .merkle host.storeKey, some ans.proof⟩ = .ok ()) := by
  obtain ⟨e, writes, proof, rfl, hinvoke, hproof, hrun⟩ :=
    relayQuery_run_of_held hstart hcall hheld hbz hseq
  obtain rfl := writes_of_quiet hquiet hinvoke
  refine ⟨_, hrun, rfl, rfl, fun hsize v store hv hslash hlt hcons => ?_⟩
  obtain ⟨cons, hcons⟩ := Outcome.isOk_iff.mp hcons
  exact (run_relayed_iff (hends _ _ hinvoke) hname hproof hbz rfl hsize v hslash store _).mpr
    ⟨hv, hlower, hlt, cons, hcons⟩

open Symbolic Sample in
/-- The connection reaches the client. -/
theorem relayed_value_accepted_connection :
    ∃ ans, RelayQuery.connection.run pathProver withConnection withConnection = .ok ans ∧
      (VerifyCall.connectionState connectionID (str "open") : VerifyCall codec).run fabric client
        ⟨createdClient.store, ans.proofHeight, .merkle host.storeKey, some ans.proof⟩ = .ok () := by
  obtain ⟨ans, hans, -, -, haccept⟩ := relayed_value_accepted connection_asked connection_held rfl
    connection_starts app_quiet connection_sequence (by decide) (by decide) connection_endorsement
  exact ⟨ans, hans, haccept (connection_proof_size hans)
    (.connectionState connectionID (str "open")) createdClient.store rfl
    (show slash ∉ connectionID by decide) (by decide) (by decide +kernel)⟩

end EndToEnd

/-! ## What does not exist -/

section NotFound

variable {F : Fabric} {C : Codec} {pr : PathProver C} {q : RelayQuery} {stub now : Stub}

/-- The store has no such connection or channel. -/
def RelayQuery.Missing (pr : PathProver C) (store : KVStore) : RelayQuery → Prop
  | connection => pr.chaincode.keeper.getConnection store pr.connectionID = .ok none
  | channel => pr.chaincode.keeper.getChannel store pr.portID pr.channelID = .ok none
  | _ => False

theorem endorseEntry_eq_err {cc : IBCChaincode C} (hstart : cc.Starts stub)
    {make : KVStore → Result Entry} {e : Error} (hmake : make (ibcStore stub.state) = .err e) :
    respond .entry (cc.endorseEntry stub make) = .err e := by
  obtain ⟨commands, loaded, hprovide, hflush⟩ := hstart
  rw [IBCChaincode.endorseEntry, IBCChaincode.runFunc, hprovide, Outcome.ok_bind, hflush,
    Outcome.ok_bind, hmake]
  rfl

/-- An error of the chaincode comes back from the gateway. -/
theorem endorseCommitmentRaw_eq_err {e : Error}
    (h : pr.chaincode.invoke (q.stubOf pr stub) (q.call pr) = .err e) :
    pr.endorseCommitmentRaw stub (q.proposal pr).1 (q.proposal pr).2 = .err e := by
  have h' : pr.chaincode.invoke (Prover.proposalStub stub (q.proposal pr).1 (q.proposal pr).2)
      (q.call pr) = .err e := h
  have hdispatch := pr.gateway.dispatch_proposal _ _ (q.proposal_call pr)
  simp only [Prover.endorseCommitmentRaw, Prover.simulate, hdispatch, Outcome.ok_bind, h',
    Outcome.err_bind]

/-- The error of the chaincode for what is missing. -/
theorem invoke_of_missing {cc : IBCChaincode C} (hstart : cc.Starts stub) :
    (∀ id, cc.keeper.getConnection (ibcStore stub.state) id = .ok none →
      ∃ d, cc.invoke stub (.endorseConnectionState id) = .err (.wrap .connectionNotFound d)) ∧
    ∀ p c, cc.keeper.getChannel (ibcStore stub.state) p c = .ok none →
      ∃ d, cc.invoke stub (.endorseChannelState p c) = .err (.wrap .channelNotFound d) := by
  constructor
  · intro id hnone
    refine ⟨.errorf "cannot relay ACK of open attempt: %v" [.bytes id], endorseEntry_eq_err hstart ?_⟩
    simp only [hnone, found, Outcome.err_bind]
  · intro p c hnone
    refine ⟨.errorf "%s" [.bytes c], endorseEntry_eq_err hstart ?_⟩
    simp only [hnone, found, Outcome.err_bind]

/-- What is missing is answered with the constant. -/
theorem relayQuery_run_of_missing (hstart : pr.chaincode.Starts (q.stubOf pr stub))
    (hmissing : q.Missing pr (ibcStore stub.state)) :
    ∃ ans, q.run pr stub now = .ok ans ∧ q.notFound pr = some ans := by
  cases q with
  | connection =>
    obtain ⟨d, herr⟩ := (invoke_of_missing hstart).1 pr.connectionID hmissing
    have hraw := endorseCommitmentRaw_eq_err (q := .connection) herr
    have hends : pr.endorseConnectionState stub pr.connectionID =
        .err (.wrap .connectionNotFound d) := by
      rw [PathProver.endorseConnectionState, Prover.endorseCommitment]
      exact congrArg (· >>= _) hraw
    refine ⟨_, ?_, rfl⟩
    simp only [RelayQuery.run, PathProver.queryConnectionWithProof, hends, PathProver.withProofOr,
      pr.connection_text, if_true]
    rfl
  | channel =>
    obtain ⟨d, herr⟩ := (invoke_of_missing hstart).2 pr.portID pr.channelID hmissing
    have hraw := endorseCommitmentRaw_eq_err (q := .channel) herr
    have hends : pr.endorseChannelState stub pr.portID pr.channelID =
        .err (.wrap .channelNotFound d) := by
      rw [PathProver.endorseChannelState, Prover.endorseCommitment]
      exact congrArg (· >>= _) hraw
    refine ⟨_, ?_, rfl⟩
    simp only [RelayQuery.run, PathProver.queryChannelWithProof, hends, PathProver.withProofOr,
      pr.channel_text, if_true]
    rfl
  | _ => exact hmissing.elim

/-- **What does not exist is not proved.** A query for a connection or a channel that
the store does not have is answered without an error, with the constant. No client
that was created at a height above 0 accepts it for anything, after whatever headers
as long as the heights are not exhausted. -/
theorem not_found_never_accepted {client : Client} {headers : List Header} {h₀ : UInt64} {t₀ : Int64}
    (hstart : pr.chaincode.Starts (q.stubOf pr stub))
    (hmissing : q.Missing pr (ibcStore stub.state)) (hpos : 0 < h₀.toNat)
    (hheight : client.state.getLatestHeight = ⟨0, h₀⟩)
    (htime : client.state.getLatestTimestamp = t₀)
    (hstored : getConsensusState C client.store ⟨0, h₀⟩ = .ok ⟨t₀⟩)
    (hone : ∀ height, (client.store[host.consensusStatePath height]?).isSome → height = ⟨0, h₀⟩)
    (hbound : h₀.toNat + (acceptedHeaders F C client headers).length < 2 ^ 64) :
    ∃ ans, q.run pr stub now = .ok ans ∧ q.notFound pr = some ans ∧
      ∀ (v : VerifyCall C) (pfx : PrefixI), v.run F (runClient F C client headers).state
        ⟨(runClient F C client headers).store, ans.proofHeight, pfx, some ans.proof⟩ ≠ .ok () := by
  obtain ⟨ans, hrun, hans⟩ : ∃ ans, q.run pr stub now = .ok ans ∧ q.notFound pr = some ans :=
    relayQuery_run_of_missing hstart hmissing
  refine ⟨ans, hrun, hans, fun v pfx hv => ?_⟩
  have hzero : ans.proofHeight = ⟨0, 0⟩ := by
    cases q with
    | connection | channel =>
      cases hans
      rfl
    | _ => exact hmissing.elim
  -- a verification wants a consensus state at `(0, 0)`, and the history has none
  obtain ⟨hcarrying, hlen⟩ := runClient_filter_carrying (F := F) (C := C) headers client
  have hcarry : ∀ h ∈ headers.filter (·.chaincodeHeader.isSome), h.chaincodeHeader.isSome := by simp
  obtain ⟨hist, -⟩ := runClient_history (F := F) hcarry
    (History.created hheight htime hstored hone) (by simp; omega)
  rw [hcarrying] at hist
  obtain ⟨proof, cons, bz, w, hargs, -⟩ := VerifyCall.run_eq_ok_iff.mp hv
  obtain ⟨-, -, -, hcons⟩ := produceVerificationArgs_eq_ok_iff.mp hargs
  have hsome : ((runClient F C client headers).store[host.consensusStatePath ⟨0, 0⟩]?).isSome := by
    by_contra hnone
    rw [Option.not_isSome_iff_eq_none] at hnone
    rw [hzero, getConsensusState, hnone] at hcons
    cases hcons
  obtain ⟨i, hi, heq⟩ := hist.exact _ hsome
  have hi : i ≤ (acceptedHeaders F C client headers).length := by
    simp at hi
    omega
  have hnat : (heightAt h₀ i).revisionHeight.toNat = h₀.toNat + i := heightAt_toNat (by omega)
  rw [← heq] at hnat
  have hnat : 0 = h₀.toNat + i := hnat
  omega

open Symbolic Sample in
/-- The chain has no channel; the client has seen sequence 2. -/
theorem not_found_never_accepted_channel :
    ∃ ans, RelayQuery.channel.run pathProver withConnection withConnection = .ok ans ∧
      (VerifyCall.channelState port channel [] : VerifyCall codec).run fabric
        (runClient fabric codec createdClient [⟨some (sequenceHeader ⟨2, 110⟩), none, none⟩]).state
        ⟨(runClient fabric codec createdClient [⟨some (sequenceHeader ⟨2, 110⟩), none, none⟩]).store,
          ans.proofHeight, .merkle host.storeKey, some ans.proof⟩ ≠ .ok () := by
  have hstart : pathProver.chaincode.Starts (RelayQuery.channel.stubOf pathProver withConnection) :=
    ⟨[], [], rfl, rfl⟩
  have hnone : ibcStore withConnection.state (host.channelPath port channel) = none := by
    decide +kernel
  have hmissing : RelayQuery.channel.Missing pathProver (ibcStore withConnection.state) := by
    show read (mustUnmarshal codec.channel)
      (ibcStore withConnection.state (host.channelPath port channel)) = _
    rw [hnone]
    rfl
  have hheight : createdClient.state.getLatestHeight = ⟨0, 1⟩ := rfl
  have hbound : (1 : UInt64).toNat + (acceptedHeaders fabric codec createdClient
      [⟨some (sequenceHeader ⟨2, 110⟩), none, none⟩]).length < 2 ^ 64 := by decide +kernel
  obtain ⟨ans, hans, -, hno⟩ := not_found_never_accepted (F := fabric) hstart hmissing (by decide)
    hheight rfl (by decide +kernel) height_of_createdClient hbound
  exact ⟨ans, hans, hno _ _⟩

end NotFound

end FabricIBC
