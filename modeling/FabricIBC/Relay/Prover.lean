import FabricIBC.Lib.Run
import FabricIBC.Chaincode.Agreement
import FabricIBC.LightClient.Messages

/-!
# Fabric-IBC — relay: proofs of consensus states

`relay/proof.go`, `relay/commitment.go` and the function of `relay/prover.go`
behind a connection handshake: `QueryClientConsensusStateWithProof` asks the
chaincode for an endorsed consensus state of a client at a height, and then for the
current sequence, which becomes the height of the proof. These are two queries; the
chain may go on between them, so they run on two stubs (`stub` and `now`).

On its way the height loses its revision number. The prover passes on
`GetRevisionHeight()` alone, and the chaincode makes `(0, h)` of it
(`makeHeight`).

* `query_of_entry` — what the query returns: the consensus state and the entry at
  `(0, h)`, whatever the revision;
* `consensus_state_proof_iff` — so the proof is the wanted one exactly for
  revision 0;
* `proof_of_other_height` — what is returned for another revision.
-/

namespace FabricIBC

open Go

/-! ## Code outside the repository: the gateway and the contract API -/

/-- The response of one endorsing peer. -/
structure ProposalResponse where
  payload : Bytes
  endorser : Bytes
  signature : Bytes
  deriving DecidableEq, Repr

/-- `channel.Response`. -/
structure ChannelResponse where
  payload : Bytes
  responses : List ProposalResponse
  deriving DecidableEq, Repr

/-! The names under which the prover calls the functions of the chaincode. -/

def endorseClientStateFunc : Bytes := str "endorseClientState"

def endorseConsensusStateFunc : Bytes := str "endorseConsensusStateCommitment"

def endorseConnectionStateFunc : Bytes := str "endorseConnectionState"

def endorseChannelStateFunc : Bytes := str "endorseChannelState"

def endorsePacketCommitmentFunc : Bytes := str "endorsePacketCommitment"

def endorsePacketAcknowledgementFunc : Bytes := str "endorsePacketAcknowledgement"

/-- The proposal for a call: a name and the arguments, which are strings. -/
def Call.proposal : Call → Option (Bytes × List Bytes)
  | .endorseClientState clientID => some (endorseClientStateFunc, [clientID])
  | .endorseConsensusStateCommitment clientID height =>
    some (endorseConsensusStateFunc, [clientID, dec height.toNat])
  | .endorseConnectionState connectionID => some (endorseConnectionStateFunc, [connectionID])
  | .endorseChannelState portID channelID => some (endorseChannelStateFunc, [portID, channelID])
  | .endorsePacketCommitment portID channelID sequence =>
    some (endorsePacketCommitmentFunc, [portID, channelID, dec sequence.toNat])
  | .endorsePacketAcknowledgement portID channelID sequence =>
    some (endorsePacketAcknowledgementFunc, [portID, channelID, dec sequence.toNat])
  -- the prover has no function for the others
  | _ => none

/-- The way of a proposal to the chaincode, and of a commitment entry back to the relayer. -/
structure Gateway where
  /-- The contract API finds the function by its name, up to the case of the first
  letter, and converts the arguments to the types of its parameters. -/
  dispatch : Bytes → List Bytes → Result Call
  /-- The JSON of `entry.ToCommitment()`, which has the value in base64. -/
  marshalEntry : Entry → Bytes
  /-- `unmarshalCommitmentEntry`: `json.Unmarshal` into an `Entry`. -/
  unmarshalEntry : Bytes → Except Error Entry
  /-- The endorsements of a proposal that returns the bytes and makes the writes. -/
  endorse : Bytes → List Write → List ProposalResponse
  /-- The functions have the prover's names, and a number survives its decimal form. -/
  dispatch_proposal : ∀ call p, call.proposal = some p → dispatch p.1 p.2 = .ok call
  /-- A byte slice survives base64. -/
  unmarshal_value : ∀ e, ∃ e', unmarshalEntry (marshalEntry e) = .ok e' ∧ e'.value = e.value
  /-- A proposal that succeeds has been endorsed by someone. -/
  endorsed : ∀ bz writes, endorse bz writes ≠ []

/-! ## The prover -/

/-- `makeCommitmentProof` of the relay; the indices are constants. -/
def makeCommitmentProof (response : ChannelResponse) : Result CommitmentProof :=
  match response.responses with
  -- `response.Responses[0]`
  | [] => .panic .indexOutOfRange
  | res :: rest => do
    let proof : CommitmentProof :=
      ⟨res.payload, 1, 0, (res :: rest).map ProposalResponse.endorser,
        (res :: rest).map ProposalResponse.signature⟩
    proof.validateBasic
    .ok proof

/-- The answer to a query: a value, the marshalled proof, and the height. -/
structure QueryResponse (α : Type) where
  value : α
  proof : Bytes
  proofHeight : Height

/-- The prover of a chain: the chaincode behind its contract, and the client at
its end of the path. -/
structure Prover (C : Codec) where
  chaincode : IBCChaincode C
  gateway : Gateway
  clientID : Bytes

namespace Prover

variable {C : Codec} (pr : Prover C) (stub now : Stub)

/-- The stub of a proposal that calls `fn`. -/
def proposalStub (fn : Bytes) (args : List Bytes) : Stub := { stub with args := fn :: args }

/-- `CreateTransaction` and `Simulate`. -/
def simulate (fn : Bytes) (args : List Bytes) : Result ChannelResponse := do
  let call ← pr.gateway.dispatch fn args
  let (res, writes) ← pr.chaincode.invoke (proposalStub stub fn args) call
  match res with
  | .entry e =>
    let payload := pr.gateway.marshalEntry e
    .ok ⟨payload, pr.gateway.endorse payload writes⟩
  -- not reached: the endorsing functions return entries
  | _ => .err (.external "unexpected response")

/-- `endorseCommitmentRaw`. -/
def endorseCommitmentRaw (fn : Bytes) (args : List Bytes) : Result (Bytes × CommitmentProof) := do
  let res ← pr.simulate stub fn args
  let entry ← Outcome.ofExcept (pr.gateway.unmarshalEntry res.payload)
  let proof ← makeCommitmentProof res
  .ok (entry.value, proof)

/-- `endorseCommitment`: the value of the entry is unmarshalled. -/
def endorseCommitment {α : Type} (M : Marshaller α) (fn : Bytes) (args : List Bytes) :
    Result (α × CommitmentProof) := do
  let (v, proof) ← pr.endorseCommitmentRaw stub fn args
  let result ← Outcome.ofExcept (M.unmarshal v)
  .ok (result, proof)

/-- `endorseConsensusState`: the value is the consensus state in an `Any`. -/
def endorseConsensusState (clientID : Bytes) (height : UInt64) :
    Result (ConsensusStateI C.OtherConsensusState × CommitmentProof) :=
  pr.endorseCommitment stub C.consensusState endorseConsensusStateFunc [clientID, dec height.toNat]

/-- `getCurrentHeight`. -/
def getCurrentHeight : Result Height :=
  match pr.chaincode.sequenceMgr.getCurrentSequence stub with
  | .ok seq => .ok ⟨0, seq.value⟩
  | .err e => .panic (.explicit e.text)
  | .panic p => .panic p

/-- What the queries do with an endorsed value: marshal the proof, ask for the
current height. -/
def withProof {α : Type} (endorsed : Result (α × CommitmentProof)) : Result (QueryResponse α) := do
  let (value, proof) ← endorsed
  let proofBytes ← proof.wire.marshal.mapErr .wire
  let proofHeight ← pr.getCurrentHeight now
  .ok ⟨value, proofBytes, proofHeight⟩

/-- `QueryClientConsensusStateWithProof`. -/
def queryClientConsensusStateWithProof (dstClientConsHeight : Height) :
    Result (QueryResponse (ConsensusStateI C.OtherConsensusState)) :=
  -- only the revision height is passed on
  pr.withProof now (pr.endorseConsensusState stub pr.clientID dstClientConsHeight.revisionHeight)

/-- The call the query leads to. -/
def consensusStateCall (height : Height) : Call :=
  .endorseConsensusStateCommitment pr.clientID height.revisionHeight

/-- The stub on which it runs. -/
def consensusStateStub (height : Height) : Stub :=
  proposalStub stub endorseConsensusStateFunc [pr.clientID, dec height.revisionHeight.toNat]

end Prover

/-! ## What the chaincode endorses -/

/-- The application can be set up on the stub. -/
def IBCChaincode.Starts {C : Codec} (cc : IBCChaincode C) (stub : Stub) : Prop :=
  ∃ commands loaded, cc.app.provide stub (cc.getBlockProvider stub) = .ok commands ∧
    compat.flush commands = .ok loaded

section Endorse

variable {C : Codec} {cc : IBCChaincode C} {stub : Stub}

/-- An endorsing function puts the entry it makes, after the writes of the start. -/
theorem endorseEntry_eq_ok {make : KVStore → Result Entry} {commands : List compat.Command}
    {loaded : List Write} (hprovide : cc.app.provide stub (cc.getBlockProvider stub) = .ok commands)
    (hflush : compat.flush commands = .ok loaded) {e : Entry}
    (hmake : make (ibcStore stub.state) = .ok e) :
    cc.endorseEntry stub make = .ok (e, loaded ++ [.put e.key e.value]) := by
  rw [IBCChaincode.endorseEntry, IBCChaincode.runFunc, hprovide, Outcome.ok_bind, hflush,
    Outcome.ok_bind, hmake]
  rfl

/-- The chaincode endorses the consensus state it holds at `(0, n)`. -/
theorem endorseConsensusStateCommitment_eq_ok (hstart : cc.Starts stub) {clientID : Bytes}
    {n : UInt64} {css : ConsensusStateI C.OtherConsensusState} {bz : Bytes}
    (hstored : cc.keeper.getClientConsensusState (ibcStore stub.state) clientID ⟨0, n⟩ =
      .ok (some css))
    (hbz : C.consensusState.marshal css = .ok bz) :
    ∃ writes, cc.invoke stub (.endorseConsensusStateCommitment clientID n) =
      .ok (.entry ⟨makeConsensusStateCommitmentEntryKey host.storeKey clientID ⟨0, n⟩, bz⟩, writes) := by
  have hheight : IBCChaincode.makeHeight n = ⟨0, n⟩ := rfl
  obtain ⟨commands, loaded, hprovide, hflush⟩ := hstart
  refine ⟨loaded ++ [.put (makeConsensusStateCommitmentEntryKey host.storeKey clientID ⟨0, n⟩) bz], ?_⟩
  rw [IBCChaincode.invoke, respond_eq_ok_iff]
  refine ⟨makeConsensusStateCommitmentEntry host.storeKey clientID ⟨0, n⟩ bz, ?_, rfl⟩
  rw [IBCChaincode.endorseConsensusStateCommitment]
  refine endorseEntry_eq_ok hprovide hflush ?_
  simp only [hheight, hstored, found, Outcome.ok_bind, hbz, Outcome.ofExcept]

/-- It endorses no other height. -/
theorem endorseConsensusStateCommitment_entry {clientID : Bytes} {n : UInt64} {e : Entry}
    {writes : List Write}
    (h : cc.invoke stub (.endorseConsensusStateCommitment clientID n) = .ok (.entry e, writes)) :
    ∃ css bz, cc.keeper.getClientConsensusState (ibcStore stub.state) clientID ⟨0, n⟩ =
        .ok (some css) ∧ C.consensusState.marshal css = .ok bz ∧
      e = ⟨makeConsensusStateCommitmentEntryKey host.storeKey clientID ⟨0, n⟩, bz⟩ := by
  rw [IBCChaincode.invoke, respond_eq_ok_iff] at h
  obtain ⟨e', h, heq⟩ := h
  cases heq
  obtain ⟨app, ws, -, hws, -⟩ := runFunc_eq_ok h
  simp only [Outcome.bind_eq_ok_iff, found_eq_ok_iff, Outcome.ofExcept_eq_ok_iff, Outcome.ok.injEq,
    Prod.mk.injEq] at hws
  obtain ⟨e', ⟨css, hcss, bz, hbz, rfl⟩, rfl, -⟩ := hws
  exact ⟨css, bz, hcss, hbz, rfl⟩

end Endorse

/-! ## What the query returns -/

section Query

variable {C : Codec} {pr : Prover C} {stub now : Stub}

/-- A proof is made of every list of endorsements but the empty one: one
identity and one signature of each, in their order. -/
theorem makeCommitmentProof_eq_ok (response : ChannelResponse) (h : response.responses ≠ []) :
    ∃ res ∈ response.responses,
      makeCommitmentProof response = .ok ⟨res.payload, 1, 0,
        response.responses.map ProposalResponse.endorser,
        response.responses.map ProposalResponse.signature⟩ := by
  obtain ⟨res, rest, hres⟩ := List.exists_cons_of_ne_nil h
  refine ⟨res, hres ▸ List.mem_cons_self, ?_⟩
  rw [makeCommitmentProof, hres]
  simp [CommitmentProof.validateBasic]

theorem withProof_eq_ok_iff {α : Type} {endorsed : Result (α × CommitmentProof)}
    {res : QueryResponse α} :
    pr.withProof now endorsed = .ok res ↔
      ∃ proof, endorsed = .ok (res.value, proof) ∧ res.proof = proof.wire.bytes ∧
        pr.getCurrentHeight now = .ok res.proofHeight := by
  obtain ⟨value, bz, height⟩ := res
  simp only [Prover.withProof, Outcome.bind_eq_ok_iff, (Wire.Part.marshal_eq _).2,
    Outcome.mapErr, Outcome.ok.injEq, exists_eq_left', QueryResponse.mk.injEq, Prod.exists]
  constructor
  · rintro ⟨_, proof, hendorsed, height, hheight, rfl, rfl, rfl⟩
    exact ⟨proof, hendorsed, rfl, hheight⟩
  · rintro ⟨proof, hendorsed, rfl, hheight⟩
    exact ⟨value, proof, hendorsed, height, hheight, rfl, rfl, rfl⟩

/-- The prover has a proof of every entry the chaincode returns for its proposal. -/
theorem endorseCommitmentRaw_of_entry {call : Call} {fn : Bytes} {args : List Bytes}
    (hcall : call.proposal = some (fn, args)) {e : Entry} {writes : List Write}
    (hinvoke : pr.chaincode.invoke (Prover.proposalStub stub fn args) call =
      .ok (.entry e, writes)) :
    ∃ proof, makeCommitmentProof ⟨pr.gateway.marshalEntry e,
        pr.gateway.endorse (pr.gateway.marshalEntry e) writes⟩ = .ok proof ∧
      pr.endorseCommitmentRaw stub fn args = .ok (e.value, proof) := by
  have hdispatch : pr.gateway.dispatch fn args = .ok call := pr.gateway.dispatch_proposal _ _ hcall
  obtain ⟨res, -, hproof⟩ := makeCommitmentProof_eq_ok ⟨pr.gateway.marshalEntry e,
    pr.gateway.endorse (pr.gateway.marshalEntry e) writes⟩ (pr.gateway.endorsed _ _)
  obtain ⟨e', he', hvalue⟩ := pr.gateway.unmarshal_value e
  refine ⟨_, hproof, ?_⟩
  simp only [Prover.endorseCommitmentRaw, Prover.simulate, hdispatch, Outcome.ok_bind, hinvoke, he',
    Outcome.ofExcept, hproof, hvalue]

/-- The query succeeds when the chaincode endorses an entry whose value decodes,
and there is a current sequence. -/
theorem query_of_entry {height : Height} {e : Entry} {writes : List Write}
    (hinvoke : pr.chaincode.invoke (pr.consensusStateStub stub height) (pr.consensusStateCall height) =
      .ok (.entry e, writes))
    {css : ConsensusStateI C.OtherConsensusState}
    (hcss : C.consensusState.unmarshal e.value = .ok css) {seq : Sequence}
    (hseq : pr.chaincode.sequenceMgr.getCurrentSequence now = .ok seq) :
    ∃ proof, pr.queryClientConsensusStateWithProof stub now height =
      .ok ⟨css, proof, ⟨0, seq.value⟩⟩ := by
  obtain ⟨proof, -, hraw⟩ := endorseCommitmentRaw_of_entry rfl hinvoke
  have hends : pr.endorseConsensusState stub pr.clientID height.revisionHeight =
      .ok (css, proof) := by
    simp only [Prover.endorseConsensusState, Prover.endorseCommitment, hraw, Outcome.ok_bind, hcss,
      Outcome.ofExcept]
  have hheight : pr.getCurrentHeight now = .ok ⟨0, seq.value⟩ := by
    rw [Prover.getCurrentHeight, hseq]
  exact ⟨proof.wire.bytes, withProof_eq_ok_iff.mpr ⟨proof, hends, rfl, hheight⟩⟩

/-- The query yields what a counterparty can verify at the height: the consensus
state, and an endorsed entry with the key of the height and its bytes. -/
structure Prover.Proves (pr : Prover C) (stub now : Stub) (height : Height)
    (css : ConsensusStateI C.OtherConsensusState) (bz : Bytes) : Prop where
  query : ∃ res, pr.queryClientConsensusStateWithProof stub now height = .ok res ∧
    res.value = css
  entry : ∃ e writes,
    pr.chaincode.invoke (pr.consensusStateStub stub height) (pr.consensusStateCall height) =
      .ok (.entry e, writes) ∧
    e.key = makeConsensusStateCommitmentEntryKey host.storeKey pr.clientID height ∧ e.value = bz

/-- **For which heights the prover works.** Let the client have a consensus state
at the height. The query for it yields the proof of this consensus state under
the key of this height exactly when the revision number is 0. -/
theorem consensus_state_proof_iff {height : Height} {css : ConsensusStateI C.OtherConsensusState}
    {bz : Bytes} {seq : Sequence}
    (hstart : pr.chaincode.Starts (pr.consensusStateStub stub height))
    (hseq : pr.chaincode.sequenceMgr.getCurrentSequence now = .ok seq)
    (hstored : pr.chaincode.keeper.getClientConsensusState (ibcStore stub.state) pr.clientID height =
      .ok (some css))
    (hbz : C.consensusState.marshal css = .ok bz) :
    pr.Proves stub now height css bz ↔ height.revisionNumber = 0 := by
  constructor
  · intro hproves
    obtain ⟨e, writes, hinvoke, hkey, -⟩ := hproves.entry
    obtain ⟨css', bz', -, -, rfl⟩ := endorseConsensusStateCommitment_entry hinvoke
    -- the key of the entry is that of revision 0
    have hkeys : EntryID.key host.storeKey (.consensusState pr.clientID ⟨0, height.revisionHeight⟩) =
        EntryID.key host.storeKey (.consensusState pr.clientID height) := hkey
    obtain ⟨-, hheight⟩ := EntryID.key_inj hkeys
    rw [← hheight]
  · intro hzero
    have hheight : height = ⟨0, height.revisionHeight⟩ := by
      cases height
      simp only [Height.mk.injEq, and_true]
      exact hzero
    rw [hheight] at hstored
    obtain ⟨writes, hinvoke⟩ := endorseConsensusStateCommitment_eq_ok hstart hstored hbz
    obtain ⟨proof, hquery⟩ := query_of_entry hinvoke
      (C.consensusState.unmarshal_marshal css bz hbz) hseq
    exact ⟨⟨_, hquery, rfl⟩, ⟨_, writes, hinvoke, by rw [← hheight], rfl⟩⟩

end Query

namespace Sample

open Symbolic

/-- An entry on its way: the value in hex, and the key. -/
def marshalEntry (e : Entry) : Bytes := hexEncode e.value ++ slash :: e.key

def unmarshalEntry (bz : Bytes) : Except Error Entry :=
  match hexDecode (bz.takeWhile (· != slash)) with
  | none => .error (.external "illegal base64 data")
  | some value => .ok ⟨(bz.dropWhile (· != slash)).tail, value⟩

theorem unmarshalEntry_marshalEntry (e : Entry) : unmarshalEntry (marshalEntry e) = .ok e := by
  have hfree : ∀ b ∈ hexEncode e.value, (b != slash) = true := by
    intro b hb
    rw [bne_iff_ne]
    rintro rfl
    exact slash_notMem_hexEncode e.value hb
  have htake : (marshalEntry e).takeWhile (· != slash) = hexEncode e.value := by
    rw [marshalEntry, List.takeWhile_append_of_pos hfree, List.takeWhile_cons_of_neg (by decide),
      List.append_nil]
  have hdrop : (marshalEntry e).dropWhile (· != slash) = slash :: e.key := by
    rw [marshalEntry, List.dropWhile_append_of_pos hfree, List.dropWhile_cons_of_neg (by decide)]
  rw [unmarshalEntry, htake, hdrop, hexDecode_hexEncode]
  rfl

/-- A parameter of type `uint64`. -/
def uintParam (s : Bytes) : Result UInt64 :=
  match parseUint s with
  | some n => .ok n
  | none => .err (.external "Param could not be converted to type uint64")

/-- The functions of the contract by their names and their number of parameters. -/
def dispatch (fn : Bytes) (params : List Bytes) : Result Call :=
  match params with
  | [id] =>
    if fn = endorseClientStateFunc then .ok (.endorseClientState id)
    else if fn = endorseConnectionStateFunc then .ok (.endorseConnectionState id)
    else .err (.external "Function not found in contract")
  | [id, param] =>
    if fn = endorseChannelStateFunc then .ok (.endorseChannelState id param)
    else if fn = endorseConsensusStateFunc then do
      let height ← uintParam param
      .ok (.endorseConsensusStateCommitment id height)
    else .err (.external "Function not found in contract")
  | [portID, channelID, param] => do
    let sequence ← uintParam param
    if fn = endorsePacketCommitmentFunc then .ok (.endorsePacketCommitment portID channelID sequence)
    else if fn = endorsePacketAcknowledgementFunc then
      .ok (.endorsePacketAcknowledgement portID channelID sequence)
    else .err (.external "Function not found in contract")
  | _ => .err (.external "Incorrect number of params")

theorem dispatch_proposal (call : Call) (p : Bytes × List Bytes) (h : call.proposal = some p) :
    dispatch p.1 p.2 = .ok call := by
  have hparam : ∀ n : UInt64, uintParam (dec n.toNat) = .ok n := by
    intro n
    rw [uintParam, parseUint_dec]
  have hconnection : endorseConnectionStateFunc ≠ endorseClientStateFunc := by decide
  have hconsensus : endorseConsensusStateFunc ≠ endorseChannelStateFunc := by decide
  have hack : endorsePacketAcknowledgementFunc ≠ endorsePacketCommitmentFunc := by decide
  -- one function for each call the prover makes; the other calls have no proposal
  cases call <;> cases h <;> simp [dispatch, hparam, hconnection, hconsensus, hack]

/-- Proposals are endorsed by `Org1`; the namespace of the chaincode is the second one. -/
def gateway : Gateway where
  dispatch := dispatch
  marshalEntry := marshalEntry
  unmarshalEntry := unmarshalEntry
  endorse _ writes :=
    let payload := encodePayload (some Symbolic.cc)
      [⟨str "_lifecycle", []⟩, ⟨Symbolic.cc.name, writes.map Write.kv⟩]
    [⟨payload, org1, sign org1 (payload ++ org1)⟩]
  dispatch_proposal := dispatch_proposal
  unmarshal_value e := ⟨e, unmarshalEntry_marshalEntry e, rfl⟩
  endorsed _ _ := by simp

def clientID : Bytes := str "fabric-ibc-1"

def prover : Prover codec := ⟨chaincode, gateway, clientID⟩

/-- Where the client has its consensus state of a height. -/
def consensusStateKey (height : Height) : Bytes :=
  hexEncode (storePath host.storeKey ++ (clientPath clientID ++ host.consensusStatePath height))

/-- A chaincode at sequence 1 whose client has the given consensus states. -/
def withConsensusStates (states : List (Height × Int64)) : Stub :=
  ⟨states.foldl (fun ws (s : Height × Int64) =>
      ws.insert (consensusStateKey s.1) (Wire.varintField 0x08 s.2.toUInt64.toNat))
      (Run.run chaincode.commit ∅ [callAt 100 (.initChaincode [])]), [], .ok 100, 100, .ok []⟩

/-- The keeper finds the consensus state of a height under its key. -/
theorem getClientConsensusState_of_stored {store : KVStore} {height : Height} {t : Int64}
    (h : store (clientPath clientID ++ host.consensusStatePath height) =
      some (Wire.varintField 0x08 t.toUInt64.toNat)) :
    keeper.getClientConsensusState store clientID height = .ok (some (.fabric ⟨t⟩)) := by
  have hread : codec.consensusState.unmarshal (Wire.varintField 0x08 t.toUInt64.toNat) =
      .ok (.fabric ⟨t⟩) := unmarshal_marshal_consensusState _ _ rfl
  show read (mustUnmarshal codec.consensusState)
    (store (clientPath clientID ++ host.consensusStatePath height)) = _
  rw [h]
  show (mustUnmarshal codec.consensusState (Wire.varintField 0x08 t.toUInt64.toNat) >>= fun a => _) = _
  have hmust : mustUnmarshal codec.consensusState (Wire.varintField 0x08 t.toUInt64.toNat) =
      .ok (.fabric ⟨t⟩) := by
    rw [mustUnmarshal, hread]
  rw [hmust]
  rfl

end Sample

open Symbolic Sample in
/-- A consensus state of revision 0. -/
theorem consensus_state_proof_iff_revision_zero :
    prover.Proves (withConsensusStates [(⟨0, 5⟩, 200)]) (withConsensusStates [(⟨0, 5⟩, 200)]) ⟨0, 5⟩
      (.fabric ⟨200⟩) (Wire.varintField 0x08 200) := by
  have hstored : ibcStore (withConsensusStates [(⟨0, 5⟩, 200)]).state
      (clientPath clientID ++ host.consensusStatePath ⟨0, 5⟩) =
      some (Wire.varintField 0x08 (200 : Int64).toUInt64.toNat) := by decide +kernel
  have hseq : prover.chaincode.sequenceMgr.getCurrentSequence (withConsensusStates [(⟨0, 5⟩, 200)]) =
      .ok ⟨1, 100⟩ := by decide +kernel
  exact (consensus_state_proof_iff ⟨[], [], rfl, rfl⟩ hseq (getClientConsensusState_of_stored hstored)
    rfl).mpr rfl

open Symbolic Sample in
/-- A client has consensus states at `(0, 5)` and `(1, 5)`. The query for
`(1, 5)` returns the one at `(0, 5)`, in an entry of that height; if `(1, 5)` is
the only one, the query fails. The chain stands still meanwhile. -/
theorem proof_of_other_height :
    keeper.getClientConsensusState (ibcStore (withConsensusStates
      [(⟨0, 5⟩, 200), (⟨1, 5⟩, 300)]).state) clientID ⟨1, 5⟩ = .ok (some (.fabric ⟨300⟩)) ∧
    (∃ res, prover.queryClientConsensusStateWithProof
        (withConsensusStates [(⟨0, 5⟩, 200), (⟨1, 5⟩, 300)])
        (withConsensusStates [(⟨0, 5⟩, 200), (⟨1, 5⟩, 300)]) ⟨1, 5⟩ = .ok res ∧
      res.value = .fabric ⟨200⟩) ∧
    (∃ writes, chaincode.invoke (prover.consensusStateStub (withConsensusStates
        [(⟨0, 5⟩, 200), (⟨1, 5⟩, 300)]) ⟨1, 5⟩) (prover.consensusStateCall ⟨1, 5⟩) =
      .ok (.entry ⟨makeConsensusStateCommitmentEntryKey host.storeKey clientID ⟨0, 5⟩,
        Wire.varintField 0x08 200⟩, writes)) ∧
    makeConsensusStateCommitmentEntryKey host.storeKey clientID ⟨0, 5⟩ ≠
      makeConsensusStateCommitmentEntryKey host.storeKey clientID ⟨1, 5⟩ ∧
    (prover.queryClientConsensusStateWithProof (withConsensusStates [(⟨1, 5⟩, 300)])
      (withConsensusStates [(⟨1, 5⟩, 300)]) ⟨1, 5⟩).isOk = false := by
  have hstored : ibcStore (withConsensusStates [(⟨0, 5⟩, 200), (⟨1, 5⟩, 300)]).state
      (clientPath clientID ++ host.consensusStatePath ⟨1, 5⟩) =
      some (Wire.varintField 0x08 (300 : Int64).toUInt64.toNat) := by decide +kernel
  have hother : ibcStore (withConsensusStates [(⟨0, 5⟩, 200), (⟨1, 5⟩, 300)]).state
      (clientPath clientID ++ host.consensusStatePath ⟨0, 5⟩) =
      some (Wire.varintField 0x08 (200 : Int64).toUInt64.toNat) := by decide +kernel
  have hseq : prover.chaincode.sequenceMgr.getCurrentSequence
      (withConsensusStates [(⟨0, 5⟩, 200), (⟨1, 5⟩, 300)]) = .ok ⟨1, 100⟩ := by decide +kernel
  obtain ⟨writes, hinvoke⟩ : ∃ writes, chaincode.invoke (prover.consensusStateStub
      (withConsensusStates [(⟨0, 5⟩, 200), (⟨1, 5⟩, 300)]) ⟨1, 5⟩) (prover.consensusStateCall ⟨1, 5⟩) =
        .ok (.entry ⟨makeConsensusStateCommitmentEntryKey host.storeKey clientID ⟨0, 5⟩,
          Wire.varintField 0x08 200⟩, writes) :=
    endorseConsensusStateCommitment_eq_ok ⟨[], [], rfl, rfl⟩
      (getClientConsensusState_of_stored hother) rfl
  obtain ⟨proof, hquery⟩ := query_of_entry hinvoke
    (unmarshal_marshal_consensusState (.fabric ⟨200⟩) _ rfl) hseq
  exact ⟨getClientConsensusState_of_stored hstored, ⟨_, hquery, rfl⟩, ⟨writes, hinvoke⟩,
    by decide +kernel, by decide +kernel⟩

end FabricIBC
