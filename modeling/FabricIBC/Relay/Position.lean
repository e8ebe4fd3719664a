import FabricIBC.Lib.Keyed
import FabricIBC.Relay.Prover
import FabricIBC.Chaincode.Sample

/-!
# Fabric-IBC — relay: where a proof points

A commitment proof names a write by two numbers: the position of a namespace
in the read-write set of the proposal, and the position of the write in it.
`makeCommitmentProof` fills in the constants 1 and 0.

Fabric sorts the namespaces by name. Besides the chaincode's own namespace an
invocation touches `_lifecycle`, which the peer reads. So the second namespace
is the chaincode's only if its name sorts behind the underscore.

Assumed of the application (`Application.Quiet`): setting it up writes nothing
through the database; the capability keeper loads its capabilities in memory.

* `writes_of_quiet` — a successful `Endorse*` call has put the returned entry, and
  nothing else;
* `lifecycle_before_iff` — of the names Fabric admits, those that begin with a
  lower-case letter sort behind `_lifecycle`;
* `proof_points_at_entry_iff` — these are the names for which the proof points at
  the entry.
-/

namespace FabricIBC

open Go

/-! ## Code outside the repository: names and read-write sets -/

def isLower (b : UInt8) : Bool := 0x61 ≤ b && b ≤ 0x7a

def isAlphanumeric (b : UInt8) : Bool :=
  (0x30 ≤ b && b ≤ 0x39) || (0x41 ≤ b && b ≤ 0x5a) || isLower b

/-- The rest of a name, whether or not a separator has just been read. -/
def admittedRest (separated : Bool) : Bytes → Bool
  | [] => !separated
  | b :: rest =>
    if isAlphanumeric b then admittedRest false rest
    else (b == 0x2d || b == 0x5f) && !separated && admittedRest true rest

/-- The names of chaincodes Fabric admits: `[a-zA-Z0-9]+([-_][a-zA-Z0-9]+)*`. -/
def admittedName (name : Bytes) : Bool := admittedRest true name

/-- The namespace of the lifecycle system chaincode. -/
def lifecycle : Bytes := str "_lifecycle"

/-- The writes of a namespace: the last one of every key, sorted by key. -/
def kvWrites (writes : List Write) : List KVWrite :=
  (writes.foldl (fun m w => m.insert w.key w.kv)
    (∅ : Std.ExtTreeMap Bytes KVWrite compare)).toList.map Prod.snd

/-- The read-write set of an invocation of the chaincode `name`: two
namespaces, sorted by name. -/
def nsRwSets (name : Bytes) (writes : List Write) : List NsRwSet :=
  Keyed.insert NsRwSet.nameSpace ⟨name, kvWrites writes⟩ [⟨lifecycle, []⟩]

/-- The responses of the peers that endorsed a proposal: there are some, and
all carry the payload with the read-write set of the invocation. -/
structure EndorsedResponse (F : Fabric) (name : Bytes) (writes : List Write)
    (response : ChannelResponse) : Prop where
  endorsed : response.responses ≠ []
  payload : ∀ r ∈ response.responses, ∃ id,
    getTxReadWriteSetFromProposalResponsePayload F r.payload = .ok (id, nsRwSets name writes)
  same : ∀ r ∈ response.responses, ∀ r' ∈ response.responses, r.payload = r'.payload

/-- Setting up the application writes nothing to the database. -/
def Application.Quiet (app : Application) : Prop :=
  ∀ stub block commands, app.provide stub block = .ok commands → commands = []

/-! ## What is endorsed -/

section Endorse

variable {C : Codec} {cc : IBCChaincode C} {stub : Stub}

theorem endorseEntry_of_quiet (hquiet : cc.app.Quiet) {make : KVStore → Result Entry} {e : Entry}
    {writes : List Write} (h : cc.endorseEntry stub make = .ok (e, writes)) :
    writes = [.put e.key e.value] := by
  simp only [IBCChaincode.endorseEntry, IBCChaincode.runFunc, Outcome.bind_eq_ok_iff,
    Outcome.ok.injEq, Prod.mk.injEq] at h
  obtain ⟨commands, hprovide, loaded, hflush, ⟨e', ws⟩, ⟨e'', -, rfl, rfl⟩, rfl, rfl⟩ := h
  obtain rfl := hquiet _ _ _ hprovide
  -- no commands, no writes before the entry
  rw [compat.flush, Outcome.collect, Outcome.ok.injEq] at hflush
  rw [← hflush, List.nil_append]

/-- A call that returns an entry is one of the nine, and has put just this entry. -/
theorem writes_of_quiet (hquiet : cc.app.Quiet) {call : Call} {e : Entry} {writes : List Write}
    (h : cc.invoke stub call = .ok (.entry e, writes)) : writes = [.put e.key e.value] := by
  cases call with
  | initChaincode _ | handleTx _ | updateSequence =>
    -- these do not return an entry
    rw [IBCChaincode.invoke, respond_eq_ok_iff] at h
    obtain ⟨_, -, hres⟩ := h
    cases hres
  | endorseSequenceCommitment =>
    rw [IBCChaincode.invoke, respond_eq_ok_iff] at h
    obtain ⟨e', h, hres⟩ := h
    obtain rfl := Response.entry.inj hres
    simp only [IBCChaincode.endorseSequenceCommitment, Outcome.bind_eq_ok_iff, Outcome.ok.injEq,
      Prod.mk.injEq] at h
    obtain ⟨seq, -, rfl, rfl⟩ := h
    rfl
  | _ =>
    rw [IBCChaincode.invoke, respond_eq_ok_iff] at h
    obtain ⟨e', h, hres⟩ := h
    obtain rfl := Response.entry.inj hres
    exact endorseEntry_of_quiet hquiet h

end Endorse

theorem kvWrites_singleton (key value : Bytes) :
    kvWrites [.put key value] = [⟨key, false, value⟩] := by
  let m : Std.ExtTreeMap Bytes KVWrite compare :=
    (∅ : Std.ExtTreeMap Bytes KVWrite compare).insert key ⟨key, false, value⟩
  -- one pair, and it is this one
  have hlength : m.toList.length = 1 := by
    rw [Std.ExtTreeMap.length_toList, Std.ExtTreeMap.size_insert]
    simp
  have hmem : (key, ⟨key, false, value⟩) ∈ m.toList := by
    rw [Std.ExtTreeMap.mem_toList_iff_getElem?_eq_some]
    exact Std.ExtTreeMap.getElem?_insert_self
  obtain ⟨kv, hkv⟩ := List.length_eq_one_iff.mp hlength
  rw [hkv, List.mem_singleton] at hmem
  show m.toList.map Prod.snd = _
  rw [hkv, ← hmem]
  rfl

/-! ## The order of the namespaces -/

theorem admittedName_cons {name : Bytes} (h : admittedName name = true) :
    ∃ b rest, name = b :: rest ∧ isAlphanumeric b = true := by
  cases name with
  | nil => exact nomatch h
  | cons b rest =>
    refine ⟨b, rest, rfl, ?_⟩
    by_contra hb
    simp [admittedName, admittedRest, hb] at h

/-- The underscore of `_lifecycle` stands between the upper-case and the
lower-case letters. -/
theorem lifecycle_before_iff {name : Bytes} (h : admittedName name = true) :
    compare name lifecycle = .lt ↔ ¬ (name.head?.any isLower = true) := by
  obtain ⟨b, rest, rfl, hb⟩ := admittedName_cons h
  have hlifecycle : lifecycle = 0x5f :: str "lifecycle" := rfl
  have hhead : (b :: rest).head?.any isLower = isLower b := rfl
  rw [hhead, hlifecycle]
  simp only [isAlphanumeric, isLower, Bool.or_eq_true, Bool.and_eq_true, decide_eq_true_eq,
    UInt8.le_iff_toNat_le] at hb ⊢
  constructor
  · intro hlt hlower
    have hgt : compare (0x5f :: str "lifecycle") (b :: rest) = .lt :=
      compare_cons_of_lt (by show 95 < _; have : 97 ≤ b.toNat := hlower.1; omega) _ _
    exact Std.OrientedCmp.not_lt_of_lt hgt hlt
  · intro hlower
    -- a digit or an upper-case letter
    refine compare_cons_of_lt ?_ _ _
    show b.toNat < 95
    rcases hb with (hdigit | hupper) | hb
    · have : b.toNat ≤ 57 := hdigit.2
      omega
    · have : b.toNat ≤ 90 := hupper.2
      omega
    · exact absurd hb hlower

/-! ## The position -/

theorem nsRwSets_eq (name : Bytes) (writes : List Write) :
    nsRwSets name writes =
      if compare name lifecycle = .lt then [⟨name, kvWrites writes⟩, ⟨lifecycle, []⟩]
      else [⟨lifecycle, []⟩, ⟨name, kvWrites writes⟩] := rfl

/-- **When the relayer's proof points at the endorsed entry**: for the names that
begin with a lower-case letter, and for no others that Fabric admits. -/
theorem proof_points_at_entry_iff (F : Fabric) {C : Codec} (cc : IBCChaincode C)
    (hquiet : cc.app.Quiet) (name : Bytes) (hname : admittedName name = true) (stub : Stub)
    (call : Call) (e : Entry) (writes : List Write)
    (hcall : cc.invoke stub call = .ok (.entry e, writes)) (response : ChannelResponse)
    (hresponse : EndorsedResponse F name writes response) :
    writes = [.put e.key e.value] ∧
    ∃ proof id sets, makeCommitmentProof response = .ok proof ∧
      proof.identities = response.responses.map ProposalResponse.endorser ∧
      proof.signatures = response.responses.map ProposalResponse.signature ∧
      getTxReadWriteSetFromProposalResponsePayload F proof.proposal = .ok (id, sets) ∧
      (ensureWriteSetIncludesCommitment sets proof.nsIndex proof.writeSetIndex e.key e.value =
        .ok true ↔ name.head?.any isLower = true) := by
  have hwrites := writes_of_quiet hquiet hcall
  refine ⟨hwrites, ?_⟩
  obtain ⟨res, hmem, hproof⟩ := makeCommitmentProof_eq_ok response hresponse.endorsed
  obtain ⟨id, hset⟩ := hresponse.payload res hmem
  refine ⟨_, id, nsRwSets name writes, hproof, rfl, rfl, hset, ?_⟩
  have hbefore := lifecycle_before_iff hname
  rw [nsRwSets_eq, hwrites, kvWrites_singleton]
  by_cases hlower : name.head?.any isLower = true
  · -- the second namespace is the chaincode's, and the entry its only write
    rw [if_neg (fun hlt => hbefore.mp hlt hlower)]
    simp [ensureWriteSetIncludesCommitment, hlower]
  · -- the second namespace is `_lifecycle`, which has no writes
    rw [if_pos (hbefore.mpr hlower)]
    simp [ensureWriteSetIncludesCommitment, hlower]

namespace Sample

open Symbolic

def absenceCall : Call := .endorsePacketReceiptAbsence port channel 1

def absenceStub : Stub := (callAt 1 absenceCall).stub ∅

/-- The endorsement of `absence` by one organisation, for a chaincode with the given name. -/
def absenceResponse (name : Bytes) : ChannelResponse :=
  let payload := encodePayload (some ⟨[], name, str "1"⟩) (nsRwSets name [absence])
  ⟨[], [⟨payload, org1, sign org1 (payload ++ org1)⟩]⟩

theorem invoke_absence :
    chaincode.invoke absenceStub absenceCall = .ok (.entry absenceEntry, [absence]) := by
  decide +kernel

theorem app_quiet : chaincode.app.Quiet := fun _ _ _ h => (Outcome.ok.inj h).symm

end Sample

theorem proof_points_at_entry_ibccc :
    ∃ proof id sets, makeCommitmentProof (Sample.absenceResponse (str "ibccc")) = .ok proof ∧
      getTxReadWriteSetFromProposalResponsePayload Symbolic.fabric proof.proposal = .ok (id, sets) ∧
      ensureWriteSetIncludesCommitment sets proof.nsIndex proof.writeSetIndex
        Sample.absenceEntry.key Sample.absenceEntry.value = .ok true := by
  have hresponse : EndorsedResponse Symbolic.fabric (str "ibccc") [Sample.absence]
      (Sample.absenceResponse (str "ibccc")) := by
    refine ⟨nofun, ?_, ?_⟩
    · intro r hr
      rw [List.mem_singleton.mp hr]
      exact ⟨some ⟨[], str "ibccc", str "1"⟩, by decide +kernel⟩
    · intro r hr r' hr'
      rw [List.mem_singleton.mp hr, List.mem_singleton.mp hr']
  obtain ⟨-, proof, id, sets, hproof, -, -, hset, hiff⟩ :=
    proof_points_at_entry_iff Symbolic.fabric Sample.chaincode Sample.app_quiet (str "ibccc")
      (by decide) Sample.absenceStub Sample.absenceCall Sample.absenceEntry [Sample.absence]
      Sample.invoke_absence (Sample.absenceResponse (str "ibccc")) hresponse
  exact ⟨proof, id, sets, hproof, hset, hiff.mpr (by decide)⟩

/-- The proof of a chaincode with an upper-case name points into `_lifecycle`. -/
theorem proof_misses_upper_case_name :
    admittedName (str "IBC") = true ∧
    Sample.chaincode.invoke Sample.absenceStub Sample.absenceCall =
      .ok (.entry Sample.absenceEntry, [Sample.absence]) ∧
    makeCommitmentProof (Sample.absenceResponse (str "IBC")) =
      .ok ⟨Symbolic.encodePayload (some ⟨[], str "IBC", str "1"⟩)
          (nsRwSets (str "IBC") [Sample.absence]), 1, 0, [Symbolic.org1],
        (Sample.absenceResponse (str "IBC")).responses.map ProposalResponse.signature⟩ ∧
    getTxReadWriteSetFromProposalResponsePayload Symbolic.fabric
        (Symbolic.encodePayload (some ⟨[], str "IBC", str "1"⟩)
          (nsRwSets (str "IBC") [Sample.absence])) =
      .ok (some ⟨[], str "IBC", str "1"⟩, nsRwSets (str "IBC") [Sample.absence]) ∧
    ensureWriteSetIncludesCommitment (nsRwSets (str "IBC") [Sample.absence]) 1 0
        Sample.absenceEntry.key Sample.absenceEntry.value =
      .err (.errorf "not found index '%v'(length=%v)" [.int 0, .int 0]) := by
  refine ⟨by decide, Sample.invoke_absence, ?_, ?_, ?_⟩ <;> decide +kernel

end FabricIBC
