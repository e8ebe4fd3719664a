import FabricIBC.LightClient.History

/-!
# Fabric-IBC — light client: storing an accepted header

`CheckHeaderAndUpdateState` accepts headers that carry a chaincode info or MSP
headers only. The keeper around it stores the returned consensus state at
`header.GetHeight()`, and both come from the `ChaincodeHeader`: for a header
without one `GetHeight` dereferences a nil pointer, and the consensus state is
nil.

* `stored_iff` — an accepted header goes through end to end exactly when it
  carries a `ChaincodeHeader` and the store has room for its height;
* `History.hasRoom` — the store of every client the keeper created and updated
  has that room.
-/

namespace FabricIBC

open Go

/-- The header went through the keeper: it has a height, it brought a consensus
state, the client now has a consensus state at its new latest height, and
every consensus state it had before is still there. -/
structure Stored (F : Fabric) (C : Codec) (client : Client) (header : Header)
    (cs' : ClientState) (cons : Option ConsensusState) : Prop where
  height : ∃ height, header.getHeight = .ok height
  consensusState : ∃ c, cons = some c
  update : ∃ client', updateClient F C client header = .ok client' ∧ client'.state = cs' ∧
    (∃ c, getConsensusState C client'.store cs'.getLatestHeight = .ok c) ∧ Keeps client client'

/-- Nothing else than the new consensus state is stored at the height of the header. -/
def Client.HasRoom (C : Codec) (client : Client) (header : Header) : Prop :=
  ∀ ch bz, header.chaincodeHeader = some ch →
    client.store[host.consensusStatePath ⟨0, ch.sequence.value⟩]? = some bz →
    C.consensusState.marshal (.fabric ⟨ch.sequence.timestamp⟩) = .ok bz

section Storage

variable {F : Fabric} {C : Codec} {client : Client} {header : Header} {cs' : ClientState}
  {cons : Option ConsensusState}

/-- After an accepted header with a sequence, the latest height is that of the sequence. -/
theorem getLatestHeight_of_accepted {ch : ChaincodeHeader} (hch : header.chaincodeHeader = some ch)
    (hok : checkHeaderAndUpdateState F client.state (.fabric header) = .ok (cs', cons)) :
    cs'.getLatestHeight = ⟨0, ch.sequence.value⟩ := by
  obtain ⟨-, hupd, -⟩ := accepted_spec hok
  rw [ClientState.getLatestHeight, hupd.chaincodeHeader, hch]
  rfl

/-- What is stored stays exactly when the new entry does not replace another one. -/
theorem keeps_insert_iff {height : Height} {bz : Bytes} :
    Keeps client ⟨cs', client.store.insert (host.consensusStatePath height) bz⟩ ↔
      ∀ bz', client.store[host.consensusStatePath height]? = some bz' → bz' = bz := by
  constructor
  · intro hkeeps bz' hbz'
    have hread := hkeeps height bz' hbz'
    rw [getElem?_insert_consensusState, if_pos rfl, Option.some.injEq] at hread
    exact hread.symm
  · intro hsame height' bz' hbz'
    show (client.store.insert (host.consensusStatePath height) bz)[host.consensusStatePath height']?
      = some bz'
    rw [getElem?_insert_consensusState]
    by_cases heq : height' = height
    · subst heq
      rw [if_pos rfl, hsame bz' hbz']
    · rw [if_neg heq]
      exact hbz'

/-- **When an accepted header can be stored.** A header that
`CheckHeaderAndUpdateState` accepts goes through the keeper's update as it
should exactly when it carries a `ChaincodeHeader` and its height has room in
the store. -/
theorem stored_iff
    (hok : checkHeaderAndUpdateState F client.state (.fabric header) = .ok (cs', cons)) :
    Stored F C client header cs' cons ↔
      header.chaincodeHeader.isSome ∧ client.HasRoom C header := by
  constructor
  · intro hstored
    -- the height is only defined for a header with a sequence
    obtain ⟨height, hheight⟩ := hstored.height
    cases hch : header.chaincodeHeader with
    | none =>
      rw [Header.getHeight, hch] at hheight
      exact absurd hheight (by simp)
    | some ch =>
      refine ⟨rfl, ?_⟩
      obtain ⟨bz, hbz, hupdate⟩ := updateClient_eq_ok (C := C) hch hok
      obtain ⟨client', hclient', -, -, hkeeps⟩ := hstored.update
      rw [hupdate, Outcome.ok.injEq] at hclient'
      subst hclient'
      intro ch' bz' hch' hbz'
      rw [hch, Option.some.injEq] at hch'
      subst hch'
      rw [keeps_insert_iff.mp hkeeps bz' hbz']
      exact hbz
  · rintro ⟨hsome, hroom⟩
    obtain ⟨ch, hch⟩ := Option.isSome_iff_exists.mp hsome
    obtain ⟨bz, hbz, hupdate⟩ := updateClient_eq_ok (C := C) hch hok
    obtain ⟨-, -, hcons⟩ := accepted_spec hok
    refine ⟨⟨⟨0, ch.sequence.value⟩, by rw [Header.getHeight, hch]⟩,
      ⟨⟨ch.sequence.timestamp⟩, by rw [hcons, Header.consensusState, hch]; rfl⟩,
      ⟨_, hupdate, rfl, ⟨⟨ch.sequence.timestamp⟩, ?_⟩, ?_⟩⟩
    · refine getConsensusState_of_marshal ?_ hbz
      rw [getLatestHeight_of_accepted hch hok, getElem?_insert_consensusState, if_pos rfl]
    · refine keeps_insert_iff.mpr fun bz' hbz' => ?_
      have hmarshal := hroom ch bz' hch hbz'
      rw [hbz, Except.ok.injEq] at hmarshal
      exact hmarshal.symm

/-- The clients of the keeper: the next height is free. -/
theorem History.hasRoom {h₀ : UInt64} {ts : List Int64} (hist : History C h₀ ts client)
    (hbound : h₀.toNat + ts.length < 2 ^ 64)
    (hok : checkHeaderAndUpdateState F client.state (.fabric header) = .ok (cs', cons)) :
    client.HasRoom C header := by
  obtain ⟨hacc, -, -⟩ := accepted_spec hok
  intro ch bz hch hbz
  rw [hist.next_height (hacc.chaincodeHeader ch hch), hist.next_free hbound] at hbz
  exact absurd hbz (by simp)

end Storage

open Symbolic in
/-- The header of the next sequence on the created client. -/
theorem stored_iff_next_sequence :
    ∃ cs' cons, Stored fabric codec createdClient ⟨some (sequenceHeader ⟨2, 110⟩), none, none⟩
      cs' cons := by
  have haccept : (checkHeaderAndUpdateState fabric createdClient.state
      (.fabric ⟨some (sequenceHeader ⟨2, 110⟩), none, none⟩)).isOk = true := by decide +kernel
  obtain ⟨⟨cs', cons⟩, hok⟩ := Outcome.isOk_iff.mp haccept
  have hfree : createdClient.store[host.consensusStatePath ⟨0, 2⟩]? = none := by decide +kernel
  refine ⟨cs', cons, (stored_iff hok).mpr ⟨rfl, ?_⟩⟩
  intro ch bz hch hbz
  cases hch
  rw [show (sequenceHeader ⟨2, 110⟩).sequence.value = 2 from rfl, hfree] at hbz
  exact absurd hbz (by simp)

/-- A new chaincode info, signed as the policy wants it. -/
def Symbolic.infoHeader : Header := ⟨none, some (signInfo org1 info), none⟩

open Symbolic in
/-- A header with nothing but a chaincode info is accepted. It brings no
consensus state, it has no height, and the keeper panics. -/
theorem governance_update_panics :
    infoHeader.validateBasic = .ok () ∧
    checkHeaderAndUpdateState fabric createdClient.state (.fabric infoHeader) =
      .ok ({ client with lastChaincodeInfo := signInfo org1 info }, none) ∧
    infoHeader.getHeight = .panic .nilDereference ∧
    updateClient fabric codec createdClient infoHeader = .panic .nilDereference := by
  have hok : checkHeaderAndUpdateState fabric createdClient.state (.fabric infoHeader) =
      .ok ({ client with lastChaincodeInfo := signInfo org1 info }, none) := by decide +kernel
  refine ⟨by decide +kernel, hok, rfl, ?_⟩
  rw [updateClient, hok]
  rfl

end FabricIBC
