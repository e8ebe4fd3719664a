import FabricIBC.LightClient.History
import FabricIBC.LightClient.Messages
import FabricIBC.LightClient.Symbolic

/-!
# Fabric-IBC — light client: the client as it is stored

Between two transactions the counterparty keeps the client state as bytes, and a
header arrives as bytes. So every update unmarshals both, runs
`CheckHeaderAndUpdateState`, and marshals the new state (`updateStored`).

The wire does not keep an MSP config that is there but empty: it is nil when the
client state is loaded again.

* `stored_run_agrees` — as long as no header brings such a config or policy, the
  stored client goes through the same states as the client in memory, so that what
  holds of its runs holds of the stored client;
* `empty_config_disables` — a header that does is accepted, stored, and was the last
  one the client ever accepted.
-/

namespace FabricIBC

open Go
open Wire (Part intLimit)

/-! ## The stored client -/

/-- What the counterparty stores: the client state in bytes, and the consensus states. -/
structure StoredClient where
  state : Bytes
  store : ClientStore

def Client.stored (client : Client) : StoredClient := ⟨client.state.wire.bytes, client.store⟩

/-- `UpdateClient` of the client keeper from bytes to bytes. -/
def updateStored (F : Fabric) (C : Codec) (client : StoredClient) (header : Bytes) :
    Result StoredClient := do
  let header ← (Header.reader.unmarshal .zero header).mapErr .wire
  let state ← (ClientState.reader.unmarshal .zero client.state).mapErr .wire
  let updated ← updateClient F C ⟨state, client.store⟩ header
  let bz ← updated.state.wire.marshal.mapErr .wire
  .ok ⟨bz, updated.store⟩

/-- The stored client after a header was submitted, accepted or not. -/
def submitStored (F : Fabric) (C : Codec) (client : StoredClient) (header : Bytes) : StoredClient :=
  match updateStored F C client header with
  | .ok client' => client'
  | .err _ => client
  | .panic _ => client

section

variable {F : Fabric} {C : Codec}

theorem ClientState.unmarshal_bytes {cs : ClientState} (hfull : cs.Full) (hsize : cs.wire.size < intLimit) :
    ClientState.reader.unmarshal .zero cs.wire.bytes = .ok cs := by
  have hread := Wire.unmarshal_of_reads (cs.reads (cs.wire.size_eq ▸ hsize))
  rwa [ClientState.onWire_eq_self_iff.mpr hfull] at hread

/-! ## Full headers -/

/-- An updater puts nothing empty into the slice that the header did not have. -/
theorem updateMSPInfo_full {cs cs' : ClientState} {mh : MSPHeader} (hmh : mh.Full)
    (h : updateMSPInfo cs mh = .ok cs') (hcs : cs.Full) : cs'.Full := by
  -- a record that is changed in place
  have hmodify : ∀ f : MSPInfo → MSPInfo, (∀ info, info.Full → (f info).Full) →
      modifyMSPInfo f cs mh.mspID = .ok cs' → cs'.Full := by
    intro f hf h
    obtain ⟨idx, -, rfl⟩ := modifyMSPInfo_eq_ok_iff.mp h
    intro info hinfo
    rcases Keyed.mem_modify hinfo with hold | ⟨old, hold, rfl⟩
    · exact hcs info hold
    · exact hf old (hcs old hold)
  unfold updateMSPInfo at h
  split at h
  · -- a record that is new
    rw [createMSPInfo, Outcome.ok.injEq, insertMSPInfo_false] at h
    subst h
    intro info hinfo
    rcases Keyed.mem_insert.mp hinfo with rfl | hold
    · exact hmh
    · exact hcs info hold
  · refine hmodify (fun info => { info with policy := mh.policy }) (fun info hinfo => ?_) h
    exact ⟨hinfo.1, hmh.2⟩
  · refine hmodify (fun info => { info with config := mh.config }) (fun info hinfo => ?_) h
    exact ⟨hmh.1, hinfo.2⟩
  · exact hmodify (fun info => { info with freezed := true }) (fun info hinfo => hinfo) h
  · cases h

theorem Header.Full.batch {h : Header} (hfull : h.Full) : ∀ mh ∈ h.batch, mh.Full := by
  unfold Header.batch
  cases hmhs : h.mspHeaders with
  | none => simp
  | some mhs => exact hfull mhs hmhs

/-- The client state stays full under full headers. -/
theorem update_full {cs cs' : ClientState} {h : Header} {cons : Option ConsensusState}
    (hh : h.Full) (hupd : update cs h = .ok (cs', cons)) (hcs : cs.Full) : cs'.Full := by
  unfold update at hupd
  split at hupd
  · cases hupd
  · cases hupd
  · simp only [Outcome.bind_eq_ok_iff, updateMSPInfosIfPresent_eq, Outcome.ok.injEq,
      Prod.mk.injEq] at hupd
    obtain ⟨cs₁, hfold, rfl, -⟩ := hupd
    exact foldMSPHeaders_invariant (P := ClientState.Full)
      (fun mh hmh _ _ hstep hfull => updateMSPInfo_full (hh.batch mh hmh) hstep hfull) hfold hcs

/-- A header that goes through the keeper was accepted, and carries a sequence. -/
theorem accepted_of_updateClient {client client' : Client} {h : Header}
    (hupd : updateClient F C client h = .ok client') :
    ∃ cons, checkHeaderAndUpdateState F client.state (.fabric h) = .ok (client'.state, cons) ∧
      h.chaincodeHeader.isSome := by
  simp only [updateClient, Outcome.bind_eq_ok_iff] at hupd
  obtain ⟨⟨state, cons⟩, hcheck, height, hheight, hupd⟩ := hupd
  have hsome : h.chaincodeHeader.isSome := by
    unfold Header.getHeight at hheight
    split at hheight
    · cases hheight
    · rename_i ch hch
      rw [hch]
      rfl
  refine ⟨cons, ?_, hsome⟩
  split at hupd
  · cases hupd
  · split at hupd
    · cases hupd
    · cases hupd
      exact hcheck

theorem submitUpdate_full {client : Client} {h : Header} (hh : h.Full) (hcs : client.state.Full) :
    (submitUpdate F C client h).state.Full := by
  unfold submitUpdate
  split
  · rename_i client' hupd
    obtain ⟨cons, hcheck, -⟩ := accepted_of_updateClient hupd
    exact update_full hh (accepted_iff.mp hcheck).2 hcs
  · exact hcs
  · exact hcs

/-! ## The stored client follows the client in memory -/

/-- One header, for a client state that survives the wire. -/
theorem submitStored_eq {client : Client} {bz : Bytes} {h : Header} (hfull : client.state.Full)
    (hsize : client.state.wire.size < intLimit) (hheader : Header.reader.unmarshal .zero bz = .ok h) :
    submitStored F C client.stored bz = (submitUpdate F C client h).stored := by
  have hload := ClientState.unmarshal_bytes hfull hsize
  have hupdate : updateStored F C client.stored bz =
      updateClient F C client h >>= fun client' => .ok client'.stored := by
    unfold updateStored Client.stored
    simp only [hheader, hload, Outcome.mapErr, Outcome.ok_bind, (Part.marshal_eq _).2]
  unfold submitStored submitUpdate
  rw [hupdate]
  cases updateClient F C client h <;> rfl

/-- **The stored client runs like the client in memory**, as long as the headers that
arrive bring no config or policy that is there but empty: after every run it holds
the bytes of the other one's state, and reads them back. -/
theorem stored_run_agrees (client : Client) (headers : List (Bytes × Header))
    (hfull : client.state.Full)
    (hheaders : ∀ p ∈ headers, Header.reader.unmarshal .zero p.1 = .ok p.2 ∧ p.2.Full)
    (hsize : ∀ done, done <+: headers.map Prod.snd →
      (runClient F C client done).state.wire.size < intLimit) :
    Run.run (submitStored F C) client.stored (headers.map Prod.fst) =
        (runClient F C client (headers.map Prod.snd)).stored ∧
      ClientState.reader.unmarshal .zero (Run.run (submitStored F C) client.stored (headers.map Prod.fst)).state =
        .ok (runClient F C client (headers.map Prod.snd)).state := by
  induction headers generalizing client with
  | nil => exact ⟨rfl, ClientState.unmarshal_bytes hfull (hsize [] List.nil_prefix)⟩
  | cons p headers ih =>
    obtain ⟨⟨hread, hp⟩, hheaders⟩ := List.forall_mem_cons.mp hheaders
    have hstep := submitStored_eq (F := F) (C := C) hfull (hsize [] List.nil_prefix) hread
    rw [List.map_cons, List.map_cons, Run.run_cons, runClient_cons, hstep]
    refine ih _ (submitUpdate_full hp hfull) hheaders fun done hdone => ?_
    exact hsize (p.2 :: done) (List.cons_prefix_cons.mpr ⟨rfl, hdone⟩)

/-! ## A config that is there but empty -/

/-- An MSP in force has no config. -/
def ClientState.Disabled (cs : ClientState) : Prop :=
  ∃ info ∈ cs.lastMspInfos.infos, info.freezed = false ∧ info.config = none

theorem ClientState.Disabled.no_configs {cs : ClientState} (h : cs.Disabled) (configs : List F.MSPConfig) :
    cs.lastMspInfos.getMSPPBConfigs F ≠ .ok configs := by
  obtain ⟨info, hinfo, hforce, hnone⟩ := h
  intro hconfigs
  have hall := exists_forall₂_iff.mp ⟨configs, getMSPPBConfigs_eq_ok_iff.mp hconfigs⟩
  obtain ⟨c, bz, hbz, -⟩ := hall info (List.mem_filter.mpr ⟨hinfo, by simp [hforce]⟩)
  rw [hnone] at hbz
  cases hbz

/-- No sequence can be verified any more, so the keeper stores nothing any more. -/
theorem ClientState.Disabled.updateClient_ne_ok {cs : ClientState} (hdis : cs.Disabled)
    (store : ClientStore) (h : Header) (client' : Client) :
    updateClient F C ⟨cs, store⟩ h ≠ .ok client' := by
  intro hupd
  obtain ⟨cons, hcheck, hsome⟩ := accepted_of_updateClient hupd
  obtain ⟨ch, hch⟩ := Option.isSome_iff_exists.mp hsome
  obtain ⟨hacc, -⟩ := accepted_iff.mp hcheck
  obtain ⟨-, -, w, ⟨configs, hconfigs, -⟩, -⟩ := hacc.chaincodeHeader ch hch
  exact hdis.no_configs configs hconfigs

theorem ClientState.Disabled.submitStored_eq_self {client : StoredClient} {cs : ClientState}
    (hload : ClientState.reader.unmarshal .zero client.state = .ok cs) (hdis : cs.Disabled) (bz : Bytes) :
    submitStored F C client bz = client := by
  unfold submitStored
  split
  · rename_i client' hupd
    simp only [updateStored, Outcome.bind_eq_ok_iff, Outcome.mapErr_eq_ok_iff, hload,
      Outcome.ok.injEq] at hupd
    obtain ⟨h, -, _, rfl, updated, hupd, -⟩ := hupd
    exact absurd hupd (hdis.updateClient_ne_ok client.store h updated)
  · rfl
  · rfl

/-- The record of an MSP whose config the header sets to the empty byte string. -/
theorem exists_empty_config {cs cs' : ClientState} {h : Header} {cons : Option ConsensusState}
    (hok : checkHeaderAndUpdateState F cs (.fabric h) = .ok (cs', cons)) {mh : MSPHeader}
    (hmem : mh ∈ h.batch) (htype : mh.type = .create ∨ mh.type = .updateConfig)
    (hempty : mh.config = some []) :
    ∃ info ∈ cs'.lastMspInfos.infos, info.freezed = false ∧ info.config = some [] := by
  obtain ⟨hacc, hupd, -⟩ := accepted_spec hok
  have hrecord : cs'.registry mh.mspID = mh.effect (cs.registry mh.mspID) := by
    rw [hupd.registry, Registry.batch_of_mem hacc.batch_distinct hmem]
  have henabled := hacc.enabled mh hmem
  rcases htype with htype | htype
  · rw [MSPHeader.effect, htype] at hrecord
    exact ⟨_, Keyed.mem_of_entry hrecord, rfl, hempty⟩
  · -- the record was in force before
    rw [MSPHeader.Enabled, htype] at henabled
    obtain ⟨old, hold, hforce⟩ := henabled
    rw [MSPHeader.effect, htype, hold] at hrecord
    exact ⟨_, Keyed.mem_of_entry hrecord, hforce, hempty⟩

/-- **A config that is there but empty disables the stored client for good.** A header
with such a `Create` or `UpdateConfig` part may be accepted. The client that is
stored then has an MSP without a config: whatever is submitted later, it stays as it
is, and it verifies no proof. -/
theorem empty_config_disables {client : StoredClient} {cs : ClientState} {bz : Bytes} {h : Header}
    {updated : Client} {mh : MSPHeader} (hload : ClientState.reader.unmarshal .zero client.state = .ok cs)
    (hheader : Header.reader.unmarshal .zero bz = .ok h)
    (hupd : updateClient F C ⟨cs, client.store⟩ h = .ok updated)
    (hsize : updated.state.wire.size < intLimit) (hmem : mh ∈ h.batch)
    (htype : mh.type = .create ∨ mh.type = .updateConfig) (hempty : mh.config = some []) :
    ∃ cs', ClientState.reader.unmarshal .zero (submitStored F C client bz).state = .ok cs' ∧
      (∀ later, Run.run (submitStored F C) (submitStored F C client bz) later =
        submitStored F C client bz) ∧
      ∀ args key value, verifyMembership F C cs' args key value ≠ .ok () := by
  obtain ⟨cons, hok, -⟩ := accepted_of_updateClient hupd
  obtain ⟨info, hinfo, hforce, hconfig⟩ := exists_empty_config hok hmem htype hempty
  -- what is stored, and what is loaded of it
  have hstored : submitStored F C client bz = updated.stored := by
    unfold submitStored updateStored
    simp only [hload, hheader, hupd, Outcome.mapErr, Outcome.ok_bind, (Part.marshal_eq _).2]
    rfl
  have hreload : ClientState.reader.unmarshal .zero (submitStored F C client bz).state =
      .ok updated.state.onWire := by
    rw [hstored]
    exact Wire.unmarshal_of_reads (updated.state.reads (updated.state.wire.size_eq ▸ hsize))
  have hdis : updated.state.onWire.Disabled := by
    refine ⟨info.onWire, List.mem_map_of_mem hinfo, hforce, ?_⟩
    show wireBytes info.config = none
    rw [hconfig]
    rfl
  refine ⟨_, hreload, ?_, ?_⟩
  · intro later
    exact Run.run_invariant (P := fun c => c = submitStored F C client bz)
      (fun c bz' hc => by rw [hc]; exact hdis.submitStored_eq_self hreload bz') rfl later
  · intro args key value hverify
    obtain ⟨proof, cons', v, w, -, -, ⟨configs, hconfigs, -⟩, -⟩ := verifyMembership_eq_ok_iff.mp hverify
    exact hdis.no_configs configs hconfigs

end

namespace Symbolic

/-- The next sequence together with a new organisation. -/
def joinHeader : Header :=
  ⟨some (sequenceHeader ⟨2, 105⟩), none, some ⟨[signMSPHeader org1 (createHeader org3)]⟩⟩

/-- The same, but the organisation has an empty config. -/
def emptyConfigHeader : Header :=
  ⟨some (sequenceHeader ⟨2, 105⟩), none,
    some ⟨[signMSPHeader org1 { createHeader org3 with config := some [] }]⟩⟩

/-- Its bytes, in which the config is a field of length zero. -/
def emptyConfigBytes : Bytes :=
  Wire.messageField 0x0a (sequenceHeader ⟨2, 105⟩).wire.bytes ++
  Wire.messageField 0x1a (Wire.messageField 0x0a
    (Wire.bytesField 0x12 org3 ++ Wire.messageField 0x1a [] ++
      Wire.bytesField 0x22 (encodePolicy org3) ++
      Wire.messageField 0x2a (signMessage org1
        { createHeader org3 with config := some [] }.getSignBytes).wire.bytes))

end Symbolic

open Symbolic in
/-- A new organisation joins the stored client. -/
theorem stored_run_agrees_join :
    (Run.run (submitStored fabric codec) createdClient.stored [joinHeader.wire.bytes]).state =
      (runClient fabric codec createdClient [joinHeader]).state.wire.bytes := by
  have hread : Header.reader.unmarshal .zero joinHeader.wire.bytes = .ok joinHeader := by decide +kernel
  have hfull : joinHeader.Full := by decide +kernel
  have hrun := stored_run_agrees (F := fabric) (C := codec) createdClient
    [(joinHeader.wire.bytes, joinHeader)] (by decide +kernel)
    (by
      intro p hp
      obtain rfl := List.mem_singleton.mp hp
      exact ⟨hread, hfull⟩)
    (by
      intro done hdone
      rcases List.prefix_cons_iff.mp hdone with rfl | ⟨rest, rfl, hrest⟩
      · show client.wire.size < intLimit
        decide +kernel
      · obtain rfl := List.prefix_nil.mp hrest
        show (runClient fabric codec createdClient [joinHeader]).state.wire.size < intLimit
        decide +kernel)
  exact congrArg StoredClient.state hrun.1

open Symbolic in
/-- The client accepts the header with the empty config, and no header after it. -/
theorem empty_config_disables_client :
    ∃ cs', ClientState.reader.unmarshal .zero
        (submitStored fabric codec createdClient.stored emptyConfigBytes).state = .ok cs' ∧
      (∀ later, Run.run (submitStored fabric codec)
          (submitStored fabric codec createdClient.stored emptyConfigBytes) later =
        submitStored fabric codec createdClient.stored emptyConfigBytes) ∧
      ∀ args key value, verifyMembership fabric codec cs' args key value ≠ .ok () := by
  have hload : ClientState.reader.unmarshal .zero createdClient.stored.state = .ok client := by decide +kernel
  have hheader : Header.reader.unmarshal .zero emptyConfigBytes = .ok emptyConfigHeader := by decide +kernel
  -- the header is accepted, and the new state fits
  have haccepted : ∃ r, checkHeaderAndUpdateState fabric client (.fabric emptyConfigHeader) = .ok r ∧
      r.1.wire.size < intLimit := by
    have hok : (checkHeaderAndUpdateState fabric client (.fabric emptyConfigHeader) >>= fun r =>
        .ok (decide (r.1.wire.size < intLimit)) : Result Bool) = .ok true := by decide +kernel
    obtain ⟨r, hr, hsize⟩ := Outcome.bind_eq_ok_iff.mp hok
    exact ⟨r, hr, by simpa using hsize⟩
  obtain ⟨⟨cs', cons⟩, hok, hsize⟩ := haccepted
  have hch : emptyConfigHeader.chaincodeHeader = some (sequenceHeader ⟨2, 105⟩) := rfl
  have hok : checkHeaderAndUpdateState fabric createdClient.state (.fabric emptyConfigHeader) =
      .ok (cs', cons) := hok
  obtain ⟨bz, -, hupd⟩ := updateClient_eq_ok (C := codec) hch hok
  exact empty_config_disables hload hheader hupd hsize
    (List.mem_singleton.mpr rfl) (.inl rfl) rfl

end FabricIBC
