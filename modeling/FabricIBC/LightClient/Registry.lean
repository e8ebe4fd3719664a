import FabricIBC.Lib.Keyed
import FabricIBC.LightClient.Transition

/-!
# Fabric-IBC — light client: the registry of MSPs

What `LastMspInfos` is for: a partial map from MSP ids to their records, the
*registry*. On it an MSP header has a plain meaning (`MSPHeader.effect`), and a
batch of headers with distinct ids acts on each id on its own
(`Registry.run_apply`), so the order of a batch does not matter.

The updaters of `update.go` work on a sorted slice with indices, assuming that
the index exists. `updateMSPInfo_refines` and `foldMSPHeaders_refines` connect
the two: from any slice whose registry admits the batch, the loop finishes
without a panic and changes the registry as the batch says.
-/

namespace FabricIBC

open Go

/-- The records of the MSPs by id. -/
def Registry := Bytes → Option MSPInfo

/-- The registry a slice of `MSPInfo`s stands for: the first record of an id
counts, as in `FindMSPInfo`. -/
def MSPInfos.registry (mi : MSPInfos) : Registry := Keyed.entry MSPInfo.mspID mi.infos

def ClientState.registry (cs : ClientState) : Registry := cs.lastMspInfos.registry

/-- All records of an id in the slice, of which the registry has the first. -/
def ClientState.recordsOf (cs : ClientState) (id : Bytes) : List MSPInfo :=
  Keyed.entries MSPInfo.mspID cs.lastMspInfos.infos id

/-- What a header does to the record of its id. -/
def MSPHeader.effect (mh : MSPHeader) (old : Option MSPInfo) : Option MSPInfo :=
  match mh.type with
  | .create => some (newMSPInfo mh.mspID mh.config mh.policy)
  | .updatePolicy => old.map fun info => { info with policy := mh.policy }
  | .updateConfig => old.map fun info => { info with config := mh.config }
  | .freeze => old.map fun info => { info with freezed := true }
  | .unrecognized _ _ => old

/-- When a header can be applied: a new id for `Create`, a record that is not
frozen for the others. -/
def MSPHeader.Enabled (mh : MSPHeader) (r : Registry) : Prop :=
  match mh.type with
  | .create => r mh.mspID = none
  | .updatePolicy | .updateConfig | .freeze => ∃ info, r mh.mspID = some info ∧ info.freezed = false
  | .unrecognized _ _ => False

namespace Registry

def step (r : Registry) (mh : MSPHeader) : Registry :=
  Function.update r mh.mspID (mh.effect (r mh.mspID))

def run (r : Registry) (batch : List MSPHeader) : Registry := batch.foldl step r

/-- The meaning of a batch, id by id. -/
def batch (headers : List MSPHeader) (id : Bytes) (old : Option MSPInfo) : Option MSPInfo :=
  match Keyed.entry MSPHeader.mspID headers id with
  | none => old
  | some mh => mh.effect old

end Registry

/-! ## Batches -/

theorem Registry.step_of_ne {r : Registry} {mh : MSPHeader} {id : Bytes} (h : id ≠ mh.mspID) :
    r.step mh id = r id := Function.update_of_ne h _ _

theorem Registry.step_self (r : Registry) (mh : MSPHeader) :
    r.step mh mh.mspID = mh.effect (r mh.mspID) := Function.update_self _ _ _

/-- With distinct ids, every header of a batch meets the record from before the batch. -/
theorem Registry.run_apply {headers : List MSPHeader}
    (hnd : (headers.map MSPHeader.mspID).Nodup) (r : Registry) (id : Bytes) :
    r.run headers id = Registry.batch headers id (r id) := by
  induction headers generalizing r with
  | nil => rfl
  | cons mh headers ih =>
    rw [List.map_cons, List.nodup_cons] at hnd
    have hrest : (r.step mh).run headers id = _ := ih hnd.2 (r.step mh)
    rw [Registry.run, List.foldl_cons, ← Registry.run, hrest]
    unfold Registry.batch
    rw [Keyed.entry_cons]
    by_cases hid : mh.mspID = id
    · subst hid
      -- no later header has this id
      have hnone : Keyed.entry MSPHeader.mspID headers mh.mspID = none := by
        refine Keyed.entry_eq_none_iff.mpr fun a ha heq => hnd.1 ?_
        exact heq ▸ List.mem_map_of_mem ha
      rw [hnone, if_pos rfl, Registry.step_self]
    · rw [if_neg hid, Registry.step_of_ne (Ne.symm hid)]

/-- The map of a batch with distinct ids does not depend on its order. -/
theorem Registry.batch_perm {headers headers' : List MSPHeader}
    (hnd : (headers.map MSPHeader.mspID).Nodup) (hperm : headers.Perm headers') (id : Bytes) :
    Registry.batch headers id = Registry.batch headers' id := by
  have hnd' : (headers'.map MSPHeader.mspID).Nodup := (hperm.map _).nodup_iff.mp hnd
  have hentry : Keyed.entry MSPHeader.mspID headers id = Keyed.entry MSPHeader.mspID headers' id := by
    refine Option.ext fun mh => ?_
    rw [Keyed.entry_eq_some_iff hnd, Keyed.entry_eq_some_iff hnd', hperm.mem_iff]
  funext old
  unfold Registry.batch
  rw [hentry]

/-! ## The slice operations -/

theorem indexOf_isSome_iff {mi : MSPInfos} {id : Bytes} :
    (mi.indexOf id).isSome ↔ (mi.registry id).isSome := Keyed.findIdx?_isSome_iff

theorem hasMSPID_eq_false_iff {mi : MSPInfos} {id : Bytes} :
    mi.hasMSPID id = false ↔ mi.registry id = none := by
  unfold MSPInfos.hasMSPID
  rw [← Option.not_isSome_iff_eq_none, ← indexOf_isSome_iff]
  simp

theorem findMSPInfo_eq (mi : MSPInfos) (id : Bytes) :
    mi.findMSPInfo id =
      match mi.registry id with
      | none => .err (.new "MSPInfo not found")
      | some info => .ok info := by
  have h : (mi.indexOf id).isSome ↔ (mi.registry id).isSome := indexOf_isSome_iff
  unfold MSPInfos.findMSPInfo
  cases hidx : mi.indexOf id with
  | none =>
    rw [hidx] at h
    have hnone : mi.registry id = none := by simpa using h
    rw [hnone]
  | some i =>
    have hentry : mi.infos[i]? = mi.registry id := Keyed.getElem?_findIdx? hidx
    rw [hidx] at h
    obtain ⟨info, hinfo⟩ := Option.isSome_iff_exists.mp (h.mp rfl)
    dsimp only
    rw [hentry, hinfo]

theorem insertMSPInfo_true (new : MSPInfo) (infos : List MSPInfo) :
    insertMSPInfo new true infos = infos := by
  induction infos with
  | nil => rfl
  | cons info infos ih => simp [insertMSPInfo, ih]

/-- The loop with the flag is an insertion in one pass. -/
theorem insertMSPInfo_false (new : MSPInfo) (infos : List MSPInfo) :
    insertMSPInfo new false infos = Keyed.insert MSPInfo.mspID new infos := by
  induction infos with
  | nil => rfl
  | cons info infos ih =>
    simp only [insertMSPInfo, Keyed.insert, insertMSPInfo_true, ih, compareMSPID, Bool.not_false,
      Bool.true_and, beq_iff_eq]

/-- A new slice for an old one: its registry is `r`, the records behind the first
one of an id are the old ones, and it is sorted (has distinct ids) if the old one was. -/
structure SliceFor (old : List MSPInfo) (r : Registry) (new : List MSPInfo) : Prop where
  registry : MSPInfos.registry ⟨new⟩ = r
  others : ∀ id, (Keyed.entries MSPInfo.mspID new id).tail =
    (Keyed.entries MSPInfo.mspID old id).tail
  ascending : Keyed.Ascending MSPInfo.mspID old → Keyed.Ascending MSPInfo.mspID new
  distinct : (old.map MSPInfo.mspID).Nodup → (new.map MSPInfo.mspID).Nodup

theorem createMSPInfo_refines {cs : ClientState} {mh : MSPHeader}
    (hnew : cs.registry mh.mspID = none) :
    ∃ infos, createMSPInfo cs mh = .ok (cs.withInfos infos) ∧
      SliceFor cs.lastMspInfos.infos
        (Function.update cs.registry mh.mspID (some (newMSPInfo mh.mspID mh.config mh.policy)))
        infos := by
  refine ⟨_, rfl, ?_⟩
  rw [insertMSPInfo_false]
  have hkey : (newMSPInfo mh.mspID mh.config mh.policy).mspID = mh.mspID := rfl
  have hrecords : Keyed.entries MSPInfo.mspID (Keyed.insert MSPInfo.mspID
      (newMSPInfo mh.mspID mh.config mh.policy) cs.lastMspInfos.infos) = _ :=
    Keyed.entries_insert hnew
  refine ⟨Keyed.entry_insert hnew, ?_, Keyed.ascending_insert hnew, ?_⟩
  · intro id
    rw [hrecords]
    by_cases hid : id = mh.mspID
    · subst hid
      rw [hkey, Function.update_self, Keyed.entries_eq_nil_iff.mpr hnew]
      rfl
    · rw [hkey, Function.update_of_ne hid]
  · -- the new id is not among the old ones
    intro hnd
    rw [(Keyed.keys_insert_perm _ _).nodup_iff, List.nodup_cons, hkey]
    refine ⟨fun hmem => ?_, hnd⟩
    obtain ⟨info, hinfo, hid⟩ := List.mem_map.mp hmem
    exact Keyed.entry_eq_none_iff.mp hnew info hinfo hid

theorem modifyMSPInfo_eq_ok_iff {f : MSPInfo → MSPInfo} {cs cs' : ClientState} {id : Bytes} :
    modifyMSPInfo f cs id = .ok cs' ↔
      ∃ idx, cs.lastMspInfos.indexOf id = some idx ∧
        cs.withInfos (cs.lastMspInfos.infos.modify idx f) = cs' := by
  unfold modifyMSPInfo
  cases hidx : cs.lastMspInfos.indexOf id <;> simp

theorem modifyMSPInfo_refines {f : MSPInfo → MSPInfo} (hf : ∀ info, (f info).mspID = info.mspID)
    {cs : ClientState} {id : Bytes} {info : MSPInfo} (hinfo : cs.registry id = some info) :
    ∃ infos, modifyMSPInfo f cs id = .ok (cs.withInfos infos) ∧
      SliceFor cs.lastMspInfos.infos (Function.update cs.registry id ((cs.registry id).map f))
        infos := by
  have hsome : (cs.lastMspInfos.indexOf id).isSome :=
    indexOf_isSome_iff.mpr (Option.isSome_of_eq_some hinfo)
  obtain ⟨idx, hidx⟩ := Option.isSome_iff_exists.mp hsome
  refine ⟨cs.lastMspInfos.infos.modify idx f, ?_, ?_⟩
  · exact modifyMSPInfo_eq_ok_iff.mpr ⟨idx, hidx, rfl⟩
  · refine ⟨Keyed.entry_modify hf hidx, fun id' => ?_, Keyed.ascending_modify hf idx, ?_⟩
    · rw [Keyed.entries_modify hf hidx]
      by_cases hid : id' = id
      · subst hid
        rw [Function.update_self, List.tail_modifyHead]
      · rw [Function.update_of_ne hid]
    · rw [Keyed.keys_modify hf]
      exact fun hnd => hnd

/-! ## Refinement -/

/-- One updater on the slice is one step of the registry. -/
theorem updateMSPInfo_refines {cs : ClientState} {mh : MSPHeader} (h : mh.Enabled cs.registry) :
    ∃ infos, updateMSPInfo cs mh = .ok (cs.withInfos infos) ∧
      SliceFor cs.lastMspInfos.infos (cs.registry.step mh) infos := by
  unfold MSPHeader.Enabled at h
  unfold updateMSPInfo Registry.step MSPHeader.effect
  cases htype : mh.type with
  | create =>
    rw [htype] at h
    exact createMSPInfo_refines h
  | updatePolicy =>
    rw [htype] at h
    obtain ⟨info, hinfo, -⟩ := h
    exact modifyMSPInfo_refines (f := fun info => { info with policy := mh.policy }) (fun _ => rfl) hinfo
  | updateConfig =>
    rw [htype] at h
    obtain ⟨info, hinfo, -⟩ := h
    exact modifyMSPInfo_refines (f := fun info => { info with config := mh.config }) (fun _ => rfl) hinfo
  | freeze =>
    rw [htype] at h
    obtain ⟨info, hinfo, -⟩ := h
    exact modifyMSPInfo_refines (f := fun info => { info with freezed := true }) (fun _ => rfl) hinfo
  | unrecognized code hcode => rw [htype] at h; exact h.elim

/-- What every updater of the loop keeps, the loop keeps. -/
theorem foldMSPHeaders_invariant {P : ClientState → Prop} {headers : List MSPHeader}
    {cs cs' : ClientState}
    (hstep : ∀ mh ∈ headers, ∀ c c', updateMSPInfo c mh = .ok c' → P c → P c')
    (hrun : foldMSPHeaders cs headers = .ok cs') (hcs : P cs) : P cs' := by
  induction headers generalizing cs with
  | nil =>
    rw [foldMSPHeaders, Outcome.ok.injEq] at hrun
    exact hrun ▸ hcs
  | cons mh headers ih =>
    rw [foldMSPHeaders, Outcome.bind_eq_ok_iff] at hrun
    obtain ⟨cs₁, hmh, hrun⟩ := hrun
    exact ih (fun m hm => hstep m (List.mem_cons_of_mem _ hm)) hrun
      (hstep mh List.mem_cons_self cs cs₁ hmh hcs)

theorem MSPHeader.Enabled.congr {mh : MSPHeader} {r r' : Registry} (h : mh.Enabled r)
    (heq : r' mh.mspID = r mh.mspID) : mh.Enabled r' := by
  unfold MSPHeader.Enabled at h ⊢
  rwa [heq]

/-- **The loop over a batch refines the registry.** Every header was admitted
by the registry from before the batch; since the ids are distinct, it is still
admitted when its turn comes. -/
theorem foldMSPHeaders_refines {headers : List MSPHeader}
    (hnd : (headers.map MSPHeader.mspID).Nodup) {cs : ClientState}
    (hen : ∀ mh ∈ headers, mh.Enabled cs.registry) :
    ∃ infos, foldMSPHeaders cs headers = .ok (cs.withInfos infos) ∧
      SliceFor cs.lastMspInfos.infos (cs.registry.run headers) infos := by
  induction headers generalizing cs with
  | nil => exact ⟨cs.lastMspInfos.infos, rfl, rfl, fun _ => rfl, id, id⟩
  | cons mh headers ih =>
    rw [List.map_cons, List.nodup_cons] at hnd
    -- the first updater is a step, after which the others are still admitted
    obtain ⟨infos, hstep, hslice⟩ := updateMSPInfo_refines (hen mh List.mem_cons_self)
    have hreg : (cs.withInfos infos).registry = cs.registry.step mh := hslice.registry
    have hen' : ∀ mh' ∈ headers, mh'.Enabled (cs.withInfos infos).registry := by
      intro mh' hmem
      refine (hen mh' (List.mem_cons_of_mem _ hmem)).congr ?_
      rw [hreg]
      refine Registry.step_of_ne fun heq => hnd.1 ?_
      exact heq ▸ List.mem_map_of_mem hmem
    obtain ⟨infos', hrun, hslice'⟩ := ih hnd.2 hen'
    refine ⟨infos', ?_, ?_⟩
    · rw [foldMSPHeaders, hstep, Outcome.ok_bind, hrun]
      rfl
    · rw [hreg] at hslice'
      exact ⟨hslice'.registry, fun id => (hslice'.others id).trans (hslice.others id),
        hslice'.ascending ∘ hslice.ascending, hslice'.distinct ∘ hslice.distinct⟩

end FabricIBC
