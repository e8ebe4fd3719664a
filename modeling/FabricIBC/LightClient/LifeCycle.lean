import FabricIBC.Lib.Run
import FabricIBC.LightClient.Acceptance
import FabricIBC.LightClient.Symbolic

/-!
# Fabric-IBC — light client: the life of an MSP record

The effect of one accepted batch (`update_batch_exact`) and what follows for
whole runs of headers (`msp_life_cycle`): records are created once, stay for
ever, and do not change any more once they are frozen.

A run submits headers one after the other; a header that is not accepted
leaves the client state as it was (`submit`).
-/

namespace FabricIBC

open Go

/-! ## One batch -/

/-- The headers of a batch in front of the one whose turn it is do not touch its id. -/
theorem fold_before {headers pre post : List MSPHeader} {mh : MSPHeader} {cs : ClientState}
    (hnd : (headers.map MSPHeader.mspID).Nodup) (hen : ∀ m ∈ headers, m.Enabled cs.registry)
    (hsplit : headers = pre ++ mh :: post) :
    ∃ cs', foldMSPHeaders cs pre = .ok cs' ∧ mh.Enabled cs'.registry := by
  subst hsplit
  rw [List.map_append, List.nodup_append, List.map_cons] at hnd
  obtain ⟨hpre, -, hdisj⟩ := hnd
  obtain ⟨infos, hfold, hslice⟩ := foldMSPHeaders_refines hpre
    (fun m hm => hen m (List.mem_append_left _ hm))
  refine ⟨_, hfold, (hen mh (by simp)).congr ?_⟩
  have hreg : (cs.withInfos infos).registry = cs.registry.run pre := hslice.registry
  rw [hreg, Registry.run_apply hpre]
  have hnone : Keyed.entry MSPHeader.mspID pre mh.mspID = none :=
    Keyed.entry_eq_none_iff.mpr fun a ha =>
      hdisj _ (List.mem_map_of_mem ha) _ List.mem_cons_self
  rw [Registry.batch, hnone]

/-- A record that exists has an index. -/
theorem indexOf_isSome_of_enabled {mh : MSPHeader} {cs : ClientState}
    (h : mh.Enabled cs.registry) (htype : mh.type ≠ .create) :
    (cs.lastMspInfos.indexOf mh.mspID).isSome := by
  unfold MSPHeader.Enabled at h
  have hsome : (cs.registry mh.mspID).isSome := by
    cases ht : mh.type with
    | create => exact absurd ht htype
    | updatePolicy | updateConfig | freeze =>
      rw [ht] at h
      obtain ⟨info, hinfo, -⟩ := h
      exact Option.isSome_of_eq_some hinfo
    | unrecognized code hcode => rw [ht] at h; exact h.elim
  exact indexOf_isSome_iff.mpr hsome

/-- The record of an id after a batch with one header for it. -/
theorem Registry.batch_of_mem {headers : List MSPHeader}
    (hnd : (headers.map MSPHeader.mspID).Nodup) {mh : MSPHeader} (hmem : mh ∈ headers)
    (old : Option MSPInfo) : Registry.batch headers mh.mspID old = mh.effect old := by
  have hentry : Keyed.entry MSPHeader.mspID headers mh.mspID = some mh :=
    (Keyed.entry_eq_some_iff hnd).mpr ⟨hmem, rfl⟩
  rw [Registry.batch, hentry]

theorem Registry.batch_of_not_mem {headers : List MSPHeader} {id : Bytes}
    (h : ∀ mh ∈ headers, mh.mspID ≠ id) (old : Option MSPInfo) :
    Registry.batch headers id old = old := by
  rw [Registry.batch, Keyed.entry_eq_none_iff.mpr h]

/-- A batch in any order: the registry and, for a sorted slice, the slice itself. -/
theorem updateMSPInfos_perm {headers headers' : List MSPHeader} {cs : ClientState}
    {infos : List MSPInfo} (hasc : Keyed.Ascending MSPInfo.mspID cs.lastMspInfos.infos)
    (hnd : (headers.map MSPHeader.mspID).Nodup) (hen : ∀ m ∈ headers, m.Enabled cs.registry)
    (hslice : SliceFor cs.lastMspInfos.infos
      (fun id => Registry.batch headers id (cs.registry id)) infos)
    (hperm : headers'.Perm headers) :
    updateMSPInfos cs ⟨headers'⟩ = .ok (cs.withInfos infos) := by
  have hnd' : (headers'.map MSPHeader.mspID).Nodup := (hperm.map _).nodup_iff.mpr hnd
  obtain ⟨infos', hfold, hslice'⟩ :=
    foldMSPHeaders_refines hnd' fun m hm => hen m (hperm.mem_iff.mp hm)
  have hreg : cs.registry.run headers' = fun id => Registry.batch headers id (cs.registry id) := by
    funext id
    rw [Registry.run_apply hnd', Registry.batch_perm hnd' hperm]
  -- two sorted slices with one registry are equal
  have heq : infos' = infos :=
    (hslice'.ascending hasc).ext (hslice.ascending hasc)
      (hslice'.registry.trans (hreg.trans hslice.registry.symm))
  rw [updateMSPInfos, hfold, heq]

/-- **The exact effect of a batch.** From a sorted slice, `update` after a
successful check finishes, the slice stays sorted, every record is what the one
header for its id says, and any other order of the batch gives the same slice.
The loop runs on a state `cs₁` that has the MSP infos of `cs`; no header meets a
missing index when its turn comes. -/
theorem update_batch_exact {F : Fabric} {cs : ClientState} {h : Header}
    (hasc : Keyed.Ascending MSPInfo.mspID cs.lastMspInfos.infos)
    (hcheck : checkValidity F cs h = .ok ()) :
    (∀ cs₁ pre mh post, cs₁.lastMspInfos = cs.lastMspInfos → h.batch = pre ++ mh :: post →
      ∃ csᵢ, foldMSPHeaders cs₁ pre = .ok csᵢ ∧
        (mh.type ≠ .create → (csᵢ.lastMspInfos.indexOf mh.mspID).isSome)) ∧
    ∃ cs' cons, update cs h = .ok (cs', cons) ∧
      Keyed.Ascending MSPInfo.mspID cs'.lastMspInfos.infos ∧
      (∀ mh ∈ h.batch, mh.type = .create →
        cs'.registry mh.mspID = some ⟨mh.mspID, mh.config, mh.policy, false⟩) ∧
      (∀ mh ∈ h.batch, mh.type = .updatePolicy →
        ∃ old, cs.registry mh.mspID = some old ∧
          cs'.registry mh.mspID = some { old with policy := mh.policy }) ∧
      (∀ mh ∈ h.batch, mh.type = .updateConfig →
        ∃ old, cs.registry mh.mspID = some old ∧
          cs'.registry mh.mspID = some { old with config := mh.config }) ∧
      (∀ mh ∈ h.batch, mh.type = .freeze →
        ∃ old, cs.registry mh.mspID = some old ∧
          cs'.registry mh.mspID = some { old with freezed := true }) ∧
      (∀ id, (∀ mh ∈ h.batch, mh.mspID ≠ id) → cs'.registry id = cs.registry id) ∧
      (∀ cs₁ headers, cs₁.lastMspInfos = cs.lastMspInfos → headers.Perm h.batch →
        updateMSPInfos cs₁ ⟨headers⟩ = .ok (cs₁.withInfos cs'.lastMspInfos.infos)) := by
  have hacc := checkValidity_eq_ok_iff.mp hcheck
  -- the registry depends on the MSP infos alone
  have hreg : ∀ cs₁ : ClientState, cs₁.lastMspInfos = cs.lastMspInfos → cs₁.registry = cs.registry :=
    fun cs₁ heq => by rw [ClientState.registry, heq, ClientState.registry]
  obtain ⟨cs', hupd, hspec⟩ := update_of_acceptable hacc
  have hrec : ∀ mh ∈ h.batch, cs'.registry mh.mspID = mh.effect (cs.registry mh.mspID) :=
    fun mh hmem => by rw [hspec.registry, Registry.batch_of_mem hacc.batch_distinct hmem]
  -- a header other than `Create` finds a record and changes it
  have hchange : ∀ mh ∈ h.batch, mh.type ≠ .create → ∀ f : MSPInfo → MSPInfo,
      (∀ old, mh.effect (some old) = some (f old)) →
      ∃ old, cs.registry mh.mspID = some old ∧ cs'.registry mh.mspID = some (f old) := by
    intro mh hmem htype f hf
    have hidx := indexOf_isSome_of_enabled (hacc.enabled mh hmem) htype
    obtain ⟨old, hold⟩ := Option.isSome_iff_exists.mp (indexOf_isSome_iff.mp hidx)
    have hold : cs.registry mh.mspID = some old := hold
    exact ⟨old, hold, by rw [hrec mh hmem, hold, hf]⟩
  refine ⟨?_, cs', _, hupd, hspec.slice.ascending hasc, ?_, ?_, ?_, ?_, ?_, ?_⟩
  · intro cs₁ pre mh post heq hsplit
    have hen₁ : ∀ m ∈ h.batch, m.Enabled cs₁.registry := hreg cs₁ heq ▸ hacc.enabled
    obtain ⟨csᵢ, hfold, hen⟩ := fold_before hacc.batch_distinct hen₁ hsplit
    exact ⟨csᵢ, hfold, indexOf_isSome_of_enabled hen⟩
  · intro mh hmem htype
    rw [hrec mh hmem, MSPHeader.effect, htype]
    rfl
  · intro mh hmem htype
    refine hchange mh hmem (by simp [htype]) (fun old => { old with policy := mh.policy }) ?_
    intro old
    rw [MSPHeader.effect, htype]
    rfl
  · intro mh hmem htype
    refine hchange mh hmem (by simp [htype]) (fun old => { old with config := mh.config }) ?_
    intro old
    rw [MSPHeader.effect, htype]
    rfl
  · intro mh hmem htype
    refine hchange mh hmem (by simp [htype]) (fun old => { old with freezed := true }) ?_
    intro old
    rw [MSPHeader.effect, htype]
    rfl
  · intro id hid
    rw [hspec.registry, Registry.batch_of_not_mem hid]
  · intro cs₁ headers heq hperm
    refine updateMSPInfos_perm (heq ▸ hasc) hacc.batch_distinct (hreg cs₁ heq ▸ hacc.enabled) ?_
      hperm
    rw [hreg cs₁ heq, heq]
    exact hspec.slice

open Symbolic in
/-- A batch that changes one record and inserts another. -/
theorem update_batch_exact_two_headers :
    ∃ cs' cons, update client ⟨none, none,
        some ⟨[signMSPHeader org1 (freezeHeader org2), signMSPHeader org1 (createHeader org3)]⟩⟩ =
          .ok (cs', cons) ∧
      Keyed.Ascending MSPInfo.mspID cs'.lastMspInfos.infos := by
  have hasc : Keyed.Ascending MSPInfo.mspID client.lastMspInfos.infos := by
    unfold Keyed.Ascending
    decide +kernel
  have hcheck : checkValidity fabric client ⟨none, none, some ⟨[signMSPHeader org1
      (freezeHeader org2), signMSPHeader org1 (createHeader org3)]⟩⟩ = .ok () := by decide +kernel
  obtain ⟨-, cs', cons, hupd, hasc', -⟩ := update_batch_exact hasc hcheck
  exact ⟨cs', cons, hupd, hasc'⟩

/-! ## Runs -/

/-- The client state after a header was submitted, accepted or not. -/
def submit (F : Fabric) (cs : ClientState) (header : HeaderI) : ClientState :=
  match checkHeaderAndUpdateState F cs header with
  | .ok (cs', _) => cs'
  | .err _ => cs
  | .panic _ => cs

/-- The client state after a run of headers. -/
def runHeaders (F : Fabric) (cs : ClientState) (headers : List HeaderI) : ClientState :=
  Run.run (submit F) cs headers

def Accepts (F : Fabric) (cs : ClientState) (header : HeaderI) : Prop :=
  ∃ r, checkHeaderAndUpdateState F cs header = .ok r

theorem submit_of_not_accepts {F : Fabric} {cs : ClientState} {header : HeaderI}
    (h : ¬ Accepts F cs header) : submit F cs header = cs := by
  unfold submit
  cases hres : checkHeaderAndUpdateState F cs header with
  | ok r => exact absurd ⟨r, hres⟩ h
  | err e => rfl
  | panic p => rfl

/-- What a submitted header can do to the client state. -/
theorem submit_cases (F : Fabric) (cs : ClientState) (header : HeaderI) :
    (¬ Accepts F cs header ∧ submit F cs header = cs) ∨
      ∃ h, header = .fabric h ∧ h.Acceptable F cs ∧ Updated cs h (submit F cs header) := by
  by_cases hacc : Accepts F cs header
  · right
    obtain ⟨⟨cs', cons⟩, hok⟩ := hacc
    obtain ⟨h, rfl⟩ := fabric_of_accepted hok
    obtain ⟨hacc, hupd, -⟩ := accepted_spec hok
    refine ⟨h, rfl, hacc, ?_⟩
    unfold submit
    rw [hok]
    exact hupd
  · exact Or.inl ⟨hacc, submit_of_not_accepts hacc⟩

theorem accepts_fabric_iff {F : Fabric} {cs : ClientState} {h : Header} :
    Accepts F cs (.fabric h) ↔ h.Acceptable F cs := by
  constructor
  · rintro ⟨⟨cs', cons⟩, hok⟩
    exact (accepted_iff.mp hok).1
  · intro hacc
    obtain ⟨cs', hupd, -⟩ := update_of_acceptable hacc
    exact ⟨_, accepted_iff.mpr ⟨hacc, hupd⟩⟩

theorem updated_of_accepts {F : Fabric} {cs : ClientState} {h : Header}
    (hacc : Accepts F cs (.fabric h)) : Updated cs h (submit F cs (.fabric h)) := by
  rcases submit_cases F cs (.fabric h) with ⟨hnot, -⟩ | ⟨h', heq, -, hupd⟩
  · exact absurd hacc hnot
  · cases heq
    exact hupd

/-! ## The life of a record -/

/-- Records stay, and frozen ones stay as they are. -/
def Matures (r r' : Registry) : Prop :=
  ∀ id info, r id = some info →
    ∃ info', r' id = some info' ∧ (info.freezed = true → info' = info)

theorem Matures.refl (r : Registry) : Matures r r := fun _ info h => ⟨info, h, fun _ => rfl⟩

theorem Matures.trans {r r' r'' : Registry} (h : Matures r r') (h' : Matures r' r'') :
    Matures r r'' := by
  intro id info hinfo
  obtain ⟨info', hinfo', hfr⟩ := h id info hinfo
  obtain ⟨info'', hinfo'', hfr'⟩ := h' id info' hinfo'
  refine ⟨info'', hinfo'', fun hfrozen => ?_⟩
  have heq := hfr hfrozen
  subst heq
  exact hfr' hfrozen

/-- A header that is applied does not meet a frozen record. -/
theorem MSPHeader.Enabled.not_frozen {mh : MSPHeader} {r : Registry} (h : mh.Enabled r)
    {info : MSPInfo} (hinfo : r mh.mspID = some info) : info.freezed = false := by
  unfold MSPHeader.Enabled at h
  cases htype : mh.type with
  | create => simp [htype, hinfo] at h
  | updatePolicy | updateConfig | freeze => simpa [htype, hinfo] using h
  | unrecognized code hcode => simp [htype] at h

/-- A header that is applied leaves a record behind. -/
theorem MSPHeader.Enabled.effect_isSome {mh : MSPHeader} {r : Registry} (h : mh.Enabled r) :
    (mh.effect (r mh.mspID)).isSome := by
  unfold MSPHeader.Enabled at h
  unfold MSPHeader.effect
  cases htype : mh.type with
  | create => rfl
  | updatePolicy | updateConfig | freeze =>
    rw [htype] at h
    obtain ⟨info, hinfo, -⟩ := h
    simp [hinfo]
  | unrecognized code hcode => rw [htype] at h; exact h.elim

theorem Updated.matures {F : Fabric} {cs cs' : ClientState} {h : Header}
    (hacc : h.Acceptable F cs) (hu : Updated cs h cs') : Matures cs.registry cs'.registry := by
  intro id info hinfo
  by_cases hmem : ∃ mh ∈ h.batch, mh.mspID = id
  · -- its header was admitted, so the record was not frozen
    obtain ⟨mh, hmem, rfl⟩ := hmem
    have hen := hacc.enabled mh hmem
    obtain ⟨info', hinfo'⟩ := Option.isSome_iff_exists.mp hen.effect_isSome
    refine ⟨info', ?_, ?_⟩
    · rw [hu.registry, Registry.batch_of_mem hacc.batch_distinct hmem, hinfo']
    · rw [hen.not_frozen hinfo]
      exact fun hfr => absurd hfr (by decide)
  · have hnot : ∀ mh ∈ h.batch, mh.mspID ≠ id := fun mh hm heq => hmem ⟨mh, hm, heq⟩
    exact ⟨info, by rw [hu.registry, Registry.batch_of_not_mem hnot, hinfo], fun _ => rfl⟩

theorem submit_matures (F : Fabric) (cs : ClientState) (header : HeaderI) :
    Matures cs.registry (submit F cs header).registry := by
  rcases submit_cases F cs header with ⟨-, heq⟩ | ⟨h, -, hacc, hupd⟩
  · rw [heq]
    exact Matures.refl _
  · exact hupd.matures hacc

theorem runHeaders_matures (F : Fabric) (cs : ClientState) (headers : List HeaderI) :
    Matures cs.registry (runHeaders F cs headers).registry :=
  Run.run_related (R := fun a b => Matures a.registry b.registry) (fun _ => Matures.refl _)
    Matures.trans (submit_matures F) cs headers

theorem runHeaders_distinct {F : Fabric} {cs : ClientState}
    (hdist : (cs.lastMspInfos.infos.map MSPInfo.mspID).Nodup) (headers : List HeaderI) :
    ((runHeaders F cs headers).lastMspInfos.infos.map MSPInfo.mspID).Nodup := by
  refine Run.run_invariant
    (P := fun s : ClientState => (s.lastMspInfos.infos.map MSPInfo.mspID).Nodup) ?_ hdist headers
  intro s header hs
  rcases submit_cases F s header with ⟨-, heq⟩ | ⟨h, -, -, hupd⟩
  · rwa [heq]
  · exact hupd.slice.distinct hs

/-- In a slice with distinct ids the records are the elements. -/
theorem registry_of_mem {cs : ClientState}
    (hdist : (cs.lastMspInfos.infos.map MSPInfo.mspID).Nodup) {info : MSPInfo}
    (hmem : info ∈ cs.lastMspInfos.infos) : cs.registry info.mspID = some info :=
  (Keyed.entry_eq_some_iff hdist).mpr ⟨hmem, rfl⟩

/-- From a frozen record on, every header for its id is rejected as a whole. -/
theorem rejected_of_frozen {F : Fabric} {cs : ClientState} {h : Header} {mh : MSPHeader}
    {info : MSPInfo} (hmem : mh ∈ h.batch) (hinfo : cs.registry mh.mspID = some info)
    (hfr : info.freezed = true) : ¬ Accepts F cs (.fabric h) := by
  intro hacc
  have hen := (accepts_fabric_iff.mp hacc).enabled mh hmem
  exact absurd (hen.not_frozen hinfo) (by simp [hfr])

/-- A `Create` is not accepted for an id that is present, frozen or not. -/
theorem registry_none_of_create {F : Fabric} {cs : ClientState} {h : Header} {mh : MSPHeader}
    (hacc : Accepts F cs (.fabric h)) (hmem : mh ∈ h.batch) (htype : mh.type = .create) :
    cs.registry mh.mspID = none := by
  have hen := (accepts_fabric_iff.mp hacc).enabled mh hmem
  unfold MSPHeader.Enabled at hen
  rwa [htype] at hen

/-- The record an accepted header leaves. -/
theorem registry_after_header {F : Fabric} {cs : ClientState} {h : Header} {mh : MSPHeader}
    (hacc : Accepts F cs (.fabric h)) (hmem : mh ∈ h.batch) :
    (submit F cs (.fabric h)).registry mh.mspID = mh.effect (cs.registry mh.mspID) := by
  rw [(updated_of_accepts hacc).registry,
    Registry.batch_of_mem (accepts_fabric_iff.mp hacc).batch_distinct hmem]

/-- The record an accepted header leaves is there in every later state, and
frozen if the header froze it. -/
theorem record_after_run {F : Fabric} {cs : ClientState} {h : Header} {mh : MSPHeader}
    (hacc : Accepts F cs (.fabric h)) (hmem : mh ∈ h.batch) (later : List HeaderI) :
    ∃ info, (runHeaders F (submit F cs (.fabric h)) later).registry mh.mspID = some info ∧
      (mh.type = .freeze → info.freezed = true) := by
  have hen := (accepts_fabric_iff.mp hacc).enabled mh hmem
  obtain ⟨info, hinfo⟩ := Option.isSome_iff_exists.mp hen.effect_isSome
  obtain ⟨info', hinfo', hkeep⟩ := runHeaders_matures F _ later mh.mspID info
    ((registry_after_header hacc hmem).trans hinfo)
  refine ⟨info', hinfo', fun htype => ?_⟩
  have hfrozen : info.freezed = true := by
    rw [MSPHeader.effect, htype, Option.map_eq_some_iff] at hinfo
    obtain ⟨_, -, rfl⟩ := hinfo
    rfl
  rw [hkeep hfrozen, hfrozen]

/-- **The life cycle of an MSP.** In every run from a state with distinct MSP
ids: the ids stay distinct, so an id has one record; no record is removed; a `Create`
is accepted at most once for an id, and never for one that is present; the frozen flag
never goes back and a `Freeze` is accepted at most once for an id; a frozen record
stays as it is, and every header with any part for its id is rejected and changes
nothing. Within one accepted header no id occurs twice. -/
theorem msp_life_cycle {F : Fabric} {cs₀ : ClientState}
    (hdist : (cs₀.lastMspInfos.infos.map MSPInfo.mspID).Nodup) (before after : List HeaderI) :
    ((runHeaders F cs₀ before).lastMspInfos.infos.map MSPInfo.mspID).Nodup ∧
    (∀ h, Accepts F (runHeaders F cs₀ before) (.fabric h) →
      (h.batch.map MSPHeader.mspID).Nodup) ∧
    (∀ info ∈ (runHeaders F cs₀ before).lastMspInfos.infos,
      ∃ info' ∈ (runHeaders F cs₀ (before ++ after)).lastMspInfos.infos,
        info'.mspID = info.mspID ∧ (info.freezed = true → info' = info)) ∧
    (∀ h, Accepts F (runHeaders F cs₀ before) (.fabric h) →
      ∀ mh ∈ h.batch, mh.type = .create →
        (∀ info ∈ (runHeaders F cs₀ before).lastMspInfos.infos, info.mspID ≠ mh.mspID) ∧
        ∀ h', Accepts F (runHeaders F cs₀ (before ++ .fabric h :: after)) (.fabric h') →
          ∀ mh' ∈ h'.batch, mh'.type = .create → mh'.mspID ≠ mh.mspID) ∧
    (∀ h, Accepts F (runHeaders F cs₀ before) (.fabric h) →
      ∀ mh ∈ h.batch, mh.type = .freeze →
        ∀ h', Accepts F (runHeaders F cs₀ (before ++ .fabric h :: after)) (.fabric h') →
          ∀ mh' ∈ h'.batch, mh'.type = .freeze → mh'.mspID ≠ mh.mspID) ∧
    (∀ info ∈ (runHeaders F cs₀ before).lastMspInfos.infos, info.freezed = true →
      info ∈ (runHeaders F cs₀ (before ++ after)).lastMspInfos.infos ∧
      ∀ h : Header, (∃ mh ∈ h.batch, mh.mspID = info.mspID) →
        ¬ Accepts F (runHeaders F cs₀ (before ++ after)) (.fabric h) ∧
        submit F (runHeaders F cs₀ (before ++ after)) (.fabric h) =
          runHeaders F cs₀ (before ++ after)) := by
  have happend : ∀ l, runHeaders F cs₀ (before ++ l) = runHeaders F (runHeaders F cs₀ before) l :=
    fun l => Run.run_append (submit F) cs₀ before l
  have hcons : ∀ h, runHeaders F cs₀ (before ++ .fabric h :: after) =
      runHeaders F (submit F (runHeaders F cs₀ before) (.fabric h)) after :=
    fun h => (happend _).trans (Run.run_cons (submit F) _ _ _)
  -- distinct ids make the slice and the registry interchangeable
  have hs := runHeaders_distinct (F := F) hdist before
  have hmature := runHeaders_matures F (runHeaders F cs₀ before) after
  rw [← happend] at hmature
  refine ⟨hs, fun h hacc => (accepts_fabric_iff.mp hacc).batch_distinct, ?_, ?_, ?_, ?_⟩
  · intro info hmem
    obtain ⟨info', hinfo', hfr⟩ := hmature _ _ (registry_of_mem hs hmem)
    exact ⟨info', Keyed.mem_of_entry hinfo', Keyed.key_of_entry hinfo', hfr⟩
  · intro h hacc mh hmem htype
    refine ⟨fun info hinfo heq => ?_, ?_⟩
    · have hnone := registry_none_of_create hacc hmem htype
      rw [← heq, registry_of_mem hs hinfo] at hnone
      exact absurd hnone (by simp)
    · -- the record made by the first `Create` is still there
      rw [hcons]
      intro h' hacc' mh' hmem' htype' heq
      obtain ⟨info', hinfo', -⟩ := record_after_run hacc hmem after
      have hnone := registry_none_of_create hacc' hmem' htype'
      rw [heq, hinfo'] at hnone
      exact absurd hnone (by simp)
  · intro h hacc mh hmem htype
    rw [hcons]
    intro h' hacc' mh' hmem' _ heq
    -- the record is frozen by the first `Freeze` and stays so
    obtain ⟨info', hinfo', hfrozen⟩ := record_after_run hacc hmem after
    rw [← heq] at hinfo'
    exact rejected_of_frozen hmem' hinfo' (hfrozen htype) hacc'
  · intro info hmem hfrozen
    obtain ⟨info', hinfo', hfr⟩ := hmature _ _ (registry_of_mem hs hmem)
    rw [hfr hfrozen] at hinfo'
    refine ⟨Keyed.mem_of_entry hinfo', ?_⟩
    rintro h ⟨mh, hmh, heq⟩
    have hnot : ¬ Accepts F (runHeaders F cs₀ (before ++ after)) (.fabric h) :=
      rejected_of_frozen hmh (heq ▸ hinfo') hfrozen
    exact ⟨hnot, submit_of_not_accepts hnot⟩

open Symbolic in
/-- `Org2` is frozen: a change of its policy, though signed by `Org1`, is rejected. -/
theorem msp_life_cycle_frozen :
    ¬ Accepts fabric (runHeaders fabric client
        [.fabric ⟨none, none, some ⟨[signMSPHeader org1 (freezeHeader org2)]⟩⟩])
      (.fabric ⟨none, none, some ⟨[signMSPHeader org1 (policyHeader org2 (encodePolicy org1))]⟩⟩) := by
  have hdist : (client.lastMspInfos.infos.map MSPInfo.mspID).Nodup := by decide +kernel
  obtain ⟨-, -, -, -, -, hfrozen⟩ := msp_life_cycle (F := fabric) hdist
    [.fabric ⟨none, none, some ⟨[signMSPHeader org1 (freezeHeader org2)]⟩⟩] []
  have hmem : { mspInfo org2 with freezed := true } ∈ (runHeaders fabric client
      [.fabric ⟨none, none, some ⟨[signMSPHeader org1 (freezeHeader org2)]⟩⟩]).lastMspInfos.infos := by
    decide +kernel
  exact ((hfrozen _ hmem rfl).2 _ ⟨_, List.mem_singleton.mpr rfl, rfl⟩).1

end FabricIBC
