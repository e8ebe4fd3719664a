import FabricIBC.LightClient.Acceptance
import FabricIBC.LightClient.Symbolic

/-!
# Fabric-IBC — light client: batches of MSP headers

What a batch of MSP headers has to look like (`header.go`), and the MSP set a
client starts from. The set is built in three places: by the relayer
(`relay/client-tx.go`), by `generateMSPInfos` (`msp.go`), and by the update of
a client that knows no MSP (`update.go`).

* `mspHeaders_validateBasic_iff` — `ValidateBasic` accepts exactly the
  well-formed batches: its comparisons of neighbours decide the order of the
  whole batch;
* `initial_mspInfos_agree` — the three constructions agree. Two of them append,
  the third inserts in order; on an ascending batch every insertion is at the
  end (`foldMSPHeaders_create`).
-/

namespace FabricIBC

open Go

/-! ## Well-formed batches -/

/-- The type is one of the four, and `Config` and `Policy` are present as it says. -/
def MSPHeader.HasPattern (mh : MSPHeader) : Prop :=
  (mh.type = .create ∧ mh.config ≠ none ∧ mh.policy ≠ none) ∨
  (mh.type = .updatePolicy ∧ mh.config = none ∧ mh.policy ≠ none) ∨
  (mh.type = .updateConfig ∧ mh.config ≠ none ∧ mh.policy = none) ∨
  (mh.type = .freeze ∧ mh.config = none ∧ mh.policy = none)

/-- A batch as the updater relies on it. -/
structure MSPHeaders.WellFormed (mhs : MSPHeaders) : Prop where
  ids_nonempty : ∀ mh ∈ mhs.headers, mh.mspID ≠ []
  ids_ascending : mhs.headers.Pairwise fun a b => compareMSPID a.mspID b.mspID = .lt
  proofs : ∀ mh ∈ mhs.headers, mh.proof ≠ none
  patterns : ∀ mh ∈ mhs.headers, mh.HasPattern

theorem validConfigPolicy_iff {mh : MSPHeader} :
    mh.validConfigPolicy = true ↔ mh.HasPattern := by
  unfold MSPHeader.validConfigPolicy MSPHeader.HasPattern
  cases htype : mh.type <;> simp [Option.isSome_iff_ne_none]

/-- Ascending over the whole list, hence distinct over the whole list. -/
theorem MSPHeaders.WellFormed.ids_nodup {mhs : MSPHeaders} (h : mhs.WellFormed) :
    (mhs.headers.map MSPHeader.mspID).Nodup :=
  Keyed.Ascending.nodup_keys h.ids_ascending

/-- **`ValidateBasic` accepts exactly the well-formed batches.** -/
theorem mspHeaders_validateBasic_iff (mhs : MSPHeaders) :
    (mhs.validateBasic = .ok () ↔ mhs.WellFormed) ∧
      (mhs.WellFormed → (mhs.headers.map MSPHeader.mspID).Nodup) := by
  refine ⟨?_, MSPHeaders.WellFormed.ids_nodup⟩
  rw [mspHeaders_validateBasic_eq_ok_iff]
  constructor
  · rintro ⟨hbasic, hasc⟩
    have hall : ∀ mh ∈ mhs.headers, mh.mspID ≠ [] ∧ mh.HasPattern ∧ mh.proof ≠ none := by
      intro mh hmem
      obtain ⟨hid, hvalid, hproof⟩ := mspHeader_validateBasic_eq_ok_iff.mp (hbasic mh hmem)
      exact ⟨hid, validConfigPolicy_iff.mp hvalid, Option.isSome_iff_ne_none.mp hproof⟩
    exact ⟨fun mh hmem => (hall mh hmem).1, hasc, fun mh hmem => (hall mh hmem).2.2,
      fun mh hmem => (hall mh hmem).2.1⟩
  · intro h
    refine ⟨?_, h.ids_ascending⟩
    intro mh hmem
    exact mspHeader_validateBasic_eq_ok_iff.mpr ⟨h.ids_nonempty mh hmem,
      validConfigPolicy_iff.mpr (h.patterns mh hmem),
      Option.isSome_iff_ne_none.mpr (h.proofs mh hmem)⟩

/-! ## The initial MSP set -/

/-- `strconv.Itoa`. -/
def itoa (i : Int) : Bytes := if i < 0 then str "-" ++ dec i.natAbs else dec i.natAbs

/-- `String` of the enumeration: a name, or the number of an unknown type. -/
def MSPHeaderType.string : MSPHeaderType → Bytes
  | create => str "MSP_HEADER_TYPE_CREATE"
  | updatePolicy => str "MSP_HEADER_TYPE_UPDATE_POLICY"
  | updateConfig => str "MSP_HEADER_TYPE_UPDATE_CONFIG"
  | freeze => str "MSP_HEADER_TYPE_FREEZE"
  | unrecognized code _ => itoa code.toInt

/-- The loop of `createMSPInitialClientState`, with the infos appended so far. -/
def initialMSPInfos (infos : List MSPInfo) : List MSPHeader → Result MSPInfos
  | [] => .ok ⟨infos⟩
  | mh :: rest =>
    if mh.type ≠ .create then
      .err (.errorf "unexpected fabric type: %v" [.bytes mh.type.string])
    else initialMSPInfos (infos ++ [⟨mh.mspID, mh.config, mh.policy, false⟩]) rest

/-- `createMSPInitialClientState`, of the relayer. -/
def createMSPInitialClientState (headers : List MSPHeader) : Result MSPInfos :=
  initialMSPInfos [] headers

/-- The loop of `generateMSPInfos`, with the infos appended so far. -/
def generatedMSPInfos (infos : List MSPInfo) : List MSPHeader → List MSPInfo
  | [] => infos
  | mh :: rest =>
    -- any other header is passed over
    if mh.type ≠ .create then generatedMSPInfos infos rest
    else generatedMSPInfos (infos ++ [⟨mh.mspID, mh.config, mh.policy, false⟩]) rest

/-- `generateMSPInfos`; without `MSPHeaders` it dereferences a nil pointer. -/
def generateMSPInfos (header : Header) : Result MSPInfos :=
  match header.mspHeaders with
  | none => .panic .nilDereference
  | some mhs => .ok ⟨generatedMSPInfos [] mhs.headers⟩

/-- The record a `Create` header asks for. -/
def MSPHeader.initialInfo (mh : MSPHeader) : MSPInfo := ⟨mh.mspID, mh.config, mh.policy, false⟩

theorem initialMSPInfos_of_create {headers : List MSPHeader}
    (hcreate : ∀ mh ∈ headers, mh.type = .create) (infos : List MSPInfo) :
    initialMSPInfos infos headers = .ok ⟨infos ++ headers.map MSPHeader.initialInfo⟩ := by
  induction headers generalizing infos with
  | nil => simp [initialMSPInfos]
  | cons mh headers ih =>
    obtain ⟨hmh, hrest⟩ := List.forall_mem_cons.mp hcreate
    rw [initialMSPInfos, if_neg (not_not.mpr hmh), ih hrest]
    simp [MSPHeader.initialInfo]

/-- The relayer's loop stops at the first header of another type. -/
theorem initialMSPInfos_eq_err_iff {headers : List MSPHeader} {infos : List MSPInfo} :
    (∃ e, initialMSPInfos infos headers = .err e) ↔ ∃ mh ∈ headers, mh.type ≠ .create := by
  induction headers generalizing infos with
  | nil => simp [initialMSPInfos]
  | cons mh headers ih =>
    rw [initialMSPInfos]
    by_cases hmh : mh.type = .create
    · simp [hmh, ih]
    · simp [hmh]

theorem generatedMSPInfos_eq (infos : List MSPInfo) (headers : List MSPHeader) :
    generatedMSPInfos infos headers =
      infos ++ (headers.filter fun mh => mh.type = .create).map MSPHeader.initialInfo := by
  induction headers generalizing infos with
  | nil => simp [generatedMSPInfos]
  | cons mh headers ih =>
    rw [generatedMSPInfos]
    by_cases hmh : mh.type = .create
    · simp [hmh, ih, MSPHeader.initialInfo]
    · simp [hmh, ih]

/-- Creating MSPs in ascending order, all above those already there, appends
their records. -/
theorem foldMSPHeaders_create {headers : List MSPHeader} {cs : ClientState}
    (hcreate : ∀ mh ∈ headers, mh.type = .create)
    (hasc : Keyed.Ascending MSPHeader.mspID headers)
    (habove : ∀ info ∈ cs.lastMspInfos.infos, ∀ mh ∈ headers,
      compare info.mspID mh.mspID = .lt) :
    foldMSPHeaders cs headers =
      .ok (cs.withInfos (cs.lastMspInfos.infos ++ headers.map MSPHeader.initialInfo)) := by
  induction headers generalizing cs with
  | nil => simp [foldMSPHeaders, ClientState.withInfos]
  | cons mh headers ih =>
    obtain ⟨hmh, hrest⟩ := List.forall_mem_cons.mp hcreate
    obtain ⟨hlt, hasc⟩ := Keyed.ascending_cons.mp hasc
    -- the first insertion is at the end
    have hinsert : insertMSPInfo mh.initialInfo false cs.lastMspInfos.infos =
        cs.lastMspInfos.infos ++ [mh.initialInfo] := by
      rw [insertMSPInfo_false]
      exact Keyed.insert_eq_append fun info hinfo => habove info hinfo mh List.mem_cons_self
    have hstep : updateMSPInfo cs mh =
        .ok (cs.withInfos (cs.lastMspInfos.infos ++ [mh.initialInfo])) := by
      rw [updateMSPInfo, hmh, ← hinsert]
      rfl
    -- and what follows is above the new record as well
    have habove' : ∀ info ∈ cs.lastMspInfos.infos ++ [mh.initialInfo], ∀ mh' ∈ headers,
        compare info.mspID mh'.mspID = .lt := by
      intro info hinfo mh' hmem
      rcases List.mem_append.mp hinfo with hold | hnew
      · exact habove info hold mh' (List.mem_cons_of_mem _ hmem)
      · rw [List.mem_singleton.mp hnew]
        exact hlt mh' hmem
    rw [foldMSPHeaders, hstep, Outcome.ok_bind, ih hrest hasc habove']
    simp [ClientState.withInfos]

/-- **The three ways to build the initial MSP set agree.** -/
theorem initial_mspInfos_agree (mhs : MSPHeaders) (hvalid : mhs.validateBasic = .ok ()) :
    ((∀ mh ∈ mhs.headers, mh.type = .create) →
      ∃ infos : MSPInfos,
        createMSPInitialClientState mhs.headers = .ok infos ∧
        (∀ h : Header, h.mspHeaders = some mhs → generateMSPInfos h = .ok infos) ∧
        (∀ cs : ClientState, cs.lastMspInfos.infos = [] →
          updateMSPInfos cs mhs = .ok { cs with lastMspInfos := infos }) ∧
        infos.infos.Pairwise (fun a b => compareMSPID a.mspID b.mspID = .lt) ∧
        infos.infos = mhs.headers.map fun mh => ⟨mh.mspID, mh.config, mh.policy, false⟩) ∧
    ((∃ e, createMSPInitialClientState mhs.headers = .err e) ↔
      ∃ mh ∈ mhs.headers, mh.type ≠ .create) ∧
    ∀ h : Header, h.mspHeaders = some mhs →
      generateMSPInfos h =
        createMSPInitialClientState (mhs.headers.filter fun mh => mh.type = .create) := by
  obtain ⟨-, hasc⟩ := mspHeaders_validateBasic_eq_ok_iff.mp hvalid
  refine ⟨?_, initialMSPInfos_eq_err_iff, ?_⟩
  · intro hcreate
    have hfilter : (mhs.headers.filter fun mh => mh.type = .create) = mhs.headers :=
      List.filter_eq_self.mpr fun mh hmem => decide_eq_true (hcreate mh hmem)
    refine ⟨⟨mhs.headers.map MSPHeader.initialInfo⟩, initialMSPInfos_of_create hcreate [],
      ?_, ?_, ?_, rfl⟩
    · -- the light client filters, but there is nothing to leave out
      intro h hmhs
      rw [generateMSPInfos, hmhs]
      show Outcome.ok _ = _
      rw [generatedMSPInfos_eq, hfilter, List.nil_append]
    · -- the updater inserts, each time at the end
      intro cs hempty
      have habove : ∀ info ∈ cs.lastMspInfos.infos, ∀ mh ∈ mhs.headers,
          compare info.mspID mh.mspID = .lt := by
        intro info hinfo
        rw [hempty] at hinfo
        exact absurd hinfo List.not_mem_nil
      rw [updateMSPInfos, foldMSPHeaders_create hcreate hasc habove, hempty, List.nil_append]
      rfl
    · exact List.pairwise_map.mpr hasc
  · intro h hmhs
    have hcreate : ∀ mh ∈ mhs.headers.filter (fun mh => mh.type = .create), mh.type = .create :=
      fun mh hmem => of_decide_eq_true (List.mem_filter.mp hmem).2
    rw [generateMSPInfos, hmhs]
    show Outcome.ok _ = _
    rw [generatedMSPInfos_eq, createMSPInitialClientState, initialMSPInfos_of_create hcreate]

namespace Symbolic

/-- The MSPs of a new channel. -/
def foundingBatch : MSPHeaders :=
  ⟨[signMSPHeader org1 (createHeader org1), signMSPHeader org1 (createHeader org2)]⟩

end Symbolic

theorem initial_mspInfos_agree_founding :
    Symbolic.foundingBatch.validateBasic = .ok () ∧
    ∃ infos : MSPInfos,
      createMSPInitialClientState Symbolic.foundingBatch.headers = .ok infos ∧
      generateMSPInfos ⟨none, none, some Symbolic.foundingBatch⟩ = .ok infos ∧
      infos.infos.length = 2 := by
  have hvalid : Symbolic.foundingBatch.validateBasic = .ok () := by decide +kernel
  refine ⟨hvalid, ?_⟩
  obtain ⟨infos, hrelay, hgen, -, -, hinfos⟩ :=
    (initial_mspInfos_agree Symbolic.foundingBatch hvalid).1 (by decide +kernel)
  exact ⟨infos, hrelay, hgen ⟨none, none, some Symbolic.foundingBatch⟩ rfl, hinfos ▸ rfl⟩

end FabricIBC
