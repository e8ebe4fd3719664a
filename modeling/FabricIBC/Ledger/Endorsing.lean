import FabricIBC.Ledger.Refinement

/-!
# Fabric-IBC — ledger: endorsing

The `Endorse*` functions are transactions like the others: they write, and their
writes are committed. On the ledger they change the commitments, which no call
reads (`perform_restate`).

* `endorsing_is_inert` — so a run without them gets the same replies and ends in
  the same world state, up to the commitment entries.
-/

namespace FabricIBC

open Go

/-- The `Endorse*` functions. -/
def Invocation.endorses (inv : Invocation) : Bool :=
  match inv.call with
  | .initChaincode _ => false
  | .handleTx _ => false
  | .updateSequence => false
  | _ => true

section Endorsing

variable {C : Codec} {τ μ Γ : Type} {d : Deployment C τ μ Γ} {L : d.State}

/-- The ledger with other commitments. -/
def Ledger.restate {K : store.StoreKeys} (L : Ledger K) (commitments : Bytes → Option Bytes) :
    Ledger K := { L with commitments := commitments }

theorem foldl_keep_restate {K : store.StoreKeys} (L : Ledger K)
    (commitments : Bytes → Option Bytes) (kept : List Write) :
    kept.foldl Ledger.keep (L.restate commitments) =
      (kept.foldl Ledger.keep L).restate commitments := by
  induction kept generalizing L with
  | nil => rfl
  | cons w kept ih =>
    have hkeep : (L.restate commitments).keep w = (L.keep w).restate commitments := by
      cases w <;> rfl
    rw [List.foldl_cons, hkeep, ih]
    rfl

/-- An endorsing call puts a commitment on the ledger, or fails. -/
theorem perform_of_endorses {inv : Invocation} (hinv : inv.endorses = true)
    {res : Response × d.State} (h : d.perform L inv = .ok res) :
    ∃ e, res.2 = L.endorse e := by
  have habout : ∀ id, d.endorseAbout L id = .ok res → ∃ e, res.2 = L.endorse e := by
    intro id h
    simp only [Deployment.endorseAbout, Outcome.bind_eq_ok_iff, Outcome.ok.injEq] at h
    obtain ⟨_, -, e, -, rfl⟩ := h
    exact ⟨e, rfl⟩
  rw [Deployment.perform] at h
  rw [Invocation.endorses] at hinv
  cases hcall : inv.call with
  | initChaincode _ => simp [hcall] at hinv
  | handleTx _ => simp [hcall] at hinv
  | updateSequence => simp [hcall] at hinv
  | endorseSequenceCommitment =>
    simp only [hcall, Deployment.endorseSequence, Outcome.bind_eq_ok_iff, Outcome.ok.injEq] at h
    obtain ⟨_, -, seq, -, rfl⟩ := h
    exact ⟨_, rfl⟩
  | _ =>
    rw [hcall] at h
    exact habout _ h

/-- The other calls do not look at the commitments. -/
theorem perform_restate {inv : Invocation} (hinv : inv.endorses = false)
    (commitments : Bytes → Option Bytes) :
    Outcome.Rel (fun a b => a.1 = b.1 ∧ b.2 = a.2.restate commitments)
      (d.perform L inv) (d.perform (L.restate commitments) inv) := by
  rw [Deployment.perform, Deployment.perform]
  rw [Invocation.endorses] at hinv
  cases hcall : inv.call with
  | initChaincode appStateJSON =>
    refine Outcome.Rel.bind_same fun M _ => ?_
    exact Outcome.Rel.bind_same fun tm _ => ⟨rfl, rfl⟩
  | handleTx txJSON =>
    refine Outcome.Rel.bind_same fun res _ => ?_
    refine Outcome.Rel.bind_same fun kept _ => ⟨rfl, ?_⟩
    exact foldl_keep_restate { L with stores := lasting res.2 } commitments kept
  | updateSequence =>
    refine Outcome.Rel.bind_same fun current _ => ?_
    exact Outcome.Rel.bind_same fun tm _ => ⟨rfl, rfl⟩
  | _ =>
    rw [hcall] at hinv
    cases hinv

/-- The two world states hold one ledger, up to its commitments. -/
def Alike (d : Deployment C τ μ Γ) (ws ws' : WorldState) : Prop :=
  ∃ (L : d.State) (commitments : Bytes → Option Bytes), Mirrors d.sequenceMgr L ws ∧
    Mirrors d.sequenceMgr (L.restate commitments) ws'

theorem Alike.skip {ws ws' : WorldState} (h : Alike d ws ws') {inv : Invocation}
    (hinv : inv.endorses = true) : Alike d (d.chaincode.serve ws inv).2 ws' := by
  obtain ⟨L, commitments, hL, hL'⟩ := h
  have hserve := (serve_rel hL inv).2
  refine ⟨_, commitments, hserve, ?_⟩
  rw [Deployment.serve]
  cases hres : d.perform L inv with
  | err e => exact hL'
  | panic p => exact hL'
  | ok res =>
    obtain ⟨e, he⟩ := perform_of_endorses hinv hres
    show Mirrors d.sequenceMgr (res.2.restate commitments) ws'
    rw [he]
    exact hL'

theorem Alike.serve {ws ws' : WorldState} (h : Alike d ws ws') {inv : Invocation}
    (hinv : inv.endorses = false) :
    (d.chaincode.serve ws inv).1 = (d.chaincode.serve ws' inv).1 ∧
      Alike d (d.chaincode.serve ws inv).2 (d.chaincode.serve ws' inv).2 := by
  obtain ⟨L, commitments, hL, hL'⟩ := h
  obtain ⟨hreply, hnext⟩ := serve_rel hL inv
  obtain ⟨hreply', hnext'⟩ := serve_rel hL' inv
  have hsame : (d.serve L inv).1 = (d.serve (L.restate commitments) inv).1 ∧
      (d.serve (L.restate commitments) inv).2 = (d.serve L inv).2.restate commitments := by
    rw [Deployment.serve, Deployment.serve]
    rcases (perform_restate hinv commitments).cases with ⟨a, b, ha, hb, hab⟩ | ⟨e, ha, hb⟩ |
      ⟨p, ha, hb⟩
    · rw [ha, hb]
      exact ⟨congrArg Outcome.ok hab.1, hab.2⟩
    · rw [ha, hb]
      exact ⟨rfl, rfl⟩
    · rw [ha, hb]
      exact ⟨rfl, rfl⟩
  refine ⟨by rw [hreply, hreply', hsame.1], _, commitments, hnext, ?_⟩
  rw [← hsame.2]
  exact hnext'

/-- World states that hold one ledger differ in commitment entries only. -/
theorem Alike.getElem?_eq {ws ws' : WorldState} (h : Alike d ws ws') {x : Bytes}
    (hx : ∀ id : EntryID, x ≠ id.key host.storeKey) : ws[x]? = ws'[x]? := by
  obtain ⟨L, commitments, hL, hL'⟩ := h
  by_cases hloc : ∃ loc : Location d.app.keys, x = loc.bytes d.sequenceMgr
  · obtain ⟨loc, rfl⟩ := hloc
    rw [hL.read, hL'.read]
    cases loc with
    | commitment id => exact absurd rfl (hx id)
    | _ => rfl
  · -- no ledger has anything under another key
    have hnone : ∀ {L : d.State} {ws : WorldState}, Mirrors d.sequenceMgr L ws → ws[x]? = none :=
      fun hL => Option.eq_none_iff_forall_not_mem.mpr fun v hv => hloc (hL.known x v hv)
    rw [hnone hL, hnone hL']

/-- **Endorsing is inert.** Leaving all calls of `Endorse*` functions out of a run
changes neither a reply to another call nor anything in the world state but the
commitment entries. -/
theorem endorsing_is_inert (d : Deployment C τ μ Γ) (L : d.State) (ws : WorldState)
    (h : Mirrors d.sequenceMgr L ws) (invs : List Invocation) :
    Run.repliesTo (fun inv => !inv.endorses) invs (Run.transcript d.chaincode.serve ws invs).1 =
      (Run.transcript d.chaincode.serve ws (invs.filter fun inv => !inv.endorses)).1 ∧
    ∀ x, (∀ id : EntryID, x ≠ id.key host.storeKey) →
      (Run.transcript d.chaincode.serve ws invs).2[x]? =
        (Run.transcript d.chaincode.serve ws (invs.filter fun inv => !inv.endorses)).2[x]? := by
  have hstart : Alike d ws ws := ⟨L, L.commitments, h, h⟩
  obtain ⟨hreplies, hend⟩ := Run.transcript_filter d.chaincode.serve
    (fun inv : Invocation => !inv.endorses) (R := Alike d)
    (fun _ _ _ hinv halike => Alike.skip halike (by simpa using hinv))
    (fun _ _ _ hinv halike => Alike.serve halike (by simpa using hinv)) hstart invs
  exact ⟨hreplies, fun x hx => hend.getElem?_eq hx⟩

open Sample in
/-- An endorsement between the start of the chaincode and a transaction. -/
theorem endorsing_is_inert_absence :
    (Run.transcript deployment.chaincode.serve ∅ [callAt 100 (.initChaincode [5]),
      callAt 100 (.endorsePacketReceiptAbsence port channel 1), callAt 100 (.handleTx [2])]).2[
        makeCurrentSequenceKey host.storeKey]? =
    (Run.transcript deployment.chaincode.serve ∅ [callAt 100 (.initChaincode [5]),
      callAt 100 (.handleTx [2])]).2[makeCurrentSequenceKey host.storeKey]? :=
  (endorsing_is_inert deployment _ ∅ (mirrors_empty _ _)
    [callAt 100 (.initChaincode [5]), callAt 100 (.endorsePacketReceiptAbsence port channel 1),
      callAt 100 (.handleTx [2])]).2 _ fun id => (id.key_ne_current _ _).symm

end Endorsing

end FabricIBC
