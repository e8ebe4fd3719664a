import FabricIBC.Ledger.Refinement

/-!
# Fabric-IBC — ledger: submitters

The chaincode of an application that has `FabricIDVerificationDecorator` in front of
its ante handler (`Guards`). The decorator asks the stub of the invocation for the
creator, who is the submitter of the transaction.

* `own_of_invoke` — a call that succeeds is no transaction, or one whose messages
  are the submitter's own;
* `only_own_transactions` — so in every run the other transactions fail, and the run
  without them has the same replies and the same end.
-/

namespace FabricIBC

open Go

namespace auth

section Guarded

variable {C : Codec} {τ μ ρ : Type} {A : Accounts μ} {d : Deployment C τ μ (Context ρ)}

/-- Transactions run in contexts with their stub, not as re-checks, and the decorator
comes first. -/
structure Guards (A : Accounts μ) (app : IBCApp τ μ (Context ρ)) : Prop where
  setup : app.setupContext = setupContext
  recheckTx : ∀ header, (app.base.newContext header).recheckTx = false
  decorator : ∃ next : AnteHandler (Mounted app.keys.all) (Context ρ) τ,
    app.base.anteHandler = some fun ctx tx => anteHandle A app.base.sdk.getMsgs ctx tx false next

/-- If the call is a transaction, its messages are the submitter's own. -/
def Own (A : Accounts μ) (sdk : Sdk τ μ) (inv : Invocation) : Prop :=
  ∀ txJSON, inv.call = .handleTx txJSON → ∃ tx creator, sdk.txDecoder txJSON = .ok tx ∧
    inv.creator = .ok creator ∧ Authorised A creator (sdk.getMsgs tx)

/-- The rest of a handler runs only after the check has passed. -/
theorem exec_guarded {I α : Type} [DecidableEq I] {check : Result Unit} {rest : StoreProgram I α}
    {r : Cache.Reader I Key Bytes Error} {ms : CacheMultiStore I} {done : α × CacheMultiStore I}
    (h : (guarded check rest).exec r ms = .ok done) : check = .ok () := by
  cases check with
  | ok _ => rfl
  | err e => cases h
  | panic p => cases h

/-- **A call that succeeds is the submitter's own.** -/
theorem own_of_invoke (hguards : Guards A d.app) (hstring : Function.Injective A.string)
    {inv : Invocation} {ws : WorldState} {res : Response × List Write}
    (h : d.chaincode.invoke (inv.stub ws) inv.call = .ok res) : Own A d.app.base.sdk inv := by
  intro txJSON hcall
  rw [hcall] at h
  obtain ⟨r, done, hrun⟩ := runTx_of_invoke h
  -- the steps of `RunTx` up to the ante handler
  obtain ⟨tx, htx, hrun⟩ := Outcome.bind_eq_ok_iff.mp hrun
  obtain ⟨header, -, hrun⟩ := Outcome.bind_eq_ok_iff.mp hrun
  obtain ⟨-, -, hrun⟩ := Outcome.bind_eq_ok_iff.mp hrun
  obtain ⟨ante, hante, -⟩ := Outcome.bind_eq_ok_iff.mp hrun
  -- the ante handler is the decorator, in a context with the stub
  obtain ⟨next, hnext⟩ := hguards.decorator
  have hhandler : (d.app.withStub (d.sequenceMgr.contextStub (inv.stub ws))).anteHandler =
      some fun ctx tx => anteHandle A d.app.base.sdk.getMsgs ctx tx false next := hnext
  have hctx : (d.app.withStub (d.sequenceMgr.contextStub (inv.stub ws))).newContext header =
      setupContext (d.app.base.newContext header) (d.sequenceMgr.contextStub (inv.stub ws)) :=
    congrFun (congrFun hguards.setup _) _
  rw [BaseApp.runAnte, hhandler, hctx] at hante
  obtain ⟨_, hexec, -⟩ := Outcome.bind_eq_ok_iff.mp hante
  have hrecheck : (setupContext (d.app.base.newContext header)
      (d.sequenceMgr.contextStub (inv.stub ws))).recheckTx = false := hguards.recheckTx header
  simp only [anteHandle, hrecheck, Bool.false_eq_true, if_false] at hexec
  -- the stub is that of the invocation, and so is the creator
  obtain ⟨stub, hstub, hverify⟩ := Outcome.bind_eq_ok_iff.mp (exec_guarded hexec)
  obtain rfl : d.sequenceMgr.contextStub (inv.stub ws) = stub := Outcome.ok.inj hstub
  obtain ⟨creator, hcreator, hverify⟩ := Outcome.bind_eq_ok_iff.mp hverify
  refine ⟨tx, creator, Outcome.ofExcept_eq_ok_iff.mp htx, Outcome.ofExcept_eq_ok_iff.mp hcreator, ?_⟩
  exact (verifyCreator_eq_ok_iff hstring creator _).mp hverify

open Classical in
/-- **Only the submitters' own transactions take effect.** In every run of a chaincode
with the decorator, from any world state, a call that succeeds is no transaction or one
that has a signer, and no other signer than its submitter. Leaving the other transactions
out changes no reply and nothing in the world state. -/
theorem only_own_transactions (d : Deployment C τ μ (Context ρ)) (hguards : Guards A d.app)
    (hstring : Function.Injective A.string) (ws : WorldState) (invs : List Invocation) :
    (∀ x ∈ invs.zip (Run.transcript d.chaincode.serve ws invs).1, x.2.isOk = true →
      Own A d.app.base.sdk x.1) ∧
    Run.repliesTo (fun inv => decide (Own A d.app.base.sdk inv)) invs
        (Run.transcript d.chaincode.serve ws invs).1 =
      (Run.transcript d.chaincode.serve ws
        (invs.filter fun inv => decide (Own A d.app.base.sdk inv))).1 ∧
    (Run.transcript d.chaincode.serve ws invs).2 =
      (Run.transcript d.chaincode.serve ws
        (invs.filter fun inv => decide (Own A d.app.base.sdk inv))).2 := by
  have hserve : ∀ (ws : WorldState) (inv : Invocation),
      (d.chaincode.serve ws inv).1.isOk = true → Own A d.app.base.sdk inv := by
    intro ws inv hok
    rw [IBCChaincode.serve] at hok
    obtain ⟨_, hok⟩ := Outcome.isOk_iff.mp hok
    obtain ⟨res, hinvoke, -⟩ := Outcome.bind_eq_ok_iff.mp hok
    exact own_of_invoke hguards hstring hinvoke
  -- a transaction that fails is not committed
  have hskip : ∀ (ws : WorldState) (inv : Invocation), ¬ Own A d.app.base.sdk inv →
      (d.chaincode.serve ws inv).2 = ws := by
    intro ws inv hnot
    rw [IBCChaincode.serve, IBCChaincode.commit]
    cases hinvoke : d.chaincode.invoke (inv.stub ws) inv.call with
    | ok res => exact absurd (own_of_invoke hguards hstring hinvoke) hnot
    | err e => rfl
    | panic p => rfl
  refine ⟨?_, Run.transcript_filter d.chaincode.serve
    (fun inv => decide (Own A d.app.base.sdk inv)) (R := Eq) ?_ ?_ rfl invs⟩
  · -- reply by reply
    induction invs generalizing ws with
    | nil => simp
    | cons inv invs ih =>
      intro x hx hok
      rcases List.mem_cons.mp hx with rfl | hx
      · exact hserve ws inv hok
      · exact ih _ x hx hok
  · rintro ws _ inv hnot rfl
    exact hskip ws inv (of_decide_eq_false hnot)
  · rintro ws _ inv - rfl
    exact ⟨rfl, rfl⟩

end Guarded

/-! ## An application with the decorator -/

section Sample

open FabricIBC.Sample (ibcApp deployment callAt)

/-- The application of the sample, with the decorator in front. -/
def guardedApp : IBCApp Bytes UInt8 (Context Unit) :=
  { ibcApp with
    base := { ibcApp.base with
      anteHandler := some fun ctx tx => anteHandle byteAccounts id ctx tx false terminator } }

def guardedDeployment : Deployment Symbolic.codec Bytes UInt8 (Context Unit) :=
  { deployment with app := guardedApp }

theorem guards_guardedApp : Guards byteAccounts guardedDeployment.app where
  setup := rfl
  recheckTx _ := rfl
  decorator := ⟨terminator, rfl⟩

/-- A transaction that is submitted by the creator. -/
def submittedBy (creator txJSON : Bytes) : Invocation :=
  { callAt 100 (.handleTx txJSON) with creator := .ok creator }

open Classical in
/-- The creator `2` submits a transaction of its own, which succeeds, and one with a
message of `3`. -/
theorem only_own_transactions_two :
    (Run.transcript guardedDeployment.chaincode.serve ∅ [callAt 100 (.initChaincode [5]),
      submittedBy [2] [2, 2], submittedBy [2] [2, 3]]).1.map Outcome.isOk = [true, true, false] ∧
    (Run.transcript guardedDeployment.chaincode.serve ∅ [callAt 100 (.initChaincode [5]),
      submittedBy [2] [2, 2], submittedBy [2] [2, 3]]).2 =
    (Run.transcript guardedDeployment.chaincode.serve ∅
      [callAt 100 (.initChaincode [5]), submittedBy [2] [2, 2]]).2 := by
  refine ⟨by decide +kernel, ?_⟩
  have hstring : Function.Injective byteAccounts.string := Function.injective_id
  have hinit : Own byteAccounts guardedDeployment.app.base.sdk (callAt 100 (.initChaincode [5])) :=
    fun _ hcall => absurd hcall (by rintro ⟨⟩)
  have hown : Own byteAccounts guardedDeployment.app.base.sdk (submittedBy [2] [2, 2]) := by
    rintro txJSON ⟨⟩
    exact ⟨[2, 2], [2], rfl, rfl, ⟨2, by decide, by decide⟩, by decide +kernel⟩
  have hother : ¬ Own byteAccounts guardedDeployment.app.base.sdk (submittedBy [2] [2, 3]) := by
    intro h
    obtain ⟨tx, creator, htx, hcreator, hauth⟩ := h _ rfl
    cases htx
    cases hcreator
    exact absurd (hauth.own 3 (by decide)) (by decide +kernel)
  have hrun := (only_own_transactions guardedDeployment guards_guardedApp hstring ∅
    [callAt 100 (.initChaincode [5]), submittedBy [2] [2, 2], submittedBy [2] [2, 3]]).2.2
  rwa [List.filter_cons_of_pos (by simpa using hinit), List.filter_cons_of_pos (by simpa using hown),
    List.filter_cons_of_neg (by simpa using hother), List.filter_nil] at hrun

end Sample

end auth

end FabricIBC
