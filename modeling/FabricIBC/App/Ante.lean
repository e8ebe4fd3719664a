import FabricIBC.App.Atomicity

/-!
# Fabric-IBC — application: who may submit a message

`FabricIDVerificationDecorator` of `chaincode/x/auth/ante/ante.go`, the address of
a creator (`chaincode/x/auth/types/creator.go`) and the stub in a context
(`chaincode/x/auth/types/context.go`).

What the decorator is for is `Authorised`: there is a signer, and all the signers
of all the messages are the submitter. Hashing, the text of an address and the
signers of a message are parameters (`Accounts`).

* `mem_getSigners`, `nodup_getSigners` — the loops over messages and signers
  gather every signer once;
* `verifyCreator_eq_ok_iff` — the checks of the decorator pass for authorised
  messages and no others;
* `runTx_of_refused` — a transaction the ante handler refuses ends before its
  messages;
* `only_own_messages` — the decorator, alone and as the ante handler of `RunTx`.
-/

namespace FabricIBC

open Go
open store (Store StoreKey)
open Reference (Contents)

namespace auth

/-! ## Contexts -/

/-- `sdk.Context`: whether a transaction is checked again, the value under
`stubKey`, and the rest. -/
structure Context (ρ : Type) where
  recheckTx : Bool
  stub : Option ContextStub
  rest : ρ

/-- `sdk.NewContext` with `isCheckTx` false. -/
def newContext {ρ : Type} (rest : ρ) : Context ρ := ⟨false, none, rest⟩

def contextWithStub {ρ : Type} (ctx : Context ρ) (stub : ContextStub) : Context ρ :=
  { ctx with stub := some stub }

/-- A context without a stub fails the type assertion. -/
def stubFromContext {ρ : Type} (ctx : Context ρ) : Result ContextStub :=
  match ctx.stub with
  | some stub => .ok stub
  | none => .panic .typeAssertion

def setupContext {ρ : Type} (ctx : Context ρ) (stub : ContextStub) : Context ρ :=
  contextWithStub ctx stub

/-- A context of the creator that is not one of a re-check. -/
structure Context.Submits {ρ : Type} (ctx : Context ρ) (creator : Bytes) : Prop where
  recheckTx : ctx.recheckTx = false
  stub : ∃ stub, ctx.stub = some stub ∧ stub.getCreator = .ok creator

/-! ## Addresses -/

/-- `sdk.AccAddress`. -/
abbrev AccAddress := Bytes

/-- What the decorator uses of the sdk and of `crypto/sha256`. -/
structure Accounts (μ : Type) where
  /-- `sha256.Sum256`. -/
  sum256 : Bytes → Vector UInt8 32
  /-- `AccAddress.String`. -/
  string : AccAddress → Bytes
  /-- `msg.GetSigners()`. -/
  signers : μ → List AccAddress

variable {μ : Type} (A : Accounts μ)

/-- `MakeCreatorAddressWithBytes`; its error is always nil. -/
def makeCreatorAddressWithBytes (creator : Bytes) : AccAddress :=
  (A.sum256 creator).toList.take 20

/-- What `getSigners` has gathered: the signers, and the texts under which `seen`
is true. -/
structure Seen where
  signers : List AccAddress
  seen : List Bytes

/-- The body of the inner loop of `getSigners`. -/
def Seen.add (acc : Seen) (addr : AccAddress) : Seen :=
  if acc.seen.contains (A.string addr) then acc
  else ⟨acc.signers ++ [addr], A.string addr :: acc.seen⟩

def getSigners (msgs : List μ) : List AccAddress :=
  (msgs.foldl (fun acc msg => (A.signers msg).foldl (Seen.add A) acc) ⟨[], []⟩).signers

/-! ## The decorator -/

/-- The checks of `AnteHandle` once the creator is known. -/
def verifyCreator (creator : Bytes) (msgs : List μ) : Result Unit :=
  let addr := makeCreatorAddressWithBytes A creator
  match getSigners A msgs with
  | [signer] =>
    if signer = addr then .ok ()
    else .err (.errorf "got unexpected signer: expected=%X actual=%X" [.bytes signer, .bytes addr])
  | _ => .err (.new "the number of signers must be 1")

/-- `sdk.AnteHandler`: a program over the stores that returns a new context, with
the events of its event manager. -/
abbrev AnteHandler (I Γ τ : Type) :=
  Γ → τ → (simulate : Bool) → StoreProgram I (Option (Γ × List Event))

/-- The rest of a handler after a check. -/
def guarded {I α : Type} (check : Result Unit) (rest : StoreProgram I α) : StoreProgram I α :=
  match check with
  | .ok () => rest
  | .err e => .fail e
  | .panic p => .crash p

/-- `FabricIDVerificationDecorator.AnteHandle`. -/
def anteHandle {I τ ρ : Type} (getMsgs : τ → List μ) (ctx : Context ρ) (tx : τ) (simulate : Bool)
    (next : AnteHandler I (Context ρ) τ) : StoreProgram I (Option (Context ρ × List Event)) :=
  -- no need to verify signatures on recheck tx
  if ctx.recheckTx then next ctx tx simulate
  else
    let verified : Result Unit := do
      let stub ← stubFromContext ctx
      let creator ← Outcome.ofExcept stub.getCreator
      verifyCreator A creator (getMsgs tx)
    guarded verified (next ctx tx simulate)

/-- An application with the decorator in front of `next` as its ante handler, as it
runs for a stub. -/
def decorated {I τ ρ : Type} (app : BaseApp τ μ (Context ρ) I) (stub : ContextStub)
    (rest : BlockHeader → ρ) (next : AnteHandler I (Context ρ) τ) :
    BaseApp τ μ (Context ρ) I :=
  { app with
    newContext := fun header => setupContext (newContext (rest header)) stub
    anteHandler := some fun ctx tx => anteHandle A app.sdk.getMsgs ctx tx false next }

/-! ## Authorised messages -/

/-- The messages are the submitter's own: somebody signed, and nobody else did. -/
structure Authorised (creator : Bytes) (msgs : List μ) : Prop where
  signed : ∃ msg ∈ msgs, A.signers msg ≠ []
  own : ∀ msg ∈ msgs, ∀ signer ∈ A.signers msg, signer = makeCreatorAddressWithBytes A creator

/-- What the loop of `getSigners` keeps, once the addresses `visited` are behind it. -/
structure Seen.Of (visited : List AccAddress) (acc : Seen) : Prop where
  text : ∀ addr, A.string addr ∈ acc.seen ↔ addr ∈ acc.signers
  nodup : acc.signers.Nodup
  mem : ∀ addr, addr ∈ acc.signers ↔ addr ∈ visited

section Signers

variable {A} (hstring : Function.Injective A.string)

include hstring

/-- One address: it is appended unless it is there. -/
theorem Seen.Of.add {visited : List AccAddress} {acc : Seen} (h : acc.Of A visited)
    (addr : AccAddress) : (acc.add A addr).Of A (visited ++ [addr]) := by
  by_cases hseen : A.string addr ∈ acc.seen
  · -- a repeated signer changes nothing
    have hmem : addr ∈ acc.signers := (h.text addr).mp hseen
    rw [Seen.add, if_pos (List.contains_iff_mem.mpr hseen)]
    refine ⟨h.text, h.nodup, fun x => ?_⟩
    rw [List.mem_append, List.mem_singleton, h.mem]
    exact ⟨Or.inl, fun hx => hx.elim id fun heq => heq ▸ (h.mem addr).mp hmem⟩
  · have hnew : addr ∉ acc.signers := fun hmem => hseen ((h.text addr).mpr hmem)
    rw [Seen.add, if_neg (mt List.contains_iff_mem.mp hseen)]
    refine ⟨fun x => ?_, ?_, fun x => ?_⟩
    · -- two addresses with one text are the same address
      show A.string x ∈ A.string addr :: acc.seen ↔ x ∈ acc.signers ++ [addr]
      rw [List.mem_cons, List.mem_append, List.mem_singleton, hstring.eq_iff, h.text, or_comm]
    · show (acc.signers ++ [addr]).Nodup
      rw [← List.concat_eq_append]
      exact h.nodup.concat hnew
    · show x ∈ acc.signers ++ [addr] ↔ x ∈ visited ++ [addr]
      rw [List.mem_append, List.mem_append, h.mem]

theorem Seen.Of.foldl {visited : List AccAddress} {acc : Seen} (h : acc.Of A visited)
    (addrs : List AccAddress) : (addrs.foldl (Seen.add A) acc).Of A (visited ++ addrs) := by
  induction addrs generalizing visited acc with
  | nil =>
    rw [List.append_nil]
    exact h
  | cons addr addrs ih =>
    have hstep := ih (h.add hstring addr)
    rwa [List.append_assoc] at hstep

theorem getSigners_of (msgs : List μ) :
    ∃ acc : Seen, getSigners A msgs = acc.signers ∧ acc.Of A (msgs.flatMap A.signers) := by
  -- the nested loops visit the signers of all the messages in one row
  refine ⟨(msgs.flatMap A.signers).foldl (Seen.add A) ⟨[], []⟩, ?_, ?_⟩
  · rw [List.foldl_flatMap]
    rfl
  · have hinit : Seen.Of A [] ⟨[], []⟩ := ⟨by simp, List.nodup_nil, by simp⟩
    exact hinit.foldl hstring _

theorem mem_getSigners (msgs : List μ) (addr : AccAddress) :
    addr ∈ getSigners A msgs ↔ ∃ msg ∈ msgs, addr ∈ A.signers msg := by
  obtain ⟨acc, hacc, h⟩ := getSigners_of hstring msgs
  rw [hacc, h.mem, List.mem_flatMap]

theorem nodup_getSigners (msgs : List μ) : (getSigners A msgs).Nodup := by
  obtain ⟨acc, hacc, h⟩ := getSigners_of hstring msgs
  rw [hacc]
  exact h.nodup

theorem getSigners_eq_singleton_iff (creator : Bytes) (msgs : List μ) :
    getSigners A msgs = [makeCreatorAddressWithBytes A creator] ↔ Authorised A creator msgs := by
  constructor
  · intro h
    have hmem := mem_getSigners hstring msgs
    simp only [h, List.mem_singleton] at hmem
    refine ⟨?_, fun msg hmsg signer hsigner => (hmem signer).mpr ⟨msg, hmsg, hsigner⟩⟩
    obtain ⟨msg, hmsg, hsigner⟩ := (hmem _).mp rfl
    exact ⟨msg, hmsg, List.ne_nil_of_mem hsigner⟩
  · intro h
    have hall : ∀ signer ∈ getSigners A msgs, signer = makeCreatorAddressWithBytes A creator := by
      intro signer hsigner
      obtain ⟨msg, hmsg, hmem⟩ := (mem_getSigners hstring msgs signer).mp hsigner
      exact h.own msg hmsg signer hmem
    -- one address over and over, but without a repetition: at most once
    have hreplicate := List.eq_replicate_of_mem hall
    have hle : (getSigners A msgs).length ≤ 1 := by
      have hnodup := nodup_getSigners hstring msgs
      rw [hreplicate] at hnodup
      exact List.nodup_replicate.mp hnodup
    obtain ⟨msg, hmsg, hne⟩ := h.signed
    obtain ⟨signer, hsigner⟩ := List.exists_mem_of_ne_nil _ hne
    have hpos : 0 < (getSigners A msgs).length :=
      List.length_pos_of_mem ((mem_getSigners hstring msgs signer).mpr ⟨msg, hmsg, hsigner⟩)
    have hone : (getSigners A msgs).length = 1 := by omega
    rw [hreplicate, hone]
    rfl

theorem verifyCreator_eq_ok_iff (creator : Bytes) (msgs : List μ) :
    verifyCreator A creator msgs = .ok () ↔ Authorised A creator msgs := by
  rw [← getSigners_eq_singleton_iff hstring, verifyCreator]
  match hsigners : getSigners A msgs with
  | [] => simp
  | [signer] =>
    by_cases h : signer = makeCreatorAddressWithBytes A creator
    · simp [h]
    · simp [h]
  | _ :: _ :: _ => simp

/-- The checks do not panic. -/
theorem exists_refusal {creator : Bytes} {msgs : List μ} (h : ¬ Authorised A creator msgs) :
    ∃ e, verifyCreator A creator msgs = .err e := by
  have hnopanic : ∀ p, verifyCreator A creator msgs ≠ .panic p := by
    intro p
    rw [verifyCreator]
    split
    · split <;> nofun
    · nofun
  cases hverify : verifyCreator A creator msgs with
  | ok _ => exact absurd ((verifyCreator_eq_ok_iff hstring creator msgs).mp hverify) h
  | err e => exact ⟨e, rfl⟩
  | panic p => exact absurd hverify (hnopanic p)

end Signers

/-! ## The handler -/

section Handler

variable {A} {I τ ρ : Type} {getMsgs : τ → List μ} {ctx : Context ρ} {creator : Bytes}

theorem anteHandle_eq (hctx : ctx.Submits creator) (tx : τ) (simulate : Bool)
    (next : AnteHandler I (Context ρ) τ) :
    anteHandle A getMsgs ctx tx simulate next =
      guarded (verifyCreator A creator (getMsgs tx)) (next ctx tx simulate) := by
  obtain ⟨stub, hstub, hcreator⟩ := hctx.stub
  simp only [anteHandle, hctx.recheckTx, stubFromContext, hstub, hcreator, Outcome.ofExcept,
    Outcome.ok_bind, Bool.false_eq_true, if_false]

theorem submits_setupContext {stub : ContextStub} (h : stub.getCreator = .ok creator)
    (rest : ρ) : (setupContext (newContext rest) stub).Submits creator :=
  ⟨rfl, stub, rfl, h⟩

end Handler

end auth

/-! ## Transactions -/

section RunTx

variable {τ μ Γ δ : Type} {keys : List StoreKey}

/-- How a transaction ends that the ante handler refuses: with the failure of an
earlier step, or with the error of the handler. -/
def BaseApp.refused {I : Type} (app : BaseApp τ μ Γ I) (blockProvider : Result Block) (tx : τ)
    (e : Error) : Result TxResult := do
  let _ ← getBlockHeader app.name blockProvider
  app.validateBasicTxMsgs (app.sdk.getMsgs tx)
  .err e

/-- **A transaction that the ante handler refuses ends before its messages.** -/
theorem BaseApp.runTx_of_refused (app : BaseApp τ μ Γ (Mounted keys)) {txBytes : Bytes} {tx : τ}
    (htx : app.sdk.txDecoder txBytes = .ok tx)
    {anteHandler : Γ → τ → StoreProgram (Mounted keys) (Option (Γ × List Event))}
    (hante : app.anteHandler = some anteHandler) {e : Error}
    (hfail : ∀ header, anteHandler (app.newContext header) tx = .fail e) (rs : Store δ)
    (elsewhere : Mounted keys → Contents) (blockProvider : Stub → Result Block)
    (order : List StoreKey) (rule : ReadRule) (t : Simulation) :
    app.runTxOn rs elsewhere blockProvider order rule t txBytes =
      (app.refused (blockProvider (t.stub rule)) tx e, t) := by
  have hrunAnte : ∀ header r ms, app.runAnte (app.newContext header) tx r ms = .err e := by
    intro header r ms
    rw [BaseApp.runAnte, hante]
    show ((anteHandler (app.newContext header) tx).exec _ newCache >>= _) = _
    rw [hfail]
    rfl
  simp only [BaseApp.runTxOn, BaseApp.runTx, BaseApp.refused, htx, Outcome.ofExcept,
    Outcome.ok_bind, hrunAnte]
  -- the two steps before the ante handler write nothing either
  cases getBlockHeader app.name (blockProvider (t.stub rule)) with
  | err e' => rfl
  | panic p => rfl
  | ok header =>
    simp only [Outcome.ok_bind]
    cases app.validateBasicTxMsgs (app.sdk.getMsgs tx) with
    | err e' => rfl
    | panic p => rfl
    | ok _ => rfl

theorem BaseApp.isOk_refused {I : Type} (app : BaseApp τ μ Γ I) (blockProvider : Result Block)
    (tx : τ) (e : Error) : (app.refused blockProvider tx e).isOk = false := by
  rw [BaseApp.refused]
  cases getBlockHeader app.name blockProvider with
  | err e' => rfl
  | panic p => rfl
  | ok header => cases app.validateBasicTxMsgs (app.sdk.getMsgs tx) <;> rfl

end RunTx

namespace auth

section Decorated

variable {μ τ ρ δ : Type} {keys : List StoreKey} {A : Accounts μ}

/-- **Only the submitter's own messages are executed.** Outside of a re-check the
decorator goes on to `next` exactly if the messages are the submitter's own, and
otherwise fails with one error `e` whatever `next` is. `RunTx` then fails, with `e` if
it comes to the ante handler, writes nothing, and ends the same way whatever the
handlers of the messages are. -/
theorem only_own_messages (hstring : Function.Injective A.string) (creator : Bytes)
    (msgs : List μ) :
    (∀ (I : Type) (getMsgs : τ → List μ) (tx : τ), getMsgs tx = msgs →
      ∀ ctx : Context ρ, ctx.Submits creator → ∀ simulate,
        (∀ next : AnteHandler I (Context ρ) τ,
          anteHandle A getMsgs ctx tx simulate next = next ctx tx simulate) ↔
        Authorised A creator msgs) ∧
    (¬ Authorised A creator msgs → ∃ e,
      (∀ (I : Type) (getMsgs : τ → List μ) (tx : τ), getMsgs tx = msgs →
        ∀ ctx : Context ρ, ctx.Submits creator → ∀ simulate,
        ∀ next : AnteHandler I (Context ρ) τ,
          anteHandle A getMsgs ctx tx simulate next = .fail e) ∧
      ∀ (app : BaseApp τ μ (Context ρ) (Mounted keys)) (txBytes : Bytes) (tx : τ),
        app.sdk.txDecoder txBytes = .ok tx → app.sdk.getMsgs tx = msgs →
      ∀ (rest : BlockHeader → ρ) (next : AnteHandler (Mounted keys) (Context ρ) τ) (rs : Store δ)
        (elsewhere : Mounted keys → Contents) (blockProvider : Stub → Result Block)
        (order : List StoreKey) (rule : ReadRule) (t : Simulation),
      ∃ outcome : Result TxResult, outcome.isOk = false ∧
        ((getBlockHeader app.name (blockProvider (t.stub rule))).isOk = true →
          app.validateBasicTxMsgs msgs = .ok () → outcome = .err e) ∧
        ∀ stub : ContextStub, stub.getCreator = .ok creator → ∀ msgServiceRouter router,
          let handled := { app with msgServiceRouter := msgServiceRouter, router := router }
          (decorated A handled stub rest next).runTxOn rs elsewhere blockProvider order rule t
            txBytes = (outcome, t)) := by
  have hrefuse : ∀ e, verifyCreator A creator msgs = .err e →
      ∀ (I : Type) (getMsgs : τ → List μ) (tx : τ), getMsgs tx = msgs →
      ∀ ctx : Context ρ, ctx.Submits creator → ∀ simulate (next : AnteHandler I (Context ρ) τ),
        anteHandle A getMsgs ctx tx simulate next = .fail e := by
    intro e he I getMsgs tx htx ctx hctx simulate next
    rw [anteHandle_eq hctx, htx, he]
    rfl
  refine ⟨?_, ?_⟩
  · -- the decorator by itself
    intro I getMsgs tx htx ctx hctx simulate
    constructor
    · intro hcalls
      by_contra h
      obtain ⟨e, he⟩ := exists_refusal hstring h
      -- a handler that fails does not do what a `next` that returns does
      have hfail := hrefuse e he I getMsgs tx htx ctx hctx simulate fun _ _ _ => .done none
      exact nomatch (hcalls _).symm.trans hfail
    · intro h next
      rw [anteHandle_eq hctx, htx, (verifyCreator_eq_ok_iff hstring creator msgs).mpr h]
      rfl
  · -- and in front of a transaction
    intro h
    obtain ⟨e, he⟩ := exists_refusal hstring h
    refine ⟨e, hrefuse e he, ?_⟩
    intro app txBytes tx hdecode htx rest next rs elsewhere blockProvider order rule t
    refine ⟨app.refused (blockProvider (t.stub rule)) tx e, app.isOk_refused _ tx e, ?_, ?_⟩
    · -- no step before the ante handler fails
      intro hheader hvalid
      obtain ⟨header, hheader⟩ := Outcome.isOk_iff.mp hheader
      rw [BaseApp.refused, hheader, htx, hvalid]
      rfl
    · intro stub hcreator msgServiceRouter router handled
      refine (decorated A handled stub rest next).runTx_of_refused hdecode rfl ?_ rs elsewhere
        blockProvider order rule t
      intro header
      exact hrefuse e he _ _ tx htx _ (submits_setupContext hcreator (rest header)) false
        next

end Decorated

/-! ## An application -/

section Sample

/-- A message is a byte, whose signer is the address of that byte alone. -/
def byteAccounts : Accounts UInt8 where
  sum256 creator := Vector.replicate 32 (creator.headD 0)
  string := id
  signers msg := [List.replicate 20 msg]

/-- The sample application, over contexts with a stub. -/
def contextApp : BaseApp Bytes UInt8 (Context Unit) (Mounted sampleKeys.all) where
  name := sampleApp.name
  sdk := sampleApp.sdk
  newContext _ := newContext ()
  anteHandler := none
  msgServiceRouter msg := (sampleApp.msgServiceRouter msg).map fun handler _ => handler ()
  router _ _ := none

/-- `sdk.Terminator`, the end of a chain of decorators. -/
def terminator {I τ ρ : Type} : AnteHandler I (Context ρ) τ := fun ctx _ _ => .done (some (ctx, []))

/-- The stub of a transaction of the creator, next to the record of a sequence. -/
def recordContextStub (creator : Bytes) : ContextStub :=
  SequenceManager.newDefault.contextStub { store.recordStub with creator := .ok creator }

/-- Of the creator `2`, two own messages pass; one of `3` stops the transaction. -/
theorem only_own_messages_byte :
    (∀ next : AnteHandler Unit (Context Unit) Bytes,
      anteHandle byteAccounts id (setupContext (newContext ()) (recordContextStub [2])) [2, 2]
        false next = next (setupContext (newContext ()) (recordContextStub [2])) [2, 2] false) ∧
    ∃ e, ∀ rs : Store Unit,
      (decorated byteAccounts contextApp (recordContextStub [2]) (fun _ => ())
        terminator).runTxOn rs (fun _ => ∅) (fun _ => .ok ⟨1, 0⟩) sampleKeys.all .committed
        (.begin store.recordStub) [2, 3] = (.err e, .begin store.recordStub) := by
  have hstring : Function.Injective byteAccounts.string := Function.injective_id
  have hown : Authorised byteAccounts [2] [2, 2] := ⟨⟨2, by decide, by decide⟩, by decide +kernel⟩
  have hother : ¬ Authorised byteAccounts [2] [2, 3] :=
    fun h => absurd (h.own 3 (by decide)) (by decide +kernel)
  constructor
  · exact ((@only_own_messages UInt8 Bytes Unit Unit sampleKeys.all _ hstring [2] [2, 2]).1 Unit id
      [2, 2] rfl _ (submits_setupContext rfl ()) false).mpr hown
  · obtain ⟨e, -, hrun⟩ := (only_own_messages (δ := Unit) hstring [2] [2, 3]).2 hother
    refine ⟨e, fun rs => ?_⟩
    obtain ⟨outcome, -, herr, hend⟩ := hrun contextApp [2, 3] [2, 3] rfl rfl (fun _ => ())
      terminator rs (fun _ => ∅) (fun _ => .ok ⟨1, 0⟩) sampleKeys.all .committed
      (.begin store.recordStub)
    rw [← herr rfl rfl]
    exact hend (recordContextStub [2]) rfl contextApp.msgServiceRouter contextApp.router

end Sample

end auth

end FabricIBC
