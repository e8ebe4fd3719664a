import FabricIBC.App.Definitions
import FabricIBC.Store.Isolation

/-!
# Fabric-IBC — application: atomicity

What `RunTx` is for (`reference`): the ante handler and then the messages act on a
private copy of the stores, which replaces the stores if all of them succeed.

* `reference_eq` — a transaction in its three layers of caches does what it does
  on the copy;
* `shows_baseReader`, `flush_cache` — below the caches are the stores of the world
  state, and the last `Write` brings the copy there;
* `BaseApp.runTx_atomic` — the whole of `RunTx`, from any world state.
-/

namespace FabricIBC

open Go
open store (StoreKey Store CommitKVStore Holds Mounts Separate)
open Reference (Change Contents report)
open Cache (Shows views)

/-! ## The reference -/

/-- A message that was handled. -/
structure Handled (μ : Type) where
  msg : μ
  name : Bytes
  res : MsgResult

/-- The action event and the events of the handler. -/
def Handled.events {μ : Type} (h : Handled μ) : List Event := actionEvent h.name :: h.res.events

namespace BaseApp

variable {τ μ Γ I : Type} (app : BaseApp τ μ Γ I)

/-- One entry of the result data. -/
def entry (h : Handled μ) : MsgData := ⟨app.sdk.msgTypeURL h.msg, h.res.data⟩

/-- The logs of messages from number `i` on. -/
def logsFrom (i : Nat) (handled : List (Handled μ)) : List MsgLog :=
  (handled.zipIdx i).map fun h => ⟨h.2, h.1.res.log, h.1.events⟩

/-- What `runMsgs` gathers from messages that were handled. -/
def gather (acc : Gathered) (i : Nat) (handled : List (Handled μ)) : Gathered where
  events := acc.events ++ handled.flatMap Handled.events
  data := acc.data ++ handled.map app.entry
  logs := acc.logs ++ logsFrom i handled

theorem gather_cons (acc : Gathered) (i : Nat) (h : Handled μ) (handled : List (Handled μ)) :
    app.gather (acc.add i (app.sdk.msgTypeURL h.msg) h.name h.res) (i + 1) handled =
      app.gather acc i (h :: handled) := by
  simp [gather, Gathered.add, logsFrom, entry, Handled.events]

/-- The result of messages that were handled. -/
theorem result_gather (handled : List (Handled μ)) :
    app.result (app.gather ⟨[], [], []⟩ 0 handled) = (do
      let data ← Outcome.mapErr (fun e => .wrapf e (.new "failed to marshal tx data"))
        (Outcome.ofExcept (app.sdk.marshal (handled.map app.entry)))
      .ok ⟨data, app.sdk.logText (logsFrom 0 handled), handled.flatMap Handled.events⟩) := by
  simp [result, gather]

variable [DecidableEq I]

/-- The messages in their order, directly on the stores. -/
def handleAll (ctx : Γ) : List μ → (i : Nat) → (I → Contents) →
    Result (List (Handled μ) × (I → Contents))
  | [], _, M => .ok ([], M)
  | msg :: msgs, i, M => do
    let handler ← app.route ctx i msg
    let res ← Outcome.mapErr (failed i) (handler.1.run M)
    let rest ← handleAll ctx msgs (i + 1) res.2
    .ok (⟨msg, handler.2, res.1⟩ :: rest.1, rest.2)

/-- The ante handler, directly on the stores. -/
def anteOn (ctx : Γ) (tx : τ) (M : I → Contents) : Result ((Γ × List Event) × (I → Contents)) :=
  match app.anteHandler with
  | none => .ok ((ctx, []), M)
  | some anteHandler => do
    let res ← (anteHandler ctx tx).run M
    .ok (res.1.getD (ctx, []), res.2)

/-- A transaction on a private copy of the stores. -/
def reference (blockProvider : Result Block) (txBytes : Bytes) (M : I → Contents) :
    Result (TxResult × (I → Contents)) := do
  let tx ← Outcome.ofExcept (app.sdk.txDecoder txBytes)
  let header ← getBlockHeader app.name blockProvider
  app.validateBasicTxMsgs (app.sdk.getMsgs tx)
  let ante ← app.anteOn (app.newContext header) tx M
  let handled ← app.handleAll ante.1.1 (app.sdk.getMsgs tx) 0 ante.2
  let data ← Outcome.mapErr (fun e => .wrapf e (.new "failed to marshal tx data"))
    (Outcome.ofExcept (app.sdk.marshal (handled.1.map app.entry)))
  .ok (⟨data, app.sdk.logText (logsFrom 0 handled.1),
    ante.1.2 ++ handled.1.flatMap Handled.events⟩, handled.2)

theorem handleAll_msgs {ctx : Γ} {msgs : List μ} {i : Nat} {M M' : I → Contents}
    {handled : List (Handled μ)} (h : app.handleAll ctx msgs i M = .ok (handled, M')) :
    handled.map Handled.msg = msgs := by
  induction msgs generalizing i M handled with
  | nil =>
    cases h
    rfl
  | cons msg msgs ih =>
    rw [handleAll] at h
    obtain ⟨handler, -, h⟩ := Outcome.bind_eq_ok_iff.mp h
    obtain ⟨res, -, h⟩ := Outcome.bind_eq_ok_iff.mp h
    obtain ⟨rest, hrest, h⟩ := Outcome.bind_eq_ok_iff.mp h
    cases h
    exact congrArg (msg :: ·) (ih hrest)

/-- A transaction that succeeds: the ante handler and every message do, the data
has an entry for each message, and the events are those of the ante handler and
then, message by message, the action and what the handler emits. -/
structure Succeeds (blockProvider : Result Block) (txBytes : Bytes) (M M' : I → Contents)
    (res : TxResult) (tx : τ) (header : BlockHeader) (ante : (Γ × List Event) × (I → Contents))
    (handled : List (Handled μ)) : Prop where
  decoded : app.sdk.txDecoder txBytes = .ok tx
  block : getBlockHeader app.name blockProvider = .ok header
  valid : app.validateBasicTxMsgs (app.sdk.getMsgs tx) = .ok ()
  authorised : app.anteOn (app.newContext header) tx M = .ok ante
  messages : app.handleAll ante.1.1 (app.sdk.getMsgs tx) 0 ante.2 = .ok (handled, M')
  order : handled.map Handled.msg = app.sdk.getMsgs tx
  data : app.sdk.marshal (handled.map app.entry) = .ok res.data
  log : res.log = app.sdk.logText (logsFrom 0 handled)
  events : res.events = ante.1.2 ++ handled.flatMap Handled.events

theorem reference_ok {blockProvider : Result Block} {txBytes : Bytes} {M M' : I → Contents}
    {res : TxResult} (h : app.reference blockProvider txBytes M = .ok (res, M')) :
    ∃ tx header ante handled,
      app.Succeeds blockProvider txBytes M M' res tx header ante handled := by
  rw [reference] at h
  obtain ⟨tx, htx, h⟩ := Outcome.bind_eq_ok_iff.mp h
  obtain ⟨header, hheader, h⟩ := Outcome.bind_eq_ok_iff.mp h
  obtain ⟨_, hvalid, h⟩ := Outcome.bind_eq_ok_iff.mp h
  obtain ⟨ante, hante, h⟩ := Outcome.bind_eq_ok_iff.mp h
  obtain ⟨⟨handled, M''⟩, hhandled, h⟩ := Outcome.bind_eq_ok_iff.mp h
  obtain ⟨data, hdata, h⟩ := Outcome.bind_eq_ok_iff.mp h
  cases h
  refine ⟨tx, header, ante, handled, ?_⟩
  exact
    { decoded := Outcome.ofExcept_eq_ok_iff.mp htx
      block := hheader
      valid := hvalid
      authorised := hante
      messages := hhandled
      order := app.handleAll_msgs hhandled
      data := Outcome.ofExcept_eq_ok_iff.mp (Outcome.mapErr_eq_ok_iff.mp hdata)
      log := rfl
      events := rfl }

/-! ## Caches -/

variable {r : Cache.Reader I Key Bytes Error} {M : I → Contents}

/-- The loop over the messages in a cache does what it does on the stores. -/
theorem runMsgsLoop_eq (h : Shows r M) (ctx : Γ) (msgs : List μ) (i : Nat) (acc : Gathered)
    (msCache : CacheMultiStore I) :
    (do
      let done ← app.runMsgsLoop ctx r msgs i acc msCache
      .ok (done.1, views M done.2)) = (do
      let handled ← app.handleAll ctx msgs i (views M msCache)
      (.ok (app.gather acc i handled.1, handled.2) : Result _)) := by
  -- message by message: what the cache shows is what the copy of the stores is by then
  induction msgs generalizing i acc msCache with
  | nil => simp [runMsgsLoop, handleAll, gather, logsFrom]
  | cons msg msgs ih =>
    rw [runMsgsLoop, handleAll, Outcome.bind_bind, Outcome.bind_bind]
    refine bind_congr fun handler => ?_
    rw [Cache.Program.run_views h handler.1 msCache, Outcome.mapErr_bind_ok, Outcome.bind_bind,
      Outcome.bind_bind, Outcome.bind_bind]
    refine bind_congr fun res => ?_
    rw [ih, Outcome.ok_bind, Outcome.bind_bind]
    refine bind_congr fun rest => ?_
    -- one more message on either side of what is gathered
    exact congrArg (fun g => Outcome.ok (g, rest.2))
      (app.gather_cons acc i ⟨msg, handler.2, res.1⟩ rest.1)

theorem anteOn_eq (h : Shows r M) (ctx : Γ) (tx : τ) (ms : CacheMultiStore I) :
    app.anteOn ctx tx (views M ms) = (do
      let ante ← app.runAnte ctx tx r ms
      .ok (ante.1, views M ante.2)) := by
  rw [anteOn, runAnte]
  cases app.anteHandler with
  | none => rfl
  | some anteHandler =>
    have hrun := Cache.Program.run_views (h.cached ms) (anteHandler ctx tx) newCache
    have hfresh : views (views M ms) newCache = views M ms := Cache.views_empty _
    rw [hfresh] at hrun
    show (do
      let res ← (anteHandler ctx tx).run (views M ms)
      (.ok (res.1.getD (ctx, []), res.2) : Result _)) = (do
      let res ← (anteHandler ctx tx).exec (r.cached ms) newCache
      (.ok (res.1.getD (ctx, []), CacheMultiStore.write res.2 ms) : Result _)) >>= _
    rw [hrun, Outcome.bind_bind, Outcome.bind_bind]
    refine bind_congr fun res => ?_
    -- the cache of the handler over `ms` is written into `ms`
    exact congrArg (fun V => Outcome.ok (res.1.getD (ctx, []), V))
      (Cache.views_writeBack M ms res.2).symm

theorem runMsgs_eq (h : Shows r M) (ctx : Γ) (msgs : List μ) :
    (do
      let res ← app.runMsgs ctx r msgs
      .ok (res.1, views M res.2)) = (do
      let handled ← app.handleAll ctx msgs 0 M
      let result ← app.result (app.gather ⟨[], [], []⟩ 0 handled.1)
      (.ok (result, handled.2) : Result _)) := by
  have hloop := app.runMsgsLoop_eq h ctx msgs 0 ⟨[], [], []⟩ newCache
  have hfresh : views M newCache = M := Cache.views_empty M
  rw [hfresh] at hloop
  calc (do
      let res ← app.runMsgs ctx r msgs
      (.ok (res.1, views M res.2) : Result _))
    _ = (do
      let done ← (do
        let done ← app.runMsgsLoop ctx r msgs 0 ⟨[], [], []⟩ newCache
        (.ok (done.1, views M done.2) : Result _))
      let result ← app.result done.1
      (.ok (result, done.2) : Result _)) := by
        rw [runMsgs, Outcome.bind_bind, Outcome.bind_bind]
        exact bind_congr fun done => Outcome.bind_bind _ _ _
    _ = _ := by
        rw [hloop, Outcome.bind_bind]
        rfl

/-- `runMsgs` with the events of the ante handler in front. -/
theorem runMsgs_events (h : Shows r M) (ctx : Γ) (msgs : List μ) (events : List Event) :
    (do
      let res ← app.runMsgs ctx r msgs
      .ok ({ res.1 with events := events ++ res.1.events }, views M res.2)) = (do
      let handled ← app.handleAll ctx msgs 0 M
      let data ← Outcome.mapErr (fun e => .wrapf e (.new "failed to marshal tx data"))
        (Outcome.ofExcept (app.sdk.marshal (handled.1.map app.entry)))
      (.ok (⟨data, app.sdk.logText (logsFrom 0 handled.1),
        events ++ handled.1.flatMap Handled.events⟩, handled.2) : Result _)) := by
  have hmsgs := congrArg (fun x : Result (TxResult × (I → Contents)) => x >>= fun res =>
    (.ok ({ res.1 with events := events ++ res.1.events }, res.2) : Result _))
    (app.runMsgs_eq h ctx msgs)
  simp only [result_gather, Outcome.bind_bind, Outcome.ok_bind] at hmsgs
  exact hmsgs

theorem prepend_events (events : List Event) (res : TxResult) :
    (if events.length > 0 then { res with events := events ++ res.events } else res) =
      { res with events := events ++ res.events } := by
  cases events <;> rfl

/-- **A transaction in its caches does what it does on a private copy.** -/
theorem reference_eq (h : Shows r M) (blockProvider : Result Block) (txBytes : Bytes) :
    app.reference blockProvider txBytes M = (do
      let res ← app.runTx blockProvider txBytes r
      .ok (res.1, views M res.2)) := by
  rw [reference, runTx]
  simp only [Outcome.bind_bind]
  refine bind_congr fun tx => bind_congr fun header => bind_congr fun _ => ?_
  have hante := app.anteOn_eq h (app.newContext header) tx newCache
  have hfresh : views M newCache = M := Cache.views_empty M
  rw [hfresh] at hante
  rw [hante, Outcome.bind_bind]
  refine bind_congr fun ante => ?_
  rw [Outcome.ok_bind, ← app.runMsgs_events (h.cached ante.2)]
  refine bind_congr fun res => ?_
  rw [Outcome.ok_bind, prepend_events]
  -- the cache of the messages over `ms` is written into `ms`
  exact congrArg (fun V => Outcome.ok (_, V)) (Cache.views_writeBack M ante.2 res.2).symm

end BaseApp

/-! ## World states -/

section World

variable {δ : Type} {rs : Store δ} {keys others : List StoreKey} {D : Bytes → Option Bytes}

/-- Contents of the mounted stores, by key. -/
def spread {keys : List StoreKey} (M : Mounted keys → Contents) (key : StoreKey) : Contents :=
  if h : key ∈ keys then M ⟨key, h⟩ else ∅

theorem spread_val {keys : List StoreKey} (M : Mounted keys → Contents) (key : Mounted keys) :
    spread M key.1 = M key := dif_pos key.2

theorem keyed_listing (m : Contents) (lo hi : Option Key) :
    keyed (Reference.listing m lo hi) = OrderedMap.range m lo hi := by
  have hkey : ∀ kv : Key × Bytes, (if h : kv.1.bytes = [] then none
      else some ((⟨kv.1.bytes, h⟩ : Key), kv.2)) = some kv := fun kv => dif_neg kv.1.nonempty
  rw [keyed, Reference.listing, List.filterMap_map]
  show (OrderedMap.range m lo hi).filterMap (fun kv : Key × Bytes =>
      if h : kv.1.bytes = [] then none else some ((⟨kv.1.bytes, h⟩ : Key), kv.2)) = _
  rw [funext hkey]
  exact List.filterMap_some

/-- A store elsewhere is read from its contents. -/
theorem read_elsewhere {s : CommitKVStore δ} (hs : ∀ pfx, s ≠ .adapter none pfx) (stub : Stub)
    (m : Contents) :
    (∀ k, s.get stub m k = .ok m[k]?) ∧
    ∀ dir lo hi, s.list stub m dir lo hi = .ok (dir.arrange (OrderedMap.range m lo hi)) := by
  cases s with
  | adapter db pfx =>
    cases db with
    | none => exact absurd rfl (hs pfx)
    | some db => exact ⟨fun _ => rfl, fun _ _ _ => rfl⟩
  | transient => exact ⟨fun _ => rfl, fun _ _ _ => rfl⟩
  | mem => exact ⟨fun _ => rfl, fun _ _ _ => rfl⟩

/-- **The stores below the caches show the contents of the world state.** -/
theorem shows_baseReader (hrs : Mounts rs keys others) (hsep : Separate keys)
    {M : Mounted (keys ++ others) → Contents} {stub : Stub}
    (h : Holds keys (spread M) D stub.state) : Shows (baseReader rs M stub) M where
  get key k := by
    show (rs.getKVStore key.1 >>= fun s => s.get stub (M key) k) = _
    -- a store of the common database reads the world state, the others their contents
    rcases List.mem_append.mp key.2 with hkey | hother
    · rw [hrs.common key.1 hkey, Outcome.ok_bind]
      show store.orPanic _ = _
      rw [h.get_eq hkey, Reference.key_bytes, spread_val]
      rfl
    · obtain ⟨s, hs, hne⟩ := hrs.elsewhere key.1 hother
      rw [hs, Outcome.ok_bind]
      exact (read_elsewhere hne stub (M key)).1 k
  list key dir lo hi := by
    show (rs.getKVStore key.1 >>= fun s => s.list stub (M key) dir lo hi) = _
    rcases List.mem_append.mp key.2 with hkey | hother
    · rw [hrs.common key.1 hkey, Outcome.ok_bind]
      cases dir with
      | ascending =>
        show store.orPanic (store.PrefixDB.iterator _ _ _ _) >>= _ = _
        rw [h.iterator_eq hsep hkey, Reference.entries_map_bytes, spread_val]
        exact congrArg Outcome.ok (keyed_listing (M key) lo hi)
      | descending =>
        show store.orPanic (store.PrefixDB.reverseIterator _ _ _ _) >>= _ = _
        rw [h.reverseIterator_eq hsep hkey, Reference.entries_map_bytes, spread_val]
        show Outcome.ok (keyed (Reference.listing (M key) lo hi).reverse) = _
        rw [keyed, List.filterMap_reverse, ← keyed, keyed_listing]
        rfl
    · obtain ⟨s, hs, hne⟩ := hrs.elsewhere key.1 hother
      rw [hs, Outcome.ok_bind]
      exact (read_elsewhere hne stub (M key)).2 dir lo hi

/-- The calls of a cache that is written amount to its pending writes. -/
theorem foldl_pendingChange (m : Contents) (p : Cache.Pending Key Bytes) :
    (p.toList.map pendingChange).foldl Change.apply m = Cache.view m p := by
  have hput : ∀ (m : Contents) (w : Key × Option Bytes),
      Change.apply m (pendingChange w) = Cache.put m w := by
    intro m w
    cases hw : w.2 <;> simp [pendingChange, Cache.put, hw, Change.apply]
  rw [List.foldl_map, Cache.view]
  exact congrArg (fun f => p.toList.foldl f m) (funext fun m => funext fun w => hput m w)

/-- **The last `Write`**: the world state holds what was seen through the cache. -/
theorem flush_cache (hrs : Mounts rs keys others) (hsep : Separate keys)
    {M : Mounted (keys ++ others) → Contents} {ws : WorldState} (h : Holds keys (spread M) D ws)
    (ms : CacheMultiStore (Mounted (keys ++ others))) {order : List StoreKey}
    (horder : order.Perm (keys ++ others)) (hnodup : order.Nodup) :
    ∃ writes, rs.flush (fun key => (pendingChanges ms key).map Change.command) order = .ok writes ∧
      Holds keys (spread (views M ms)) D (applyWrites ws writes) := by
  obtain ⟨writes, hwrites, hws⟩ := h.flush_all hrs hsep (pendingChanges ms) order horder hnodup
  refine ⟨writes, hwrites, hws.congr ?_⟩
  intro key hkey
  have hmem : key ∈ keys ++ others := List.mem_append_left _ hkey
  rw [pendingChanges, dif_pos hmem, spread, dif_pos hmem, spread, dif_pos hmem]
  exact foldl_pendingChange _ _

/-- The start of a transaction: nothing is written yet. -/
def Simulation.begin (stub : Stub) : Simulation := ⟨stub, []⟩

theorem Simulation.stub_begin (stub : Stub) (rule : ReadRule) :
    (Simulation.begin stub).stub rule = stub := by
  cases rule <;> rfl

/-- What `RunTx` does with the outcome of the reference. -/
theorem BaseApp.runTxOn_eq {τ μ Γ : Type} (app : BaseApp τ μ Γ (Mounted (keys ++ others)))
    (hrs : Mounts rs keys others) (hsep : Separate keys)
    {M : Mounted (keys ++ others) → Contents} {stub : Stub} (h : Holds keys (spread M) D stub.state)
    {order : List StoreKey} (horder : order.Perm (keys ++ others)) (hnodup : order.Nodup)
    (blockProvider : Stub → Result Block) (rule : ReadRule) (txBytes : Bytes) :
    (∀ res M', app.reference (blockProvider stub) txBytes M = .ok (res, M') →
      ∃ t, app.runTxOn rs M blockProvider order rule (.begin stub) txBytes = (.ok res, t) ∧
        Holds keys (spread M') D t.state) ∧
    (∀ e, app.reference (blockProvider stub) txBytes M = .err e →
      app.runTxOn rs M blockProvider order rule (.begin stub) txBytes = (.err e, .begin stub)) ∧
    ∀ p, app.reference (blockProvider stub) txBytes M = .panic p →
      app.runTxOn rs M blockProvider order rule (.begin stub) txBytes =
        (.panic p, .begin stub) := by
  have hreference := app.reference_eq (shows_baseReader hrs hsep h) (blockProvider stub) txBytes
  -- nothing was written yet, so either rule of reading shows the committed state
  rw [BaseApp.runTxOn, Simulation.stub_begin]
  cases hrun : app.runTx (blockProvider stub) txBytes (baseReader rs M stub) with
  | err e =>
    rw [hrun, Outcome.err_bind] at hreference
    rw [hreference]
    exact ⟨nofun, by rintro _ ⟨⟩; rfl, nofun⟩
  | panic p =>
    rw [hrun, Outcome.panic_bind] at hreference
    rw [hreference]
    exact ⟨nofun, nofun, by rintro _ ⟨⟩; rfl⟩
  | ok res =>
    rw [hrun, Outcome.ok_bind] at hreference
    obtain ⟨writes, hflush, hws⟩ := flush_cache hrs hsep h res.2 horder hnodup
    rw [hreference]
    refine ⟨?_, nofun, nofun⟩
    rintro _ _ ⟨⟩
    simp only [hflush]
    exact ⟨_, rfl, hws⟩

/-- **`RunTx` is atomic.** The stores of the application load, and from every
world state that holds contents `M` of them a transaction has the outcome it has
on a private copy of `M`: an error or a panic leaves no write behind, and after a
success the world state holds the copy. It does not matter whether reads see the
writes of the transaction. -/
theorem BaseApp.runTx_atomic {τ μ Γ : Type} (K : store.StoreKeys)
    (app : BaseApp τ μ Γ (Mounted K.all)) :
    ∃ rs : Store δ, K.openStores = .ok rs ∧
    ∀ (M : Mounted K.all → Contents) (D : Bytes → Option Bytes) (stub : Stub),
      Holds K.kv (spread M) D stub.state →
    ∀ (blockProvider : Stub → Result Block) (order : List StoreKey), order.Perm K.all →
    ∀ txBytes : Bytes,
      (∀ rule,
        (∀ res M', app.reference (blockProvider stub) txBytes M = .ok (res, M') →
          (∃ tx header ante handled,
            app.Succeeds (blockProvider stub) txBytes M M' res tx header ante handled) ∧
          ∃ t, app.runTxOn rs M blockProvider order rule (.begin stub) txBytes = (.ok res, t) ∧
            Holds K.kv (spread M') D t.state) ∧
        (∀ e, app.reference (blockProvider stub) txBytes M = .err e →
          app.runTxOn rs M blockProvider order rule (.begin stub) txBytes =
            (.err e, .begin stub)) ∧
        ∀ p, app.reference (blockProvider stub) txBytes M = .panic p →
          app.runTxOn rs M blockProvider order rule (.begin stub) txBytes =
            (.panic p, .begin stub)) ∧
      app.runTxOn rs M blockProvider order .committed (.begin stub) txBytes =
        app.runTxOn rs M blockProvider order .ownWrites (.begin stub) txBytes := by
  obtain ⟨rs, hopen, hrs⟩ := K.exists_mounts (δ := δ)
  refine ⟨rs, hopen, ?_⟩
  intro M D stub h blockProvider order horder txBytes
  constructor
  · intro rule
    obtain ⟨hok, hfail⟩ := app.runTxOn_eq hrs K.separate h horder (horder.nodup_iff.mpr K.nodup)
      blockProvider rule txBytes
    exact ⟨fun res M' hres => ⟨app.reference_ok hres, hok res M' hres⟩, hfail⟩
  · rw [BaseApp.runTxOn, BaseApp.runTxOn, Simulation.stub_begin, Simulation.stub_begin]

end World

/-! ## An application -/

section Sample

open store (ibcKey bankKey recordStub)

def sampleKeys : store.StoreKeys where
  kv := [ibcKey, bankKey]
  transient := []
  memory := [⟨2, .memory, str "mem_capability"⟩]
  kv_kind := by decide
  transient_kind := by decide
  memory_kind := by decide
  names := by decide
  noSlash := by decide

/-- A message is a byte that `bank` stores; zero is refused. The ante handler
writes to `ibc`. -/
def sampleApp : BaseApp Bytes UInt8 Unit (Mounted sampleKeys.all) where
  name := str "fabric"
  sdk :=
    { txDecoder := .ok
      getMsgs := id
      validateBasic := fun _ => .ok ()
      msgTypeURL := fun m => [m]
      legacy := fun _ => none
      print := fun m => [m]
      marshal := fun entries => .ok (entries.flatMap MsgData.data)
      logText := fun _ => [] }
  newContext _ := ()
  anteHandler := some fun _ _ =>
    .set ⟨ibcKey, by decide⟩ ⟨[1], by decide⟩ [7] (.done (some ((), [⟨str "ante", []⟩])))
  msgServiceRouter m := some fun _ _ =>
    if m = 0 then .fail (.new "zero")
    else .set ⟨bankKey, by decide⟩ ⟨[m], List.cons_ne_nil _ _⟩ [m] (.done ⟨[m], [], []⟩)
  router _ _ := none

/-- The second of two messages fails, or both succeed. -/
theorem runTx_atomic_sample :
    ∃ rs : Store Unit,
      sampleApp.runTxOn rs (fun _ => ∅) (fun _ => .ok ⟨1, 0⟩) sampleKeys.all .committed
        (.begin recordStub) [2, 0] = (.err (BaseApp.failed 1 (.new "zero")), .begin recordStub) ∧
      (sampleApp.runTxOn rs (fun _ => ∅) (fun _ => .ok ⟨1, 0⟩) sampleKeys.all .committed
        (.begin recordStub) [2, 3]).1 =
        .ok ⟨[2, 3], [], [⟨str "ante", []⟩, actionEvent [2], actionEvent [3]]⟩ := by
  obtain ⟨rs, -, hrs⟩ := BaseApp.runTx_atomic (δ := Unit) sampleKeys sampleApp
  have hrecord := makeCurrentSequenceKey_recordKey host.storeKey
  have hstate := store.holds_record (store.directKey_of_recordKey sampleKeys.kv hrecord) [1]
  have hempty : Holds sampleKeys.kv (spread fun _ : Mounted sampleKeys.all => ∅) _
      recordStub.state := hstate.congr fun key _ => by simp [spread]
  have hrun := hrs _ _ recordStub hempty (fun _ => .ok ⟨1, 0⟩) sampleKeys.all (List.Perm.refl _)
  refine ⟨rs, ((hrun [2, 0]).1 .committed).2.1 _ rfl, ?_⟩
  obtain ⟨-, t, ht, -⟩ := ((hrun [2, 3]).1 .committed).1 _ _ rfl
  exact congrArg Prod.fst ht

end Sample

end FabricIBC
