import FabricIBC.App.Ante
import FabricIBC.Chaincode.Sample
import FabricIBC.Ledger.Definitions

/-!
# Fabric-IBC — ledger: refinement

The chaincode on the world state does what the ledger says.

* `Location`, `Mirrors` — what every key of the world state stands for; the
  ledger determines the world state (`Mirrors.ext`);
* `Mirrors.flush`, `.advance`, `.endorse`, `.keep` — the four kinds of writes;
* `newIBCApp_rel`, `initChain_rel`, `runTx_rel` — the application in its caches
  and the application on maps;
* `chaincode_refines_ledger` — every run of transactions, with every reply and
  every failure.
-/

namespace FabricIBC

open Go
open store (StoreKey Store CommitKVStore Holds Mounts Separate stateKey)
open Reference (Change Contents)
open Cache (Shows views)

/-! ## Locations -/

/-- The places of a ledger. -/
inductive Location (K : store.StoreKeys)
  | pair (key : Mounted K.kv) (k : Key)
  | current
  | sequence (n : UInt64)
  | commitment (id : EntryID)
  | packet (rest : Bytes)

namespace Location

variable {K : store.StoreKeys} (m : SequenceManager)

/-- The key of the world state. -/
def bytes : Location K → Bytes
  | pair key k => stateKey key.1.name k
  | current => makeCurrentSequenceKey m.pfx
  | sequence n => makeSequenceKey m.pfx n
  | commitment id => id.key host.storeKey
  | packet rest => slash :: rest

/-- Everything but the pairs of the stores. -/
def Outside : Location K → Prop
  | pair .. => False
  | _ => True

variable {m}

theorem directKey {loc : Location K} (h : loc.Outside) : store.DirectKey K.kv (loc.bytes m) := by
  cases loc with
  | pair key k => exact h.elim
  | current => exact store.directKey_of_recordKey _ (makeCurrentSequenceKey_recordKey m.pfx)
  | sequence n => exact store.directKey_of_recordKey _ (makeSequenceKey_recordKey m.pfx n)
  | commitment id => exact store.directKey_of_recordKey _ (id.recordKey host.storeKey)
  | packet rest => exact store.directKey_slash_cons _ rest

theorem eq_pair {loc : Location K} {bz : Bytes} (h : loc.bytes m = hexEncode bz) :
    ∃ key k, loc = pair key k := by
  cases loc with
  | pair key k => exact ⟨key, k, rfl⟩
  | current => exact absurd h ((makeCurrentSequenceKey_recordKey m.pfx).ne_hexEncode bz)
  | sequence n => exact absurd h ((makeSequenceKey_recordKey m.pfx n).ne_hexEncode bz)
  | commitment id => exact absurd h ((id.recordKey host.storeKey).ne_hexEncode bz)
  | packet rest =>
    have hkey : slash :: rest = hexEncode bz := h
    exact absurd (hkey ▸ List.mem_cons_self) (slash_notMem_hexEncode bz)

theorem eq_current {loc : Location K} (h : loc.bytes m = makeCurrentSequenceKey m.pfx) :
    loc = current := by
  have hrecord := makeCurrentSequenceKey_recordKey m.pfx
  cases loc with
  | pair key k => exact absurd h.symm (hrecord.ne_hexEncode _)
  | current => rfl
  | sequence n => exact absurd h.symm (current_ne_sequence m.pfx m.pfx n)
  | commitment id => exact absurd h (id.key_ne_current _ _)
  | packet rest => exact absurd h.symm (hrecord.ne_slash_cons rest)

theorem eq_sequence {loc : Location K} {n : UInt64} (h : loc.bytes m = makeSequenceKey m.pfx n) :
    loc = sequence n := by
  have hrecord := makeSequenceKey_recordKey m.pfx n
  cases loc with
  | pair key k => exact absurd h.symm (hrecord.ne_hexEncode _)
  | current => exact absurd h (current_ne_sequence m.pfx m.pfx n)
  | sequence n' => rw [makeSequenceKey_inj h]
  | commitment id => exact absurd h (id.key_ne_sequence _ _ n)
  | packet rest => exact absurd h.symm (hrecord.ne_slash_cons rest)

/-- Identifiers with separators in them may share an entry. -/
theorem eq_commitment {loc : Location K} {id : EntryID} (h : loc.bytes m = id.key host.storeKey) :
    ∃ id', loc = commitment id' := by
  have hrecord := id.recordKey host.storeKey
  cases loc with
  | pair key k => exact absurd h.symm (hrecord.ne_hexEncode _)
  | current => exact absurd h.symm (id.key_ne_current _ _)
  | sequence n => exact absurd h.symm (id.key_ne_sequence _ _ n)
  | commitment id' => exact ⟨id', rfl⟩
  | packet rest => exact absurd h.symm (hrecord.ne_slash_cons rest)

theorem eq_packet {loc : Location K} {rest : Bytes} (h : loc.bytes m = slash :: rest) :
    loc = packet rest := by
  cases loc with
  | pair key k =>
    have hkey : stateKey key.1.name k = slash :: rest := h
    exact absurd (hkey ▸ List.mem_cons_self) (slash_notMem_hexEncode _)
  | current => exact absurd h ((makeCurrentSequenceKey_recordKey m.pfx).ne_slash_cons rest)
  | sequence n => exact absurd h ((makeSequenceKey_recordKey m.pfx n).ne_slash_cons rest)
  | commitment id => exact absurd h ((id.recordKey host.storeKey).ne_slash_cons rest)
  | packet rest' => rw [(List.cons.inj h).2]

end Location

/-! ## World states -/

section World

variable {K : store.StoreKeys} {m : SequenceManager} {L : Ledger K} {ws : WorldState}

/-- What the ledger has at a place, as it is stored. -/
def Ledger.read (L : Ledger K) : Location K → Option Bytes
  | .pair key k => (L.stores key)[k]?
  | .current => L.current.map Sequence.bytes
  | .sequence n => (L.sequences n).map Sequence.bytes
  | .commitment id => L.commitments (id.key host.storeKey)
  | .packet rest => L.packets (slash :: rest)

/-- The world state holds the ledger and nothing else. -/
structure Mirrors (m : SequenceManager) (L : Ledger K) (ws : WorldState) : Prop where
  read : ∀ loc : Location K, ws[loc.bytes m]? = L.read loc
  known : ∀ x v, ws[x]? = some v → ∃ loc : Location K, x = loc.bytes m

theorem mirrors_empty (m : SequenceManager) (K : store.StoreKeys) :
    Mirrors m (Ledger.empty K) ∅ where
  read loc := by cases loc <;> simp [Ledger.empty, Ledger.read]
  known x v hx := by simp at hx

namespace Mirrors

/-- **The ledger determines the world state.** -/
theorem ext {ws' : WorldState} (h : Mirrors m L ws) (h' : Mirrors m L ws') : ws = ws' := by
  have hsome : ∀ {ws ws' : WorldState}, Mirrors m L ws → Mirrors m L ws' →
      ∀ {x v : Bytes}, ws[x]? = some v → ws'[x]? = some v := by
    intro ws ws' h h' x v hx
    obtain ⟨loc, rfl⟩ := h.known x v hx
    rw [h'.read, ← h.read, hx]
  apply Std.ExtTreeMap.ext_getElem?
  intro x
  exact Option.ext fun v => ⟨hsome h h', hsome h' h⟩

/-- One write, at a place of the ledger. -/
theorem write {L' : Ledger K} (h : Mirrors m L ws) (w : Write) (loc₀ : Location K)
    (hkey : loc₀.bytes m = w.key)
    (hat : ∀ loc : Location K, loc.bytes m = w.key → (w.apply ws)[w.key]? = L'.read loc)
    (hframe : ∀ loc : Location K, loc.bytes m ≠ w.key → L'.read loc = L.read loc) :
    Mirrors m L' (w.apply ws) where
  read loc := by
    by_cases hloc : loc.bytes m = w.key
    · rw [hloc, hat loc hloc]
    · rw [getElem?_apply_of_ne (Ne.symm hloc), hframe loc hloc, h.read]
  known x v hx := by
    by_cases hw : w.key = x
    · exact ⟨loc₀, by rw [hkey, hw]⟩
    · exact h.known x v ((getElem?_apply_of_ne hw).symm.trans hx)

/-- The two records of a sequence. -/
theorem advance (h : Mirrors m L ws) (seq : Sequence) :
    Mirrors m (L.advance seq) (applyWrites ws (m.putSequence seq)) := by
  -- the pointer first, then the numbered record
  have hpointer : Mirrors m { L with current := some seq }
      (Write.apply ws (.put (makeCurrentSequenceKey m.pfx) seq.bytes)) := by
    refine h.write (.put _ _) .current rfl (fun loc hloc => ?_) fun loc hloc => ?_
    · rw [Location.eq_current hloc]
      exact getElem?_apply_self _ _ _
    · cases loc with
      | current => exact absurd rfl hloc
      | _ => rfl
  refine hpointer.write (.put _ _) (.sequence seq.value) rfl (fun loc hloc => ?_)
    fun loc hloc => ?_
  · rw [Location.eq_sequence hloc]
    show _ = Option.map Sequence.bytes (Function.update L.sequences seq.value (some seq) seq.value)
    rw [Function.update_self]
    exact getElem?_apply_self _ _ _
  · cases loc with
    | sequence n =>
      have hn : n ≠ seq.value := fun hn => hloc (by rw [hn]; rfl)
      show Option.map Sequence.bytes (Function.update L.sequences seq.value (some seq) n) = _
      rw [Function.update_of_ne hn]
      rfl
    | _ => rfl

/-- An entry. -/
theorem endorse (h : Mirrors m L ws) (id : EntryID) (value : Bytes) :
    Mirrors m (L.endorse ⟨id.key host.storeKey, value⟩)
      (applyWrites ws [.put (id.key host.storeKey) value]) := by
  refine h.write (.put _ _) (.commitment id) rfl (fun loc hloc => ?_) fun loc hloc => ?_
  · obtain ⟨id', rfl⟩ := Location.eq_commitment hloc
    have hsame : id'.key host.storeKey = id.key host.storeKey := hloc
    show _ = Function.update L.commitments (id.key host.storeKey) (some value) (id'.key host.storeKey)
    rw [hsame, Function.update_self]
    exact getElem?_apply_self _ _ _
  · cases loc with
    | commitment id' => exact Function.update_of_ne hloc _ _
    | _ => rfl

/-- A packet or an acknowledgement. -/
theorem keep (h : Mirrors m L ws) {w : Write} {rest : Bytes} (hw : w.key = slash :: rest) :
    Mirrors m (L.keep w) (w.apply ws) := by
  refine h.write w (.packet rest) hw.symm (fun loc hloc => ?_) fun loc hloc => ?_
  · obtain rfl := Location.eq_packet (hloc.trans hw)
    cases w with
    | put key value =>
      obtain rfl : key = slash :: rest := hw
      show _ = Function.update L.packets _ (some value) (slash :: rest)
      rw [Function.update_self]
      exact getElem?_apply_self _ _ _
    | del key =>
      obtain rfl : key = slash :: rest := hw
      show (Write.apply ws (.del (slash :: rest)))[slash :: rest]? =
        Function.update L.packets _ none (slash :: rest)
      rw [Function.update_self]
      simp [Write.apply]
  · cases w <;> cases loc <;> first | rfl | exact Function.update_of_ne hloc _ _

theorem keepAll (h : Mirrors m L ws) {writes : List Write}
    (hw : ∀ w ∈ writes, ∃ rest, w.key = slash :: rest) :
    Mirrors m (writes.foldl Ledger.keep L) (applyWrites ws writes) := by
  induction writes generalizing L ws with
  | nil => exact h
  | cons w writes ih =>
    obtain ⟨⟨rest, hrest⟩, hw⟩ := List.forall_mem_cons.mp hw
    exact ih (h.keep hrest) hw

/-- The stores of the ledger are those of the world state. -/
theorem holds (h : Mirrors m L ws) :
    Holds K.kv (spread L.stores) (fun x => ws[x]?) ws where
  get key hkey k := by
    have hread := h.read (.pair ⟨key, hkey⟩ k)
    rw [spread, dif_pos hkey]
    exact hread
  direct _ _ := rfl
  accounted x v hx := by
    obtain ⟨loc, rfl⟩ := h.known x v hx
    cases loc with
    | pair key k => exact Or.inr ⟨key.1, key.2, k, rfl⟩
    | _ => exact Or.inl (Location.directKey trivial)

/-- Other contents of the stores, with everything outside of them as it was. -/
theorem of_holds (h : Mirrors m L ws) {M : Mounted K.kv → Contents} {ws' : WorldState}
    (h' : Holds K.kv (spread M) (fun x => ws[x]?) ws') :
    Mirrors m { L with stores := M } ws' where
  read loc := by
    have houtside : ∀ loc : Location K, loc.Outside → ws'[loc.bytes m]? = L.read loc :=
      fun loc hloc => (h'.direct _ (Location.directKey hloc)).trans (h.read loc)
    cases loc with
    | pair key k =>
      have hget := h'.get key.1 key.2 k
      rw [spread_val] at hget
      exact hget
    | current => exact houtside .current trivial
    | sequence n => exact houtside (.sequence n) trivial
    | commitment id => exact houtside (.commitment id) trivial
    | packet rest => exact houtside (.packet rest) trivial
  known x v hx := by
    rcases h'.accounted x v hx with hdirect | ⟨key, hkey, k, rfl⟩
    · exact h.known x v ((h'.direct x hdirect).symm.trans hx)
    · exact ⟨.pair ⟨key, hkey⟩ k, rfl⟩

end Mirrors

end World

/-! ## Writing a cache -/

section Writing

variable {δ : Type} {K : store.StoreKeys} {m : SequenceManager}

/-- The writes change the stores from `M` to `M'` and nothing else. -/
def Installs (m : SequenceManager) (M M' : Mounted K.kv → Contents) (writes : List Write) : Prop :=
  ∀ {L : Ledger K} {ws : WorldState}, Mirrors m L ws → L.stores = M →
    Mirrors m { L with stores := M' } (applyWrites ws writes)

theorem Installs.append {M M' M'' : Mounted K.kv → Contents} {writes writes' : List Write}
    (h : Installs m M M' writes) (h' : Installs m M' M'' writes') :
    Installs m M M'' (writes ++ writes') := by
  intro L ws hL hstores
  rw [applyWrites_append]
  exact h' (L := { L with stores := M' }) (h hL hstores) rfl

theorem spread_lasting (M : Mounted K.all → Contents) :
    ∀ key ∈ K.kv, spread (lasting M) key = spread M key := by
  intro key hkey
  have hall : key ∈ K.all := List.mem_append_left _ hkey
  rw [spread, dif_pos hkey, spread, dif_pos hall]
  rfl

/-- **Writing a cache installs what is seen through it.** -/
theorem installs_cache {rs : Store δ} (hrs : Mounts rs K.kv K.volatile)
    (M : Mounted K.all → Contents) (ms : CacheMultiStore (Mounted K.all)) {order : List StoreKey}
    (horder : order.Perm K.all) :
    ∃ commands writes, CacheMultiStore.commands ms rs order = .ok commands ∧
      compat.flush commands = .ok writes ∧
      Installs m (lasting M) (lasting (views M ms)) writes := by
  have hnodup := horder.nodup_iff.mpr K.nodup
  have hinstall : ∀ (M : Mounted K.all → Contents) {L : Ledger K} {ws : WorldState},
      Mirrors m L ws → L.stores = lasting M → ∃ writes,
        rs.flush (fun key => (pendingChanges ms key).map Change.command) order = .ok writes ∧
        Mirrors m { L with stores := lasting (views M ms) } (applyWrites ws writes) := by
    intro M L ws hL hstores
    have hholds : Holds K.kv (spread M) (fun x => ws[x]?) ws :=
      hL.holds.congr fun key hkey => by rw [hstores, spread_lasting M key hkey]
    obtain ⟨writes, hwrites, hws⟩ := flush_cache hrs K.separate hholds ms horder hnodup
    refine ⟨writes, hwrites, hL.of_holds (hws.congr fun key hkey => ?_)⟩
    exact (spread_lasting _ key hkey).symm
  -- which writes these are does not depend on the world state, so any ledger shows them
  obtain ⟨writes, hwrites, -⟩ := hinstall (fun _ => ∅) (mirrors_empty m K) rfl
  obtain ⟨commands, hcommands, hflush⟩ := Outcome.bind_eq_ok_iff.mp hwrites
  refine ⟨commands, writes, hcommands, hflush, ?_⟩
  intro L ws hL hstores
  obtain ⟨writes', hwrites', hws⟩ := hinstall M hL hstores
  obtain rfl := Outcome.ok.inj (hwrites'.symm.trans hwrites)
  exact hws

end Writing

/-! ## The application -/

section Application

variable {δ : Type} {K : store.StoreKeys} {rs : Store δ}

/-- The contents a reader is given count only for the stores in memory. -/
theorem shows_of_memory (hrs : Mounts rs K.kv K.volatile) {m : SequenceManager} {L : Ledger K}
    {stub : Stub} (h : Mirrors m L stub.state) {memory M : Mounted K.all → Contents}
    (hM : lasting M = L.stores)
    (hmemory : ∀ key : Mounted K.all, key.1 ∈ K.volatile → memory key = M key) :
    Shows (baseReader rs memory stub) M := by
  have hholds : Holds K.kv (spread M) (fun x => stub.state[x]?) stub.state :=
    h.holds.congr fun key hkey => by rw [← hM, spread_lasting M key hkey]
  have hshows : Shows (baseReader rs M stub) M := shows_baseReader hrs K.separate hholds
  refine ⟨fun key k => ?_, fun key dir lo hi => ?_⟩
  · rw [← hshows.get key k]
    show (rs.getKVStore key.1 >>= fun s => s.get stub (memory key) k) =
      rs.getKVStore key.1 >>= fun s => s.get stub (M key) k
    rcases List.mem_append.mp key.2 with hkey | hother
    · rw [hrs.common key.1 hkey]
      rfl
    · rw [hmemory key hother]
  · rw [← hshows.list key dir lo hi]
    show (rs.getKVStore key.1 >>= fun s => s.list stub (memory key) dir lo hi) =
      rs.getKVStore key.1 >>= fun s => s.list stub (M key) dir lo hi
    rcases List.mem_append.mp key.2 with hkey | hother
    · rw [hrs.common key.1 hkey]
      rfl
    · rw [hmemory key hother]

end Application

section Calls

variable {C : Codec} {τ μ Γ : Type} {d : Deployment C τ μ Γ} {L : d.State} {stub : Stub}

/-- The application has started: its stores show `M`, which in the stores that last
is the ledger, and writing the cache of the start changes nothing. -/
structure Started (d : Deployment C τ μ Γ) (L : d.State) (stub : Stub)
    (app : Loaded d.app.keys × List compat.Command) (M : Mounted d.app.keys.all → Contents) :
    Prop where
  mounts : Mounts app.1.rs d.app.keys.kv d.app.keys.volatile
  reads : Shows (app.1.reader stub) M
  stores : lasting M = L.stores
  writes : ∃ writes, compat.flush app.2 = .ok writes ∧
    Installs d.sequenceMgr L.stores L.stores writes

/-- **`NewIBCApp`.** -/
theorem newIBCApp_rel (h : Mirrors d.sequenceMgr L stub.state) :
    Outcome.Rel (Started d L stub) (d.app.newIBCApp stub) (d.start L) := by
  obtain ⟨rs, hopen, hrs⟩ := d.app.keys.exists_mounts (δ := Empty)
  have hfresh : lasting (fresh L.stores) = L.stores :=
    funext fun key => spread_val L.stores key
  have hvolatile : ∀ key : Mounted d.app.keys.all, key.1 ∈ d.app.keys.volatile →
      fresh L.stores key = ∅ := fun key hkey =>
    dif_neg fun hkv => hrs.disjoint hkv hkey
  have hshows : Shows (baseReader rs (fun _ => ∅) stub) (fresh L.stores) :=
    shows_of_memory hrs h hfresh fun key hkey => (hvolatile key hkey).symm
  have hrun := Cache.Program.run_views hshows d.app.initializeAndSeal newCache
  have hempty : views (fresh L.stores) newCache = fresh L.stores := Cache.views_empty _
  rw [hempty] at hrun
  rw [IBCApp.newIBCApp, hopen, Outcome.ok_bind, Deployment.start, hrun]
  cases hexec : d.app.initializeAndSeal.exec (baseReader rs (fun _ => ∅) stub) newCache with
  | err e => exact rfl
  | panic p => exact rfl
  | ok started =>
    rw [hexec, Outcome.ok_bind] at hrun
    have hquiet : lasting (views (fresh L.stores) started.2) = L.stores := by
      funext key
      have hkept := d.app.quiet hrun ⟨key.1, List.mem_append_left _ key.2⟩ key.2
      exact hkept.trans (congrFun hfresh key)
    obtain ⟨commands, writes, hcommands, hflush, hinstalls⟩ :=
      installs_cache (m := d.sequenceMgr) hrs (fresh L.stores) started.2 (d.app.order_perm stub)
    rw [hfresh, hquiet] at hinstalls
    rw [Outcome.ok_bind, hcommands, Outcome.ok_bind, Outcome.ok_bind]
    refine ⟨hrs, ?_, hquiet, writes, hflush, hinstalls⟩
    refine shows_of_memory hrs h hquiet fun key hkey => ?_
    show Cache.view ∅ (started.2 key) = Cache.view (fresh L.stores key) (started.2 key)
    rw [hvolatile key hkey]

/-- `RunFunc`: the writes of the start come first and change nothing. -/
theorem runFunc_rel {α β : Type} (h : Mirrors d.sequenceMgr L stub.state)
    {f : Result (α × List Write)} {g : (Mounted d.app.keys.all → Contents) → Result β}
    {S : α → List Write → β → Prop}
    (hf : ∀ app M, d.app.newIBCApp stub = .ok app → Started d L stub app M →
      Outcome.Rel (fun a b => S a.1 a.2 b) f (g M)) :
    Outcome.Rel
      (fun a b => ∃ loaded writes, a.2 = loaded ++ writes ∧
        Installs d.sequenceMgr L.stores L.stores loaded ∧ S a.1 writes b)
      (d.chaincode.runFunc stub f) (d.start L >>= g) := by
  show Outcome.Rel _ ((d.app.newIBCApp stub >>= fun app => Outcome.ok app.2) >>= _) _
  rw [Outcome.bind_bind]
  refine (newIBCApp_rel h).of_result.bind fun app M hstarted => ?_
  obtain ⟨happ, -, hstarted⟩ := hstarted
  obtain ⟨loaded, hloaded, hinstalls⟩ := hstarted.writes
  rw [Outcome.ok_bind, hloaded, Outcome.ok_bind]
  exact (hf app M happ hstarted).bind_left fun a b hab =>
    ⟨_, rfl, loaded, a.2, rfl, hinstalls, hab⟩

/-- `InitChain`. -/
theorem initChain_rel {app : Loaded d.app.keys × List compat.Command}
    {M : Mounted d.app.keys.all → Contents} (hM : Started d L stub app M) (appStateBytes : Bytes) :
    Outcome.Rel
      (fun commands M' => ∃ writes, compat.flush commands = .ok writes ∧
        Installs d.sequenceMgr L.stores (lasting M') writes)
      (d.app.initChain stub appStateBytes app.1) (d.genesis appStateBytes M) := by
  rw [IBCApp.initChain, Deployment.genesis]
  cases d.app.initChainer with
  | none =>
    refine ⟨[], rfl, ?_⟩
    intro L' ws hL' hstores
    rw [hM.stores, ← hstores]
    exact hL'
  | some initChainer =>
    have hrun := Cache.Program.run_views hM.reads (initChainer appStateBytes) newCache
    have hempty : views M newCache = M := Cache.views_empty M
    rw [hempty] at hrun
    refine (Outcome.Rel.of_eq_map hrun).bind fun res res' hres => ?_
    obtain ⟨commands, writes, hcommands, hflush, hinstalls⟩ :=
      installs_cache (m := d.sequenceMgr) hM.mounts M res.2 (d.app.order_perm stub)
    rw [hM.stores] at hinstalls
    rw [hcommands, hres]
    exact ⟨writes, hflush, hinstalls⟩

/-- `RunTx`. -/
theorem runTx_rel {app : Loaded d.app.keys × List compat.Command}
    {M : Mounted d.app.keys.all → Contents} (hM : Started d L stub app M)
    (blockProvider : Result Block) (txBytes : Bytes) :
    Outcome.Rel
      (fun res res' => res.1 = res'.1 ∧ ∃ writes, compat.flush res.2 = .ok writes ∧
        Installs d.sequenceMgr L.stores (lasting res'.2) writes)
      (d.app.runTx stub d.sequenceMgr blockProvider txBytes app.1)
      ((d.app.withStub (d.sequenceMgr.contextStub stub)).reference blockProvider txBytes M) := by
  have hrun := Outcome.Rel.of_eq_map ((d.app.withStub (d.sequenceMgr.contextStub stub)).reference_eq
    hM.reads blockProvider txBytes)
  refine hrun.bind_left fun res res' hres => ?_
  obtain ⟨commands, writes, hcommands, hflush, hinstalls⟩ :=
    installs_cache (m := d.sequenceMgr) hM.mounts M res.2 (d.app.order_perm stub)
  rw [hM.stores] at hinstalls
  refine ⟨(res.1, commands), by rw [hcommands]; rfl, ?_⟩
  rw [hres]
  exact ⟨rfl, writes, hflush, hinstalls⟩

/-- A `HandleTx` that succeeds has run its transaction, in a context with the stub. -/
theorem runTx_of_invoke {txJSON : Bytes} {res : Response × List Write}
    (h : d.chaincode.invoke stub (.handleTx txJSON) = .ok res) :
    ∃ r done, (d.app.withStub (d.sequenceMgr.contextStub stub)).runTx
      (d.chaincode.getBlockProvider stub) txJSON r = .ok done := by
  obtain ⟨_, h, -⟩ := respond_eq_ok_iff.mp h
  obtain ⟨_, htx, -⟩ := Outcome.bind_eq_ok_iff.mp h
  obtain ⟨_, _, -, htx, -⟩ := runFunc_eq_ok htx
  obtain ⟨_, happ, -⟩ := Outcome.bind_eq_ok_iff.mp htx
  obtain ⟨loaded, -, happ⟩ := Outcome.bind_eq_ok_iff.mp happ
  obtain ⟨done, hrun, -⟩ := Outcome.bind_eq_ok_iff.mp happ
  exact ⟨loaded.1.reader stub, done, hrun⟩

/-! ## What a call reads -/

theorem readSequence_eq {key : Bytes} {seq : Option Sequence}
    (h : stub.state[key]? = seq.map Sequence.bytes) :
    SequenceManager.readSequence stub key = recorded seq := by
  rw [SequenceManager.readSequence, Stub.getState, h]
  cases seq with
  | none => rfl
  | some seq => exact seq.unmarshal_bytes

theorem getCurrentSequence_eq (h : Mirrors d.sequenceMgr L stub.state) :
    d.sequenceMgr.getCurrentSequence stub = L.sequence none := readSequence_eq (h.read .current)

theorem getSequence_eq (h : Mirrors d.sequenceMgr L stub.state) (n : UInt64) :
    d.sequenceMgr.getSequence stub n = L.sequence (some n) := readSequence_eq (h.read (.sequence n))

theorem getBlockProvider_eq (h : Mirrors d.sequenceMgr L stub.state) :
    d.chaincode.getBlockProvider stub = L.block := by
  have hcurrent : d.chaincode.sequenceMgr.getCurrentSequence stub = L.sequence none :=
    getCurrentSequence_eq h
  rw [IBCChaincode.getBlockProvider, hcurrent, Ledger.sequence, Ledger.block]
  cases L.current <;> rfl

/-- A stub in a context gives the answers of the ledger. -/
theorem contextStub_eq {inv : Invocation} {ws : WorldState}
    (h : Mirrors d.sequenceMgr L (inv.stub ws).state) :
    d.sequenceMgr.contextStub (inv.stub ws) = L.contextStub inv := by
  rw [SequenceManager.contextStub, Ledger.contextStub, funext (getSequence_eq h)]
  rfl

/-- The keepers read the IBC store of the ledger. -/
theorem ibcStore_eq (h : Mirrors d.sequenceMgr L stub.state) :
    ibcStore stub.state = d.ibcStoreOf L := by
  funext key
  show stub.state[hexEncode (storePath host.storeKey ++ key)]? = _
  rw [Deployment.ibcStoreOf, ← d.ibc_name]
  by_cases hkey : key = []
  · -- nothing is stored under the path of a store itself
    rw [dif_pos hkey, hkey, List.append_nil, Option.eq_none_iff_forall_not_mem]
    intro v hv
    obtain ⟨loc, hloc⟩ := h.known _ v hv
    obtain ⟨key', k, rfl⟩ := Location.eq_pair hloc.symm
    have hpath : storePath d.ibc.1.name = storePath key'.1.name ++ k.bytes :=
      hexEncode_injective hloc
    have hprefix : storePath key'.1.name <+: storePath d.ibc.1.name ++ [] := by
      rw [hpath, List.append_nil]
      exact List.prefix_append _ _
    have hname := store.name_eq_of_isPrefix (d.app.keys.noSlash _ key'.2)
      (d.app.keys.noSlash _ d.ibc.2) hprefix
    rw [hname] at hpath
    exact k.nonempty (List.self_eq_append_right.mp hpath)
  · rw [dif_neg hkey]
    exact h.read (.pair d.ibc ⟨key, hkey⟩)

/-! ## Calls -/

/-- The same reply, and the writes lead to the ledger after the call. -/
def Simulates (d : Deployment C τ μ Γ) (stub : Stub) (res : Response × List Write)
    (res' : Response × d.State) : Prop :=
  res.1 = res'.1 ∧ Mirrors d.sequenceMgr res'.2 (applyWrites stub.state res.2)

theorem entryAbout_eq_ok {keeper : Keeper C} {store : KVStore} {id : EntryID} {e : Entry}
    (h : entryAbout keeper store id = .ok e) : ∃ bz, e = ⟨id.key host.storeKey, bz⟩ := by
  simp only [entryAbout, Outcome.bind_eq_ok_iff, Outcome.ok.injEq] at h
  obtain ⟨_, -, bz, -, rfl⟩ := h
  exact ⟨bz, rfl⟩

/-- A keeper's answer that is marshalled, and the statement about it. -/
theorem found_map {α : Type} {β : Type} (e : Error) (r : Result (Option α)) (mk : α → β) :
    found e (r >>= fun a => .ok (a.map mk)) = (do
      let a ← found e r
      .ok (mk a)) := by
  rcases r with (_ | a) | _ | _ <;> rfl

/-- An endorsing call puts the entry about its subject. -/
theorem invoke_of_subject (cc : IBCChaincode C) (stub : Stub) {call : Call} {id : EntryID}
    (hid : call.subject = some id) :
    cc.invoke stub call =
      respond .entry (cc.endorseEntry stub fun store => entryAbout cc.keeper store id) := by
  -- the function looks its subject up and marshals what it finds
  have hentry : ∀ make : KVStore → Result Entry, (∀ store, make store =
      entryAbout cc.keeper store id) → respond .entry (cc.endorseEntry stub make) = respond .entry
        (cc.endorseEntry stub fun store => entryAbout cc.keeper store id) := by
    intro make hmake
    rw [funext hmake]
  cases call <;> cases hid <;> refine hentry _ fun store => ?_
  case endorsePacketReceiptAbsence p c n =>
    rw [entryAbout, Statement.about]
    rcases hreceipt : cc.keeper.getPacketReceipt store p c n with (_ | bz) | _ | _ <;> rfl
  all_goals
    rw [entryAbout, Statement.about, found_map, Outcome.bind_bind]
    rfl

theorem endorse_rel (h : Mirrors d.sequenceMgr L stub.state) {call : Call} {id : EntryID}
    (hid : call.subject = some id) :
    Outcome.Rel (Simulates d stub) (d.chaincode.invoke stub call) (d.endorseAbout L id) := by
  rw [invoke_of_subject d.chaincode stub hid]
  have hrun : Outcome.Rel _ (d.chaincode.endorseEntry stub fun store =>
      entryAbout d.keeper store id) (d.endorseAbout L id) :=
    runFunc_rel h (S := fun e writes (res : Response × d.State) =>
      (∃ bz, e = ⟨id.key host.storeKey, bz⟩) ∧ writes = [.put e.key e.value] ∧
        res = (.entry e, L.endorse e)) fun app M _ _ => by
      rw [ibcStore_eq h]
      exact Outcome.Rel.bind_same fun e he => ⟨entryAbout_eq_ok he, rfl, rfl⟩
  refine hrun.bind_left fun a b hab => ?_
  obtain ⟨loaded, writes, hwrites, hinstalls, ⟨bz, he⟩, hput, rfl⟩ := hab
  refine ⟨_, rfl, rfl, ?_⟩
  show Mirrors d.sequenceMgr (L.endorse a.1) (applyWrites stub.state a.2)
  rw [hwrites, applyWrites_append, hput, he]
  exact (hinstalls h rfl).endorse id bz

theorem init_rel (h : Mirrors d.sequenceMgr L stub.state) (appStateJSON : Bytes) :
    Outcome.Rel
      (fun a M' => Installs d.sequenceMgr L.stores (lasting M') a.2)
      (d.chaincode.init stub appStateJSON) (d.init L appStateJSON) := by
  have hrun : Outcome.Rel _ (d.chaincode.init stub appStateJSON) (d.init L appStateJSON) :=
    runFunc_rel h (S := fun _ writes M' => Installs d.sequenceMgr L.stores (lasting M') writes)
      (g := d.genesis appStateJSON) fun app M happ hM => by
      have happlication : d.chaincode.app.initChain stub appStateJSON =
          d.app.initChain stub appStateJSON app.1 := by
        show (d.app.newIBCApp stub >>= fun loaded => d.app.initChain stub appStateJSON loaded.1) = _
        rw [happ]
        rfl
      rw [happlication]
      refine (initChain_rel hM appStateJSON).bind_left fun commands M' hM' => ?_
      obtain ⟨writes, hflush, hinstalls⟩ := hM'
      exact ⟨((), writes), by rw [hflush]; rfl, hinstalls⟩
  refine hrun.mono fun a M' ha => ?_
  obtain ⟨loaded, writes, hwrites, hloaded, hinstalls⟩ := ha
  rw [hwrites]
  exact hloaded.append hinstalls

theorem tx_rel {inv : Invocation} {ws : WorldState}
    (h : Mirrors d.sequenceMgr L (inv.stub ws).state) (txJSON : Bytes) :
    Outcome.Rel
      (fun a res => a.1 = res.1 ∧ Installs d.sequenceMgr L.stores (lasting res.2) a.2)
      (d.chaincode.runTx (inv.stub ws) txJSON) (d.runTx L inv txJSON) := by
  have hrun : Outcome.Rel _ (d.chaincode.runTx (inv.stub ws) txJSON) (d.runTx L inv txJSON) :=
    runFunc_rel h (S := fun r writes res =>
        r = res.1 ∧ Installs d.sequenceMgr L.stores (lasting res.2) writes)
      (g := (d.app.withStub (L.contextStub inv)).reference L.block txJSON) fun app M happ hM => by
      have happlication : d.chaincode.app.runTx (inv.stub ws)
          (d.chaincode.getBlockProvider (inv.stub ws)) txJSON =
          d.app.runTx (inv.stub ws) d.sequenceMgr L.block txJSON app.1 := by
        show (d.app.newIBCApp (inv.stub ws) >>= fun loaded =>
          d.app.runTx (inv.stub ws) d.sequenceMgr _ txJSON loaded.1) = _
        rw [happ, getBlockProvider_eq h]
        rfl
      have htx := runTx_rel hM L.block txJSON
      rw [contextStub_eq h] at htx
      rw [happlication]
      refine htx.bind_left fun a res hres => ?_
      obtain ⟨hsame, writes, hflush, hinstalls⟩ := hres
      refine ⟨(a.1, writes), ?_, hsame, hinstalls⟩
      show (compat.flush a.2 >>= fun writes => Outcome.ok (a.1, writes)) = _
      rw [hflush]
      rfl
  refine hrun.mono fun a res ha => ?_
  obtain ⟨loaded, writes, hwrites, hloaded, hsame, hinstalls⟩ := ha
  rw [hwrites]
  exact ⟨hsame, hloaded.append hinstalls⟩

/-- Packets and acknowledgements are kept under names that begin with a slash. -/
theorem slash_of_mem_events {P : PacketCodec} {events : List Event} {writes : List Write}
    (h : multiEventHandle (defaultMultiEventHandler P) events = .ok writes) :
    ∀ w ∈ writes, ∃ rest, w.key = slash :: rest := by
  obtain ⟨packets, acks, hpackets, hacks, rfl⟩ := multiEventHandle_default_eq_ok_iff.mp h
  intro w hw
  rcases List.mem_append.mp hw with hw | hw
  · obtain ⟨p, c, n, hkey⟩ := key_of_mem_handlePacketEvent hpackets hw
    exact ⟨_, hkey⟩
  · obtain ⟨p, c, n, hkey⟩ := key_of_mem_handlePacketAcknowledgementEvent hacks hw
    exact ⟨_, hkey⟩

variable {ws : WorldState}

/-- The stub of an invocation reads the world state it is made for. -/
theorem Mirrors.of_invocation (h : Mirrors d.sequenceMgr L ws) (inv : Invocation) :
    Mirrors d.sequenceMgr L (inv.stub ws).state := h

theorem initChaincode_rel (h : Mirrors d.sequenceMgr L ws) (inv : Invocation)
    (appStateJSON : Bytes) :
    Outcome.Rel (Simulates d (inv.stub ws))
      (respond (fun _ => .unit) (d.chaincode.initChaincode (inv.stub ws) appStateJSON))
      (d.initChaincode L inv appStateJSON) := by
  have hsequence : d.chaincode.sequenceMgr.initSequence (inv.stub ws) = (do
      let tm ← d.time inv 0
      .ok (⟨1, tm⟩, d.sequenceMgr.putSequence ⟨1, tm⟩)) := by
    rw [Deployment.time, Outcome.bind_bind]
    exact bind_congr fun tm => by rw [Outcome.bind_bind]; rfl
  rw [respond, IBCChaincode.initChaincode, Outcome.bind_bind]
  refine (init_rel (h.of_invocation inv) appStateJSON).bind fun a M' hinstalls => ?_
  rw [hsequence, Outcome.bind_bind, Outcome.bind_bind]
  refine Outcome.Rel.bind_same fun tm _ => ⟨rfl, ?_⟩
  show Mirrors _ _ (applyWrites ws (a.2 ++ d.sequenceMgr.putSequence ⟨1, tm⟩))
  rw [applyWrites_append]
  exact (hinstalls h rfl).advance ⟨1, tm⟩

theorem handleTx_rel (h : Mirrors d.sequenceMgr L ws) (inv : Invocation) (txJSON : Bytes) :
    Outcome.Rel (Simulates d (inv.stub ws))
      (respond .tx (d.chaincode.handleTx (inv.stub ws) txJSON)) (d.handleTx L inv txJSON) := by
  rw [respond, IBCChaincode.handleTx, Outcome.bind_bind]
  refine (tx_rel (h.of_invocation inv) txJSON).bind fun a res hres => ?_
  obtain ⟨hsame, hinstalls⟩ := hres
  rw [← hsame, Outcome.bind_bind]
  refine Outcome.Rel.bind_same fun kept hevents => ⟨rfl, ?_⟩
  show Mirrors _ _ (applyWrites ws (a.2 ++ kept))
  rw [applyWrites_append]
  exact (hinstalls h rfl).keepAll (slash_of_mem_events hevents)

theorem updateSequence_rel (h : Mirrors d.sequenceMgr L ws) (inv : Invocation) :
    Outcome.Rel (Simulates d (inv.stub ws))
      (respond .sequence (d.sequenceMgr.updateSequence (inv.stub ws))) (d.updateSequence L inv) := by
  rw [respond, SequenceManager.updateSequence, getCurrentSequence_eq (h.of_invocation inv),
    Deployment.updateSequence, Outcome.bind_bind]
  refine Outcome.Rel.bind_same fun current _ => ?_
  rw [Deployment.time, Outcome.bind_bind, Outcome.bind_bind]
  refine Outcome.Rel.bind_same fun tm _ => ?_
  rw [Outcome.bind_bind, Outcome.bind_bind]
  exact Outcome.Rel.bind_same fun _ _ => ⟨rfl, h.advance _⟩

theorem endorseSequence_rel (h : Mirrors d.sequenceMgr L ws) (inv : Invocation) :
    Outcome.Rel (Simulates d (inv.stub ws))
      (respond .entry (d.chaincode.endorseSequenceCommitment (inv.stub ws)))
      (d.endorseSequence L inv) := by
  have hrequested : d.chaincode.requestedSequence (inv.stub ws) = (do
      let n ← inv.requested
      L.sequence n) := by
    have hcurrent := getCurrentSequence_eq (h.of_invocation inv)
    have hargs : (inv.stub ws).args = inv.args := rfl
    rw [IBCChaincode.requestedSequence, Invocation.requested, hargs]
    rcases inv.args with - | ⟨name, - | ⟨arg, rest⟩⟩
    · exact hcurrent
    · exact hcurrent
    · rw [Outcome.bind_bind]
      exact bind_congr fun n => getSequence_eq (h.of_invocation inv) n
  rw [respond, IBCChaincode.endorseSequenceCommitment, hrequested, Deployment.endorseSequence,
    Outcome.bind_bind, Outcome.bind_bind]
  refine Outcome.Rel.bind_same fun n _ => ?_
  refine Outcome.Rel.bind_same fun seq _ => ⟨rfl, ?_⟩
  exact h.endorse (.sequence seq.value) seq.bytes

/-- **A call of the chaincode is a call of the ledger.** -/
theorem invoke_rel (h : Mirrors d.sequenceMgr L ws) (inv : Invocation) :
    Outcome.Rel (Simulates d (inv.stub ws)) (d.chaincode.invoke (inv.stub ws) inv.call)
      (d.perform L inv) := by
  rw [Deployment.perform]
  have hendorse : ∀ {id}, inv.call.subject = some id →
      Outcome.Rel (Simulates d (inv.stub ws)) (d.chaincode.invoke (inv.stub ws) inv.call)
        (d.endorseAbout L id) := fun hid => endorse_rel (h.of_invocation inv) hid
  revert hendorse
  cases inv.call with
  | initChaincode appStateJSON => exact fun _ => initChaincode_rel h inv appStateJSON
  | handleTx txJSON => exact fun _ => handleTx_rel h inv txJSON
  | updateSequence => exact fun _ => updateSequence_rel h inv
  | endorseSequenceCommitment => exact fun _ => endorseSequence_rel h inv
  | _ => exact fun hendorse => hendorse rfl

/-- **A transaction of the chaincode is a transaction of the ledger.** -/
theorem serve_rel (h : Mirrors d.sequenceMgr L ws) (inv : Invocation) :
    (d.chaincode.serve ws inv).1 = (d.serve L inv).1 ∧
      Mirrors d.sequenceMgr (d.serve L inv).2 (d.chaincode.serve ws inv).2 := by
  rw [IBCChaincode.serve, IBCChaincode.commit, Deployment.serve]
  rcases (invoke_rel h inv).cases with ⟨res, res', hcc, hL, hsim⟩ | ⟨e, hcc, hL⟩ | ⟨p, hcc, hL⟩
  · rw [hcc, hL]
    exact ⟨congrArg Outcome.ok hsim.1, hsim.2⟩
  · rw [hcc, hL]
    exact ⟨rfl, h⟩
  · rw [hcc, hL]
    exact ⟨rfl, h⟩

/-- **The chaincode refines the ledger.** From a world state that holds a ledger,
and so from the empty one, every run of transactions, whichever of them fail, gets
the replies of the ledger and ends in a world state that holds the ledger after the
run and nothing else. -/
theorem chaincode_refines_ledger (d : Deployment C τ μ Γ) (L : d.State) (ws : WorldState)
    (h : Mirrors d.sequenceMgr L ws) (invs : List Invocation) :
    (Run.transcript d.chaincode.serve ws invs).1 = (Run.transcript d.serve L invs).1 ∧
      ∀ ws', ws' = (Run.transcript d.chaincode.serve ws invs).2 ↔
        Mirrors d.sequenceMgr (Run.transcript d.serve L invs).2 ws' := by
  obtain ⟨hreplies, hend⟩ := Run.transcript_eq (f := id)
    (R := fun ws L => Mirrors d.sequenceMgr L ws) (fun _ _ inv h => serve_rel h inv) h invs
  refine ⟨hreplies.trans (List.map_id _), fun ws' => ⟨?_, fun hws' => hws'.ext hend⟩⟩
  rintro rfl
  exact hend

end Calls

/-! ## A deployment -/

namespace Sample

open store (ibcKey)

/-- The store in memory of `sampleKeys`. -/
def memoryKey : Mounted sampleKeys.all := ⟨⟨2, .memory, str "mem_capability"⟩, by decide⟩

/-- A capability is loaded into memory. -/
def loadCapability : StoreProgram (Mounted sampleKeys.all) Unit :=
  .set memoryKey ⟨[1], List.cons_ne_nil _ _⟩ [1] (.done ())

theorem loadCapability_quiet {M M' : Mounted sampleKeys.all → Contents} {u : Unit}
    (hrun : loadCapability.run M = .ok (u, M')) (key : Mounted sampleKeys.all)
    (hkey : key.1 ∈ sampleKeys.kv) : M' key = M key := by
  have hM' := (Prod.mk.inj (Outcome.ok.inj hrun)).2
  have hne : key ≠ memoryKey := by
    rintro rfl
    exact absurd hkey (by decide)
  rw [← hM', Function.update_of_ne hne]

theorem ibcKey_mem_all : ibcKey ∈ sampleKeys.all := by decide

/-- The message 9 is answered with sequence 1, as `GetSelfConsensusState` reads it. -/
def selfHandler : Handler (Mounted sampleKeys.all) (auth.Context Unit) UInt8 := fun ctx _ =>
  match auth.stubFromContext ctx >>= fun stub => stub.getSequence 1 with
  | .ok seq => .done ⟨seq.bytes, [], []⟩
  | .err e => .fail e
  | .panic p => .crash p

/-- The application of `sampleApp`, with a stub in its contexts. -/
def ibcApp : IBCApp Bytes UInt8 (auth.Context Unit) where
  keys := sampleKeys
  base :=
    { auth.contextApp with
      anteHandler := some fun ctx _ => .set ⟨ibcKey, ibcKey_mem_all⟩ ⟨[1], List.cons_ne_nil _ _⟩ [7]
        (.done (some (ctx, [⟨str "ante", []⟩])))
      msgServiceRouter := fun m =>
        if m = 9 then some selfHandler else auth.contextApp.msgServiceRouter m }
  setupContext := auth.setupContext
  initChainer := some fun bz => .set ⟨ibcKey, ibcKey_mem_all⟩ ⟨[9], List.cons_ne_nil _ _⟩ bz (.done ())
  initializeAndSeal := loadCapability
  quiet := loadCapability_quiet
  order _ := sampleKeys.all
  order_perm _ := List.Perm.refl _

def deployment : Deployment Symbolic.codec Bytes UInt8 (auth.Context Unit) where
  sequenceMgr := .newDefault
  app := ibcApp
  ibc := ⟨ibcKey, by decide⟩
  ibc_name := rfl
  keeper := keeper
  packetCodec := ⟨fun _ => .ok (), fun _ => .ok []⟩

end Sample

open Sample in
/-- The chaincode is initialised, endorses an absence and runs three transactions, of
which the second fails; the third asks for the first sequence. -/
theorem chaincode_refines_ledger_failing_tx :
    (Run.transcript deployment.chaincode.serve ∅ [callAt 100 (.initChaincode [5]),
      callAt 100 (.endorsePacketReceiptAbsence port channel 1), callAt 100 (.handleTx [2, 3]),
      callAt 100 (.handleTx [2, 0]), callAt 100 (.handleTx [9])]).1 =
    [.ok .unit, .ok (.entry absenceEntry),
      .ok (.tx ⟨[2, 3], [], [⟨str "ante", []⟩, actionEvent [2], actionEvent [3]]⟩),
      .err (BaseApp.failed 1 (.new "zero")),
      .ok (.tx ⟨(⟨1, 100⟩ : Sequence).bytes, [], [⟨str "ante", []⟩, actionEvent [9]]⟩)] := by
  refine (chaincode_refines_ledger deployment _ ∅ (mirrors_empty _ _) _).1.trans ?_
  decide +kernel

end FabricIBC
