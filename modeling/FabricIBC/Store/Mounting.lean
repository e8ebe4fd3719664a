import FabricIBC.Store.Definitions

/-!
# Fabric-IBC — stores: mounting

What `MountStoreWithDB` and `LoadStores` make of store keys with distinct names:
every store loads (`loadStores_mounted`), those of type `StoreTypeDB` as adapters
under their paths in the common database, the others in memory (`Mounts`).

The converse for any calls of `MountStoreWithDB` that succeed: a store is found
under its key and its name (`Mounting`, `openMounts_stores`).
-/

namespace FabricIBC

open Go

namespace store

variable {δ : Type} {typ : StoreKey → StoreType} {keys keys' : List StoreKey}

/-- Stores of the given types over the common database, before they are loaded. -/
def mounted (typ : StoreKey → StoreType) (keys : List StoreKey) : Store δ :=
  ⟨keys.map fun key => (key, ⟨key, none, typ key⟩), [], keys.map fun key => (key.name, key)⟩

theorem mountStores_mounted {t : StoreType} (ht : ∀ key ∈ keys', typ key = t)
    (h : ((keys ++ keys').map StoreKey.name).Nodup) :
    (mounted typ keys : Store δ).mountStores t keys' = .ok (mounted typ (keys ++ keys')) := by
  induction keys' generalizing keys with
  | nil =>
    rw [List.append_nil]
    rfl
  | cons key keys' ih =>
    obtain ⟨hkeyt, ht⟩ := List.forall_mem_cons.mp ht
    have hname : ¬ ∃ a ∈ keys, key.name = a.name := by
      rintro ⟨a, ha, heq⟩
      rw [List.map_append, List.map_cons] at h
      exact (List.nodup_append.mp h).2.2 _ (List.mem_map_of_mem ha) _ List.mem_cons_self heq.symm
    have hkey : key ∉ keys := fun hmem => hname ⟨key, hmem, rfl⟩
    have hmount : (mounted typ keys : Store δ).mountStoreWithDB (some key) t none =
        .ok (mounted typ (keys ++ [key])) := by
      simp [Store.mountStoreWithDB, hkey, hname, mounted, hkeyt]
    rw [List.append_cons] at h ⊢
    rw [Store.mountStores, hmount, Outcome.ok_bind, ih ht h]

/-- The store of a type `LoadStores` knows. -/
def loadedStore (t : StoreType) (key : StoreKey) : CommitKVStore δ :=
  match t with
  | .transient => .transient
  | .memory => .mem
  | _ => .adapter none (storePath key.name)

/-- A key of the kind its store wants. -/
def Loadable (t : StoreType) (key : StoreKey) : Prop :=
  t = .db ∨ (t = .transient ∧ key.kind = .transient) ∨ (t = .memory ∧ key.kind = .memory)

theorem loadStoreFromParams_eq {t : StoreType} {key : StoreKey} (h : Loadable t key) :
    Store.loadStoreFromParams key ⟨key, (none : Option δ), t⟩ = .ok (loadedStore t key) := by
  rcases h with rfl | ⟨rfl, hkind⟩ | ⟨rfl, hkind⟩
  · rfl
  · exact if_pos hkind
  · exact if_pos hkind

/-- The stores of `mounted`, loaded. -/
def loaded (typ : StoreKey → StoreType) (keys : List StoreKey) : Store δ :=
  { mounted typ keys with stores := keys.map fun key => (key, loadedStore (typ key) key) }

theorem loadStores_mounted (h : ∀ key ∈ keys, Loadable (typ key) key) :
    (mounted typ keys : Store δ).loadStores = .ok (loaded typ keys) := by
  have hcollect : Outcome.collect (fun kp : StoreKey × StoreParams δ => do
      let store ← Store.loadStoreFromParams kp.1 kp.2
      (.ok (kp.1, store) : Result _)) (mounted typ keys : Store δ).storesParams =
      .ok ((mounted typ keys : Store δ).storesParams.map fun kp =>
        (kp.1, loadedStore kp.2.typ kp.1)) := by
    refine Outcome.collect_eq_ok_map ?_
    intro kp hkp
    obtain ⟨key, hkey, rfl⟩ := List.mem_map.mp hkp
    rw [loadStoreFromParams_eq (h key hkey)]
    rfl
  rw [Store.loadStores, hcollect, Outcome.ok_bind]
  simp [loaded, mounted]

theorem getKVStore_loaded {key : StoreKey} (h : key ∈ keys) :
    (loaded typ keys : Store δ).getKVStore key = .ok (loadedStore (typ key) key) := by
  have hlookup : (loaded typ keys : Store δ).stores.lookup key =
      some (loadedStore (typ key) key) := List.lookup_graph _ h
  rw [Store.getKVStore, hlookup]

theorem getKVStore_of_notMem {key : StoreKey} (h : key ∉ keys) :
    (loaded typ keys : Store δ).getKVStore key = .panic .typeAssertion := by
  have hlookup : (loaded typ keys : Store δ).stores.lookup key = none := by
    rw [List.lookup_eq_none_iff]
    intro p hp
    obtain ⟨a, ha, rfl⟩ := List.mem_map.mp hp
    simpa using fun heq : key = a => h (heq ▸ ha)
  rw [Store.getKVStore, hlookup]

/-- Some stores are kept in the common database and others elsewhere. -/
structure Mounts (rs : Store δ) (keys others : List StoreKey) : Prop where
  common : ∀ key ∈ keys, rs.getKVStore key = .ok (.adapter none (storePath key.name))
  elsewhere : ∀ key ∈ others, ∃ s, rs.getKVStore key = .ok s ∧ ∀ pfx, s ≠ .adapter none pfx
  absent : ∀ key, key ∉ keys ++ others → rs.getKVStore key = .panic .typeAssertion

theorem Mounts.disjoint {rs : Store δ} {keys others : List StoreKey} (h : Mounts rs keys others)
    {key : StoreKey} (hkey : key ∈ keys) : key ∉ others := by
  intro hother
  obtain ⟨s, hs, hne⟩ := h.elsewhere key hother
  rw [h.common key hkey, Outcome.ok.injEq] at hs
  exact hne _ hs.symm

theorem mounts_loaded {others : List StoreKey} (hkeys : ∀ key ∈ keys, typ key = .db)
    (hothers : ∀ key ∈ others, typ key = .transient ∨ typ key = .memory) :
    Mounts (loaded typ (keys ++ others) : Store δ) keys others where
  common key hkey := by
    rw [getKVStore_loaded (List.mem_append_left _ hkey), hkeys key hkey]
    rfl
  elsewhere key hkey := by
    refine ⟨_, getKVStore_loaded (List.mem_append_right _ hkey), ?_⟩
    rcases hothers key hkey with htyp | htyp
    · rw [htyp]
      exact nofun
    · rw [htyp]
      exact nofun
  absent _ hkey := getKVStore_of_notMem hkey

/-- Stores of the common database alone. -/
theorem exists_mounts_of_db (hnames : (keys.map StoreKey.name).Nodup) :
    ∃ rs : Store δ, (do
      let rs ← newStore.mountStores .db keys
      rs.loadStores) = .ok rs ∧ Mounts rs keys [] := by
  have hmount : (mounted (fun _ => .db) [] : Store δ).mountStores .db keys =
      .ok (mounted (fun _ => .db) keys) := mountStores_mounted (fun _ _ => rfl) hnames
  have hmounts : Mounts (loaded (fun _ => .db) (keys ++ []) : Store δ) keys [] :=
    mounts_loaded (fun _ _ => rfl) fun key hkey => absurd hkey List.not_mem_nil
  rw [List.append_nil] at hmounts
  refine ⟨loaded (fun _ => .db) keys, ?_, hmounts⟩
  show (mounted (fun _ => .db) [] : Store δ).mountStores .db keys >>= _ = _
  rw [hmount, Outcome.ok_bind, loadStores_mounted fun _ _ => Or.inl rfl]

/-! ## Any calls -/

/-- The arguments of `MountStoreWithDB`. -/
structure Mount (δ : Type) where
  key : StoreKey
  typ : StoreType
  db : Option δ

def Mount.params (m : Mount δ) : StoreParams δ := ⟨m.key, m.db, m.typ⟩

def Store.mountAll : Store δ → List (Mount δ) → Result (Store δ)
  | rs, [] => .ok rs
  | rs, m :: mounts => do
    let rs' ← rs.mountStoreWithDB (some m.key) m.typ m.db
    rs'.mountAll mounts

/-- `MountStoreWithDB` for each store, and `LoadStores`. -/
def openMounts (mounts : List (Mount δ)) : Result (Store δ) := do
  let rs ← newStore.mountAll mounts
  rs.loadStores

/-- The store after a mount. -/
def Store.withMount (rs : Store δ) (m : Mount δ) : Store δ :=
  { rs with
    storesParams := rs.storesParams ++ [(m.key, m.params)]
    keysByName := rs.keysByName ++ [(m.key.name, m.key)] }

theorem mountStoreWithDB_eq_ok_iff {rs rs' : Store δ} {m : Mount δ} :
    rs.mountStoreWithDB (some m.key) m.typ m.db = .ok rs' ↔
      rs.storesParams.lookup m.key = none ∧ rs.keysByName.lookup m.key.name = none ∧
        rs' = rs.withMount m := by
  cases hkey : rs.storesParams.lookup m.key with
  | some _ => simp [Store.mountStoreWithDB, hkey]
  | none =>
    cases hname : rs.keysByName.lookup m.key.name with
    | some _ => simp [Store.mountStoreWithDB, hkey, hname]
    | none =>
      simp only [Store.mountStoreWithDB, hkey, hname, Option.isSome_none, Bool.false_eq_true,
        if_false, Outcome.ok.injEq, true_and]
      exact eq_comm

/-- What mounting leads to: the stores are new, they are found under their keys and
names, and nothing else changes. -/
structure Mounting (rs : Store δ) (mounts : List (Mount δ)) (rs' : Store δ) : Prop where
  newKey : ∀ m ∈ mounts, rs.storesParams.lookup m.key = none
  newName : ∀ m ∈ mounts, rs.keysByName.lookup m.key.name = none
  params : ∀ m ∈ mounts, rs'.storesParams.lookup m.key = some m.params
  named : ∀ m ∈ mounts, rs'.keysByName.lookup m.key.name = some m.key
  otherKey : ∀ key, (∀ m ∈ mounts, key ≠ m.key) →
    rs'.storesParams.lookup key = rs.storesParams.lookup key
  otherName : ∀ name, (∀ m ∈ mounts, name ≠ m.key.name) →
    rs'.keysByName.lookup name = rs.keysByName.lookup name

theorem lookup_concat {α β : Type} [BEq α] [LawfulBEq α] [DecidableEq α] (l : List (α × β))
    (a : α) (b : β) (x : α) :
    (l ++ [(a, b)]).lookup x = (l.lookup x).or (if x = a then some b else none) := by
  rw [List.lookup_append, List.lookup_cons, List.lookup_nil]
  by_cases heq : x = a
  · simp [heq]
  · simp [heq, beq_eq_false_iff_ne.mpr heq]

section WithMount

variable (rs : Store δ) (m : Mount δ)

theorem Store.params_withMount (key : StoreKey) :
    (rs.withMount m).storesParams.lookup key =
      (rs.storesParams.lookup key).or (if key = m.key then some m.params else none) :=
  lookup_concat _ _ _ _

theorem Store.key_withMount (name : Bytes) :
    (rs.withMount m).keysByName.lookup name =
      (rs.keysByName.lookup name).or (if name = m.key.name then some m.key else none) :=
  lookup_concat _ _ _ _

end WithMount

/-- One mount before others. -/
theorem Mounting.cons {rs rs' : Store δ} {m : Mount δ} {mounts : List (Mount δ)}
    (hkey : rs.storesParams.lookup m.key = none) (hname : rs.keysByName.lookup m.key.name = none)
    (h : Mounting (rs.withMount m) mounts rs') : Mounting rs (m :: mounts) rs' where
  newKey := by
    refine List.forall_mem_cons.mpr ⟨hkey, fun m' hm' => ?_⟩
    have hnone := h.newKey m' hm'
    rw [Store.params_withMount, Option.or_eq_none_iff] at hnone
    exact hnone.1
  newName := by
    refine List.forall_mem_cons.mpr ⟨hname, fun m' hm' => ?_⟩
    have hnone := h.newName m' hm'
    rw [Store.key_withMount, Option.or_eq_none_iff] at hnone
    exact hnone.1
  params := by
    -- a later store under the same key would have been refused
    have hlater : ∀ m' ∈ mounts, m.key ≠ m'.key := by
      intro m' hm' heq
      have hnone := h.newKey m' hm'
      rw [Store.params_withMount, ← heq, hkey, if_pos rfl] at hnone
      cases hnone
    refine List.forall_mem_cons.mpr ⟨?_, h.params⟩
    rw [h.otherKey m.key hlater, Store.params_withMount, hkey, if_pos rfl]
    rfl
  named := by
    have hlater : ∀ m' ∈ mounts, m.key.name ≠ m'.key.name := by
      intro m' hm' heq
      have hnone := h.newName m' hm'
      rw [Store.key_withMount, ← heq, hname, if_pos rfl] at hnone
      cases hnone
    refine List.forall_mem_cons.mpr ⟨?_, h.named⟩
    rw [h.otherName m.key.name hlater, Store.key_withMount, hname, if_pos rfl]
    rfl
  otherKey key hne := by
    obtain ⟨hm, hne⟩ := List.forall_mem_cons.mp hne
    rw [h.otherKey key hne, Store.params_withMount, if_neg hm, Option.or_none]
  otherName name hne := by
    obtain ⟨hm, hne⟩ := List.forall_mem_cons.mp hne
    rw [h.otherName name hne, Store.key_withMount, if_neg hm, Option.or_none]

theorem mounting_of_mountAll {mounts : List (Mount δ)} {rs rs' : Store δ}
    (h : rs.mountAll mounts = .ok rs') : Mounting rs mounts rs' := by
  induction mounts generalizing rs with
  | nil =>
    cases h
    exact ⟨by simp, by simp, by simp, by simp, fun _ _ => rfl, fun _ _ => rfl⟩
  | cons m mounts ih =>
    rw [Store.mountAll] at h
    obtain ⟨rs₁, hmount, h⟩ := Outcome.bind_eq_ok_iff.mp h
    obtain ⟨hkey, hname, rfl⟩ := mountStoreWithDB_eq_ok_iff.mp hmount
    exact .cons hkey hname (ih h)

/-- A loop that loads the values of a map. -/
theorem lookup_of_collect {l : List (StoreKey × StoreParams δ)}
    {l' : List (StoreKey × CommitKVStore δ)}
    (h : Outcome.collect (fun kp : StoreKey × StoreParams δ => do
      let store ← Store.loadStoreFromParams kp.1 kp.2
      (.ok (kp.1, store) : Result _)) l = .ok l') {key : StoreKey} {params : StoreParams δ}
    (hlookup : l.lookup key = some params) :
    ∃ s, Store.loadStoreFromParams key params = .ok s ∧ l'.lookup key = some s := by
  induction l generalizing l' with
  | nil => cases hlookup
  | cons kp l ih =>
    simp only [Outcome.collect, Outcome.bind_eq_ok_iff, Outcome.ok.injEq] at h
    obtain ⟨ks, ⟨s, hs, rfl⟩, rest, hrest, rfl⟩ := h
    by_cases heq : key = kp.1
    · rw [heq, List.lookup_cons_self, Option.some.injEq] at hlookup
      rw [heq, ← hlookup]
      exact ⟨s, hs, List.lookup_cons_self⟩
    · have hne : (key == kp.1) = false := beq_eq_false_iff_ne.mpr heq
      rw [List.lookup_cons, hne] at hlookup
      obtain ⟨s', hs', hlookup'⟩ := ih hrest hlookup
      exact ⟨s', hs', by rw [List.lookup_cons, hne]; exact hlookup'⟩

theorem loadStores_lookup {rs rs' : Store δ} (h : rs.loadStores = .ok rs') :
    rs'.keysByName = rs.keysByName ∧
    ∀ {key params}, rs.storesParams.lookup key = some params →
      ∃ s, Store.loadStoreFromParams key params = .ok s ∧ rs'.stores.lookup key = some s := by
  rw [Store.loadStores] at h
  obtain ⟨newStores, hcollect, h⟩ := Outcome.bind_eq_ok_iff.mp h
  cases h
  exact ⟨rfl, lookup_of_collect hcollect⟩

/-- A mounted store is found under its name and its key. -/
theorem openMounts_stores {mounts : List (Mount δ)} {rs : Store δ}
    (h : openMounts mounts = .ok rs) :
    (∀ m ∈ mounts, rs.keysByName.lookup m.key.name = some m.key ∧
      ∃ s, Store.loadStoreFromParams m.key m.params = .ok s ∧ rs.stores.lookup m.key = some s) ∧
    ∀ name, (∀ m ∈ mounts, name ≠ m.key.name) → rs.keysByName.lookup name = none := by
  obtain ⟨rs₀, hmount, hload⟩ := Outcome.bind_eq_ok_iff.mp h
  have hmounting := mounting_of_mountAll hmount
  obtain ⟨hnames, hstores⟩ := loadStores_lookup hload
  rw [hnames]
  constructor
  · intro m hm
    exact ⟨hmounting.named m hm, hstores (hmounting.params m hm)⟩
  · intro name hne
    rw [hmounting.otherName name hne]
    rfl

/-! ## The stores of an application -/

/-- The type under which the application mounts a key. -/
def StoreKey.storeType (key : StoreKey) : StoreType :=
  match key.kind with
  | .kv => .db
  | .transient => .transient
  | .memory => .memory

/-- The store keys of an application: distinct names, and none with a separator
in the common database. -/
structure StoreKeys where
  kv : List StoreKey
  transient : List StoreKey
  memory : List StoreKey
  kv_kind : ∀ key ∈ kv, key.kind = .kv
  transient_kind : ∀ key ∈ transient, key.kind = .transient
  memory_kind : ∀ key ∈ memory, key.kind = .memory
  names : ((kv ++ (transient ++ memory)).map StoreKey.name).Nodup
  noSlash : ∀ key ∈ kv, slash ∉ key.name

namespace StoreKeys

variable (K : StoreKeys)

/-- The stores in memory. -/
def volatile : List StoreKey := K.transient ++ K.memory

def all : List StoreKey := K.kv ++ K.volatile

/-- `MountKVStores`, `MountTransientStores`, `MountMemoryStores` and
`LoadLatestVersion`. -/
def openStores : Result (Store δ) := do
  let rs ← newStore.mountStores .db K.kv
  let rs ← rs.mountStores .transient K.transient
  let rs ← rs.mountStores .memory K.memory
  rs.loadStores

theorem nodup : K.all.Nodup := List.Nodup.of_map _ K.names

theorem names_kv_transient : ((K.kv ++ K.transient).map StoreKey.name).Nodup := by
  have hnames := K.names
  rw [← List.append_assoc, List.map_append] at hnames
  exact (List.nodup_append.mp hnames).1

theorem names_kv : (K.kv.map StoreKey.name).Nodup := by
  have hnames := K.names
  rw [List.map_append] at hnames
  exact (List.nodup_append.mp hnames).1

theorem exists_mounts : ∃ rs : Store δ, K.openStores = .ok rs ∧ Mounts rs K.kv K.volatile := by
  have hkv : ∀ key ∈ K.kv, key.storeType = .db := fun key hkey => by
    rw [StoreKey.storeType, K.kv_kind key hkey]
  have htransient : ∀ key ∈ K.transient, key.storeType = .transient := fun key hkey => by
    rw [StoreKey.storeType, K.transient_kind key hkey]
  have hmemory : ∀ key ∈ K.memory, key.storeType = .memory := fun key hkey => by
    rw [StoreKey.storeType, K.memory_kind key hkey]
  have hnames := K.names
  rw [← List.append_assoc] at hnames
  have hmount₁ : (mounted StoreKey.storeType [] : Store δ).mountStores .db K.kv =
      .ok (mounted StoreKey.storeType K.kv) := mountStores_mounted hkv K.names_kv
  have hmount₂ : (mounted StoreKey.storeType K.kv : Store δ).mountStores .transient K.transient =
      .ok (mounted StoreKey.storeType (K.kv ++ K.transient)) :=
    mountStores_mounted htransient K.names_kv_transient
  have hmount₃ : (mounted StoreKey.storeType (K.kv ++ K.transient) : Store δ).mountStores .memory
      K.memory = .ok (mounted StoreKey.storeType K.all) := by
    rw [mountStores_mounted hmemory hnames, List.append_assoc]
    rfl
  have hload : ∀ key ∈ K.all, Loadable key.storeType key := by
    intro key hkey
    rcases List.mem_append.mp hkey with hkey | hkey
    · exact Or.inl (hkv key hkey)
    · rcases List.mem_append.mp hkey with hkey | hkey
      · exact Or.inr (Or.inl ⟨htransient key hkey, K.transient_kind key hkey⟩)
      · exact Or.inr (Or.inr ⟨hmemory key hkey, K.memory_kind key hkey⟩)
  refine ⟨loaded StoreKey.storeType K.all, ?_, mounts_loaded hkv ?_⟩
  · show (mounted StoreKey.storeType [] : Store δ).mountStores .db K.kv >>= _ = _
    rw [hmount₁, Outcome.ok_bind, hmount₂, Outcome.ok_bind, hmount₃, Outcome.ok_bind,
      loadStores_mounted hload]
  · intro key hkey
    rcases List.mem_append.mp hkey with hkey | hkey
    · exact Or.inl (htransient key hkey)
    · exact Or.inr (hmemory key hkey)

end StoreKeys

end store

end FabricIBC
