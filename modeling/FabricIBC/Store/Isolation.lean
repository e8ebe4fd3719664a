import FabricIBC.Chaincode.Effects
import FabricIBC.Database.Iterators
import FabricIBC.Database.Reference
import FabricIBC.Store.Mounting

/-!
# Fabric-IBC — stores: isolation

The stores of the common database behave as maps of their own, side by side with
the records the chaincode puts into the world state itself.

* `Holds` — what a world state is for the stores: their contents, and outside of
  the keys they iterate over anything else (`exists_holds`);
* `Holds.getStateByRange` — a range query between the bounds of a store meets
  pairs of this store only;
* `Holds.perform_eq`, `Holds.flush` — a call of a store is a call of its map, and
  so is the flush of pending writes;
* `stores_isolated` — the two together, for every sequence of calls and every
  order of flushing.
-/

namespace FabricIBC

open Go

namespace store

open compat (Reply stored)
open Reference (Change Contents Fault report)

/-! ## Keys in the world state -/

theorem storePath_eq (name : Bytes) : storePath name = str "s/k:" ++ name ++ [slash] := rfl

theorem cpIncr_append {q : Bytes} {c : UInt8} (hc : c < 255) :
    cpIncr (q ++ [c]) = some (q ++ [c + 1]) := by
  simp [cpIncr, incrReversed, hc]

/-- The key of the world state under which a store keeps a pair. -/
def stateKey (name : Bytes) (k : Key) : Bytes := hexEncode (storePath name ++ k.bytes)

theorem compare_stateKey (name : Bytes) (a b : Key) :
    compare (stateKey name a) (stateKey name b) = compare a b := by
  rw [stateKey, stateKey, compare_hexEncode, compare_append_left]
  rfl

/-- A path is known by its name: names hold no separator. -/
theorem name_eq_of_isPrefix {a b rest : Bytes} (ha : slash ∉ a) (hb : slash ∉ b)
    (h : storePath a <+: storePath b ++ rest) : a = b := by
  obtain ⟨t, ht⟩ := h
  simp only [storePath_eq, List.append_assoc, List.append_cancel_left_eq] at ht
  exact (append_sep_inj_first ha hb ht).1

theorem stateKey_inj {a b : Bytes} (ha : slash ∉ a) (hb : slash ∉ b) {k k' : Key}
    (h : stateKey a k = stateKey b k') : a = b ∧ k = k' := by
  have hpath := hexEncode_injective h
  have hname := name_eq_of_isPrefix ha hb (hpath ▸ List.prefix_append _ _)
  subst hname
  exact ⟨rfl, Key.ext (List.append_cancel_left hpath)⟩

/-! ## Ranges of keys -/

/-- Where an iteration over a store ends. -/
def upper (name : Bytes) : Option Key → Bytes
  | none => str "s/k:" ++ name ++ [slash + 1]
  | some k => storePath name ++ k.bytes

theorem stopKey_eq (name : Bytes) (hi : Option Key) :
    PrefixDB.stopKey (storePath name) (hi.map Key.bytes) = some (upper name hi) := by
  cases hi with
  | none => exact cpIncr_append (by decide)
  | some k => rfl

/-- The bounds of the database, for a key of the store. -/
theorem inRange_stateKey {name : Bytes} {lo hi : Option Key} {k : Key} :
    OrderedMap.InRange (some (hexEncode (storePath name ++ (lo.map Key.bytes).getD [])))
      (some (hexEncode (upper name hi))) (stateKey name k) ↔ OrderedMap.InRange lo hi k := by
  have hlo : (compare (hexEncode (storePath name ++ (lo.map Key.bytes).getD []))
      (stateKey name k)).isLE ↔ ∀ s ∈ lo, (compare s k).isLE := by
    rw [stateKey, compare_hexEncode, compare_append_left]
    cases lo with
    | none => simp [List.isLE_compare_nil_left]
    | some s => simp [compare]
  have hhi : compare (stateKey name k) (hexEncode (upper name hi)) = .lt ↔
      ∀ e ∈ hi, compare k e = .lt := by
    rw [stateKey, compare_hexEncode]
    cases hi with
    | none =>
      -- the incremented prefix ends in the byte after the separator
      have hlt : compare ([slash] ++ k.bytes) [slash + 1] = .lt := by
        rw [List.cons_append, List.compare_cons_cons]
        rfl
      rw [upper, storePath_eq, List.append_assoc, compare_append_left]
      exact iff_of_true hlt (by simp)
    | some e =>
      rw [upper, compare_append_left]
      simp [compare]
  simp [OrderedMap.InRange, hlo, hhi]

/-- A key of the database between the bounds of a store is in the store. -/
theorem isPrefix_of_inBounds {name s y : Bytes} {hi : Option Key}
    (hlo : (compare (storePath name ++ s) y).isLE) (hhi : compare y (upper name hi) = .lt) :
    storePath name <+: y := by
  cases hi with
  | none => exact isPrefix_of_before_succ (by decide) hlo hhi
  | some k => exact isPrefix_of_between hlo hhi

/-- The keys of the world state an iteration over a whole store goes through. -/
def Scanned (name x : Bytes) : Prop :=
  OrderedMap.InRange (some (hexEncode (storePath name))) (some (hexEncode (upper name none))) x

theorem scanned_stateKey (name : Bytes) (k : Key) : Scanned name (stateKey name k) := by
  have hrange : OrderedMap.InRange none none k := ⟨nofun, nofun⟩
  have hscanned : OrderedMap.InRange _ _ (stateKey name k) := inRange_stateKey.mpr hrange
  rwa [Option.map_none, Option.getD_none, List.append_nil] at hscanned

/-- What lies between the bounds of some iteration lies between those of the whole one. -/
theorem scanned_of_inBounds {name s x : Bytes} {hi : Option Key}
    (hlo : (compare (hexEncode (storePath name ++ s)) x).isLE)
    (hhi : compare x (hexEncode (upper name hi)) = .lt) : Scanned name x := by
  have hstart : (compare (hexEncode (storePath name)) (hexEncode (storePath name ++ s))).isLE := by
    rw [compare_hexEncode]
    exact isLE_compare_append (storePath name) s
  have hstop : compare x (hexEncode (upper name none)) = .lt := by
    cases hi with
    | none => exact hhi
    | some k => exact Std.TransCmp.lt_trans hhi ((scanned_stateKey name k).2 _ rfl)
  constructor
  · rintro _ ⟨⟩
    exact Std.TransCmp.isLE_trans hstart hlo
  · rintro _ ⟨⟩
    exact hstop

/-! ## Keys outside the stores -/

/-- A key no iteration over one of the stores goes through. -/
def DirectKey (keys : List StoreKey) (x : Bytes) : Prop := ∀ key ∈ keys, ¬ Scanned key.name x

theorem not_directKey_stateKey {keys : List StoreKey} {key : StoreKey} (hkey : key ∈ keys)
    (k : Key) : ¬ DirectKey keys (stateKey key.name k) :=
  fun h => h key hkey (scanned_stateKey key.name k)

/-- The beginning of every key of a store in the world state. -/
def storesRoot : Bytes := hexEncode (str "s/k:")

theorem storesRoot_eq : storesRoot = str "732f6b3a" := by decide

theorem isPrefix_of_scanned {name x : Bytes} (h : Scanned name x) : storesRoot <+: x := by
  have hlo := h.1 _ rfl
  have hhi := h.2 _ rfl
  rw [storePath_eq, List.append_assoc, hexEncode_append] at hlo
  rw [upper, List.append_assoc, hexEncode_append] at hhi
  exact isPrefix_of_between hlo hhi

/-- It is a `7`, the first digit of `s`. -/
theorem head_of_scanned {name rest : Bytes} {c : UInt8} (h : Scanned name (c :: rest)) :
    c = 55 := by
  obtain ⟨t, ht⟩ := isPrefix_of_scanned h
  rw [storesRoot_eq] at ht
  exact (List.cons.inj ht).1.symm

/-- Sequences and commitments are outside the stores. -/
theorem directKey_of_recordKey (keys : List StoreKey) {x : Bytes} (h : RecordKey x) :
    DirectKey keys x := by
  intro key _ hscanned
  obtain ⟨c, rest, -, rfl⟩ := h
  obtain ⟨t, ht⟩ := isPrefix_of_scanned hscanned
  rw [storesRoot_eq] at ht
  simp [str, slash] at ht

/-- So are packets and acknowledgements. -/
theorem directKey_slash_cons (keys : List StoreKey) (rest : Bytes) :
    DirectKey keys (slash :: rest) := by
  intro key _ hscanned
  exact absurd (head_of_scanned hscanned) (by decide)

/-- A range query between the bounds of a store, where no other keys lie. -/
theorem getStateByRange_eq {stub : Stub} {name : Bytes} {m : Contents} {lo hi : Option Key}
    (hget : ∀ k, stub.state[stateKey name k]? = m[k]?)
    (honly : ∀ x v, stub.state[x]? = some v →
      (compare (hexEncode (storePath name ++ (lo.map Key.bytes).getD [])) x).isLE →
      compare x (hexEncode (upper name hi)) = .lt → ∃ k, x = stateKey name k) :
    stub.getStateByRange (hexEncode (storePath name ++ (lo.map Key.bytes).getD []))
      (hexEncode (upper name hi)) =
    (OrderedMap.range m lo hi).map fun kv => (stateKey name kv.1, kv.2) := by
  have hbound : ∀ bz : Bytes, bz ≠ [] → rangeBound (hexEncode bz) = some (hexEncode bz) :=
    fun bz hbz => if_neg (mt hexEncode_eq_nil_iff.mp hbz)
  have hlo : storePath name ++ (lo.map Key.bytes).getD [] ≠ [] := by simp [storePath_eq]
  have hhi : upper name hi ≠ [] := by cases hi <;> simp [upper, storePath_eq]
  rw [Stub.getStateByRange, hbound _ hlo, hbound _ hhi]
  refine OrderedMap.range_eq_map (fun a b hlt => (compare_stateKey _ a b).trans hlt) ?_ ?_
  · intro k v hk hrange
    exact ⟨(hget k).trans hk, inRange_stateKey.mpr hrange⟩
  · intro x v hx hrange
    obtain ⟨k, rfl⟩ := honly x v hx (hrange.1 _ rfl) (hrange.2 _ rfl)
    exact ⟨k, rfl, (hget k).symm.trans hx, inRange_stateKey.mp hrange⟩

/-! ## World states -/

/-- A world state that holds the contents of the stores and, outside of them, the
records `D`; no other key lies among those of a store. -/
structure Holds (keys : List StoreKey) (M : StoreKey → Contents) (D : Bytes → Option Bytes)
    (ws : WorldState) : Prop where
  get : ∀ key ∈ keys, ∀ k : Key, ws[stateKey key.name k]? = (M key)[k]?
  direct : ∀ x, DirectKey keys x → ws[x]? = D x
  accounted : ∀ x v, ws[x]? = some v → DirectKey keys x ∨ ∃ key ∈ keys, ∃ k, x = stateKey key.name k

/-- Mounted stores: distinct names without a separator. -/
structure Separate (keys : List StoreKey) : Prop where
  names : (keys.map StoreKey.name).Nodup
  noSlash : ∀ key ∈ keys, slash ∉ key.name

theorem Separate.eq_of_name {keys : List StoreKey} (h : Separate keys) {a b : StoreKey}
    (ha : a ∈ keys) (hb : b ∈ keys) (hname : a.name = b.name) : a = b :=
  List.inj_on_of_nodup_map h.names ha hb hname

namespace Holds

variable {keys : List StoreKey} {M : StoreKey → Contents} {D : Bytes → Option Bytes}
  {ws : WorldState}

/-- The contents and the records determine the world state. -/
theorem ext {ws' : WorldState} (h : Holds keys M D ws) (h' : Holds keys M D ws') : ws = ws' := by
  -- a value on one side is a value on the other
  have hsome : ∀ {ws ws' : WorldState}, Holds keys M D ws → Holds keys M D ws' → ∀ {x v : Bytes},
      ws[x]? = some v → ws'[x]? = some v := by
    intro ws ws' h h' x v hx
    rcases h.accounted x v hx with hdirect | ⟨key, hkey, k, rfl⟩
    · rw [h'.direct x hdirect, ← h.direct x hdirect, hx]
    · rw [h'.get key hkey k, ← h.get key hkey k, hx]
  apply Std.ExtTreeMap.ext_getElem?
  intro x
  exact Option.ext fun v => ⟨hsome h h', hsome h' h⟩

theorem congr {M' : StoreKey → Contents} (h : Holds keys M D ws)
    (hM : ∀ key ∈ keys, M key = M' key) : Holds keys M' D ws where
  get key hkey k := by rw [h.get key hkey k, hM key hkey]
  direct := h.direct
  accounted := h.accounted

/-- A change of one store: the others and the records stay. -/
theorem apply (h : Holds keys M D ws) (hsep : Separate keys) {key : StoreKey} (hkey : key ∈ keys)
    (c : Change) :
    Holds keys (Function.update M key (c.apply (M key))) D
      ((c.writeAt (stateKey key.name)).apply ws) where
  get key' hkey' k := by
    by_cases heq : key' = key
    · subst heq
      rw [Function.update_self]
      exact Change.getElem?_writeAt (compare_stateKey key'.name) (h.get key' hkey') c k
    · -- another store has another name, and so other keys
      have hne : (c.writeAt (stateKey key.name)).key ≠ stateKey key'.name k := by
        rw [Change.key_writeAt]
        intro hsame
        have hname := (stateKey_inj (hsep.noSlash key hkey) (hsep.noSlash key' hkey') hsame).1
        exact heq (hsep.eq_of_name hkey' hkey hname.symm)
      rw [Function.update_of_ne heq, getElem?_apply_of_ne hne, h.get key' hkey' k]
  direct x hx := by
    have hne : (c.writeAt (stateKey key.name)).key ≠ x := by
      rw [Change.key_writeAt]
      rintro rfl
      exact not_directKey_stateKey hkey _ hx
    rw [getElem?_apply_of_ne hne, h.direct x hx]
  accounted x v hx := by
    by_cases hwrite : (c.writeAt (stateKey key.name)).key = x
    · exact Or.inr ⟨key, hkey, c.key, hwrite.symm.trans (c.key_writeAt _)⟩
    · exact h.accounted x v ((getElem?_apply_of_ne hwrite).symm.trans hx)

/-- **A range query of the database between the bounds of a store returns pairs
of this store only**, and all of them. -/
theorem getStateByRange {stub : Stub} (h : Holds keys M D stub.state) (hsep : Separate keys)
    {key : StoreKey} (hkey : key ∈ keys) (lo hi : Option Key) :
    stub.getStateByRange (hexEncode (storePath key.name ++ (lo.map Key.bytes).getD []))
      (hexEncode (upper key.name hi)) =
    (OrderedMap.range (M key) lo hi).map fun kv => (stateKey key.name kv.1, kv.2) := by
  refine getStateByRange_eq (h.get key hkey) ?_
  intro x v hx hlo hhi
  -- a record would lie outside the bounds, and so would a pair of another store
  rcases h.accounted x v hx with hdirect | ⟨key', hkey', k, rfl⟩
  · exact absurd (scanned_of_inBounds hlo hhi) (hdirect key hkey)
  · rw [stateKey, compare_hexEncode] at hlo hhi
    have hprefix := isPrefix_of_inBounds hlo hhi
    have hname := name_eq_of_isPrefix (hsep.noSlash key hkey) (hsep.noSlash key' hkey') hprefix
    obtain rfl := hsep.eq_of_name hkey hkey' hname
    exact ⟨k, rfl⟩

end Holds

/-- Every world state holds some contents, as long as only keys of a store lie
between its bounds. -/
theorem exists_holds {keys : List StoreKey} {ws : WorldState}
    (h : ∀ x v, ws[x]? = some v → ∀ key ∈ keys, Scanned key.name x → ∃ k, x = stateKey key.name k) :
    ∃ M, Holds keys M (fun x => ws[x]?) ws := by
  choose m hm using fun name => OrderedMap.exists_inner (compare_stateKey name) ws
  refine ⟨fun key => m key.name, ⟨fun key _ k => (hm key.name k).symm, fun _ _ => rfl, ?_⟩⟩
  intro x v hx
  by_cases hdirect : DirectKey keys x
  · exact Or.inl hdirect
  · simp only [DirectKey, not_forall, not_not] at hdirect
    obtain ⟨key, hkey, hscanned⟩ := hdirect
    exact Or.inr ⟨key, hkey, h x v hx key hkey hscanned⟩

theorem StoreKeys.separate (K : StoreKeys) : Separate K.kv where
  names := K.names_kv
  noSlash := K.noSlash

/-! ## Commands -/

/-- A change of a store as a call of the common database. -/
theorem exists_command (name : Bytes) (c : Change) :
    ∃ cmd, PrefixDB.command (storePath name) c.command = .ok cmd ∧
      cmd.exec = .ok (c.writeAt (stateKey name)) := by
  have hne : ∀ bz, storePath name ++ bz ≠ [] := by simp [storePath_eq]
  cases c with
  | put key value =>
    refine ⟨.set (storePath name ++ key.bytes) (some value), ?_, ?_⟩
    · simp [PrefixDB.command, Change.command, key.nonempty]
    · simp [compat.Command.exec, hne, Change.writeAt, stateKey]
  | remove key =>
    refine ⟨.delete (storePath name ++ key.bytes), ?_, ?_⟩
    · simp [PrefixDB.command, Change.command, key.nonempty]
    · simp [compat.Command.exec, hne, Change.writeAt, stateKey]

theorem exec_command (name : Bytes) (c : Change) :
    PrefixDB.exec (storePath name) c.command = .ok (c.writeAt (stateKey name)) := by
  obtain ⟨cmd, hcmd, hexec⟩ := exists_command name c
  rw [PrefixDB.exec, hcmd, Outcome.ok_bind, hexec]

/-- The keys of a listing with the path in front, as the database returns them. -/
def prefixed (pfx : Bytes) (kv : Bytes × Bytes) : Bytes × Bytes := (pfx ++ kv.1, kv.2)

theorem strip_prefixed {pfx : Bytes} {l : List (Bytes × Bytes)} (hl : ∀ kv ∈ l, kv.1 ≠ []) :
    PrefixDB.strip pfx (l.map (prefixed pfx)) = l := by
  have hfilter : (l.map (prefixed pfx)).filter (fun kv => kv.1 ≠ pfx) = l.map (prefixed pfx) := by
    rw [List.filter_eq_self]
    intro kv hkv
    obtain ⟨kv', hkv', rfl⟩ := List.mem_map.mp hkv
    simp [prefixed, hl kv' hkv']
  rw [PrefixDB.strip, hfilter, List.map_map]
  conv_rhs => rw [← List.map_id l]
  refine List.map_congr_left fun kv _ => ?_
  simp [prefixed]

theorem exec_set (name key : Bytes) (value : Option Bytes) :
    PrefixDB.exec (storePath name) (.set key value) =
      report ((Reference.put key value).map (Change.writeAt (stateKey name))) := by
  by_cases hkey : key = []
  · rw [hkey, Reference.put_nil]
    rfl
  · cases value with
    | none =>
      rw [Reference.put_none hkey, PrefixDB.exec, PrefixDB.command, if_neg hkey]
      rfl
    | some v =>
      rw [Reference.put_some hkey]
      exact exec_command name (.put ⟨key, hkey⟩ v)

theorem exec_delete (name key : Bytes) :
    PrefixDB.exec (storePath name) (.delete key) =
      report ((Reference.remove key).map (Change.writeAt (stateKey name))) := by
  by_cases hkey : key = []
  · rw [hkey, Reference.remove_nil]
    rfl
  · rw [Reference.remove_of_ne hkey]
    exact exec_command name (.remove ⟨key, hkey⟩)

/-! ## Reads -/

section Reads

variable {stub : Stub} {name : Bytes} {m : Contents} {lo hi : Option Key}

theorem stop_ne_nil (name : Bytes) (lo hi : Option Key) :
    ¬ (some (storePath name ++ (lo.map Key.bytes).getD []) = some [] ∨
      some (upper name hi) = some []) := by
  cases hi <;> simp [upper, storePath_eq]

/-- The pairs of a range as the database stores them. -/
theorem map_stateKey_range (name : Bytes) (m : Contents) (lo hi : Option Key) :
    ((OrderedMap.range m lo hi).map fun kv => (stateKey name kv.1, kv.2)) =
      ((Reference.listing m lo hi).map (prefixed (storePath name))).map stored := by
  rw [Reference.listing, List.map_map, List.map_map]
  rfl

theorem iterator_eq_listing
    (hquery : stub.getStateByRange (hexEncode (storePath name ++ (lo.map Key.bytes).getD []))
      (hexEncode (upper name hi)) =
      (OrderedMap.range m lo hi).map fun kv => (stateKey name kv.1, kv.2)) :
    PrefixDB.iterator (storePath name) stub (lo.map Key.bytes) (hi.map Key.bytes) =
      .ok (Reference.listing m lo hi) := by
  rw [map_stateKey_range] at hquery
  rw [PrefixDB.iterator, PrefixDB.iterate, if_neg (Reference.bounds_nonempty lo hi), stopKey_eq,
    compat.ascending_eq (stop_ne_nil name lo hi) hquery, Outcome.ok_bind,
    strip_prefixed Reference.ne_nil_of_mem_listing]

theorem reverseIterator_eq_listing
    (hquery : stub.getStateByRange (hexEncode (storePath name ++ (lo.map Key.bytes).getD []))
      (hexEncode (upper name hi)) =
      (OrderedMap.range m lo hi).map fun kv => (stateKey name kv.1, kv.2)) :
    PrefixDB.reverseIterator (storePath name) stub (lo.map Key.bytes) (hi.map Key.bytes) =
      .ok (Reference.listing m lo hi).reverse := by
  have hnonempty : ∀ kv ∈ (Reference.listing m lo hi).reverse, kv.1 ≠ [] :=
    fun kv hkv => Reference.ne_nil_of_mem_listing kv (List.mem_reverse.mp hkv)
  rw [map_stateKey_range] at hquery
  rw [PrefixDB.reverseIterator, PrefixDB.iterate, if_neg (Reference.bounds_nonempty lo hi),
    stopKey_eq, compat.descending_eq (stop_ne_nil name lo hi) hquery, Outcome.ok_bind,
    ← List.map_reverse, strip_prefixed hnonempty]

theorem get_eq_report (hget : ∀ k, stub.state[stateKey name k]? = m[k]?) (bz : Bytes) :
    PrefixDB.get (storePath name) stub bz =
      report ((Reference.key bz).map fun k => m[k]?) := by
  by_cases hbz : bz = []
  · rw [hbz]
    rfl
  · have hpath : storePath name ++ bz ≠ [] := by simp [hbz]
    rw [PrefixDB.get, if_neg hbz, compat.get, if_neg hpath, Reference.key, dif_neg hbz]
    exact congrArg Outcome.ok (hget ⟨bz, hbz⟩)

end Reads

/-! ## Calls of a store -/

namespace Holds

variable {keys : List StoreKey} {M : StoreKey → Contents} {D : Bytes → Option Bytes}
  {stub : Stub} {key : StoreKey}

theorem get_eq (h : Holds keys M D stub.state) (hkey : key ∈ keys) (bz : Bytes) :
    PrefixDB.get (storePath key.name) stub bz =
      report ((Reference.key bz).map fun k => (M key)[k]?) :=
  get_eq_report (h.get key hkey) bz

theorem has_eq (h : Holds keys M D stub.state) (hkey : key ∈ keys) (bz : Bytes) :
    PrefixDB.has (storePath key.name) stub bz =
      report ((Reference.key bz).map fun k => (M key)[k]?.isSome) := by
  by_cases hbz : bz = []
  · rw [hbz]
    rfl
  · have hpath : storePath key.name ++ bz ≠ [] := by simp [hbz]
    have hget := h.get_eq hkey bz
    rw [PrefixDB.get, if_neg hbz] at hget
    rw [PrefixDB.has, if_neg hbz, compat.has, if_neg hpath, hget, Reference.key, dif_neg hbz]
    rfl

theorem iterator_eq (h : Holds keys M D stub.state) (hsep : Separate keys) (hkey : key ∈ keys)
    (start stop : Option Bytes) :
    PrefixDB.iterator (storePath key.name) stub start stop =
      report (Reference.entries (M key) start stop) := by
  rcases Reference.entries_cases (M key) start stop with ⟨hempty, he⟩ | ⟨lo, hi, rfl, rfl, he⟩
  · rw [he, PrefixDB.iterator, PrefixDB.iterate, if_pos hempty]
    rfl
  · rw [he, iterator_eq_listing (h.getStateByRange hsep hkey lo hi)]
    rfl

theorem reverseIterator_eq (h : Holds keys M D stub.state) (hsep : Separate keys)
    (hkey : key ∈ keys) (start stop : Option Bytes) :
    PrefixDB.reverseIterator (storePath key.name) stub start stop =
      report ((Reference.entries (M key) start stop).map List.reverse) := by
  rcases Reference.entries_cases (M key) start stop with ⟨hempty, he⟩ | ⟨lo, hi, rfl, rfl, he⟩
  · rw [he, PrefixDB.reverseIterator, PrefixDB.iterate, if_pos hempty]
    rfl
  · rw [he, reverseIterator_eq_listing (h.getStateByRange hsep hkey lo hi)]
    rfl

end Holds

/-! ## Maps side by side -/

/-- A call of a store that is a map. -/
def request (m : Contents) : Request → Except Fault (Reply × Contents)
  | .get bz => ((Reference.key bz).map fun k => m[k]?).map fun v => (.value v, m)
  | .has bz => ((Reference.key bz).map fun k => m[k]?.isSome).map fun b => (.found b, m)
  | .set bz value => (Reference.put bz value).map fun c => (.done, c.apply m)
  | .delete bz => (Reference.remove bz).map fun c => (.done, c.apply m)
  | .iterator start stop => (Reference.entries m start stop).map fun l => (.pairs l, m)
  | .reverseIterator start stop =>
    ((Reference.entries m start stop).map List.reverse).map fun l => (.pairs l, m)

/-- The outcome of a call of one map among several. The adapter panics on a fault. -/
def settle (M : StoreKey → Contents) (key : StoreKey) :
    Except Fault (Reply × Contents) → Result Reply × (StoreKey → Contents)
  | .ok r => (.ok r.1, Function.update M key r.2)
  | .error f => (orPanic f.report, M)

/-- A call of one of several maps. -/
def Maps.step (keys : List StoreKey) (M : StoreKey → Contents) (req : StoreKey × Request) :
    Result Reply × (StoreKey → Contents) :=
  if req.1 ∈ keys then settle M req.1 (request (M req.1) req.2) else (.panic .typeAssertion, M)

namespace Holds

variable {keys : List StoreKey} {M : StoreKey → Contents} {D : Bytes → Option Bytes}
  {stub : Stub} {key : StoreKey}

/-- A call that reads. -/
theorem read {α : Type} (h : Holds keys M D stub.state) (key : StoreKey) {r : Result α}
    {e : Except Fault α} (hr : r = report e) (mk : α → Reply) :
    (orPanic r >>= fun a => .ok (mk a)) = (settle M key (e.map fun a => (mk a, M key))).1 ∧
    Holds keys (settle M key (e.map fun a => (mk a, M key))).2 D stub.state := by
  rw [hr]
  cases e with
  | error f => exact ⟨by cases f <;> rfl, h⟩
  | ok a =>
    refine ⟨rfl, ?_⟩
    show Holds keys (Function.update M key (M key)) D stub.state
    rwa [Function.update_eq_self]

/-- A call that writes. -/
theorem write_eq (h : Holds keys M D stub.state) (hsep : Separate keys) (hkey : key ∈ keys)
    {cmd : compat.Command} {e : Except Fault Change}
    (hexec : PrefixDB.exec (storePath key.name) cmd =
      report (e.map (Change.writeAt (stateKey key.name)))) :
    (write (storePath key.name) stub cmd).1 =
      (settle M key (e.map fun c => (.done, c.apply (M key)))).1 ∧
    Holds keys (settle M key (e.map fun c => (.done, c.apply (M key)))).2 D
      (write (storePath key.name) stub cmd).2.state := by
  cases e with
  | error f =>
    have hwrite : write (storePath key.name) stub cmd = (orPanic f.report, stub) := by
      rw [write, hexec]
      cases f <;> rfl
    rw [hwrite]
    exact ⟨rfl, h⟩
  | ok c =>
    have hwrite : write (storePath key.name) stub cmd =
        (.ok .done, stub.write (c.writeAt (stateKey key.name))) := by
      rw [write, hexec]
      rfl
    rw [hwrite]
    exact ⟨rfl, h.apply hsep hkey c⟩

/-- **A call of a store is a call of its map.** -/
theorem perform_eq (h : Holds keys M D stub.state) (hsep : Separate keys) (hkey : key ∈ keys)
    (req : Request) :
    (perform (storePath key.name) stub req).1 = (settle M key (request (M key) req)).1 ∧
    Holds keys (settle M key (request (M key) req)).2 D
      (perform (storePath key.name) stub req).2.state := by
  cases req with
  | get bz => exact h.read key (h.get_eq hkey bz) .value
  | has bz => exact h.read key (h.has_eq hkey bz) .found
  | set bz value => exact h.write_eq hsep hkey (exec_set key.name bz value)
  | delete bz => exact h.write_eq hsep hkey (exec_delete key.name bz)
  | iterator start stop => exact h.read key (h.iterator_eq hsep hkey start stop) .pairs
  | reverseIterator start stop =>
    exact h.read key (h.reverseIterator_eq hsep hkey start stop) .pairs

end Holds

/-! ## Runs -/

section Runs

variable {δ : Type} {rs : Store δ} {keys others : List StoreKey} {M : StoreKey → Contents}
  {D : Bytes → Option Bytes}

theorem Holds.step (hrs : Mounts rs keys []) (hsep : Separate keys) {stub : Stub}
    (h : Holds keys M D stub.state) (req : StoreKey × Request) :
    (rs.step stub req).1 = (Maps.step keys M req).1 ∧
    Holds keys (Maps.step keys M req).2 D (rs.step stub req).2.state := by
  by_cases hkey : req.1 ∈ keys
  · rw [Store.step, hrs.common req.1 hkey, Maps.step, if_pos hkey]
    exact h.perform_eq hsep hkey req.2
  · have hnone : req.1 ∉ keys ++ [] := by rwa [List.append_nil]
    rw [Store.step, hrs.absent req.1 hnone, Maps.step, if_neg hkey]
    exact ⟨rfl, h⟩

/-- The pending changes of one store reach the world state. -/
theorem Holds.applyWrites (hsep : Separate keys) {ws : WorldState} (h : Holds keys M D ws)
    {key : StoreKey} (hkey : key ∈ keys) (changes : List Change) :
    Holds keys (Function.update M key (changes.foldl Change.apply (M key))) D
      (FabricIBC.applyWrites ws (changes.map (Change.writeAt (stateKey key.name)))) := by
  induction changes generalizing M ws with
  | nil =>
    rw [List.foldl_nil, Function.update_eq_self]
    exact h
  | cons c changes ih =>
    have hrest := ih (h.apply hsep hkey c)
    rw [Function.update_self, Function.update_idem] at hrest
    exact hrest

theorem commands_adapter (key : StoreKey) (changes : List Change) :
    ∃ commands, (CommitKVStore.adapter none (storePath key.name) : CommitKVStore δ).commands
        (changes.map Change.command) = .ok commands ∧
      compat.flush commands = .ok (changes.map (Change.writeAt (stateKey key.name))) := by
  induction changes with
  | nil => exact ⟨[], rfl, rfl⟩
  | cons c changes ih =>
    obtain ⟨rest, hrest, hflush⟩ := ih
    obtain ⟨cmd, hcmd, hexec⟩ := exists_command key.name c
    refine ⟨cmd :: rest, ?_, ?_⟩
    · rw [CommitKVStore.commands] at hrest
      rw [List.map_cons, CommitKVStore.commands, Outcome.collect, hcmd, hrest]
      rfl
    · rw [compat.flush] at hflush
      rw [compat.flush, Outcome.collect, hexec, hflush]
      rfl

/-- Stores elsewhere do not write to the world state. -/
theorem commands_elsewhere {s : CommitKVStore δ} (hs : ∀ pfx, s ≠ .adapter none pfx)
    (pending : List compat.Command) : s.commands pending = .ok [] := by
  cases s with
  | adapter db pfx =>
    cases db with
    | none => exact absurd rfl (hs pfx)
    | some db => rfl
  | transient => rfl
  | mem => rfl

theorem flush_append (l l' : List compat.Command) :
    compat.flush (l ++ l') = (do
      let writes ← compat.flush l
      let writes' ← compat.flush l'
      .ok (writes ++ writes')) := Outcome.collect_append _ l l'

/-- The stores are flushed one after the other. -/
theorem Holds.flush (hrs : Mounts rs keys others) (hsep : Separate keys) {ws : WorldState}
    (h : Holds keys M D ws) (pending : StoreKey → List Change) {order : List StoreKey}
    (horder : ∀ key ∈ order, key ∈ keys ++ others) (hnodup : order.Nodup) :
    ∃ commands writes,
      rs.commands (fun key => (pending key).map Change.command) order = .ok commands ∧
      compat.flush commands = .ok writes ∧
      Holds keys
        (fun key => if key ∈ order then (pending key).foldl Change.apply (M key) else M key) D
        (FabricIBC.applyWrites ws writes) := by
  -- the stores of the order are flushed from the front; none of them comes again
  induction order generalizing M ws with
  | nil =>
    refine ⟨[], [], rfl, rfl, ?_⟩
    simp only [List.not_mem_nil, if_false]
    exact h
  | cons key order ih =>
    obtain ⟨hkey, horder⟩ := List.forall_mem_cons.mp horder
    obtain ⟨hnew, hnodup⟩ := List.nodup_cons.mp hnodup
    rcases List.mem_append.mp hkey with hkey | hother
    · obtain ⟨rest, writes, hrest, hwrites, hholds⟩ :=
        ih (h.applyWrites hsep hkey (pending key)) horder hnodup
      obtain ⟨commands, hcommands, hflush⟩ := commands_adapter (δ := δ) key (pending key)
      refine ⟨commands ++ rest,
        (pending key).map (Change.writeAt (stateKey key.name)) ++ writes, ?_, ?_, ?_⟩
      · rw [Store.commands, hrs.common key hkey, Outcome.ok_bind, hcommands, Outcome.ok_bind, hrest,
          Outcome.ok_bind]
      · rw [flush_append, hflush, hwrites]
        rfl
      · rw [applyWrites_append]
        refine hholds.congr fun key' _ => ?_
        by_cases heq : key' = key
        · subst heq
          simp [hnew]
        · simp [heq]
    · obtain ⟨rest, writes, hrest, hwrites, hholds⟩ := ih h horder hnodup
      obtain ⟨s, hs, hne⟩ := hrs.elsewhere key hother
      refine ⟨rest, writes, ?_, hwrites, ?_⟩
      · rw [Store.commands, hs, Outcome.ok_bind, commands_elsewhere hne, Outcome.ok_bind, hrest,
          Outcome.ok_bind, List.nil_append]
      · refine hholds.congr fun key' hkey' => ?_
        have heq : key' ≠ key := fun heq => hrs.disjoint hkey' (heq ▸ hother)
        simp [heq]

theorem Holds.flush_all (hrs : Mounts rs keys others) (hsep : Separate keys) {ws : WorldState}
    (h : Holds keys M D ws) (pending : StoreKey → List Change) (order : List StoreKey)
    (horder : order.Perm (keys ++ others)) (hnodup : order.Nodup) :
    ∃ writes, rs.flush (fun key => (pending key).map Change.command) order = .ok writes ∧
      Holds keys (fun key => (pending key).foldl Change.apply (M key)) D
        (FabricIBC.applyWrites ws writes) := by
  obtain ⟨commands, writes, hcommands, hflush, hws⟩ :=
    h.flush hrs hsep pending (fun key hkey => horder.mem_iff.mp hkey) hnodup
  refine ⟨writes, by rw [Store.flush, hcommands, Outcome.ok_bind, hflush], hws.congr ?_⟩
  intro key hkey
  rw [if_pos (horder.mem_iff.mpr (List.mem_append_left _ hkey))]

/-- **Stores of the common database are maps side by side.** Mounted under
distinct names without a separator, they load; from any world state that holds
their contents and records outside of them, every sequence of calls gets the
replies of the maps and leaves the records alone; and pending changes lead to
one world state in whatever order the stores are flushed. -/
theorem stores_isolated (hsep : Separate keys) :
    ∃ rs : Store δ, (do
      let rs ← newStore.mountStores .db keys
      rs.loadStores) = .ok rs ∧
    ∀ (M : StoreKey → Contents) (D : Bytes → Option Bytes) (stub : Stub),
      Holds keys M D stub.state →
      (∀ reqs : List (StoreKey × Request),
        (Run.transcript rs.step stub reqs).1 = (Run.transcript (Maps.step keys) M reqs).1 ∧
        Holds keys (Run.transcript (Maps.step keys) M reqs).2 D
          (Run.transcript rs.step stub reqs).2.state) ∧
      ∀ pending : StoreKey → List Change, ∃ ws,
        Holds keys (fun key => (pending key).foldl Change.apply (M key)) D ws ∧
        ∀ order : List StoreKey, order.Perm keys → ∃ writes,
          rs.flush (fun key => (pending key).map Change.command) order = .ok writes ∧
          FabricIBC.applyWrites stub.state writes = ws := by
  obtain ⟨rs, hload, hrs⟩ := exists_mounts_of_db (δ := δ) hsep.names
  refine ⟨rs, hload, ?_⟩
  intro M D stub h
  constructor
  · intro reqs
    obtain ⟨hreplies, hend⟩ := Run.transcript_eq (f := id)
      (R := fun (stub : Stub) M => Holds keys M D stub.state) (fun _ _ req h => h.step hrs hsep req)
      h reqs
    exact ⟨hreplies.trans (List.map_id _), hend⟩
  · intro pending
    have hnodup : keys.Nodup := List.Nodup.of_map _ hsep.names
    have hflush : ∀ order : List StoreKey, order.Perm keys → _ := fun order horder =>
      h.flush_all hrs hsep pending order (by rwa [List.append_nil]) (horder.nodup_iff.mpr hnodup)
    obtain ⟨writes, -, hws⟩ := hflush keys (List.Perm.refl keys)
    refine ⟨_, hws, ?_⟩
    intro order horder
    -- any order leads to the same contents, and these determine the world state
    obtain ⟨writes', hwrites', hws'⟩ := hflush order horder
    exact ⟨writes', hwrites', hws'.ext hws⟩

end Runs

/-- A world state with records only. -/
theorem holds_record {keys : List StoreKey} {x : Bytes} (hx : DirectKey keys x) (v : Bytes) :
    Holds keys (fun _ => ∅) (fun y => if y = x then some v else none)
      (Write.apply ∅ (.put x v)) where
  get key hkey k := by
    have hne : x ≠ stateKey key.name k := by
      rintro rfl
      exact not_directKey_stateKey hkey _ hx
    rw [getElem?_apply_put_of_ne hne]
    simp
  direct y _ := by
    by_cases hy : y = x
    · rw [hy, getElem?_apply_self, if_pos rfl]
    · rw [getElem?_apply_put_of_ne (Ne.symm hy), if_neg hy]
      simp
  accounted y w hy := by
    by_cases hxy : x = y
    · exact Or.inl (hxy ▸ hx)
    · rw [getElem?_apply_put_of_ne hxy] at hy
      simp at hy

def ibcKey : StoreKey := ⟨0, .kv, host.storeKey⟩

def bankKey : StoreKey := ⟨1, .kv, str "bank"⟩

/-- A stub whose state is the record of the current sequence. -/
def recordStub : Stub :=
  ⟨Write.apply ∅ (.put (makeCurrentSequenceKey host.storeKey) [1]), [], .ok 0, 0, .ok []⟩

/-- Two stores next to the record of the current sequence. -/
theorem stores_isolated_two :
    ∃ rs : Store Unit,
      (Run.transcript rs.step recordStub
        [(ibcKey, .set [1] (some [9])), (bankKey, .iterator none none),
          (ibcKey, .reverseIterator none none)]).1 =
      [.ok .done, .ok (.pairs []), .ok (.pairs [([1], [9])])] := by
  have hsep : Separate [ibcKey, bankKey] := ⟨by decide, by decide⟩
  obtain ⟨rs, -, hrs⟩ := stores_isolated (δ := Unit) hsep
  have hstate := holds_record
    (directKey_of_recordKey [ibcKey, bankKey] (makeCurrentSequenceKey_recordKey host.storeKey)) [1]
  have hrun := (hrs _ _ recordStub hstate).1 [(ibcKey, .set [1] (some [9])),
    (bankKey, .iterator none none), (ibcKey, .reverseIterator none none)]
  refine ⟨rs, hrun.1.trans ?_⟩
  decide +kernel

end store

end FabricIBC
