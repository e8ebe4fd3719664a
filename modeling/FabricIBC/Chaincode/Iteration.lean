import FabricIBC.Chaincode.KeySpace
import FabricIBC.Chaincode.Sample
import FabricIBC.Database.Refinement

/-!
# Fabric-IBC — chaincode: iterating the database

The database shares its world state with records that are written past it:
sequences, commitment entries, packets and acknowledgements. A range query of
the stub does not know the difference. The names of these records contain a
slash, so no iterator can decode them, and `Iterator.Key` panics.

* `Undisturbed` — no such record lies between the bounds of the query;
* `iteration_iff_undisturbed` — in every reachable world state, this is exactly
  when the iterators of the database list its pairs; otherwise they panic;
* `undisturbed_of_bounds` — with two bounds on one side of `0xe0` nothing can
  get in between, whatever was written. The ranges of the stores are such.
-/

namespace FabricIBC

open Go

open Reference (Contents)

/-! ## Undecodable keys -/

theorem hexDecode_eq_none {x : Bytes} (h : slash ∈ x) : hexDecode x = none := by
  have hdigit : fromHexChar slash = none := by decide
  induction x using hexDecode.induct with
  | case1 => simp at h
  | case2 => rfl
  | case3 a b bs ih =>
    rw [hexDecode]
    rcases List.mem_cons.mp h with rfl | h
    · rw [hdigit]
      rfl
    · rcases List.mem_cons.mp h with rfl | h
      · rw [hdigit]
        cases fromHexChar a <;> rfl
      · rw [ih h]
        cases fromHexChar a <;> cases fromHexChar b <;> rfl

namespace compat

/-- The loop over an iterator stops at the first key it cannot decode. -/
theorem drain_newIterator_panics {l : List (Bytes × Bytes)} (h : ∃ kv ∈ l, hexDecode kv.1 = none)
    {fuel : Nat} (hfuel : l.length < fuel) : (drain fuel (newIterator l)).Panics := by
  induction l generalizing fuel with
  | nil => simp at h
  | cons kv l ih =>
    obtain ⟨fuel, rfl⟩ := Nat.exists_eq_succ_of_ne_zero (Nat.ne_zero_of_lt hfuel)
    have hvalid : DBIterator.valid (newIterator (kv :: l)) = true := rfl
    rw [drain, if_pos hvalid]
    cases hkey : hexDecode kv.1 with
    | none =>
      have hpanic : DBIterator.key (newIterator (kv :: l)) =
          .panic (.explicit "hex.DecodeString") := by
        show Iterator.key (newIterator (kv :: l)) = _
        simp [newIterator, Iterator.next, Iterator.key, hkey]
      rw [hpanic]
      exact ⟨_, rfl⟩
    | some bz =>
      -- the head decodes, so the bad key is further on
      have hrest : ∃ kv ∈ l, hexDecode kv.1 = none := by
        obtain ⟨kv', hmem, hnone⟩ := h
        rcases List.mem_cons.mp hmem with rfl | hmem
        · rw [hkey] at hnone
          cases hnone
        · exact ⟨kv', hmem, hnone⟩
      have hok : DBIterator.key (newIterator (kv :: l)) = .ok bz := by
        show Iterator.key (newIterator (kv :: l)) = _
        simp [newIterator, Iterator.next, Iterator.key, hkey]
      have hvalue : DBIterator.value (newIterator (kv :: l)) = .ok kv.2 := rfl
      have hnext : DBIterator.next (newIterator (kv :: l)) = .ok (newIterator l) := by
        show Outcome.ok (newIterator (kv :: l)).next = _
        cases l <;> rfl
      rw [hok, hvalue, hnext]
      obtain ⟨p, hp⟩ := ih hrest (Nat.lt_of_succ_lt_succ hfuel)
      simp only [Outcome.ok_bind, hp, Outcome.panic_bind]
      exact ⟨p, rfl⟩

section Listing

variable {stub : Stub} {start stop : Option Bytes}

/-- A range that meets an undecodable key cannot be listed in either direction. -/
theorem listing_panics (hbounds : ¬ (start = some [] ∨ stop = some []))
    (h : ∃ kv ∈ stub.getStateByRange (hexEncode (start.getD [])) (hexEncode (stop.getD [])),
      hexDecode kv.1 = none) :
    (ascending stub start stop).Panics ∧ (descending stub start stop).Panics := by
  have hturns : (stub.getStateByRange (hexEncode (start.getD []))
      (hexEncode (stop.getD []))).length < turns stub :=
    Nat.lt_succ_of_le (OrderedMap.length_range_le _ _ _)
  obtain ⟨p, hp⟩ := drain_newIterator_panics h hturns
  constructor
  · rw [ascending, iterator_eq hbounds, Outcome.ok_bind, hp]
    exact ⟨p, rfl⟩
  · -- the reverse iterator reads everything when it is made
    rw [descending, reverseIterator, iterator_eq hbounds, Outcome.ok_bind, reverse, hp]
    exact ⟨p, rfl⟩

end Listing

/-! ## World states of the chaincode -/

/-- No record written past the database lies between the hex dumps of the bounds. -/
def Undisturbed (ws : WorldState) (lo hi : Option Key) : Prop :=
  ∀ x v, ws[x]? = some v → OrderedMap.InRange (lo.map dbKey) (hi.map dbKey) x → slash ∉ x

end compat

open compat

/-- A key of the chaincode is that of a pair of the database, or contains a slash. -/
theorem WrittenKey.dbKey_or_slash {x : Bytes} (h : WrittenKey x) :
    (∃ k, x = dbKey k) ∨ slash ∈ x := by
  obtain ⟨k, hk, rfl⟩ := h
  by_cases hdb : ∃ key, k = .database key
  · obtain ⟨key, rfl⟩ := hdb
    exact Or.inl ⟨⟨key, fun hnil => hk (hnil ▸ rfl)⟩, rfl⟩
  · exact Or.inr (StateKey.slash_mem_bytes (not_exists.mp hdb))

/-- The part of a world state that the database sees, between bounds that nothing disturbs. -/
theorem getStateByRange_of_undisturbed (stub : Stub) {m : Contents}
    (hget : ∀ k, m[k]? = stub.state[dbKey k]?)
    (hkeys : ∀ x v, stub.state[x]? = some v → WrittenKey x) {lo hi : Option Key}
    (h : Undisturbed stub.state lo hi) :
    stub.getStateByRange (hexEncode ((lo.map Key.bytes).getD []))
      (hexEncode ((hi.map Key.bytes).getD [])) =
    (Reference.listing m lo hi).map compat.stored := by
  rw [Stub.getStateByRange, Represents.rangeBound_eq, Represents.rangeBound_eq, Reference.listing,
    List.map_map]
  refine OrderedMap.range_eq_map (fun a b hlt => (compare_dbKey a b).trans hlt) ?_ ?_
  · intro k v hk hrange
    exact ⟨(hget k).symm.trans hk, (OrderedMap.inRange_map compare_dbKey).mpr hrange⟩
  · intro x v hx hrange
    rcases (hkeys x v hx).dbKey_or_slash with ⟨k, rfl⟩ | hslash
    · exact ⟨k, rfl, (hget k).trans hx, (OrderedMap.inRange_map compare_dbKey).mp hrange⟩
    · exact absurd hslash (h x v hx hrange)

/-- **When the database can be iterated.** In every reachable world state and
between all bounds the iterators list exactly the pairs of the database unless a
record written past it lies between the bounds; then they panic. -/
theorem iteration_iff_undisturbed {C : Codec} (cc : IBCChaincode C) (invs : List Invocation)
    (inv : Invocation) :
    ∃ m : Contents,
      (∀ k : Key, compat.get (inv.stub (Run.run cc.commit ∅ invs)) k.bytes = .ok m[k]?) ∧
      ∀ lo hi : Option Key,
        ((ascending (inv.stub (Run.run cc.commit ∅ invs)) (lo.map Key.bytes) (hi.map Key.bytes) =
            .ok (Reference.listing m lo hi) ∧
          descending (inv.stub (Run.run cc.commit ∅ invs)) (lo.map Key.bytes) (hi.map Key.bytes) =
            .ok (Reference.listing m lo hi).reverse) ↔
          Undisturbed (Run.run cc.commit ∅ invs) lo hi) ∧
        (¬ Undisturbed (Run.run cc.commit ∅ invs) lo hi →
          (ascending (inv.stub (Run.run cc.commit ∅ invs)) (lo.map Key.bytes)
            (hi.map Key.bytes)).Panics ∧
          (descending (inv.stub (Run.run cc.commit ∅ invs)) (lo.map Key.bytes)
            (hi.map Key.bytes)).Panics) := by
  obtain ⟨m, hm⟩ := OrderedMap.exists_inner compare_dbKey (Run.run cc.commit ∅ invs)
  refine ⟨m, ?_, ?_⟩
  · -- `Get` shows the contents, whatever else is there
    intro k
    rw [compat.get, if_neg k.nonempty, hm]
    rfl
  · intro lo hi
    have hbounds := Reference.bounds_nonempty lo hi
    have hpanics : ¬ Undisturbed (Run.run cc.commit ∅ invs) lo hi →
        (ascending (inv.stub (Run.run cc.commit ∅ invs)) (lo.map Key.bytes)
          (hi.map Key.bytes)).Panics ∧
        (descending (inv.stub (Run.run cc.commit ∅ invs)) (lo.map Key.bytes)
          (hi.map Key.bytes)).Panics := by
      intro hdisturbed
      simp only [Undisturbed, not_forall, not_not] at hdisturbed
      obtain ⟨x, v, hx, hrange, hslash⟩ := hdisturbed
      refine listing_panics hbounds ⟨(x, v), ?_, hexDecode_eq_none hslash⟩
      rw [Stub.getStateByRange, Represents.rangeBound_eq, Represents.rangeBound_eq]
      exact OrderedMap.mem_range.mpr ⟨hx, hrange⟩
    refine ⟨⟨?_, ?_⟩, hpanics⟩
    · -- a listing is no panic
      rintro ⟨hasc, -⟩
      by_contra hdisturbed
      obtain ⟨p, hp⟩ := (hpanics hdisturbed).1
      rw [hasc] at hp
      cases hp
    · intro hclear
      have hquery := getStateByRange_of_undisturbed (inv.stub (Run.run cc.commit ∅ invs)) hm
        (fun x v hx => reachable_stateKey cc invs hx) hclear
      exact ⟨ascending_eq hbounds hquery, descending_eq hbounds hquery⟩

namespace Sample

/-- A chaincode that has been initialised. -/
def initialised : WorldState := Run.run chaincode.commit ∅ [callAt 1 (.initChaincode [])]

/-- The same after one endorsement. -/
def endorsed : WorldState :=
  Run.run chaincode.commit ∅
    [callAt 1 (.initChaincode []), callAt 2 (.endorsePacketReceiptAbsence port channel 1)]

end Sample

/-- The sequence records are in the way of a listing of the whole database, and
an entry in that of the keys between `0xdf` and `0xe0`. -/
theorem iteration_panics :
    ascending ((Sample.callAt 2 .updateSequence).stub Sample.initialised) none none =
      .panic (.explicit "hex.DecodeString") ∧
    descending ((Sample.callAt 2 .updateSequence).stub Sample.initialised) none none =
      .panic (.explicit "hex.DecodeString") ∧
    ascending ((Sample.callAt 3 .updateSequence).stub Sample.endorsed) (some [0xdf]) (some [0xe0]) =
      .panic (.explicit "hex.DecodeString") := by
  refine ⟨?_, ?_, ?_⟩ <;> decide +kernel

/-! ## Safe bounds -/

/-- How the records written past the database begin. -/
theorem WrittenKey.lead_of_slash {x : Bytes} (h : WrittenKey x) (hslash : slash ∈ x) :
    (∃ r, x = slash :: r) ∨ (∃ r, x = 104 :: r) ∨ ∃ r, x = 101 :: slash :: r := by
  obtain ⟨k, -, rfl⟩ := h
  by_cases hdb : ∃ key, k = .database key
  · obtain ⟨key, rfl⟩ := hdb
    exact absurd hslash (slash_notMem_hexEncode key)
  · rw [StateKey.bytes_eq (not_exists.mp hdb)]
    have hscheme := StateKey.scheme_mem (not_exists.mp hdb)
    simp only [List.mem_cons, List.not_mem_nil, or_false] at hscheme
    rcases hscheme with hs | hs | hs | hs | hs <;> rw [hs]
    · exact Or.inr (Or.inl ⟨_, rfl⟩)
    · exact Or.inr (Or.inl ⟨_, rfl⟩)
    · exact Or.inr (Or.inr ⟨_, rfl⟩)
    · exact Or.inl ⟨_, rfl⟩
    · exact Or.inl ⟨_, rfl⟩

/-- The two digits of the first byte lead the hex dump. -/
theorem dbKey_lead (k : Key) :
    ∃ c l, k.bytes = c :: l ∧
      dbKey k = hexDigit (c.toNat / 16) :: hexDigit (c.toNat % 16) :: hexEncode l := by
  obtain ⟨c, l, hk⟩ := List.exists_cons_of_ne_nil k.nonempty
  refine ⟨c, l, hk, ?_⟩
  rw [dbKey, hk, hexEncode]

theorem hexDigit_range {n : Nat} (h : n < 16) :
    48 ≤ (hexDigit n).toNat ∧ (hexDigit n).toNat ≤ 102 ∧
      ((hexDigit n).toNat < 101 ↔ n < 14) ∧ ((hexDigit n).toNat = 101 ↔ n = 14) := by
  rw [hexDigit_toNat h]
  split <;> omega

/-- **Between bounds on one side of `0xe0` the database can always be iterated.** -/
theorem undisturbed_of_bounds {C : Codec} (cc : IBCChaincode C) (invs : List Invocation) {a b : Key}
    (hside : compare b.bytes [0xe0] = .lt ∨ (compare [0xe0] a.bytes).isLE) :
    Undisturbed (Run.run cc.commit ∅ invs) (some a) (some b) := by
  intro x v hx hrange hslash
  have hlo : (compare (dbKey a) x).isLE := hrange.1 (dbKey a) rfl
  have hhi : compare x (dbKey b) = .lt := hrange.2 (dbKey b) rfl
  obtain ⟨ca, la, ha, hda⟩ := dbKey_lead a
  obtain ⟨cb, lb, hb, hdb⟩ := dbKey_lead b
  have hra := hexDigit_range (n := ca.toNat / 16) (by have := ca.toNat_lt; omega)
  have hra' := hexDigit_range (n := ca.toNat % 16) (by omega)
  have hrb := hexDigit_range (n := cb.toNat / 16) (by have := cb.toNat_lt; omega)
  rw [hda] at hlo
  rw [hdb] at hhi
  -- `x` is below the lower bound or not below the upper one
  replace hlo := Std.OrientedCmp.not_lt_of_isLE hlo
  replace hhi := Std.OrientedCmp.not_lt_of_lt hhi
  rcases (reachable_stateKey cc invs hx).lead_of_slash hslash with ⟨r, rfl⟩ | ⟨r, rfl⟩ | ⟨r, rfl⟩
  · -- a slash sorts before every digit
    exact hlo (compare_cons_of_lt (by show 47 < _; omega) _ _)
  · -- and the letter `h` behind every digit
    exact hhi (compare_cons_of_lt (by show _ < 104; omega) _ _)
  · -- `e/` lies between the dumps of bytes below and from `0xe0`
    rcases hside with hside | hside
    · rw [hb] at hside
      have hcb : cb.toNat < 224 := compare_singleton_eq_lt_iff.mp hside
      exact hhi (compare_cons_of_lt (by show _ < 101; omega) _ _)
    · rw [ha] at hside
      have hca : ¬ ca.toNat < 224 := fun hlt =>
        Std.OrientedCmp.not_lt_of_isLE hside (compare_singleton_eq_lt_iff.mpr hlt)
      rcases Nat.lt_or_ge 101 (hexDigit (ca.toNat / 16)).toNat with hgt | hle
      · exact hlo (compare_cons_of_lt (by show 101 < _; exact hgt) _ _)
      · -- the first digit is an `e`, and the second one comes behind the slash
        have he : 101 = hexDigit (ca.toNat / 16) := UInt8.toNat_inj.mp (by show 101 = _; omega)
        rw [← he, List.compare_cons_cons, Std.ReflOrd.compare_self, Ordering.eq_then] at hlo
        exact hlo (compare_cons_of_lt (by show 47 < _; omega) _ _)

end FabricIBC
