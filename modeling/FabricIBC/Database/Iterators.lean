import FabricIBC.Database.Definitions

/-!
# Fabric-IBC — database: loops over iterators

A loop over an iterator of the database reads what the query of the stub
returns, with the keys decoded, and turned round for `ReverseIterator`:

* `drain_newIterator`, `drain_newSimpleIterator` — what the loops read;
* `reverseAnySlice_eq` — swapping the ends reverses a slice;
* `ascending_eq`, `descending_eq` — the listings of the database.
-/

namespace FabricIBC

open Go

namespace compat

section Drain

variable {ι : Type} [DBIterator ι] {itr itr' : ι} {fuel : Nat}

theorem drain_of_invalid (hvalid : DBIterator.valid itr = false) :
    drain (fuel + 1) itr = .ok [] := by
  rw [drain, hvalid]
  rfl

theorem drain_of_valid {k v : Bytes} {items : List (Bytes × Bytes)}
    (hvalid : DBIterator.valid itr = true) (hkey : DBIterator.key itr = .ok k)
    (hvalue : DBIterator.value itr = .ok v) (hnext : DBIterator.next itr = .ok itr')
    (hrest : drain fuel itr' = .ok items) : drain (fuel + 1) itr = .ok ((k, v) :: items) := by
  rw [drain, if_pos hvalid, hkey, hvalue, hnext]
  simp [hrest]

end Drain

/-- A pair as it is kept in the world state. -/
def stored (kv : Bytes × Bytes) : Bytes × Bytes := (hexEncode kv.1, kv.2)

/-- The loop over a forward iterator reads the pairs of the query, with their
keys decoded. -/
theorem drain_newIterator (l : List (Bytes × Bytes)) {fuel : Nat} (hfuel : l.length < fuel) :
    drain fuel (newIterator (l.map stored)) = .ok l := by
  induction l generalizing fuel with
  | nil =>
    obtain ⟨fuel, rfl⟩ := Nat.exists_eq_succ_of_ne_zero (Nat.ne_zero_of_lt hfuel)
    exact drain_of_invalid rfl
  | cons kv l ih =>
    obtain ⟨fuel, rfl⟩ := Nat.exists_eq_succ_of_ne_zero (Nat.ne_zero_of_lt hfuel)
    -- the current pair is the head; one step further is the iterator of the tail
    have hkey : Iterator.key (newIterator ((kv :: l).map stored)) = .ok kv.1 := by
      simp [newIterator, Iterator.next, Iterator.key, stored, hexDecode_hexEncode]
    have hnext : (newIterator ((kv :: l).map stored)).next = newIterator (l.map stored) := by
      cases l <;> rfl
    exact drain_of_valid rfl hkey rfl (congrArg Outcome.ok hnext)
      (ih (Nat.lt_of_succ_lt_succ hfuel))

theorem drain_simpleIterator {items : List (Bytes × Bytes)} {i fuel : Nat} (hi : i ≤ items.length)
    (hfuel : items.length < i + fuel) :
    drain fuel (SimpleIterator.mk items i) = .ok (items.drop i) := by
  induction fuel generalizing i with
  | zero => omega
  | succ fuel ih =>
    by_cases hlt : i < items.length
    · have hitem : (SimpleIterator.mk items i).item = .ok items[i] := by
        simp [SimpleIterator.item, hlt]
      have hvalid : (SimpleIterator.mk items i).valid = true := by
        simp [SimpleIterator.valid, hlt]
      have hrest : drain fuel (SimpleIterator.mk items (i + 1)) = .ok (items.drop (i + 1)) :=
        ih hlt (by omega)
      rw [List.drop_eq_getElem_cons hlt]
      refine drain_of_valid hvalid ?_ ?_ (if_pos hvalid) hrest
      · show (SimpleIterator.mk items i).key = _
        rw [SimpleIterator.key, hitem]
        rfl
      · show (SimpleIterator.mk items i).value = _
        rw [SimpleIterator.value, hitem]
        rfl
    · have hvalid : (SimpleIterator.mk items i).valid = false := by
        simp [SimpleIterator.valid, hlt]
      rw [List.drop_eq_nil_of_le (Nat.le_of_not_lt hlt)]
      exact drain_of_invalid hvalid

/-- The loop over a simple iterator reads its items. -/
theorem drain_newSimpleIterator (items : List (Bytes × Bytes)) {fuel : Nat}
    (hfuel : items.length < fuel) : drain fuel (newSimpleIterator items) = .ok items := by
  rw [newSimpleIterator, drain_simpleIterator (Nat.zero_le _) (by omega), List.drop_zero]

theorem getElem?_swap {α : Type} {s : List α} {i j : Nat} (hi : i < s.length) (hj : j < s.length)
    (k : Nat) : (swap s i j)[k]? = if k = j then s[i]? else if k = i then s[j]? else s[k]? := by
  rw [swap, List.getElem?_eq_getElem hi, List.getElem?_eq_getElem hj]
  simp only [List.getElem?_set, List.length_set]
  by_cases hkj : k = j
  · subst hkj
    simp [hj]
  · by_cases hki : k = i
    · subst hki
      simp [hi, hkj, Ne.symm hkj]
    · simp [hkj, hki, Ne.symm hkj, Ne.symm hki]

theorem length_swap {α : Type} (s : List α) (i j : Nat) : (swap s i j).length = s.length := by
  unfold swap
  split <;> simp

/-- What the loop leaves: the elements from `i` to `j` have changed places. -/
theorem getElem?_reverseLoop {α : Type} {s : List α} {i j fuel : Nat} (hj : j < s.length)
    (hfuel : j ≤ i + fuel) (k : Nat) :
    (reverseLoop fuel i j s)[k]? = if i ≤ k ∧ k ≤ j then s[i + j - k]? else s[k]? := by
  induction fuel generalizing i j s with
  | zero =>
    rw [reverseLoop]
    split
    · congr 1
      omega
    · rfl
  | succ fuel ih =>
    rw [reverseLoop]
    split
    · rename_i hlt
      rw [ih (by rw [length_swap]; omega) (by omega), getElem?_swap (by omega) hj,
        getElem?_swap (by omega) hj]
      split_ifs <;> first | omega | rfl | (congr 1; omega)
    · split
      · congr 1
        omega
      · rfl

theorem reverseAnySlice_eq {α : Type} (s : List α) : reverseAnySlice s = s.reverse := by
  rcases Nat.eq_zero_or_pos s.length with hzero | hpos
  · rw [List.eq_nil_of_length_eq_zero hzero]
    rfl
  · apply List.ext_getElem?
    intro k
    rw [reverseAnySlice, getElem?_reverseLoop (by omega) (by omega)]
    by_cases hk : k < s.length
    · rw [if_pos (by omega), List.getElem?_reverse hk]
      congr 1
      omega
    · rw [if_neg (by omega), List.getElem?_eq_none (by omega),
        List.getElem?_eq_none (by rw [List.length_reverse]; omega)]

/-- The number of turns suffices. -/
theorem length_lt_turns {stub : Stub} {startKey endKey : Bytes} {l : List (Bytes × Bytes)}
    (hquery : stub.getStateByRange startKey endKey = l.map stored) : l.length < turns stub := by
  have hle : (stub.getStateByRange startKey endKey).length ≤ stub.state.size :=
    OrderedMap.length_range_le _ _ _
  rw [hquery, List.length_map] at hle
  exact Nat.lt_succ_of_le hle

section Listing

variable {stub : Stub} {start stop : Option Bytes} {l : List (Bytes × Bytes)}

theorem iterator_eq (hbounds : ¬ (start = some [] ∨ stop = some [])) :
    iterator stub start stop =
      .ok (newIterator (stub.getStateByRange (hexEncode (start.getD [])) (hexEncode (stop.getD [])))) :=
  if_neg hbounds

theorem ascending_eq (hbounds : ¬ (start = some [] ∨ stop = some []))
    (hquery : stub.getStateByRange (hexEncode (start.getD [])) (hexEncode (stop.getD [])) =
      l.map stored) : ascending stub start stop = .ok l := by
  rw [ascending, iterator_eq hbounds, hquery, Outcome.ok_bind,
    drain_newIterator l (length_lt_turns hquery)]

theorem descending_eq (hbounds : ¬ (start = some [] ∨ stop = some []))
    (hquery : stub.getStateByRange (hexEncode (start.getD [])) (hexEncode (stop.getD [])) =
      l.map stored) : descending stub start stop = .ok l.reverse := by
  have hturns := length_lt_turns hquery
  rw [descending, reverseIterator, iterator_eq hbounds, hquery, Outcome.ok_bind, reverse,
    drain_newIterator l hturns, Outcome.ok_bind, Outcome.ok_bind, reverseAnySlice_eq,
    drain_newSimpleIterator _ (by rwa [List.length_reverse])]

theorem ascending_of_empty_bound (h : start = some [] ∨ stop = some []) :
    ascending stub start stop = .err errKeyEmpty := by
  rw [ascending, iterator, if_pos h]
  rfl

theorem descending_of_empty_bound (h : start = some [] ∨ stop = some []) :
    descending stub start stop = .err errKeyEmpty := by
  rw [descending, reverseIterator, iterator, if_pos h]
  rfl

end Listing

end compat

end FabricIBC
