import Mathlib.Data.List.Basic
import Mathlib.Data.List.Pairwise
import Mathlib.Logic.Function.Basic

/-!
# Lists as finite maps

A list whose elements carry a key is read as a finite map: the entry of a key
is the first element with that key (`entry`). Two operations are enough for an
ordered table: `insert` puts an element in front of the first one with a
greater key, and `List.modify` at the index of a key changes an entry in place.

* `entry_insert`, `entry_modify` — their effect on the map;
* `entries_insert`, `entries_modify` — their effect on all the elements of a key;
* `ascending_insert`, `ascending_modify` — they keep a table ascending;
* `Ascending.ext` — an ascending table is determined by its map;
* `entry_eq_some_iff` — in a table without duplicate keys the entries are
  exactly the elements.
-/

set_option linter.unusedSectionVars false

namespace Keyed

variable {α κ : Type} [BEq κ] [LawfulBEq κ] [DecidableEq κ] (key : α → κ)

/-- The entry of a key. -/
def entry (l : List α) (k : κ) : Option α := l.find? fun a => key a == k

@[simp] theorem entry_nil (k : κ) : entry key [] k = none := rfl

theorem entry_cons (a : α) (l : List α) (k : κ) :
    entry key (a :: l) k = if key a = k then some a else entry key l k := by
  by_cases h : key a = k <;> simp [entry, h]

variable {key}

theorem key_of_entry {l : List α} {k : κ} {a : α} (h : entry key l k = some a) : key a = k := by
  simpa using List.find?_some h

theorem mem_of_entry {l : List α} {k : κ} {a : α} (h : entry key l k = some a) : a ∈ l :=
  List.mem_of_find?_eq_some h

theorem entry_eq_none_iff {l : List α} {k : κ} :
    entry key l k = none ↔ ∀ a ∈ l, key a ≠ k := by
  simp [entry, List.find?_eq_none]

/-- Without duplicate keys the entries are exactly the elements. -/
theorem entry_eq_some_iff {l : List α} (hnd : (l.map key).Nodup) {k : κ} {a : α} :
    entry key l k = some a ↔ a ∈ l ∧ key a = k := by
  refine ⟨fun h => ⟨mem_of_entry h, key_of_entry h⟩, ?_⟩
  rintro ⟨hmem, rfl⟩
  induction l with
  | nil => simp at hmem
  | cons b l ih =>
    rw [List.map_cons, List.nodup_cons] at hnd
    rw [entry_cons]
    rcases List.mem_cons.mp hmem with rfl | hmem
    · rw [if_pos rfl]
    · have hne : key b ≠ key a := fun heq => hnd.1 (heq ▸ List.mem_map_of_mem hmem)
      rw [if_neg hne]
      exact ih hnd.2 hmem

/-- All elements with a key. -/
def entries (key : α → κ) (l : List α) (k : κ) : List α := l.filter fun a => key a == k

theorem entries_cons (a : α) (l : List α) (k : κ) :
    entries key (a :: l) k = if key a = k then a :: entries key l k else entries key l k := by
  by_cases h : key a = k <;> simp [entries, h]

theorem mem_entries {l : List α} {k : κ} {a : α} : a ∈ entries key l k ↔ a ∈ l ∧ key a = k := by
  simp [entries]

/-- The entry is the first of them. -/
theorem head?_entries (l : List α) (k : κ) : (entries key l k).head? = entry key l k :=
  List.head?_filter

theorem entries_eq_nil_iff {l : List α} {k : κ} :
    entries key l k = [] ↔ entry key l k = none := by
  rw [← head?_entries, List.head?_eq_none_iff]

/-! ## Changing an entry in place -/

theorem findIdx?_isSome_iff {l : List α} {k : κ} :
    (l.findIdx? fun a => key a == k).isSome ↔ (entry key l k).isSome := by
  rw [entry, List.findIdx?_isSome, List.find?_isSome, List.any_eq_true]

/-- The element at the index of a key is its entry. -/
theorem getElem?_findIdx? {l : List α} {k : κ} {i : Nat}
    (h : (l.findIdx? fun a => key a == k) = some i) : l[i]? = entry key l k := by
  induction l generalizing i with
  | nil => simp at h
  | cons a l ih =>
    rw [List.findIdx?_cons] at h
    rw [entry_cons]
    by_cases hk : key a = k
    · simp only [hk, beq_self_eq_true, if_true, Option.some.injEq] at h
      subst h
      simp [hk]
    · simp only [hk, beq_iff_eq, if_false, Option.map_eq_some_iff] at h
      obtain ⟨j, hj, rfl⟩ := h
      simpa [hk] using ih hj

theorem keys_modify {f : α → α} (hf : ∀ a, key (f a) = key a) (l : List α) (i : Nat) :
    (l.modify i f).map key = l.map key := by
  induction l generalizing i with
  | nil => simp
  | cons a l ih =>
    cases i with
    | zero => simp [hf]
    | succ i => simp [ih]

theorem mem_modify {l : List α} {i : Nat} {f : α → α} {a : α} (h : a ∈ l.modify i f) :
    a ∈ l ∨ ∃ b ∈ l, a = f b := by
  obtain ⟨j, hj, rfl⟩ := List.mem_iff_getElem.mp h
  rw [List.length_modify] at hj
  rw [List.getElem_modify]
  split
  · exact Or.inr ⟨l[j], List.getElem_mem hj, rfl⟩
  · exact Or.inl (List.getElem_mem hj)

/-- The effect of a change in place on the map. -/
theorem entry_modify {f : α → α} (hf : ∀ a, key (f a) = key a) {l : List α} {k : κ} {i : Nat}
    (h : (l.findIdx? fun a => key a == k) = some i) :
    entry key (l.modify i f) = Function.update (entry key l) k ((entry key l k).map f) := by
  funext k'
  induction l generalizing i with
  | nil => simp at h
  | cons a l ih =>
    rw [List.findIdx?_cons] at h
    -- the change hits the head, or it happens in the tail
    by_cases hk : key a = k
    · simp only [hk, beq_self_eq_true, if_true, Option.some.injEq] at h
      subst h
      simp only [List.modify_zero_cons, entry_cons, hf, hk, if_true, Option.map_some]
      by_cases hk' : k = k'
      · subst hk'
        simp
      · simp [hk', Function.update_of_ne (Ne.symm hk'), entry_cons, hk]
    · simp only [hk, beq_iff_eq, if_false, Option.map_eq_some_iff] at h
      obtain ⟨j, hj, rfl⟩ := h
      have hrest := ih hj
      rw [List.modify_succ_cons, entry_cons, hrest, entry_cons, if_neg hk]
      by_cases hk' : k' = k
      · subst hk'
        simp [hk]
      · simp [Function.update_of_ne hk', entry_cons]

/-- The elements of other keys stay, and of those of `k` the first one is changed. -/
theorem entries_modify {f : α → α} (hf : ∀ a, key (f a) = key a) {l : List α} {k : κ} {i : Nat}
    (h : (l.findIdx? fun a => key a == k) = some i) :
    entries key (l.modify i f) =
      Function.update (entries key l) k ((entries key l k).modifyHead f) := by
  funext k'
  induction l generalizing i with
  | nil => simp at h
  | cons a l ih =>
    rw [List.findIdx?_cons] at h
    by_cases hk : key a = k
    · simp only [hk, beq_self_eq_true, if_true, Option.some.injEq] at h
      subst h
      simp only [List.modify_zero_cons, entries_cons, hf, hk, if_true, List.modifyHead_cons]
      by_cases hk' : k = k'
      · subst hk'
        simp
      · simp [hk', Function.update_of_ne (Ne.symm hk'), entries_cons, hk]
    · simp only [hk, beq_iff_eq, if_false, Option.map_eq_some_iff] at h
      obtain ⟨j, hj, rfl⟩ := h
      rw [List.modify_succ_cons, entries_cons, ih hj, entries_cons, if_neg hk]
      by_cases hk' : k' = k
      · subst hk'
        simp [hk]
      · simp [Function.update_of_ne hk', entries_cons]

/-! ## Ascending tables -/

variable [Ord κ]

/-- The keys are strictly ascending. -/
def Ascending (key : α → κ) (l : List α) : Prop :=
  l.Pairwise fun a b => compare (key a) (key b) = .lt

theorem ascending_cons {a : α} {l : List α} :
    Ascending key (a :: l) ↔
      (∀ b ∈ l, compare (key a) (key b) = .lt) ∧ Ascending key l := List.pairwise_cons

/-- Put `new` in front of the first element with a greater key. -/
def insert (key : α → κ) (new : α) : List α → List α
  | [] => [new]
  | a :: l => if compare (key new) (key a) = .lt then new :: a :: l else a :: insert key new l

theorem mem_insert {new a : α} {l : List α} : a ∈ insert key new l ↔ a = new ∨ a ∈ l := by
  induction l with
  | nil => simp [insert]
  | cons b l ih =>
    rw [insert]
    split
    · simp
    · simp only [List.mem_cons, ih]
      tauto

theorem keys_insert_perm (new : α) (l : List α) :
    ((insert key new l).map key).Perm (key new :: l.map key) := by
  induction l with
  | nil => simp [insert]
  | cons b l ih =>
    rw [insert]
    split
    · simp
    · simp only [List.map_cons]
      exact (List.Perm.cons _ ih).trans (List.Perm.swap _ _ _)

/-- Above all keys, an insertion is at the end. -/
theorem insert_eq_append [Std.OrientedOrd κ] {new : α} {l : List α}
    (h : ∀ a ∈ l, compare (key a) (key new) = .lt) : insert key new l = l ++ [new] := by
  induction l with
  | nil => rfl
  | cons a l ih =>
    obtain ⟨ha, hl⟩ := List.forall_mem_cons.mp h
    have hgt : compare (key new) (key a) ≠ .lt := Std.OrientedCmp.not_lt_of_lt ha
    rw [insert, if_neg hgt, ih hl, List.cons_append]

/-- The effect of inserting a new key on the map. -/
theorem entry_insert {new : α} {l : List α} (hnew : entry key l (key new) = none) :
    entry key (insert key new l) = Function.update (entry key l) (key new) (some new) := by
  funext k
  induction l with
  | nil =>
    by_cases hk : k = key new
    · subst hk
      simp [insert, entry_cons]
    · simp [insert, entry_cons, Function.update_of_ne hk, Ne.symm hk]
  | cons b l ih =>
    have hb : key b ≠ key new := entry_eq_none_iff.mp hnew b List.mem_cons_self
    rw [entry_cons, if_neg hb] at hnew
    by_cases hk : k = key new
    · subst hk
      rw [insert]
      split
      · simp [entry_cons]
      · rw [entry_cons, if_neg hb, ih hnew]
        simp
    · rw [insert]
      split
      · simp [entry_cons, Function.update_of_ne hk, Ne.symm hk]
      · rw [entry_cons, ih hnew, Function.update_of_ne hk, Function.update_of_ne hk, entry_cons]

/-- All elements after inserting a new key. -/
theorem entries_insert {new : α} {l : List α} (hnew : entry key l (key new) = none) :
    entries key (insert key new l) = Function.update (entries key l) (key new) [new] := by
  funext k
  induction l with
  | nil =>
    by_cases hk : k = key new
    · subst hk
      simp [insert, entries]
    · simp [insert, entries, Function.update_of_ne hk, Ne.symm hk]
  | cons b l ih =>
    have hb : key b ≠ key new := entry_eq_none_iff.mp hnew b List.mem_cons_self
    have hnone := entries_eq_nil_iff.mpr hnew
    rw [entry_cons, if_neg hb] at hnew
    by_cases hk : k = key new
    · subst hk
      rw [insert]
      split
      · rw [entries_cons, if_pos rfl, hnone, Function.update_self]
      · rw [entries_cons, if_neg hb, ih hnew]
        simp
    · rw [insert]
      split
      · simp [entries_cons, Function.update_of_ne hk, Ne.symm hk]
      · rw [entries_cons, ih hnew, Function.update_of_ne hk, Function.update_of_ne hk, entries_cons]

section Lawful

variable [Std.TransOrd κ] [Std.LawfulEqOrd κ]

theorem key_ne_of_lt {a b : α} (hlt : compare (key a) (key b) = .lt) : key a ≠ key b := by
  intro heq
  rw [heq, Std.ReflOrd.compare_self] at hlt
  exact absurd hlt (by decide)

theorem Ascending.nodup_keys {l : List α} (h : Ascending key l) : (l.map key).Nodup := by
  rw [List.Nodup, List.pairwise_map]
  exact List.Pairwise.imp key_ne_of_lt h

theorem ascending_modify {f : α → α} (hf : ∀ a, key (f a) = key a) {l : List α} (i : Nat)
    (h : Ascending key l) : Ascending key (l.modify i f) := by
  have hmap : (l.map key).Pairwise (fun a b => compare a b = .lt) := List.pairwise_map.mpr h
  rw [← keys_modify hf l i] at hmap
  exact List.pairwise_map.mp hmap

theorem ascending_insert {new : α} {l : List α} (hnew : entry key l (key new) = none)
    (h : Ascending key l) : Ascending key (insert key new l) := by
  induction l with
  | nil => simp [insert, Ascending]
  | cons b l ih =>
    have hb : key b ≠ key new := entry_eq_none_iff.mp hnew b List.mem_cons_self
    rw [entry_cons, if_neg hb] at hnew
    obtain ⟨hbl, hl⟩ := ascending_cons.mp h
    rw [insert]
    split
    · -- the new head is below the old one, hence below the whole list
      rename_i hlt
      refine ascending_cons.mpr ⟨?_, h⟩
      intro a ha
      rcases List.mem_cons.mp ha with rfl | ha
      · exact hlt
      · exact Std.TransCmp.lt_trans hlt (hbl a ha)
    · rename_i hnlt
      refine ascending_cons.mpr ⟨?_, ih hnew hl⟩
      intro a ha
      rcases mem_insert.mp ha with rfl | ha
      · -- neither smaller nor equal
        cases hcmp : compare (key b) (key a) with
        | lt => rfl
        | eq => exact absurd (Std.LawfulEqOrd.eq_of_compare hcmp) hb
        | gt => exact absurd (Std.OrientedCmp.lt_of_gt hcmp) hnlt
      · exact hbl a ha

/-- An ascending table is determined by its map. -/
theorem Ascending.ext {l l' : List α} (h : Ascending key l) (h' : Ascending key l')
    (hentry : entry key l = entry key l') : l = l' := by
  induction l generalizing l' with
  | nil =>
    cases l' with
    | nil => rfl
    | cons b l' =>
      have hb := congrFun hentry (key b)
      simp [entry_cons] at hb
  | cons a l ih =>
    cases l' with
    | nil =>
      have ha := congrFun hentry (key a)
      simp [entry_cons] at ha
    | cons b l' =>
      obtain ⟨hal, hl⟩ := ascending_cons.mp h
      obtain ⟨hbl, hl'⟩ := ascending_cons.mp h'
      -- each head is an entry of the other table, hence not below its head
      have hab : key a = key b := by
        by_contra hne
        have ha := congrFun hentry (key a)
        rw [entry_cons, if_pos rfl, entry_cons, if_neg (Ne.symm hne)] at ha
        have hb := congrFun hentry (key b)
        rw [entry_cons, if_neg hne, entry_cons, if_pos rfl] at hb
        exact key_ne_of_lt (Std.TransCmp.lt_trans (hal b (mem_of_entry hb))
          (hbl a (mem_of_entry ha.symm))) rfl
      have heq : a = b := by
        have ha := congrFun hentry (key a)
        rw [entry_cons, if_pos rfl, entry_cons, if_pos hab.symm] at ha
        exact Option.some.inj ha
      subst heq
      -- the tails have the same map: the common head is in neither
      congr 1
      refine ih hl hl' ?_
      funext k
      have hk := congrFun hentry k
      rw [entry_cons, entry_cons] at hk
      by_cases hak : key a = k
      · subst hak
        rw [entry_eq_none_iff.mpr fun c hc => (key_ne_of_lt (hal c hc)).symm,
          entry_eq_none_iff.mpr fun c hc => (key_ne_of_lt (hbl c hc)).symm]
      · rwa [if_neg hak, if_neg hak] at hk

end Lawful

end Keyed
