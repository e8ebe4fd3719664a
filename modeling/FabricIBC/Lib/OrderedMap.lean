import Std.Data.ExtTreeMap
import Mathlib.Data.List.Sort

/-!
# Ranges of ordered maps

A range of an ordered map is the ascending list of its pairs between two
bounds, the lower one included and the upper one not.

A map may be kept inside another one, under keys made by a strictly monotone
function. Where the two agree, a range of the inner map is a range of the outer
one up to the names of the keys:

* `foldl_seen`, `foldl_toList_seen` — a loop over ascending pairs, seen at one key;
* `mem_range`, `pairwise_range` — the pairs of a range, in ascending order;
* `range_eq_map` — the range of an inner map;
* `exists_inner` — the inner map under keys of a certain form.
-/

namespace OrderedMap

open Std (ExtTreeMap TransOrd LawfulEqOrd)

variable {K K' V : Type} [Ord K] [Ord K']

/-! ## Bounds -/

/-- Between the bounds; `none` is no bound. -/
def InRange (lo hi : Option K) (k : K) : Prop :=
  (∀ s ∈ lo, (compare s k).isLE) ∧ ∀ e ∈ hi, compare k e = .lt

instance (lo hi : Option K) (k : K) : Decidable (InRange lo hi k) :=
  inferInstanceAs (Decidable (_ ∧ _))

/-- Bounds and keys under new names. -/
theorem inRange_map {φ : K → K'} (hφ : ∀ a b, compare (φ a) (φ b) = compare a b) {lo hi : Option K}
    {k : K} : InRange (lo.map φ) (hi.map φ) (φ k) ↔ InRange lo hi k := by
  cases lo <;> cases hi <;> simp [InRange, hφ]

/-- The order of pairs by their keys. -/
def Before (a b : K × V) : Prop := compare a.1 b.1 = .lt

instance [Std.OrientedOrd K] : Std.Asymm (Before : K × V → K × V → Prop) where
  asymm _ _ hab hba := Std.OrientedCmp.not_lt_of_lt hab hba

/-- A loop over ascending keys, seen at one key: the pair with this key decides,
or else nothing changes. -/
theorem foldl_seen [LawfulEqOrd K] {σ D γ : Type} {f : σ → K × D → σ} {o : σ → K → γ} {g : D → γ}
    (hf : ∀ s w k, o (f s w) k = if compare w.1 k = .eq then g w.2 else o s k)
    {l : List (K × D)} (hl : l.Pairwise Before) (s : σ) (k : K) :
    (∀ d, (k, d) ∈ l → o (l.foldl f s) k = g d) ∧
    ((∀ d, (k, d) ∉ l) → o (l.foldl f s) k = o s k) := by
  induction l generalizing s with
  | nil => exact ⟨fun d hd => absurd hd List.not_mem_nil, fun _ => rfl⟩
  | cons w l ih =>
    obtain ⟨hw, hl⟩ := List.pairwise_cons.mp hl
    obtain ⟨hmem, hnot⟩ := ih hl (f s w)
    constructor
    · intro d hd
      rcases List.mem_cons.mp hd with rfl | hd
      · -- no later pair has this key
        have hlater : ∀ d', (k, d') ∉ l := by
          intro d' hd'
          have hlt : compare k k = .lt := hw _ hd'
          rw [Std.ReflOrd.compare_self] at hlt
          cases hlt
        rw [List.foldl_cons, hnot hlater, hf, if_pos Std.ReflOrd.compare_self]
      · exact hmem d hd
    · intro hnone
      have hne : compare w.1 k ≠ .eq := by
        intro heq
        obtain rfl := LawfulEqOrd.eq_of_compare heq
        exact hnone w.2 List.mem_cons_self
      rw [List.foldl_cons, hnot fun d hd => hnone d (List.mem_cons_of_mem _ hd), hf, if_neg hne]

/-! ## Ranges -/

variable [TransOrd K] [TransOrd K']

/-- The pairs between the bounds, in ascending order. -/
def range (m : ExtTreeMap K V compare) (lo hi : Option K) : List (K × V) :=
  m.toList.filter fun kv => InRange lo hi kv.1

theorem pairwise_range (m : ExtTreeMap K V compare) (lo hi : Option K) :
    (range m lo hi).Pairwise Before :=
  List.Pairwise.filter _ Std.ExtTreeMap.ordered_keys_toList

theorem length_range_le (m : ExtTreeMap K V compare) (lo hi : Option K) :
    (range m lo hi).length ≤ m.size := by
  rw [← Std.ExtTreeMap.length_toList]
  exact List.length_filter_le _ _

variable [LawfulEqOrd K] [LawfulEqOrd K']

theorem mem_range {m : ExtTreeMap K V compare} {lo hi : Option K} {kv : K × V} :
    kv ∈ range m lo hi ↔ m[kv.1]? = some kv.2 ∧ InRange lo hi kv.1 := by
  rw [range, List.mem_filter, decide_eq_true_eq]
  exact and_congr_left fun _ => Std.ExtTreeMap.mem_toList_iff_getElem?_eq_some

/-- What lies outside a range does not matter to it. -/
theorem range_congr {m m' : ExtTreeMap K V compare} {lo hi : Option K}
    (h : ∀ k, InRange lo hi k → m[k]? = m'[k]?) : range m lo hi = range m' lo hi := by
  refine (pairwise_range _ lo hi).eq_of_mem_iff (pairwise_range _ lo hi) fun kv => ?_
  rw [mem_range, mem_range]
  exact and_congr_left fun hk => by rw [h kv.1 hk]

/-- **The range of a map inside another one.** -/
theorem range_eq_map {outer : ExtTreeMap K' V compare} {inner : ExtTreeMap K V compare}
    {φ : K → K'} {lo hi : Option K} {lo' hi' : Option K'}
    (hmono : ∀ a b, compare a b = .lt → compare (φ a) (φ b) = .lt)
    (hsound : ∀ k v, inner[k]? = some v → InRange lo hi k →
      outer[φ k]? = some v ∧ InRange lo' hi' (φ k))
    (hcomplete : ∀ x v, outer[x]? = some v → InRange lo' hi' x →
      ∃ k, x = φ k ∧ inner[k]? = some v ∧ InRange lo hi k) :
    range outer lo' hi' = (range inner lo hi).map fun kv => (φ kv.1, kv.2) := by
  -- both sides are ascending, so it is enough that they have the same elements
  refine (pairwise_range outer lo' hi').eq_of_mem_iff ?_ ?_
  · rw [List.pairwise_map]
    exact List.Pairwise.imp (fun h => hmono _ _ h) (pairwise_range inner lo hi)
  · intro a
    rw [mem_range, List.mem_map]
    constructor
    · intro h
      obtain ⟨k, hk, hinner, hrange⟩ := hcomplete a.1 a.2 h.1 h.2
      exact ⟨(k, a.2), mem_range.mpr ⟨hinner, hrange⟩, by rw [← hk]⟩
    · rintro ⟨kv, hkv, rfl⟩
      obtain ⟨hinner, hrange⟩ := mem_range.mp hkv
      exact hsound kv.1 kv.2 hinner hrange

/-! ## Loops over pairs -/

/-- The loop over the pairs of a map. -/
theorem foldl_toList_seen {σ D γ : Type} {f : σ → K × D → σ} {o : σ → K → γ} {g : D → γ}
    (hf : ∀ s w k, o (f s w) k = if compare w.1 k = .eq then g w.2 else o s k)
    (m : ExtTreeMap K D compare) (s : σ) (k : K) :
    o (m.toList.foldl f s) k = (m[k]?.map g).getD (o s k) := by
  obtain ⟨hmem, hnot⟩ := foldl_seen hf Std.ExtTreeMap.ordered_keys_toList s k
  cases hk : m[k]? with
  | none =>
    refine hnot fun d hd => ?_
    rw [Std.ExtTreeMap.mem_toList_iff_getElem?_eq_some, hk] at hd
    cases hd
  | some d => exact hmem d (Std.ExtTreeMap.mem_toList_iff_getElem?_eq_some.mpr hk)

/-- A map with the given pairs. -/
def ofPairs (pairs : List (K × V)) : ExtTreeMap K V compare :=
  pairs.foldl (fun m kv => m.insert kv.1 kv.2) ∅

theorem getElem?_ofPairs {l : List (K × V)} (hl : l.Pairwise Before) {k : K} {v : V} :
    (ofPairs l)[k]? = some v ↔ (k, v) ∈ l := by
  obtain ⟨hmem, hnot⟩ := foldl_seen (o := fun (m : ExtTreeMap K V compare) k => m[k]?) (g := some)
    (fun s w k => Std.ExtTreeMap.getElem?_insert) hl ∅ k
  refine ⟨fun h => ?_, hmem v⟩
  by_cases hk : ∃ d, (k, d) ∈ l
  · obtain ⟨d, hd⟩ := hk
    obtain rfl : d = v := Option.some.inj ((hmem d hd).symm.trans h)
    exact hd
  · have hnone := hnot (not_exists.mp hk)
    rw [ofPairs, hnone] at h
    simp at h

/-- The part of a map under keys of a certain form. -/
theorem exists_inner {φ : K → K'} (hφ : ∀ a b, compare (φ a) (φ b) = compare a b)
    (outer : ExtTreeMap K' V compare) :
    ∃ inner : ExtTreeMap K V compare, ∀ k, inner[k]? = outer[φ k]? := by
  classical
  -- the pairs whose keys have the form, in their order
  let f : K' × V → Option (K × V) := fun kv =>
    if h : ∃ k, φ k = kv.1 then some (h.choose, kv.2) else none
  have hinj : ∀ {a b}, φ a = φ b → a = b := by
    intro a b hab
    have hcmp := hφ a b
    rw [hab, Std.ReflOrd.compare_self] at hcmp
    exact LawfulEqOrd.eq_of_compare hcmp.symm
  have hf : ∀ {kv a}, f kv = some a ↔ φ a.1 = kv.1 ∧ a.2 = kv.2 := by
    intro kv a
    by_cases h : ∃ k, φ k = kv.1
    · simp only [f, h, dite_true, Option.some.injEq]
      constructor
      · rintro rfl
        exact ⟨h.choose_spec, rfl⟩
      · rintro ⟨hk, hv⟩
        exact Prod.ext (hinj (h.choose_spec.trans hk.symm)) hv.symm
    · simp only [f, h, dite_false, reduceCtorEq, false_iff]
      rintro ⟨hk, -⟩
      exact h ⟨a.1, hk⟩
  have hpairs : (outer.toList.filterMap f).Pairwise Before := by
    refine List.Pairwise.filterMap f ?_ Std.ExtTreeMap.ordered_keys_toList
    intro kv kv' hlt a ha b hb
    rw [← (hf.mp ha).1, ← (hf.mp hb).1, hφ] at hlt
    exact hlt
  refine ⟨ofPairs (outer.toList.filterMap f), fun k => Option.ext fun v => ?_⟩
  rw [getElem?_ofPairs hpairs, List.mem_filterMap]
  constructor
  · rintro ⟨kv, hkv, hkvf⟩
    obtain ⟨hk, rfl⟩ := hf.mp hkvf
    rw [hk]
    exact Std.ExtTreeMap.mem_toList_iff_getElem?_eq_some.mp hkv
  · intro hk
    exact ⟨(φ k, v), Std.ExtTreeMap.mem_toList_iff_getElem?_eq_some.mpr hk, hf.mpr ⟨rfl, rfl⟩⟩

end OrderedMap
