import Mathlib.Algebra.Order.Group.Abs
import Mathlib.Algebra.Order.Group.Int
import Mathlib.Data.List.Chain
import FabricIBC.Commitment.Sequence

/-!
# Fabric-IBC — commitments: the clock of the sequence manager

`ValidateTimestamp` compares 64-bit sums of seconds. Where these sums are those
of the integers, it says what it looks like (`Timely.near`, `Timely.spaced`).

`Produced` is the sequence manager at work: one `InitSequence`, then
`UpdateSequence` any number of times, each at its own moment. The sequences it
returns are consecutive (`Produced.consecutive`, `Produced.value`), and the last
of them is the one it holds (`Produced.current`).
-/

namespace FabricIBC

open Go

/-! ## 64-bit sums -/

/-- The number is an `int64`. -/
def FitsInt64 (i : Int) : Prop := -2 ^ 63 ≤ i ∧ i < 2 ^ 63

instance (i : Int) : Decidable (FitsInt64 i) := inferInstanceAs (Decidable (_ ∧ _))

theorem bmod_of_fits {i : Int} (h : FitsInt64 i) : i.bmod (2 ^ 64) = i := by
  obtain ⟨hlow, hhigh⟩ := h
  exact Int.bmod_eq_of_le (by omega) (by omega)

theorem toInt_add_of_fits {a b : Int64} (h : FitsInt64 (a.toInt + b.toInt)) :
    (a + b).toInt = a.toInt + b.toInt := by
  rw [Int64.toInt_add, bmod_of_fits h]

theorem toInt_sub_of_fits {a b : Int64} (h : FitsInt64 (a.toInt - b.toInt)) :
    (a - b).toInt = a.toInt - b.toInt := by
  rw [Int64.toInt_sub, bmod_of_fits h]

/-! ## Durations and moments -/

/-- A duration in whole seconds: the division cuts towards zero. -/
theorem toInt_div_second (d : Int64) :
    (0 ≤ d.toInt ∧ (d / second).toInt = d.toInt / 1000000000) ∨
      (d.toInt < 0 ∧ (d / second).toInt = -(-d.toInt / 1000000000)) := by
  have hdiv : (d / second).toInt = d.toInt.tdiv 1000000000 :=
    Int64.toInt_div_of_ne_right d second (by decide)
  rcases lt_or_ge d.toInt 0 with hneg | hpos
  · refine Or.inr ⟨hneg, ?_⟩
    rw [hdiv, ← Int.tdiv_eq_ediv_of_nonneg (by omega), Int.neg_tdiv, neg_neg]
  · exact Or.inl ⟨hpos, by rw [hdiv, Int.tdiv_eq_ediv_of_nonneg hpos]⟩

/-- No duration has more than some 292 years. -/
theorem toInt_div_second_bounds (d : Int64) :
    -9223372036 ≤ (d / second).toInt ∧ (d / second).toInt ≤ 9223372036 := by
  have hlow := Int64.le_toInt d
  have hhigh := Int64.toInt_lt d
  rcases toInt_div_second d with ⟨hsign, hdiv⟩ | ⟨hsign, hdiv⟩ <;> rw [hdiv] <;> omega

/-- The timestamp of a transaction and the clock of its endorser. -/
structure Moment where
  txTimestamp : Except Error Int64
  now : Int64

/-- The stub of the transaction; the sequence manager asks for neither its arguments
nor its creator. -/
def Moment.stub (a : Moment) (ws : WorldState) : Stub := ⟨ws, [], a.txTimestamp, a.now, .ok []⟩

namespace SequenceManager

variable {m : SequenceManager}

/-- `int64(MaxTimestampDiff / time.Second)`. -/
def maxDiff (m : SequenceManager) : Int64 := m.config.maxTimestampDiff / second

/-- `int64(MinTimeInterval / time.Second)`. -/
def minInterval (m : SequenceManager) : Int64 := m.config.minTimeInterval / second

theorem validateTimestamp_eq_ok_iff {now prevSec next : Int64} :
    m.validateTimestamp now prevSec next = .ok () ↔
      next ≤ now + m.maxDiff ∧ now - m.maxDiff ≤ next ∧
        (0 < prevSec → prevSec + m.minInterval ≤ next) := by
  unfold validateTimestamp
  show (if now + m.maxDiff < next then _ else if next < now - m.maxDiff then _
    else if 0 < prevSec ∧ next < prevSec + m.minInterval then _ else _) = _ ↔ _
  by_cases hfuture : now + m.maxDiff < next
  · simp [hfuture, Int64.not_le.mpr hfuture]
  · by_cases hpast : next < now - m.maxDiff
    · simp [hfuture, hpast, Int64.not_le.mpr hpast]
    · by_cases hearly : 0 < prevSec ∧ next < prevSec + m.minInterval
      · simp [hfuture, hpast, hearly, Int64.not_le.mpr hearly.2]
      · simp only [hfuture, hpast, hearly, if_false, Int64.not_lt.mp hfuture,
          Int64.not_lt.mp hpast, true_and, true_iff]
        intro hpos
        exact Int64.not_lt.mp fun hlt => hearly ⟨hpos, hlt⟩

/-- The clock is later than the allowed difference after the epoch, and its
sums are those of the integers. -/
structure AfterEpoch (m : SequenceManager) (a : Moment) : Prop where
  pos : 0 < a.now.toInt - m.maxDiff.toInt
  earliest : FitsInt64 (a.now.toInt - m.maxDiff.toInt)
  latest : FitsInt64 (a.now.toInt + m.maxDiff.toInt)

section Timely

variable {a : Moment} {ws : WorldState} {prevSec tm : Int64}

/-- An accepted timestamp is near the clock. -/
theorem Timely.near (hclock : m.AfterEpoch a) (h : m.Timely (a.stub ws) prevSec tm) :
    |tm.toInt - a.now.toInt| ≤ m.maxDiff.toInt := by
  obtain ⟨hlatest, hearliest, -⟩ := validateTimestamp_eq_ok_iff.mp h.2
  rw [Int64.le_iff_toInt_le] at hlatest hearliest
  have hadd : ((a.stub ws).now + m.maxDiff).toInt = a.now.toInt + m.maxDiff.toInt :=
    toInt_add_of_fits hclock.latest
  have hsub : ((a.stub ws).now - m.maxDiff).toInt = a.now.toInt - m.maxDiff.toInt :=
    toInt_sub_of_fits hclock.earliest
  rw [hadd] at hlatest
  rw [hsub] at hearliest
  rw [abs_le]
  omega

/-- So it is a positive number. -/
theorem Timely.pos (hclock : m.AfterEpoch a) (h : m.Timely (a.stub ws) prevSec tm) :
    0 < tm.toInt := by
  have hnear := abs_le.mp (h.near hclock)
  have hpos := hclock.pos
  omega

/-- An accepted timestamp keeps its distance from a positive previous one. -/
theorem Timely.spaced {stub : Stub} (hpos : 0 < prevSec.toInt)
    (hsum : FitsInt64 (prevSec.toInt + m.minInterval.toInt)) (h : m.Timely stub prevSec tm) :
    prevSec.toInt + m.minInterval.toInt ≤ tm.toInt := by
  obtain ⟨-, -, hearly⟩ := validateTimestamp_eq_ok_iff.mp h.2
  have hlt : (0 : Int64) < prevSec := Int64.lt_iff_toInt_lt.mpr hpos
  have hle := Int64.le_iff_toInt_le.mp (hearly hlt)
  rwa [toInt_add_of_fits hsum] at hle

end Timely

/-- The clock is past the epoch, and the next sequence is compared with a sum
that is that of the integers. -/
structure Regular (m : SequenceManager) (ws : WorldState) (a : Moment) : Prop where
  clock : m.AfterEpoch a
  sum : ∀ current, m.getCurrentSequence (a.stub ws) = .ok current →
    FitsInt64 (current.timestamp.toInt + m.minInterval.toInt)

theorem regular_of_current {ws : WorldState} {a : Moment} {seq : Sequence}
    (hclock : m.AfterEpoch a) (hcurrent : m.getCurrentSequence (a.stub ws) = .ok seq)
    (hsum : FitsInt64 (seq.timestamp.toInt + m.minInterval.toInt)) : m.Regular ws a := by
  refine ⟨hclock, fun current hcurrent' => ?_⟩
  rw [hcurrent, Outcome.ok.injEq] at hcurrent'
  rwa [← hcurrent']

/-! ## The manager at work -/

/-- After one `InitSequence` on `ws₀` and calls of `UpdateSequence`, all of them
successful and at admitted moments, the world state is `ws`. The list has the
sequence of each call with its moment. -/
inductive Produced (m : SequenceManager) (admits : WorldState → Moment → Prop) (ws₀ : WorldState) :
    WorldState → List (Moment × Sequence) → Prop
  | init {a : Moment} {seq : Sequence} {writes : List Write} (hadmits : admits ws₀ a)
      (h : m.initSequence (a.stub ws₀) = .ok (seq, writes)) :
      Produced m admits ws₀ (applyWrites ws₀ writes) [(a, seq)]
  | update {ws : WorldState} {hist : List (Moment × Sequence)} {a : Moment} {seq : Sequence}
      {writes : List Write} (hprod : Produced m admits ws₀ ws hist) (hadmits : admits ws a)
      (h : m.updateSequence (a.stub ws) = .ok (seq, writes)) :
      Produced m admits ws₀ (applyWrites ws writes) (hist ++ [(a, seq)])

/-- The second sequence was made from the first one. -/
def Follows (m : SequenceManager) (admits : WorldState → Moment → Prop)
    (x y : Moment × Sequence) : Prop :=
  y.2.value = x.2.value + 1 ∧
  ∃ ws, admits ws y.1 ∧ m.getCurrentSequence (y.1.stub ws) = .ok x.2 ∧
    m.Timely (y.1.stub ws) x.2.timestamp y.2.timestamp

/-- What was written last is the current sequence. -/
theorem getCurrentSequence_putSequence {stub : Stub} {ws : WorldState} {seq : Sequence}
    (hstate : stub.state = applyWrites ws (m.putSequence seq)) :
    m.getCurrentSequence stub = .ok seq := by
  refine readSequence_eq_ok_iff.mpr ⟨seq.bytes, ?_, seq.unmarshal_bytes⟩
  have hne : makeSequenceKey m.pfx seq.value ≠ makeCurrentSequenceKey m.pfx :=
    (current_ne_sequence m.pfx m.pfx seq.value).symm
  rw [hstate]
  show (Write.apply (Write.apply ws (.put (makeCurrentSequenceKey m.pfx) seq.bytes))
    (.put (makeSequenceKey m.pfx seq.value) seq.bytes))[makeCurrentSequenceKey m.pfx]? = _
  rw [getElem?_apply_put_of_ne hne, getElem?_apply_self]

section Produced

variable {admits : WorldState → Moment → Prop} {ws₀ ws : WorldState}
  {hist : List (Moment × Sequence)}

theorem Produced.current (h : Produced m admits ws₀ ws hist) :
    ∃ a seq, hist.getLast? = some (a, seq) ∧
      ∀ stub : Stub, stub.state = ws → m.getCurrentSequence stub = .ok seq := by
  cases h with
  | init hadmits h =>
    obtain ⟨tm, -, -, rfl⟩ := initSequence_eq_ok_iff.mp h
    exact ⟨_, _, rfl, fun stub hstate => getCurrentSequence_putSequence hstate⟩
  | update hprod hadmits h =>
    obtain ⟨current, tm, -, -, -, rfl⟩ := updateSequence_eq_ok_iff.mp h
    exact ⟨_, _, List.getLast?_concat, fun stub hstate => getCurrentSequence_putSequence hstate⟩

/-- Each sequence was made from the one before it. -/
theorem Produced.consecutive (h : Produced m admits ws₀ ws hist) :
    hist.IsChain (m.Follows admits) := by
  induction h with
  | init hadmits h => exact List.isChain_singleton _
  | update hprod hadmits h ih =>
    rename_i ws hist a seq writes
    rw [List.isChain_append]
    refine ⟨ih, List.isChain_singleton _, ?_⟩
    rintro ⟨a', seq'⟩ hlast y hy
    obtain rfl : (a, seq) = y := by simpa using hy
    -- the manager has read the last sequence of the list
    obtain ⟨a'', last, hlast', hcurrent⟩ := hprod.current
    rw [hlast', Option.mem_some_iff, Prod.mk.injEq] at hlast
    obtain ⟨rfl, rfl⟩ := hlast
    obtain ⟨current, tm, hread, htime, rfl, -⟩ := updateSequence_eq_ok_iff.mp h
    rw [hcurrent _ rfl, Outcome.ok.injEq] at hread
    subst hread
    exact ⟨rfl, ws, hadmits, hcurrent _ rfl, htime⟩

/-- Each call was made at an admitted moment, and its timestamp was accepted. -/
theorem Produced.timely (h : Produced m admits ws₀ ws hist) :
    ∀ x ∈ hist, ∃ ws prevSec, admits ws x.1 ∧ m.Timely (x.1.stub ws) prevSec x.2.timestamp := by
  induction h with
  | init hadmits h =>
    intro x hx
    obtain ⟨tm, htime, rfl, -⟩ := initSequence_eq_ok_iff.mp h
    rw [List.mem_singleton.mp hx]
    exact ⟨_, 0, hadmits, htime⟩
  | update hprod hadmits h ih =>
    intro x hx
    rcases List.mem_append.mp hx with hx | hx
    · exact ih x hx
    · obtain ⟨current, tm, -, htime, rfl, -⟩ := updateSequence_eq_ok_iff.mp h
      rw [List.mem_singleton.mp hx]
      exact ⟨_, _, hadmits, htime⟩

/-- The first sequence is that of `InitSequence`. -/
theorem Produced.first (h : Produced m admits ws₀ ws hist) {x : Moment × Sequence}
    (hx : hist[0]? = some x) : x.2.value = 1 := by
  induction h with
  | init hadmits h =>
    obtain ⟨tm, -, rfl, -⟩ := initSequence_eq_ok_iff.mp h
    cases hx
    rfl
  | update hprod hadmits h ih =>
    refine ih ?_
    obtain ⟨a, seq, hlast, -⟩ := hprod.current
    have hpos := List.length_pos_of_mem (List.mem_of_getLast? hlast)
    rwa [List.getElem?_append_left hpos] at hx

/-- The sequences are numbered from 1. -/
theorem Produced.value (h : Produced m admits ws₀ ws hist) {i : Nat} {x : Moment × Sequence}
    (hx : hist[i]? = some x) : x.2.value = UInt64.ofNat (i + 1) := by
  induction i generalizing x with
  | zero => exact h.first hx
  | succ i ih =>
    obtain ⟨hlt, rfl⟩ := List.getElem?_eq_some_iff.mp hx
    have hfollows := h.consecutive.getElem i hlt
    rw [hfollows.1, ih (List.getElem?_eq_getElem (by omega)), UInt64.ofNat_add (i + 1) 1]
    rfl

section Regular

variable (h : Produced m m.Regular ws₀ ws hist)

include h

theorem Produced.near : ∀ x ∈ hist,
    |x.2.timestamp.toInt - x.1.now.toInt| ≤ m.maxDiff.toInt := by
  intro x hx
  obtain ⟨ws, prevSec, hregular, htime⟩ := h.timely x hx
  exact htime.near hregular.clock

theorem Produced.pos : ∀ x ∈ hist, 0 < x.2.timestamp.toInt := by
  intro x hx
  obtain ⟨ws, prevSec, hregular, htime⟩ := h.timely x hx
  exact htime.pos hregular.clock

/-- Consecutive sequences keep the minimum interval. -/
theorem Produced.spaced : hist.IsChain fun x y =>
    x.2.timestamp.toInt + m.minInterval.toInt ≤ y.2.timestamp.toInt := by
  rw [List.isChain_iff_getElem]
  intro i hi
  obtain ⟨-, ws, hregular, hcurrent, htime⟩ := h.consecutive.getElem i hi
  exact htime.spaced (h.pos _ (List.getElem_mem _)) (hregular.sum _ hcurrent)

end Regular

end Produced

end SequenceManager

end FabricIBC
