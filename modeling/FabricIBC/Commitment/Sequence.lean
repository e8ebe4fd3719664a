import FabricIBC.Commitment.Keys
import FabricIBC.Lib.Reading

/-!
# Fabric-IBC — commitments: sequences and their manager

* `Sequence.unmarshal_bytes` — a stored sequence is read back as it was written;
  hence `Sequence.bytes_injective`.
* `getElem?_applyWrites_of_ne` — what a transaction does not write stays.
* `readSequence_eq_ok_iff`, `initSequence_eq_ok_iff`, `updateSequence_eq_ok_iff`
  — one specification for each function of the manager. `InitSequence` does not
  look at the state it writes to.
-/

namespace FabricIBC

open Go

/-! ## The codec -/

theorem Sequence.reads {l : Nat} (seq : Sequence) :
    Wire.Reads Sequence.reader l .zero seq.bytes seq := by
  obtain ⟨v, t⟩ := seq
  -- the two fields in the order they are written
  have hv : Wire.Reads Sequence.reader l .zero (Wire.varintField 0x08 v.toNat) ⟨v, 0⟩ :=
    Wire.Reads.varintField 0x08 (by decide) rfl rfl rfl
  have ht : Wire.Reads Sequence.reader l ⟨v, 0⟩ (Wire.varintField 0x10 t.toUInt64.toNat) ⟨v, t⟩ :=
    Wire.Reads.varintField 0x10 (by decide) rfl rfl (by rw [Int64.toInt64_toUInt64])
  exact hv.append ht

theorem Sequence.unmarshal_bytes (seq : Sequence) : Sequence.unmarshal seq.bytes = .ok seq := by
  rw [Sequence.unmarshal, Outcome.mapErr_eq_ok_iff]
  exact Wire.unmarshal_of_reads seq.reads

theorem Sequence.bytes_injective : Function.Injective Sequence.bytes := by
  intro a b h
  have hb := Sequence.unmarshal_bytes b
  rw [← h, Sequence.unmarshal_bytes a] at hb
  exact Outcome.ok.inj hb

/-- One more byte of two numbers that agree above it. -/
theorem div_eq_of_byte {m n k k' : Nat} (hk : k * 256 = k') (hhigh : m / k' = n / k')
    (hbyte : m / k % 256 = n / k % 256) : m / k = n / k := by
  rw [← hk, ← Nat.div_div_eq_div_mul, ← Nat.div_div_eq_div_mul] at hhigh
  omega

theorem uint64ToBigEndian_injective : Function.Injective uint64ToBigEndian := by
  intro a b h
  have hbyte (n shift : UInt64) (k : Nat) (hk : 2 ^ (shift.toNat % 64) = k) :
      (n >>> shift).toUInt8.toNat = n.toNat / k % 256 := by
    rw [UInt64.toNat_toUInt8, UInt64.toNat_shiftRight, Nat.shiftRight_eq_div_pow, hk]
  simp only [uint64ToBigEndian, List.map_cons, List.map_nil, List.cons.injEq, and_true,
    ← UInt8.toNat_inj] at h
  rw [hbyte a 56 (2 ^ 56) rfl, hbyte b 56 (2 ^ 56) rfl, hbyte a 48 (2 ^ 48) rfl,
    hbyte b 48 (2 ^ 48) rfl, hbyte a 40 (2 ^ 40) rfl, hbyte b 40 (2 ^ 40) rfl,
    hbyte a 32 (2 ^ 32) rfl, hbyte b 32 (2 ^ 32) rfl, hbyte a 24 (2 ^ 24) rfl,
    hbyte b 24 (2 ^ 24) rfl, hbyte a 16 (2 ^ 16) rfl, hbyte b 16 (2 ^ 16) rfl,
    hbyte a 8 (2 ^ 8) rfl, hbyte b 8 (2 ^ 8) rfl, hbyte a 0 1 rfl, hbyte b 0 1 rfl] at h
  obtain ⟨h56, h48, h40, h32, h24, h16, h8, h0⟩ := h
  -- from the top: nothing above bit 64, then byte after byte
  have e64 : a.toNat / 2 ^ 64 = b.toNat / 2 ^ 64 := by
    rw [Nat.div_eq_of_lt a.toNat_lt, Nat.div_eq_of_lt b.toNat_lt]
  have e56 := div_eq_of_byte (by decide) e64 h56
  have e48 := div_eq_of_byte (by decide) e56 h48
  have e40 := div_eq_of_byte (by decide) e48 h40
  have e32 := div_eq_of_byte (by decide) e40 h32
  have e24 := div_eq_of_byte (by decide) e32 h24
  have e16 := div_eq_of_byte (by decide) e24 h16
  have e8 := div_eq_of_byte (by decide) e16 h8
  have e0 := div_eq_of_byte (by decide) e8 h0
  rw [Nat.div_one, Nat.div_one] at e0
  exact UInt64.toNat_inj.mp e0

/-! ## Committed writes -/

theorem getElem?_apply_self (ws : WorldState) (key value : Bytes) :
    (Write.apply ws (.put key value))[key]? = some value := by
  simp [Write.apply]

theorem getElem?_apply_of_ne {ws : WorldState} {w : Write} {k : Bytes} (h : w.key ≠ k) :
    (w.apply ws)[k]? = ws[k]? := by
  have hcmp : compare w.key k ≠ .eq := fun heq => h (Std.LawfulEqOrd.eq_of_compare heq)
  cases w with
  | put key value =>
    rw [Write.apply, Std.ExtTreeMap.getElem?_insert]
    exact if_neg hcmp
  | del key =>
    rw [Write.apply, Std.ExtTreeMap.getElem?_erase]
    exact if_neg hcmp

theorem getElem?_apply_put_of_ne {ws : WorldState} {key k : Bytes} (h : key ≠ k) (value : Bytes) :
    (Write.apply ws (.put key value))[k]? = ws[k]? := getElem?_apply_of_ne h

theorem applyWrites_append (ws : WorldState) (l l' : List Write) :
    applyWrites ws (l ++ l') = applyWrites (applyWrites ws l) l' := List.foldl_append

/-- Keys that are not written keep their values. -/
theorem getElem?_applyWrites_of_ne {ws : WorldState} {writes : List Write} {k : Bytes}
    (h : ∀ w ∈ writes, w.key ≠ k) : (applyWrites ws writes)[k]? = ws[k]? := by
  induction writes generalizing ws with
  | nil => rfl
  | cons w writes ih =>
    have hrest : (applyWrites (w.apply ws) writes)[k]? = (w.apply ws)[k]? :=
      ih fun w' hw' => h w' (List.mem_cons_of_mem _ hw')
    exact hrest.trans (getElem?_apply_of_ne (h w List.mem_cons_self))

/-! ## The manager -/

namespace SequenceManager

theorem readSequence_eq_ok_iff {stub : Stub} {key : Bytes} {seq : Sequence} :
    readSequence stub key = .ok seq ↔
      ∃ bz, stub.state[key]? = some bz ∧ Sequence.unmarshal bz = .ok seq := by
  unfold readSequence Stub.getState
  cases stub.state[key]? <;> simp

/-- The timestamp of the transaction, if the manager lets it follow `prevSec`. -/
def Timely (m : SequenceManager) (stub : Stub) (prevSec tm : Int64) : Prop :=
  stub.txTimestamp = .ok tm ∧ m.validateTimestamp stub.now prevSec tm = .ok ()

theorem initSequence_eq_ok_iff {m : SequenceManager} {stub : Stub} {seq : Sequence}
    {writes : List Write} :
    m.initSequence stub = .ok (seq, writes) ↔
      ∃ tm, m.Timely stub 0 tm ∧ seq = ⟨1, tm⟩ ∧ writes = m.putSequence seq := by
  simp only [initSequence, Outcome.bind_eq_ok_iff, Outcome.ofExcept_eq_ok_iff, Timely,
    Outcome.ok.injEq, Prod.mk.injEq]
  constructor
  · rintro ⟨tm, htm, _, hvalid, rfl, rfl⟩
    exact ⟨tm, ⟨htm, hvalid⟩, rfl, rfl⟩
  · rintro ⟨tm, ⟨htm, hvalid⟩, rfl, rfl⟩
    exact ⟨tm, htm, (), hvalid, rfl, rfl⟩

theorem updateSequence_eq_ok_iff {m : SequenceManager} {stub : Stub} {seq : Sequence}
    {writes : List Write} :
    m.updateSequence stub = .ok (seq, writes) ↔
      ∃ current tm, m.getCurrentSequence stub = .ok current ∧ m.Timely stub current.timestamp tm ∧
        seq = ⟨current.value + 1, tm⟩ ∧ writes = m.putSequence seq := by
  simp only [updateSequence, Outcome.bind_eq_ok_iff, Outcome.ofExcept_eq_ok_iff, Timely,
    Outcome.ok.injEq, Prod.mk.injEq]
  constructor
  · rintro ⟨current, hcur, tm, htm, _, hvalid, rfl, rfl⟩
    exact ⟨current, tm, hcur, ⟨htm, hvalid⟩, rfl, rfl⟩
  · rintro ⟨current, tm, hcur, ⟨htm, hvalid⟩, rfl, rfl⟩
    exact ⟨current, hcur, tm, htm, (), hvalid, rfl, rfl⟩

end SequenceManager

end FabricIBC
