import Mathlib.Tactic.Ring
import FabricIBC.Lib.Outcome
import FabricIBC.Lib.ByteString

/-!
# The protobuf wire format, as generated Go code reads and writes it

Writers emit the fields of a message in ascending order of field number and
leave out zero numbers and empty byte strings; nested messages that are not
nullable are always written. Readers walk over the fields in any order, keep
the last value of a repeated scalar, and skip fields they do not know.

* `Reader.unmarshal_safe` — no input makes a reader panic: every access is inside
  the input, and every loop comes to an end. A reader is put together from fields that
  carry their part of the proof (`Field`);
* `readVarint_varint` — a reader gets back the number a writer wrote;
* `varint_append_inj`, `varintField_append_inj`, `bytesField_append_inj`,
  `messageField_append_inj` — written fields can be peeled off the front of a
  message one by one, so that a message determines its fields;
* `Reader.loop_field`, `Reader.loop_end` — one turn of a reader's loop.
-/

namespace Wire

open Go

/-- The errors of generated unmarshalling code. -/
inductive Error
  | intOverflow
  | unexpectedEOF
  | invalidLength
  | unexpectedEndOfGroup
  | endGroupForNonGroup (message : String)
  | illegalTag (message : String) (fieldNum : Nat) (wire : UInt64)
  | wrongWireType (wireType : Nat) (field : String)
  | illegalWireType (wireType : Nat)
  deriving DecidableEq, Repr

/-! ## Writers -/

/-- Base-128 groups, least significant first; `fuel` bounds their number. -/
def varintAux : Nat → Nat → Bytes
  | 0, n => [n.toUInt8]
  | fuel + 1, n =>
    if n < 128 then [n.toUInt8] else (n % 128 + 128).toUInt8 :: varintAux fuel (n / 128)

/-- `encodeVarint`. -/
def varint (n : Nat) : Bytes := varintAux n n

/-- A number under a one-byte tag; zero is not written. -/
def varintField (tag : UInt8) (n : Nat) : Bytes :=
  if n = 0 then [] else tag :: varint n

/-- A nested message, which is always written. -/
def messageField (tag : UInt8) (b : Bytes) : Bytes :=
  tag :: (varint b.length ++ b)

/-- A byte string; the empty one is not written. -/
def bytesField (tag : UInt8) (b : Bytes) : Bytes :=
  if b = [] then [] else messageField tag b

/-! ## Readers

A reader has the whole input `dAtA` and an index into it. An access outside the input
panics, as in Go; that the checks in front of the accesses suffice is proved, not built
into the definitions. So is that a loop is through when its fuel is, since running out
of fuel is a panic as well. -/

/-- `dAtA[i]`. -/
def byteAt (dAtA : Bytes) (i : Nat) : Outcome Error UInt8 :=
  match dAtA[i]? with
  | some b => .ok b
  | none => .panic .indexOutOfRange

/-- `dAtA[i:j]`, where nothing lies behind the end of `dAtA`. -/
def slice (dAtA : Bytes) (i j : Nat) : Outcome Error Bytes :=
  if i ≤ j ∧ j ≤ dAtA.length then .ok ((dAtA.drop i).take (j - i)) else .panic .indexOutOfRange

/-- The loop over the groups of a varint at bit position `shift`, with the bits read so
far. -/
def readVarintLoop (dAtA : Bytes) :
    (fuel shift : Nat) → UInt64 → (iNdEx : Nat) → Outcome Error (UInt64 × Nat)
  | 0, _, _, _ => .panic (.explicit "out of fuel")
  | fuel + 1, shift, acc, iNdEx =>
    if 64 ≤ shift then .err .intOverflow
    else if dAtA.length ≤ iNdEx then .err .unexpectedEOF
    else do
      let b ← byteAt dAtA iNdEx
      let acc := acc ||| ((b &&& 0x7F).toUInt64 <<< shift.toUInt64)
      if b < 0x80 then .ok (acc, iNdEx + 1)
      else readVarintLoop dAtA fuel (shift + 7) acc (iNdEx + 1)

/-- Read one varint; also returns the index behind it. The eleventh turn of the loop is
its last, at bit 70. -/
def readVarint (dAtA : Bytes) (iNdEx : Nat) : Outcome Error (UInt64 × Nat) :=
  readVarintLoop dAtA 11 0 0 iNdEx

/-- Lengths and indices are Go `int`s: from `2^63` on they are negative. -/
def intLimit : Nat := 2 ^ 63

/-- Read a length-delimited field. -/
def readBytes (dAtA : Bytes) (iNdEx : Nat) : Outcome Error (Bytes × Nat) := do
  let (len, iNdEx) ← readVarint dAtA iNdEx
  if intLimit ≤ len.toNat then .err .invalidLength
  else
    let postIndex := iNdEx + len.toNat
    -- `postIndex < 0`
    if intLimit ≤ postIndex then .err .invalidLength
    else if dAtA.length < postIndex then .err .unexpectedEOF
    else do
      let b ← slice dAtA iNdEx postIndex
      .ok (b, postIndex)

/-- One field for `skip`, after its tag: the open groups and the index behind it, which
may lie behind the end. -/
def skipField (dAtA : Bytes) (wireType depth iNdEx : Nat) : Outcome Error (Nat × Nat) :=
  match wireType with
  | 0 => do
    let (_, iNdEx) ← readVarint dAtA iNdEx
    .ok (depth, iNdEx)
  | 1 => .ok (depth, iNdEx + 8)
  | 2 => do
    let (len, iNdEx) ← readVarint dAtA iNdEx
    if intLimit ≤ len.toNat then .err .invalidLength
    else .ok (depth, iNdEx + len.toNat)
  -- a group goes on to the matching end tag
  | 3 => .ok (depth + 1, iNdEx)
  | 4 => if depth = 0 then .err .unexpectedEndOfGroup else .ok (depth - 1, iNdEx)
  | 5 => .ok (depth, iNdEx + 4)
  | wireType => .err (.illegalWireType wireType)

/-- The loop of `skip`; `depth` counts the open groups. -/
def skipLoop (dAtA : Bytes) : (fuel depth iNdEx : Nat) → Outcome Error Nat
  | 0, _, _ => .panic (.explicit "out of fuel")
  | fuel + 1, depth, iNdEx =>
    if dAtA.length ≤ iNdEx then .err .unexpectedEOF
    else do
      let (wire, iNdEx) ← readVarint dAtA iNdEx
      let (depth, iNdEx) ← skipField dAtA (wire.toNat % 8) depth iNdEx
      if intLimit ≤ iNdEx then .err .invalidLength
      else if depth = 0 then .ok iNdEx
      else skipLoop dAtA fuel depth iNdEx

/-- `skip`: the number of bytes of the field (or group) at the head of `dAtA`. -/
def skip (dAtA : Bytes) : Outcome Error Nat := skipLoop dAtA (dAtA.length + 1) 0 0

/-! ## Safe readers -/

/-- What an index behind a reading is: further on, and inside the input. -/
def Behind (dAtA : Bytes) (iNdEx i : Nat) : Prop := iNdEx < i ∧ i ≤ dAtA.length

theorem byteAt_safe {dAtA : Bytes} {i : Nat} (h : i < dAtA.length) :
    (byteAt dAtA i).Safe fun _ => True := by
  rw [byteAt, List.getElem?_eq_getElem h]
  trivial

theorem slice_safe {dAtA : Bytes} {i j : Nat} (hij : i ≤ j) (hj : j ≤ dAtA.length) :
    (slice dAtA i j).Safe fun b => b.length = j - i := by
  rw [slice, if_pos ⟨hij, hj⟩]
  show ((dAtA.drop i).take (j - i)).length = j - i
  rw [List.length_take, List.length_drop]
  omega

theorem readVarintLoop_safe (dAtA : Bytes) {fuel shift : Nat} (hfuel : 64 ≤ shift + 7 * fuel)
    (acc : UInt64) (iNdEx : Nat) :
    (readVarintLoop dAtA (fuel + 1) shift acc iNdEx).Safe fun r => Behind dAtA iNdEx r.2 := by
  induction fuel generalizing shift acc iNdEx with
  | zero =>
    rw [readVarintLoop, if_pos (by omega)]
    trivial
  | succ fuel ih =>
    rw [readVarintLoop]
    by_cases hshift : 64 ≤ shift
    · rw [if_pos hshift]
      trivial
    by_cases hend : dAtA.length ≤ iNdEx
    · rw [if_neg hshift, if_pos hend]
      trivial
    rw [if_neg hshift, if_neg hend]
    refine (byteAt_safe (by omega)).bind fun b _ => ?_
    dsimp only
    by_cases hlast : b < 0x80
    · rw [if_pos hlast]
      exact ⟨by omega, by omega⟩
    · rw [if_neg hlast]
      refine (ih (by omega) _ _).mono fun r hr => ?_
      exact ⟨by have := hr.1; omega, hr.2⟩

theorem readVarint_safe (dAtA : Bytes) (iNdEx : Nat) :
    (readVarint dAtA iNdEx).Safe fun r => Behind dAtA iNdEx r.2 :=
  readVarintLoop_safe dAtA (by decide) 0 iNdEx

theorem readBytes_safe (dAtA : Bytes) (iNdEx : Nat) :
    (readBytes dAtA iNdEx).Safe fun r => Behind dAtA iNdEx r.2 := by
  refine (readVarint_safe dAtA iNdEx).bind ?_
  rintro ⟨len, i⟩ ⟨hlt, hle⟩
  dsimp only
  split_ifs with hlen hpost hend
  · trivial
  · trivial
  · trivial
  · -- the index behind the field was just compared with the length
    refine (slice_safe (by omega) (by omega)).bind fun b _ => ?_
    exact ⟨by dsimp only at hlt ⊢; omega, by dsimp only; omega⟩

theorem skipField_safe (dAtA : Bytes) (wireType depth iNdEx : Nat) :
    (skipField dAtA wireType depth iNdEx).Safe fun r => iNdEx ≤ r.2 := by
  unfold skipField
  split
  · exact (readVarint_safe dAtA iNdEx).bind fun r hr => Nat.le_of_lt hr.1
  · exact Nat.le_add_right _ _
  · refine (readVarint_safe dAtA iNdEx).bind ?_
    rintro ⟨len, i⟩ ⟨hi, -⟩
    dsimp only
    split_ifs
    · trivial
    · exact Nat.le_add_right_of_le (Nat.le_of_lt hi)
  · exact Nat.le_refl _
  · split_ifs
    · trivial
    · exact Nat.le_refl _
  · exact Nat.le_add_right _ _
  · trivial

theorem skipLoop_safe (dAtA : Bytes) {fuel iNdEx : Nat} (depth : Nat)
    (hfuel : dAtA.length ≤ iNdEx + fuel) :
    (skipLoop dAtA (fuel + 1) depth iNdEx).Safe fun n => iNdEx < n := by
  induction fuel generalizing depth iNdEx with
  | zero =>
    rw [skipLoop, if_pos (by omega)]
    trivial
  | succ fuel ih =>
    rw [skipLoop]
    by_cases hend : dAtA.length ≤ iNdEx
    · rw [if_pos hend]
      trivial
    rw [if_neg hend]
    -- a turn goes on by one byte at least
    refine (readVarint_safe dAtA iNdEx).bind ?_
    rintro ⟨wire, i⟩ ⟨hi, -⟩
    refine (skipField_safe dAtA _ depth i).bind ?_
    rintro ⟨depth', i'⟩ hi'
    dsimp only at hi hi' ⊢
    split_ifs
    · trivial
    · exact Nat.lt_of_lt_of_le hi hi'
    · exact (ih depth' (by omega)).mono fun n hn => by omega

theorem skip_safe (dAtA : Bytes) : (skip dAtA).Safe fun n => 0 < n :=
  skipLoop_safe dAtA 0 (by omega)

/-! ## Messages -/

/-- What a message does with a field it knows, from the index behind the tag on. It does
not panic, and does not go back. -/
structure Field (σ : Type) where
  read : σ → (wireType : Nat) → (dAtA : Bytes) → (iNdEx : Nat) → Outcome Error (σ × Nat)
  safe : ∀ s wireType dAtA iNdEx, (read s wireType dAtA iNdEx).Safe fun r => iNdEx ≤ r.2

/-- A generated `Unmarshal`: the name of the message, and the fields by number. -/
structure Reader (σ : Type) where
  message : String
  field : (fieldNum : Nat) → Option (Field σ)

/-- `for iNdEx < l`: read the fields one by one. -/
def Reader.loop {σ : Type} (R : Reader σ) (dAtA : Bytes) :
    (fuel : Nat) → σ → (iNdEx : Nat) → Outcome Error σ
  | 0, _, _ => .panic (.explicit "out of fuel")
  | fuel + 1, s, preIndex =>
    if preIndex < dAtA.length then do
      let (wire, iNdEx) ← readVarint dAtA preIndex
      let fieldNum := wire.toNat / 8 % 2 ^ 32
      let wireType := wire.toNat % 8
      if wireType = 4 then .err (.endGroupForNonGroup R.message)
      -- `int32(wire >> 3) <= 0`
      else if fieldNum = 0 ∨ 2 ^ 31 ≤ fieldNum then .err (.illegalTag R.message fieldNum wire)
      else
        match R.field fieldNum with
        | some f => do
          let (s, iNdEx) ← f.read s wireType dAtA iNdEx
          R.loop dAtA fuel s iNdEx
        -- an unknown field is skipped from its tag on
        | none => do
          let rest ← slice dAtA preIndex dAtA.length
          let skippy ← skip rest
          if intLimit ≤ preIndex + skippy then .err .invalidLength
          else if dAtA.length < preIndex + skippy then .err .unexpectedEOF
          else R.loop dAtA fuel s (preIndex + skippy)
    else if dAtA.length < preIndex then .err .unexpectedEOF
    else .ok s

/-- `Unmarshal` into a message that is there already. -/
def Reader.unmarshal {σ : Type} (R : Reader σ) (s : σ) (dAtA : Bytes) : Outcome Error σ :=
  R.loop dAtA (dAtA.length + 1) s 0

theorem Reader.loop_safe {σ : Type} (R : Reader σ) (dAtA : Bytes) {fuel iNdEx : Nat} (s : σ)
    (hfuel : dAtA.length ≤ iNdEx + fuel) :
    (R.loop dAtA (fuel + 1) s iNdEx).Safe fun _ => True := by
  induction fuel generalizing s iNdEx with
  | zero =>
    rw [loop, if_neg (by omega)]
    split_ifs <;> trivial
  | succ fuel ih =>
    rw [loop]
    split_ifs with hend hbehind
    · refine (readVarint_safe dAtA iNdEx).bind ?_
      rintro ⟨wire, i⟩ ⟨hi, -⟩
      dsimp only at hi ⊢
      split_ifs
      · trivial
      · trivial
      cases R.field (wire.toNat / 8 % 2 ^ 32) with
      | some f =>
        refine (f.safe s _ dAtA i).bind fun r hr => ?_
        exact ih r.1 (by omega)
      | none =>
        refine (slice_safe (by omega) (Nat.le_refl _)).bind fun rest _ => ?_
        refine (skip_safe rest).bind fun skippy hskippy => ?_
        split_ifs
        · trivial
        · trivial
        · exact ih s (by omega)
    · trivial
    · trivial

/-- **No input makes a reader panic.** -/
theorem Reader.unmarshal_safe {σ : Type} (R : Reader σ) (s : σ) (dAtA : Bytes) :
    (R.unmarshal s dAtA).Safe fun _ => True :=
  R.loop_safe dAtA s (by omega)

/-! ## Fields -/

section Fields

variable {σ τ : Type}

/-- Check the wire type and read a varint. -/
def readVarintField (name : String) (store : σ → UInt64 → σ) (s : σ) (wireType : Nat)
    (dAtA : Bytes) (iNdEx : Nat) : Outcome Error (σ × Nat) :=
  if wireType ≠ 0 then .err (.wrongWireType wireType name)
  else do
    let (v, iNdEx) ← readVarint dAtA iNdEx
    .ok (store s v, iNdEx)

theorem readVarintField_safe (name : String) (store : σ → UInt64 → σ) (s : σ) (wireType : Nat)
    (dAtA : Bytes) (iNdEx : Nat) :
    (readVarintField name store s wireType dAtA iNdEx).Safe fun r => iNdEx ≤ r.2 := by
  unfold readVarintField
  split_ifs
  · trivial
  · exact (readVarint_safe dAtA iNdEx).bind fun r hr => Nat.le_of_lt hr.1

/-- Check the wire type, cut out the bytes and make something of them. -/
def readDelimitedField (name : String) (decode : σ → Bytes → Outcome Error σ) (s : σ)
    (wireType : Nat) (dAtA : Bytes) (iNdEx : Nat) : Outcome Error (σ × Nat) :=
  if wireType ≠ 2 then .err (.wrongWireType wireType name)
  else do
    let (b, iNdEx) ← readBytes dAtA iNdEx
    let s ← decode s b
    .ok (s, iNdEx)

theorem readDelimitedField_safe (name : String) {decode : σ → Bytes → Outcome Error σ}
    (hdecode : ∀ s b, (decode s b).Safe fun _ => True) (s : σ) (wireType : Nat) (dAtA : Bytes)
    (iNdEx : Nat) :
    (readDelimitedField name decode s wireType dAtA iNdEx).Safe fun r => iNdEx ≤ r.2 := by
  unfold readDelimitedField
  split_ifs
  · trivial
  · refine (readBytes_safe dAtA iNdEx).bind fun r hr => ?_
    exact (hdecode s r.1).bind fun _ _ => Nat.le_of_lt hr.1

/-- A scalar. -/
def Field.varint (name : String) (store : σ → UInt64 → σ) : Field σ where
  read := readVarintField name store
  safe := readVarintField_safe name store

/-- Store bytes as they are. -/
def storeBytes (store : σ → Bytes → σ) (s : σ) (b : Bytes) : Outcome Error σ := .ok (store s b)

theorem storeBytes_safe (store : σ → Bytes → σ) (s : σ) (b : Bytes) :
    (storeBytes store s b).Safe fun _ => True := trivial

/-- A byte string. -/
def Field.bytes (name : String) (store : σ → Bytes → σ) : Field σ where
  read := readDelimitedField name (storeBytes store)
  safe := readDelimitedField_safe name (storeBytes_safe store)

/-- Unmarshal a nested message into the one that is there, and store it. -/
def mergeMessage (R : Reader τ) (old : σ → τ) (store : σ → τ → σ) (s : σ) (b : Bytes) :
    Outcome Error σ := do
  let m ← R.unmarshal (old s) b
  .ok (store s m)

theorem mergeMessage_safe (R : Reader τ) (old : σ → τ) (store : σ → τ → σ) (s : σ) (b : Bytes) :
    (mergeMessage R old store s b).Safe fun _ => True :=
  (R.unmarshal_safe (old s) b).bind fun _ _ => trivial

/-- A nested message. -/
def Field.message (name : String) (R : Reader τ) (old : σ → τ) (store : σ → τ → σ) : Field σ where
  read := readDelimitedField name (mergeMessage R old store)
  safe := readDelimitedField_safe name (mergeMessage_safe R old store)

end Fields

/-! ## Varints -/

theorem varintAux_fuel {fuel n : Nat} (h : n ≤ fuel) :
    varintAux fuel n = varint n := by
  -- both sides shrink the number by the same groups, with different fuel
  induction fuel using Nat.strong_induction_on generalizing n with
  | _ fuel ih =>
    cases n with
    | zero => cases fuel <;> simp [varint, varintAux]
    | succ n =>
      cases fuel with
      | zero => omega
      | succ fuel =>
        rw [varint, varintAux, varintAux]
        by_cases hlt : n + 1 < 128
        · rw [if_pos hlt, if_pos hlt]
        · rw [if_neg hlt, if_neg hlt]
          rw [ih fuel (by omega) (by omega), ih n (by omega) (by omega)]

/-- One group of the encoding. -/
theorem varint_eq (n : Nat) :
    varint n = if n < 128 then [n.toUInt8]
      else (n % 128 + 128).toUInt8 :: varint (n / 128) := by
  cases n with
  | zero => rfl
  | succ n =>
    rw [varint, varintAux]
    by_cases hlt : n + 1 < 128
    · rw [if_pos hlt, if_pos hlt]
    · rw [if_neg hlt, if_neg hlt, varintAux_fuel (by omega)]

theorem toUInt8_toNat {n : Nat} (h : n < 256) : n.toUInt8.toNat = n :=
  UInt8.toNat_ofNat_of_lt' h

theorem toUInt64_toNat {n : Nat} (h : n < 2 ^ 64) : n.toUInt64.toNat = n :=
  UInt64.toNat_ofNat_of_lt' h

theorem toUInt8_inj {m n : Nat} (hm : m < 256) (hn : n < 256) (h : m.toUInt8 = n.toUInt8) :
    m = n := by
  rw [← toUInt8_toNat hm, ← toUInt8_toNat hn, h]

/-- A number is read off the front of a message in only one way. -/
theorem varint_append_inj {m n : Nat} {a b : Bytes} (h : varint m ++ a = varint n ++ b) :
    m = n ∧ a = b := by
  induction m using Nat.strong_induction_on generalizing n with
  | _ m ih =>
    rw [varint_eq m, varint_eq n] at h
    -- the continuation bit of the first byte tells whether more groups follow
    by_cases hm : m < 128 <;> by_cases hn : n < 128
    · rw [if_pos hm, if_pos hn] at h
      simp only [List.singleton_append, List.cons.injEq] at h
      exact ⟨toUInt8_inj (by omega) (by omega) h.1, h.2⟩
    · rw [if_pos hm, if_neg hn] at h
      simp only [List.cons_append, List.cons.injEq] at h
      have := toUInt8_inj (by omega) (by omega) h.1
      omega
    · rw [if_neg hm, if_pos hn] at h
      simp only [List.cons_append, List.cons.injEq] at h
      have := toUInt8_inj (by omega) (by omega) h.1
      omega
    · rw [if_neg hm, if_neg hn] at h
      simp only [List.cons_append, List.cons.injEq] at h
      have hlow := toUInt8_inj (by omega) (by omega) h.1
      obtain ⟨hhigh, hab⟩ := ih (m / 128) (by omega) h.2
      exact ⟨by omega, hab⟩

/-! ## Reading back a varint -/

/-- Adding seven more bits above the bits read so far. -/
theorem or_shift_toNat {acc : UInt64} {x : UInt8} {shift : Nat} (hshift : shift < 64)
    (hacc : acc.toNat < 2 ^ shift) (hsum : acc.toNat + x.toNat * 2 ^ shift < 2 ^ 64) :
    (acc ||| (x.toUInt64 <<< shift.toUInt64)).toNat = acc.toNat + x.toNat * 2 ^ shift := by
  have hs : shift.toUInt64.toNat % 64 = shift := by
    rw [toUInt64_toNat (by omega)]
    omega
  have hx : (x.toUInt64 <<< shift.toUInt64).toNat = 2 ^ shift * x.toNat := by
    rw [UInt64.toNat_shiftLeft, hs, UInt8.toNat_toUInt64, Nat.shiftLeft_eq,
      Nat.mod_eq_of_lt (by omega), Nat.mul_comm]
  rw [UInt64.toNat_or, hx, Nat.or_comm, ← Nat.two_pow_add_eq_or_of_lt hacc]
  rw [Nat.mul_comm]
  omega

theorem and_0x7F_toNat (b : UInt8) : (b &&& 0x7F).toNat = b.toNat % 128 := by
  rw [UInt8.toNat_and]
  exact Nat.and_two_pow_sub_one_eq_mod b.toNat 7

theorem lt_0x80_iff (b : UInt8) : b < 0x80 ↔ b.toNat < 128 := by
  rw [UInt8.lt_iff_toNat_lt]
  rfl

theorem byteAt_append (pre : Bytes) (b : UInt8) (rest : Bytes) :
    byteAt (pre ++ b :: rest) pre.length = .ok b := by
  rw [byteAt, List.getElem?_append_right (Nat.le_refl _), Nat.sub_self, List.getElem?_cons_zero]

theorem slice_append (pre b rest : Bytes) :
    slice (pre ++ (b ++ rest)) pre.length (pre.length + b.length) = .ok b := by
  have hbound : pre.length ≤ pre.length + b.length ∧
      pre.length + b.length ≤ (pre ++ (b ++ rest)).length := by
    simp only [List.length_append]
    omega
  rw [slice, if_pos hbound, List.drop_left, Nat.add_sub_cancel_left, List.take_left]

/-- The varint loop, entered at bit `shift`, reads the groups a writer wrote. -/
theorem readVarintLoop_varint (n : Nat) {fuel shift : Nat} {acc : UInt64} (pre rest : Bytes)
    (hfuel : 64 ≤ shift + 7 * fuel) (hshift : shift < 64) (hacc : acc.toNat < 2 ^ shift)
    (hsum : acc.toNat + n * 2 ^ shift < 2 ^ 64) :
    readVarintLoop (pre ++ (varint n ++ rest)) (fuel + 1) shift acc pre.length =
      .ok ((acc.toNat + n * 2 ^ shift).toUInt64, pre.length + (varint n).length) := by
  induction n using Nat.strong_induction_on generalizing fuel shift acc pre with
  | _ n ih =>
    have hinside : ∀ b (l : Bytes), ¬ (pre ++ b :: l).length ≤ pre.length := by
      intro b l
      simp
    rw [varint_eq]
    by_cases hn : n < 128
    · have hb : (n.toUInt8 &&& 0x7F).toNat = n := by
        rw [and_0x7F_toNat, toUInt8_toNat (by omega)]
        omega
      rw [if_pos hn, List.singleton_append, readVarintLoop, if_neg (by omega),
        if_neg (hinside _ _), byteAt_append, Outcome.ok_bind]
      have hlast : n.toUInt8 < 0x80 := by
        rw [lt_0x80_iff, toUInt8_toNat (by omega)]
        exact hn
      dsimp only
      rw [if_pos hlast]
      congr 2
      apply UInt64.toNat_inj.mp
      rw [or_shift_toNat hshift hacc (by rw [hb]; exact hsum), hb]
      exact (UInt64.toNat_ofNat_of_lt' hsum).symm
    · have hb : ((n % 128 + 128).toUInt8 &&& 0x7F).toNat = n % 128 := by
        rw [and_0x7F_toNat, toUInt8_toNat (by omega)]
        omega
      have hlow : acc.toNat + n % 128 * 2 ^ shift < 2 ^ 64 :=
        lt_of_le_of_lt (Nat.add_le_add_left (Nat.mul_le_mul_right _ (Nat.mod_le n 128)) _) hsum
      have hacc' := or_shift_toNat (x := (n % 128 + 128).toUInt8 &&& 0x7F) hshift hacc
        (by rw [hb]; exact hlow)
      rw [hb] at hacc'
      -- `n ≥ 128` leaves room for the next group below bit 64
      have hpow : 2 ^ (shift + 7) = 128 * 2 ^ shift := by rw [pow_add]; omega
      have hge : 128 * 2 ^ shift ≤ n * 2 ^ shift := Nat.mul_le_mul_right _ (by omega)
      have hshift' : shift + 7 < 64 := by
        by_contra hcon
        have : 2 ^ 64 ≤ 2 ^ (shift + 7) := Nat.pow_le_pow_right (by decide) (by omega)
        omega
      have hsplit : n * 2 ^ shift = n % 128 * 2 ^ shift + n / 128 * 2 ^ (shift + 7) := by
        calc n * 2 ^ shift = (n % 128 + 128 * (n / 128)) * 2 ^ shift := by
              rw [Nat.mod_add_div]
          _ = n % 128 * 2 ^ shift + n / 128 * 2 ^ (shift + 7) := by rw [hpow]; ring
      have hlow' : n % 128 * 2 ^ shift ≤ 127 * 2 ^ shift :=
        Nat.mul_le_mul_right _ (by omega)
      have hmore : ¬ (n % 128 + 128).toUInt8 < 0x80 := by
        rw [lt_0x80_iff, toUInt8_toNat (by omega)]
        omega
      rw [if_neg hn, List.cons_append, readVarintLoop, if_neg (by omega), if_neg (hinside _ _),
        byteAt_append, Outcome.ok_bind]
      dsimp only
      rw [if_neg hmore]
      -- the first group belongs to what lies before the rest
      obtain ⟨fuel, rfl⟩ : ∃ fuel', fuel = fuel' + 1 := ⟨fuel - 1, by omega⟩
      have hpre : pre ++ (n % 128 + 128).toUInt8 :: (varint (n / 128) ++ rest) =
          pre ++ [(n % 128 + 128).toUInt8] ++ (varint (n / 128) ++ rest) := by simp
      have hlength : pre.length + 1 = (pre ++ [(n % 128 + 128).toUInt8]).length := by simp
      rw [hpre, hlength, ih (n / 128) (by omega) _ (by omega) hshift' (by rw [hacc', hpow]; omega)
        (by rw [hacc']; omega), hacc', hsplit, Nat.add_assoc, List.length_cons,
        ← hlength]
      congr 2
      omega

/-- **A reader gets back the number a writer wrote**, and the index behind it. -/
theorem readVarint_varint (v : UInt64) (pre rest : Bytes) :
    readVarint (pre ++ (varint v.toNat ++ rest)) pre.length =
      .ok (v, pre.length + (varint v.toNat).length) := by
  have hv := v.toNat_lt
  rw [readVarint, readVarintLoop_varint v.toNat pre rest (by decide) (by decide) (by simp)
    (by simpa using hv)]
  simp

/-! ## Peeling off written fields -/

/-- What follows a field starts with a higher tag. -/
def StartsAbove (tag : UInt8) (rest : Bytes) : Prop := ∀ b ∈ rest.head?, tag < b

theorem startsAbove_nil (tag : UInt8) : StartsAbove tag [] := by
  simp [StartsAbove]

theorem startsAbove_messageField {tag tag' : UInt8} (h : tag < tag') (b rest : Bytes) :
    StartsAbove tag (messageField tag' b ++ rest) := by
  simp [StartsAbove, messageField, h]

theorem startsAbove_bytesField {tag tag' : UInt8} (h : tag < tag') (b : Bytes) {rest : Bytes}
    (hrest : StartsAbove tag rest) : StartsAbove tag (bytesField tag' b ++ rest) := by
  unfold bytesField
  split
  · exact hrest
  · exact startsAbove_messageField h b rest

/-- A later field is not mistaken for the field with this tag. -/
theorem StartsAbove.ne_cons {tag : UInt8} {rest b : Bytes} (h : StartsAbove tag rest) :
    rest ≠ tag :: b := by
  rintro rfl
  exact absurd (h tag (by simp)) (UInt8.lt_irrefl tag)

theorem messageField_append_inj {tag : UInt8} {a b ra rb : Bytes}
    (h : messageField tag a ++ ra = messageField tag b ++ rb) : a = b ∧ ra = rb := by
  simp only [messageField, List.cons_append, List.cons.injEq, true_and,
    List.append_assoc] at h
  obtain ⟨hlen, hrest⟩ := varint_append_inj h
  exact List.append_inj hrest hlen

theorem bytesField_append_inj {tag : UInt8} {a b ra rb : Bytes}
    (ha : StartsAbove tag ra) (hb : StartsAbove tag rb)
    (h : bytesField tag a ++ ra = bytesField tag b ++ rb) : a = b ∧ ra = rb := by
  unfold bytesField at h
  -- where only one side is written, the other begins with a higher tag
  split at h <;> split at h
  · rename_i ha0 hb0
    exact ⟨by rw [ha0, hb0], by simpa using h⟩
  · exact absurd h (by simpa [messageField] using ha.ne_cons)
  · exact absurd h.symm (by simpa [messageField] using hb.ne_cons)
  · exact messageField_append_inj h

theorem startsAbove_bytesField_last {tag tag' : UInt8} (h : tag < tag') (b : Bytes) :
    StartsAbove tag (bytesField tag' b) := by
  simpa using startsAbove_bytesField h b (startsAbove_nil tag)

/-- The last field of a message. -/
theorem bytesField_inj {tag : UInt8} {a b : Bytes} (h : bytesField tag a = bytesField tag b) :
    a = b :=
  (bytesField_append_inj (startsAbove_nil tag) (startsAbove_nil tag) (by simpa using h)).1

theorem varintField_append_inj {tag : UInt8} {m n : Nat} {ra rb : Bytes}
    (ha : StartsAbove tag ra) (hb : StartsAbove tag rb)
    (h : varintField tag m ++ ra = varintField tag n ++ rb) : m = n ∧ ra = rb := by
  unfold varintField at h
  -- a zero is not written; then the other side begins with a higher tag
  split at h <;> split at h
  · rename_i hm hn
    exact ⟨by rw [hm, hn], by simpa using h⟩
  · exact absurd h (by simpa using ha.ne_cons)
  · exact absurd h.symm (by simpa using hb.ne_cons)
  · simp only [List.cons_append, List.cons.injEq, true_and] at h
    exact varint_append_inj h

/-! ## One turn of a reader's loop -/

section Loop

variable {σ : Type} {R : Reader σ} {dAtA : Bytes} {fuel : Nat} {s : σ}

theorem Reader.loop_end : R.loop dAtA (fuel + 1) s dAtA.length = .ok s := by
  rw [loop, if_neg (Nat.lt_irrefl _), if_neg (Nat.lt_irrefl _)]

/-- A known field under a one-byte tag is handed to the message. -/
theorem Reader.loop_field {tag : Nat} (pre rest : Bytes) {f : Field σ}
    (htag : 8 ≤ tag ∧ tag < 128) (hwire : tag % 8 ≠ 4) (hfield : R.field (tag / 8) = some f) :
    R.loop (pre ++ tag.toUInt8 :: rest) (fuel + 1) s pre.length =
      f.read s (tag % 8) (pre ++ tag.toUInt8 :: rest) (pre.length + 1) >>= fun r =>
        R.loop (pre ++ tag.toUInt8 :: rest) fuel r.1 r.2 := by
  have hv : tag.toUInt64.toNat = tag := toUInt64_toNat (by omega)
  have hread : readVarint (pre ++ tag.toUInt8 :: rest) pre.length =
      .ok (tag.toUInt64, pre.length + 1) := by
    have h := readVarint_varint tag.toUInt64 pre rest
    rw [hv, varint_eq, if_pos htag.2] at h
    exact h
  have hnum : tag / 8 % 2 ^ 32 = tag / 8 := Nat.mod_eq_of_lt (by omega)
  rw [loop, if_pos (by simp)]
  simp only [hread, Outcome.ok_bind, hv, hnum]
  rw [if_neg hwire, if_neg (by omega)]
  simp only [hfield]

end Loop

end Wire
