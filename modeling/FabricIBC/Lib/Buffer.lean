import FabricIBC.Lib.Wire

/-!
# Messages written into a buffer of the right size

Generated marshalling code runs in two passes. `Size` adds up the lengths of the
fields; then `MarshalToSizedBuffer` fills a buffer of that size from its end, last
field first, so that the length of a nested message is known when it is written in
front of it. An index outside the buffer is a panic.

`Part` is a piece of a message with what both passes do about it, and the bytes it
stands for. It carries the proof that the passes agree with the bytes, so a message
put together from parts cannot disagree with its plain encoding:

* `sov_eq_length` — `Size` counts the bytes of a number right;
* `Part.varint`, `Part.bytes`, `Part.message`, `Part.append` — the parts generated
  code is made of;
* `Part.marshal_eq` — marshalling fills the buffer exactly, and with these bytes.
-/

namespace Wire

open Go

/-! ## The length of a varint -/

/-- `sov`: the number of bytes of a varint, from `math_bits.Len64(x | 1)`. -/
def sov (x : Nat) : Nat := ((x ||| 1).log2 + 1 + 6) / 7

theorem log2_or_one {x : Nat} (h : x ≠ 0) : (x ||| 1).log2 = x.log2 := by
  have hx := (Nat.log2_eq_iff h).mp rfl
  have hone : x ||| 1 ≠ 0 := by
    have hle : x ≤ x ||| 1 := Nat.left_le_or
    omega
  rw [Nat.log2_eq_iff hone]
  constructor
  · exact hx.1.trans Nat.left_le_or
  · exact Nat.or_lt_two_pow hx.2 (Nat.one_lt_two_pow (by omega))

theorem log2_div_128 {x : Nat} (h : 128 ≤ x) : x.log2 = (x / 128).log2 + 7 := by
  obtain ⟨hle, hlt⟩ := (Nat.log2_eq_iff (n := x / 128) (by omega)).mp rfl
  rw [Nat.log2_eq_iff (by omega)]
  have hpow : ∀ k, 2 ^ (k + 7) = 2 ^ k * 128 := fun k => Nat.pow_add 2 k 7
  have hpow' : 2 ^ ((x / 128).log2 + 7 + 1) = 2 ^ ((x / 128).log2 + 1) * 128 := hpow _
  rw [hpow, hpow']
  omega

theorem sov_eq_length (x : Nat) : sov x = (varint x).length := by
  induction x using Nat.strong_induction_on with
  | _ x ih =>
    rw [varint_eq]
    by_cases hx : x < 128
    · have hor : x ||| 1 < 2 ^ 7 := Nat.or_lt_two_pow hx (by decide)
      have hone : 1 ≤ x ||| 1 := Nat.right_le_or
      have hlog : (x ||| 1).log2 < 7 := (Nat.log2_lt (by omega)).mpr hor
      rw [if_pos hx, sov, List.length_singleton]
      omega
    · -- a group of seven bits more
      have hlog : (x ||| 1).log2 = (x / 128 ||| 1).log2 + 7 := by
        rw [log2_or_one (by omega), log2_or_one (by omega), log2_div_128 (by omega)]
      rw [if_neg hx, List.length_cons, ← ih (x / 128) (by omega), sov, sov, hlog]
      omega

/-! ## Writing from the end -/

/-- `dAtA` and `i`: what stands from `i` on has been written. -/
structure Cursor where
  data : Bytes
  i : Nat
  deriving DecidableEq, Repr

abbrev Writer := Cursor → Outcome Error Cursor

/-- `dAtA[k] = b`. -/
def setAt (data : Bytes) (k : Nat) (b : UInt8) : Outcome Error Bytes :=
  if k < data.length then .ok (data.set k b) else .panic .indexOutOfRange

/-- `i--; dAtA[i] = b`. -/
def putByte (b : UInt8) : Writer := fun c =>
  if c.i < 1 then .panic .indexOutOfRange
  else do
    let data ← setAt c.data (c.i - 1) b
    .ok ⟨data, c.i - 1⟩

/-- `i -= len(b); copy(dAtA[i:], b)`. -/
def putBytes (b : Bytes) : Writer := fun c =>
  if c.i < b.length then .panic .indexOutOfRange
  else
    let i := c.i - b.length
    -- `copy` stops at the end of the buffer
    .ok ⟨c.data.take i ++ b.take (c.data.length - i) ++ c.data.drop (i + b.length), i⟩

/-- The loop of `encodeVarint`; `fuel` bounds the number of groups. -/
def encodeVarintLoop : (fuel : Nat) → (data : Bytes) → (offset v : Nat) → Outcome Error Bytes
  | 0, data, offset, v => setAt data offset v.toUInt8
  | fuel + 1, data, offset, v =>
    if v < 128 then setAt data offset v.toUInt8
    else do
      let data ← setAt data offset (v % 128 + 128).toUInt8
      encodeVarintLoop fuel data (offset + 1) (v / 128)

/-- `i = encodeVarint(dAtA, i, v)`: the groups are written forwards. -/
def encodeVarint (v : Nat) : Writer := fun c =>
  if c.i < sov v then .panic .indexOutOfRange
  else do
    let base := c.i - sov v
    let data ← encodeVarintLoop v c.data base v
    .ok ⟨data, base⟩

/-- `size, err := m.MarshalToSizedBuffer(dAtA[:i]); i -= size`, then the length:
the nested message is written into the part of the buffer that is still free. -/
def putMessage (write : Writer) : Writer := fun c => do
  let inner ← write ⟨c.data.take c.i, c.i⟩
  let size := c.i - inner.i
  encodeVarint size ⟨inner.data ++ c.data.drop c.i, c.i - size⟩

/-! ## What a writer writes -/

/-- `b` in front of what has been written. -/
def Cursor.push (c : Cursor) (b : Bytes) : Cursor :=
  ⟨c.data.take (c.i - b.length) ++ b ++ c.data.drop c.i, c.i - b.length⟩

/-- The writer puts `b` in front wherever there is room for it. -/
def Writes (write : Writer) (b : Bytes) : Prop :=
  ∀ c : Cursor, c.i ≤ c.data.length → b.length ≤ c.i → write c = .ok (c.push b)

theorem Cursor.push_length {c : Cursor} {b : Bytes} (hc : c.i ≤ c.data.length)
    (hb : b.length ≤ c.i) : (c.push b).data.length = c.data.length := by
  simp only [Cursor.push, List.length_append, List.length_take, List.length_drop]
  omega

theorem Cursor.push_push {c : Cursor} {a b : Bytes} (hc : c.i ≤ c.data.length)
    (hb : a.length + b.length ≤ c.i) : (c.push b).push a = c.push (a ++ b) := by
  have hlen : (c.data.take (c.i - b.length)).length = c.i - b.length := by
    rw [List.length_take]
    omega
  have htake : ((c.data.take (c.i - b.length) ++ b ++ c.data.drop c.i)).take
      (c.i - b.length - a.length) = c.data.take (c.i - b.length - a.length) := by
    rw [List.append_assoc, List.take_append_of_le_length (by omega), List.take_take]
    congr 1
    omega
  have hdrop : (c.data.take (c.i - b.length) ++ b ++ c.data.drop c.i).drop (c.i - b.length) =
      b ++ c.data.drop c.i := by
    rw [List.append_assoc, List.drop_left' hlen]
  have hi : c.i - b.length - a.length = c.i - (a ++ b).length := by
    rw [List.length_append]
    omega
  simp only [Cursor.push, Cursor.mk.injEq]
  rw [htake, hdrop, hi]
  exact ⟨by simp only [List.append_assoc], rfl⟩

/-- The writer of the later bytes runs first. -/
theorem Writes.seq {w w' : Writer} {a b : Bytes} (hw' : Writes w' b) (hw : Writes w a) :
    Writes (fun c => w' c >>= w) (a ++ b) := by
  intro c hc hlen
  rw [List.length_append] at hlen
  show w' c >>= w = _
  rw [hw' c hc (by omega), Outcome.ok_bind, hw (c.push b), Cursor.push_push hc hlen]
  · rw [Cursor.push_length hc (by omega)]
    show c.i - b.length ≤ _
    omega
  · show a.length ≤ c.i - b.length
    omega

theorem writes_nil : Writes (fun c => .ok c) [] := by
  intro c _ _
  simp [Cursor.push]

theorem writes_putByte (b : UInt8) : Writes (putByte b) [b] := by
  intro c hc hlen
  rw [List.length_singleton] at hlen
  rw [putByte, if_neg (by omega), setAt, if_pos (by omega), Outcome.ok_bind]
  have hset : c.data.set (c.i - 1) b = c.data.take (c.i - 1) ++ [b] ++ c.data.drop c.i := by
    rw [List.set_eq_take_append_cons_drop, if_pos (by omega), Nat.sub_add_cancel hlen]
    simp
  rw [hset]
  rfl

theorem writes_putBytes (b : Bytes) : Writes (putBytes b) b := by
  intro c hc hlen
  have hfull : b.take (c.data.length - (c.i - b.length)) = b :=
    List.take_of_length_le (by omega)
  rw [putBytes, if_neg (by omega)]
  dsimp only
  rw [hfull, Nat.sub_add_cancel hlen]
  rfl

/-- The loop puts the groups in place of as many bytes of the buffer. -/
theorem encodeVarintLoop_eq {fuel v : Nat} (hfuel : v ≤ fuel) (pre mid post : Bytes)
    (hmid : mid.length = (varint v).length) :
    encodeVarintLoop fuel (pre ++ mid ++ post) pre.length v = .ok (pre ++ varint v ++ post) := by
  -- the group at the head of `mid` is written, and the loop goes on behind it
  induction fuel generalizing v pre mid with
  | zero =>
    obtain rfl : v = 0 := by omega
    obtain ⟨b, rfl⟩ := List.length_eq_one_iff.mp hmid
    simp [encodeVarintLoop, setAt, varint, varintAux]
  | succ fuel ih =>
    rw [varint_eq] at hmid ⊢
    by_cases hv : v < 128
    · rw [if_pos hv] at hmid ⊢
      obtain ⟨b, rfl⟩ := List.length_eq_one_iff.mp hmid
      simp [encodeVarintLoop, hv, setAt]
    · rw [if_neg hv] at hmid ⊢
      obtain ⟨b, mid, rfl⟩ := List.exists_cons_of_length_eq_add_one hmid
      have hset : (pre ++ b :: mid ++ post).set pre.length (v % 128 + 128).toUInt8 =
          (pre ++ [(v % 128 + 128).toUInt8]) ++ mid ++ post := by
        simp
      have hnext := ih (v := v / 128) (by omega) (pre ++ [(v % 128 + 128).toUInt8]) mid
        (by simpa using hmid)
      rw [encodeVarintLoop, if_neg hv, setAt, if_pos (by simp), Outcome.ok_bind, hset]
      rw [List.length_append, List.length_singleton] at hnext
      rw [hnext]
      simp

theorem writes_encodeVarint (v : Nat) : Writes (encodeVarint v) (varint v) := by
  intro c hc hlen
  rw [encodeVarint, sov_eq_length, if_neg (by omega)]
  -- the buffer around the place of the number
  have hsplit : c.data = c.data.take (c.i - (varint v).length) ++
      (c.data.take c.i).drop (c.i - (varint v).length) ++ c.data.drop c.i := by
    have htake : c.data.take (c.i - (varint v).length) =
        (c.data.take c.i).take (c.i - (varint v).length) := by
      rw [List.take_take]
      congr 1
      omega
    rw [htake, List.take_append_drop, List.take_append_drop]
  have hpre : (c.data.take (c.i - (varint v).length)).length = c.i - (varint v).length := by
    rw [List.length_take]
    omega
  have hloop := encodeVarintLoop_eq (le_refl v) (c.data.take (c.i - (varint v).length))
    ((c.data.take c.i).drop (c.i - (varint v).length)) (c.data.drop c.i)
    (by rw [List.length_drop, List.length_take]; omega)
  rw [← hsplit, hpre] at hloop
  dsimp only
  rw [hloop]
  rfl

/-- A nested message is written behind its length. -/
theorem Writes.message {w : Writer} {b : Bytes} (hw : Writes w b) :
    Writes (putMessage w) (varint b.length ++ b) := by
  intro c hc hlen
  rw [List.length_append] at hlen
  have hfree : (c.data.take c.i).length = c.i := by
    rw [List.length_take]
    omega
  have hinner := hw ⟨c.data.take c.i, c.i⟩ hfree.ge (show b.length ≤ c.i by omega)
  have hdata : ((⟨c.data.take c.i, c.i⟩ : Cursor).push b).data ++ c.data.drop c.i =
      (c.push b).data := by
    have htake : (c.data.take c.i).take (c.i - b.length) = c.data.take (c.i - b.length) := by
      rw [List.take_take]
      congr 1
      omega
    simp only [Cursor.push, htake, List.drop_take, Nat.sub_self, List.take_zero, List.append_nil]
  rw [putMessage, hinner, Outcome.ok_bind]
  dsimp only
  have hsize : c.i - ((⟨c.data.take c.i, c.i⟩ : Cursor).push b).i = b.length := by
    show c.i - (c.i - b.length) = b.length
    omega
  rw [hdata, hsize]
  have hlength := writes_encodeVarint b.length (c.push b)
    (by rw [Cursor.push_length hc (by omega)]; show c.i - b.length ≤ _; omega)
    (by show _ ≤ c.i - b.length; omega)
  rw [Cursor.push_push hc (by omega)] at hlength
  exact hlength

/-! ## Parts of a message -/

/-- A piece of a message: its share of `Size` and of `MarshalToSizedBuffer`, and
the bytes it stands for. -/
structure Part where
  bytes : Bytes
  size : Nat
  write : Writer
  size_eq : size = bytes.length
  writes : Writes write bytes

namespace Part

/-- Nothing, as for a field that is left out. -/
def empty : Part := ⟨[], 0, fun c => .ok c, rfl, writes_nil⟩

/-- Two pieces, of which the second one is written first. -/
def append (p q : Part) : Part where
  bytes := p.bytes ++ q.bytes
  size := p.size + q.size
  write c := q.write c >>= p.write
  size_eq := by rw [List.length_append, p.size_eq, q.size_eq]
  writes := q.writes.seq p.writes

instance : Append Part := ⟨append⟩

@[simp] theorem bytes_append (p q : Part) : (p ++ q).bytes = p.bytes ++ q.bytes := rfl

/-- `if v != 0 { i = encodeVarint(dAtA, i, v); i--; dAtA[i] = tag }`. -/
def varint (tag : UInt8) (v : Nat) : Part where
  bytes := varintField tag v
  size := if v = 0 then 0 else 1 + sov v
  write := if v = 0 then fun c => .ok c else fun c => encodeVarint v c >>= putByte tag
  size_eq := by
    unfold varintField
    split
    · rfl
    · rw [List.length_cons, sov_eq_length, Nat.add_comm]
  writes := by
    unfold varintField
    split
    · exact writes_nil
    · exact (writes_encodeVarint v).seq (writes_putByte tag)

/-- A flag: `if v { i--; dAtA[i] = 1; i--; dAtA[i] = tag }`. -/
def flag (tag : UInt8) (v : Bool) : Part where
  bytes := if v then [tag, 1] else []
  size := if v then 2 else 0
  write := if v then fun c => putByte 1 c >>= putByte tag else fun c => .ok c
  size_eq := by cases v <;> rfl
  writes := by
    cases v
    · exact writes_nil
    · exact (writes_putByte 1).seq (writes_putByte tag)

theorem length_messageField (tag : UInt8) (b : Bytes) :
    (messageField tag b).length = 1 + b.length + sov b.length := by
  rw [messageField, List.length_cons, List.length_append, sov_eq_length]
  omega

/-- A nested message: `MarshalToSizedBuffer`, its length, `i--; dAtA[i] = tag`. -/
def message (tag : UInt8) (p : Part) : Part where
  bytes := messageField tag p.bytes
  size := 1 + p.size + sov p.size
  write c := putMessage p.write c >>= putByte tag
  size_eq := by rw [length_messageField, p.size_eq]
  writes := p.writes.message.seq (writes_putByte tag)

/-- An element of a repeated byte string: `i -= len(b); copy(dAtA[i:], b)`, its
length, `i--; dAtA[i] = tag`. -/
def element (tag : UInt8) (b : Bytes) : Part where
  bytes := messageField tag b
  size := 1 + b.length + sov b.length
  write c := (putBytes b c >>= encodeVarint b.length) >>= putByte tag
  size_eq := (length_messageField tag b).symm
  writes := ((writes_putBytes b).seq (writes_encodeVarint b.length)).seq (writes_putByte tag)

/-- A byte string or a string: written if `len(b) > 0`. -/
def bytesField (tag : UInt8) (b : Bytes) : Part where
  bytes := Wire.bytesField tag b
  size := if b = [] then 0 else (element tag b).size
  write := if b = [] then fun c => .ok c else (element tag b).write
  size_eq := by
    unfold Wire.bytesField
    split
    · rfl
    · exact (element tag b).size_eq
  writes := by
    unfold Wire.bytesField
    split
    · exact writes_nil
    · exact (element tag b).writes

/-- A nullable message: written if the pointer is not nil. -/
def nullable {α : Type} (tag : UInt8) (p : α → Part) : Option α → Part
  | none => empty
  | some a => message tag (p a)

/-- `for iNdEx := len(l) - 1; iNdEx >= 0; iNdEx--`: the last element is written first. -/
def repeated {α : Type} (p : α → Part) : List α → Part
  | [] => empty
  | a :: l => p a ++ repeated p l

@[simp] theorem bytes_repeated {α : Type} (p : α → Part) (l : List α) :
    (repeated p l).bytes = l.flatMap fun a => (p a).bytes := by
  induction l with
  | nil => rfl
  | cons a l ih => rw [repeated, bytes_append, ih, List.flatMap_cons]

/-- `Marshal`: make a buffer of the computed size, fill it, and return what has
been written, `dAtA[:n]` with `n = len(dAtA) - i`. -/
def marshal (p : Part) : Outcome Error Bytes := do
  let c ← p.write ⟨List.replicate p.size 0, p.size⟩
  .ok (c.data.take (p.size - c.i))

/-- **Marshalling agrees with the plain encoding**: it does not panic, the buffer
is filled to its first byte, and holds the fields in ascending order. -/
theorem marshal_eq (p : Part) :
    p.write ⟨List.replicate p.size 0, p.size⟩ = .ok ⟨p.bytes, 0⟩ ∧ p.marshal = .ok p.bytes := by
  have hwrite : p.write ⟨List.replicate p.size 0, p.size⟩ = .ok ⟨p.bytes, 0⟩ := by
    rw [p.writes _ (by simp) (by rw [p.size_eq])]
    simp [Cursor.push, p.size_eq]
  refine ⟨hwrite, ?_⟩
  rw [marshal, hwrite, Outcome.ok_bind]
  simp [p.size_eq]

end Part

end Wire
