import FabricIBC.Lib.Buffer

/-!
# Reading back what was written

`Reads R l s enc s'` says that the loop of a generated `Unmarshal`, in state `s` and
with `enc` at its index, takes in these bytes and is in state `s'` then, whatever stands
before and behind them in an input of at most `l` bytes. The rules put a message
together field by field:

* `Reads.append` — one field after the other;
* `Reads.varintField`, `Reads.bytesField`, `Reads.messageField` — the fields writers
  write;
* `Reads.nullable`, `Reads.repeated` — messages that may be missing or occur often;
* `unmarshal_of_reads` — a message whose bytes have been read is unmarshalled.
-/

namespace Wire

open Go

section Reads

variable {σ τ : Type} {R : Reader σ} {l : Nat} {s s' s'' : σ}

/-- The loop takes in `enc` and goes from `s` to `s'`; fuel for the rest is left. -/
def Reads (R : Reader σ) (l : Nat) (s : σ) (enc : Bytes) (s' : σ) : Prop :=
  ∀ pre rest fuel, (pre ++ (enc ++ rest)).length ≤ l → (enc ++ rest).length < fuel →
    ∃ fuel', rest.length < fuel' ∧
      R.loop (pre ++ (enc ++ rest)) fuel s pre.length =
        R.loop (pre ++ (enc ++ rest)) fuel' s' (pre.length + enc.length)

theorem Reads.nil : Reads R l s [] s :=
  fun _ _ fuel _ hfuel => ⟨fuel, hfuel, rfl⟩

theorem Reads.append {a b : Bytes} (ha : Reads R l s a s') (hb : Reads R l s' b s'') :
    Reads R l s (a ++ b) s'' := by
  intro pre rest fuel hl hfuel
  rw [List.append_assoc] at hl hfuel ⊢
  obtain ⟨fuel₁, hfuel₁, hread₁⟩ := ha pre (b ++ rest) fuel hl hfuel
  -- the first piece stands before the second one now
  have hpre : pre ++ (a ++ (b ++ rest)) = pre ++ a ++ (b ++ rest) := by simp
  have hlength : pre.length + a.length = (pre ++ a).length := List.length_append.symm
  rw [hpre] at hl hread₁ ⊢
  rw [hlength] at hread₁
  obtain ⟨fuel₂, hfuel₂, hread₂⟩ := hb (pre ++ a) rest fuel₁ hl hfuel₁
  refine ⟨fuel₂, hfuel₂, ?_⟩
  rw [hread₁, hread₂, ← hlength, List.length_append, Nat.add_assoc]

/-- A field that is written is handed to its reader. -/
theorem Reads.field (tag : Nat) {b : Bytes} {f : Field σ}
    (htag : 8 ≤ tag ∧ tag < 128 ∧ tag % 8 ≠ 4) (hfield : R.field (tag / 8) = some f)
    (hread : ∀ pre rest, (pre ++ (b ++ rest)).length ≤ l →
      f.read s (tag % 8) (pre ++ (b ++ rest)) pre.length = .ok (s', pre.length + b.length)) :
    Reads R l s (tag.toUInt8 :: b) s' := by
  intro pre rest fuel hl hfuel
  obtain ⟨fuel, rfl⟩ : ∃ fuel', fuel = fuel' + 1 := ⟨fuel - 1, by omega⟩
  have hpre : pre ++ tag.toUInt8 :: (b ++ rest) = pre ++ [tag.toUInt8] ++ (b ++ rest) := by simp
  have hlength : pre.length + 1 = (pre ++ [tag.toUInt8]).length := by simp
  have hnext := hread (pre ++ [tag.toUInt8]) rest (by rwa [← hpre])
  rw [← hpre, ← hlength] at hnext
  simp only [List.cons_append, List.length_cons, List.length_append] at hfuel ⊢
  refine ⟨fuel, by omega, ?_⟩
  rw [Reader.loop_field pre (b ++ rest) ⟨htag.1, htag.2.1⟩ htag.2.2 hfield, hnext, Outcome.ok_bind]
  congr 1
  omega

/-! ## The fields -/

/-- A number, zero included: it is not written, and is there already. -/
theorem Reads.varintField (tag : Nat) {v : UInt64} {name : String} {store : σ → UInt64 → σ}
    (htag : 8 ≤ tag ∧ tag < 128 ∧ tag % 8 = 0)
    (hfield : R.field (tag / 8) = some (.varint name store))
    (hzero : store s 0 = s) (hstore : store s v = s') :
    Reads R l s (varintField tag.toUInt8 v.toNat) s' := by
  unfold Wire.varintField
  by_cases hv : v.toNat = 0
  · have hv0 : v = 0 := UInt64.toNat_inj.mp hv
    rw [if_pos hv, ← hstore, hv0, hzero]
    exact Reads.nil
  · rw [if_neg hv]
    refine Reads.field tag ⟨htag.1, htag.2.1, by omega⟩ hfield fun pre rest _ => ?_
    show readVarintField name store s (tag % 8) _ _ = _
    rw [readVarintField, htag.2.2, if_neg (by decide), readVarint_varint, ← hstore]
    rfl

/-- A length and as many bytes are read, in a message that is a Go slice. -/
theorem readBytes_eq_ok {pre b rest : Bytes}
    (h : (pre ++ (varint b.length ++ b ++ rest)).length < intLimit) :
    readBytes (pre ++ (varint b.length ++ b ++ rest)) pre.length =
      .ok (b, pre.length + (varint b.length ++ b).length) := by
  have hbound : pre.length + (varint b.length).length + b.length + rest.length < intLimit := by
    simpa [Nat.add_assoc] using h
  have hlen : b.length.toUInt64.toNat = b.length :=
    toUInt64_toNat (lt_trans (lt_of_le_of_lt (by omega) hbound) (by decide))
  have hread := readVarint_varint b.length.toUInt64 pre (b ++ rest)
  rw [hlen, ← List.append_assoc (varint b.length)] at hread
  have hpre : pre ++ (varint b.length ++ b ++ rest) =
      pre ++ varint b.length ++ (b ++ rest) := by simp
  have hslice := slice_append (pre ++ varint b.length) b rest
  rw [← hpre, List.length_append] at hslice
  rw [readBytes, hread, Outcome.ok_bind]
  simp only [hlen]
  have hend : ¬ (pre ++ (varint b.length ++ b ++ rest)).length <
      pre.length + (varint b.length).length + b.length := by
    simp only [List.length_append]
    omega
  rw [if_neg (by omega), if_neg (by omega), if_neg hend, hslice, Outcome.ok_bind,
    List.length_append, Nat.add_assoc]

/-- A length-delimited field that is written. -/
theorem Reads.delimited (tag : Nat) {b : Bytes} {name : String} {f : Field σ}
    {decode : σ → Bytes → Outcome Error σ} (hl : l < intLimit)
    (htag : 8 ≤ tag ∧ tag < 128 ∧ tag % 8 = 2) (hfield : R.field (tag / 8) = some f)
    (hread : f.read = readDelimitedField name decode)
    (hdecode : b.length < intLimit → decode s b = .ok s') :
    Reads R l s (messageField tag.toUInt8 b) s' := by
  refine Reads.field tag ⟨htag.1, htag.2.1, by omega⟩ hfield fun pre rest hlength => ?_
  have hb : b.length < intLimit := by
    simp only [List.length_append] at hlength
    omega
  rw [hread, readDelimitedField, htag.2.2, if_neg (by decide),
    readBytes_eq_ok (lt_of_le_of_lt hlength hl), Outcome.ok_bind]
  simp only [hdecode hb, Outcome.ok_bind]

/-- An element of a repeated byte string. -/
theorem Reads.element (tag : Nat) {b : Bytes} {name : String} {store : σ → Bytes → σ}
    (hl : l < intLimit) (htag : 8 ≤ tag ∧ tag < 128 ∧ tag % 8 = 2)
    (hfield : R.field (tag / 8) = some (.bytes name store)) (hstore : store s b = s') :
    Reads R l s (messageField tag.toUInt8 b) s' :=
  Reads.delimited tag hl htag hfield rfl fun _ => congrArg Outcome.ok hstore

/-- A byte string; the empty one is not written. -/
theorem Reads.optionalBytes (tag : Nat) {b : Bytes} {name : String} {store : σ → Bytes → σ}
    (hl : l < intLimit) (htag : 8 ≤ tag ∧ tag < 128 ∧ tag % 8 = 2)
    (hfield : R.field (tag / 8) = some (.bytes name store))
    (hempty : b = [] → s = s') (hstore : b ≠ [] → store s b = s') :
    Reads R l s (bytesField tag.toUInt8 b) s' := by
  unfold Wire.bytesField
  by_cases hb : b = []
  · rw [if_pos hb, hempty hb]
    exact Reads.nil
  · rw [if_neg hb]
    exact Reads.element tag hl htag hfield (hstore hb)

/-- A byte string in place of the empty one. -/
theorem Reads.bytesField (tag : Nat) {b : Bytes} {name : String} {store : σ → Bytes → σ}
    (hl : l < intLimit) (htag : 8 ≤ tag ∧ tag < 128 ∧ tag % 8 = 2)
    (hfield : R.field (tag / 8) = some (.bytes name store))
    (hempty : store s [] = s) (hstore : store s b = s') :
    Reads R l s (bytesField tag.toUInt8 b) s' :=
  Reads.optionalBytes tag hl htag hfield (fun hb => by rw [← hstore, hb, hempty]) (fun _ => hstore)

/-- A nested message that its own reader reads. -/
theorem Reads.messageField (tag : Nat) {b : Bytes} {name : String} {N : Reader τ} {old : σ → τ}
    {store : σ → τ → σ} {m : τ} (hl : l < intLimit) (htag : 8 ≤ tag ∧ tag < 128 ∧ tag % 8 = 2)
    (hfield : R.field (tag / 8) = some (.message name N old store))
    (hdecode : b.length < intLimit → N.unmarshal (old s) b = .ok m) (hstore : store s m = s') :
    Reads R l s (messageField tag.toUInt8 b) s' := by
  refine Reads.delimited tag hl htag hfield rfl fun hb => ?_
  rw [mergeMessage, hdecode hb, Outcome.ok_bind, hstore]

/-- A nullable message: nothing is written for nil. `f` is what the wire makes of a
nested message. -/
theorem Reads.nullable (tag : Nat) (f : τ → τ) {p : τ → Part} {m : Option τ} {name : String}
    {N : Reader τ} {old : σ → τ} {store : σ → τ → σ} (hl : l < intLimit)
    (htag : 8 ≤ tag ∧ tag < 128 ∧ tag % 8 = 2)
    (hfield : R.field (tag / 8) = some (.message name N old store))
    (hdecode : ∀ a, (p a).bytes.length < intLimit → N.unmarshal (old s) (p a).bytes = .ok (f a))
    (hnone : m = none → s = s') (hsome : ∀ a, m = some a → store s (f a) = s') :
    Reads R l s (Part.nullable tag.toUInt8 p m).bytes s' := by
  cases m with
  | none =>
    rw [hnone rfl]
    exact Reads.nil
  | some a => exact Reads.messageField tag hl htag hfield (hdecode a) (hsome a rfl)

/-- The elements of a repeated field, one after the other; `put as` is the state in
which the elements `as` have been read. -/
theorem Reads.repeated {α : Type} {enc : α → Bytes} (put : List α → σ)
    (h : ∀ as a, Reads R l (put as) (enc a) (put (as ++ [a]))) (as : List α) :
    Reads R l (put []) (as.flatMap enc) (put as) := by
  -- read the last element behind the ones before it
  induction as using List.reverseRecOn with
  | nil => exact Reads.nil
  | append_singleton as a ih =>
    rw [List.flatMap_append, List.flatMap_singleton]
    exact ih.append (h as a)

theorem unmarshal_of_reads {data : Bytes} (h : Reads R data.length s data s') :
    R.unmarshal s data = .ok s' := by
  obtain ⟨fuel, hfuel, hread⟩ := h [] [] (data.length + 1) (by simp) (by simp)
  obtain ⟨fuel, rfl⟩ : ∃ fuel', fuel = fuel' + 1 := ⟨fuel - 1, by omega⟩
  simp only [List.nil_append, List.append_nil, List.length_nil, Nat.zero_add] at hread
  rw [Reader.unmarshal, hread, Reader.loop_end]

end Reads

end Wire
