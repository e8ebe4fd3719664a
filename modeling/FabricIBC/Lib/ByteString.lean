import Mathlib.Data.List.Basic
import Mathlib.Data.List.Infix
import Mathlib.Data.UInt

/-!
# Byte strings

Go strings are byte sequences, so a string and a `[]byte` are both `Bytes`
here and `strings.Compare` is the lexicographic order on lists of bytes.

The second half is what proofs about slash-separated names need:

* `append_ne_of_not_isPrefix`, `append_ne_of_not_isSuffix` — names with
  incomparable beginnings (endings) differ, whatever follows (precedes);
* `PrefixFree.append_inj` — the beginning of a name is known when it comes
  from a prefix-free list;
* `append_sep_inj_first`, `append_sep_inj_last` — a name splits uniquely at
  its first (last) separator;
* `append_path_inj` — the segments of a path can be read from the right,
  whatever stands in front of it;
* `dec_injective`, `parseUint_dec`, `mem_dec`, `mem_hexEncode` — numbers and hex
  dumps are read back uniquely and contain no separator;
* `compare_hexEncode` — hex dumps are ordered as the byte strings;
* `isPrefix_of_between`, `isPrefix_of_before_succ` — a range between names with a
  common beginning holds names with this beginning only;
* `isPrefix_iff_before_prefixEnd` — the names with a common beginning are a range;
* `cut_append`, `splitOn_append` — what splitting at a separator returns.
-/

namespace Go

/-- A Go string or byte slice. -/
abbrev Bytes := List UInt8

/-- An ASCII string literal. -/
def str (s : String) : Bytes := s.toList.map fun c => c.toNat.toUInt8

/-- `%d` of an unsigned integer. -/
def dec (n : Nat) : Bytes := (Nat.toDigits 10 n).map fun c => c.toNat.toUInt8

/-- The lower-case hexadecimal digit of `n < 16`. -/
def hexDigit (n : Nat) : UInt8 := if n < 10 then (48 + n).toUInt8 else (87 + n).toUInt8

/-- `hex.EncodeToString`. -/
def hexEncode : Bytes → Bytes
  | [] => []
  | b :: bs => hexDigit (b.toNat / 16) :: hexDigit (b.toNat % 16) :: hexEncode bs

/-- The character of a group of six bits. -/
def base64Digit (n : Nat) : UInt8 :=
  if n < 26 then (65 + n).toUInt8
  else if n < 52 then (71 + n).toUInt8
  else if n < 62 then (n - 4).toUInt8
  else if n = 62 then 43
  else 47

/-- `base64.StdEncoding.EncodeToString`. -/
def base64Encode : Bytes → Bytes
  | [] => []
  | [a] => [base64Digit (a.toNat / 4), base64Digit (a.toNat % 4 * 16), 61, 61]
  | [a, b] =>
    [base64Digit (a.toNat / 4), base64Digit (a.toNat % 4 * 16 + b.toNat / 16),
      base64Digit (b.toNat % 16 * 4), 61]
  | a :: b :: c :: rest =>
    base64Digit (a.toNat / 4) :: base64Digit (a.toNat % 4 * 16 + b.toNat / 16) ::
      base64Digit (b.toNat % 16 * 4 + c.toNat / 64) :: base64Digit (c.toNat % 64) ::
      base64Encode rest

/-- The value of a hexadecimal digit of either case. -/
def fromHexChar (b : UInt8) : Option UInt8 :=
  if 48 ≤ b ∧ b ≤ 57 then some (b - 48)
  else if 97 ≤ b ∧ b ≤ 102 then some (b - 87)
  else if 65 ≤ b ∧ b ≤ 70 then some (b - 55)
  else none

/-- `hex.DecodeString`. -/
def hexDecode : Bytes → Option Bytes
  | [] => some []
  | [_] => none
  | a :: b :: bs => do
    let hi ← fromHexChar a
    let lo ← fromHexChar b
    let rest ← hexDecode bs
    some ((hi * 16 + lo) :: rest)

/-- `strconv.ParseUint(s, 10, 64)`. -/
def parseUint (s : Bytes) : Option UInt64 :=
  if s = [] ∨ s.any (fun b => b < 48 || 57 < b) then none
  else
    let n := s.foldl (fun n b => 10 * n + (b.toNat - 48)) 0
    if n < 2 ^ 64 then some n.toUInt64 else none

/-- The separator `/`. -/
def slash : UInt8 := 47

/-! ## Names with different ends -/

theorem append_ne_of_not_isPrefix {p q : Bytes} (hpq : ¬ p <+: q) (hqp : ¬ q <+: p)
    (a b : Bytes) : p ++ a ≠ q ++ b := by
  intro h
  have hp : p <+: q ++ b := h ▸ List.prefix_append p a
  rcases List.prefix_or_prefix_of_prefix hp (List.prefix_append q b) with hpre | hpre
  · exact hpq hpre
  · exact hqp hpre

theorem append_ne_of_not_isSuffix {s t : Bytes} (hst : ¬ s <:+ t) (hts : ¬ t <:+ s)
    (a b : Bytes) : a ++ s ≠ b ++ t := by
  intro h
  have hs : s <:+ b ++ t := h ▸ List.suffix_append a s
  rcases List.suffix_or_suffix_of_suffix hs (List.suffix_append b t) with hsuf | hsuf
  · exact hst hsuf
  · exact hts hsuf

/-- No text of the list is the beginning of another one. -/
def PrefixFree (l : List Bytes) : Prop := ∀ s ∈ l, ∀ t ∈ l, s <+: t → s = t

instance (l : List Bytes) : Decidable (PrefixFree l) :=
  inferInstanceAs (Decidable (∀ s ∈ l, ∀ t ∈ l, s <+: t → s = t))

theorem PrefixFree.append_inj {l : List Bytes} (hl : PrefixFree l) {s t a b : Bytes}
    (hs : s ∈ l) (ht : t ∈ l) (h : s ++ a = t ++ b) : s = t ∧ a = b := by
  have hst : s = t := by
    have hpre : s <+: t ++ b := h ▸ List.prefix_append s a
    rcases List.prefix_or_prefix_of_prefix hpre (List.prefix_append t b) with hpre | hpre
    · exact hl s hs t ht hpre
    · exact (hl t ht s hs hpre).symm
  subst hst
  exact ⟨rfl, List.append_cancel_left h⟩

/-! ## Splitting at a separator -/

/-- A name splits uniquely at its first separator. -/
theorem append_sep_inj_first {x : UInt8} {a a' b b' : Bytes} (ha : x ∉ a) (ha' : x ∉ a')
    (h : a ++ x :: b = a' ++ x :: b') : a = a' ∧ b = b' := by
  induction a generalizing a' with
  | nil =>
    cases a' with
    | nil => simpa using h
    | cons y a' =>
      simp only [List.nil_append, List.cons_append, List.cons.injEq] at h
      exact absurd (List.mem_cons.mpr (Or.inl h.1)) ha'
  | cons y a ih =>
    cases a' with
    | nil =>
      simp only [List.nil_append, List.cons_append, List.cons.injEq] at h
      exact absurd (List.mem_cons.mpr (Or.inl h.1.symm)) ha
    | cons z a' =>
      simp only [List.cons_append, List.cons.injEq] at h
      simp only [List.mem_cons, not_or] at ha ha'
      obtain ⟨rfl, rfl⟩ := ih ha.2 ha'.2 h.2
      exact ⟨by rw [h.1], rfl⟩

/-- A name splits uniquely at its last separator. -/
theorem append_sep_inj_last {x : UInt8} {a a' b b' : Bytes} (hb : x ∉ b) (hb' : x ∉ b')
    (h : a ++ x :: b = a' ++ x :: b') : a = a' ∧ b = b' := by
  have hrev : b.reverse ++ x :: a.reverse = b'.reverse ++ x :: a'.reverse := by
    simpa using congrArg List.reverse h
  obtain ⟨hbb, haa⟩ := append_sep_inj_first (by simpa using hb) (by simpa using hb') hrev
  exact ⟨List.reverse_injective haa, List.reverse_injective hbb⟩

/-! ### Cutting -/

/-- `strings.SplitN(s, sep, 2)`: what is before the first separator, and after it. -/
def cut (x : UInt8) : Bytes → Bytes × Option Bytes
  | [] => ([], none)
  | b :: bs => if b = x then ([], some bs) else (b :: (cut x bs).1, (cut x bs).2)

theorem cut_append {x : UInt8} {a : Bytes} (ha : x ∉ a) (b : Bytes) :
    cut x (a ++ x :: b) = (a, some b) := by
  induction a with
  | nil => exact if_pos rfl
  | cons c a ih =>
    obtain ⟨hc, ha⟩ := List.ne_and_not_mem_of_not_mem_cons ha
    rw [List.cons_append, cut, if_neg hc.symm, ih ha]

theorem cut_of_notMem {x : UInt8} {a : Bytes} (ha : x ∉ a) : cut x a = (a, none) := by
  induction a with
  | nil => rfl
  | cons c a ih =>
    obtain ⟨hc, ha⟩ := List.ne_and_not_mem_of_not_mem_cons ha
    rw [cut, if_neg hc.symm, ih ha]

theorem splitOn_append {x : UInt8} {a : Bytes} (ha : x ∉ a) (b : Bytes) :
    (a ++ x :: b).splitOn x = a :: b.splitOn x := by
  have hsep : ∀ c ∈ a, (c == x) = false :=
    fun _ hc => beq_eq_false_iff_ne.mpr fun heq => ha (heq ▸ hc)
  exact List.splitOnP_append_cons_of_forall_mem (p := fun c => c == x) hsep x
    (beq_self_eq_true x) b

theorem splitOn_of_notMem {x : UInt8} {a : Bytes} (ha : x ∉ a) : a.splitOn x = [a] :=
  List.splitOnP_eq_singleton fun _ hc => beq_eq_false_iff_ne.mpr fun heq => ha (heq ▸ hc)

/-! ## Paths -/

/-- The segments of a path, the last one first, each behind a slash. -/
def path : List Bytes → Bytes
  | [] => []
  | s :: l => path l ++ slash :: s

/-- Read from the right, a path behind any text agrees with another one as far
as both go; one of the two goes on in the text before the other. -/
theorem append_path_inj {a a' : Bytes} {l l' : List Bytes} (hl : ∀ s ∈ l, slash ∉ s)
    (hl' : ∀ s ∈ l', slash ∉ s) (h : a ++ path l = a' ++ path l') :
    ∃ m, (l' = l ++ m ∧ a = a' ++ path m) ∨ (l = l' ++ m ∧ a' = a ++ path m) := by
  induction l generalizing l' with
  | nil => exact ⟨l', Or.inl ⟨rfl, by simpa [path] using h⟩⟩
  | cons s l ih =>
    cases l' with
    | nil => exact ⟨s :: l, Or.inr ⟨rfl, by simpa [path] using h.symm⟩⟩
    | cons s' l' =>
      obtain ⟨hs, hrest⟩ := List.forall_mem_cons.mp hl
      obtain ⟨hs', hrest'⟩ := List.forall_mem_cons.mp hl'
      rw [path, path, ← List.append_assoc, ← List.append_assoc] at h
      obtain ⟨hleft, rfl⟩ := append_sep_inj_last hs hs' h
      obtain ⟨m, ⟨rfl, ha⟩ | ⟨rfl, ha⟩⟩ := ih hrest hrest' hleft
      · exact ⟨m, Or.inl ⟨rfl, ha⟩⟩
      · exact ⟨m, Or.inr ⟨rfl, ha⟩⟩

/-! ## Numbers -/

/-- The digits of `n` as bytes. -/
theorem digit_toNat {n : Nat} {c : Char} (hc : c ∈ Nat.toDigits 10 n) :
    c.toNat.toUInt8.toNat = c.toNat ∧ 48 ≤ c.toNat ∧ c.toNat ≤ 57 := by
  have hdig := Nat.isDigit_of_mem_toDigits (by decide) (by decide) hc
  have hrange : 48 ≤ c.toNat ∧ c.toNat ≤ 57 := Char.isDigit_iff_toNat.mp hdig
  refine ⟨UInt8.toNat_ofNat_of_lt' ?_, hrange⟩
  have : UInt8.size = 256 := rfl
  omega

theorem mem_dec {n : Nat} {b : UInt8} (h : b ∈ dec n) : 48 ≤ b.toNat ∧ b.toNat ≤ 57 := by
  obtain ⟨c, hc, rfl⟩ := List.mem_map.mp h
  obtain ⟨heq, hrange⟩ := digit_toNat hc
  omega

theorem notMem_dec {n : Nat} {b : UInt8} (h : b.toNat < 48 ∨ 57 < b.toNat) : b ∉ dec n := by
  intro hb
  have := mem_dec hb
  omega

theorem slash_notMem_dec (n : Nat) : slash ∉ dec n :=
  notMem_dec (Or.inl (by decide))

theorem dec_ne_nil (n : Nat) : dec n ≠ [] := by
  simp [dec, Nat.toDigits_ne_nil]

/-- A name that ends in a number differs from one that ends in another byte. -/
theorem append_dec_ne {a b : Bytes} {n : Nat} {c : UInt8} (hc : c.toNat < 48 ∨ 57 < c.toNat) :
    a ++ dec n ≠ b ++ [c] := by
  intro h
  have hlast := congrArg List.getLast? h
  rw [List.getLast?_append_of_ne_nil _ (dec_ne_nil n), List.getLast?_concat] at hlast
  exact notMem_dec hc (List.mem_of_getLast? hlast)

/-- Reading the bytes of a printed number back as characters. -/
theorem dec_chars (n : Nat) :
    (dec n).map (fun b => Char.ofNat b.toNat) = Nat.toDigits 10 n := by
  rw [dec, List.map_map]
  conv_rhs => rw [← List.map_id (Nat.toDigits 10 n)]
  refine List.map_congr_left fun c hc => ?_
  simp only [Function.comp_apply, id_eq]
  rw [(digit_toNat hc).1, Char.ofNat_toNat]

theorem dec_injective : Function.Injective dec := by
  intro m n h
  have hdig : Nat.toDigits 10 m = Nat.toDigits 10 n := by
    rw [← dec_chars m, ← dec_chars n, h]
  calc m = Nat.ofDigitChars 10 (Nat.toDigits 10 m) 0 := Nat.ofDigitChars_ten_toDigits.symm
    _ = n := by rw [hdig, Nat.ofDigitChars_ten_toDigits]

/-- The digits of a printed number add up to it. -/
theorem foldl_dec (n : Nat) : (dec n).foldl (fun n b => 10 * n + (b.toNat - 48)) 0 = n := by
  have hchar : ∀ c ∈ Nat.toDigits 10 n, c.toNat.toUInt8.toNat - 48 = c.toNat - '0'.toNat := by
    intro c hc
    rw [(digit_toNat hc).1]
    rfl
  calc (dec n).foldl (fun n b => 10 * n + (b.toNat - 48)) 0
      = (Nat.toDigits 10 n).foldl (fun n c => 10 * n + (c.toNat.toUInt8.toNat - 48)) 0 := by
        rw [dec, List.foldl_map]
    _ = (Nat.toDigits 10 n).foldl (fun n c => 10 * n + (c.toNat - '0'.toNat)) 0 :=
        List.foldl_ext _ _ _ fun m c hc => by rw [hchar c hc]
    _ = Nat.ofDigitChars 10 (Nat.toDigits 10 n) 0 := Nat.ofDigitChars_eq_foldl.symm
    _ = n := Nat.ofDigitChars_ten_toDigits

/-- A printed number is read back. -/
theorem parseUint_dec (n : UInt64) : parseUint (dec n.toNat) = some n := by
  have hdigits : (dec n.toNat).any (fun b => b < 48 || 57 < b) = false := by
    rw [List.any_eq_false]
    intro b hb hout
    have hrange := mem_dec hb
    simp only [Bool.or_eq_true, decide_eq_true_eq, UInt8.lt_iff_toNat_lt] at hout
    have h48 : (48 : UInt8).toNat = 48 := rfl
    have h57 : (57 : UInt8).toNat = 57 := rfl
    omega
  have hsmall : n.toNat < 2 ^ 64 := n.toNat_lt
  unfold parseUint
  rw [if_neg (by simp [dec_ne_nil, hdigits]), foldl_dec]
  show (if n.toNat < 2 ^ 64 then some n.toNat.toUInt64 else none) = some n
  rw [if_pos hsmall]
  simp

/-! ## Order -/

theorem compare_append_left (p a b : Bytes) : compare (p ++ a) (p ++ b) = compare a b := by
  induction p with
  | nil => rfl
  | cons c p ih => simp [ih, Std.ReflOrd.compare_self]

theorem isLE_compare_append (p s : Bytes) : (compare p (p ++ s)).isLE := by
  have hnil := compare_append_left p [] s
  rw [List.append_nil] at hnil
  rw [hnil]
  exact List.isLE_compare_nil_left

/-- Byte strings compare by their first bytes, and by the rest if these are the same. -/
theorem compare_cons (a b : UInt8) (l l' : Bytes) :
    compare (a :: l) (b :: l') =
      if a.toNat < b.toNat then .lt else if a = b then compare l l' else .gt := by
  rw [List.compare_cons_cons, UInt8.compare_eq_toNat_compare_toNat]
  rcases Nat.lt_trichotomy a.toNat b.toNat with hlt | heq | hgt
  · rw [Nat.compare_eq_lt.mpr hlt, if_pos hlt]
    rfl
  · rw [Nat.compare_eq_eq.mpr heq, if_neg (by omega), if_pos (UInt8.toNat_inj.mp heq)]
    rfl
  · have hne : a ≠ b := fun h => by simp [h] at hgt
    rw [Nat.compare_eq_gt.mpr hgt, if_neg (by omega), if_neg hne]
    rfl

/-- The first byte decides. -/
theorem compare_cons_of_lt {a b : UInt8} (h : a.toNat < b.toNat) (l l' : Bytes) :
    compare (a :: l) (b :: l') = .lt := by
  rw [compare_cons, if_pos h]

/-- Nothing but a smaller first byte makes a byte string smaller than a single byte. -/
theorem compare_singleton_eq_lt_iff {a b : UInt8} {l : Bytes} :
    compare (a :: l) [b] = .lt ↔ a.toNat < b.toNat := by
  rw [compare_cons]
  by_cases hlt : a.toNat < b.toNat
  · simp [hlt]
  · by_cases heq : a = b
    · cases l <;> simp [heq]
    · simp [hlt, heq]

/-- What lies between two byte strings with a common beginning has it too. -/
theorem isPrefix_of_between {p s e y : Bytes} (hlo : (compare (p ++ s) y).isLE)
    (hhi : compare y (p ++ e) = .lt) : p <+: y := by
  induction p generalizing y with
  | nil => exact List.nil_prefix
  | cons c p ih =>
    cases y with
    | nil => simp at hlo
    | cons d y =>
      rw [List.cons_append, List.compare_cons_cons] at hlo hhi
      -- the first byte is neither smaller nor greater
      cases hcmp : compare c d with
      | lt =>
        rw [Std.OrientedCmp.gt_of_lt hcmp] at hhi
        simp at hhi
      | eq =>
        obtain rfl := Std.LawfulEqOrd.eq_of_compare hcmp
        rw [Std.ReflOrd.compare_self, Ordering.eq_then] at hlo hhi
        exact (List.cons_prefix_cons.mpr ⟨rfl, ih hlo hhi⟩)
      | gt =>
        rw [hcmp] at hlo
        simp at hlo

/-- The first byte string after all those with a given beginning. There is none if
its bytes are all at their maximum. -/
def prefixEnd : Bytes → Option Bytes
  | [] => none
  | b :: bs =>
    match prefixEnd bs with
    | some e => some (b :: e)
    | none => if b = 255 then none else some [b + 1]

theorem prefixEnd_ne_nil {bs e : Bytes} (h : prefixEnd bs = some e) : e ≠ [] := by
  cases bs with
  | nil => cases h
  | cons b bs =>
    rw [prefixEnd] at h
    split at h
    · cases h
      exact List.cons_ne_nil _ _
    · split at h
      · cases h
      · cases h
        exact List.cons_ne_nil _ _

theorem prefixEnd_concat (q : Bytes) {c : UInt8} (hc : c ≠ 255) :
    prefixEnd (q ++ [c]) = some (q ++ [c + 1]) := by
  induction q with
  | nil => simp [prefixEnd, hc]
  | cons b q ih => rw [List.cons_append, prefixEnd, ih, List.cons_append]

theorem succ_toNat {b : UInt8} (hb : b ≠ 255) : (b + 1).toNat = b.toNat + 1 := by
  have hlt := b.toNat_lt
  have hne : b.toNat ≠ 255 := fun h => hb (UInt8.toNat_inj.mp h)
  have hone : (1 : UInt8).toNat = 1 := rfl
  rw [UInt8.toNat_add]
  omega

/-- **The byte strings with a given beginning are those from it up to its end.** -/
theorem isPrefix_iff_before_prefixEnd {p y : Bytes} :
    p <+: y ↔ (compare p y).isLE ∧ ∀ e ∈ prefixEnd p, compare y e = .lt := by
  induction p generalizing y with
  | nil => simp [prefixEnd, List.isLE_compare_nil_left]
  | cons b bs ih =>
    cases y with
    | nil => simp
    | cons c cs =>
      rcases Nat.lt_trichotomy b.toNat c.toNat with hlt | heq | hgt
      · -- a greater first byte comes after the end
        have hbc : b ≠ c := fun h => Nat.ne_of_lt hlt (congrArg UInt8.toNat h)
        refine iff_of_false (fun h => hbc (List.cons_prefix_cons.mp h).1) ?_
        rintro ⟨-, hhi⟩
        rw [prefixEnd] at hhi
        cases hend : prefixEnd bs with
        | some e =>
          rw [hend] at hhi
          exact Std.OrientedCmp.not_lt_of_lt (hhi _ rfl) (compare_cons_of_lt hlt _ _)
        | none =>
          have hc := c.toNat_lt
          have hb : b ≠ 255 := fun h => by
            have h255 : b.toNat = 255 := congrArg UInt8.toNat h
            omega
          rw [hend, if_neg hb] at hhi
          have hbefore := compare_singleton_eq_lt_iff.mp (hhi _ rfl)
          rw [succ_toNat hb] at hbefore
          omega
      · -- the same first byte, which does not decide
        obtain rfl := UInt8.toNat_inj.mp heq
        rw [List.cons_prefix_cons, compare_cons, if_neg (Nat.lt_irrefl _), if_pos rfl, ih,
          prefixEnd]
        cases prefixEnd bs with
        | some e => simp
        | none =>
          by_cases hb : b = 255
          · simp [hb]
          · have hlt : b.toNat < (b + 1).toNat := by
              rw [succ_toNat hb]
              omega
            simp [hb, compare_cons_of_lt hlt]
      · -- a smaller one comes before the beginning
        have hbc : b ≠ c := fun h => Nat.ne_of_gt hgt (congrArg UInt8.toNat h)
        refine iff_of_false (fun h => hbc (List.cons_prefix_cons.mp h).1) ?_
        rintro ⟨hlo, -⟩
        exact Std.OrientedCmp.not_isLE_of_lt (compare_cons_of_lt hgt _ _) hlo

/-- What lies between a byte string and the next one of its length begins with it. -/
theorem isPrefix_of_before_succ {q s y : Bytes} {c : UInt8} (hc : c < 255)
    (hlo : (compare (q ++ [c] ++ s) y).isLE) (hhi : compare y (q ++ [c + 1]) = .lt) :
    q ++ [c] <+: y := by
  rw [isPrefix_iff_before_prefixEnd, prefixEnd_concat q (UInt8.ne_of_lt hc)]
  constructor
  · exact Std.TransCmp.isLE_trans (isLE_compare_append _ s) hlo
  · rintro _ ⟨⟩
    exact hhi

/-! ## Hex dumps -/

theorem hexDigit_toNat {n : Nat} (h : n < 16) :
    (hexDigit n).toNat = if n < 10 then 48 + n else 87 + n := by
  have hsize : UInt8.size = 256 := rfl
  unfold hexDigit
  split <;> exact UInt8.toNat_ofNat_of_lt' (by omega)

theorem mem_hexEncode {bs : Bytes} {b : UInt8} (h : b ∈ hexEncode bs) :
    (48 ≤ b.toNat ∧ b.toNat ≤ 57) ∨ (97 ≤ b.toNat ∧ b.toNat ≤ 102) := by
  induction bs with
  | nil => simp [hexEncode] at h
  | cons c cs ih =>
    have hc := c.toNat_lt
    simp only [hexEncode, List.mem_cons] at h
    rcases h with rfl | rfl | h
    · rw [hexDigit_toNat (by omega)]
      split <;> omega
    · rw [hexDigit_toNat (by omega)]
      split <;> omega
    · exact ih h

theorem fromHexChar_hexDigit {n : Nat} (h : n < 16) : fromHexChar (hexDigit n) = some n.toUInt8 := by
  revert n
  decide

/-- A hex dump is read back. -/
theorem hexDecode_hexEncode (bs : Bytes) : hexDecode (hexEncode bs) = some bs := by
  induction bs with
  | nil => rfl
  | cons b bs ih =>
    have hb := b.toNat_lt
    have hsplit : (b.toNat / 16).toUInt8 * 16 + (b.toNat % 16).toUInt8 = b := by
      rw [← UInt8.toNat_inj]
      simp only [UInt8.toNat_add, UInt8.toNat_mul, Nat.toUInt8, UInt8.toNat_ofNat']
      have h16 : (16 : UInt8).toNat = 16 := rfl
      rw [h16]
      omega
    rw [hexEncode, hexDecode, fromHexChar_hexDigit (by omega), fromHexChar_hexDigit (by omega), ih]
    show some (((b.toNat / 16).toUInt8 * 16 + (b.toNat % 16).toUInt8) :: bs) = some (b :: bs)
    rw [hsplit]

theorem compare_hexDigit : ∀ m < 16, ∀ n < 16, compare (hexDigit m) (hexDigit n) = compare m n := by
  decide

/-- Numbers are ordered by their leading digit, then by the other one. -/
theorem compare_div_then_mod (m n : Nat) :
    (compare (m / 16) (n / 16)).then (compare (m % 16) (n % 16)) = compare m n := by
  rcases Nat.lt_trichotomy (m / 16) (n / 16) with hlt | heq | hgt
  · have hmn : m < n := by omega
    rw [Nat.compare_eq_lt.mpr hlt, Nat.compare_eq_lt.mpr hmn]
    rfl
  · rw [Nat.compare_eq_eq.mpr heq, Ordering.eq_then]
    simp only [Nat.compare_eq_ite_lt]
    have hlt : m % 16 < n % 16 ↔ m < n := by omega
    have hgt : n % 16 < m % 16 ↔ n < m := by omega
    simp only [hlt, hgt]
  · have hnm : n < m := by omega
    rw [Nat.compare_eq_gt.mpr hgt, Nat.compare_eq_gt.mpr hnm]
    rfl

/-- Hex dumps are ordered as the byte strings. -/
theorem compare_hexEncode (a b : Bytes) : compare (hexEncode a) (hexEncode b) = compare a b := by
  induction a generalizing b with
  | nil =>
    cases b with
    | nil => rfl
    | cons c b => rfl
  | cons c a ih =>
    cases b with
    | nil => rfl
    | cons d b =>
      have hc := c.toNat_lt
      have hd := d.toNat_lt
      rw [hexEncode, hexEncode, List.compare_cons_cons, List.compare_cons_cons, ih,
        compare_hexDigit _ (by omega) _ (by omega), compare_hexDigit _ (by omega) _ (by omega),
        List.compare_cons_cons, ← Ordering.then_assoc, compare_div_then_mod,
        UInt8.compare_eq_toNat_compare_toNat]

theorem hexEncode_injective : Function.Injective hexEncode := by
  intro a b h
  have hdecode := congrArg hexDecode h
  rwa [hexDecode_hexEncode, hexDecode_hexEncode, Option.some.injEq] at hdecode

theorem hexEncode_eq_nil_iff {bs : Bytes} : hexEncode bs = [] ↔ bs = [] := by
  cases bs <;> simp [hexEncode]

theorem hexEncode_append (a b : Bytes) : hexEncode (a ++ b) = hexEncode a ++ hexEncode b := by
  induction a with
  | nil => rfl
  | cons c a ih => simp [hexEncode, ih]

theorem slash_notMem_hexEncode (bs : Bytes) : slash ∉ hexEncode bs := by
  intro h
  have hrange := mem_hexEncode h
  have hslash : slash.toNat = 47 := rfl
  omega

end Go
