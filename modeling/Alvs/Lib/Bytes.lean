import Mathlib.Data.List.Basic
import Mathlib.Data.List.Induction
import Mathlib.Tactic.Ring

/-!
# Bytes, words and memories of bytes

A word of `n` bytes is stored with its most significant byte first (`bigEndian`), and
`value` reads a list of bytes as a number. A `ByteMem` has a byte at every address :
`ByteMem.store` writes a list of bytes from an address on, and leaves every other byte as
it was; `ByteMem.load` reads the bytes from an address on.

`cutBytes` takes a number of bytes off a sequence of buffers, as a reader does that carries
the tail of one buffer over to the next. `cutBytes_eq_some` : it takes the first bytes of the
buffers joined, however they are cut.
-/

namespace ProgLogic

/-! ## Words -/

/-- The low `n` bytes of `v`, the most significant byte first. -/
def bigEndian : Nat → Nat → List UInt8
  | 0, _ => []
  | n + 1, v => bigEndian n (v / 256) ++ [UInt8.ofNat v]

/-- The number that the bytes are. -/
def value (bs : List UInt8) : Nat := bs.foldl (fun v b => 256 * v + b.toNat) 0

@[simp] theorem length_bigEndian : ∀ n v : Nat, (bigEndian n v).length = n
  | 0, _ => rfl
  | n + 1, v => by rw [bigEndian, List.length_append, length_bigEndian n, List.length_singleton]

theorem value_append_singleton (bs : List UInt8) (b : UInt8) :
    value (bs ++ [b]) = 256 * value bs + b.toNat := by
  rw [value, List.foldl_append]
  rfl

theorem value_lt (bs : List UInt8) : value bs < 256 ^ bs.length := by
  induction bs using List.reverseRecOn with
  | nil => decide
  | append_singleton bs b ih =>
    have hb := b.toNat_lt
    rw [value_append_singleton, List.length_append, List.length_singleton, Nat.pow_succ]
    omega

theorem value_bigEndian : ∀ {n v : Nat}, v < 256 ^ n → value (bigEndian n v) = v
  | 0, v, h => by
    have hv : v = 0 := by simpa using h
    rw [hv]
    rfl
  | n + 1, v, h => by
    have hdiv : v / 256 < 256 ^ n := by
      rw [Nat.div_lt_iff_lt_mul (by decide), ← Nat.pow_succ]
      exact h
    have hbyte : (UInt8.ofNat v).toNat = v % 256 := UInt8.toNat_ofNat
    rw [bigEndian, value_append_singleton, value_bigEndian hdiv, hbyte]
    exact Nat.div_add_mod v 256

/-- The bytes of a number that was read. -/
theorem bigEndian_value : ∀ {n : Nat} {bs : List UInt8}, bs.length = n → bigEndian n (value bs) = bs
  | 0, bs, h => by
    rw [List.length_eq_zero_iff.mp h]
    rfl
  | n + 1, bs, h => by
    have hne : bs ≠ [] := fun h0 => by rw [h0] at h; exact absurd h (by simp)
    have hinit : bs.dropLast.length = n := by rw [List.length_dropLast, h, Nat.add_sub_cancel]
    rw [← List.dropLast_append_getLast hne, value_append_singleton, bigEndian]
    have hlast := (bs.getLast hne).toNat_lt
    have hdiv : (256 * value bs.dropLast + (bs.getLast hne).toNat) / 256 = value bs.dropLast := by
      omega
    have hmod : UInt8.ofNat (256 * value bs.dropLast + (bs.getLast hne).toNat) =
      bs.getLast hne := by
      apply UInt8.toNat_inj.mp
      rw [UInt8.toNat_ofNat']
      omega
    rw [hdiv, hmod, bigEndian_value hinit]

/-- The number that the `n` bytes from `off` on are. -/
def field (bs : List UInt8) (off n : Nat) : Nat := value ((bs.drop off).take n)

theorem field_append_of_le {pre bs : List UInt8} {off : Nat} (h : pre.length ≤ off) (n : Nat) :
    field (pre ++ bs) off n = field bs (off - pre.length) n := by
  rw [field, field, List.drop_append, List.drop_of_length_le h, List.nil_append]

theorem field_append {pre bs : List UInt8} {a : Nat} (hpre : pre.length = a) (k n : Nat) :
    field (pre ++ bs) (a + k) n = field bs k n := by
  rw [field_append_of_le (hpre ▸ Nat.le_add_right _ _), hpre, Nat.add_sub_cancel_left]

theorem field_self {bs : List UInt8} {n : Nat} (h : bs.length = n) : field bs 0 n = value bs := by
  rw [field, List.drop_zero, ← h, List.take_length]

theorem field_take {bs : List UInt8} {k off n : Nat} (h : off + n ≤ k) :
    field (bs.take k) off n = field bs off n := by
  have hn : n ≤ k - off := by omega
  rw [field, field, List.drop_take, List.take_take, Nat.min_eq_left hn]

theorem field_append_left {bs post : List UInt8} {off n : Nat} (h : off + n ≤ bs.length) :
    field (bs ++ post) off n = field bs off n := by
  rw [← field_take h, List.take_left]

/-! ## Memories -/

/-- A memory of bytes. -/
abbrev ByteMem := Nat → UInt8

namespace ByteMem

/-- The memory with `bs` from address `a` on. -/
def store (m : ByteMem) (a : Nat) (bs : List UInt8) : ByteMem := fun i =>
  if a ≤ i then bs[i - a]?.getD (m i) else m i

/-- The `n` bytes from address `a` on. -/
def load (m : ByteMem) (a : Nat) : Nat → List UInt8
  | 0 => []
  | n + 1 => m a :: load m (a + 1) n

/-- The 16-bit word at address `a`. -/
def halfword (m : ByteMem) (a : Nat) : UInt16 := UInt16.ofNat (value (m.load a 2))

variable {m m' : ByteMem} {a b : Nat} {bs : List UInt8}

@[simp] theorem length_load (m : ByteMem) : ∀ (a n : Nat), (m.load a n).length = n
  | _, 0 => rfl
  | a, n + 1 => by rw [load, List.length_cons, length_load m (a + 1) n]

theorem load_add (m : ByteMem) : ∀ (a n k : Nat), m.load a (n + k) = m.load a n ++ m.load (a + n) k
  | a, 0, k => by rw [Nat.zero_add]; rfl
  | a, n + 1, k => by
    rw [Nat.succ_add, load, load, List.cons_append, load_add m (a + 1) n k,
      Nat.succ_add_eq_add_succ]

/-- The bytes depend on their addresses only. -/
theorem load_congr : ∀ {a n : Nat}, (∀ i, a ≤ i → i < a + n → m i = m' i) →
    m.load a n = m'.load a n
  | _, 0, _ => rfl
  | a, n + 1, h => by
    have hhead : m a = m' a := h a (Nat.le_refl a) (by omega)
    have htail : m.load (a + 1) n = m'.load (a + 1) n :=
      load_congr fun i hi hi' => h i (by omega) (by omega)
    rw [load, load, hhead, htail]

theorem store_of_lt {i : Nat} (h : i < a) : m.store a bs i = m i := by
  rw [store, if_neg (by omega)]

theorem store_of_ge {i : Nat} (h : a + bs.length ≤ i) : m.store a bs i = m i := by
  unfold store
  split
  · rw [List.getElem?_eq_none (by omega), Option.getD_none]
  · rfl

theorem store_cons (m : ByteMem) (a : Nat) (x : UInt8) (bs : List UInt8) :
    m.store a (x :: bs) = (m.store a [x]).store (a + 1) bs := by
  funext i
  by_cases hi : i < a
  · rw [store_of_lt hi, store_of_lt (by omega), store_of_lt hi]
  · by_cases hia : i = a
    · subst hia
      have hrest : (m.store i [x]).store (i + 1) bs i = m.store i [x] i :=
        store_of_lt (Nat.lt_succ_self i)
      rw [hrest]
      simp [store]
    · have hsub : i - a = (i - (a + 1)) + 1 := by omega
      have htail : m.store a [x] i = m i :=
        store_of_ge (by simp only [List.length_singleton]; omega)
      rw [store, store, if_pos (by omega), if_pos (by omega), hsub, List.getElem?_cons_succ, htail]

/-- What was stored is read. -/
theorem load_store_self (m : ByteMem) : ∀ (a : Nat) (bs : List UInt8),
    (m.store a bs).load a bs.length = bs
  | _, [] => rfl
  | a, x :: bs => by
    have hhead : m.store a (x :: bs) a = x := by simp [store]
    rw [List.length_cons, load, hhead, store_cons, load_store_self (m.store a [x]) (a + 1) bs]

theorem load_store_of_length {n : Nat} (h : bs.length = n) : (m.store a bs).load a n = bs := by
  rw [← h, load_store_self]

/-- A store elsewhere is not read. -/
theorem load_store_of_disjoint {n : Nat} (h : a + n ≤ b ∨ b + bs.length ≤ a) :
    (m.store b bs).load a n = m.load a n := by
  refine load_congr fun i hi hi' => ?_
  rcases h with h | h
  · exact store_of_lt (by omega)
  · exact store_of_ge (by omega)

theorem drop_load (m : ByteMem) : ∀ (a n k : Nat), (m.load a n).drop k = m.load (a + k) (n - k)
  | a, n, 0 => rfl
  | a, 0, k + 1 => by rw [Nat.zero_sub]; rfl
  | a, n + 1, k + 1 => by
    rw [load, List.drop_succ_cons, drop_load m (a + 1) n k, Nat.succ_add_eq_add_succ,
      Nat.succ_sub_succ]

end ByteMem

namespace ByteMem

/-- A part of what was read. -/
theorem load_of_load (m : ByteMem) {a n k l : Nat} (h : k + l ≤ n) :
    m.load (a + k) l = ((m.load a n).drop k).take l := by
  have hsplit : n - k = l + (n - k - l) := by omega
  rw [drop_load, hsplit, load_add, List.take_left' (length_load m (a + k) l)]

@[simp] theorem store_self (m : ByteMem) (a : Nat) (x : UInt8) (bs : List UInt8) :
    m.store a (x :: bs) a = x := by
  simp [store]

theorem halfword_store (m : ByteMem) (a : Nat) (v : UInt16) :
    (m.store a (bigEndian 2 v.toNat)).halfword a = v := by
  rw [halfword, load_store_of_length (length_bigEndian 2 _), value_bigEndian v.toNat_lt]
  exact UInt16.ofNat_toNat

end ByteMem

/-! ## Reading from buffers -/

/-- A buffer that is long enough begins with the first part of what is in the buffers. -/
theorem split_of_append {buffer rest pre post : List UInt8} (h : buffer ++ rest = pre ++ post)
    {n : Nat} (hpre : pre.length = n) (hn : n ≤ buffer.length) :
    buffer.take n = pre ∧ buffer.drop n ++ rest = post := by
  constructor
  · rw [← List.take_append_of_le_length hn, h, List.take_left' hpre]
  · rw [← List.drop_append_of_le_length hn, h, List.drop_left' hpre]

/-- Take `n` bytes, of which `tail` was read before, off the current buffer and those that
follow it. It returns the bytes, the rest of the buffer they end in and the buffers after
it; `none` if there are not enough bytes. -/
def cutBytes (n : Nat) (tail buffer : List UInt8) :
    List (List UInt8) → Option (List UInt8 × List UInt8 × List (List UInt8))
  | [] =>
    if buffer.length + tail.length < n then none
    else some (tail ++ buffer.take (n - tail.length), buffer.drop (n - tail.length), [])
  | next :: rest =>
    if buffer.length + tail.length < n then cutBytes n (tail ++ buffer) next rest
    else some (tail ++ buffer.take (n - tail.length), buffer.drop (n - tail.length), next :: rest)

/-- The first `n` bytes are taken, however the bytes are cut into buffers. -/
theorem cutBytes_eq_some {n : Nat} : ∀ {tail buffer : List UInt8} {rest : List (List UInt8)},
    tail.length ≤ n → n ≤ (tail ++ buffer ++ rest.flatten).length →
    ∃ buffer' rest', cutBytes n tail buffer rest =
        some ((tail ++ buffer ++ rest.flatten).take n, buffer', rest') ∧
      buffer' ++ rest'.flatten = (tail ++ buffer ++ rest.flatten).drop n
  | tail, buffer, [], ht, hn => by
    have hlen : ¬ buffer.length + tail.length < n := by
      simp only [List.flatten_nil, List.append_nil, List.length_append] at hn
      omega
    refine ⟨buffer.drop (n - tail.length), [], ?_, ?_⟩
    · rw [cutBytes, if_neg hlen, List.flatten_nil, List.append_nil, List.take_append,
        List.take_of_length_le ht]
    · rw [List.flatten_nil, List.append_nil, List.append_nil, List.drop_append,
        List.drop_of_length_le ht, List.nil_append]
  | tail, buffer, next :: rest, ht, hn => by
    by_cases hlen : buffer.length + tail.length < n
    · have ht' : (tail ++ buffer).length ≤ n := by
        rw [List.length_append]
        omega
      have happend : tail ++ buffer ++ (next :: rest).flatten =
          tail ++ buffer ++ next ++ rest.flatten := by
        rw [List.flatten_cons, List.append_assoc (tail ++ buffer)]
      rw [happend] at hn ⊢
      obtain ⟨buffer', rest', hcut, hrest⟩ := cutBytes_eq_some ht' hn
      exact ⟨buffer', rest', by rw [cutBytes, if_pos hlen, hcut], hrest⟩
    · have hb : n - tail.length ≤ buffer.length := by omega
      refine ⟨buffer.drop (n - tail.length), next :: rest, ?_, ?_⟩
      · rw [cutBytes, if_neg hlen, List.append_assoc, List.take_append, List.take_of_length_le ht,
          List.take_append_of_le_length hb]
      · rw [List.append_assoc, List.drop_append, List.drop_of_length_le ht, List.nil_append,
          List.drop_append_of_le_length hb]

/-- There are not enough bytes in all buffers together. -/
theorem cutBytes_eq_none {n : Nat} : ∀ {tail buffer : List UInt8} {rest : List (List UInt8)},
    (tail ++ buffer ++ rest.flatten).length < n → cutBytes n tail buffer rest = none
  | tail, buffer, [], h => by
    rw [List.flatten_nil, List.append_nil, List.length_append] at h
    rw [cutBytes, if_pos (by omega)]
  | tail, buffer, next :: rest, h => by
    have hlen : buffer.length + tail.length < n := by
      simp only [List.length_append] at h
      omega
    rw [cutBytes, if_pos hlen]
    refine cutBytes_eq_none ?_
    rwa [List.append_assoc (tail ++ buffer), ← List.flatten_cons]

section NoTail

variable {n : Nat} {buffer : List UInt8} {rest : List (List UInt8)}

theorem cutBytes_nil_eq_some (h : n ≤ (buffer ++ rest.flatten).length) :
    ∃ buffer' rest', cutBytes n [] buffer rest =
        some ((buffer ++ rest.flatten).take n, buffer', rest') ∧
      buffer' ++ rest'.flatten = (buffer ++ rest.flatten).drop n :=
  cutBytes_eq_some (Nat.zero_le n) h

theorem cutBytes_nil_eq_none (h : (buffer ++ rest.flatten).length < n) :
    cutBytes n [] buffer rest = none :=
  cutBytes_eq_none h

end NoTail

/-- No buffer is added. -/
theorem length_of_cutBytes {n : Nat} : ∀ {tail buffer : List UInt8} {rest : List (List UInt8)}
    {bs buffer' : List UInt8} {rest' : List (List UInt8)},
    cutBytes n tail buffer rest = some (bs, buffer', rest') → rest'.length ≤ rest.length
  | tail, buffer, [], bs, buffer', rest', h => by
    rw [cutBytes] at h
    split at h
    · cases h
    · cases h
      exact Nat.le_refl _
  | tail, buffer, next :: rest, bs, buffer', rest', h => by
    rw [cutBytes] at h
    split at h
    · exact (length_of_cutBytes h).trans (Nat.le_succ _)
    · cases h
      exact Nat.le_refl _

end ProgLogic
