import CKGameServer.Library.Memory

/-!
Structures in memory.

A structure is a list of fields, each of a kind. The kinds of a family, a `Format`, say how many
bytes a field takes, how it is aligned and what its bytes are. A structure declared with `pack`
places each field at the next multiple of the smaller of its alignment and `pack`; with `pack = 1`
the fields stand one behind the other.

* `alignUp`: the next multiple.
* `Format.payload`: the bytes of the fields one behind the other.
* `Format.read`: the fields that a structure with some `pack` finds in memory.
* `Format.Aligned`: every field stands at a multiple of its alignment already.
* `Format.read_payload`: what was written one behind the other is read so.
* `Format.read_eq_of_aligned`, `Format.read_payload_of_aligned`: and with any `pack`, where every
  field is aligned already.
-/

namespace Layout

open Memory

/-- The least multiple of `a` from `off` on. -/
def alignUp (off a : ℕ) : ℕ := (off + (a - 1)) / a * a

/-- A multiple stays where it is. -/
lemma alignUp_eq_self {off a : ℕ} (ha : 0 < a) (h : a ∣ off) : alignUp off a = off := by
  obtain ⟨k, rfl⟩ := h
  rw [alignUp, Nat.mul_add_div ha, Nat.div_eq_of_lt (Nat.sub_one_lt ha.ne'), Nat.add_zero,
    Nat.mul_comm]

@[simp] lemma alignUp_one (off : ℕ) : alignUp off 1 = off :=
  alignUp_eq_self Nat.one_pos (one_dvd off)

/-- Kinds of fields. `encode` is the bytes of a value in a place that held `stack` before, `decode`
the value that a pointer to the field sees. -/
structure Format (ι : Type*) where
  Value : ι → Type
  size : ι → ℕ
  align : ι → ℕ
  encode : (i : ι) → Value i → View → Bytes
  decode : (i : ι) → View → Value i
  align_pos : ∀ i, 0 < align i
  length_encode : ∀ i x stack, (encode i x stack).length = size i
  decode_encode : ∀ i x stack v, v.read 0 (size i) = encode i x stack → decode i v = x

namespace Format

variable {ι : Type*} (F : Format ι)

/-- A field with its value. -/
abbrev Field := Σ i, F.Value i

/-- The bytes of the fields one behind the other. -/
def payload : View → List F.Field → Bytes
  | _, [] => []
  | stack, f :: fs => F.encode f.1 f.2 stack ++ payload (stack.shift (F.size f.1)) fs

/-- The fields that a structure of these kinds finds in the memory `v` from `off` on. -/
def read (pack : ℕ) (v : View) : ℕ → List ι → List F.Field
  | _, [] => []
  | off, i :: is =>
    let start := alignUp off (min (F.align i) pack)
    ⟨i, F.decode i (v.shift start)⟩ :: read pack v (start + F.size i) is

/-- Fields of these kinds, one behind the other from `off` on, are all aligned. -/
def Aligned (pack : ℕ) : ℕ → List ι → Prop
  | _, [] => True
  | off, i :: is => min (F.align i) pack ∣ off ∧ Aligned pack (off + F.size i) is

instance Aligned.decidable (pack : ℕ) : ∀ off is, Decidable (F.Aligned pack off is)
  | _, [] => isTrue trivial
  | off, i :: is =>
    have := Aligned.decidable pack (off + F.size i) is
    inferInstanceAs (Decidable (_ ∧ _))

variable {F} {pack off : ℕ} {v stack : View}

lemma length_payload (stack : View) (fs : List F.Field) :
    (F.payload stack fs).length = (fs.map fun f => F.size f.1).sum := by
  induction fs generalizing stack with
  | nil => rfl
  | cons f fs ih =>
      rw [payload, List.length_append, F.length_encode, ih, List.map_cons, List.sum_cons]

lemma payload_append (stack : View) (fs gs : List F.Field) :
    F.payload stack (fs ++ gs) =
      F.payload stack fs ++ F.payload (stack.shift (F.payload stack fs).length) gs := by
  induction fs generalizing stack with
  | nil => rw [List.nil_append, payload, List.nil_append, List.length_nil, View.shift_zero]
  | cons f fs ih =>
      rw [List.cons_append, payload, payload, ih, List.append_assoc, View.shift_shift,
        List.length_append, F.length_encode]

/-- What was written one behind the other is read so. -/
theorem read_payload {fs : List F.Field}
    (h : v.read off (F.payload stack fs).length = F.payload stack fs) :
    F.read 1 v off (fs.map Sigma.fst) = fs := by
  induction fs generalizing off stack with
  | nil => rfl
  | cons f fs ih =>
      have hlength := F.length_encode f.1 f.2 stack
      rw [payload, List.length_append, hlength, View.read_add] at h
      obtain ⟨hhead, htail⟩ := List.append_inj h (by rw [View.read_length, hlength])
      rw [List.map_cons, read, Nat.min_eq_right (F.align_pos f.1), alignUp_one]
      rw [ih htail, F.decode_encode f.1 f.2 stack]
      rw [View.read_shift, Nat.add_zero, hhead]

/-- Where every field is aligned already, the fields are found one behind the other. -/
theorem read_eq_of_aligned (hpack : 0 < pack) {is : List ι} (h : F.Aligned pack off is) :
    F.read pack v off is = F.read 1 v off is := by
  induction is generalizing off with
  | nil => rfl
  | cons i is ih =>
      have hpos : 0 < min (F.align i) pack := Nat.lt_min.mpr ⟨F.align_pos i, hpack⟩
      rw [read, read, alignUp_eq_self hpos h.1, Nat.min_eq_right (F.align_pos i), alignUp_one]
      rw [ih h.2]

/-- **The round trip**: fields that are written one behind the other are read back by a structure
with a larger `pack` in which every field is aligned already. -/
theorem read_payload_of_aligned (hpack : 0 < pack) {fs : List F.Field}
    (h : v.read off (F.payload stack fs).length = F.payload stack fs)
    (haligned : F.Aligned pack off (fs.map Sigma.fst)) :
    F.read pack v off (fs.map Sigma.fst) = fs :=
  (read_eq_of_aligned hpack haligned).trans (read_payload h)

end Format

end Layout
