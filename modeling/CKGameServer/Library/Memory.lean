import Mathlib.Data.List.Basic
import Mathlib.Data.List.GetD
import Mathlib.Tactic.Ring

/-!
Byte memory as a program in C sees it.

A pointer is modelled by what can be read through it: `View`, the byte `k` places on, for
every `k`. How far an access may go is a property of the block the pointer points into and is
checked where the block is known.

* `View.write`: `memcpy` of `n` bytes; `write_apply_in` and `write_apply_out` say what it
  does inside and outside its destination, `write_write_of_le` and `write_write_append` what a
  second copy does to a first.
* `View.read`: the bytes of a range; `read_write_append` and `read_write_self` are the two
  facts a buffer needs, that a copy behind a range extends it and that a copied range reads
  back.
* `View.natLE`: a little-endian unsigned number.
* `View.cString`: the C string at an offset, up to its terminating zero; `cString_congr`: it
  depends on nothing behind the terminator.
* `View.append`, `View.ofBytes`, `View.ofCString`: fields of a packed structure one after the
  other, a list of bytes, and `std::string::c_str`.
* `View.Decides`: the first bytes of a memory decide what a function makes of it;
  `decides_cString_iff` says when they decide a C string.
-/

namespace Memory

/-- A string of bytes: `std::string`, or the contents of a `char` array. -/
abbrev Bytes := List UInt8

/-- The memory a pointer sees: the byte `k` places on from it. -/
abbrev View := ℕ → UInt8

namespace View

variable (v w : View)

/-- The pointer moved on by `off` bytes. -/
def shift (off : ℕ) : View := fun k => v (off + k)

/-- `memcpy(v + dst, src, n)`. -/
def write (dst : ℕ) (src : View) (n : ℕ) : View := fun a =>
  if dst ≤ a ∧ a < dst + n then src (a - dst) else v a

/-- The `n` bytes from offset `off` on. -/
def read (off n : ℕ) : Bytes := (List.range n).map fun k => v (off + k)

/-- The unsigned number in the `n` bytes at `off`, lowest byte first. -/
def natLE (off : ℕ) : ℕ → ℕ
  | 0 => 0
  | n + 1 => (v off).toNat + 256 * natLE (off + 1) n

/-- The bytes of a number, lowest first. -/
def ofNatLE (x : ℕ) : View := fun k => UInt8.ofNat (x / 256 ^ k % 256)

/-- The bytes from offset `off` up to the first zero, at most `n` of them. -/
def cStringFrom : ℕ → ℕ → Bytes
  | 0, _ => []
  | n + 1, off => if v off = 0 then [] else v off :: cStringFrom n (off + 1)

/-- No string in the program is longer than this; a read that finds no zero this far stops. -/
def cStringLimit : ℕ := 65536

/-- The C string at offset `off`. -/
def cString (off : ℕ) : Bytes := v.cStringFrom cStringLimit off

/-- A zero stands among the `n` bytes at `off`: the array there holds a C string. -/
def NulTerminated (off n : ℕ) : Prop := ∃ k < n, v (off + k) = 0

/-- The first `n` bytes of `v`, then `w`. -/
def append (n : ℕ) : View := fun k => if k < n then v k else w (k - n)

/-- A list of bytes, with zeros behind it. -/
def ofBytes (s : Bytes) : View := fun k => s.getD k 0

/-- `c_str`: the bytes of a string and a terminating zero; `rest` is the memory behind. -/
def ofCString (s : Bytes) (rest : View) : View := fun k =>
  if k < s.length then s.getD k 0 else if k = s.length then 0 else rest k

variable {v w}

/-! ### Copies -/

@[simp] lemma shift_apply (off k : ℕ) : v.shift off k = v (off + k) := rfl

@[simp] lemma shift_zero : v.shift 0 = v := funext fun k => congrArg v (Nat.zero_add k)

lemma shift_shift (m n : ℕ) : (v.shift m).shift n = v.shift (m + n) :=
  funext fun k => congrArg v (Nat.add_assoc m n k).symm

lemma write_apply_in {dst n a : ℕ} {src : View} (h1 : dst ≤ a) (h2 : a < dst + n) :
    v.write dst src n a = src (a - dst) := if_pos ⟨h1, h2⟩

lemma write_apply_out {dst n a : ℕ} {src : View} (h : a < dst ∨ dst + n ≤ a) :
    v.write dst src n a = v a := if_neg (by omega)

@[simp] lemma read_length (off n : ℕ) : (v.read off n).length = n := by simp [read]

@[simp] lemma read_zero (off : ℕ) : v.read off 0 = [] := rfl

lemma read_getElem (off n k : ℕ) (h : k < (v.read off n).length) :
    (v.read off n)[k] = v (off + k) := by simp [read]

lemma read_add (off m n : ℕ) : v.read off (m + n) = v.read off m ++ v.read (off + m) n := by
  simp [read, List.range_add, Nat.add_assoc]

lemma read_congr {off off' n : ℕ} (h : ∀ k < n, v (off + k) = w (off' + k)) :
    v.read off n = w.read off' n :=
  List.map_congr_left fun k hk => h k (List.mem_range.mp hk)

/-- Two ranges are read alike exactly if they hold the same bytes. -/
lemma read_eq_read_iff {off off' n : ℕ} :
    v.read off n = w.read off' n ↔ ∀ k < n, v (off + k) = w (off' + k) := by
  rw [read, read, List.map_inj_left]
  exact forall_congr' fun k => imp_congr_left List.mem_range

lemma read_shift (off a n : ℕ) : (v.shift off).read a n = v.read (off + a) n :=
  read_congr fun k _ => by rw [shift_apply, Nat.add_assoc]

/-- Reading on from `off + m` is dropping `m` bytes. -/
lemma read_drop (off m n : ℕ) : (v.read off (m + n)).drop m = v.read (off + m) n := by
  rw [read_add, List.drop_left' (read_length off m)]

/-- A copied range reads back. -/
lemma read_write_self (dst n : ℕ) (src : View) :
    (v.write dst src n).read dst n = src.read 0 n :=
  read_congr fun k hk => by
    rw [write_apply_in (by omega) (by omega)]
    congr 1; omega

/-- A copy right behind a range extends the range by the copied bytes. -/
lemma read_write_append (off m n : ℕ) (src : View) :
    (v.write (off + m) src n).read off (m + n) = v.read off m ++ src.read 0 n := by
  rw [read_add, read_write_self]
  congr 1
  exact read_congr fun k hk => write_apply_out (by omega)

@[simp] lemma read_ofBytes (s : Bytes) : (ofBytes s).read 0 s.length = s := by
  refine List.ext_getElem (by simp) fun k h1 h2 => ?_
  rw [read_getElem, Nat.zero_add, ofBytes, List.getD_eq_getElem _ _ h2]

/-- A copy depends on the bytes it copies only. -/
lemma write_congr {dst n : ℕ} {src src' : View} (h : ∀ k < n, src k = src' k) :
    v.write dst src n = v.write dst src' n := by
  funext a
  by_cases ha : dst ≤ a ∧ a < dst + n
  · rw [write_apply_in ha.1 ha.2, write_apply_in ha.1 ha.2, h _ (by omega)]
  · rw [write_apply_out (by omega), write_apply_out (by omega)]

lemma write_apply_congr {dst n a : ℕ} {src : View} (h : v a = w a) :
    v.write dst src n a = w.write dst src n a := by
  rw [write, write, h]

/-- A copy over an earlier one that reaches no further undoes it. -/
lemma write_write_of_le {dst m n : ℕ} (h : m ≤ n) (src src' : View) :
    (v.write dst src m).write dst src' n = v.write dst src' n := by
  funext a
  by_cases ha : dst ≤ a ∧ a < dst + n
  · rw [write_apply_in ha.1 ha.2, write_apply_in ha.1 ha.2]
  · rw [write_apply_out (by omega), write_apply_out (by omega), write_apply_out (by omega)]

/-- Two copies one behind the other are one copy. -/
lemma write_write_append (dst : ℕ) (s t : Bytes) :
    (v.write dst (ofBytes s) s.length).write (dst + s.length) (ofBytes t) t.length =
      v.write dst (ofBytes (s ++ t)) (s ++ t).length := by
  funext a
  rw [List.length_append]
  by_cases hs : dst ≤ a ∧ a < dst + s.length
  · rw [write_apply_out (by omega), write_apply_in hs.1 hs.2, write_apply_in hs.1 (by omega),
      ofBytes, ofBytes, List.getD_append _ _ _ _ (by omega)]
  · by_cases ht : dst + s.length ≤ a ∧ a < dst + s.length + t.length
    · rw [write_apply_in ht.1 ht.2, write_apply_in (by omega) (by omega), ofBytes, ofBytes,
        List.getD_append_right _ _ _ _ (by omega), Nat.sub_sub]
    · rw [write_apply_out (by omega), write_apply_out (by omega), write_apply_out (by omega)]

/-- Copying a range is copying the bytes read from it. -/
lemma write_ofBytes_read (dst off n : ℕ) :
    v.write dst (ofBytes (w.read off n)) n = v.write dst (w.shift off) n :=
  write_congr fun k hk => by
    have hk' : k < (w.read off n).length := by rwa [read_length]
    rw [ofBytes, List.getD_eq_getElem _ _ hk', read_getElem, shift_apply]

/-- The first bytes of a list read back. -/
lemma read_ofBytes_append (s t : Bytes) : (ofBytes (s ++ t)).read 0 s.length = s := by
  refine List.ext_getElem (by simp) fun k h1 h2 => ?_
  rw [read_getElem, Nat.zero_add, ofBytes, List.getD_append _ _ _ _ h2,
    List.getD_eq_getElem _ _ h2]

/-! ### Numbers -/

lemma natLE_congr {off off' : ℕ} {n : ℕ} (h : ∀ k < n, v (off + k) = w (off' + k)) :
    v.natLE off n = w.natLE off' n := by
  induction n generalizing off off' with
  | zero => rfl
  | succ n ih =>
      have h0 : v off = w off' := by simpa using h 0 (by omega)
      have hrest : v.natLE (off + 1) n = w.natLE (off' + 1) n :=
        ih fun k hk => by
          have := h (k + 1) (by omega)
          rwa [show off + 1 + k = off + (k + 1) by omega,
            show off' + 1 + k = off' + (k + 1) by omega]
      rw [natLE, natLE, h0, hrest]

lemma natLE_lt (off n : ℕ) : v.natLE off n < 256 ^ n := by
  induction n generalizing off with
  | zero => exact Nat.one_pos
  | succ n ih =>
      have hbyte : (v off).toNat < 256 := UInt8.toNat_lt _
      have hrest := ih (off + 1)
      rw [natLE, pow_succ']
      omega

/-- A number from its lower bytes and its highest. -/
lemma natLE_succ (off n : ℕ) :
    v.natLE off (n + 1) = v.natLE off n + 256 ^ n * (v (off + n)).toNat := by
  induction n generalizing off with
  | zero => simp [natLE]
  | succ n ih =>
      rw [natLE, ih (off + 1), natLE, show off + 1 + n = off + (n + 1) by omega, pow_succ']
      ring

/-- A number reads back from its bytes. -/
lemma natLE_ofNatLE {x n : ℕ} (h : x < 256 ^ n) : (ofNatLE x).natLE 0 n = x := by
  have key : ∀ n off, (ofNatLE x).natLE off n = x / 256 ^ off % 256 ^ n := by
    intro n
    induction n with
    | zero => intro off; simp [natLE, Nat.mod_one]
    | succ n ih =>
        intro off
        have hb : (ofNatLE x off).toNat = x / 256 ^ off % 256 := by
          simp [ofNatLE, UInt8.toNat_ofNat']
        calc (ofNatLE x).natLE off (n + 1)
            = x / 256 ^ off % 256 + 256 * (x / 256 ^ (off + 1) % 256 ^ n) := by
              rw [natLE, ih, hb]
          _ = x / 256 ^ off % 256 + 256 * (x / 256 ^ off / 256 % 256 ^ n) := by
              rw [pow_succ, Nat.div_div_eq_div_mul]
          _ = x / 256 ^ off % 256 ^ (n + 1) := by rw [Nat.pow_succ', Nat.mod_mul]
  rw [key, pow_zero, Nat.div_one, Nat.mod_eq_of_lt h]

/-- The bytes of a number read back. -/
lemma ofNatLE_natLE {off n k : ℕ} (h : k < n) : ofNatLE (v.natLE off n) k = v (off + k) := by
  have key : ∀ off, v.natLE off n / 256 ^ k % 256 = (v (off + k)).toNat := by
    induction n generalizing k with
    | zero => omega
    | succ n ih =>
        intro off
        have hlt : (v off).toNat < 256 := UInt8.toNat_lt _
        cases k with
        | zero =>
            rw [natLE, pow_zero, Nat.div_one, Nat.add_zero off]
            omega
        | succ k =>
            have hdiv : v.natLE off (n + 1) / 256 = v.natLE (off + 1) n := by
              rw [natLE]
              omega
            rw [pow_succ', ← Nat.div_div_eq_div_mul, hdiv, ih (by omega),
              show off + 1 + k = off + (k + 1) by omega]
  rw [ofNatLE, key, UInt8.ofNat_toNat]

/-- Two numbers are equal exactly if their bytes are. -/
lemma natLE_eq_natLE_iff {off off' n : ℕ} :
    v.natLE off n = w.natLE off' n ↔ ∀ k < n, v (off + k) = w (off' + k) := by
  refine ⟨fun h k hk => ?_, natLE_congr⟩
  calc v (off + k) = ofNatLE (v.natLE off n) k := (ofNatLE_natLE hk).symm
    _ = w (off' + k) := by rw [h, ofNatLE_natLE hk]

/-- The bytes of a number are read as the number. -/
lemma natLE_of_read {off n x : ℕ} (hx : x < 256 ^ n)
    (h : v.read off n = (ofNatLE x).read 0 n) : v.natLE off n = x :=
  (natLE_congr (read_eq_read_iff.mp h)).trans (natLE_ofNatLE hx)

/-! ### Packed fields -/

lemma append_apply_lt {n k : ℕ} (h : k < n) : v.append w n k = v k := if_pos h

lemma append_apply_add (n k : ℕ) : v.append w n (n + k) = w k := by
  rw [append, if_neg (by omega), Nat.add_sub_cancel_left]

/-! ### C strings -/

lemma cStringFrom_congr {off off' m n : ℕ} (h : ∀ k ≤ m, v (off + k) = w (off' + k))
    (h0 : v (off + m) = 0) (hm : m < n) : v.cStringFrom n off = w.cStringFrom n off' := by
  induction n generalizing off off' m with
  | zero => omega
  | succ n ih =>
      have hhead : v off = w off' := by simpa using h 0 (by omega)
      rw [cStringFrom, cStringFrom, ← hhead]
      split
      · rfl
      · rename_i hne
        have hm0 : m ≠ 0 := by rintro rfl; exact hne (by simpa using h0)
        congr 1
        refine ih (m := m - 1) (fun k hk => ?_) ?_ (by omega)
        · have := h (k + 1) (by omega)
          rwa [show off + 1 + k = off + (k + 1) by omega,
            show off' + 1 + k = off' + (k + 1) by omega]
        · rwa [show off + 1 + (m - 1) = off + m by omega]

/-- Where an array ends a C string, it is cut there. -/
lemma cStringFrom_take {off off' m n : ℕ} (h : ∀ k < n, w (off' + k) = v (off + k))
    (h0 : w (off' + n) = 0) (hn : n < m) : w.cStringFrom m off' = (v.cStringFrom m off).take n := by
  induction n generalizing off off' m with
  | zero =>
      obtain ⟨m, rfl⟩ := Nat.exists_eq_succ_of_ne_zero hn.ne'
      rw [cStringFrom, if_pos (show w off' = 0 from h0), List.take_zero]
  | succ n ih =>
      obtain ⟨m, rfl⟩ := Nat.exists_eq_succ_of_ne_zero (Nat.ne_zero_of_lt hn)
      have hhead : w off' = v off := h 0 n.succ_pos
      rw [cStringFrom, cStringFrom, hhead]
      split
      · rfl
      · rw [List.take_succ_cons]
        refine congrArg _ (ih (fun k hk => ?_) ?_ (Nat.lt_of_succ_lt_succ hn))
        · have := h (k + 1) (Nat.succ_lt_succ hk)
          rwa [show off + 1 + k = off + (k + 1) by omega,
            show off' + 1 + k = off' + (k + 1) by omega]
        · rwa [show off' + 1 + n = off' + (n + 1) by omega]

/-- A C string is shorter than an array it ends in. -/
lemma cString_length_lt {off n : ℕ} (hz : v.NulTerminated off n) (hn : n ≤ cStringLimit) :
    (v.cString off).length < n := by
  obtain ⟨k, hk, h0⟩ := hz
  have hcut := cStringFrom_take (fun _ _ => rfl) h0 (hk.trans_le hn)
  rw [cString, hcut]
  exact (List.length_take_le _ _).trans_lt hk

/-- A C string is determined by the bytes up to its terminator. -/
lemma cString_congr {off off' n : ℕ} (h : ∀ k < n, v (off + k) = w (off' + k))
    (hz : v.NulTerminated off n) (hn : n ≤ cStringLimit) : v.cString off = w.cString off' := by
  obtain ⟨m, hm, h0⟩ := hz
  exact cStringFrom_congr (fun k hk => h k (by omega)) h0 (by omega)

lemma NulTerminated.congr {off off' n : ℕ} (hz : v.NulTerminated off n)
    (h : ∀ k < n, v (off + k) = w (off' + k)) : w.NulTerminated off' n := by
  obtain ⟨m, hm, h0⟩ := hz
  exact ⟨m, hm, by rw [← h m hm, h0]⟩

/-- No zero is part of a C string. -/
lemma zero_notMem_cStringFrom (n off : ℕ) : (0 : UInt8) ∉ v.cStringFrom n off := by
  induction n generalizing off with
  | zero => simp [cStringFrom]
  | succ n ih =>
      rw [cStringFrom]
      split
      · simp
      · rename_i hne
        simp [Ne.symm hne, ih (off + 1)]

lemma zero_notMem_cString (off : ℕ) : (0 : UInt8) ∉ v.cString off := zero_notMem_cStringFrom _ off

/-- A range that holds no string holds no zero. -/
lemma zero_notMem_read {off n : ℕ} (h : ¬v.NulTerminated off n) : (0 : UInt8) ∉ v.read off n := by
  intro h0
  obtain ⟨k, hk, hz⟩ := List.mem_map.mp h0
  exact h ⟨k, List.mem_range.mp hk, hz⟩

/-- Every C string ends at the limit at the latest. -/
lemma length_cStringFrom_le (n off : ℕ) : (v.cStringFrom n off).length ≤ n := by
  induction n generalizing off with
  | zero => exact le_rfl
  | succ n ih =>
      rw [cStringFrom]
      split
      · exact Nat.zero_le _
      · exact Nat.succ_le_succ (ih (off + 1))

lemma cString_length_le (off : ℕ) : (v.cString off).length ≤ cStringLimit :=
  length_cStringFrom_le _ off

/-- Bytes without a zero, and a C string behind them. -/
lemma cStringFrom_add {off m n : ℕ} (h : ¬v.NulTerminated off m) :
    v.cStringFrom (m + n) off = v.read off m ++ v.cStringFrom n (off + m) := by
  induction m generalizing off with
  | zero => simp
  | succ m ih =>
      have h0 : v off ≠ 0 := fun h0 => h ⟨0, by omega, h0⟩
      have hrest : ¬v.NulTerminated (off + 1) m := by
        rintro ⟨k, hk, hz⟩
        exact h ⟨k + 1, by omega, by rwa [show off + (k + 1) = off + 1 + k by omega]⟩
      have hread : v.read off (m + 1) = v off :: v.read (off + 1) m := by
        rw [show m + 1 = 1 + m by omega, read_add]
        rfl
      rw [show m + 1 + n = m + n + 1 by omega, cStringFrom, if_neg h0, ih hrest, hread,
        show off + 1 + m = off + (m + 1) by omega, List.cons_append]

/-- Bytes without a zero that stand before one, or reach the limit, are the C string there. -/
lemma cStringFrom_eq {s : Bytes} {off n : ℕ} (h0 : (0 : UInt8) ∉ s)
    (hs : ∀ k (hk : k < s.length), v (off + k) = s[k]) (hend : v (off + s.length) = 0)
    (hn : s.length ≤ n) : v.cStringFrom n off = s := by
  induction s generalizing off n with
  | nil =>
      cases n with
      | zero => rfl
      | succ n => rw [cStringFrom, if_pos (show v off = 0 from hend)]
  | cons c s ih =>
      obtain ⟨hc, hrest⟩ := not_or.mp (mt List.mem_cons.mpr h0)
      obtain ⟨n, rfl⟩ := Nat.exists_eq_add_of_le' (Nat.one_le_of_lt hn)
      have hhead : v off = c := hs 0 s.length.succ_pos
      rw [cStringFrom, hhead, if_neg (Ne.symm hc)]
      refine congrArg _ (ih hrest (fun k hk => ?_) ?_ (Nat.le_of_succ_le_succ hn))
      · have := hs (k + 1) (Nat.succ_lt_succ hk)
        rwa [show off + 1 + k = off + (k + 1) by omega]
      · rwa [show off + 1 + s.length = off + (s.length + 1) by omega]

/-- A list of bytes without a zero is the C string it stands for. -/
lemma cStringFrom_ofBytes {s : Bytes} {n : ℕ} (h0 : (0 : UInt8) ∉ s) (hn : s.length ≤ n) :
    (ofBytes s).cStringFrom n 0 = s := by
  refine cStringFrom_eq h0 (fun k hk => ?_) ?_ hn
  · rw [Nat.zero_add, ofBytes, List.getD_eq_getElem _ _ hk]
  · rw [Nat.zero_add]
    exact List.getD_eq_default _ _ le_rfl

/-- A C string that does not end in a block is not the same in front of all memories. -/
lemma cString_append_ne {off m : ℕ} (hv : ¬v.NulTerminated off m) (hm : m < cStringLimit) :
    (v.append (fun _ => 0) (off + m)).cString off ≠
      (v.append (fun _ => 1) (off + m)).cString off := by
  obtain ⟨l, hl⟩ := Nat.exists_eq_add_of_lt hm
  have hsplit : ∀ w : View, (v.append w (off + m)).cString off =
      v.read off m ++ (v.append w (off + m)).cStringFrom (l + 1) (off + m) := by
    intro w
    have hagree : ∀ k < m, v.append w (off + m) (off + k) = v (off + k) :=
      fun k hk => append_apply_lt (by omega)
    have hzero : ¬(v.append w (off + m)).NulTerminated off m := fun hz => hv (hz.congr hagree)
    rw [cString, hl, Nat.add_assoc, cStringFrom_add hzero, read_congr hagree]
  have hbehind : ∀ w : View, v.append w (off + m) (off + m) = w 0 := fun w =>
    append_apply_add (off + m) 0
  rw [hsplit, hsplit, Ne, List.append_cancel_left_eq, cStringFrom, cStringFrom, hbehind, hbehind,
    if_pos rfl, if_neg (by decide)]
  exact (List.cons_ne_nil _ _).symm

/-! ### What the first bytes decide -/

/-- The first `n` bytes decide `f`: it takes the same value in every memory that begins with
them. -/
def Decides {β : Sort*} (v : View) (n : ℕ) (f : View → β) : Prop :=
  ∀ w, (∀ k < n, w k = v k) → f w = f v

/-- `s` is a C string that begins with the bytes `known`. -/
def Continues (known s : Bytes) : Prop :=
  known <+: s ∧ (0 : UInt8) ∉ s ∧ s.length ≤ cStringLimit

section Decides

variable {β γ : Sort*} {n : ℕ} {f : View → β}

lemma Decides.comp (h : v.Decides n f) (g : β → γ) : v.Decides n fun w => g (f w) :=
  fun w hw => congrArg g (h w hw)

/-- Only what `f` makes of memories that begin with the known bytes matters. -/
lemma decides_congr {g : View → β} (h : ∀ w, (∀ k < n, w k = v k) → f w = g w) :
    v.Decides n f ↔ v.Decides n g := by
  have hv : f v = g v := h v fun _ _ => rfl
  exact forall_congr' fun w => forall_congr' fun hw => by rw [h w hw, hv]

lemma decides_const (b : β) : v.Decides n fun _ => b := fun _ _ => rfl

lemma decides_read {off m : ℕ} (h : off + m ≤ n) : v.Decides n fun w => w.read off m :=
  fun _ hw => read_congr fun k hk => hw (off + k) (by omega)

lemma decides_natLE {off m : ℕ} (h : off + m ≤ n) : v.Decides n fun w => w.natLE off m :=
  fun _ hw => natLE_congr fun k hk => hw (off + k) (by omega)

/-- Where the known bytes of a C string hold no zero, the string continues them. -/
lemma continues_cString {off m : ℕ} (hv : ¬v.NulTerminated off m) (hm : m ≤ cStringLimit)
    (hw : ∀ k < off + m, w k = v k) : Continues (v.read off m) (w.cString off) := by
  refine ⟨?_, zero_notMem_cString off, cString_length_le off⟩
  have hagree : ∀ k < m, w (off + k) = v (off + k) := fun k hk => hw (off + k) (by omega)
  have hzero : ¬w.NulTerminated off m := fun hz => hv (hz.congr hagree)
  obtain ⟨l, hl⟩ := Nat.exists_eq_add_of_le hm
  rw [cString, hl, cStringFrom_add hzero, read_congr hagree]
  exact List.prefix_append _ _

lemma Continues.of_append {known t : Bytes} (h0 : (0 : UInt8) ∉ known) (ht : (0 : UInt8) ∉ t)
    (hlength : known.length + t.length ≤ cStringLimit) : Continues known (known ++ t) :=
  ⟨List.prefix_append _ _, by simp [h0, ht], by simpa using hlength⟩

/-- Every C string that continues the known bytes stands in some memory. -/
lemma exists_cString_eq {off m : ℕ} {s : Bytes} (hs : Continues (v.read off m) s) :
    ∃ w : View, (∀ k < off + m, w k = v k) ∧ w.cString off = s := by
  obtain ⟨⟨t, rfl⟩, h0, hlength⟩ := hs
  rw [List.length_append, read_length] at hlength
  have hagree : ∀ k < off + m, v.append (ofBytes t) (off + m) k = v k :=
    fun k hk => append_apply_lt hk
  have hread : (v.append (ofBytes t) (off + m)).read off m = v.read off m :=
    read_congr fun k hk => hagree (off + k) (by omega)
  have hzero : ¬(v.append (ofBytes t) (off + m)).NulTerminated off m := by
    rintro ⟨k, hk, hz⟩
    refine h0 (List.mem_append_left _ ?_)
    rw [hagree (off + k) (by omega)] at hz
    exact List.mem_map.mpr ⟨k, List.mem_range.mpr hk, hz⟩
  have hrest : ∀ l, (v.append (ofBytes t) (off + m)).cStringFrom l (off + m) =
      (ofBytes t).cStringFrom l 0 := by
    have hshift : ∀ l a, (v.append (ofBytes t) (off + m)).cStringFrom l (off + m + a) =
        (ofBytes t).cStringFrom l a := by
      intro l
      induction l with
      | zero => intro a; rfl
      | succ l ih =>
          intro a
          rw [cStringFrom, cStringFrom, append_apply_add, Nat.add_assoc (off + m) a 1, ih (a + 1)]
    exact fun l => hshift l 0
  refine ⟨_, hagree, ?_⟩
  obtain ⟨l, hl⟩ := Nat.exists_eq_add_of_le (Nat.le_of_add_right_le hlength)
  rw [cString, hl, cStringFrom_add hzero, hread, hrest,
    cStringFrom_ofBytes (fun h => h0 (List.mem_append_right _ h)) (by omega)]

/-- **What decides a C string**, as far as `g` tells strings apart: a zero among the known bytes,
or that `g` does not tell apart the strings that continue them. -/
theorem decides_cString_iff {off m : ℕ} (g : Bytes → β) (hm : m ≤ cStringLimit) :
    (v.Decides (off + m) fun w => g (w.cString off)) ↔
      v.NulTerminated off m ∨
        ∀ s t, Continues (v.read off m) s → Continues (v.read off m) t → g s = g t := by
  by_cases hv : v.NulTerminated off m
  · refine iff_of_true (fun w hw => congrArg g ?_) (.inl hv)
    exact (cString_congr (fun k hk => (hw (off + k) (by omega)).symm) hv hm).symm
  · rw [or_iff_right hv]
    constructor
    · intro h s t hs ht
      obtain ⟨w, hw, rfl⟩ := exists_cString_eq hs
      obtain ⟨u, hu, rfl⟩ := exists_cString_eq ht
      exact (h w hw).trans (h u hu).symm
    · intro h w hw
      exact h _ _ (continues_cString hv hm hw) (continues_cString hv hm fun _ _ => rfl)

end Decides

end View

end Memory
