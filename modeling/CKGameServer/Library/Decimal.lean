import Mathlib.Data.Nat.Digits.Lemmas
import Mathlib.Data.List.TakeWhile
import CKGameServer.Library.Memory

/-!
Decimal numerals as `std::to_string` writes them and `strtol` reads them.

* `toDecimal`: a minus sign for a negative number, then the digits without leading zeros.
* `parse`: spaces, an optional sign, then as many digits as there are; `none` where no digit
  stands there. Whatever follows the digits is ignored.
* `parse_toDecimal`: a written numeral reads back.
* `zero_notMem_toDecimal`: a numeral is a C string.
* `toDecimalNat_digitsValue`, `exists_toDecimalNat_eq_cons`: digits without a leading zero are the
  numeral of their value.
* `Ended`: the number at the head of a string has come to its end; `parse_append_of_ended`,
  `parse_append_of_parse` and `exists_parse_append` say what more text behind it changes.
-/

namespace Decimal

open Memory

/-- `isdigit`. -/
def isDigit (c : UInt8) : Bool := 48 ≤ c.toNat && c.toNat ≤ 57

/-- `isspace`. -/
def isSpace (c : UInt8) : Bool := c.toNat = 32 || (9 ≤ c.toNat && c.toNat ≤ 13)

/-- The digits of a natural number. -/
def toDecimalNat (n : ℕ) : Bytes :=
  if n = 0 then [48] else ((Nat.digits 10 n).map fun d => UInt8.ofNat (48 + d)).reverse

/-- `std::to_string`, and the format `%d`. -/
def toDecimal (n : ℤ) : Bytes :=
  if n < 0 then 45 :: toDecimalNat n.natAbs else toDecimalNat n.natAbs

/-- The number a list of digits stands for. -/
def digitsValue (s : Bytes) : ℕ := Nat.ofDigits 10 (s.reverse.map fun c => c.toNat - 48)

/-- The number at the head of a string. -/
def parseDigits (s : Bytes) : Option ℕ :=
  if s.takeWhile isDigit = [] then none else some (digitsValue (s.takeWhile isDigit))

/-- `strtol` in base ten, before its range check. -/
def parse (s : Bytes) : Option ℤ :=
  match s.dropWhile isSpace with
  | [] => none
  | c :: t =>
    if c = 45 then (parseDigits t).map fun n : ℕ => -(n : ℤ)
    else if c = 43 then (parseDigits t).map fun n : ℕ => (n : ℤ)
    else (parseDigits (c :: t)).map fun n : ℕ => (n : ℤ)

lemma toNat_digit {d : ℕ} (hd : d < 10) : (UInt8.ofNat (48 + d)).toNat = 48 + d := by
  rw [UInt8.toNat_ofNat']
  omega

lemma isDigit_of_mem_toDecimalNat {n : ℕ} {c : UInt8} (h : c ∈ toDecimalNat n) :
    isDigit c = true := by
  rw [toDecimalNat] at h
  split at h
  · rw [List.mem_singleton.mp h]; decide
  · obtain ⟨d, hd, rfl⟩ := List.mem_map.mp (List.mem_reverse.mp h)
    have hd10 := Nat.digits_lt_base (by omega) hd
    simp only [isDigit, toNat_digit hd10, Bool.and_eq_true, decide_eq_true_eq]
    omega

lemma toDecimalNat_ne_nil (n : ℕ) : toDecimalNat n ≠ [] := by
  rw [toDecimalNat]
  split
  · simp
  · rename_i hn
    simpa [Nat.digits_ne_nil_iff_ne_zero] using hn

lemma takeWhile_toDecimalNat (n : ℕ) : (toDecimalNat n).takeWhile isDigit = toDecimalNat n :=
  List.takeWhile_eq_self_iff.mpr fun _ hc => isDigit_of_mem_toDecimalNat hc

lemma digitsValue_toDecimalNat (n : ℕ) : digitsValue (toDecimalNat n) = n := by
  rw [digitsValue, toDecimalNat]
  split
  · rename_i hn
    subst hn
    decide
  · rw [List.reverse_reverse, List.map_map]
    have hid : (Nat.digits 10 n).map ((fun c : UInt8 => c.toNat - 48) ∘
        fun d => UInt8.ofNat (48 + d)) = Nat.digits 10 n := by
      conv_rhs => rw [← List.map_id (Nat.digits 10 n)]
      refine List.map_congr_left fun d hd => ?_
      have hd10 := Nat.digits_lt_base (by omega) hd
      simp only [Function.comp_apply, toNat_digit hd10, id]
      omega
    rw [hid, Nat.ofDigits_digits]

lemma parseDigits_toDecimalNat (n : ℕ) : parseDigits (toDecimalNat n) = some n := by
  rw [parseDigits, takeWhile_toDecimalNat, if_neg (toDecimalNat_ne_nil n),
    digitsValue_toDecimalNat]

/-- A written numeral reads back. -/
theorem parse_toDecimal (n : ℤ) : parse (toDecimal n) = some n := by
  rw [toDecimal]
  by_cases hn : n < 0
  · rw [if_pos hn, parse, List.dropWhile_cons_of_neg (by decide)]
    simp only [↓reduceIte, parseDigits_toDecimalNat, Option.map_some, Option.some.injEq]
    omega
  · rw [if_neg hn]
    obtain ⟨c, t, hc⟩ := List.exists_cons_of_ne_nil (toDecimalNat_ne_nil n.natAbs)
    have hdigit : isDigit c = true :=
      isDigit_of_mem_toDecimalNat (n := n.natAbs) (by rw [hc]; exact List.mem_cons_self)
    have hrange : 48 ≤ c.toNat ∧ c.toNat ≤ 57 := by simpa [isDigit] using hdigit
    have hspace : ¬ isSpace c = true := by
      simp only [isSpace, Bool.or_eq_true, Bool.and_eq_true, decide_eq_true_eq]
      omega
    have hminus : c ≠ 45 := by rintro rfl; revert hrange; decide
    have hplus : c ≠ 43 := by rintro rfl; revert hrange; decide
    have hvalue := parseDigits_toDecimalNat n.natAbs
    rw [hc] at hvalue
    rw [hc, parse, List.dropWhile_cons_of_neg hspace]
    simp only [hminus, hplus, ↓reduceIte, hvalue, Option.map_some, Option.some.injEq]
    omega

lemma zero_notMem_toDecimal (n : ℤ) : (0 : UInt8) ∉ toDecimal n := by
  have hdigits : (0 : UInt8) ∉ toDecimalNat n.natAbs := fun h => by
    have := isDigit_of_mem_toDecimalNat h
    revert this; decide
  rw [toDecimal]
  split
  · simp [hdigits]
  · exact hdigits

/-! ### What follows a number -/

/-- The digits of the number at the head of a string, and what follows them. -/
def body (s : Bytes) : Bytes :=
  match s.dropWhile isSpace with
  | [] => []
  | c :: t => if c = 45 ∨ c = 43 then t else c :: t

/-- The number at the head of a string has a minus sign. -/
def negative (s : Bytes) : Bool := (s.dropWhile isSpace).head? == some 45

/-- The number at the head of a string has come to its end. -/
def Ended (s : Bytes) : Prop := ∃ c ∈ body s, isDigit c = false

lemma parse_eq (s : Bytes) :
    parse s = (parseDigits (body s)).map fun n : ℕ => if negative s then -(n : ℤ) else n := by
  rw [parse, body, negative]
  cases s.dropWhile isSpace with
  | nil => rfl
  | cons c t =>
      by_cases hminus : c = 45
      · simp [hminus]
      · by_cases hplus : c = 43 <;> simp [hminus, hplus]

lemma dropWhile_isSpace_append {s : Bytes} (h : s.dropWhile isSpace ≠ []) (t : Bytes) :
    (s ++ t).dropWhile isSpace = s.dropWhile isSpace ++ t := by
  rw [List.dropWhile_append, if_neg (by simpa using h)]

lemma body_append {s : Bytes} (h : s.dropWhile isSpace ≠ []) (t : Bytes) :
    body (s ++ t) = body s ++ t := by
  obtain ⟨c, r, hc⟩ := List.exists_cons_of_ne_nil h
  rw [body, body, dropWhile_isSpace_append h, hc, List.cons_append]
  by_cases hsign : c = 45 ∨ c = 43 <;> simp [hsign]

lemma negative_append {s : Bytes} (h : s.dropWhile isSpace ≠ []) (t : Bytes) :
    negative (s ++ t) = negative s := by
  obtain ⟨c, r, hc⟩ := List.exists_cons_of_ne_nil h
  rw [negative, negative, dropWhile_isSpace_append h, hc]
  rfl

lemma dropWhile_ne_nil_of_body {s : Bytes} (h : body s ≠ []) : s.dropWhile isSpace ≠ [] :=
  fun hnil => h (by rw [body, hnil])

/-- Spaces in front of a number change nothing. -/
lemma parse_append_of_blank {s : Bytes} (h : s.dropWhile isSpace = []) (t : Bytes) :
    parse (s ++ t) = parse t := by
  have hdrop : (s ++ t).dropWhile isSpace = t.dropWhile isSpace := by
    rw [List.dropWhile_append, h]
    rfl
  rw [parse, parse, hdrop]

lemma digitsValue_append (a b : Bytes) :
    digitsValue (a ++ b) = digitsValue b + 10 ^ b.length * digitsValue a := by
  simp [digitsValue, List.reverse_append, Nat.ofDigits_append]

/-- Digits behind digits. -/
lemma takeWhile_isDigit_append {b : Bytes} (hb : ∀ c ∈ b, isDigit c = true) (t : Bytes) :
    (b ++ t).takeWhile isDigit = b ++ t.takeWhile isDigit :=
  List.takeWhile_append_of_pos hb

lemma digits_of_not_ended {s : Bytes} (h : ¬Ended s) : ∀ c ∈ body s, isDigit c = true := by
  intro c hc
  by_contra hdigit
  exact h ⟨c, hc, Bool.eq_false_of_not_eq_true hdigit⟩

/-- What follows the end of a number does not belong to it. -/
lemma parse_append_of_ended {s : Bytes} (h : Ended s) (t : Bytes) : parse (s ++ t) = parse s := by
  obtain ⟨c, hc, hdigit⟩ := h
  have hne := dropWhile_ne_nil_of_body (List.ne_nil_of_mem hc)
  have htake : (body s ++ t).takeWhile isDigit = (body s).takeWhile isDigit := by
    rw [List.takeWhile_append, if_neg]
    intro hlength
    have hall := List.takeWhile_eq_self_iff.mp
      ((List.takeWhile_prefix isDigit (l := body s)).eq_of_length hlength)
    rw [hall c hc] at hdigit
    cases hdigit
  rw [parse_eq, parse_eq, body_append hne, negative_append hne, parseDigits, parseDigits, htake]

/-- A number only grows by what follows it, away from zero. -/
lemma parse_append_of_parse {s : Bytes} {n : ℤ} (h : parse s = some n) (t : Bytes) :
    ∃ m, parse (s ++ t) = some m ∧ (0 < n → n ≤ m) ∧ (n < 0 → m ≤ n) := by
  by_cases hended : Ended s
  · exact ⟨n, (parse_append_of_ended hended t).trans h, fun _ => le_rfl, fun _ => le_rfl⟩
  · have hdigits := digits_of_not_ended hended
    have htake : (body s).takeWhile isDigit = body s := List.takeWhile_eq_self_iff.mpr hdigits
    rw [parse_eq, parseDigits, htake] at h
    have hbody : body s ≠ [] := by
      intro hnil
      rw [if_pos hnil] at h
      cases h
    have hne := dropWhile_ne_nil_of_body hbody
    rw [if_neg hbody, Option.map_some, Option.some.injEq] at h
    refine ⟨if negative s then -(digitsValue (body s ++ t.takeWhile isDigit) : ℤ)
      else digitsValue (body s ++ t.takeWhile isDigit), ?_, ?_⟩
    · rw [parse_eq, body_append hne, negative_append hne, parseDigits,
        takeWhile_isDigit_append hdigits, if_neg (by simp [hbody]), Option.map_some]
    · have hgrows : digitsValue (body s) ≤ digitsValue (body s ++ t.takeWhile isDigit) := by
        rw [digitsValue_append]
        exact (Nat.le_mul_of_pos_left _ (Nat.pos_of_ne_zero (by positivity))).trans
          (Nat.le_add_left _ _)
      subst h
      split <;> omega

/-- A number that has not come to its end is at least what follows it, if that is digits. -/
lemma exists_parse_append {s t : Bytes} (h : ¬Ended s) (ht : ∀ c ∈ t, isDigit c = true)
    (hne : t ≠ []) :
    ∃ m, parse (s ++ t) = some m ∧ digitsValue t ≤ m.natAbs := by
  have htake : t.takeWhile isDigit = t := List.takeWhile_eq_self_iff.mpr ht
  have hvalue : ∀ b : Bytes, (∀ c ∈ b, isDigit c = true) →
      parseDigits (b ++ t) = some (digitsValue (b ++ t)) := by
    intro b hb
    rw [parseDigits, takeWhile_isDigit_append hb, htake, if_neg (by simp [hne])]
  have hle : ∀ b : Bytes, digitsValue t ≤ digitsValue (b ++ t) := fun b => by
    rw [digitsValue_append]
    exact Nat.le_add_right _ _
  by_cases hblank : s.dropWhile isSpace = []
  · obtain ⟨c, r, rfl⟩ := List.exists_cons_of_ne_nil hne
    have hrange : 48 ≤ c.toNat ∧ c.toNat ≤ 57 := by
      simpa [isDigit] using ht c List.mem_cons_self
    have hspace : ¬ isSpace c = true := by
      simp only [isSpace, Bool.or_eq_true, Bool.and_eq_true, decide_eq_true_eq]
      omega
    have hsign : ¬(c = 45 ∨ c = 43) := by
      rintro (rfl | rfl) <;> revert hrange <;> decide
    have hbody : body (c :: r) = c :: r := by
      rw [body, List.dropWhile_cons_of_neg hspace]
      exact if_neg hsign
    have hdigits : parseDigits (c :: r) = some (digitsValue (c :: r)) := hvalue [] (by simp)
    refine ⟨_, by rw [parse_append_of_blank hblank, parse_eq, hbody, hdigits, Option.map_some], ?_⟩
    split <;> omega
  · have hvalue_le := hle (body s)
    refine ⟨_, by rw [parse_eq, body_append hblank, hvalue _ (digits_of_not_ended h),
      Option.map_some], ?_⟩
    split <;> omega

/-! ### Numerals by their digits -/

lemma toDecimal_natCast (n : ℕ) : toDecimal n = toDecimalNat n := by
  rw [toDecimal, if_neg (by omega), Int.natAbs_natCast]

lemma toDecimal_neg_natCast {n : ℕ} (hn : 0 < n) : toDecimal (-n) = 45 :: toDecimalNat n := by
  rw [toDecimal, if_pos (by omega), Int.natAbs_neg, Int.natAbs_natCast]

lemma digitsValue_cons (c : UInt8) (s : Bytes) :
    digitsValue (c :: s) = (c.toNat - 48) * 10 ^ s.length + digitsValue s := by
  have h := digitsValue_append [c] s
  rw [List.singleton_append] at h
  rw [h, Nat.add_comm, Nat.mul_comm]
  simp [digitsValue]

/-- Digits that do not begin with a zero are the numeral of their value. -/
lemma toDecimalNat_digitsValue {c : UInt8} {s : Bytes} (hs : ∀ d ∈ c :: s, isDigit d = true)
    (hc : c ≠ 48) : toDecimalNat (digitsValue (c :: s)) = c :: s := by
  have hrange : 48 ≤ c.toNat ∧ c.toNat ≤ 57 := by simpa [isDigit] using hs c List.mem_cons_self
  have hne : c.toNat ≠ 48 := fun h => hc (UInt8.toNat.inj h)
  have hpos : digitsValue (c :: s) ≠ 0 := by
    have : 0 < (c.toNat - 48) * 10 ^ s.length := Nat.mul_pos (by omega) (by positivity)
    rw [digitsValue_cons]
    omega
  have hdigits : Nat.digits 10 (digitsValue (c :: s)) =
      (c :: s).reverse.map fun d => d.toNat - 48 := by
    refine Nat.digits_ofDigits 10 (by decide) _ ?_ ?_
    · intro d hd
      obtain ⟨e, he, rfl⟩ := List.mem_map.mp hd
      have : 48 ≤ e.toNat ∧ e.toNat ≤ 57 := by simpa [isDigit] using hs e (List.mem_reverse.mp he)
      omega
    · intro hnil
      simp only [List.reverse_cons, List.map_append, List.map_cons, List.map_nil,
        List.getLast_append_singleton]
      omega
  rw [toDecimalNat, if_neg hpos, hdigits, List.map_map, ← List.map_reverse, List.reverse_reverse]
  conv_rhs => rw [← List.map_id (c :: s)]
  refine List.map_congr_left fun d hd => ?_
  have : 48 ≤ d.toNat ∧ d.toNat ≤ 57 := by simpa [isDigit] using hs d hd
  rw [Function.comp_apply, Nat.add_sub_cancel' this.1, id]
  exact UInt8.ofNat_toNat

/-- The numeral of a positive number begins with a digit from `1` on. -/
lemma exists_toDecimalNat_eq_cons {n : ℕ} (hn : 0 < n) :
    ∃ c s, toDecimalNat n = c :: s ∧ 49 ≤ c.toNat ∧ c.toNat ≤ 57 := by
  have hne : Nat.digits 10 n ≠ [] := Nat.digits_ne_nil_iff_ne_zero.mpr hn.ne'
  have hlast := Nat.getLast_digit_ne_zero 10 hn.ne'
  have hlt : (Nat.digits 10 n).getLast hne < 10 :=
    Nat.digits_lt_base (by omega) (List.getLast_mem hne)
  refine ⟨UInt8.ofNat (48 + (Nat.digits 10 n).getLast hne),
    ((Nat.digits 10 n).dropLast.map fun d => UInt8.ofNat (48 + d)).reverse, ?_, ?_⟩
  · rw [toDecimalNat, if_neg hn.ne']
    conv_lhs => rw [← List.dropLast_append_getLast hne]
    simp
  · rw [toNat_digit hlt]
    omega

end Decimal
