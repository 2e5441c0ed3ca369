import CKGameServer.Model.RedisReader

/-!
The numbers in the replies of Redis (`string2ll`).

The function checks for overflow before every step of its loop, takes no spaces, no plus sign and
no leading zeros, and wants all of the text.

* `string2llDigits_eq`: the loop reads the digits if their value fits.
* `string2ll_toDecimal`, `toDecimal_of_string2ll`: what is read is what stands there.
* `string2ll_eq_some_iff`: a text is read exactly if it is the numeral of a `long long`.
-/

namespace CKGameServer

open Memory

/-- The loop reads all digits, if their value fits. -/
lemma string2llDigits_eq {v : ℕ} (hv : v ≤ ullongMax) (s : Bytes) :
    string2llDigits v s =
      if s.all Decimal.isDigit = true ∧
          v * 10 ^ s.length + Decimal.digitsValue s ≤ ullongMax then
        some (v * 10 ^ s.length + Decimal.digitsValue s)
      else none := by
  induction s generalizing v with
  | nil => simp [string2llDigits, Decimal.digitsValue, hv]
  | cons c s ih =>
      rw [string2llDigits]
      by_cases hc : Decimal.isDigit c = true
      · have hrange : 48 ≤ c.toNat ∧ c.toNat ≤ 57 := by simpa [Decimal.isDigit] using hc
        have hvalue : v * 10 ^ (c :: s).length + Decimal.digitsValue (c :: s) =
            (v * 10 + (c.toNat - 48)) * 10 ^ s.length + Decimal.digitsValue s := by
          rw [Decimal.digitsValue_cons, List.length_cons, pow_succ]
          ring
        have hpos : 1 ≤ 10 ^ s.length := Nat.one_le_pow _ _ (by omega)
        have hgrows : v * 10 + (c.toNat - 48) ≤
            (v * 10 + (c.toNat - 48)) * 10 ^ s.length + Decimal.digitsValue s :=
          (Nat.le_mul_of_pos_right _ hpos).trans (Nat.le_add_right _ _)
        rw [if_pos hc, hvalue]
        split_ifs with h1 h2 h3 h3 h3
        · unfold ullongMax at *; omega
        · rfl
        · unfold ullongMax at *; omega
        · rfl
        · rw [ih (by unfold ullongMax at *; omega),
            if_pos ⟨(Bool.and_eq_true _ _ ▸ h3.1).2, h3.2⟩]
        · rw [ih (by unfold ullongMax at *; omega), if_neg]
          rintro ⟨hall, hle⟩
          exact h3 ⟨by rw [List.all_cons, hc, hall]; rfl, hle⟩
      · rw [if_neg hc, if_neg fun h => hc (List.all_eq_true.mp h.1 c List.mem_cons_self)]

/-- The digits of a positive number are read, if it fits. -/
lemma string2llMagnitude_eq_some_iff {s : Bytes} {n : ℕ} :
    string2llMagnitude s = some n ↔ s = Decimal.toDecimalNat n ∧ 0 < n ∧ n ≤ ullongMax := by
  constructor
  · intro h
    cases s with
    | nil => cases h
    | cons c s =>
        rw [string2llMagnitude] at h
        split at h
        · rename_i hc
          rw [string2llDigits_eq (by unfold ullongMax; omega)] at h
          split at h
          · rename_i hs
            obtain rfl := Option.some.inj h
            have hdigits : ∀ d ∈ c :: s, Decimal.isDigit d = true :=
              List.forall_mem_cons.mpr
                ⟨by simp [Decimal.isDigit]; omega, List.all_eq_true.mp hs.1⟩
            have hne : c ≠ 48 := by rintro rfl; revert hc; decide
            rw [← Decimal.digitsValue_cons, Decimal.toDecimalNat_digitsValue hdigits hne]
            refine ⟨rfl, ?_, by rw [Decimal.digitsValue_cons]; exact hs.2⟩
            rw [Decimal.digitsValue_cons]
            have : 0 < (c.toNat - 48) * 10 ^ s.length := Nat.mul_pos (by omega) (by positivity)
            omega
          · cases h
        · cases h
  · rintro ⟨rfl, hpos, hle⟩
    obtain ⟨c, s, hcs, hlow, hhigh⟩ := Decimal.exists_toDecimalNat_eq_cons hpos
    have hvalue : (c.toNat - 48) * 10 ^ s.length + Decimal.digitsValue s = n := by
      rw [← Decimal.digitsValue_cons, ← hcs, Decimal.digitsValue_toDecimalNat]
    have hdigits : ∀ d ∈ s, Decimal.isDigit d = true := fun d hd =>
      Decimal.isDigit_of_mem_toDecimalNat (n := n) (by rw [hcs]; exact List.mem_cons_of_mem c hd)
    rw [hcs, string2llMagnitude, if_pos ⟨hlow, hhigh⟩,
      string2llDigits_eq (by unfold ullongMax; omega), hvalue,
      if_pos ⟨List.all_eq_true.mpr hdigits, hle⟩]

/-- The numeral of a `long long` is read. -/
lemma string2ll_toDecimal {v : ℤ} (hlow : -2 ^ 63 ≤ v) (hhigh : v < 2 ^ 63) :
    string2ll (Decimal.toDecimal v) = some v := by
  rw [string2ll]
  rcases lt_trichotomy v 0 with hneg | rfl | hpos
  · obtain ⟨n, rfl⟩ : ∃ n : ℕ, v = -n := ⟨v.natAbs, by omega⟩
    have hn : string2llMagnitude (Decimal.toDecimalNat n) = some n :=
      string2llMagnitude_eq_some_iff.mpr ⟨rfl, by omega, by unfold ullongMax; omega⟩
    rw [Decimal.toDecimal_neg_natCast (by omega), if_neg (by simp), List.head?_cons, if_pos rfl,
      List.tail_cons, hn, Option.bind_some, if_neg (by unfold llongMax; omega)]
  · rfl
  · obtain ⟨n, rfl⟩ : ∃ n : ℕ, v = n := ⟨v.natAbs, by omega⟩
    have hn : string2llMagnitude (Decimal.toDecimalNat n) = some n :=
      string2llMagnitude_eq_some_iff.mpr ⟨rfl, by omega, by unfold ullongMax; omega⟩
    obtain ⟨c, s, hcs, hc, hc'⟩ := Decimal.exists_toDecimalNat_eq_cons (n := n) (by omega)
    have h48 : c ≠ 48 := by rintro rfl; revert hc; decide
    have h45 : c ≠ 45 := by rintro rfl; revert hc; decide
    rw [Decimal.toDecimal_natCast, hn, Option.bind_some, hcs, if_neg (by simp [h48]),
      if_neg (by simp [h45]), if_neg (by unfold llongMax; omega)]

/-- What is read is the number whose numeral stands there. -/
lemma toDecimal_of_string2ll {s : Bytes} {v : ℤ} (h : string2ll s = some v) :
    s = Decimal.toDecimal v ∧ -2 ^ 63 ≤ v ∧ v < 2 ^ 63 := by
  rw [string2ll] at h
  split_ifs at h with h0 h45
  · obtain rfl := Option.some.inj h
    exact ⟨h0, by decide, by decide⟩
  · obtain ⟨n, hn, hv⟩ := Option.bind_eq_some_iff.mp h
    obtain ⟨hs, hpos, -⟩ := string2llMagnitude_eq_some_iff.mp hn
    obtain ⟨t, rfl⟩ := List.head?_eq_some_iff.mp h45
    split at hv
    · cases hv
    · rename_i hle
      obtain rfl := Option.some.inj hv
      unfold llongMax at hle
      rw [Decimal.toDecimal_neg_natCast hpos, ← hs]
      exact ⟨rfl, by omega, by omega⟩
  · obtain ⟨n, hn, hv⟩ := Option.bind_eq_some_iff.mp h
    obtain ⟨hs, hpos, -⟩ := string2llMagnitude_eq_some_iff.mp hn
    split at hv
    · cases hv
    · rename_i hle
      obtain rfl := Option.some.inj hv
      unfold llongMax at hle
      rw [Decimal.toDecimal_natCast]
      exact ⟨hs, by omega, by omega⟩

/-- **`string2ll` reads the numerals of its range, and nothing else**, so that the text can be had
back from the number. -/
theorem string2ll_eq_some_iff {s : Bytes} {v : ℤ} :
    string2ll s = some v ↔ s = Decimal.toDecimal v ∧ -2 ^ 63 ≤ v ∧ v < 2 ^ 63 := by
  constructor
  · exact toDecimal_of_string2ll
  · rintro ⟨rfl, hlow, hhigh⟩
    exact string2ll_toDecimal hlow hhigh

example : string2ll [45, 48] = none := by decide

end CKGameServer
