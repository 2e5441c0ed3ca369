import Mathlib.LinearAlgebra.CrossProduct
import Mathlib.Tactic.Module
import Mathlib.Tactic.LinearCombination

/-!
Rotation by a quaternion, in its vector form.

The quaternion with the real part `w` and the vector part `v` takes `a` to
`a + 2w (v ⨯ a) + 2 v ⨯ (v ⨯ a)`. All of it holds over any commutative ring; the quaternion need
not have norm one, and what a rotation preserves is off by a multiple of the norm minus one.

* `rotate`: the linear map.
* `normSq`: the squared norm of the quaternion.
* `rotate_dot_rotate`: inner products; `rotate_cross_rotate`: cross products.
* `rotate_dot_rotate_of_normSq`, `rotate_cross_of_normSq`: they are preserved where the norm is one.
-/

namespace Rotation

open Matrix

variable {R : Type*} [CommRing R]

/-- Rotation by the quaternion with real part `w` and vector part `v`. -/
def rotate (w : R) (v : Fin 3 → R) : (Fin 3 → R) →ₗ[R] Fin 3 → R :=
  LinearMap.id + (2 * w) • crossProduct v + (2 : R) • (crossProduct v ∘ₗ crossProduct v)

/-- The squared norm of the quaternion. -/
def normSq (w : R) (v : Fin 3 → R) : R := w ^ 2 + v ⬝ᵥ v

variable {w : R} {v : Fin 3 → R} (a b : Fin 3 → R)

lemma rotate_apply (w : R) (v : Fin 3 → R) :
    rotate w v a = a + (2 * w) • v ⨯₃ a + (2 : R) • v ⨯₃ (v ⨯₃ a) := rfl

/-! ### Products with the axis -/

/-- The product with the axis is skew. -/
lemma dot_cross_comm (v : Fin 3 → R) : a ⬝ᵥ v ⨯₃ b = -(v ⨯₃ a ⬝ᵥ b) := by
  rw [dotProduct_comm (v ⨯₃ a), triple_product_permutation b v a, triple_product_permutation v a b,
    ← cross_anticomm v b, dotProduct_neg, neg_neg]

/-- Two products with the axis have a product along it. -/
lemma cross_cross_cross (v : Fin 3 → R) :
    (v ⨯₃ a) ⨯₃ (v ⨯₃ b) = (v ⬝ᵥ a ⨯₃ b) • v := by
  rw [cross_cross_eq_smul_sub_smul, dot_self_cross, zero_smul, zero_sub, ← neg_smul,
    triple_product_permutation v a b, ← cross_anticomm v b, dotProduct_neg]

/-- The squared length of a product with the axis taken twice. -/
lemma dot_cross_cross (v : Fin 3 → R) :
    v ⨯₃ (v ⨯₃ a) ⬝ᵥ v ⨯₃ (v ⨯₃ b) = v ⬝ᵥ v * (v ⨯₃ a ⬝ᵥ v ⨯₃ b) := by
  rw [cross_dot_cross, dotProduct_comm (v ⨯₃ a) v, dot_self_cross, dot_self_cross, mul_zero,
    sub_zero]

/-! ### What a rotation preserves -/

/-- **Inner products** under a rotation. -/
theorem rotate_dot_rotate (w : R) (v : Fin 3 → R) :
    rotate w v a ⬝ᵥ rotate w v b =
      a ⬝ᵥ b + 4 * (normSq w v - 1) * (v ⨯₃ a ⬝ᵥ v ⨯₃ b) := by
  have hfirst : a ⬝ᵥ v ⨯₃ b = -(v ⨯₃ a ⬝ᵥ b) := dot_cross_comm a b v
  have hright : a ⬝ᵥ v ⨯₃ (v ⨯₃ b) = -(v ⨯₃ a ⬝ᵥ v ⨯₃ b) := dot_cross_comm a (v ⨯₃ b) v
  have hleft : v ⨯₃ (v ⨯₃ a) ⬝ᵥ b = -(v ⨯₃ a ⬝ᵥ v ⨯₃ b) := by
    rw [dot_cross_comm (v ⨯₃ a) b v, neg_neg]
  have hmixed : v ⨯₃ a ⬝ᵥ v ⨯₃ (v ⨯₃ b) = -(v ⨯₃ (v ⨯₃ a) ⬝ᵥ v ⨯₃ b) :=
    dot_cross_comm (v ⨯₃ a) (v ⨯₃ b) v
  simp only [rotate_apply, add_dotProduct, dotProduct_add, smul_dotProduct, dotProduct_smul,
    smul_eq_mul, hfirst, hright, hleft, hmixed, dot_cross_cross, normSq]
  ring

/-- **Cross products** under a rotation. -/
theorem rotate_cross_rotate (w : R) (v : Fin 3 → R) :
    rotate w v a ⨯₃ rotate w v b =
      rotate w v (a ⨯₃ b) + (4 * (normSq w v - 1)) • (v ⨯₃ a) ⨯₃ (v ⨯₃ b) := by
  have hfirst := leibniz_cross v a b
  have hleft := leibniz_cross v (v ⨯₃ a) b
  have hright := leibniz_cross v a (v ⨯₃ b)
  -- the product of the two is along the axis, so that the next product with the axis is zero
  have hmixed : (v ⨯₃ a) ⨯₃ (v ⨯₃ (v ⨯₃ b)) = -((v ⨯₃ (v ⨯₃ a)) ⨯₃ (v ⨯₃ b)) := by
    rw [eq_neg_iff_add_eq_zero, add_comm, ← leibniz_cross, cross_cross_cross, map_smul, cross_self,
      smul_zero]
  have htwice : (v ⨯₃ (v ⨯₃ a)) ⨯₃ (v ⨯₃ (v ⨯₃ b)) = (v ⬝ᵥ v) • (v ⨯₃ a) ⨯₃ (v ⨯₃ b) := by
    rw [cross_cross_cross, cross_cross_cross, smul_smul, dotProduct_smul, smul_eq_mul, mul_comm]
  simp only [rotate_apply, map_add, LinearMap.add_apply, map_smul, LinearMap.smul_apply, hfirst,
    hleft, hright, hmixed, htwice, normSq]
  module

section Unit

variable (h : normSq w v = 1)
include h

/-- A quaternion of norm one preserves inner products. -/
theorem rotate_dot_rotate_of_normSq : rotate w v a ⬝ᵥ rotate w v b = a ⬝ᵥ b := by
  rw [rotate_dot_rotate, h, sub_self, mul_zero, zero_mul, add_zero]

/-- It preserves cross products. -/
theorem rotate_cross_of_normSq : rotate w v (a ⨯₃ b) = rotate w v a ⨯₃ rotate w v b := by
  rw [rotate_cross_rotate, h, sub_self, mul_zero, zero_smul, add_zero]

end Unit

end Rotation
