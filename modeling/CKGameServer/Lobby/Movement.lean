import Mathlib.Tactic.FinCases
import CKGameServer.Library.Rotation
import CKGameServer.Model.PacketManager

/-!
The motion of a player (`Quaternion_Multiply`, `Actor::UpdateMovement`, `ProcessPlayerMovement`).

* `Vector3.coords`: a vector as its three coordinates; `coords_quaternionMultiply`: the nine terms
  of `Quaternion_Multiply` are a rotation in vector form.
* `quaternionMultiply_rotation`: with norm one it is linear and keeps inner and cross products, and
  the motion is as long as the input.
* `clampInput`: an input after its check, which bounds it from above only.
* `normSq_movement`: the squared length of a motion, for any input and any rotation.
* `speedLimited_iff`: when a movement stays below the speed of full input on both axes.
-/

namespace CKGameServer

open Matrix Memory Rotation

/-! ### Vectors -/

namespace Vector3

/-- The coordinates. -/
def coords (u : Vector3) : Fin 3 → ℚ := ![u.x, u.y, u.z]

/-- The inner product. -/
def dot (u v : Vector3) : ℚ := u.x * v.x + u.y * v.y + u.z * v.z

/-- The cross product. -/
def cross (u v : Vector3) : Vector3 :=
  ⟨u.y * v.z - u.z * v.y, u.z * v.x - u.x * v.z, u.x * v.y - u.y * v.x⟩

/-- The squared length. -/
def normSq (u : Vector3) : ℚ := u.dot u

/-- The squared distance of two points. -/
def distSq (u v : Vector3) : ℚ := (v.x - u.x) ^ 2 + (v.y - u.y) ^ 2 + (v.z - u.z) ^ 2

lemma coords_injective : Function.Injective coords := by
  rintro ⟨x, y, z⟩ ⟨x', y', z'⟩ h
  simpa [coords] using h

lemma dot_eq (u v : Vector3) : u.dot v = u.coords ⬝ᵥ v.coords := by
  simp [dot, coords, add_assoc]

lemma coords_cross (u v : Vector3) : (u.cross v).coords = u.coords ⨯₃ v.coords := by
  simp [cross, coords, cross_apply]

lemma coords_addition (u v : Vector3) : (vector3Addition u v).coords = u.coords + v.coords := by
  simp [vector3Addition, coords]

lemma coords_multiply (u : Vector3) (b : ℚ) : (vector3Multiply u b).coords = b • u.coords := by
  simp [vector3Multiply, coords, mul_comm]

end Vector3

namespace Quaternion

/-- The vector part. -/
def axis (q : Quaternion) : Fin 3 → ℚ := ![q.x, q.y, q.z]

/-- The squared norm. -/
def normSq (q : Quaternion) : ℚ := q.x ^ 2 + q.y ^ 2 + q.z ^ 2 + q.w ^ 2

lemma normSq_eq (q : Quaternion) : q.normSq = Rotation.normSq q.w q.axis := by
  simp [normSq, Rotation.normSq, axis]
  ring

end Quaternion

/-- **The nine terms** of `Quaternion_Multiply` are the rotation by the quaternion. -/
theorem coords_quaternionMultiply (q : Quaternion) (u : Vector3) :
    (quaternionMultiply q u).coords = rotate q.w q.axis u.coords := by
  rw [rotate_apply]
  simp only [quaternionMultiply, Vector3.coords, Quaternion.axis, cross_apply]
  ext i
  fin_cases i <;> simp <;> ring

lemma quaternionMultiply_addition (q : Quaternion) (u v : Vector3) :
    quaternionMultiply q (vector3Addition u v) =
      vector3Addition (quaternionMultiply q u) (quaternionMultiply q v) :=
  Vector3.coords_injective (by
    rw [coords_quaternionMultiply, Vector3.coords_addition, map_add, Vector3.coords_addition,
      coords_quaternionMultiply, coords_quaternionMultiply])

lemma quaternionMultiply_multiply (q : Quaternion) (u : Vector3) (b : ℚ) :
    quaternionMultiply q (vector3Multiply u b) = vector3Multiply (quaternionMultiply q u) b :=
  Vector3.coords_injective (by
    rw [coords_quaternionMultiply, Vector3.coords_multiply, map_smul, Vector3.coords_multiply,
      coords_quaternionMultiply])

/-! ### The motion -/

/-- An input as `UpdateMovement` uses it: one above 1 is taken for 0, and there is no lower
bound. -/
def clampInput (d : ℚ) : ℚ := d * if d ≤ 1 then 1 else 0

lemma clampInput_of_le {d : ℚ} (h : d ≤ 1) : clampInput d = d := by
  rw [clampInput, if_pos h, mul_one]

/-- The input as a vector, to the right and forward. -/
def inputVector (dx dy : ℚ) : Vector3 := ⟨clampInput dx, 0, clampInput dy⟩

/-- How long the input is once it is rotated, squared: its own length, and what a rotation that is
not of norm one adds to the part across its axis. -/
def rotatedNormSq (dx dy : ℚ) (q : Quaternion) : ℚ :=
  clampInput dx ^ 2 + clampInput dy ^ 2 +
    4 * (q.normSq - 1) * (q.y ^ 2 * (clampInput dx ^ 2 + clampInput dy ^ 2) +
      (q.z * clampInput dx - q.x * clampInput dy) ^ 2)

section Motion

variable {dx dy : ℚ} {rotation : Quaternion}

/-- The motion is the rotated input times the speed. -/
lemma movement_eq (dx dy : ℚ) (rotation : Quaternion) :
    Actor.movement dx dy rotation = vector3Multiply
      (quaternionMultiply rotation (inputVector dx dy)) (20 * fixedDeltaTime) := by
  have hinput : inputVector dx dy = vector3Addition (vector3Multiply vector3Right (clampInput dx))
      (vector3Multiply vector3Forward (clampInput dy)) := by
    simp [inputVector, vector3Addition, vector3Multiply, vector3Right, vector3Forward]
  rw [hinput, quaternionMultiply_addition, quaternionMultiply_multiply,
    quaternionMultiply_multiply, mul_comm (20 : ℚ)]
  rfl

/-- **The squared length of a motion.** -/
theorem normSq_movement (dx dy : ℚ) (rotation : Quaternion) :
    (Actor.movement dx dy rotation).normSq =
      (20 * fixedDeltaTime) ^ 2 * rotatedNormSq dx dy rotation := by
  have hinput : (inputVector dx dy).coords ⬝ᵥ (inputVector dx dy).coords =
      clampInput dx ^ 2 + clampInput dy ^ 2 := by
    rw [← Vector3.dot_eq]
    simp only [inputVector, Vector3.dot]
    ring
  have hacross : rotation.axis ⨯₃ (inputVector dx dy).coords ⬝ᵥ
      rotation.axis ⨯₃ (inputVector dx dy).coords =
        rotation.y ^ 2 * (clampInput dx ^ 2 + clampInput dy ^ 2) +
          (rotation.z * clampInput dx - rotation.x * clampInput dy) ^ 2 := by
    simp [cross_apply, Quaternion.axis, inputVector, Vector3.coords]
    ring
  calc (Actor.movement dx dy rotation).normSq
      = (20 * fixedDeltaTime) ^ 2 *
          (rotate rotation.w rotation.axis (inputVector dx dy).coords ⬝ᵥ
            rotate rotation.w rotation.axis (inputVector dx dy).coords) := by
        rw [Vector3.normSq, Vector3.dot_eq, movement_eq, Vector3.coords_multiply,
          coords_quaternionMultiply, smul_dotProduct, dotProduct_smul, smul_eq_mul, smul_eq_mul]
        ring
    _ = (20 * fixedDeltaTime) ^ 2 * rotatedNormSq dx dy rotation := by
        rw [rotate_dot_rotate, hinput, hacross, ← Quaternion.normSq_eq, rotatedNormSq]

/-- A proper rotation: linear, and it keeps inner and cross products. -/
structure IsRotation (f : Vector3 → Vector3) : Prop where
  addition : ∀ u v, f (vector3Addition u v) = vector3Addition (f u) (f v)
  multiply : ∀ u b, f (vector3Multiply u b) = vector3Multiply (f u) b
  dot : ∀ u v, (f u).dot (f v) = u.dot v
  cross : ∀ u v, f (u.cross v) = (f u).cross (f v)

/-- **`Quaternion_Multiply` is a proper rotation** for a quaternion of norm one, and a motion is
then as long as its input. -/
theorem quaternionMultiply_rotation (q : Quaternion) (hq : q.normSq = 1) :
    IsRotation (quaternionMultiply q) ∧ ∀ dx dy : ℚ, dx ≤ 1 → dy ≤ 1 →
      (Actor.movement dx dy q).normSq = (20 * fixedDeltaTime) ^ 2 * (dx ^ 2 + dy ^ 2) := by
  have hnorm : Rotation.normSq q.w q.axis = 1 := q.normSq_eq ▸ hq
  refine ⟨⟨quaternionMultiply_addition q, quaternionMultiply_multiply q, fun u v => ?_,
    fun u v => Vector3.coords_injective ?_⟩, fun dx dy hdx hdy => ?_⟩
  · rw [Vector3.dot_eq, coords_quaternionMultiply, coords_quaternionMultiply,
      rotate_dot_rotate_of_normSq _ _ hnorm, Vector3.dot_eq]
  · rw [coords_quaternionMultiply, Vector3.coords_cross, rotate_cross_of_normSq _ _ hnorm,
      Vector3.coords_cross, coords_quaternionMultiply, coords_quaternionMultiply]
  · rw [normSq_movement, rotatedNormSq, hq, sub_self, mul_zero, zero_mul, add_zero,
      clampInput_of_le hdx, clampInput_of_le hdy]

/-- The quaternion that takes each axis to the next one. -/
theorem quaternionMultiply_rotation_cyclic :
    IsRotation (quaternionMultiply ⟨1 / 2, 1 / 2, 1 / 2, 1 / 2⟩) ∧
      (Actor.movement 1 (-1) ⟨1 / 2, 1 / 2, 1 / 2, 1 / 2⟩).normSq =
        (20 * fixedDeltaTime) ^ 2 * (1 ^ 2 + (-1) ^ 2) := by
  obtain ⟨hrotation, hmotion⟩ := quaternionMultiply_rotation ⟨1 / 2, 1 / 2, 1 / 2, 1 / 2⟩
    (by norm_num [Quaternion.normSq])
  exact ⟨hrotation, hmotion 1 (-1) le_rfl (by norm_num)⟩

/-! ### The limit -/

/-- The squared length of the longest motion, with full input on both axes. -/
def motionLimit : ℚ := 2 * (20 * fixedDeltaTime) ^ 2

/-- A `PLAYER_MOVEMENT` packet with these fields moves no actor further than the limit, and no
further motion is sent for it. -/
structure SpeedLimited (dx dy : ℚ) (rotation : Quaternion) : Prop where
  moves : ∀ a : Actor,
    a.position.distSq (a.updateMovement dx dy rotation).position ≤ motionLimit
  sends : ∀ (i : ℕ) (pPacket : View) (σ : Server),
    floatAt pPacket (packetHeaderLength + 8) = dx →
    floatAt pPacket (packetHeaderLength + 12) = dy →
    quaternionAt pPacket (packetHeaderLength + 16) = rotation →
    ∃ packets, (PacketManager.processPlayerMovement i pPacket σ).sent = σ.sent ++ packets ∧
      ∀ p ∈ packets, ∃ uuid motion, p.2 = .updatePlayerMovement uuid rotation motion ∧
        motion.normSq ≤ motionLimit

/-- An actor moves by the motion. -/
lemma distSq_updateMovement (a : Actor) :
    a.position.distSq (a.updateMovement dx dy rotation).position =
      (Actor.movement dx dy rotation).normSq := by
  simp only [Vector3.distSq, Actor.updateMovement, vector3Addition, Vector3.normSq, Vector3.dot]
  ring

/-- The motion is what is sent. -/
lemma sent_processPlayerMovement (i : ℕ) (pPacket : View) (σ : Server)
    (hdx : floatAt pPacket (packetHeaderLength + 8) = dx)
    (hdy : floatAt pPacket (packetHeaderLength + 12) = dy)
    (hrotation : quaternionAt pPacket (packetHeaderLength + 16) = rotation) :
    ∃ packets, (PacketManager.processPlayerMovement i pPacket σ).sent = σ.sent ++ packets ∧
      ∀ p ∈ packets, ∃ uuid, p.2 = .updatePlayerMovement uuid rotation
        (Actor.movement dx dy rotation) := by
  rw [PacketManager.processPlayerMovement]
  simp only [hdx, hdy, hrotation]
  split
  · exact ⟨[], by simp⟩
  · cases RoomManager.getRoomByNumber (σ.mUserObjPool i).mRoomIndex with
    | none => exact ⟨[], by simp⟩
    | some r =>
        refine ⟨_, rfl, fun p hp => ?_⟩
        obtain ⟨u, -, rfl⟩ := List.mem_map.mp hp
        exact ⟨_, rfl⟩

/-- **The speed limit** holds for the packets whose rotated input is not longer than full input on
both axes. -/
theorem speedLimited_iff (dx dy : ℚ) (rotation : Quaternion) :
    SpeedLimited dx dy rotation ↔ rotatedNormSq dx dy rotation ≤ 2 := by
  have hspeed : (0 : ℚ) < (20 * fixedDeltaTime) ^ 2 := by norm_num [fixedDeltaTime]
  have hlimit : (Actor.movement dx dy rotation).normSq ≤ motionLimit ↔
      rotatedNormSq dx dy rotation ≤ 2 := by
    rw [normSq_movement, motionLimit, mul_comm (2 : ℚ)]
    exact mul_le_mul_iff_right₀ hspeed
  rw [← hlimit]
  constructor
  · intro h
    rw [← distSq_updateMovement ({} : Actor)]
    exact h.moves _
  · refine fun h => ⟨fun a => ?_, fun i pPacket σ hdx hdy hrotation => ?_⟩
    · rw [distSq_updateMovement]
      exact h
    · obtain ⟨packets, hsent, hpackets⟩ := sent_processPlayerMovement i pPacket σ hdx hdy hrotation
      refine ⟨packets, hsent, fun p hp => ?_⟩
      obtain ⟨uuid, huuid⟩ := hpackets p hp
      exact ⟨uuid, _, huuid, h⟩

/-- Without a rotation, -10 to the right is ten times as far as 1; and a quaternion of norm ten
makes a full input hundreds of times as long. -/
theorem not_speedLimited :
    ¬SpeedLimited (-10) 0 ⟨0, 0, 0, 1⟩ ∧ ¬SpeedLimited 1 0 ⟨0, 10, 0, 0⟩ := by
  refine ⟨fun h => ?_, fun h => ?_⟩ <;>
  · have hmoves := h.moves {}
    norm_num [Vector3.distSq, Actor.updateMovement, Actor.movement, vector3Addition,
      vector3Multiply, quaternionMultiply, vector3Right, vector3Forward, fixedDeltaTime,
      motionLimit] at hmoves

end Motion

end CKGameServer
