import Mathlib.Data.Nat.Init
/-!
# Bits packed into bytes, the first bit highest

Bits arrive one to a word, and are packed eight to a byte from the highest bit
down; a last byte that is not full is padded with zeros. A buffer is a function
from positions, so that what a loop leaves unwritten stays what it was.
-/

namespace AudioRecorder.BitPack

/-- A word that holds one bit. -/
def IsBit (w : BitVec 16) : Prop := w = 0 ∨ w = 1

theorem isBit_and_one (w : BitVec 16) : IsBit (w &&& 1) := by
  have h : (w &&& 1).toNat ≤ 1 := by
    rw [BitVec.toNat_and]
    exact Nat.and_le_right
  rcases Nat.le_one_iff_eq_zero_or_eq_one.1 h with h | h
  · exact .inl (BitVec.eq_of_toNat_eq h)
  · exact .inr (BitVec.eq_of_toNat_eq h)

instance (w : BitVec 16) : Decidable (IsBit w) := inferInstanceAs (Decidable (w = 0 ∨ w = 1))

/-- A bit word shifted into place `7 - k` of a byte sets that bit and no other. -/
theorem getLsbD_place {w : BitVec 16} (h : IsBit w) {k m : Nat} (hk : k < 8) :
    (w.setWidth 8 <<< (7 - k)).getLsbD m = (decide (m = 7 - k) && w.getLsbD 0) := by
  rcases h with rfl | rfl
  · simp
  · by_cases hm : m = 7 - k
    · subst hm; simp; omega
    · rw [decide_eq_false hm, Bool.false_and, BitVec.getLsbD_shiftLeft]
      rcases Nat.lt_or_ge m (7 - k) with hlt | hge
      · simp [hlt]
      · have h0 : m - (7 - k) ≠ 0 := by omega
        simp [BitVec.getLsbD_one, h0]

/-- The bytes left by or-ing the first `n` bits into place, from the highest down. -/
def packBits (w : Nat → BitVec 16) : Nat → BitVec 8
  | 0 => 0
  | n + 1 => packBits w n ||| ((w n).setWidth 8 <<< (7 - n))

theorem packBits_congr {w w' : Nat → BitVec 16} {n : Nat} (h : ∀ k < n, w k = w' k) : packBits w n = packBits w' n := by
  induction n with
  | zero => rfl
  | succ n ih => rw [packBits, packBits, ih fun k hk => h k (by omega), h n (by omega)]

theorem getLsbD_packBits {w : Nat → BitVec 16} {n : Nat} (hn : n ≤ 8) (hw : ∀ k < n, IsBit (w k)) (m : Nat) :
    (packBits w n).getLsbD m = (decide (m < 8 ∧ 7 - m < n) && (w (7 - m)).getLsbD 0) := by
  induction n with
  | zero => simp [packBits]
  | succ n ih =>
    rw [packBits, BitVec.getLsbD_or, ih (by omega) (fun k hk => hw k (by omega)), getLsbD_place (hw n (by omega)) (by omega)]
    by_cases hm : m = 7 - n
    · have h7 : 7 - m = n := by omega
      rw [h7]
      simp [hm]; omega
    · have hlt : (m < 8 ∧ 7 - m < n) ↔ (m < 8 ∧ 7 - m < n + 1) := by omega
      rw [decide_eq_false hm, Bool.false_and, Bool.or_false, decide_eq_decide.2 hlt]

/-- Bit `k` of a byte, counted from the highest, as a word. -/
def readBit (x : BitVec 8) (k : Nat) : BitVec 16 := ((x >>> (7 - k)) &&& 1).setWidth 16

/-- Reading back a packed bit. -/
theorem readBit_packBits {w : Nat → BitVec 16} {n k : Nat} (hn : n ≤ 8) (hw : ∀ k < n, IsBit (w k)) (hk : k < n) :
    readBit (packBits w n) k = w k := by
  have hbit : (packBits w n).getLsbD (7 - k) = (w k).getLsbD 0 := by
    rw [getLsbD_packBits hn hw, show 7 - (7 - k) = k by omega, decide_eq_true (by omega), Bool.true_and]
  apply BitVec.eq_of_getLsbD_eq
  intro i hi
  rw [readBit, BitVec.getLsbD_setWidth, BitVec.getLsbD_and, BitVec.getLsbD_ushiftRight]
  by_cases h0 : i = 0
  · subst h0
    simp [hbit]
  · rcases hw k hk with h | h <;> simp [h, h0, BitVec.getLsbD_one]

/-! ## Buffers of packed bits -/

/-- Positions `lo` on hold the `n` bits `w`, eight to a byte. -/
def Packed (out : Nat → BitVec 8) (lo : Nat) (w : Nat → BitVec 16) (n : Nat) : Prop :=
  ∀ j, 8 * j < n → out (lo + j) = packBits (fun k => w (8 * j + k)) (min 8 (n - 8 * j))

theorem Packed.readBit {out : Nat → BitVec 8} {lo n : Nat} {w : Nat → BitVec 16} (h : Packed out lo w n)
    (hw : ∀ i < n, IsBit (w i)) {i : Nat} (hi : i < n) : readBit (out (lo + i / 8)) (i % 8) = w i := by
  have hdiv := Nat.div_add_mod i 8
  have hmod := Nat.mod_lt i (show 8 > 0 by decide)
  rw [h (i / 8) (by omega), readBit_packBits (Nat.min_le_left _ _) (fun k hk => hw _ (by omega)) (by omega), hdiv]

end AudioRecorder.BitPack
