import Mathlib.Algebra.GroupWithZero.Nat
import Mathlib.Data.List.Perm.Subperm
import Mathlib.Data.List.GetD
import Mathlib.Data.List.Nodup
import Mathlib.Logic.Function.Basic
/-!
# Reordering by a table

A table of `n` positions is a permutation of `0 .. n-1` when each of these occurs
in it. `mask` computes the set of entries as a number, so that this is checked by
evaluation. `scatter` writes items to the positions of a table, one by one; where
no position repeats, each item is found where it was written.
-/

namespace AudioRecorder.Reorder

/-- The entries of a table as the bits of a number. -/
def mask (tab : List Nat) : Nat := tab.foldr (fun x m => m ||| 1 <<< x) 0

theorem testBit_mask (tab : List Nat) (p : Nat) : (mask tab).testBit p = true ↔ p ∈ tab := by
  induction tab with
  | nil => simp [mask]
  | cons x tab ih =>
    rw [mask, List.foldr_cons, ← mask, Nat.testBit_or, Bool.or_eq_true, ih, Nat.one_shiftLeft, Nat.testBit_two_pow,
      decide_eq_true_eq, List.mem_cons, or_comm, eq_comm]

/-- A table of `n` entries whose set is `0 .. n-1` is a permutation. -/
theorem perm_of_mask {tab : List Nat} {n : Nat} (hl : tab.length = n) (hm : mask tab = 2 ^ n - 1) :
    tab.Perm (List.range n) := by
  have hsub : List.range n ⊆ tab := fun p hp => by
    rw [← testBit_mask, hm, Nat.testBit_two_pow_sub_one, decide_eq_true_eq]
    exact List.mem_range.1 hp
  exact ((List.nodup_range.subperm hsub).perm_of_length_le (by simp [hl])).symm

variable {α : Type} {tgt : Nat → Nat} {val : Nat → α}

/-- Write item `i` to position `tgt i`, for `i` from `n - 1` down to 0. -/
def scatter (tgt : Nat → Nat) (val : Nat → α) : Nat → (Nat → α) → Nat → α
  | 0, buf => buf
  | n + 1, buf => scatter tgt val n (Function.update buf (tgt n) (val n))

theorem scatter_other {n p : Nat} (h : ∀ i < n, tgt i ≠ p) (buf : Nat → α) : scatter tgt val n buf p = buf p := by
  induction n generalizing buf with
  | zero => rfl
  | succ n ih =>
    rw [scatter, ih fun i hi => h i (by omega), Function.update_of_ne (h n (by omega)).symm]

theorem scatter_at {n i : Nat} (hinj : ∀ i < n, ∀ j < n, tgt i = tgt j → i = j) (hi : i < n) (buf : Nat → α) :
    scatter tgt val n buf (tgt i) = val i := by
  induction n generalizing buf with
  | zero => omega
  | succ n ih =>
    rw [scatter]
    rcases Nat.lt_succ_iff_lt_or_eq.1 hi with h | rfl
    · exact ih (fun i hi j hj => hinj i (by omega) j (by omega)) h _
    · rw [scatter_other fun k hk he => by have := hinj k (by omega) i (by omega) he; omega, Function.update_self]

/-- A permutation table has each position once. -/
theorem getD_inj {tab : List Nat} {n : Nat} (h : tab.Perm (List.range n)) {i j : Nat} (hi : i < n) (hj : j < n)
    (he : tab.getD i 0 = tab.getD j 0) : i = j := by
  have hl : tab.length = n := by rw [h.length_eq, List.length_range]
  exact (List.getD_inj (by omega) (by omega) (h.nodup_iff.2 List.nodup_range)).1 he

theorem exists_getD {tab : List Nat} {n : Nat} (h : tab.Perm (List.range n)) {p : Nat} (hp : p < n) :
    ∃ i < n, tab.getD i 0 = p := by
  have hl : tab.length = n := by rw [h.length_eq, List.length_range]
  obtain ⟨i, hi, he⟩ := List.getElem_of_mem (h.mem_iff.2 (List.mem_range.2 hp))
  exact ⟨i, by omega, by rw [List.getD_eq_getElem _ _ hi, he]⟩

theorem getD_lt {tab : List Nat} {n : Nat} (h : tab.Perm (List.range n)) {i : Nat} (hi : i < n) : tab.getD i 0 < n := by
  have hl : tab.length = n := by rw [h.length_eq, List.length_range]
  rw [List.getD_eq_getElem _ _ (by omega)]
  exact List.mem_range.1 (h.mem_iff.1 (List.getElem_mem _))

end AudioRecorder.Reorder
