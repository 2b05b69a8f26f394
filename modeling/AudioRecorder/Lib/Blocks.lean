import Mathlib.Data.List.Basic
import Mathlib.Algebra.Order.BigOperators.Group.List
import Mathlib.Algebra.Order.Group.Nat
import Mathlib.Data.List.Flatten
import Mathlib.Logic.Nontrivial.Defs
import Mathlib.Tactic.Ring
/-!
# Cutting a stream into blocks

`blocks k l` are the consecutive full `k`-element blocks of `l`; an incomplete
block at the end is dropped. A stream that arrives in chunks can be cut chunk by
chunk or as a whole. `flatMap_blocks_iff` says exactly for which chunk lengths
the two agree on every stream: each chunk but a trailing stretch shorter than
one block must be a whole number of blocks.
-/

namespace AudioRecorder.Blocks
variable {α : Type}

/-- The first `n` blocks of `k` elements. -/
def takeBlocks (k : Nat) : Nat → List α → List (List α)
  | 0, _ => []
  | n + 1, l => l.take k :: takeBlocks k n (l.drop k)

/-- The consecutive full `k`-element blocks of `l`. -/
def blocks (k : Nat) (l : List α) : List (List α) := takeBlocks k (l.length / k) l

theorem takeBlocks_length (k n : Nat) (l : List α) : (takeBlocks k n l).length = n := by
  induction n generalizing l with
  | zero => rfl
  | succ n ih => simp [takeBlocks, ih]

@[simp] theorem blocks_length (k : Nat) (l : List α) : (blocks k l).length = l.length / k :=
  takeBlocks_length k _ l

/-- Every block is full. -/
theorem takeBlocks_full {k n : Nat} {l : List α} (h : n * k ≤ l.length) : ∀ x ∈ takeBlocks k n l, x.length = k := by
  induction n generalizing l with
  | zero => simp [takeBlocks]
  | succ n ih =>
    rw [Nat.succ_mul] at h
    intro x hx
    rcases List.mem_cons.1 hx with rfl | hx
    · simp; omega
    · exact ih (by simp; omega) x hx

theorem blocks_full {k : Nat} {l : List α} : ∀ x ∈ blocks k l, x.length = k :=
  takeBlocks_full (Nat.div_mul_le_self _ _)

theorem takeBlocks_append (k n : Nat) (l m : List α) (h : n * k ≤ l.length) :
    takeBlocks k n (l ++ m) = takeBlocks k n l := by
  induction n generalizing l with
  | zero => rfl
  | succ n ih =>
    rw [Nat.succ_mul] at h
    simp only [takeBlocks]
    rw [List.take_append_of_le_length (by omega), List.drop_append_of_le_length (by omega), ih _ (by simp; omega)]

theorem takeBlocks_add (k m n : Nat) (l : List α) :
    takeBlocks k (m + n) l = takeBlocks k m l ++ takeBlocks k n (l.drop (m * k)) := by
  induction m generalizing l with
  | zero => simp [takeBlocks]
  | succ m ih =>
    rw [show m + 1 + n = m + n + 1 by ring]
    simp only [takeBlocks, ih, List.cons_append, List.drop_drop]
    rw [show (m + 1) * k = k + m * k by ring]

/-- Blocks only hold elements of the list. -/
theorem mem_of_mem_blocks {k : Nat} {l x : List α} (hx : x ∈ blocks k l) {y : α} (hy : y ∈ x) : y ∈ l := by
  unfold blocks at hx
  generalize l.length / k = n at hx
  induction n generalizing l with
  | zero => cases hx
  | succ n ih =>
    rcases List.mem_cons.1 hx with rfl | hx
    · exact List.mem_of_mem_take hy
    · exact List.mem_of_mem_drop (ih hx)

/-- A list with at least one full block starts with it. -/
theorem blocks_cons {k : Nat} (hk : 0 < k) {l : List α} (h : k ≤ l.length) :
    blocks k l = l.take k :: blocks k (l.drop k) := by
  have hq : l.length / k = (l.drop k).length / k + 1 := by
    rw [List.length_drop, ← Nat.add_div_right _ hk, Nat.sub_add_cancel h]
  rw [blocks, hq]; rfl

@[simp] theorem blocks_nil (k : Nat) : blocks k ([] : List α) = [] := by simp [blocks, takeBlocks]

theorem blocks_short {k : Nat} {l : List α} (h : l.length < k) : blocks k l = [] := by
  rw [blocks, Nat.div_eq_of_lt h]; rfl

/-- A whole number of blocks in front is cut off on its own. -/
theorem blocks_append_of_dvd {k : Nat} (hk : 0 < k) {l m : List α} (h : k ∣ l.length) :
    blocks k (l ++ m) = blocks k l ++ blocks k m := by
  obtain ⟨c, hc⟩ := h
  have hq : l.length / k = c := by rw [hc, Nat.mul_div_cancel_left _ hk]
  have hqm : (l ++ m).length / k = c + m.length / k := by
    rw [List.length_append, hc, Nat.mul_add_div hk]
  have hdrop : (l ++ m).drop (c * k) = m := List.drop_left' (by rw [hc, Nat.mul_comm])
  rw [blocks, hqm, takeBlocks_add, hdrop, takeBlocks_append _ _ _ _ (by rw [hc, Nat.mul_comm]), blocks, hq, blocks]

/-- A tail that completes no further block adds none. -/
theorem blocks_append_short {k : Nat} {l m : List α} (h : l.length % k + m.length < k) :
    blocks k (l ++ m) = blocks k l := by
  have hq : (l ++ m).length / k = l.length / k := by
    conv_lhs => rw [List.length_append, ← Nat.div_add_mod l.length k, Nat.add_assoc,
      Nat.mul_add_div (by omega), Nat.div_eq_of_lt h, Nat.add_zero]
  rw [blocks, hq, takeBlocks_append _ _ _ _ (Nat.div_mul_le_self _ _), blocks]

/-! ## Chunk by chunk -/

/-- Chunk lengths for which cutting chunk by chunk loses nothing: every chunk is
a whole number of blocks, up to a trailing stretch that completes no block. -/
def Aligned (k : Nat) : List Nat → Prop
  | [] => True
  | n :: ns => (k ∣ n ∧ Aligned k ns) ∨ n % k + ns.sum < k

instance decidableAligned (k : Nat) : (ns : List Nat) → Decidable (Aligned k ns)
  | [] => isTrue trivial
  | n :: ns =>
    have := decidableAligned k ns
    inferInstanceAs (Decidable ((k ∣ n ∧ Aligned k ns) ∨ n % k + ns.sum < k))

theorem flatMap_blocks_short {k : Nat} {cs : List (List α)} (h : (cs.map List.length).sum < k) :
    cs.flatMap (blocks k) = [] := by
  rw [List.flatMap_eq_nil_iff]
  intro c hc
  have := List.le_sum_of_mem (List.mem_map_of_mem (f := List.length) hc)
  exact blocks_short (by omega)

theorem flatMap_blocks_of_aligned {k : Nat} (hk : 0 < k) (cs : List (List α)) (h : Aligned k (cs.map List.length)) :
    cs.flatMap (blocks k) = blocks k cs.flatten := by
  induction cs with
  | nil => simp
  | cons c cs ih =>
    simp only [List.flatMap_cons, List.flatten_cons]
    rcases h with ⟨hd, ha⟩ | hs
    · rw [blocks_append_of_dvd hk hd, ih ha]
    · rw [flatMap_blocks_short (by omega), List.append_nil, blocks_append_short (by rwa [List.length_flatten])]

/-- A misaligned chunk loses the samples after its last full block although a
later chunk completes their block. -/
theorem lost_of_not_aligned {k : Nat} (hk : 0 < k) {a b : α} (hab : a ≠ b) (ns : List Nat) (h : ¬ Aligned k ns) :
    ∃ cs : List (List α), cs.map List.length = ns ∧ cs.flatMap (blocks k) ≠ blocks k cs.flatten := by
  induction ns with
  | nil => exact absurd trivial h
  | cons n ns ih =>
    obtain ⟨h1, h2⟩ := not_or.1 h
    by_cases hd : k ∣ n
    · obtain ⟨cs, hcs, hne⟩ := ih (fun ha => h1 ⟨hd, ha⟩)
      refine ⟨List.replicate n a :: cs, by simp [hcs], fun he => hne ?_⟩
      rw [List.flatMap_cons, List.flatten_cons, blocks_append_of_dvd hk (by simpa using hd)] at he
      exact List.append_cancel_left he
    · -- The samples the first chunk drops are `b`, all others `a`: a block with a `b` only exists in the whole stream.
      have hn : n / k * k + n % k = n := by rw [Nat.mul_comm]; exact Nat.div_add_mod n k
      have hr : 0 < n % k := Nat.pos_of_ne_zero (fun h0 => hd (Nat.dvd_of_mod_eq_zero h0))
      have hrk : n % k < k := Nat.mod_lt _ hk
      let whole := List.replicate (n / k * k) a
      let tail := List.replicate (n % k) b
      let rest := ns.map fun m => List.replicate m a
      have hw : k ∣ whole.length := by simp [whole]
      have hrest : rest.map List.length = ns := by simp [rest, Function.comp_def]
      refine ⟨(whole ++ tail) :: rest, by simp [whole, tail, hn, hrest], fun he => ?_⟩
      have hcut : ∀ x ∈ ((whole ++ tail) :: rest).flatMap (blocks k), b ∉ x := by
        intro x hx hbx
        rw [List.flatMap_cons, blocks_append_short (by rw [Nat.mod_eq_zero_of_dvd hw]; simpa [tail])] at hx
        rcases List.mem_append.1 hx with hx | hx
        · exact hab (List.eq_of_mem_replicate (mem_of_mem_blocks hx hbx)).symm
        · obtain ⟨c, hc, hx⟩ := List.mem_flatMap.1 hx
          obtain ⟨m, -, rfl⟩ := List.mem_map.1 hc
          exact hab (List.eq_of_mem_replicate (mem_of_mem_blocks hx hbx)).symm
      have hlen : k ≤ (tail ++ rest.flatten).length := by
        rw [List.length_append, List.length_flatten, hrest]; simp only [tail, List.length_replicate]; omega
      rw [he, List.flatten_cons, List.append_assoc, blocks_append_of_dvd hk hw, blocks_cons hk hlen] at hcut
      apply hcut ((tail ++ rest.flatten).take k) (by simp)
      rw [List.take_append]
      exact List.mem_append_left _ (by simp [tail]; omega)

/-- Cutting chunk by chunk agrees with cutting the whole stream, on every stream
with these chunk lengths, exactly when the lengths are aligned. -/
theorem flatMap_blocks_iff [Nontrivial α] {k : Nat} (hk : 0 < k) (ns : List Nat) :
    (∀ cs : List (List α), cs.map List.length = ns → cs.flatMap (blocks k) = blocks k cs.flatten) ↔ Aligned k ns := by
  constructor
  · intro h
    by_contra hn
    obtain ⟨a, b, hab⟩ := exists_pair_ne α
    obtain ⟨cs, hcs, hne⟩ := lost_of_not_aligned hk hab ns hn
    exact hne (h cs hcs)
  · rintro h cs rfl
    exact flatMap_blocks_of_aligned hk cs h

end AudioRecorder.Blocks
