import Mathlib.Data.List.Basic
/-!
# Stateful functions of one item

`f : σ → α → σ × β` turns an item into a result and carries a state on. `final`
and `outputs` run it over a list. `kept` keeps the items at which a numbered
sequence of outcomes is true, the first item having number `n`: an item whose
step may fail, and then has no effect.
-/

namespace AudioRecorder.Transducer
variable {σ α β : Type} (f : σ → α → σ × β)

def final : σ → List α → σ
  | s, [] => s
  | s, x :: xs => final (f s x).1 xs

def outputs : σ → List α → List β
  | _, [] => []
  | s, x :: xs => (f s x).2 :: outputs (f s x).1 xs

theorem final_append (s : σ) (xs ys : List α) : final f s (xs ++ ys) = final f (final f s xs) ys := by
  induction xs generalizing s with
  | nil => rfl
  | cons x xs ih => simp [final, ih]

theorem outputs_append (s : σ) (xs ys : List α) :
    outputs f s (xs ++ ys) = outputs f s xs ++ outputs f (final f s xs) ys := by
  induction xs generalizing s with
  | nil => rfl
  | cons x xs ih => simp [outputs, final, ih]

@[simp] theorem outputs_length (s : σ) (xs : List α) : (outputs f s xs).length = xs.length := by
  induction xs generalizing s with
  | nil => rfl
  | cons x xs ih => simp [outputs, ih]

theorem outputs_map {γ : Type} (g : γ → α) (s : σ) (xs : List γ) :
    outputs f s (xs.map g) = outputs (fun s x => f s (g x)) s xs := by
  induction xs generalizing s with
  | nil => rfl
  | cons x xs ih => simp only [List.map_cons, outputs, ih]

/-- What holds of a result in every state that an invariant allows holds of all results. -/
theorem outputs_forall (I : σ → Prop) (P : β → Prop) (hf : ∀ s x, I s → I (f s x).1 ∧ P (f s x).2) {s : σ} (hs : I s)
    (xs : List α) : ∀ y ∈ outputs f s xs, P y := by
  induction xs generalizing s with
  | nil => simp [outputs]
  | cons x xs ih =>
    intro y hy
    rcases List.mem_cons.1 hy with rfl | hy
    · exact (hf s x hs).2
    · exact ih (hf s x hs).1 y hy

/-- What the items of a run keep holds at its end, and with it what they give. -/
theorem final_outputs_inv {I : σ → Prop} {P : β → Prop} {xs : List α}
    (hf : ∀ s, ∀ x ∈ xs, I s → I (f s x).1 ∧ P (f s x).2) {s : σ} (hs : I s) :
    I (final f s xs) ∧ ∀ y ∈ outputs f s xs, P y := by
  induction xs generalizing s with
  | nil => exact ⟨hs, by simp [outputs]⟩
  | cons x xs ih =>
    obtain ⟨hI, hP⟩ := hf s x List.mem_cons_self hs
    obtain ⟨hfinal, houts⟩ := ih (fun t y hy => hf t y (List.mem_cons_of_mem _ hy)) hI
    refine ⟨hfinal, fun y hy => ?_⟩
    rcases List.mem_cons.1 hy with rfl | hy
    · exact hP
    · exact houts y hy

/-! ## Items whose step succeeds -/

def kept (ok : Nat → Bool) : Nat → List α → List α
  | _, [] => []
  | n, x :: xs => if ok n then x :: kept ok (n + 1) xs else kept ok (n + 1) xs

variable {ok : Nat → Bool}

theorem kept_append (n : Nat) (xs ys : List α) :
    kept ok n (xs ++ ys) = kept ok n xs ++ kept ok (n + xs.length) ys := by
  induction xs generalizing n with
  | nil => rfl
  | cons x xs ih =>
    simp only [List.cons_append, kept, ih, List.length_cons, Nat.add_assoc, Nat.add_comm 1]
    split <;> rfl

theorem kept_sublist (ok : Nat → Bool) (n : Nat) (xs : List α) : (kept ok n xs).Sublist xs := by
  induction xs generalizing n with
  | nil => exact List.Sublist.refl _
  | cons x xs ih =>
    simp only [kept]
    split
    · exact (ih _).cons_cons x
    · exact (ih _).cons x

theorem kept_all (n : Nat) (xs : List α) (h : ∀ i < xs.length, ok (n + i) = true) : kept ok n xs = xs := by
  induction xs generalizing n with
  | nil => rfl
  | cons x xs ih =>
    have h0 : ok n = true := h 0 (by simp)
    rw [kept, if_pos h0, ih]
    intro i hi
    rw [Nat.add_assoc, Nat.add_comm 1]
    exact h (i + 1) (by simpa using hi)

/-- All items are kept exactly when every step succeeds. -/
theorem kept_length_iff (n : Nat) (xs : List α) :
    (kept ok n xs).length = xs.length ↔ ∀ i < xs.length, ok (n + i) = true := by
  refine ⟨?_, fun h => by rw [kept_all n xs h]⟩
  intro h
  induction xs generalizing n with
  | nil => simp
  | cons x xs ih =>
    have hle := (kept_sublist ok (n + 1) xs).length_le
    cases h0 : ok n with
    | false =>
      simp only [kept, h0, Bool.false_eq_true, if_false, List.length_cons] at h
      omega
    | true =>
      simp only [kept, h0, if_true, List.length_cons, Nat.add_right_cancel_iff] at h
      intro i hi
      cases i with
      | zero => simpa using h0
      | succ i =>
        have := ih (n + 1) h i (by simpa using hi)
        rwa [Nat.add_assoc, Nat.add_comm 1] at this

theorem kept_eq_nil (n : Nat) (xs : List α) : kept ok n xs = [] ↔ ∀ i < xs.length, ok (n + i) = false := by
  induction xs generalizing n with
  | nil => simp [kept]
  | cons x xs ih =>
    cases h0 : ok n with
    | true =>
      simp only [kept, h0, if_true, List.cons_ne_nil, false_iff]
      exact fun h => by have := h 0 (by simp); rw [Nat.add_zero, h0] at this; cases this
    | false =>
      simp only [kept, h0, Bool.false_eq_true, if_false, ih]
      constructor
      · intro h i hi
        cases i with
        | zero => exact h0
        | succ i =>
          have := h i (by simpa using hi)
          rwa [Nat.add_assoc, Nat.add_comm 1] at this
      · intro h i hi
        rw [Nat.add_assoc, Nat.add_comm 1]
        exact h (i + 1) (by simpa using hi)

end AudioRecorder.Transducer
