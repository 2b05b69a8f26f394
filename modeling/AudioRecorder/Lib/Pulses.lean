import Mathlib.Algebra.BigOperators.Group.List.Basic
import Mathlib.Order.Lattice
/-!
# Sparse vectors built pulse by pulse

A vector with few nonzero entries is built from pulses, a position and a value each,
either by storing (`put`) or by adding (`add`). Neither depends on the order in which
the pulses come: a stored vector when the value of a pulse is a function of its
position (`put_congr`), a sum always (`add_perm`).

Two pulses of one size and their two signs fit two positions and one sign, since two
positions have an order to spare: `pairCode` and `pairPulses`.
-/

namespace AudioRecorder.Pulses
variable {ι α β κ σ : Type}

/-! ## Vectors -/

section Vectors
variable [DecidableEq ι]

def put (ps : List (ι × α)) (c : ι → α) : ι → α := ps.foldl (fun c q => Function.update c q.1 q.2) c

def add [Add α] (ps : List (ι × α)) (c : ι → α) : ι → α :=
  ps.foldl (fun c q => Function.update c q.1 (c q.1 + q.2)) c

theorem put_apply {v : ι → α} {ps : List (ι × α)} (h : ∀ q ∈ ps, q.2 = v q.1) (c : ι → α) (p : ι) :
    put ps c p = if p ∈ ps.map Prod.fst then v p else c p := by
  induction ps generalizing c with
  | nil => simp [put]
  | cons q ps ih =>
    have hq := h q List.mem_cons_self
    have htail : put (q :: ps) c = put ps (Function.update c q.1 q.2) := rfl
    rw [htail, ih fun r hr => h r (List.mem_cons_of_mem _ hr)]
    by_cases hp : p = q.1
    · subst hp
      simp [hq]
    · rw [Function.update_of_ne hp]
      simp only [List.map_cons, List.mem_cons, hp, false_or]

/-- Pulses at the same positions, of the values that belong there, give the same vector. -/
theorem put_congr {v : ι → α} {ps ps' : List (ι × α)} (h : ∀ q ∈ ps, q.2 = v q.1) (h' : ∀ q ∈ ps', q.2 = v q.1)
    (hmem : ∀ p, p ∈ ps.map Prod.fst ↔ p ∈ ps'.map Prod.fst) (c : ι → α) : put ps c = put ps' c := by
  funext p
  rw [put_apply h, put_apply h']
  simp only [hmem p]

theorem add_apply [AddCommMonoid α] (ps : List (ι × α)) (c : ι → α) (p : ι) :
    add ps c p = c p + (ps.map fun q => if q.1 = p then q.2 else 0).sum := by
  induction ps generalizing c with
  | nil => simp [add]
  | cons q ps ih =>
    have htail : add (q :: ps) c = add ps (Function.update c q.1 (c q.1 + q.2)) := rfl
    rw [htail, ih, List.map_cons, List.sum_cons, ← add_assoc]
    by_cases hp : q.1 = p
    · subst hp
      simp
    · rw [Function.update_of_ne (Ne.symm hp), if_neg hp, add_zero]

theorem add_perm [AddCommMonoid α] {ps ps' : List (ι × α)} (h : ps.Perm ps') (c : ι → α) : add ps c = add ps' c := by
  funext p
  rw [add_apply, add_apply, (h.map _).sum_eq]

/-- A pulse is seen at its own position alone, so those of other keys may be left out. -/
theorem add_filter [AddCommMonoid α] [DecidableEq κ] (key : ι → κ) (ps : List (ι × α)) (c : ι → α) (p : ι) :
    add ps c p = add (ps.filter fun q => key q.1 = key p) c p := by
  induction ps generalizing c with
  | nil => rfl
  | cons q ps ih =>
    have htail : add (q :: ps) c = add ps (Function.update c q.1 (c q.1 + q.2)) := rfl
    by_cases hk : key q.1 = key p
    · rw [List.filter_cons_of_pos (by simpa using hk), htail, ih]
      rfl
    · have hp : p ≠ q.1 := fun hp => hk (hp ▸ rfl)
      rw [List.filter_cons_of_neg (by simpa using hk), htail, ih, add_apply, add_apply, Function.update_of_ne hp]

end Vectors

/-! ## Cells by key -/

/-- Where every item changes the cell of its key alone, a cell is made by the items of its key. -/
theorem foldl_at [DecidableEq κ] (key : α → κ) (f : σ → α → σ) (xs : List α) (s : κ → σ) (k : κ) :
    xs.foldl (fun s x => Function.update s (key x) (f (s (key x)) x)) s k =
      (xs.filter fun x => key x = k).foldl f (s k) := by
  induction xs generalizing s with
  | nil => rfl
  | cons x xs ih =>
    rw [List.foldl_cons, ih, List.filter_cons]
    by_cases hk : key x = k
    · subst hk
      simp
    · simp [hk, Function.update_of_ne (Ne.symm hk)]

/-- Where a pass for key `k` reads and writes only the positions of that key, what a loop
over different keys leaves at a position is what the pass for its key makes of the start. -/
theorem foldl_keys (key : ι → κ) {f : (ι → α) → κ → ι → α} {ks : List κ} (hks : ks.Nodup)
    (hframe : ∀ k ∈ ks, ∀ c p, key p ≠ k → f c k p = c p)
    (hreads : ∀ k ∈ ks, ∀ c c', (∀ p, key p = k → c p = c' p) → ∀ p, key p = k → f c k p = f c' k p)
    (c : ι → α) {p : ι} (hp : key p ∈ ks) : ks.foldl f c p = f c (key p) p := by
  have hother : ∀ (ks : List κ) (c : ι → α), (∀ k ∈ ks, ∀ c p, key p ≠ k → f c k p = c p) → key p ∉ ks →
      ks.foldl f c p = c p := by
    intro ks
    induction ks with
    | nil => intros; rfl
    | cons k ks ih =>
      intro c hframe hp
      rw [List.mem_cons, not_or] at hp
      rw [List.foldl_cons, ih _ (fun k hk => hframe k (List.mem_cons_of_mem _ hk)) hp.2,
        hframe k List.mem_cons_self c p hp.1]
  induction ks generalizing c with
  | nil => exact absurd hp List.not_mem_nil
  | cons k ks ih =>
    obtain ⟨hk, hks⟩ := List.nodup_cons.1 hks
    rw [List.foldl_cons]
    rcases List.mem_cons.1 hp with rfl | hp
    · exact hother ks _ (fun k hk => hframe k (List.mem_cons_of_mem _ hk)) hk
    · have hne : key p ≠ k := fun he => hk (he ▸ hp)
      rw [ih hks (fun k hk => hframe k (List.mem_cons_of_mem _ hk)) (fun k hk => hreads k (List.mem_cons_of_mem _ hk)) _ hp]
      exact hreads _ (List.mem_cons_of_mem _ hp) _ _ (fun r hr => hframe k List.mem_cons_self c r (hr.trans_ne hne)) p rfl

/-! ## Two signs in one -/

section Pairs
variable [LinearOrder ι]

/-- Two pulses as a position, its sign, and the other position: in order when the signs
agree, against it when they do not. -/
def pairCode (p q : ι × Bool) : ι × Bool × ι :=
  if p.2 = q.2 then if p.1 ≤ q.1 then (p.1, p.2, q.1) else (q.1, q.2, p.1)
  else if p.1 ≤ q.1 then (q.1, q.2, p.1) else (p.1, p.2, q.1)

def pairPulses (c : ι × Bool × ι) : List (ι × Bool) := [(c.1, c.2.1), (c.2.2, if c.2.2 < c.1 then !c.2.1 else c.2.1)]

/-- Pulses in one place must have one sign. -/
theorem pairPulses_pairCode {p q : ι × Bool} (h : p.1 = q.1 → p.2 = q.2) : (pairPulses (pairCode p q)).Perm [p, q] := by
  obtain ⟨p, s⟩ := p
  obtain ⟨q, t⟩ := q
  dsimp only at h
  unfold pairCode pairPulses
  dsimp only
  split
  · rename_i hst
    subst hst
    split
    · rename_i hle
      simp [not_lt.2 hle]
    · rename_i hle
      rw [if_neg (lt_asymm (not_le.1 hle))]
      exact List.Perm.swap _ _ _
  · rename_i hst
    have hne : p ≠ q := fun he => hst (h he)
    have hnot : (!t) = s := by cases s <;> cases t <;> simp_all
    have hnot' : (!s) = t := by cases s <;> cases t <;> simp_all
    split
    · rename_i hle
      rw [if_pos (lt_of_le_of_ne hle hne), hnot]
      exact List.Perm.swap _ _ _
    · rename_i hle
      simp [not_le.1 hle, hnot']

end Pairs

end AudioRecorder.Pulses
