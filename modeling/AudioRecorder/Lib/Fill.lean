import Mathlib.Logic.Function.Basic
/-!
# Programs that fill a buffer

A program reads and writes one buffer and returns a value. `Fills n m p` says
that `p`, run on a buffer whose positions below `n` are given, determines the
positions below `m` and its result: whatever else the buffer held is never read.
It also leaves the positions from `m` on alone. Each operation has its rule, and
`Fills.bind` and `Fills.loop` put them together.
-/

namespace AudioRecorder.Fill

variable {α β γ σ : Type}

/-- A program over a buffer of `α` that returns a `β`. -/
def Prog (α β : Type) : Type := (Nat → α) → β × (Nat → α)

instance : Monad (Prog α) where
  pure a := fun b => (a, b)
  bind p f := fun b => f (p b).1 (p b).2

def read (i : Nat) : Prog α α := fun b => (b i, b)

def write (i : Nat) (a : α) : Prog α Unit := fun b => ((), Function.update b i a)

/-- The `c` items from position `i` on. -/
def window (i c : Nat) : Prog α (List α) := fun b => ((List.range c).map fun k => b (i + k), b)

/-- `for (i = 0; i < c; i++) s = f(i, s);` -/
def loop (f : Nat → σ → Prog α σ) : Nat → σ → Prog α σ
  | 0, s => pure s
  | c + 1, s => do
    let s ← loop f c s
    f c s

@[simp] theorem pure_apply (a : β) (b : Nat → α) : (pure a : Prog α β) b = (a, b) := rfl

@[simp] theorem bind_apply (p : Prog α β) (f : β → Prog α γ) (b : Nat → α) : (p >>= f) b = f (p b).1 (p b).2 := rfl

@[simp] theorem window_apply (i c : Nat) (b : Nat → α) : window i c b = ((List.range c).map fun k => b (i + k), b) := rfl

/-- Two loops whose bodies agree are the same program. -/
theorem loop_congr {f g : Nat → σ → Prog α σ} {c : Nat} (h : ∀ i < c, ∀ s, f i s = g i s) (s : σ) :
    loop f c s = loop g c s := by
  induction c with
  | zero => rfl
  | succ c ih =>
    unfold loop
    rw [ih fun i hi => h i (by omega)]
    congr 1
    funext s
    exact h c (by omega) s

/-- The buffers agree below `n`. -/
def Agree (n : Nat) (b b' : Nat → α) : Prop := ∀ i < n, b i = b' i

theorem Agree.mono {n m : Nat} {b b' : Nat → α} (h : Agree m b b') (hn : n ≤ m) : Agree n b b' := by
  intro i hi
  exact h i (by omega)

/-- `p` needs the positions below `n` only, determines those below `m`, and keeps the others. -/
structure Fills (n m : Nat) (p : Prog α β) : Prop where
  le : n ≤ m
  det : ∀ b b', Agree n b b' → (p b).1 = (p b').1 ∧ Agree m (p b).2 (p b').2
  keeps : ∀ b, ∀ i ≥ m, (p b).2 i = b i

namespace Fills

variable {n m k : Nat} {p : Prog α β} {f : β → Prog α γ}

theorem pure (a : β) : Fills n n (Pure.pure a : Prog α β) where
  le := Nat.le_refl n
  det _ _ h := ⟨rfl, h⟩
  keeps _ _ _ := rfl

theorem bind [Inhabited α] (hp : Fills n m p) (hf : ∀ a, Fills m k (f a)) : Fills n k (p >>= f) where
  le := Nat.le_trans hp.le (hf (p fun _ => default).1).le
  det b b' h := by
    obtain ⟨hv, hb⟩ := hp.det b b' h
    rw [bind_apply, bind_apply, hv]
    exact (hf _).det _ _ hb
  keeps b i hi := by
    have hm := (hf (p b).1).le
    rw [bind_apply, (hf _).keeps _ i hi, hp.keeps b i (by omega)]

theorem read {i : Nat} (h : i < n) : Fills n n (Fill.read i : Prog α α) where
  le := Nat.le_refl n
  det _ _ hb := ⟨hb i h, hb⟩
  keeps _ _ _ := rfl

/-- A write at `n` adds the position. -/
theorem write (n : Nat) (a : α) : Fills n (n + 1) (Fill.write n a) where
  le := by omega
  det b b' h := by
    refine ⟨rfl, fun i hi => ?_⟩
    show Function.update b n a i = Function.update b' n a i
    by_cases hn : i = n
    · rw [hn, Function.update_self, Function.update_self]
    · rw [Function.update_of_ne hn, Function.update_of_ne hn, h i (by omega)]
  keeps b i hi := by
    have hn : i ≠ n := by omega
    exact Function.update_of_ne hn a b

theorem window {i c : Nat} (h : i + c ≤ n) : Fills n n (Fill.window i c : Prog α (List α)) where
  le := Nat.le_refl n
  det b b' hb := by
    refine ⟨?_, hb⟩
    rw [window_apply, window_apply]
    refine List.map_congr_left fun k hk => hb _ ?_
    have := List.mem_range.1 hk
    omega
  keeps _ _ _ := rfl

/-- A program that fills up to `m` may be run on a buffer given up to `k` already. -/
theorem widen (hp : Fills n m p) (hm : m ≤ k) : Fills k k p where
  le := Nat.le_refl k
  det b b' h := by
    have hn := hp.le
    obtain ⟨hv, hb⟩ := hp.det b b' (h.mono (by omega))
    refine ⟨hv, fun i hi => ?_⟩
    by_cases him : i < m
    · exact hb i him
    · rw [hp.keeps b i (by omega), hp.keeps b' i (by omega), h i hi]
  keeps b i hi := hp.keeps b i (by omega)

/-- A program that needs nothing of the buffer. -/
theorem fresh (hp : Fills 0 m p) (b b' : Nat → α) : (p b).1 = (p b').1 ∧ Agree m (p b).2 (p b').2 := by
  apply hp.det
  intro i hi
  exact absurd hi (Nat.not_lt_zero i)

/-- Round `i` of a loop fills from `w i` to `w (i + 1)`. -/
theorem loop [Inhabited α] {g : Nat → σ → Prog α σ} {w : Nat → Nat} {c : Nat}
    (h : ∀ i < c, ∀ s, Fills (w i) (w (i + 1)) (g i s)) (s : σ) : Fills (w 0) (w c) (Fill.loop g c s) := by
  induction c with
  | zero => exact pure s
  | succ c ih =>
    unfold Fill.loop
    exact (ih fun i hi => h i (by omega)).bind (h c (by omega))

end Fills

end AudioRecorder.Fill
