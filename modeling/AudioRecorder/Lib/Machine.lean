import AudioRecorder.Lib.Memory
/-!
# Runs of a machine

A machine is a step function that may leave the execution undefined. A `Run` is
a sequence of steps from a fixed start, each meeting a guard in the state it is
taken from, so that "every run whose steps meet the condition" is a run of the
guarded machine. What every guarded step keeps holds after every guarded run.
-/

namespace AudioRecorder.Machine
variable {σ α : Type} {step : σ → α → Res σ} {guard guard' : σ → α → Prop} {s₀ s t : σ} {as bs : List α}

/-- Runs from `s₀`: the actions taken, and the state after them. -/
inductive Run (step : σ → α → Res σ) (guard : σ → α → Prop) (s₀ : σ) : List α → σ → Prop
  | nil : Run step guard s₀ [] s₀
  | snoc {as : List α} {s s' : σ} {a : α} :
      Run step guard s₀ as s → guard s a → step s a = .ok s' → Run step guard s₀ (as ++ [a]) s'

/-- What every guarded step keeps holds after every guarded run. -/
theorem Run.inv (I : σ → Prop) (h0 : I s₀) (hs : ∀ s a s', I s → guard s a → step s a = .ok s' → I s')
    (h : Run step guard s₀ as s) : I s := by
  induction h with
  | nil => exact h0
  | snoc _ hg ha ih => exact hs _ _ _ ih hg ha

theorem Run.mono (hg : ∀ s a, guard s a → guard' s a) (h : Run step guard s₀ as s) : Run step guard' s₀ as s := by
  induction h with
  | nil => exact .nil
  | snoc _ hga ha ih => exact .snoc ih (hg _ _ hga) ha

/-- What is known of each action taken may join the guard. -/
theorem Run.and_mem {P : α → Prop} (h : Run step guard s₀ as s) (hP : ∀ a ∈ as, P a) :
    Run step (fun s a => guard s a ∧ P a) s₀ as s := by
  induction h with
  | nil => exact .nil
  | snoc _ hga ha ih => exact .snoc (ih fun b hb => hP b (by simp [hb])) ⟨hga, hP _ (by simp)⟩ ha

theorem Run.append (h : Run step guard s₀ as s) (h' : Run step guard s bs t) : Run step guard s₀ (as ++ bs) t := by
  induction h' with
  | nil => simpa using h
  | snoc _ hg ha ih => rw [← List.append_assoc]; exact .snoc ih hg ha

/-- A run passes through a state after each prefix of its actions. -/
theorem Run.split (h : Run step guard s₀ (as ++ bs) s) :
    ∃ m, Run step guard s₀ as m ∧ Run step guard m bs s := by
  generalize he : as ++ bs = cs at h
  induction h generalizing bs with
  | nil =>
    obtain ⟨rfl, rfl⟩ := List.append_eq_nil_iff.1 he
    exact ⟨_, .nil, .nil⟩
  | @snoc cs s s' a hr hg ha ih =>
    rcases List.eq_nil_or_concat bs with rfl | ⟨bs', b, rfl⟩
    · rw [List.append_nil] at he; subst he
      exact ⟨_, .snoc hr hg ha, .nil⟩
    · rw [List.concat_eq_append, ← List.append_assoc] at he
      obtain ⟨has, hb⟩ := List.append_inj' he rfl
      cases hb
      obtain ⟨m, h1, h2⟩ := ih has
      exact ⟨m, h1, by rw [List.concat_eq_append]; exact .snoc h2 hg ha⟩

/-- A step taken only where the guard holds. -/
def checked (step : σ → α → Res σ) (guard : σ → α → Prop) [∀ s a, Decidable (guard s a)] (s : σ) (a : α) : Res σ :=
  if guard s a then step s a else .error .outOfBounds

/-- A guarded run can be computed. -/
theorem Run.of_checked [∀ s a, Decidable (guard s a)] (h : as.foldlM (checked step guard) s₀ = .ok s) :
    Run step guard s₀ as s := by
  induction as generalizing s₀ with
  | nil => cases h; exact .nil
  | cons a as ih =>
    rw [List.foldlM_cons] at h
    obtain ⟨m, hm, h⟩ := Res.bind_ok.1 h
    unfold checked at hm
    split at hm
    · rename_i hg
      exact (Run.snoc .nil hg hm).append (ih h)
    · cases hm

/-- What a computed run shows of its last state. -/
theorem Run.of_map [∀ s a, Decidable (guard s a)] {β : Type} {f : σ → β} {b : β}
    (h : (as.foldlM (checked step guard) s₀).map f = .ok b) : ∃ s, Run step guard s₀ as s ∧ f s = b := by
  cases hc : as.foldlM (checked step guard) s₀ with
  | error e => rw [hc] at h; cases h
  | ok s =>
    rw [hc] at h
    cases h
    exact ⟨s, .of_checked hc, rfl⟩

/-- The last step of a run. -/
theorem Run.snoc_inv {a : α} (h : Run step guard s₀ (as ++ [a]) t) :
    ∃ s, Run step guard s₀ as s ∧ guard s a ∧ step s a = .ok t := by
  generalize he : as ++ [a] = cs at h
  cases h with
  | nil => simp at he
  | snoc hr hg ha =>
    obtain ⟨rfl, hb⟩ := List.append_inj' he rfl
    cases hb
    exact ⟨_, hr, hg, ha⟩

theorem Run.nil_inv (h : Run step guard s₀ [] t) : t = s₀ := by
  generalize he : ([] : List α) = cs at h
  cases h with
  | nil => rfl
  | snoc => simp at he

/-- The actions determine the state. -/
theorem Run.det (h : Run step guard s₀ as s) (h' : Run step guard' s₀ as t) : s = t := by
  induction h generalizing t with
  | nil => exact h'.nil_inv.symm
  | snoc _ _ ha ih =>
    obtain ⟨u, hr', _, ha'⟩ := h'.snoc_inv
    rw [ih hr', ha'] at ha
    exact (Except.ok.inj ha).symm

/-- A run of the same actions meets another guard when the run before its last
step does, and that step. -/
theorem Run.snoc_iff {s' : σ} {a : α} (h : Run step guard s₀ as s) (ha : step s a = .ok s') :
    Run step guard' s₀ (as ++ [a]) s' ↔ Run step guard' s₀ as s ∧ guard' s a := by
  constructor
  · intro h'
    obtain ⟨u, hr', hg', _⟩ := h'.snoc_inv
    -- both runs take the last step from the same state
    have hsame := h.det hr'
    subst hsame
    exact ⟨hr', hg'⟩
  · rintro ⟨hr, hg⟩
    exact .snoc hr hg ha

/-- Two guards that the same actions meet are met together. -/
theorem Run.and (h : Run step guard s₀ as s) (h' : Run step guard' s₀ as s) :
    Run step (fun s a => guard s a ∧ guard' s a) s₀ as s := by
  induction h with
  | nil => exact .nil
  | snoc hr hg ha ih =>
    obtain ⟨hr', hg'⟩ := (hr.snoc_iff ha).1 h'
    exact .snoc (ih hr') ⟨hg, hg'⟩ ha

end AudioRecorder.Machine
