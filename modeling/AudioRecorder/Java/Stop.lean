import AudioRecorder.Java.Recorder
/-!
# A stop that arrives

`setRecording(false)` clears the flag the loop tests; `run()` sets it just before
the loop. A stop that comes when every thread of the recorder is behind that
statement ends the recording: without another start no thread begins an iteration
again (`stop_ends`). One that comes earlier is overwritten (`stop_lost`).
-/

namespace AudioRecorder.Java

open Native (World Os noFiles)

variable {w : World}

namespace State

/-- Thread `t` is about to begin an iteration of its loop. -/
def Begins (s : State w) (t : Nat) : Prop :=
  (s.threads t).pc = .loopTest ∧ (s.recorders (s.threads t).recorder).isRecording = true

/-- No thread of recorder `o` is still ahead of its `isRecording = true`. -/
def Past (s : State w) (o : Nat) : Prop := ∀ t, (s.threads t).recorder = o → ¬ (s.threads t).pc.Ahead

/-- The flag of recorder `o` is clear, and no thread will set it. -/
structure Stopped (o : Nat) (s : State w) : Prop where
  past : s.Past o
  flag : (s.recorders o).isRecording = false

theorem Past.stop {s : State w} {o : Nat} (h : s.Past o) : Stopped o (s.setRecording o) :=
  ⟨h, by simp [setRecording]⟩

theorem Stopped.step {o : Nat} {s s' : State w} {a : Action} (I : Stopped o s) (ha : a ≠ .start o)
    (h : s.step a = .ok s') : Stopped o s' := by
  cases a with
  | start o' =>
    cases h
    refine ⟨?_, I.flag⟩
    intro t ht
    by_cases hts : t = s.started
    · subst hts
      simp only [Function.update_self, Thread.new] at ht
      exact absurd (ht ▸ rfl) ha
    · simp only [Function.update_of_ne hts] at ht ⊢
      exact I.past t ht
  | stop o' =>
    cases h
    refine ⟨I.past, ?_⟩
    by_cases ho : o = o'
    · subst ho
      simp [setRecording]
    · simpa only [setRecording, Function.update_of_ne ho] using I.flag
  | run t a =>
    obtain ⟨r, R⟩ := step_run h
    have hrec : (s'.threads t).recorder = (s.threads t).recorder := by rw [R.self, Thread.next_recorder]
    constructor
    · intro u hu hahead
      by_cases hut : u = t
      · subst hut
        rw [hrec] at hu
        exact I.past u hu (Thread.next_ahead _ _ _ _ (R.self ▸ hahead))
      · rw [R.other hut] at hu hahead
        exact I.past u hu hahead
    · rw [R.recorders]
      by_cases ho : o = (s.threads t).recorder
      · subst ho
        have hpc : (s.threads t).pc ≠ .setRecording := fun hpc => I.past t rfl (by rw [hpc]; trivial)
        rw [Function.update_self, Thread.next_isRecording _ _ _ _ hpc]
        exact I.flag
      · rw [Function.update_of_ne ho]
        exact I.flag

/-- In every run: if no thread of the recorder is ahead of its `isRecording = true`
when a stop is issued, no thread of it begins another iteration before the next start. -/
theorem stop_ends (os : Os) {o : Nat} {as bs : List Action} {u : State w}
    (h : Machine.Run step (fun _ _ => True) (load w os) (as ++ .stop o :: bs) u)
    (hpast : ∀ s, Machine.Run step (fun _ _ => True) (load w os) as s → s.Past o) (hbs : .start o ∉ bs) {t : Nat}
    (ht : (u.threads t).recorder = o) : ¬ Begins u t := by
  obtain ⟨s, hs, h⟩ := h.split
  obtain ⟨m, hm, h⟩ := (show Machine.Run step (fun _ _ => True) s ([.stop o] ++ bs) u from h).split
  have hstep : Machine.Run step (fun _ _ => True) s [.stop o] (s.setRecording o) := .snoc .nil trivial rfl
  have hstop : m = s.setRecording o := hm.det hstep
  have I : Stopped o u := (h.and_mem (P := fun a => a ≠ .start o) fun a ha he => hbs (he ▸ ha)).inv (Stopped o)
    (hstop ▸ (hpast s hs).stop) fun _ _ _ I hg ha => I.step hg.2 ha
  rintro ⟨-, hflag⟩
  rw [ht, I.flag] at hflag
  cases hflag

/-- A recording stopped in the middle of its first read. -/
theorem stop_ends_first :
    ∃ u : State (World.plain fun _ => true), (u.threads 0).pc = .loopTest ∧ ¬ Begins u 0 := by
  let as : List Action := .start 0 :: List.replicate 10 (.run 0 (.reading 1))
  obtain ⟨u, hu, hs⟩ : ∃ u : State (World.plain fun _ => true),
      Machine.Run step (fun _ _ => True) (load _ ⟨noFiles, 0, []⟩) (as ++ .stop 0 :: List.replicate 3 (.run 0 (.reading 1))) u ∧
        ((u.threads 0).pc, (u.threads 0).recorder) = (Pc.loopTest, 0) := Machine.Run.of_map (by decide +kernel)
  obtain ⟨hpc, hrec⟩ := Prod.mk.inj hs
  refine ⟨u, hpc, stop_ends ⟨noFiles, 0, []⟩ hu (fun s hs' t _ hahead => ?_) (by simp) hrec⟩
  obtain ⟨s₁, hs₁, hf⟩ : ∃ s : State (World.plain fun _ => true),
      Machine.Run step (fun _ _ => True) (load _ ⟨noFiles, 0, []⟩) as s ∧
        ((s.threads 0).pc, s.started) = (Pc.denoiseAndEnc, 1) := Machine.Run.of_map (by decide +kernel)
  obtain ⟨hpc₁, hstarted⟩ := Prod.mk.inj hf
  rw [hs'.det hs₁] at hahead
  cases t with
  | zero => rw [hpc₁] at hahead; exact hahead
  | succ t => rw [unstarted hs₁ (fun _ _ => rfl) (t + 1) (by omega)] at hahead; exact hahead

/-- A stop before `isRecording = true` is lost. -/
theorem stop_lost :
    ¬ ∀ (as bs : List Action) (u : State (World.plain fun _ => true)),
      Machine.Run step (fun _ _ => True) (load _ ⟨noFiles, 0, []⟩) (as ++ .stop 0 :: bs) u → .start 0 ∉ bs →
        ∀ t, (u.threads t).recorder = 0 → ¬ Begins u t := by
  intro hall
  obtain ⟨u, hu, hs⟩ : ∃ u : State (World.plain fun _ => true),
      Machine.Run step (fun _ _ => True) (load _ ⟨noFiles, 0, []⟩)
        ((.start 0 :: List.replicate 2 (.run 0 (.reading 1))) ++ .stop 0 :: List.replicate 6 (.run 0 (.reading 1))) u ∧
        ((u.threads 0).pc, (u.threads 0).recorder, (u.recorders 0).isRecording) = (Pc.loopTest, 0, true) :=
    Machine.Run.of_map (by decide +kernel)
  simp only [Prod.mk.injEq] at hs
  obtain ⟨hpc, hrec, hflag⟩ := hs
  exact hall _ _ u hu (by simp) 0 hrec ⟨hpc, by rw [hrec]; exact hflag⟩

end State

end AudioRecorder.Java
