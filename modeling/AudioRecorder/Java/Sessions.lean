import AudioRecorder.Java.Recorder
/-!
# Whose session it is

Several `run()` bodies, of one recorder or of many, share one native library. A
rejected `init` returns -1, but the Java `init()` drops it and the run goes on. As
long as no `init` is rejected, the open session belongs to the run that opened it:
no other run is between its `init` and its `close` (`session_owned`).
-/

namespace AudioRecorder.Java

open Native (World Os Jni Op Ret noFiles)

variable {w : World}

namespace State

/-- Thread `t` is about to feed or to close the open session. -/
def Touches (s : State w) (t : Nat) : Prop :=
  s.jni.codecOpen ≠ 0 ∧ ((s.threads t).pc = .denoiseAndEnc ∨ (s.threads t).pc = .close)

/-- `init` is called when no session is open. -/
def InitAccepted (s : State w) : Action → Prop
  | .run t _ => (s.threads t).pc = .init → s.jni.codecOpen = 0
  | _ => True

instance (s : State w) (a : Action) : Decidable (InitAccepted s a) :=
  match a with
  | .run .. => inferInstanceAs (Decidable (_ → _))
  | .start _ => isTrue trivial
  | .stop _ => isTrue trivial

/-- No other step feeds the open session or closes it: at most it is counted as
asked for once more. -/
theorem step_other {s s' : State w} {a : Action} (h : s.step a = .ok s') (hopen : s.jni.codecOpen ≠ 0)
    (hother : ∀ t b, a = .run t b → ¬ Touches s t) :
    s'.jni = s.jni ∨ s'.jni = { s.jni with codecOpen := s.jni.codecOpen + 1 } := by
  cases a with
  | start o => cases h; exact .inl rfl
  | stop o => cases h; exact .inl rfl
  | run t a =>
    obtain ⟨r, R⟩ := step_run h
    by_cases hinit : (s.threads t).pc = .init
    · have hn := R.native
      simp only [Thread.op, hinit, State.native, Jni.step] at hn
      rw [Jni.init_again hopen (Jni.init_max hn)] at hn
      exact .inr (Prod.mk.inj (Except.ok.inj hn)).2.symm
    · exact .inl (R.jni_of_none (Thread.op_eq_none _ _ ⟨hinit, fun hd => hother t a rfl ⟨hopen, .inl hd⟩,
        fun hc => hother t a rfl ⟨hopen, .inr hc⟩⟩))

/-- The threads inside a session are one thread, the opener, and its session is open. -/
structure Owned (s : State w) : Prop where
  native : s.jni.Reachable
  owned : ∀ t, (s.threads t).pc.InSession → s.opener = some t ∧ s.jni.codecOpen = 1

section
variable {s s' : State w} {t : Nat} {a : Answer} {r : Ret}

/-- An accepted `init`: the guard counter was 0, so no other thread is inside. -/
theorem Owned.run_init (I : Owned s) (R : Ran s s' t a r) (hinit : (s.threads t).pc = .init) (hzero : s.jni.codecOpen = 0) :
    Owned s' := by
  obtain ⟨hreach, hcount⟩ := R.reachable I.native
  refine ⟨hreach, ?_⟩
  intro u hu
  rcases R.inSession hu with ⟨hin, -⟩ | ⟨rfl, -⟩
  · have := (I.owned u hin).2
    omega
  · have hop : (s.threads u).op a = some (.init samplingNum frequency channel) := by rw [Thread.op, hinit]
    exact ⟨by rw [R.opener, if_pos ⟨hinit, hzero⟩], hcount _ hop 0 hzero⟩

/-- A `close`: the opener leaves, and no other thread was inside. -/
theorem Owned.run_close (I : Owned s) (R : Ran s s' t a r) (hclose : (s.threads t).pc = .close) : Owned s' := by
  refine ⟨(R.reachable I.native).1, ?_⟩
  intro u hu
  exfalso
  rcases R.inSession hu with ⟨hin, hne⟩ | ⟨rfl, hinit⟩
  · have hself := (I.owned t (by rw [hclose]; trivial)).1
    have hut : u = t := Option.some.inj ((I.owned u hin).1.symm.trans hself)
    exact hne hut (hut ▸ hclose)
  · rw [hclose] at hinit
    cases hinit

/-- Any other step opens, closes and enters no session. -/
theorem Owned.run_other (I : Owned s) (R : Ran s s' t a r) (hinit : (s.threads t).pc ≠ .init)
    (hclose : (s.threads t).pc ≠ .close) : Owned s' := by
  have hkeep : s.jni.codecOpen = 1 → s'.jni.codecOpen = 1 := by
    by_cases hden : (s.threads t).pc = .denoiseAndEnc
    · have hop : (s.threads t).op a = some (.denoiseAndEnc (s.threads t).buffer 0 (s.threads t).bufferReadResult a.junk) := by
        rw [Thread.op, hden]
      exact (R.reachable I.native).2 _ hop 1
    · rw [R.jni_of_none (Thread.op_eq_none _ _ ⟨hinit, hden, hclose⟩)]
      exact id
  refine ⟨(R.reachable I.native).1, ?_⟩
  intro u hu
  rcases R.inSession hu with ⟨hin, -⟩ | ⟨rfl, h⟩
  · obtain ⟨howner, hopen⟩ := I.owned u hin
    exact ⟨by rw [R.opener, if_neg fun h => hinit h.1, howner], hkeep hopen⟩
  · exact absurd h hinit

end

theorem Owned.step {s s' : State w} {a : Action} (I : Owned s) (hg : InitAccepted s a) (h : s.step a = .ok s') : Owned s' := by
  cases a with
  | start o =>
    cases h
    refine ⟨I.native, fun t ht => I.owned t ?_⟩
    by_cases hts : t = s.started
    · subst hts
      simp only [Function.update_self] at ht
      exact ht.elim
    · simpa only [Function.update_of_ne hts] using ht
  | stop o => cases h; exact ⟨I.native, I.owned⟩
  | run t a =>
    obtain ⟨r, R⟩ := step_run h
    by_cases hinit : (s.threads t).pc = .init
    · exact I.run_init R hinit (hg hinit)
    · by_cases hclose : (s.threads t).pc = .close
      · exact I.run_close R hclose
      · exact I.run_other R hinit hclose

theorem Owned.load (w : World) (os : Os) : Owned (load w os) :=
  ⟨.closed (Jni.load_closed w os), fun _ ht => ht.elim⟩

/-- In every run in which no `init` is rejected, the open session is fed and
closed only by the thread whose `init` opened it: the calls are its own, and any
other step leaves the session as it is. -/
theorem session_owned (os : Os) {as : List Action} {s : State w} (h : Machine.Run step InitAccepted (load w os) as s) :
    (∀ t, Touches s t → s.opener = some t) ∧
      ∀ a s', s.step a = .ok s' → s.jni.codecOpen ≠ 0 → (∀ t b, a = .run t b → s.opener ≠ some t) →
        s'.jni = s.jni ∨ s'.jni = { s.jni with codecOpen := s.jni.codecOpen + 1 } := by
  have I : Owned s := h.inv Owned (Owned.load w os) fun _ _ _ I hg hs => I.step hg hs
  have howned : ∀ t, Touches s t → s.opener = some t := by
    rintro t ⟨-, hpc | hpc⟩
    · exact (I.owned t (by rw [hpc]; trivial)).1
    · exact (I.owned t (by rw [hpc]; trivial)).1
  exact ⟨howned, fun a s' hs hopen hother => step_other hs hopen fun t b ha ht => hother t b ha (howned t ht)⟩

/-- Two recorders step by step in turn. The second calls `init` right behind the `close` of the
first and is about to encode its first read, while the first has still to clear its flag. -/
theorem session_owned_second :
    ∃ s, Machine.Run step InitAccepted (load (World.plain fun _ => true) ⟨noFiles, 0, []⟩)
        ([.start 0, .start 1] ++ ([0, 1, 0, 1] ++ List.replicate 11 0).map (.run · (.reading 160)) ++
          .stop 0 :: ([0, 0, 0, 0, 1, 0] ++ List.replicate 7 1).map (.run · (.reading 160))) s ∧
      Touches s 1 ∧ s.opener = some 1 ∧
      ∀ s', s.step (.run 0 (.reading 160)) = .ok s' →
        s'.jni = s.jni ∨ s'.jni = { s.jni with codecOpen := s.jni.codecOpen + 1 } := by
  obtain ⟨s, hr, hs⟩ : ∃ s, Machine.Run step InitAccepted (load (World.plain fun _ => true) ⟨noFiles, 0, []⟩)
      ([.start 0, .start 1] ++ ([0, 1, 0, 1] ++ List.replicate 11 0).map (.run · (.reading 160)) ++
        .stop 0 :: ([0, 0, 0, 0, 1, 0] ++ List.replicate 7 1).map (.run · (.reading 160))) s ∧
        ((s.threads 0).pc, (s.threads 1).pc, s.jni.codecOpen) = (Pc.clearRun, Pc.denoiseAndEnc, 1) :=
    Machine.Run.of_map (by decide +kernel)
  simp only [Prod.mk.injEq] at hs
  obtain ⟨-, hpc, hopen⟩ := hs
  obtain ⟨howned, hother⟩ := session_owned ⟨noFiles, 0, []⟩ hr
  have ht : Touches s 1 := ⟨by omega, .inl hpc⟩
  have howner := howned 1 ht
  refine ⟨s, hr, ht, howner, fun s' hs' => hother _ s' hs' (by omega) ?_⟩
  rintro t b ⟨⟩
  simp [howner]

/-- Two recordings at once: the second, its `init` rejected, feeds the session of the first. -/
theorem session_shared :
    ¬ ∀ (as : List Action) (s : State (World.plain fun _ => true)),
      Machine.Run step (fun _ _ => True) (load _ ⟨noFiles, 0, []⟩) as s → ∀ t, Touches s t → s.opener = some t := by
  intro hall
  obtain ⟨s, hr, hs⟩ : ∃ s, Machine.Run step (fun _ _ => True) (load (World.plain fun _ => true) ⟨noFiles, 0, []⟩)
      ([.start 0, .start 1] ++ List.replicate 3 (.run 0 (.reading 1)) ++ List.replicate 10 (.run 1 (.reading 1))) s ∧
        ((s.threads 1).pc, s.jni.codecOpen, s.opener) = (Pc.denoiseAndEnc, 2, some 0) :=
    Machine.Run.of_map (by decide +kernel)
  simp only [Prod.mk.injEq] at hs
  obtain ⟨hpc, hopen, howner⟩ := hs
  have := hall _ s hr 1 ⟨by omega, .inl hpc⟩
  rw [howner] at this
  cases this

end State

end AudioRecorder.Java
