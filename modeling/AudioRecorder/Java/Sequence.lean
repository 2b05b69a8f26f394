import AudioRecorder.Java.Recorder
import AudioRecorder.Native.File
/-!
# One recording after another

Each `run()` is started after the previous one returned. While no call in the
`try` block throws, every `run()` that returns leaves the native session closed and
`frameCount` at 0, so that the next one opens a session of its own; and the file, if
its header could be written, holds the magic number and the frames of that recording
alone (`recordings_restore`). An exception skips `close()`: nothing closes the session then (`recordings_throw`).
-/

namespace AudioRecorder.Java

open Codec (Word16 UWord8)
open Native (World Os Jni Op Ret Session Fed Call magic filepath recording noFiles)
open Blocks (blocks)

variable {w : World} {header : Prop}

/-! ## The session of one recording -/

/-- The header of a new recording is written, or the file is one with no frame. -/
def HeaderOpens (w : World) (os : Os) : Prop := w.fopenOk os.opens = true ∨ os.files filepath = some magic

instance (w : World) (os : Os) : Decidable (HeaderOpens w os) := inferInstanceAs (Decidable (_ ∨ _))

/-- The session is open and was fed the blocks of `reads` since a fresh start, which
wrote the header if `header`. -/
def Recording (header : Prop) (j : Jni w) (reads : List (List Word16)) : Prop :=
  ∃ os denoised encoded s, (header → HeaderOpens w os) ∧ j.Open s ∧
    Fed (.start w Native.frameSize frequency os denoised encoded) s (reads.flatMap (blocks Native.frameSize))

/-- The file holds the magic number and then what a fresh encoder emits of `reads`:
the `n + 1`st `fopen` wrote the header, those after it the frames. -/
def Saved (j : Jni w) (reads : List (List Word16)) : Prop :=
  ∃ n, j.amr.os.opens = n + 1 + (reads.flatMap (blocks Native.frameSize)).length ∧
    j.amr.os.files filepath = some (magic ++ (recording w (n + 1) frequency (reads.map Call.ofSamples)).flatten)

variable {j j' : Jni w} {r : Ret} {reads : List (List Word16)}

theorem recording_init (hc : j.Closed) (hh : header → HeaderOpens w j.amr.os)
    (h : j.init samplingNum frequency channel = .ok (r, j')) : Recording header j' [] := by
  obtain ⟨j₁, hi, ho, -⟩ := Jni.init_spec hc samplingNum frequency channel
  rw [h] at hi
  cases hi
  exact ⟨_, _, _, _, hh, ho, Session.fed_nil _⟩

theorem recording_denoise (hr : Recording header j reads) {buffer xs : List Word16} (hb : buffer.take xs.length = xs)
    {junk : Nat → Word16} (h : j.denoiseAndEnc buffer 0 xs.length junk = .ok (r, j')) :
    r.pending = false ∧ Recording header j' (reads ++ [xs]) := by
  obtain ⟨os, d, e, s, hh, ho, hfed⟩ := hr
  let c : Call := ⟨buffer, 0, xs.length, junk⟩
  have hlen : xs.length ≤ buffer.length := by
    have := congrArg List.length hb
    rw [List.length_take] at this
    omega
  have hin : c.Inside := ⟨le_refl _, by simp [c], by simp [c]; omega⟩
  have hsam : c.samples = xs := by simp [Call.samples, c, hb]
  obtain ⟨j₁, hd, ho₁, -⟩ := Jni.denoiseAndEnc_spec ho hfed.frameSize (by decide) buffer 0 xs.length junk
  rw [h] at hd
  cases hd
  refine ⟨by rw [hin.region], os, d, e, _, hh, ho₁, ?_⟩
  rw [List.flatMap_append]
  apply Session.fed_append hfed
  have hbuf : Jni.region buffer 0 xs.length junk = xs := hin.buffer.trans hsam
  rw [hbuf, List.flatMap_cons, List.flatMap_nil, List.append_nil]
  exact Session.feeds_fed hfed.frameSize _ Blocks.blocks_full 0

theorem recording_close (hr : Recording header j reads) (h : j.close = .ok (r, j')) :
    j'.Closed ∧ (header → Saved j' reads) := by
  obtain ⟨os, d, e, s, hh, ho, hfed⟩ := hr
  obtain ⟨j₁, hcl, hc, hos, -⟩ := Jni.close_spec ho
  rw [h] at hcl
  cases hcl
  refine ⟨hc, fun hheader => ⟨os.opens, ?_, ?_⟩⟩
  · rw [hos, hfed.opens]
    simp only [Session.start, Jni.initOs_opens]
  · rw [← Jni.frames_ofSamples] at hfed
    have hwritten : (if w.fopenOk os.opens then some magic else os.files filepath) = some magic := by
      rcases hh hheader with hok | hold
      · rw [if_pos hok]
      · rw [hold, ite_self]
    rw [hos, Jni.fed_file hfed, hwritten, Native.appendFile_some]

/-! ## One thread, step by step -/

/-- The call the thread is about to make returns, and answers no error. -/
def Quiet (a : Answer) (o : Recorder) (th : Thread) : Prop :=
  match th.pc with
  | .newAudioRecord | .startRecording | .updateVolumeMax | .stop | .release => a.throws = false
  | .newBuffer => a.throws = false ∧ 0 ≤ o.mMinBufferSize
  | .read => a.throws = false ∧ a.read.isOk
  | _ => True

instance (a : Answer) (o : Recorder) (th : Thread) : Decidable (Quiet a o th) := by
  unfold Quiet
  split <;> infer_instance

/-- `mRun` is clear there. -/
def Pc.NotRunning : Pc → Prop
  | .checkRun | .setRun | .done => True
  | _ => False

/-- `frameCount` is 0 there. -/
def Pc.NotCounting : Pc → Prop
  | .checkRun | .setRun | .init | .clearRun | .done => True
  | _ => False

/-- What the native library holds, by where the thread is. Between a read and the
call that encodes it, the last read is not yet part of the session. -/
def NativeAt (header : Prop) (j : Jni w) (th : Thread) : Prop :=
  match th.pc with
  | .checkRun | .setRun | .init => j.Closed ∧ th.reads = []
  | .denoiseAndEnc => ∃ reads xs, th.reads = reads ++ [xs] ∧ th.bufferReadResult = xs.length ∧
      th.buffer.take xs.length = xs ∧ Recording header j reads
  | .clearFrames | .clearRun | .done => j.Closed ∧ (header → Saved j th.reads)
  | _ => Recording header j th.reads

/-- A recording under way: its recorder, its thread and the library. -/
structure Underway (header : Prop) (o : Recorder) (th : Thread) (j : Jni w) : Prop where
  mRun : th.pc.NotRunning → o.mRun = false
  frameCount : th.pc.NotCounting → o.frameCount = 0
  native : NativeAt header j th

theorem Underway.next {o : Recorder} {th : Thread} {a : Answer} (U : Underway header o th j) (hq : Quiet a o th)
    (hn : State.native j (th.op a) = .ok (r, j')) (hh : header → th.pc = .init → HeaderOpens w j.amr.os) :
    Underway header (th.next a r o).1 (th.next a r o).2 j' := by
  have hnone : th.op a = none → j' = j := fun h => by
    rw [h] at hn
    exact (Prod.mk.inj (Except.ok.inj hn)).2.symm
  obtain ⟨i, pc, buffer, n, reads, volumes⟩ := th
  obtain ⟨hrun, hcount, hnat⟩ := U
  cases pc with
  | checkRun =>
    rw [hnone rfl]
    simp only [Thread.next, Thread.goto, hrun trivial, Bool.false_eq_true, if_false]
    exact ⟨fun _ => hrun trivial, fun _ => hcount trivial, hnat⟩
  | setRun =>
    rw [hnone rfl]
    exact ⟨False.elim, fun _ => hcount trivial, hnat⟩
  | init =>
    exact ⟨False.elim, False.elim, by
      obtain ⟨hc, rfl⟩ := hnat
      exact recording_init hc (fun h => hh h rfl) hn⟩
  | getMinBufferSize | setRecording | addFrames =>
    rw [hnone rfl]
    exact ⟨False.elim, False.elim, hnat⟩
  | newAudioRecord | startRecording | updateVolumeMax | stop | release =>
    rw [hnone rfl]
    simp only [Thread.next, Thread.call, Thread.goto, show a.throws = false from hq]
    exact ⟨False.elim, False.elim, hnat⟩
  | newBuffer =>
    rw [hnone rfl]
    obtain ⟨hthrow, hsize⟩ := hq
    simp only [Thread.next, Thread.call, Thread.goto, hthrow, if_neg (not_lt.2 hsize)]
    exact ⟨False.elim, False.elim, hnat⟩
  | loopTest =>
    rw [hnone rfl]
    simp only [Thread.next, Thread.goto]
    split
    · exact ⟨False.elim, False.elim, hnat⟩
    · exact ⟨False.elim, False.elim, hnat⟩
  | read =>
    rw [hnone rfl]
    obtain ⟨hthrow, hok⟩ := hq
    simp only [Thread.next, Thread.call, Thread.goto, hthrow]
    cases hread : a.read with
    | error n => rw [hread] at hok; cases hok
    | ok xs =>
      refine ⟨False.elim, False.elim, reads, _, rfl, rfl, ?_, hnat⟩
      exact List.take_left
  | denoiseAndEnc =>
    obtain ⟨done, xs, rfl, rfl, hb, hrec⟩ := hnat
    obtain ⟨hpend, hrec'⟩ := recording_denoise hrec hb hn
    simp only [Thread.next, Thread.goto, hpend]
    exact ⟨False.elim, False.elim, hrec'⟩
  | close => exact ⟨False.elim, False.elim, recording_close hnat hn⟩
  | clearFrames =>
    rw [hnone rfl]
    exact ⟨False.elim, fun _ => rfl, hnat⟩
  | clearRun =>
    rw [hnone rfl]
    exact ⟨fun _ => rfl, fun _ => hcount trivial, hnat⟩
  | done =>
    rw [hnone rfl]
    exact ⟨hrun, hcount, hnat⟩

theorem Underway.of_stop {o o' : Recorder} {th : Thread} (U : Underway header o th j) (hrun : o'.mRun = o.mRun)
    (hcount : o'.frameCount = o.frameCount) : Underway header o' th j :=
  ⟨fun h => hrun.trans (U.mRun h), fun h => hcount.trans (U.frameCount h), U.native⟩

/-! ## Runs -/

namespace State
variable {s s' : State w} {a : Action}

/-- Every `run()` has returned. -/
def Returned (s : State w) : Prop := ∀ t < s.started, (s.threads t).pc = .done

instance (s : State w) : Decidable s.Returned := inferInstanceAs (Decidable (∀ t < s.started, _))

/-- Each recording starts after the previous ones returned. -/
def InTurn (s : State w) : Action → Prop
  | .start _ => s.Returned
  | _ => True

instance (s : State w) (a : Action) : Decidable (InTurn s a) :=
  match a with
  | .start _ => inferInstanceAs (Decidable s.Returned)
  | .stop _ => isTrue trivial
  | .run .. => isTrue trivial

/-- No call throws. -/
def NoThrow (s : State w) : Action → Prop
  | .run t a => Quiet a (s.recorders (s.threads t).recorder) (s.threads t)
  | _ => True

instance (s : State w) (a : Action) : Decidable (NoThrow s a) :=
  match a with
  | .run .. => inferInstanceAs (Decidable (Quiet ..))
  | .start _ => isTrue trivial
  | .stop _ => isTrue trivial

/-- The header of each recording is written. -/
def HeaderWritten (s : State w) : Action → Prop
  | .run t _ => (s.threads t).pc = .init → HeaderOpens w s.jni.amr.os
  | _ => True

instance (s : State w) (a : Action) : Decidable (HeaderWritten s a) :=
  match a with
  | .run .. => inferInstanceAs (Decidable (_ → _))
  | .start _ => isTrue trivial
  | .stop _ => isTrue trivial

/-- The native session is closed and no recorder is running or counting. -/
structure Idle (s : State w) : Prop where
  native : s.jni.Closed
  recorders : ∀ o, (s.recorders o).mRun = false ∧ (s.recorders o).frameCount = 0

/-- Thread `t` is the last one started, and the others have returned. -/
structure Last (header : Prop) (s : State w) (t : Nat) : Prop where
  started : s.started = t + 1
  others : ∀ u, u ≠ t → (s.threads u).pc = .done
  rest : ∀ o, o ≠ (s.threads t).recorder → (s.recorders o).mRun = false ∧ (s.recorders o).frameCount = 0
  underway : Underway header (s.recorders (s.threads t).recorder) (s.threads t) s.jni

/-- Nothing was started, or one recording is the last. -/
inductive Sequenced (header : Prop) (s : State w) : Prop
  | none (h : ∀ t, (s.threads t).pc = .done) (h' : s.Idle) (h0 : s.started = 0)
  | last {t : Nat} (h : Last header s t)

theorem Last.idle {t : Nat} (L : Last header s t) (h : s.Returned) :
    s.Idle ∧ (header → Saved s.jni (s.threads t).reads) := by
  obtain ⟨hrun, hcount, hnat⟩ := L.underway
  have hdone : (s.threads t).pc = .done := h t (by rw [L.started]; omega)
  rw [NativeAt, hdone] at hnat
  rw [hdone] at hrun hcount
  refine ⟨⟨hnat.1, ?_⟩, hnat.2⟩
  intro o
  by_cases ho : o = (s.threads t).recorder
  · exact ho ▸ ⟨hrun trivial, hcount trivial⟩
  · exact L.rest o ho

theorem Sequenced.idle (I : Sequenced header s) (h : s.Returned) : s.Idle := by
  cases I with
  | none _ hi _ => exact hi
  | last L => exact (L.idle h).1

theorem Sequenced.done (I : Sequenced header s) (h : s.Returned) (t : Nat) : (s.threads t).pc = .done := by
  cases I with
  | none hd _ _ => exact hd t
  | @last u L =>
    by_cases hu : t = u
    · exact h t (by rw [L.started]; omega)
    · exact L.others t hu

/-- `setRecording(false)` changes neither `mRun` nor `frameCount`. -/
theorem setRecording_fields (s : State w) (o p : Nat) :
    ((s.setRecording o).recorders p).mRun = (s.recorders p).mRun ∧
      ((s.setRecording o).recorders p).frameCount = (s.recorders p).frameCount := by
  by_cases hp : p = o
  · subst hp; simp [setRecording]
  · simp [setRecording, Function.update_of_ne hp]

theorem Sequenced.step (I : Sequenced header s) (hturn : InTurn s a) (hq : NoThrow s a) (hh : header → HeaderWritten s a)
    (h : s.step a = .ok s') : Sequenced header s' := by
  cases a with
  | start o =>
    -- the previous recordings have returned, so the new one starts from an idle state
    have hi := I.idle hturn
    cases h
    refine .last (t := s.started) ⟨rfl, ?_, fun p _ => hi.recorders p, ?_⟩
    · intro u hu
      simpa only [Function.update_of_ne hu] using I.done hturn u
    · simp only [Function.update_self]
      exact ⟨fun _ => (hi.recorders o).1, fun _ => (hi.recorders o).2, hi.native, rfl⟩
  | stop o =>
    cases h
    have hrun := fun p => (setRecording_fields s o p).1
    have hcount := fun p => (setRecording_fields s o p).2
    cases I with
    | none hr hi h0 =>
      exact .none hr ⟨hi.native, fun p => ⟨(hrun p).trans (hi.recorders p).1, (hcount p).trans (hi.recorders p).2⟩⟩ h0
    | @last t L =>
      exact .last ⟨L.started, L.others, fun p hp => ⟨(hrun p).trans (L.rest p hp).1, (hcount p).trans (L.rest p hp).2⟩,
        L.underway.of_stop (hrun _) (hcount _)⟩
  | run t a =>
    obtain ⟨r, R⟩ := step_run h
    by_cases hdone : (s.threads t).pc = .done
    · rw [R.done hdone]; exact I
    · cases I with
      | none hr _ _ => exact absurd (hr t) hdone
      | @last u L =>
        -- a thread that is still running is the last one
        obtain rfl : t = u := by
          by_contra hne
          exact hdone (L.others t hne)
        have hrec : (s'.threads t).recorder = (s.threads t).recorder := by rw [R.self, Thread.next_recorder]
        refine .last (t := t) ⟨R.started.trans L.started, ?_, ?_, ?_⟩
        · intro u hu
          rw [R.other hu]
          exact L.others u hu
        · intro p hp
          rw [hrec] at hp
          rw [R.recorders, Function.update_of_ne hp]
          exact L.rest p hp
        · rw [hrec, R.recorders, Function.update_self, R.self]
          exact L.underway.next hq R.native hh

theorem run_sequenced (header : Prop) (os : Os) {as : List Action}
    (h : Machine.Run step (fun s a => (InTurn s a ∧ NoThrow s a) ∧ (header → HeaderWritten s a)) (load w os) as s) :
    Sequenced header s :=
  h.inv (Sequenced header) (.none (fun _ => rfl) ⟨Jni.load_closed w os, fun _ => ⟨rfl, rfl⟩⟩ rfl)
    fun _ _ _ I hg hs => I.step hg.1.1 hg.1.2 hg.2 hs

/-- In every sequence of recordings in which no call throws: whenever `run()` has
returned, the session is closed, its encoder and its denoiser are released, and
every `frameCount` is 0. If the headers were written too, the file holds the last
recording alone. -/
theorem recordings_restore (os : Os) {as : List Action}
    (h : Machine.Run step (fun s a => InTurn s a ∧ NoThrow s a) (load w os) as s) (hr : s.Returned) :
    s.jni.Closed ∧ (∀ o, (s.recorders o).frameCount = 0) ∧
      (Machine.Run step HeaderWritten (load w os) as s → ∀ t, s.started = t + 1 → Saved s.jni (s.threads t).reads) := by
  have I : Sequenced False s := run_sequenced False os (h.mono fun _ _ hg => ⟨hg, False.elim⟩)
  have hidle := I.idle hr
  refine ⟨hidle.native, fun o => (hidle.recorders o).2, ?_⟩
  intro hheader t ht
  have I' : Sequenced True s := run_sequenced True os ((h.and hheader).mono fun _ _ hg => ⟨hg.1, fun _ => hg.2⟩)
  cases I' with
  | none _ _ h0 => omega
  | @last u L =>
    have hu := L.started
    obtain rfl : u = t := by omega
    exact (L.idle hr).2 trivial

/-- A recording of two frames and then one of a single frame, each stopped after its first read. -/
theorem recordings_restore_two :
    ∃ s : State (World.plain fun _ => true), s.Returned ∧ s.jni.Closed ∧
      (s.threads 1).reads = [List.replicate 160 0] ∧ Saved s.jni (s.threads 1).reads := by
  let recorded := fun t n => (Action.start 0 :: List.replicate 13 (.run t (.reading n))) ++
    .stop 0 :: List.replicate 6 (.run t (.reading n))
  obtain ⟨s, hrun, hs⟩ : ∃ s : State (World.plain fun _ => true),
      Machine.Run step (fun s a => (InTurn s a ∧ NoThrow s a) ∧ HeaderWritten s a) (load _ ⟨noFiles, 0, []⟩)
        (recorded 0 320 ++ recorded 1 160) s ∧
        (s.started, decide s.Returned, (s.threads 1).reads) = (2, true, [List.replicate 160 0]) :=
    Machine.Run.of_map (by decide +kernel)
  simp only [Prod.mk.injEq] at hs
  obtain ⟨hstarted, hr, hreads⟩ := hs
  have hr := of_decide_eq_true hr
  obtain ⟨hc, -, hsaved⟩ := recordings_restore ⟨noFiles, 0, []⟩ (hrun.mono fun _ _ hg => hg.1) hr
  exact ⟨s, hr, hc, hreads, hsaved (hrun.mono fun _ _ hg => hg.2) 1 hstarted⟩

/-- `getMinBufferSize` answers an error code, and the recording returns with its session open. -/
theorem recordings_throw :
    ¬ ∀ (as : List Action) (s : State (World.plain fun _ => true)),
      Machine.Run step InTurn (load _ ⟨noFiles, 0, []⟩) as s → s.Returned → s.jni.Closed := by
  intro hall
  obtain ⟨s, hrun, hs⟩ : ∃ s : State (World.plain fun _ => true),
      Machine.Run step InTurn (load _ ⟨noFiles, 0, []⟩)
        (.start 0 :: List.replicate 7 (.run 0 { Answer.reading 0 with minBufferSize := -2 })) s ∧
        (s.jni.codecOpen, decide s.Returned) = (1, true) := Machine.Run.of_map (by decide +kernel)
  obtain ⟨hopen, hr⟩ := Prod.mk.inj hs
  have := (hall _ s hrun (of_decide_eq_true hr)).codecOpen
  omega

end State

end AudioRecorder.Java
