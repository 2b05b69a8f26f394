import AudioRecorder.Lib.Machine
import AudioRecorder.Native.Coupling
/-!
# `IMAudioRecorder.run()`, step by step

Every read or write of a field that another thread can see is a step of its own,
and so is every call: the click handlers start threads and clear `isRecording`
between any two of them. What the Android classes and the listener answer is the
environment's choice, a throw included. The native library is the one of
`SpeexJni`; the Java `init()` drops its result.
-/

namespace AudioRecorder.Java

open Codec (Word16)
open Native (World Os Jni Op Ret)

/-- `SAMPLING_NUM`. -/
def samplingNum : Int := 160

/-- `FREQUENCY`. -/
def frequency : Int := 8000

/-- `CHANNEL`. -/
def channel : Int := 1

/-- Java `int` arithmetic. -/
def toInt32 (n : Int) : Int := n.bmod (2 ^ 32)

/-- The fields of an `IMAudioRecorder` that `run()` and the click handlers share. -/
structure Recorder where
  mRun : Bool
  isRecording : Bool
  mMinBufferSize : Int
  frameCount : Int
  deriving DecidableEq, Repr

/-- A recorder as constructed. -/
def Recorder.new : Recorder := ⟨false, false, 0, 0⟩

/-- Where a thread is in `run()`: before the statement named. -/
inductive Pc where
  | checkRun
  | setRun
  | init
  | getMinBufferSize
  | newAudioRecord
  | newBuffer
  | startRecording
  | setRecording
  | loopTest
  | read
  | denoiseAndEnc
  | addFrames
  | updateVolumeMax
  | stop
  | release
  | close
  | clearFrames
  | clearRun
  | done
  deriving DecidableEq, Repr

/-- What a call may answer: it throws, or returns. `AudioRecord.read` delivers
samples, or returns the error code `-(n + 1)`. -/
structure Answer where
  throws : Bool
  minBufferSize : Int
  read : Except Nat (List Word16)
  junk : Nat → Word16

/-- Every call returns, and a read delivers `n` samples of silence. -/
def Answer.reading (n : Nat) : Answer := ⟨false, n, .ok (List.replicate n 0), fun _ => 0⟩

/-- A thread in `run()`. `reads` and `volumes` are what `AudioRecord.read` delivered
and what `updateVolumeMax` was given so far. -/
structure Thread where
  recorder : Nat
  pc : Pc
  buffer : List Word16
  bufferReadResult : Int
  reads : List (List Word16)
  volumes : List Nat

namespace Thread

/-- A thread about to enter `run()`. -/
def new (recorder : Nat) : Thread := ⟨recorder, .checkRun, [], 0, [], []⟩

/-- No thread yet. -/
def unstarted : Thread := { new 0 with pc := .done }

/-- The native call the thread is about to make. -/
def op (a : Answer) (th : Thread) : Option Op :=
  match th.pc with
  | .init => some (.init samplingNum frequency channel)
  | .denoiseAndEnc => some (.denoiseAndEnc th.buffer 0 th.bufferReadResult a.junk)
  | .close => some .close
  | _ => none

/-- `getVolumeMax`. -/
def getVolumeMax (buffer : List Word16) : Nat :=
  buffer.foldl (fun max x => if x.toInt.natAbs > max then x.toInt.natAbs else max) 0

def goto (pc : Pc) (th : Thread) : Thread := { th with pc }

/-- A call that may throw: the exception is caught behind the `try` block. -/
def call (a : Answer) (pc : Pc) (th : Thread) : Thread := th.goto (if a.throws then .clearRun else pc)

/-- What `AudioRecord.read(buffer, 0, mMinBufferSize)` can deliver of `xs`. -/
def delivered (th : Thread) (mMinBufferSize : Int) (xs : List Word16) : List Word16 :=
  xs.take (min mMinBufferSize.toNat th.buffer.length)

/-- One step of `run()` on its recorder, given how its native call ended. -/
def next (a : Answer) (r : Ret) (o : Recorder) (th : Thread) : Recorder × Thread :=
  match th.pc with
  | .checkRun => (o, th.goto (if o.mRun then .done else .setRun))
  | .setRun => ({ o with mRun := true }, th.goto .init)
  | .init => (o, th.goto .getMinBufferSize)
  | .getMinBufferSize => ({ o with mMinBufferSize := a.minBufferSize }, th.goto .newAudioRecord)
  | .newAudioRecord => (o, th.call a .newBuffer)
  | .newBuffer =>
    -- `new short[n]` throws for a negative `n`
    if o.mMinBufferSize < 0 then (o, th.goto .clearRun)
    else (o, { th with buffer := List.replicate o.mMinBufferSize.toNat 0 }.call a .startRecording)
  | .startRecording => (o, th.call a .setRecording)
  | .setRecording => ({ o with isRecording := true }, th.goto .loopTest)
  | .loopTest => (o, th.goto (if o.isRecording then .read else .stop))
  | .read =>
    match a.read with
    | .ok xs =>
      let xs := th.delivered o.mMinBufferSize xs
      (o, { th with
        buffer := xs ++ th.buffer.drop xs.length
        bufferReadResult := xs.length
        reads := th.reads ++ [xs] }.call a .denoiseAndEnc)
    | .error n => (o, { th with bufferReadResult := -(n + 1) }.call a .denoiseAndEnc)
  -- the exception the native call left pending is raised when it returns
  | .denoiseAndEnc => (o, th.goto (if r.pending then .clearRun else .addFrames))
  | .addFrames =>
    ({ o with frameCount := toInt32 (o.frameCount + th.bufferReadResult.tdiv 160) }, th.goto .updateVolumeMax)
  | .updateVolumeMax => (o, { th with volumes := th.volumes ++ [getVolumeMax th.buffer] }.call a .loopTest)
  | .stop => (o, th.call a .release)
  | .release => (o, th.call a .close)
  | .close => (o, th.goto .clearFrames)
  | .clearFrames => ({ o with frameCount := 0 }, th.goto .clearRun)
  | .clearRun => ({ o with mRun := false }, th.goto .done)
  | .done => (o, th)

end Thread

/-! ## Any number of threads on any number of recorders -/

/-- The recorders, the threads started on them, and the native library. `opener`
is the thread whose `init` opened the last session. -/
@[ext]
structure State (w : World) where
  recorders : Nat → Recorder
  threads : Nat → Thread
  started : Nat
  jni : Jni w
  opener : Option Nat

/-- `start_record_btn`, `stop_record_btn`, and a step of a thread. -/
inductive Action where
  | start (o : Nat)
  | stop (o : Nat)
  | run (t : Nat) (a : Answer)

variable {w : World}

namespace State

/-- The application as started. -/
def load (w : World) (os : Os) : State w := ⟨fun _ => .new, fun _ => .unstarted, 0, .load w os, none⟩

/-- A native call, if there is one. -/
def native (j : Jni w) : Option Op → Res (Ret × Jni w)
  | none => return (⟨none, false⟩, j)
  | some op => j.step op

/-- `setRecording(false)`. -/
def setRecording (s : State w) (o : Nat) : State w :=
  { s with recorders := Function.update s.recorders o { s.recorders o with isRecording := false } }

def step (s : State w) : Action → Res (State w)
  | .start o => return { s with threads := Function.update s.threads s.started (.new o), started := s.started + 1 }
  | .stop o => return s.setRecording o
  | .run t a => do
    let th := s.threads t
    let (r, jni) ← native s.jni (th.op a)
    let (o, th') := th.next a r (s.recorders th.recorder)
    return {
      recorders := Function.update s.recorders th.recorder o
      threads := Function.update s.threads t th'
      started := s.started
      jni
      opener := if th.pc = .init ∧ s.jni.codecOpen = 0 then some t else s.opener }

/-- What a thread's step does: the native call, then the Java statement. -/
structure Ran (s s' : State w) (t : Nat) (a : Answer) (r : Ret) : Prop where
  native : native s.jni ((s.threads t).op a) = .ok (r, s'.jni)
  recorders : s'.recorders = Function.update s.recorders (s.threads t).recorder
    ((s.threads t).next a r (s.recorders (s.threads t).recorder)).1
  threads : s'.threads = Function.update s.threads t ((s.threads t).next a r (s.recorders (s.threads t).recorder)).2
  started : s'.started = s.started
  opener : s'.opener = if (s.threads t).pc = .init ∧ s.jni.codecOpen = 0 then some t else s.opener

theorem step_run {s s' : State w} {t : Nat} {a : Answer} (h : s.step (.run t a) = .ok s') : ∃ r, Ran s s' t a r := by
  obtain ⟨⟨r, jni⟩, hn, h⟩ := Res.bind_ok.1 h
  cases h
  exact ⟨r, hn, rfl, rfl, rfl, rfl⟩

section
variable {s s' : State w} {t : Nat} {a : Answer} {r : Ret}

theorem Ran.jni_of_none (R : Ran s s' t a r) (h : (s.threads t).op a = none) : s'.jni = s.jni := by
  have hn := R.native
  rw [h] at hn
  exact (Prod.mk.inj (Except.ok.inj hn)).2.symm

theorem Ran.step_of_some (R : Ran s s' t a r) (op : Op) (h : (s.threads t).op a = some op) :
    s.jni.step op = .ok (r, s'.jni) := by
  have hn := R.native
  rwa [h] at hn

/-- The other threads stay where they are. -/
theorem Ran.other (R : Ran s s' t a r) {u : Nat} (hu : u ≠ t) : s'.threads u = s.threads u := by
  rw [R.threads, Function.update_of_ne hu]

/-- A thread that has returned does nothing more. -/
theorem Ran.done (R : Ran s s' t a r) (h : (s.threads t).pc = .done) : s' = s := by
  have hnext : (s.threads t).next a r (s.recorders (s.threads t).recorder) =
      (s.recorders (s.threads t).recorder, s.threads t) := by
    rw [Thread.next, h]
  have hjni : s'.jni = s.jni := R.jni_of_none (by rw [Thread.op, h])
  have hopener : s'.opener = s.opener := by rw [R.opener, if_neg (by simp [h])]
  have hrec := R.recorders
  have hthreads := R.threads
  rw [hnext, Function.update_eq_self] at hrec hthreads
  exact State.ext hrec hthreads R.started hjni hopener

theorem Ran.self (R : Ran s s' t a r) :
    s'.threads t = ((s.threads t).next a r (s.recorders (s.threads t).recorder)).2 := by
  rw [R.threads, Function.update_self]

end

/-- What a new thread has and each statement of `run()` keeps, no step takes from a thread. -/
theorem step_thread {s s' : State w} {act : Action} {t : Nat} (P : Thread → Prop) (h : P (s.threads t))
    (hnew : ∀ o, P (.new o)) (hnext : ∀ a r o, act = .run t a → P ((s.threads t).next a r o).2) (hs : s.step act = .ok s') :
    P (s'.threads t) := by
  cases act with
  | start o =>
    cases hs
    by_cases ht : t = s.started
    · subst ht
      simp only [Function.update_self]
      exact hnew o
    · simpa only [Function.update_of_ne ht] using h
  | stop o => cases hs; exact h
  | run u a =>
    obtain ⟨r, R⟩ := step_run hs
    by_cases ht : t = u
    · subst ht
      rw [R.self]
      exact hnext a r _ rfl
    · rw [R.other ht]
      exact h

/-- No step touches a thread that has not been started. -/
theorem unstarted {s₀ s : State w} {guard : State w → Action → Prop} {as : List Action}
    (h : Machine.Run step guard s₀ as s) (h₀ : ∀ t, s₀.started ≤ t → s₀.threads t = .unstarted) :
    ∀ t, s.started ≤ t → s.threads t = .unstarted := by
  apply h.inv (fun s => ∀ t, s.started ≤ t → s.threads t = .unstarted) h₀
  intro s a s' hs _ hstep
  cases a with
  | start o =>
    cases hstep
    intro t ht
    simp only at ht ⊢
    rw [Function.update_of_ne (by omega)]
    exact hs t (by omega)
  | stop o => cases hstep; exact hs
  | run t a =>
    obtain ⟨r, R⟩ := step_run hstep
    intro u hu
    rw [R.started] at hu
    rw [R.threads]
    by_cases hut : u = t
    · subst hut
      rw [Function.update_self, hs u hu]
      rfl
    · rw [Function.update_of_ne hut]
      exact hs u hu

end State

/-! ## Where a thread can get to -/

/-- Before `isRecording = true`. -/
def Pc.Ahead : Pc → Prop
  | .checkRun | .setRun | .init | .getMinBufferSize | .newAudioRecord | .newBuffer | .startRecording | .setRecording => True
  | _ => False

/-- Behind `init` and not behind `close`. -/
def Pc.InSession : Pc → Prop
  | .checkRun | .setRun | .init | .clearFrames | .clearRun | .done => False
  | _ => True

namespace Thread
variable (a : Answer) (r : Ret) (o : Recorder) (th : Thread)

theorem next_recorder : (th.next a r o).2.recorder = th.recorder := by
  obtain ⟨i, pc, b, n, x, y⟩ := th
  cases pc with
  | newBuffer | read => simp only [next]; split <;> rfl
  | _ => rfl

theorem next_ahead (h : (th.next a r o).2.pc.Ahead) : th.pc.Ahead := by
  obtain ⟨i, pc, b, n, x, y⟩ := th
  cases pc with
  | loopTest | denoiseAndEnc | updateVolumeMax | stop | release =>
    simp only [next, call, goto] at h
    split at h <;> exact h
  | read =>
    simp only [next, call, goto] at h
    split at h <;> split at h <;> exact h
  | addFrames | close | clearFrames | clearRun | done => exact h
  | _ => trivial

/-- Only `isRecording = true` sets the flag. -/
theorem next_isRecording (h : th.pc ≠ .setRecording) : (th.next a r o).1.isRecording = o.isRecording := by
  obtain ⟨i, pc, b, n, x, y⟩ := th
  cases pc with
  | setRecording => exact absurd rfl h
  | newBuffer | read => simp only [next]; split <;> rfl
  | _ => rfl

/-- A session is entered by `init` and left by `close`. -/
theorem next_inSession (h : (th.next a r o).2.pc.InSession) : th.pc = .init ∨ (th.pc.InSession ∧ th.pc ≠ .close) := by
  obtain ⟨i, pc, b, n, x, y⟩ := th
  cases pc with
  | init => exact .inl rfl
  | checkRun => simp only [next, goto] at h; split at h <;> exact h.elim
  | setRun | close | clearFrames | clearRun | done => exact h.elim
  | _ => exact .inr ⟨trivial, by simp⟩

/-- Only three statements make a native call. -/
theorem op_eq_none (h : th.pc ≠ .init ∧ th.pc ≠ .denoiseAndEnc ∧ th.pc ≠ .close) : th.op a = none := by
  obtain ⟨i, pc, b, n, x, y⟩ := th
  obtain ⟨h₁, h₂, h₃⟩ := h
  cases pc <;> first | rfl | contradiction

/-- The Java `init()` asks for frames of 160 samples. -/
theorem op_sizePos {op : Op} (h : th.op a = some op) : op.SizePos := by
  unfold Thread.op at h
  split at h
  · cases h
    simp [Op.SizePos, samplingNum]
  · cases h; trivial
  · cases h; trivial
  · cases h

end Thread

/-! ## The native library under any interleaving -/

/-- A step keeps the native library in a reachable state, and its call counts the
`init` calls since the last `close`. -/
theorem State.Ran.reachable {s s' : State w} {t : Nat} {a : Answer} {r : Ret} (R : Ran s s' t a r) (h : s.jni.Reachable) :
    s'.jni.Reachable ∧
      ∀ op, (s.threads t).op a = some op → ∀ n : Nat, s.jni.codecOpen = n → s'.jni.codecOpen = op.count n := by
  cases hop : (s.threads t).op a with
  | none => exact ⟨R.jni_of_none hop ▸ h, fun op h => by cases h⟩
  | some op =>
    obtain ⟨hreach, hcount⟩ := h.of_step (R.step_of_some op hop) (Thread.op_sizePos _ _ hop)
    exact ⟨hreach, fun op' h => by cases h; exact hcount⟩

theorem State.step_reachable {s s' : State w} {a : Action} (h : s.jni.Reachable) (hs : s.step a = .ok s') :
    s'.jni.Reachable := by
  cases a with
  | start o => cases hs; exact h
  | stop o => cases hs; exact h
  | run t a =>
    obtain ⟨r, R⟩ := step_run hs
    exact (R.reachable h).1

/-- Whatever the threads do, and in whatever order, the two guard counters and the
two handles of the native library agree. -/
theorem State.run_coupled (os : Os) {guard : State w → Action → Prop} {as : List Action} {s : State w}
    (h : Machine.Run step guard (load w os) as s) : s.jni.Coupled :=
  (h.inv (fun s : State w => s.jni.Reachable) (.closed (Jni.load_closed w os)) fun _ _ _ I _ hs => step_reachable I hs).coupled

/-- A thread inside a session was inside before the step, or has just called `init`. -/
theorem State.Ran.inSession {s s' : State w} {t u : Nat} {a : Answer} {r : Ret} (R : Ran s s' t a r)
    (hu : (s'.threads u).pc.InSession) :
    ((s.threads u).pc.InSession ∧ (u = t → (s.threads u).pc ≠ .close)) ∨ (u = t ∧ (s.threads u).pc = .init) := by
  by_cases hut : u = t
  · subst hut
    rcases Thread.next_inSession _ _ _ _ (R.self ▸ hu) with hinit | ⟨hin, hclose⟩
    · exact .inr ⟨rfl, hinit⟩
    · exact .inl ⟨hin, fun _ => hclose⟩
  · rw [R.other hut] at hu
    exact .inl ⟨hu, fun h => absurd h hut⟩

end AudioRecorder.Java
