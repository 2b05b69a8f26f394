import AudioRecorder.Lib.Blocks
import AudioRecorder.Native.AmrEnc
/-!
# `speex_jni.cpp`: the JNI session

The three exported functions share the guard counter `codec_open`, the denoiser
handle and the frame size. `Session` is what an open session is about, and
`denoiseAndEnc_spec` is the simulation: a call feeds the session the consecutive
full frames of what `GetShortArrayRegion` left in the buffer. `count` and the
log lines are left out, since nothing reads them.
-/

namespace AudioRecorder.Native

open Codec (Word16 UWord8 Mode)
open Blocks (blocks takeBlocks)

def filepath : String := "/sdcard/amrQAQ.amr"

/-- One step of the denoiser: where its frame lies, and the frame before and after. -/
structure Denoised where
  off : Int
  input : List Word16
  output : List Word16
  deriving DecidableEq, Repr

/-- The globals of `speex_jni.cpp`, with the denoiser objects they reach and the
encoder module. `denoised` is a history variable. -/
structure Jni (w : World) where
  codecOpen : Int
  denoiseState : Ptr
  frameSize : Int
  samplingRate : Int
  channelNum : Int
  heap : Arena w.den.State
  denoised : List Denoised
  amr : AmrEnc w

/-- How a native call ends: its `return` value, if it executes one, and whether
a Java exception is pending. -/
structure Ret where
  value : Option Int
  pending : Bool
  deriving DecidableEq, Repr

variable {w : World}

/-- The `speex_preprocess_ctl` calls of `init`. -/
def initCtls : List SpeexCtl :=
  [.setDenoise 1, .setNoiseSuppress (-25), .setAgc 0, .setDereverb 0, .setDereverbDecay 0, .setDereverbLevel 0]

namespace Jni

/-- The library as loaded. -/
def load (w : World) (os : Os) : Jni w := ⟨0, none, 160, 8000, 1, .empty, [], .load w os⟩

/-- `speex_preprocess_state_init` and the `speex_preprocess_ctl` calls. -/
def newDenoiser (w : World) (size rate : Int) : w.den.State := initCtls.foldl w.den.ctl (w.den.init size rate)

/-- `IMSpeexDSPAndEnc_init`. The result of `amr_enc_init` is dropped, and the
successful path ends without a `return`. -/
def init (size rate channel : Int) (j : Jni w) : Res (Ret × Jni w) := do
  let open' := j.codecOpen
  let codecOpen ← incr j.codecOpen
  let j := { j with codecOpen }
  -- rejected, but counted
  if open' ≠ 0 then return (.mk (some (-1)) false, j)
  else
    let j := { j with frameSize := size, samplingRate := rate, channelNum := channel }
    let j := { j with denoiseState := some j.heap.next, heap := j.heap.alloc (newDenoiser w size rate) }
    let (_, amr) ← j.amr.amrEncInit filepath 16 1 8000
    return (.mk none false, { j with amr })

/-- `IMSpeexDSPAndEnc_close`. `denoise_state` keeps its value. -/
def close (j : Jni w) : Res (Ret × Jni w) :=
  if j.codecOpen = 0 then return (.mk (some (-1)) false, j)
  else do
    let heap ← j.heap.free j.denoiseState
    let (_, amr) ← j.amr.armEncExit
    return (.mk none false, { j with heap, amr, codecOpen := 0 })

/-- `GetShortArrayRegion` into a buffer of `size` samples: a region outside the
array leaves the buffer as it is and an exception pending. -/
def getShortArrayRegion (lin : List Word16) (offset size : Int) (buffer : List Word16) : List Word16 × Bool :=
  if 0 ≤ offset ∧ 0 ≤ size ∧ offset + size ≤ lin.length then ((lin.drop offset.toNat).take size.toNat, false)
  else (buffer, true)

/-- `malloc(sizeof(short) * size)`: whatever the memory held before. -/
def malloc (size : Int) (junk : Nat → Word16) : List Word16 := (List.range size.toNat).map junk

/-- The body of the loop of `denoiseAndEnc`. -/
def denoiseStep (i : Nat) (buffer : List Word16) (j : Jni w) : Res (List Word16 × Jni w) := do
  let st ← j.heap.get j.denoiseState
  let off := i * j.frameSize
  let frame ← Buffer.read buffer off (w.den.frameSize st)
  let (st, out) := w.den.run st frame
  let buffer ← Buffer.write buffer off out
  let heap ← j.heap.put st j.denoiseState
  let j := { j with heap, denoised := j.denoised ++ [Denoised.mk off frame out] }
  let (_, buffer, amr) ← j.amr.handleAmrEnc filepath 1 buffer off j.frameSize
  return (buffer, { j with amr })

/-- The loop of `denoiseAndEnc`: `n` steps from step `i` on. -/
def denoiseLoop : Nat → Nat → List Word16 → Jni w → Res (List Word16 × Jni w)
  | 0, _, buffer, j => return (buffer, j)
  | n + 1, i, buffer, j => do
    let (buffer, j) ← denoiseStep i buffer j
    denoiseLoop n (i + 1) buffer j

/-- `IMSpeexDSPAndEnc_denoiseAndEnc`. A pending exception stops nothing here, and
the open path ends without a `return`. -/
def denoiseAndEnc (lin : List Word16) (offset size : Int) (junk : Nat → Word16) (j : Jni w) : Res (Ret × Jni w) :=
  if j.codecOpen = 0 then return (.mk (some (-1)) false, j)
  else do
    let (buffer, pending) := getShortArrayRegion lin offset size (malloc size junk)
    let n ← divInt size j.frameSize
    let (_, j) ← denoiseLoop n.toNat 0 buffer j
    return (.mk none pending, j)

end Jni

/-! ## The open session -/

/-- What an open session is about. -/
structure Session (w : World) extends EncView w where
  frameSize : Int
  den : w.den.State
  denoised : List Denoised

namespace Session

/-- The session an accepted `init` opens. -/
def start (w : World) (size rate : Int) (os : Os) (denoised : List Denoised) (encoded : List Slice) : Session w where
  enc := w.enc.init 0
  os := AmrEnc.initOs w os filepath
  encoded := encoded
  frameSize := size
  den := Jni.newDenoiser w size rate
  denoised := denoised

/-- Step `i` of a call, on the frame `x`. -/
def feed (s : Session w) (i : Nat) (x : List Word16) : Session w where
  toEncView := s.toEncView.handle filepath (i * s.frameSize) s.frameSize (w.den.run s.den x).2
  frameSize := s.frameSize
  den := (w.den.run s.den x).1
  denoised := s.denoised ++ [⟨i * s.frameSize, x, (w.den.run s.den x).2⟩]

/-- The steps of a call from step `i` on, one for each frame. -/
def feeds (s : Session w) (i : Nat) : List (List Word16) → Session w
  | [] => s
  | x :: xs => (s.feed i x).feeds (i + 1) xs

@[simp] theorem feed_frameSize (s : Session w) (i : Nat) (x : List Word16) : (s.feed i x).frameSize = s.frameSize := rfl

theorem feed_opens (s : Session w) (i : Nat) (x : List Word16) : (s.feed i x).os.opens = s.os.opens + 1 := by
  simp only [feed, EncView.handle]
  split
  · split <;> rfl
  · rfl

@[simp] theorem feeds_frameSize (s : Session w) (i : Nat) (xs : List (List Word16)) :
    (s.feeds i xs).frameSize = s.frameSize := by
  induction xs generalizing s i with
  | nil => rfl
  | cons x xs ih => simp [feeds, ih]

end Session

namespace EncView

/-- `handle` depends only on the samples it encodes. -/
theorem handle_congr (v : EncView w) (path : String) (off : Int) {size : Int} {x y : List Word16}
    (h : Native.frameSize ≤ size → x.take Native.frameSize = y.take Native.frameSize) :
    v.handle path off size x = v.handle path off size y := by
  unfold handle
  split
  · split
    · rfl
    · rw [h (by omega)]
  · rfl

end EncView

namespace Jni

/-- The session is open and `s` is what it holds: one live denoiser behind
`denoise_state`, initialised with the session's frame size, and one live encoder. -/
structure Open (j : Jni w) (s : Session w) : Prop where
  codecOpen : 0 < j.codecOpen
  frameSize : j.frameSize = s.frameSize
  only : j.heap.Only j.denoiseState s.den
  denFrame : w.den.frameSize s.den = s.frameSize
  amr : j.amr.Open s.toEncView
  denoised : j.denoised = s.denoised

/-- No session is open: both counters are 0 and every handle is released. -/
structure Closed (j : Jni w) : Prop where
  codecOpen : j.codecOpen = 0
  freed : j.heap.AllFreed
  amr : j.amr.Closed

/-- The handles and the guards are as before the call. -/
structure Keeps (j j' : Jni w) : Prop where
  codecOpen : j'.codecOpen = j.codecOpen
  denoiseState : j'.denoiseState = j.denoiseState
  next : j'.heap.next = j.heap.next
  amr : j.amr.Keeps j'.amr

/-- The call made the two handles. -/
structure Opens (j j' : Jni w) : Prop where
  codecOpen : j'.codecOpen = 1
  denoiseState : j'.denoiseState = some j.heap.next
  next : j'.heap.next = j.heap.next + 1
  amr : j.amr.Opens j'.amr

theorem Keeps.refl (j : Jni w) : j.Keeps j := ⟨rfl, rfl, rfl, rfl, rfl, rfl⟩

theorem Keeps.trans {j₁ j₂ j₃ : Jni w} (h : j₁.Keeps j₂) (h' : j₂.Keeps j₃) : j₁.Keeps j₃ :=
  ⟨h'.codecOpen.trans h.codecOpen, h'.denoiseState.trans h.denoiseState, h'.next.trans h.next,
    h'.amr.encode.trans h.amr.encode, h'.amr.amr.trans h.amr.amr, h'.amr.next.trans h.amr.next⟩

theorem load_closed (w : World) (os : Os) : (load w os).Closed := ⟨rfl, Arena.empty_allFreed, AmrEnc.load_closed w os⟩

variable {j : Jni w} {s : Session w} {size rate channel : Int}

theorem newDenoiser_frameSize (w : World) (size rate : Int) : w.den.frameSize (newDenoiser w size rate) = size := by
  simp [newDenoiser, initCtls]

/-- An accepted `init` opens a fresh session. -/
theorem init_spec (hc : j.Closed) (size rate channel : Int) :
    ∃ j', j.init size rate channel = .ok (⟨none, false⟩, j') ∧
      j'.Open (.start w size rate j.amr.os j.denoised j.amr.encoded) ∧ j.Opens j' := by
  obtain ⟨r, amr', hi, ho, hn⟩ := AmrEnc.amrEncInit_spec filepath 1 8000 hc.amr
  have hinc : incr 0 = .ok 1 := rfl
  have hfreed : (j.heap.alloc (newDenoiser w size rate)).Only (some j.heap.next) (newDenoiser w size rate) := hc.freed.alloc
  simp only [init, hc.codecOpen, hinc, Res.ok_bind, ne_eq, not_true_eq_false, if_false, hi]
  exact ⟨_, rfl, ⟨by simp, rfl, hfreed, newDenoiser_frameSize w size rate, ho, rfl⟩, ⟨rfl, rfl, rfl, hn⟩⟩

/-- On an open session `init` only counts. -/
theorem init_again (hne : j.codecOpen ≠ 0) (hmax : j.codecOpen ≠ intMax) :
    j.init size rate channel = .ok (⟨some (-1), false⟩, { j with codecOpen := j.codecOpen + 1 }) := by
  simp only [init, incr_ok hmax, Res.ok_bind, ne_eq, hne, not_false_eq_true, if_true]
  rfl

/-- An `init` that returns has not overflowed the guard counter. -/
theorem init_max {p : Ret × Jni w} (h : j.init size rate channel = .ok p) : j.codecOpen ≠ intMax := by
  intro hmax
  simp only [init, incr, if_pos hmax] at h
  cases h

/-- Closing an open session releases its denoiser and its encoder. -/
theorem close_spec (ho : j.Open s) :
    ∃ j', j.close = .ok (⟨none, false⟩, j') ∧ j'.Closed ∧ j'.amr.os = s.os ∧ j'.denoised = s.denoised ∧
      j'.amr.encoded = s.encoded ∧ j'.heap.next = j.heap.next ∧ j'.amr.heap.next = j.amr.heap.next := by
  have hne : j.codecOpen ≠ 0 := by have := ho.codecOpen; omega
  obtain ⟨heap', hf, hall, hnext⟩ := ho.only.free
  obtain ⟨amr', he, hc, hos, henc, hnext'⟩ := AmrEnc.armEncExit_spec ho.amr
  refine ⟨{ j with heap := heap', amr := amr', codecOpen := 0 }, ?_, ⟨rfl, hall, hc⟩, hos, ho.denoised, henc, hnext, hnext'⟩
  simp only [close, if_neg hne, hf, he, Res.ok_bind]
  rfl

theorem close_closed (hc : j.codecOpen = 0) : j.close = .ok (⟨some (-1), false⟩, j) := by
  rw [close, if_pos hc]; rfl

theorem denoiseAndEnc_closed (hc : j.codecOpen = 0) (lin : List Word16) (offset size : Int) (junk : Nat → Word16) :
    j.denoiseAndEnc lin offset size junk = .ok (⟨some (-1), false⟩, j) := by
  rw [denoiseAndEnc, if_pos hc]; rfl

/-- One step feeds the session the frame in the current slice of the buffer, and
changes nothing behind that slice. -/
theorem denoiseStep_spec (ho : j.Open s) {k : Nat} (hk : s.frameSize = k) {buf : List Word16} {i : Nat}
    (hb : (i + 1) * k ≤ buf.length) :
    ∃ buf' j', denoiseStep i buf j = .ok (buf', j') ∧ buf'.length = buf.length ∧
      buf'.drop ((i + 1) * k) = buf.drop ((i + 1) * k) ∧ j'.Open (s.feed i ((buf.drop (i * k)).take k)) ∧
      j.Keeps j' := by
  have hik : (i + 1) * k = i * k + k := by rw [Nat.succ_mul]
  have hoff : (i : Int) * s.frameSize = (i * k : Nat) := by rw [hk]; push_cast; rfl
  set frame := (buf.drop (i * k)).take k with hframe
  have hlen : (w.den.run s.den frame).2.length = k := by simp [hframe]; omega
  obtain ⟨buf₁, hw, hl₁, htake, hdrop⟩ :=
    Buffer.write_ok (show i * k + (w.den.run s.den frame).2.length ≤ buf.length by omega)
  rw [hlen] at htake hdrop
  obtain ⟨heap', hput, honly, hnext⟩ := ho.only.put (w.den.run s.den frame).1
  obtain ⟨r, buf', amr', hh, hl, hd, hshort, hopen, hkeeps⟩ :=
    AmrEnc.handleAmrEnc_spec filepath 1 ho.amr
      (show Native.frameSize ≤ s.frameSize → i * k + Native.frameSize ≤ buf₁.length from fun h => by rw [hk] at h; omega)
  rw [EncView.handle_congr (y := (w.den.run s.den frame).2) _ _ _ (fun h => by
    rw [← htake, List.take_take, Nat.min_eq_left (by omega)])] at hopen
  have hrest : buf'.drop ((i + 1) * k) = buf.drop ((i + 1) * k) := by
    rw [hik, ← hdrop]
    rcases lt_or_ge s.frameSize Native.frameSize with hs | hs
    · rw [hshort hs]
    · have := congrArg (List.drop (k - Native.frameSize)) (hd hs)
      rw [List.drop_drop, List.drop_drop, show i * k + Native.frameSize + (k - Native.frameSize) = i * k + k by omega] at this
      exact this
  let step : Denoised := ⟨(i * k : Nat), frame, (w.den.run s.den frame).2⟩
  refine ⟨buf', { j with heap := heap', denoised := j.denoised ++ [step], amr := amr' }, ?_, hl.trans hl₁, hrest, ?_,
    ⟨rfl, rfl, hnext, hkeeps⟩⟩
  · simp only [denoiseStep, ho.only.1.get, Res.ok_bind, ho.frameSize, ho.denFrame, hoff]
    rw [hk, Buffer.read_ok (by omega)]
    simp only [Res.ok_bind, ← hframe, hw, hput]
    rw [← hk, hh]
    rfl
  · refine ⟨ho.codecOpen, ho.frameSize, honly, by simp [Session.feed, ho.denFrame], ?_, ?_⟩
    · simpa only [Session.feed, hoff] using hopen
    · simp only [Session.feed, hoff, ho.denoised, step]

/-- The loop feeds the session the consecutive frames of the buffer. -/
theorem denoiseLoop_spec {k : Nat} (n : Nat) : ∀ {i : Nat} {buf : List Word16} {j : Jni w} {s : Session w},
    j.Open s → s.frameSize = k → (i + n) * k ≤ buf.length →
    ∃ buf' j', denoiseLoop n i buf j = .ok (buf', j') ∧ j'.Open (s.feeds i (takeBlocks k n (buf.drop (i * k)))) ∧
      j.Keeps j' := by
  induction n with
  | zero => exact fun {i buf j s} ho _ _ => ⟨buf, j, rfl, ho, .refl j⟩
  | succ n ih =>
    intro i buf j s ho hk hb
    obtain ⟨buf₁, j₁, hstep, hl, hrest, ho₁, hc₁⟩ :=
      denoiseStep_spec ho hk (show (i + 1) * k ≤ buf.length from le_trans (Nat.mul_le_mul_right k (by omega)) hb)
    obtain ⟨buf₂, j₂, hloop, ho₂, hc₂⟩ := ih ho₁ hk
      (show (i + 1 + n) * k ≤ buf₁.length by rwa [hl, Nat.add_assoc, Nat.add_comm 1])
    refine ⟨buf₂, j₂, ?_, ?_, hc₁.trans hc₂⟩
    · simp only [denoiseLoop, hstep, Res.ok_bind, hloop]
    · have : buf.drop ((i + 1) * k) = (buf.drop (i * k)).drop k := by rw [List.drop_drop, Nat.succ_mul]
      rw [hrest, this] at ho₂
      exact ho₂

/-- What `GetShortArrayRegion` leaves in the buffer. -/
def region (lin : List Word16) (offset size : Int) (junk : Nat → Word16) : List Word16 :=
  (getShortArrayRegion lin offset size (malloc size junk)).1

theorem region_length (lin : List Word16) (offset size : Int) (junk : Nat → Word16) :
    (region lin offset size junk).length = size.toNat := by
  unfold region getShortArrayRegion
  split
  · simp; omega
  · simp [malloc]

/-- A call on an open session feeds it the consecutive full frames of the buffer. -/
theorem denoiseAndEnc_spec (ho : j.Open s) {k : Nat} (hk : s.frameSize = k) (hpos : 0 < k) (lin : List Word16)
    (offset size : Int) (junk : Nat → Word16) :
    ∃ j', j.denoiseAndEnc lin offset size junk =
        .ok (⟨none, (getShortArrayRegion lin offset size (malloc size junk)).2⟩, j') ∧
      j'.Open (s.feeds 0 (blocks k (region lin offset size junk))) ∧ j.Keeps j' := by
  have hne : j.codecOpen ≠ 0 := by have := ho.codecOpen; omega
  have hn : (size.tdiv k).toNat = size.toNat / k := by
    rcases Int.le_total 0 size with h | h
    · obtain ⟨m, rfl⟩ := Int.eq_ofNat_of_zero_le h
      rw [Int.tdiv_eq_ediv_of_nonneg h, ← Int.natCast_div, Int.toNat_natCast, Int.toNat_natCast]
    · have : size.tdiv k ≤ 0 := by
        have := Int.tdiv_nonneg (a := -size) (b := k) (by omega) (by omega)
        rw [Int.neg_tdiv] at this; omega
      simp [Int.toNat_of_nonpos this, Int.toNat_of_nonpos h]
  obtain ⟨buf', j', hloop, ho', hc'⟩ := denoiseLoop_spec (size.toNat / k) ho hk
    (show (0 + size.toNat / k) * k ≤ (region lin offset size junk).length by
      rw [region_length, Nat.zero_add]; exact Nat.div_mul_le_self _ _)
  refine ⟨j', ?_, ?_, hc'⟩
  · simp only [denoiseAndEnc, if_neg hne, ho.frameSize, hk, divInt_pos size (show (0 : Int) < k by omega), Res.ok_bind, hn]
    rw [show (getShortArrayRegion lin offset size (malloc size junk)).1 = region lin offset size junk from rfl, hloop]
    rfl
  · rw [blocks, region_length]
    simpa using ho'

end Jni

end AudioRecorder.Native
