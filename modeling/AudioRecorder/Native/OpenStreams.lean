import AudioRecorder.Lib.Transducer
import AudioRecorder.Native.Coupling
import AudioRecorder.Native.Typestate
/-!
# What a call of `handleAmrEnc` leaves behind

`handleAmrEnc` opens the file before it looks at the size, and the mode it opens
it in creates a missing file. A frame that is too short is refused behind the
open: the call reports an error, and its stream stays open. Every other call is
clean, so a run ends with as many open streams as it began with exactly when none
of its calls is refused so (`handleAmrEnc_streams`).
-/

namespace AudioRecorder.Native

open Blocks (blocks)
open Codec (Word16)
open Machine (Run)
open Transducer (kept)

variable {w : World}

namespace AmrEnc

/-- The call opens the file and then refuses the frame. -/
def Leaks (m : AmrEnc w) (size : Int) : Prop := m.encode ≠ 0 ∧ w.fopenOk m.os.opens = true ∧ size < frameSize

instance (m : AmrEnc w) (size : Int) : Decidable (m.Leaks size) := inferInstanceAs (Decidable (_ ∧ _ ∧ _))

/-- The encoder, the files and the open streams are as before the call: at most
an `fopen` that failed was made. -/
def Untouched (m m' : AmrEnc w) : Prop := m' = { m with os := { m.os with opens := m'.os.opens } }

/-- The live encoder was given one frame of the buffer, its bytes are behind what
the file held, and the open streams are as before the call. -/
structure Appended (m m' : AmrEnc w) (outfile : String) (buf : List Word16) (off : Int) (st : w.enc.State)
    (frame : List Word16) : Prop where
  live : m.heap.get m.amr = .ok st
  read : Buffer.read buf off frameSize = .ok frame
  enc : m'.heap.get m.amr = .ok (w.enc.encode st m.mode frame).1
  encoded : m'.encoded = m.encoded ++ [⟨off, frame⟩]
  os : m'.os = m.os.saved outfile (m.os.content outfile ++ (w.enc.encode st m.mode frame).2.1)
  encode : m'.encode = m.encode
  amr : m'.amr = m.amr
  mode : m'.mode = m.mode

/-- A call that fails changes nothing, and one that succeeds appends one frame. -/
structure Clean (m m' : AmrEnc w) (outfile : String) (buf buf' : List Word16) (off r : Int) : Prop where
  failed : r ≠ 0 → m.Untouched m' ∧ buf' = buf
  done : r = 0 → ∃ st frame, m.Appended m' outfile buf off st frame

/-- The four ways in which a call of `handleAmrEnc` returns. -/
inductive Handled (m : AmrEnc w) (outfile : String) (buf : List Word16) (off size : Int) :
    Int → List Word16 → AmrEnc w → Prop
  | uninitialised (h : m.encode = 0) : Handled m outfile buf off size (-1) buf m
  | refused (h : m.encode ≠ 0) (hf : w.fopenOk m.os.opens = false) :
      Handled m outfile buf off size 1 buf { m with os := m.os.failed }
  | short (h : m.Leaks size) : Handled m outfile buf off size (-1) buf { m with os := m.os.leaked outfile }
  | done {buf' : List Word16} {m' : AmrEnc w} {st : w.enc.State} {frame : List Word16} (h : m.encode ≠ 0)
      (hs : frameSize ≤ size) (ha : m.Appended m' outfile buf off st frame) : Handled m outfile buf off size 0 buf' m'

variable {m m' : AmrEnc w} {outfile : String} {channels off size r : Int} {buf buf' : List Word16}

/-- An encoding that returns has read a whole frame and written to a live encoder. -/
theorem encoderInterfaceEncode_ok {bytes : List Codec.UWord8} (h : m.encoderInterfaceEncode buf off = .ok (bytes, buf', m')) :
    ∃ st frame heap, m.heap.get m.amr = .ok st ∧ Buffer.read buf off frameSize = .ok frame ∧
      bytes = (w.enc.encode st m.mode frame).2.1 ∧ heap.get m.amr = .ok (w.enc.encode st m.mode frame).1 ∧
      m' = { m with heap, encoded := m.encoded ++ [⟨off, frame⟩] } := by
  obtain ⟨st, hst, h⟩ := Res.bind_ok.1 h
  obtain ⟨frame, hframe, h⟩ := Res.bind_ok.1 h
  obtain ⟨scratch, -, h⟩ := Res.bind_ok.1 h
  obtain ⟨heap, hput, h⟩ := Res.bind_ok.1 h
  cases h
  obtain ⟨heap', hput', hlive, -⟩ := (Arena.get_ok hst).put (w.enc.encode st m.mode frame).1
  rw [hput'] at hput
  cases hput
  exact ⟨st, frame, _, hst, hframe, rfl, hlive.get, rfl⟩

theorem handleAmrEnc_handled (h : m.handleAmrEnc outfile channels buf off size = .ok (r, buf', m')) :
    m.Handled outfile buf off size r buf' m' := by
  unfold handleAmrEnc at h
  by_cases he : m.encode = 0
  · rw [if_pos he] at h
    cases h
    exact .uninitialised he
  · rw [if_neg he] at h
    cases hf : w.fopenOk m.os.opens with
    | false =>
      rw [Os.fopen_failed hf] at h
      cases h
      exact .refused he hf
    | true =>
      rw [Os.fopen_ab hf] at h
      by_cases hs : size < frameSize
      · simp only [if_pos hs] at h
        cases h
        exact .short ⟨he, hf, hs⟩
      · simp only [if_neg hs] at h
        obtain ⟨⟨bytes, buf₁, m₁⟩, henc, h⟩ := Res.bind_ok.1 h
        cases h
        obtain ⟨st, frame, heap, hlive, hread, rfl, hst, rfl⟩ := encoderInterfaceEncode_ok henc
        exact .done he (Int.not_lt.1 hs) ⟨hlive, hread, hst, rfl, Os.fwrite_fclose_leaked outfile _, rfl, rfl, rfl⟩

/-! ## One call -/

/-- A call is clean exactly when it does not leak. -/
theorem handleAmrEnc_clean_iff (h : m.handleAmrEnc outfile channels buf off size = .ok (r, buf', m')) :
    m.Clean m' outfile buf buf' off r ↔ ¬ m.Leaks size := by
  cases handleAmrEnc_handled h with
  | uninitialised he =>
    have hclean : m.Clean m outfile buf buf off (-1) := ⟨fun _ => ⟨rfl, rfl⟩, fun h0 => absurd h0 (by decide)⟩
    exact ⟨fun _ hl => hl.1 he, fun _ => hclean⟩
  | refused he hf =>
    have hclean : m.Clean { m with os := m.os.failed } outfile buf buf off 1 :=
      ⟨fun _ => ⟨rfl, rfl⟩, fun h0 => absurd h0 (by decide)⟩
    refine ⟨?_, fun _ => hclean⟩
    rintro - ⟨-, hok, -⟩
    rw [hf] at hok
    cases hok
  | short hl =>
    refine ⟨?_, fun hn => absurd hl hn⟩
    intro hclean
    -- the stream is still open
    have hstreams := congrArg (fun m => m.os.streams.length) (hclean.failed (by decide)).1
    simp [Os.leaked] at hstreams
  | done he hs ha =>
    have hclean : m.Clean m' outfile buf buf' off 0 := ⟨fun h0 => absurd rfl h0, fun _ => ⟨_, _, ha⟩⟩
    refine ⟨?_, fun _ => hclean⟩
    rintro - ⟨-, -, hlt⟩
    omega

/-- A call leaves one stream more open if it leaks, and as many as before if not. -/
theorem handleAmrEnc_streams_length (h : m.handleAmrEnc outfile channels buf off size = .ok (r, buf', m')) :
    m'.os.streams.length = m.os.streams.length + if m.Leaks size then 1 else 0 := by
  cases handleAmrEnc_handled h with
  | uninitialised he => rw [if_neg fun hl => hl.1 he, Nat.add_zero]
  | refused he hf =>
    have hn : ¬ m.Leaks size := by
      rintro ⟨-, hok, -⟩
      rw [hf] at hok
      cases hok
    rw [if_neg hn]
    rfl
  | short hl => rw [if_pos hl]; rfl
  | done he hs ha =>
    have hn : ¬ m.Leaks size := by
      rintro ⟨-, -, hlt⟩
      omega
    rw [if_neg hn, Nat.add_zero, ha.os]
    rfl

/-! ## Runs -/

/-- The call is not one that leaks. -/
def Tidy (m : AmrEnc w) : EncOp → Prop
  | .handle _ _ _ _ size => ¬ m.Leaks size
  | _ => True

instance (m : AmrEnc w) (op : EncOp) : Decidable (m.Tidy op) :=
  match op with
  | .handle .. => inferInstanceAs (Decidable (¬ _))
  | .init .. => isTrue trivial
  | .exit => isTrue trivial

theorem amrEncInit_streams {bits rate : Int} (h : m.amrEncInit outfile bits channels rate = .ok (r, m')) :
    m'.os.streams = m.os.streams := by
  obtain ⟨e, -, h⟩ := Res.bind_ok.1 h
  by_cases he : m.encode = 0
  · by_cases hb : bits = 16
    · simp only [he, hb, ne_eq, not_true_eq_false, if_false] at h
      cases hf : w.fopenOk m.os.opens with
      | false =>
        simp only [encoderInterfaceInit] at h
        rw [Os.fopen_failed hf] at h
        cases h
        rfl
      | true =>
        obtain ⟨out, os, ho, hw⟩ := Os.fopen_wb hf outfile magic
        simp only [encoderInterfaceInit] at h
        rw [ho] at h
        cases h
        simp only [hw]
        rfl
    · simp only [he, hb, ne_eq, not_true_eq_false, not_false_eq_true, if_false, if_true] at h
      cases h
      rfl
  · simp only [he, ne_eq, not_false_eq_true, if_true] at h
    cases h
    rfl

theorem armEncExit_streams {e : Option Int} (h : m.armEncExit = .ok (e, m')) : m'.os.streams = m.os.streams := by
  unfold armEncExit at h
  split at h
  · cases h
    rfl
  · obtain ⟨m₁, hexit, h⟩ := Res.bind_ok.1 h
    obtain ⟨heap, -, hexit⟩ := Res.bind_ok.1 hexit
    cases hexit
    cases h
    rfl

/-- Only a call that leaks changes the number of open streams. -/
theorem step_streams {op : EncOp} (h : m.step op = .ok m') :
    m'.os.streams.length = m.os.streams.length + if m.Tidy op then 0 else 1 := by
  cases op with
  | init path bits channels rate =>
    obtain ⟨⟨r, m₁⟩, hi, h⟩ := Res.bind_ok.1 h
    cases h
    rw [amrEncInit_streams hi]
    rfl
  | handle path channels buf off size =>
    obtain ⟨⟨r, buf', m₁⟩, hh, h⟩ := Res.bind_ok.1 h
    cases h
    rw [handleAmrEnc_streams_length hh]
    simp only [Tidy]
    split <;> simp_all
  | exit =>
    obtain ⟨⟨r, m₁⟩, he, h⟩ := Res.bind_ok.1 h
    cases h
    rw [armEncExit_streams he]
    rfl

/-- A run never has fewer open streams than it began with, and as many only if no call leaks. -/
theorem run_streams {ops : List EncOp} (h : Run step (fun _ _ => True) m ops m') :
    m.os.streams.length ≤ m'.os.streams.length ∧
      (m'.os.streams.length = m.os.streams.length ↔ Run step Tidy m ops m') := by
  induction h with
  | nil => exact ⟨Nat.le_refl _, fun _ => .nil, fun _ => rfl⟩
  | @snoc ops s s' op hr _ hstep ih =>
    obtain ⟨hle, hiff⟩ := ih
    have hlen := step_streams hstep
    rw [hr.snoc_iff hstep]
    by_cases ht : s.Tidy op
    · rw [if_pos ht, Nat.add_zero] at hlen
      rw [hlen]
      exact ⟨hle, fun he => ⟨hiff.1 he, ht⟩, fun hrun => hiff.2 hrun.1⟩
    · rw [if_neg ht] at hlen
      exact ⟨by omega, fun he => absurd he (by omega), fun hrun => absurd hrun.2 ht⟩

/-- In every state of the module a call that returns is clean exactly when it does
not open the file for a frame it then refuses; and a run of calls ends with as many
open streams as it began with exactly when none of its calls does that. -/
theorem handleAmrEnc_streams (m : AmrEnc w) :
    (∀ outfile channels buf off size r buf' m', m.handleAmrEnc outfile channels buf off size = .ok (r, buf', m') →
        (m.Clean m' outfile buf buf' off r ↔ ¬ m.Leaks size)) ∧
      ∀ ops m', Run step (fun _ _ => True) m ops m' →
        (m'.os.streams.length = m.os.streams.length ↔ Run step Tidy m ops m') := by
  constructor
  · intro outfile channels buf off size r buf' m' h
    exact handleAmrEnc_clean_iff h
  · intro ops m' h
    exact (run_streams h).2

/-- One whole frame, encoded by a module just opened. -/
theorem handleAmrEnc_streams_first :
    ∃ m : AmrEnc (.plain fun _ => true),
      Run step Tidy (load _ ⟨noFiles, 0, []⟩) [.init "f" 16 1 8000, .handle "f" 1 (List.replicate 160 0) 0 160] m ∧
        m.os.streams.length = 0 := by
  obtain ⟨m, hr, -⟩ : ∃ m : AmrEnc (.plain fun _ => true),
      Run step Tidy (load _ ⟨noFiles, 0, []⟩) [.init "f" 16 1 8000, .handle "f" 1 (List.replicate 160 0) 0 160] m ∧
        m.encode = 1 := Run.of_map (by decide +kernel)
  have hall : Run step (fun _ _ => True) (load _ ⟨noFiles, 0, []⟩) _ m := hr.mono fun _ _ _ => trivial
  exact ⟨m, hr, ((handleAmrEnc_streams _).2 _ m hall).2 hr⟩

/-- A frame of 100 samples is refused, and its stream stays open. -/
theorem handleAmrEnc_short :
    ¬ ∀ (m m' : AmrEnc (.plain fun _ => true)) (buf buf' : List Word16) (r : Int),
      (load _ ⟨noFiles, 0, []⟩).amrEncInit "f" 16 1 8000 = .ok (0, m) →
        m.handleAmrEnc "f" 1 buf 0 buf.length = .ok (r, buf', m') → m.Clean m' "f" buf buf' 0 r := by
  intro hall
  have hclean := hall _ _ (List.replicate 100 0) _ _ rfl rfl
  have hstreams := congrArg (fun m => m.os.streams.length) (hclean.failed (by decide)).1
  cases hstreams

end AmrEnc

/-! ## A session's streams -/

namespace Session
variable (s : Session w)

theorem feed_streams (i : Nat) (x : List Word16) :
    (s.feed i x).os.streams.length =
      s.os.streams.length + if s.frameSize < Native.frameSize ∧ w.fopenOk s.os.opens = true then 1 else 0 := by
  simp only [feed, EncView.handle]
  by_cases hok : w.fopenOk s.os.opens = true
  · by_cases hs : s.frameSize < Native.frameSize
    · simp [hok, hs, Os.leaked]
    · simp [hok, hs, Os.saved, Os.setFile]
  · simp [hok, Os.failed]

/-- Every frame that is too short leaves a stream open, if its `fopen` succeeds. -/
theorem feeds_streams (i : Nat) (xs : List (List Word16)) :
    (s.feeds i xs).os.streams.length =
      s.os.streams.length + if s.frameSize < Native.frameSize then (kept w.fopenOk s.os.opens xs).length else 0 := by
  induction xs generalizing s i with
  | nil => simp [feeds, kept]
  | cons x xs ih =>
    rw [feeds, ih, feed_streams, feed_opens, feed_frameSize]
    by_cases hs : s.frameSize < Native.frameSize
    · by_cases hok : w.fopenOk s.os.opens = true
      · simp only [hs, hok, and_self, if_true, kept, List.length_cons]
        omega
      · simp [hs, hok, kept]
    · simp [hs]

end Session

namespace Jni

/-- A call on an open session leaves open one stream for each of its frames whose
`fopen` succeeds, if the session's frames are too short, and none otherwise. -/
theorem denoiseAndEnc_streams (os : Os) {j : Jni w} (h : Reached os j) (hopen : j.codecOpen ≠ 0) (lin : List Word16)
    (offset size : Int) (junk : Nat → Word16) :
    ∃ r j', j.denoiseAndEnc lin offset size junk = .ok (r, j') ∧
      j'.amr.os.streams.length = j.amr.os.streams.length +
        if j.frameSize < Native.frameSize then
          (kept w.fopenOk j.amr.os.opens (blocks j.frameSize.toNat (region lin offset size junk))).length
        else 0 := by
  obtain ⟨s, ho, hpos⟩ := h.opened hopen
  obtain ⟨k, hk⟩ := Int.eq_ofNat_of_zero_le hpos.le
  obtain ⟨j', hd, ho', -⟩ := denoiseAndEnc_spec ho hk (by omega) lin offset size junk
  refine ⟨_, j', hd, ?_⟩
  rw [ho'.amr.os, Session.feeds_streams, ← ho.amr.os, ho.frameSize, hk, Int.toNat_natCast]

end Jni

end AudioRecorder.Native
