import AudioRecorder.Native.Platform
/-!
# `amr-enc.c`: the encoder module

The module's globals are the guard counter `encode`, the encoder handle `amr`
and `mode`. `handleAmrEnc` is given a pointer into a buffer, modelled as the
buffer and an offset. `EncView` is what an open session of the module is about:
the encoder's state, the files, and the slices encoded so far; `handleAmrEnc_spec`
says that on an open module the call is the view's `handle`.
-/

namespace AudioRecorder.Native

open Codec (Word16 UWord8 Mode)

/-- `FRAME_SIZE`. -/
def frameSize : Nat := 160

/-- `"#!AMR\n"`. -/
def magic : List UWord8 := [0x23, 0x21, 0x41, 0x4D, 0x52, 0x0A]

/-- Samples read from a buffer, and where. -/
structure Slice where
  off : Int
  samples : List Word16
  deriving DecidableEq, Repr

/-- The globals of `amr-enc.c`, with the encoder objects and the files they
reach. `encoded` is a history variable: what the encoder was given. -/
structure AmrEnc (w : World) where
  encode : Int
  amr : Ptr
  mode : Mode
  heap : Arena w.enc.State
  os : Os
  encoded : List Slice

variable {w : World}

namespace AmrEnc

/-- The module as loaded: zeroed globals. -/
def load (w : World) (os : Os) : AmrEnc w := ⟨0, none, .MR475, .empty, os, []⟩

/-- `Encoder_Interface_init`, the handle stored in `amr`. -/
def encoderInterfaceInit (dtx : Int) (m : AmrEnc w) : AmrEnc w :=
  { m with amr := some m.heap.next, heap := m.heap.alloc (w.enc.init dtx) }

/-- `Encoder_Interface_Encode(amr, mode, inputBuf, outbuf)`: the bytes left in
`outbuf`, and the buffer, where the frame has become scratch space. -/
def encoderInterfaceEncode (inputBuf : List Word16) (off : Int) (m : AmrEnc w) :
    Res (List UWord8 × List Word16 × AmrEnc w) := do
  let st ← m.heap.get m.amr
  let frame ← Buffer.read inputBuf off frameSize
  let (st, outbuf, scratch) := w.enc.encode st m.mode frame
  let inputBuf ← Buffer.write inputBuf off scratch
  let heap ← m.heap.put st m.amr
  return (outbuf, inputBuf, { m with heap, encoded := m.encoded ++ [⟨off, frame⟩] })

/-- `Encoder_Interface_exit(amr)`. `amr` keeps its value. -/
def encoderInterfaceExit (m : AmrEnc w) : Res (AmrEnc w) := do
  let heap ← m.heap.free m.amr
  return { m with heap }

/-- `amr_enc_init`. The channel count and the sample rate only decide warnings. -/
def amrEncInit (outfile : String) (bitsPerSample _channels _sampleRate : Int) (m : AmrEnc w) : Res (Int × AmrEnc w) := do
  let dtx := 0
  let open' := m.encode
  let encode ← incr m.encode
  let m := { m with mode := .MR122, encode }
  if open' ≠ 0 then return (-1, m)
  else if bitsPerSample ≠ 16 then return (1, m)
  else
    let m := m.encoderInterfaceInit dtx
    match m.os.fopen w.fopenOk outfile .wb with
    | (none, os) => return (1, { m with os })
    | (some out, os) => return (0, { m with os := (os.fwrite out magic).fclose out })

/-- `handleAmrEnc`, where `inputBuf` points `off` samples into the buffer. -/
def handleAmrEnc (outfile : String) (_channels : Int) (inputBuf : List Word16) (off size : Int) (m : AmrEnc w) :
    Res (Int × List Word16 × AmrEnc w) :=
  if m.encode = 0 then return (-1, inputBuf, m)
  else match m.os.fopen w.fopenOk outfile .ab with
    | (none, os) => return (1, inputBuf, { m with os })
    | (some out, os) =>
      let m := { m with os }
      -- this return leaves the stream open
      if size < frameSize then return (-1, inputBuf, m)
      else do
        let (outbuf, inputBuf, m) ← m.encoderInterfaceEncode inputBuf off
        return (0, inputBuf, { m with os := (m.os.fwrite out outbuf).fclose out })

/-- `arm_enc_exit`. The successful path ends without a `return`. -/
def armEncExit (m : AmrEnc w) : Res (Option Int × AmrEnc w) :=
  if m.encode = 0 then return (some (-1), m)
  else do
    let m ← m.encoderInterfaceExit
    return (none, { m with encode := 0 })

end AmrEnc

/-! ## An open module -/

/-- The encoder's next state and the bytes it emits for a frame. -/
def World.emit (w : World) (st : w.enc.State) (x : List Word16) : w.enc.State × List UWord8 :=
  ((w.enc.encode st .MR122 x).1, (w.enc.encode st .MR122 x).2.1)

/-- What an open module is about. -/
structure EncView (w : World) where
  enc : w.enc.State
  os : Os
  encoded : List Slice

namespace EncView
variable (v : EncView w)

/-- One call of `handleAmrEnc` with `size` samples, the first of which are `x`. -/
def handle (outfile : String) (off size : Int) (x : List Word16) : EncView w :=
  if w.fopenOk v.os.opens then
    if size < frameSize then { v with os := v.os.leaked outfile }
    else
      { enc := (w.emit v.enc (x.take frameSize)).1
        os := v.os.saved outfile (v.os.content outfile ++ (w.emit v.enc (x.take frameSize)).2)
        encoded := v.encoded ++ [⟨off, x.take frameSize⟩] }
  else { v with os := v.os.failed }

end EncView

namespace AmrEnc

/-- The module is open and what it holds is `v`: one live encoder, behind `amr`. -/
structure Open (m : AmrEnc w) (v : EncView w) : Prop where
  encode : 0 < m.encode
  mode : m.mode = .MR122
  only : m.heap.Only m.amr v.enc
  os : m.os = v.os
  encoded : m.encoded = v.encoded

/-- The module is closed: every encoder it made is released. -/
structure Closed (m : AmrEnc w) : Prop where
  encode : m.encode = 0
  freed : m.heap.AllFreed

/-- The handles and the guard are as before the call. -/
structure Keeps (m m' : AmrEnc w) : Prop where
  encode : m'.encode = m.encode
  amr : m'.amr = m.amr
  next : m'.heap.next = m.heap.next

/-- The call made the handle. -/
structure Opens (m m' : AmrEnc w) : Prop where
  encode : m'.encode = 1
  amr : m'.amr = some m.heap.next
  next : m'.heap.next = m.heap.next + 1

theorem load_closed (w : World) (os : Os) : (load w os).Closed := ⟨rfl, Arena.empty_allFreed⟩

variable {m : AmrEnc w} {v : EncView w} {outfile : String} {channels rate : Int}

/-- What `amr_enc_init` leaves in the file system. -/
def initOs (w : World) (os : Os) (outfile : String) : Os :=
  if w.fopenOk os.opens then os.saved outfile magic else os.failed

/-- Opening a closed module creates one encoder, whether or not the header could be written. -/
theorem amrEncInit_spec (outfile : String) (channels rate : Int) (hc : m.Closed) :
    ∃ r m', m.amrEncInit outfile 16 channels rate = .ok (r, m') ∧
      m'.Open ⟨w.enc.init 0, initOs w m.os outfile, m.encoded⟩ ∧ m.Opens m' := by
  have hi : incr 0 = .ok 1 := rfl
  have ho : (m.heap.alloc (w.enc.init 0)).Only (some m.heap.next) (w.enc.init 0) := hc.freed.alloc
  simp only [amrEncInit, hc.encode, hi, Res.ok_bind, ne_eq, not_true_eq_false, if_false, encoderInterfaceInit]
  cases hf : w.fopenOk m.os.opens with
  | false =>
    rw [Os.fopen_failed hf]
    exact ⟨_, _, rfl, ⟨by simp, rfl, ho, by simp [initOs, hf], rfl⟩, ⟨rfl, rfl, rfl⟩⟩
  | true =>
    obtain ⟨out, os', ho', hw⟩ := Os.fopen_wb hf outfile magic
    rw [ho']
    exact ⟨_, _, rfl, ⟨by simp, rfl, ho, by simp [initOs, hf, hw], rfl⟩, ⟨rfl, rfl, rfl⟩⟩

/-- On an open module `amr_enc_init` only counts. -/
theorem amrEncInit_again (ho : m.Open v) (hmax : m.encode ≠ intMax) (bits : Int) :
    m.amrEncInit outfile bits channels rate = .ok (-1, { m with encode := m.encode + 1 }) := by
  have hne : m.encode ≠ 0 := by have := ho.encode; omega
  simp only [amrEncInit, incr_ok hmax, Res.ok_bind, ne_eq, hne, not_false_eq_true, if_true, ← ho.mode]
  rfl

/-- Encoding from an open module: the frame is read where the buffer has it, and
nothing behind it changes. -/
theorem encoderInterfaceEncode_spec (ho : m.Open v) {buf : List Word16} {off : Nat} (hb : off + frameSize ≤ buf.length) :
    ∃ buf' m', m.encoderInterfaceEncode buf off = .ok ((w.emit v.enc ((buf.drop off).take frameSize)).2, buf', m') ∧
      buf'.length = buf.length ∧ buf'.drop (off + frameSize) = buf.drop (off + frameSize) ∧
      m'.Open ⟨(w.emit v.enc ((buf.drop off).take frameSize)).1, v.os, v.encoded ++ [⟨off, (buf.drop off).take frameSize⟩]⟩ ∧
      m.Keeps m' := by
  set frame := (buf.drop off).take frameSize with hframe
  have hlen : frame.length = frameSize := by rw [hframe]; simp; omega
  let res := w.enc.encode v.enc .MR122 frame
  have hscratch : res.2.2.length = frameSize := by simp [res, hlen]
  obtain ⟨buf', hw, hl, -, hd⟩ := Buffer.write_ok (show off + res.2.2.length ≤ buf.length by rw [hscratch]; exact hb)
  obtain ⟨heap', hp, honly, hnext⟩ := ho.only.put res.1
  rw [hscratch] at hd
  refine ⟨buf', { m with heap := heap', encoded := m.encoded ++ [⟨off, frame⟩] }, ?_, hl, hd, ?_, ⟨rfl, rfl, hnext⟩⟩
  · simp only [encoderInterfaceEncode, ho.only.1.get, Buffer.read_ok hb, ← hframe, Res.ok_bind, ho.mode]
    change (Buffer.write buf off res.2.2 >>= _) = _
    rw [hw, Res.ok_bind]
    change (m.heap.put res.1 m.amr >>= _) = _
    rw [hp]; rfl
  · exact ⟨ho.encode, ho.mode, honly, ho.os, by rw [ho.encoded]⟩

/-- On an open module `handleAmrEnc` is the view's `handle`; only a full frame is
read, and only its 160 samples are overwritten. -/
theorem handleAmrEnc_spec (outfile : String) (channels : Int) (ho : m.Open v) {buf : List Word16} {off : Nat} {size : Int}
    (hb : frameSize ≤ size → off + frameSize ≤ buf.length) :
    ∃ r buf' m', m.handleAmrEnc outfile channels buf off size = .ok (r, buf', m') ∧
      buf'.length = buf.length ∧ (frameSize ≤ size → buf'.drop (off + frameSize) = buf.drop (off + frameSize)) ∧
      (size < frameSize → buf' = buf) ∧
      m'.Open (v.handle outfile off size (buf.drop off)) ∧ m.Keeps m' := by
  have hne : m.encode ≠ 0 := by have := ho.encode; omega
  simp only [handleAmrEnc, if_neg hne, EncView.handle]
  cases hf : w.fopenOk v.os.opens with
  | false =>
    rw [ho.os, Os.fopen_failed hf]
    exact ⟨_, _, _, rfl, rfl, fun _ => rfl, fun _ => rfl, ⟨ho.encode, ho.mode, ho.only, rfl, ho.encoded⟩, ⟨rfl, rfl, rfl⟩⟩
  | true =>
    rw [ho.os, Os.fopen_ab hf]
    simp only [if_true]
    by_cases hs : size < frameSize
    · simp only [hs, if_true]
      exact ⟨_, _, _, rfl, rfl, fun _ => rfl, fun _ => rfl, ⟨ho.encode, ho.mode, ho.only, rfl, ho.encoded⟩, ⟨rfl, rfl, rfl⟩⟩
    · simp only [hs, if_false]
      have hopen : Open { m with os := v.os.leaked outfile } { v with os := v.os.leaked outfile } :=
        ⟨ho.encode, ho.mode, ho.only, rfl, ho.encoded⟩
      obtain ⟨buf', m', he, hl, hd, ho', hk⟩ := encoderInterfaceEncode_spec hopen (hb (by omega))
      rw [he]
      refine ⟨_, _, _, rfl, hl, fun _ => hd, fun h => h.elim, ⟨ho'.encode, ho'.mode, ho'.only, ?_, ho'.encoded⟩,
        ⟨hk.encode, hk.amr, hk.next⟩⟩
      simp only [ho'.os, Os.fwrite_fclose_leaked]

/-- Closing an open module releases its encoder. -/
theorem armEncExit_spec (ho : m.Open v) :
    ∃ m', m.armEncExit = .ok (none, m') ∧ m'.Closed ∧ m'.os = v.os ∧ m'.encoded = v.encoded ∧
      m'.heap.next = m.heap.next := by
  have hne : m.encode ≠ 0 := by have := ho.encode; omega
  obtain ⟨heap', hf, hall, hnext⟩ := ho.only.free
  refine ⟨{ m with encode := 0, heap := heap' }, ?_, ⟨rfl, hall⟩, ho.os, ho.encoded, hnext⟩
  simp only [armEncExit, if_neg hne, encoderInterfaceExit, hf, Res.ok_bind]
  rfl

end AmrEnc

end AudioRecorder.Native
