import Mathlib.Logic.Function.Basic
import AudioRecorder.Lib.Memory
import AudioRecorder.Codec.Modes
/-!
# What the native modules run on

The speex preprocessor and the AMR encoder are parameters here, each a stateful
function of one frame: nothing in this directory depends on what they compute.
`fopenOk` says which `fopen` calls succeed, by the number of calls made before;
every other call of the C library succeeds.
-/

namespace AudioRecorder.Native

open Codec (Word16 UWord8 Mode)

/-- The requests `speex_preprocess_ctl` is called with. The two `float`
arguments in the source are 0.0. -/
inductive SpeexCtl where
  | setDenoise (i : Int)
  | setNoiseSuppress (i : Int)
  | setAgc (i : Int)
  | setDereverb (i : Int)
  | setDereverbDecay (f : Int)
  | setDereverbLevel (f : Int)
  deriving DecidableEq, Repr

/-- The speex preprocessor: `run` rewrites one frame of the length its state
was initialised with. -/
structure Denoiser where
  State : Type
  init : Int → Int → State
  ctl : State → SpeexCtl → State
  run : State → List Word16 → State × List Word16
  frameSize : State → Int
  frameSize_init : ∀ size rate, frameSize (init size rate) = size
  frameSize_ctl : ∀ s c, frameSize (ctl s c) = frameSize s
  frameSize_run : ∀ s x, frameSize (run s x).1 = frameSize s
  run_length : ∀ s x, (run s x).2.length = x.length

/-- The AMR encoder behind a handle: `encode` returns its next state, the bytes
it emits, and what it leaves in its input buffer, which it uses as scratch. -/
structure AmrEncoder where
  State : Type
  init : Int → State
  encode : State → Mode → List Word16 → State × List UWord8 × List Word16
  scratch_length : ∀ s m x, (encode s m x).2.2.length = x.length

attribute [simp] Denoiser.frameSize_init Denoiser.frameSize_ctl Denoiser.frameSize_run Denoiser.run_length
  AmrEncoder.scratch_length

structure World where
  den : Denoiser
  enc : AmrEncoder
  fopenOk : Nat → Bool

/-- A world to compute in: a denoiser that changes nothing and an encoder that
emits one byte of each frame. -/
def World.plain (fopenOk : Nat → Bool) : World where
  den := {
    State := Int
    init := fun size _ => size
    ctl := fun s _ => s
    run := fun s x => (s, x)
    frameSize := id
    frameSize_init := fun _ _ => rfl
    frameSize_ctl := fun _ _ => rfl
    frameSize_run := fun _ _ => rfl
    run_length := fun _ _ => rfl }
  enc := {
    State := Unit
    init := fun _ => ()
    encode := fun _ _ x => ((), [(x.headD 0).setWidth 8], x)
    scratch_length := fun _ _ _ => rfl }
  fopenOk := fopenOk

/-! ## Files -/

inductive OpenMode where
  | wb
  | ab
  deriving DecidableEq, Repr

/-- A `FILE *`. -/
structure Stream where
  id : Nat
  path : String
  deriving DecidableEq, Repr

/-- Nothing written yet. -/
def noFiles : String → Option (List UWord8) := fun _ => none

/-- The files by path, the number of `fopen` calls so far, and the open streams. -/
structure Os where
  files : String → Option (List UWord8)
  opens : Nat
  streams : List Stream

namespace Os
variable (os : Os)

def setFile (path : String) (bytes : List UWord8) : Os :=
  { os with files := Function.update os.files path (some bytes) }

/-- What the file at `path` holds; a missing file holds nothing. -/
def content (path : String) : List UWord8 := (os.files path).getD []

/-- Both modes create a missing file; `wb` truncates an old one. -/
def fopen (ok : Nat → Bool) (path : String) (mode : OpenMode) : Option Stream × Os :=
  if ok os.opens then
    let out : Stream := ⟨os.opens, path⟩
    let bytes := match mode with
      | .wb => []
      | .ab => os.content path
    (some out, { os.setFile path bytes with opens := os.opens + 1, streams := out :: os.streams })
  else (none, { os with opens := os.opens + 1 })

/-- Both modes write at the end here: a `wb` stream is written once, right after it emptied the file. -/
def fwrite (out : Stream) (bytes : List UWord8) : Os := os.setFile out.path (os.content out.path ++ bytes)

def fclose (out : Stream) : Os := { os with streams := os.streams.erase out }

/-- The effect of a failed `fopen`. -/
def failed : Os := { os with opens := os.opens + 1 }

/-- The effect of opening the file to append and never closing it. -/
def leaked (path : String) : Os :=
  { os.setFile path (os.content path) with opens := os.opens + 1, streams := ⟨os.opens, path⟩ :: os.streams }

/-- The effect of opening the file, leaving it with `bytes`, and closing it. -/
def saved (path : String) (bytes : List UWord8) : Os := { os.setFile path bytes with opens := os.opens + 1 }

variable {os} {ok : Nat → Bool}

theorem fopen_failed (h : ok os.opens = false) (path : String) (mode : OpenMode) :
    os.fopen ok path mode = (none, os.failed) := by
  simp [fopen, h, failed]

theorem fopen_ab (h : ok os.opens = true) (path : String) :
    os.fopen ok path .ab = (some ⟨os.opens, path⟩, os.leaked path) := by
  simp [fopen, h, leaked]

theorem fwrite_fclose_leaked (path : String) (bytes : List UWord8) :
    ((os.leaked path).fwrite ⟨os.opens, path⟩ bytes).fclose ⟨os.opens, path⟩ =
      os.saved path (os.content path ++ bytes) := by
  simp [leaked, fwrite, fclose, saved, setFile, content]

theorem fopen_wb (h : ok os.opens = true) (path : String) (bytes : List UWord8) :
    ∃ out os', os.fopen ok path .wb = (some out, os') ∧ (os'.fwrite out bytes).fclose out = os.saved path bytes := by
  refine ⟨_, _, by rw [fopen, if_pos h], ?_⟩
  simp [fwrite, fclose, saved, setFile, content]

@[simp] theorem failed_opens : os.failed.opens = os.opens + 1 := rfl
@[simp] theorem failed_files : os.failed.files = os.files := rfl
@[simp] theorem saved_opens (path : String) (bytes : List UWord8) : (os.saved path bytes).opens = os.opens + 1 := rfl
@[simp] theorem saved_files (path : String) (bytes : List UWord8) :
    (os.saved path bytes).files path = some bytes := by simp [saved, setFile]

end Os

end AudioRecorder.Native
