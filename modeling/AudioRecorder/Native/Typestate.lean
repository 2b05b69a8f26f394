import AudioRecorder.Lib.Machine
import AudioRecorder.Native.AmrEnc
/-!
# The encoder handle's typestate

Any sequence of calls of the exported functions of `amr-enc.c`, with any
arguments. The guard counter is incremented before `bitsPerSample` is checked,
so an `amr_enc_init` that is refused for its sample depth leaves the module
looking open with whatever `amr` held before: `NULL`, or the handle of a session
that has ended. A run keeps the handle live whenever it is used, and never loses
it, exactly when none of its opening calls is refused so (`amrEnc_typestate`). A call
that would overflow the counter has no step here, as C leaves it undefined.
-/

namespace AudioRecorder.Native

open Codec (Word16)
open Machine (Run)

/-- A call of one of the exported functions of the encoder module. -/
inductive EncOp where
  | init (outfile : String) (bitsPerSample channels sampleRate : Int)
  | handle (outfile : String) (channels : Int) (inputBuf : List Word16) (off size : Int)
  | exit

variable {w : World}

namespace AmrEnc

def step (m : AmrEnc w) : EncOp → Res (AmrEnc w)
  | .init outfile bitsPerSample channels sampleRate => do
    let (_, m) ← m.amrEncInit outfile bitsPerSample channels sampleRate
    return m
  | .handle outfile channels inputBuf off size => do
    let (_, _, m) ← m.handleAmrEnc outfile channels inputBuf off size
    return m
  | .exit => do
    let (_, m) ← m.armEncExit
    return m

/-- A live handle that no variable holds any more. -/
def Lost (m : AmrEnc w) : Prop := ∃ i a, m.heap.slot i = .live a ∧ m.amr ≠ some i

/-- The next call, whatever it is, applies the encoder to live handles only, and
no handle is lost. -/
structure Sound (m : AmrEnc w) : Prop where
  live : ∀ op, m.step op ≠ .error .deadHandle
  kept : ¬ m.Lost

/-- A call that opens the module has the one supported sample depth. -/
def Supported (m : AmrEnc w) : EncOp → Prop
  | .init _ bitsPerSample _ _ => m.encode = 0 → bitsPerSample = 16
  | _ => True

/-- The module is closed, or open with a live handle in `amr`. -/
inductive Tracked (m : AmrEnc w) : Prop
  | closed (h : m.Closed)
  | opened {v : EncView w} (h : m.Open v)

variable {m m' : AmrEnc w} {v : EncView w} {op : EncOp}

theorem Tracked.kept (h : m.Tracked) : ¬ m.Lost := by
  rintro ⟨i, a, hl, hne⟩
  cases h with
  | closed h => exact h.freed.not_live ⟨i, rfl, hl⟩
  | opened h =>
    have := h.only.2 i (Arena.Live.lt ⟨i, rfl, hl⟩) hne
    rw [hl] at this
    cases this

/-- Encoding from an open module either reads outside the caller's buffer or
leaves the module open. -/
theorem encoderInterfaceEncode_open (ho : m.Open v) (buf : List Word16) (off : Int) :
    m.encoderInterfaceEncode buf off = .error .outOfBounds ∨
      ∃ bytes buf' m' v', m.encoderInterfaceEncode buf off = .ok (bytes, buf', m') ∧ m'.Open v' := by
  by_cases hb : 0 ≤ off ∧ off + frameSize ≤ buf.length
  · obtain ⟨k, rfl⟩ := Int.eq_ofNat_of_zero_le hb.1
    obtain ⟨buf', m', he, -, -, ho', -⟩ := encoderInterfaceEncode_spec ho (show k + frameSize ≤ buf.length by omega)
    exact .inr ⟨_, buf', m', _, he, ho'⟩
  · left
    simp only [encoderInterfaceEncode, ho.only.1.get, Res.ok_bind, Buffer.read]
    rw [if_neg (fun h => hb ⟨h.1, h.2.2⟩)]
    rfl

theorem handleAmrEnc_open (ho : m.Open v) (path : String) (channels : Int) (buf : List Word16) (off size : Int) :
    m.handleAmrEnc path channels buf off size = .error .outOfBounds ∨
      ∃ r buf' m' v', m.handleAmrEnc path channels buf off size = .ok (r, buf', m') ∧ m'.Open v' := by
  have hne : m.encode ≠ 0 := by have := ho.encode; omega
  have hos : ∀ os, Open { m with os } { v with os } := fun _ => ⟨ho.encode, ho.mode, ho.only, rfl, ho.encoded⟩
  simp only [handleAmrEnc, if_neg hne]
  rcases m.os.fopen w.fopenOk path .ab with ⟨_ | out, os⟩
  · exact .inr ⟨_, _, _, _, rfl, hos os⟩
  · by_cases hs : size < frameSize
    · simp only [if_pos hs]
      exact .inr ⟨_, _, _, _, rfl, hos os⟩
    · simp only [if_neg hs]
      rcases encoderInterfaceEncode_open (hos os) buf off with he | ⟨bytes, buf', m', v', he, ho'⟩
      · rw [he]; exact .inl rfl
      · rw [he]
        let os' := (m'.os.fwrite out bytes).fclose out
        exact .inr ⟨_, _, _, { v' with os := os' }, rfl, ho'.encode, ho'.mode, ho'.only, rfl, ho'.encoded⟩

/-- A supported call never meets a dead handle, and keeps the module tracked. -/
theorem Tracked.step (h : m.Tracked) (hg : m.Supported op) :
    (∃ f, m.step op = .error f ∧ f ≠ .deadHandle) ∨ ∃ m', m.step op = .ok m' ∧ m'.Tracked := by
  cases op with
  | init path bits channels rate =>
    cases h with
    | closed h =>
      obtain rfl : bits = 16 := hg h.encode
      obtain ⟨r, m', hi, ho, -⟩ := amrEncInit_spec path channels rate h
      exact .inr ⟨m', by rw [AmrEnc.step, hi]; rfl, .opened ho⟩
    | @opened v h =>
      by_cases hmax : m.encode = intMax
      · exact .inl ⟨.overflow, by simp only [AmrEnc.step, amrEncInit, incr, if_pos hmax]; rfl, by decide⟩
      · have hopen : Open { m with encode := m.encode + 1 } v :=
          ⟨by have := h.encode; simp only; omega, h.mode, h.only, h.os, h.encoded⟩
        exact .inr ⟨_, by rw [AmrEnc.step, amrEncInit_again h hmax bits]; rfl, .opened hopen⟩
  | handle path channels buf off size =>
    cases h with
    | closed h =>
      exact .inr ⟨m, by simp only [AmrEnc.step, handleAmrEnc, if_pos h.encode]; rfl, .closed h⟩
    | opened h =>
      rcases handleAmrEnc_open h path channels buf off size with he | ⟨r, buf', m', v', he, ho⟩
      · exact .inl ⟨.outOfBounds, by rw [AmrEnc.step, he]; rfl, by decide⟩
      · exact .inr ⟨m', by rw [AmrEnc.step, he]; rfl, .opened ho⟩
  | exit =>
    cases h with
    | closed h => exact .inr ⟨m, by simp only [AmrEnc.step, armEncExit, if_pos h.encode]; rfl, .closed h⟩
    | opened h =>
      obtain ⟨m', he, hc, -⟩ := armEncExit_spec h
      exact .inr ⟨m', by rw [AmrEnc.step, he]; rfl, .closed hc⟩

/-- A refused opening leaves the module looking open without a live handle. -/
theorem Closed.init_refused (h : m.Closed) {path : String} {bits channels rate : Int} (hb : bits ≠ 16)
    (hi : m.step (.init path bits channels rate) = .ok m') : m'.step .exit = .error .deadHandle := by
  have hinc : incr 0 = .ok 1 := rfl
  simp only [AmrEnc.step, amrEncInit, h.encode, hinc, Res.ok_bind, ne_eq, not_true_eq_false, if_false, hb,
    not_false_eq_true, if_true] at hi
  cases hi
  have hfree : m.heap.free m.amr = .error .deadHandle := by
    cases hp : m.heap.free m.amr with
    | ok h' =>
      obtain ⟨a, hl⟩ := Arena.free_ok hp
      exact absurd hl h.freed.not_live
    | error f => rw [Arena.free_error hp]
  simp only [AmrEnc.step, armEncExit, encoderInterfaceExit, hfree]
  rfl

/-- Any call of a tracked module finds a live handle, and no handle is lost. -/
theorem Tracked.sound (h : m.Tracked) : m.Sound := by
  refine ⟨?_, h.kept⟩
  intro op hdead
  by_cases hg : m.Supported op
  · rcases h.step hg with ⟨f, hf, hne⟩ | ⟨m', hm, -⟩
    · rw [hf] at hdead
      exact hne (Except.error.inj hdead)
    · rw [hm] at hdead
      cases hdead
  · -- an opening call that is refused uses no handle
    cases op with
    | init path bits channels rate =>
      obtain ⟨he, hb⟩ := Classical.not_imp.1 hg
      have hinc : incr 0 = .ok 1 := rfl
      simp only [AmrEnc.step, amrEncInit, he, hinc, Res.ok_bind, ne_eq, not_true_eq_false, if_false, hb,
        not_false_eq_true, if_true] at hdead
      cases hdead
    | handle => exact hg trivial
    | exit => exact hg trivial

theorem tracked_of_run (os : Os) {ops : List EncOp} (h : Run step Supported (load w os) ops m) : m.Tracked :=
  h.inv Tracked (.closed (load_closed w os)) fun s op s' hs hg hstep => by
    rcases hs.step hg with ⟨f, hf, -⟩ | ⟨m', hm, ht⟩
    · rw [hf] at hstep; cases hstep
    · rw [hm] at hstep; cases hstep; exact ht

/-- A run is sound in every state it passes through exactly when each of its
opening calls has the supported sample depth. -/
theorem amrEnc_typestate (os : Os) {ops : List EncOp} (h : Run step (fun _ _ => True) (load w os) ops m) :
    (∀ p m', p <+: ops → Run step (fun _ _ => True) (load w os) p m' → m'.Sound) ↔
      Run step Supported (load w os) ops m := by
  constructor
  · intro hsound
    induction h with
    | nil => exact .nil
    | @snoc as s s' op hr _ hstep ih =>
      have hrs := ih fun p m' hp => hsound p m' (hp.trans (List.prefix_append _ _))
      refine .snoc hrs ?_ hstep
      cases op with
      | init path bits channels rate =>
        intro he
        by_contra hb
        have hc : s.Closed := by
          cases tracked_of_run os hrs with
          | closed hc => exact hc
          | opened ho => have := ho.encode; omega
        exact (hsound _ s' (List.prefix_refl _) (.snoc hr trivial hstep)).live .exit (hc.init_refused hb hstep)
      | handle => trivial
      | exit => trivial
  · rintro hr p m' ⟨q, rfl⟩ hp
    obtain ⟨m₁, hr₁, -⟩ := hr.split
    exact hp.det hr₁ ▸ (tracked_of_run os hr₁).sound

/-- A session with a refused second opening. -/
theorem amrEnc_typestate_session :
    ∃ m : AmrEnc (.plain fun _ => true), m.Sound ∧
      Run step Supported (load (.plain fun _ => true) ⟨noFiles, 0, []⟩) [.init "f" 16 1 8000, .init "f" 8 1 8000, .exit] m := by
  let os : Os := ⟨noFiles, 0, []⟩
  obtain ⟨m, hm⟩ : ∃ m : AmrEnc (.plain fun _ => true),
      Run step Supported (load (.plain fun _ => true) os) [.init "f" 16 1 8000, .init "f" 8 1 8000, .exit] m :=
    ⟨_, .snoc (.snoc (.snoc .nil (fun _ => rfl) rfl) (fun h => absurd h (by decide)) rfl) trivial rfl⟩
  have hrun : Run step (fun _ _ => True) (load (.plain fun _ => true) os) _ m := hm.mono fun _ _ _ => trivial
  exact ⟨m, (amrEnc_typestate os hrun).2 hm _ m (List.prefix_refl _) hrun, hm⟩

/-- A refused opening of the module as loaded leaves `NULL` to be released. -/
theorem amrEnc_refused_unsound :
    ¬ ∀ (ops : List EncOp) (m : AmrEnc (.plain fun _ => true)),
      Run step (fun _ _ => True) (load (.plain fun _ => true) ⟨noFiles, 0, []⟩) ops m → m.Sound := by
  intro h
  exact (h [.init "f" 8 1 8000] _ (.snoc .nil trivial rfl)).live .exit rfl

end AmrEnc

end AudioRecorder.Native
