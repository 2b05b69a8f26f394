import AudioRecorder.Codec.RoundTrip
import AudioRecorder.Native.Stream
/-!
# The file a session leaves

The encoder is the codec's, with any signal processing. Opened without DTX and
asked for `MR122` it always emits a 32-byte frame with header 0x3C. A session
truncates the file and writes the magic number once, then appends a frame at a
time, each with an open of its own; `init` ignores that its own open failed, so
the frames may end up behind whatever the file held before (`session_file`).
-/

namespace AudioRecorder.Native

open Codec (Word16 UWord8 SpeechCore EncState)
open Transducer (outputs kept)

/-- The codec behind an encoder handle. What the wrapper's buffers held before a
call reaches nothing, so they are taken as zero. -/
abbrev codecEncoder (core : SpeechCore) : AmrEncoder where
  State := EncState core
  init := EncState.init core
  encode := fun st mode x =>
    let r := Codec.encoderInterfaceEncode st mode x (fun _ => 0) (fun _ => 0)
    (r.st, r.block, r.input)
  scratch_length := fun st mode x => Codec.gsmEncodeFrame_length st.pre st.cod mode x (fun _ => 0)

/-- A world with the codec in it. -/
abbrev World.codec (den : Denoiser) (core : SpeechCore) (fopenOk : Nat → Bool) : World := ⟨den, codecEncoder core, fopenOk⟩

/-- A whole frame of mode 7 with the quality bit set. -/
def WholeFrame (x : List UWord8) : Prop := x.length = 32 ∧ x.head? = some 0x3C

/-- Without DTX the codec emits a whole frame, and stays without DTX. -/
theorem emit_whole {den : Denoiser} {core : SpeechCore} {ok : Nat → Bool} (st : EncState core) (x : List Word16)
    (h : st.cod.dtx = 0) :
    ((World.codec den core ok).emit st x).1.cod.dtx = 0 ∧ WholeFrame ((World.codec den core ok).emit st x).2 := by
  let c : Codec.EncCall core := ⟨⟨.MR122, x, fun _ => 0, fun _ => 0⟩, st⟩
  have hused : c.frame.usedMode = .MR122 := Codec.codAmr_noDtx h ..
  have htx : c.txFrameType = .TX_SPEECH_GOOD := (Codec.sidSync_speech ..).2 (by rw [hused]; decide)
  have hft : c.result.frameType = .AMR_122 := by
    change Codec.p3gppFrameType c.txFrameType c.frame.usedMode = _
    rw [htx, hused]; rfl
  have hnum : c.result.numEncBytes = 32 := by
    change Codec.wmfEncBytesPerFrame c.result.frameType = 32
    rw [hft]; rfl
  have hblock : c.result.block = Codec.header c.result.frameType :: _ := Codec.block_eq c.st c.mode c.input c.out c.bfr
  refine ⟨(Codec.codAmr_dtx ..).trans h, ?_, ?_⟩
  · change c.result.block.length = 32
    simp [Codec.Encoded.block, hnum]
  · change c.result.block.head? = _
    rw [hblock, hft]; rfl

/-- A file is as it was, or holds the magic number and the frames `recs`, all whole. -/
def Intact (f₀ f : Option (List UWord8)) (recs : List (List UWord8)) : Prop :=
  f = f₀ ∨ (f = some (magic ++ recs.flatten) ∧ ∀ x ∈ recs, WholeFrame x)

/-- Frames appended to the new or to the old file leave it intact exactly when it
is new, there is none, or the old file was the magic number alone. -/
theorem intact_iff {f₀ : Option (List UWord8)} (header : Bool) {recs : List (List UWord8)} (hw : ∀ x ∈ recs, WholeFrame x) :
    Intact f₀ (appendFile (if header then some magic else f₀) recs) recs ↔
      header = true ∨ recs = [] ∨ f₀ = some magic := by
  have hnew := appendFile_some magic recs
  cases header with
  | true => simp only [if_true, true_or, iff_true, hnew]; exact .inr ⟨rfl, hw⟩
  | false =>
    simp only [Bool.false_eq_true, if_false, false_or]
    constructor
    · rintro (h | ⟨h, -⟩)
      · by_cases hr : recs = []
        · exact .inl hr
        · exfalso
          obtain ⟨x, xs, rfl⟩ := List.exists_cons_of_ne_nil hr
          have hx : x.length = 32 := (hw x (by simp)).1
          rw [appendFile, if_neg hr] at h
          have hlen := congrArg (fun f => (f.getD []).length) h
          simp only [Option.getD_some, List.length_append, List.flatten_cons, hx] at hlen
          omega
      · by_cases hr : recs = []
        · exact .inl hr
        · rw [appendFile, if_neg hr] at h
          have h := List.append_cancel_right (Option.some.inj h)
          cases f₀ with
          | none => exact absurd h (by decide)
          | some f => exact .inr (congrArg some h)
    · rintro (h | rfl)
      · left; simp [appendFile, h]
      · right; exact ⟨hnew, hw⟩

variable {den : Denoiser} {core : SpeechCore} {ok : Nat → Bool}

/-- The frames a session emits: its 160-sample blocks denoised, and those whose
open succeeds encoded in order by a fresh encoder. -/
def recording (w : World) (opens : Nat) (rate : Int) (cs : List Call) : List (List UWord8) :=
  outputs w.emit (w.enc.init 0)
    (kept w.fopenOk opens (outputs w.den.run (Jni.newDenoiser w frameSize rate) (Jni.frames cs)))

theorem recording_whole (opens : Nat) (rate : Int) (cs : List Call) :
    ∀ x ∈ recording (.codec den core ok) opens rate cs, WholeFrame x :=
  Transducer.outputs_forall _ (fun st : EncState core => st.cod.dtx = 0) WholeFrame
    (fun st x h => emit_whole st x h) rfl _

theorem recording_nil {w : World} {opens : Nat} {rate : Int} {cs : List Call} :
    recording w opens rate cs = [] ↔ ∀ i < (Jni.frames cs).length, w.fopenOk (opens + i) = false := by
  rw [← List.length_eq_zero_iff, recording, Transducer.outputs_length, List.length_eq_zero_iff, Transducer.kept_eq_nil,
    Transducer.outputs_length]

namespace Jni
variable {w : World} {j₀ : Jni w}

/-- The file after a session opened with the application's frame size was fed the frames of `cs`. -/
theorem fed_file {os : Os} {rate : Int} {d : List Denoised} {e : List Slice} {s : Session w} {cs : List Call}
    (h : Fed (.start w Native.frameSize rate os d e) s (frames cs)) :
    s.os.files filepath =
      appendFile (if w.fopenOk os.opens then some magic else os.files filepath) (recording w (os.opens + 1) rate cs) := by
  rw [h.file]
  simp only [Session.start, initOs_opens, recording]
  congr 1
  unfold AmrEnc.initOs
  split <;> simp

/-- A whole session on a closed library, and the file it leaves. -/
theorem exec_recording (hc : j₀.Closed) (rate channel : Int) (cs : List Call) :
    ∃ rs j, j₀.exec (.init Native.frameSize rate channel :: cs.map Call.op ++ [.close]) = .ok (rs, j) ∧ j.Closed ∧
      j.amr.os.files filepath =
        appendFile (if w.fopenOk j₀.amr.os.opens then some magic else j₀.amr.os.files filepath)
          (recording w (j₀.amr.os.opens + 1) rate cs) := by
  obtain ⟨rs, j, s, he, ho, hfed⟩ := exec_session hc rate channel cs
  obtain ⟨j', hcl, hclosed, hos, -⟩ := close_spec ho
  exact ⟨_, j', exec_append he (exec_cons hcl rfl), hclosed, by rw [hos, fed_file hfed]⟩

/-- A session of the codec leaves the file intact exactly when its truncating
open succeeds, or none of its blocks' opens does, or the file was an empty
recording before. -/
theorem session_file (os : Os) {j₀ : Jni (.codec den core ok)} (h : Reached os j₀) (h0 : j₀.codecOpen = 0)
    (rate channel : Int) (cs : List Call) :
    ∃ rs j, j₀.exec (.init Native.frameSize rate channel :: cs.map Call.op ++ [.close]) = .ok (rs, j) ∧
      (Intact (j₀.amr.os.files filepath) (j.amr.os.files filepath)
          (recording (.codec den core ok) (j₀.amr.os.opens + 1) rate cs) ↔
        ok j₀.amr.os.opens = true ∨ (∀ i < (frames cs).length, ok (j₀.amr.os.opens + 1 + i) = false) ∨
          j₀.amr.os.files filepath = some magic) := by
  obtain ⟨rs, j, he, -, hfile⟩ := exec_recording (h.closed h0) rate channel cs
  refine ⟨rs, j, he, ?_⟩
  rw [hfile, intact_iff _ (recording_whole _ _ _), recording_nil]

/-- The first session of the library, with two blocks, of which the second finds no file. -/
theorem session_file_first :
    let w : World := .codec (World.plain fun _ => true).den Codec.silentCore fun n => n != 2
    let cs := [List.replicate 160 0, List.replicate 200 1].map Call.ofSamples
    ∃ rs j, (load w ⟨noFiles, 0, []⟩).exec (.init Native.frameSize 8000 1 :: cs.map Call.op ++ [.close]) = .ok (rs, j) ∧
      Intact none (j.amr.os.files filepath) (recording w 1 8000 cs) ∧ (recording w 1 8000 cs).length = 1 := by
  intro w cs
  have hload : Reached ⟨noFiles, 0, []⟩ (load (.codec (World.plain fun _ => true).den Codec.silentCore fun n => n != 2)
      ⟨noFiles, 0, []⟩) := ⟨[], [], by simp, rfl⟩
  obtain ⟨rs, j, he, hiff⟩ := session_file ⟨noFiles, 0, []⟩ hload rfl 8000 1 cs
  refine ⟨rs, j, he, hiff.2 (.inl rfl), ?_⟩
  have hframes : (frames cs).length = 2 := by
    rw [frames_length (Call.ofSamples_all_inside _)]
    simp only [List.map_cons, List.map_nil, Call.ofSamples_samples, List.length_replicate]
    rfl
  obtain ⟨x, y, hxy⟩ := List.length_eq_two.1
    ((Transducer.outputs_length w.den.run (newDenoiser w Native.frameSize 8000) (frames cs)).trans hframes)
  rw [recording, Transducer.outputs_length, hxy]
  rfl

/-- With no file before and only the truncating open failing, one frame becomes
the whole file. -/
theorem session_file_headless :
    ¬ ∀ (rs : List Ret) (j : Jni (.codec (World.plain fun _ => true).den Codec.silentCore fun n => n != 0)),
      (load _ ⟨noFiles, 0, []⟩).exec
        (.init Native.frameSize 8000 1 :: [Call.ofSamples (List.replicate 160 0)].map Call.op ++ [.close]) = .ok (rs, j) →
      Intact none (j.amr.os.files filepath)
        (recording (.codec (World.plain fun _ => true).den Codec.silentCore fun n => n != 0) 1 8000
          [Call.ofSamples (List.replicate 160 0)]) := by
  intro hall
  obtain ⟨rs, j, he, -, hfile⟩ := exec_recording
    (load_closed (.codec (World.plain fun _ => true).den Codec.silentCore fun n => n != 0) ⟨noFiles, 0, []⟩) 8000 1
    [Call.ofSamples (List.replicate 160 0)]
  have hint := hall rs j he
  rw [hfile] at hint
  rcases (intact_iff false (recording_whole _ _ _)).1 hint with h | h | h
  · cases h
  · have hlen : (frames [Call.ofSamples (List.replicate 160 0)]).length = 1 := by
      refine (frames_length (Call.ofSamples_all_inside [List.replicate 160 0])).trans ?_
      simp only [List.map_cons, List.map_nil, Call.ofSamples_samples, List.length_replicate]
      rfl
    exact absurd (recording_nil.1 h 0 (by rw [hlen]; decide)) (by decide)
  · cases h

end Jni

end AudioRecorder.Native
