import AudioRecorder.Codec.Decode
import AudioRecorder.Codec.PostFilter
import AudioRecorder.Lib.Machine
/-!
# `Decoder_Interface_Decode`, down to the samples

`GSMFrameDecode` (`sp_dec.cpp`) turns the serial bits into parameters, and runs
the speech decoder and what follows it on the caller's buffer. The locals that
the source leaves uninitialised hold `Locals`, and the buffer what the caller
left in it. Neither shows: whatever they held, a frame of a type that `AMRDecode`
decodes gives the same 160 samples. For the six it refuses, `AMRDecode` returns
-1, which the wrapper drops, and the caller keeps the samples it had
(`run_determined_iff`).
-/

namespace AudioRecorder.Codec

open Fill (Prog Fills Agree)
open Machine (Run)

variable {core : DecoderCore}

/-- `Speech_Decode_FrameState`. -/
structure SpeechDecodeFrameState (core : DecoderCore) where
  decoderAmr : DecoderAmrState core
  post : PostFilterState
  postHP : PostProcessState
  prevMode : Mode

/-- The state that `Decoder_Interface_init` leaves. -/
def decoderInterfaceInit (core : DecoderCore) : SpeechDecodeFrameState core :=
  ⟨decoderAmrInit core, postFilterReset, postProcessReset, .MR475⟩

/-- What the uninitialised `dec_ets_input_bfr` and `parm` held. -/
structure Locals where
  ets : Nat → Word16
  parm : Nat → Word16

/-- A sample truncated to 13 bits. -/
def truncSample (i : Nat) (_ : Unit) : Prog Word16 Unit := do
  let x ← Fill.read i
  Fill.write i (x &&& 0xfff8)

/-- The mode whose parameters the serial bits are taken for. -/
def prmMode (mode : Mode) (rxType : RXFrameType) : Mode :=
  if rxType = .RX_SID_BAD ∨ rxType = .RX_SID_UPDATE then .MRDTX else mode

/-- `GSMFrameDecode`; `parm` is what its local array held. -/
def gsmFrameDecode (st : SpeechDecodeFrameState core) (call : FrameCall) (parm : Nat → Word16) :
    Prog Word16 (SpeechDecodeFrameState core) := do
  let parm := bits2prm (prmMode call.mode call.rxType) call.serial parm
  let r ← decoderAmr st.decoderAmr call.mode parm call.rxType
  let post ← postFilter core st.post call.mode r.2
  let postHP ← postProcess st.postHP lFrame
  let _ ← Fill.loop truncSample lFrame ()
  pure { st with decoderAmr := r.1, post, postHP }

/-- `Decoder_Interface_Decode` into the caller's buffer. -/
def decodeInto (st : SpeechDecodeFrameState core) (input : Nat → UWord8) (locals : Locals) :
    Prog Word16 (SpeechDecodeFrameState core) :=
  let decoded := decoderInterfaceDecode st.prevMode input locals.ets
  match decoded.call with
  | none => pure { st with prevMode := decoded.prevMode }
  | some call => do
    let st ← gsmFrameDecode st call locals.parm
    pure { st with prevMode := decoded.prevMode }

/-- The frame types `AMRDecode` refuses: neither speech, nor `AMR_SID`, nor `AMR_NO_DATA`. -/
def FrameType.Refused (ft : FrameType) : Prop :=
  FrameType.AMR_SID.toNat < ft.toNat ∧ ft.toNat < FrameType.AMR_NO_DATA.toNat

instance (ft : FrameType) : Decidable ft.Refused := inferInstanceAs (Decidable (_ ∧ _))

/-- The bytes of the frame at `input`. -/
def frameOf (input : Nat → UWord8) : List UWord8 :=
  input 0 :: (List.range (wmfDecBytesPerFrame (headerType (input 0)))).map fun i => input (i + 1)

/-! ## What a frame is decoded to -/

theorem truncSample_fills {i n : Nat} (h : i < n) (u : Unit) : Fills n n (truncSample i u) := by
  unfold truncSample
  exact (Fills.read h).bind fun _ => (Fills.write i _).widen h

/-- `GSMFrameDecode` writes the frame, and nothing else. -/
theorem gsmFrameDecode_fills (st : SpeechDecodeFrameState core) (call : FrameCall) (parm : Nat → Word16) :
    Fills 0 lFrame (gsmFrameDecode st call parm) := by
  unfold gsmFrameDecode
  refine (decoderAmr_fills _ _ _ _).bind fun r => ?_
  refine (postFilter_fills _ _ _ _).bind fun post => ?_
  refine (postProcess_fills _ _).bind fun postHP => ?_
  exact (Fills.loop (w := fun _ => lFrame) (fun i hi u => truncSample_fills hi u) ()).bind fun _ => .pure _

/-- The parameters read, if any, are those of the mode they are taken for. -/
theorem paramsRead_eq {mode : Mode} {rxType : RXFrameType} (h : 0 < paramsRead mode rxType) :
    paramsRead mode rxType = prmno (prmMode mode rxType) := by
  cases rxType <;> first | rfl | exact absurd h (Nat.lt_irrefl 0)

/-- `GSMFrameDecode` depends on the serial bits of the parameters that are read. -/
theorem gsmFrameDecode_congr (st : SpeechDecodeFrameState core) {mode : Mode} {rxType : RXFrameType}
    {serial serial' : Nat → Word16} (hmode : mode.Speech) (parm parm' : Nat → Word16)
    (h : 0 < paramsRead mode rxType → ∀ p < (bitno (prmMode mode rxType)).sum, serial p = serial' p) :
    gsmFrameDecode st ⟨mode, serial, rxType⟩ parm = gsmFrameDecode st ⟨mode, serial', rxType⟩ parm' := by
  have hparm : ∀ k < paramsRead mode rxType,
      bits2prm (prmMode mode rxType) serial parm k = bits2prm (prmMode mode rxType) serial' parm' k := by
    intro k hk
    have hpos : 0 < paramsRead mode rxType := by omega
    rw [paramsRead_eq hpos] at hk
    exact bits2prm_congr (h hpos) parm parm' k hk
  unfold gsmFrameDecode
  dsimp only
  rw [decoderAmr_congr _ hmode hparm]

/-! ## What `AMRDecode` makes of a frame type -/

/-- The four ways a frame type is treated. -/
theorem FrameType.kinds (ft : FrameType) : ft.Speech ∨ ft = .AMR_SID ∨ ft.Refused ∨ ft = .AMR_NO_DATA := by
  cases ft <;> decide

/-- A speech frame has the bits of the parameters of its mode. -/
theorem FrameType.Speech.toMode {ft : FrameType} (h : ft.Speech) :
    ft.toMode.Speech ∧ (bitno ft.toMode).sum = numOfBits ft := by
  have hmode : ft.toMode.Speech ∧ ft.toMode.toFrameType = ft := by
    revert h
    cases ft <;> decide
  obtain ⟨hspeech, hft⟩ := hmode
  refine ⟨hspeech, ?_⟩
  rw [bitno_sum, if_neg hspeech, hft]

section
variable (prevMode : Mode) (bits : Nat → UWord8) (ets : Nat → Word16)

theorem amrDecode_speech {ft : FrameType} (h : ft.Speech) :
    amrDecode prevMode ft bits ets =
      ⟨some ⟨ft.toMode, wmfToEts ft bits ets, .RX_SPEECH_GOOD⟩, ft.toMode, wmfDecBytesPerFrame ft⟩ := by
  unfold amrDecode
  exact if_pos (Nat.le_of_lt_succ h)

theorem amrDecode_sid :
    amrDecode prevMode .AMR_SID bits ets =
      ⟨some ⟨sidMode (wmfToEts .AMR_SID bits ets), wmfToEts .AMR_SID bits ets,
          if wmfToEts .AMR_SID bits ets amrSidRxTypeBitOffset = 0 then .RX_SID_FIRST else .RX_SID_UPDATE⟩,
        sidMode (wmfToEts .AMR_SID bits ets), wmfDecBytesPerFrame .AMR_SID⟩ := rfl

theorem amrDecode_refused {ft : FrameType} (h : ft.Refused) : amrDecode prevMode ft bits ets = ⟨none, prevMode, -1⟩ := by
  obtain ⟨hsid, hno⟩ := h
  have hspeech : ¬ ft.toNat ≤ FrameType.AMR_122.toNat := by
    have : FrameType.AMR_122.toNat < FrameType.AMR_SID.toNat := by decide
    omega
  have hft : ft ≠ .AMR_SID := by
    rintro rfl
    exact Nat.lt_irrefl _ hsid
  unfold amrDecode
  dsimp only
  rw [if_neg hspeech, if_neg hft, if_pos hno]

theorem amrDecode_noData :
    amrDecode prevMode .AMR_NO_DATA bits ets =
      ⟨some ⟨prevMode, wmfToEts .AMR_NO_DATA bits ets, .RX_NO_DATA⟩, prevMode, wmfDecBytesPerFrame .AMR_NO_DATA⟩ := rfl

end

theorem sidMode_speech (ets : Nat → Word16) : (sidMode ets).Speech := by
  unfold sidMode Mode.ofBits
  split <;> decide

/-- The mode info of a SID frame is in its last three bits. -/
theorem sidMode_congr {ets ets' : Nat → Word16} (h : ∀ p < numOfBits .AMR_SID, ets p = ets' p) :
    sidMode ets = sidMode ets' := by
  have hlast : ∀ i < numAmrSidRxModeBits, amrSidRxModeBitOffset + i < numOfBits .AMR_SID := by decide
  unfold sidMode
  congr 2
  refine List.foldl_ext _ _ _ fun modeStore i hi => ?_
  rw [h _ (hlast i (List.mem_range.1 hi))]

/-- The mode kept is one of speech. -/
theorem amrDecode_prevMode {prevMode : Mode} (h : prevMode.Speech) (ft : FrameType) (bits : Nat → UWord8)
    (ets : Nat → Word16) : (amrDecode prevMode ft bits ets).prevMode.Speech := by
  rcases ft.kinds with hs | rfl | hr | rfl
  · rw [amrDecode_speech _ _ _ hs]
    exact hs.toMode.1
  · rw [amrDecode_sid]
    exact sidMode_speech _
  · rw [amrDecode_refused _ _ _ hr]
    exact h
  · exact h

/-- A frame that is not refused is decoded. -/
theorem amrDecode_call {ft : FrameType} (h : ¬ ft.Refused) (prevMode : Mode) (bits : Nat → UWord8)
    (ets : Nat → Word16) : ∃ call, (amrDecode prevMode ft bits ets).call = some call := by
  rcases ft.kinds with hs | rfl | hr | rfl
  · rw [amrDecode_speech _ _ _ hs]
    exact ⟨_, rfl⟩
  · exact ⟨_, rfl⟩
  · exact absurd hr h
  · exact ⟨_, rfl⟩

/-! ## What the samples depend on -/

theorem frameOf_inj {input input' : Nat → UWord8} (h : frameOf input = frameOf input') :
    input 0 = input' 0 ∧ ∀ i < wmfDecBytesPerFrame (headerType (input 0)), input (i + 1) = input' (i + 1) := by
  obtain ⟨hhead, htail⟩ := List.cons.inj h
  refine ⟨hhead, ?_⟩
  intro i hi
  rw [hhead] at htail hi
  exact List.map_inj_left.1 htail i (List.mem_range.2 hi)

/-- The bytes of the frame are all that is read of the input, and what the locals
held does not show. -/
theorem decodeInto_congr {st : SpeechDecodeFrameState core} (hprev : st.prevMode.Speech) {input input' : Nat → UWord8}
    (h : frameOf input = frameOf input') (locals locals' : Locals) :
    decodeInto st input locals = decodeInto st input' locals' := by
  obtain ⟨hhead, hbytes⟩ := frameOf_inj h
  have hets := fun p => wmfToEts_congr hbytes locals.ets locals'.ets (p := p)
  unfold decodeInto decoderInterfaceDecode
  rw [← hhead]
  generalize headerType (input 0) = ft at hets ⊢
  rcases ft.kinds with hs | rfl | hr | rfl
  · obtain ⟨hmode, hsum⟩ := hs.toMode
    rw [amrDecode_speech _ _ _ hs, amrDecode_speech _ _ _ hs]
    dsimp only
    refine congrArg (fun p => p >>= _) ?_
    apply gsmFrameDecode_congr st hmode
    intro _ p hp
    apply hets
    rw [← hsum]
    exact hp
  · -- 35 bits of parameters, the type bit and the mode info
    have htype := hets amrSidRxTypeBitOffset (by decide)
    have hsum : (bitno .MRDTX).sum ≤ numOfBits .AMR_SID := by decide
    rw [amrDecode_sid, amrDecode_sid, sidMode_congr hets, htype]
    dsimp only
    refine congrArg (fun p => p >>= _) ?_
    apply gsmFrameDecode_congr st (sidMode_speech _)
    split
    · intro hpos
      exact absurd hpos (Nat.lt_irrefl 0)
    · intro _ p hp
      exact hets p (Nat.lt_of_lt_of_le hp hsum)
  · rw [amrDecode_refused _ _ _ hr, amrDecode_refused _ _ _ hr]
  · rw [amrDecode_noData, amrDecode_noData]
    dsimp only
    refine congrArg (fun p => p >>= _) ?_
    apply gsmFrameDecode_congr st hprev
    intro hpos
    exact absurd hpos (Nat.lt_irrefl 0)

theorem decodeInto_call (st : SpeechDecodeFrameState core) {input : Nat → UWord8} (h : ¬ (headerType (input 0)).Refused)
    (locals : Locals) :
    ∃ call, decodeInto st input locals =
      gsmFrameDecode st call locals.parm >>= fun st' =>
        pure { st' with prevMode := (decoderInterfaceDecode st.prevMode input locals.ets).prevMode } := by
  obtain ⟨call, hcall⟩ := amrDecode_call h st.prevMode (fun i => input (i + 1)) locals.ets
  refine ⟨call, ?_⟩
  unfold decodeInto decoderInterfaceDecode
  dsimp only
  rw [hcall]

/-- A frame that is not refused fills the buffer's 160 samples. -/
theorem decodeInto_fills (st : SpeechDecodeFrameState core) {input : Nat → UWord8} (h : ¬ (headerType (input 0)).Refused)
    (locals : Locals) : Fills 0 lFrame (decodeInto st input locals) := by
  obtain ⟨call, hcall⟩ := decodeInto_call st h locals
  rw [hcall]
  exact (gsmFrameDecode_fills _ _ _).bind fun _ => .pure _

/-- A refused frame does nothing at all. -/
theorem decodeInto_refused (st : SpeechDecodeFrameState core) {input : Nat → UWord8} (h : (headerType (input 0)).Refused)
    (locals : Locals) (out : Nat → Word16) : decodeInto st input locals out = (st, out) := by
  unfold decodeInto decoderInterfaceDecode
  rw [amrDecode_refused _ _ _ h]
  rfl

/-- The state after a frame depends on the frame alone. -/
theorem decodeInto_state {st : SpeechDecodeFrameState core} (hprev : st.prevMode.Speech) {input input' : Nat → UWord8}
    (hin : frameOf input = frameOf input') (locals locals' : Locals) (out out' : Nat → Word16) :
    (decodeInto st input locals out).1 = (decodeInto st input' locals' out').1 := by
  rw [decodeInto_congr hprev hin locals locals']
  by_cases h : (headerType (input' 0)).Refused
  · rw [decodeInto_refused st h, decodeInto_refused st h]
  · exact ((decodeInto_fills st h locals').fresh out out').1

/-- Nothing behind the 160 samples is written. -/
theorem decodeInto_keeps (st : SpeechDecodeFrameState core) (input : Nat → UWord8) (locals : Locals)
    (out : Nat → Word16) : ∀ i ≥ lFrame, (decodeInto st input locals out).2 i = out i := by
  intro i hi
  by_cases h : (headerType (input 0)).Refused
  · rw [decodeInto_refused st h]
  · exact (decodeInto_fills st h locals).keeps out i hi

theorem decodeInto_prevMode (st : SpeechDecodeFrameState core) (input : Nat → UWord8) (locals : Locals)
    (out : Nat → Word16) :
    (decodeInto st input locals out).1.prevMode = (decoderInterfaceDecode st.prevMode input locals.ets).prevMode := by
  by_cases h : (headerType (input 0)).Refused
  · rw [decodeInto_refused st h, decoderInterfaceDecode, amrDecode_refused _ _ _ h]
  · obtain ⟨call, hcall⟩ := decodeInto_call st h locals
    rw [hcall]
    rfl

/-! ## Runs of the decoder -/

/-- A call of `Decoder_Interface_Decode`: the frame, what the locals held, and the caller's buffer. -/
structure DecodeCall where
  input : Nat → UWord8
  locals : Locals
  out : Nat → Word16

/-- The state after a call. -/
def decodeStep (st : SpeechDecodeFrameState core) (call : DecodeCall) : Res (SpeechDecodeFrameState core) :=
  .ok (decodeInto st call.input call.locals call.out).1

/-- The mode kept is one of speech, in every state reached. -/
theorem run_prevMode {calls : List DecodeCall} {st : SpeechDecodeFrameState core}
    (h : Run decodeStep (fun _ _ => True) (decoderInterfaceInit core) calls st) : st.prevMode.Speech := by
  have hinit : Mode.MR475.Speech := by decide
  refine h.inv (fun st => st.prevMode.Speech) hinit ?_
  intro st call st' hst _ hstep
  cases hstep
  rw [decodeInto_prevMode]
  exact amrDecode_prevMode hst _ _ _

/-- The state after any calls depends on the frames, and on nothing else. -/
theorem run_state {calls calls' : List DecodeCall} {st st' : SpeechDecodeFrameState core}
    (h : Run decodeStep (fun _ _ => True) (decoderInterfaceInit core) calls st)
    (h' : Run decodeStep (fun _ _ => True) (decoderInterfaceInit core) calls' st')
    (hin : calls.map (frameOf ·.input) = calls'.map (frameOf ·.input)) : st = st' := by
  induction h generalizing calls' st' with
  | nil =>
    rw [List.map_nil, List.nil_eq, List.map_eq_nil_iff] at hin
    subst hin
    exact h'.nil_inv.symm
  | @snoc calls s t call hr _ hstep ih =>
    rw [List.map_append, List.map_singleton] at hin
    obtain ⟨front, last, rfl, hfront, hlast⟩ := List.map_eq_append_iff.1 hin.symm
    obtain ⟨call', rfl, hcall⟩ := List.map_eq_singleton_iff.1 hlast
    obtain ⟨s', hr', -, hstep'⟩ := h'.snoc_inv
    have hsame := ih hr' hfront.symm
    subst hsame
    cases hstep
    cases hstep'
    apply decodeInto_state (run_prevMode hr)
    exact hcall.symm

/-- State `st` and the bytes of the frame determine the samples: neither the rest of
the input, nor what the locals or the caller's buffer held, has a part in them. -/
def Determined (st : SpeechDecodeFrameState core) (input : Nat → UWord8) : Prop :=
  ∀ input', frameOf input' = frameOf input → ∀ locals locals' out out', ∀ i < lFrame,
    (decodeInto st input' locals' out').2 i = (decodeInto st input locals out).2 i

/-- The caller gets its own samples back from a refused frame. -/
theorem refused_not_determined (st : SpeechDecodeFrameState core) {input : Nat → UWord8}
    (h : (headerType (input 0)).Refused) : ¬ Determined st input := by
  intro hdet
  have hsame := hdet input rfl ⟨fun _ => 0, fun _ => 0⟩ ⟨fun _ => 0, fun _ => 0⟩ (fun _ => 0) (fun _ => 1) 0 (by decide)
  rw [decodeInto_refused st h, decodeInto_refused st h] at hsame
  have hne : (1 : Word16) ≠ 0 := by decide
  exact hne hsame

/-- In every state reached, the samples a frame is decoded to are determined by the
state and the frame exactly when the frame's type is not refused. -/
theorem run_determined_iff {calls : List DecodeCall} {st : SpeechDecodeFrameState core}
    (h : Run decodeStep (fun _ _ => True) (decoderInterfaceInit core) calls st) (input : Nat → UWord8) :
    Determined st input ↔ ¬ (headerType (input 0)).Refused := by
  constructor
  · intro hdet hr
    exact refused_not_determined st hr hdet
  · intro hr input' hin locals locals' out out' i hi
    rw [decodeInto_congr (run_prevMode h) hin locals' locals]
    exact ((decodeInto_fills st hr locals).fresh out' out).2 i hi

/-- No signal processing. -/
def silent : DecoderCore where
  Dec := Unit
  decInit := ()
  decReset := fun _ _ => ()
  comfortNoise := fun _ _ _ _ => ⟨(), [], 0, []⟩
  cnCode := fun _ _ => ((), [])
  cnMute := fun _ _ _ => ()
  lspAvg := fun _ => ()
  lpc := fun _ _ _ _ => ((), [], [])
  excitation := fun _ _ => ((), [])
  endSpeech := fun _ _ => ()
  tilt := fun _ _ _ memPre => ([], [], memPre)
  agcG0 := fun _ _ => 0

/-- Behind a frame of `MR122` and an empty one, another frame of `MR122` is determined,
but a frame of type 9, `GSM_EFR_SID`, is not. -/
theorem run_determined_third :
    let frame := fun (header : UWord8) (i : Nat) => if i = 0 then header else 0x55
    ∃ st, Run decodeStep (fun _ _ => True) (decoderInterfaceInit silent)
        ([0x3C, 0x7C].map fun header => ⟨frame header, ⟨fun _ => 7, fun _ => 7⟩, fun _ => 9⟩) st ∧
      Determined st (frame 0x3C) ∧ ¬ Determined st (frame 0x48) := by
  intro frame
  obtain ⟨st, hrun⟩ : ∃ st, Run decodeStep (fun _ _ => True) (decoderInterfaceInit silent)
      ([0x3C, 0x7C].map fun header => ⟨frame header, ⟨fun _ => 7, fun _ => 7⟩, fun _ => 9⟩) st :=
    ⟨_, .snoc (.snoc .nil trivial rfl) trivial rfl⟩
  have hiff := run_determined_iff hrun
  exact ⟨st, hrun, (hiff (frame 0x3C)).2 (by decide), fun h => (hiff (frame 0x48)).1 h (by decide)⟩

/-- As the first frame, that one leaves the caller's buffer as it is. -/
theorem decode_stale :
    ¬ ∀ (calls : List DecodeCall) (st : SpeechDecodeFrameState silent),
      Run decodeStep (fun _ _ => True) (decoderInterfaceInit silent) calls st → ∀ input, Determined st input := by
  intro h
  have hnot : ¬ Determined (decoderInterfaceInit silent) fun _ => 0x48 := refused_not_determined _ (by decide)
  exact hnot (h [] _ .nil _)

end AudioRecorder.Codec
