import AudioRecorder.Codec.Params
/-!
# The speech decoder

`Decoder_amr` (`dec_amr.cpp`) synthesises a frame into the output buffer: comfort
noise (`dtx_dec`) when `rx_dtx_handler` says so, and speech subframe by subframe
otherwise. The signal processing is a parameter, `DecoderCore`, which is handed
what the source hands it: of the output buffer, only samples that are read here.
The overflow flag is left out: its one test, after `Syn_filt` of a subframe, comes
behind `*pOverflow = 0` and `Syn_filt` does not take the flag, so the branch that
filters the subframe again is never taken.
-/

namespace AudioRecorder.Codec

open Fill (Prog Fills)

/-- `enum DTXStateType`. -/
inductive DTXStateType where
  | SPEECH | DTX | DTX_MUTE
  deriving DecidableEq, Repr

/-- The fields of `dtx_decState` that `rx_dtx_handler` keeps. -/
structure DtxDecState where
  sinceLastSid : Int
  decAnaElapsedCount : Int
  dtxHangoverCount : Int
  sidFrame : Bool
  validData : Bool
  dtxHangoverAdded : Bool
  dtxGlobalState : DTXStateType
  dataUpdated : Bool

/-- What `dtx_dec` works out before its synthesis. -/
structure Noise (Dec : Type) where
  dec : Dec
  acoeffVariab : List Word16
  level : Word16
  aT : List Word16

/-- What the excitation of a subframe is computed from. -/
structure Subframe where
  mode : Mode
  index : Nat
  bfi : Bool
  pdfi : Bool
  prevBf : Bool
  prevPdf : Bool
  state : Nat
  prevLsf : List Word16
  params : List Word16
  indexMr475 : Word16

/-- The signal processing of the decoder. `Dec` is `Decoder_amrState` but for the
fields of `DecoderAmrState`. Of `dtx_dec`, `comfortNoise` is what comes before
the synthesis, `cnCode` a subframe of it and `cnMute` what follows; of the speech
branch, `lpc` decodes the LSF parameters, `excitation` a subframe of excitation,
and `endSpeech` runs the detectors on the frame. `tilt` and `agcG0` are of the post
filter. -/
structure DecoderCore where
  Dec : Type
  decInit : Dec
  decReset : Mode → Dec → Dec
  comfortNoise : Dec → DtxDecState → Mode → Option (List Word16) → Noise Dec
  cnCode : Dec → Word16 → Dec × List Word16
  cnMute : Dec → Int → DTXStateType → Dec
  lspAvg : Dec → Dec
  lpc : Dec → Mode → Bool → List Word16 → Dec × List Word16 × List Word16
  excitation : Dec → Subframe → Dec × List Word16
  endSpeech : Dec → List Word16 → Dec
  tilt : Mode → List Word16 → List Word16 → Word16 → List Word16 × List Word16 × Word16
  agcG0 : Word32 → Word32 → Word16

variable {core : DecoderCore}

/-- `Decoder_amrState`; `state` is that of the bad frame handling. -/
structure DecoderAmrState (core : DecoderCore) where
  core : core.Dec
  memSyn : List Word16
  prevBf : Bool
  prevPdf : Bool
  state : Nat
  nodataSeed : Word16
  dtx : DtxDecState

/-! ## Discontinuous transmission -/

/-- `DTX_MAX_EMPTY_THRESH`. -/
def dtxMaxEmptyThresh : Int := 50

/-- `dtx_dec_reset`. -/
def dtxDecReset : DtxDecState := ⟨0, 32767, dtxHangConst, false, false, false, .DTX, false⟩

/-- A SID frame, good or bad. -/
def RXFrameType.Sid (frameType : RXFrameType) : Prop :=
  frameType = .RX_SID_FIRST ∨ frameType = .RX_SID_UPDATE ∨ frameType = .RX_SID_BAD

instance (frameType : RXFrameType) : Decidable frameType.Sid := inferInstanceAs (Decidable (_ ∨ _))

/-- The new state, and `since_last_sid`. -/
def newDtxState (st : DtxDecState) (frameType : RXFrameType) : DTXStateType × Int :=
  if frameType.Sid ∨
      ((st.dtxGlobalState = .DTX ∨ st.dtxGlobalState = .DTX_MUTE) ∧
        (frameType = .RX_NO_DATA ∨ frameType = .RX_SPEECH_BAD ∨ frameType = .RX_ONSET)) then
    -- stay in mute for these
    let newState := if st.dtxGlobalState = .DTX_MUTE ∧ (frameType = .RX_SID_BAD ∨ frameType = .RX_SID_FIRST ∨
        frameType = .RX_ONSET ∨ frameType = .RX_NO_DATA) then DTXStateType.DTX_MUTE else .DTX
    let sinceLastSid := st.sinceLastSid + 1
    -- the noise parameters are too old
    (if frameType ≠ .RX_SID_UPDATE ∧ sinceLastSid > dtxMaxEmptyThresh then .DTX_MUTE else newState, sinceLastSid)
  else (.SPEECH, 0)

/-- The state the encoder is taken to be in. -/
def encDtxState (newState : DTXStateType) (frameType : RXFrameType) : DTXStateType :=
  if frameType.Sid ∨ frameType = .RX_ONSET ∨ frameType = .RX_NO_DATA then
    if frameType = .RX_NO_DATA ∧ newState = .SPEECH then .SPEECH else .DTX
  else .SPEECH

/-- The hangover of the encoder, for its state. -/
def dtxHangover (encState : DTXStateType) (st : DtxDecState) : DtxDecState :=
  if encState = .SPEECH then { st with dtxHangoverCount := dtxHangConst }
  else if st.decAnaElapsedCount > dtxElapsedFramesThresh then
    { st with dtxHangoverAdded := true, decAnaElapsedCount := 0, dtxHangoverCount := 0 }
  else if st.dtxHangoverCount = 0 then { st with decAnaElapsedCount := 0 }
  else { st with dtxHangoverCount := st.dtxHangoverCount - 1 }

/-- `rx_dtx_handler`. -/
def rxDtxHandler (st : DtxDecState) (frameType : RXFrameType) : DTXStateType × DtxDecState :=
  let (newState, sinceLastSid) := newDtxState st frameType
  let elapsed := if st.dataUpdated = false ∧ frameType = .RX_SID_UPDATE then 0 else st.decAnaElapsedCount
  let st := { st with sinceLastSid, decAnaElapsedCount := (add16 elapsed 1).1, dtxHangoverAdded := false }
  let st := dtxHangover (encDtxState newState frameType) st
  (newState,
    if newState ≠ .SPEECH then
      { st with
        sidFrame := decide frameType.Sid
        validData := decide (frameType = .RX_SID_UPDATE)
        dtxHangoverAdded := if frameType = .RX_SID_BAD then false else st.dtxHangoverAdded }
    else st)

/-- A round of the synthesis of `dtx_dec`. -/
def dtxSubframe (noise : Noise core.Dec) (i : Nat) (s : core.Dec × List Word16) :
    Prog Word16 (core.Dec × List Word16) := do
  let code := core.cnCode s.1 noise.level
  let memSyn ← synFilt noise.acoeffVariab code.2 (i * lSubfr) lSubfr s.2 true
  pure (code.1, memSyn)

/-- `dtx_dec`, with `A_t`: the parameters are read for a valid SID frame only. -/
def dtxDec (st : DecoderAmrState core) (newState : DTXStateType) (mode : Mode) (parm : Nat → Word16) :
    Prog Word16 (DecoderAmrState core × List Word16) := do
  let dtx := st.dtx
  let valid := dtx.sidFrame ∧ dtx.validData
  let noise := core.comfortNoise st.core dtx mode (if valid then some (paramsAt parm 0 (prmno .MRDTX)) else none)
  let sinceLastSid := if valid then 0 else dtx.sinceLastSid
  let s ← Fill.loop (dtxSubframe noise) 4 (noise.dec, st.memSyn)
  let updated := dtx.sidFrame ∧ (dtx.validData ∨ (dtx.validData = false ∧ dtx.dtxHangoverAdded))
  let muted := if newState = .DTX_MUTE then 0 else sinceLastSid
  let dtx := if updated then { dtx with sinceLastSid := 0, dataUpdated := true } else { dtx with sinceLastSid := muted }
  pure ({ st with core := core.cnMute s.1 sinceLastSid newState, memSyn := s.2, dtx }, noise.aT)

/-! ## `Decoder_amr` -/

/-- `Decoder_amr_reset`. -/
def decoderAmrReset (mode : Mode) (st : DecoderAmrState core) : DecoderAmrState core where
  core := core.decReset mode st.core
  memSyn := if mode ≠ .MRDTX then List.replicate orderM 0 else st.memSyn
  prevBf := false
  prevPdf := false
  state := 0
  nodataSeed := 21845
  dtx := if mode ≠ .MRDTX then dtxDecReset else st.dtx

/-- The state `Decoder_amr_init` leaves. -/
def decoderAmrInit (core : DecoderCore) : DecoderAmrState core :=
  ⟨core.decReset .MR475 core.decInit, List.replicate orderM 0, false, false, 0, 21845, dtxDecReset⟩

/-- A bad frame: `bfi`. -/
def badFrame (frameType : RXFrameType) : Bool :=
  frameType = .RX_SPEECH_BAD ∨ frameType = .RX_NO_DATA ∨ frameType = .RX_ONSET

/-- A frame without parameters, which `build_CN_param` makes up. -/
def noParams (frameType : RXFrameType) : Bool := frameType = .RX_NO_DATA ∨ frameType = .RX_ONSET

/-- The seed and the parameters that a speech frame is decoded from. -/
def frameParams (nodataSeed : Word16) (mode : Mode) (parm : Nat → Word16) (frameType : RXFrameType) :
    Word16 × (Nat → Word16) :=
  if noParams frameType then buildCNParam nodataSeed mode parm else (nodataSeed, parm)

/-- The state of the bad frame handling, and `prev_bf`. -/
def bfhState (dtxGlobalState : DTXStateType) (bfi : Bool) (state : Nat) (prevBf : Bool) : Nat × Bool :=
  let state := if bfi then min (state + 1) 6 else if state = 6 then 5 else 0
  match dtxGlobalState with
  | .SPEECH => (state, prevBf)
  -- the first speech frame after comfort noise
  | .DTX => (5, false)
  | .DTX_MUTE => (5, true)

/-- `A_t` of a subframe. -/
def azAt (aT : List Word16) (i : Nat) : List Word16 := (aT.drop (i * (orderM + 1))).take (orderM + 1)

/-- What a subframe hands to the next: the state, `mem_syn`, and the index of the gains of `MR475`. -/
structure SubframeState (core : DecoderCore) where
  core : core.Dec
  memSyn : List Word16
  indexMr475 : Word16

/-- What the speech branch works out before its subframes. -/
structure SpeechFrame where
  mode : Mode
  bfi : Bool
  pdfi : Bool
  prevBf : Bool
  prevPdf : Bool
  state : Nat
  prevLsf : List Word16
  aT : List Word16

/-- A round of the loop over the subframes. -/
def speechSubframe (fr : SpeechFrame) (parm : Nat → Word16) (i : Nat) (s : SubframeState core) :
    Prog Word16 (SubframeState core) := do
  let params := paramsAt parm (subframeStart fr.mode i) (subframeParams fr.mode i)
  let indexMr475 := if fr.mode = .MR475 ∧ i % 2 = 0 then entry params 3 else s.indexMr475
  let exc := core.excitation s.core
    ⟨fr.mode, i, fr.bfi, fr.pdfi, fr.prevBf, fr.prevPdf, fr.state, fr.prevLsf, params, indexMr475⟩
  let _ ← synFilt (azAt fr.aT i) exc.2 (i * lSubfr) lSubfr s.memSyn false
  let memSyn ← Fill.window (i * lSubfr + lSubfr - orderM) orderM
  pure ⟨exc.1, memSyn, indexMr475⟩

/-- The speech branch of `Decoder_amr`. -/
def speechDec (st : DecoderAmrState core) (mode : Mode) (parm : Nat → Word16) (frameType : RXFrameType) :
    Prog Word16 (DecoderAmrState core × List Word16) := do
  let bfi := badFrame frameType
  let pdfi := decide (frameType = .RX_SPEECH_DEGRADED)
  let made := frameParams st.nodataSeed mode parm frameType
  let (state, prevBf) := bfhState st.dtx.dtxGlobalState bfi st.state st.prevBf
  let (dec, prevLsf, aT) := core.lpc st.core mode bfi (paramsAt made.2 0 (lsfParams mode))
  let fr : SpeechFrame := ⟨mode, bfi, pdfi, prevBf, st.prevPdf, state, prevLsf, aT⟩
  let s ← Fill.loop (speechSubframe fr made.2) 4 ⟨dec, st.memSyn, 0⟩
  let frame ← Fill.window 0 lFrame
  pure (⟨core.endSpeech s.core frame, s.memSyn, bfi, pdfi, state, made.1, st.dtx⟩, aT)

/-- `Decoder_amr`, with `A_t`. -/
def decoderAmr (st : DecoderAmrState core) (mode : Mode) (parm : Nat → Word16) (frameType : RXFrameType) :
    Prog Word16 (DecoderAmrState core × List Word16) := do
  let (newDTXState, dtx) := rxDtxHandler st.dtx frameType
  let st := { st with dtx }
  let r ←
    if newDTXState ≠ .SPEECH then do
      let r ← dtxDec (decoderAmrReset .MRDTX st) newDTXState mode parm
      pure ({ r.1 with core := core.lspAvg r.1.core }, r.2)
    else speechDec st mode parm frameType
  pure ({ r.1 with dtx := { r.1.dtx with dtxGlobalState := newDTXState } }, r.2)

/-! ## What they fill -/

theorem dtxSubframe_fills (noise : Noise core.Dec) (i : Nat) (s : core.Dec × List Word16) :
    Fills (i * lSubfr) ((i + 1) * lSubfr) (dtxSubframe noise i s) := by
  rw [Nat.succ_mul]
  unfold dtxSubframe
  exact (synFilt_fills _ _ _ _ _ (by decide)).bind fun _ => .pure _

/-- `dtx_dec` writes the frame, reading nothing of it before. -/
theorem dtxDec_fills (st : DecoderAmrState core) (newState : DTXStateType) (mode : Mode) (parm : Nat → Word16) :
    Fills 0 lFrame (dtxDec st newState mode parm) := by
  have hloop : ∀ (noise : Noise core.Dec) s, Fills (0 * lSubfr) (4 * lSubfr) (Fill.loop (dtxSubframe noise) 4 s) := by
    intro noise s
    exact Fills.loop (w := fun i => i * lSubfr) (fun i _ s => dtxSubframe_fills noise i s) s
  unfold dtxDec
  exact (hloop _ _).bind fun _ => .pure _

theorem speechSubframe_fills (fr : SpeechFrame) (parm : Nat → Word16) (i : Nat) (s : SubframeState core) :
    Fills (i * lSubfr) ((i + 1) * lSubfr) (speechSubframe fr parm i s) := by
  have hm : orderM ≤ lSubfr := by decide
  rw [Nat.succ_mul]
  unfold speechSubframe
  refine (synFilt_fills _ _ _ _ _ hm).bind fun _ => ?_
  exact (Fills.window (by omega)).bind fun _ => .pure _

/-- The speech branch writes the frame, reading nothing of it before. -/
theorem speechDec_fills (st : DecoderAmrState core) (mode : Mode) (parm : Nat → Word16) (frameType : RXFrameType) :
    Fills 0 lFrame (speechDec st mode parm frameType) := by
  have hloop : ∀ fr parm (s : SubframeState core),
      Fills (0 * lSubfr) (4 * lSubfr) (Fill.loop (speechSubframe fr parm) 4 s) := by
    intro fr parm s
    exact Fills.loop (w := fun i => i * lSubfr) (fun i _ s => speechSubframe_fills fr parm i s) s
  unfold speechDec
  refine (hloop _ _ _).bind fun _ => ?_
  exact (Fills.window (by decide)).bind fun _ => .pure _

theorem decoderAmr_fills (st : DecoderAmrState core) (mode : Mode) (parm : Nat → Word16) (frameType : RXFrameType) :
    Fills 0 lFrame (decoderAmr st mode parm frameType) := by
  unfold decoderAmr
  dsimp only
  split
  · exact (dtxDec_fills _ _ _ _).bind fun _ => (Fills.pure _).bind fun _ => .pure _
  · exact (speechDec_fills _ _ _ _).bind fun _ => .pure _

/-! ## Which parameters they read -/

theorem speechSubframe_congr (fr : SpeechFrame) {parm parm' : Nat → Word16} (hmode : fr.mode.Speech)
    (h : ∀ k < prmno fr.mode, parm k = parm' k) {i : Nat} (hi : i < 4) (s : SubframeState core) :
    speechSubframe fr parm i s = speechSubframe fr parm' i s := by
  have hend : subframeStart fr.mode i + subframeParams fr.mode i ≤ prmno fr.mode := subframeStart_le hmode (i := i + 1) hi
  unfold speechSubframe
  rw [paramsAt_congr h hend]

theorem frameParams_congr (seed : Word16) {mode : Mode} {parm parm' : Nat → Word16} {frameType : RXFrameType}
    (h : noParams frameType = false → ∀ k < prmno mode, parm k = parm' k) :
    (frameParams seed mode parm frameType).1 = (frameParams seed mode parm' frameType).1 ∧
      ∀ k < prmno mode, (frameParams seed mode parm frameType).2 k = (frameParams seed mode parm' frameType).2 k := by
  unfold frameParams
  cases hn : noParams frameType with
  | true => exact ⟨rfl, buildCNParam_congr seed mode parm parm'⟩
  | false => exact ⟨rfl, h hn⟩

/-- The speech branch reads the parameters of the mode, unless it makes them up. -/
theorem speechDec_congr (st : DecoderAmrState core) {mode : Mode} {parm parm' : Nat → Word16} {frameType : RXFrameType}
    (hmode : mode.Speech) (h : noParams frameType = false → ∀ k < prmno mode, parm k = parm' k) :
    speechDec st mode parm frameType = speechDec st mode parm' frameType := by
  obtain ⟨hseed, hmade⟩ := frameParams_congr st.nodataSeed h
  have hle : 0 + lsfParams mode ≤ prmno mode := by
    rw [Nat.zero_add]
    exact subframeStart_le hmode (i := 0) (by omega)
  unfold speechDec
  simp only [hseed, paramsAt_congr hmade hle]
  congr 1
  exact Fill.loop_congr (fun i hi s => speechSubframe_congr _ hmode hmade hi s) _

/-- `dtx_dec` reads the parameters of a valid SID frame. -/
theorem dtxDec_congr (st : DecoderAmrState core) (newState : DTXStateType) (mode : Mode) {parm parm' : Nat → Word16}
    (h : st.dtx.validData = true → ∀ k < prmno .MRDTX, parm k = parm' k) :
    dtxDec st newState mode parm = dtxDec st newState mode parm' := by
  have hsid : (if st.dtx.sidFrame ∧ st.dtx.validData then some (paramsAt parm 0 (prmno .MRDTX)) else none) =
      if st.dtx.sidFrame ∧ st.dtx.validData then some (paramsAt parm' 0 (prmno .MRDTX)) else none := by
    split
    · rename_i hv
      rw [paramsAt_congr (h hv.2) (by omega)]
    · rfl
  unfold dtxDec
  simp only [hsid]

/-- What `rx_dtx_handler` makes of a frame out of speech. -/
theorem rxDtxHandler_validData {st : DtxDecState} {frameType : RXFrameType}
    (h : (rxDtxHandler st frameType).1 ≠ .SPEECH) :
    (rxDtxHandler st frameType).2.validData = decide (frameType = .RX_SID_UPDATE) := by
  unfold rxDtxHandler at h ⊢
  dsimp only at h ⊢
  rw [if_pos h]

/-- A SID frame is never decoded as speech. -/
theorem rxDtxHandler_sid {st : DtxDecState} {frameType : RXFrameType} (h : frameType.Sid) :
    (rxDtxHandler st frameType).1 ≠ .SPEECH := by
  unfold rxDtxHandler newDtxState
  rw [if_pos (.inl h)]
  dsimp only
  split
  · decide
  · split <;> decide

/-- The parameters that `Decoder_amr` may read of a frame. -/
def paramsRead (mode : Mode) (frameType : RXFrameType) : Nat :=
  match frameType with
  | .RX_SID_UPDATE => prmno .MRDTX
  | .RX_SID_FIRST | .RX_SID_BAD | .RX_NO_DATA | .RX_ONSET => 0
  | _ => prmno mode

theorem decoderAmr_congr (st : DecoderAmrState core) {mode : Mode} {parm parm' : Nat → Word16} {frameType : RXFrameType}
    (hmode : mode.Speech) (h : ∀ k < paramsRead mode frameType, parm k = parm' k) :
    decoderAmr st mode parm frameType = decoderAmr st mode parm' frameType := by
  unfold decoderAmr
  dsimp only
  by_cases hdtx : (rxDtxHandler st.dtx frameType).1 ≠ .SPEECH
  · have hvalid := rxDtxHandler_validData hdtx
    rw [if_pos hdtx, if_pos hdtx]
    congr 1
    refine dtxDec_congr _ _ _ fun hv => ?_
    have hupdate : frameType = .RX_SID_UPDATE := by
      apply of_decide_eq_true
      rw [← hvalid]
      exact hv
    subst hupdate
    exact h
  · rw [if_neg hdtx, if_neg hdtx]
    congr 1
    refine speechDec_congr _ hmode fun hnp => ?_
    have hsid : ¬ frameType.Sid := fun hs => hdtx (rxDtxHandler_sid hs)
    cases frameType <;> first | exact h | exact absurd hnp (by decide) | exact absurd (by decide) hsid

end AudioRecorder.Codec
