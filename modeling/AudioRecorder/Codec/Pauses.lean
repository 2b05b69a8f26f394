import AudioRecorder.Codec.FrameDecode
import AudioRecorder.Codec.RoundTrip
import AudioRecorder.Lib.Lockstep
/-!
# The decoder follows the encoder through pauses

With DTX the encoder stops sending speech in a pause. It may send seven more speech
frames first, the hangover, over which the decoder averages the background noise;
nothing in a frame says whether it did. `tx_dtx_handler` and `rx_dtx_handler` each
count frames to decide it, and `sid_sync` counts the frames between SID updates.
Over any run of frames the decoder makes comfort noise exactly for the frames that
the encoder did not send as speech, takes the hangover for added exactly when it
was, and never mutes (`decoder_follows_pauses`).
-/

namespace AudioRecorder.Codec

variable {core : SpeechCore} {dcore : DecoderCore}

/-! ## The counters of the encoder -/

theorem add16_fst {a b : Int} (ha : 0 ≤ a) (hb : 0 ≤ b) : (add16 a b).1 = min (a + b) 32767 := by
  unfold add16
  split
  · simp only
    omega
  · split
    · omega
    · simp only
      omega

/-- What `tx_dtx_handler` makes of the frames elapsed, `e`, and of the hangover
left, `h`, and the mode it uses when `mode` is asked for. -/
inductive TxStep (e h : Int) (mode : Mode) : Int → Int → Mode → Prop
  | voice : TxStep e h mode (min (e + 1) 32767) 7 mode
  | silence (hh : h = 0) : TxStep e h mode 0 0 .MRDTX
  | short (hh : 0 < h) (hsum : min (e + 1) 32767 + (h - 1) < 30) : TxStep e h mode (min (e + 1) 32767) (h - 1) .MRDTX
  | hangover (hh : 0 < h) (hsum : 30 ≤ min (e + 1) 32767 + (h - 1)) : TxStep e h mode (min (e + 1) 32767) (h - 1) mode

theorem noteOverflow_counters (o : Bool) (st : CodAmrState core) :
    (noteOverflow o st).decAnaElapsedCount = st.decAnaElapsedCount ∧
      (noteOverflow o st).dtxHangoverCount = st.dtxHangoverCount := by
  cases o <;> exact ⟨rfl, rfl⟩

theorem txDtxHandler_step (st : CodAmrState core) (he : 0 ≤ st.decAnaElapsedCount) (hh : 0 ≤ st.dtxHangoverCount)
    (vad : Word16) (mode : Mode) :
    TxStep st.decAnaElapsedCount st.dtxHangoverCount mode (txDtxHandler st vad mode).1.decAnaElapsedCount
      (txDtxHandler st vad mode).1.dtxHangoverCount (txDtxHandler st vad mode).2.2 := by
  have he' := add16_fst he (show (0 : Int) ≤ 1 by decide)
  unfold txDtxHandler
  by_cases hv : vad = 0
  · by_cases h0 : st.dtxHangoverCount = 0
    · simp only [hv, (noteOverflow_counters _ _).2, h0, ne_eq, not_true_eq_false, if_false, if_true]
      exact .silence rfl
    · have hpos : 0 < st.dtxHangoverCount := by omega
      have hcount := add16_fst (a := min (st.decAnaElapsedCount + 1) 32767) (b := st.dtxHangoverCount - 1) (by omega)
        (by omega)
      simp only [hv, (noteOverflow_counters _ _).2, (noteOverflow_counters _ _).1, h0, ne_eq, not_true_eq_false, if_false,
        he', hcount, dtxElapsedFramesThresh]
      by_cases hc : min (min (st.decAnaElapsedCount + 1) 32767 + (st.dtxHangoverCount - 1)) 32767 < 30
      · simpa [hc] using TxStep.short hpos (by omega)
      · simpa [hc] using TxStep.hangover hpos (by omega)
  · simp only [hv, (noteOverflow_counters _ _).1, ne_eq, not_false_eq_true, if_true, he', dtxHangConst]
    exact .voice

theorem codAmr_step {st : CodAmrState core} (hdtx : st.dtx ≠ 0) (he : 0 ≤ st.decAnaElapsedCount)
    (hh : 0 ≤ st.dtxHangoverCount) (mode : Mode) (x : List Word16) :
    TxStep st.decAnaElapsedCount st.dtxHangoverCount mode (codAmr st mode x).1.decAnaElapsedCount
      (codAmr st mode x).1.dtxHangoverCount (codAmr st mode x).2.2 := by
  unfold codAmr
  simp only [hdtx, ne_eq, not_false_eq_true, if_true]
  exact txDtxHandler_step { st with core := (core.vad1 st.core x).1 } he hh _ mode

/-! ## The counters of the decoder -/

/-- `Decoder_amr` on its DTX state: `rx_dtx_handler`, and `dtx_dec` out of speech. -/
def dtxFrame (st : DtxDecState) (rxType : RXFrameType) : DtxDecState :=
  let (newState, st) := rxDtxHandler st rxType
  let st :=
    if newState = .SPEECH then st
    else if st.sidFrame ∧ (st.validData ∨ (st.validData = false ∧ st.dtxHangoverAdded)) then
      { st with sinceLastSid := 0, dataUpdated := true }
    else { st with sinceLastSid := if newState = .DTX_MUTE then 0 else if st.sidFrame ∧ st.validData then 0 else st.sinceLastSid }
  { st with dtxGlobalState := newState }

theorem dtxDec_dtx (st : DecoderAmrState dcore) (newState : DTXStateType) (mode : Mode) (parm out : Nat → Word16) :
    (dtxDec st newState mode parm out).1.1.dtx =
      if st.dtx.sidFrame ∧ (st.dtx.validData ∨ (st.dtx.validData = false ∧ st.dtx.dtxHangoverAdded)) then
        { st.dtx with sinceLastSid := 0, dataUpdated := true }
      else { st.dtx with sinceLastSid := if newState = .DTX_MUTE then 0 else if st.dtx.sidFrame ∧ st.dtx.validData then 0 else st.dtx.sinceLastSid } := by
  unfold dtxDec
  simp only [Fill.bind_apply, Fill.pure_apply]

theorem decoderAmr_dtx (st : DecoderAmrState dcore) (mode : Mode) (parm : Nat → Word16) (rxType : RXFrameType)
    (out : Nat → Word16) : (decoderAmr st mode parm rxType out).1.1.dtx = dtxFrame st.dtx rxType := by
  unfold decoderAmr dtxFrame
  by_cases h : (rxDtxHandler st.dtx rxType).1 = .SPEECH
  · simp only [h, ne_eq, not_true_eq_false, if_false, if_true, Fill.bind_apply, Fill.pure_apply]
    rfl
  · simp only [h, ne_eq, not_false_eq_true, if_true, if_false, Fill.bind_apply, Fill.pure_apply, dtxDec_dtx]
    rfl

theorem dtxFrame_speech (st : DtxDecState) :
    dtxFrame st .RX_SPEECH_GOOD =
      { st with sinceLastSid := 0, decAnaElapsedCount := (add16 st.decAnaElapsedCount 1).1, dtxHangoverAdded := false,
                dtxHangoverCount := dtxHangConst, dtxGlobalState := .SPEECH } := by
  simp [dtxFrame, rxDtxHandler, newDtxState, encDtxState, dtxHangover, RXFrameType.Sid]

/-- A SID frame, or an empty one in a pause. -/
structure InPause (st : DtxDecState) (rxType : RXFrameType) : Prop where
  frame : rxType = .RX_SID_FIRST ∨ rxType = .RX_SID_UPDATE ∨ (rxType = .RX_NO_DATA ∧ st.dtxGlobalState = .DTX)
  mute : st.dtxGlobalState ≠ .DTX_MUTE
  recent : st.sinceLastSid < dtxMaxEmptyThresh
  updated : rxType = .RX_SID_UPDATE → st.dataUpdated = true

theorem InPause.newDtxState {st : DtxDecState} {rxType : RXFrameType} (h : InPause st rxType) :
    newDtxState st rxType = (.DTX, st.sinceLastSid + 1) := by
  obtain ⟨hframe, hmute, hrecent, -⟩ := h
  have hlate : ¬ st.sinceLastSid + 1 > dtxMaxEmptyThresh := by omega
  unfold Codec.newDtxState
  rcases hframe with rfl | rfl | ⟨rfl, hdtx⟩
  · simp [RXFrameType.Sid, hmute, hlate]
  · simp [RXFrameType.Sid, hmute]
  · simp [hdtx, hlate]

theorem InPause.encDtxState {st : DtxDecState} {rxType : RXFrameType} (h : InPause st rxType) :
    encDtxState .DTX rxType = .DTX := by
  rcases h.frame with rfl | rfl | ⟨rfl, -⟩ <;> rfl

/-- What a frame of a pause does to the hangover: it counts, and may turn out to have been added. -/
def pauseHangover (st : DtxDecState) : DtxDecState :=
  dtxHangover .DTX { st with decAnaElapsedCount := (add16 st.decAnaElapsedCount 1).1, dtxHangoverAdded := false }

/-- The frame has noise parameters, its own or the hangover's. -/
def Heard (st : DtxDecState) (rxType : RXFrameType) : Prop :=
  rxType = .RX_SID_UPDATE ∨ (rxType = .RX_SID_FIRST ∧ (pauseHangover st).dtxHangoverAdded = true)

instance (st : DtxDecState) (rxType : RXFrameType) : Decidable (Heard st rxType) := inferInstanceAs (Decidable (_ ∨ _))

theorem pauseHangover_updated (st : DtxDecState) : (pauseHangover st).dataUpdated = st.dataUpdated := by
  unfold pauseHangover dtxHangover
  simp only [reduceCtorEq, if_false]
  split
  · rfl
  · split <;> rfl

/-- What is left of a frame of a pause. -/
structure PauseFrame (st st' : DtxDecState) (rxType : RXFrameType) : Prop where
  state : st'.dtxGlobalState = .DTX
  elapsed : st'.decAnaElapsedCount = (pauseHangover st).decAnaElapsedCount
  hangover : st'.dtxHangoverCount = (pauseHangover st).dtxHangoverCount
  added : st'.dtxHangoverAdded = (pauseHangover st).dtxHangoverAdded
  since : st'.sinceLastSid = if Heard st rxType then 0 else st.sinceLastSid + 1
  updated : st'.dataUpdated = if Heard st rxType then true else st.dataUpdated

theorem rxDtxHandler_pause {st : DtxDecState} {rxType : RXFrameType} (h : InPause st rxType) :
    rxDtxHandler st rxType =
      (.DTX, { pauseHangover st with
        sinceLastSid := st.sinceLastSid + 1, sidFrame := decide rxType.Sid, validData := decide (rxType = .RX_SID_UPDATE) }) := by
  have helapsed : (if st.dataUpdated = false ∧ rxType = .RX_SID_UPDATE then 0 else st.decAnaElapsedCount) =
      st.decAnaElapsedCount := by
    rw [if_neg]
    rintro ⟨hno, rfl⟩
    rw [h.updated rfl] at hno
    cases hno
  have hhang : ∀ e, dtxHangover .DTX { st with sinceLastSid := e, decAnaElapsedCount := (add16 st.decAnaElapsedCount 1).1, dtxHangoverAdded := false } =
      { pauseHangover st with sinceLastSid := e } := by
    intro e
    unfold pauseHangover dtxHangover
    simp only [reduceCtorEq, if_false]
    split
    · rfl
    · split <;> rfl
  unfold rxDtxHandler
  rw [h.newDtxState, helapsed]
  dsimp only
  rw [h.encDtxState, hhang]
  rcases h.frame with rfl | rfl | ⟨rfl, -⟩ <;> rfl

theorem dtxFrame_pause {st : DtxDecState} {rxType : RXFrameType} (h : InPause st rxType) :
    PauseFrame st (dtxFrame st rxType) rxType := by
  unfold dtxFrame
  rw [rxDtxHandler_pause h]
  rcases h.frame with rfl | rfl | ⟨rfl, -⟩
  · cases hadd : (pauseHangover st).dtxHangoverAdded with
    | true => constructor <;> simp [RXFrameType.Sid, Heard, hadd]
    | false => constructor <;> simp [RXFrameType.Sid, Heard, hadd, pauseHangover_updated]
  · constructor <;> simp [RXFrameType.Sid, Heard]
  · constructor <;> simp [RXFrameType.Sid, Heard, pauseHangover_updated]

/-! ## The frames sent in a pause -/

/-- The frame sent behind `k` frames of a pause: the first SID frame, updates from
three frames on in steps of eight, and nothing between them. -/
def pauseFrame (k : Nat) : TXFrameType :=
  if k = 0 then .TX_SID_FIRST else if 3 ≤ k ∧ (k - 3) % 8 = 0 then .TX_SID_UPDATE else .TX_NO_DATA

/-- The frames of the pause so far, and the frame to send. -/
def pauseStep (k : Nat) (mode : Mode) : Nat × TXFrameType :=
  if mode = .MRDTX then (k + 1, pauseFrame k) else (0, .TX_SPEECH_GOOD)

/-- `sid_sync` between two frames, `k` frames into a pause. -/
structure Cadence (k : Nat) (st : SidSyncState) : Prop where
  rate : st.sidUpdateRate = 8
  debt : st.sidHandoverDebt = 0
  prev : st.prevFt = .TX_SPEECH_GOOD ↔ k = 0
  counter : 0 < k → st.sidUpdateCounter = if k ≤ 3 then 4 - (k : Int) else 8 - ((k - 4) % 8 : Nat)

theorem cadence_init : Cadence 0 sidSyncInit := ⟨rfl, rfl, by simp [sidSyncInit, sidSyncReset], by simp⟩

theorem sidSync_pause {k : Nat} {st : SidSyncState} (h : Cadence k st) :
    (sidSync st .MRDTX).2 = pauseFrame k ∧ Cadence (k + 1) (sidSync st .MRDTX).1 := by
  obtain ⟨hrate, hdebt, hprev, hcounter⟩ := h
  by_cases h0 : k = 0
  · subst h0
    have hp : st.prevFt = .TX_SPEECH_GOOD := hprev.2 rfl
    have hstep : sidSync st .MRDTX = ({ st with sidUpdateCounter := 3, prevFt := .TX_SID_FIRST }, .TX_SID_FIRST) := by
      simp [sidSync, hp]
    rw [hstep]
    exact ⟨rfl, hrate, hdebt, by simp, by simp⟩
  · have hp : st.prevFt ≠ .TX_SPEECH_GOOD := fun hp => h0 (hprev.1 hp)
    have hc := hcounter (by omega)
    by_cases hz : st.sidUpdateCounter - 1 = 0
    · have hstep : sidSync st .MRDTX = ({ st with sidUpdateCounter := 8, prevFt := .TX_SID_UPDATE }, .TX_SID_UPDATE) := by
        simp [sidSync, hp, hdebt, hz, hrate]
      have hk : 3 ≤ k ∧ (k - 3) % 8 = 0 := by
        split at hc <;> omega
      rw [hstep, pauseFrame, if_neg h0, if_pos hk]
      refine ⟨rfl, hrate, hdebt, by simp, fun _ => ?_⟩
      simp only
      split <;> omega
    · have hstep : sidSync st .MRDTX =
          ({ st with sidUpdateCounter := st.sidUpdateCounter - 1, prevFt := .TX_NO_DATA }, .TX_NO_DATA) := by
        simp [sidSync, hp, hdebt, hz]
      have hk : ¬ (3 ≤ k ∧ (k - 3) % 8 = 0) := by
        split at hc <;> omega
      rw [hstep, pauseFrame, if_neg h0, if_neg hk]
      refine ⟨rfl, hrate, hdebt, by simp, fun _ => ?_⟩
      simp only
      split at hc <;> split <;> omega

theorem sidSync_voice {k : Nat} {st : SidSyncState} (h : Cadence k st) {mode : Mode} (hm : mode ≠ .MRDTX) :
    (sidSync st mode).2 = .TX_SPEECH_GOOD ∧ Cadence 0 (sidSync st mode).1 := by
  have hstep : sidSync st mode = ({ st with sidUpdateCounter := st.sidUpdateRate, prevFt := .TX_SPEECH_GOOD }, .TX_SPEECH_GOOD) := by
    simp [sidSync, hm]
  rw [hstep]
  exact ⟨rfl, h.rate, h.debt, by simp, by simp⟩

theorem pauseStep_first {k : Nat} {mode : Mode} : (pauseStep k mode).2 = .TX_SID_FIRST ↔ mode = .MRDTX ∧ k = 0 := by
  unfold pauseStep pauseFrame
  by_cases hm : mode = .MRDTX
  · by_cases h0 : k = 0
    · simp [hm, h0]
    · simp only [hm, h0, if_true, if_false, and_false, iff_false]
      split <;> decide
  · simp [hm]

theorem sidSync_step {k : Nat} {st : SidSyncState} (h : Cadence k st) (mode : Mode) :
    Cadence (pauseStep k mode).1 (sidSync st mode).1 ∧ (sidSync st mode).2 = (pauseStep k mode).2 := by
  unfold pauseStep
  by_cases hm : mode = .MRDTX
  · subst hm
    rw [if_pos rfl]
    exact (sidSync_pause h).symm
  · rw [if_neg hm]
    exact (sidSync_voice h hm).symm

/-- The types sent are `sid_sync`'s, run over the modes used. -/
theorem encCalls_types (st : EncState core) (rs : List Request) :
    (encCalls st rs).map (·.txFrameType) =
      Transducer.outputs sidSync st.sid ((encCalls st rs).map (·.frame.usedMode)) := by
  induction rs generalizing st with
  | nil => rfl
  | cons r rs ih =>
    let c : EncCall core := ⟨r, st⟩
    have hrest := ih c.result.st
    rw [encCalls, List.map_cons, List.map_cons, Transducer.outputs, hrest]
    rfl

/-- In every run of the encoder the first frame of a pause is sent as the first SID
frame, the fourth and every eighth from there on as an update, the others as no
data, and the frames out of pauses as speech. -/
theorem encCalls_cadence (core : SpeechCore) (dtx : Int) (rs : List Request) :
    let cs := encCalls (EncState.init core dtx) rs
    cs.map (·.txFrameType) = Transducer.outputs pauseStep 0 (cs.map (·.frame.usedMode)) := by
  intro cs
  have htypes : cs.map (·.txFrameType) = Transducer.outputs sidSync sidSyncInit (cs.map (·.frame.usedMode)) :=
    encCalls_types _ rs
  rw [htypes]
  exact Lockstep.outputs_eq (R := Cadence) (fun _ _ mode h => sidSync_step h mode) cadence_init _

/-! ## One frame, sent and received -/

/-- The type a frame is received as. -/
def TXFrameType.received : TXFrameType → RXFrameType
  | .TX_SPEECH_GOOD => .RX_SPEECH_GOOD
  | .TX_SID_FIRST => .RX_SID_FIRST
  | .TX_SID_UPDATE => .RX_SID_UPDATE
  | .TX_NO_DATA => .RX_NO_DATA

/-- The decoder between two frames, `k` frames into a pause, where the encoder
counts `e` frames elapsed and has `h` frames of hangover left. -/
structure Follows (e h : Int) (k : Nat) (d : DtxDecState) : Prop where
  mute : d.dtxGlobalState ≠ .DTX_MUTE
  since : d.sinceLastSid ≤ if k ≤ 3 then (k : Int) else ((k - 4) % 8 : Nat)
  elapsed : d.decAnaElapsedCount = e
  count : 0 ≤ e
  left : 0 ≤ h
  updated : d.dataUpdated = true ∨ e = 32767
  voice : k = 0 → d.dtxHangoverCount = 7 ∧ (h = 7 ∨ 30 ≤ e + h)
  pause : 0 < k → d.dtxHangoverCount = h ∧ d.dtxGlobalState = .DTX ∧ e + h < 30

theorem follows_init : Follows 32767 dtxHangConst 0 dtxDecReset where
  mute := by decide
  since := by decide
  elapsed := rfl
  count := by decide
  left := by decide
  updated := .inr rfl
  voice := fun _ => ⟨rfl, .inl rfl⟩
  pause := fun h => absurd h (Nat.lt_irrefl 0)

namespace Follows
variable {e h e' h' : Int} {k : Nat} {d : DtxDecState} {mode used : Mode}

/-- The next frame, if it is one of a pause, is received as one. -/
theorem inPause (F : Follows e h k d) : InPause d (pauseFrame k).received where
  frame := by
    unfold pauseFrame
    split
    · exact .inl rfl
    · split
      · exact .inr (.inl rfl)
      · exact .inr (.inr ⟨rfl, (F.pause (by omega)).2.1⟩)
  mute := F.mute
  recent := by
    have := F.since
    unfold dtxMaxEmptyThresh
    split at this <;> omega
  updated := by
    intro hu
    have hk : 0 < k := by
      by_contra h0
      obtain rfl : k = 0 := by omega
      cases hu
    have := (F.pause hk).2.2
    have := F.left
    exact F.updated.resolve_right (by omega)

theorem step_voice (F : Follows e h k d) (he : e' = min (e + 1) 32767) (hh : 0 ≤ h') (hv : h' = 7 ∨ 30 ≤ e' + h') :
    Follows e' h' 0 (dtxFrame d .RX_SPEECH_GOOD) := by
  have hcount := F.count
  rw [dtxFrame_speech, F.elapsed, add16_fst F.count (by decide), ← he]
  refine ⟨by simp, by simp, rfl, by omega, hh, ?_, fun _ => ⟨rfl, hv⟩, by simp⟩
  rcases F.updated with hu | hu
  · exact .inl hu
  · exact .inr (by omega)

/-- How the hangover left and the frames elapsed are counted in a pause. -/
theorem pauseHangover_eq (F : Follows e h k d) :
    (30 < min (e + 1) 32767 → (pauseHangover d).dtxHangoverAdded = true ∧ (pauseHangover d).decAnaElapsedCount = 0 ∧
        (pauseHangover d).dtxHangoverCount = 0) ∧
      (¬ 30 < min (e + 1) 32767 → (pauseHangover d).dtxHangoverAdded = false ∧
        (pauseHangover d).decAnaElapsedCount = (if d.dtxHangoverCount = 0 then 0 else min (e + 1) 32767) ∧
        (pauseHangover d).dtxHangoverCount = if d.dtxHangoverCount = 0 then 0 else d.dtxHangoverCount - 1) := by
  unfold pauseHangover dtxHangover
  simp only [F.elapsed, add16_fst F.count (show (0 : Int) ≤ 1 by decide), reduceCtorEq, if_false, dtxElapsedFramesThresh,
    gt_iff_lt]
  constructor
  · intro hlong
    rw [if_pos (by omega)]
    exact ⟨rfl, rfl, rfl⟩
  · intro hshort
    rw [if_neg (by omega)]
    split
    · rename_i h0
      exact ⟨rfl, rfl, h0⟩
    · exact ⟨rfl, rfl, rfl⟩

/-- An update is heard when it is due, and the frames since the last are counted. -/
theorem since_le (F : Follows e h k d) :
    (if Heard d (pauseFrame k).received then 0 else d.sinceLastSid + 1) ≤
      if k + 1 ≤ 3 then ((k + 1 : Nat) : Int) else ((k + 1 - 4) % 8 : Nat) := by
  have hsince := F.since
  by_cases hk : 3 ≤ k ∧ (k - 3) % 8 = 0
  · have hframe : pauseFrame k = .TX_SID_UPDATE := by
      rw [pauseFrame, if_neg (by omega), if_pos hk]
    rw [hframe, if_pos (.inl rfl)]
    split <;> omega
  · by_cases hheard : Heard d (pauseFrame k).received
    · rw [if_pos hheard]
      split <;> omega
    · rw [if_neg hheard]
      split at hsince <;> split <;> omega

theorem step_pause (F : Follows e h k d) (ht : (h = 0 ∧ e' = 0 ∧ h' = 0) ∨
      (0 < h ∧ min (e + 1) 32767 + (h - 1) < 30 ∧ e' = min (e + 1) 32767 ∧ h' = h - 1)) :
    Follows e' h' (k + 1) (dtxFrame d (pauseFrame k).received) ∧
      (dtxFrame d (pauseFrame k).received).dtxGlobalState = .DTX ∧
      ((dtxFrame d (pauseFrame k).received).dtxHangoverAdded = true ↔ k = 0 ∧ h = 0) := by
  have P := dtxFrame_pause F.inPause
  obtain ⟨hlong, hshort⟩ := F.pauseHangover_eq
  have hcount := F.count
  have hleft := F.left
  -- the counters agree, and the hangover was added if this is where it ends
  have hagree : (pauseHangover d).decAnaElapsedCount = e' ∧ (pauseHangover d).dtxHangoverCount = h' ∧
      ((pauseHangover d).dtxHangoverAdded = true ↔ k = 0 ∧ h = 0) := by
    by_cases h0 : k = 0
    · obtain ⟨hd, hsum⟩ := F.voice h0
      rcases ht with ⟨rfl, rfl, rfl⟩ | ⟨hpos, hlt, rfl, rfl⟩
      · obtain ⟨ha, hb, hc⟩ := hlong (by omega)
        exact ⟨hb, hc, by simp [ha, h0]⟩
      · obtain ⟨ha, hb, hc⟩ := hshort (by omega)
        rw [hd, if_neg (by decide)] at hb hc
        exact ⟨hb, by omega, by simp [ha]; omega⟩
    · obtain ⟨hd, -, hsum⟩ := F.pause (by omega)
      obtain ⟨ha, hb, hc⟩ := hshort (by omega)
      rw [hd] at hb hc
      rcases ht with ⟨rfl, rfl, rfl⟩ | ⟨hpos, hlt, rfl, rfl⟩
      · exact ⟨by simpa using hb, by simpa using hc, by simp [ha, h0]⟩
      · rw [if_neg (by omega)] at hb hc
        exact ⟨hb, hc, by simp [ha, h0]⟩
  obtain ⟨hel, hha, hadded⟩ := hagree
  refine ⟨⟨?_, ?_, by rw [P.elapsed, hel], by omega, by omega, ?_, by omega, ?_⟩, P.state, by rw [P.added, hadded]⟩
  · rw [P.state]
    decide
  · rw [P.since]
    exact F.since_le
  · left
    rw [P.updated]
    split
    · rfl
    · rename_i hheard
      refine F.updated.resolve_right fun hmax => hheard ?_
      -- nothing was received before: the hangover was added, and is heard
      have h0 : k = 0 := by
        by_contra hk
        have := (F.pause (by omega)).2.2
        omega
      subst h0
      have hh : h = 0 := by omega
      exact .inr ⟨rfl, hadded.2 ⟨rfl, hh⟩⟩
  · intro _
    exact ⟨by rw [P.hangover, hha], P.state, by omega⟩

/-- A frame keeps the decoder in step, whatever the encoder makes of it. -/
theorem step (F : Follows e h k d) (hm : mode.Speech) (ht : TxStep e h mode e' h' used) :
    Follows e' h' (pauseStep k used).1 (dtxFrame d (pauseStep k used).2.received) ∧
      (dtxFrame d (pauseStep k used).2.received).dtxGlobalState = (if used = .MRDTX then .DTX else .SPEECH) ∧
      ((dtxFrame d (pauseStep k used).2.received).dtxHangoverAdded = true ↔ used = .MRDTX ∧ k = 0 ∧ h = 0) := by
  have hne : mode ≠ .MRDTX := hm
  have hleft := F.left
  have hvoice : ∀ d : DtxDecState, (dtxFrame d .RX_SPEECH_GOOD).dtxGlobalState = .SPEECH ∧
      (dtxFrame d .RX_SPEECH_GOOD).dtxHangoverAdded = false := fun d => by
    rw [dtxFrame_speech]
    exact ⟨rfl, rfl⟩
  have hspeech : pauseStep k mode = (0, .TX_SPEECH_GOOD) := if_neg hm
  have hpause : pauseStep k .MRDTX = (k + 1, pauseFrame k) := if_pos rfl
  cases ht with
  | voice =>
    rw [hspeech, if_neg hm]
    exact ⟨F.step_voice rfl (by decide) (.inl rfl), (hvoice d).1, by simp [TXFrameType.received, hvoice, hne]⟩
  | hangover hh hsum =>
    rw [hspeech, if_neg hm]
    exact ⟨F.step_voice rfl (by omega) (.inr (by omega)), (hvoice d).1, by simp [TXFrameType.received, hvoice, hne]⟩
  | silence hh =>
    rw [hpause]
    simpa using F.step_pause (.inl ⟨hh, rfl, rfl⟩)
  | short hh hsum =>
    rw [hpause]
    simpa using F.step_pause (.inr ⟨hh, hsum, rfl, rfl⟩)

end Follows

/-! ## Runs of both -/

theorem decodeInto_dtx {st : SpeechDecodeFrameState dcore} {input : Nat → UWord8} {locals : Locals} {call : FrameCall}
    (h : (decoderInterfaceDecode st.prevMode input locals.ets).call = some call) (out : Nat → Word16) :
    (decodeInto st input locals out).1.decoderAmr.dtx = dtxFrame st.decoderAmr.dtx call.rxType := by
  unfold decodeInto gsmFrameDecode
  rw [h]
  exact decoderAmr_dtx _ _ _ _ _

/-- A frame on its way: the request, and what the receiving call finds in its buffers
and behind the block. -/
structure Transfer extends Request where
  locals : Locals
  samples : Nat → Word16
  rest : Nat → UWord8

/-- What a decoder makes of the pauses: its state, and whether a hangover was added. -/
structure PauseView where
  state : DTXStateType
  hangoverAdded : Bool
  deriving DecidableEq

/-- The call that receives a block. -/
def Transfer.received (x : Transfer) (block : List UWord8) : DecodeCall :=
  ⟨fun i => block.getD i (x.rest i), x.locals, x.samples⟩

/-- A frame is encoded and sent. The hangover was added if none is left of it when
the pause begins. -/
def send (st : EncState core) (x : Transfer) : EncState core × DecodeCall × PauseView :=
  let c : EncCall core := ⟨x.toRequest, st⟩
  (c.result.st, x.received c.result.block,
    ⟨if c.frame.usedMode = .MRDTX then .DTX else .SPEECH, c.txFrameType = .TX_SID_FIRST ∧ st.cod.dtxHangoverCount = 0⟩)

/-- A frame is received and decoded. -/
def receive (st : SpeechDecodeFrameState dcore) (call : DecodeCall) : SpeechDecodeFrameState dcore × PauseView :=
  let st' := (decodeInto st call.input call.locals call.out).1
  (st', ⟨st'.decoderAmr.dtx.dtxGlobalState, st'.decoderAmr.dtx.dtxHangoverAdded⟩)

/-- The two sides between frames. -/
structure InStep (st : EncState core) (st' : SpeechDecodeFrameState dcore) : Prop where
  prevMode : st'.prevMode.Speech
  counters : ∃ k, Cadence k st.sid ∧ ((st.cod.dtx = 0 ∧ k = 0) ∨
    (st.cod.dtx ≠ 0 ∧ Follows st.cod.decAnaElapsedCount st.cod.dtxHangoverCount k st'.decoderAmr.dtx))

/-- The frame in a block, whatever is behind it. -/
theorem frameOf_block {block : List UWord8} (h : Framed block) (rest : Nat → UWord8) :
    frameOf (fun i => block.getD i (rest i)) = block := by
  obtain ⟨b, bs, rfl, hlen⟩ := h
  unfold frameOf
  simp only [List.getD_cons_zero, List.getD_cons_succ, List.cons.injEq, true_and]
  rw [← hlen]
  apply List.ext_getElem
  · simp
  · intro i h1 h2
    simp [h2]

/-- The mode a frame was sent in says what it is received as. -/
theorem EncCall.Sends.rxType {c : EncCall core} {prev : Mode} {call : FrameCall} (h : c.Sends prev call) :
    call.rxType = c.txFrameType.received := by
  unfold EncCall.Sends at h
  cases htx : c.txFrameType <;> rw [htx] at h <;> exact h.1

theorem inStep_init (core : SpeechCore) (dcore : DecoderCore) (dtx : Int) :
    InStep (EncState.init core dtx) (decoderInterfaceInit dcore) := by
  have hmode : Mode.MR475.Speech := by decide
  refine ⟨hmode, 0, cadence_init, ?_⟩
  by_cases h : dtx = 0
  · exact .inl ⟨h, rfl⟩
  · exact .inr ⟨h, follows_init⟩

/-- What the counters of the encoder become, and the mode it used. -/
theorem EncCall.counters (c : EncCall core) :
    (c.st.cod.dtx = 0 → c.result.st.cod.dtx = 0 ∧ c.frame.usedMode = c.mode) ∧
      (c.st.cod.dtx ≠ 0 → 0 ≤ c.st.cod.decAnaElapsedCount → 0 ≤ c.st.cod.dtxHangoverCount →
        c.result.st.cod.dtx ≠ 0 ∧
          TxStep c.st.cod.decAnaElapsedCount c.st.cod.dtxHangoverCount c.mode c.result.st.cod.decAnaElapsedCount
            c.result.st.cod.dtxHangoverCount c.frame.usedMode) := by
  have hdtx : c.result.st.cod.dtx = c.st.cod.dtx := codAmr_dtx ..
  constructor
  · intro h
    exact ⟨hdtx.trans h, codAmr_noDtx h ..⟩
  · intro h he hh
    exact ⟨by rwa [hdtx], codAmr_step h he hh ..⟩

theorem send_receive {st : EncState core} {st' : SpeechDecodeFrameState dcore} (hI : InStep st st') {x : Transfer}
    (hm : x.mode.Speech) :
    InStep (send st x).1 (receive st' (send st x).2.1).1 ∧ (receive st' (send st x).2.1).2 = (send st x).2.2 := by
  obtain ⟨hprev, k, hcad, hphase⟩ := hI
  let c : EncCall core := ⟨x.toRequest, st⟩
  obtain ⟨call, hcall, hsends, hprev'⟩ := c.recovered hm st'.prevMode x.locals.ets
  -- the decoder's call is one on the block alone
  have hin : frameOf (x.received c.result.block).input = frameOf (bytesOf c.result.block) := by
    unfold Transfer.received bytesOf
    rw [frameOf_block c.framed, frameOf_block c.framed]
  have hsame : (receive st' (send st x).2.1).1 = (decodeInto st' (bytesOf c.result.block) x.locals x.samples).1 :=
    congrArg (fun p => (p x.samples).1) (decodeInto_congr hprev hin x.locals x.locals)
  obtain ⟨hcad', htx⟩ := sidSync_step hcad c.frame.usedMode
  have hdtx : (receive st' (send st x).2.1).1.decoderAmr.dtx =
      dtxFrame st'.decoderAmr.dtx (pauseStep k c.frame.usedMode).2.received := by
    rw [hsame, decodeInto_dtx hcall, hsends.rxType, ← htx]
    rfl
  have hmode : (receive st' (send st x).2.1).1.prevMode.Speech := by
    rw [hsame, decodeInto_prevMode]
    exact amrDecode_prevMode hprev _ _ _
  have hview : (receive st' (send st x).2.1).2 =
      ⟨(dtxFrame st'.decoderAmr.dtx (pauseStep k c.frame.usedMode).2.received).dtxGlobalState,
        (dtxFrame st'.decoderAmr.dtx (pauseStep k c.frame.usedMode).2.received).dtxHangoverAdded⟩ := by
    rw [← hdtx]
    rfl
  have hfirst : c.txFrameType = .TX_SID_FIRST ↔ c.frame.usedMode = .MRDTX ∧ k = 0 := by
    rw [← pauseStep_first, ← htx]
    rfl
  have hsent : (send st x).2.2 = ⟨if c.frame.usedMode = .MRDTX then .DTX else .SPEECH,
      decide (c.txFrameType = .TX_SID_FIRST ∧ st.cod.dtxHangoverCount = 0)⟩ := rfl
  rw [hview, hsent]
  obtain ⟨hoff, hon⟩ := c.counters
  rcases hphase with ⟨h0, rfl⟩ | ⟨hne, F⟩
  · obtain ⟨hdtx', hused⟩ := hoff h0
    have hspeech : c.frame.usedMode ≠ .MRDTX := by
      rw [hused]
      exact hm
    have hstep : pauseStep 0 c.frame.usedMode = (0, .TX_SPEECH_GOOD) := if_neg hspeech
    rw [hstep] at hcad' ⊢
    refine ⟨⟨hmode, 0, hcad', .inl ⟨hdtx', rfl⟩⟩, ?_⟩
    simp [TXFrameType.received, dtxFrame_speech, hspeech, hfirst]
  · obtain ⟨hdtx', htxstep⟩ := hon hne F.count F.left
    obtain ⟨hF, hstate, hadded⟩ := F.step hm htxstep
    refine ⟨⟨hmode, _, hcad', .inr ⟨hdtx', ?_⟩⟩, ?_⟩
    · rw [hdtx]
      exact hF
    · rw [hstate, PauseView.mk.injEq]
      refine ⟨rfl, ?_⟩
      rw [Bool.eq_iff_iff, hadded, decide_eq_true_iff, hfirst, and_assoc]

/-- In every run, from the opening of both sides on, the decoder makes comfort noise
exactly for the frames the encoder did not send as speech, and takes the hangover
for added exactly when the encoder had added it. -/
theorem decoder_follows_pauses (core : SpeechCore) (dcore : DecoderCore) (dtx : Int) (xs : List Transfer)
    (hm : ∀ x ∈ xs, x.mode.Speech) :
    let sent := Transducer.outputs send (EncState.init core dtx) xs
    Transducer.outputs receive (decoderInterfaceInit dcore) (sent.map Prod.fst) = sent.map Prod.snd := by
  have htracks : Lockstep.Tracks (fun (_ : EncState core) x => x.mode.Speech) InStep send
      (receive : SpeechDecodeFrameState dcore → _) := fun _ _ _ hx hI => send_receive hI hx
  exact (htracks.outputs (inStep_init core dcore dtx) (Lockstep.Along.of_forall _ fun _ => hm)).2

/-- Silence from the start: seven frames of hangover, the first SID frame, which the
decoder knows to follow it, and an empty frame. -/
theorem decoder_follows_silence :
    let x : Transfer := ⟨⟨.MR122, [5], fun _ => 0xFF, fun _ => 7⟩, ⟨fun _ => 3, fun _ => 4⟩, fun _ => 1, fun _ => 9⟩
    Transducer.outputs receive (decoderInterfaceInit silent)
        ((Transducer.outputs send (EncState.init silentCore 1) (List.replicate 9 x)).map Prod.fst) =
      List.replicate 7 ⟨.SPEECH, false⟩ ++ [⟨.DTX, true⟩, ⟨.DTX, false⟩] := by
  intro x
  have hm : ∀ y ∈ List.replicate 9 x, y.mode.Speech := by
    intro y hy
    rw [List.eq_of_mem_replicate hy]
    decide
  rw [decoder_follows_pauses silentCore silent 1 (List.replicate 9 x) hm]
  decide

end AudioRecorder.Codec
