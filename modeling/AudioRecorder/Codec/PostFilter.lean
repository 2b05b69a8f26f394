import AudioRecorder.Codec.SpeechDec
/-!
# After the synthesis

`Post_Filter` (`pstfilt.cpp`) filters the frame again in the output buffer and
scales it to the energy it had (`agc`, `agc.cpp`), and `Post_Process`
(`post_pro.cpp`) runs a high-pass filter over it. Both work on the frame in place.
-/

namespace AudioRecorder.Codec

open Fill (Prog Fills)

variable {core : DecoderCore}

/-! ## Arithmetic -/

/-- `MAX_32`. -/
def max32 : Word32 := 0x7fffffff

/-- `MIN_32`. -/
def min32 : Word32 := 0x80000000

/-- `L_add`. -/
def lAdd (a b : Word32) : Word32 :=
  if (a ^^^ b).msb = false ∧ ((a + b) ^^^ a).msb then (if a.msb then min32 else max32) else a + b

/-- `L_shl`, for a positive shift. -/
def lShl (a : Word32) (n : Nat) : Word32 :=
  if (a <<< n).sshiftRight n ≠ a then a.sshiftRight 31 ^^^ max32 else a <<< n

/-- `pv_round`. -/
def pvRound (a : Word32) : Word16 := narrow (lAdd a 0x8000) 16

/-- `L_mac`. -/
def lMac (s : Word32) (a b : Word16) : Word32 :=
  let result := mul16 a b
  let sum := result <<< 1 + s
  if result = 0x40000000 then max32
  else if 0 < (s ^^^ result).toInt ∧ (sum ^^^ s).msb then (if s.msb then min32 else max32)
  else sum

/-! ## `agc` -/

/-- `AGC_FAC`. -/
def agcFac : Word16 := 29491

/-- `energy_old`. -/
def energyOld (l : List Word16) : Word32 := l.foldl (fun s x => lMac s (x.sshiftRight 2) (x.sshiftRight 2)) 0

/-- `energy_new`. -/
def energyNew (l : List Word16) : Word32 :=
  let s := l.foldl (fun s x => lMac s x x) 0
  if s ≠ max32 then s.sshiftRight 4 else energyOld l

/-- A sample of `agc`, which returns the gain. -/
def agcSample (g0 : Word16) (pos i : Nat) (gain : Word16) : Prog Word16 Word16 := do
  let gain := narrow (mul16 gain agcFac) 15 + g0
  let x ← Fill.read (pos + i)
  Fill.write (pos + i) (narrow (mul16 x gain <<< 1) 13)
  pure gain

/-- `agc` of the subframe at `pos`, which returns `past_gain`. -/
def agc (core : DecoderCore) (sigIn : List Word16) (pos : Nat) (pastGain : Word16) : Prog Word16 Word16 := do
  let sigOut ← Fill.window pos lSubfr
  let energyOut := energyNew sigOut
  if energyOut = 0 then pure 0
  else
    let energyIn := energyNew sigIn
    let g0 := if energyIn = 0 then 0 else core.agcG0 energyOut energyIn
    Fill.loop (agcSample g0 pos) lSubfr pastGain

/-! ## `Post_Filter` -/

/-- `Post_FilterState`: of `synth_buf`, the samples before the frame. -/
structure PostFilterState where
  memSynPst : List Word16
  memPre : Word16
  pastGain : Word16
  history : List Word16

/-- `Post_Filter_reset`. -/
def postFilterReset : PostFilterState := ⟨List.replicate orderM 0, 0, 4096, List.replicate orderM 0⟩

/-- A round of the loop over the subframes; `work` is `synth_buf`. -/
def postSubframe (core : DecoderCore) (mode : Mode) (aT work : List Word16) (i : Nat) (st : PostFilterState) :
    Prog Word16 PostFilterState := do
  let (ap4, res2, memPre) := core.tilt mode (azAt aT i) ((work.drop (i * lSubfr)).take (orderM + lSubfr)) st.memPre
  let memSynPst ← synFilt ap4 res2 (i * lSubfr) lSubfr st.memSynPst true
  let pastGain ← agc core ((work.drop (orderM + i * lSubfr)).take lSubfr) (i * lSubfr) st.pastGain
  pure ⟨memSynPst, memPre, pastGain, st.history⟩

/-- `Post_Filter`. -/
def postFilter (core : DecoderCore) (st : PostFilterState) (mode : Mode) (aT : List Word16) :
    Prog Word16 PostFilterState := do
  let syn ← Fill.window 0 lFrame
  let work := st.history ++ syn
  let st ← Fill.loop (postSubframe core mode aT work) 4 st
  pure { st with history := work.drop lFrame }

/-! ## `Post_Process` -/

/-- `Post_ProcessState`. -/
structure PostProcessState where
  y2Hi : Word16
  y2Lo : Word16
  y1Hi : Word16
  y1Lo : Word16
  x0 : Word16
  x1 : Word16

/-- `Post_Process_reset`. -/
def postProcessReset : PostProcessState := ⟨0, 0, 0, 0, 0, 0⟩

/-- The output of the high-pass filter, before it is rounded. -/
def highPass (st : PostProcessState) (x : Word16) : Word32 :=
  lShl (mul16 st.y1Hi 15836 + (mul16 st.y1Lo 15836).sshiftRight 15 + mul16 st.y2Hi (-7667) +
    (mul16 st.y2Lo (-7667)).sshiftRight 15 + mul16 x 7699 + mul16 st.x0 (-15398) + mul16 st.x1 7699) 3

/-- A sample of `Post_Process`. -/
def postProcessSample (i : Nat) (st : PostProcessState) : Prog Word16 PostProcessState := do
  let x ← Fill.read i
  let y := highPass st x
  Fill.write i (pvRound (lShl y 1))
  let y1Hi := narrow y 16
  pure ⟨st.y1Hi, st.y1Lo, y1Hi, (y.sshiftRight 1 - y1Hi.signExtend 32 <<< 15).setWidth 16, x, st.x0⟩

/-- `Post_Process` of `lg` samples. -/
def postProcess (st : PostProcessState) (lg : Nat) : Prog Word16 PostProcessState := Fill.loop postProcessSample lg st

/-! ## What they need -/

theorem agcSample_fills (g0 : Word16) {pos i n : Nat} (h : pos + i < n) (gain : Word16) :
    Fills n n (agcSample g0 pos i gain) := by
  unfold agcSample
  refine (Fills.read h).bind fun _ => ?_
  exact ((Fills.write (pos + i) _).widen h).bind fun _ => .pure _

theorem agc_fills (core : DecoderCore) (sigIn : List Word16) {pos n : Nat} (h : pos + lSubfr ≤ n) (pastGain : Word16) :
    Fills n n (agc core sigIn pos pastGain) := by
  unfold agc
  refine (Fills.window h).bind fun sigOut => ?_
  dsimp only
  split
  · exact .pure 0
  · exact Fills.loop (w := fun _ => n) (fun i hi gain => agcSample_fills _ (by omega) gain) pastGain

theorem postSubframe_fills (core : DecoderCore) (mode : Mode) (aT work : List Word16) {i : Nat} (hi : i < 4)
    (st : PostFilterState) : Fills lFrame lFrame (postSubframe core mode aT work i st) := by
  have hle : i * lSubfr + lSubfr ≤ lFrame := by
    unfold lSubfr lFrame
    omega
  unfold postSubframe
  refine ((synFilt_fills _ _ _ _ _ (by decide)).widen hle).bind fun _ => ?_
  exact (agc_fills core _ hle _).bind fun _ => .pure _

/-- `Post_Filter` needs the frame, which it changes in place. -/
theorem postFilter_fills (core : DecoderCore) (st : PostFilterState) (mode : Mode) (aT : List Word16) :
    Fills lFrame lFrame (postFilter core st mode aT) := by
  unfold postFilter
  refine (Fills.window (by decide)).bind fun syn => ?_
  exact (Fills.loop (w := fun _ => lFrame) (fun i hi st => postSubframe_fills core mode aT _ hi st) st).bind fun _ => .pure _

theorem postProcessSample_fills {i n : Nat} (h : i < n) (st : PostProcessState) :
    Fills n n (postProcessSample i st) := by
  unfold postProcessSample
  refine (Fills.read h).bind fun x => ?_
  exact ((Fills.write i _).widen h).bind fun _ => .pure _

theorem postProcess_fills (st : PostProcessState) (lg : Nat) : Fills lg lg (postProcess st lg) := by
  unfold postProcess
  exact Fills.loop (w := fun _ => lg) (fun i hi st => postProcessSample_fills hi st) st

end AudioRecorder.Codec
