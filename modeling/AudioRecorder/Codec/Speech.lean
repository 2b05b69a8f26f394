import Mathlib.Algebra.GroupWithZero.Nat
import Mathlib.Logic.Function.Basic
import AudioRecorder.Codec.Modes
import AudioRecorder.Lib.BitPack
/-!
# The speech encoder up to serial bits

`GSMEncodeFrame` (`sp_enc.cpp`) runs the pre-processing filter and `cod_amr` on a
frame and spreads the parameters they compute over serial bits, one to a word.
The signal processing itself is a parameter, `SpeechCore`; the discontinuous
transmission that decides the mode used (`tx_dtx_handler`), the bit layout
(`Prm2bits`) and the choice of the frame type to send (`sid_sync`) are as in the
source.
-/

namespace AudioRecorder.Codec

open BitPack (IsBit)

/-- The signal processing of the encoder. `Cod` is `cod_amrState` but for `dtx`
and the two counters of `tx_dtx_handler`; `analyse` is the rest of `cod_amr` once
the mode to use is known. -/
structure SpeechCore where
  Pre : Type
  preReset : Pre
  preProcess : Pre → List Word16 → Pre × List Word16
  preProcess_length : ∀ s x, (preProcess s x).2.length = x.length
  Cod : Type
  codInit : Cod
  codReset : Cod → Cod
  vad1 : Cod → List Word16 → Cod × Word16
  setOverflow : Cod → Cod
  analyse : Cod → Int → Mode → Mode → Word16 → List Word16 → Cod × (Nat → Word16)

variable {core : SpeechCore}

/-! ## Discontinuous transmission -/

/-- `DTX_HANG_CONST`. -/
def dtxHangConst : Int := 7

/-- `DTX_ELAPSED_FRAMES_THRESH`. -/
def dtxElapsedFramesThresh : Int := 24 + 7 - 1

/-- `cod_amrState`. -/
structure CodAmrState (core : SpeechCore) where
  core : core.Cod
  dtx : Int
  dtxHangoverCount : Int
  decAnaElapsedCount : Int

/-- `cod_amr_init`. -/
def codAmrInit (core : SpeechCore) (dtx : Int) : CodAmrState core := ⟨core.codInit, dtx, dtxHangConst, 32767⟩

/-- `cod_amr_reset`: `dtx` is kept. -/
def codAmrReset (st : CodAmrState core) : CodAmrState core :=
  { st with core := core.codReset st.core, dtxHangoverCount := dtxHangConst, decAnaElapsedCount := 32767 }

/-- `add_16`: the sum saturates, and says so. -/
def add16 (a b : Int) : Int × Bool :=
  if a + b > 32767 then (32767, true) else if a + b < -32768 then (-32768, true) else (a + b, false)

/-- The overflow flag that `add_16` sets. -/
def noteOverflow (o : Bool) (st : CodAmrState core) : CodAmrState core :=
  if o then { st with core := core.setOverflow st.core } else st

/-- `tx_dtx_handler`: whether a new SID is to be computed, and the mode to use. -/
def txDtxHandler (st : CodAmrState core) (vadFlag : Word16) (usedMode : Mode) : CodAmrState core × Word16 × Mode :=
  let (elapsed, o) := add16 st.decAnaElapsedCount 1
  let st := noteOverflow o { st with decAnaElapsedCount := elapsed }
  -- speech: the hangover starts anew
  if vadFlag ≠ 0 then ({ st with dtxHangoverCount := dtxHangConst }, 0, usedMode)
  -- out of the decoder's analysis hangover
  else if st.dtxHangoverCount = 0 then ({ st with decAnaElapsedCount := 0 }, 1, .MRDTX)
  -- in the hangover, which is not added a short time after a decoder update
  else
    let st := { st with dtxHangoverCount := st.dtxHangoverCount - 1 }
    let (count, o) := add16 st.decAnaElapsedCount st.dtxHangoverCount
    let st := noteOverflow o st
    (st, 0, if count < dtxElapsedFramesThresh then .MRDTX else usedMode)

/-- `cod_amr`: the parameters of the frame, and the mode used. -/
def codAmr (st : CodAmrState core) (mode : Mode) (newSpeech : List Word16) :
    CodAmrState core × (Nat → Word16) × Mode :=
  let (st, computeSidFlag, usedMode) :=
    if st.dtx ≠ 0 then
      let (cod, vadFlag) := core.vad1 st.core newSpeech
      txDtxHandler { st with core := cod } vadFlag mode
    else (st, 0, mode)
  let (cod, ana) := core.analyse st.core st.dtx mode usedMode computeSidFlag newSpeech
  ({ st with core := cod }, ana, usedMode)

theorem txDtxHandler_mode (st : CodAmrState core) (vadFlag : Word16) (mode : Mode) :
    (txDtxHandler st vadFlag mode).2.2 = mode ∨ (txDtxHandler st vadFlag mode).2.2 = .MRDTX := by
  unfold txDtxHandler
  dsimp only
  split
  · exact .inl rfl
  · split
    · exact .inr rfl
    · dsimp only
      split
      · exact .inr rfl
      · exact .inl rfl

/-- The mode used is the one asked for, or `MRDTX`. -/
theorem codAmr_mode (st : CodAmrState core) (mode : Mode) (x : List Word16) :
    (codAmr st mode x).2.2 = mode ∨ (codAmr st mode x).2.2 = .MRDTX := by
  simp only [codAmr]
  split
  · exact txDtxHandler_mode ..
  · exact .inl rfl

theorem noteOverflow_dtx (o : Bool) (st : CodAmrState core) : (noteOverflow o st).dtx = st.dtx := by
  cases o <;> rfl

theorem codAmr_dtx (st : CodAmrState core) (mode : Mode) (x : List Word16) : (codAmr st mode x).1.dtx = st.dtx := by
  simp only [codAmr]
  split
  · simp only [txDtxHandler]
    split
    · simp [noteOverflow_dtx]
    · split <;> simp [noteOverflow_dtx]
  · rfl

/-- Without DTX the mode used is the one asked for. -/
theorem codAmr_noDtx {st : CodAmrState core} (h : st.dtx = 0) (mode : Mode) (x : List Word16) :
    (codAmr st mode x).2.2 = mode := by
  simp [codAmr, h]

/-! ## Parameters to serial bits -/

/-- `bitno`: the bits of each parameter, by mode. -/
def bitno : Mode → List Nat
  | .MR475 => [8, 8, 7, 8, 7, 2, 8, 4, 7, 2, 4, 7, 2, 8, 4, 7, 2]
  | .MR515 => [8, 8, 7, 8, 7, 2, 6, 4, 7, 2, 6, 4, 7, 2, 6, 4, 7, 2, 6]
  | .MR59 => [8, 9, 9, 8, 9, 2, 6, 4, 9, 2, 6, 8, 9, 2, 6, 4, 9, 2, 6]
  | .MR67 => [8, 9, 9, 8, 11, 3, 7, 4, 11, 3, 7, 8, 11, 3, 7, 4, 11, 3, 7]
  | .MR74 => [8, 9, 9, 8, 13, 4, 7, 5, 13, 4, 7, 8, 13, 4, 7, 5, 13, 4, 7]
  | .MR795 => [9, 9, 9, 8, 13, 4, 4, 5, 6, 13, 4, 4, 5, 8, 13, 4, 4, 5, 6, 13, 4, 4, 5]
  | .MR102 => [8, 9, 9, 8, 1, 1, 1, 1, 10, 10, 7, 7, 5, 1, 1, 1, 1, 10, 10, 7, 7,
      8, 1, 1, 1, 1, 10, 10, 7, 7, 5, 1, 1, 1, 1, 10, 10, 7, 7]
  | .MR122 => [7, 8, 9, 8, 6, 9, 4, 4, 4, 4, 4, 4, 3, 3, 3, 3, 3, 5, 6, 4, 4, 4, 4, 4, 4, 3, 3, 3, 3, 3, 5,
      9, 4, 4, 4, 4, 4, 4, 3, 3, 3, 3, 3, 5, 6, 4, 4, 4, 4, 4, 4, 3, 3, 3, 3, 3, 5]
  | .MRDTX => [3, 8, 9, 9, 6]

/-- `Int2bin`, from position `off`: the lowest bit goes last. -/
def int2bin : Word16 → Nat → Nat → (Nat → Word16) → Nat → Word16
  | _, 0, _, bits => bits
  | value, n + 1, off, bits => int2bin (value.sshiftRight 1) n off (Function.update bits (off + n) (value &&& 1))

/-- The loop of `Prm2bits`, from parameter `i` and position `off`. -/
def prm2bitsLoop (prm : Nat → Word16) : List Nat → Nat → Nat → (Nat → Word16) → Nat → Word16
  | [], _, _, bits => bits
  | n :: ns, i, off, bits => prm2bitsLoop prm ns (i + 1) (off + n) (int2bin (prm i) n off bits)

/-- `Prm2bits`. -/
def prm2bits (mode : Mode) (prm bits : Nat → Word16) : Nat → Word16 := prm2bitsLoop prm (bitno mode) 0 0 bits

/-- The serial bits of a frame of each mode: a SID frame has 35 parameter bits. -/
theorem bitno_sum (m : Mode) : (bitno m).sum = if m = .MRDTX then 35 else numOfBits m.toFrameType := by
  cases m <;> decide

theorem int2bin_other (value : Word16) {n off p : Nat} (bits : Nat → Word16) (hp : p < off ∨ off + n ≤ p) :
    int2bin value n off bits p = bits p := by
  induction n generalizing value bits with
  | zero => rfl
  | succ n ih => rw [int2bin, ih _ _ (by omega), Function.update_of_ne (by omega)]

/-- `Prm2bits` writes no serial bit past its mode's. -/
theorem prm2bits_other (mode : Mode) (prm bits : Nat → Word16) {p : Nat} (hp : (bitno mode).sum ≤ p) :
    prm2bits mode prm bits p = bits p := by
  have hloop : ∀ (ns : List Nat) (i off : Nat) (bits : Nat → Word16), off + ns.sum ≤ p →
      prm2bitsLoop prm ns i off bits p = bits p := by
    intro ns
    induction ns with
    | nil => exact fun _ _ _ _ => rfl
    | cons n ns ih =>
      intro i off bits h
      rw [List.sum_cons] at h
      rw [prm2bitsLoop, ih _ _ _ (by omega), int2bin_other _ _ (by omega)]
  exact hloop _ 0 0 bits (by omega)

theorem int2bin_isBit (value : Word16) (n off : Nat) {bits : Nat → Word16} {p : Nat} (h : IsBit (bits p)) :
    IsBit (int2bin value n off bits p) := by
  induction n generalizing value bits with
  | zero => exact h
  | succ n ih =>
    apply ih
    by_cases hp : p = off + n
    · subst hp; simpa using BitPack.isBit_and_one value
    · rwa [Function.update_of_ne hp]

/-- Every serial word is a bit if it was one before. -/
theorem prm2bits_isBit (mode : Mode) (prm : Nat → Word16) {bits : Nat → Word16} {p : Nat} (h : IsBit (bits p)) :
    IsBit (prm2bits mode prm bits p) := by
  have hloop : ∀ (ns : List Nat) (i off : Nat) (bits : Nat → Word16), IsBit (bits p) →
      IsBit (prm2bitsLoop prm ns i off bits p) := by
    intro ns
    induction ns with
    | nil => exact fun _ _ _ h => h
    | cons n ns ih => exact fun i off bits h => ih _ _ _ (int2bin_isBit _ _ _ h)
  exact hloop _ 0 0 bits h

theorem int2bin_congr (value : Word16) (n off : Nat) {bits bits' : Nat → Word16} {p : Nat} (h : bits p = bits' p) :
    int2bin value n off bits p = int2bin value n off bits' p := by
  induction n generalizing value bits bits' with
  | zero => exact h
  | succ n ih =>
    apply ih
    by_cases hp : p = off + n
    · subst hp; simp
    · rwa [Function.update_of_ne hp, Function.update_of_ne hp]

/-- A serial word depends on the same word of the buffer only. -/
theorem prm2bits_congr (mode : Mode) (prm : Nat → Word16) {bits bits' : Nat → Word16} {p : Nat} (h : bits p = bits' p) :
    prm2bits mode prm bits p = prm2bits mode prm bits' p := by
  have hloop : ∀ (ns : List Nat) (i off : Nat) (bits bits' : Nat → Word16), bits p = bits' p →
      prm2bitsLoop prm ns i off bits p = prm2bitsLoop prm ns i off bits' p := by
    intro ns
    induction ns with
    | nil => exact fun _ _ _ _ h => h
    | cons n ns ih => exact fun i off bits bits' h => ih _ _ _ _ (int2bin_congr _ _ _ h)
  exact hloop _ 0 0 bits bits' h

/-! ## One frame -/

/-- `GSMEncodeFrame`'s results: the states of the two stages, the serial bits, the
mode used, and the input buffer, filtered in place. -/
structure EncodedFrame (core : SpeechCore) where
  pre : core.Pre
  cod : CodAmrState core
  serial : Nat → Word16
  usedMode : Mode
  newSpeech : List Word16

/-- `GSMEncodeFrame`, into the buffer `serial`. -/
def gsmEncodeFrame (pre : core.Pre) (cod : CodAmrState core) (mode : Mode) (newSpeech : List Word16)
    (serial : Nat → Word16) : EncodedFrame core :=
  let serial := fun i => if i < maxSerialSize then 0 else serial i
  let newSpeech := newSpeech.map fun x => x &&& 0xfff8
  let (pre, newSpeech) := core.preProcess pre newSpeech
  let (cod, prm, usedMode) := codAmr cod mode newSpeech
  ⟨pre, cod, prm2bits usedMode prm serial, usedMode, newSpeech⟩

theorem gsmEncodeFrame_isBit (pre : core.Pre) (cod : CodAmrState core) (mode : Mode) (x : List Word16)
    (serial : Nat → Word16) {p : Nat} (hp : p < maxSerialSize) :
    IsBit ((gsmEncodeFrame pre cod mode x serial).serial p) :=
  prm2bits_isBit _ _ (by simp [hp, IsBit])

/-- The buffer's old content reaches no serial bit. -/
theorem gsmEncodeFrame_congr (pre : core.Pre) (cod : CodAmrState core) (mode : Mode) (x : List Word16)
    (serial serial' : Nat → Word16) {p : Nat} (hp : p < maxSerialSize) :
    (gsmEncodeFrame pre cod mode x serial).serial p = (gsmEncodeFrame pre cod mode x serial').serial p :=
  prm2bits_congr _ _ (by simp [hp])

theorem gsmEncodeFrame_mode (pre : core.Pre) (cod : CodAmrState core) (mode : Mode) (x : List Word16)
    (serial : Nat → Word16) :
    (gsmEncodeFrame pre cod mode x serial).usedMode = mode ∨ (gsmEncodeFrame pre cod mode x serial).usedMode = .MRDTX :=
  codAmr_mode ..

theorem gsmEncodeFrame_length (pre : core.Pre) (cod : CodAmrState core) (mode : Mode) (x : List Word16)
    (serial : Nat → Word16) : (gsmEncodeFrame pre cod mode x serial).newSpeech.length = x.length := by
  simp [gsmEncodeFrame, core.preProcess_length]

/-! ## The frame type to send -/

/-- `sid_syncState`. -/
structure SidSyncState where
  sidUpdateRate : Int
  sidUpdateCounter : Int
  sidHandoverDebt : Int
  prevFt : TXFrameType
  deriving DecidableEq, Repr

/-- `sid_sync_reset`. -/
def sidSyncReset (st : SidSyncState) : SidSyncState :=
  { st with sidUpdateCounter := 3, sidHandoverDebt := 0, prevFt := .TX_SPEECH_GOOD }

/-- `sid_sync_init`. -/
def sidSyncInit : SidSyncState := sidSyncReset ⟨8, 0, 0, .TX_SPEECH_GOOD⟩

/-- `sid_sync`. -/
def sidSync (st : SidSyncState) (mode : Mode) : SidSyncState × TXFrameType :=
  let (st, txFrameType) :=
    if mode = .MRDTX then
      let st := { st with sidUpdateCounter := st.sidUpdateCounter - 1 }
      -- the counter is set for the first update, three frames on
      if st.prevFt = .TX_SPEECH_GOOD then ({ st with sidUpdateCounter := 3 }, TXFrameType.TX_SID_FIRST)
      else if st.sidHandoverDebt > 0 ∧ st.sidUpdateCounter > 2 then
        ({ st with sidHandoverDebt := st.sidHandoverDebt - 1 }, .TX_SID_UPDATE)
      else if st.sidUpdateCounter = 0 then ({ st with sidUpdateCounter := st.sidUpdateRate }, .TX_SID_UPDATE)
      else (st, .TX_NO_DATA)
    else ({ st with sidUpdateCounter := st.sidUpdateRate }, .TX_SPEECH_GOOD)
  ({ st with prevFt := txFrameType }, txFrameType)

theorem sidSync_rate (st : SidSyncState) (mode : Mode) : (sidSync st mode).1.sidUpdateRate = st.sidUpdateRate := by
  unfold sidSync
  by_cases hm : mode = .MRDTX
  · simp only [hm, if_true]
    split
    · rfl
    · split
      · rfl
      · split <;> rfl
  · simp only [hm, if_false]

/-- A speech frame is sent as one, and only a speech frame. -/
theorem sidSync_speech (st : SidSyncState) (mode : Mode) :
    (sidSync st mode).2 = .TX_SPEECH_GOOD ↔ mode ≠ .MRDTX := by
  unfold sidSync
  by_cases hm : mode = .MRDTX
  · simp only [hm, if_true]
    split
    · simp
    · split
      · simp
      · split <;> simp
  · simp [hm]

end AudioRecorder.Codec
