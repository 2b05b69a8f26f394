import AudioRecorder.Codec.Ietf
import AudioRecorder.Codec.Speech
/-!
# `Encoder_Interface_Encode`

`AMREncode` (`amrencode.cpp`) for the output format `AMR_TX_IETF`, as the wrapper
calls it: encode the frame, let `sid_sync` choose what to send, splice the type
and mode bits into a SID frame, and pack. `ets_output_bfr` is a local array, so
what it holds before the call is a parameter.
-/

namespace AudioRecorder.Codec

open BitPack (IsBit Packed packBits)

variable {core : SpeechCore}

/-- `AMRSID_TXTYPE_BIT_OFFSET`. -/
def amrSidTxTypeBitOffset : Nat := 35

/-- `AMRSID_TXMODE_BIT_OFFSET`. -/
def amrSidTxModeBitOffset : Nat := 36

/-- `NUM_AMRSID_TXMODE_BITS`. -/
def numAmrSidTxModeBits : Nat := 3

/-- The state behind an encoder handle: `Speech_Encode_FrameState` and `sid_syncState`. -/
structure EncState (core : SpeechCore) where
  pre : core.Pre
  cod : CodAmrState core
  sid : SidSyncState

/-- `Encoder_Interface_init`: `GSMInitEncode` resets `cod_amr_state` once more. -/
def EncState.init (core : SpeechCore) (dtx : Int) : EncState core :=
  ⟨core.preReset, codAmrReset (codAmrInit core dtx), sidSyncInit⟩

/-- Add SID type to encoder output buffer. -/
def addSidType (txFrameType : TXFrameType) (ets : Nat → Word16) : Nat → Word16 :=
  if txFrameType = .TX_SID_FIRST then
    Function.update ets amrSidTxTypeBitOffset (ets amrSidTxTypeBitOffset &&& 0)
  else if txFrameType = .TX_SID_UPDATE then
    Function.update ets amrSidTxTypeBitOffset (ets amrSidTxTypeBitOffset ||| 1)
  else ets

/-- Add mode information bits. -/
def addSidMode (mode : Mode) (ets : Nat → Word16) : Nat → Word16 :=
  (List.range numAmrSidTxModeBits).foldl
    (fun ets i => Function.update ets (amrSidTxModeBitOffset + i) (BitVec.ofNat 16 mode.toNat >>> i &&& 1)) ets

/-- What a call of `AMREncode` leaves: the state, the frame type, the number of
encoded bytes, the output buffer, and the input, which the filter rewrote. -/
structure Encoded (core : SpeechCore) where
  st : EncState core
  frameType : FrameType
  numEncBytes : Nat
  out : Nat → UWord8
  input : List Word16

/-- The frame type sent: the used mode's, or `AMR_NO_DATA`. -/
def p3gppFrameType (txFrameType : TXFrameType) (usedMode : Mode) : FrameType :=
  if txFrameType ≠ .TX_NO_DATA then usedMode.toFrameType else .AMR_NO_DATA

/-- The serial bits as they are packed. -/
def sentSerial (txFrameType : TXFrameType) (mode : Mode) (ft : FrameType) (ets : Nat → Word16) : Nat → Word16 :=
  if txFrameType ≠ .TX_NO_DATA ∧ ft = .AMR_SID then addSidMode mode (addSidType txFrameType ets) else ets

/-- `AMREncode` with `AMR_TX_IETF`. -/
def amrEncode (st : EncState core) (mode : Mode) (pEncInput : List Word16) (pEncOutput : Nat → UWord8)
    (etsOutputBfr : Nat → Word16) : Encoded core :=
  let frame := gsmEncodeFrame st.pre st.cod mode pEncInput etsOutputBfr
  let (sid, txFrameType) := sidSync st.sid frame.usedMode
  let ft := p3gppFrameType txFrameType frame.usedMode
  let ets := sentSerial txFrameType mode ft frame.serial
  { st := ⟨frame.pre, frame.cod, sid⟩
    frameType := ft
    numEncBytes := wmfEncBytesPerFrame ft
    out := etsToIetf ft ets pEncOutput
    input := frame.newSpeech }

/-- `Encoder_Interface_Encode`: the quality bit is set in the header. -/
def encoderInterfaceEncode (st : EncState core) (mode : Mode) (input : List Word16) (out : Nat → UWord8)
    (etsOutputBfr : Nat → Word16) : Encoded core :=
  let r := amrEncode st mode input out etsOutputBfr
  { r with out := Function.update r.out 0 (r.out 0 ||| 0x04) }

/-- The bytes a call returns. -/
def Encoded.block (r : Encoded core) : List UWord8 := (List.range r.numEncBytes).map r.out

/-! ## What is sent -/

/-- The header byte of a frame: type and quality bit. -/
def header (ft : FrameType) : UWord8 := BitVec.ofNat 8 ft.toNat <<< 3 ||| 0x04

theorem header_type (ft : FrameType) : FrameType.ofBits ((header ft >>> 3 &&& 15).setWidth 4) = ft := by
  cases ft <;> decide

theorem addSidMode_eq (mode : Mode) (ets : Nat → Word16) :
    addSidMode mode ets =
      Function.update (Function.update (Function.update ets 36 (BitVec.ofNat 16 mode.toNat >>> 0 &&& 1))
        37 (BitVec.ofNat 16 mode.toNat >>> 1 &&& 1)) 38 (BitVec.ofNat 16 mode.toNat >>> 2 &&& 1) := rfl

theorem addSidType_other (tx : TXFrameType) (ets : Nat → Word16) {p : Nat} (hp : p ≠ 35) : addSidType tx ets p = ets p := by
  unfold addSidType
  split
  · exact Function.update_of_ne hp ..
  · split
    · exact Function.update_of_ne hp ..
    · rfl

theorem addSidMode_other (mode : Mode) (ets : Nat → Word16) {p : Nat} (hp : p < 36) : addSidMode mode ets p = ets p := by
  rw [addSidMode_eq, Function.update_of_ne (by omega), Function.update_of_ne (by omega), Function.update_of_ne (by omega)]

theorem addSidType_first (ets : Nat → Word16) : addSidType .TX_SID_FIRST ets 35 = 0 := by
  simp [addSidType, amrSidTxTypeBitOffset]

theorem addSidType_update {ets : Nat → Word16} (h : IsBit (ets 35)) : addSidType .TX_SID_UPDATE ets 35 = 1 := by
  rcases h with h | h <;> simp [addSidType, amrSidTxTypeBitOffset, h]

theorem addSidMode_mode (mode : Mode) (ets : Nat → Word16) :
    addSidMode mode ets 36 = BitVec.ofNat 16 mode.toNat >>> 0 &&& 1 ∧
      addSidMode mode ets 37 = BitVec.ofNat 16 mode.toNat >>> 1 &&& 1 ∧
      addSidMode mode ets 38 = BitVec.ofNat 16 mode.toNat >>> 2 &&& 1 := by
  simp [addSidMode_eq]

theorem addSidType_isBit (tx : TXFrameType) {ets : Nat → Word16} {p : Nat} (h : IsBit (ets p)) :
    IsBit (addSidType tx ets p) := by
  by_cases hp : p = 35
  · subst hp
    rcases h with h | h <;> cases tx <;> simp [addSidType, amrSidTxTypeBitOffset, h, IsBit]
  · rwa [addSidType_other tx ets hp]

theorem addSidMode_isBit (mode : Mode) {ets : Nat → Word16} {p : Nat} (h : IsBit (ets p)) :
    IsBit (addSidMode mode ets p) := by
  have hupd : ∀ (f : Nat → Word16) (i q : Nat), IsBit (f p) →
      IsBit (Function.update f q (BitVec.ofNat 16 mode.toNat >>> i &&& 1) p) := fun f i q hf => by
    by_cases hp : p = q
    · subst hp; simpa using BitPack.isBit_and_one _
    · rwa [Function.update_of_ne hp]
  rw [addSidMode_eq]
  exact hupd _ _ _ (hupd _ _ _ (hupd _ _ _ h))

theorem sentSerial_isBit (tx : TXFrameType) (mode : Mode) (ft : FrameType) {ets : Nat → Word16} {p : Nat}
    (h : IsBit (ets p)) : IsBit (sentSerial tx mode ft ets p) := by
  unfold sentSerial
  split
  · exact addSidMode_isBit mode (addSidType_isBit tx h)
  · exact h

theorem addSidType_congr (tx : TXFrameType) {ets ets' : Nat → Word16} (h : ∀ p < maxSerialSize, ets p = ets' p) {p : Nat}
    (hp : p < maxSerialSize) : addSidType tx ets p = addSidType tx ets' p := by
  by_cases h35 : p = 35
  · subst h35
    simp only [addSidType, amrSidTxTypeBitOffset, h 35 (by decide)]
    split
    · simp
    · split
      · simp
      · exact h 35 hp
  · rw [addSidType_other _ _ h35, addSidType_other _ _ h35, h p hp]

theorem sentSerial_congr (tx : TXFrameType) (mode : Mode) (ft : FrameType) {ets ets' : Nat → Word16}
    (h : ∀ p < maxSerialSize, ets p = ets' p) {p : Nat} (hp : p < maxSerialSize) :
    sentSerial tx mode ft ets p = sentSerial tx mode ft ets' p := by
  have hupd : ∀ (f f' : Nat → Word16) (q : Nat) (v : Word16), f p = f' p →
      Function.update f q v p = Function.update f' q v p := fun f f' q v hf => by
    simp only [Function.update_apply, hf]
  unfold sentSerial
  split
  · rw [addSidMode_eq, addSidMode_eq]
    exact hupd _ _ _ _ (hupd _ _ _ _ (hupd _ _ _ _ (addSidType_congr tx h hp)))
  · exact h p hp

/-- The frame type sent is one the packing knows. -/
theorem p3gppFrameType_emitted (tx : TXFrameType) (m : Mode) : (p3gppFrameType tx m).Emitted := by
  cases tx <;> cases m <;> decide

section
variable (st : EncState core) (mode : Mode) (input : List Word16) (out : Nat → UWord8) (bfr : Nat → Word16)

/-- The serial bits a call packs. -/
def sent : Nat → Word16 :=
  let frame := gsmEncodeFrame st.pre st.cod mode input bfr
  let tx := (sidSync st.sid frame.usedMode).2
  sentSerial tx mode (p3gppFrameType tx frame.usedMode) frame.serial

theorem sent_isBit {p : Nat} (hp : p < maxSerialSize) : IsBit (sent st mode input bfr p) :=
  sentSerial_isBit _ _ _ (gsmEncodeFrame_isBit _ _ _ _ _ hp)

theorem sent_congr (bfr' : Nat → Word16) {p : Nat} (hp : p < maxSerialSize) :
    sent st mode input bfr p = sent st mode input bfr' p :=
  sentSerial_congr _ _ _ (fun _ hq => gsmEncodeFrame_congr st.pre st.cod mode input bfr bfr' hq) hp

theorem amrEncode_out :
    (amrEncode st mode input out bfr).out =
      etsToIetf (amrEncode st mode input out bfr).frameType (sent st mode input bfr) out := by
  unfold amrEncode sent
  rfl

/-- What a call leaves in the output buffer: the header, and behind it the packed bits. -/
theorem encoderInterfaceEncode_out :
    let r := encoderInterfaceEncode st mode input out bfr
    r.out 0 = header r.frameType ∧
      Packed r.out 1 (packedWord r.frameType (sent st mode input bfr)) (numOfBits r.frameType) := by
  have hout := amrEncode_out st mode input out bfr
  unfold encoderInterfaceEncode
  generalize amrEncode st mode input out bfr = r at hout ⊢
  dsimp only
  obtain ⟨h0, hp⟩ := etsToIetf_spec r.frameType (sent st mode input bfr) out
  rw [hout]
  constructor
  · rw [Function.update_self, h0, header]
  · intro j hj
    rw [Function.update_of_ne (by omega), hp j hj]

theorem encoderInterfaceEncode_emitted : (encoderInterfaceEncode st mode input out bfr).frameType.Emitted :=
  p3gppFrameType_emitted ..

/-- The bytes a call returns, each computed from the serial bits. -/
theorem block_eq :
    let r := encoderInterfaceEncode st mode input out bfr
    r.block = header r.frameType :: (List.range (wmfDecBytesPerFrame r.frameType)).map fun j =>
      packBits (fun k => packedWord r.frameType (sent st mode input bfr) (8 * j + k)) (min 8 (numOfBits r.frameType - 8 * j)) := by
  intro r
  obtain ⟨h0, hp⟩ := encoderInterfaceEncode_out st mode input out bfr
  have hn : r.numEncBytes = wmfDecBytesPerFrame r.frameType + 1 := by
    rw [Nat.add_comm, ← wmfEnc_eq_dec (encoderInterfaceEncode_emitted ..)]; rfl
  rw [Encoded.block, hn, List.range_succ_eq_map, List.map_cons, List.map_map, h0]
  refine congrArg _ (List.map_congr_left ?_)
  intro j hj
  have hlt : 8 * j < numOfBits r.frameType := by
    have hbits : 1 + wmfDecBytesPerFrame r.frameType = 1 + (numOfBits r.frameType + 7) / 8 := by
      rw [← wmfEnc_eq_dec (encoderInterfaceEncode_emitted ..), wmfEnc_eq_bits (encoderInterfaceEncode_emitted ..)]
    have := List.mem_range.1 hj
    omega
  rw [Function.comp_apply, Nat.succ_eq_add_one, Nat.add_comm j 1, hp j hlt]

/-- What the output buffer and the local serial buffer held reaches neither the
bytes returned nor the state. -/
theorem encoderInterfaceEncode_congr (out' : Nat → UWord8) (bfr' : Nat → Word16) :
    let r := encoderInterfaceEncode st mode input out bfr
    let r' := encoderInterfaceEncode st mode input out' bfr'
    r.block = r'.block ∧ r.st = r'.st ∧ r.input = r'.input ∧ r.frameType = r'.frameType := by
  refine ⟨?_, rfl, rfl, rfl⟩
  rw [block_eq, block_eq]
  refine congrArg _ (List.map_congr_left ?_)
  intro j _
  apply BitPack.packBits_congr
  intro k hk
  exact packedWord_congr (fun p hp => sent_congr st mode input bfr bfr' hp) (by omega)

end

end AudioRecorder.Codec
