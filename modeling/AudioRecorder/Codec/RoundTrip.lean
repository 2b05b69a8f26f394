import AudioRecorder.Codec.Decode
import AudioRecorder.Codec.Encode
/-!
# What the encoder sends, the decoder is given

The wrapper joins two halves written apart: the encoder's packing with its
table of block lengths, and the decoder's with its own. For any sequence of
frames, any modes and either setting of DTX, the blocks returned by
`Encoder_Interface_Encode` can be cut out of their concatenation by their headers
alone, and `Decoder_Interface_Decode` on each hands the frame decoder what the
encoder sent (`encode_decode`).
-/

namespace AudioRecorder.Codec

open BitPack (IsBit Packed)

/-- The arguments of a call of `Encoder_Interface_Encode`, and what its local buffer held. -/
structure Request where
  mode : Mode
  input : List Word16
  out : Nat → UWord8
  bfr : Nat → Word16

/-- A call and the state it was made in. -/
structure EncCall (core : SpeechCore) extends Request where
  st : EncState core

variable {core : SpeechCore}

namespace EncCall
variable (c : EncCall core)

def result : Encoded core := encoderInterfaceEncode c.st c.mode c.input c.out c.bfr

/-- What the speech encoder made of the frame. -/
def frame : EncodedFrame core := gsmEncodeFrame c.st.pre c.st.cod c.mode c.input c.bfr

/-- What `sid_sync` chose to send. -/
def txFrameType : TXFrameType := (sidSync c.st.sid c.frame.usedMode).2

/-- `call` is what the frame decoder must be given for this frame, if `prev` is
the mode it was last given. -/
def Sends (prev : Mode) (call : FrameCall) : Prop :=
  match c.txFrameType with
  | .TX_SPEECH_GOOD => call.rxType = .RX_SPEECH_GOOD ∧ call.mode = c.mode ∧
      ∀ p < numOfBits c.mode.toFrameType, call.serial p = c.frame.serial p
  | .TX_SID_FIRST => call.rxType = .RX_SID_FIRST ∧ call.mode = c.mode ∧ ∀ p < 35, call.serial p = c.frame.serial p
  | .TX_SID_UPDATE => call.rxType = .RX_SID_UPDATE ∧ call.mode = c.mode ∧ ∀ p < 35, call.serial p = c.frame.serial p
  | .TX_NO_DATA => call.rxType = .RX_NO_DATA ∧ call.mode = prev

end EncCall

/-- The calls of a sequence of requests. -/
def encCalls (st : EncState core) : List Request → List (EncCall core)
  | [] => []
  | r :: rs => let c : EncCall core := ⟨r, st⟩; c :: encCalls c.result.st rs

/-- The buffer behind a pointer to a block. -/
def bytesOf (block : List UWord8) (i : Nat) : UWord8 := block.getD i 0

/-- `Decoder_Interface_Decode` on each block; `junk i` is what the local buffer held at call `i`. -/
def decodeAll (junk : Nat → Nat → Word16) (prevMode : Mode) : List (List UWord8) → List Decoded
  | [] => []
  | b :: bs =>
    let d := decoderInterfaceDecode prevMode (bytesOf b) (junk 0)
    d :: decodeAll (fun i => junk (i + 1)) d.prevMode bs

/-- The decoder calls match the encoder calls, one by one. -/
def Recovered (prev : Mode) : List (EncCall core) → List Decoded → Prop
  | [], [] => True
  | c :: cs, d :: ds => (∃ call, d.call = some call ∧ c.Sends prev call ∧ d.prevMode = call.mode) ∧ Recovered d.prevMode cs ds
  | _, _ => False

/-! ## One frame -/

theorem headerType_header (ft : FrameType) : headerType (header ft) = ft := header_type ft

/-- A block starts with its header and is as long as the header says. -/
theorem EncCall.framed (c : EncCall core) : Framed c.result.block := by
  obtain hb := block_eq c.st c.mode c.input c.out c.bfr
  refine ⟨_, _, hb, ?_⟩
  rw [headerType_header, List.length_map, List.length_range]

/-- Behind the header, the block holds the packed bits. -/
theorem EncCall.bytes (c : EncCall core) :
    bytesOf c.result.block 0 = header c.result.frameType ∧
      Packed (fun i => bytesOf c.result.block (i + 1)) 0
        (packedWord c.result.frameType (sent c.st c.mode c.input c.bfr)) (numOfBits c.result.frameType) := by
  have hb : c.result.block = header c.result.frameType :: _ := block_eq c.st c.mode c.input c.out c.bfr
  have hlen : wmfDecBytesPerFrame (encoderInterfaceEncode c.st c.mode c.input c.out c.bfr).frameType = (numOfBits c.result.frameType + 7) / 8 := by
    have hem := encoderInterfaceEncode_emitted c.st c.mode c.input c.out c.bfr
    have := (wmfEnc_eq_dec hem).symm.trans (wmfEnc_eq_bits hem)
    exact Nat.add_left_cancel this
  rw [hb]
  refine ⟨rfl, ?_⟩
  intro j hj
  simp only [bytesOf]
  rw [Nat.zero_add, List.getD_cons_succ, List.getD_eq_getElem?_getD, List.getElem?_map,
    List.getElem?_range (by omega)]
  rfl

/-- The decoder's buffer holds the serial bits that were packed. -/
theorem EncCall.serial (c : EncCall core) (buf : Nat → Word16) {p : Nat} (hp : p < numOfBits c.result.frameType) :
    wmfToEts c.result.frameType (fun i => bytesOf c.result.block (i + 1)) buf p = sent c.st c.mode c.input c.bfr p :=
  wmfToEts_etsToIetf _ (fun _ hq => sent_isBit _ _ _ _ (Nat.lt_of_lt_of_le hq (numOfBits_le _))) c.bytes.2 buf hp

/-- Three mode bits read back. -/
theorem sidMode_addSidMode {mode : Mode} (h : mode.Speech) (ets : Nat → Word16) {ets' : Nat → Word16}
    (h' : ∀ p, 36 ≤ p → p < 39 → ets' p = addSidMode mode ets p) : sidMode ets' = mode := by
  obtain ⟨h₀, h₁, h₂⟩ := addSidMode_mode mode ets
  simp only [sidMode, numAmrSidRxModeBits, amrSidRxModeBitOffset, List.range_succ, List.range_zero, List.nil_append,
    List.foldl_append, List.foldl_cons, List.foldl_nil, Nat.add_zero, h' 36 (by decide) (by decide),
    h' 37 (by decide) (by decide), h' 38 (by decide) (by decide), h₀, h₁, h₂, Nat.reduceAdd]
  cases mode <;> first | exact absurd rfl h | decide

/-- A SID frame carries the 35 parameter bits, its type and the requested mode. -/
theorem EncCall.sid (c : EncCall core) (hm : c.mode.Speech) (buf : Nat → Word16) (hdtx : c.frame.usedMode = .MRDTX)
    (hdata : c.txFrameType ≠ .TX_NO_DATA) :
    let ets := wmfToEts .AMR_SID (fun i => bytesOf c.result.block (i + 1)) buf
    c.result.frameType = .AMR_SID ∧ sidMode ets = c.mode ∧ ets 35 = addSidType c.txFrameType c.frame.serial 35 ∧
      ∀ p < 35, ets p = c.frame.serial p := by
  intro ets
  have hft : p3gppFrameType c.txFrameType c.frame.usedMode = .AMR_SID := by
    rw [p3gppFrameType, if_pos hdata, hdtx]; rfl
  have hframe : c.result.frameType = .AMR_SID := hft
  have hsent : sent c.st c.mode c.input c.bfr = addSidMode c.mode (addSidType c.txFrameType c.frame.serial) := by
    change sentSerial c.txFrameType c.mode (p3gppFrameType c.txFrameType c.frame.usedMode) c.frame.serial = _
    rw [sentSerial, if_pos ⟨hdata, hft⟩]
  have hser : ∀ p < 39, ets p = addSidMode c.mode (addSidType c.txFrameType c.frame.serial) p := fun p hp => by
    have := c.serial buf (p := p) (by rw [hframe]; exact hp)
    rwa [hframe, hsent] at this
  refine ⟨hframe, sidMode_addSidMode hm _ fun p _ h39 => hser p h39, ?_, ?_⟩
  · rw [hser 35 (by decide), addSidMode_other _ _ (by decide)]
  · intro p hp
    rw [hser p (by omega), addSidMode_other _ _ (by omega), addSidType_other _ _ (by omega)]

/-- The decoder is given the frame the encoder sent. -/
theorem EncCall.recovered (c : EncCall core) (hm : c.mode.Speech) (prev : Mode) (buf : Nat → Word16) :
    ∃ call, (decoderInterfaceDecode prev (bytesOf c.result.block) buf).call = some call ∧ c.Sends prev call ∧
      (decoderInterfaceDecode prev (bytesOf c.result.block) buf).prevMode = call.mode := by
  have hframe : c.result.frameType = p3gppFrameType c.txFrameType c.frame.usedMode := rfl
  have hgood : c.txFrameType = .TX_SPEECH_GOOD ↔ c.frame.usedMode ≠ .MRDTX := sidSync_speech ..
  have hdtx : c.txFrameType ≠ .TX_SPEECH_GOOD → c.frame.usedMode = .MRDTX := fun h => by
    by_contra hne
    exact h (hgood.2 hne)
  have hused : c.frame.usedMode = c.mode ∨ c.frame.usedMode = .MRDTX := gsmEncodeFrame_mode ..
  rw [decoderInterfaceDecode, c.bytes.1, headerType_header]
  simp only [EncCall.Sends]
  cases htx : c.txFrameType with
  | TX_SPEECH_GOOD =>
    have hmode : c.frame.usedMode = c.mode := hused.resolve_right (hgood.1 htx)
    have hft : c.result.frameType = c.mode.toFrameType := by rw [hframe, htx, hmode]; rfl
    have hlt := toFrameType_lt.2 hm
    have hle : c.mode.toFrameType.toNat ≤ FrameType.AMR_122.toNat := Nat.le_of_lt_succ hlt
    have hne : c.mode.toFrameType ≠ .AMR_SID := fun h => by rw [h] at hlt; exact absurd hlt (by decide)
    have hsent : sent c.st c.mode c.input c.bfr = c.frame.serial := by
      change sentSerial c.txFrameType c.mode c.result.frameType c.frame.serial = _
      rw [sentSerial, hft, if_neg fun h => hne h.2]
    have hser := fun p hp => hsent ▸ c.serial buf (p := p) hp
    rw [hft] at hser ⊢
    simp only [amrDecode, if_pos hle]
    exact ⟨_, rfl, ⟨rfl, toMode_toFrameType _, hser⟩, rfl⟩
  | TX_SID_FIRST =>
    obtain ⟨hft, hmode, htype, hparam⟩ := c.sid hm buf (hdtx (by simp [htx])) (by simp [htx])
    rw [htx, addSidType_first] at htype
    rw [hft]
    exact ⟨_, rfl, ⟨if_pos htype, hmode, hparam⟩, rfl⟩
  | TX_SID_UPDATE =>
    obtain ⟨hft, hmode, htype, hparam⟩ := c.sid hm buf (hdtx (by simp [htx])) (by simp [htx])
    have hbit : IsBit (c.frame.serial 35) := gsmEncodeFrame_isBit _ _ _ _ _ (by decide)
    rw [htx, addSidType_update hbit] at htype
    rw [hft]
    exact ⟨_, rfl, ⟨if_neg (by simp [amrSidRxTypeBitOffset, htype]), hmode, hparam⟩, rfl⟩
  | TX_NO_DATA =>
    have hft : c.result.frameType = .AMR_NO_DATA := by rw [hframe, htx]; rfl
    rw [hft]
    exact ⟨_, rfl, ⟨rfl, rfl⟩, rfl⟩

/-! ## Sequences of frames -/

theorem mem_encCalls {st : EncState core} {rs : List Request} {c : EncCall core} (hc : c ∈ encCalls st rs) :
    c.toRequest ∈ rs := by
  induction rs generalizing st with
  | nil => cases hc
  | cons r rs ih =>
    rcases List.mem_cons.1 hc with rfl | hc
    · simp
    · exact List.mem_cons_of_mem _ (ih hc)

theorem recovered_calls (junk : Nat → Nat → Word16) (prev : Mode) (cs : List (EncCall core))
    (hm : ∀ c ∈ cs, c.mode.Speech) : Recovered prev cs (decodeAll junk prev (cs.map fun c => c.result.block)) := by
  induction cs generalizing prev junk with
  | nil => trivial
  | cons c cs ih =>
    obtain ⟨call, hcall, hsends, hprev⟩ := c.recovered (hm c (by simp)) prev (junk 0)
    exact ⟨⟨call, hcall, hsends, hprev⟩, ih _ _ fun d hd => hm d (by simp [hd])⟩

/-- For any sequence of speech frames: every byte returned is written by its call,
the headers alone cut the blocks out of the stream, and the decoder, whatever it
decoded before, gives the frame decoder what the encoder sent. -/
theorem encode_decode (core : SpeechCore) (dtx : Int) (rs : List Request) (hm : ∀ r ∈ rs, r.mode.Speech) :
    let cs := encCalls (EncState.init core dtx) rs
    let blocks := cs.map fun c => c.result.block
    (∀ c ∈ cs, c.result.block.length = c.result.numEncBytes ∧ ∀ out',
      (encoderInterfaceEncode c.st c.mode c.input out' c.bfr).block = c.result.block) ∧
    readFrames blocks.flatten = blocks ∧
    ∀ junk prev, Recovered prev cs (decodeAll junk prev blocks) := by
  refine ⟨fun c _ => ⟨by simp [Encoded.block], fun out' => (encoderInterfaceEncode_congr ..).1⟩, ?_, fun junk prev => ?_⟩
  · apply readFrames_flatten
    intro x hx
    obtain ⟨c, -, rfl⟩ := List.mem_map.1 hx
    exact c.framed
  · exact recovered_calls junk prev _ fun c hc => hm _ (mem_encCalls hc)

/-- A core that does no signal processing: the speech is always found to be silence. -/
def silentCore : SpeechCore where
  Pre := Unit
  preReset := ()
  preProcess := fun s x => (s, x)
  preProcess_length := fun _ _ => rfl
  Cod := Unit
  codInit := ()
  codReset := id
  vad1 := fun s _ => (s, 0)
  setOverflow := id
  analyse := fun s _ _ _ _ x => (s, fun i => x.getD i 0)

/-- Two frames with DTX, of different modes. -/
theorem encode_decode_two :
    let rs : List Request := [⟨.MR122, [5, 9], fun _ => 0xFF, fun _ => 7⟩, ⟨.MR475, [1], fun _ => 3, fun _ => 2⟩]
    readFrames ((encCalls (EncState.init silentCore 1) rs).map fun c => c.result.block).flatten =
      (encCalls (EncState.init silentCore 1) rs).map fun c => c.result.block :=
  (encode_decode silentCore 1 [⟨.MR122, [5, 9], fun _ => 0xFF, fun _ => 7⟩, ⟨.MR475, [1], fun _ => 3, fun _ => 2⟩]
    (by simp [Mode.Speech])).2.1

end AudioRecorder.Codec
