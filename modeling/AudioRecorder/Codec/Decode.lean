import AudioRecorder.Codec.Ietf
/-!
# `Decoder_Interface_Decode`, up to the frame decoder

`AMRDecode` (`amrdecode.cpp`) for the input format `MIME_IETF`, as the wrapper
calls it: unpack the serial bits, work out the mode and the kind of frame, and
hand them to `GSMFrameDecode`. The result is that call, if it is made.
-/

namespace AudioRecorder.Codec

/-- `AMRSID_RXTYPE_BIT_OFFSET`. -/
def amrSidRxTypeBitOffset : Nat := 35

/-- `AMRSID_RXMODE_BIT_OFFSET`. -/
def amrSidRxModeBitOffset : Nat := 36

/-- `NUM_AMRSID_RXMODE_BITS`. -/
def numAmrSidRxModeBits : Nat := 3

/-- A call of `GSMFrameDecode`. -/
structure FrameCall where
  mode : Mode
  serial : Nat → Word16
  rxType : RXFrameType

/-- What `AMRDecode` does: the call it makes, the mode it keeps, and its result. -/
structure Decoded where
  call : Option FrameCall
  prevMode : Mode
  byteOffset : Int

/-- The mode info of a SID frame: `modeStore |= dec_ets_input_bfr[36 + i] << i`. -/
def sidMode (ets : Nat → Word16) : Mode :=
  .ofBits (BitVec.ofNat 3
    ((List.range numAmrSidRxModeBits).foldl (fun modeStore i => modeStore ||| (ets (amrSidRxModeBitOffset + i)).toNat <<< i) 0))

/-- `AMRDecode` with `MIME_IETF`; `decEtsInputBfr` is what its local array held. -/
def amrDecode (prevMode : Mode) (frameType : FrameType) (speechBits : Nat → UWord8) (decEtsInputBfr : Nat → Word16) :
    Decoded :=
  let ets := wmfToEts frameType speechBits decEtsInputBfr
  let decode := fun mode rxType => (⟨some ⟨mode, ets, rxType⟩, mode, wmfDecBytesPerFrame frameType⟩ : Decoded)
  if frameType.toNat ≤ FrameType.AMR_122.toNat then decode frameType.toMode .RX_SPEECH_GOOD
  else if frameType = .AMR_SID then
    decode (sidMode ets) (if ets amrSidRxTypeBitOffset = 0 then .RX_SID_FIRST else .RX_SID_UPDATE)
  else if frameType.toNat < FrameType.AMR_NO_DATA.toNat then ⟨none, prevMode, -1⟩
  else decode prevMode .RX_NO_DATA

/-- The frame type in a header byte: `(in[0] >> 3) & 0x0f`. -/
def headerType (b : UWord8) : FrameType := .ofBits ((b >>> 3 &&& 0x0f).setWidth 4)

/-- `Decoder_Interface_Decode`. -/
def decoderInterfaceDecode (prevMode : Mode) (input : Nat → UWord8) (decEtsInputBfr : Nat → Word16) : Decoded :=
  amrDecode prevMode (headerType (input 0)) (fun i => input (i + 1)) decEtsInputBfr

/-- A reader of a stream of frames: each is as long as its header says. -/
def readFrames : List UWord8 → List (List UWord8)
  | [] => []
  | b :: bs =>
    (b :: bs).take (1 + wmfDecBytesPerFrame (headerType b)) :: readFrames (bs.drop (wmfDecBytesPerFrame (headerType b)))
termination_by l => l.length

/-- A block is as long as its header says. -/
def Framed (block : List UWord8) : Prop :=
  ∃ b bs, block = b :: bs ∧ bs.length = wmfDecBytesPerFrame (headerType b)

/-- A stream of framed blocks is read back as these blocks. -/
theorem readFrames_flatten {blocks : List (List UWord8)} (h : ∀ x ∈ blocks, Framed x) :
    readFrames blocks.flatten = blocks := by
  induction blocks with
  | nil => simp [readFrames]
  | cons x xs ih =>
    obtain ⟨b, bs, rfl, hlen⟩ := h x (by simp)
    rw [List.flatten_cons, List.cons_append, readFrames, List.drop_left' hlen, ih fun y hy => h y (by simp [hy]),
      ← List.cons_append, List.take_left' (by rw [List.length_cons, hlen, Nat.add_comm])]

end AudioRecorder.Codec
