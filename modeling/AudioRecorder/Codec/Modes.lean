/-!
# Codec modes, frame types and their tables

The enumerations of `mode.h`, `frame_type_3gpp.h` and `frame.h`, and the three
tables of frame lengths, which the encoder and the decoder keep separately:
`numOfBits` (`bitreorder_tab.cpp`), `WmfEncBytesPerFrame`
(`enc_output_format_tab.cpp`) and `WmfDecBytesPerFrame`
(`dec_input_format_tab.cpp`).
-/

namespace AudioRecorder.Codec

/-- `Word16`: PCM samples and, one bit to a word, serial bits. -/
abbrev Word16 := BitVec 16

/-- `UWord8`: a byte of an encoded frame. -/
abbrev UWord8 := BitVec 8

/-- `MAX_SERIAL_SIZE`: the serial bits of the longest frame. -/
def maxSerialSize : Nat := 244

/-- `enum Mode`. -/
inductive Mode where
  | MR475 | MR515 | MR59 | MR67 | MR74 | MR795 | MR102 | MR122 | MRDTX
  deriving DecidableEq, Repr

/-- `enum Frame_Type_3GPP`. -/
inductive FrameType where
  | AMR_475 | AMR_515 | AMR_59 | AMR_67 | AMR_74 | AMR_795 | AMR_102 | AMR_122 | AMR_SID
  | GSM_EFR_SID | TDMA_EFR_SID | PDC_EFR_SID
  | FOR_FUTURE_USE1 | FOR_FUTURE_USE2 | FOR_FUTURE_USE3 | AMR_NO_DATA
  deriving DecidableEq, Repr

/-- The `enum TXFrameType` values that `sid_sync` produces. -/
inductive TXFrameType where
  | TX_SPEECH_GOOD | TX_SID_FIRST | TX_SID_UPDATE | TX_NO_DATA
  deriving DecidableEq, Repr

/-- `enum RXFrameType`. -/
inductive RXFrameType where
  | RX_SPEECH_GOOD | RX_SPEECH_DEGRADED | RX_ONSET | RX_SPEECH_BAD
  | RX_SID_FIRST | RX_SID_UPDATE | RX_SID_BAD | RX_NO_DATA
  deriving DecidableEq, Repr

def Mode.toNat : Mode → Nat
  | .MR475 => 0 | .MR515 => 1 | .MR59 => 2 | .MR67 => 3 | .MR74 => 4
  | .MR795 => 5 | .MR102 => 6 | .MR122 => 7 | .MRDTX => 8

/-- `(enum Mode) n`, for the three mode bits of a SID frame. -/
def Mode.ofBits (n : BitVec 3) : Mode :=
  match n.toNat with
  | 0 => .MR475 | 1 => .MR515 | 2 => .MR59 | 3 => .MR67 | 4 => .MR74
  | 5 => .MR795 | 6 => .MR102 | _ => .MR122

def FrameType.toNat : FrameType → Nat
  | .AMR_475 => 0 | .AMR_515 => 1 | .AMR_59 => 2 | .AMR_67 => 3 | .AMR_74 => 4
  | .AMR_795 => 5 | .AMR_102 => 6 | .AMR_122 => 7 | .AMR_SID => 8
  | .GSM_EFR_SID => 9 | .TDMA_EFR_SID => 10 | .PDC_EFR_SID => 11
  | .FOR_FUTURE_USE1 => 12 | .FOR_FUTURE_USE2 => 13 | .FOR_FUTURE_USE3 => 14 | .AMR_NO_DATA => 15

/-- `(enum Frame_Type_3GPP) n`, for the four bits of a frame header. -/
def FrameType.ofBits (n : BitVec 4) : FrameType :=
  match n.toNat with
  | 0 => .AMR_475 | 1 => .AMR_515 | 2 => .AMR_59 | 3 => .AMR_67 | 4 => .AMR_74
  | 5 => .AMR_795 | 6 => .AMR_102 | 7 => .AMR_122 | 8 => .AMR_SID
  | 9 => .GSM_EFR_SID | 10 => .TDMA_EFR_SID | 11 => .PDC_EFR_SID
  | 12 => .FOR_FUTURE_USE1 | 13 => .FOR_FUTURE_USE2 | 14 => .FOR_FUTURE_USE3 | _ => .AMR_NO_DATA

/-- `(enum Frame_Type_3GPP) mode`. -/
def Mode.toFrameType : Mode → FrameType
  | .MR475 => .AMR_475 | .MR515 => .AMR_515 | .MR59 => .AMR_59 | .MR67 => .AMR_67 | .MR74 => .AMR_74
  | .MR795 => .AMR_795 | .MR102 => .AMR_102 | .MR122 => .AMR_122 | .MRDTX => .AMR_SID

/-- `(enum Mode) frame_type`, taken for `frame_type <= AMR_122` only. -/
def FrameType.toMode : FrameType → Mode
  | .AMR_475 => .MR475 | .AMR_515 => .MR515 | .AMR_59 => .MR59 | .AMR_67 => .MR67 | .AMR_74 => .MR74
  | .AMR_795 => .MR795 | .AMR_102 => .MR102 | .AMR_122 => .MR122 | _ => .MRDTX

/-- `numOfBits`, by frame type. -/
def numOfBitsTab : List Nat := [95, 103, 118, 134, 148, 159, 204, 244, 39, 43, 38, 37, 0, 0, 0, 0]

/-- `WmfEncBytesPerFrame`: the header byte and the packed bits. -/
def wmfEncBytesPerFrameTab : List Nat := [13, 14, 16, 18, 20, 21, 27, 32, 6, 7, 6, 6, 0, 0, 0, 1]

/-- `WmfDecBytesPerFrame`: the packed bits, without the header byte. -/
def wmfDecBytesPerFrameTab : List Nat := [12, 13, 15, 17, 19, 20, 26, 31, 5, 6, 5, 5, 0, 0, 0, 0]

def numOfBits (ft : FrameType) : Nat := numOfBitsTab.getD ft.toNat 0

def wmfEncBytesPerFrame (ft : FrameType) : Nat := wmfEncBytesPerFrameTab.getD ft.toNat 0

def wmfDecBytesPerFrame (ft : FrameType) : Nat := wmfDecBytesPerFrameTab.getD ft.toNat 0

/-! ## How the enumerations and tables fit -/

/-- A mode a caller may ask the encoder for: `MRDTX` is only chosen by DTX. -/
def Mode.Speech (m : Mode) : Prop := m ≠ .MRDTX

instance (m : Mode) : Decidable m.Speech := inferInstanceAs (Decidable (m ≠ .MRDTX))

theorem toMode_toFrameType (m : Mode) : m.toFrameType.toMode = m := by
  cases m <;> rfl

theorem toFrameType_lt {m : Mode} : m.toFrameType.toNat < 8 ↔ m.Speech := by
  cases m <;> decide

/-- The frame types the encoder emits: the eight speech modes, `AMR_SID` and `AMR_NO_DATA`. -/
def FrameType.Emitted (ft : FrameType) : Prop := ft.toNat ≤ 8 ∨ ft = .AMR_NO_DATA

instance (ft : FrameType) : Decidable ft.Emitted := inferInstanceAs (Decidable (_ ∨ _))

/-- The two byte tables differ by the header byte on every emitted frame type. -/
theorem wmfEnc_eq_dec {ft : FrameType} (h : ft.Emitted) : wmfEncBytesPerFrame ft = 1 + wmfDecBytesPerFrame ft := by
  cases ft <;> revert h <;> decide

/-- The bytes of an emitted frame hold its bits, the last byte padded. -/
theorem wmfEnc_eq_bits {ft : FrameType} (h : ft.Emitted) : wmfEncBytesPerFrame ft = 1 + (numOfBits ft + 7) / 8 := by
  cases ft <;> revert h <;> decide

theorem numOfBits_le_wmfDec (ft : FrameType) : numOfBits ft ≤ 8 * wmfDecBytesPerFrame ft := by
  cases ft <;> decide

theorem numOfBits_le (ft : FrameType) : numOfBits ft ≤ maxSerialSize := by
  cases ft <;> decide

end AudioRecorder.Codec
