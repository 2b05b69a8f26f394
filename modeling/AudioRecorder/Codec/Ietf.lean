import AudioRecorder.Codec.BitTables
import AudioRecorder.Lib.BitPack
/-!
# Packing serial bits into a frame, and back

`ets_to_ietf` (`ets_to_wmf.cpp`) writes the header byte and packs the serial
bits: speech bits in the order of `reorderBits`, all others as they stand.
`wmf_to_ets` (`wmf_to_ets.cpp`) reads them back from behind the header. Both
loops of the encoder leave the bytes that `Packed` describes, so the decoder
recovers every serial bit (`wmfToEts_etsToIetf`).
-/

namespace AudioRecorder.Codec

open BitPack (IsBit Packed packBits readBit)

/-! ## `ets_to_ietf` -/

/-- Eight serial words packed into one byte, as both loops of `ets_to_ietf` spell it out. -/
def packEight (w : Nat → Word16) : UWord8 :=
  (w 0).setWidth 8 <<< 7 ||| (w 1).setWidth 8 <<< 6 ||| (w 2).setWidth 8 <<< 5 ||| (w 3).setWidth 8 <<< 4 |||
    (w 4).setWidth 8 <<< 3 ||| (w 5).setWidth 8 <<< 2 ||| (w 6).setWidth 8 <<< 1 ||| (w 7).setWidth 8

/-- The speech loop: eight reordered bits at a time while `i < n - 7`. Returns `i`, `j` and the buffer. -/
def packSpeech (bits : Nat → Word16) (n i j : Nat) (out : Nat → UWord8) : Nat × Nat × (Nat → UWord8) :=
  if i + 7 < n then packSpeech bits n (i + 8) (j + 1) (Function.update out j (packEight fun k => bits (i + k)))
  else (i, j, out)
termination_by n - i

/-- The other loop: eight words from `p` on at a time, while the count `i` is positive. -/
def packPlain (ets : Nat → Word16) (i : Int) (p j : Nat) (out : Nat → UWord8) : Nat × Nat × (Nat → UWord8) :=
  if 0 < i then packPlain ets (i - 8) (p + 8) (j + 1) (Function.update out j (packEight fun k => ets (p + k)))
  else (p, j, out)
termination_by i.toNat

/-- The loop over the bits left: `out[j] |= bit << (7 - k)` from `k` on. -/
def packLeft (bits : Nat → Word16) (j : Nat) : Nat → Nat → (Nat → UWord8) → Nat → UWord8
  | 0, _, out => out
  | left + 1, k, out =>
    packLeft bits j left (k + 1) (Function.update out j (out j ||| (bits k).setWidth 8 <<< (7 - k)))

/-- `ets_to_ietf`. -/
def etsToIetf (frameType : FrameType) (ets : Nat → Word16) (out : Nat → UWord8) : Nat → UWord8 :=
  let n := numOfBits frameType
  let out := Function.update out 0 (BitVec.ofNat 8 frameType.toNat <<< 3)
  let bitsLeft := n - n / 8 * 8
  if frameType.toNat < FrameType.AMR_SID.toNat then
    let bits := fun i => ets (reorderBits frameType i)
    let (i, j, out) := packSpeech bits n 0 1 out
    packLeft (fun k => bits (i + k)) j bitsLeft 0 (Function.update out j 0)
  else
    let (p, j, out) := packPlain ets ((n : Int) - 7) 0 1 out
    packLeft (fun k => ets (p + k)) j bitsLeft 0 (Function.update out j 0)

/-! ### What the loops leave -/

theorem packEight_eq (w : Nat → Word16) : packEight w = packBits w 8 := by
  simp [packEight, packBits, BitVec.or_assoc]

/-- The positions below `j` of a buffer that holds the first `i` bits packed from position 1 on. -/
structure PackedTo (bits : Nat → Word16) (i j : Nat) (out : Nat → UWord8) : Prop where
  count : i = 8 * (j - 1)
  pos : 1 ≤ j
  full : ∀ m, 1 + m < j → out (1 + m) = packBits (fun k => bits (8 * m + k)) 8

theorem PackedTo.step {bits : Nat → Word16} {i j : Nat} {out : Nat → UWord8} (h : PackedTo bits i j out) :
    PackedTo bits (i + 8) (j + 1) (Function.update out j (packEight fun k => bits (i + k))) where
  count := by have := h.count; have := h.pos; omega
  pos := by omega
  full m hm := by
    by_cases hj : 1 + m = j
    · subst hj
      rw [Function.update_self, packEight_eq, h.count, Nat.add_sub_cancel_left]
    · rw [Function.update_of_ne hj, h.full m (by have := h.pos; omega)]

theorem packSpeech_spec {bits : Nat → Word16} {n i j : Nat} {out : Nat → UWord8} (h : PackedTo bits i j out) (hi : i ≤ n) :
    ∃ i' j' out', packSpeech bits n i j out = (i', j', out') ∧ PackedTo bits i' j' out' ∧ i' = n / 8 * 8 ∧
      out' 0 = out 0 := by
  fun_induction packSpeech bits n i j out with
  | case1 i j out hlt ih =>
    obtain ⟨i', j', out', he, hp, hn, h0⟩ := ih h.step (by omega)
    exact ⟨i', j', out', he, hp, hn, by rw [h0, Function.update_of_ne (by have := h.pos; omega)]⟩
  | case2 i j out hge =>
    have := h.count
    exact ⟨i, j, out, rfl, h, by omega, rfl⟩

theorem packPlain_spec {ets : Nat → Word16} {n : Nat} {i : Int} {p j : Nat} {out : Nat → UWord8} (h : PackedTo ets p j out)
    (hi : i = (n : Int) - 7 - p) (hp : p ≤ n) :
    ∃ p' j' out', packPlain ets i p j out = (p', j', out') ∧ PackedTo ets p' j' out' ∧ p' = n / 8 * 8 ∧
      out' 0 = out 0 := by
  fun_induction packPlain ets i p j out with
  | case1 i p j out hlt ih =>
    obtain ⟨p', j', out', he, hp', hn, h0⟩ := ih h.step (by omega) (by omega)
    exact ⟨p', j', out', he, hp', hn, by rw [h0, Function.update_of_ne (by have := h.pos; omega)]⟩
  | case2 i p j out hge =>
    have := h.count
    exact ⟨p, j, out, rfl, h, by omega, rfl⟩

theorem packLeft_other (bits : Nat → Word16) {j m : Nat} (left k : Nat) (out : Nat → UWord8) (hm : m ≠ j) :
    packLeft bits j left k out m = out m := by
  induction left generalizing k out with
  | zero => rfl
  | succ left ih => rw [packLeft, ih, Function.update_of_ne hm]

theorem packLeft_byte (bits : Nat → Word16) {j : Nat} (left k : Nat) (out : Nat → UWord8) (h : out j = packBits bits k) :
    packLeft bits j left k out j = packBits bits (k + left) := by
  induction left generalizing k out with
  | zero => exact h
  | succ left ih =>
    rw [packLeft, ih (k + 1) _ (by rw [Function.update_self, h]; rfl), Nat.add_assoc, Nat.add_comm 1]

/-- The last byte completes the packed bits. -/
theorem PackedTo.packed {bits : Nat → Word16} {n i j : Nat} {out : Nat → UWord8} (h : PackedTo bits i j out)
    (hi : i = n / 8 * 8) :
    Packed (packLeft (fun k => bits (i + k)) j (n - n / 8 * 8) 0 (Function.update out j 0)) 1 bits n := by
  intro m hm
  have hb := h.count
  have hp := h.pos
  by_cases hj : 1 + m = j
  · subst hj
    rw [packLeft_byte _ _ _ _ (by rw [Function.update_self]; rfl), Nat.zero_add, h.count, Nat.add_sub_cancel_left]
    congr 1
    omega
  · rw [packLeft_other _ _ _ _ hj, Function.update_of_ne hj, h.full m (by omega)]
    congr 1
    omega

/-- The serial word that goes to each packed position. -/
def packedWord (frameType : FrameType) (ets : Nat → Word16) (i : Nat) : Word16 :=
  if frameType.Speech then ets (reorderBits frameType i) else ets i

theorem packedWord_congr {ft : FrameType} {ets ets' : Nat → Word16} (h : ∀ p < maxSerialSize, ets p = ets' p) {i : Nat}
    (hi : i < numOfBits ft) : packedWord ft ets i = packedWord ft ets' i := by
  have hle := numOfBits_le ft
  unfold packedWord
  split
  · rename_i hs
    exact h _ (Nat.lt_of_lt_of_le (Reorder.getD_lt (reorderBitsTab_perm hs) hi) hle)
  · exact h i (by omega)

/-- `ets_to_ietf` writes the header and the packed bits. -/
theorem etsToIetf_spec (ft : FrameType) (ets : Nat → Word16) (out : Nat → UWord8) :
    etsToIetf ft ets out 0 = BitVec.ofNat 8 ft.toNat <<< 3 ∧
      Packed (etsToIetf ft ets out) 1 (packedWord ft ets) (numOfBits ft) := by
  have h0 : ∀ bits : Nat → Word16, PackedTo bits 0 1 (Function.update out 0 (BitVec.ofNat 8 ft.toNat <<< 3)) :=
    fun bits => ⟨rfl, Nat.le_refl _, fun m hm => by omega⟩
  by_cases hs : ft.toNat < FrameType.AMR_SID.toNat
  · obtain ⟨i, j, out', he, hp, hi, hhead⟩ :=
      packSpeech_spec (n := numOfBits ft) (h0 fun i => ets (reorderBits ft i)) (Nat.zero_le _)
    have hword : packedWord ft ets = fun i => ets (reorderBits ft i) := by
      funext i; exact if_pos hs
    simp only [etsToIetf, if_pos hs, he, hword]
    refine ⟨?_, hp.packed hi⟩
    rw [packLeft_other _ _ _ _ (by have := hp.pos; omega), Function.update_of_ne (by have := hp.pos; omega), hhead,
      Function.update_self]
  · obtain ⟨i, j, out', he, hp, hi, hhead⟩ :=
      packPlain_spec (n := numOfBits ft) (i := (numOfBits ft : Int) - 7) (h0 ets) (by omega) (Nat.zero_le _)
    have hword : packedWord ft ets = ets := by
      funext i; exact if_neg hs
    simp only [etsToIetf, if_neg hs, he, hword]
    refine ⟨?_, hp.packed hi⟩
    rw [packLeft_other _ _ _ _ (by have := hp.pos; omega), Function.update_of_ne (by have := hp.pos; omega), hhead,
      Function.update_self]

/-! ## `wmf_to_ets` -/

/-- Serial bit `i` of a packed frame: `(wmf_input_ptr[i>>3] >> ((~i) & 0x7)) & 0x01`. -/
def wmfBit (wmf : Nat → UWord8) (i : Nat) : Word16 := readBit (wmf (i / 8)) (i % 8)

/-- `wmf_to_ets`. -/
def wmfToEts (frameType : FrameType) (wmf : Nat → UWord8) (ets : Nat → Word16) : Nat → Word16 :=
  if frameType.toNat < FrameType.AMR_SID.toNat then
    Reorder.scatter (reorderBits frameType) (wmfBit wmf) (numOfBits frameType) ets
  else Reorder.scatter id (wmfBit wmf) (numOfBits frameType) ets

/-- Each serial word of the decoder's buffer is a bit of the frame: the one that the
encoder packed from that word. -/
theorem wmfToEts_bit (ft : FrameType) {p : Nat} (hp : p < numOfBits ft) :
    ∃ i < numOfBits ft, (∀ wmf buf, wmfToEts ft wmf buf p = wmfBit wmf i) ∧ ∀ ets, packedWord ft ets i = ets p := by
  unfold wmfToEts packedWord
  by_cases hs : ft.toNat < FrameType.AMR_SID.toNat
  · have hperm := reorderBitsTab_perm hs
    obtain ⟨i, hi, rfl⟩ := Reorder.exists_getD hperm hp
    refine ⟨i, hi, ?_, fun _ => if_pos hs⟩
    intro wmf buf
    rw [if_pos hs]
    exact Reorder.scatter_at (fun _ ha _ hb he => Reorder.getD_inj hperm ha hb he) hi buf
  · refine ⟨p, hp, ?_, fun _ => if_neg hs⟩
    intro wmf buf
    have hat : Reorder.scatter id (wmfBit wmf) (numOfBits ft) buf (id p) = wmfBit wmf p :=
      Reorder.scatter_at (fun _ _ _ _ he => he) hp buf
    rw [if_neg hs]
    exact hat

/-- The decoder's buffer holds every serial bit the encoder packed. -/
theorem wmfToEts_etsToIetf (ft : FrameType) {ets : Nat → Word16} (hbits : ∀ p < numOfBits ft, IsBit (ets p))
    {wmf : Nat → UWord8} (hw : Packed wmf 0 (packedWord ft ets) (numOfBits ft)) (buf : Nat → Word16) {p : Nat}
    (hp : p < numOfBits ft) : wmfToEts ft wmf buf p = ets p := by
  have hword : ∀ k < numOfBits ft, IsBit (packedWord ft ets k) := by
    intro k hk
    unfold packedWord
    split
    · rename_i hs
      exact hbits _ (Reorder.getD_lt (reorderBitsTab_perm hs) hk)
    · exact hbits k hk
  obtain ⟨i, hi, hat, hpacked⟩ := wmfToEts_bit ft hp
  have hread := hw.readBit hword hi
  rw [Nat.zero_add] at hread
  rw [hat, wmfBit, hread, hpacked]

/-- The serial words come from the bytes of the frame alone. -/
theorem wmfToEts_congr {ft : FrameType} {wmf wmf' : Nat → UWord8} (h : ∀ i < wmfDecBytesPerFrame ft, wmf i = wmf' i)
    (buf buf' : Nat → Word16) {p : Nat} (hp : p < numOfBits ft) : wmfToEts ft wmf buf p = wmfToEts ft wmf' buf' p := by
  have hbytes := numOfBits_le_wmfDec ft
  obtain ⟨i, hi, hat, -⟩ := wmfToEts_bit ft hp
  rw [hat, hat, wmfBit, wmfBit, h (i / 8) (by omega)]

end AudioRecorder.Codec
