import AudioRecorder.Codec.FrameDecode
import AudioRecorder.Codec.RoundTrip
/-!
# Parameters through the channel

`Prm2bits` spreads each parameter of a frame over serial bits, as many as the mode
has for it, and `Bits2prm` collects them again. A parameter comes back with the bits
its mode sends (`bits2prm_prm2bits`), and so does every parameter of a speech frame
or a SID update that is packed, sent and unpacked (`params_recovered`).
-/

namespace AudioRecorder.Codec

variable {core : SpeechCore}

/-- A parameter as `n` bits carry it. -/
def truncBits (n : Nat) (value : Word16) : Word16 := (value.setWidth n).setWidth 16

theorem truncBits_eq {n : Nat} {value : Word16} (h : value.toNat < 2 ^ n) : truncBits n value = value := by
  unfold truncBits
  apply BitVec.eq_of_toNat_eq
  rw [BitVec.toNat_setWidth, BitVec.toNat_setWidth, Nat.mod_eq_of_lt h, Nat.mod_eq_of_lt value.isLt]

theorem and_one_eq (value : Word16) : value &&& 1 = if value.getLsbD 0 then 1 else 0 := by
  apply BitVec.eq_of_getLsbD_eq
  intro i hi
  rw [BitVec.getLsbD_and]
  cases i with
  | zero => cases value.getLsbD 0 <;> simp
  | succ i => cases value.getLsbD 0 <;> simp

/-- `Int2bin` puts the bits of the value in place, the lowest last. -/
theorem int2bin_at (value : Word16) {n off k : Nat} (hn : n ≤ 16) (hk : k < n) (bits : Nat → Word16) :
    int2bin value n off bits (off + k) = if value.getLsbD (n - 1 - k) then 1 else 0 := by
  induction n generalizing value bits with
  | zero => omega
  | succ n ih =>
    rw [int2bin]
    by_cases hkn : k = n
    · subst hkn
      rw [int2bin_other _ _ (by omega), Function.update_self, and_one_eq, Nat.add_sub_cancel, Nat.sub_self]
    · have hpos : 1 + (n - 1 - k) = n + 1 - 1 - k := by omega
      have hbit : (value.sshiftRight 1).getLsbD (n - 1 - k) = value.getLsbD (n + 1 - 1 - k) := by
        rw [BitVec.getLsbD_sshiftRight, hpos, if_pos (by omega)]
        simp [show ¬ 16 ≤ n - 1 - k by omega]
      rw [ih _ (by omega) (by omega), hbit]

/-- `Bin2int` collects them again. -/
theorem bin2int_at {value : Word16} {bits : Nat → Word16} {n off : Nat}
    (h : ∀ k < n, bits (off + k) = if value.getLsbD (n - 1 - k) then 1 else 0) :
    bin2int bits off n = truncBits n value := by
  -- the first `m` bits read are the highest `m` of the `n`
  have hhigh : ∀ m ≤ n, ∀ i < 16, (bin2int bits off m).getLsbD i = (decide (i < m) && value.getLsbD (n - m + i)) := by
    intro m
    induction m with
    | zero => simp [bin2int]
    | succ m ih =>
      intro hm i hi
      rw [bin2int, BitVec.getLsbD_or, BitVec.getLsbD_shiftLeft, h m (by omega)]
      cases i with
      | zero =>
        have hpos : n - 1 - m = n - (m + 1) := by omega
        rw [hpos]
        cases value.getLsbD (n - (m + 1)) <;> simp
      | succ i =>
        have hpos : n - (m + 1) + (i + 1) = n - m + i := by omega
        rw [hpos, Nat.add_sub_cancel, ih (by omega) i (by omega)]
        cases value.getLsbD (n - 1 - m) <;> simp [hi]
  apply BitVec.eq_of_getLsbD_eq
  intro i hi
  rw [hhigh n (Nat.le_refl n) i hi, truncBits, BitVec.getLsbD_setWidth, BitVec.getLsbD_setWidth, Nat.sub_self, Nat.zero_add]
  simp [hi]

/-! ## The parameters of a mode -/

theorem prm2bitsLoop_before (prm : Nat → Word16) (ns : List Nat) {i off p : Nat} (bits : Nat → Word16) (hp : p < off) :
    prm2bitsLoop prm ns i off bits p = bits p := by
  induction ns generalizing i off bits with
  | nil => rfl
  | cons n ns ih => rw [prm2bitsLoop, ih _ (by omega), int2bin_other _ _ (.inl hp)]

/-- The bits of each parameter are where the widths before it put them. -/
theorem prm2bitsLoop_at (prm : Nat → Word16) {ns : List Nat} (hns : ∀ n ∈ ns, n ≤ 16) (i off : Nat)
    {j : Nat} (hj : j < ns.length) (bits : Nat → Word16) :
    ∀ t < ns[j], prm2bitsLoop prm ns i off bits (off + (ns.take j).sum + t) =
      if (prm (i + j)).getLsbD (ns[j] - 1 - t) then 1 else 0 := by
  induction ns generalizing i off j bits with
  | nil => simp at hj
  | cons n ns ih =>
    intro t ht
    rw [prm2bitsLoop]
    cases j with
    | zero =>
      rw [List.getElem_cons_zero] at ht ⊢
      simp only [List.take_zero, List.sum_nil, Nat.add_zero]
      rw [prm2bitsLoop_before _ _ _ (by omega), int2bin_at _ (hns n (by simp)) ht]
    | succ j =>
      have hj' : j < ns.length := by simpa using hj
      rw [List.getElem_cons_succ] at ht ⊢
      rw [List.take_succ_cons, List.sum_cons, ← Nat.add_assoc off]
      have hat := ih (fun m hm => hns m (by simp [hm])) (i + 1) (off + n) hj' (int2bin (prm i) n off bits) t ht
      rw [hat, Nat.add_assoc i, Nat.add_comm 1]

theorem bits2prmLoop_before (bits : Nat → Word16) (ns : List Nat) {i off k : Nat} (prm : Nat → Word16) (hk : k < i) :
    bits2prmLoop bits ns i off prm k = prm k := by
  induction ns generalizing i off prm with
  | nil => rfl
  | cons n ns ih => rw [bits2prmLoop, ih _ (by omega), Function.update_of_ne (by omega)]

theorem bits2prmLoop_at (bits : Nat → Word16) {ns : List Nat} (i off : Nat) {j : Nat} (hj : j < ns.length)
    (prm : Nat → Word16) :
    bits2prmLoop bits ns i off prm (i + j) = bin2int bits (off + (ns.take j).sum) ns[j] := by
  induction ns generalizing i off j prm with
  | nil => simp at hj
  | cons n ns ih =>
    rw [bits2prmLoop]
    cases j with
    | zero =>
      rw [bits2prmLoop_before _ _ _ (by omega)]
      exact Function.update_self ..
    | succ j =>
      have hj' : j < ns.length := by simpa using hj
      have hat := ih (i + 1) (off + n) hj' (Function.update prm i (bin2int bits off n))
      rw [Nat.add_assoc i, Nat.add_comm 1] at hat
      rw [hat, List.getElem_cons_succ, List.take_succ_cons, List.sum_cons, ← Nat.add_assoc off]

theorem bitno_le (mode : Mode) : ∀ n ∈ bitno mode, n ≤ 16 := by
  cases mode <;> decide

/-- Each parameter comes back with as many bits as its mode sends. -/
theorem bits2prm_prm2bits (mode : Mode) (prm bits prm' : Nat → Word16) {k : Nat} (hk : k < prmno mode) :
    bits2prm mode (prm2bits mode prm bits) prm' k = truncBits ((bitno mode).getD k 0) (prm k) := by
  have hat := bits2prmLoop_at (prm2bits mode prm bits) 0 0 hk prm'
  have hbits := prm2bitsLoop_at prm (bitno_le mode) 0 0 hk bits
  simp only [Nat.zero_add] at hat hbits
  rw [bits2prm, hat, List.getD_eq_getElem _ _ hk]
  exact bin2int_at hbits

/-! ## The parameters of a frame -/

/-- The parameters that the encoder computed. -/
def EncCall.params (c : EncCall core) : Nat → Word16 :=
  (codAmr c.st.cod c.mode (core.preProcess c.st.pre (c.input.map fun x => x &&& 0xfff8)).2).2.1

theorem EncCall.serial_eq (c : EncCall core) :
    ∃ bits, c.frame.serial = prm2bits c.frame.usedMode c.params bits := ⟨_, rfl⟩

/-- The decoder reads the parameters that the encoder wrote, each as its bits carry it. -/
theorem EncCall.params_recovered (c : EncCall core) {prev : Mode} {call : FrameCall} (h : c.Sends prev call)
    (parm : Nat → Word16) :
    ∀ k < paramsRead call.mode call.rxType, bits2prm (prmMode call.mode call.rxType) call.serial parm k =
      truncBits ((bitno c.frame.usedMode).getD k 0) (c.params k) := by
  intro k hk
  obtain ⟨bits, hserial⟩ := c.serial_eq
  have hgood : c.txFrameType = .TX_SPEECH_GOOD ↔ c.frame.usedMode ≠ .MRDTX := sidSync_speech ..
  have hused : c.frame.usedMode = c.mode ∨ c.frame.usedMode = .MRDTX := gsmEncodeFrame_mode ..
  have hback : ∀ {mode : Mode}, c.frame.usedMode = mode → (∀ p < (bitno mode).sum, call.serial p = c.frame.serial p) →
      k < prmno mode → bits2prm mode call.serial parm k = truncBits ((bitno c.frame.usedMode).getD k 0) (c.params k) := by
    rintro mode rfl hser hlt
    rw [bits2prm_congr hser parm parm k hlt, hserial, bits2prm_prm2bits _ _ _ _ hlt]
  unfold EncCall.Sends at h
  cases htx : c.txFrameType with
  | TX_SPEECH_GOOD =>
    rw [htx] at h
    obtain ⟨hrx, hmode, hser⟩ := h
    have hne : c.mode ≠ .MRDTX := (hused.resolve_right (hgood.1 htx)) ▸ hgood.1 htx
    have hser' : ∀ p < (bitno c.mode).sum, call.serial p = c.frame.serial p := by rwa [bitno_sum, if_neg hne]
    rw [hrx, hmode] at hk ⊢
    exact hback (hused.resolve_right (hgood.1 htx)) hser' hk
  | TX_SID_UPDATE =>
    rw [htx] at h
    obtain ⟨hrx, -, hser⟩ := h
    have hdtx : c.frame.usedMode = .MRDTX := by
      by_contra hne
      have := hgood.2 hne
      rw [htx] at this
      cases this
    rw [hrx] at hk ⊢
    exact hback hdtx hser hk
  | TX_SID_FIRST =>
    rw [htx] at h
    rw [h.1] at hk
    exact absurd hk (Nat.not_lt_zero k)
  | TX_NO_DATA =>
    rw [htx] at h
    rw [h.1] at hk
    exact absurd hk (Nat.not_lt_zero k)

/-- In every run the decoder reads the parameters that the encoder wrote, whatever it
had decoded before and its local arrays held. -/
theorem params_transported (core : SpeechCore) (dtx : Int) (rs : List Request) (hm : ∀ r ∈ rs, r.mode.Speech)
    (junk : Nat → Nat → Word16) (prev : Mode) :
    let cs := encCalls (EncState.init core dtx) rs
    List.Forall₂ (fun c d => ∃ call, d.call = some call ∧
        ∀ parm, ∀ k < paramsRead call.mode call.rxType, bits2prm (prmMode call.mode call.rxType) call.serial parm k =
          truncBits ((bitno c.frame.usedMode).getD k 0) (c.params k))
      cs (decodeAll junk prev (cs.map fun c => c.result.block)) := by
  intro cs
  have hspeech : ∀ c ∈ cs, c.mode.Speech := fun c hc => hm _ (mem_encCalls hc)
  clear_value cs
  induction cs generalizing prev junk with
  | nil => exact .nil
  | cons c cs ih =>
    obtain ⟨call, hcall, hsends, -⟩ := c.recovered (hspeech c (by simp)) prev (junk 0)
    exact .cons ⟨call, hcall, fun parm => c.params_recovered hsends parm⟩ (ih _ _ fun d hd => hspeech d (by simp [hd]))

/-- Two frames with DTX, of different modes. -/
theorem params_transported_two :
    let cs := encCalls (EncState.init silentCore 1)
      [⟨.MR122, [5, 9], fun _ => 0xFF, fun _ => 7⟩, ⟨.MR475, [1], fun _ => 3, fun _ => 2⟩]
    List.Forall₂ (fun c d => ∃ call, d.call = some call ∧
        ∀ parm, ∀ k < paramsRead call.mode call.rxType, bits2prm (prmMode call.mode call.rxType) call.serial parm k =
          truncBits ((bitno c.frame.usedMode).getD k 0) (c.params k))
      cs (decodeAll (fun _ _ => 1) .MR475 (cs.map fun c => c.result.block)) :=
  params_transported silentCore 1 _ (by simp [Mode.Speech]) (fun _ _ => 1) .MR475

end AudioRecorder.Codec
