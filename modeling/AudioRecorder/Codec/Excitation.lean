import AudioRecorder.Codec.CodebookPairs
import AudioRecorder.Codec.PitchLag
import AudioRecorder.Codec.Transport
/-!
# The excitation of a frame

For each subframe the encoder writes the index of its lag, the parameters of its code
vector (`cbsearch`) and those of its gains, and `Decoder_amr` reads them in that order.
What the searches compare is a parameter, and so are the gains and the line spectral
frequencies; the code vectors are those before the pitch sharpening.
-/

namespace AudioRecorder.Codec

open Lockstep (Along Tracks)
open Transducer (outputs)

/-! ## The codebook of a mode -/

/-- What a codebook search is given: what `set_sign` or `set_sign12k2` and `cor_h` leave. -/
structure CodeTarget where
  dn : Nat → Word16
  dn2 : Nat → Word16
  rr : Nat → Nat → Word16
  dnSign : Nat → Word16
  cor : Nat → Word16
  junk : Int

/-- The code vector, and the index and the signs as parameters. -/
def Coded.parms (c : Coded) : (Nat → Int) × List Int := (c.cod, [c.index, c.sign])

/-- `cbsearch`: the code vector of subframe `subNr` and its parameters. -/
def cbsearch (mode : Mode) (subNr : Nat) (x : CodeTarget) : (Nat → Int) × List Int :=
  match mode with
  | .MR475 | .MR515 => (buildCode (place9bits subNr) (search2i40_9bits x.dn x.rr subNr).codvec x.dnSign).parms
  | .MR59 => (buildCode place11bits (search2i40_11bits x.dn x.rr).codvec x.dnSign).parms
  | .MR67 => (buildCode place14bits (search3i40 x.dn x.dn2 x.rr).codvec x.dnSign).parms
  | .MR74 | .MR795 => (buildCode place17bits (search4i40 x.dn x.dn2 x.rr).codvec x.dnSign).parms
  | .MR102 => code8i40_31bits x.cor x.dn x.rr x.junk
  | .MR122 | .MRDTX => code10i40_35bits x.cor x.dn x.rr x.junk

/-- The code vector that `Decoder_amr` makes of the parameters. -/
def decodeCode (mode : Mode) (subfrNr : Nat) (parm : List Int) : Nat → Int :=
  let index := (parm.getD 0 0).toNat
  let i := (parm.getD 1 0).toNat
  match mode with
  | .MR475 | .MR515 => decode2i40_9bits subfrNr i index
  | .MR59 => decode2i40_11bits i index
  | .MR67 => decode3i40_14bits i index
  | .MR74 | .MR795 => decode4i40_17bits i index
  | .MR102 => dec8i40_31bits parm
  | .MR122 | .MRDTX => dec10i40_35bits parm

/-- The bits that a frame has for the parameters of a code vector. -/
def codeBits : Mode → List Nat
  | .MR475 | .MR515 => [7, 2]
  | .MR59 => [9, 2]
  | .MR67 => [11, 3]
  | .MR74 | .MR795 => [13, 4]
  | .MR102 => [1, 1, 1, 1, 10, 10, 7]
  | .MR122 | .MRDTX => [4, 4, 4, 4, 4, 3, 3, 3, 3, 3]

/-- A search for two pulses has left the positions 0 and 1 it starts with, which its parameters
cannot name. The other searches start with positions that lie on the tracks. -/
def PulsesMoved (mode : Mode) (subNr : Nat) (x : CodeTarget) : Prop :=
  match mode with
  | .MR475 | .MR515 => (search2i40_9bits x.dn x.rr subNr).codvec ≠ [0, 1]
  | .MR59 => (search2i40_11bits x.dn x.rr).codvec ≠ [0, 1]
  | _ => True

/-- The parameters of a code vector keep to their bits. -/
def FitsBits (parms : List Int) (bits : List Nat) : Prop := List.Forall₂ (fun v n => 0 ≤ v ∧ v < 2 ^ n) parms bits

/-- What is left of a codebook with an index and signs: the round trip of its own decoder. -/
theorem Coded.recovered {mode : Mode} {subNr m n : Nat} (d : Nat → Nat → Nat → Int) (hbits : codeBits mode = [m, n])
    (hdec : ∀ c : Coded, decodeCode mode subNr c.parms.2 = d c.sign c.index) {c : Coded}
    (h : d c.sign c.index = c.cod ∧ c.index < 2 ^ m ∧ c.sign < 2 ^ n) :
    decodeCode mode subNr c.parms.2 = c.parms.1 ∧ FitsBits c.parms.2 (codeBits mode) := by
  obtain ⟨hcod, hindex, hsign⟩ := h
  rw [hdec, hbits]
  refine ⟨hcod, .cons ⟨Int.natCast_nonneg _, ?_⟩ (.cons ⟨Int.natCast_nonneg _, ?_⟩ .nil)⟩
  · exact_mod_cast hindex
  · exact_mod_cast hsign

theorem Coded.recovered_iff {mode : Mode} {subNr : Nat} (d : Nat → Nat → Nat → Int)
    (hdec : ∀ c : Coded, decodeCode mode subNr c.parms.2 = d c.sign c.index) {c : Coded} :
    decodeCode mode subNr c.parms.2 = c.parms.1 ↔ d c.sign c.index = c.cod := by
  rw [hdec]
  rfl

/-- `Decoder_amr` has the code vector of `cbsearch`. -/
theorem decodeCode_cbsearch {mode : Mode} (hmode : mode.Speech) {subNr : Nat} (hsub : subNr < 4) {x : CodeTarget}
    (hmoved : PulsesMoved mode subNr x) :
    decodeCode mode subNr (cbsearch mode subNr x).2 = (cbsearch mode subNr x).1 ∧
      FitsBits (cbsearch mode subNr x).2 (codeBits mode) := by
  cases mode with
  | MR475 | MR515 =>
    exact Coded.recovered (decode2i40_9bits subNr) rfl (fun _ => rfl)
      (decode_buildCode_9bits x.dnSign hsub (search2i40_9bits_mem x.dn x.rr hsub) hmoved)
  | MR59 =>
    exact Coded.recovered decode2i40_11bits rfl (fun _ => rfl)
      (decode_buildCode_11bits x.dnSign (search2i40_11bits_mem x.dn x.rr) hmoved)
  | MR67 =>
    exact Coded.recovered decode3i40_14bits rfl (fun _ => rfl)
      (decode_buildCode_14bits x.dnSign (search3i40_mem x.dn x.dn2 x.rr))
  | MR74 | MR795 =>
    exact Coded.recovered decode4i40_17bits rfl (fun _ => rfl)
      (decode_buildCode_17bits x.dnSign (search4i40_mem x.dn x.dn2 x.rr))
  | MR102 => exact dec8i40_code8i40 x.cor x.dn x.rr x.junk
  | MR122 => exact dec10i40_code10i40 x.cor x.dn x.rr x.junk
  | MRDTX => exact absurd rfl hmode

/-- `Decoder_amr` has the code vector of `cbsearch` exactly when a search for two pulses has
left its first positions, and in the other modes always. -/
theorem code_recovered_iff {mode : Mode} (hmode : mode.Speech) {subNr : Nat} (hsub : subNr < 4) (x : CodeTarget) :
    decodeCode mode subNr (cbsearch mode subNr x).2 = (cbsearch mode subNr x).1 ↔ PulsesMoved mode subNr x := by
  cases mode with
  | MR475 | MR515 =>
    exact (Coded.recovered_iff (decode2i40_9bits subNr) fun _ => rfl).trans
      (decode_buildCode_9bits_iff x.dnSign hsub (search2i40_9bits_mem x.dn x.rr hsub))
  | MR59 =>
    exact (Coded.recovered_iff decode2i40_11bits fun _ => rfl).trans
      (decode_buildCode_11bits_iff x.dnSign (search2i40_11bits_mem x.dn x.rr))
  | MR67 | MR74 | MR795 | MR102 | MR122 =>
    exact iff_of_true (decodeCode_cbsearch hmode hsub (x := x) True.intro).1 True.intro
  | MRDTX => exact absurd rfl hmode

/-- Where every energy rounds to nothing, the searches for two and for three pulses both end
where they started. The three pulses are decoded to those, the two are not. -/
theorem code_recovered_iff_zero :
    let x : CodeTarget := ⟨fun _ => 0, fun _ => 0, fun _ _ => 0, fun _ => 32767, fun _ => 0, 0⟩
    ((search2i40_11bits x.dn x.rr).codvec = [0, 1] ∧ decodeCode .MR59 0 (cbsearch .MR59 0 x).2 ≠ (cbsearch .MR59 0 x).1) ∧
      (search3i40 x.dn x.dn2 x.rr).codvec = [0, 1, 2] ∧ decodeCode .MR67 0 (cbsearch .MR67 0 x).2 = (cbsearch .MR67 0 x).1 := by
  intro x
  have htwo : (search2i40_11bits x.dn x.rr).codvec = [0, 1] := by decide +kernel
  have hthree : (search3i40 x.dn x.dn2 x.rr).codvec = [0, 1, 2] := by decide +kernel
  have hsub : 0 < 4 := by decide
  refine ⟨⟨htwo, fun hcod => ?_⟩, hthree, (code_recovered_iff (show Mode.MR67.Speech by decide) hsub x).2 trivial⟩
  exact (code_recovered_iff (show Mode.MR59.Speech by decide) hsub x).1 hcod htwo

/-! ## The parameters of a subframe -/

/-- What the encoder's loop computes for a subframe before it searches. -/
structure SubframeSearch where
  normCorr : Int → Int → Int → Word16
  target : CodeTarget
  gainPitch : Word16
  gain : Nat → Word16

/-- The parameters before those of the code vector: the lag and, for `MR122`, the gain of the pitch. -/
def codeStart (mode : Mode) : Nat := if mode = .MR122 then 2 else 1

/-- The parameters of subframe `i`, in the order in which the loop of `cod_amr` writes them. -/
def subframeWords (mode : Mode) (i : Nat) (index : Int) (code : List Int) (sub : SubframeSearch) : List Word16 :=
  BitVec.ofInt 16 index :: ((if mode = .MR122 then [sub.gainPitch] else []) ++ code.map (BitVec.ofInt 16) ++
    (List.range (gainParams mode i)).map sub.gain)

/-- A subframe of the encoder: what it writes, and the lag and the code vector it goes on with. -/
def encodeSubframe (mode : Mode) (tOp : Fin 2 → Int) (t0Prev : Int) (sub : Nat × SubframeSearch) :
    Int × (Nat × List Word16) × (Int × Int) × (Nat → Int) :=
  let p := pitchFr mode t0Prev tOp sub.2.normCorr (lSubfr * sub.1)
  let c := cbsearch mode sub.1 sub.2.target
  (p.lag, (sub.1, subframeWords mode sub.1 p.index c.2 sub.2), (p.lag, p.frac), c.1)

/-- A subframe of `Decoder_amr`, of the parameters from `parm` on. -/
def decodeSubframe (mode : Mode) (c : LagConditions) (st : LagState) (sub : Nat × List Word16) :
    LagState × (Int × Int) × (Nat → Int) :=
  let parm := fun k => (sub.2.getD k 0).toInt
  let (st, lag) := decodeLag mode c st (lSubfr * sub.1) (parm 0)
  (st, lag, decodeCode mode sub.1 ((List.range (codeBits mode).length).map fun k => parm (codeStart mode + k)))

/-- The parameters of a frame: the line spectral frequencies, then the subframes. -/
def anaParams (mode : Mode) (lsf : Nat → Word16) (subs : List (List Word16)) : Nat → Word16 :=
  fun k => ((List.range (lsfParams mode)).map lsf ++ subs.flatten).getD k 0

theorem toInt_ofInt {v : Int} {n : Nat} (hn : n ≤ 15) (h : 0 ≤ v ∧ v < 2 ^ n) :
    (BitVec.ofInt 16 v).toInt = v ∧ (BitVec.ofInt 16 v).toNat < 2 ^ n := by
  have hpow : (2 : Int) ^ n ≤ 2 ^ 15 := by exact_mod_cast Nat.pow_le_pow_right (by decide) hn
  obtain ⟨m, rfl⟩ := Int.eq_ofNat_of_zero_le h.1
  have hm : m < 2 ^ n := by exact_mod_cast h.2
  have hm' : m < 2 ^ 15 := by omega
  have hnat : BitVec.ofInt 16 (m : Int) = BitVec.ofNat 16 m := by simp
  rw [hnat, BitVec.toInt_ofNat', BitVec.toNat_ofNat, Nat.mod_eq_of_lt (by omega)]
  exact ⟨by simp [Int.bmod]; omega, hm⟩

theorem truncBits_ofInt {v : Int} {n : Nat} (hn : n ≤ 15) (h : 0 ≤ v ∧ v < 2 ^ n) :
    (truncBits n (BitVec.ofInt 16 v)).toInt = v := by
  obtain ⟨hint, hnat⟩ := toInt_ofInt hn h
  rw [truncBits_eq hnat, hint]

/-- `bitno` has the lag and the code vector of each subframe where `Decoder_amr` reads them. -/
theorem bitno_subframe {mode : Mode} (hmode : mode.Speech) : ∀ k < 4,
    (bitno mode).getD (subframeStart mode k) 0 = lagBits mode (lSubfr * k) ∧ lagBits mode (lSubfr * k) ≤ 15 ∧
      codeStart mode + (codeBits mode).length + gainParams mode k = subframeParams mode k ∧
      ∀ j < (codeBits mode).length, (bitno mode).getD (subframeStart mode k + (codeStart mode + j)) 0 = (codeBits mode).getD j 0 ∧
        (codeBits mode).getD j 0 ≤ 15 := by
  cases mode <;> first | decide +kernel | exact absurd rfl hmode

theorem subframeWords_code {mode : Mode} {i : Nat} {index : Int} {code : List Int} (sub : SubframeSearch) {j : Nat}
    (hj : j < code.length) :
    (subframeWords mode i index code sub).getD (codeStart mode + j) 0 = BitVec.ofInt 16 (code.getD j 0) := by
  have hget : ∀ rest : List Word16, (code.map (BitVec.ofInt 16) ++ rest).getD j 0 = BitVec.ofInt 16 (code.getD j 0) := by
    intro rest
    rw [List.getD_append _ _ _ _ (by simpa using hj), List.getD_eq_getElem _ _ (by simpa using hj), List.getElem_map,
      List.getD_eq_getElem _ _ hj]
  unfold subframeWords codeStart
  split
  · rw [Nat.add_comm, List.getD_cons_succ, List.append_assoc, List.singleton_append, List.getD_cons_succ, hget]
  · rw [Nat.add_comm, List.getD_cons_succ, List.nil_append, hget]

/-- A subframe whose parameters came through their bits is decoded as if they had not been in them. -/
theorem decodeSubframe_read {mode : Mode} (hmode : mode.Speech) {k : Nat} (hk : k < 4) {index : Int} {code : List Int}
    (sub : SubframeSearch) (hindex : 0 ≤ index ∧ index < 2 ^ lagBits mode (lSubfr * k)) (hcode : FitsBits code (codeBits mode))
    {parm : List Word16} (hparm : ∀ j < subframeParams mode k, parm.getD j 0 =
      truncBits ((bitno mode).getD (subframeStart mode k + j) 0) ((subframeWords mode k index code sub).getD j 0))
    (c : LagConditions) (st : LagState) :
    decodeSubframe mode c st (k, parm) =
      ((decodeLag mode c st (lSubfr * k) index).1, (decodeLag mode c st (lSubfr * k) index).2, decodeCode mode k code) := by
  obtain ⟨hlag, hlag15, hlen, hbits⟩ := bitno_subframe hmode k hk
  have hstart : 0 < codeStart mode := by
    unfold codeStart
    split <;> decide
  have hfirst : (parm.getD 0 0).toInt = index := by
    rw [hparm 0 (by omega), Nat.add_zero, hlag]
    exact truncBits_ofInt hlag15 hindex
  have hlength : code.length = (codeBits mode).length := hcode.length_eq
  have hrest : ((List.range (codeBits mode).length).map fun j => (parm.getD (codeStart mode + j) 0).toInt) = code := by
    rw [eq_map_getD 0 hlength]
    refine List.map_congr_left fun j hj => ?_
    rw [List.mem_range] at hj
    have hfits := (List.forall₂_iff_get.1 hcode).2 j (hlength ▸ hj) hj
    obtain ⟨hbit, hbit15⟩ := hbits j hj
    rw [hparm _ (by omega), hbit, subframeWords_code sub (hlength ▸ hj)]
    refine truncBits_ofInt hbit15 ?_
    rw [List.getD_eq_getElem _ _ (hlength ▸ hj), List.getD_eq_getElem _ _ hj]
    exact hfits
  unfold decodeSubframe
  simp only [hfirst, hrest]

/-! ## The frame -/

theorem cbsearch_length (mode : Mode) (subNr : Nat) (x : CodeTarget) :
    (cbsearch mode subNr x).2.length = (codeBits mode).length := by
  cases mode <;> rfl

theorem encodeSubframe_length {mode : Mode} (hmode : mode.Speech) (tOp : Fin 2 → Int) (t0Prev : Int)
    (sub : Nat × SubframeSearch) (hk : sub.1 < 4) :
    (encodeSubframe mode tOp t0Prev sub).2.1.2.length = subframeParams mode sub.1 := by
  obtain ⟨-, -, hlen, -⟩ := bitno_subframe hmode sub.1 hk
  rw [← hlen]
  unfold encodeSubframe subframeWords codeStart
  simp only [List.length_cons, List.length_append, List.length_map, List.length_range, cbsearch_length]
  split
  · rw [List.length_singleton]
    omega
  · rw [List.length_nil]
    omega

section Frame
variable {mode : Mode} (hmode : mode.Speech) (tOp : Fin 2 → Int)

/-- The parameters `prm` have what the encoder writes for a subframe, at its place. -/
def Placed (mode : Mode) (tOp : Fin 2 → Int) (prm : Nat → Word16) (t0Prev : Int) (sub : Nat × SubframeSearch) : Prop :=
  (sub.1 < 4 ∧ PulsesMoved mode sub.1 sub.2.target) ∧ ∀ j < subframeParams mode sub.1,
    prm (subframeStart mode sub.1 + j) = (encodeSubframe mode tOp t0Prev sub).2.1.2.getD j 0

include hmode

/-- Each subframe writes behind the ones before it. -/
theorem along_placed (subs : Nat → SubframeSearch) (n : Nat) :
    ∀ (k : Nat) (t0Prev : Int) (before : List Word16), before.length = subframeStart mode k →
      (∀ i, k ≤ i → i < k + n → i < 4 ∧ PulsesMoved mode i (subs i).target) →
      let xs := (List.range' k n).map fun i => (i, subs i)
      Along (encodeSubframe mode tOp) (Placed mode tOp fun p =>
        (before ++ ((outputs (encodeSubframe mode tOp) t0Prev xs).map fun y => y.1.2).flatten).getD p 0) t0Prev xs := by
  induction n with
  | zero => intros; trivial
  | succ n ih =>
    intro k t0Prev before hbefore hsubs
    obtain ⟨hk, hmoved⟩ := hsubs k (Nat.le_refl k) (by omega)
    have hlen := encodeSubframe_length hmode tOp t0Prev (k, subs k) hk
    have hnext : (before ++ (encodeSubframe mode tOp t0Prev (k, subs k)).2.1.2).length = subframeStart mode (k + 1) := by
      rw [List.length_append, hbefore, hlen, subframeStart]
    have htail := ih (k + 1) (encodeSubframe mode tOp t0Prev (k, subs k)).1 _ hnext fun i hki hi => hsubs i (by omega) (by omega)
    simp only [List.range'_succ, List.map_cons, outputs, List.flatten_cons]
    refine ⟨⟨⟨hk, hmoved⟩, fun j hj => ?_⟩, by simpa only [List.append_assoc] using htail⟩
    dsimp only
    rw [List.getD_append_right _ _ _ _ (hbefore ▸ Nat.le_add_right _ _), hbefore, Nat.add_sub_cancel_left,
      List.getD_append _ _ _ _ (hlen ▸ hj)]

/-- `Decoder_amr` decodes what the encoder placed, when the lag before does not matter or is the encoder's. -/
theorem decodeSubframe_placed {c : LagConditions} (hc : c.bfi = false) {prm parm : Nat → Word16}
    (hparm : ∀ k < prmno mode, parm k = truncBits ((bitno mode).getD k 0) (prm k)) {t0Prev : Int}
    {sub : Nat × SubframeSearch} (hplaced : Placed mode tOp prm t0Prev sub) (st : LagState)
    (hst : deltaSearch mode (lSubfr * sub.1) = true → st = ⟨t0Prev, t0Prev⟩) :
    let e := encodeSubframe mode tOp t0Prev sub
    decodeSubframe mode c st (sub.1, paramsAt parm (subframeStart mode sub.1) (subframeParams mode sub.1)) =
      (⟨e.1, e.1⟩, e.2.2) := by
  obtain ⟨⟨hk, hmoved⟩, hplace⟩ := hplaced
  obtain ⟨hlag, hindex⟩ := decodeLag_pitchFr t0Prev tOp sub.2.normCorr (lSubfr * sub.1) hmode hc st hst
  obtain ⟨hcod, hfits⟩ := decodeCode_cbsearch hmode hk hmoved
  intro e
  have hread : ∀ j < subframeParams mode sub.1,
      (paramsAt parm (subframeStart mode sub.1) (subframeParams mode sub.1)).getD j 0 =
        truncBits ((bitno mode).getD (subframeStart mode sub.1 + j) 0) (e.2.1.2.getD j 0) := by
    intro j hj
    have hlt : subframeStart mode sub.1 + j < prmno mode := by
      have hle := subframeStart_le hmode (i := sub.1 + 1) hk
      rw [subframeStart] at hle
      omega
    have hat : (paramsAt parm (subframeStart mode sub.1) (subframeParams mode sub.1)).getD j 0 =
        parm (subframeStart mode sub.1 + j) := by
      rw [paramsAt, List.getD_eq_getElem _ _ (by simpa using hj), List.getElem_map, List.getElem_range]
    rw [hat, hparm _ hlt, hplace j hj]
  rw [decodeSubframe_read hmode hk sub.2 hindex hfits hread c st, hlag, hcod]
  rfl

/-- The excitation of a frame survives its bits: `Decoder_amr`, from any state, has the lags and
the code vectors of the encoder. -/
theorem excitation_recovered (t0Prev : Int) (lsf : Nat → Word16) (subs : Nat → SubframeSearch)
    (hmoved : ∀ k < 4, PulsesMoved mode k (subs k).target) {c : LagConditions} (hc : c.bfi = false) (st : LagState)
    (bits junk : Nat → Word16) :
    let sent := outputs (encodeSubframe mode tOp) t0Prev ((List.range 4).map fun k => (k, subs k))
    let parm := bits2prm mode (prm2bits mode (anaParams mode lsf (sent.map fun y => y.1.2)) bits) junk
    outputs (fun st k => decodeSubframe mode c st (k, paramsAt parm (subframeStart mode k) (subframeParams mode k))) st
      (List.range 4) = sent.map Prod.snd := by
  intro sent parm
  have halong := along_placed hmode tOp subs 4 0 t0Prev ((List.range (lsfParams mode)).map lsf) (by simp [subframeStart])
    fun i _ hi => ⟨by omega, hmoved i (by omega)⟩
  rw [← List.range_eq_range'] at halong
  have hparm : ∀ k < prmno mode, parm k =
      truncBits ((bitno mode).getD k 0) (anaParams mode lsf (sent.map fun y => y.1.2) k) :=
    fun k hk => bits2prm_prm2bits mode _ bits junk hk
  have htracks : Tracks (Placed mode tOp (anaParams mode lsf (sent.map fun y => y.1.2)))
      (fun t0Prev st => st = ⟨t0Prev, t0Prev⟩) (encodeSubframe mode tOp)
      (fun st m => decodeSubframe mode c st (m.1, paramsAt parm (subframeStart mode m.1) (subframeParams mode m.1))) := by
    intro prev st sub hplaced hst
    have hdec := decodeSubframe_placed hmode tOp hc hparm hplaced st (fun _ => hst)
    exact ⟨congrArg Prod.fst hdec, congrArg Prod.snd hdec⟩
  have hmsgs : (sent.map Prod.fst).map Prod.fst = List.range 4 := rfl
  rw [← hmsgs, Transducer.outputs_map]
  obtain ⟨hfirst, hrest⟩ := halong
  have hdec := decodeSubframe_placed hmode tOp hc hparm hfirst st (by simp [deltaSearch, lFrameBy2])
  exact htracks.outputs_cons (congrArg Prod.fst hdec) (congrArg Prod.snd hdec) hrest

end Frame

/-- A frame of `MR67` whose searches find no correlation. -/
theorem excitation_recovered_flat :
    let sub : SubframeSearch := ⟨fun _ _ _ => 0, ⟨fun _ => 0, fun _ => 0, fun _ _ => 0, fun _ => 32767, fun _ => 0, 0⟩, 0, fun _ => 5⟩
    let sent := outputs (encodeSubframe .MR67 fun _ => 40) 60 ((List.range 4).map fun k => (k, sub))
    let parm := bits2prm .MR67 (prm2bits .MR67 (anaParams .MR67 (fun _ => 3) (sent.map fun y => y.1.2)) fun _ => 0) fun _ => 9
    outputs (fun st k => decodeSubframe .MR67 ⟨false, false, 0⟩ st
      (k, paramsAt parm (subframeStart .MR67 k) (subframeParams .MR67 k))) ⟨99, 20⟩ (List.range 4) = sent.map Prod.snd := by
  intro sub sent parm
  exact excitation_recovered (show Mode.MR67.Speech by decide) _ 60 (fun _ => 3) (fun _ => sub) (fun _ _ => trivial) rfl ⟨99, 20⟩ _ _

end AudioRecorder.Codec
