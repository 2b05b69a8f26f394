import AudioRecorder.Codec.CodebookPairs
import AudioRecorder.Codec.Params
import AudioRecorder.Lib.Lockstep
/-!
# Line spectral frequencies

The encoder predicts the frequencies of a frame from the residual of the frame
before, and sends the rows of the codebooks closest to what remains (`Q_plsf_3`, for
`MR122` `Q_plsf_5`, and `Q_plsf_3` with a prediction of its own for the comfort noise).
The decoder adds the rows to its own prediction (`D_plsf_3`, `D_plsf_5`,
`Init_D_plsf_3`). The sums wrap in the encoder and saturate in the decoder. A pause
clears both predictions (`lsp_reset`, `Decoder_amr_reset`). The frequencies that are
quantised and their weights (`Lsp_lsf`, `Lsf_wt`) are inputs, and so are the codebooks.
-/

namespace AudioRecorder.Codec

open Transducer (outputs)

/-! ## Tables -/

/-- `mean_lsf_3`. -/
def meanLsf3 (i : Nat) : Word16 := [1546, 2272, 3778, 5488, 6972, 8382, 10047, 11229, 12766, 13714].getD i 0

/-- `pred_fac_3`. -/
def predFac3 (i : Nat) : Word16 := [9556, 10769, 12571, 13292, 14381, 11651, 10588, 9767, 8593, 6484].getD i 0

/-- `mean_lsf_5`. -/
def meanLsf5 (i : Nat) : Word16 := [1384, 2077, 3420, 5108, 6742, 8122, 9863, 11092, 12714, 13701].getD i 0

/-- `LSP_PRED_FAC_MR122`. -/
def lspPredFacMr122 : Word16 := 21299

/-- `past_rq_init`. -/
def pastRqInitTab : List Word16 :=
  [-258, -318, -439, -634, -656, -773, -711, -502, -268, -193, -2, 125, 122, -39, -9, 105, 129, 283, 372, 575,
    -277, -324, -197, -487, -445, -362, -292, -27, 177, 543, 342, 517, 516, 130, 27, -104, -120, -140, -74, -56,
    -564, -943, -1520, -965, -814, -526, -322, -2, 159, 657, -312, -284, -386, -597, -493, -526, -418, -229, 105, 449,
    -557, -870, -1075, -919, -950, -752, -709, -316, 62, 486, -314, -191, -203, -330, -160, -103, -51, 131, 338, 515]

/-- Row `index` of `past_rq_init`. -/
def pastRqInit (index i : Nat) : Word16 := pastRqInitTab.getD (index * orderM + i) 0

/-- An entry of a codebook. -/
def Residual (x : Word16) : Prop := -3149 ≤ x.toInt ∧ x.toInt ≤ 3149

/-- A codebook, its rows one after the other. -/
structure Dico where
  entry : Nat → Word16
  residual : ∀ k, Residual (entry k)

/-- The codebooks of `q_plsf_3_tbl.cpp` and `q_plsf_5_tbl.cpp`. -/
structure LsfTables where
  dico1Lsf3 : Dico
  dico2Lsf3 : Dico
  dico3Lsf3 : Dico
  mr515Lsf3 : Dico
  mr795Lsf1 : Dico
  dico1Lsf5 : Dico
  dico2Lsf5 : Dico
  dico3Lsf5 : Dico
  dico4Lsf5 : Dico
  dico5Lsf5 : Dico

/-! ## Arithmetic -/

/-- `mult`. -/
def mult (a b : Word16) : Word16 := if ((mul16 a b).sshiftRight 15).toInt > 0x7fff then max16 else narrow (mul16 a b) 15

/-- `sub`. -/
def subSat (a b : Word16) : Word16 :=
  if a.toInt - b.toInt > 32767 then max16 else if a.toInt - b.toInt < -32768 then min16 else a - b

/-- `LSF_GAP`. -/
def lsfGap : Word16 := 205

def reorderLoop (minDist : Word16) : Word16 → List Word16 → List Word16
  | _, [] => []
  | lsfMin, x :: xs =>
    if BitVec.slt x lsfMin then lsfMin :: reorderLoop minDist (lsfMin + minDist) xs
    else x :: reorderLoop minDist (x + minDist) xs

/-- `Reorder_lsf`. -/
def reorderLsf (lsf : List Word16) (minDist : Word16) : List Word16 := reorderLoop minDist minDist lsf

/-- The `M` frequencies `lsf`, in order. -/
def ordered (lsf : Nat → Word16) : List Word16 := reorderLsf ((List.range orderM).map lsf) lsfGap

/-! ## The searches -/

/-- The first of `size` rows with the least distance, unless none is below `MAX_32`. -/
def vqSearch (size : Nat) (dist : Nat → Word32) : Nat :=
  ((List.range size).foldl (fun best i => if BitVec.slt (dist i) best.2 then (i, dist i) else best) (0, max32)).1

/-- The weighted distance of `n` frequencies to a row. -/
def vqDist (n : Nat) (lsfR1 wf1 row : Nat → Word16) : Word32 :=
  (List.range n).foldl (fun dist k =>
    let temp := narrow (mul16 (wf1 k) (lsfR1 k - row k)) 15
    dist + mul16 temp temp) 0

/-- `Vq_subvec4`: the index, and the row it leaves in `lsf_r1`. -/
def vqSubvec4 (lsfR1 : Nat → Word16) (dico : Dico) (wf1 : Nat → Word16) (dicoSize : Nat) : Nat × (Nat → Word16) :=
  let row := fun index k => dico.entry (4 * index + k)
  let index := vqSearch dicoSize fun i => vqDist 4 lsfR1 wf1 (row i)
  (index, row index)

/-- `Vq_subvec3`: likewise, of every second row with `use_half`. -/
def vqSubvec3 (lsfR1 : Nat → Word16) (dico : Dico) (wf1 : Nat → Word16) (dicoSize : Nat) (useHalf : Bool) :
    Nat × (Nat → Word16) :=
  let row := fun index k => dico.entry ((if useHalf then 6 else 3) * index + k)
  let index := vqSearch dicoSize fun i => vqDist 3 lsfR1 wf1 (row i)
  (index, row index)

/-- The sums of the first one, two, and so on of `terms`. -/
def partialSums (terms : List Word32) : List Word32 :=
  (List.range terms.length).map fun k => (terms.take (k + 1)).foldl (· + ·) 0

/-- `Vq_subvec`, on two frequencies of each half frame: a row is given up as soon as it is too far. -/
def vqSubvec (lsfR : Nat → Word16) (dico : Dico) (wf : Nat → Word16) (dicoSize : Nat) : Nat × (Nat → Word16) :=
  let dists := fun i => partialSums <| (List.range 4).map fun k =>
    let temp := narrow (mul16 (lsfR k) (wf k) - mul16 (wf k) (dico.entry (4 * i + k))) 15
    mul16 temp temp
  let index := ((List.range dicoSize).foldl (fun best i =>
    if (dists i).all (BitVec.slt · best.2) then (i, (dists i).getD 3 0) else best) (0, max32)).1
  (index, fun k => dico.entry (4 * index + k))

/-- The best row of `Vq_subvec_s` so far, and whether its sign is changed. -/
structure Signed where
  index : Nat
  sign : Bool
  distMin : Word32

/-- A row of `Vq_subvec_s`, and the row with its sign changed. -/
def vqSubvecStep (lsfR : Nat → Word16) (dico : Dico) (wf : Nat → Word16) (best : Signed) (i : Nat) : Signed :=
  let dist := fun (n : Nat) (d : Word16 → Word16 → Word16) => (List.range n).foldl (fun dist k =>
    let temp := narrow (mul16 (wf k) (d (lsfR k) (dico.entry (4 * i + k)))) 15
    dist + mul16 temp temp) (0 : Word32)
  if BitVec.sle best.distMin (dist 2 (· - ·)) && BitVec.sle best.distMin (dist 2 (· + ·)) then best
  else
    let best := if BitVec.slt (dist 4 (· - ·)) best.distMin then ⟨i, false, dist 4 (· - ·)⟩ else best
    if BitVec.slt (dist 4 (· + ·)) best.distMin then ⟨i, true, dist 4 (· + ·)⟩ else best

/-- `Vq_subvec_s`: the index has the sign in its last bit. -/
def vqSubvecS (lsfR : Nat → Word16) (dico : Dico) (wf : Nat → Word16) (dicoSize : Nat) : Nat × (Nat → Word16) :=
  let best := (List.range dicoSize).foldl (vqSubvecStep lsfR dico wf) ⟨0, false, max32⟩
  let row := fun k => dico.entry (4 * best.index + k)
  if best.sign then (2 * best.index + 1, fun k => -row k) else (2 * best.index, row)

/-! ## The quantisers -/

/-- What a quantiser leaves: the residual, the indices, that of the first prediction, and the frequencies. -/
structure QuantisedLsf where
  pastRq : Nat → Word16
  indice : List Nat
  predInitI : Nat
  lsfQ : List (List Word16)

/-- Ten residuals from rows of three, three and four. -/
def split3 (rows : List (Nat → Word16)) (i : Nat) : Word16 :=
  if i < 3 then rows.getD 0 (fun _ => 0) i
  else if i < 6 then rows.getD 1 (fun _ => 0) (i - 3)
  else rows.getD 2 (fun _ => 0) (i - 6)

/-- The searches of `Q_plsf_3`. -/
def search3 (t : LsfTables) (mode : Mode) (lsfR1 wf1 : Nat → Word16) : List (Nat × (Nat → Word16)) :=
  let part := fun (v : Nat → Word16) n k => v (n + k)
  match mode with
  | .MR475 | .MR515 =>
    [vqSubvec3 lsfR1 t.dico1Lsf3 wf1 256 false, vqSubvec3 (part lsfR1 3) t.dico2Lsf3 (part wf1 3) 256 true,
      vqSubvec4 (part lsfR1 6) t.mr515Lsf3 (part wf1 6) 128]
  | .MR795 =>
    [vqSubvec3 lsfR1 t.mr795Lsf1 wf1 512 false, vqSubvec3 (part lsfR1 3) t.dico2Lsf3 (part wf1 3) 512 false,
      vqSubvec4 (part lsfR1 6) t.dico3Lsf3 (part wf1 6) 512]
  | _ =>
    [vqSubvec3 lsfR1 t.dico1Lsf3 wf1 256 false, vqSubvec3 (part lsfR1 3) t.dico2Lsf3 (part wf1 3) 512 false,
      vqSubvec4 (part lsfR1 6) t.dico3Lsf3 (part wf1 6) 512]

/-- The best first prediction of `Q_plsf_3` for the comfort noise so far. -/
structure PredInit where
  err : Word32
  predInitI : Nat
  lsfR1 : Nat → Word16
  lsfP : Nat → Word16

def predInitErr (lsf1 : Nat → Word16) (j : Nat) : Word32 :=
  (List.range orderM).foldl (fun err i =>
    let temp := lsf1 i - (meanLsf3 i + pastRqInit j i)
    err + mul16 temp temp <<< 1) 0

def predInitStep (lsf1 : Nat → Word16) (best : PredInit) (j : Nat) : PredInit :=
  let tempP := fun i => meanLsf3 i + pastRqInit j i
  if BitVec.slt (predInitErr lsf1 j) best.err then ⟨predInitErr lsf1 j, j, fun i => lsf1 i - tempP i, tempP⟩ else best

/-- The residual and the prediction that `Q_plsf_3` goes on with; `junk` is what its local arrays held. -/
def predict3 (mode : Mode) (pastRq lsf1 junk : Nat → Word16) : PredInit :=
  if mode ≠ .MRDTX then
    let lsfP := fun i => meanLsf3 i + narrow (mul16 (pastRq i) (predFac3 i)) 15
    ⟨0, 0, fun i => lsf1 i - lsfP i, lsfP⟩
  else (List.range 8).foldl (predInitStep lsf1) ⟨max32, 0, junk, junk⟩

/-- `Q_plsf_3`. -/
def qPlsf3 (t : LsfTables) (mode : Mode) (pastRq lsf1 wf1 junk : Nat → Word16) : QuantisedLsf :=
  let p := predict3 mode pastRq lsf1 junk
  let found := search3 t mode p.lsfR1 wf1
  let lsfR1 := split3 (found.map Prod.snd)
  ⟨lsfR1, found.map Prod.fst, p.predInitI, [ordered fun i => lsfR1 i + p.lsfP i]⟩

/-- Half `h` of the ten residuals of each half frame, from rows of four. -/
def split5 (h : Nat) (rows : List (Nat → Word16)) (i : Nat) : Word16 := rows.getD (i / 2) (fun _ => 0) (2 * h + i % 2)

/-- The searches of `Q_plsf_5`. -/
def search5 (t : LsfTables) (lsfR1 lsfR2 wf1 wf2 : Nat → Word16) : List (Nat × (Nat → Word16)) :=
  let part := fun (v1 v2 : Nat → Word16) n k => if k < 2 then v1 (n + k) else v2 (n + (k - 2))
  [vqSubvec (part lsfR1 lsfR2 0) t.dico1Lsf5 (part wf1 wf2 0) 128,
    vqSubvec (part lsfR1 lsfR2 2) t.dico2Lsf5 (part wf1 wf2 2) 256,
    vqSubvecS (part lsfR1 lsfR2 4) t.dico3Lsf5 (part wf1 wf2 4) 256,
    vqSubvec (part lsfR1 lsfR2 6) t.dico4Lsf5 (part wf1 wf2 6) 256,
    vqSubvec (part lsfR1 lsfR2 8) t.dico5Lsf5 (part wf1 wf2 8) 64]

/-- `Q_plsf_5`. -/
def qPlsf5 (t : LsfTables) (pastRq lsf1 lsf2 wf1 wf2 : Nat → Word16) : QuantisedLsf :=
  let lsfP := fun i => meanLsf5 i + narrow (mul16 (pastRq i) lspPredFacMr122) 15
  let found := search5 t (fun i => lsf1 i - lsfP i) (fun i => lsf2 i - lsfP i) wf1 wf2
  let rows := found.map Prod.snd
  ⟨split5 1 rows, found.map Prod.fst, 0,
    [ordered fun i => split5 0 rows i + lsfP i, ordered fun i => split5 1 rows i + lsfP i]⟩

/-! ## The decoders -/

/-- `D_plsfState`. -/
structure LsfState where
  pastRQ : Nat → Word16
  pastLsfQ : Nat → Word16

/-- `D_plsf_reset`. -/
def dPlsfReset : LsfState := ⟨fun _ => 0, meanLsf5⟩

/-- A row of `n`, no further than `limit`. -/
def rowUpTo (dico : Dico) (n index limit : Nat) (k : Nat) : Word16 :=
  dico.entry ((if n * index > limit then limit else n * index) + k)

/-- The rows that `D_plsf_3` takes. -/
def rows3 (t : LsfTables) (mode : Mode) (indice : List Nat) : List (Nat → Word16) :=
  let (cb1, limit1, cb3, limit3) : Dico × Nat × Dico × Nat := match mode with
    | .MR475 | .MR515 => (t.dico1Lsf3, (256 - 1) * 3, t.mr515Lsf3, (128 - 1) * 4)
    | .MR795 => (t.mr795Lsf1, (512 - 1) * 3, t.dico3Lsf3, (512 - 1) * 4)
    | _ => (t.dico1Lsf3, (256 - 1) * 3, t.dico3Lsf3, (512 - 1) * 4)
  let index2 := if mode = .MR475 ∨ mode = .MR515 then 2 * indice.getD 1 0 else indice.getD 1 0
  [rowUpTo cb1 3 (indice.getD 0 0) limit1, rowUpTo t.dico2Lsf3 3 index2 ((512 - 1) * 3),
    rowUpTo cb3 4 (indice.getD 2 0) limit3]

/-- `D_plsf_3`. -/
def dPlsf3 (t : LsfTables) (mode : Mode) (bfi : Bool) (indice : List Nat) (st : LsfState) : LsfState × List Word16 :=
  let temp := fun i => addSat (meanLsf3 i) (if mode ≠ .MRDTX then mult (st.pastRQ i) (predFac3 i) else st.pastRQ i)
  if bfi then
    let lsf1Q := fun i => addSat (mult (meanLsf3 i) 3277) (mult (st.pastLsfQ i) 29491)
    (⟨fun i => subSat (lsf1Q i) (temp i), fun i => (ordered lsf1Q).getD i 0⟩, ordered lsf1Q)
  else
    let lsf1R := split3 (rows3 t mode indice)
    let lsf := ordered fun i => addSat (lsf1R i) (temp i)
    (⟨lsf1R, fun i => lsf.getD i 0⟩, lsf)

/-- The rows that `D_plsf_5` takes. -/
def rows5 (t : LsfTables) (indice : List Nat) : List (Nat → Word16) :=
  let row := fun (dico : Dico) (index k : Nat) => dico.entry (4 * index + k)
  let index3 := indice.getD 2 0
  [row t.dico1Lsf5 (indice.getD 0 0), row t.dico2Lsf5 (indice.getD 1 0),
    if index3 % 2 = 0 then row t.dico3Lsf5 (index3 / 2) else fun k => negate (row t.dico3Lsf5 (index3 / 2) k),
    row t.dico4Lsf5 (indice.getD 3 0), row t.dico5Lsf5 (indice.getD 4 0)]

/-- `D_plsf_5`. -/
def dPlsf5 (t : LsfTables) (bfi : Bool) (indice : List Nat) (st : LsfState) : LsfState × List (List Word16) :=
  let temp := fun i => addSat (meanLsf5 i) (mult (st.pastRQ i) lspPredFacMr122)
  if bfi then
    let lsf1Q := fun i => addSat (narrow (mul16 (meanLsf5 i) 1639) 15) (narrow (mul16 (st.pastLsfQ i) 31128) 15)
    (⟨fun i => subSat (lsf1Q i) (addSat (meanLsf5 i) (narrow (mul16 (st.pastRQ i) lspPredFacMr122) 15)),
      fun i => (ordered lsf1Q).getD i 0⟩, [ordered lsf1Q, ordered lsf1Q])
  else
    let rows := rows5 t indice
    let lsf2 := ordered fun i => addSat (split5 1 rows i) (temp i)
    (⟨split5 1 rows, fun i => lsf2.getD i 0⟩, [ordered fun i => addSat (split5 0 rows i) (temp i), lsf2])

/-! ## The prediction -/

theorem forall_getD {p : Word16 → Prop} [DecidablePred p] {l : List Word16} (h : l.all (fun x => decide (p x)) = true)
    (h0 : p 0) (i : Nat) : p (l.getD i 0) := by
  rw [List.getD_eq_getElem?_getD]
  by_cases hi : i < l.length
  · rw [List.getElem?_eq_getElem hi]
    exact of_decide_eq_true (List.all_eq_true.1 h _ (List.getElem_mem hi))
  · rw [List.getElem?_eq_none (Nat.le_of_not_lt hi)]
    exact h0

/-- What a mean frequency may be. -/
def Mean (x : Word16) : Prop := 0 ≤ x.toInt ∧ x.toInt ≤ 13714

instance : DecidablePred Mean := fun x => inferInstanceAs (Decidable (0 ≤ x.toInt ∧ x.toInt ≤ 13714))

instance : DecidablePred Residual := fun x => inferInstanceAs (Decidable (-3149 ≤ x.toInt ∧ x.toInt ≤ 3149))

theorem meanLsf3_mean (i : Nat) : Mean (meanLsf3 i) := by
  unfold meanLsf3
  exact forall_getD (p := Mean) (by decide) (by decide) i

theorem meanLsf5_mean (i : Nat) : Mean (meanLsf5 i) := by
  unfold meanLsf5
  exact forall_getD (p := Mean) (by decide) (by decide) i

theorem predFac3_nonneg (i : Nat) : 0 ≤ (predFac3 i).toInt := by
  unfold predFac3
  exact forall_getD (p := fun x => 0 ≤ x.toInt) (by decide) (by decide) i

theorem pastRqInit_residual (index i : Nat) : Residual (pastRqInit index i) :=
  forall_getD (p := Residual) (by decide) (by decide) _

theorem mul16_toInt (a b : Word16) : (mul16 a b).toInt = a.toInt * b.toInt := by
  have hle := BitVec.toInt_mul_toInt_le (x := a) (y := b)
  have hge := BitVec.le_toInt_mul_toInt (x := a) (y := b)
  rw [mul16, BitVec.toInt_mul, BitVec.toInt_signExtend_of_le (by decide), BitVec.toInt_signExtend_of_le (by decide)]
  exact Int.bmod_eq_of_le (by omega) (by omega)

theorem shift_toInt {x f : Word16} (hx : Residual x) (hf : 0 ≤ f.toInt) :
    -3149 ≤ ((mul16 x f).sshiftRight 15).toInt ∧ ((mul16 x f).sshiftRight 15).toInt ≤ 3149 := by
  obtain ⟨hlo, hhi⟩ := hx
  have hf' := BitVec.toInt_lt (x := f)
  have h1 : -3149 * f.toInt ≤ x.toInt * f.toInt := Int.mul_le_mul_of_nonneg_right hlo hf
  have h2 : x.toInt * f.toInt ≤ 3149 * f.toInt := Int.mul_le_mul_of_nonneg_right hhi hf
  rw [BitVec.toInt_sshiftRight, mul16_toInt, Int.shiftRight_eq_div_pow]
  omega

/-- The products of the prediction do not overflow. -/
theorem narrow_residual {x f : Word16} (hx : Residual x) (hf : 0 ≤ f.toInt) : Residual (narrow (mul16 x f) 15) := by
  have h := shift_toInt hx hf
  unfold Residual narrow
  rw [BitVec.toInt_setWidth, ← Int.bmod_bmod_of_dvd (show 2 ^ 16 ∣ 2 ^ 32 by decide), ← BitVec.toInt_eq_toNat_bmod,
    Int.bmod_eq_of_le (by omega) (by omega)]
  exact h

theorem mult_eq {x f : Word16} (hx : Residual x) (hf : 0 ≤ f.toInt) : mult x f = narrow (mul16 x f) 15 := by
  have h := shift_toInt hx hf
  exact if_neg (by omega)

theorem addSat_eq {a b : Word16} (hlo : -32768 ≤ a.toInt + b.toInt) (hhi : a.toInt + b.toInt ≤ 32767) :
    addSat a b = a + b ∧ (a + b).toInt = a.toInt + b.toInt := by
  refine ⟨?_, ?_⟩
  · rw [addSat, if_neg (by omega), if_neg (by omega)]
  · rw [BitVec.toInt_add]
    exact Int.bmod_eq_of_le (by omega) (by omega)

/-- A frequency is the same with saturation. -/
theorem addSat_addSat {r m p : Word16} (hr : Residual r) (hm : Mean m) (hp : Residual p) :
    addSat r (addSat m p) = r + (m + p) := by
  unfold Residual at hr hp
  unfold Mean at hm
  obtain ⟨hsum, hint⟩ := addSat_eq (a := m) (b := p) (by omega) (by omega)
  rw [hsum, (addSat_eq (by omega) (by omega)).1]

/-! ## The rows -/

theorem vqSearch_lt {size : Nat} (hsize : 0 < size) (dist : Nat → Word32) : vqSearch size dist < size := by
  refine List.foldlRecOn (motive := fun best : Nat × Word32 => best.1 < size) _ _ hsize fun best hbest i hi => ?_
  split
  · exact List.mem_range.1 hi
  · exact hbest

theorem vqSubvec3_row (lsfR1 : Nat → Word16) (dico : Dico) (wf1 : Nat → Word16) {dicoSize : Nat} (hsize : 0 < dicoSize)
    (useHalf : Bool) :
    ∃ index < dicoSize, vqSubvec3 lsfR1 dico wf1 dicoSize useHalf =
      (index, fun k => dico.entry ((if useHalf then 6 else 3) * index + k)) :=
  ⟨_, vqSearch_lt hsize _, rfl⟩

theorem vqSubvec4_row (lsfR1 : Nat → Word16) (dico : Dico) (wf1 : Nat → Word16) {dicoSize : Nat} (hsize : 0 < dicoSize) :
    ∃ index < dicoSize, vqSubvec4 lsfR1 dico wf1 dicoSize = (index, fun k => dico.entry (4 * index + k)) :=
  ⟨_, vqSearch_lt hsize _, rfl⟩

theorem rowUpTo_eq (dico : Dico) {n index limit : Nat} (h : n * index ≤ limit) :
    rowUpTo dico n index limit = fun k => dico.entry (n * index + k) := by
  funext k
  rw [rowUpTo, if_neg (Nat.not_lt.2 h)]

/-- Every row that a search finds is within the limit of its codebook. -/
theorem rowUpTo_found (lsfR1 wf1 : Nat → Word16) (cb1 cb2 cb3 : Dico) {n1 n2 n3 limit2 : Nat} (h1 : 0 < n1) (h2 : 0 < n2)
    (h3 : 0 < n3) (useHalf : Bool) (hlimit : (if useHalf then 6 else 3) * (n2 - 1) ≤ limit2) :
    let found := [vqSubvec3 lsfR1 cb1 wf1 n1 false, vqSubvec3 (fun k => lsfR1 (3 + k)) cb2 (fun k => wf1 (3 + k)) n2 useHalf,
      vqSubvec4 (fun k => lsfR1 (6 + k)) cb3 (fun k => wf1 (6 + k)) n3]
    let indice := found.map Prod.fst
    [rowUpTo cb1 3 (indice.getD 0 0) ((n1 - 1) * 3),
      rowUpTo cb2 3 (if useHalf then 2 * indice.getD 1 0 else indice.getD 1 0) limit2,
      rowUpTo cb3 4 (indice.getD 2 0) ((n3 - 1) * 4)] = found.map Prod.snd := by
  obtain ⟨i1, hi1, e1⟩ := vqSubvec3_row lsfR1 cb1 wf1 h1 false
  obtain ⟨i2, hi2, e2⟩ := vqSubvec3_row (fun k => lsfR1 (3 + k)) cb2 (fun k => wf1 (3 + k)) h2 useHalf
  obtain ⟨i3, hi3, e3⟩ := vqSubvec4_row (fun k => lsfR1 (6 + k)) cb3 (fun k => wf1 (6 + k)) h3
  simp only [e1, e2, e3, List.map_cons, List.map_nil, List.getD_cons_zero, List.getD_cons_succ, Bool.false_eq_true, if_false]
  rw [rowUpTo_eq _ (by omega), rowUpTo_eq cb3 (by omega)]
  cases useHalf with
  | false =>
    simp only [Bool.false_eq_true, if_false] at hlimit ⊢
    rw [rowUpTo_eq _ (by omega)]
  | true =>
    simp only [if_true] at hlimit ⊢
    rw [rowUpTo_eq _ (by omega)]
    simp only [← Nat.mul_assoc]

/-- The decoder takes the rows that the search left in `lsf_r1`. -/
theorem rows3_search3 (t : LsfTables) (mode : Mode) (lsfR1 wf1 : Nat → Word16) :
    rows3 t mode ((search3 t mode lsfR1 wf1).map Prod.fst) = (search3 t mode lsfR1 wf1).map Prod.snd := by
  cases mode with
  | MR475 | MR515 =>
    exact rowUpTo_found lsfR1 wf1 t.dico1Lsf3 t.dico2Lsf3 t.mr515Lsf3 (by decide) (by decide) (by decide) true (by decide)
  | MR795 =>
    exact rowUpTo_found lsfR1 wf1 t.mr795Lsf1 t.dico2Lsf3 t.dico3Lsf3 (by decide) (by decide) (by decide) false (by decide)
  | MR59 | MR67 | MR74 | MR102 | MR122 | MRDTX =>
    exact rowUpTo_found lsfR1 wf1 t.dico1Lsf3 t.dico2Lsf3 t.dico3Lsf3 (by decide) (by decide) (by decide) false (by decide)

theorem vqSubvec_row (lsfR : Nat → Word16) (dico : Dico) (wf : Nat → Word16) (dicoSize : Nat) :
    ∃ index, vqSubvec lsfR dico wf dicoSize = (index, fun k => dico.entry (4 * index + k)) := ⟨_, rfl⟩

theorem vqSubvecS_row (lsfR : Nat → Word16) (dico : Dico) (wf : Nat → Word16) (dicoSize : Nat) :
    ∃ index, vqSubvecS lsfR dico wf dicoSize = (2 * index + 1, fun k => -dico.entry (4 * index + k)) ∨
      vqSubvecS lsfR dico wf dicoSize = (2 * index, fun k => dico.entry (4 * index + k)) := by
  refine ⟨((List.range dicoSize).foldl (vqSubvecStep lsfR dico wf) ⟨0, false, max32⟩).index, ?_⟩
  unfold vqSubvecS
  dsimp only
  split
  · exact .inl rfl
  · exact .inr rfl

theorem negate_residual {x : Word16} (hx : Residual x) : negate x = -x ∧ Residual (-x) := by
  obtain ⟨hlo, hhi⟩ := hx
  have hne : x ≠ BitVec.intMin 16 := by
    rintro rfl
    exact absurd hlo (by decide)
  refine ⟨if_neg hne, ?_⟩
  rw [Residual, BitVec.toInt_neg_of_ne_intMin hne]
  omega

theorem rows5_search5 (t : LsfTables) (lsfR1 lsfR2 wf1 wf2 : Nat → Word16) :
    rows5 t ((search5 t lsfR1 lsfR2 wf1 wf2).map Prod.fst) = (search5 t lsfR1 lsfR2 wf1 wf2).map Prod.snd := by
  let part := fun (v1 v2 : Nat → Word16) n k => if k < 2 then v1 (n + k) else v2 (n + (k - 2))
  obtain ⟨i1, e1⟩ := vqSubvec_row (part lsfR1 lsfR2 0) t.dico1Lsf5 (part wf1 wf2 0) 128
  obtain ⟨i2, e2⟩ := vqSubvec_row (part lsfR1 lsfR2 2) t.dico2Lsf5 (part wf1 wf2 2) 256
  obtain ⟨i4, e4⟩ := vqSubvec_row (part lsfR1 lsfR2 6) t.dico4Lsf5 (part wf1 wf2 6) 256
  obtain ⟨i5, e5⟩ := vqSubvec_row (part lsfR1 lsfR2 8) t.dico5Lsf5 (part wf1 wf2 8) 64
  have hneg : ∀ i, (fun k => negate (t.dico3Lsf5.entry (4 * i + k))) = fun k => -t.dico3Lsf5.entry (4 * i + k) :=
    fun i => funext fun k => (negate_residual (t.dico3Lsf5.residual _)).1
  have hsearch : search5 t lsfR1 lsfR2 wf1 wf2 = [_, _, _, _, _] := rfl
  obtain ⟨i3, e3 | e3⟩ := vqSubvecS_row (part lsfR1 lsfR2 4) t.dico3Lsf5 (part wf1 wf2 4) 256
  · have hmod : (2 * i3 + 1) % 2 = 1 := by omega
    have hdiv : (2 * i3 + 1) / 2 = i3 := by omega
    rw [hsearch, e1, e2, e3, e4, e5]
    simp only [rows5, List.map_cons, List.map_nil, List.getD_cons_zero, List.getD_cons_succ, hmod, hdiv, Nat.one_ne_zero,
      if_false, hneg]
  · have hmod : 2 * i3 % 2 = 0 := by omega
    have hdiv : 2 * i3 / 2 = i3 := by omega
    rw [hsearch, e1, e2, e3, e4, e5]
    simp only [rows5, List.map_cons, List.map_nil, List.getD_cons_zero, List.getD_cons_succ, hmod, hdiv, if_true]

theorem rows3_residual (t : LsfTables) (mode : Mode) (indice : List Nat) :
    ∀ row ∈ rows3 t mode indice, ∀ k, Residual (row k) := by
  intro row hrow k
  simp only [rows3, List.mem_cons, List.not_mem_nil, or_false] at hrow
  rcases hrow with rfl | rfl | rfl <;> exact Dico.residual _ _

theorem rows5_residual (t : LsfTables) (indice : List Nat) : ∀ row ∈ rows5 t indice, ∀ k, Residual (row k) := by
  intro row hrow k
  simp only [rows5, List.mem_cons, List.not_mem_nil, or_false] at hrow
  rcases hrow with rfl | rfl | rfl | rfl | rfl
  · exact Dico.residual _ _
  · exact Dico.residual _ _
  · split
    · exact Dico.residual _ _
    · obtain ⟨hneg, hres⟩ := negate_residual (Dico.residual t.dico3Lsf5 (4 * (indice.getD 2 0 / 2) + k))
      show Residual (negate _)
      rwa [hneg]
  · exact Dico.residual _ _
  · exact Dico.residual _ _

theorem getD_residual {rows : List (Nat → Word16)} (h : ∀ row ∈ rows, ∀ k, Residual (row k)) (j k : Nat) :
    Residual (rows.getD j (fun _ => 0) k) := by
  rw [List.getD_eq_getElem?_getD]
  by_cases hj : j < rows.length
  · rw [List.getElem?_eq_getElem hj]
    exact h _ (List.getElem_mem hj) k
  · rw [List.getElem?_eq_none (Nat.le_of_not_lt hj)]
    exact (by decide : Residual 0)

theorem split3_residual {rows : List (Nat → Word16)} (h : ∀ row ∈ rows, ∀ k, Residual (row k)) (i : Nat) :
    Residual (split3 rows i) := by
  unfold split3
  split
  · exact getD_residual h _ _
  split
  · exact getD_residual h _ _
  · exact getD_residual h _ _

/-! ## One frame -/

theorem dPlsf3_lsf (t : LsfTables) (mode : Mode) (indice : List Nat) (st : LsfState) :
    (dPlsf3 t mode false indice st).2 = ordered fun i => addSat (split3 (rows3 t mode indice) i)
      (addSat (meanLsf3 i) (if mode ≠ .MRDTX then mult (st.pastRQ i) (predFac3 i) else st.pastRQ i)) := rfl

theorem qPlsf3_lsfQ (t : LsfTables) (mode : Mode) (pastRq lsf1 wf1 junk : Nat → Word16) :
    let q := qPlsf3 t mode pastRq lsf1 wf1 junk
    q.lsfQ = [ordered fun i => q.pastRq i + (predict3 mode pastRq lsf1 junk).lsfP i] := rfl

theorem qPlsf3_predInitI (t : LsfTables) (mode : Mode) (pastRq lsf1 wf1 junk : Nat → Word16) :
    (qPlsf3 t mode pastRq lsf1 wf1 junk).predInitI = (predict3 mode pastRq lsf1 junk).predInitI := rfl

theorem qPlsf3_rows (t : LsfTables) (mode : Mode) (pastRq lsf1 wf1 junk : Nat → Word16) :
    let q := qPlsf3 t mode pastRq lsf1 wf1 junk
    split3 (rows3 t mode q.indice) = q.pastRq := congrArg split3 (rows3_search3 ..)

theorem qPlsf3_residual (t : LsfTables) (mode : Mode) (pastRq lsf1 wf1 junk : Nat → Word16) (i : Nat) :
    Residual ((qPlsf3 t mode pastRq lsf1 wf1 junk).pastRq i) := by
  rw [← qPlsf3_rows]
  exact split3_residual (rows3_residual t mode _) i

/-- Whatever the decoder predicted, it goes on with the residual of the encoder, and with the
prediction of the encoder it has the frequencies of the encoder. -/
theorem dPlsf3_qPlsf3 (t : LsfTables) {mode : Mode} (hmode : mode.Speech) {pastRq : Nat → Word16}
    (hpast : ∀ i, Residual (pastRq i)) (lsf1 wf1 junk : Nat → Word16) (st : LsfState) :
    let q := qPlsf3 t mode pastRq lsf1 wf1 junk
    (dPlsf3 t mode false q.indice st).1.pastRQ = q.pastRq ∧
      (st.pastRQ = pastRq → [(dPlsf3 t mode false q.indice st).2] = q.lsfQ) := by
  have hne : mode ≠ .MRDTX := hmode
  refine ⟨qPlsf3_rows .., fun hst => ?_⟩
  rw [dPlsf3_lsf, qPlsf3_lsfQ, qPlsf3_rows]
  refine congrArg (fun v => [ordered v]) (funext fun i => ?_)
  have hlsfP : (predict3 mode pastRq lsf1 junk).lsfP i = meanLsf3 i + narrow (mul16 (pastRq i) (predFac3 i)) 15 := by
    rw [predict3, if_pos hne]
  rw [if_pos hne, hst, mult_eq (hpast i) (predFac3_nonneg i), hlsfP]
  exact addSat_addSat (qPlsf3_residual t mode pastRq lsf1 wf1 junk i) (meanLsf3_mean i)
    (narrow_residual (hpast i) (predFac3_nonneg i))

theorem dPlsf5_lsf (t : LsfTables) (indice : List Nat) (st : LsfState) :
    let lsf := fun h => ordered fun i => addSat (split5 h (rows5 t indice) i)
      (addSat (meanLsf5 i) (mult (st.pastRQ i) lspPredFacMr122))
    (dPlsf5 t false indice st).2 = [lsf 0, lsf 1] := rfl

theorem qPlsf5_rows (t : LsfTables) (pastRq lsf1 lsf2 wf1 wf2 : Nat → Word16) :
    let q := qPlsf5 t pastRq lsf1 lsf2 wf1 wf2
    let lsf := fun h => ordered fun i => split5 h (rows5 t q.indice) i +
      (meanLsf5 i + narrow (mul16 (pastRq i) lspPredFacMr122) 15)
    split5 1 (rows5 t q.indice) = q.pastRq ∧ q.lsfQ = [lsf 0, lsf 1] := by
  let lsfP := fun i => meanLsf5 i + narrow (mul16 (pastRq i) lspPredFacMr122) 15
  let found := search5 t (fun i => lsf1 i - lsfP i) (fun i => lsf2 i - lsfP i) wf1 wf2
  have hindice : (qPlsf5 t pastRq lsf1 lsf2 wf1 wf2).indice = found.map Prod.fst := rfl
  have hrows : rows5 t (found.map Prod.fst) = found.map Prod.snd := rows5_search5 ..
  dsimp only
  rw [hindice, hrows]
  exact ⟨rfl, rfl⟩

theorem dPlsf5_qPlsf5 (t : LsfTables) {pastRq : Nat → Word16} (hpast : ∀ i, Residual (pastRq i))
    (lsf1 lsf2 wf1 wf2 : Nat → Word16) (st : LsfState) :
    let q := qPlsf5 t pastRq lsf1 lsf2 wf1 wf2
    (dPlsf5 t false q.indice st).1.pastRQ = q.pastRq ∧
      (st.pastRQ = pastRq → (dPlsf5 t false q.indice st).2 = q.lsfQ) := by
  intro q
  obtain ⟨hpastRq, hlsfQ⟩ := qPlsf5_rows t pastRq lsf1 lsf2 wf1 wf2
  refine ⟨hpastRq, fun hst => ?_⟩
  have hfac : 0 ≤ lspPredFacMr122.toInt := by decide
  have hsum : ∀ h i, addSat (split5 h (rows5 t q.indice) i) (addSat (meanLsf5 i) (mult (st.pastRQ i) lspPredFacMr122)) =
      split5 h (rows5 t q.indice) i + (meanLsf5 i + narrow (mul16 (pastRq i) lspPredFacMr122) 15) := by
    intro h i
    rw [hst, mult_eq (hpast i) hfac]
    exact addSat_addSat (getD_residual (rows5_residual t _) _ _) (meanLsf5_mean i) (narrow_residual (hpast i) hfac)
  rw [dPlsf5_lsf, hlsfQ]
  simp only [hsum]
  rfl

theorem qPlsf5_residual (t : LsfTables) (pastRq lsf1 lsf2 wf1 wf2 : Nat → Word16) (i : Nat) :
    Residual ((qPlsf5 t pastRq lsf1 lsf2 wf1 wf2).pastRq i) := by
  rw [← (qPlsf5_rows t pastRq lsf1 lsf2 wf1 wf2).1]
  exact getD_residual (rows5_residual t _) _ _

/-! ## The comfort noise -/

/-- The error of a first prediction is even, so one below `MAX_32` is always found. -/
theorem predInitErr_even (lsf1 : Nat → Word16) (j : Nat) : (predInitErr lsf1 j).toNat % 2 = 0 := by
  refine List.foldlRecOn (motive := fun err : Word32 => err.toNat % 2 = 0) _ _ rfl fun err herr i _ => ?_
  rw [BitVec.toNat_add, BitVec.toNat_shiftLeft]
  omega

theorem predInitErr_slt (lsf1 : Nat → Word16) (j : Nat) : BitVec.slt (predInitErr lsf1 j) max32 = true := by
  have heven := predInitErr_even lsf1 j
  have hint := BitVec.toInt_eq_toNat_cond (x := predInitErr lsf1 j)
  have hlt := (predInitErr lsf1 j).isLt
  have hmax : max32.toInt = 2147483647 := by decide
  rw [BitVec.slt_iff_toInt_lt, hmax, hint]
  split <;> omega

/-- `Q_plsf_3` predicts the comfort noise from the row it names. -/
theorem predict3_sid (pastRq lsf1 junk : Nat → Word16) :
    let p := predict3 .MRDTX pastRq lsf1 junk
    p.lsfP = fun i => meanLsf3 i + pastRqInit p.predInitI i := by
  have hrange : List.range 8 = 0 :: (List.range' 1 7) := rfl
  intro p
  have hp : p = (List.range' 1 7).foldl (predInitStep lsf1) (predInitStep lsf1 ⟨max32, 0, junk, junk⟩ 0) := by
    show predict3 _ _ _ _ = _
    rw [predict3, if_neg (by simp), hrange, List.foldl_cons]
  rw [hp]
  refine List.foldlRecOn (motive := fun b : PredInit => b.lsfP = fun i => meanLsf3 i + pastRqInit b.predInitI i) _ _ ?_
    fun b hb j _ => ?_
  · rw [predInitStep, if_pos (predInitErr_slt lsf1 0)]
  · unfold predInitStep
    dsimp only
    split
    · rfl
    · exact hb

/-- The decoder of a SID frame, once it has the row of the first prediction, has its frequencies. -/
theorem dPlsf3_sid (t : LsfTables) (pastRq lsf1 wf1 junk : Nat → Word16) (pastLsfQ : Nat → Word16) :
    let q := qPlsf3 t .MRDTX pastRq lsf1 wf1 junk
    [(dPlsf3 t .MRDTX false q.indice ⟨pastRqInit q.predInitI, pastLsfQ⟩).2] = q.lsfQ := by
  intro q
  have hlsfP : (predict3 .MRDTX pastRq lsf1 junk).lsfP = fun i => meanLsf3 i + pastRqInit q.predInitI i := by
    rw [qPlsf3_predInitI]
    exact predict3_sid pastRq lsf1 junk
  rw [dPlsf3_lsf, qPlsf3_lsfQ, qPlsf3_rows]
  refine congrArg (fun v => [ordered v]) (funext fun i => ?_)
  rw [hlsfP, if_neg (by simp)]
  exact addSat_addSat (qPlsf3_residual t .MRDTX pastRq lsf1 wf1 junk i) (meanLsf3_mean i) (pastRqInit_residual _ i)

/-! ## Runs -/

/-- What the encoder has in a frame. In a pause `dtx_enc` may compute the SID parameters again, and
`sid_sync` may send them; `noise` is what `dtx_dec` leaves in `past_lsf_q`. -/
inductive LsfItem where
  | speech (mode : Mode) (hmode : mode.Speech) (lsf1 wf1 lsf2 wf2 junk : Nat → Word16)
  | pause (computeSidFlag : Bool) (logEnIndex : Nat) (lsf wf junk : Nat → Word16) (update : Bool) (noise : Nat → Word16)

inductive LsfMessage where
  | speech (mode : Mode) (indice : List Nat)
  | pause (sid : Option (Nat × List Nat)) (noise : Nat → Word16)

/-- How the decoder takes a frame that is not what was sent: as a bad one, or as one without SID. -/
inductive LsfLoss where
  | bad (mode : Mode)
  | noise (noise : Nat → Word16)

/-- `Q_plsfState`, and of `dtx_encState` what `dtx_enc` keeps. `sidLsf` is the `lsp_q` that it drops,
as frequencies. -/
structure LsfEncState where
  pastRq : Nat → Word16
  logEnIndex : Nat
  initLsfVqIndex : Nat
  lspIndex : List Nat
  sidLsf : List (List Word16)

/-- `Q_plsf_reset` and `dtx_enc_reset`. -/
def lsfEncReset : LsfEncState := ⟨fun _ => 0, 0, 0, [0, 0, 0], []⟩

/-- The frequencies of a frame in `cod_amr`: `lsp`, and in a pause `dtx_enc` and `lsp_reset`. -/
def encodeLsf (t : LsfTables) (s : LsfEncState) : LsfItem → LsfEncState × LsfMessage × List (List Word16)
  | .speech mode _ lsf1 wf1 lsf2 wf2 junk =>
    let q := if mode = .MR122 then qPlsf5 t s.pastRq lsf1 lsf2 wf1 wf2 else qPlsf3 t mode s.pastRq lsf1 wf1 junk
    ({ s with pastRq := q.pastRq }, .speech mode q.indice, q.lsfQ)
  | .pause computeSidFlag logEnIndex lsf wf junk update noise =>
    let s := if computeSidFlag = true ∨ s.logEnIndex = 0 then
        let q := qPlsf3 t .MRDTX s.pastRq lsf wf junk
        ⟨q.pastRq, logEnIndex, q.predInitI, q.indice, q.lsfQ⟩
      else s
    ({ s with pastRq := fun _ => 0 }, .pause (if update then some (s.initLsfVqIndex, s.lspIndex) else none) noise,
      if update then s.sidLsf else [])

/-- The frequencies of a frame in `Decoder_amr`: in a pause `Decoder_amr_reset` and `dtx_dec`. -/
def decodeLsf (t : LsfTables) (st : LsfState) : LsfMessage → LsfState × List (List Word16)
  | .speech mode indice =>
    if mode = .MR122 then dPlsf5 t false indice st
    else
      let (st, lsf) := dPlsf3 t mode false indice st
      (st, [lsf])
  | .pause none noise => ({ dPlsfReset with pastLsfQ := noise }, [])
  | .pause (some (index, indice)) noise =>
    let (_, lsf) := dPlsf3 t .MRDTX false indice { dPlsfReset with pastRQ := pastRqInit index }
    (⟨fun _ => 0, noise⟩, [lsf])

def concealLsf (t : LsfTables) (st : LsfState) : LsfLoss → LsfState × List (List Word16)
  | .bad mode =>
    if mode = .MR122 then dPlsf5 t true [] st
    else
      let (st, lsf) := dPlsf3 t mode true [] st
      (st, [lsf])
  | .noise noise => ({ dPlsfReset with pastLsfQ := noise }, [])

/-- The residual is one of the codebooks, and SID parameters once computed stand for their frequencies. -/
structure LsfEncState.Sound (t : LsfTables) (s : LsfEncState) : Prop where
  residual : ∀ i, Residual (s.pastRq i)
  sid : s.logEnIndex ≠ 0 → ∀ pastLsfQ,
    [(dPlsf3 t .MRDTX false s.lspIndex ⟨pastRqInit s.initLsfVqIndex, pastLsfQ⟩).2] = s.sidLsf

theorem lsfEncReset_sound (t : LsfTables) : lsfEncReset.Sound t :=
  ⟨fun _ => (by decide : Residual 0), fun h => absurd rfl h⟩

/-- The SID parameters of a pause, computed in this frame or before. -/
theorem encodeLsf_pause {t : LsfTables} {s : LsfEncState} (hs : s.Sound t) (computeSidFlag : Bool) (logEnIndex : Nat)
    (lsf wf junk : Nat → Word16) (update : Bool) (noise : Nat → Word16) :
    ∃ s' : LsfEncState, encodeLsf t s (.pause computeSidFlag logEnIndex lsf wf junk update noise) =
        ({ s' with pastRq := fun _ => 0 }, .pause (if update then some (s'.initLsfVqIndex, s'.lspIndex) else none) noise,
          if update then s'.sidLsf else []) ∧
      ∀ pastLsfQ, [(dPlsf3 t .MRDTX false s'.lspIndex ⟨pastRqInit s'.initLsfVqIndex, pastLsfQ⟩).2] = s'.sidLsf := by
  by_cases h : computeSidFlag = true ∨ s.logEnIndex = 0
  · have hsid := dPlsf3_sid t s.pastRq lsf wf junk
    generalize hq : qPlsf3 t .MRDTX s.pastRq lsf wf junk = q at hsid
    refine ⟨⟨q.pastRq, logEnIndex, q.predInitI, q.indice, q.lsfQ⟩, ?_, hsid⟩
    simp only [encodeLsf, h, if_true, hq]
  · refine ⟨s, ?_, hs.sid fun h0 => h (.inr h0)⟩
    simp only [encodeLsf, h, if_false]

theorem encodeLsf_sound {t : LsfTables} (s : LsfEncState) (x : LsfItem) (hs : s.Sound t) : (encodeLsf t s x).1.Sound t := by
  cases x with
  | speech mode hmode lsf1 wf1 lsf2 wf2 junk =>
    refine ⟨fun i => ?_, hs.sid⟩
    by_cases h : mode = .MR122
    · simp only [encodeLsf, h, if_true]
      exact qPlsf5_residual ..
    · simp only [encodeLsf, h, if_false]
      exact qPlsf3_residual ..
  | pause computeSidFlag logEnIndex lsf wf junk update noise =>
    obtain ⟨s', h, hsid⟩ := encodeLsf_pause hs computeSidFlag logEnIndex lsf wf junk update noise
    rw [h]
    exact ⟨fun _ => (by decide : Residual 0), fun _ => hsid⟩

/-- A frame brings the two predictions together, and from there the frequencies are the encoder's. -/
theorem decodeLsf_encodeLsf {t : LsfTables} (s : LsfEncState) (st : LsfState) (x : LsfItem) (hs : s.Sound t) :
    (decodeLsf t st (encodeLsf t s x).2.1).1.pastRQ = (encodeLsf t s x).1.pastRq ∧
      (st.pastRQ = s.pastRq → (decodeLsf t st (encodeLsf t s x).2.1).2 = (encodeLsf t s x).2.2) := by
  cases x with
  | speech mode hmode lsf1 wf1 lsf2 wf2 junk =>
    by_cases h : mode = .MR122
    · simp only [encodeLsf, decodeLsf, h, if_true]
      exact dPlsf5_qPlsf5 t hs.residual lsf1 lsf2 wf1 wf2 st
    · simp only [encodeLsf, decodeLsf, h, if_false]
      exact dPlsf3_qPlsf3 t hmode hs.residual lsf1 wf1 junk st
  | pause computeSidFlag logEnIndex lsf wf junk update noise =>
    obtain ⟨s', h, hsid⟩ := encodeLsf_pause hs computeSidFlag logEnIndex lsf wf junk update noise
    rw [h]
    cases update with
    | false => exact ⟨rfl, fun _ => rfl⟩
    | true => exact ⟨rfl, fun _ => hsid _⟩

/-- In every run, from the reset on and whatever is lost, the decoder has the frequencies of the
encoder in each frame that it takes for what was sent, right after another such frame. -/
theorem lsf_recovered (t : LsfTables) (xs : List (LsfItem × Option LsfLoss)) :
    List.IsChain (fun a b => a.received = true → b.received = true → b.heard = b.sent)
      (⟨true, [], []⟩ :: outputs (Lockstep.lossy (encodeLsf t) (decodeLsf t) (concealLsf t)) (lsfEncReset, dPlsfReset) xs) :=
  Lockstep.heard_of_received (I := LsfEncState.Sound t) (R := fun s st => st.pastRQ = s.pastRq)
    (fun s x hs => encodeLsf_sound s x hs) (fun s st x hs => (decodeLsf_encodeLsf s st x hs).1)
    (fun s st x hs => (decodeLsf_encodeLsf s st x hs).2) xs (lsfEncReset_sound t) fun _ => rfl

/-! ## Order -/

/-- Each frequency is `LSF_GAP` above the one before, and the first above 0. -/
def Spaced (lsf : List Word16) : Prop := List.IsChain (fun a b => a.toInt + lsfGap.toInt ≤ b.toInt) (0 :: lsf)

/-- While nothing overflows, `Reorder_lsf` keeps each frequency `LSF_GAP` above what it wrote before. -/
theorem reorderLoop_spaced (xs : List Word16) {a lsfMin : Word16} {b : Int} (ha : a.toInt + lsfGap.toInt ≤ lsfMin.toInt)
    (hmin : lsfMin.toInt ≤ b) (hxs : ∀ x ∈ xs, x.toInt ≤ b) (hb : b + 205 * xs.length ≤ 32767) :
    List.IsChain (fun a b => a.toInt + lsfGap.toInt ≤ b.toInt) (a :: reorderLoop lsfGap lsfMin xs) := by
  have hgap : lsfGap.toInt = 205 := by decide
  induction xs generalizing a lsfMin b with
  | nil => exact .singleton _
  | cons x xs ih =>
    have hx := hxs x (by simp)
    rw [List.length_cons] at hb
    push_cast at hb
    have hrest : ∀ y ∈ xs, y.toInt ≤ b + lsfGap.toInt := fun y hy => by
      have := hxs y (by simp [hy])
      omega
    -- the next frequency may be as high as the gap above `y`
    have hnext : ∀ y : Word16, y.toInt ≤ b → (y + lsfGap).toInt = y.toInt + lsfGap.toInt := fun y hy =>
      (addSat_eq (by have := y.le_toInt; omega) (by omega)).2
    rw [reorderLoop]
    split
    · exact .cons_cons ha (ih (by rw [hnext _ hmin]) (by rw [hnext _ hmin]; omega) hrest (by omega))
    · rename_i h
      rw [BitVec.slt_iff_toInt_lt, not_lt] at h
      exact .cons_cons (by omega) (ih (by rw [hnext _ hx]) (by rw [hnext _ hx]; omega) hrest (by omega))

theorem ordered_spaced {lsf : Nat → Word16} (h : ∀ i, (lsf i).toInt ≤ 20012) : Spaced (ordered lsf) := by
  refine reorderLoop_spaced _ (b := 20012) (by decide) (by decide) (fun x hx => ?_) ?_
  · obtain ⟨i, -, rfl⟩ := List.mem_map.1 hx
    exact h i
  · rw [List.length_map, List.length_range]
    decide

theorem addSat_le {r m p : Word16} (hr : Residual r) (hm : Mean m) (hp : Residual p) : (addSat r (addSat m p)).toInt ≤ 20012 := by
  unfold Residual at hr hp
  unfold Mean at hm
  obtain ⟨hsum, hint⟩ := addSat_eq (a := m) (b := p) (by omega) (by omega)
  obtain ⟨hsum', hint'⟩ := addSat_eq (a := r) (b := m + p) (by omega) (by omega)
  rw [hsum, hsum', hint', hint]
  omega

theorem dPlsf3_spaced (t : LsfTables) (mode : Mode) (indice : List Nat) (st : LsfState) (hst : ∀ i, Residual (st.pastRQ i)) :
    (∀ i, Residual ((dPlsf3 t mode false indice st).1.pastRQ i)) ∧ Spaced (dPlsf3 t mode false indice st).2 := by
  have hres := fun i => split3_residual (rows3_residual t mode indice) i
  refine ⟨hres, ?_⟩
  rw [dPlsf3_lsf]
  refine ordered_spaced fun i => addSat_le (hres i) (meanLsf3_mean i) ?_
  split
  · rw [mult_eq (hst i) (predFac3_nonneg i)]
    exact narrow_residual (hst i) (predFac3_nonneg i)
  · exact hst i

theorem dPlsf5_spaced (t : LsfTables) (indice : List Nat) {st : LsfState} (hst : ∀ i, Residual (st.pastRQ i)) :
    (∀ i, Residual ((dPlsf5 t false indice st).1.pastRQ i)) ∧ ∀ lsf ∈ (dPlsf5 t false indice st).2, Spaced lsf := by
  have hres := fun h i => getD_residual (rows5_residual t indice) (i / 2) (2 * h + i % 2)
  have hfac : 0 ≤ lspPredFacMr122.toInt := by decide
  refine ⟨fun i => hres 1 i, ?_⟩
  have hspaced : ∀ h, Spaced (ordered fun i => addSat (split5 h (rows5 t indice) i)
      (addSat (meanLsf5 i) (mult (st.pastRQ i) lspPredFacMr122))) := by
    intro h
    refine ordered_spaced fun i => addSat_le (hres h i) (meanLsf5_mean i) ?_
    rw [mult_eq (hst i) hfac]
    exact narrow_residual (hst i) hfac
  rw [dPlsf5_lsf]
  intro lsf hlsf
  simp only [List.mem_cons, List.not_mem_nil, or_false] at hlsf
  rcases hlsf with rfl | rfl
  · exact hspaced 0
  · exact hspaced 1

/-- In every run of good frames and pauses, whatever indices they bring and in whatever modes, the
frequencies decoded for a frame, or for a SID update, are in order and `LSF_GAP` apart. -/
theorem lsf_spaced (t : LsfTables) (msgs : List LsfMessage) :
    ∀ lsfs ∈ outputs (decodeLsf t) dPlsfReset msgs, ∀ lsf ∈ lsfs, Spaced lsf := by
  have hzero : ∀ _ : Nat, Residual 0 := fun _ => by decide
  refine Transducer.outputs_forall _ (fun st : LsfState => ∀ i, Residual (st.pastRQ i)) _ (fun st msg hst => ?_) hzero _
  cases msg with
  | speech mode indice =>
    by_cases h : mode = .MR122
    · simp only [decodeLsf, h, if_true]
      exact dPlsf5_spaced t indice hst
    · obtain ⟨hres, hspaced⟩ := dPlsf3_spaced t mode indice st hst
      simp only [decodeLsf, h, if_false, List.mem_singleton, forall_eq]
      exact ⟨hres, hspaced⟩
  | pause sid noise =>
    cases sid with
    | none => exact ⟨hzero, fun _ h => absurd h List.not_mem_nil⟩
    | some sid =>
      obtain ⟨-, hspaced⟩ := dPlsf3_spaced t .MRDTX sid.2 { dPlsfReset with pastRQ := pastRqInit sid.1 }
        (pastRqInit_residual sid.1)
      exact ⟨hzero, fun lsf h => List.mem_singleton.1 h ▸ hspaced⟩

/-- Codebooks that have the first rows of the source's, and zeros behind them. -/
def firstRows : LsfTables :=
  let dico := fun (row : List Word16) (h : row.all (fun x => decide (Residual x)) = true) =>
    (⟨fun k => row.getD k 0, forall_getD (p := Residual) h (by decide)⟩ : Dico)
  { dico1Lsf3 := dico [6, 82, -131] (by decide)
    dico2Lsf3 := dico [50, 71, -9] (by decide)
    dico3Lsf3 := dico [67, -17, 66, -12] (by decide)
    mr515Lsf3 := dico [419, 163, -30, -262] (by decide)
    mr795Lsf1 := dico [-890, -1550, -2541] (by decide)
    dico1Lsf5 := dico [-451, -1065, -529, -1305] (by decide)
    dico2Lsf5 := dico [-1631, -1600, -1796, -2290] (by decide)
    dico3Lsf5 := dico [-1812, -2275, -1879, -2537] (by decide)
    dico4Lsf5 := dico [-1857, -1681, -1857, -1755] (by decide)
    dico5Lsf5 := dico [-1002, -929, -1096, -1203] (by decide) }

/-- The first frame of `MR475`, with the first row of each codebook. -/
theorem lsf_spaced_first : Spaced [1552, 2354, 3647, 5538, 7043, 8373, 10466, 11392, 12736, 13452] :=
  lsf_spaced firstRows [.speech .MR475 [0, 0, 0]] [[1552, 2354, 3647, 5538, 7043, 8373, 10466, 11392, 12736, 13452]]
    (List.mem_singleton.2 (by decide)) _ (List.mem_singleton.2 rfl)

end AudioRecorder.Codec
