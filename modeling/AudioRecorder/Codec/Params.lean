import AudioRecorder.Codec.Speech
import AudioRecorder.Codec.Synthesis
/-!
# The decoder's parameters

`Bits2prm` (`sp_dec.cpp`) puts the serial bits of a frame back together into
parameters; for a frame that has none, `build_CN_param` (`b_cn_cod.cpp`) makes
them up from a seed. Both fill the parameters of the mode and no others, and
`Decoder_amr` reads these, subframe by subframe, and no others
(`subframeStart_le`).
-/

namespace AudioRecorder.Codec

/-- `prmno`: the parameters of a mode. -/
def prmno (mode : Mode) : Nat := (bitno mode).length

/-! ## `Bits2prm` -/

/-- `Bin2int`, of `n` bits from position `off` on. -/
def bin2int (bits : Nat → Word16) (off : Nat) : Nat → Word16
  | 0 => 0
  | n + 1 => bin2int bits off n <<< 1 ||| bits (off + n)

/-- The loop of `Bits2prm` from parameter `i`, whose bits start at `off`. -/
def bits2prmLoop (bits : Nat → Word16) : List Nat → Nat → Nat → (Nat → Word16) → Nat → Word16
  | [], _, _, prm => prm
  | n :: ns, i, off, prm => bits2prmLoop bits ns (i + 1) (off + n) (Function.update prm i (bin2int bits off n))

/-- `Bits2prm`; `prm` is what the parameters held. -/
def bits2prm (mode : Mode) (bits prm : Nat → Word16) : Nat → Word16 := bits2prmLoop bits (bitno mode) 0 0 prm

theorem bin2int_congr {bits bits' : Nat → Word16} {off n : Nat} (h : ∀ k < n, bits (off + k) = bits' (off + k)) :
    bin2int bits off n = bin2int bits' off n := by
  induction n with
  | zero => rfl
  | succ n ih => rw [bin2int, bin2int, ih fun k hk => h k (by omega), h n (by omega)]

theorem bits2prmLoop_congr {bits bits' : Nat → Word16} (ns : List Nat) {i off : Nat} {prm prm' : Nat → Word16}
    (h : ∀ k < ns.sum, bits (off + k) = bits' (off + k)) (hprm : ∀ k < i, prm k = prm' k) :
    ∀ k < i + ns.length, bits2prmLoop bits ns i off prm k = bits2prmLoop bits' ns i off prm' k := by
  induction ns generalizing i off prm prm' with
  | nil => exact hprm
  | cons n ns ih =>
    intro k hk
    rw [List.sum_cons] at h
    rw [List.length_cons] at hk
    unfold bits2prmLoop
    have hvalue : bin2int bits off n = bin2int bits' off n := bin2int_congr fun k hk => h k (by omega)
    refine ih ?_ ?_ k (by omega)
    · intro k hk
      rw [Nat.add_assoc]
      exact h (n + k) (by omega)
    · intro k hk
      by_cases hki : k = i
      · rw [hki, Function.update_self, Function.update_self, hvalue]
      · rw [Function.update_of_ne hki, Function.update_of_ne hki, hprm k (by omega)]

/-- The parameters of the mode come from its bits alone. -/
theorem bits2prm_congr {mode : Mode} {bits bits' : Nat → Word16} (h : ∀ p < (bitno mode).sum, bits p = bits' p)
    (prm prm' : Nat → Word16) : ∀ k < prmno mode, bits2prm mode bits prm k = bits2prm mode bits' prm' k := by
  intro k hk
  have hbits : ∀ p < (bitno mode).sum, bits (0 + p) = bits' (0 + p) := by simpa using h
  have hk' : k < 0 + (bitno mode).length := by simpa [prmno] using hk
  exact bits2prmLoop_congr (bitno mode) hbits (by omega) k hk'

/-! ## `build_CN_param` -/

/-- `window_200_40`. -/
def window20040 : List Word16 := [
  2621, 2623, 2629, 2638, 2651, 2668, 2689, 2713, 2741, 2772, 2808, 2847, 2890, 2936, 2986, 3040, 3097, 3158, 3223, 3291,
  3363, 3438, 3517, 3599, 3685, 3774, 3867, 3963, 4063, 4166, 4272, 4382, 4495, 4611, 4731, 4853, 4979, 5108, 5240, 5376,
  5514, 5655, 5800, 5947, 6097, 6250, 6406, 6565, 6726, 6890, 7057, 7227, 7399, 7573, 7750, 7930, 8112, 8296, 8483, 8672,
  8863, 9057, 9252, 9450, 9650, 9852, 10055, 10261, 10468, 10677, 10888, 11101, 11315, 11531, 11748, 11967, 12187, 12409,
  12632, 12856, 13082, 13308, 13536, 13764, 13994, 14225, 14456, 14688, 14921, 15155, 15389, 15624, 15859, 16095, 16331,
  16568, 16805, 17042, 17279, 17516, 17754, 17991, 18228, 18465, 18702, 18939, 19175, 19411, 19647, 19882, 20117, 20350,
  20584, 20816, 21048, 21279, 21509, 21738, 21967, 22194, 22420, 22644, 22868, 23090, 23311, 23531, 23749, 23965, 24181,
  24394, 24606, 24816, 25024, 25231, 25435, 25638, 25839, 26037, 26234, 26428, 26621, 26811, 26999, 27184, 27368, 27548,
  27727, 27903, 28076, 28247, 28415, 28581, 28743, 28903, 29061, 29215, 29367, 29515, 29661, 29804, 29944, 30081, 30214,
  30345, 30472, 30597, 30718, 30836, 30950, 31062, 31170, 31274, 31376, 31474, 31568, 31659, 31747, 31831, 31911, 31988,
  32062, 32132, 32198, 32261, 32320, 32376, 32428, 32476, 32521, 32561, 32599, 32632, 32662, 32688, 32711, 32729, 32744,
  32755, 32763, 32767, 32767, 32741, 32665, 32537, 32359, 32129, 31850, 31521, 31143, 30716, 30242, 29720, 29151, 28538,
  27879, 27177, 26433, 25647, 24821, 23957, 23055, 22117, 21145, 20139, 19102, 18036, 16941, 15820, 14674, 13505, 12315,
  11106, 9879, 8637, 7381, 6114, 4838, 3554, 2264, 971]

/-- The next seed: `L_mult (seed, 31821) >> 1`, and 13849 more. Neither saturates. -/
def cnSeed (seed : Word16) : Word16 := (mul16 seed 31821 + 13849).setWidth 16

/-- `build_CN_param`, with the seed it leaves. -/
def buildCNParam (seed : Word16) (mode : Mode) (parm : Nat → Word16) : Word16 × (Nat → Word16) :=
  let seed := cnSeed seed
  (seed, fun i =>
    if i < prmno mode then entry window20040 ((seed &&& 0x7f).toNat + i) &&& ~~~((0xffff : Word16) <<< (bitno mode).getD i 0)
    else parm i)

/-- The parameters of the mode come from the seed alone. -/
theorem buildCNParam_congr (seed : Word16) (mode : Mode) (parm parm' : Nat → Word16) :
    ∀ k < prmno mode, (buildCNParam seed mode parm).2 k = (buildCNParam seed mode parm').2 k := by
  intro k hk
  unfold buildCNParam
  simp only [if_pos hk]

/-! ## Where `Decoder_amr` reads -/

/-- The LSF parameters, which come first. -/
def lsfParams (mode : Mode) : Nat := if mode = .MR122 then 5 else 3

/-- The codebook parameters of a subframe; for `MR122` the index of the pitch gain is among them. -/
def codeParams (mode : Mode) : Nat :=
  match mode with
  | .MR102 => 7
  | .MR122 => 11
  | _ => 2

/-- The gain parameters of subframe `i`: `MR475` has one for two subframes. -/
def gainParams (mode : Mode) (i : Nat) : Nat :=
  match mode with
  | .MR475 => if i % 2 = 0 then 1 else 0
  | .MR795 => 2
  | _ => 1

/-- The parameters of subframe `i`: the pitch index, the codebook, the gains. -/
def subframeParams (mode : Mode) (i : Nat) : Nat := 1 + codeParams mode + gainParams mode i

/-- Where the pointer `parm` stands at subframe `i`. -/
def subframeStart (mode : Mode) : Nat → Nat
  | 0 => lsfParams mode
  | i + 1 => subframeStart mode i + subframeParams mode i

/-- The `n` parameters from position `pos` on. -/
def paramsAt (parm : Nat → Word16) (pos n : Nat) : List Word16 := (List.range n).map fun k => parm (pos + k)

theorem subframeStart_le_succ (mode : Mode) (i : Nat) : subframeStart mode i ≤ subframeStart mode (i + 1) := by
  rw [subframeStart]
  omega

theorem subframeStart_mono (mode : Mode) {i j : Nat} (h : i ≤ j) : subframeStart mode i ≤ subframeStart mode j := by
  induction j with
  | zero =>
    obtain rfl := Nat.le_zero.1 h
    exact Nat.le_refl _
  | succ j ih =>
    rcases Nat.le_or_eq_of_le_succ h with hij | rfl
    · exact Nat.le_trans (ih hij) (subframeStart_le_succ mode j)
    · exact Nat.le_refl _

/-- The four subframes of a speech frame read its parameters and no others. -/
theorem subframeStart_four {mode : Mode} (h : mode.Speech) : subframeStart mode 4 = prmno mode := by
  cases mode <;> first | rfl | exact absurd rfl h

theorem subframeStart_le {mode : Mode} (h : mode.Speech) {i : Nat} (hi : i ≤ 4) : subframeStart mode i ≤ prmno mode := by
  rw [← subframeStart_four h]
  exact subframeStart_mono mode hi

theorem paramsAt_congr {parm parm' : Nat → Word16} {m pos n : Nat} (h : ∀ k < m, parm k = parm' k) (hn : pos + n ≤ m) :
    paramsAt parm pos n = paramsAt parm' pos n := by
  unfold paramsAt
  refine List.map_congr_left fun k hk => h _ ?_
  have := List.mem_range.1 hk
  omega

end AudioRecorder.Codec
