import AudioRecorder.Codec.Modes
import AudioRecorder.Lib.Fill
/-!
# The synthesis filter

`Syn_filt` (`syn_filt.cpp`) filters the excitation of a subframe into the output
buffer: each sample is computed from the ten samples before it, which are those
of `mem` at first and then those it has just written. The products and sums wrap
at 32 bits, and the samples saturate at 16.
-/

namespace AudioRecorder.Codec

open Fill (Prog Fills)

/-- `Word32`. -/
abbrev Word32 := BitVec 32

/-- `M`: the order of the LP filter. -/
def orderM : Nat := 10

/-- `L_SUBFR`. -/
def lSubfr : Nat := 40

/-- `L_FRAME`. -/
def lFrame : Nat := 160

/-- `MAX_16`. -/
def max16 : Word16 := 0x7fff

/-- `MIN_16`. -/
def min16 : Word16 := 0x8000

/-- `(Word32) a * b`. -/
def mul16 (a b : Word16) : Word32 := a.signExtend 32 * b.signExtend 32

/-- `(Word16) (s >> n)`. -/
def narrow (s : Word32) (n : Nat) : Word16 := (s.sshiftRight n).setWidth 16

/-- Entry `i` of an array of samples. -/
def entry (l : List Word16) (i : Nat) : Word16 := l.getD i 0

/-- The sample that the sum `s` stands for, with the check for overflow. -/
def synSample (s : Word32) : Word16 :=
  if s + 134217728 < 0x0fffffff then narrow s 12 else if s.toInt > 0x07ffffff then max16 else min16

/-- The sum for input `x` and the `M` samples `past` before it, the latest last. -/
def synSum (a : List Word16) (x : Word16) (past : List Word16) : Word32 :=
  (List.range orderM).foldl (fun s j => s - mul16 (entry a (j + 1)) (entry past (orderM - 1 - j)))
    (0x800 + mul16 x (entry a 0))

/-- The first `M` samples: `tmp` holds `mem` and what has been computed, which goes to `y` as well. -/
def synFirst (a x : List Word16) (y i : Nat) (tmp : List Word16) : Prog Word16 (List Word16) := do
  let s := synSample (synSum a (entry x i) (tmp.drop i))
  Fill.write (y + i) s
  pure (tmp ++ [s])

/-- The samples after these: the `M` samples before are read from `y`. -/
def synRest (a x : List Word16) (y i : Nat) (_ : Unit) : Prog Word16 Unit := do
  let past ← Fill.window (y + i) orderM
  Fill.write (y + orderM + i) (synSample (synSum a (entry x (orderM + i)) past))

/-- `Syn_filt` of `lg` samples to position `y`; the result is `mem`. -/
def synFilt (a x : List Word16) (y lg : Nat) (mem : List Word16) (update : Bool) : Prog Word16 (List Word16) := do
  let _ ← Fill.loop (synFirst a x y) orderM mem
  Fill.loop (synRest a x y) (lg - orderM) ()
  if update then Fill.window (y + lg - orderM) orderM else pure mem

/-! ## What it fills -/

theorem synFirst_fills (a x : List Word16) (y i : Nat) (tmp : List Word16) :
    Fills (y + i) (y + (i + 1)) (synFirst a x y i tmp) := by
  unfold synFirst
  exact (Fills.write _ _).bind fun _ => .pure _

theorem synRest_fills (a x : List Word16) (y i : Nat) (u : Unit) :
    Fills (y + orderM + i) (y + orderM + (i + 1)) (synRest a x y i u) := by
  unfold synRest
  exact (Fills.window (by omega)).bind fun _ => .write _ _

/-- `Syn_filt` writes its `lg` samples and reads none that it has not written. -/
theorem synFilt_fills (a x : List Word16) (y : Nat) {lg : Nat} (mem : List Word16) (update : Bool) (h : orderM ≤ lg) :
    Fills y (y + lg) (synFilt a x y lg mem update) := by
  have hfirst := Fills.loop (w := fun i => y + i) (fun i (_ : i < orderM) tmp => synFirst_fills a x y i tmp) mem
  have hrest := Fills.loop (w := fun i => y + orderM + i)
    (fun i (_ : i < lg - orderM) u => synRest_fills a x y i u) ()
  have hlast : y + orderM + (lg - orderM) = y + lg := by omega
  simp only [Nat.add_zero, hlast] at hfirst hrest
  unfold synFilt
  refine hfirst.bind fun _ => hrest.bind fun _ => ?_
  split
  · exact .window (by omega)
  · exact .pure mem

end AudioRecorder.Codec
