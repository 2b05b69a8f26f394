import AudioRecorder.Codec.Codebook
import Mathlib.Data.List.GetD
import Mathlib.Data.List.Rotate
/-!
# Codebooks of two pulses to a track

In `MR102` and `MR122` each track has two pulses and one sign. `search_10and8i40` picks
the positions, `build_code` orders the two of a track so that the order tells the
second sign, and `dec_8i40_31bits` and `dec_10i40_35bits` read it from there. The
correlations `rr`, and what `set_sign12k2` computes before its signs, are inputs. Of
`build_code` the filtered vector `y` is left out.
-/

namespace AudioRecorder.Codec

open Pulses (add add_filter add_perm foldl_at foldl_keys pairCode pairPulses pairPulses_pairCode)

/-! ## `set_sign12k2` -/

/-- `negate`. -/
def negate (x : Word16) : Word16 := if x = min16 then max16 else -x

/-- What `set_sign12k2` leaves, besides the correlations whose sign it changes. -/
structure Signs where
  sign : Nat → Word16
  posMax : List Nat
  ipos : List Nat

/-- The search for the greatest of `en`: of each track, and of all tracks. -/
structure MaxState where
  pos : Nat
  posMax : List Nat
  maxOfAll : Word16
  ipos0 : Nat

/-- The tracks in order from `pos` on, around the end. -/
def tracksFrom (nbTrack : Nat) : Nat → Nat → List Nat
  | 0, _ => []
  | n + 1, pos => pos :: tracksFrom nbTrack n (if pos + 1 ≥ nbTrack then 0 else pos + 1)

/-- The greatest of `en` at `js`, and its position; `pos` is what the position was. -/
def greatest (en : Nat → Word16) (js : List Nat) (pos : Nat) : Word16 × Nat :=
  js.foldl (fun best j => if best.1.slt (en j) then (en j, j) else best) (-1, pos)

/-- A pass of the loop over the tracks. -/
def trackMax (en : Nat → Word16) (step : Nat) (st : MaxState) (i : Nat) : MaxState :=
  let (max, pos) := greatest en (positions i step) st.pos
  let posMax := st.posMax ++ [pos]
  if st.maxOfAll.slt max then ⟨pos, posMax, max, i⟩ else ⟨pos, posMax, st.maxOfAll, st.ipos0⟩

/-- The loop over the tracks; `ipos[0]` is set in its first pass. -/
def trackMaxima (en : Nat → Word16) (nbTrack step : Nat) : MaxState :=
  (List.range nbTrack).foldl (trackMax en step) ⟨0, [], -1, 0⟩

/-- `set_sign12k2`, given its `cor` before the sign is taken. -/
def setSign12k2 (cor : Nat → Word16) (nbTrack step : Nat) : Signs :=
  let en := fun i => if BitVec.sle 0 (cor i) then cor i else negate (cor i)
  let st := trackMaxima en nbTrack step
  ⟨fun i => if BitVec.sle 0 (cor i) then 32767 else -32767, st.posMax,
    tracksFrom nbTrack nbTrack st.ipos0 ++ tracksFrom nbTrack nbTrack st.ipos0⟩

/-! ## `search_10and8i40` -/

/-- The local variables of a search for two pulses. -/
structure BestPair where
  sq : Word16
  ps : Word16
  alp : Word16
  ia : Nat
  ib : Nat

/-- The loops of a search for two pulses, of correlation `ps2` and energy `alp2`. -/
def searchTwo (js is : List Nat) (start0 start1 : Nat) (ps2 : Nat → Nat → Word16) (alp2 : Nat → Nat → Word32) : BestPair :=
  js.foldl (fun b j => is.foldl (fun b i =>
    let sq2 := narrow (mul16 (ps2 j i) (ps2 j i)) 15
    if (w32 b.sq * alp2 j i).slt (mul16 sq2 b.alp) then ⟨sq2, ps2 j i, (alp2 j i).setWidth 16, j, i⟩ else b) b)
    ⟨-1, 0, 1, start0, start1⟩

section Search
variable (step : Nat) (dn : Nat → Word16) (rr : Nat → Nat → Word16)

/-- The third and fourth pulses, beside those at `i0` and `i1`. -/
def searchFirst (i0 i1 start0 start1 : Nat) : BestPair :=
  let ps0 := dn i0 + dn i1
  let alp0 := w32 (rr i0 i0) <<< 12 + w32 (rr i1 i1) <<< 12 + w32 (rr i0 i1) <<< 13 + 0x8000
  let s := alp0.sshiftRight 12
  let temp := fun i3 => narrow ((w32 (rr i3 i3)).sshiftRight 1 + w32 (rr i3 i0) + w32 (rr i3 i1) + 2) 2
  let alp1 := fun j => (s + w32 (rr j j)).sshiftRight 1 + w32 (rr j i0) + w32 (rr j i1)
  searchTwo (positions start0 step) (positions start1 step) start0 start1 (fun j i3 => dn j + (ps0 + dn i3))
    fun j i3 => ((alp1 j + w32 (rr j i3)).sshiftRight 2 + w32 (temp i3)).sshiftRight 1

/-- The next two pulses, beside those found: the shifts are `d` for the energy, `r` and `t` for the table. -/
def searchNext (found : List Nat) (b : BestPair) (d r t : Nat) (rowTemp rowEn : Nat → Nat → Word16) (start0 start1 : Nat) :
    BestPair :=
  let alp0 := w32 b.alp <<< 15 + 0x8000
  let temp := fun i => narrow (found.foldl (fun s k => s + w32 (rowTemp i k)) ((w32 (rr i i)).sshiftRight 1)
    + BitVec.ofNat 32 (2 ^ (r - 1))) r
  let alp1 := fun j => found.foldl (fun s k => s + w32 (rowEn j k) <<< d) (alp0 + w32 (rr j j) <<< (d - 1))
  searchTwo (positions start0 step) (positions start1 step) start0 start1 (fun j i => dn j + (b.ps + dn i))
    fun j i => w32 (narrow (alp1 j + w32 (rr j i) <<< d + w32 (temp i) <<< t) 16)

/-- A pass of the outer loop: `index`, and the values of its last pair. -/
def searchPass (nbPulse : Nat) (posMax ipos : List Nat) : List Nat × BestPair :=
  let start := fun k => ipos.getD k 0
  let i0 := posMax.getD (start 0) 0
  let i1 := posMax.getD (start 1) 0
  let b1 := searchFirst step dn rr i0 i1 (start 2) (start 3)
  let index := [i0, i1, b1.ia, b1.ib]
  let b2 := searchNext step dn rr index b1 12 2 14 rr rr (start 4) (start 5)
  let index := index ++ [b2.ia, b2.ib]
  let b3 := searchNext step dn rr index b2 11 3 14 (fun i k => rr k i) rr (start 6) (start 7)
  let index := index ++ [b3.ia, b3.ib]
  if nbPulse = 10 then
    let b4 := searchNext step dn rr index b3 10 3 13 (fun i k => rr k i) (fun j k => rr k j) (start 8) (start 9)
    (index ++ [b4.ia, b4.ib], b4)
  else (index, b3)

/-- `ipos[0]` stays, and the others move one place down. -/
def rotateStarts : List Nat → List Nat
  | [] => []
  | a :: ipos => a :: ipos.rotate 1

/-- `search_10and8i40`. -/
def search10and8i40 (nbPulse nbTracks : Nat) (posMax ipos : List Nat) : Search :=
  ((List.range (nbTracks - 1)).foldl (fun (p : List Nat × Search) _ =>
    let (index, b) := searchPass step dn rr nbPulse posMax p.1
    (rotateStarts p.1, if (mul16 p.2.psk b.alp).slt (mul16 p.2.alpk b.sq) then ⟨b.sq, b.alp, index⟩ else p.2))
    (ipos, ⟨-1, 1, List.range nbPulse⟩)).2

end Search

/-! ## `MR102` -/

/-- `NB_TRACK_MR102`. -/
def nbTrackMr102 : Nat := 4

/-- The cells of a track: `pos_indx[track]`, `sign_indx[track]` and `pos_indx[track + NB_TRACK_MR102]`. -/
structure TrackIndex where
  pos : Int
  sign : Int
  second : Int

/-- A pulse of `build_code` in the cells of its track; the signs have one bit. -/
def TrackIndex.place (c : TrackIndex) (posIndex signIndex : Int) : TrackIndex :=
  if c.pos < 0 then { c with pos := posIndex, sign := signIndex }
  else if (signIndex + c.sign) % 2 = 0 then
    if c.pos ≤ posIndex then { c with second := posIndex } else ⟨posIndex, signIndex, c.pos⟩
  else if c.pos ≤ posIndex then ⟨posIndex, signIndex, c.pos⟩
  else { c with second := posIndex }

/-- `build_code` of `c8_31pf.cpp`: the code vector, and the cells by track. -/
def buildCode31bits (codvec : List Nat) (sign : Nat → Word16) (junk : Int) : (Nat → Int) × (Nat → TrackIndex) :=
  (codvec.foldl (fun cod i => Function.update cod i (cod i + if BitVec.slt 0 (sign i) then 8191 else -8191)) fun _ => 0,
    codvec.foldl (fun c i =>
      Function.update c (i % 4) ((c (i % 4)).place (i / 4) (if BitVec.slt 0 (sign i) then 0 else 1))) fun _ => ⟨-1, -1, junk⟩)

/-- `compress10`. -/
def compress10 (a b c : Int) : Int := (b / 2 * 5 + c / 2 * 25 + a / 2) * 8 + (b % 2 * 2 + c % 2 * 4 + a % 2)

/-- The last parameter of `compress_code`, for `pos_indx[3]` and `pos_indx[7]`. -/
def compress7 (p3 p7 : Int) : Int :=
  let ib := p7 / 2
  let ia := if ib % 2 = 1 then 4 - p3 / 2 else p3 / 2
  let ic := ((ib * 5 + ia) * 32 + 12) * 1311 / 32768 * 4
  p7 % 2 * 2 + ic + p3 % 2

/-- `compress_code`: the seven parameters. -/
def compressCode (t : Nat → TrackIndex) : List Int :=
  [(t 0).sign, (t 1).sign, (t 2).sign, (t 3).sign, compress10 (t 0).pos (t 0).second (t 1).pos,
    compress10 (t 2).pos (t 2).second (t 1).second, compress7 (t 3).pos (t 3).second]

/-- `code_8i40_31bits`: the code vector and the parameters. -/
def code8i40_31bits (cor dn : Nat → Word16) (rr : Nat → Nat → Word16) (junk : Int) : (Nat → Int) × List Int :=
  let s := setSign12k2 cor nbTrackMr102 4
  let (cod, t) := buildCode31bits (search10and8i40 4 dn rr 8 nbTrackMr102 s.posMax s.ipos).codvec s.sign junk
  (cod, compressCode t)

/-- `decompress10`: the positions for `index1`, `index2` and `index3`. -/
def decompress10 (msbs lsbs : Int) : Int × Int × Int :=
  let msbs := if msbs > 124 then 124 else msbs
  let ia := msbs - msbs * 1311 / 32768 * 25
  let ib := ia - ia * 6554 / 32768 * 5
  let ic := lsbs - lsbs / 4 * 4
  (ib * 2 + ic % 2, ia * 6554 / 32768 * 2 + ic / 2, lsbs / 4 + msbs * 1311 / 32768 * 2)

/-- `pos_indx[3]` and `pos_indx[7]` of `decompress_code`. -/
def decompress7 (msbs lsbs : Int) : Int × Int :=
  let msbs := (msbs * 25 + 12) / 32
  let ia := msbs * 6554 / 32768 % 2
  let ib := msbs - msbs * 6554 / 32768 * 5
  let ib := if ia = 1 then 4 - ib else ib
  (ib * 2 + lsbs % 2, msbs * 6554 / 32768 * 2 + lsbs / 2)

/-- `decompress_code`: by track, the sign and the two positions. -/
def decompressCode (indx : List Int) : List TrackIndex :=
  let e := fun k => indx.getD k 0
  let (p0, p4, p1) := decompress10 (e 4 / 8) (e 4 % 8)
  let (p2, p6, p5) := decompress10 (e 5 / 8) (e 5 % 8)
  let (p3, p7) := decompress7 (e 6 / 4) (e 6 % 4)
  [⟨p0, e 0, p4⟩, ⟨p1, e 1, p5⟩, ⟨p2, e 2, p6⟩, ⟨p3, e 3, p7⟩]

/-- A pass of the loop of `dec_8i40_31bits`, for track `j`. -/
def decTrack (c : TrackIndex) (cod : Nat → Int) (j : Nat) : Nat → Int :=
  let pos1 := (c.pos * 4 + j).toNat
  let sign : Int := if c.sign = 0 then 8191 else -8191
  let cod := if pos1 < lCode then Function.update cod pos1 sign else cod
  let pos2 := (c.second * 4 + j).toNat
  let sign := if pos2 < pos1 then -sign else sign
  if pos2 < lCode then Function.update cod pos2 (cod pos2 + sign) else cod

/-- `dec_8i40_31bits`. -/
def dec8i40_31bits (indx : List Int) : Nat → Int :=
  let t := decompressCode indx
  (List.range nbTrackMr102).foldl (fun cod j => decTrack (t.getD j ⟨0, 0, 0⟩) cod j) fun _ => 0

/-! ## `MR122` -/

/-- `NB_TRACK`. -/
def nbTrack : Nat := 5

/-- The cells of a track: `indx[track]` and `indx[track + 5]`. A negative sign is 8. -/
structure TrackCode where
  first : Int
  second : Int

/-- A pulse of `build_code` in the cells of its track. -/
def TrackCode.place (c : TrackCode) (index : Int) : TrackCode :=
  if c.first < 0 then { c with first := index }
  else if (index / 8 + c.first / 8) % 2 = 0 then
    if c.first ≤ index then { c with second := index } else ⟨index, c.first⟩
  else if c.first % 8 ≤ index % 8 then ⟨index, c.first⟩
  else { c with second := index }

/-- `build_code` of `c1035pf.cpp`. -/
def buildCode35bits (codvec : List Nat) (sign : Nat → Word16) (junk : Int) : (Nat → Int) × (Nat → TrackCode) :=
  (codvec.foldl (fun cod i => Function.update cod i (cod i + if BitVec.slt 0 (sign i) then 4096 else -4096)) fun _ => 0,
    codvec.foldl (fun c i =>
      let index : Nat := i * 6554 / 32768
      let track : Nat := i - (index + 4 * index)
      Function.update c track ((c track).place (if BitVec.slt 0 (sign i) then index else index + 8))) fun _ => ⟨-1, junk⟩)

/-- `q_p`, on the parameter numbered `n`. -/
def qP (ind : Int) (n : Nat) : Int :=
  if n < 5 then ind / 8 % 2 * 8 + gray.getD (ind % 8).toNat 0 else gray.getD (ind % 8).toNat 0

/-- The loop over the ten parameters that ends `code_10i40_35bits`. -/
def codeParams35 (t : Nat → TrackCode) : List Int :=
  (List.range 5).map (fun j => qP (t j).first j) ++ (List.range 5).map fun j => qP (t j).second (j + 5)

/-- `code_10i40_35bits`: the code vector and the parameters. -/
def code10i40_35bits (cor dn : Nat → Word16) (rr : Nat → Nat → Word16) (junk : Int) : (Nat → Int) × List Int :=
  let s := setSign12k2 cor nbTrack 5
  let (cod, t) := buildCode35bits (search10and8i40 5 dn rr 10 nbTrack s.posMax s.ipos).codvec s.sign junk
  (cod, codeParams35 t)

/-- A pass of the loop of `dec_10i40_35bits`, for track `j`. -/
def decTrack35 (indx : List Int) (cod : Nat → Int) (j : Nat) : Nat → Int :=
  let tmp := indx.getD j 0
  let pos1 := dgray.getD (tmp % 8).toNat 0 * 5 + j
  let sign : Int := if tmp / 8 % 2 = 0 then 4096 else -4096
  let cod := Function.update cod pos1 sign
  let pos2 := dgray.getD (indx.getD (j + 5) 0 % 8).toNat 0 * 5 + j
  let sign := if pos2 < pos1 then -sign else sign
  Function.update cod pos2 (cod pos2 + sign)

/-- `dec_10i40_35bits`. -/
def dec10i40_35bits (indx : List Int) : Nat → Int := (List.range nbTrack).foldl (decTrack35 indx) fun _ => 0

/-! ## What the search finds -/

theorem lt_of_mem_positions {start step p : Nat} (h : start < step) (hp : p ∈ positions start step) :
    p < lCode ∧ p % step = start := by
  obtain ⟨i, hi, rfl⟩ := List.mem_range'.1 hp
  have hle : step * (i + 1) ≤ step * ((lCode - start + step - 1) / step) := Nat.mul_le_mul_left _ hi
  have hdiv := Nat.mul_div_le (lCode - start + step - 1) step
  rw [Nat.mul_succ] at hle
  exact ⟨by omega, by rw [Nat.add_mul_mod_self_left, Nat.mod_eq_of_lt h]⟩

theorem eq_map_getD {α : Type} (d : α) {l : List α} {n : Nat} (h : l.length = n) :
    l = (List.range n).map fun k => l.getD k d := by
  refine List.ext_getElem (by simpa using h) fun k hk _ => ?_
  rw [List.getElem_map, List.getElem_range, List.getD_eq_getElem?_getD, List.getElem?_eq_getElem hk, Option.getD_some]

theorem searchTwo_mem {js is : List Nat} {start0 start1 : Nat} (h0 : start0 ∈ js) (h1 : start1 ∈ is)
    (ps2 : Nat → Nat → Word16) (alp2 : Nat → Nat → Word32) :
    (searchTwo js is start0 start1 ps2 alp2).ia ∈ js ∧ (searchTwo js is start0 start1 ps2 alp2).ib ∈ is := by
  rw [searchTwo]
  refine List.foldlRecOn (motive := fun b : BestPair => b.ia ∈ js ∧ b.ib ∈ is) js _ ⟨h0, h1⟩ ?_
  intro b hb j hj
  refine List.foldlRecOn (motive := fun b : BestPair => b.ia ∈ js ∧ b.ib ∈ is) is _ hb ?_
  intro b hb i hi
  dsimp only
  split
  · exact ⟨hj, hi⟩
  · exact hb

section Found
variable {step : Nat} (hstep : step ≤ lCode) (dn : Nat → Word16) (rr : Nat → Nat → Word16)
include hstep

theorem searchFirst_mem (i0 i1 : Nat) {start0 start1 : Nat} (h0 : start0 < step) (h1 : start1 < step) :
    (searchFirst step dn rr i0 i1 start0 start1).ia ∈ positions start0 step ∧
      (searchFirst step dn rr i0 i1 start0 start1).ib ∈ positions start1 step :=
  searchTwo_mem (start_mem_positions h0 hstep) (start_mem_positions h1 hstep) _ _

theorem searchNext_mem (found : List Nat) (b : BestPair) (d r t : Nat) (rowTemp rowEn : Nat → Nat → Word16)
    {start0 start1 : Nat} (h0 : start0 < step) (h1 : start1 < step) :
    (searchNext step dn rr found b d r t rowTemp rowEn start0 start1).ia ∈ positions start0 step ∧
      (searchNext step dn rr found b d r t rowTemp rowEn start0 start1).ib ∈ positions start1 step :=
  searchTwo_mem (start_mem_positions h0 hstep) (start_mem_positions h1 hstep) _ _

/-- A pass puts its pulses on the tracks of `ipos`, in that order. -/
theorem searchPass_onTracks {nbPulse : Nat} {posMax ipos : List Nat} (hlen : ipos.length = nbPulse)
    (hpulse : nbPulse = 8 ∨ nbPulse = 10) (hmax : ∀ t < step, posMax.getD t 0 ∈ positions t step)
    (hipos : ∀ t ∈ ipos, t < step) : OnTracks step (searchPass step dn rr nbPulse posMax ipos).1 ipos := by
  have hstart : ∀ k < nbPulse, ipos.getD k 0 < step := by
    intro k hk
    rw [List.getD_eq_getElem?_getD, List.getElem?_eq_getElem (hlen.symm ▸ hk), Option.getD_some]
    exact hipos _ (List.getElem_mem _)
  unfold searchPass
  extract_lets start i0 i1 b1 index1 b2 index2 b3 index3 b4
  have hi0 : i0 ∈ positions (start 0) step := hmax _ (hstart 0 (by omega))
  have hi1 : i1 ∈ positions (start 1) step := hmax _ (hstart 1 (by omega))
  obtain ⟨h2, h3⟩ : b1.ia ∈ positions (start 2) step ∧ b1.ib ∈ positions (start 3) step :=
    searchFirst_mem hstep dn rr i0 i1 (hstart 2 (by omega)) (hstart 3 (by omega))
  obtain ⟨h4, h5⟩ : b2.ia ∈ positions (start 4) step ∧ b2.ib ∈ positions (start 5) step :=
    searchNext_mem hstep dn rr _ _ _ _ _ _ _ (hstart 4 (by omega)) (hstart 5 (by omega))
  obtain ⟨h6, h7⟩ : b3.ia ∈ positions (start 6) step ∧ b3.ib ∈ positions (start 7) step :=
    searchNext_mem hstep dn rr _ _ _ _ _ _ _ (hstart 6 (by omega)) (hstart 7 (by omega))
  have htracks : ∀ rest : List Nat, index3 ++ rest = i0 :: i1 :: b1.ia :: b1.ib :: b2.ia :: b2.ib :: b3.ia :: b3.ib :: rest :=
    fun _ => rfl
  rcases hpulse with rfl | rfl
  · have hlist : ipos = [start 0, start 1, start 2, start 3, start 4, start 5, start 6, start 7] := eq_map_getD 0 hlen
    rw [if_neg (by decide), ← List.append_nil index3, htracks, hlist]
    exact .cons hi0 (.cons hi1 (.cons h2 (.cons h3 (.cons h4 (.cons h5 (.cons h6 (.cons h7 .nil)))))))
  · obtain ⟨h8, h9⟩ : b4.ia ∈ positions (start 8) step ∧ b4.ib ∈ positions (start 9) step :=
      searchNext_mem hstep dn rr _ _ _ _ _ _ _ (hstart 8 (by omega)) (hstart 9 (by omega))
    have hlist : ipos =
        [start 0, start 1, start 2, start 3, start 4, start 5, start 6, start 7, start 8, start 9] := eq_map_getD 0 hlen
    rw [if_pos rfl, htracks, hlist]
    exact .cons hi0 (.cons hi1 (.cons h2 (.cons h3 (.cons h4 (.cons h5 (.cons h6 (.cons h7 (.cons h8 (.cons h9 .nil)))))))))

/-- Each of `n` tracks has two of the pulses. -/
structure TwoEach (n : Nat) (codvec : List Nat) : Prop where
  lt : ∀ p ∈ codvec, p < lCode
  tracks : (codvec.map (· % n)).Perm (List.range n ++ List.range n)

omit hstep in
theorem OnTracks.twoEach {codvec ipos : List Nat} (h : OnTracks step codvec ipos)
    (hipos : ipos.Perm (List.range step ++ List.range step)) : TwoEach step codvec := by
  have hlt : ∀ t ∈ ipos, t < step := by
    intro t ht
    simpa using hipos.mem_iff.1 ht
  have hboth : (∀ p ∈ codvec, p < lCode) ∧ codvec.map (· % step) = ipos := by
    clear hipos
    induction h with
    | nil => simp
    | cons hp _ ih =>
      obtain ⟨hpl, hpt⟩ := lt_of_mem_positions (hlt _ List.mem_cons_self) hp
      obtain ⟨hl, ht⟩ := ih fun t ht => hlt t (List.mem_cons_of_mem _ ht)
      exact ⟨List.forall_mem_cons.2 ⟨hpl, hl⟩, by rw [List.map_cons, hpt, ht]⟩
  exact ⟨hboth.1, hboth.2 ▸ hipos⟩

omit hstep in
theorem rotateStarts_perm (ipos : List Nat) : (rotateStarts ipos).Perm ipos := by
  cases ipos with
  | nil => exact .refl _
  | cons a ipos => exact (List.rotate_perm ipos 1).cons a

/-- From starts on each track twice the search leaves two pulses on each track. -/
theorem search10and8i40_twoEach {nbPulse nbTracks : Nat} {posMax ipos : List Nat} (hmax : ∀ t < step, posMax.getD t 0 ∈ positions t step)
    (hipos : ipos.Perm (List.range step ++ List.range step)) (hpulse : nbPulse = step + step)
    (h : nbPulse = 8 ∨ nbPulse = 10) : TwoEach step (search10and8i40 step dn rr nbPulse nbTracks posMax ipos).codvec := by
  have hinit : TwoEach step (List.range nbPulse) := by
    subst hpulse
    obtain rfl | rfl : step = 4 ∨ step = 5 := by omega
    · exact ⟨by decide, by decide⟩
    · exact ⟨by decide, by decide⟩
  rw [search10and8i40]
  refine (List.foldlRecOn
    (motive := fun p : List Nat × Search => p.1.Perm (List.range step ++ List.range step) ∧ TwoEach step p.2.codvec)
    (List.range (nbTracks - 1)) _ ⟨hipos, hinit⟩ ?_).2
  rintro ⟨ipos, st⟩ ⟨hperm, hst⟩ _ _
  refine ⟨(rotateStarts_perm ipos).trans hperm, ?_⟩
  have hlen : ipos.length = nbPulse := by
    rw [hperm.length_eq, hpulse]
    simp
  have hlt : ∀ t ∈ ipos, t < step := by
    intro t ht
    simpa using hperm.mem_iff.1 ht
  have hpass := searchPass_onTracks hstep dn rr hlen h hmax hlt
  dsimp only
  split
  · exact hpass.twoEach hperm
  · exact hst

end Found

/-! ## Where it starts -/

theorem tracksFrom_perm : ∀ n ∈ [4, 5], ∀ pos < n, (tracksFrom n n pos).Perm (List.range n) := by decide

/-- What the maxima are taken of is never negative. -/
theorem slt_magnitude (x : Word16) : BitVec.slt (-1) (if BitVec.sle 0 x then x else negate x) := by
  have hone : (-1 : Word16).toInt = -1 := by decide
  have hzero : (0 : Word16).toInt = 0 := rfl
  rw [BitVec.slt_iff_toInt_lt, hone]
  split
  · rename_i h
    rw [BitVec.sle_iff_toInt_le] at h
    omega
  · rename_i h
    rw [BitVec.sle_iff_toInt_le] at h
    unfold negate
    split
    · decide
    · rename_i hne
      rw [BitVec.toInt_neg_of_ne_intMin hne]
      omega

section Starts
variable {en : Nat → Word16} (hen : ∀ j, BitVec.slt (-1) (en j))
include hen

theorem greatest_mem {js : List Nat} (hjs : js ≠ []) (pos : Nat) : (greatest en js pos).2 ∈ js := by
  cases js with
  | nil => exact absurd rfl hjs
  | cons j js =>
    rw [greatest, List.foldl_cons, if_pos (hen j)]
    refine List.foldlRecOn (motive := fun best : Word16 × Nat => best.2 ∈ j :: js) js _ List.mem_cons_self ?_
    intro best hbest k hk
    split
    · exact List.mem_cons_of_mem _ hk
    · exact hbest

theorem trackMaxima_spec {nbTrack step : Nat} (hn : 0 < nbTrack) (hle : nbTrack ≤ step) (hstep : step ≤ lCode) :
    (∀ t < nbTrack, (trackMaxima en nbTrack step).posMax.getD t 0 ∈ positions t step) ∧
      (trackMaxima en nbTrack step).ipos0 < nbTrack := by
  have hloop : ∀ k ≤ nbTrack,
      let st := (List.range k).foldl (trackMax en step) ⟨0, [], -1, 0⟩
      st.posMax.length = k ∧ (∀ t < k, st.posMax.getD t 0 ∈ positions t step) ∧ st.ipos0 < nbTrack := by
    intro k
    induction k with
    | zero => exact fun _ => ⟨rfl, fun _ ht => absurd ht (Nat.not_lt_zero _), hn⟩
    | succ k ih =>
      intro hk
      obtain ⟨hlen, hpos, hipos⟩ := ih (by omega)
      rw [List.range_succ, List.foldl_append, List.foldl_cons, List.foldl_nil]
      generalize (List.range k).foldl (trackMax en step) ⟨0, [], -1, 0⟩ = st at hlen hpos hipos
      have hne : positions k step ≠ [] := List.ne_nil_of_mem (start_mem_positions (by omega) hstep)
      have hmem := greatest_mem hen hne st.pos
      have hnext : (trackMax en step st k).posMax = st.posMax ++ [(greatest en (positions k step) st.pos).2] ∧
          (trackMax en step st k).ipos0 < nbTrack := by
        unfold trackMax
        dsimp only
        split
        · exact ⟨rfl, hk⟩
        · exact ⟨rfl, hipos⟩
      dsimp only
      rw [hnext.1]
      refine ⟨by simp [hlen], fun t ht => ?_, hnext.2⟩
      rcases Nat.lt_succ_iff_lt_or_eq.1 ht with ht | rfl
      · rw [List.getD_append _ _ _ _ (hlen.symm ▸ ht)]
        exact hpos t ht
      · rw [List.getD_append_right _ _ _ _ hlen.le, hlen, Nat.sub_self]
        exact hmem
  obtain ⟨_, hpos, hipos⟩ := hloop nbTrack (Nat.le_refl _)
  exact ⟨hpos, hipos⟩

end Starts

theorem setSign12k2_starts {n : Nat} (hn : n = 4 ∨ n = 5) (cor : Nat → Word16) :
    (∀ t < n, (setSign12k2 cor n n).posMax.getD t 0 ∈ positions t n) ∧
      (setSign12k2 cor n n).ipos.Perm (List.range n ++ List.range n) := by
  have hle : n ≤ lCode := by rcases hn with rfl | rfl <;> decide
  obtain ⟨hpos, hipos⟩ := trackMaxima_spec (fun j => slt_magnitude (cor j)) (show 0 < n by omega) (Nat.le_refl n) hle
  have hperm := tracksFrom_perm n (by simpa using hn) _ hipos
  exact ⟨hpos, hperm.append hperm⟩

/-! ## The tracks, one by one -/

/-- The pulse at `i` is negative. -/
def negative (sign : Nat → Word16) (i : Nat) : Bool := !BitVec.slt 0 (sign i)

/-- A pulse of size `a`. -/
def signed (a : Int) (neg : Bool) : Int := if neg then -a else a

/-- The value that `build_code` adds. -/
theorem signed_negative (a : Int) (sign : Nat → Word16) (i : Nat) :
    (if BitVec.slt 0 (sign i) then a else -a) = signed a (negative sign i) := by
  rw [signed, negative]
  cases BitVec.slt 0 (sign i) <;> rfl

/-- The value that a decoder reads from a sign bit. -/
theorem signed_toInt (a : Int) (s : Bool) : (if s.toInt = 0 then a else -a) = signed a s := by cases s <;> rfl

theorem neg_signed (a : Int) (s : Bool) (h : Prop) [Decidable h] :
    (if h then -signed a s else signed a s) = signed a (if h then !s else s) := by
  split
  · cases s <;> simp [signed]
  · rfl

theorem TwoEach.pair {n : Nat} {codvec : List Nat} (h : TwoEach n codvec) {t : Nat} (ht : t < n) :
    ∃ p q, codvec.filter (· % n = t) = [p, q] ∧ (p < lCode ∧ p % n = t) ∧ q < lCode ∧ q % n = t := by
  have hone : (List.range n).count t = 1 := List.count_eq_one_of_mem List.nodup_range (List.mem_range.2 ht)
  have hcount : (codvec.filter (· % n = t)).length = 2 := by
    have hperm := h.tracks.count_eq t
    rw [List.count_append, hone, List.count, List.countP_map, List.countP_eq_length_filter] at hperm
    exact hperm
  obtain ⟨p, q, hpq⟩ := List.length_eq_two.1 hcount
  have hmem : ∀ r ∈ [p, q], r < lCode ∧ r % n = t := by
    intro r hr
    rw [← hpq, List.mem_filter] at hr
    exact ⟨h.lt r hr.1, by simpa using hr.2⟩
  exact ⟨p, q, hpq, hmem p (by simp), hmem q (by simp)⟩

/-- The two pulses of a track in a decoder: the first is stored, and the second is added. -/
def decPair (a : Int) (n t : Nat) (c : Nat × Bool × Nat) (cod : Nat → Int) : Nat → Int :=
  let cod := Function.update cod (c.1 * n + t) (signed a c.2.1)
  let pos2 := c.2.2 * n + t
  Function.update cod pos2 (cod pos2 + signed a (if c.2.2 < c.1 then !c.2.1 else c.2.1))

section Pass
variable (a : Int) {n t : Nat} (ht : t < n) (c : Nat × Bool × Nat)

theorem decPair_zero : decPair a n t c (fun _ => 0) =
    add ((pairPulses c).map fun c => (c.1 * n + t, signed a c.2)) fun _ => 0 := by
  unfold decPair add pairPulses
  simp only [List.map_cons, List.map_nil, List.foldl_cons, List.foldl_nil, zero_add]

include ht

theorem decPair_frame (cod : Nat → Int) {p : Nat} (hp : p % n ≠ t) : decPair a n t c cod p = cod p := by
  have hne : ∀ x, p ≠ x * n + t := by
    rintro x rfl
    exact hp (by rw [Nat.mul_comm, Nat.mul_add_mod, Nat.mod_eq_of_lt ht])
  unfold decPair
  rw [Function.update_of_ne (hne _), Function.update_of_ne (hne _)]

theorem decPair_reads {cod cod' : Nat → Int} (h : ∀ p, p % n = t → cod p = cod' p) {p : Nat} (hp : p % n = t) :
    decPair a n t c cod p = decPair a n t c cod' p := by
  have hfirst : ∀ p, p % n = t → Function.update cod (c.1 * n + t) (signed a c.2.1) p =
      Function.update cod' (c.1 * n + t) (signed a c.2.1) p := by
    intro p hp
    simp only [Function.update_apply, h p hp]
  have hmod : (c.2.2 * n + t) % n = t := by rw [Nat.mul_comm, Nat.mul_add_mod, Nat.mod_eq_of_lt ht]
  unfold decPair
  rw [hfirst _ hmod]
  by_cases he : p = c.2.2 * n + t
  · rw [he, Function.update_self, Function.update_self]
  · rw [Function.update_of_ne he, Function.update_of_ne he, hfirst p hp]

end Pass

/-- A decoder that goes by tracks, and on each places what the code of its two pulses says, rebuilds the code vector. -/
theorem TwoEach.rebuilt {n : Nat} {codvec : List Nat} (h : TwoEach n codvec) (hn : 0 < n) (a : Int) (sign : Nat → Word16)
    {pass : (Nat → Int) → Nat → Nat → Int}
    (hpass : ∀ t < n, ∀ p q, codvec.filter (· % n = t) = [p, q] → p < lCode → q < lCode → ∀ cod,
      pass cod t = decPair a n t (pairCode (p / n, negative sign p) (q / n, negative sign q)) cod) :
    (List.range n).foldl pass (fun _ => 0) = add (codvec.map fun i => (i, signed a (negative sign i))) fun _ => 0 := by
  have hall : ∀ t < n, ∃ c, ∀ cod, pass cod t = decPair a n t c cod := by
    intro t ht
    obtain ⟨p, q, hpq, ⟨hp, -⟩, hq, -⟩ := h.pair ht
    exact ⟨_, hpass t ht p q hpq hp hq⟩
  have hframe : ∀ t ∈ List.range n, ∀ cod p, p % n ≠ t → pass cod t p = cod p := by
    intro t ht cod p hp
    obtain ⟨c, hc⟩ := hall t (List.mem_range.1 ht)
    rw [hc, decPair_frame a (List.mem_range.1 ht) c cod hp]
  have hreads : ∀ t ∈ List.range n, ∀ cod cod', (∀ p, p % n = t → cod p = cod' p) → ∀ p, p % n = t →
      pass cod t p = pass cod' t p := by
    intro t ht cod cod' hcod p hp
    obtain ⟨c, hc⟩ := hall t (List.mem_range.1 ht)
    rw [hc, hc, decPair_reads a (List.mem_range.1 ht) c hcod hp]
  funext x
  have hx : x % n < n := Nat.mod_lt _ hn
  obtain ⟨p, q, hpq, ⟨hlp, hp⟩, hlq, hq⟩ := h.pair hx
  have hpair : p / n = q / n → negative sign p = negative sign q := by
    intro he
    rw [show p = q by rw [← Nat.div_add_mod p n, ← Nat.div_add_mod q n, he, hp, hq]]
  have hback : ∀ r, r % n = x % n → (r / n * n + x % n, signed a (negative sign r)) = (r, signed a (negative sign r)) := by
    intro r hr
    rw [← hr, Nat.div_add_mod']
  rw [foldl_keys (· % n) List.nodup_range hframe hreads _ (List.mem_range.2 hx), hpass _ hx p q hpq hlp hlq,
    decPair_zero,
    add_perm ((pairPulses_pairCode hpair).map _), add_filter (· % n) (codvec.map _), List.filter_map]
  simp only [List.map_cons, List.map_nil]
  rw [hback p hp, hback q hq]
  simp only [Function.comp_def, hpq, List.map_cons, List.map_nil]

/-! ## `MR102` -/

theorem TrackIndex.place_pair (p q : Nat × Bool) (junk : Int) :
    ((⟨-1, -1, junk⟩ : TrackIndex).place p.1 p.2.toInt).place q.1 q.2.toInt =
      ⟨(pairCode p q).1, (pairCode p q).2.1.toInt, (pairCode p q).2.2⟩ := by
  obtain ⟨p, s⟩ := p
  obtain ⟨q, t⟩ := q
  have hfirst : (⟨-1, -1, junk⟩ : TrackIndex).place p s.toInt = ⟨p, s.toInt, junk⟩ := rfl
  rw [hfirst]
  unfold TrackIndex.place pairCode
  cases s <;> cases t <;> by_cases hle : p ≤ q <;> simp [hle]

/-- What `compress10` makes of three positions fits ten bits, and gives them back. -/
theorem decompress10_compress10 : ∀ a < 10, ∀ b < 10, ∀ c < 10,
    decompress10 (compress10 (a : Nat) (b : Nat) (c : Nat) / 8) (compress10 a b c % 8) = (↑a, ↑b, ↑c) ∧
      0 ≤ compress10 a b c ∧ compress10 a b c < 2 ^ 10 := by
  decide +kernel

theorem decompress7_compress7 : ∀ a < 10, ∀ b < 10,
    decompress7 (compress7 (a : Nat) (b : Nat) / 4) (compress7 a b % 4) = (↑a, ↑b) ∧ 0 ≤ compress7 a b ∧
      compress7 a b < 2 ^ 7 := by
  decide +kernel

/-- The cells give two positions and a sign. -/
def TrackIndex.Fits (c : TrackIndex) : Prop := ∃ a < 10, ∃ b < 10, ∃ s : Bool, c = ⟨(a : Nat), s.toInt, (b : Nat)⟩

theorem decompressCode_compressCode {t : Nat → TrackIndex} (h : ∀ j < 4, (t j).Fits) :
    decompressCode (compressCode t) = [t 0, t 1, t 2, t 3] ∧
      List.Forall₂ (fun v n => 0 ≤ v ∧ v < 2 ^ n) (compressCode t) [1, 1, 1, 1, 10, 10, 7] := by
  obtain ⟨a0, ha0, b0, hb0, s0, h0⟩ := h 0 (by decide)
  obtain ⟨a1, ha1, b1, hb1, s1, h1⟩ := h 1 (by decide)
  obtain ⟨a2, ha2, b2, hb2, s2, h2⟩ := h 2 (by decide)
  obtain ⟨a3, ha3, b3, hb3, s3, h3⟩ := h 3 (by decide)
  obtain ⟨he1, hr1⟩ := decompress10_compress10 a0 ha0 b0 hb0 a1 ha1
  obtain ⟨he2, hr2⟩ := decompress10_compress10 a2 ha2 b2 hb2 b1 hb1
  obtain ⟨he3, hr3⟩ := decompress7_compress7 a3 ha3 b3 hb3
  have hsign : ∀ s : Bool, 0 ≤ s.toInt ∧ s.toInt < 2 ^ 1 := by decide
  simp only [compressCode, h0, h1, h2, h3]
  refine ⟨?_, .cons (hsign s0) (.cons (hsign s1) (.cons (hsign s2) (.cons (hsign s3) (.cons hr1 (.cons hr2 (.cons hr3 .nil))))))⟩
  simp only [decompressCode, List.getD_cons_zero, List.getD_cons_succ, he1, he2, he3]

section Built
variable (codvec : List Nat) (sign : Nat → Word16) (junk : Int)

theorem buildCode31bits_cod :
    (buildCode31bits codvec sign junk).1 = add (codvec.map fun i => (i, signed 8191 (negative sign i))) fun _ => 0 := by
  rw [buildCode31bits, add, List.foldl_map]
  simp only [← signed_negative]

theorem buildCode31bits_cells {t p q : Nat} (h : codvec.filter (· % 4 = t) = [p, q]) :
    (buildCode31bits codvec sign junk).2 t =
      let c := pairCode (p / 4, negative sign p) (q / 4, negative sign q)
      ⟨c.1, c.2.1.toInt, c.2.2⟩ := by
  have hneg : ∀ i, (if BitVec.slt 0 (sign i) then 0 else 1) = (negative sign i).toInt := by
    intro i
    rw [negative]
    cases BitVec.slt 0 (sign i) <;> rfl
  refine (foldl_at (· % 4) (fun (c : TrackIndex) (i : Nat) => c.place (i / 4) (if BitVec.slt 0 (sign i) then 0 else 1))
    codvec (fun _ => ⟨-1, -1, junk⟩) t).trans ?_
  rw [h]
  simp only [List.foldl_cons, List.foldl_nil, hneg]
  exact TrackIndex.place_pair (p / 4, _) (q / 4, _) junk

end Built

theorem decTrack_eq {a b j : Nat} (ha : a < 10) (hb : b < 10) (hj : j < 4) (s : Bool) (cod : Nat → Int) :
    decTrack ⟨a, s.toInt, b⟩ cod j = decPair 8191 4 j (a, s, b) cod := by
  have hpos : ∀ x : Nat, ((x : Int) * 4 + j).toNat = x * 4 + j := fun x => by omega
  have hlt : ∀ x < 10, x * 4 + j < lCode := by
    intro x hx
    rw [lCode]
    omega
  have hcmp : b * 4 + j < a * 4 + j ↔ b < a := by omega
  unfold decTrack decPair
  simp only [hpos, if_pos (hlt a ha), if_pos (hlt b hb), signed_toInt, neg_signed, hcmp]

/-- `MR102`: two pulses on each track come back, and the parameters have the bits of `bitno`. -/
theorem dec8i40_buildCode31bits {codvec : List Nat} (h : TwoEach 4 codvec) (sign : Nat → Word16) (junk : Int) :
    let (cod, t) := buildCode31bits codvec sign junk
    dec8i40_31bits (compressCode t) = cod ∧
      List.Forall₂ (fun v n => 0 ≤ v ∧ v < 2 ^ n) (compressCode t) [1, 1, 1, 1, 10, 10, 7] := by
  dsimp only
  have hcode : ∀ p q : Nat, p < lCode → q < lCode →
      let c := pairCode (p / 4, negative sign p) (q / 4, negative sign q)
      c.1 < 10 ∧ c.2.2 < 10 := by
    intro p q hp hq
    rw [lCode] at hp hq
    unfold pairCode
    split <;> split <;> dsimp only <;> omega
  have hcells : ∀ t < 4, ((buildCode31bits codvec sign junk).2 t).Fits := by
    intro t ht
    obtain ⟨p, q, hpq, ⟨hp, -⟩, hq, -⟩ := h.pair ht
    obtain ⟨ha, hb⟩ := hcode p q hp hq
    rw [buildCode31bits_cells codvec sign junk hpq]
    exact ⟨_, ha, _, hb, _, rfl⟩
  obtain ⟨hback, hfits⟩ := decompressCode_compressCode hcells
  refine ⟨?_, hfits⟩
  rw [dec8i40_31bits, hback, buildCode31bits_cod]
  refine h.rebuilt (by decide) 8191 sign fun t ht p q hpq hp hq cod => ?_
  have hget : [(buildCode31bits codvec sign junk).2 0, (buildCode31bits codvec sign junk).2 1,
      (buildCode31bits codvec sign junk).2 2, (buildCode31bits codvec sign junk).2 3].getD t ⟨0, 0, 0⟩ =
      (buildCode31bits codvec sign junk).2 t := by
    match t, ht with
    | 0, _ | 1, _ | 2, _ | 3, _ => rfl
  obtain ⟨ha, hb⟩ := hcode p q hp hq
  rw [hget, buildCode31bits_cells codvec sign junk hpq]
  exact decTrack_eq ha hb ht _ cod

/-- Whatever the correlations, the decoder rebuilds the code vector of the search. -/
theorem dec8i40_code8i40 (cor dn : Nat → Word16) (rr : Nat → Nat → Word16) (junk : Int) :
    dec8i40_31bits (code8i40_31bits cor dn rr junk).2 = (code8i40_31bits cor dn rr junk).1 ∧
      List.Forall₂ (fun v n => 0 ≤ v ∧ v < 2 ^ n) (code8i40_31bits cor dn rr junk).2 [1, 1, 1, 1, 10, 10, 7] := by
  obtain ⟨hmax, hipos⟩ := setSign12k2_starts (.inl rfl) cor
  exact dec8i40_buildCode31bits (search10and8i40_twoEach (by decide) dn rr hmax hipos rfl (.inl rfl)) _ junk

/-! ## `MR122` -/

theorem TrackCode.place_pair {p q : Nat × Bool} (hp : p.1 < 8) (hq : q.1 < 8) (junk : Int) :
    let c := ((⟨-1, junk⟩ : TrackCode).place (p.1 + 8 * p.2.toInt)).place (q.1 + 8 * q.2.toInt)
    c.first = (pairCode p q).1 + 8 * (pairCode p q).2.1.toInt ∧ c.second % 8 = (pairCode p q).2.2 := by
  obtain ⟨p, s⟩ := p
  obtain ⟨q, t⟩ := q
  dsimp only at hp hq
  have hbit : 0 ≤ s.toInt := by cases s <;> decide
  have hneg : ¬((p : Int) + 8 * s.toInt < 0) := by omega
  have hfirst : (⟨-1, junk⟩ : TrackCode).place (p + 8 * s.toInt) = ⟨p + 8 * s.toInt, junk⟩ := rfl
  have hdiv : ∀ x : Nat, x < 8 → ∀ b : Bool, ((x : Int) + 8 * b.toInt) / 8 = b.toInt ∧ ((x : Int) + 8 * b.toInt) % 8 = x := by
    intro x hx b
    omega
  rw [hfirst]
  unfold TrackCode.place pairCode
  rw [if_neg hneg, (hdiv p hp s).1, (hdiv q hq t).1, (hdiv p hp s).2, (hdiv q hq t).2]
  cases s <;> cases t <;> by_cases hle : p ≤ q <;> simp [hle] <;> omega

/-- The multiplication divides. -/
theorem div_five : ∀ i < lCode, i * 6554 / 32768 = i / 5 := by decide

section Built35
variable {codvec : List Nat} (h : TwoEach 5 codvec) (sign : Nat → Word16) (junk : Int)

theorem buildCode35bits_cod (codvec : List Nat) :
    (buildCode35bits codvec sign junk).1 = add (codvec.map fun i => (i, signed 4096 (negative sign i))) fun _ => 0 := by
  rw [buildCode35bits, add, List.foldl_map]
  simp only [← signed_negative]

include h in
theorem buildCode35bits_cells {t p q : Nat} (hpq : codvec.filter (· % 5 = t) = [p, q]) (hp : p < lCode)
    (hq : q < lCode) :
    let c := pairCode (p / 5, negative sign p) (q / 5, negative sign q)
    ((buildCode35bits codvec sign junk).2 t).first = c.1 + 8 * c.2.1.toInt ∧
      ((buildCode35bits codvec sign junk).2 t).second % 8 = c.2.2 := by
  have hindex : ∀ i < lCode, (if BitVec.slt 0 (sign i) then ((i * 6554 / 32768 : Nat) : Int)
      else ((i * 6554 / 32768 : Nat) : Int) + 8) = ((i / 5 : Nat) : Int) + 8 * (negative sign i).toInt := by
    intro i hi
    rw [div_five i hi, negative]
    cases BitVec.slt 0 (sign i) <;> simp
  have hfilter : codvec.filter (fun i => i - (i * 6554 / 32768 + 4 * (i * 6554 / 32768)) = t) = [p, q] := by
    rw [← hpq]
    refine List.filter_congr fun i hi => ?_
    rw [div_five i (h.lt i hi), show i - (i / 5 + 4 * (i / 5)) = i % 5 by omega]
  have hcells : (buildCode35bits codvec sign junk).2 t =
      ((⟨-1, junk⟩ : TrackCode).place ((p / 5 : Nat) + 8 * (negative sign p).toInt)).place
        ((q / 5 : Nat) + 8 * (negative sign q).toInt) := by
    refine (foldl_at (fun i : Nat => i - (i * 6554 / 32768 + 4 * (i * 6554 / 32768)))
      (fun (c : TrackCode) (i : Nat) => c.place (if BitVec.slt 0 (sign i) then ((i * 6554 / 32768 : Nat) : Int)
        else ((i * 6554 / 32768 : Nat) : Int) + 8)) codvec (fun _ => ⟨-1, junk⟩) t).trans ?_
    rw [hfilter, List.foldl_cons, List.foldl_cons, List.foldl_nil, hindex p hp, hindex q hq]
  rw [hcells]
  rw [lCode] at hp hq
  exact TrackCode.place_pair (p := (p / 5, _)) (q := (q / 5, _)) (by dsimp only; omega) (by dsimp only; omega) junk

end Built35

theorem dgray_gray : ∀ x < 8, gray.getD x 0 < 8 ∧ dgray.getD (gray.getD x 0) 0 = x := by decide

/-- What `q_p` leaves of the cells of a track, of positions `x` and `y`. -/
theorem qP_cells {x y : Nat} (hx : x < 8) (s : Bool) {c : TrackCode} (hfirst : c.first = x + 8 * s.toInt)
    (hsecond : c.second % 8 = y) {j : Nat} (hj : j < 5) :
    qP c.first j = s.toInt * 8 + gray.getD x 0 ∧ qP c.second (j + 5) = gray.getD y 0 := by
  have hmod : c.first % 8 = x := by omega
  have hdiv : c.first / 8 % 2 = s.toInt := by
    have hbit : s.toInt = 0 ∨ s.toInt = 1 := by cases s <;> decide
    omega
  unfold qP
  rw [if_pos hj, if_neg (by omega), hmod, hdiv, hsecond, Int.toNat_natCast, Int.toNat_natCast]
  exact ⟨rfl, rfl⟩

theorem decTrack35_eq {x y j : Nat} (hx : x < 8) (hy : y < 8) (s : Bool) {indx : List Int}
    (hfirst : indx.getD j 0 = s.toInt * 8 + gray.getD x 0) (hsecond : indx.getD (j + 5) 0 = gray.getD y 0)
    (cod : Nat → Int) : decTrack35 indx cod j = decPair 4096 5 j (x, s, y) cod := by
  obtain ⟨hgx, hdx⟩ := dgray_gray x hx
  obtain ⟨hgy, hdy⟩ := dgray_gray y hy
  have hpos1 : ((s.toInt * 8 + gray.getD x 0) % 8).toNat = gray.getD x 0 := by omega
  have hpos2 : (((gray.getD y 0 : Nat) : Int) % 8).toNat = gray.getD y 0 := by omega
  have hbit : (s.toInt * 8 + gray.getD x 0) / 8 % 2 = s.toInt := by
    have hs : s.toInt = 0 ∨ s.toInt = 1 := by cases s <;> decide
    omega
  have hcmp : y * 5 + j < x * 5 + j ↔ y < x := by omega
  unfold decTrack35 decPair
  simp only [hfirst, hsecond, hpos1, hpos2, hbit, hdx, hdy, signed_toInt, neg_signed, hcmp]

/-- `MR122`: two pulses on each track come back, and the parameters have the bits of `bitno`. -/
theorem dec10i40_buildCode35bits {codvec : List Nat} (h : TwoEach 5 codvec) (sign : Nat → Word16) (junk : Int) :
    let (cod, t) := buildCode35bits codvec sign junk
    dec10i40_35bits (codeParams35 t) = cod ∧
      List.Forall₂ (fun v n => 0 ≤ v ∧ v < 2 ^ n) (codeParams35 t) [4, 4, 4, 4, 4, 3, 3, 3, 3, 3] := by
  dsimp only
  have hcode : ∀ p q : Nat, p < lCode → q < lCode →
      let c := pairCode (p / 5, negative sign p) (q / 5, negative sign q)
      c.1 < 8 ∧ c.2.2 < 8 := by
    intro p q hp hq
    rw [lCode] at hp hq
    unfold pairCode
    split <;> split <;> dsimp only <;> omega
  generalize hbuild : buildCode35bits codvec sign junk = built
  have hqp : ∀ j < 5, ∀ p q, codvec.filter (· % 5 = j) = [p, q] → p < lCode → q < lCode →
      let c := pairCode (p / 5, negative sign p) (q / 5, negative sign q)
      qP (built.2 j).first j = c.2.1.toInt * 8 + gray.getD c.1 0 ∧ qP (built.2 j).second (j + 5) = gray.getD c.2.2 0 := by
    intro j hj p q hpq hp hq
    obtain ⟨hfirst, hsecond⟩ := buildCode35bits_cells h sign junk hpq hp hq
    rw [hbuild] at hfirst hsecond
    obtain ⟨hx, -⟩ := hcode p q hp hq
    exact qP_cells hx _ hfirst hsecond hj
  have hget : ∀ j < 5, (codeParams35 built.2).getD j 0 = qP (built.2 j).first j ∧
      (codeParams35 built.2).getD (j + 5) 0 = qP (built.2 j).second (j + 5) := by
    intro j hj
    match j, hj with
    | 0, _ | 1, _ | 2, _ | 3, _ | 4, _ => exact ⟨rfl, rfl⟩
  constructor
  · rw [dec10i40_35bits, ← hbuild, buildCode35bits_cod, hbuild]
    refine h.rebuilt (by decide) 4096 sign fun t ht p q hpq hp hq cod => ?_
    obtain ⟨hx, hy⟩ := hcode p q hp hq
    obtain ⟨hfirst, hsecond⟩ := hqp t ht p q hpq hp hq
    exact decTrack35_eq hx hy _ ((hget t ht).1.trans hfirst) ((hget t ht).2.trans hsecond) cod
  · have hfits : ∀ j < 5, (0 ≤ qP (built.2 j).first j ∧ qP (built.2 j).first j < 2 ^ 4) ∧
        0 ≤ qP (built.2 j).second (j + 5) ∧ qP (built.2 j).second (j + 5) < 2 ^ 3 := by
      intro j hj
      obtain ⟨p, q, hpq, ⟨hp, -⟩, hq, -⟩ := h.pair hj
      obtain ⟨hx, hy⟩ := hcode p q hp hq
      obtain ⟨hfirst, hsecond⟩ := hqp j hj p q hpq hp hq
      rw [hfirst, hsecond]
      have hbit : ∀ s : Bool, 0 ≤ s.toInt ∧ s.toInt ≤ 1 := by decide
      have hs := hbit (pairCode (p / 5, negative sign p) (q / 5, negative sign q)).2.1
      have hgx := (dgray_gray _ hx).1
      have hgy := (dgray_gray _ hy).1
      omega
    obtain ⟨f0, s0⟩ := hfits 0 (by decide)
    obtain ⟨f1, s1⟩ := hfits 1 (by decide)
    obtain ⟨f2, s2⟩ := hfits 2 (by decide)
    obtain ⟨f3, s3⟩ := hfits 3 (by decide)
    obtain ⟨f4, s4⟩ := hfits 4 (by decide)
    exact .cons f0 (.cons f1 (.cons f2 (.cons f3 (.cons f4 (.cons s0 (.cons s1 (.cons s2 (.cons s3 (.cons s4 .nil)))))))))

/-- Whatever the correlations, the decoder rebuilds the code vector of the search. -/
theorem dec10i40_code10i40 (cor dn : Nat → Word16) (rr : Nat → Nat → Word16) (junk : Int) :
    dec10i40_35bits (code10i40_35bits cor dn rr junk).2 = (code10i40_35bits cor dn rr junk).1 ∧
      List.Forall₂ (fun v n => 0 ≤ v ∧ v < 2 ^ n) (code10i40_35bits cor dn rr junk).2 [4, 4, 4, 4, 4, 3, 3, 3, 3, 3] := by
  obtain ⟨hmax, hipos⟩ := setSign12k2_starts (.inr rfl) cor
  exact dec10i40_buildCode35bits (search10and8i40_twoEach (by decide) dn rr hmax hipos rfl (.inr rfl)) _ junk

end AudioRecorder.Codec
