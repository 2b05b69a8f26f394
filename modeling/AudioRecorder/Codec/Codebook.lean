import AudioRecorder.Codec.PostFilter
import AudioRecorder.Lib.Pulses
import Mathlib.Tactic.Ring
/-!
# Codebooks of one pulse to a slot

The code vector of a subframe has two to four pulses in the modes up to `MR795`.
The encoder searches their positions (`search_2i40`, `search_3i40`, `search_4i40`) and
packs them into an index and a word of signs (`build_code`), from which the decoder
places them (`decode_2i40_9bits`, `decode_2i40_11bits`, `decode_3i40_14bits`,
`decode_4i40_17bits`). The correlations `dn` and `rr` and the signs `dn_sign` are
inputs. Of `build_code` the filtered vector `y` is left out.
-/

namespace AudioRecorder.Codec

open Pulses (put put_apply put_congr)

/-- `L_CODE`. -/
def lCode : Nat := 40

/-- `for (i = start; i < L_CODE; i += step)`. -/
def positions (start step : Nat) : List Nat := List.range' start ((lCode - start + step - 1) / step) step

/-- `(Word32) x`. -/
def w32 (x : Word16) : Word32 := x.signExtend 32

/-- `add_16`. -/
def addSat (a b : Word16) : Word16 :=
  if a.toInt + b.toInt > 32767 then max16 else if a.toInt + b.toInt < -32768 then min16 else a + b

/-! ## The searches -/

/-- The local variables of an inner loop: the best pulse so far. -/
structure Best where
  sq : Word16
  ps : Word16
  alp : Word16
  ix : Nat

/-- A pass of an inner loop, for a pulse at `i` of correlation `ps1` and energy `alp1`. -/
def searchStep (ps1 : Nat → Word16) (alp1 : Nat → Word32) (b : Best) (i : Nat) : Best :=
  let sq1 := narrow (mul16 (ps1 i) (ps1 i)) 15
  let alp16 := narrow (alp1 i + 0x8000) 16
  let s := mul16 b.alp sq1 <<< 1 - mul16 b.sq alp16 <<< 1
  if BitVec.slt 0 s then ⟨sq1, ps1 i, alp16, i⟩ else b

/-- An inner loop. -/
def searchTrack (ps1 : Nat → Word16) (alp1 : Nat → Word32) (start : Nat) : Best :=
  (positions start 5).foldl (searchStep ps1 alp1) ⟨-1, 0, 1, start⟩

/-- What a search keeps: the best code vector, which is what it leaves. -/
structure Search where
  psk : Word16
  alpk : Word16
  codvec : List Nat

/-- The end of an outer loop, given the 32 bit value that is tested. -/
def Search.accept (st : Search) (s : Word32) (b : Best) (codvec : List Nat) : Search :=
  if BitVec.slt 0 s then ⟨b.sq, b.alp, codvec⟩ else st

/-- `(alpk * sq << 1) - (psk * alp << 1)`. -/
def Search.gain (st : Search) (b : Best) : Word32 := mul16 st.alpk b.sq <<< 1 - mul16 st.psk b.alp <<< 1

/-- `L_msu(L_mult(alpk, sq), psk, alp)`. -/
def Search.gainSat (st : Search) (b : Best) : Word32 :=
  let mult := fun (x y : Word16) => if mul16 x y = 0x40000000 then max32 else mul16 x y <<< 1
  let a := mult st.alpk b.sq
  let p := mult st.psk b.alp
  if (a ^^^ p).msb ∧ ((a - p) ^^^ a).msb then (if a.msb then min32 else max32) else a - p

section Searches
variable (dn dn2 : Nat → Word16) (rr : Nat → Nat → Word16)

/-- The energy of two pulses. -/
def energyTwo (i0 i1 : Nat) : Word32 := w32 (rr i0 i0) <<< 14 + w32 (rr i1 i1) <<< 14 + w32 (rr i0 i1) <<< 15

/-- The loops of `search_2i40` over two tracks. -/
def searchPair (add : Word16 → Word16 → Word16) (start0 start1 : Nat) (st : Search) : Search :=
  (positions start0 5).foldl (fun st i0 =>
    let b := searchTrack (fun i1 => add (dn i0) (dn i1)) (energyTwo rr i0) start1
    st.accept (st.gain b) b [i0, b.ix]) st

/-- `startPos`. -/
def startPos : List Nat := [0, 2, 0, 3, 0, 2, 0, 3, 1, 3, 2, 4, 1, 4, 1, 4]

/-- `search_2i40` of `c2_9pf.cpp`. -/
def search2i40_9bits (subNr : Nat) : Search :=
  (List.range 2).foldl (fun st track1 =>
    let i := 2 * subNr + 8 * track1
    searchPair dn rr (· + ·) (startPos.getD i 0) (startPos.getD (i + 1) 0) st) ⟨-1, 1, [0, 1]⟩

/-- `startPos1`. -/
def startPos1 : List Nat := [1, 3]

/-- `startPos2`. -/
def startPos2 : List Nat := [0, 1, 2, 4]

/-- `search_2i40` of `c2_11pf.cpp`. -/
def search2i40_11bits : Search :=
  (List.range 2).foldl (fun st track1 => (List.range 4).foldl (fun st track2 =>
    searchPair dn rr addSat (startPos1.getD track1 0) (startPos2.getD track2 0) st) st) ⟨-1, 1, [0, 1]⟩

/-- The third pulse, beside the best second one. -/
def searchThird (i0 : Nat) (b : Best) (start : Nat) : Best :=
  searchTrack (fun i2 => b.ps + dn i2)
    (fun i2 => w32 b.alp <<< 14 + w32 (rr i2 i2) <<< 12 + w32 (rr b.ix i2) <<< 13 + w32 (rr i0 i2) <<< 13) start

/-- The fourth pulse. -/
def searchFourth (i0 i1 : Nat) (b : Best) (start : Nat) : Best :=
  searchTrack (fun i3 => b.ps + dn i3)
    (fun i3 => w32 b.alp <<< 16 + w32 (rr i3 i3) <<< 12 + w32 (rr b.ix i3) <<< 13 + w32 (rr i1 i3) <<< 13
      + w32 (rr i0 i3) <<< 13) start

/-- The first starts move one place on, and the last comes to the front. -/
def shiftStarts (ipos : List Nat) : List Nat := ipos.getLastD 0 :: ipos.dropLast

/-- The loops of `search_3i40` for one order of the tracks. -/
def searchThree (ipos : List Nat) (st : Search) : Search :=
  (positions (ipos.getD 0 0) 5).foldl (fun st i0 =>
    if BitVec.sle 0 (dn2 i0) then
      let b1 := searchTrack (fun i1 => dn i0 + dn i1) (energyTwo rr i0) (ipos.getD 1 0)
      let b2 := searchThird dn rr i0 b1 (ipos.getD 2 0)
      st.accept (st.gainSat b2) b2 [i0, b1.ix, b2.ix]
    else st) st

/-- `search_3i40`: `track1` is 1 or 3, and `track2` 2 or 4. -/
def search3i40 : Search :=
  (List.range' 1 2 2).foldl (fun st track1 => (List.range' 2 2 2).foldl (fun st track2 =>
    ((List.range 3).foldl (fun (p : List Nat × Search) _ => (shiftStarts p.1, searchThree dn dn2 rr p.1 p.2))
      ([0, track1, track2], st)).2) st) ⟨-1, 1, [0, 1, 2]⟩

/-- The loops of `search_4i40` for one order of the tracks. -/
def searchFour (ipos : List Nat) (st : Search) : Search :=
  (positions (ipos.getD 0 0) 5).foldl (fun st i0 =>
    if BitVec.sle 0 (dn2 i0) then
      let b1 := searchTrack (fun i1 => dn i0 + dn i1) (energyTwo rr i0) (ipos.getD 1 0)
      let b2 := searchThird dn rr i0 b1 (ipos.getD 2 0)
      let b3 := searchFourth dn rr i0 b1.ix b2 (ipos.getD 3 0)
      st.accept (st.gain b3) b3 [i0, b1.ix, b2.ix, b3.ix]
    else st) st

/-- `search_4i40`: `track` is 3 or 4. -/
def search4i40 : Search :=
  (List.range' 3 2).foldl (fun st track =>
    ((List.range 4).foldl (fun (p : List Nat × Search) _ => (shiftStarts p.1, searchFour dn dn2 rr p.1 p.2))
      ([0, 1, 2, track], st)).2) ⟨-1, 1, [0, 1, 2, 3]⟩

end Searches

/-! ## Packing -/

/-- What `build_code` leaves: the index, the signs, and the code vector. -/
structure Coded where
  index : Nat
  sign : Nat
  cod : Nat → Int

/-- The value of a pulse, by the sign at its position. -/
def pulse (dnSign : Nat → Word16) (i : Nat) : Int := if BitVec.slt 0 (dnSign i) then 8191 else -8192

/-- A `build_code`, given for pulse `k` at position `i` its bit in the signs and its part of the index. -/
def buildCode (place : Nat → Nat → Nat × Nat) (codvec : List Nat) (dnSign : Nat → Word16) : Coded :=
  codvec.zipIdx.foldl (fun c ik =>
    let (track, index) := place ik.2 ik.1
    ⟨c.index + index, if BitVec.slt 0 (dnSign ik.1) then c.sign + 1 <<< track else c.sign,
      Function.update c.cod ik.1 (pulse dnSign ik.1)⟩) ⟨0, 0, fun _ => 0⟩

/-- `trackTable`. -/
def trackTable : List Int := [0, 1, 0, 1, -1, 0, -1, 1, 0, 1, 0, 1, 0, -1, 1, 0, 1, -1, 0, 1]

/-- The place of a pulse in `build_code` of `c2_9pf.cpp`. -/
def place9bits (subNr k i : Nat) : Nat × Nat :=
  let index := i * 6554 / 32768
  let first := trackTable.getD (subNr + 4 * subNr + (i - 5 * index)) 0
  if k = 0 then (0, if first ≠ 0 then index + 64 else index) else (1, index <<< 3)

/-- The place of a pulse in `build_code` of `c2_11pf.cpp`. -/
def place11bits (k i : Nat) : Nat × Nat :=
  let index := i * 6554 / 32768
  match i - 5 * index with
  | 0 => (1, index <<< 6)
  | 1 => if k = 0 then (0, index <<< 1) else (1, index <<< 6 + 16)
  | 2 => (1, index <<< 6 + 32)
  | 3 => (0, index <<< 1 + 1)
  | 4 => (1, index <<< 6 + 48)
  | track => (track, index)

/-- The place of a pulse in `build_code` of `c3_14pf.cpp`. -/
def place14bits (_ i : Nat) : Nat × Nat :=
  let index := i * 6554 / 32768
  match i - 5 * index with
  | 1 => (1, index <<< 4)
  | 2 => (2, index <<< 8)
  | 3 => (1, index <<< 4 + 8)
  | 4 => (2, index <<< 8 + 128)
  | track => (track, index)

/-- `gray`. -/
def gray : List Nat := [0, 1, 3, 2, 6, 4, 5, 7]

/-- `dgray`. -/
def dgray : List Nat := [0, 1, 3, 2, 5, 6, 4, 7]

/-- The place of a pulse in `build_code` of `c4_17pf.cpp`. -/
def place17bits (_ i : Nat) : Nat × Nat :=
  let index := i * 6554 / 32768
  let track := i - 5 * index
  let index := gray.getD index 0
  match track with
  | 1 => (1, index <<< 3)
  | 2 => (2, index <<< 6)
  | 3 => (3, index <<< 10)
  | 4 => (3, index <<< 10 + 512)
  | track => (track, index)

/-! ## Placing -/

/-- The pulse of a sign bit. -/
def signPulse (i : Nat) : Int := (i : Int) * 16383 - 8192

/-- The loop that ends each decoder: the signs are read from the lowest bit up. -/
def placePulses (pos : List Nat) (sign : Nat) : Nat → Int :=
  pos.zipIdx.foldl (fun cod pj => Function.update cod pj.1 (signPulse (sign >>> pj.2 &&& 1))) fun _ => 0

/-- `pos` of `decode_2i40_9bits`. -/
def pos9bits (subNr index : Nat) : List Nat :=
  let j := (index &&& 64) >>> 3
  let k := subNr <<< 1 + j
  [(index &&& 7) * 5 + startPos.getD k 0, (index >>> 3 &&& 7) * 5 + startPos.getD (k + 1) 0]

/-- `pos` of `decode_2i40_11bits`. -/
def pos11bits (index : Nat) : List Nat :=
  let j := index >>> 4 &&& 3
  let i := index >>> 6 &&& 7
  [(index >>> 1 &&& 7) * 5 + (index &&& 1) * 2 + 1, if j = 3 then i * 5 + 4 else i * 5 + j]

/-- `pos` of `decode_3i40_14bits`. -/
def pos14bits (index : Nat) : List Nat :=
  [(index &&& 7) * 5, (index >>> 4 &&& 7) * 5 + (index >>> 3 &&& 1) * 2 + 1,
    (index >>> 8 &&& 7) * 5 + (index >>> 7 &&& 1) * 2 + 2]

/-- `pos` of `decode_4i40_17bits`. -/
def pos17bits (index : Nat) : List Nat :=
  [dgray.getD (index &&& 7) 0 * 5, dgray.getD (index >>> 3 &&& 7) 0 * 5 + 1, dgray.getD (index >>> 6 &&& 7) 0 * 5 + 2,
    dgray.getD (index >>> 10 &&& 7) 0 * 5 + 3 + (index >>> 9 &&& 1)]

/-- `decode_2i40_9bits`. -/
def decode2i40_9bits (subNr sign index : Nat) : Nat → Int := placePulses (pos9bits subNr index) sign

/-- `decode_2i40_11bits`. -/
def decode2i40_11bits (sign index : Nat) : Nat → Int := placePulses (pos11bits index) sign

/-- `decode_3i40_14bits`. -/
def decode3i40_14bits (sign index : Nat) : Nat → Int := placePulses (pos14bits index) sign

/-- `decode_4i40_17bits`. -/
def decode4i40_17bits (sign index : Nat) : Nat → Int := placePulses (pos17bits index) sign

/-! ## What the searches find -/

theorem start_mem_positions {start step : Nat} (h : start < step) (hstep : step ≤ lCode) : start ∈ positions start step := by
  have hpos : 0 < (lCode - start + step - 1) / step := Nat.div_pos (by omega) (by omega)
  exact List.mem_range'.2 ⟨0, hpos, by simp⟩

theorem searchStep_cases (ps1 : Nat → Word16) (alp1 : Nat → Word32) (b : Best) (i : Nat) :
    searchStep ps1 alp1 b i = ⟨narrow (mul16 (ps1 i) (ps1 i)) 15, ps1 i, narrow (alp1 i + 0x8000) 16, i⟩ ∨
      searchStep ps1 alp1 b i = b :=
  ite_eq_or_eq ..

/-- The pulse that an inner loop keeps is on its track. -/
theorem searchTrack_mem (ps1 : Nat → Word16) (alp1 : Nat → Word32) {start : Nat} (h : start < 5) :
    (searchTrack ps1 alp1 start).ix ∈ positions start 5 := by
  rw [searchTrack]
  refine List.foldlRecOn (motive := fun b : Best => b.ix ∈ positions start 5) _ _ (start_mem_positions h (by decide)) ?_
  intro b hb i hi
  rcases searchStep_cases ps1 alp1 b i with hstep | hstep
  · rw [hstep]
    exact hi
  · rw [hstep]
    exact hb

theorem accept_codvec {P : List Nat → Prop} {st : Search} {s : Word32} {b : Best} {codvec : List Nat} (hst : P st.codvec)
    (h : P codvec) : P (st.accept s b codvec).codvec := by
  unfold Search.accept
  split
  · exact h
  · exact hst

/-- What every pass keeps of the code vector holds after a loop. -/
theorem foldl_codvec {α : Type} (P : List Nat → Prop) {f : Search → α → Search} {xs : List α}
    (h : ∀ st, ∀ x ∈ xs, P st.codvec → P (f st x).codvec) {st : Search} (hst : P st.codvec) : P (xs.foldl f st).codvec :=
  List.foldlRecOn (motive := fun st : Search => P st.codvec) xs f hst fun st hst x hx => h st x hx hst

section Found
variable (dn dn2 : Nat → Word16) (rr : Nat → Nat → Word16)

theorem searchPair_codvec {P : List Nat → Prop} (add : Word16 → Word16 → Word16) {start0 start1 : Nat} (h1 : start1 < 5)
    (h : ∀ p ∈ positions start0 5, ∀ q ∈ positions start1 5, P [p, q]) {st : Search} (hst : P st.codvec) :
    P (searchPair dn rr add start0 start1 st).codvec :=
  foldl_codvec P (fun _ i0 hi0 hst => accept_codvec hst (h i0 hi0 _ (searchTrack_mem _ _ h1))) hst

/-- The pairs of tracks of subframe `subNr`, and the first code vector. -/
def PairOrFirst9 (subNr : Nat) (codvec : List Nat) : Prop :=
  codvec = [0, 1] ∨ ∃ track1 < 2, ∃ p q, codvec = [p, q] ∧ p ∈ positions (startPos.getD (2 * subNr + 8 * track1) 0) 5 ∧
    q ∈ positions (startPos.getD (2 * subNr + 8 * track1 + 1) 0) 5

theorem search2i40_9bits_mem {subNr : Nat} (hsub : subNr < 4) : PairOrFirst9 subNr (search2i40_9bits dn rr subNr).codvec := by
  have hstart : ∀ subNr < 4, ∀ track1 < 2, startPos.getD (2 * subNr + 8 * track1 + 1) 0 < 5 := by decide
  unfold search2i40_9bits
  refine foldl_codvec (PairOrFirst9 subNr) (fun st track1 ht hst => ?_) (.inl rfl)
  rw [List.mem_range] at ht
  exact searchPair_codvec dn rr _ (hstart subNr hsub track1 ht) (fun p hp q hq => .inr ⟨track1, ht, p, q, rfl, hp, hq⟩) hst

/-- Pulses on one of the first tracks and one of the second, and the first code vector. -/
def PairOrFirst11 (codvec : List Nat) : Prop :=
  codvec = [0, 1] ∨ ∃ start0 ∈ startPos1, ∃ start1 ∈ startPos2, ∃ p q, codvec = [p, q] ∧ p ∈ positions start0 5 ∧
    q ∈ positions start1 5

theorem search2i40_11bits_mem : PairOrFirst11 (search2i40_11bits dn rr).codvec := by
  have hstart0 : ∀ track1 < 2, startPos1.getD track1 0 ∈ startPos1 := by decide
  have hstart1 : ∀ track2 < 4, startPos2.getD track2 0 ∈ startPos2 ∧ startPos2.getD track2 0 < 5 := by decide
  unfold search2i40_11bits
  refine foldl_codvec PairOrFirst11 (fun st track1 h1 hst => ?_) (.inl rfl)
  refine foldl_codvec PairOrFirst11 (fun st track2 h2 hst => ?_) hst
  rw [List.mem_range] at h1 h2
  exact searchPair_codvec dn rr _ (hstart1 track2 h2).2
    (fun p hp q hq => .inr ⟨_, hstart0 track1 h1, _, (hstart1 track2 h2).1, p, q, rfl, hp, hq⟩) hst

/-- A pulse on each of the tracks, in their order. -/
def OnTracks (step : Nat) (codvec starts : List Nat) : Prop :=
  List.Forall₂ (fun p start => p ∈ positions start step) codvec starts

theorem searchThree_codvec {P : List Nat → Prop} {a b c : Nat} (hb : b < 5) (hc : c < 5)
    (h : ∀ codvec, OnTracks 5 codvec [a, b, c] → P codvec) {st : Search} (hst : P st.codvec) :
    P (searchThree dn dn2 rr [a, b, c] st).codvec := by
  refine foldl_codvec P (fun st i0 hi0 hst => ?_) hst
  dsimp only
  split
  · exact accept_codvec hst (h _ (.cons hi0 (.cons (searchTrack_mem _ _ hb) (.cons (searchTrack_mem _ _ hc) .nil))))
  · exact hst

theorem searchFour_codvec {P : List Nat → Prop} {a b c d : Nat} (hb : b < 5) (hc : c < 5) (hd : d < 5)
    (h : ∀ codvec, OnTracks 5 codvec [a, b, c, d] → P codvec) {st : Search} (hst : P st.codvec) :
    P (searchFour dn dn2 rr [a, b, c, d] st).codvec := by
  refine foldl_codvec P (fun st i0 hi0 hst => ?_) hst
  dsimp only
  split
  · exact accept_codvec hst (h _ (.cons hi0 (.cons (searchTrack_mem _ _ hb) (.cons (searchTrack_mem _ _ hc)
      (.cons (searchTrack_mem _ _ hd) .nil)))))
  · exact hst

/-- The tracks of a search may be put in order. -/
theorem onTracks_perm {step : Nat} {codvec starts tracks : List Nat} (h : OnTracks step codvec starts) (hperm : starts.Perm tracks) :
    ∃ ps, codvec.Perm ps ∧ OnTracks step ps tracks := by
  obtain ⟨ps, hps, hcod⟩ := List.perm_comp_forall₂ hperm.symm h.flip
  exact ⟨ps, hcod.symm, hps.flip⟩

theorem shiftStarts_perm {l : List Nat} (h : l ≠ []) : (shiftStarts l).Perm l := by
  have hlast : l.getLastD 0 = l.getLast h := by
    rw [List.getLastD_eq_getLast?, List.getLast?_eq_some_getLast h, Option.getD_some]
  have hcomm : ([l.getLast h] ++ l.dropLast).Perm (l.dropLast ++ [l.getLast h]) := List.perm_append_comm
  rw [List.dropLast_concat_getLast h] at hcomm
  rwa [shiftStarts, hlast]

/-- The searches go through orders of the tracks. -/
theorem shiftStarts_run {tracks : List Nat} (htracks : tracks ≠ []) (P : List Nat → Prop) {pass : List Nat → Search → Search}
    (hpass : ∀ ipos st, ipos.Perm tracks → P st.codvec → P (pass ipos st).codvec) (n : Nat) {st : Search} (hst : P st.codvec) :
    P ((List.range n).foldl (fun (p : List Nat × Search) _ => (shiftStarts p.1, pass p.1 p.2)) (tracks, st)).2.codvec := by
  refine (List.foldlRecOn (motive := fun p : List Nat × Search => p.1.Perm tracks ∧ P p.2.codvec) (List.range n) _
    ⟨.refl _, hst⟩ ?_).2
  rintro ⟨ipos, st⟩ ⟨hperm, hst⟩ _ _
  have hne : ipos ≠ [] := by
    rintro rfl
    exact htracks hperm.nil_eq.symm
  exact ⟨(shiftStarts_perm hne).trans hperm, hpass ipos st hperm hst⟩

/-- Pulses on the three slots of `MR67`, in some order. -/
def ThreePulses (codvec : List Nat) : Prop :=
  ∃ track1 track2 ps, (track1 = 1 ∨ track1 = 3) ∧ (track2 = 2 ∨ track2 = 4) ∧ codvec.Perm ps ∧
    OnTracks 5 ps [0, track1, track2]

theorem search3i40_mem : ThreePulses (search3i40 dn dn2 rr).codvec := by
  have hinit : ThreePulses [0, 1, 2] := ⟨1, 2, _, .inl rfl, .inl rfl, .refl _,
    .cons (start_mem_positions (by decide) (by decide)) (.cons (start_mem_positions (by decide) (by decide))
      (.cons (start_mem_positions (by decide) (by decide)) .nil))⟩
  have htracks1 : ∀ track1 ∈ List.range' 1 2 2, track1 = 1 ∨ track1 = 3 := by decide
  have htracks2 : ∀ track2 ∈ List.range' 2 2 2, track2 = 2 ∨ track2 = 4 := by decide
  unfold search3i40
  refine foldl_codvec ThreePulses (fun st track1 h1 hst => ?_) hinit
  refine foldl_codvec ThreePulses (fun st track2 h2 hst => ?_) hst
  have h1 := htracks1 track1 h1
  have h2 := htracks2 track2 h2
  refine shiftStarts_run (by simp) ThreePulses (fun ipos st hperm hst => ?_) 3 hst
  obtain ⟨a, b, c, rfl⟩ := List.length_eq_three.1 hperm.length_eq
  have hlt : ∀ x ∈ [a, b, c], x < 5 := by
    intro x hx
    have := hperm.mem_iff.1 hx
    simp only [List.mem_cons, List.not_mem_nil, or_false] at this
    omega
  refine searchThree_codvec dn dn2 rr (hlt b (by simp)) (hlt c (by simp)) (fun codvec hcod => ?_) hst
  obtain ⟨ps, hps, hon⟩ := onTracks_perm hcod hperm
  exact ⟨track1, track2, ps, h1, h2, hps, hon⟩

/-- Pulses on the four slots of `MR74` and `MR795`, in some order. -/
def FourPulses (codvec : List Nat) : Prop :=
  ∃ track ps, (track = 3 ∨ track = 4) ∧ codvec.Perm ps ∧ OnTracks 5 ps [0, 1, 2, track]

theorem search4i40_mem : FourPulses (search4i40 dn dn2 rr).codvec := by
  have hinit : FourPulses [0, 1, 2, 3] := ⟨3, _, .inl rfl, .refl _,
    .cons (start_mem_positions (by decide) (by decide)) (.cons (start_mem_positions (by decide) (by decide))
      (.cons (start_mem_positions (by decide) (by decide)) (.cons (start_mem_positions (by decide) (by decide)) .nil)))⟩
  have htracks : ∀ track ∈ List.range' 3 2, track = 3 ∨ track = 4 := by decide
  unfold search4i40
  refine foldl_codvec FourPulses (fun st track ht hst => ?_) hinit
  have ht := htracks track ht
  refine shiftStarts_run (by simp) FourPulses (fun ipos st hperm hst => ?_) 4 hst
  obtain ⟨a, b, c, d, rfl⟩ : ∃ a b c d, ipos = [a, b, c, d] := by
    match ipos, hperm.length_eq with
    | [a, b, c, d], _ => exact ⟨a, b, c, d, rfl⟩
  have hlt : ∀ x ∈ [a, b, c, d], x < 5 := by
    intro x hx
    have := hperm.mem_iff.1 hx
    simp only [List.mem_cons, List.not_mem_nil, or_false] at this
    omega
  refine searchFour_codvec dn dn2 rr (hlt b (by simp)) (hlt c (by simp)) (hlt d (by simp)) (fun codvec hcod => ?_) hst
  obtain ⟨ps, hps, hon⟩ := onTracks_perm hcod hperm
  exact ⟨track, ps, ht, hps, hon⟩

end Found

/-! ## What the packing gives -/

section Packing
variable (dnSign : Nat → Word16)

/-- A pulse as `build_code` stores it. -/
def stored (i : Nat) : Nat × Int := (i, pulse dnSign i)

/-- The bit of a pulse in the signs, at slot `track`. -/
def signBit (track i : Nat) : Nat := if BitVec.slt 0 (dnSign i) then 1 <<< track else 0

theorem buildCode_eq (place : Nat → Nat → Nat × Nat) (codvec : List Nat) :
    buildCode place codvec dnSign =
      ⟨(codvec.zipIdx.map fun ik => (place ik.2 ik.1).2).sum,
        (codvec.zipIdx.map fun ik => signBit dnSign (place ik.2 ik.1).1 ik.1).sum,
        put (codvec.map (stored dnSign)) fun _ => 0⟩ := by
  have hloop : ∀ (iks : List (Nat × Nat)) (c : Coded),
      iks.foldl (fun c ik =>
        let (track, index) := place ik.2 ik.1
        ⟨c.index + index, if BitVec.slt 0 (dnSign ik.1) then c.sign + 1 <<< track else c.sign,
          Function.update c.cod ik.1 (pulse dnSign ik.1)⟩) c =
      ⟨c.index + (iks.map fun ik => (place ik.2 ik.1).2).sum,
        c.sign + (iks.map fun ik => signBit dnSign (place ik.2 ik.1).1 ik.1).sum,
        put (iks.map fun ik => stored dnSign ik.1) c.cod⟩ := by
    intro iks
    induction iks with
    | nil => intro c; rfl
    | cons ik iks ih =>
      intro c
      rw [List.foldl_cons, ih]
      simp only [List.map_cons, List.sum_cons, signBit]
      congr 1
      · omega
      · split <;> omega
  rw [buildCode, hloop]
  simp only [Nat.zero_add]
  congr 2
  exact (List.map_map (g := stored dnSign) (f := Prod.fst)).symm.trans (by rw [List.zipIdx_map_fst])

/-- The signs of pulses at slots from `n` on. -/
def signSum (n : Nat) (ps : List Nat) : Nat := ((ps.zipIdx n).map fun pj => signBit dnSign pj.2 pj.1).sum

theorem signSum_cons (n p : Nat) (ps : List Nat) :
    signSum dnSign n (p :: ps) = signBit dnSign n p + signSum dnSign (n + 1) ps := by
  simp [signSum, List.zipIdx_cons]

theorem signSum_dvd (n : Nat) (ps : List Nat) : 2 ^ n ∣ signSum dnSign n ps := by
  induction ps generalizing n with
  | nil => exact Nat.dvd_zero _
  | cons p ps ih =>
    rw [signSum_cons]
    refine Nat.dvd_add ?_ (Nat.dvd_trans (Nat.pow_dvd_pow 2 (Nat.le_succ n)) (ih (n + 1)))
    unfold signBit
    split
    · rw [Nat.one_shiftLeft]
    · exact Nat.dvd_zero _

/-- The decoders read each sign from its slot. -/
theorem placePulses_signSum (ps : List Nat) :
    placePulses ps (signSum dnSign 0 ps) = put (ps.map (stored dnSign)) fun _ => 0 := by
  -- `low` holds the signs of the pulses already placed
  have hloop : ∀ (ps : List Nat) (n low : Nat) (cod : Nat → Int), low < 2 ^ n →
      (ps.zipIdx n).foldl (fun cod pj =>
        Function.update cod pj.1 (signPulse ((low + signSum dnSign n ps) >>> pj.2 &&& 1))) cod =
      put (ps.map (stored dnSign)) cod := by
    intro ps
    induction ps with
    | nil => intros; rfl
    | cons p ps ih =>
      intro n low cod hlow
      obtain ⟨k, hk⟩ := signSum_dvd dnSign (n + 1) ps
      have hbit : ∃ b < 2, signBit dnSign n p = 2 ^ n * b ∧ pulse dnSign p = signPulse b := by
        unfold signBit pulse
        split
        · exact ⟨1, by decide, by rw [Nat.one_shiftLeft, Nat.mul_one], by decide⟩
        · exact ⟨0, by decide, rfl, by decide⟩
      obtain ⟨b, hb, hsign, hpulse⟩ := hbit
      have hsum : low + signSum dnSign n (p :: ps) = low + signBit dnSign n p + signSum dnSign (n + 1) ps := by
        rw [signSum_cons, Nat.add_assoc]
      have hread : (low + signSum dnSign n (p :: ps)) >>> n &&& 1 = b := by
        have hform : low + signSum dnSign n (p :: ps) = low + 2 ^ n * (b + 2 * k) := by
          rw [hsum, hsign, hk, pow_succ]
          ring
        rw [hform, Nat.shiftRight_eq_div_pow, Nat.add_mul_div_left _ _ (Nat.two_pow_pos n), Nat.div_eq_of_lt hlow,
          Nat.zero_add, Nat.and_one_is_mod]
        omega
      have hnext : low + signBit dnSign n p < 2 ^ (n + 1) := by
        rw [hsign, pow_succ]
        have hle : 2 ^ n * b ≤ 2 ^ n * 1 := Nat.mul_le_mul_left _ (by omega)
        omega
      rw [List.zipIdx_cons, List.foldl_cons, hread, ← hpulse, hsum, ih (n + 1) _ _ hnext]
      rfl
  have hzero := hloop ps 0 0 (fun _ => 0) (by decide)
  rw [Nat.zero_add] at hzero
  exact hzero

/-- A code vector does not depend on the order of its pulses. -/
theorem put_stored_perm {ps ps' : List Nat} (h : ps.Perm ps') :
    put (ps.map (stored dnSign)) (fun _ => 0) = put (ps'.map (stored dnSign)) fun _ => (0 : Int) := by
  refine put_congr (v := pulse dnSign) ?_ ?_ (fun p => ?_) _
  · rintro q hq
    obtain ⟨i, -, rfl⟩ := List.mem_map.1 hq
    rfl
  · rintro q hq
    obtain ⟨i, -, rfl⟩ := List.mem_map.1 hq
    rfl
  · simp only [List.map_map]
    exact (h.map _).mem_iff

theorem signSum_lt (n : Nat) (ps : List Nat) : signSum dnSign n ps + 2 ^ n ≤ 2 ^ (n + ps.length) := by
  induction ps generalizing n with
  | nil => simp [signSum]
  | cons p ps ih =>
    have htail := ih (n + 1)
    have hbit : signBit dnSign n p ≤ 2 ^ n := by
      unfold signBit
      split
      · rw [Nat.one_shiftLeft]
      · exact Nat.zero_le _
    rw [signSum_cons, List.length_cons, show n + (ps.length + 1) = n + 1 + ps.length by omega]
    rw [pow_succ] at htail
    omega

/-- Where the pulses are put in the order of their slots, the signs give them back. -/
theorem placePulses_buildCode {place : Nat → Nat → Nat × Nat} {ps : List Nat}
    (hslot : ∀ pj ∈ ps.zipIdx, (place pj.2 pj.1).1 = pj.2) :
    let c := buildCode place ps dnSign
    placePulses ps c.sign = c.cod ∧ c.sign < 2 ^ ps.length := by
  have hsign : (buildCode place ps dnSign).sign = signSum dnSign 0 ps := by
    rw [buildCode_eq]
    exact congrArg List.sum (List.map_congr_left fun pj hpj => by rw [hslot pj hpj])
  intro c
  have hlt := signSum_lt dnSign 0 ps
  rw [Nat.zero_add] at hlt
  have hcod : c.cod = put (ps.map (stored dnSign)) fun _ => 0 := by rw [show c = buildCode place ps dnSign from rfl, buildCode_eq]
  refine ⟨?_, by rw [hsign]; omega⟩
  rw [hsign, placePulses_signSum, hcod]

/-- Where the place of a pulse does not depend on when it comes, the order does not matter. -/
theorem buildCode_perm {place : Nat → Nat → Nat × Nat} (hplace : ∀ k i, place k i = place 0 i) {ps ps' : List Nat}
    (h : ps.Perm ps') : buildCode place ps dnSign = buildCode place ps' dnSign := by
  have hmap : ∀ (f : Nat × Nat → Nat → Nat) (ps : List Nat),
      ps.zipIdx.map (fun ik => f (place ik.2 ik.1) ik.1) = ps.map fun i => f (place 0 i) i := by
    intro f ps
    simp only [hplace _ _]
    exact (List.map_map (g := fun i => f (place 0 i) i) (f := Prod.fst)).symm.trans (by rw [List.zipIdx_map_fst])
  rw [buildCode_eq, buildCode_eq, put_stored_perm dnSign h, hmap (fun pl _ => pl.2), hmap (fun pl _ => pl.2),
    hmap (fun pl i => signBit dnSign pl.1 i), hmap (fun pl i => signBit dnSign pl.1 i), (h.map _).sum_eq,
    (h.map (fun i => signBit dnSign (place 0 i).1 i)).sum_eq]

end Packing

/-! ## The decoder rebuilds the code vector -/

section Rebuilt
variable (dnSign : Nat → Word16)

/-- What is left to check of a codebook: the index gives back the positions. -/
theorem decode_buildCode {place : Nat → Nat → Nat × Nat} {ps : List Nat} {pos : Nat → List Nat} {bits : Nat}
    (hslot : ∀ pj ∈ ps.zipIdx, (place pj.2 pj.1).1 = pj.2)
    (hpos : pos ((ps.zipIdx.map fun ik => (place ik.2 ik.1).2).sum) = ps ∧
      (ps.zipIdx.map fun ik => (place ik.2 ik.1).2).sum < 2 ^ bits) :
    let c := buildCode place ps dnSign
    placePulses (pos c.index) c.sign = c.cod ∧ c.index < 2 ^ bits ∧ c.sign < 2 ^ ps.length := by
  obtain ⟨hcod, hsign⟩ := placePulses_buildCode dnSign hslot
  have hindex : (buildCode place ps dnSign).index = (ps.zipIdx.map fun ik => (place ik.2 ik.1).2).sum := by rw [buildCode_eq]
  refine ⟨?_, by rw [hindex]; exact hpos.2, hsign⟩
  rw [hindex, hpos.1]
  exact hcod

theorem and_seven (x : Nat) : x &&& 7 = x % 8 := Nat.and_two_pow_sub_one_eq_mod x 3

/-- `MR475` and `MR515`: the vector comes back if the search accepted a pair. -/
theorem decode_buildCode_9bits {subNr : Nat} (hsub : subNr < 4) {codvec : List Nat} (h : PairOrFirst9 subNr codvec)
    (hne : codvec ≠ [0, 1]) :
    let c := buildCode (place9bits subNr) codvec dnSign
    decode2i40_9bits subNr c.sign c.index = c.cod ∧ c.index < 2 ^ 7 ∧ c.sign < 2 ^ 2 := by
  obtain ⟨track1, ht, p, q, rfl, hp, hq⟩ := h.resolve_left hne
  have hfirst : ∀ subNr < 4, ∀ track1 < 2, ∀ p ∈ positions (startPos.getD (2 * subNr + 8 * track1) 0) 5,
      place9bits subNr 0 p = (0, p / 5 + 64 * track1) ∧ p / 5 < 8 ∧
        p / 5 * 5 + startPos.getD (2 * subNr + 8 * track1) 0 = p := by
    decide +kernel
  have hsecond : ∀ subNr < 4, ∀ track1 < 2, ∀ q ∈ positions (startPos.getD (2 * subNr + 8 * track1 + 1) 0) 5,
      place9bits subNr 1 q = (1, 8 * (q / 5)) ∧ q / 5 < 8 ∧
        q / 5 * 5 + startPos.getD (2 * subNr + 8 * track1 + 1) 0 = q := by
    decide +kernel
  obtain ⟨hpl0, ha, hp⟩ := hfirst subNr hsub track1 ht p hp
  obtain ⟨hpl1, hb, hq⟩ := hsecond subNr hsub track1 ht q hq
  have hlt : p / 5 + 64 * track1 + 8 * (q / 5) < 128 := by omega
  have hbit : ∀ x < 128, (x &&& 64) >>> 3 = 8 * (x / 64) := by decide +kernel
  have htrack : (p / 5 + 64 * track1 + 8 * (q / 5) &&& 64) >>> 3 = 8 * track1 := by
    rw [hbit _ hlt]
    omega
  refine decode_buildCode dnSign (by simp [hpl0, hpl1]) ?_
  simp only [List.zipIdx_cons, List.zipIdx_nil, List.map_cons, List.map_nil, List.sum_cons, List.sum_nil, hpl0, hpl1,
    Nat.add_zero, Nat.zero_add]
  refine ⟨?_, hlt⟩
  unfold pos9bits
  dsimp only
  rw [htrack, and_seven, and_seven, Nat.shiftRight_eq_div_pow, show subNr <<< 1 = 2 * subNr by omega,
    show (p / 5 + 64 * track1 + 8 * (q / 5)) % 8 = p / 5 by omega,
    show (p / 5 + 64 * track1 + 8 * (q / 5)) / 2 ^ 3 % 8 = q / 5 by omega, hp, hq]

/-- `MR59`: likewise. -/
theorem decode_buildCode_11bits {codvec : List Nat} (h : PairOrFirst11 codvec) (hne : codvec ≠ [0, 1]) :
    let c := buildCode place11bits codvec dnSign
    decode2i40_11bits c.sign c.index = c.cod ∧ c.index < 2 ^ 9 ∧ c.sign < 2 ^ 2 := by
  obtain ⟨start0, h0, start1, h1, p, q, rfl, hp, hq⟩ := h.resolve_left hne
  have hcheck : ∀ start0 ∈ startPos1, ∀ start1 ∈ startPos2, ∀ p ∈ positions start0 5, ∀ q ∈ positions start1 5,
      ((place11bits 0 p).1 = 0 ∧ (place11bits 1 q).1 = 1) ∧
        pos11bits ((place11bits 0 p).2 + (place11bits 1 q).2) = [p, q] ∧
        (place11bits 0 p).2 + (place11bits 1 q).2 < 2 ^ 9 := by
    decide +kernel
  obtain ⟨hslot, hpos⟩ := hcheck start0 h0 start1 h1 p hp q hq
  exact decode_buildCode dnSign (by simpa using hslot) (by simpa using hpos)

theorem fields14 {a b c : Nat} (ha : a < 8) (hb : b < 16) (hc : c < 16) :
    let index := a + (8 * b + 128 * c)
    index % 8 = a ∧ index / 16 % 8 = b / 2 ∧ index / 8 % 2 = b % 2 ∧ index / 256 % 8 = c / 2 ∧ index / 128 % 2 = c % 2 := by
  dsimp only
  omega

theorem fields17 {a b c d : Nat} (ha : a < 8) (hb : b < 8) (hc : c < 8) (hd : d < 16) :
    let index := a + (8 * b + (64 * c + 512 * d))
    index % 8 = a ∧ index / 8 % 8 = b ∧ index / 64 % 8 = c ∧ index / 1024 % 8 = d / 2 ∧ index / 512 % 2 = d % 2 := by
  dsimp only
  omega

/-- `MR67`: the index has fields of three, four and four bits. -/
theorem decode_buildCode_14bits {codvec : List Nat} (h : ThreePulses codvec) :
    let c := buildCode place14bits codvec dnSign
    decode3i40_14bits c.sign c.index = c.cod ∧ c.index < 2 ^ 11 ∧ c.sign < 2 ^ 3 := by
  obtain ⟨track1, track2, ps, h1, h2, hperm, hon⟩ := h
  rw [buildCode_perm dnSign (fun _ _ => rfl) hperm]
  obtain ⟨p, q, r, rfl, hp, hq, hr⟩ : ∃ p q r, ps = [p, q, r] ∧ p ∈ positions 0 5 ∧ q ∈ positions track1 5 ∧
      r ∈ positions track2 5 := by
    cases hon with
    | cons hp hon => cases hon with
      | cons hq hon => cases hon with
        | cons hr hon => cases hon with
          | nil => exact ⟨_, _, _, rfl, hp, hq, hr⟩
  have hfirst : ∀ p ∈ positions 0 5, ∃ a < 8, place14bits 0 p = (0, a) ∧ a * 5 = p := by decide
  have hsecond : ∀ track1 ∈ [1, 3], ∀ q ∈ positions track1 5, ∃ b < 16, place14bits 1 q = (1, 8 * b) ∧
      b / 2 * 5 + b % 2 * 2 + 1 = q := by
    decide
  have hthird : ∀ track2 ∈ [2, 4], ∀ r ∈ positions track2 5, ∃ c < 16, place14bits 2 r = (2, 128 * c) ∧
      c / 2 * 5 + c % 2 * 2 + 2 = r := by
    decide
  obtain ⟨a, ha, hpl0, hp⟩ := hfirst p hp
  obtain ⟨b, hb, hpl1, hq⟩ := hsecond track1 (by simpa using h1) q hq
  obtain ⟨c, hc, hpl2, hr⟩ := hthird track2 (by simpa using h2) r hr
  refine decode_buildCode dnSign (by simp [hpl0, hpl1, hpl2]) ?_
  simp only [List.zipIdx_cons, List.zipIdx_nil, List.map_cons, List.map_nil, List.sum_cons, List.sum_nil, hpl0, hpl1, hpl2,
    Nat.add_zero, Nat.zero_add]
  refine ⟨?_, by omega⟩
  simp only [pos14bits, and_seven, Nat.and_one_is_mod, Nat.shiftRight_eq_div_pow, Nat.reducePow]
  obtain ⟨h0, h1, h2, h3, h4⟩ := fields14 ha hb hc
  rw [h0, h1, h2, h3, h4, hp, hq, hr]

/-- `MR74` and `MR795`: three fields of three bits and one of four. -/
theorem decode_buildCode_17bits {codvec : List Nat} (h : FourPulses codvec) :
    let c := buildCode place17bits codvec dnSign
    decode4i40_17bits c.sign c.index = c.cod ∧ c.index < 2 ^ 13 ∧ c.sign < 2 ^ 4 := by
  obtain ⟨track, ps, ht, hperm, hon⟩ := h
  rw [buildCode_perm dnSign (fun _ _ => rfl) hperm]
  obtain ⟨p, q, r, t, rfl, hp, hq, hr, ht'⟩ : ∃ p q r t, ps = [p, q, r, t] ∧ p ∈ positions 0 5 ∧ q ∈ positions 1 5 ∧
      r ∈ positions 2 5 ∧ t ∈ positions track 5 := by
    cases hon with
    | cons hp hon => cases hon with
      | cons hq hon => cases hon with
        | cons hr hon => cases hon with
          | cons ht' hon => cases hon with
            | nil => exact ⟨_, _, _, _, rfl, hp, hq, hr, ht'⟩
  have hfirst : ∀ p ∈ positions 0 5, ∃ a < 8, place17bits 0 p = (0, a) ∧ dgray.getD a 0 * 5 = p := by decide
  have hsecond : ∀ q ∈ positions 1 5, ∃ b < 8, place17bits 1 q = (1, 8 * b) ∧ dgray.getD b 0 * 5 + 1 = q := by decide
  have hthird : ∀ r ∈ positions 2 5, ∃ c < 8, place17bits 2 r = (2, 64 * c) ∧ dgray.getD c 0 * 5 + 2 = r := by decide
  have hfourth : ∀ track ∈ [3, 4], ∀ t ∈ positions track 5, ∃ d < 16, place17bits 3 t = (3, 512 * d) ∧
      dgray.getD (d / 2) 0 * 5 + 3 + d % 2 = t := by
    decide
  obtain ⟨a, ha, hpl0, hp⟩ := hfirst p hp
  obtain ⟨b, hb, hpl1, hq⟩ := hsecond q hq
  obtain ⟨c, hc, hpl2, hr⟩ := hthird r hr
  obtain ⟨d, hd, hpl3, ht'⟩ := hfourth track (by simpa using ht) t ht'
  refine decode_buildCode dnSign (by simp [hpl0, hpl1, hpl2, hpl3]) ?_
  simp only [List.zipIdx_cons, List.zipIdx_nil, List.map_cons, List.map_nil, List.sum_cons, List.sum_nil, hpl0, hpl1, hpl2,
    hpl3, Nat.add_zero, Nat.zero_add]
  refine ⟨?_, by omega⟩
  simp only [pos17bits, and_seven, Nat.and_one_is_mod, Nat.shiftRight_eq_div_pow, Nat.reducePow]
  obtain ⟨h0, h1, h2, h3, h4⟩ := fields17 ha hb hc hd
  rw [h0, h1, h2, h3, h4, hp, hq, hr, ht']

theorem pulse_ne_zero (i : Nat) : pulse dnSign i ≠ 0 := by
  unfold pulse
  split <;> decide

theorem buildCode_cod (place : Nat → Nat → Nat × Nat) (codvec : List Nat) (p : Nat) :
    (buildCode place codvec dnSign).cod p = if p ∈ codvec then pulse dnSign p else 0 := by
  rw [buildCode_eq]
  dsimp only
  rw [put_apply (v := pulse dnSign)]
  · simp [stored, Function.comp_def]
  · intro q hq
    obtain ⟨i, -, rfl⟩ := List.mem_map.1 hq
    rfl

/-- The decoders put no pulse elsewhere. -/
theorem placePulses_other {pos : List Nat} {p : Nat} (hp : p ∉ pos) (sign : Nat) : placePulses pos sign p = 0 := by
  have hloop : ∀ (pjs : List (Nat × Nat)) (cod : Nat → Int), (∀ pj ∈ pjs, p ≠ pj.1) →
      pjs.foldl (fun cod pj => Function.update cod pj.1 (signPulse (sign >>> pj.2 &&& 1))) cod p = cod p := by
    intro pjs
    induction pjs with
    | nil => intros; rfl
    | cons pj pjs ih =>
      intro cod h
      rw [List.foldl_cons, ih _ fun qj hqj => h qj (List.mem_cons_of_mem _ hqj),
        Function.update_of_ne (h pj List.mem_cons_self)]
  refine hloop _ _ fun pj hpj he => hp ?_
  rw [he]
  exact List.fst_mem_of_mem_zipIdx hpj

theorem decode_buildCode_9bits_iff {subNr : Nat} (hsub : subNr < 4) {codvec : List Nat} (h : PairOrFirst9 subNr codvec) :
    let c := buildCode (place9bits subNr) codvec dnSign
    decode2i40_9bits subNr c.sign c.index = c.cod ↔ codvec ≠ [0, 1] := by
  refine ⟨?_, fun hne => (decode_buildCode_9bits dnSign hsub h hne).1⟩
  rintro hcod rfl
  have hpos : ∀ subNr < 4, 1 ∉ pos9bits subNr ((place9bits subNr 0 0).2 + (place9bits subNr 1 1).2) := by decide
  have hindex : (buildCode (place9bits subNr) [0, 1] dnSign).index = (place9bits subNr 0 0).2 + (place9bits subNr 1 1).2 := by
    rw [buildCode_eq]
    rfl
  have hone := congrFun hcod 1
  rw [decode2i40_9bits, hindex, placePulses_other (hpos subNr hsub), buildCode_cod] at hone
  exact pulse_ne_zero dnSign 1 (by simpa using hone.symm)

theorem decode_buildCode_11bits_iff {codvec : List Nat} (h : PairOrFirst11 codvec) :
    let c := buildCode place11bits codvec dnSign
    decode2i40_11bits c.sign c.index = c.cod ↔ codvec ≠ [0, 1] := by
  refine ⟨?_, fun hne => (decode_buildCode_11bits dnSign h hne).1⟩
  rintro hcod rfl
  have hpos : 0 ∉ pos11bits ((place11bits 0 0).2 + (place11bits 1 1).2) := by decide
  have hindex : (buildCode place11bits [0, 1] dnSign).index = (place11bits 0 0).2 + (place11bits 1 1).2 := by
    rw [buildCode_eq]
    rfl
  have hzero := congrFun hcod 0
  rw [decode2i40_11bits, hindex, placePulses_other hpos, buildCode_cod] at hzero
  exact pulse_ne_zero dnSign 0 (by simpa using hzero.symm)

end Rebuilt

end AudioRecorder.Codec
