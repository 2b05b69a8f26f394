import Mathlib.Data.List.Induction
import AudioRecorder.Java.Recorder
import AudioRecorder.Native.File
/-!
# `IMAudioTrack.run()`

The player reads a file into an array of half as many samples as it has bytes, while
bytes remain, and writes the array to the track. A byte left over at the end makes the
last `readShort` throw, and then nothing is played: every sample is played exactly when
the length of the file is even (`run_plays_iff`). The recordings of this application
have an even length (`recording_plays`).
-/

namespace AudioRecorder.Java.Playback

open Codec (Word16 UWord8)

/-- What stops `run()`. -/
inductive Thrown where
  | negativeArraySize
  | arrayIndexOutOfBounds
  | endOfFile
  deriving DecidableEq, Repr

/-- The calls `run()` makes on the track, up to the one that hands it the samples. -/
inductive TrackCall where
  | new (bufferSizeInBytes : Int)
  | play
  | write
  deriving DecidableEq, Repr

/-- `readShort`: two bytes, the high one first, of the bytes that remain. -/
def readShort : List UWord8 → Except Thrown (Word16 × List UWord8)
  | b₀ :: b₁ :: dis => .ok (b₀ ++ b₁, dis)
  | _ => .error .endOfFile

theorem readShort_length {dis rest : List UWord8} {x : Word16} (h : readShort dis = .ok (x, rest)) :
    rest.length < dis.length := by
  unfold readShort at h
  split at h
  · cases h
    simp only [List.length_cons]
    omega
  · cases h

/-- The loop: read into `music` from `i` on, while bytes are available. -/
def readLoop (dis : List UWord8) (i : Nat) (music : List Word16) : Except Thrown (List Word16) :=
  if 0 < dis.length then
    match h : readShort dis with
    | .error e => .error e
    | .ok (x, rest) =>
      if i < music.length then readLoop rest (i + 1) (music.set i x) else .error .arrayIndexOutOfBounds
  else .ok music
termination_by dis.length
decreasing_by exact readShort_length h

/-- How a playback ends: how the file was read, and the samples the track was given. -/
structure Played where
  read : Except Thrown (List Word16)
  written : List Word16

/-- `run()` on a file. `throws` says which calls on the track throw; a `write` that
returns has taken the whole array. Every exception behind the array's allocation is caught. -/
def run (throws : TrackCall → Bool) (file : List UWord8) : Played :=
  let musicLength := toInt32 (file.length / 2)
  -- outside the `try` block
  if musicLength < 0 then ⟨.error .negativeArraySize, []⟩
  else
    match readLoop file 0 (List.replicate musicLength.toNat 0) with
    | .error e => ⟨.error e, []⟩
    | .ok music =>
      if throws (.new (toInt32 (musicLength * 2))) || throws .play || throws .write then ⟨.ok music, []⟩
      else ⟨.ok music, music.take musicLength.toNat⟩

/-! ## What is read -/

/-- The whole big-endian samples of a file. -/
def shorts (file : List UWord8) : List Word16 :=
  (List.range (file.length / 2)).map fun i => file.getD (2 * i) 0 ++ file.getD (2 * i + 1) 0

theorem shorts_length (file : List UWord8) : (shorts file).length = file.length / 2 := by simp [shorts]

theorem shorts_cons (b₀ b₁ : UWord8) (file : List UWord8) : shorts (b₀ :: b₁ :: file) = (b₀ ++ b₁) :: shorts file := by
  have hlen : (b₀ :: b₁ :: file).length / 2 = file.length / 2 + 1 := by simp only [List.length_cons]; omega
  rw [shorts, hlen, List.range_succ_eq_map, List.map_cons, List.map_map]
  rfl

theorem readLoop_cons (b₀ b₁ : UWord8) (dis : List UWord8) (i : Nat) (music : List Word16) :
    readLoop (b₀ :: b₁ :: dis) i music =
      if i < music.length then readLoop dis (i + 1) (music.set i (b₀ ++ b₁)) else .error .arrayIndexOutOfBounds := by
  rw [readLoop]
  rfl

/-- With room for all the whole samples, the loop reads them if no byte is left over,
and throws at the end of the file if one is. -/
theorem readLoop_spec (dis : List UWord8) (i : Nat) (music : List Word16) (h : i + dis.length / 2 = music.length) :
    readLoop dis i music = if dis.length % 2 = 0 then .ok (music.take i ++ shorts dis) else .error .endOfFile := by
  induction dis using List.twoStepInduction generalizing i music with
  | nil =>
    rw [readLoop, if_neg (by simp), List.take_of_length_le (by simpa using h.ge)]
    simp [shorts]
  | singleton b =>
    rw [readLoop]
    rfl
  | cons_cons b₀ b₁ dis ih _ =>
    have hlen : (b₀ :: b₁ :: dis).length = dis.length + 2 := rfl
    rw [hlen] at h
    have hi : i < music.length := by omega
    rw [readLoop_cons, if_pos hi, ih (i + 1) (music.set i (b₀ ++ b₁)) (by rw [List.length_set]; omega), hlen,
      Nat.add_mod_right, shorts_cons]
    have htake : (music.set i (b₀ ++ b₁)).take (i + 1) = music.take i ++ [b₀ ++ b₁] := by
      rw [List.take_set, List.take_succ_eq_append_getElem hi, List.set_append_right _ _ (by simp)]
      simp [Nat.min_eq_left hi.le]
    rw [htake, List.append_assoc, List.singleton_append]

/-! ## What is played -/

/-- The file is read to its end without an exception, and all its whole samples are played. -/
structure Plays (file : List UWord8) (p : Played) : Prop where
  read : ∃ music, p.read = .ok music
  written : p.written = shorts file

/-- A track for `n` bytes can be made, started and written to. -/
def Accepts (throws : TrackCall → Bool) (n : Int) : Prop :=
  throws (.new n) = false ∧ throws .play = false ∧ throws .write = false

theorem toInt32_of_lt {n : Int} (h0 : 0 ≤ n) (h : n < 2 ^ 31) : toInt32 n = n := by
  rw [toInt32, Int.bmod_def]
  omega

theorem run_eq (throws : TrackCall → Bool) {file : List UWord8} (h : file.length < 2 ^ 31) :
    run throws file =
      if file.length % 2 = 0 then
        if throws (.new (file.length / 2 * 2)) || throws .play || throws .write then ⟨.ok (shorts file), []⟩
        else ⟨.ok (shorts file), shorts file⟩
      else ⟨.error .endOfFile, []⟩ := by
  have hlen : toInt32 (file.length / 2) = (file.length / 2 : Nat) := by
    rw [toInt32_of_lt (by omega) (by omega)]
    omega
  have hsize : toInt32 ((file.length / 2 : Nat) * 2) = file.length / 2 * 2 := by
    rw [toInt32_of_lt (by omega) (by omega)]
    omega
  have hread := readLoop_spec file 0 (List.replicate (file.length / 2) 0) (by simp)
  rw [List.take_zero, List.nil_append] at hread
  simp only [run, hlen, hsize, Int.toNat_natCast, hread, if_neg (show ¬ ((file.length / 2 : Nat) : Int) < 0 by omega)]
  by_cases heven : file.length % 2 = 0
  · simp only [heven, if_true, ← shorts_length file, List.take_length]
  · simp only [heven, if_false]

/-- A file below 2 GiB is played, all its whole samples in order, exactly when no byte
is left over behind them. -/
theorem run_plays_iff (throws : TrackCall → Bool) (file : List UWord8) (h : file.length < 2 ^ 31)
    (ht : 2 ≤ file.length → Accepts throws (file.length / 2 * 2)) :
    Plays file (run throws file) ↔ file.length % 2 = 0 := by
  rw [run_eq throws h]
  constructor
  · rintro ⟨⟨music, hread⟩, -⟩
    by_contra hodd
    rw [if_neg hodd] at hread
    cases hread
  · intro heven
    rw [if_pos heven]
    by_cases h2 : 2 ≤ file.length
    · obtain ⟨hnew, hplay, hwrite⟩ := ht h2
      simp only [hnew, hplay, hwrite, Bool.or_self, Bool.false_eq_true, if_false]
      exact ⟨⟨_, rfl⟩, rfl⟩
    · -- nothing to play: it does not matter whether the track can be made
      have hnil : shorts file = [] := List.eq_nil_of_length_eq_zero (by rw [shorts_length]; omega)
      rw [hnil]
      split
      · exact ⟨⟨_, rfl⟩, hnil.symm⟩
      · exact ⟨⟨_, rfl⟩, hnil.symm⟩

/-- Two samples. -/
theorem run_plays_two : Plays [0x12, 0x34, 0xFF, 0xFE] (run (fun _ => false) [0x12, 0x34, 0xFF, 0xFE]) :=
  (run_plays_iff (fun _ => false) [0x12, 0x34, 0xFF, 0xFE] (by decide) fun _ => ⟨rfl, rfl, rfl⟩).2 rfl

/-- Of a file of three bytes not even the first sample is played. -/
theorem run_odd : ¬ ∀ file : List UWord8, file.length < 2 ^ 31 → Plays file (run (fun _ => false) file) := by
  intro hall
  have hplays := hall [1, 2, 3] (by decide)
  rw [run_eq _ (by decide), if_neg (by decide)] at hplays
  obtain ⟨music, hread⟩ := hplays.read
  cases hread

/-! ## The recordings of this application -/

theorem whole_even {recs : List (List UWord8)} (h : ∀ x ∈ recs, Native.WholeFrame x) : recs.flatten.length % 2 = 0 := by
  induction recs with
  | nil => rfl
  | cons x recs ih =>
    have hx : x.length = 32 := (h x (by simp)).1
    have hrest := ih fun y hy => h y (by simp [hy])
    rw [List.flatten_cons, List.length_append, hx]
    omega

/-- A file that holds the magic number and whole frames is played to its end, header and all. -/
theorem recording_plays (throws : TrackCall → Bool) {recs : List (List UWord8)} (hw : ∀ x ∈ recs, Native.WholeFrame x)
    (h : (Native.magic ++ recs.flatten).length < 2 ^ 31)
    (ht : Accepts throws ((Native.magic ++ recs.flatten).length / 2 * 2)) :
    Plays (Native.magic ++ recs.flatten) (run throws (Native.magic ++ recs.flatten)) := by
  have heven : (Native.magic ++ recs.flatten).length % 2 = 0 := by
    have := whole_even hw
    have hmagic : Native.magic.length = 6 := rfl
    rw [List.length_append, hmagic]
    omega
  rw [run_eq throws h, if_pos heven]
  obtain ⟨hnew, hplay, hwrite⟩ := ht
  simp only [hnew, hplay, hwrite, Bool.or_self, Bool.false_eq_true, if_false]
  exact ⟨⟨_, rfl⟩, rfl⟩

end AudioRecorder.Java.Playback
