import AudioRecorder.Native.Stream
/-!
# Three strides in one loop

`denoiseAndEnc` steps through `size` samples by `frame_size`; the denoiser
rewrites `frame_size` samples at each step, and the encoder reads and scribbles
over 160. For every frame size each step stays inside its own slice of the
buffer, since `handleAmrEnc` refuses a shorter frame. The encoder sees all that
the denoiser produced only when the frame is 160 samples and every `fopen`
succeeds, or there is no step at all (`denoiseAndEnc_strides`).
-/

namespace AudioRecorder.Native

open Codec (Word16)
open Blocks (blocks)
open Transducer (kept)

variable {w : World}

/-- The samples of a slice with their places in the buffer. -/
def Slice.placed (s : Slice) : List (Int × Word16) := s.samples.zipIdx.map fun p => (s.off + p.2, p.1)

@[simp] theorem Slice.placed_length (s : Slice) : s.placed.length = s.samples.length := by simp [placed]

/-- What a step of the denoiser left in the buffer. -/
def Denoised.slice (d : Denoised) : Slice := ⟨d.off, d.output⟩

/-- The denoiser's steps from step `i` on, for the frame size `k`. -/
def steps (w : World) (k : Int) : Nat → w.den.State → List (List Word16) → List Denoised
  | _, _, [] => []
  | i, st, x :: xs => ⟨i * k, x, (w.den.run st x).2⟩ :: steps w k (i + 1) (w.den.run st x).1 xs

/-- The slices the encoder is given for these steps, the first of them making `fopen` call `n`. -/
def encoderSlices (ok : Nat → Bool) (n : Nat) (k : Int) (d : List Denoised) : List Slice :=
  if k < frameSize then [] else (kept ok n d).map fun x => ⟨x.off, x.output.take frameSize⟩

/-- Every frame touched lies in the buffer, and every frame encoded in the slice of its step. -/
structure Contained (k size : Int) (d : List Denoised) (e : List Slice) : Prop where
  denoiser : ∀ x ∈ d, 0 ≤ x.off ∧ x.off + x.input.length ≤ size ∧ x.input.length = k ∧ x.output.length = k
  encoder : ∀ s ∈ e, s.samples.length = frameSize ∧ ∃ x ∈ d, x.off ≤ s.off ∧ s.off + frameSize ≤ x.off + k

theorem steps_length (k : Int) (i : Nat) (st : w.den.State) (xs : List (List Word16)) :
    (steps w k i st xs).length = xs.length := by
  induction xs generalizing i st with
  | nil => rfl
  | cons x xs ih => simp [steps, ih]

theorem steps_input (k : Int) (i : Nat) (st : w.den.State) (xs : List (List Word16)) :
    (steps w k i st xs).map Denoised.input = xs := by
  induction xs generalizing i st with
  | nil => rfl
  | cons x xs ih => simp [steps, ih]

/-- Each step works on a whole frame at its own multiple of the frame size. -/
theorem mem_steps {k i : Nat} {st : w.den.State} {xs : List (List Word16)} (hx : ∀ x ∈ xs, x.length = k) {d : Denoised}
    (hd : d ∈ steps w k i st xs) :
    ∃ n, i ≤ n ∧ n < i + xs.length ∧ d.off = n * k ∧ d.input.length = k ∧ d.output.length = k := by
  induction xs generalizing i st with
  | nil => cases hd
  | cons x xs ih =>
    rcases List.mem_cons.1 hd with rfl | hd
    · exact ⟨i, le_refl _, by simp, rfl, hx x (by simp), by simp [hx x]⟩
    · obtain ⟨n, h₁, h₂, h⟩ := ih (fun y hy => hx y (by simp [hy])) hd
      exact ⟨n, by omega, by simp only [List.length_cons]; omega, h⟩

namespace Session
variable (s : Session w)

theorem feeds_denoised (i : Nat) (xs : List (List Word16)) :
    (s.feeds i xs).denoised = s.denoised ++ steps w s.frameSize i s.den xs := by
  induction xs generalizing s i with
  | nil => simp [feeds, steps]
  | cons x xs ih => rw [feeds, ih]; simp [feed, steps]

theorem feed_encoded (i : Nat) (x : List Word16) :
    (s.feed i x).encoded = s.encoded ++ encoderSlices w.fopenOk s.os.opens s.frameSize
      [⟨i * s.frameSize, x, (w.den.run s.den x).2⟩] := by
  simp only [feed, EncView.handle, encoderSlices, kept]
  cases w.fopenOk s.os.opens <;> by_cases hs : s.frameSize < Native.frameSize <;> simp [hs]

theorem feeds_encoded (i : Nat) (xs : List (List Word16)) :
    (s.feeds i xs).encoded =
      s.encoded ++ encoderSlices w.fopenOk s.os.opens s.frameSize (steps w s.frameSize i s.den xs) := by
  induction xs generalizing s i with
  | nil => simp [feeds, steps, encoderSlices, kept]
  | cons x xs ih =>
    rw [feeds, ih, feed_encoded, feed_opens]
    simp only [feed, steps, encoderSlices, List.append_assoc]
    by_cases hs : s.frameSize < Native.frameSize
    · simp [hs]
    · simp only [hs, if_false, kept]
      split <;> simp

end Session

theorem contained_steps {k i size : Nat} {st : w.den.State} {xs : List (List Word16)} (ok : Nat → Bool) (n : Nat)
    (hx : ∀ x ∈ xs, x.length = k) (hsize : (i + xs.length) * k ≤ size) :
    Contained k size (steps w k i st xs) (encoderSlices ok n k (steps w k i st xs)) where
  denoiser d hd := by
    obtain ⟨m, -, hm, hoff, hin, hout⟩ := mem_steps hx hd
    have hle : (m + 1) * k ≤ size := le_trans (Nat.mul_le_mul_right k (by omega)) hsize
    rw [Nat.succ_mul] at hle
    rw [hoff, hin, hout]
    exact ⟨Int.mul_nonneg (by omega) (by omega), by exact_mod_cast hle, rfl, rfl⟩
  encoder s hs := by
    unfold encoderSlices at hs
    split at hs
    · cases hs
    · rename_i hk
      obtain ⟨d, hd, rfl⟩ := List.mem_map.1 hs
      have hd := (Transducer.kept_sublist _ n _).subset hd
      obtain ⟨m, -, -, -, -, hout⟩ := mem_steps hx hd
      refine ⟨by simp only [List.length_take]; omega, d, hd, le_refl _, by simp only; omega⟩

theorem placed_total {ss : List Slice} {n : Nat} (h : ∀ s ∈ ss, s.samples.length = n) :
    (ss.flatMap Slice.placed).length = ss.length * n := by
  induction ss with
  | nil => simp
  | cons s ss ih =>
    rw [List.flatMap_cons, List.length_append, ih fun t ht => h t (by simp [ht]), Slice.placed_length, h s (by simp),
      List.length_cons, Nat.succ_mul, Nat.add_comm]

/-- The encoder is given all the samples the denoiser produced, in order, exactly
when there is no step, or the frame is the encoder's and every `fopen` succeeds. -/
theorem covered_iff {k i : Nat} (hk : 0 < k) {st : w.den.State} {xs : List (List Word16)} (ok : Nat → Bool) (n : Nat)
    (hx : ∀ x ∈ xs, x.length = k) :
    (encoderSlices ok n k (steps w k i st xs)).flatMap Slice.placed =
        ((steps w k i st xs).map Denoised.slice).flatMap Slice.placed ↔
      xs = [] ∨ (k = frameSize ∧ ∀ m < xs.length, ok (n + m) = true) := by
  have hlen : (steps w k i st xs).length = xs.length := steps_length ..
  have hout : ∀ x ∈ steps w k i st xs, x.output.length = k := fun x hx' => by
    obtain ⟨_, -, -, -, -, h⟩ := mem_steps hx hx'
    exact h
  generalize steps w k i st xs = d at hlen hout ⊢
  have htotal : ((d.map Denoised.slice).flatMap Slice.placed).length = xs.length * k := by
    rw [placed_total (n := k) (by simpa [Denoised.slice] using hout), List.length_map, hlen]
  constructor
  · intro heq
    have hl := congrArg List.length heq
    rw [htotal] at hl
    rcases Nat.eq_zero_or_pos xs.length with h0 | hpos
    · exact .inl (List.length_eq_zero_iff.1 h0)
    · right
      by_cases hs : (k : Int) < frameSize
      · rw [encoderSlices, if_pos hs] at hl
        have : 0 < xs.length * k := Nat.mul_pos hpos hk
        simp only [List.flatMap_nil, List.length_nil] at hl
        omega
      · have hkept := (Transducer.kept_sublist ok n d).length_le
        have hslices : ∀ s ∈ encoderSlices ok n k d, s.samples.length = frameSize := by
          intro s hs'
          rw [encoderSlices, if_neg hs] at hs'
          obtain ⟨x, hx', rfl⟩ := List.mem_map.1 hs'
          have := hout x ((Transducer.kept_sublist _ n d).subset hx')
          simp only [List.length_take]; omega
        rw [placed_total hslices, encoderSlices, if_neg hs, List.length_map, ← hlen] at hl
        -- a longer frame, or a failed `fopen`, leaves the encoder with fewer samples
        have hkeq : k = frameSize := by
          by_contra hne
          have h₁ : (kept ok n d).length * frameSize ≤ d.length * frameSize := Nat.mul_le_mul_right _ hkept
          have h₂ : d.length * frameSize < d.length * k := Nat.mul_lt_mul_of_pos_left (by omega) (by omega)
          omega
        refine ⟨hkeq, hlen ▸ (Transducer.kept_length_iff n d).1 ?_⟩
        rw [hkeq] at hl
        exact Nat.eq_of_mul_eq_mul_right (by decide) hl
  · rintro (h | ⟨rfl, hok⟩)
    · obtain rfl : d = [] := List.length_eq_zero_iff.1 (by rw [hlen, h]; rfl)
      simp [encoderSlices, kept]
    · rw [encoderSlices, if_neg (by omega), Transducer.kept_all n d (by rwa [hlen])]
      refine congrArg (List.flatMap Slice.placed) (List.map_congr_left fun x hx' => ?_)
      rw [Denoised.slice, List.take_of_length_le (hout x hx').le]

namespace Jni
variable {j : Jni w} {c : Call}

/-- In every state with a session open, a call whose array region exists touches
only its buffer, each step only its own slice; and the encoder is given exactly
what the denoiser produced when there is no step, or the frame size is 160 and
every `fopen` of the call succeeds, and not otherwise. -/
theorem denoiseAndEnc_strides (os : Os) (h : Reached os j) (hopen : j.codecOpen ≠ 0) (hin : c.Inside) :
    ∃ j' d e, j.step c.op = .ok (⟨none, false⟩, j') ∧ j'.denoised = j.denoised ++ d ∧
      j'.amr.encoded = j.amr.encoded ++ e ∧ d.map Denoised.input = blocks j.frameSize.toNat c.samples ∧
      Contained j.frameSize c.size d e ∧
      (e.flatMap Slice.placed = (d.map Denoised.slice).flatMap Slice.placed ↔
        c.size < j.frameSize ∨ (j.frameSize = Native.frameSize ∧
          ∀ i < c.size.toNat / Native.frameSize, w.fopenOk (j.amr.os.opens + i) = true)) := by
  obtain ⟨s, ho, hpos⟩ := h.opened hopen
  obtain ⟨k, hk⟩ := Int.eq_ofNat_of_zero_le hpos.le
  have hkpos : 0 < k := by omega
  have hjk : j.frameSize = k := ho.frameSize.trans hk
  obtain ⟨j', hd, ho', -⟩ := denoiseAndEnc_spec ho hk hkpos c.lin c.offset c.size c.junk
  rw [show region c.lin c.offset c.size c.junk = c.samples from hin.buffer] at ho'
  rw [hin.region] at hd
  have hlen := hin.samples_length
  have hfull : ∀ x ∈ blocks k c.samples, x.length = k := Blocks.blocks_full
  refine ⟨j', _, _, hd, by rw [ho'.denoised, Session.feeds_denoised, ← ho.denoised],
    by rw [ho'.amr.encoded, Session.feeds_encoded, ← ho.amr.encoded], ?_, ?_, ?_⟩
  · rw [hjk, hk]; exact steps_input ..
  · rw [hjk, hk]
    have hsize : (0 + (blocks k c.samples).length) * k ≤ c.size.toNat := by
      rw [Nat.zero_add, Blocks.blocks_length, hlen]; exact Nat.div_mul_le_self _ _
    rw [← Int.toNat_of_nonneg hin.2.1]
    exact contained_steps _ _ hfull hsize
  · rw [hk, covered_iff hkpos _ _ hfull, hjk, Blocks.blocks_length, hlen, ← ho.amr.os]
    have hnil : blocks k c.samples = [] ↔ c.size < k := by
      rw [← List.length_eq_zero_iff, Blocks.blocks_length, hlen, Nat.div_eq_zero_iff]
      have := hin.2.1
      omega
    rw [hnil]
    refine or_congr Iff.rfl ⟨fun ⟨he, h⟩ => ⟨by rw [he], he ▸ h⟩, fun ⟨he, h⟩ => ?_⟩
    have he : k = Native.frameSize := by exact_mod_cast he
    exact ⟨he, he ▸ h⟩

/-- The first call of a session opened with the encoder's frame size. -/
theorem denoiseAndEnc_strides_first :
    ∃ j : Jni (.plain fun _ => true), Reached ⟨noFiles, 0, []⟩ j ∧ j.frameSize = 160 ∧
      ∃ j' d e, j.step (Call.ofSamples (List.replicate 400 0)).op = .ok (⟨none, false⟩, j') ∧
        j'.denoised = j.denoised ++ d ∧ j'.amr.encoded = j.amr.encoded ++ e ∧
        e.flatMap Slice.placed = (d.map Denoised.slice).flatMap Slice.placed := by
  let os : Os := ⟨noFiles, 0, []⟩
  obtain ⟨j, hi, ho, hk⟩ := init_spec (load_closed (.plain fun _ => true) os) 160 8000 1
  have hr : Reached os j := ⟨[.init 160 8000 1], _, by simp [Op.SizePos], exec_cons hi rfl⟩
  have hfs : j.frameSize = 160 := ho.frameSize
  obtain ⟨j', d, e, hs, hd, he, -, -, hiff⟩ :=
    denoiseAndEnc_strides os hr (by rw [hk.codecOpen]; decide) (Call.ofSamples_inside (List.replicate 400 0))
  exact ⟨j, hr, hfs, j', d, e, hs, hd, he, hiff.2 (.inr ⟨hfs, fun _ _ => rfl⟩)⟩

/-- In a session with frames of 320 samples the encoder is given half of each. -/
theorem denoiseAndEnc_strides_320 :
    ¬ ∀ (k : Int) (j : Jni (.plain fun _ => true)) (c : Call), 0 < k → c.Inside →
      (load (.plain fun _ => true) ⟨noFiles, 0, []⟩).init k 8000 1 = .ok (⟨none, false⟩, j) →
      ∃ j' d e, j.step c.op = .ok (⟨none, false⟩, j') ∧ j'.denoised = j.denoised ++ d ∧
        j'.amr.encoded = j.amr.encoded ++ e ∧
        e.flatMap Slice.placed = (d.map Denoised.slice).flatMap Slice.placed := by
  intro hall
  obtain ⟨j, hi, ho, hk⟩ := init_spec (load_closed (.plain fun _ => true) ⟨noFiles, 0, []⟩) 320 8000 1
  obtain ⟨xs, hxs⟩ : ∃ xs : List Word16, xs.length = 320 := ⟨List.replicate 320 0, List.length_replicate ..⟩
  let c := Call.ofSamples xs
  obtain ⟨j', d, e, hs, hd, he, hcov⟩ := hall 320 j c (by decide) (Call.ofSamples_inside _) hi
  obtain ⟨j₁, hs₁, ho₁, -⟩ := denoiseAndEnc_spec ho (k := 320) rfl (by decide) c.lin c.offset c.size c.junk
  rw [show region c.lin c.offset c.size c.junk = c.samples from (Call.ofSamples_inside _).buffer] at ho₁
  have hjj : j' = j₁ := (Prod.mk.inj (Except.ok.inj (hs.symm.trans hs₁))).2
  have hd' := ho₁.denoised
  have he' := ho₁.amr.encoded
  rw [Session.feeds_denoised, ← ho.denoised, ← hjj, hd] at hd'
  rw [Session.feeds_encoded, ← ho.amr.encoded, ← hjj, he] at he'
  rw [List.append_cancel_left hd', List.append_cancel_left he'] at hcov
  rcases (covered_iff (k := 320) (by decide) _ _ Blocks.blocks_full).1 hcov with h | ⟨h, -⟩
  · have hl := congrArg List.length h
    rw [Blocks.blocks_length, Call.ofSamples_samples, hxs] at hl
    exact absurd hl (by decide)
  · exact absurd h (by decide)

end Jni

end AudioRecorder.Native
