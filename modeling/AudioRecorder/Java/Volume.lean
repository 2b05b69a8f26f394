import Mathlib.Data.List.Forall2
import AudioRecorder.Java.Recorder
/-!
# The volume of a read

The loop reuses one buffer, and `getVolumeMax` scans all of it: behind a short read
it finds what earlier reads left. The value reported after a read is that read's own
volume exactly when what is left behind it is no louder (`volumes_delivered`).
-/

namespace AudioRecorder.Java

open Codec (Word16)
open Native (World Os Ret noFiles)
open Machine (Run)
open Thread (getVolumeMax)

variable {w : World}

/-! ## `getVolumeMax` -/

/-- `v` is the largest absolute value of the samples, or 0 if there is none. -/
def Loudest (xs : List Word16) (v : Nat) : Prop :=
  (∀ x ∈ xs, x.toInt.natAbs ≤ v) ∧ (v = 0 ∨ ∃ x ∈ xs, x.toInt.natAbs = v)

theorem Loudest.unique {xs : List Word16} {v v' : Nat} (h : Loudest xs v) (h' : Loudest xs v') : v = v' := by
  obtain ⟨hle, hv⟩ := h
  obtain ⟨hle', hv'⟩ := h'
  apply Nat.le_antisymm
  · rcases hv with rfl | ⟨x, hx, rfl⟩
    · exact Nat.zero_le _
    · exact hle' x hx
  · rcases hv' with rfl | ⟨x, hx, rfl⟩
    · exact Nat.zero_le _
    · exact hle x hx

theorem getVolumeMax_concat (xs : List Word16) (x : Word16) :
    getVolumeMax (xs ++ [x]) = max (getVolumeMax xs) x.toInt.natAbs := by
  simp only [getVolumeMax, List.foldl_append, List.foldl_cons, List.foldl_nil]
  split
  · omega
  · omega

/-- The scan finds the loudest sample. -/
theorem getVolumeMax_loudest (xs : List Word16) : Loudest xs (getVolumeMax xs) := by
  induction xs using List.reverseRecOn with
  | nil => exact ⟨by simp, .inl rfl⟩
  | append_singleton xs x ih =>
    obtain ⟨hle, hmem⟩ := ih
    rw [getVolumeMax_concat]
    constructor
    · intro y hy
      rcases List.mem_append.1 hy with hy | hy
      · exact (hle y hy).trans (Nat.le_max_left ..)
      · rw [List.mem_singleton.1 hy]
        exact Nat.le_max_right ..
    · rcases Nat.le_total x.toInt.natAbs (getVolumeMax xs) with h | h
      · rw [Nat.max_eq_left h]
        rcases hmem with h0 | ⟨y, hy, hv⟩
        · exact .inl h0
        · exact .inr ⟨y, List.mem_append_left _ hy, hv⟩
      · rw [Nat.max_eq_right h]
        exact .inr ⟨x, by simp, rfl⟩

theorem loudest_iff {xs : List Word16} {v : Nat} : Loudest xs v ↔ v = getVolumeMax xs := by
  constructor
  · intro h
    exact h.unique (getVolumeMax_loudest xs)
  · rintro rfl
    exact getVolumeMax_loudest xs

theorem eq_zero_of_natAbs {x : Word16} (h : x.toInt.natAbs = 0) : x = 0 := by
  rw [Int.natAbs_eq_zero] at h
  exact BitVec.eq_of_toInt_eq h

/-- The scan of the whole buffer finds the loudest of its first `n` samples exactly
when no other sample is louder than all of these. -/
theorem loudest_front_iff (buffer : List Word16) (n : Nat) :
    Loudest (buffer.take n) (getVolumeMax buffer) ↔
      ∀ y ∈ buffer.drop n, y = 0 ∨ ∃ x ∈ buffer.take n, y.toInt.natAbs ≤ x.toInt.natAbs := by
  obtain ⟨hle, hmem⟩ := getVolumeMax_loudest buffer
  constructor
  · rintro ⟨-, hfront⟩ y hy
    have hy' := hle y (List.mem_of_mem_drop hy)
    rcases hfront with h0 | ⟨x, hx, hv⟩
    · exact .inl (eq_zero_of_natAbs (by omega))
    · exact .inr ⟨x, hx, by omega⟩
  · intro hrest
    refine ⟨fun x hx => hle x (List.mem_of_mem_take hx), ?_⟩
    rcases hmem with h0 | ⟨z, hz, hv⟩
    · exact .inl h0
    · rw [← List.take_append_drop n buffer] at hz
      rcases List.mem_append.1 hz with hz | hz
      · exact .inr ⟨z, hz, hv⟩
      · -- the loudest sample is behind the front
        rcases hrest z hz with rfl | ⟨x, hx, hzx⟩
        · exact .inl hv.symm
        · have := hle x (List.mem_of_mem_take hx)
          exact .inr ⟨x, hx, by omega⟩

/-! ## What a thread has reported -/

/-- Each value reported is the volume of its read; the last read may have no value yet. -/
def Heard (reads : List (List Word16)) (volumes : List Nat) : Prop :=
  List.Forall₂ Loudest (reads.take volumes.length) volumes

theorem heard_read {reads : List (List Word16)} {volumes : List Nat} (h : volumes.length ≤ reads.length) (xs : List Word16) :
    Heard (reads ++ [xs]) volumes ↔ Heard reads volumes := by
  rw [Heard, Heard, List.take_append_of_le_length h]

theorem heard_report {reads : List (List Word16)} {volumes : List Nat} (h : volumes.length = reads.length)
    (xs : List Word16) (v : Nat) : Heard (reads ++ [xs]) (volumes ++ [v]) ↔ Heard (reads ++ [xs]) volumes ∧ Loudest xs v := by
  rw [heard_read h.le, Heard, Heard, List.take_of_length_le (by simp [h]), List.take_of_length_le h.ge,
    List.forall₂_iff_zip, List.forall₂_iff_zip, List.zip_append h.symm]
  simp only [List.length_append, List.length_singleton, List.zip_cons_cons, List.zip_nil_right, List.mem_append,
    List.mem_singleton, Prod.mk.injEq, h, true_and]
  constructor
  · intro hall
    exact ⟨fun hp => hall (.inl hp), hall (.inr ⟨rfl, rfl⟩)⟩
  · rintro ⟨hall, hlast⟩ x y (hp | ⟨rfl, rfl⟩)
    · exact hall hp
    · exact hlast

/-- How far the reports are behind the reads, by where the thread is. Between a read
and its report, the front of the buffer is what the read delivered. -/
def Reporting (th : Thread) : Prop :=
  match th.pc with
  | .denoiseAndEnc | .addFrames | .updateVolumeMax => ∃ reads xs, th.reads = reads ++ [xs] ∧
      th.volumes.length = reads.length ∧ th.bufferReadResult = xs.length ∧ th.buffer.take xs.length = xs
  | .stop | .release | .close | .clearFrames | .clearRun | .done => th.volumes.length ≤ th.reads.length
  | _ => th.volumes.length = th.reads.length

/-- When a volume is reported, every sample left in the buffer behind those just
read is silent, or no louder than one of these. -/
def Outshone (th : Thread) : Prop :=
  th.pc = .updateVolumeMax → ∀ y ∈ th.buffer.drop th.bufferReadResult.toNat,
    y = 0 ∨ ∃ x ∈ th.buffer.take th.bufferReadResult.toNat, y.toInt.natAbs ≤ x.toInt.natAbs

-- over the lists: the instance for `∀ y : Word16` would try all the words
instance (th : Thread) : Decidable (Outshone th) :=
  decidable_of_iff (th.pc = .updateVolumeMax → (th.buffer.drop th.bufferReadResult.toNat).all (fun y =>
    y = 0 || (th.buffer.take th.bufferReadResult.toNat).any fun x => y.toInt.natAbs ≤ x.toInt.natAbs)) (by
      simp [Outshone])

theorem Reporting.le {th : Thread} (h : Reporting th) : th.volumes.length ≤ th.reads.length := by
  obtain ⟨i, pc, buffer, n, reads, volumes⟩ := th
  cases pc with
  | denoiseAndEnc | addFrames | updateVolumeMax =>
    obtain ⟨rs, xs, hr, hlen, -⟩ := h
    simp only at hr hlen ⊢
    rw [hr, List.length_append]
    omega
  | stop | release | close | clearFrames | clearRun | done => exact h
  | _ => exact Nat.le_of_eq h

/-- One step of a thread whose reads deliver samples. -/
theorem Reporting.next {th : Thread} {a : Answer} {r : Ret} {o : Recorder} (h : Reporting th)
    (hread : th.pc = .read → a.read.isOk) : Reporting (th.next a r o).2 := by
  have hle := h.le
  obtain ⟨i, pc, buffer, n, reads, volumes⟩ := th
  cases pc with
  | checkRun | newAudioRecord | startRecording =>
    simp only [Thread.next, Thread.call, Thread.goto]
    split
    · exact hle
    · exact h
  | newBuffer =>
    simp only [Thread.next, Thread.call, Thread.goto]
    split
    · exact hle
    · split
      · exact hle
      · exact h
  | loopTest =>
    simp only [Thread.next, Thread.goto]
    split
    · exact h
    · exact hle
  | read =>
    simp only [Thread.next, Thread.call, Thread.goto]
    cases hxs : a.read with
    | error e => rw [hxs] at hread; cases hread rfl
    | ok xs =>
      simp only
      split
      · simp only [Reporting, List.length_append]
        exact hle.trans (Nat.le_add_right _ _)
      · exact ⟨reads, _, rfl, h, rfl, List.take_left⟩
  | denoiseAndEnc =>
    simp only [Thread.next, Thread.goto]
    split
    · exact hle
    · exact h
  | updateVolumeMax =>
    obtain ⟨rs, xs, hr, hlen, -⟩ := h
    simp only at hr hlen
    simp only [Thread.next, Thread.call, Thread.goto]
    split
    · simp [Reporting, hr, hlen]
    · simp [Reporting, hr, hlen]
  | stop | release =>
    simp only [Thread.next, Thread.call, Thread.goto]
    split
    · exact hle
    · exact hle
  | _ => exact h

/-- A step keeps the reports right unless it reports a buffer whose rest is louder. -/
theorem Reporting.heard_next {th : Thread} {a : Answer} {r : Ret} {o : Recorder} (h : Reporting th)
    (hread : th.pc = .read → a.read.isOk) :
    Heard (th.next a r o).2.reads (th.next a r o).2.volumes ↔ Heard th.reads th.volumes ∧ Outshone th := by
  have hle := h.le
  obtain ⟨i, pc, buffer, n, reads, volumes⟩ := th
  cases pc with
  | newBuffer =>
    simp only [Thread.next]
    split
    · simp [Thread.goto, Outshone]
    · simp [Thread.call, Thread.goto, Outshone]
  | read =>
    cases hxs : a.read with
    | error e => rw [hxs] at hread; cases hread rfl
    | ok xs => simp [Thread.next, Thread.call, Thread.goto, hxs, Outshone, heard_read hle]
  | updateVolumeMax =>
    obtain ⟨rs, xs, hr, hlen, hn, hfront⟩ := h
    simp only at hr hlen hn hfront hle
    subst hr
    subst hn
    have hfront' := loudest_front_iff buffer xs.length
    rw [hfront] at hfront'
    simp only [Thread.next, Thread.call, Thread.goto, Outshone, Int.toNat_natCast, hfront, forall_const]
    rw [heard_report hlen, hfront']
  | _ => simp [Thread.next, Thread.call, Thread.goto, Outshone]

/-- What a sequence of reads into one buffer leaves in it. -/
def overlay (buffer : List Word16) (reads : List (List Word16)) : List Word16 :=
  reads.foldl (fun buffer xs => xs ++ buffer.drop xs.length) buffer

/-- The buffer holds what the reads left in it, and none was made before the loop. -/
def Overlaid (th : Thread) : Prop :=
  (th.pc.Ahead → th.reads = []) ∧ ∃ n, th.buffer = overlay (List.replicate n 0) th.reads

theorem Overlaid.next {th : Thread} {a : Answer} {r : Ret} {o : Recorder} (h : Overlaid th) : Overlaid (th.next a r o).2 := by
  obtain ⟨hahead, n, hb⟩ := h
  have hkept : (th.next a r o).2.reads = th.reads → ((th.next a r o).2.pc.Ahead → (th.next a r o).2.reads = []) :=
    fun hr hp => hr ▸ hahead (Thread.next_ahead _ _ _ _ hp)
  obtain ⟨i, pc, buffer, m, reads, volumes⟩ := th
  cases pc with
  | newBuffer =>
    simp only [Thread.next] at hkept ⊢
    split
    · exact ⟨fun _ => hahead trivial, n, hb⟩
    · refine ⟨fun _ => hahead trivial, o.mMinBufferSize.toNat, ?_⟩
      obtain rfl : reads = [] := hahead trivial
      rfl
  | read =>
    simp only [Thread.next]
    cases a.read with
    | error e => exact ⟨fun hp => by simp only [Thread.call, Thread.goto] at hp; split at hp <;> exact hp.elim, n, hb⟩
    | ok xs =>
      refine ⟨fun hp => by simp only [Thread.call, Thread.goto] at hp; split at hp <;> exact hp.elim, n, ?_⟩
      simp only [Thread.call, Thread.goto, overlay, List.foldl_append, List.foldl_cons, List.foldl_nil]
      rw [show buffer = overlay (List.replicate n 0) reads from hb]
      rfl
  | _ => exact ⟨hkept rfl, n, hb⟩

/-! ## Runs -/

namespace State

/-- The reads of thread `t` deliver samples, or none; they answer no error. -/
def Delivers (t : Nat) (s : State w) : Action → Prop
  | .run u a => u = t → (s.threads t).pc = .read → a.read.isOk
  | _ => True

/-- When thread `t` reports a volume, nothing behind its last read is louder. -/
def Covers (t : Nat) (s : State w) : Action → Prop
  | .run u _ => u = t → Outshone (s.threads t)
  | _ => True

instance (t : Nat) (s : State w) (a : Action) : Decidable (Delivers t s a) :=
  match a with
  | .run .. => inferInstanceAs (Decidable (_ → _ → _ = true))
  | .start _ => isTrue trivial
  | .stop _ => isTrue trivial

instance (t : Nat) (s : State w) (a : Action) : Decidable (Covers t s a) :=
  match a with
  | .run .. => inferInstanceAs (Decidable (_ → Outshone _))
  | .start _ => isTrue trivial
  | .stop _ => isTrue trivial

theorem reporting_of_run (os : Os) {t : Nat} {as : List Action} {s : State w}
    (h : Run step (Delivers t) (load w os) as s) : Reporting (s.threads t) := by
  have h0 : Reporting ((load w os).threads t) := Nat.le_refl 0
  refine h.inv (fun s => Reporting (s.threads t)) h0 ?_
  intro s act s' I hg hs
  refine step_thread Reporting I (fun _ => rfl) ?_ hs
  rintro a r o rfl
  exact I.next (hg rfl)

/-- In every run the buffer of a thread holds what its reads left in it. -/
theorem buffer_overlay (os : Os) {guard : State w → Action → Prop} {as : List Action} {s : State w}
    (h : Run step guard (load w os) as s) (t : Nat) : Overlaid (s.threads t) := by
  refine h.inv (fun s => Overlaid (s.threads t)) ⟨fun _ => rfl, 0, rfl⟩ ?_
  intro s act s' I _ hs
  exact step_thread Overlaid I (fun _ => ⟨fun _ => rfl, 0, rfl⟩) (fun _ _ _ _ => I.next) hs

/-- In every run in which the reads of a thread deliver samples, each volume it has
reported is the one of its read exactly when, at each report, nothing louder was left
in the buffer behind that read. -/
theorem volumes_delivered (os : Os) (t : Nat) {as : List Action} {s : State w}
    (h : Run step (Delivers t) (load w os) as s) :
    Heard (s.threads t).reads (s.threads t).volumes ↔ Run step (Covers t) (load w os) as s := by
  induction h with
  | nil => exact ⟨fun _ => .nil, fun _ => List.Forall₂.nil⟩
  | @snoc as s s' a hr hg hs ih =>
    rw [hr.snoc_iff hs, ← ih]
    have hrep := reporting_of_run os hr
    cases a with
    | start o =>
      cases hs
      by_cases ht : t = s.started
      · -- the thread has neither read nor reported, before its start and after it
        have hun := unstarted hr (fun _ _ => rfl) t ht.ge
        subst ht
        simp only [Function.update_self, Covers, and_true]
        rw [hun]
        rfl
      · simp only [Function.update_of_ne ht, Covers, and_true]
    | stop o =>
      cases hs
      simp only [setRecording, Covers, and_true]
    | run u a =>
      obtain ⟨r, R⟩ := step_run hs
      by_cases ht : t = u
      · subst ht
        rw [R.self, hrep.heard_next (hg rfl)]
        simp only [Covers, forall_const]
      · rw [R.other ht]
        simp only [Covers, show ¬ u = t from fun h => ht h.symm, false_implies, and_true]

/-- A read that fills the buffer, and then a shorter one that is louder than what it leaves behind it. -/
theorem volumes_delivered_louder :
    ∃ s : State (World.plain fun _ => true),
      ((s.threads 0).reads, (s.threads 0).volumes) = ([[1000, -2000, 3], [-32768]], [2000, 32768]) ∧
        Heard (s.threads 0).reads (s.threads 0).volumes := by
  obtain ⟨s, hr, hs⟩ : ∃ s : State (World.plain fun _ => true),
      Run step (fun s a => Delivers 0 s a ∧ Covers 0 s a) (load _ ⟨noFiles, 0, []⟩)
        (.start 0 :: List.replicate 13 (.run 0 { Answer.reading 3 with read := .ok [1000, -2000, 3] }) ++
          List.replicate 5 (.run 0 { Answer.reading 3 with read := .ok [-32768] })) s ∧
        ((s.threads 0).reads, (s.threads 0).volumes) = ([[1000, -2000, 3], [-32768]], [2000, 32768]) :=
    Run.of_map (by decide +kernel)
  have hread : Run step (Delivers 0) (load (World.plain fun _ => true) ⟨noFiles, 0, []⟩) _ s := hr.mono fun _ _ hg => hg.1
  have hcover : Run step (Covers 0) (load (World.plain fun _ => true) ⟨noFiles, 0, []⟩) _ s := hr.mono fun _ _ hg => hg.2
  exact ⟨s, hs, (volumes_delivered _ 0 hread).2 hcover⟩

/-- A loud read, and then one that delivers nothing: the second is reported as loud as the first. -/
theorem volumes_stale :
    ¬ ∀ (as : List Action) (s : State (World.plain fun _ => true)),
      Run step (Delivers 0) (load _ ⟨noFiles, 0, []⟩) as s → Heard (s.threads 0).reads (s.threads 0).volumes := by
  intro hall
  obtain ⟨s, hr, hs⟩ : ∃ s : State (World.plain fun _ => true),
      Run step (Delivers 0) (load _ ⟨noFiles, 0, []⟩)
        (.start 0 :: List.replicate 13 (.run 0 { Answer.reading 1 with read := .ok [1000] }) ++
          List.replicate 5 (.run 0 { Answer.reading 1 with read := .ok [] })) s ∧
        ((s.threads 0).reads, (s.threads 0).volumes) = ([[1000], []], [1000, 1000]) := Run.of_map (by decide +kernel)
  obtain ⟨hreads, hvolumes⟩ := Prod.mk.inj hs
  have hheard := hall _ s hr
  rw [hreads, hvolumes] at hheard
  -- the second value is not the volume of no samples
  cases hheard with
  | cons _ hrest =>
    cases hrest with
    | cons hlast _ => exact absurd (loudest_iff.1 hlast) (by decide)

end State

end AudioRecorder.Java
