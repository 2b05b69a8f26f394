import Mathlib.Data.List.Infix
import AudioRecorder.Native.SpeexJni
/-!
# The two guard counters over whole runs

A run is a list of JNI calls on the library as loaded. `codec_open` counts the
`init` calls since the last `close`, so it stays an `int` as long as fewer than
2^31 of them are made. In every such run no call faults, the counters of the two
modules and their two handles agree in every state, a handle is released by the
`close` that ends its session and by nothing else, and a rejected `init` cannot
be told from none (`jni_coupling`).
-/

namespace AudioRecorder.Native

open Codec (Word16)

/-- A call of one of the exported functions, with its arguments. `junk` is what
the memory `denoiseAndEnc` allocates held before. -/
inductive Op where
  | init (size rate channel : Int)
  | denoiseAndEnc (lin : List Word16) (offset size : Int) (junk : Nat → Word16)
  | close

namespace Op

/-- `init` calls since the last `close`, after one more call. -/
def count (n : Nat) : Op → Nat
  | init .. => n + 1
  | denoiseAndEnc .. => n
  | close => 0

def IsInit : Op → Prop
  | init .. => True
  | _ => False

/-- `init` is called with a positive frame size. -/
def SizePos : Op → Prop
  | init size _ _ => 0 < size
  | _ => True

end Op

/-- The `init` calls since the last `close` of a run. -/
def initsSinceClose (ops : List Op) : Nat := ops.foldl Op.count 0

/-- Frame sizes are positive, and fewer than 2^31 `init` calls are made between
two `close` calls. -/
structure Allowed (ops : List Op) : Prop where
  inits : ∀ p, p <+: ops → initsSinceClose p < 2 ^ 31
  sizes : ∀ op ∈ ops, op.SizePos

theorem Allowed.of_prefix {ops p : List Op} (h : Allowed ops) (hp : p <+: ops) : Allowed p :=
  ⟨fun _ hq => h.inits _ (hq.trans hp), fun _ ho => h.sizes _ (hp.subset ho)⟩

/-- What the rest of a run may do, given its beginning. -/
theorem Allowed.after {pre post : List Op} (h : Allowed (pre ++ post)) :
    (∀ p, p <+: post → p.foldl Op.count (initsSinceClose pre) < 2 ^ 31) ∧ ∀ op ∈ post, op.SizePos := by
  refine ⟨?_, fun op ho => h.sizes op (by simp [ho])⟩
  intro p hp
  have := h.inits (pre ++ p) ((List.prefix_append_right_inj pre).2 hp)
  rwa [initsSinceClose, List.foldl_append] at this

variable {w : World}

namespace Jni

def step (j : Jni w) : Op → Res (Ret × Jni w)
  | .init size rate channel => j.init size rate channel
  | .denoiseAndEnc lin offset size junk => j.denoiseAndEnc lin offset size junk
  | .close => j.close

/-- The results of a run, and the state after it. -/
def exec (j : Jni w) : List Op → Res (List Ret × Jni w)
  | [] => return ([], j)
  | op :: ops => do
    let (r, j) ← j.step op
    let (rs, j) ← j.exec ops
    return (r :: rs, j)

variable {j j' j₁ j₂ k : Jni w} {s : Session w} {op : Op} {ops ops' : List Op} {r : Ret} {rs rs' : List Ret}

theorem exec_cons (hs : j.step op = .ok (r, j')) (he : j'.exec ops = .ok (rs, k)) :
    j.exec (op :: ops) = .ok (r :: rs, k) := by
  simp only [exec, hs, he, Res.ok_bind]
  rfl

theorem exec_append (h : j.exec ops = .ok (rs, j')) (h' : j'.exec ops' = .ok (rs', k)) :
    j.exec (ops ++ ops') = .ok (rs ++ rs', k) := by
  induction ops generalizing j rs with
  | nil =>
    cases h
    exact h'
  | cons op ops ih =>
    obtain ⟨⟨r, j₁⟩, hs, h⟩ := Res.bind_ok.1 h
    obtain ⟨⟨rs₁, j₂⟩, he, h⟩ := Res.bind_ok.1 h
    cases h
    exact exec_cons hs (ih he)

/-- A session with a positive frame size is open, or none is. -/
inductive Reachable (j : Jni w) : Prop
  | closed (h : j.Closed)
  | opened {s : Session w} (h : j.Open s) (hpos : 0 < s.frameSize)

/-- The counters and the handles of the two modules agree. -/
structure Coupled (j : Jni w) : Prop where
  encode : 0 < j.codecOpen ↔ 0 < j.amr.encode
  handles : 0 < j.codecOpen ↔ (∃ d, j.heap.Live j.denoiseState d) ∧ ∃ e, j.amr.heap.Live j.amr.amr e
  denoisers : ∀ i < j.heap.next, j.heap.slot i = .freed ∨ (0 < j.codecOpen ∧ j.denoiseState = some i)
  encoders : ∀ i < j.amr.heap.next, j.amr.heap.slot i = .freed ∨ (0 < j.codecOpen ∧ j.amr.amr = some i)

theorem Closed.coupled (h : j.Closed) : j.Coupled where
  encode := by rw [h.codecOpen, h.amr.encode]
  handles := by
    rw [h.codecOpen]
    exact ⟨fun h0 => absurd h0 (by omega), fun ⟨⟨d, hd⟩, _⟩ => absurd hd h.freed.not_live⟩
  denoisers i hi := .inl (h.freed i hi)
  encoders i hi := .inl (h.amr.freed i hi)

theorem Open.coupled (h : j.Open s) : j.Coupled where
  encode := ⟨fun _ => h.amr.encode, fun _ => h.codecOpen⟩
  handles := ⟨fun _ => ⟨⟨_, h.only.1⟩, ⟨_, h.amr.only.1⟩⟩, fun _ => h.codecOpen⟩
  denoisers i hi := by
    by_cases hp : j.denoiseState = some i
    · exact .inr ⟨h.codecOpen, hp⟩
    · exact .inl (h.only.2 i hi hp)
  encoders i hi := by
    by_cases hp : j.amr.amr = some i
    · exact .inr ⟨h.codecOpen, hp⟩
    · exact .inl (h.amr.only.2 i hi hp)

theorem Reachable.coupled (h : j.Reachable) : j.Coupled := by
  cases h with
  | closed h => exact h.coupled
  | opened h _ => exact h.coupled

/-! ## The life of a handle -/

/-- What one call does to the handles of a heap: a released handle stays
released, `close` leaves none live, and nothing else releases one. -/
structure HandleLife {α : Type} (op : Op) (h h' : Arena α) : Prop where
  freed : ∀ i, h.slot i = .freed → h'.slot i = .freed
  live : ∀ i a, h.slot i = .live a → op ≠ .close → ∃ b, h'.slot i = .live b
  close : op = .close → h'.AllFreed

theorem HandleLife.refl {α : Type} {h : Arena α} (hne : op ≠ .close ∨ h.AllFreed) : HandleLife op h h where
  freed _ hi := hi
  live _ a hi _ := ⟨a, hi⟩
  close ho := hne.resolve_left (fun hn => hn ho)

/-- Between two states in which the same handle is the only live one, it lives on. -/
theorem HandleLife.of_only {α : Type} {h h' : Arena α} {p p' : Ptr} {a b : α} (ho : h.Only p a) (ho' : h'.Only p' b)
    (hp : p' = p) (hn : h'.next = h.next) (hne : op ≠ .close) : HandleLife op h h' where
  freed i hi := by
    have hlt := Arena.lt_of_used (h := h) (i := i) (by simp [hi])
    refine ho'.2 i (by omega) (fun he => ?_)
    obtain ⟨k, hk, hl⟩ := ho.1
    rw [← hp, he] at hk
    cases hk
    rw [hi] at hl
    cases hl
  live i c hi _ := by
    obtain ⟨k, hk, hl⟩ := ho'.1
    have hik : p = some i := by
      by_contra hpi
      have hf := ho.2 i (Arena.Live.lt ⟨i, rfl, hi⟩) hpi
      rw [hi] at hf
      cases hf
    rw [hp, hik] at hk
    cases hk
    exact ⟨b, hl⟩
  close he := absurd he hne

/-- Nothing is live before, so nothing is lost. -/
theorem HandleLife.of_allFreed {α : Type} {h h' : Arena α} {p : Ptr} {a : α} (hf : h.AllFreed) (ho' : h'.Only p a)
    (hp : p = some h.next) (hn : h.next ≤ h'.next) (hne : op ≠ .close) : HandleLife op h h' where
  freed i hi := by
    have hlt := Arena.lt_of_used (h := h) (i := i) (by simp [hi])
    exact ho'.2 i (by omega) (by rw [hp]; simp; omega)
  live i c hi _ := absurd ⟨i, rfl, hi⟩ (hf.not_live (p := some i) (a := c))
  close he := absurd he hne

/-- Releasing the only live handle. -/
theorem HandleLife.of_close {α : Type} {h h' : Arena α} (hf : h'.AllFreed) (hn : h'.next = h.next) :
    HandleLife .close h h' where
  freed i hi := hf i (hn ▸ Arena.lt_of_used (by simp [hi]))
  live _ _ _ hne := absurd rfl hne
  close _ := hf

/-! ## One call -/

/-- Every call on a reachable state that does not overflow the guard counter
returns in one. -/
theorem Reachable.step (h : j.Reachable) (hop : op.SizePos) (hmax : op.IsInit → j.codecOpen ≠ intMax) :
    ∃ r j', j.step op = .ok (r, j') ∧ j'.Reachable ∧ (∀ n : Nat, j.codecOpen = n → j'.codecOpen = op.count n) ∧
      HandleLife op j.heap j'.heap ∧ HandleLife op j.amr.heap j'.amr.heap := by
  cases op with
  | init size rate channel =>
    cases h with
    | closed h =>
      obtain ⟨j', hi, ho, hk⟩ := init_spec h size rate channel
      have hcount : ∀ n : Nat, j.codecOpen = n → j'.codecOpen = Op.count n (.init size rate channel) := fun n hn => by
        have := h.codecOpen
        simp only [hk.codecOpen, Op.count]; omega
      refine ⟨_, j', hi, .opened ho hop, hcount, ?_, ?_⟩
      · exact .of_allFreed h.freed ho.only hk.denoiseState (by rw [hk.next]; omega) (by simp)
      · exact .of_allFreed h.amr.freed ho.amr.only hk.amr.amr (by rw [hk.amr.next]; omega) (by simp)
    | opened h hpos =>
      have hne : j.codecOpen ≠ 0 := by have := h.codecOpen; omega
      refine ⟨_, _, init_again hne (hmax trivial), ?_, fun n hn => by simp [hn, Op.count], .refl (.inl (by simp)),
        .refl (.inl (by simp))⟩
      exact .opened ⟨by have := h.codecOpen; simp only; omega, h.frameSize, h.only, h.denFrame, h.amr, h.denoised⟩ hpos
  | denoiseAndEnc lin offset size junk =>
    cases h with
    | closed h =>
      exact ⟨_, j, denoiseAndEnc_closed h.codecOpen .., .closed h, fun _ hn => hn, .refl (.inl (by simp)), .refl (.inl (by simp))⟩
    | @opened s h hpos =>
      obtain ⟨k, hk⟩ := Int.eq_ofNat_of_zero_le hpos.le
      obtain ⟨j', hd, ho, hkeeps⟩ := denoiseAndEnc_spec h hk (by omega) lin offset size junk
      refine ⟨_, j', hd, .opened ho (by simpa using hpos), fun _ hn => hkeeps.codecOpen.trans hn, ?_, ?_⟩
      · exact .of_only h.only ho.only hkeeps.denoiseState hkeeps.next (by simp)
      · exact .of_only h.amr.only ho.amr.only hkeeps.amr.amr hkeeps.amr.next (by simp)
  | close =>
    cases h with
    | closed h =>
      exact ⟨_, j, close_closed h.codecOpen, .closed h, fun _ _ => h.codecOpen, .refl (.inr h.freed), .refl (.inr h.amr.freed)⟩
    | opened h hpos =>
      obtain ⟨j', hc, hcl, -, -, -, hn₁, hn₂⟩ := close_spec h
      exact ⟨_, j', hc, .closed hcl, fun _ _ => hcl.codecOpen, .of_close hcl.freed hn₁, .of_close hcl.amr.freed hn₂⟩

theorem Op.max_of_count (op : Op) {n : Nat} (hn : j.codecOpen = n) (hlt : op.count n < 2 ^ 31) :
    op.IsInit → j.codecOpen ≠ intMax := by
  cases op with
  | init => intro _; simp only [Op.count, intMax] at *; omega
  | denoiseAndEnc => exact False.elim
  | close => exact False.elim

/-- A run of allowed calls from a reachable state returns in one. -/
theorem Reachable.exec (h : j.Reachable) {n : Nat} (hn : j.codecOpen = n)
    (hinits : ∀ p, p <+: ops → p.foldl Op.count n < 2 ^ 31) (hsizes : ∀ op ∈ ops, op.SizePos) :
    ∃ rs j', j.exec ops = .ok (rs, j') ∧ j'.Reachable ∧ j'.codecOpen = ops.foldl Op.count n := by
  induction ops generalizing j n with
  | nil => exact ⟨[], j, rfl, h, hn⟩
  | cons op ops ih =>
    obtain ⟨r, j₁, hs, h₁, hn₁, -⟩ := h.step (hsizes op (by simp)) (Op.max_of_count op hn (hinits [op] ⟨ops, rfl⟩))
    obtain ⟨rs, j₂, he, h₂, hn₂⟩ := ih h₁ (hn₁ n hn) (fun p hp => hinits (op :: p) (List.prefix_cons_inj op |>.2 hp))
      (fun o ho => hsizes o (by simp [ho]))
    exact ⟨r :: rs, j₂, exec_cons hs he, h₂, hn₂⟩

/-- A call that returns keeps a reachable state reachable, and the guard counter
counts the `init` calls since the last `close`. -/
theorem Reachable.of_step (h : j.Reachable) (hs : j.step op = .ok (r, j')) (hop : op.SizePos) :
    j'.Reachable ∧ ∀ n : Nat, j.codecOpen = n → j'.codecOpen = op.count n := by
  obtain ⟨r', k, hs', hk, hcount, -⟩ := h.step hop fun hi hmax => by
    cases op with
    | init => exact init_max hs hmax
    | denoiseAndEnc => exact hi
    | close => exact hi
  rw [hs] at hs'
  cases hs'
  exact ⟨hk, hcount⟩

theorem Reachable.of_exec (h : j.Reachable) (hsizes : ∀ op ∈ ops, op.SizePos) (he : j.exec ops = .ok (rs, j')) :
    j'.Reachable := by
  induction ops generalizing j rs with
  | nil => cases he; exact h
  | cons op ops ih =>
    obtain ⟨⟨r, j₁⟩, hs, he⟩ := Res.bind_ok.1 he
    obtain ⟨⟨rs', j₂⟩, he', he⟩ := Res.bind_ok.1 he
    cases he
    exact ih (h.of_step hs (hsizes op (by simp))).1 (fun o ho => hsizes o (by simp [ho])) he'

/-- `j` is the state after some run with positive frame sizes. -/
def Reached (os : Os) (j : Jni w) : Prop := ∃ ops rs, (∀ op ∈ ops, op.SizePos) ∧ (load w os).exec ops = .ok (rs, j)

theorem Reached.reachable {os : Os} (h : Reached os j) : j.Reachable := by
  obtain ⟨ops, rs, hsizes, he⟩ := h
  exact Reachable.of_exec (.closed (load_closed w os)) hsizes he

theorem Reached.closed {os : Os} (h : Reached os j) (h0 : j.codecOpen = 0) : j.Closed := by
  cases h.reachable with
  | closed h => exact h
  | opened h _ => have := h.codecOpen; omega

theorem Reached.opened {os : Os} (h : Reached os j) (h0 : j.codecOpen ≠ 0) : ∃ s, j.Open s ∧ 0 < s.frameSize := by
  cases h.reachable with
  | closed h => exact absurd h.codecOpen h0
  | opened h hpos => exact ⟨_, h, hpos⟩

theorem exec_load (os : Os) (h : Allowed ops) :
    ∃ rs j, (load w os).exec ops = .ok (rs, j) ∧ j.Reachable ∧ j.codecOpen = initsSinceClose ops :=
  Reachable.exec (.closed (load_closed w os)) rfl h.inits h.sizes

/-! ## A rejected `init` cannot be told from none -/

/-- The same state with the guard counter at `c`. -/
def setOpen (c : Int) (j : Jni w) : Jni w := { j with codecOpen := c }

/-- The states differ in the guard counter only, and it is non-zero in both or equal. -/
structure Agree (j j' : Jni w) : Prop where
  rest : j = j'.setOpen j.codecOpen
  guard : j.codecOpen = j'.codecOpen ∨ (0 < j'.codecOpen ∧ j'.codecOpen < j.codecOpen ∧ j.codecOpen ≤ intMax)

/-- The steps of `denoiseAndEnc` neither read nor write the guard counter. -/
theorem denoiseStep_setOpen (c : Int) (i : Nat) (buf : List Word16) (j : Jni w) :
    denoiseStep i buf (j.setOpen c) = (denoiseStep i buf j).map fun p => (p.1, p.2.setOpen c) := by
  simp only [denoiseStep, setOpen]
  cases j.heap.get j.denoiseState with
  | error f => rfl
  | ok st =>
    simp only [Res.ok_bind]
    cases Buffer.read buf (i * j.frameSize) (w.den.frameSize st) with
    | error f => rfl
    | ok x =>
      simp only [Res.ok_bind]
      cases Buffer.write buf (i * j.frameSize) (w.den.run st x).2 with
      | error f => rfl
      | ok buf' =>
        simp only [Res.ok_bind]
        cases j.heap.put (w.den.run st x).1 j.denoiseState with
        | error f => rfl
        | ok heap =>
          simp only [Res.ok_bind]
          cases j.amr.handleAmrEnc filepath 1 buf' (i * j.frameSize) j.frameSize <;> rfl

theorem denoiseLoop_setOpen (c : Int) (n : Nat) : ∀ (i : Nat) (buf : List Word16) (j : Jni w),
    denoiseLoop n i buf (j.setOpen c) = (denoiseLoop n i buf j).map fun p => (p.1, p.2.setOpen c) := by
  induction n with
  | zero => exact fun _ _ _ => rfl
  | succ n ih =>
    intro i buf j
    simp only [denoiseLoop, denoiseStep_setOpen]
    cases denoiseStep i buf j with
    | error f => rfl
    | ok p => simp only [Except.map, Res.ok_bind, ih]

theorem denoiseAndEnc_setOpen {c : Int} (hc : c ≠ 0) (hj : j.codecOpen ≠ 0) (lin : List Word16) (offset size : Int)
    (junk : Nat → Word16) :
    (j.setOpen c).denoiseAndEnc lin offset size junk =
      (j.denoiseAndEnc lin offset size junk).map fun p => (p.1, p.2.setOpen c) := by
  simp only [denoiseAndEnc, if_neg hj, show (j.setOpen c).codecOpen = c from rfl, if_neg hc,
    show (j.setOpen c).frameSize = j.frameSize from rfl]
  cases divInt size j.frameSize with
  | error f => rfl
  | ok n =>
    simp only [Res.ok_bind, denoiseLoop_setOpen]
    cases denoiseLoop n.toNat 0 (getShortArrayRegion lin offset size (malloc size junk)).1 j <;> rfl

theorem denoiseAndEnc_codecOpen (hj : j.codecOpen ≠ 0) {lin : List Word16} {offset size : Int} {junk : Nat → Word16}
    {p : Ret × Jni w} (h : j.denoiseAndEnc lin offset size junk = .ok p) : p.2.codecOpen = j.codecOpen := by
  have hset := denoiseAndEnc_setOpen hj hj lin offset size junk
  rw [show j.setOpen j.codecOpen = j from rfl, h] at hset
  have hp : p = (p.1, p.2.setOpen j.codecOpen) := Except.ok.inj hset
  rw [hp]
  rfl

/-- States that agree answer every call alike, and go on agreeing. -/
theorem Agree.step (h : j₁.Agree j₂) (hs : j₁.step op = .ok (r, j')) : ∃ k, j₂.step op = .ok (r, k) ∧ j'.Agree k := by
  obtain ⟨hrest, heq | ⟨hpos, hle, hmax⟩⟩ := h
  · have : j₁ = j₂ := by rw [hrest, heq]; rfl
    exact ⟨j', this ▸ hs, ⟨rfl, .inl rfl⟩⟩
  · have hne₁ : j₁.codecOpen ≠ 0 := by omega
    have hne₂ : j₂.codecOpen ≠ 0 := by omega
    cases op with
    | init size rate channel =>
      by_cases hm : j₁.codecOpen = intMax
      · simp only [Jni.step, init, incr, if_pos hm] at hs
        cases hs
      · rw [Jni.step, init_again hne₁ (by omega)] at hs
        cases hs
        refine ⟨_, init_again hne₂ (by omega), ⟨?_, .inr ⟨?_, ?_, ?_⟩⟩⟩
        · rw [hrest]; rfl
        all_goals simp only; omega
    | denoiseAndEnc lin offset size junk =>
      rw [Jni.step, hrest, denoiseAndEnc_setOpen hne₁ hne₂] at hs
      cases hd : j₂.denoiseAndEnc lin offset size junk with
      | error f => rw [hd] at hs; cases hs
      | ok p =>
        rw [hd] at hs
        cases hs
        have hc : p.2.codecOpen = j₂.codecOpen := denoiseAndEnc_codecOpen hne₂ hd
        exact ⟨p.2, hd, ⟨rfl, .inr ⟨by omega, by rw [hc]; exact hle, hmax⟩⟩⟩
    | close =>
      refine ⟨j', ?_, ⟨rfl, .inl rfl⟩⟩
      rw [Jni.step, close, if_neg hne₁, hrest] at hs
      rw [Jni.step, close, if_neg hne₂, ← hs]
      rfl

/-- Runs from states that agree give the same results. -/
theorem Agree.exec (h : j₁.Agree j₂) (he : j₁.exec ops = .ok (rs, j')) : ∃ k, j₂.exec ops = .ok (rs, k) ∧ j'.Agree k := by
  induction ops generalizing j₁ j₂ rs with
  | nil =>
    cases he
    exact ⟨j₂, rfl, h⟩
  | cons op ops ih =>
    obtain ⟨⟨r, j₃⟩, hs, he⟩ := Res.bind_ok.1 he
    obtain ⟨⟨rs', j₄⟩, he', he⟩ := Res.bind_ok.1 he
    cases he
    obtain ⟨k₁, hs₁, h₁⟩ := h.step hs
    obtain ⟨k₂, he₂, h₂⟩ := ih h₁ he'
    exact ⟨k₂, exec_cons hs₁ he₂, h₂⟩

/-! ## Whole runs -/

/-- In every run from the library as loaded: no call faults, so no released
handle is used; the guards and the handles agree; each handle is released once,
by the `close` that ends its session; and leaving out a rejected `init` changes
no result and nothing in the state but the guard counter. -/
theorem jni_coupling (os : Os) (h : Allowed ops) :
    (∃ rs j, (load w os).exec ops = .ok (rs, j) ∧ j.Coupled) ∧
    (∀ pre op post, ops = pre ++ op :: post →
      ∃ rs j r j', (load w os).exec pre = .ok (rs, j) ∧ j.step op = .ok (r, j') ∧
        HandleLife op j.heap j'.heap ∧ HandleLife op j.amr.heap j'.amr.heap) ∧
    (∀ pre size rate channel post rs j, ops = pre ++ .init size rate channel :: post →
      (load w os).exec pre = .ok (rs, j) → j.codecOpen ≠ 0 →
      ∃ rs' j₁ j₂, (load w os).exec ops = .ok (rs ++ ⟨some (-1), false⟩ :: rs', j₁) ∧
        (load w os).exec (pre ++ post) = .ok (rs ++ rs', j₂) ∧ j₁.Agree j₂) := by
  refine ⟨?_, ?_, ?_⟩
  · obtain ⟨rs, j, he, hr, -⟩ := exec_load os h
    exact ⟨rs, j, he, hr.coupled⟩
  · rintro pre op post rfl
    obtain ⟨rs, j, he, hr, hn⟩ := exec_load (w := w) os (h.of_prefix (List.prefix_append pre _))
    obtain ⟨hinits, hsizes⟩ := h.after
    obtain ⟨r, j', hs, -, -, hd, ha⟩ := hr.step (hsizes op (by simp)) (Op.max_of_count _ hn (hinits [op] ⟨post, rfl⟩))
    exact ⟨rs, j, r, j', he, hs, hd, ha⟩
  · rintro pre size rate channel post rs j rfl hpre hne
    obtain ⟨rs₀, j₀, he₀, hr, hn⟩ := exec_load (w := w) os (h.of_prefix (List.prefix_append pre _))
    rw [hpre] at he₀
    cases he₀
    obtain ⟨hinits, hsizes⟩ := h.after
    have hlt : initsSinceClose pre + 1 < 2 ^ 31 := hinits [.init size rate channel] ⟨post, rfl⟩
    have hinit : j.step (.init size rate channel) = .ok (⟨some (-1), false⟩, { j with codecOpen := j.codecOpen + 1 }) :=
      init_again hne (by simp only [intMax]; omega)
    obtain ⟨r', j', hs, hr', hn', -⟩ := hr.step (hsizes _ (by simp)) (Op.max_of_count (.init size rate channel) hn hlt)
    rw [hinit] at hs
    cases hs
    obtain ⟨rs', j₁, he₁, -⟩ := hr'.exec (hn' _ hn) (fun p hp => hinits (_ :: p) ((List.prefix_cons_inj _).2 hp))
      (fun op ho => hsizes op (by simp [ho]))
    have hag : Agree { j with codecOpen := j.codecOpen + 1 } j :=
      ⟨rfl, .inr ⟨by omega, by simp only; omega, by simp only [intMax]; omega⟩⟩
    obtain ⟨j₂, he₂, h₂⟩ := hag.exec he₁
    exact ⟨rs', j₁, j₂, exec_append hpre (exec_cons hinit he₁), exec_append hpre he₂, h₂⟩

/-- A session with a rejected second `init`. -/
theorem jni_coupling_session :
    ∃ rs j, (load (.plain fun _ => true) ⟨noFiles, 0, []⟩).exec
      [.init 160 8000 1, .init 80 8000 1, .denoiseAndEnc [] 0 0 fun _ => 0, .close] = .ok (rs, j) ∧ j.Coupled := by
  refine (jni_coupling (w := .plain fun _ => true) ⟨noFiles, 0, []⟩ ⟨fun p hp => ?_, ?_⟩).1
  · rw [← List.mem_inits] at hp
    simp only [List.inits, List.map_cons, List.map_nil, List.mem_cons, List.not_mem_nil, or_false] at hp
    rcases hp with rfl | rfl | rfl | rfl | rfl <;> simp [initsSinceClose, Op.count]
  · simp [Op.SizePos]

end Jni

end AudioRecorder.Native
