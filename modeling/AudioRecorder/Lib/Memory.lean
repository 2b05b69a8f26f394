import Mathlib.Data.List.Basic
import Mathlib.Logic.Function.Basic
/-!
# C memory, as far as undefined behaviour needs it

A C execution is a value of `Res`: it ends in a result, or in the `Fault` that
makes it undefined. Heap objects of one type live in an `Arena`, where a handle
is handed out once and released at most once; every access through a handle
checks that it is live. A buffer is a list, and a range of it is read or written
only when the whole range exists.
-/

namespace AudioRecorder

/-- What makes a C execution undefined. -/
inductive Fault where
  | overflow
  | divByZero
  | outOfBounds
  | deadHandle
  | wrongType
  deriving DecidableEq, Repr

abbrev Res (α : Type) := Except Fault α

/-- The largest value of a 32-bit `int`. -/
def intMax : Int := 2147483647

/-- `n++` on an `int`: signed overflow is undefined. -/
def incr (n : Int) : Res Int := if n = intMax then .error .overflow else .ok (n + 1)

theorem incr_ok {n : Int} (h : n ≠ intMax) : incr n = .ok (n + 1) := by
  rw [incr, if_neg h]

/-- `a / b` on 32-bit `int`s. -/
def divInt (a b : Int) : Res Int :=
  if b = 0 then .error .divByZero
  else if a = -intMax - 1 ∧ b = -1 then .error .overflow
  else .ok (a.tdiv b)

theorem divInt_pos (a : Int) {b : Int} (h : 0 < b) : divInt a b = .ok (a.tdiv b) := by
  rw [divInt, if_neg (by omega), if_neg (by omega)]

@[simp] theorem Res.ok_bind {α β : Type} (a : α) (f : α → Res β) : ((Except.ok a : Res α) >>= f) = f a := rfl

@[simp] theorem Res.error_bind {α β : Type} (e : Fault) (f : α → Res β) :
    ((Except.error e : Res α) >>= f) = .error e := rfl

/-- A sequence ends in a result when both of its parts do. -/
theorem Res.bind_ok {α β : Type} {x : Res α} {f : α → Res β} {b : β} :
    x >>= f = .ok b ↔ ∃ a, x = .ok a ∧ f a = .ok b := by
  cases x with
  | error e => simp
  | ok a => simp

/-! ## Handles -/

/-- One handle's life: handed out at most once, released at most once. -/
inductive Slot (α : Type) where
  | unused
  | live (a : α)
  | freed

/-- Objects of one type, by handle. Handles below `next` have been handed out. -/
structure Arena (α : Type) where
  next : Nat
  slot : Nat → Slot α
  used : ∀ i, slot i = .unused ↔ next ≤ i

/-- A pointer: `none` is `NULL`. -/
abbrev Ptr := Option Nat

namespace Arena
variable {α : Type} (h : Arena α)

def empty : Arena α := ⟨0, fun _ => .unused, by simp⟩

/-- Hand out the next handle, holding `a`. -/
def alloc (a : α) : Arena α where
  next := h.next + 1
  slot := Function.update h.slot h.next (.live a)
  used i := by
    by_cases hi : i = h.next
    · subst hi; simp
    · simp only [Function.update_of_ne hi, h.used]; omega

/-- Overwrite the slot of a handle already handed out. -/
def replace (i : Nat) (s : Slot α) (hi : h.slot i ≠ .unused) (hs : s ≠ .unused) : Arena α where
  next := h.next
  slot := Function.update h.slot i s
  used j := by
    by_cases hj : j = i
    · subst hj
      simp only [Function.update_self, hs, false_iff]
      exact fun hle => hi ((h.used j).2 hle)
    · simp only [Function.update_of_ne hj, h.used]

/-- Read the object behind a pointer. -/
def get : Ptr → Res α
  | none => .error .deadHandle
  | some i => match h.slot i with
    | .live a => .ok a
    | _ => .error .deadHandle

/-- Overwrite the slot of a live pointer. -/
def setSlot (s : Slot α) (hs : s ≠ .unused) : Ptr → Res (Arena α)
  | none => .error .deadHandle
  | some i => match hi : h.slot i with
    | .live _ => .ok (h.replace i s (by simp [hi]) hs)
    | _ => .error .deadHandle

/-- Overwrite the object behind a pointer. -/
def put (a : α) (p : Ptr) : Res (Arena α) := h.setSlot (.live a) (by simp) p

/-- Release the object behind a pointer. -/
def free (p : Ptr) : Res (Arena α) := h.setSlot .freed (by simp) p

/-- `p` points at a live object `a`. -/
def Live (p : Ptr) (a : α) : Prop := ∃ i, p = some i ∧ h.slot i = .live a

/-- No handle is live: every handle ever handed out has been released. -/
def AllFreed : Prop := ∀ i < h.next, h.slot i = .freed

/-- The object behind `p` is the only live one. -/
def Only (p : Ptr) (a : α) : Prop := h.Live p a ∧ ∀ i < h.next, p ≠ some i → h.slot i = .freed

theorem empty_allFreed : (empty : Arena α).AllFreed := by
  intro i hi; simp [empty] at hi

variable {h} {p : Ptr} {a b : α}

/-- A slot in use belongs to a handle already handed out. -/
theorem lt_of_used {i : Nat} (hs : h.slot i ≠ .unused) : i < h.next := by
  by_contra hn
  exact hs ((h.used i).2 (by omega))

theorem Live.lt {i : Nat} (hl : h.Live (some i) a) : i < h.next := by
  obtain ⟨j, hj, hs⟩ := hl
  cases hj
  exact lt_of_used (by simp [hs])

theorem Live.inj (ha : h.Live p a) (hb : h.Live p b) : a = b := by
  obtain ⟨i, rfl, hi⟩ := ha
  obtain ⟨j, hj, hj'⟩ := hb
  cases hj
  rw [hi] at hj'
  exact Slot.live.inj hj'

theorem Live.get (hl : h.Live p a) : h.get p = .ok a := by
  obtain ⟨i, rfl, hi⟩ := hl
  simp [Arena.get, hi]

theorem get_ok (hg : h.get p = .ok a) : h.Live p a := by
  unfold Arena.get at hg
  split at hg
  · cases hg
  · rename_i i
    split at hg
    · rename_i b hs
      cases hg
      exact ⟨i, rfl, hs⟩
    · cases hg

/-- A live pointer's slot is set, and no other slot changes. -/
theorem Live.setSlot (hl : h.Live p a) (s : Slot α) (hs : s ≠ .unused) :
    ∃ h', h.setSlot s hs p = .ok h' ∧ h'.next = h.next ∧ (∀ i, p = some i → h'.slot i = s) ∧
      ∀ i, p ≠ some i → h'.slot i = h.slot i := by
  obtain ⟨i, rfl, hi⟩ := hl
  refine ⟨h.replace i s (by simp [hi]) hs, ?_, rfl, fun j hj => by cases hj; simp [replace], fun j hj => ?_⟩
  · simp only [Arena.setSlot]
    split
    · rfl
    · rename_i hn; exact absurd hi (hn a)
  · simp only [replace, Function.update_of_ne (show j ≠ i from fun e => hj (by rw [e]))]

theorem Live.alloc (hl : h.Live p a) : (h.alloc b).Live p a := by
  obtain ⟨i, rfl, hi⟩ := hl
  refine ⟨i, rfl, ?_⟩
  have hlt := Live.lt ⟨i, rfl, hi⟩
  simp [Arena.alloc, Function.update_of_ne (show i ≠ h.next by omega), hi]

/-- Every other object survives a write. -/
theorem Live.put (hl : h.Live p a) (b : α) :
    ∃ h', h.put b p = .ok h' ∧ h'.Live p b ∧ h'.next = h.next ∧ ∀ q c, q ≠ p → h.Live q c → h'.Live q c := by
  obtain ⟨h', hp, hn, hs, hs'⟩ := hl.setSlot (.live b) (by simp)
  obtain ⟨i, rfl, -⟩ := hl
  refine ⟨h', hp, ⟨i, rfl, hs i rfl⟩, hn, ?_⟩
  rintro q c hq ⟨j, rfl, hj⟩
  exact ⟨j, rfl, (hs' j hq.symm).trans hj⟩

theorem alloc_live : (h.alloc a).Live (some h.next) a := ⟨h.next, rfl, by simp [Arena.alloc]⟩

theorem AllFreed.alloc (hf : h.AllFreed) : (h.alloc a).Only (some h.next) a := by
  refine ⟨alloc_live, ?_⟩
  intro i hi hp
  have hne : i ≠ h.next := fun e => hp (by rw [e])
  simp only [Arena.alloc] at hi ⊢
  rw [Function.update_of_ne hne]
  exact hf i (by omega)

theorem Only.put (ho : h.Only p a) (b : α) : ∃ h', h.put b p = .ok h' ∧ h'.Only p b ∧ h'.next = h.next := by
  obtain ⟨h', hp, hn, hs, hs'⟩ := ho.1.setSlot (.live b) (by simp)
  obtain ⟨i, rfl, -⟩ := ho.1
  refine ⟨h', hp, ⟨⟨i, rfl, hs i rfl⟩, ?_⟩, hn⟩
  intro j hj hpj
  rw [hs' j hpj]
  exact ho.2 j (hn ▸ hj) hpj

theorem Only.free (ho : h.Only p a) : ∃ h', h.free p = .ok h' ∧ h'.AllFreed ∧ h'.next = h.next := by
  obtain ⟨h', hp, hn, hs, hs'⟩ := ho.1.setSlot .freed (by simp)
  refine ⟨h', hp, ?_, hn⟩
  intro i hi
  by_cases hpi : p = some i
  · exact hs i hpi
  · rw [hs' i hpi]; exact ho.2 i (hn ▸ hi) hpi

/-- Only live pointers are released without a fault. -/
theorem free_ok {h' : Arena α} (hf : h.free p = .ok h') : ∃ a, h.Live p a := by
  unfold Arena.free Arena.setSlot at hf
  split at hf
  · cases hf
  · rename_i i
    split at hf
    · rename_i a hs; exact ⟨a, i, rfl, hs⟩
    · cases hf

theorem free_error {f : Fault} (hf : h.free p = .error f) : f = .deadHandle := by
  unfold Arena.free Arena.setSlot at hf
  split at hf
  · cases hf; rfl
  · split at hf
    · cases hf
    · cases hf; rfl

theorem AllFreed.not_live (hf : h.AllFreed) : ¬ h.Live p a := by
  rintro ⟨i, rfl, hi⟩
  rw [hf i (Live.lt ⟨i, rfl, hi⟩)] at hi
  cases hi

end Arena

/-! ## Buffers -/

namespace Buffer
variable {α : Type}

/-- The `len` elements from `off` on. -/
def read (buf : List α) (off len : Int) : Res (List α) :=
  if 0 ≤ off ∧ 0 ≤ len ∧ off + len ≤ buf.length then .ok ((buf.drop off.toNat).take len.toNat)
  else .error .outOfBounds

/-- Overwrite the elements from `off` on by `xs`. -/
def write (buf : List α) (off : Int) (xs : List α) : Res (List α) :=
  if 0 ≤ off ∧ off + xs.length ≤ buf.length then
    .ok (buf.take off.toNat ++ xs ++ buf.drop (off.toNat + xs.length))
  else .error .outOfBounds

theorem read_ok {buf : List α} {off len : Nat} (h : off + len ≤ buf.length) :
    read buf off len = .ok ((buf.drop off).take len) := by
  rw [read, if_pos ⟨by omega, by omega, by omega⟩]; simp

theorem write_ok {buf xs : List α} {off : Nat} (h : off + xs.length ≤ buf.length) :
    ∃ buf', write buf off xs = .ok buf' ∧ buf'.length = buf.length ∧
      (buf'.drop off).take xs.length = xs ∧ buf'.drop (off + xs.length) = buf.drop (off + xs.length) := by
  have htake : (buf.take off).length = off := by simp; omega
  refine ⟨buf.take off ++ xs ++ buf.drop (off + xs.length), ?_, ?_, ?_, ?_⟩
  · rw [write, if_pos ⟨by omega, by omega⟩]; simp
  · simp; omega
  · rw [List.append_assoc, List.drop_append_of_le_length (by omega),
      List.drop_of_length_le (by omega), List.nil_append, List.take_left']
    rfl
  · have hl : (buf.take off ++ xs).length = off + xs.length := by simp; omega
    exact List.drop_left' hl

end Buffer

end AudioRecorder
