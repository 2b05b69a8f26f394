import AudioRecorder.Lib.Transducer
/-!
# A sender and a receiver in lockstep

A sender turns each item into a message and keeps a state; beside the message it
knows what the receiver ought to make of it. The receiver sees the messages alone
and keeps a state of its own. It tracks the sender if some relation of the two
states is kept by every step and gives the receiver's result. Then it is right on
every message of a run that begins in related states (`Tracks.outputs`).
-/

namespace AudioRecorder.Lockstep

open Transducer (final outputs)

variable {σ τ α μ β : Type}

/-- A condition on the items of a run, each taken in the state it meets. -/
def Along (f : σ → α → σ × β) (guard : σ → α → Prop) : σ → List α → Prop
  | _, [] => True
  | s, x :: xs => guard s x ∧ Along f guard (f s x).1 xs

theorem Along.of_forall {f : σ → α → σ × β} {guard : σ → α → Prop} (s : σ) {xs : List α} (h : ∀ s, ∀ x ∈ xs, guard s x) :
    Along f guard s xs := by
  induction xs generalizing s with
  | nil => trivial
  | cons x xs ih => exact ⟨h s x (by simp), ih _ fun t y hy => h t y (by simp [hy])⟩

/-- The receiver `g` tracks the sender `f` on the items the guard allows. -/
def Tracks (guard : σ → α → Prop) (R : σ → τ → Prop) (f : σ → α → σ × μ × β) (g : τ → μ → τ × β) : Prop :=
  ∀ s t x, guard s x → R s t → R (f s x).1 (g t (f s x).2.1).1 ∧ (g t (f s x).2.1).2 = (f s x).2.2

/-- A receiver that tracks is right on every message of the run. -/
theorem Tracks.outputs {guard : σ → α → Prop} {R : σ → τ → Prop} {f : σ → α → σ × μ × β} {g : τ → μ → τ × β}
    (h : Tracks guard R f g) {s : σ} {t : τ} (hR : R s t) {xs : List α} (hg : Along f guard s xs) :
    R (final f s xs) (final g t ((outputs f s xs).map Prod.fst)) ∧
      outputs g t ((outputs f s xs).map Prod.fst) = (outputs f s xs).map Prod.snd := by
  induction xs generalizing s t with
  | nil => exact ⟨hR, rfl⟩
  | cons x xs ih =>
    obtain ⟨hx, hxs⟩ := hg
    obtain ⟨hnext, hout⟩ := h s t x hx hR
    obtain ⟨hfinal, houts⟩ := ih hnext hxs
    refine ⟨hfinal, ?_⟩
    rw [Transducer.outputs, List.map_cons, List.map_cons, Transducer.outputs, hout, houts]

/-- An item that brings the states together, whatever they were, lets the receiver track
from there. -/
theorem Tracks.outputs_cons {guard : σ → α → Prop} {R : σ → τ → Prop} {f : σ → α → σ × μ × β} {g : τ → μ → τ × β}
    (h : Tracks guard R f g) {s : σ} {t : τ} {x : α} {xs : List α}
    (hR : R (f s x).1 (g t (f s x).2.1).1) (hout : (g t (f s x).2.1).2 = (f s x).2.2) (hg : Along f guard (f s x).1 xs) :
    Transducer.outputs g t ((Transducer.outputs f s (x :: xs)).map Prod.fst) =
      (Transducer.outputs f s (x :: xs)).map Prod.snd := by
  simp only [Transducer.outputs, List.map_cons]
  rw [hout, (h.outputs hR hg).2]

/-- Two stateful functions that agree in related states agree on every run. -/
theorem outputs_eq {f : σ → α → σ × β} {g : τ → α → τ × β} {R : σ → τ → Prop}
    (h : ∀ s t x, R s t → R (f s x).1 (g t x).1 ∧ (g t x).2 = (f s x).2) {s : σ} {t : τ} (hR : R s t) (xs : List α) :
    outputs g t xs = outputs f s xs := by
  induction xs generalizing s t with
  | nil => rfl
  | cons x xs ih =>
    obtain ⟨hnext, hout⟩ := h s t x hR
    rw [Transducer.outputs, Transducer.outputs, hout, ih hnext]

/-! ## Losses -/

/-- What came of an item: whether its message arrived, what the sender meant and what the receiver made of it. -/
structure Heard (β : Type) where
  received : Bool
  sent : β
  heard : β

/-- Sender and receiver over a channel with losses. For a lost message the receiver does what `conceal` does. -/
def lossy {ℓ : Type} (f : σ → α → σ × μ × β) (g : τ → μ → τ × β) (conceal : τ → ℓ → τ × β) (st : σ × τ) (x : α × Option ℓ) :
    (σ × τ) × Heard β :=
  let (s, m, b) := f st.1 x.1
  match x.2 with
  | none => ((s, (g st.2 m).1), ⟨true, b, (g st.2 m).2⟩)
  | some l => ((s, (conceal st.2 l).1), ⟨false, b, (conceal st.2 l).2⟩)

/-- Where each message received brings the states together, whatever the receiver's was, and a
receiver in the sender's state is right, it is right on every message whose predecessor arrived. -/
theorem heard_of_received {ℓ : Type} {f : σ → α → σ × μ × β} {g : τ → μ → τ × β} {conceal : τ → ℓ → τ × β} {I : σ → Prop}
    {R : σ → τ → Prop} (hI : ∀ s x, I s → I (f s x).1) (hsync : ∀ s t x, I s → R (f s x).1 (g t (f s x).2.1).1)
    (hout : ∀ s t x, I s → R s t → (g t (f s x).2.1).2 = (f s x).2.2) (xs : List (α × Option ℓ)) {s : σ} {t : τ} (hs : I s)
    {first : Heard β} (hR : first.received = true → R s t) :
    List.IsChain (fun a b => a.received = true → b.received = true → b.heard = b.sent)
      (first :: outputs (lossy f g conceal) (s, t) xs) := by
  induction xs generalizing s t first with
  | nil => exact .singleton _
  | cons x xs ih =>
    obtain ⟨x, _ | l⟩ := x
    · exact .cons_cons (fun ha _ => hout s t x hs (hR ha)) (ih (hI s x hs) fun _ => hsync s t x hs)
    · exact .cons_cons (fun _ hb => absurd hb Bool.false_ne_true) (ih (hI s x hs) fun hb => absurd hb Bool.false_ne_true)

end AudioRecorder.Lockstep
