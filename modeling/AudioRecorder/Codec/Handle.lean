import AudioRecorder.Codec.RoundTrip
import AudioRecorder.Lib.Memory
/-!
# The encoder behind its handle

`encoder_state` holds two `void *`, one to a `Speech_Encode_FrameState`, which
points at the filter and at the speech encoder, and one to a `sid_syncState`: five
objects allocated apart. The functions of `wrapper.cpp` are followed here pointer
by pointer. Initialising and encoding through the handle are the flat encoder's, and
so is `AMREncodeReset` on what the two `void *` point at. `Encoder_Interface_reset`
passes their own addresses instead (`reset_restores_never`).
-/

namespace AudioRecorder.Codec

/-! ## Objects and pointers -/

/-- Member number `idx` of an object; member 0 is where the object starts. -/
structure Place where
  obj : Nat
  idx : Nat
  deriving DecidableEq, Repr

/-- `void *`. -/
abbrev VoidPtr := Option Place

/-- The start of an object. -/
abbrev VoidPtr.start (i : Nat) : VoidPtr := some ⟨i, 0⟩

/-- The structures behind a handle. -/
inductive Obj (core : SpeechCore) where
  | encoderState (encCtx pidSyncCtx : VoidPtr)
  | speechEncodeFrameState (preState codAmrState : VoidPtr) (dtx : Int)
  | preProcessState (st : core.Pre)
  | codAmrState (st : CodAmrState core)
  | sidSyncState (st : SidSyncState)

abbrev Heap (core : SpeechCore) := Arena (Obj core)

variable {core : SpeechCore} {α : Type}

/-- The pointers an object starts with, in the order of its members. -/
def Obj.pointers : Obj core → List VoidPtr
  | .encoderState encCtx pidSyncCtx => [encCtx, pidSyncCtx]
  | .speechEncodeFrameState pre cod _ => [pre, cod]
  | _ => []

/-- The object with another pointer in a member. -/
def Obj.setPointer (v : VoidPtr) : Nat → Obj core → Option (Obj core)
  | 0, .encoderState _ p => some (.encoderState v p)
  | 1, .encoderState e _ => some (.encoderState e v)
  | 0, .speechEncodeFrameState _ c d => some (.speechEncodeFrameState v c d)
  | 1, .speechEncodeFrameState p _ d => some (.speechEncodeFrameState p v d)
  | _, _ => none

/-- What a `Pre_ProcessState *` can be used for. -/
def Obj.asPre (f : core.Pre → core.Pre × α) : Obj core → Option (α × Obj core)
  | .preProcessState st => some ((f st).2, .preProcessState (f st).1)
  | _ => none

/-- What a `cod_amrState *` can be used for. -/
def Obj.asCod (f : CodAmrState core → CodAmrState core × α) : Obj core → Option (α × Obj core)
  | .codAmrState st => some ((f st).2, .codAmrState (f st).1)
  | _ => none

/-- What a `sid_syncState *` can be used for. -/
def Obj.asSid (f : SidSyncState → SidSyncState × α) : Obj core → Option (α × Obj core)
  | .sidSyncState st => some ((f st).2, .sidSyncState (f st).1)
  | _ => none

namespace Heap

/-- Read member `i` of the structure at `p` as a pointer: whatever the object's
type, the members are found by their place. -/
def loadPtr (p : VoidPtr) (i : Nat) (h : Heap core) : Res VoidPtr :=
  match p with
  | none => .error .deadHandle
  | some m => do
    let o ← h.get (some m.obj)
    match o.pointers[m.idx + i]? with
    | some v => .ok v
    | none => .error .wrongType

/-- Work on the object at `p` through a pointer of the type that `f` is defined on. -/
def access (f : Obj core → Option (α × Obj core)) (p : VoidPtr) (h : Heap core) : Res (α × Heap core) :=
  match p with
  | none => .error .deadHandle
  | some m => do
    let o ← h.get (some m.obj)
    match (if m.idx = 0 then f o else none) with
    | some (a, o) => do return (a, ← h.put o (some m.obj))
    | none => .error .wrongType

/-- `*p = v` for a pointer to a pointer. -/
def storePtr (p : VoidPtr) (v : VoidPtr) (h : Heap core) : Res (Heap core) :=
  match p with
  | none => .error .deadHandle
  | some m => do
    match (← h.get (some m.obj)).setPointer v m.idx with
    | some o => h.put o (some m.obj)
    | none => .error .wrongType

/-- Allocate an object and store its address at `p`. -/
def create (p : VoidPtr) (o : Obj core) (h : Heap core) : Res (Heap core) := do
  let h ← storePtr p none h
  storePtr p (VoidPtr.start h.next) (h.alloc o)

/-! ## Reset -/

/-- `Pre_Process_reset`. -/
def preProcessReset (state : VoidPtr) (h : Heap core) : Res (Int × Heap core) :=
  if state = none then return (-1, h)
  else access (Obj.asPre fun _ => (core.preReset, 0)) state h

/-- `cod_amr_reset`. -/
def codAmrReset (state : VoidPtr) (h : Heap core) : Res (Int × Heap core) :=
  if state = none then return (-1, h)
  else access (Obj.asCod fun st => (Codec.codAmrReset st, 0)) state h

/-- `sid_sync_reset`. -/
def sidSyncReset (state : VoidPtr) (h : Heap core) : Res (Int × Heap core) :=
  access (Obj.asSid fun st => (Codec.sidSyncReset st, 0)) state h

/-- `Speech_Encode_Frame_reset`: the results of the two stages are dropped. -/
def speechEncodeFrameReset (stateData : VoidPtr) (h : Heap core) : Res (Int × Heap core) :=
  if stateData = none then return (-1, h)
  else do
    let (_, h) ← preProcessReset (← loadPtr stateData 0 h) h
    let (_, h) ← codAmrReset (← loadPtr stateData 1 h) h
    return (0, h)

/-- `AMREncodeReset`. -/
def amrEncodeReset (pEncStructure pSidSyncStructure : VoidPtr) (h : Heap core) : Res (Int × Heap core) := do
  let (encResetStatus, h) ← speechEncodeFrameReset pEncStructure h
  let (sidSyncResetStatus, h) ← sidSyncReset pSidSyncStructure h
  return (if encResetStatus ≠ 0 ∨ sidSyncResetStatus ≠ 0 then -1 else 0, h)

/-- `Encoder_Interface_reset`: `AMREncodeReset(&state->encCtx, &state->pidSyncCtx)`. -/
def encoderInterfaceReset (s : Nat) (h : Heap core) : Res (Heap core) := do
  let (_, h) ← amrEncodeReset (some ⟨s, 0⟩) (some ⟨s, 1⟩) h
  return h

/-! ## Initialisation -/

/-- `GSMInitEncode`. `Pre_Process_init` and `cod_amr_init` leave a state already reset. -/
def gsmInitEncode (stateData : VoidPtr) (dtx : Int) (h : Heap core) : Res (Heap core) := do
  let h ← storePtr stateData none h
  let s := h.next
  let h := h.alloc (.speechEncodeFrameState none none dtx)
  let h ← create (some ⟨s, 0⟩) (.preProcessState core.preReset) h
  let h ← create (some ⟨s, 1⟩) (.codAmrState (codAmrInit core dtx)) h
  let (_, h) ← speechEncodeFrameReset (VoidPtr.start s) h
  storePtr stateData (VoidPtr.start s) h

/-- `AMREncodeInit`. -/
def amrEncodeInit (pEncStructure pSidSyncStructure : VoidPtr) (dtx : Int) (h : Heap core) : Res (Heap core) := do
  let h ← gsmInitEncode pEncStructure dtx h
  create pSidSyncStructure (.sidSyncState sidSyncInit) h

/-- `Encoder_Interface_init`: the handle, and the heap. -/
def encoderInterfaceInit (dtx : Int) (h : Heap core) : Res (Nat × Heap core) := do
  let state := h.next
  let h ← amrEncodeInit (some ⟨state, 0⟩) (some ⟨state, 1⟩) dtx (h.alloc (.encoderState none none))
  return (state, h)

/-! ## Encoding -/

/-- `GSMEncodeFrame`: the serial bits, the mode used and the filtered input. -/
def gsmEncodeFrame (stateData : VoidPtr) (mode : Mode) (newSpeech : List Word16) (serial : Nat → Word16)
    (h : Heap core) : Res (((Nat → Word16) × Mode × List Word16) × Heap core) := do
  let serial := fun i => if i < maxSerialSize then 0 else serial i
  let newSpeech := newSpeech.map fun x => x &&& 0xfff8
  let (newSpeech, h) ← access (Obj.asPre fun st => core.preProcess st newSpeech) (← loadPtr stateData 0 h) h
  let ((prm, usedMode), h) ← access (Obj.asCod fun st => codAmr st mode newSpeech) (← loadPtr stateData 1 h) h
  return ((prm2bits usedMode prm serial, usedMode, newSpeech), h)

/-- `Encoder_Interface_Encode`: the bytes returned and what is left in the input buffer. -/
def encoderInterfaceEncode (s : Nat) (r : Request) (h : Heap core) :
    Res ((List UWord8 × List Word16) × Heap core) := do
  let encCtx ← loadPtr (VoidPtr.start s) 0 h
  let pidSyncCtx ← loadPtr (VoidPtr.start s) 1 h
  let ((serial, usedMode, input), h) ← gsmEncodeFrame encCtx r.mode r.input r.bfr h
  let (txFrameType, h) ← access (Obj.asSid fun st => sidSync st usedMode) pidSyncCtx h
  let ft := p3gppFrameType txFrameType usedMode
  let out := etsToIetf ft (sentSerial txFrameType r.mode ft serial) r.out
  let out := Function.update out 0 (out 0 ||| 0x04)
  return (((List.range (wmfEncBytesPerFrame ft)).map out, input), h)

/-- A sequence of calls, and what each returned. -/
def encodes (s : Nat) : List Request → Heap core → Res (List (List UWord8 × List Word16) × Heap core)
  | [], h => return ([], h)
  | r :: rs, h => do
    let (b, h) ← encoderInterfaceEncode s r h
    let (bs, h) ← encodes s rs h
    return (b :: bs, h)

/-! ## One access -/

/-- From `h` to `h'` object `i` becomes `o`, and every other live object is kept. -/
structure Sets (h h' : Heap core) (i : Nat) (o : Obj core) : Prop where
  live : h'.Live (some i) o
  next : h'.next = h.next
  other : ∀ j o', j ≠ i → h.Live (some j) o' → h'.Live (some j) o'

variable {h h' : Heap core} {i : Nat} {o o' : Obj core} {a : α}

theorem loadPtr_live (hl : h.Live (some i) o) {idx k : Nat} {v : VoidPtr} (hv : o.pointers[idx + k]? = some v) :
    loadPtr (some ⟨i, idx⟩) k h = .ok v := by
  simp only [loadPtr, hl.get, Res.ok_bind, hv]

theorem put_live (hl : h.Live (some i) o) (o' : Obj core) : ∃ h', h.put o' (some i) = .ok h' ∧ Sets h h' i o' := by
  obtain ⟨h', hp, hlive, hnext, hother⟩ := hl.put o'
  exact ⟨h', hp, hlive, hnext, fun j c hj => hother (some j) c (by simpa using hj)⟩

theorem access_live {f : Obj core → Option (α × Obj core)} (hl : h.Live (some i) o) (hf : f o = some (a, o')) :
    ∃ h', access f (VoidPtr.start i) h = .ok (a, h') ∧ Sets h h' i o' := by
  obtain ⟨h', hp, hs⟩ := put_live hl o'
  exact ⟨h', by simp only [access, hl.get, Res.ok_bind, if_true, hf, hp]; rfl, hs⟩

/-- An object is not worked on through a pointer of another type. -/
theorem access_wrongType {f : Obj core → Option (α × Obj core)} (hl : h.Live (some i) o) (hf : f o = none) :
    access f (VoidPtr.start i) h = .error .wrongType := by
  simp only [access, hl.get, Res.ok_bind, if_true, hf]

theorem storePtr_live (hl : h.Live (some i) o) {k : Nat} {v : VoidPtr} (hv : o.setPointer v k = some o') :
    ∃ h', storePtr (some ⟨i, k⟩) v h = .ok h' ∧ Sets h h' i o' := by
  obtain ⟨h', hp, hs⟩ := put_live hl o'
  exact ⟨h', by simp only [storePtr, hl.get, Res.ok_bind, hv, hp], hs⟩

/-- An object is allocated and its address stored in a member of object `i`. -/
theorem create_live (hl : h.Live (some i) o) {k : Nat} {o₁ o₂ n : Obj core} (hnull : o.setPointer none k = some o₁)
    (hset : o₁.setPointer (VoidPtr.start h.next) k = some o₂) :
    ∃ h', create (some ⟨i, k⟩) n h = .ok h' ∧ h'.Live (some i) o₂ ∧ h'.Live (some h.next) n ∧ h'.next = h.next + 1 ∧
      ∀ j o', j ≠ i → h.Live (some j) o' → h'.Live (some j) o' := by
  obtain ⟨h₁, hst₁, S₁⟩ := storePtr_live hl hnull
  obtain ⟨h₂, hst₂, S₂⟩ := storePtr_live (S₁.live.alloc (b := n)) (v := VoidPtr.start h₁.next) (by rw [S₁.next]; exact hset)
  have hne : h.next ≠ i := by have := hl.lt; omega
  refine ⟨h₂, ?_, S₂.live, S₂.other _ _ hne ?_, ?_, fun j o' hj hl' => S₂.other j o' hj (S₁.other j o' hj hl').alloc⟩
  · rw [create, hst₁, Res.ok_bind, hst₂]
  · rw [← S₁.next]; exact Arena.alloc_live
  · rw [S₂.next, ← S₁.next]; rfl

/-- Different objects are in different places. -/
theorem place_ne {j : Nat} (hi : h.Live (some i) o) (hj : h.Live (some j) o') (hne : o ≠ o') : i ≠ j := by
  rintro rfl
  exact hne (hi.inj hj)

/-! ## Handles -/

/-- Where the objects behind a handle are. -/
structure Parts where
  frame : Nat
  pre : Nat
  cod : Nat
  sid : Nat

/-- The objects of handle `s` are at `a` and hold the state `st`. -/
structure Layout (h : Heap core) (s : Nat) (a : Parts) (st : EncState core) : Prop where
  state : h.Live (some s) (.encoderState (VoidPtr.start a.frame) (VoidPtr.start a.sid))
  frame : h.Live (some a.frame) (.speechEncodeFrameState (VoidPtr.start a.pre) (VoidPtr.start a.cod) st.cod.dtx)
  pre : h.Live (some a.pre) (.preProcessState st.pre)
  cod : h.Live (some a.cod) (.codAmrState st.cod)
  sid : h.Live (some a.sid) (.sidSyncState st.sid)

/-- The handle `s` is valid and holds the state `st`. -/
def Handle (h : Heap core) (s : Nat) (st : EncState core) : Prop := ∃ a, Layout h s a st

variable {s : Nat} {parts : Parts} {st : EncState core}

namespace Layout

/-- Work on the filter's state leaves the rest of the handle. -/
theorem onPre (L : Layout h s parts st) (f : core.Pre → core.Pre × α) :
    ∃ h', access (Obj.asPre f) (VoidPtr.start parts.pre) h = .ok ((f st.pre).2, h') ∧
      Layout h' s parts { st with pre := (f st.pre).1 } := by
  obtain ⟨h', ha, S⟩ := access_live (f := Obj.asPre f) L.pre rfl
  exact ⟨h', ha, S.other _ _ (place_ne L.state L.pre (by simp)) L.state,
    S.other _ _ (place_ne L.frame L.pre (by simp)) L.frame, S.live,
    S.other _ _ (place_ne L.cod L.pre (by simp)) L.cod, S.other _ _ (place_ne L.sid L.pre (by simp)) L.sid⟩

/-- Work on the speech encoder's state that keeps `dtx` leaves the rest of the handle. -/
theorem onCod (L : Layout h s parts st) (f : CodAmrState core → CodAmrState core × α)
    (hdtx : (f st.cod).1.dtx = st.cod.dtx) :
    ∃ h', access (Obj.asCod f) (VoidPtr.start parts.cod) h = .ok ((f st.cod).2, h') ∧
      Layout h' s parts { st with cod := (f st.cod).1 } := by
  obtain ⟨h', ha, S⟩ := access_live (f := Obj.asCod f) L.cod rfl
  have hframe := S.other _ _ (place_ne L.frame L.cod (by simp)) L.frame
  exact ⟨h', ha, S.other _ _ (place_ne L.state L.cod (by simp)) L.state, by rw [← hdtx] at hframe; exact hframe,
    S.other _ _ (place_ne L.pre L.cod (by simp)) L.pre, S.live, S.other _ _ (place_ne L.sid L.cod (by simp)) L.sid⟩

/-- Work on the SID state leaves the rest of the handle. -/
theorem onSid (L : Layout h s parts st) (f : SidSyncState → SidSyncState × α) :
    ∃ h', access (Obj.asSid f) (VoidPtr.start parts.sid) h = .ok ((f st.sid).2, h') ∧
      Layout h' s parts { st with sid := (f st.sid).1 } := by
  obtain ⟨h', ha, S⟩ := access_live (f := Obj.asSid f) L.sid rfl
  exact ⟨h', ha, S.other _ _ (place_ne L.state L.sid (by simp)) L.state,
    S.other _ _ (place_ne L.frame L.sid (by simp)) L.frame, S.other _ _ (place_ne L.pre L.sid (by simp)) L.pre,
    S.other _ _ (place_ne L.cod L.sid (by simp)) L.cod, S.live⟩

theorem preState (L : Layout h s parts st) :
    loadPtr (VoidPtr.start parts.frame) 0 h = .ok (VoidPtr.start parts.pre) := loadPtr_live L.frame rfl

theorem codState (L : Layout h s parts st) :
    loadPtr (VoidPtr.start parts.frame) 1 h = .ok (VoidPtr.start parts.cod) := loadPtr_live L.frame rfl

end Layout

/-! ## Encoding through the handle -/

/-- Encoding through the handle is the flat encoder. -/
theorem encoderInterfaceEncode_handle (H : Handle h s st) (r : Request) :
    let e := Codec.encoderInterfaceEncode st r.mode r.input r.out r.bfr
    ∃ h', encoderInterfaceEncode s r h = .ok ((e.block, e.input), h') ∧ Handle h' s e.st := by
  intro e
  obtain ⟨parts, L⟩ := H
  let frame := Codec.gsmEncodeFrame st.pre st.cod r.mode r.input r.bfr
  obtain ⟨h₁, hpre, L₁⟩ := L.onPre fun st => core.preProcess st (r.input.map fun x => x &&& 0xfff8)
  obtain ⟨h₂, hcod, L₂⟩ := L₁.onCod (fun st => codAmr st r.mode frame.newSpeech) (codAmr_dtx ..)
  obtain ⟨h₃, hsid, L₃⟩ := L₂.onSid fun st => sidSync st frame.usedMode
  have hframe : gsmEncodeFrame (VoidPtr.start parts.frame) r.mode r.input r.bfr h =
      .ok ((frame.serial, frame.usedMode, frame.newSpeech), h₂) := by
    rw [gsmEncodeFrame, L.preState, Res.ok_bind, hpre, Res.ok_bind]
    dsimp only
    rw [L₁.codState, Res.ok_bind]
    exact congrArg (· >>= _) hcod
  refine ⟨h₃, ?_, parts, L₃⟩
  rw [encoderInterfaceEncode, loadPtr_live L.state (v := VoidPtr.start parts.frame) rfl, Res.ok_bind,
    loadPtr_live L.state (v := VoidPtr.start parts.sid) rfl, Res.ok_bind, hframe, Res.ok_bind]
  dsimp only
  rw [hsid]
  rfl

/-- The state after a sequence of calls. -/
def after (st : EncState core) (rs : List Request) : EncState core :=
  rs.foldl (fun st r => (Codec.encoderInterfaceEncode st r.mode r.input r.out r.bfr).st) st

/-- A sequence of calls through the handle is the flat encoder's. -/
theorem encodes_handle (H : Handle h s st) (rs : List Request) :
    ∃ h', encodes s rs h = .ok ((encCalls st rs).map fun c => (c.result.block, c.result.input), h') ∧
      Handle h' s (after st rs) := by
  induction rs generalizing h st with
  | nil => exact ⟨h, rfl, H⟩
  | cons r rs ih =>
    obtain ⟨h₁, he, H₁⟩ := encoderInterfaceEncode_handle H r
    obtain ⟨h₂, hes, H₂⟩ := ih H₁
    exact ⟨h₂, by rw [encodes, he, Res.ok_bind]; dsimp only; rw [hes]; rfl, H₂⟩

/-! ## Reset, where it should point and where it does -/

/-- What resetting every object of a handle does to its state. -/
def reset (st : EncState core) : EncState core :=
  ⟨core.preReset, Codec.codAmrReset st.cod, Codec.sidSyncReset st.sid⟩

theorem speechEncodeFrameReset_live {f p c : Nat} {dtx : Int} {pre : core.Pre} {cod : CodAmrState core}
    (hf : h.Live (some f) (.speechEncodeFrameState (VoidPtr.start p) (VoidPtr.start c) dtx))
    (hp : h.Live (some p) (.preProcessState pre)) (hc : h.Live (some c) (.codAmrState cod)) :
    ∃ h', speechEncodeFrameReset (VoidPtr.start f) h = .ok (0, h') ∧ h'.Live (some p) (.preProcessState core.preReset) ∧
      h'.Live (some c) (.codAmrState (Codec.codAmrReset cod)) ∧
      ∀ j o, j ≠ p → j ≠ c → h.Live (some j) o → h'.Live (some j) o := by
  obtain ⟨h₁, hpre, S₁⟩ := access_live (f := Obj.asPre fun _ => (core.preReset, (0 : Int))) hp rfl
  have hf₁ := S₁.other f _ (place_ne hf hp (by simp)) hf
  have hc₁ := S₁.other c _ (place_ne hc hp (by simp)) hc
  obtain ⟨h₂, hcod, S₂⟩ := access_live (f := Obj.asCod fun st => (Codec.codAmrReset st, (0 : Int))) hc₁ rfl
  refine ⟨h₂, ?_, S₂.other p _ (place_ne hp hc (by simp)) S₁.live, S₂.live,
    fun j o hjp hjc hl => S₂.other j o hjc (S₁.other j o hjp hl)⟩
  rw [speechEncodeFrameReset, if_neg (by simp), loadPtr_live hf (v := VoidPtr.start p) rfl, Res.ok_bind, preProcessReset,
    if_neg (by simp), hpre, Res.ok_bind]
  dsimp only
  rw [loadPtr_live hf₁ (v := VoidPtr.start c) rfl, Res.ok_bind, codAmrReset, if_neg (by simp), hcod]
  rfl

/-- `Encoder_Interface_init` makes a handle in the initial state. -/
theorem encoderInterfaceInit_handle (dtx : Int) (h : Heap core) :
    ∃ s h', encoderInterfaceInit dtx h = .ok (s, h') ∧ Handle h' s (EncState.init core dtx) := by
  -- `*state_data = NULL`, and the frame state
  obtain ⟨h₁, hst₁, S₁⟩ := storePtr_live (h := h.alloc (.encoderState none none)) (k := 0) (v := none) Arena.alloc_live rfl
  have hs₂ := S₁.live.alloc (b := .speechEncodeFrameState none none dtx)
  -- `Pre_Process_init` and `cod_amr_init`
  obtain ⟨h₃, hst₃, hf₃, hp₃, hn₃, other₃⟩ := create_live (h := h₁.alloc (.speechEncodeFrameState none none dtx)) (k := 0)
    (n := .preProcessState core.preReset) Arena.alloc_live rfl rfl
  have hs₃ := other₃ _ _ (place_ne hs₂ Arena.alloc_live (by simp)) hs₂
  obtain ⟨h₄, hst₄, hf₄, hc₄, hn₄, other₄⟩ := create_live (k := 1) (n := .codAmrState (codAmrInit core dtx)) hf₃ rfl rfl
  have hs₄ := other₄ _ _ (place_ne hs₃ hf₃ (by simp)) hs₃
  have hp₄ := other₄ _ _ (place_ne hp₃ hf₃ (by simp)) hp₃
  -- `Speech_Encode_Frame_reset(s)`, then `*state_data = s`
  obtain ⟨h₅, hst₅, hp₅, hc₅, other₅⟩ := speechEncodeFrameReset_live hf₄ hp₄ hc₄
  have hs₅ := other₅ _ _ (place_ne hs₄ hp₄ (by simp)) (place_ne hs₄ hc₄ (by simp)) hs₄
  have hf₅ := other₅ _ _ (place_ne hf₄ hp₄ (by simp)) (place_ne hf₄ hc₄ (by simp)) hf₄
  obtain ⟨h₆, hst₆, S₆⟩ := storePtr_live hs₅ (k := 0) (v := VoidPtr.start h₁.next) rfl
  have hf₆ := S₆.other _ _ (place_ne hf₅ hs₅ (by simp)) hf₅
  have hp₆ := S₆.other _ _ (place_ne hp₅ hs₅ (by simp)) hp₅
  have hc₆ := S₆.other _ _ (place_ne hc₅ hs₅ (by simp)) hc₅
  -- `sid_sync_init`
  obtain ⟨h₇, hst₇, hs₇, hy₇, -, other₇⟩ := create_live (k := 1) (n := .sidSyncState sidSyncInit) S₆.live rfl rfl
  refine ⟨h.next, h₇, ?_, ⟨h₁.next, _, _, _⟩, hs₇, other₇ _ _ (place_ne hf₆ S₆.live (by simp)) hf₆,
    other₇ _ _ (place_ne hp₆ S₆.live (by simp)) hp₆, other₇ _ _ (place_ne hc₆ S₆.live (by simp)) hc₆, hy₇⟩
  have hgsm : gsmInitEncode (some ⟨h.next, 0⟩) dtx (h.alloc (.encoderState none none)) = .ok h₆ := by
    rw [gsmInitEncode, hst₁, Res.ok_bind]
    dsimp only
    rw [hst₃, Res.ok_bind, hst₄, Res.ok_bind, hst₅, Res.ok_bind]
    exact hst₆
  rw [encoderInterfaceInit, amrEncodeInit, hgsm, Res.ok_bind, hst₇]
  rfl

theorem speechEncodeFrameReset_layout (L : Layout h s parts st) :
    ∃ h', speechEncodeFrameReset (VoidPtr.start parts.frame) h = .ok (0, h') ∧
      Layout h' s parts { st with pre := core.preReset, cod := Codec.codAmrReset st.cod } := by
  obtain ⟨h', hr, hp, hc, other⟩ := speechEncodeFrameReset_live L.frame L.pre L.cod
  refine ⟨h', hr, other _ _ ?_ ?_ L.state, other _ _ ?_ ?_ L.frame, hp, hc, other _ _ ?_ ?_ L.sid⟩
  · exact place_ne L.state L.pre (by simp)
  · exact place_ne L.state L.cod (by simp)
  · exact place_ne L.frame L.pre (by simp)
  · exact place_ne L.frame L.cod (by simp)
  · exact place_ne L.sid L.pre (by simp)
  · exact place_ne L.sid L.cod (by simp)

/-- Given what the two `void *` point at, `AMREncodeReset` resets every object. -/
theorem amrEncodeReset_pointed (L : Layout h s parts st) :
    ∃ h', amrEncodeReset (VoidPtr.start parts.frame) (VoidPtr.start parts.sid) h = .ok (0, h') ∧
      Handle h' s (reset st) := by
  obtain ⟨h₁, hframe, L₁⟩ := speechEncodeFrameReset_layout L
  obtain ⟨h₂, hsid, L₂⟩ := L₁.onSid fun st => (Codec.sidSyncReset st, (0 : Int))
  refine ⟨h₂, ?_, parts, L₂⟩
  rw [amrEncodeReset, hframe, Res.ok_bind]
  dsimp only
  rw [sidSyncReset, hsid]
  rfl

/-- Every call keeps `dtx` and the SID update rate. -/
theorem after_keeps (st : EncState core) (rs : List Request) :
    (after st rs).cod.dtx = st.cod.dtx ∧ (after st rs).sid.sidUpdateRate = st.sid.sidUpdateRate := by
  induction rs generalizing st with
  | nil => exact ⟨rfl, rfl⟩
  | cons r rs ih =>
    let e := Codec.encoderInterfaceEncode st r.mode r.input r.out r.bfr
    have hcod : e.st.cod.dtx = st.cod.dtx := codAmr_dtx ..
    have hsid : e.st.sid.sidUpdateRate = st.sid.sidUpdateRate := sidSync_rate ..
    obtain ⟨h₁, h₂⟩ := ih e.st
    exact ⟨h₁.trans hcod, h₂.trans hsid⟩

/-- Where the reset of the signal processing leaves nothing behind, resetting every
object undoes any sequence of calls. -/
theorem reset_after (hcod : ∀ c c', core.codReset c = core.codReset c') (dtx : Int) (rs : List Request) :
    reset (after (EncState.init core dtx) rs) = EncState.init core dtx := by
  obtain ⟨hdtx, hrate⟩ := after_keeps (EncState.init core dtx) rs
  simp only [reset, Codec.codAmrReset, Codec.sidSyncReset, hdtx, hrate]
  rw [hcod _ core.codInit]
  rfl

/-- A handle reset the way `AMREncodeReset` is documented is as good as new. -/
theorem amrEncodeReset_restores (hcod : ∀ c c', core.codReset c = core.codReset c') (h₀ : Heap core) (dtx : Int)
    (rs : List Request) :
    ∃ s h₁ bs h₂ encCtx pidSyncCtx h₃, encoderInterfaceInit dtx h₀ = .ok (s, h₁) ∧ encodes s rs h₁ = .ok (bs, h₂) ∧
      loadPtr (VoidPtr.start s) 0 h₂ = .ok encCtx ∧ loadPtr (VoidPtr.start s) 1 h₂ = .ok pidSyncCtx ∧
      amrEncodeReset encCtx pidSyncCtx h₂ = .ok (0, h₃) ∧ Handle h₃ s (EncState.init core dtx) := by
  obtain ⟨s, h₁, hinit, H₁⟩ := encoderInterfaceInit_handle dtx h₀
  obtain ⟨h₂, henc, parts, L⟩ := encodes_handle H₁ rs
  obtain ⟨h₃, hreset, H₃⟩ := amrEncodeReset_pointed L
  rw [reset_after hcod] at H₃
  exact ⟨s, h₁, _, h₂, _, _, h₃, hinit, henc, loadPtr_live L.state rfl, loadPtr_live L.state rfl, hreset, H₃⟩

/-- `Encoder_Interface_reset` takes `encoder_state` for a `Speech_Encode_FrameState`:
the filter it resets first is the `Speech_Encode_FrameState` itself. -/
theorem encoderInterfaceReset_wrongType (H : Handle h s st) : encoderInterfaceReset s h = .error .wrongType := by
  obtain ⟨parts, L⟩ := H
  have hpre : preProcessReset (VoidPtr.start parts.frame) h = .error .wrongType := by
    rw [preProcessReset, if_neg (by simp), access_wrongType L.frame rfl]
  have hframe : speechEncodeFrameReset (some ⟨s, 0⟩) h = .error .wrongType := by
    rw [speechEncodeFrameReset, if_neg (by simp), loadPtr_live L.state (v := VoidPtr.start parts.frame) rfl,
      Res.ok_bind, hpre]
    rfl
  rw [encoderInterfaceReset, amrEncodeReset, hframe]
  rfl

/-- What `Encoder_Interface_reset` is for: after `Encoder_Interface_init(dtx)` and the
calls `rs`, it leaves a valid handle in the initial state, on which every later
sequence of calls returns what it returns on a new one. -/
def ResetRestores (h₀ : Heap core) (dtx : Int) (rs : List Request) : Prop :=
  ∀ s h₁ bs h₂, encoderInterfaceInit dtx h₀ = .ok (s, h₁) → encodes s rs h₁ = .ok (bs, h₂) →
    ∃ h₃, encoderInterfaceReset s h₂ = .ok h₃ ∧ Handle h₃ s (EncState.init core dtx) ∧
      ∀ (h₀' : Heap core) s' h₁' rs', encoderInterfaceInit dtx h₀' = .ok (s', h₁') →
        ∃ bs' h₄ h₂', encodes s rs' h₃ = .ok (bs', h₄) ∧ encodes s' rs' h₁' = .ok (bs', h₂')

theorem encoderInterfaceReset_after (h₀ : Heap core) (dtx : Int) (rs : List Request) :
    ∃ s h₁ bs h₂, encoderInterfaceInit dtx h₀ = .ok (s, h₁) ∧ encodes s rs h₁ = .ok (bs, h₂) ∧
      encoderInterfaceReset s h₂ = .error .wrongType := by
  obtain ⟨s, h₁, hinit, H₁⟩ := encoderInterfaceInit_handle dtx h₀
  obtain ⟨h₂, henc, H₂⟩ := encodes_handle H₁ rs
  exact ⟨s, h₁, _, h₂, hinit, henc, encoderInterfaceReset_wrongType H₂⟩

/-- It restores no handle, whatever was encoded before. -/
theorem reset_restores_never (h₀ : Heap core) (dtx : Int) (rs : List Request) : ¬ ResetRestores h₀ dtx rs := by
  intro hr
  obtain ⟨s, h₁, bs, h₂, hinit, henc, hwrong⟩ := encoderInterfaceReset_after h₀ dtx rs
  obtain ⟨h₃, hok, -⟩ := hr s h₁ bs h₂ hinit henc
  rw [hwrong] at hok
  cases hok

/-- Not even that of a new handle. -/
theorem reset_restores_unused : ¬ ResetRestores (Arena.empty : Heap silentCore) 0 [] := by
  intro hr
  obtain ⟨s, h₁, bs, h₂, hinit, henc, hwrong⟩ := encoderInterfaceReset_after (Arena.empty : Heap silentCore) 0 []
  obtain ⟨h₃, hok, -⟩ := hr s h₁ bs h₂ hinit henc
  rw [hwrong] at hok
  cases hok

end Heap

end AudioRecorder.Codec
