import AudioRecorder.Lib.Transducer
import AudioRecorder.Native.Coupling
/-!
# The stream of samples through a session

What a list of `denoiseAndEnc` calls does to an open session, first for the
frame size 160 that the application uses (`Fed`: the denoiser and the encoder as
transducers of frames, the file growing by what the encoder emits), then for any
frame size (`steps`: where each frame lies). Each call handles `size / frame_size`
frames on its own and drops the rest of the chunk, and a frame for which the file
does not open is dropped behind the denoiser, so the calls cut the stream as a whole
only when the chunks are aligned and every such open succeeds (`stream_cut_iff`); and
the encoder's fixed 160 samples are the denoiser's frame only when that frame is 160
long (`denoiseAndEnc_strides`).
-/

namespace AudioRecorder.Native

open Codec (Word16 UWord8)
open Blocks (blocks takeBlocks Aligned)
open Transducer (final outputs kept)

variable {w : World}

/-- A call of `denoiseAndEnc`. -/
structure Call where
  lin : List Word16
  offset : Int
  size : Int
  junk : Nat → Word16

namespace Call
variable (c : Call)

def op : Op := .denoiseAndEnc c.lin c.offset c.size c.junk

/-- What the call finds in its buffer. -/
def buffer : List Word16 := Jni.region c.lin c.offset c.size c.junk

/-- The array region exists. -/
def Inside : Prop := 0 ≤ c.offset ∧ 0 ≤ c.size ∧ c.offset + c.size ≤ c.lin.length

/-- The samples of the array region. -/
def samples : List Word16 := (c.lin.drop c.offset.toNat).take c.size.toNat

/-- The call on all of an array. -/
def ofSamples (xs : List Word16) : Call := ⟨xs, 0, xs.length, fun _ => 0⟩

variable {c}

theorem Inside.region (h : c.Inside) (buffer : List Word16) :
    Jni.getShortArrayRegion c.lin c.offset c.size buffer = (c.samples, false) := by
  unfold Inside at h
  rw [Jni.getShortArrayRegion, if_pos h]
  rfl

theorem Inside.buffer (h : c.Inside) : c.buffer = c.samples := by
  rw [Call.buffer, Jni.region, h.region]

theorem Inside.samples_length (h : c.Inside) : c.samples.length = c.size.toNat := by
  obtain ⟨h₁, h₂, h₃⟩ := h
  simp only [samples, List.length_take, List.length_drop]; omega

theorem ofSamples_inside (xs : List Word16) : (ofSamples xs).Inside := by simp [Inside, ofSamples]

theorem ofSamples_all_inside (css : List (List Word16)) : ∀ c ∈ css.map ofSamples, c.Inside := by
  intro c hc
  obtain ⟨xs, -, rfl⟩ := List.mem_map.1 hc
  exact ofSamples_inside xs

@[simp] theorem ofSamples_samples (xs : List Word16) : (ofSamples xs).samples = xs := by simp [samples, ofSamples]

theorem flatMap_ofSamples (css : List (List Word16)) : (css.map ofSamples).flatMap samples = css.flatten := by
  rw [List.flatMap_map]
  simp only [ofSamples_samples, List.flatMap_def, List.map_id']

end Call

/-! ## Frames of 160 samples -/

/-- A file to which each of `bs` is appended, with an open of its own. -/
def appendFile (f : Option (List UWord8)) (bs : List (List UWord8)) : Option (List UWord8) :=
  if bs = [] then f else some (f.getD [] ++ bs.flatten)

theorem appendFile_append (f : Option (List UWord8)) (bs cs : List (List UWord8)) :
    appendFile (appendFile f bs) cs = appendFile f (bs ++ cs) := by
  unfold appendFile
  by_cases hb : bs = []
  · simp [hb]
  · by_cases hc : cs = [] <;> simp [hb, hc]

theorem appendFile_some (f : List UWord8) (bs : List (List UWord8)) : appendFile (some f) bs = some (f ++ bs.flatten) := by
  unfold appendFile
  split
  · rename_i h; simp [h]
  · rfl

/-- From `s` to `s'` the denoiser is fed the frames `xs`, and the encoder those
of its results whose `fopen` succeeds. -/
structure Fed (s s' : Session w) (xs : List (List Word16)) : Prop where
  frameSize : s'.frameSize = s.frameSize
  den : s'.den = final w.den.run s.den xs
  denoised : ∃ d, s'.denoised = s.denoised ++ d ∧ d.map Denoised.input = xs ∧
    d.map Denoised.output = outputs w.den.run s.den xs
  opens : s'.os.opens = s.os.opens + xs.length
  enc : s'.enc = final w.emit s.enc (kept w.fopenOk s.os.opens (outputs w.den.run s.den xs))
  encoded : ∃ e, s'.encoded = s.encoded ++ e ∧
    e.map Slice.samples = kept w.fopenOk s.os.opens (outputs w.den.run s.den xs)
  file : s'.os.files filepath = appendFile (s.os.files filepath)
    (outputs w.emit s.enc (kept w.fopenOk s.os.opens (outputs w.den.run s.den xs)))
  others : ∀ p, p ≠ filepath → s'.os.files p = s.os.files p

namespace Session
variable {s s₁ s₂ : Session w} {xs ys : List (List Word16)}

theorem fed_nil (s : Session w) : Fed s s [] where
  frameSize := rfl
  den := rfl
  denoised := ⟨[], by simp [outputs]⟩
  opens := rfl
  enc := rfl
  encoded := ⟨[], by simp [outputs, kept]⟩
  file := rfl
  others _ _ := rfl

theorem fed_append (h : Fed s s₁ xs) (h' : Fed s₁ s₂ ys) : Fed s s₂ (xs ++ ys) := by
  have hkept : kept w.fopenOk s.os.opens (outputs w.den.run s.den (xs ++ ys)) =
      kept w.fopenOk s.os.opens (outputs w.den.run s.den xs) ++ kept w.fopenOk s₁.os.opens (outputs w.den.run s₁.den ys) := by
    rw [Transducer.outputs_append, Transducer.kept_append, Transducer.outputs_length, h.opens, h.den]
  obtain ⟨d, hd, hdi, hdo⟩ := h.denoised
  obtain ⟨d', hd', hdi', hdo'⟩ := h'.denoised
  obtain ⟨e, he, hes⟩ := h.encoded
  obtain ⟨e', he', hes'⟩ := h'.encoded
  refine ⟨h'.frameSize.trans h.frameSize, ?_, ⟨d ++ d', ?_, ?_, ?_⟩, ?_, ?_, ⟨e ++ e', ?_, ?_⟩, ?_, ?_⟩
  · rw [h'.den, h.den, Transducer.final_append]
  · rw [hd', hd, List.append_assoc]
  · rw [List.map_append, hdi, hdi']
  · rw [List.map_append, hdo, hdo', Transducer.outputs_append, h.den]
  · rw [h'.opens, h.opens, List.length_append, Nat.add_assoc]
  · rw [hkept, Transducer.final_append, ← h.enc, h'.enc]
  · rw [he', he, List.append_assoc]
  · rw [List.map_append, hes, hes', hkept]
  · rw [hkept, Transducer.outputs_append, ← appendFile_append, ← h.file, ← h.enc, h'.file]
  · exact fun p hp => (h'.others p hp).trans (h.others p hp)

/-- One frame of 160 samples. -/
theorem feed_fed (hs : s.frameSize = Native.frameSize) (i : Nat) {x : List Word16} (hx : x.length = Native.frameSize) :
    Fed s (s.feed i x) [x] := by
  have hlt : ¬ s.frameSize < Native.frameSize := by omega
  have hy : ((w.den.run s.den x).2).take Native.frameSize = (w.den.run s.den x).2 :=
    List.take_of_length_le (by simp [hx])
  cases hok : w.fopenOk s.os.opens with
  | false =>
    refine ⟨rfl, rfl, ⟨_, rfl, rfl, rfl⟩, ?_, ?_, ⟨[], ?_, ?_⟩, ?_, ?_⟩ <;>
      simp [feed, EncView.handle, hok, outputs, kept, final, appendFile]
  | true =>
    refine ⟨rfl, rfl, ⟨_, rfl, rfl, rfl⟩, ?_, ?_, ⟨[⟨i * s.frameSize, (w.den.run s.den x).2⟩], ?_, ?_⟩, ?_, fun p hp => ?_⟩ <;>
      simp only [feed, EncView.handle, hok, if_true, if_neg hlt, hy, outputs, kept, final, List.map_cons, List.map_nil,
        Os.saved_opens, Os.saved_files, appendFile, List.length_cons, List.length_nil, List.cons_ne_nil, if_false,
        List.flatten_cons, List.flatten_nil, List.append_nil, Os.content]
    simp [Os.saved, Os.setFile, Function.update_of_ne hp]

theorem feeds_fed (hs : s.frameSize = Native.frameSize) (xs : List (List Word16))
    (hx : ∀ x ∈ xs, x.length = Native.frameSize) (i : Nat) : Fed s (s.feeds i xs) xs := by
  induction xs generalizing s i with
  | nil => exact fed_nil s
  | cons x xs ih =>
    have h₁ := feed_fed hs i (hx x (by simp))
    exact fed_append h₁ (ih (by simpa using hs) (fun y hy => hx y (by simp [hy])) (i + 1))

end Session

/-! ## Chunk by chunk and as a whole -/

/-- From `j₀` to `j` the denoiser was fed the consecutive 160-sample blocks of
`xs`, and the encoder every block that came out of it. -/
def StreamCut (j₀ j : Jni w) (xs : List Word16) : Prop :=
  ∃ d e, j.denoised = j₀.denoised ++ d ∧ j.amr.encoded = j₀.amr.encoded ++ e ∧
    d.map Denoised.input = blocks frameSize xs ∧ e.map Slice.samples = d.map Denoised.output

/-- Behind the `fopen` of `init`, those of the calls succeed: there is one for each
frame, and a chunk of `n` samples has `n / 160` of them. -/
def AppendsOpen (j₀ : Jni w) (ns : List Nat) : Prop :=
  ∀ i < (ns.map (· / frameSize)).sum, w.fopenOk (j₀.amr.os.opens + 1 + i) = true

namespace Jni
variable {j j' j₀ : Jni w} {s : Session w}

/-- The frames of a list of calls. -/
def frames (cs : List Call) : List (List Word16) := cs.flatMap fun c => blocks Native.frameSize c.buffer

/-- Calls on an open session feed it their frames. -/
theorem exec_calls (ho : j.Open s) (hs : s.frameSize = Native.frameSize) (cs : List Call) :
    ∃ rs j' s', j.exec (cs.map Call.op) = .ok (rs, j') ∧ j'.Open s' ∧ Fed s s' (frames cs) := by
  induction cs generalizing j s with
  | nil => exact ⟨[], j, s, rfl, ho, Session.fed_nil s⟩
  | cons c cs ih =>
    obtain ⟨j₁, hd, ho₁, -⟩ := denoiseAndEnc_spec ho hs (by decide) c.lin c.offset c.size c.junk
    have hfed := Session.feeds_fed hs (blocks Native.frameSize c.buffer) Blocks.blocks_full 0
    obtain ⟨rs, j₂, s₂, he, ho₂, hfed₂⟩ := ih ho₁ (hfed.frameSize.trans hs)
    exact ⟨_, j₂, s₂, exec_cons hd he, ho₂, Session.fed_append hfed hfed₂⟩

/-- A session opened with the application's frame size, and the calls made on it. -/
theorem exec_session (hc : j₀.Closed) (rate channel : Int) (cs : List Call) :
    ∃ rs j s, j₀.exec (.init Native.frameSize rate channel :: cs.map Call.op) = .ok (rs, j) ∧ j.Open s ∧
      Fed (.start w Native.frameSize rate j₀.amr.os j₀.denoised j₀.amr.encoded) s (frames cs) := by
  obtain ⟨j₁, hi, ho, -⟩ := init_spec hc Native.frameSize rate channel
  obtain ⟨rs, j₂, s₂, he, ho₂, hfed⟩ := exec_calls ho rfl cs
  exact ⟨_, j₂, s₂, exec_cons hi he, ho₂, hfed⟩

theorem frames_inside {cs : List Call} (h : ∀ c ∈ cs, c.Inside) :
    frames cs = (cs.map Call.samples).flatMap (blocks Native.frameSize) := by
  rw [frames, List.flatMap_map]
  exact List.flatMap_congr fun c hc => by rw [(h c hc).buffer]

theorem frames_length {cs : List Call} (h : ∀ c ∈ cs, c.Inside) :
    (frames cs).length = ((cs.map fun c => c.samples.length).map (· / Native.frameSize)).sum := by
  rw [frames_inside h, List.length_flatMap, List.map_map, List.map_map]
  simp only [Function.comp_def, Blocks.blocks_length]

theorem frames_ofSamples (css : List (List Word16)) :
    frames (css.map Call.ofSamples) = css.flatMap (blocks Native.frameSize) := by
  rw [frames_inside (Call.ofSamples_all_inside css), List.map_map]
  simp [Function.comp_def]

/-- Calls on aligned chunks have the frames of the stream as a whole. -/
theorem frames_of_aligned {cs : List Call} (hin : ∀ c ∈ cs, c.Inside)
    (ha : Aligned Native.frameSize (cs.map fun c => c.samples.length)) :
    frames cs = blocks Native.frameSize (cs.flatMap Call.samples) := by
  have hk : 0 < Native.frameSize := by decide
  rw [frames_inside hin, Blocks.flatMap_blocks_of_aligned hk _ (by rwa [List.map_map]), List.flatMap_def]

theorem initOs_opens (os : Os) (path : String) : (AmrEnc.initOs w os path).opens = os.opens + 1 := by
  unfold AmrEnc.initOs
  split <;> rfl

/-- A session cuts the stream exactly when its calls' frames are the stream's blocks
and the file opens for each of them. -/
theorem streamCut_iff (hc : j₀.Closed) (rate channel : Int) (cs : List Call) (xs : List Word16) :
    (∃ rs j, j₀.exec (.init Native.frameSize rate channel :: cs.map Call.op) = .ok (rs, j) ∧ StreamCut j₀ j xs) ↔
      frames cs = blocks Native.frameSize xs ∧
        ∀ i < (frames cs).length, w.fopenOk (j₀.amr.os.opens + 1 + i) = true := by
  obtain ⟨rs, j, s, he, ho, hfed⟩ := exec_session hc rate channel cs
  obtain ⟨d, hd, hin, hout⟩ := hfed.denoised
  obtain ⟨e, hen, hsam⟩ := hfed.encoded
  rw [← ho.denoised] at hd
  rw [← ho.amr.encoded] at hen
  rw [← hout] at hsam
  simp only [Session.start, initOs_opens] at hsam
  have hlen : (d.map Denoised.output).length = (frames cs).length := by rw [← hin, List.length_map, List.length_map]
  constructor
  · rintro ⟨rs', j', he', d', e', hd', hen', hin', hsam'⟩
    rw [he] at he'
    cases he'
    rw [hd] at hd'
    rw [hen] at hen'
    obtain rfl := List.append_cancel_left hd'
    obtain rfl := List.append_cancel_left hen'
    refine ⟨hin.symm.trans hin', ?_⟩
    -- a failed open leaves the encoder with fewer blocks than the denoiser
    rw [← hlen, ← Transducer.kept_length_iff, ← hsam, hsam']
  · rintro ⟨heq, hok⟩
    refine ⟨rs, j, he, d, e, hd, hen, hin.trans heq, ?_⟩
    rw [hsam, Transducer.kept_all _ _ (by rwa [hlen])]

/-- What a session leaves in the files depends on its frames alone. -/
theorem files_of_frames (hc : j₀.Closed) {rate channel : Int} {cs cs' : List Call} {rs rs' : List Ret}
    (he : j₀.exec (.init Native.frameSize rate channel :: cs.map Call.op) = .ok (rs, j))
    (he' : j₀.exec (.init Native.frameSize rate channel :: cs'.map Call.op) = .ok (rs', j'))
    (hf : frames cs = frames cs') : j.amr.os.files = j'.amr.os.files := by
  obtain ⟨_, _, s₁, h₁, ho₁, hfed₁⟩ := exec_session hc rate channel cs
  obtain ⟨_, _, s₂, h₂, ho₂, hfed₂⟩ := exec_session hc rate channel cs'
  rw [he] at h₁
  rw [he'] at h₂
  cases h₁
  cases h₂
  rw [ho₁.amr.os, ho₂.amr.os]
  funext p
  by_cases hp : p = filepath
  · rw [hp, hfed₁.file, hfed₂.file, hf]
  · rw [hfed₁.others p hp, hfed₂.others p hp]

/-- For given chunk lengths, every session cuts its stream as a whole exactly
when the lengths are aligned and every frame's `fopen` succeeds; and two aligned ways
of cutting a stream leave the same files. -/
theorem stream_cut_iff (os : Os) (h : Reached os j₀) (h0 : j₀.codecOpen = 0) (rate channel : Int) :
    (∀ ns : List Nat,
      (∀ cs : List Call, (∀ c ∈ cs, c.Inside) → cs.map (fun c => c.samples.length) = ns →
        ∃ rs j, j₀.exec (.init Native.frameSize rate channel :: cs.map Call.op) = .ok (rs, j) ∧
          StreamCut j₀ j (cs.flatMap Call.samples)) ↔
      Aligned Native.frameSize ns ∧ AppendsOpen j₀ ns) ∧
    ∀ cs cs' : List Call, (∀ c ∈ cs, c.Inside) → (∀ c ∈ cs', c.Inside) →
      Aligned Native.frameSize (cs.map fun c => c.samples.length) →
      Aligned Native.frameSize (cs'.map fun c => c.samples.length) →
      cs.flatMap Call.samples = cs'.flatMap Call.samples → ∀ rs j rs' j',
      j₀.exec (.init Native.frameSize rate channel :: cs.map Call.op) = .ok (rs, j) →
      j₀.exec (.init Native.frameSize rate channel :: cs'.map Call.op) = .ok (rs', j') →
      j.amr.os.files = j'.amr.os.files := by
  have hc := h.closed h0
  refine ⟨fun ns => ⟨?_, ?_⟩, ?_⟩
  · intro hall
    have hcut : ∀ css : List (List Word16), css.map List.length = ns →
        css.flatMap (blocks Native.frameSize) = blocks Native.frameSize css.flatten ∧ AppendsOpen j₀ ns := by
      intro css hlen
      have hin := Call.ofSamples_all_inside css
      have hns : (css.map Call.ofSamples).map (fun c => c.samples.length) = ns := by simpa [Function.comp_def] using hlen
      obtain ⟨heq, hok⟩ := (streamCut_iff hc rate channel _ _).1 (hall _ hin hns)
      rw [frames_ofSamples, Call.flatMap_ofSamples] at heq
      rw [frames_length hin, hns] at hok
      exact ⟨heq, hok⟩
    have : Nontrivial Word16 := ⟨0, 1, by decide⟩
    have hk : 0 < Native.frameSize := by decide
    refine ⟨(Blocks.flatMap_blocks_iff (α := Word16) hk ns).1 fun css hlen => (hcut css hlen).1, ?_⟩
    exact (hcut (ns.map fun n => List.replicate n 0) (by simp [Function.comp_def])).2
  · rintro ⟨ha, hok⟩ cs hin rfl
    refine (streamCut_iff hc rate channel _ _).2 ⟨frames_of_aligned hin ha, ?_⟩
    rw [frames_length hin]
    exact hok
  · intro cs cs' hin hin' ha ha' heq rs j rs' j' he he'
    exact files_of_frames hc he he' (by rw [frames_of_aligned hin ha, frames_of_aligned hin' ha', heq])

/-- The first session of the library, its header not written, on 440 samples cut in two ways. -/
theorem stream_cut_first :
    let j₀ : Jni (.plain fun n => n != 0) := load _ ⟨noFiles, 0, []⟩
    let cut := fun ns : List Nat => ns.map fun n => Call.ofSamples (List.replicate n 1)
    ∃ rs j rs' j',
      j₀.exec (.init Native.frameSize 8000 1 :: (cut [320, 100, 20]).map Call.op) = .ok (rs, j) ∧
        StreamCut j₀ j (List.replicate 440 1) ∧
      j₀.exec (.init Native.frameSize 8000 1 :: (cut [160, 160, 120]).map Call.op) = .ok (rs', j') ∧
        StreamCut j₀ j' (List.replicate 440 1) ∧ j.amr.os.files = j'.amr.os.files := by
  intro j₀ cut
  have hreached : Reached ⟨noFiles, 0, []⟩ j₀ := ⟨[], [], by simp, rfl⟩
  obtain ⟨hiff, hfiles⟩ := stream_cut_iff ⟨noFiles, 0, []⟩ hreached rfl 8000 1
  have hin : ∀ ns, ∀ c ∈ cut ns, c.Inside := by
    intro ns c hc
    obtain ⟨n, -, rfl⟩ := List.mem_map.1 hc
    exact Call.ofSamples_inside _
  have hlen : ∀ ns, (cut ns).map (fun c => c.samples.length) = ns := by simp [cut, Function.comp_def]
  have hstream : ∀ ns, (cut ns).flatMap Call.samples = List.replicate ns.sum 1 := by
    intro ns
    induction ns with
    | nil => rfl
    | cons n ns ih =>
      simp only [cut] at ih ⊢
      rw [List.map_cons, List.flatMap_cons, ih, Call.ofSamples_samples, List.replicate_append_replicate, List.sum_cons]
  have hsum : [320, 100, 20].sum = 440 ∧ [160, 160, 120].sum = 440 := by decide
  have hopen : ∀ ns, AppendsOpen j₀ ns := fun ns i _ => by simp [World.plain, j₀, load, AmrEnc.load]
  have ha : Aligned Native.frameSize [320, 100, 20] := by decide
  have ha' : Aligned Native.frameSize [160, 160, 120] := by decide
  obtain ⟨rs, j, he, hcut⟩ := (hiff _).2 ⟨ha, hopen _⟩ _ (hin _) (hlen _)
  obtain ⟨rs', j', he', hcut'⟩ := (hiff _).2 ⟨ha', hopen _⟩ _ (hin _) (hlen _)
  have hsame := hfiles _ _ (hin _) (hin _) (by rwa [hlen]) (by rwa [hlen])
    (by rw [hstream, hstream, hsum.1, hsum.2]) _ _ _ _ he he'
  rw [hstream, hsum.1] at hcut
  rw [hstream, hsum.2] at hcut'
  exact ⟨rs, j, rs', j', he, hcut, he', hcut', hsame⟩

/-- Two reads of 100 samples hold one block, which reaches neither the denoiser nor the encoder. -/
theorem stream_cut_100_100 :
    ¬ ∀ cs : List Call, (∀ c ∈ cs, c.Inside) →
      ∃ rs j, (load (.plain fun _ => true) ⟨noFiles, 0, []⟩).exec (.init Native.frameSize 8000 1 :: cs.map Call.op) = .ok (rs, j) ∧
        StreamCut (load (.plain fun _ => true) ⟨noFiles, 0, []⟩) j (cs.flatMap Call.samples) := by
  intro h
  let xs : List Word16 := List.replicate 100 0
  have hin : ∀ c ∈ [Call.ofSamples xs, .ofSamples xs], c.Inside := by
    intro c hc
    simp only [List.mem_cons, List.not_mem_nil, or_false, or_self] at hc
    exact hc ▸ Call.ofSamples_inside xs
  obtain ⟨heq, -⟩ := (streamCut_iff (load_closed _ _) 8000 1 _ _).1 (h _ hin)
  rw [frames_inside hin] at heq
  have hlen := congrArg List.length heq
  simp [xs, Blocks.blocks_length, Native.frameSize] at hlen

end Jni

end AudioRecorder.Native
