import Mathlib.Data.List.Nodup
import MediaSeal.Proofs.Bystanders
import MediaSeal.Proofs.History
import MediaSeal.Proofs.KeyStreamBytes
import MediaSeal.Proofs.RoundTrip
import MediaSeal.Proofs.Sending

/-!
# No stretch of a stream is used twice

A vector that is used for two frames gives both away, so the vectors that a
source hands out have to be different pieces of its stream, whoever asks. Those
who share a source refer to the same place, and all that is kept there is how
far the stream was read. So it is enough to follow this one number along the
calls, whatever they are and whatever other sources are used in between.

Only a call that gets as far as the cipher moves it, and by exactly the length
of its vector: both lengths are whole numbers of words, so nothing is lost
between one vector and the next. The vectors are therefore the stream itself,
cut into pieces. A call that does not get that far gives the same answer from
any source and leaves it alone, and a call that decrypts is not even given one.

Places are counted as if the stream never came round; the number of a block
takes 64 bits.
-/

namespace MediaSeal

/-- Both ciphers take vectors that fill whole words. -/
theorem Algorithm.four_mul_words (algorithm : Algorithm) :
    4 * ((algorithm.ivLength + 3) / 4) = algorithm.ivLength := by
  cases algorithm <;> rfl

@[simp] theorem KeyStream.position_ofSeed (seed : UInt64) : (ofSeed seed).position = 0 := rfl

/-! ## Calls -/

/-- A call that encrypts a frame, less the source that it may draw from. -/
structure Encryption where
  store : KeyStore
  participant : Participant
  algorithm : Algorithm
  index : Int
  frame : Frame

/-- A call to whatever works on frames. Who draws from a clone of a source
draws from the source. -/
inductive FrameCall
  | encrypt (source : Ref .entropy) (call : Encryption)
  | decrypt (store : KeyStore) (participant : Participant) (algorithm : Algorithm)
      (payload : Bytes)

/-- A call that got as far as the cipher, and what came of it. -/
structure Sealing where
  call : Encryption
  result : Except FrameError Bytes

namespace Encryption

/-- Whether the call gets as far as the cipher. -/
def seals (call : Encryption) : Bool :=
  call.frame.reachesCipher call.store call.participant call.index

/-- The answer, given the vector in case the frame is sealed. -/
def withVector (call : Encryption) (iv : Bytes) : Except FrameError Bytes :=
  call.frame.encryptWith call.store call.participant call.algorithm call.index iv

/-- The answer, and what is left of the source. -/
def perform (call : Encryption) (entropy : Entropy) : Except FrameError Bytes × Entropy :=
  call.frame.encrypt call.store call.participant call.algorithm call.index entropy

/-- What an encryption answers that found no use for a vector. -/
def SealsNothing (call : Encryption) (result : Except FrameError Bytes) : Prop :=
  call.frame.payload = [] ∨ Marker.exempts call.store.options.marker call.frame.payload = true ∨
    result = .error (.invalidKeyIndex call.index call.store.options.ringSize) ∨
    result = .error (.missingKey call.index)

variable {call : Encryption}

theorem perform_of_not_seals (h : call.seals = false) (entropy : Entropy) :
    call.perform entropy = (call.withVector [], entropy) := by
  rw [seals] at h
  rw [perform, Frame.encrypt, if_neg (Bool.eq_false_iff.mp h)]
  rfl

theorem perform_of_seals (h : call.seals = true) (stream : KeyStream) :
    call.perform (.stream stream) =
      (call.withVector ((List.range' (4 * stream.position) call.algorithm.ivLength).map
          (ChaCha20.byteAt stream.key)),
        .stream { stream with
          position := stream.position + (call.algorithm.ivLength + 3) / 4 }) := by
  rw [seals] at h
  rw [perform, Frame.encrypt, if_pos h, Entropy.draw, stream.draw_eq]
  rfl

/-- Whatever vector a call is given, the frame that it seals carries it. -/
theorem iv_of_seals (h : call.seals = true) {iv wire : Bytes}
    (hwire : call.withVector iv = .ok wire) :
    ∃ sealed, SealedFrame.parse wire = .ok sealed ∧ sealed.iv = iv := by
  rw [seals, Frame.reachesCipher, Bool.and_eq_true, Bool.not_eq_true'] at h
  obtain ⟨slot, key, -, sealed, hsealed, rfl⟩ := (Frame.encryptWith_eq_ok_iff h.1).mp hwire
  have hcarries := SealedFrame.carries_of_ofFrame (KeyOptions.leavesClear_eq_false_iff.mp h.1).1
    hsealed
  obtain ⟨ciphertext, rfl, -⟩ := SealedFrame.ofFrame_eq_ok_iff.mp hsealed
  exact ⟨_, SealedFrame.parse_toBytes hcarries.wellFormed, rfl⟩

/-- The answer to a call shows whether it got as far as the cipher. -/
theorem seals_eq_false_iff (entropy : Entropy) :
    call.seals = false ↔ call.SealsNothing (call.perform entropy).1 := by
  cases hclear : call.store.options.leavesClear call.frame.payload with
  | true =>
      have hseals : call.seals = false := by
        rw [seals, Frame.reachesCipher, hclear]
        rfl
      rw [KeyOptions.leavesClear, Bool.or_eq_true, List.isEmpty_iff] at hclear
      refine ⟨fun _ => ?_, fun _ => hseals⟩
      rcases hclear with hempty | hexempt
      · exact .inl hempty
      · exact .inr (.inl hexempt)
  | false =>
      obtain ⟨hpayload, hmarker⟩ := KeyOptions.leavesClear_eq_false_iff.mp hclear
      simp only [SealsNothing, hpayload, hmarker, false_or, reduceCtorEq]
      cases hkey : call.store.sealingKey call.participant call.index with
      | error error =>
          have hseals : call.seals = false := by
            rw [seals, Frame.reachesCipher, hclear, hkey]
            rfl
          rw [perform, Frame.encrypt_of_error hclear hkey]
          refine ⟨fun _ => ?_, fun _ => hseals⟩
          exact (KeyStore.sealingKey_eq_error hkey).imp
            (fun hslot => congrArg _ (KeyStore.keySlot_eq_error_iff.mp hslot).1) (congrArg _)
      | ok found =>
          obtain ⟨slot, key⟩ := found
          have hseals : call.frame.reachesCipher call.store call.participant call.index = true := by
            rw [Frame.reachesCipher, hclear, hkey]
            rfl
          rw [perform, Frame.encrypt_eq_encryptWith hseals, Frame.encryptWith_of_sealingKey hclear hkey,
            SealedFrame.ofFrame, seals, hseals]
          -- All that can still go wrong is the cipher.
          constructor
          · intro h
            cases h
          · split <;> rintro (h | h) <;> cases h

end Encryption

/-! ## Sources -/

/-- The sources that are there to draw from. -/
abbrev Sources := Registry .entropy Entropy

/-- The call that draws a vector from a source, if it does. -/
def FrameCall.sealing? (ref : Ref .entropy) : FrameCall → Option Encryption
  | encrypt source call => if source = ref ∧ call.seals = true then some call else none
  | decrypt .. => none

theorem FrameCall.eq_encrypt_of_sealing? {ref : Ref .entropy} {use : FrameCall}
    {call : Encryption} (h : use.sealing? ref = some call) :
    use = .encrypt ref call ∧ call.seals = true := by
  cases use with
  | decrypt store participant algorithm payload => cases h
  | encrypt source other =>
      rw [sealing?, Option.ite_none_right_eq_some] at h
      obtain ⟨⟨rfl, hseals⟩, hcall⟩ := h
      obtain rfl := Option.some.inj hcall
      exact ⟨rfl, hseals⟩

namespace Sources

/-- The answer to a call, and what is left of the sources. There is none if
the source is not there. -/
def perform (sources : Sources) : FrameCall → Option (Except FrameError Bytes) × Sources
  | .encrypt source call =>
    match sources.get? source with
    | none => (none, sources)
    | some entropy =>
      let (result, rest) := call.perform entropy
      (some result, sources.set source rest)
  | .decrypt store participant algorithm payload =>
    (some ((store.decrypt participant algorithm payload).1.map (·.payload)), sources)

/-- What is left of the sources after some calls. -/
def afterAll (sources : Sources) (calls : List FrameCall) : Sources :=
  calls.foldl (fun sources call => (sources.perform call).2) sources

/-- All calls that draw a vector from a source, and what comes of them. -/
def sealings (ref : Ref .entropy) : Sources → List FrameCall → List Sealing
  | _, [] => []
  | sources, call :: rest =>
    let (answer, after) := perform sources call
    let sealing? := (call.sealing? ref).bind fun call => answer.map (Sealing.mk call)
    sealing?.toList ++ sealings ref after rest

variable {sources : Sources} {ref : Ref .entropy}

theorem get?_perform_of_idle {entropy : Entropy} (h : sources.get? ref = some entropy)
    {call : FrameCall} (hidle : call.sealing? ref = none) :
    (sources.perform call).2.get? ref = some entropy := by
  cases call with
  | decrypt store participant algorithm payload => exact h
  | encrypt source call =>
      by_cases hsource : source = ref
      · subst hsource
        have hseals : call.seals = false := by
          simpa [FrameCall.sealing?] using hidle
        simp only [perform, h, call.perform_of_not_seals hseals]
        exact Registry.get?_set_self h
      · cases hfound : sources.get? source with
        | none =>
            simp only [perform, hfound]
            exact h
        | some found =>
            simp only [perform, hfound]
            exact (Registry.get?_set_of_ne hsource).trans h

theorem perform_of_sealing {stream : KeyStream} (h : sources.get? ref = some (.stream stream))
    {use : FrameCall} {call : Encryption} (hsealing : use.sealing? ref = some call) :
    (sources.perform use).1 =
        some (call.withVector ((List.range' (4 * stream.position) call.algorithm.ivLength).map
          (ChaCha20.byteAt stream.key))) ∧
      (sources.perform use).2.get? ref =
        some (.stream { stream with
          position := stream.position + (call.algorithm.ivLength + 3) / 4 }) := by
  obtain ⟨rfl, hseals⟩ := FrameCall.eq_encrypt_of_sealing? hsealing
  simp only [perform, h, call.perform_of_seals hseals, true_and]
  exact Registry.get?_set_self h

/-- The answer to a call shows whether it left its source as it was, and if it
did then it is the same from any source. -/
theorem perform_encrypt {stream : KeyStream} (h : sources.get? ref = some (.stream stream))
    (call : Encryption) :
    ∃ result, (sources.perform (.encrypt ref call)).1 = some result ∧
      ((sources.perform (.encrypt ref call)).2.get? ref = sources.get? ref ↔
        call.SealsNothing result) ∧
      (call.SealsNothing result → result = call.withVector []) := by
  cases hcall : call.seals with
  | false =>
      have hidle : (FrameCall.encrypt ref call).sealing? ref = none := by
        rw [FrameCall.sealing?, if_neg fun hboth => Bool.eq_false_iff.mp hcall hboth.2]
      have hnothing := (Encryption.seals_eq_false_iff (.stream stream)).mp hcall
      rw [Encryption.perform_of_not_seals hcall] at hnothing
      refine ⟨call.withVector [], ?_, ?_, fun _ => rfl⟩
      · simp only [perform, h, Encryption.perform_of_not_seals hcall]
      · rw [get?_perform_of_idle h hidle, h]
        exact iff_of_true rfl hnothing
  | true =>
      have hsealing : (FrameCall.encrypt ref call).sealing? ref = some call := by
        rw [FrameCall.sealing?, if_pos ⟨rfl, hcall⟩]
      obtain ⟨hanswer, hleft⟩ := perform_of_sealing h hsealing
      have hsome : ¬ call.SealsNothing (call.perform (.stream stream)).1 := by
        rw [← Encryption.seals_eq_false_iff, hcall]
        exact Bool.noConfusion
      rw [Encryption.perform_of_seals hcall] at hsome
      refine ⟨_, hanswer, ?_, fun hnothing => absurd hnothing hsome⟩
      rw [hleft, h]
      refine iff_of_false (fun hsame => ?_) hsome
      have hposition := congrArg KeyStream.position (Entropy.stream.inj (Option.some.inj hsame))
      -- A vector is never empty, so whoever draws one can be seen to have moved the source.
      have hmoved : 0 < (call.algorithm.ivLength + 3) / 4 := by
        cases call.algorithm <;> decide
      exact absurd hposition (Nat.ne_of_gt (Nat.lt_add_of_pos_right hmoved))

/-! ## The stream cut into pieces -/

/-- The stretches of a stream that calls use up, the first one from `start`
on. -/
def stretches : (start : Nat) → List Encryption → List (List Nat)
  | _, [] => []
  | start, call :: rest =>
    List.range' start call.algorithm.ivLength ::
      stretches (start + call.algorithm.ivLength) rest

theorem length_stretches (start : Nat) (calls : List Encryption) :
    (stretches start calls).map List.length = calls.map (·.algorithm.ivLength) := by
  induction calls generalizing start with
  | nil => rfl
  | cons call rest ih =>
      rw [stretches, List.map_cons, List.map_cons, ih, List.length_range']

/-- The source has been read as far as the stretches go, and each vector is what
was read for it. -/
theorem sealings_from {stream : KeyStream} (h : sources.get? ref = some (.stream stream))
    (calls : List FrameCall) :
    let sealing := calls.filterMap (·.sealing? ref)
    let pieces := stretches (4 * stream.position) sealing
    sources.sealings ref calls =
        List.zipWith (fun call piece =>
          ⟨call, call.withVector (piece.map (ChaCha20.byteAt stream.key))⟩) sealing pieces ∧
      ∃ words, (sources.afterAll calls).get? ref =
          some (.stream { stream with position := stream.position + words }) ∧
        pieces.flatten = List.range' (4 * stream.position) (4 * words) := by
  induction calls generalizing sources stream with
  | nil => exact ⟨rfl, 0, h, rfl⟩
  | cons use rest ih =>
      cases hsealing : use.sealing? ref with
      | none =>
          obtain ⟨hrest, hend⟩ := ih (get?_perform_of_idle h hsealing)
          simp only [sealings, hsealing, List.filterMap_cons_none hsealing]
          exact ⟨hrest, hend⟩
      | some call =>
          obtain ⟨hanswer, hleft⟩ := perform_of_sealing h hsealing
          obtain ⟨hrest, words, hend, hflatten⟩ := ih hleft
          -- The source counts words and the pieces count places, four to a word.
          have hlength := call.algorithm.four_mul_words
          generalize hdrawn : (call.algorithm.ivLength + 3) / 4 = drawn at *
          rw [Nat.mul_add, hlength] at hrest hflatten
          simp only [sealings, hsealing, hanswer, List.filterMap_cons_some hsealing, hrest]
          refine ⟨rfl, drawn + words, ?_, ?_⟩
          · rw [← Nat.add_assoc]
            exact hend
          · rw [stretches, List.flatten_cons, hflatten, Nat.mul_add, hlength, List.range'_append_1]

/-- A source built from a seed serves any calls, among others on other sources.
The calls on it that get as far as the cipher are given the stream of the seed
piece after piece: what comes of them depends on nothing but the seed and these
calls, each sealed frame carries its piece, and no place of the stream is in two
of them. After any calls, all others leave the source as it is, and one that
could have drawn from it but has not shows in its answer why. -/
theorem vectors_cut_the_stream {seed : UInt64} (h : sources.get? ref = some (.ofSeed seed))
    (calls : List FrameCall) :
    let sealing := calls.filterMap (·.sealing? ref)
    let pieces := stretches 0 sealing
    let vector (piece : List Nat) : Bytes :=
      piece.map (ChaCha20.byteAt (KeyStream.ofSeed seed).key)
    let later := sources.afterAll calls
    (sources.sealings ref calls =
        List.zipWith (fun call piece => ⟨call, call.withVector (vector piece)⟩) sealing pieces ∧
      ∀ drawn ∈ sealing.zip pieces, ∀ wire, drawn.1.withVector (vector drawn.2) = .ok wire →
        ∃ sealed, SealedFrame.parse wire = .ok sealed ∧ sealed.iv = vector drawn.2) ∧
    (pieces.map List.length = sealing.map (·.algorithm.ivLength) ∧
      (∃ words, later.get? ref = some (.stream ⟨(KeyStream.ofSeed seed).key, words⟩) ∧
        pieces.flatten = List.range (4 * words)) ∧
      pieces.Pairwise List.Disjoint) ∧
    (∀ use, (∀ call, use ≠ .encrypt ref call) →
      (later.perform use).2.get? ref = later.get? ref) ∧
    ∀ call, ∃ result, (later.perform (.encrypt ref call)).1 = some result ∧
      ((later.perform (.encrypt ref call)).2.get? ref = later.get? ref ↔
        call.SealsNothing result) ∧
      (call.SealsNothing result → result = call.withVector []) := by
  intro sealing pieces vector later
  obtain ⟨hsealings, words, hlater, hflatten⟩ := sealings_from h calls
  rw [KeyStream.position_ofSeed, Nat.zero_add] at hlater
  rw [KeyStream.position_ofSeed, Nat.mul_zero, ← List.range_eq_range'] at hflatten
  have hseals : ∀ call ∈ sealing, call.seals = true := by
    intro call hcall
    obtain ⟨use, -, huse⟩ := List.mem_filterMap.mp hcall
    exact (FrameCall.eq_encrypt_of_sealing? huse).2
  have hdisjoint : pieces.Pairwise List.Disjoint := by
    refine (List.nodup_flatten.mp ?_).2
    rw [show pieces.flatten = _ from hflatten]
    exact List.nodup_range
  refine ⟨⟨hsealings, ?_⟩, ⟨length_stretches 0 sealing, ⟨words, hlater, hflatten⟩, hdisjoint⟩,
    fun use huse => ?_, perform_encrypt hlater⟩
  · intro drawn hdrawn wire hwire
    exact Encryption.iv_of_seals (hseals _ (List.of_mem_zip hdrawn).1) hwire
  · refine (get?_perform_of_idle hlater ?_).trans hlater.symm
    exact Option.eq_none_iff_forall_ne_some.mpr fun call hsealing =>
      huse call (FrameCall.eq_encrypt_of_sealing? hsealing).1

/-- A member's key is in slot 1 of two, and the marker is one byte. -/
def mixedCalls (source : Ref .entropy) : List FrameCall :=
  let encryption (algorithm : Algorithm) (index : Int) (payload : Bytes) : FrameCall :=
    .encrypt source ⟨lastSlotStore, ⟨"a"⟩, algorithm, index, ⟨.audio, false, payload⟩⟩
  [encryption .aesGcm 1 [1, 2], .decrypt lastSlotStore ⟨"a"⟩ .aesGcm [1, 2],
    encryption .aesCbc 1 [3], encryption .aesGcm 0 [4], encryption .aesGcm 2 [4],
    encryption .aesGcm 1 [4, 7, 0], encryption .aesGcm 1 [], encryption .aesGcm 1 [5]]

theorem vectors_cut_the_stream_of_mixedCalls :
    let sources : Sources := ⟨[.constant 0, .ofSeed 9], []⟩
    let sealing := (mixedCalls ⟨1⟩).filterMap (·.sealing? ⟨1⟩)
    sources.get? ⟨1⟩ = some (.ofSeed 9) ∧
      stretches 0 sealing = [List.range' 0 12, List.range' 12 16, List.range' 28 12] ∧
      ((sources.sealings ⟨1⟩ (mixedCalls ⟨1⟩)).map (·.call) = sealing) ∧
      (stretches 0 sealing).Pairwise List.Disjoint := by
  intro sources sealing
  have hsource : sources.get? ⟨1⟩ = some (.ofSeed 9) := rfl
  obtain ⟨⟨hsealings, -⟩, ⟨-, -, hdisjoint⟩, -⟩ := vectors_cut_the_stream hsource (mixedCalls ⟨1⟩)
  refine ⟨hsource, by decide, ?_, hdisjoint⟩
  rw [hsealings]
  rfl

end Sources

end MediaSeal
