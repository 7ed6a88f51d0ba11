import MediaSeal.Proofs.InPlaceCalls
import MediaSeal.Proofs.StoreStates

/-!
# A key that is ratcheted to its end

Generations are counted in thirty-two bits. Whoever ratchets a key again and again
gets a new generation each time until there is none left, and from then on is told
so, each time in the same words. The count does not begin anew, and the last
generation stays where it is: it can be read, and frames can still be sealed and
opened with it.

How far a key is from its end is the one number that the run depends on. A call
either takes one off it or finds it to be zero and changes nothing, so it does not
matter who makes the calls, as long as they are for the same place of the same ring.
-/

namespace MediaSeal

/-! ## How much is left -/

namespace KeyMaterial

/-- How often a key can be ratcheted. -/
def left (key : KeyMaterial) : Nat := lastGeneration.toNat - key.generation.toNat

variable {salt : Bytes} {key following : KeyMaterial}

theorem left_of_ratchet (h : key.ratchet salt = .ok following) :
    key.left = following.left + 1 := by
  have hgen := toNat_generation_of_ratchet h
  have hlt := following.generation.toNat_lt
  simp only [left, lastGeneration, UInt32.reduceToNat]
  omega

theorem left_of_refused {error : CipherError} (h : key.ratchet salt = .error error) :
    key.left = 0 := by
  obtain ⟨hlast, -⟩ := ratchet_eq_error_iff.mp h
  rw [left, hlast, Nat.sub_self]

end KeyMaterial

/-! ## A slot that is written -/

namespace KeyRing

/-- The ring with a key in a slot. -/
def withKey (ring : KeyRing) (slot : Nat) (key : KeyMaterial) : KeyRing :=
  { ring with slots := ring.slots.set slot (some key) }

variable {ring : KeyRing} {index : Int} {base : KeyMaterial}

theorem withKey_withKey (ring : KeyRing) (slot : Nat) (first second : KeyMaterial) :
    (ring.withKey slot first).withKey slot second = ring.withKey slot second := by
  simp only [withKey, List.set_set]

theorem withKey_of_key? (h : ring.key? index = some base) :
    ring.withKey index.toNat base = ring := by
  obtain ⟨slot, rfl, -⟩ := key?_eq_some_iff.mp h
  rw [Int.toNat_natCast, withKey, set_of_key? h]

theorem key?_withKey (h : ring.key? index = some base) (key : KeyMaterial) :
    (ring.withKey index.toNat key).key? index = some key := by
  obtain ⟨slot, rfl, hslot, -⟩ := key?_eq_some_iff.mp h
  rw [Int.toNat_natCast, key?_set rfl hslot, if_pos rfl]

theorem MadeFor.withKey {options : KeyOptions} (h : ring.MadeFor options) (slot : Nat)
    (key : KeyMaterial) : (ring.withKey slot key).MadeFor options where
  size_eq := by rw [← h.size_eq, size, KeyRing.withKey, List.length_set, size]
  salt_eq := h.salt_eq
  tolerance_eq := h.tolerance_eq

theorem ratchetKey_of_ratchet {following : KeyMaterial} (h : ring.key? index = some base)
    (hnext : base.ratchet ring.salt = .ok following) :
    ring.ratchetKey index = .ok (following.raw, ring.withKey index.toNat following) := by
  obtain ⟨slot, rfl, hslot, -⟩ := key?_eq_some_iff.mp h
  exact ratchetKey_eq_ok_iff.mpr ⟨slot, base, following, rfl, hslot, h, hnext, rfl, rfl⟩

theorem ratchetKey_of_refused {error : CipherError} (h : ring.key? index = some base)
    (hrefused : base.ratchet ring.salt = .error error) :
    ring.ratchetKey index = .error (.ratchetExhausted index lastGeneration) := by
  obtain ⟨slot, rfl, hslot, hget⟩ := key?_eq_some_iff.mp h
  have hslot : ring.slot slot = .ok slot := slot_eq_ok_iff.mpr ⟨rfl, hslot⟩
  obtain ⟨hlast, -⟩ := KeyMaterial.ratchet_eq_error_iff.mp hrefused
  simp only [ratchetKey, hslot, hget, hrefused, hlast]

end KeyRing

/-! ## One call -/

namespace KeyStore

variable {options : KeyOptions} {store : KeyStore} {owner : Owner} {call : StoreCall}
  {index : Int} {ring : KeyRing} {base : KeyMaterial}

theorem MadeFor.checkIndex (h : store.MadeFor options) (hring : store.ringOf? owner = some ring)
    (hkey : ring.key? index = some base) : store.checkIndex index = .ok () := by
  obtain ⟨slot, rfl, hslot, -⟩ := KeyRing.key?_eq_some_iff.mp hkey
  have hsize := (h.rings hring).size_eq
  rw [← h.options_eq] at hsize
  exact checkIndex_eq_ok_iff.mpr ⟨by omega, by omega⟩

/-- The three ways in which a call to ratchet a key that is there can be made come to
the same. -/
theorem MadeFor.perform_ratchet (h : store.MadeFor options)
    (hring : store.ringOf? owner = some ring) (hkey : ring.key? index = some base)
    (hcall : call.request = .ratchetKey index) (howner : call.target options = owner) :
    store.perform call =
      match base.ratchet options.salt with
      | .ok following =>
          (.ratcheted (.ok following.raw),
            store.withRingOf owner (ring.withKey index.toNat following))
      | .error _ => (.ratcheted (.error (.ratchetExhausted index lastGeneration)), store) := by
  subst howner
  rw [perform_of_ratchetKey hcall, h.options_eq, ratchetKeyOf, h.checkIndex hring hkey, hring,
    ← (h.rings hring).salt_eq]
  cases hnext : base.ratchet ring.salt with
  | ok following =>
      simp only [KeyRing.ratchetKey_of_ratchet hkey hnext]
      rfl
  | error error =>
      simp only [KeyRing.ratchetKey_of_refused hkey hnext]
      rfl

/-! ## Many calls -/

/-- The answer of a key that has been ratcheted before, so many times or as often as
it could be. -/
def ratchetAnswer (salt : Bytes) (index : Int) (base : KeyMaterial) (earlier : Nat) : Answer :=
  .ratcheted (if earlier < base.left then .ok ((ratchetMaterial · salt)^[earlier + 1] base.raw)
    else .error (.ratchetExhausted index lastGeneration))

theorem ratchetAnswer_zero {salt : Bytes} {following : KeyMaterial}
    (h : base.ratchet salt = .ok following) :
    ratchetAnswer salt index base 0 = .ratcheted (.ok following.raw) := by
  have hleft := KeyMaterial.left_of_ratchet h
  rw [ratchetAnswer, if_pos (by omega), KeyMaterial.raw_of_ratchet h, Function.iterate_one]

theorem ratchetAnswer_succ {salt : Bytes} {following : KeyMaterial}
    (h : base.ratchet salt = .ok following) (earlier : Nat) :
    ratchetAnswer salt index base (earlier + 1) = ratchetAnswer salt index following earlier := by
  have hleft := KeyMaterial.left_of_ratchet h
  rw [ratchetAnswer, ratchetAnswer, Function.iterate_succ_apply, KeyMaterial.raw_of_ratchet h]
  by_cases hlt : earlier < following.left
  · rw [if_pos hlt, if_pos (by omega)]
  · rw [if_neg hlt, if_neg (by omega)]

theorem ratchetAnswer_of_refused {salt : Bytes} {error : CipherError}
    (h : base.ratchet salt = .error error) (earlier : Nat) :
    ratchetAnswer salt index base earlier =
      .ratcheted (.error (.ratchetExhausted index lastGeneration)) := by
  rw [ratchetAnswer, KeyMaterial.left_of_refused h, if_neg (Nat.not_lt_zero _)]

/-- The induction is on the calls. While the key can be ratcheted, what is left goes
down with each of them; afterwards they leave the store as it is. -/
theorem MadeFor.run_ratchets {calls : List StoreCall} (h : store.MadeFor options)
    (hring : store.ringOf? owner = some ring) (hkey : ring.key? index = some base)
    (hcalls : ∀ call ∈ calls, call.request = .ratchetKey index ∧ call.target options = owner) :
    (store.exchanges calls).map (·.answer) =
        (List.range calls.length).map (ratchetAnswer options.salt index base) ∧
      ∃ key, base.advance options.salt (min calls.length base.left) = .ok key ∧
        store.afterRun calls = store.withRingOf owner (ring.withKey index.toNat key) := by
  induction calls generalizing store ring base with
  | nil =>
      refine ⟨rfl, base, by rw [List.length_nil, Nat.zero_min]; rfl, ?_⟩
      rw [KeyRing.withKey_of_key? hkey, withRingOf_of_ringOf? hring, afterRun_nil]
  | cons call rest ih =>
      obtain ⟨⟨hcall, howner⟩, hrest⟩ := List.forall_mem_cons.mp hcalls
      have hperform := h.perform_ratchet hring hkey hcall howner
      rw [List.length_cons, List.range_succ_eq_map, List.map_cons, List.map_map, exchanges,
        List.map_cons, afterRun_cons]
      cases hnext : base.ratchet options.salt with
      | ok following =>
          rw [hnext] at hperform
          have hmade := h.withRingOf ((h.rings hring).withKey index.toNat following) owner
          have hplace : (store.withRingOf owner (ring.withKey index.toNat following)).ringOf? owner
              = some (ring.withKey index.toNat following) := by
            rw [ringOf?_withRingOf, if_pos rfl]
          obtain ⟨hanswers, key, hadvance, hafter⟩ :=
            ih hmade hplace (KeyRing.key?_withKey hkey following) hrest
          have hleft := KeyMaterial.left_of_ratchet hnext
          refine ⟨?_, key, ?_, ?_⟩
          · have hsucc : ratchetAnswer options.salt index base ∘ Nat.succ =
                ratchetAnswer options.salt index following := funext (ratchetAnswer_succ hnext)
            rw [hperform, hanswers, hsucc, ratchetAnswer_zero hnext]
          · rw [hleft, Nat.succ_min_succ]
            exact KeyMaterial.advance_succ_eq_ok_iff.mpr ⟨following, hnext, hadvance⟩
          · rw [hperform, hafter, withRingOf_withRingOf, KeyRing.withKey_withKey]
      | error error =>
          -- The remaining calls find the store as this one did.
          rw [hnext] at hperform
          obtain ⟨hanswers, key, hadvance, hafter⟩ := ih h hring hkey hrest
          have hleft := KeyMaterial.left_of_refused hnext
          refine ⟨?_, key, ?_, ?_⟩
          · have hsucc : ratchetAnswer options.salt index base ∘ Nat.succ =
                ratchetAnswer options.salt index base := funext fun earlier =>
              (ratchetAnswer_of_refused hnext _).trans (ratchetAnswer_of_refused hnext _).symm
            rw [hperform, hanswers, hsucc, ratchetAnswer_of_refused hnext]
          · rw [hleft, Nat.min_zero] at hadvance ⊢
            exact hadvance
          · rw [hperform, hafter]

/-! ## All or nothing, to the end -/

/-- Carried out in place, a key call that is refused leaves the store as it was, and one
that goes through does what is said of it here. A key that is there can be ratcheted,
in whatever ways, as often as its generation is before the last, each time to the
generation after; from then on the answer is that it is exhausted, at the last
generation, and the key that is there by then is there to be read. Nothing else in the
store is changed. -/
theorem key_calls_are_atomic_and_never_wrap (options : KeyOptions) :
    (∀ (store : KeyStore) (call : StoreCall),
      store.performInPlace call = store.perform call ∧
        ∀ error, (store.performInPlace call).1.refusal? = some error →
          (store.performInPlace call).2 = store) ∧
    ∀ {store : KeyStore}, Reached options store →
      ∀ {owner : Owner} {ring : KeyRing} {index : Int} {base : KeyMaterial},
      store.ringOf? owner = some ring → ring.key? index = some base →
      ∀ calls : List StoreCall,
        (∀ call ∈ calls, call.request = .ratchetKey index ∧ call.target options = owner) →
        let left := lastGeneration.toNat - base.generation.toNat
        let later := store.afterRun calls
        (store.exchanges calls).map (·.answer) =
            (List.range calls.length).map (fun earlier => .ratcheted
              (if earlier < left then .ok ((ratchetMaterial · options.salt)^[earlier + 1] base.raw)
              else .error (.ratchetExhausted index lastGeneration))) ∧
          ∃ key, base.advance options.salt (min calls.length left) = .ok key ∧
            key.generation.toNat = base.generation.toNat + min calls.length left ∧
            later = store.withRingOf owner (ring.withKey index.toNat key) ∧
            ∀ reading : StoreCall, reading.request = .getKey index →
              reading.target options = owner →
              later.perform reading = (.key (some key.raw), later) := by
  refine ⟨fun store call => ⟨performInPlace_eq store call, fun error hrefused => ?_⟩, ?_⟩
  · rw [performInPlace_eq] at hrefused ⊢
    exact perform_of_refusal? hrefused
  intro store hreached owner ring index base hring hkey calls hcalls left later
  have hmade := hreached.madeFor
  obtain ⟨hanswers, key, hadvance, hlater⟩ := hmade.run_ratchets hring hkey hcalls
  refine ⟨hanswers, key, hadvance, KeyMaterial.toNat_generation_of_advance hadvance, hlater, ?_⟩
  intro reading hreading hplace
  have hoptions : later.options = options := by
    rw [← hmade.options_eq]
    exact options_afterRun store calls
  have hfound : later.ringOf? owner = some (ring.withKey index.toNat key) := by
    rw [show later = _ from hlater, ringOf?_withRingOf, if_pos rfl]
  rw [perform_of_getKey hreading, hoptions, hplace, hfound, Option.bind_some,
    KeyRing.key?_withKey hkey, Option.map_some]

/-- A key with one generation left. -/
def nearlyLast : KeyMaterial := .atGeneration [1] [] 0xfffffffe

def agedRing : KeyRing := ⟨[], some 0, [none, some nearlyLast], 0, false⟩

def agedStore : KeyStore := ⟨oneRing, agedRing, []⟩

/-- A commit can take a key there at once, whatever the window and the tolerance are. -/
theorem reached_aged (window : UInt32) (tolerance : Option UInt32) :
    let options := { oneRing with window, tolerance }
    Reached options ⟨options, { agedRing with tolerance }, []⟩ := by
  intro options
  let young : KeyRing :=
    { agedRing with
      tolerance
      slots := [none, some (.supplied [1] [])] }
  have hnew : new options = .ok ⟨options, options.emptyRing, []⟩ := rfl
  have hset : Reached options ⟨options, young, []⟩ :=
    (Reached.new hnew).call (.shared (.setKey 1 [1]))
  have hring : (mk options young []).ringOf? .everyone = some young := rfl
  exact hset.ringCall hring (.commit 1 (.supplied [1] []) nearlyLast)

theorem reached_agedStore : Reached oneRing agedStore := reached_aged 0 (some 0)

/-- Whoever asks, the key is ratcheted once, and the last generation is there to stay. -/
theorem agedStore_never_wraps :
    let calls : List StoreCall := [.member ⟨"a"⟩ (.ratchetKey 1), .shared (.ratchetKey 1),
      .member ⟨"b"⟩ (.ratchetKey 1)]
    (agedStore.exchanges calls).map (·.answer) =
        [.ratcheted (.ok (ratchetMaterial [1] [])),
          .ratcheted (.error (.ratchetExhausted 1 lastGeneration)),
          .ratcheted (.error (.ratchetExhausted 1 lastGeneration))] ∧
      (agedStore.afterRun calls).perform (.member ⟨"a"⟩ (.getKey 1)) =
        (.key (some (ratchetMaterial [1] [])), agedStore.afterRun calls) := by
  intro calls
  have hcalls : ∀ call ∈ calls, call.request = .ratchetKey 1 ∧
      call.target oneRing = .everyone := by
    simp only [calls, List.forall_mem_cons, List.not_mem_nil, false_imp_iff, implies_true, and_true]
    exact ⟨⟨rfl, rfl⟩, ⟨rfl, rfl⟩, rfl, rfl⟩
  have hring : agedStore.ringOf? .everyone = some agedRing := rfl
  have hkey : agedRing.key? 1 = some nearlyLast := rfl
  have hleft : lastGeneration.toNat - nearlyLast.generation.toNat = 1 := by decide
  obtain ⟨hanswers, key, hadvance, -, -, hreading⟩ :=
    (key_calls_are_atomic_and_never_wrap oneRing).2 reached_agedStore hring hkey calls hcalls
  rw [hleft] at hanswers hadvance
  have hraw := KeyMaterial.raw_of_advance hadvance
  rw [show min calls.length 1 = 1 from rfl, Function.iterate_one] at hraw
  rw [show List.range calls.length = [0, 1, 2] from rfl] at hanswers
  refine ⟨hanswers.trans ?_, ?_⟩
  · simp only [List.map_cons, List.map_nil, Nat.zero_lt_one, if_true, Nat.lt_irrefl,
      Nat.not_succ_lt_self, if_false, Nat.zero_add, Function.iterate_one]
    rfl
  · rw [hreading (.member ⟨"a"⟩ (.getKey 1)) rfl rfl, hraw]
    rfl

end KeyStore

end MediaSeal
