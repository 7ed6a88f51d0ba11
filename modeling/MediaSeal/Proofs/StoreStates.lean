import MediaSeal.Proofs.Lockstep
import MediaSeal.Proofs.RingHistory

/-!
# The states that a store can be in

Between being set up and being looked at, a store has served calls, and those who
hold on to one of its rings have worked on that ring directly. They need not have
been careful: a commit can put any material whatever into a slot. So there is little
to be said about the keys in a store, and nothing about its failures. But no call
changes the options or how a ring is set up. Each ring has as many slots as the
options say, and ratchets with the salt that they name.
-/

namespace MediaSeal

/-! ## How a ring is set up -/

/-- A ring as the options ask for, whatever is in it. -/
structure KeyRing.MadeFor (options : KeyOptions) (ring : KeyRing) : Prop where
  size_eq : ring.size = options.ringSize
  salt_eq : ring.salt = options.salt
  tolerance_eq : ring.tolerance = options.tolerance

namespace KeyRing

variable {options : KeyOptions} {ring other : KeyRing}

theorem madeFor_emptyRing (options : KeyOptions) : options.emptyRing.MadeFor options :=
  ⟨size_empty _ _ _, rfl, rfl⟩

theorem MadeFor.apply (h : ring.MadeFor options) (call : RingCall) :
    (call.apply ring).MadeFor options := by
  obtain ⟨hsize, hsalt, htolerance⟩ := RingCall.setup_apply ring call
  exact ⟨hsize.trans h.size_eq, hsalt.trans h.salt_eq, htolerance.trans h.tolerance_eq⟩

theorem MadeFor.setKey (h : ring.MadeFor options) {index : Int} {raw : Bytes}
    (hset : ring.setKey index raw = .ok other) : other.MadeFor options := by
  have happly := h.apply (.setKey index raw)
  rwa [RingCall.apply, hset] at happly

theorem MadeFor.ratchetKey (h : ring.MadeFor options) {index : Int} {raw : Bytes}
    (hratchet : ring.ratchetKey index = .ok (raw, other)) : other.MadeFor options := by
  have happly := h.apply (.ratchetKey index)
  rwa [RingCall.apply, hratchet] at happly

theorem MadeFor.openSealed (h : ring.MadeFor options) (window : UInt32) (frame : SealedFrame)
    (base : KeyMaterial) : (ring.openSealed window frame base).2.MadeFor options := by
  unfold KeyRing.openSealed
  cases frame.findKey? ring.salt window.toNat 0 base with
  | some found =>
      exact (h.apply (.commit frame.trailer.keyIndex.toNat base found.key)).apply .recordSuccess
  | none => exact h.apply .recordFailure

/-- A store puts rings in place that are made like those it had. -/
theorem simulation_madeFor (options : KeyOptions) :
    Simulation options (fun ring other => other = ring ∧ ring.MadeFor options)
      (fun _ => True) where
  emptyRing := ⟨rfl, madeFor_emptyRing options⟩
  key?_eq := by
    rintro _ ring ⟨rfl, -⟩ index
    rfl
  invalidated_eq := by
    rintro _ ring ⟨rfl, -⟩
    rfl
  setKey := by
    rintro _ ring ⟨rfl, h⟩ index raw
    cases hset : ring.setKey index raw with
    | error error => exact .inl ⟨error, rfl, rfl⟩
    | ok changed => exact .inr ⟨changed, changed, rfl, rfl, rfl, h.setKey hset⟩
  ratchetKey := by
    rintro _ ring ⟨rfl, h⟩ index
    cases hratchet : ring.ratchetKey index with
    | error error => exact .inl ⟨error, rfl, rfl⟩
    | ok result => exact .inr ⟨result, result, rfl, rfl, rfl, rfl, h.ratchetKey hratchet⟩
  openSealed := by
    rintro _ ring ⟨rfl, h⟩ frame base - -
    exact ⟨rfl, rfl, h.openSealed _ frame base⟩

end KeyRing

/-! ## How a store is set up -/

namespace KeyStore

/-- The states of a store with these options: as new, after a call on it, and after
a call on a ring of it. -/
inductive Reached (options : KeyOptions) : KeyStore → Prop
  | new {store : KeyStore} (h : KeyStore.new options = .ok store) : Reached options store
  | call {store : KeyStore} (h : Reached options store) (call : StoreCall) :
      Reached options (store.perform call).2
  | ringCall {store : KeyStore} (h : Reached options store) {owner : Owner} {ring : KeyRing}
      (found : store.ringOf? owner = some ring) (call : RingCall) :
      Reached options (store.withRingOf owner (call.apply ring))

/-- Options and rings that belong together. -/
structure MadeFor (options : KeyOptions) (store : KeyStore) : Prop where
  options_eq : store.options = options
  rings : ∀ {owner ring}, store.ringOf? owner = some ring → ring.MadeFor options

variable {options : KeyOptions} {store : KeyStore}

theorem madeFor_of_new (h : KeyStore.new options = .ok store) : store.MadeFor options := by
  obtain ⟨-, rfl⟩ := new_eq_ok_iff.mp h
  refine ⟨rfl, fun {owner ring} hring => ?_⟩
  cases owner with
  | participant participant => cases hring
  | everyone =>
      obtain rfl := Option.some.inj hring
      exact KeyRing.madeFor_emptyRing options

/-- The ring that a key is set in, whether it is there already or not. -/
theorem MadeFor.getD_emptyRing (h : store.MadeFor options) (owner : Owner) :
    ((store.ringOf? owner).getD store.options.emptyRing).MadeFor options := by
  cases hring : store.ringOf? owner with
  | some ring => exact h.rings hring
  | none => exact h.options_eq ▸ KeyRing.madeFor_emptyRing store.options

theorem MadeFor.withRingOf (h : store.MadeFor options) {ring : KeyRing}
    (hring : ring.MadeFor options) (owner : Owner) :
    (store.withRingOf owner ring).MadeFor options where
  options_eq := (options_withRingOf store owner ring).trans h.options_eq
  rings := by
    intro other found hfound
    rw [ringOf?_withRingOf] at hfound
    split at hfound
    · exact Option.some.inj hfound ▸ hring
    · exact h.rings hfound

theorem MadeFor.remove (h : store.MadeFor options) (participant : Participant) :
    (store.remove participant).2.MadeFor options where
  options_eq := h.options_eq
  rings := by
    intro owner ring hring
    rw [ringOf?_remove] at hring
    split at hring
    · cases hring
    · exact h.rings hring

theorem MadeFor.perform (h : store.MadeFor options) (call : StoreCall) :
    (store.perform call).2.MadeFor options := by
  have hrings : Option.Rel (fun ring other => other = ring ∧ ring.MadeFor store.options)
      (store.ringOf? (call.target store.options)) (store.ringOf? (call.target store.options)) := by
    cases hring : store.ringOf? (call.target store.options) with
    | none => exact .none
    | some ring => exact .some ⟨rfl, h.options_eq ▸ h.rings hring⟩
  have hstep := perform_inStep (KeyRing.simulation_madeFor store.options) rfl hrings
    fun _ _ => trivial
  have hagree := hstep.agree (P := fun after _ => after.MadeFor options) h
    (fun ⟨_, hring⟩ => h.withRingOf (h.options_eq ▸ hring) _) (fun _ _ => h.remove _)
  exact hagree.2

theorem Reached.madeFor (h : Reached options store) : store.MadeFor options := by
  induction h with
  | new hnew => exact madeFor_of_new hnew
  | call _ call ih => exact ih.perform call
  | ringCall _ found call ih => exact ih.withRingOf ((ih.rings found).apply call) _

theorem Reached.fault?_eq_none (h : Reached options store) : options.fault? = none := by
  induction h with
  | new hnew => exact (new_eq_ok_iff.mp hnew).1
  | call _ _ ih => exact ih
  | ringCall _ _ _ ih => exact ih

end KeyStore

end MediaSeal
