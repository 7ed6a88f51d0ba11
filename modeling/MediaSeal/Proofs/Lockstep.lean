import MediaSeal.Proofs.ForwardSearch
import MediaSeal.Proofs.StoreKeys
import MediaSeal.Proofs.StoreRuns

/-!
# Two stores asked the same

Everything a store does for a participant it does with its options and one
ring, the participant's own or the shared one. So if two stores are set up
alike, and the rings that a call works on are related in a way that the
operations on rings respect, then both give the same answer, and what happens
to the ring in the one store happens in the other: it stays, or a ring is put
in its place that is related again, or it is taken out.

`Simulation` lists what a relation between rings has to respect; a lookup,
say, must not tell them apart. Equality does (`simulation_eq`), and then the
lemmas here say that an answer depends on nothing but that one ring, and that
nothing but that one ring is changed (`perform_cases`).
-/

namespace MediaSeal

/-! ## Whose ring it is -/

inductive Owner
  | participant (participant : Participant)
  | everyone
deriving DecidableEq

/-- Whose ring a participant uses. -/
def KeyOptions.ownerFor (options : KeyOptions) (participant : Participant) : Owner :=
  if options.shared then .everyone else .participant participant

/-- Whose ring a call works on. What is taken out is a participant's own ring,
whether it uses that one or not. -/
def StoreCall.target (options : KeyOptions) : StoreCall → Owner
  | .member participant .remove => .participant participant
  | .member participant _ => options.ownerFor participant
  | .shared _ => .everyone

namespace KeyStore

def ringOf? (store : KeyStore) : Owner → Option KeyRing
  | .participant participant => store.members.find? participant
  | .everyone => some store.sharedRing

def withRingOf (store : KeyStore) (owner : Owner) (ring : KeyRing) : KeyStore :=
  match owner with
  | .participant participant => { store with members := store.members.put participant ring }
  | .everyone => { store with sharedRing := ring }

@[simp] theorem options_withRingOf (store : KeyStore) (owner : Owner) (ring : KeyRing) :
    (store.withRingOf owner ring).options = store.options := by
  cases owner <;> rfl

theorem ringOf?_withRingOf (store : KeyStore) (owner other : Owner) (ring : KeyRing) :
    (store.withRingOf owner ring).ringOf? other =
      if owner = other then some ring else store.ringOf? other := by
  cases owner <;> cases other <;> simp [withRingOf, ringOf?, Members.find?_put]

/-- Putting back the ring that is there changes nothing. -/
theorem withRingOf_of_ringOf? {store : KeyStore} {owner : Owner} {ring : KeyRing}
    (h : store.ringOf? owner = some ring) : store.withRingOf owner ring = store := by
  cases owner with
  | participant participant => rw [withRingOf, Members.put_of_find? h]
  | everyone => rw [withRingOf, ← Option.some.inj h]

theorem withRingOf_withRingOf (store : KeyStore) (owner : Owner) (first second : KeyRing) :
    (store.withRingOf owner first).withRingOf owner second = store.withRingOf owner second := by
  cases owner with
  | participant participant => simp only [withRingOf, Members.put_put]
  | everyone => rfl

theorem ring?_eq_ringOf? (store : KeyStore) (participant : Participant) :
    store.ring? participant = store.ringOf? (store.options.ownerFor participant) := by
  unfold ring? KeyOptions.ownerFor
  split <;> rfl

theorem withRing_eq_withRingOf (store : KeyStore) (participant : Participant) (ring : KeyRing) :
    store.withRing participant ring =
      store.withRingOf (store.options.ownerFor participant) ring := by
  unfold withRing KeyOptions.ownerFor
  split <;> rfl

/-- Taking a participant out reaches no ring but its own. -/
theorem ringOf?_remove (store : KeyStore) (participant : Participant) (owner : Owner) :
    (store.remove participant).2.ringOf? owner =
      if owner = .participant participant then none else store.ringOf? owner := by
  cases owner <;> simp [remove, ringOf?, Members.find?_erase, eq_comm]

end KeyStore

/-! ## Relations that the operations on rings respect -/

/-- Both refused for one reason, or both went through with related results. -/
def Alike {ε α β : Type} (R : α → β → Prop) (outcome : Except ε α) (other : Except ε β) : Prop :=
  (∃ error, outcome = .error error ∧ other = .error error) ∨
    ∃ result result', outcome = .ok result ∧ other = .ok result' ∧ R result result'

/-- A relation between the rings of two stores that every operation respects.
Decrypting has to respect it only where it ends `Within` some bound. -/
structure KeyRing.Simulation (options : KeyOptions) (R : KeyRing → KeyRing → Prop)
    (Within : KeyRing → Prop) : Prop where
  emptyRing : R options.emptyRing options.emptyRing
  key?_eq {ring other : KeyRing} (h : R ring other) (index : Int) :
    other.key? index = ring.key? index
  invalidated_eq {ring other : KeyRing} (h : R ring other) : other.invalidated = ring.invalidated
  setKey {ring other : KeyRing} (h : R ring other) (index : Int) (raw : Bytes) :
    Alike R (ring.setKey index raw) (other.setKey index raw)
  ratchetKey {ring other : KeyRing} (h : R ring other) (index : Int) :
    Alike (fun result result' => result'.1 = result.1 ∧ R result.2 result'.2)
      (ring.ratchetKey index) (other.ratchetKey index)
  openSealed {ring other : KeyRing} (h : R ring other) {frame : SealedFrame} {base : KeyMaterial}
    (hkey : ring.key? frame.trailer.keyIndex.toNat = some base)
    (hwithin : Within (ring.openSealed options.window frame base).2) :
    (other.openSealed options.window frame base).1 =
        (ring.openSealed options.window frame base).1 ∧
      R (ring.openSealed options.window frame base).2
        (other.openSealed options.window frame base).2

theorem Alike.refl {ε α : Type} {R : α → α → Prop} (h : ∀ result, R result result)
    (outcome : Except ε α) : Alike R outcome outcome := by
  cases outcome with
  | error error => exact .inl ⟨error, rfl, rfl⟩
  | ok result => exact .inr ⟨result, result, rfl, rfl, h result⟩

theorem rel_refl {R : KeyRing → KeyRing → Prop} (h : ∀ ring, R ring ring)
    (found : Option KeyRing) : Option.Rel R found found := by
  cases found with
  | none => exact .none
  | some ring => exact .some (h ring)

theorem KeyRing.simulation_eq (options : KeyOptions) :
    KeyRing.Simulation options Eq (fun _ => True) where
  emptyRing := rfl
  key?_eq := by
    rintro ring _ rfl index
    rfl
  invalidated_eq := by
    rintro ring _ rfl
    rfl
  setKey := by
    rintro ring _ rfl index raw
    exact .refl (fun _ => rfl) _
  ratchetKey := by
    rintro ring _ rfl index
    exact .refl (fun _ => ⟨rfl, rfl⟩) _
  openSealed := by
    rintro ring _ rfl frame base - -
    exact ⟨rfl, rfl⟩

/-! ## Calls in lockstep -/

namespace KeyStore

/-- Both stores answer the same, and both are as they were, or have a related
ring put in, or have lost one. -/
inductive InStep (R : KeyRing → KeyRing → Prop) (store other : KeyStore) :
    (owner owner' : Owner) → (outcome outcome' : Answer × KeyStore) → Prop
  | still {owner owner' : Owner} (answer : Answer) :
      InStep R store other owner owner' (answer, store) (answer, other)
  | moved {owner owner' : Owner} (answer : Answer) {ring ring' : KeyRing} (h : R ring ring') :
      InStep R store other owner owner' (answer, store.withRingOf owner ring)
        (answer, other.withRingOf owner' ring')
  | removed {participant participant' : Participant} (answer : Answer) :
      InStep R store other (.participant participant) (.participant participant')
        (answer, (store.remove participant).2) (answer, (other.remove participant').2)

section

variable {options : KeyOptions} {R : KeyRing → KeyRing → Prop} {Within : KeyRing → Prop}
  {store other : KeyStore} {owner owner' : Owner} {participant participant' : Participant}

/-- Whatever holds of the stores as they were, and still holds with related
rings put in or rings taken out, holds after a call. -/
theorem InStep.agree {P : KeyStore → KeyStore → Prop} {outcome outcome' : Answer × KeyStore}
    (h : InStep R store other owner owner' outcome outcome') (hstill : P store other)
    (hmoved : ∀ {ring ring'}, R ring ring' →
      P (store.withRingOf owner ring) (other.withRingOf owner' ring'))
    (hremoved : ∀ {participant participant'}, owner = .participant participant →
      owner' = .participant participant' →
      P (store.remove participant).2 (other.remove participant').2) :
    outcome'.1 = outcome.1 ∧ P outcome.2 outcome'.2 := by
  cases h with
  | still answer => exact ⟨rfl, hstill⟩
  | moved answer h => exact ⟨rfl, hmoved h⟩
  | removed answer => exact ⟨rfl, hremoved rfl rfl⟩

theorem checkIndex_congr (hoptions : other.options = store.options) (index : Int) :
    other.checkIndex index = store.checkIndex index := by
  rw [checkIndex, checkIndex, hoptions]

theorem keySlot_congr (hoptions : other.options = store.options) (index : Int) :
    other.keySlot index = store.keySlot index := by
  rw [keySlot, keySlot, hoptions]

theorem rel_ring? (hoptions : other.options = store.options)
    (hring : Option.Rel R (store.ringOf? (store.options.ownerFor participant))
      (other.ringOf? (store.options.ownerFor participant'))) :
    Option.Rel R (store.ring? participant) (other.ring? participant') := by
  rw [ring?_eq_ringOf?, ring?_eq_ringOf?, hoptions]
  exact hring

/-- Related rings hold the same keys, also where there is no ring. -/
theorem bind_key?_congr (hsim : KeyRing.Simulation options R Within) {found found' : Option KeyRing}
    (hring : Option.Rel R found found') (index : Int) :
    found'.bind (·.key? index) = found.bind (·.key? index) := by
  cases hring with
  | none => rfl
  | some h => exact hsim.key?_eq h index

theorem setKey_inStep (hsim : KeyRing.Simulation store.options R Within)
    (hoptions : other.options = store.options)
    (hring : Option.Rel R (store.ring? participant) (other.ring? participant'))
    (index : Int) (raw : Bytes) :
    InStep R store other (store.options.ownerFor participant) (store.options.ownerFor participant')
      (store.ask participant (.setKey index raw)) (other.ask participant' (.setKey index raw)) := by
  have hgetD : R ((store.ring? participant).getD store.options.emptyRing)
      ((other.ring? participant').getD store.options.emptyRing) := by
    generalize store.ring? participant = found, other.ring? participant' = found' at hring
    cases hring with
    | none => exact hsim.emptyRing
    | some h => exact h
  simp only [ask, setKey, checkIndex_congr hoptions, withRing_eq_withRingOf, hoptions]
  cases store.checkIndex index with
  | error error => exact .still _
  | ok _ =>
      simp only [bind, Except.bind, pure, Except.pure]
      rcases hsim.setKey hgetD index raw with
        ⟨error, herror, herror'⟩ | ⟨ring, ring', hset, hset', h⟩
      · rw [herror, herror']
        exact .still _
      · rw [hset, hset']
        exact .moved _ h

theorem ratchetKey_inStep (hsim : KeyRing.Simulation store.options R Within)
    (hoptions : other.options = store.options)
    (hring : Option.Rel R (store.ring? participant) (other.ring? participant')) (index : Int) :
    InStep R store other (store.options.ownerFor participant) (store.options.ownerFor participant')
      (store.ask participant (.ratchetKey index)) (other.ask participant' (.ratchetKey index)) := by
  simp only [ask, ratchetKey, checkIndex_congr hoptions, withRing_eq_withRingOf, hoptions]
  cases store.checkIndex index with
  | error error => exact .still _
  | ok _ =>
      simp only [bind, Except.bind, pure, Except.pure]
      generalize store.ring? participant = found, other.ring? participant' = found' at hring ⊢
      cases hring with
      | none => exact .still _
      | some h =>
          rcases hsim.ratchetKey h index with
            ⟨error, herror, herror'⟩ | ⟨⟨raw, ring⟩, ⟨_, ring'⟩, hset, hset', rfl, hrings⟩
          · simp only [herror, herror']
            exact .still _
          · simp only [hset, hset']
            exact .moved _ hrings

theorem encryptWith_congr (hsim : KeyRing.Simulation store.options R Within)
    (hoptions : other.options = store.options)
    (hring : Option.Rel R (store.ring? participant) (other.ring? participant'))
    (algorithm : Algorithm) (index : Int) (frame : Frame) (iv : Bytes) :
    frame.encryptWith other participant' algorithm index iv =
      frame.encryptWith store participant algorithm index iv := by
  simp only [Frame.encryptWith, sealingKey, keySlot_congr hoptions, hoptions,
    bind_key?_congr hsim hring]

/-- A payload gets equally far in both stores: it is dealt with before any
ring is touched, or it reaches the cipher under one key. -/
theorem decrypt_equally_far (hsim : KeyRing.Simulation store.options R Within)
    (hoptions : other.options = store.options)
    (hring : Option.Rel R (store.ring? participant) (other.ring? participant'))
    (algorithm : Algorithm) (payload : Bytes) :
    (∃ result, store.decrypt participant algorithm payload = (result, store) ∧
        other.decrypt participant' algorithm payload = (result, other)) ∨
      ∃ frame ring ring' base, R ring ring' ∧
        store.ReachesCipher participant algorithm payload frame ring base ∧
        other.ReachesCipher participant' algorithm payload frame ring' base := by
  unfold KeyStore.decrypt
  simp only [hoptions, keySlot_congr hoptions]
  by_cases hempty : payload = []
  · subst hempty
    exact .inl ⟨_, rfl, rfl⟩
  have hisEmpty := List.isEmpty_eq_false_iff.mpr hempty
  simp only [hisEmpty, Bool.false_eq_true, if_false]
  cases hmarker : Marker.strip? store.options.marker payload with
  | some clear => exact .inl ⟨_, rfl, rfl⟩
  | none =>
      cases hparse : SealedFrame.parse payload with
      | error cause => exact .inl ⟨_, rfl, rfl⟩
      | ok frame =>
          by_cases halgorithm : frame.trailer.algorithm = algorithm
          · simp only [halgorithm, ne_eq, not_true_eq_false, if_false]
            cases hslot : store.keySlot frame.trailer.keyIndex.toNat with
            | error error => exact .inl ⟨_, rfl, rfl⟩
            | ok slot =>
                obtain ⟨hindex, hlt⟩ := keySlot_eq_ok_iff.mp hslot
                rw [← Int.natCast_inj.mp hindex] at hlt
                generalize hfound : store.ring? participant = found,
                  hfound' : other.ring? participant' = found' at hring ⊢
                cases hring with
                | none => exact .inl ⟨_, rfl, rfl⟩
                | @some ring ring' h =>
                    have hkeys := hsim.key?_eq h
                    have hsame := hsim.invalidated_eq h
                    simp only [hkeys, hsame]
                    cases hkey : ring.key? frame.trailer.keyIndex.toNat with
                    | none => exact .inl ⟨_, rfl, rfl⟩
                    | some base =>
                        cases hvalid : ring.invalidated with
                        | true => exact .inl ⟨_, rfl, rfl⟩
                        | false =>
                            refine .inr ⟨frame, ring, ring', base, h, ?_, ?_⟩
                            · exact ⟨hempty, hmarker, hparse, halgorithm, hlt, hfound, hkey, hvalid⟩
                            · exact ⟨hempty, hoptions ▸ hmarker, hparse, halgorithm,
                                hoptions ▸ hlt, hfound', (hkeys _).trans hkey, hsame.trans hvalid⟩
          · exact .inl ⟨_, if_pos halgorithm, if_pos halgorithm⟩

theorem decrypt_inStep (hsim : KeyRing.Simulation store.options R Within)
    (hoptions : other.options = store.options)
    (hring : Option.Rel R (store.ring? participant) (other.ring? participant'))
    (algorithm : Algorithm) (payload : Bytes)
    (hwithin : ∀ ring, (store.decrypt participant algorithm payload).2.ringOf?
      (store.options.ownerFor participant) = some ring → Within ring) :
    InStep R store other (store.options.ownerFor participant) (store.options.ownerFor participant')
      (store.ask participant (.decrypt algorithm payload))
      (other.ask participant' (.decrypt algorithm payload)) := by
  simp only [ask]
  rcases decrypt_equally_far hsim hoptions hring algorithm payload with
    ⟨result, hstore, hother⟩ | ⟨frame, ring, ring', base, h, hreaches, hreaches'⟩
  · rw [hstore, hother]
    exact .still _
  · rw [hreaches.decrypt_eq] at hwithin ⊢
    rw [hreaches'.decrypt_eq]
    simp only [withRing_eq_withRingOf, hoptions] at hwithin ⊢
    obtain ⟨hresult, hafter⟩ := hsim.openSealed h hreaches.key_eq
      (hwithin _ (by rw [ringOf?_withRingOf, if_pos rfl]))
    rw [hresult]
    exact .moved _ hafter

theorem remove_inStep
    (hring : Option.Rel R (store.members.find? participant) (other.members.find? participant')) :
    InStep R store other (.participant participant) (.participant participant')
      (store.ask participant .remove) (other.ask participant' .remove) := by
  have hfound : (other.members.find? participant').isSome =
      (store.members.find? participant).isSome := by
    generalize store.members.find? participant = found,
      other.members.find? participant' = found' at hring ⊢
    cases hring <;> rfl
  simp only [ask, remove, hfound]
  exact .removed _

/-- A call on behalf of a participant in the one store, and on behalf of a
participant in the other. -/
theorem ask_inStep (hsim : KeyRing.Simulation store.options R Within)
    (hoptions : other.options = store.options) {call : MemberCall}
    (hring : Option.Rel R
      (store.ringOf? ((StoreCall.member participant call).target store.options))
      (other.ringOf? ((StoreCall.member participant' call).target store.options)))
    (hwithin : ∀ ring, (store.ask participant call).2.ringOf?
      ((StoreCall.member participant call).target store.options) = some ring → Within ring) :
    InStep R store other ((StoreCall.member participant call).target store.options)
      ((StoreCall.member participant' call).target store.options)
      (store.ask participant call) (other.ask participant' call) := by
  cases call with
  | setKey index raw => exact setKey_inStep hsim hoptions (rel_ring? hoptions hring) index raw
  | ratchetKey index => exact ratchetKey_inStep hsim hoptions (rel_ring? hoptions hring) index
  | getKey index =>
      have hanswer : other.getKey? participant' index = store.getKey? participant index := by
        rw [getKey?_eq, getKey?_eq, key?, key?, bind_key?_congr hsim (rel_ring? hoptions hring)]
      simp only [ask, hanswer]
      exact .still _
  | remove => exact remove_inStep hring
  | encrypt algorithm index frame iv =>
      simp only [ask, encryptWith_congr hsim hoptions (rel_ring? hoptions hring)]
      exact .still _
  | decrypt algorithm payload =>
      exact decrypt_inStep hsim hoptions (rel_ring? hoptions hring) algorithm payload hwithin

/-- A call on the shared rings of both stores. -/
theorem askShared_inStep (hsim : KeyRing.Simulation store.options R Within)
    (hoptions : other.options = store.options) (hring : R store.sharedRing other.sharedRing)
    (call : SharedCall) :
    InStep R store other .everyone .everyone (store.askShared call) (other.askShared call) := by
  cases call with
  | setKey index raw =>
      simp only [askShared, setSharedKey, checkIndex_congr hoptions]
      cases store.checkIndex index with
      | error error => exact .still _
      | ok _ =>
          simp only [bind, Except.bind, pure, Except.pure]
          rcases hsim.setKey hring index raw with
            ⟨error, herror, herror'⟩ | ⟨ring, ring', hset, hset', h⟩
          · rw [herror, herror']
            exact .still _
          · rw [hset, hset']
            exact .moved _ h
  | ratchetKey index =>
      simp only [askShared, ratchetSharedKey, checkIndex_congr hoptions]
      cases store.checkIndex index with
      | error error => exact .still _
      | ok _ =>
          simp only [bind, Except.bind, pure, Except.pure]
          rcases hsim.ratchetKey hring index with
            ⟨error, herror, herror'⟩ | ⟨⟨raw, ring⟩, ⟨_, ring'⟩, hset, hset', rfl, hrings⟩
          · simp only [herror, herror']
            exact .still _
          · simp only [hset, hset']
            exact .moved _ hrings
  | getKey index =>
      simp only [askShared, getSharedKey?, hsim.key?_eq hring]
      exact .still _

/-- One call made in both stores. -/
theorem perform_inStep (hsim : KeyRing.Simulation store.options R Within)
    (hoptions : other.options = store.options) {call : StoreCall}
    (hring : Option.Rel R (store.ringOf? (call.target store.options))
      (other.ringOf? (call.target store.options)))
    (hwithin : ∀ ring, (store.perform call).2.ringOf? (call.target store.options) = some ring →
      Within ring) :
    InStep R store other (call.target store.options) (call.target store.options)
      (store.perform call) (other.perform call) := by
  cases call with
  | shared call =>
      cases hring with
      | some h => exact askShared_inStep hsim hoptions h call
  | member participant call => exact ask_inStep hsim hoptions hring hwithin

/-- What a call can do to a store: nothing, or it puts a ring in where it
works, or takes out the ring that is there. -/
theorem perform_cases (store : KeyStore) (call : StoreCall) :
    (store.perform call).2 = store ∨
      (∃ ring, (store.perform call).2 = store.withRingOf (call.target store.options) ring) ∨
      ∃ participant, call.target store.options = .participant participant ∧
        (store.perform call).2 = (store.remove participant).2 := by
  have hself : Option.Rel Eq (store.ringOf? (call.target store.options))
      (store.ringOf? (call.target store.options)) := rel_refl (fun _ => rfl) _
  have hstep := perform_inStep (KeyRing.simulation_eq store.options) rfl hself fun _ _ => trivial
  obtain ⟨-, hcases⟩ := hstep.agree (P := fun after _ => after = store ∨
      (∃ ring, after = store.withRingOf (call.target store.options) ring) ∨
      ∃ participant, call.target store.options = .participant participant ∧
        after = (store.remove participant).2)
    (.inl rfl) (fun _ => .inr (.inl ⟨_, rfl⟩))
    (fun howner _ => .inr (.inr ⟨_, howner, rfl⟩))
  exact hcases

@[simp] theorem options_perform (store : KeyStore) (call : StoreCall) :
    (store.perform call).2.options = store.options := by
  rcases store.perform_cases call with hsame | ⟨ring, hring⟩ | ⟨participant, -, hremove⟩
  · rw [hsame]
  · rw [hring, options_withRingOf]
  · rw [hremove]
    rfl

@[simp] theorem options_afterRun (store : KeyStore) (calls : List StoreCall) :
    (store.afterRun calls).options = store.options := by
  induction calls generalizing store with
  | nil => rfl
  | cons call rest ih => rw [afterRun_cons, ih, options_perform]

end

end KeyStore

end MediaSeal
