import MediaSeal.Key.Store
import MediaSeal.Proofs.Generations

/-!
# The keys of a store

Seen from outside, a store is a table: for each participant and each index the
key that is there, if any. Which ring a key sits in shows only in how far a
change reaches. In shared mode all participants have one row, so what is done
for one of them is done for all; otherwise each has a row of its own.

`KeyCall.effect` says what a call does to one place of the table, and
`key?_after` that it does this and nothing else. It takes stores whose rings
are the size that the options say, since the store checks an index against the
options and the ring checks it against its slots.
-/

namespace MediaSeal

/-! ## Rings as the options ask for -/

/-- A ring is set up as the options say and holds keys made with their salt,
and no failures have put it out of use unless they may. -/
structure KeyRing.Fits (options : KeyOptions) (ring : KeyRing) : Prop where
  size_eq : ring.size = options.ringSize
  salt_eq : ring.salt = options.salt
  tolerance_eq : ring.tolerance = options.tolerance
  valid : options.tolerance = none → ring.invalidated = false
  derived : ∀ {index key}, ring.key? index = some key → key.Derived options.salt

namespace KeyRing

variable {options : KeyOptions} {ring other : KeyRing} {index : Int} {raw : Bytes}

theorem fits_emptyRing (options : KeyOptions) : options.emptyRing.Fits options where
  size_eq := size_empty _ _ _
  salt_eq := rfl
  tolerance_eq := rfl
  valid := fun _ => rfl
  derived := by
    intro index key hkey
    rw [KeyOptions.emptyRing, key?_empty] at hkey
    cases hkey

/-- A ring that differs in one slot, where there is a proper key now. -/
theorem Fits.set {slot : Nat} {key : KeyMaterial} (h : ring.Fits options)
    (hslots : other.slots = ring.slots.set slot (some key)) (hslot : slot < ring.size)
    (hsalt : other.salt = ring.salt) (htolerance : other.tolerance = ring.tolerance)
    (hvalid : ring.invalidated = false → other.invalidated = false)
    (hderived : key.Derived options.salt) : other.Fits options where
  size_eq := by rw [← h.size_eq, KeyRing.size, hslots, List.length_set, KeyRing.size]
  salt_eq := hsalt.trans h.salt_eq
  tolerance_eq := htolerance.trans h.tolerance_eq
  valid := fun hnone => hvalid (h.valid hnone)
  derived := by
    intro index found hfound
    rw [key?_set hslots hslot] at hfound
    split at hfound
    · injection hfound with hfound
      exact hfound ▸ hderived
    · exact h.derived hfound

theorem Fits.setKey (h : ring.Fits options) (hset : ring.setKey index raw = .ok other) :
    other.Fits options := by
  obtain ⟨slot, -, hslot, rfl⟩ := setKey_eq_ok_iff.mp hset
  refine h.set rfl hslot rfl rfl (fun _ => rfl) ?_
  rw [h.salt_eq]
  exact KeyMaterial.derived_supplied raw options.salt

theorem Fits.ratchetKey (h : ring.Fits options)
    (hratchet : ring.ratchetKey index = .ok (raw, other)) : other.Fits options := by
  obtain ⟨slot, key, next, -, hslot, -, hnext, -, rfl⟩ := ratchetKey_eq_ok_iff.mp hratchet
  rw [h.salt_eq] at hnext
  exact h.set rfl hslot rfl rfl id (KeyMaterial.derived_of_ratchet hnext)

end KeyRing

/-! ## The table -/

namespace KeyStore

/-- The key for a participant at an index. -/
def key? (store : KeyStore) (participant : Participant) (index : Int) : Option KeyMaterial :=
  (store.ring? participant).bind (·.key? index)

/-- Every ring in use fits the store's options. -/
structure Sound (store : KeyStore) : Prop where
  fits : ∀ {participant ring}, store.ring? participant = some ring → ring.Fits store.options

variable {store other : KeyStore} {participant : Participant} {index : Int} {ring : KeyRing}

theorem key?_of_ring? (h : store.ring? participant = some ring) (index : Int) :
    store.key? participant index = ring.key? index := by
  rw [key?, h, Option.bind_some]

theorem key?_of_no_ring? (h : store.ring? participant = none) (index : Int) :
    store.key? participant index = none := by
  rw [key?, h, Option.bind_none]

theorem key?_eq_some_iff {key : KeyMaterial} :
    store.key? participant index = some key ↔
      ∃ ring, store.ring? participant = some ring ∧ ring.key? index = some key :=
  Option.bind_eq_some_iff

theorem getKey?_eq (store : KeyStore) (participant : Participant) (index : Int) :
    store.getKey? participant index = (store.key? participant index).map (·.raw) := by
  rw [getKey?, key?]
  cases store.ring? participant with
  | none => rfl
  | some ring => cases h : ring.key? index <;> simp [h]

theorem new_eq_ok_iff {options : KeyOptions} :
    new options = .ok store ↔
      options.fault? = none ∧ store = ⟨options, options.emptyRing, []⟩ := by
  unfold new
  cases options.fault? with
  | none => simp [eq_comm]
  | some fault => simp

theorem sound_of_new {options : KeyOptions} (h : new options = .ok store) : store.Sound where
  fits := by
    obtain ⟨-, rfl⟩ := new_eq_ok_iff.mp h
    intro participant ring hring
    unfold ring? at hring
    split at hring
    · injection hring with hring
      subst hring
      exact KeyRing.fits_emptyRing options
    · cases hring

theorem Sound.withRing (h : store.Sound) (hring : ring.Fits store.options)
    (participant : Participant) : (store.withRing participant ring).Sound where
  fits := by
    intro other found hfound
    rw [ring?_withRing] at hfound
    rw [options_withRing]
    split at hfound
    · injection hfound with hfound
      exact hfound ▸ hring
    · exact h.fits hfound

theorem key?_withRing (store : KeyStore) (participant other : Participant) (ring : KeyRing)
    (index : Int) :
    (store.withRing participant ring).key? other index =
      if store.options.shared = true ∨ participant = other then ring.key? index
      else store.key? other index := by
  rw [key?, ring?_withRing]
  split
  · rfl
  · rfl

theorem ring?_remove (store : KeyStore) (participant other : Participant) :
    (store.remove participant).2.ring? other =
      if store.options.shared = false ∧ participant = other then none
      else store.ring? other := by
  unfold remove ring?
  by_cases hshared : store.options.shared = true
  · simp [hshared]
  · simp [hshared, Members.find?_erase]

/-- Participants whose rows are one row. -/
theorem key?_of_same_row {other : Participant}
    (h : store.options.shared = true ∨ participant = other) (index : Int) :
    store.key? other index = store.key? participant index := by
  rcases h with hshared | rfl
  · simp only [key?, ring?, hshared, if_true]
  · rfl

/-- Putting back the ring that is there changes no key. -/
theorem key?_withRing_of_ring? (h : store.ring? participant = some ring) (other : Participant)
    (index : Int) : (store.withRing participant ring).key? other index =
      store.key? other index := by
  rw [key?_withRing]
  split
  · next hrow => rw [key?_of_same_row hrow, key?_of_ring? h]
  · rfl

end KeyStore

/-! ## Calls that manage keys -/

/-- A call that sets, advances or takes away keys. -/
inductive KeyCall
  | setKey (participant : Participant) (index : Int) (raw : Bytes)
  | ratchetKey (participant : Participant) (index : Int)
  | remove (participant : Participant)

/-- The next generation, or the same if there is none. -/
def KeyMaterial.nextOrLast (salt : Bytes) (key : KeyMaterial) : KeyMaterial :=
  match key.ratchet salt with
  | .ok next => next
  | .error _ => key

/-- What a call does to the key of a participant at an index. -/
def KeyCall.effect (options : KeyOptions) (call : KeyCall) (participant : Participant)
    (index : Int) (key : Option KeyMaterial) : Option KeyMaterial :=
  match call with
  | setKey other place raw =>
      if (options.shared = true ∨ other = participant) ∧ index = place ∧
          0 ≤ place ∧ place < options.ringSize then
        some (.supplied raw options.salt)
      else key
  | ratchetKey other place =>
      if (options.shared = true ∨ other = participant) ∧ index = place then
        key.map (·.nextOrLast options.salt)
      else key
  | remove other => if options.shared = false ∧ other = participant then none else key

namespace KeyStore

/-- The store after a call; a call that is refused changes nothing. -/
def after (store : KeyStore) : KeyCall → KeyStore
  | .setKey participant index raw =>
      match store.setKey participant index raw with
      | .ok changed => changed
      | .error _ => store
  | .ratchetKey participant index =>
      match store.ratchetKey participant index with
      | .ok (_, changed) => changed
      | .error _ => store
  | .remove participant => (store.remove participant).2

variable {store other : KeyStore} {participant : Participant} {index : Int} {raw : Bytes}

theorem checkIndex_eq_ok_iff :
    store.checkIndex index = .ok () ↔ 0 ≤ index ∧ index.toNat < store.options.ringSize := by
  unfold checkIndex
  split
  · next h => simp only [h, and_self]
  · next h => simp only [h, reduceCtorEq]

theorem checkIndex_eq_error (h : ¬ (0 ≤ index ∧ index.toNat < store.options.ringSize)) :
    store.checkIndex index = .error (.invalidIndex index store.options.ringSize) := by
  rw [checkIndex, if_neg h]

theorem setKey_eq_ok_iff :
    store.setKey participant index raw = .ok other ↔
      (0 ≤ index ∧ index.toNat < store.options.ringSize) ∧
        ∃ ring, ((store.ring? participant).getD store.options.emptyRing).setKey index raw =
            .ok ring ∧ other = store.withRing participant ring := by
  unfold setKey
  by_cases h : 0 ≤ index ∧ index.toNat < store.options.ringSize
  · rw [checkIndex_eq_ok_iff.mpr h]
    cases hset : ((store.ring? participant).getD store.options.emptyRing).setKey index raw <;>
      simp [h, hset, bind, Except.bind, pure, Except.pure, eq_comm]
  · rw [checkIndex_eq_error h]
    simp [h, bind, Except.bind]

theorem ratchetKey_eq_ok_iff :
    store.ratchetKey participant index = .ok (raw, other) ↔
      (0 ≤ index ∧ index.toNat < store.options.ringSize) ∧
        ∃ ring changed, store.ring? participant = some ring ∧
          ring.ratchetKey index = .ok (raw, changed) ∧
          other = store.withRing participant changed := by
  unfold ratchetKey
  by_cases h : 0 ≤ index ∧ index.toNat < store.options.ringSize
  · rw [checkIndex_eq_ok_iff.mpr h]
    cases store.ring? participant with
    | none => simp [bind, Except.bind]
    | some ring =>
        cases hratchet : ring.ratchetKey index with
        | error error => simp [hratchet, bind, Except.bind]
        | ok result =>
            obtain ⟨found, changed⟩ := result
            simp only [h, hratchet, bind, Except.bind, pure, Except.pure, Except.ok.injEq,
              Option.some.injEq, Prod.mk.injEq, and_self, true_and]
            constructor
            · intro hpair
              obtain ⟨rfl, rfl⟩ := hpair
              exact ⟨ring, changed, rfl, hratchet.trans rfl, rfl⟩
            · intro hfound
              obtain ⟨_, _, rfl, hagain, rfl⟩ := hfound
              rw [hratchet] at hagain
              cases hagain
              exact ⟨rfl, rfl⟩
  · rw [checkIndex_eq_error h]
    simp [h, bind, Except.bind]

/-! ## What a call does -/

@[simp] theorem options_after (store : KeyStore) (call : KeyCall) :
    (store.after call).options = store.options := by
  cases call with
  | setKey participant index raw =>
      cases h : store.setKey participant index raw with
      | error error => simp only [after, h]
      | ok changed =>
          obtain ⟨-, ring, -, rfl⟩ := setKey_eq_ok_iff.mp h
          simp only [after, h, options_withRing]
  | ratchetKey participant index =>
      cases h : store.ratchetKey participant index with
      | error error => simp only [after, h]
      | ok result =>
          obtain ⟨-, ring, changed, -, -, hchanged⟩ := ratchetKey_eq_ok_iff.mp h
          simp only [after, h, hchanged, options_withRing]
  | remove participant => rfl

/-- The ring that a key is set in fits: the participant's own, or the one it
gets now. -/
theorem Sound.fits_getD (h : store.Sound) (participant : Participant) :
    ((store.ring? participant).getD store.options.emptyRing).Fits store.options := by
  cases hring : store.ring? participant with
  | none => exact KeyRing.fits_emptyRing store.options
  | some ring => exact h.fits hring

theorem key?_getD (store : KeyStore) (participant : Participant) (index : Int) :
    ((store.ring? participant).getD store.options.emptyRing).key? index =
      store.key? participant index := by
  cases hring : store.ring? participant with
  | none => rw [key?_of_no_ring? hring, Option.getD_none, KeyOptions.emptyRing, KeyRing.key?_empty]
  | some ring => rw [key?_of_ring? hring, Option.getD_some]

theorem Sound.after (h : store.Sound) (call : KeyCall) : (store.after call).Sound := by
  cases call with
  | setKey participant index raw =>
      cases hset : store.setKey participant index raw with
      | error error => simpa only [KeyStore.after, hset] using h
      | ok changed =>
          obtain ⟨-, ring, hring, rfl⟩ := setKey_eq_ok_iff.mp hset
          simpa only [KeyStore.after, hset] using
            h.withRing ((h.fits_getD participant).setKey hring) participant
  | ratchetKey participant index =>
      cases hratchet : store.ratchetKey participant index with
      | error error => simpa only [KeyStore.after, hratchet] using h
      | ok result =>
          obtain ⟨-, ring, changed, hring, hchanged, hother⟩ :=
            ratchetKey_eq_ok_iff.mp hratchet
          simpa only [KeyStore.after, hratchet, hother] using
            h.withRing ((h.fits hring).ratchetKey hchanged) participant
  | remove participant =>
      constructor
      intro other ring hring
      rw [KeyStore.after, ring?_remove] at hring
      split at hring
      · cases hring
      · exact h.fits hring

/-- A key can be set at every index of the ring, and nowhere else. -/
theorem Sound.exists_setKey_eq_ok_iff (h : store.Sound) :
    (∃ other, store.setKey participant index raw = .ok other) ↔
      0 ≤ index ∧ index < store.options.ringSize := by
  constructor
  · intro hok
    obtain ⟨other, hother⟩ := hok
    obtain ⟨⟨hnonneg, hlt⟩, -⟩ := setKey_eq_ok_iff.mp hother
    exact ⟨hnonneg, by omega⟩
  · intro hin
    obtain ⟨hnonneg, hlt⟩ := hin
    cases hring : ((store.ring? participant).getD store.options.emptyRing).setKey index raw with
    | error error =>
        obtain ⟨-, hout⟩ := KeyRing.setKey_eq_error_iff.mp hring
        rw [(h.fits_getD participant).size_eq] at hout
        omega
    | ok ring => exact ⟨_, setKey_eq_ok_iff.mpr ⟨⟨hnonneg, by omega⟩, ring, hring, rfl⟩⟩

/-- A key can be advanced exactly where there is one that is not of the last
generation. -/
theorem Sound.exists_ratchetKey_eq_ok_iff (h : store.Sound) :
    (∃ raw other, store.ratchetKey participant index = .ok (raw, other)) ↔
      ∃ key next, store.key? participant index = some key ∧
        key.ratchet store.options.salt = .ok next := by
  constructor
  · intro hok
    obtain ⟨raw, other, hother⟩ := hok
    obtain ⟨-, ring, changed, hring, hchanged, -⟩ := ratchetKey_eq_ok_iff.mp hother
    obtain ⟨key, next, hkey, hnext, -⟩ := KeyRing.key?_ratchetKey hchanged
    rw [(h.fits hring).salt_eq] at hnext
    exact ⟨key, next, key?_eq_some_iff.mpr ⟨ring, hring, hkey⟩, hnext⟩
  · intro hsuccessor
    obtain ⟨key, next, hkey, hnext⟩ := hsuccessor
    obtain ⟨ring, hring, hkey⟩ := key?_eq_some_iff.mp hkey
    have hfits := h.fits hring
    obtain ⟨slot, rfl, hlt, -⟩ := KeyRing.key?_eq_some_iff.mp hkey
    rw [← hfits.salt_eq] at hnext
    have hchanged := KeyRing.ratchetKey_eq_ok_iff.mpr
      ⟨slot, key, next, rfl, hlt, hkey, hnext, rfl, rfl⟩
    rw [hfits.size_eq] at hlt
    exact ⟨_, _, ratchetKey_eq_ok_iff.mpr ⟨⟨by omega, by omega⟩, ring, _, hring, hchanged, rfl⟩⟩

theorem key?_after_setKey (h : store.Sound) (other participant : Participant)
    (place index : Int) (raw : Bytes) :
    (store.after (.setKey other place raw)).key? participant index =
      (KeyCall.setKey other place raw).effect store.options participant index
        (store.key? participant index) := by
  cases hset : store.setKey other place raw with
  | error error =>
      have hout : ¬ (0 ≤ place ∧ place < store.options.ringSize) := by
        intro hin
        obtain ⟨changed, hchanged⟩ := h.exists_setKey_eq_ok_iff.mpr hin
        rw [hset] at hchanged
        cases hchanged
      rw [KeyCall.effect, if_neg (fun hin => hout hin.2.2)]
      simp only [KeyStore.after, hset]
  | ok changed =>
      have hin := h.exists_setKey_eq_ok_iff.mp ⟨changed, hset⟩
      obtain ⟨-, ring, hring, rfl⟩ := setKey_eq_ok_iff.mp hset
      have hkey := KeyRing.key?_setKey hring index
      rw [key?_getD, (h.fits_getD other).salt_eq] at hkey
      simp only [KeyStore.after, hset, KeyCall.effect]
      rw [key?_withRing, hkey]
      by_cases hrow : store.options.shared = true ∨ other = participant
      · rw [if_pos hrow, key?_of_same_row hrow]
        simp only [hrow, hin, and_self, and_true, true_and]
      · rw [if_neg hrow, if_neg (fun hin => hrow hin.1)]

theorem key?_after_ratchetKey (h : store.Sound) (other participant : Participant)
    (place index : Int) :
    (store.after (.ratchetKey other place)).key? participant index =
      (KeyCall.ratchetKey other place).effect store.options participant index
        (store.key? participant index) := by
  rw [KeyCall.effect]
  cases hratchet : store.ratchetKey other place with
  | error error =>
      simp only [KeyStore.after, hratchet]
      split
      · next htouched =>
          obtain ⟨hrow, rfl⟩ := htouched
          rw [key?_of_same_row hrow]
          cases hkey : store.key? other index with
          | none => rfl
          | some key =>
              cases hnext : key.ratchet store.options.salt with
              | error error => rw [Option.map_some, KeyMaterial.nextOrLast, hnext]
              | ok next =>
                  obtain ⟨raw, changed, hchanged⟩ :=
                    h.exists_ratchetKey_eq_ok_iff.mpr ⟨key, next, hkey, hnext⟩
                  rw [hratchet] at hchanged
                  cases hchanged
      · rfl
  | ok result =>
      obtain ⟨-, ring, changed, hring, hchanged, hother⟩ := ratchetKey_eq_ok_iff.mp hratchet
      obtain ⟨key, next, hkey, hnext, hkeys⟩ := KeyRing.key?_ratchetKey hchanged
      rw [(h.fits hring).salt_eq] at hnext
      simp only [KeyStore.after, hratchet, hother]
      rw [key?_withRing, hkeys]
      by_cases hrow : store.options.shared = true ∨ other = participant
      · rw [if_pos hrow, key?_of_same_row hrow, key?_of_ring? hring]
        by_cases hplace : index = place
        · subst hplace
          rw [if_pos rfl, if_pos ⟨hrow, rfl⟩, hkey, Option.map_some, KeyMaterial.nextOrLast,
            hnext]
        · rw [if_neg hplace, if_neg (fun hin => hplace hin.2)]
      · rw [if_neg hrow, if_neg (fun hin => hrow hin.1)]

/-- Calls do what their effect says, at each place of the table. -/
theorem key?_after (h : store.Sound) (call : KeyCall) (participant : Participant)
    (index : Int) :
    (store.after call).key? participant index =
      call.effect store.options participant index (store.key? participant index) := by
  cases call with
  | setKey other place raw => exact key?_after_setKey h other participant place index raw
  | ratchetKey other place => exact key?_after_ratchetKey h other participant place index
  | remove other =>
      rw [key?, KeyStore.after, ring?_remove, KeyCall.effect]
      split
      · rfl
      · rfl

end KeyStore

end MediaSeal
