import MediaSeal.Proofs.SharedUse

/-!
# Key calls that are carried out in place

A key call here returns a new store or an error, so a call that is refused cannot
have changed anything. Where stores and rings are objects that are changed in their
places this is something to be proved: an error that comes late leaves behind what
was done before it. The index is checked against the options, then a participant
without a ring gets one, then the index is checked once more, against the slots of
that ring, and only then is the slot written, and after it the count of failures and
the mark that the ring is invalid. If the second check failed where the first did
not, an empty ring would stay behind.

It does not: a ring that was put in for the call has the size that the first check
went by, and a ring that was there before is not written before the check is passed.
This needs nothing of the store but that new rings are made as its options say. So
it is no loss to let calls return stores.
-/

namespace MediaSeal

/-! ## Work in place -/

/-- Work on a state, which may come to an end with an error. The state is then as
the work has left it. -/
abbrev InPlace (State Result : Type) : Type := ExceptT KeyError (StateM State) Result

namespace InPlace

variable {State Result : Type}

/-- What comes of work that starts from a state. -/
def outcome (work : InPlace State Result) (state : State) : Except KeyError Result × State :=
  Id.run (StateT.run (ExceptT.run work) state)

/-- What comes of work that is done in one go or not at all. -/
def settle (state : State) :
    Except KeyError (Result × State) → Except KeyError Result × State
  | .ok (result, changed) => (.ok result, changed)
  | .error error => (.error error, state)

/-! What the steps of such work do, one by one. -/

@[simp] theorem outcome_pure (result : Result) (state : State) :
    (pure result : InPlace State Result).outcome state = (.ok result, state) := rfl

@[simp] theorem outcome_throw (error : KeyError) (state : State) :
    (throw error : InPlace State Result).outcome state = (.error error, state) := rfl

@[simp] theorem outcome_get (state : State) :
    (get : InPlace State State).outcome state = (.ok state, state) := rfl

@[simp] theorem outcome_modify (change : State → State) (state : State) :
    (modify change : InPlace State PUnit).outcome state = (.ok ⟨⟩, change state) := rfl

@[simp] theorem outcome_ofExcept (result : Except KeyError Result) (state : State) :
    (MonadExcept.ofExcept result : InPlace State Result).outcome state = (result, state) := by
  cases result <;> rfl

@[simp] theorem outcome_bind {Next : Type} (work : InPlace State Result)
    (next : Result → InPlace State Next) (state : State) :
    (work >>= next).outcome state =
      match work.outcome state with
      | (.ok result, changed) => (next result).outcome changed
      | (.error error, changed) => (.error error, changed) := by
  simp only [outcome, ExceptT.run_bind, StateT.run_bind, Id.run_bind]
  cases Id.run (StateT.run (ExceptT.run work) state) with
  | mk result changed => cases result <;> rfl

end InPlace

open InPlace

namespace KeyRing

/-- Set a key, one field after the other. -/
def setKeyInPlace (index : Int) (raw : Bytes) : InPlace KeyRing Unit := do
  let slot ← MonadExcept.ofExcept ((← get).slot index)
  modify fun ring => { ring with slots := ring.slots.set slot (some (.supplied raw ring.salt)) }
  modify fun ring => { ring with failures := 0 }
  modify fun ring => { ring with invalidated := false }

def ratchetKeyInPlace (index : Int) : InPlace KeyRing Bytes := do
  let slot ← MonadExcept.ofExcept ((← get).slot index)
  match (← get).slots.getD slot none with
  | none => throw (.missingKey index)
  | some key =>
      match key.ratchet (← get).salt with
      | .error _ => throw (.ratchetExhausted index key.generation)
      | .ok following =>
          modify fun ring => { ring with slots := ring.slots.set slot (some following) }
          return following.raw

theorem outcome_setKeyInPlace (ring : KeyRing) (index : Int) (raw : Bytes) :
    (setKeyInPlace index raw).outcome ring =
      settle ring ((ring.setKey index raw).map fun changed => ((), changed)) := by
  simp only [setKeyInPlace, setKey, outcome_bind, outcome_get, outcome_ofExcept, outcome_modify]
  cases ring.slot index <;> rfl

theorem outcome_ratchetKeyInPlace (ring : KeyRing) (index : Int) :
    (ratchetKeyInPlace index).outcome ring = settle ring (ring.ratchetKey index) := by
  simp only [ratchetKeyInPlace, ratchetKey, outcome_bind, outcome_get, outcome_ofExcept]
  cases ring.slot index with
  | error error => rfl
  | ok slot =>
      cases hkey : ring.slots.getD slot none with
      | none => simp only [hkey, outcome_throw, settle]
      | some key =>
          cases hnext : key.ratchet ring.salt with
          | error error => simp only [hkey, hnext, outcome_bind, outcome_get, outcome_throw, settle]
          | ok following =>
              simp only [hkey, hnext, outcome_bind, outcome_get, outcome_modify, outcome_pure,
                settle]

end KeyRing

namespace KeyStore

/-! ## Calls by the ring that they work on -/

def setKeyOf (store : KeyStore) (owner : Owner) (index : Int) (raw : Bytes) :
    Except KeyError KeyStore := do
  store.checkIndex index
  let ring := (store.ringOf? owner).getD store.options.emptyRing
  return store.withRingOf owner (← ring.setKey index raw)

def ratchetKeyOf (store : KeyStore) (owner : Owner) (index : Int) :
    Except KeyError (Bytes × KeyStore) := do
  store.checkIndex index
  match store.ringOf? owner with
  | none => .error (.missingKey index)
  | some ring =>
      let (raw, ring) ← ring.ratchetKey index
      return (raw, store.withRingOf owner ring)

variable {store : KeyStore} {owner : Owner} {call : StoreCall} {index : Int} {raw : Bytes}

theorem perform_of_setKey (hcall : call.request = .setKey index raw) :
    let result := settle store
      ((store.setKeyOf (call.target store.options) index raw).map fun changed => ((), changed))
    store.perform call = (.set result.1, result.2) := by
  cases call with
  | member participant call =>
      obtain rfl : call = .setKey index raw := hcall
      have hset : store.setKey participant index raw =
          store.setKeyOf (store.options.ownerFor participant) index raw := by
        simp only [setKey, setKeyOf, ring?_eq_ringOf?, withRing_eq_withRingOf]
      simp only [perform, ask, hset, StoreCall.target]
      cases store.setKeyOf (store.options.ownerFor participant) index raw <;> rfl
  | shared call =>
      cases call with
      | setKey place key =>
          obtain ⟨rfl, rfl⟩ := MemberCall.setKey.inj hcall
          have hset : store.setSharedKey place key = store.setKeyOf .everyone place key := rfl
          simp only [perform, askShared, hset, StoreCall.target]
          cases store.setKeyOf .everyone place key <;> rfl
      | ratchetKey place => cases hcall
      | getKey place => cases hcall

theorem perform_of_ratchetKey (hcall : call.request = .ratchetKey index) :
    let result := settle store (store.ratchetKeyOf (call.target store.options) index)
    store.perform call = (.ratcheted result.1, result.2) := by
  cases call with
  | member participant call =>
      obtain rfl : call = .ratchetKey index := hcall
      have hratchet : store.ratchetKey participant index =
          store.ratchetKeyOf (store.options.ownerFor participant) index := by
        cases hring : store.ringOf? (store.options.ownerFor participant) <;>
          simp only [ratchetKey, ratchetKeyOf, ring?_eq_ringOf?, withRing_eq_withRingOf, hring]
      simp only [perform, ask, hratchet, StoreCall.target]
      cases store.ratchetKeyOf (store.options.ownerFor participant) index <;> rfl
  | shared call =>
      cases call with
      | setKey place key => cases hcall
      | ratchetKey place =>
          obtain rfl := MemberCall.ratchetKey.inj hcall
          have hratchet : store.ratchetSharedKey place = store.ratchetKeyOf .everyone place := rfl
          simp only [perform, askShared, hratchet, StoreCall.target]
          cases store.ratchetKeyOf .everyone place <;> rfl
      | getKey place => cases hcall

theorem perform_of_getKey (hcall : call.request = .getKey index) :
    store.perform call =
      (.key (((store.ringOf? (call.target store.options)).bind (·.key? index)).map (·.raw)),
        store) := by
  cases call with
  | member participant call =>
      obtain rfl : call = .getKey index := hcall
      rw [perform, ask, getKey?_eq, key?, ring?_eq_ringOf?]
      rfl
  | shared call =>
      cases call with
      | getKey place =>
          obtain rfl := MemberCall.getKey.inj hcall
          rfl
      | setKey place key => cases hcall
      | ratchetKey place => cases hcall

/-! ## The same in place -/

/-- Work on a ring in its place in the store, whatever comes of it. -/
def onRing {Result : Type} (owner : Owner) (ring : KeyRing) (work : InPlace KeyRing Result) :
    InPlace KeyStore Result := do
  let (result, changed) := work.outcome ring
  modify (·.withRingOf owner changed)
  MonadExcept.ofExcept result

/-- The ring of an owner, who gets one if there is none. -/
def provideRing (owner : Owner) : InPlace KeyStore KeyRing := do
  match (← get).ringOf? owner with
  | some ring => return ring
  | none =>
      let ring := (← get).options.emptyRing
      modify (·.withRingOf owner ring)
      return ring

def setKeyInPlace (owner : Owner) (index : Int) (raw : Bytes) : InPlace KeyStore Unit := do
  MonadExcept.ofExcept ((← get).checkIndex index)
  let ring ← provideRing owner
  onRing owner ring (KeyRing.setKeyInPlace index raw)

def ratchetKeyInPlace (owner : Owner) (index : Int) : InPlace KeyStore Bytes := do
  MonadExcept.ofExcept ((← get).checkIndex index)
  match (← get).ringOf? owner with
  | none => throw (.missingKey index)
  | some ring => onRing owner ring (KeyRing.ratchetKeyInPlace index)

theorem outcome_onRing {Result : Type} (work : InPlace KeyRing Result) (ring : KeyRing) :
    (onRing owner ring work).outcome store =
      ((work.outcome ring).1, store.withRingOf owner (work.outcome ring).2) := by
  simp only [onRing, outcome_bind, outcome_modify, outcome_ofExcept]

theorem outcome_provideRing (store : KeyStore) (owner : Owner) :
    let ring := (store.ringOf? owner).getD store.options.emptyRing
    (provideRing owner).outcome store = (.ok ring, store.withRingOf owner ring) := by
  simp only [provideRing, outcome_bind, outcome_get]
  cases hring : store.ringOf? owner with
  | some ring => simp only [outcome_pure, Option.getD_some, withRingOf_of_ringOf? hring]
  | none => simp only [outcome_bind, outcome_get, outcome_modify, outcome_pure, Option.getD_none]

/-- A ring that refuses an index that the store has let pass was there before. -/
theorem ringOf?_of_setKey_error {error : KeyError} (hindex : store.checkIndex index = .ok ())
    (h : ((store.ringOf? owner).getD store.options.emptyRing).setKey index raw = .error error) :
    store.ringOf? owner = some ((store.ringOf? owner).getD store.options.emptyRing) := by
  cases hring : store.ringOf? owner with
  | some ring => rfl
  | none =>
      rw [hring, Option.getD_none] at h
      have hin := checkIndex_eq_ok_iff.mp hindex
      have hout := (KeyRing.setKey_eq_error_iff.mp h).2
      have hsize : store.options.emptyRing.size = store.options.ringSize :=
        KeyRing.size_empty _ _ _
      omega

theorem outcome_setKeyInPlace (store : KeyStore) (owner : Owner) (index : Int) (raw : Bytes) :
    (setKeyInPlace owner index raw).outcome store =
      settle store ((store.setKeyOf owner index raw).map fun changed => ((), changed)) := by
  simp only [setKeyInPlace, setKeyOf, outcome_bind, outcome_get, outcome_ofExcept]
  cases hindex : store.checkIndex index with
  | error error => rfl
  | ok _ =>
      simp only [outcome_provideRing, outcome_onRing, KeyRing.outcome_setKeyInPlace]
      rw [withRingOf_withRingOf]
      cases hset : ((store.ringOf? owner).getD store.options.emptyRing).setKey index raw with
      | ok changed => rfl
      | error error =>
          -- The error is late only in a ring that was there, and it was not written.
          have hring := ringOf?_of_setKey_error hindex hset
          exact Prod.ext rfl (withRingOf_of_ringOf? hring)

theorem outcome_ratchetKeyInPlace (store : KeyStore) (owner : Owner) (index : Int) :
    (ratchetKeyInPlace owner index).outcome store =
      settle store (store.ratchetKeyOf owner index) := by
  simp only [ratchetKeyInPlace, ratchetKeyOf, outcome_bind, outcome_get, outcome_ofExcept]
  cases store.checkIndex index with
  | error error => rfl
  | ok _ =>
      cases hring : store.ringOf? owner with
      | none => simp only [hring, outcome_throw, settle, bind, Except.bind]
      | some ring =>
          simp only [hring, outcome_onRing, KeyRing.outcome_ratchetKeyInPlace]
          cases ring.ratchetKey index with
          | ok result => rfl
          | error error => exact Prod.ext rfl (withRingOf_of_ringOf? hring)

/-- A call, with what it does to keys done in place. -/
def performInPlace (store : KeyStore) (call : StoreCall) : Answer × KeyStore :=
  match call.request with
  | .setKey index raw =>
      let (result, after) :=
        (setKeyInPlace (call.target store.options) index raw).outcome store
      (.set result, after)
  | .ratchetKey index =>
      let (result, after) :=
        (ratchetKeyInPlace (call.target store.options) index).outcome store
      (.ratcheted result, after)
  | _ => store.perform call

theorem performInPlace_eq (store : KeyStore) (call : StoreCall) :
    store.performInPlace call = store.perform call := by
  unfold performInPlace
  split
  · next index raw hcall => rw [outcome_setKeyInPlace, perform_of_setKey hcall]
  · next index hcall => rw [outcome_ratchetKeyInPlace, perform_of_ratchetKey hcall]
  · rfl

end KeyStore

/-! ## Calls that are refused -/

/-- Why a key call was refused, if it was. -/
def Answer.refusal? : Answer → Option KeyError
  | .set (.error error) => some error
  | .ratcheted (.error error) => some error
  | _ => none

theorem KeyStore.perform_of_refusal? {store : KeyStore} {call : StoreCall} {error : KeyError}
    (h : (store.perform call).1.refusal? = some error) : (store.perform call).2 = store := by
  cases hcall : call.request with
  | setKey index raw =>
      rw [perform_of_setKey hcall] at h ⊢
      cases hset : store.setKeyOf (call.target store.options) index raw with
      | error error => rfl
      | ok changed =>
          rw [hset] at h
          cases h
  | ratchetKey index =>
      rw [perform_of_ratchetKey hcall] at h ⊢
      cases hratchet : store.ratchetKeyOf (call.target store.options) index with
      | error error => rfl
      | ok result =>
          rw [hratchet] at h
          cases h
  | _ =>
      -- Whatever comes of any other call, it is not an error with keys.
      cases call with
      | member participant call =>
          obtain rfl : call = _ := hcall
          cases h
      | shared call =>
          cases call with
          | getKey index => cases h
          | _ => cases hcall

end MediaSeal
