import MediaSeal.Protection.Decrypt

/-!
# Runs of a store and what they answer

A store is called on behalf of participants and on its shared ring. Every call
gets an answer, and a run is known from outside by its exchanges: each call
with the answer it got.

What one caller can learn of another is a question about two runs. Some
exchanges of a run are struck out, the calls that remain are made anew, and
the answers are compared. `unwind` reduces this to single calls: there is a
relation between stores under which calls that remain are answered alike, and
calls that are struck out could as well not have been made.
-/

namespace MediaSeal

/-- A call on behalf of one participant. -/
inductive MemberCall
  | setKey (index : Int) (raw : Bytes)
  | ratchetKey (index : Int)
  | getKey (index : Int)
  | remove
  /-- The vector is part of the call, so that it can be the same in two runs. -/
  | encrypt (algorithm : Algorithm) (index : Int) (frame : Frame) (iv : Bytes)
  | decrypt (algorithm : Algorithm) (payload : Bytes)

/-- A call on the shared ring. -/
inductive SharedCall
  | setKey (index : Int) (raw : Bytes)
  | ratchetKey (index : Int)
  | getKey (index : Int)

inductive StoreCall
  | member (participant : Participant) (call : MemberCall)
  | shared (call : SharedCall)

/-- What a caller gets to see. -/
inductive Answer
  | set (result : Except KeyError Unit)
  | ratcheted (result : Except KeyError Bytes)
  | key (raw : Option Bytes)
  | removed (found : Bool)
  | encrypted (result : Except FrameError Bytes)
  | decrypted (result : Except FrameError Opened)

structure Exchange where
  call : StoreCall
  answer : Answer

namespace KeyStore

/-- The answer to a participant's call, and the store after it; a call that is
refused leaves the store as it was. -/
def ask (store : KeyStore) (participant : Participant) : MemberCall → Answer × KeyStore
  | .setKey index raw =>
      match store.setKey participant index raw with
      | .ok changed => (.set (.ok ()), changed)
      | .error error => (.set (.error error), store)
  | .ratchetKey index =>
      match store.ratchetKey participant index with
      | .ok (raw, changed) => (.ratcheted (.ok raw), changed)
      | .error error => (.ratcheted (.error error), store)
  | .getKey index => (.key (store.getKey? participant index), store)
  | .remove =>
      let (found, changed) := store.remove participant
      (.removed found, changed)
  | .encrypt algorithm index frame iv =>
      (.encrypted (frame.encryptWith store participant algorithm index iv), store)
  | .decrypt algorithm payload =>
      let (result, changed) := store.decrypt participant algorithm payload
      (.decrypted result, changed)

@[inherit_doc ask]
def askShared (store : KeyStore) : SharedCall → Answer × KeyStore
  | .setKey index raw =>
      match store.setSharedKey index raw with
      | .ok changed => (.set (.ok ()), changed)
      | .error error => (.set (.error error), store)
  | .ratchetKey index =>
      match store.ratchetSharedKey index with
      | .ok (raw, changed) => (.ratcheted (.ok raw), changed)
      | .error error => (.ratcheted (.error error), store)
  | .getKey index => (.key (store.getSharedKey? index), store)

def perform (store : KeyStore) : StoreCall → Answer × KeyStore
  | .member participant call => store.ask participant call
  | .shared call => store.askShared call

theorem perform_decrypt (store : KeyStore) (participant : Participant) (algorithm : Algorithm)
    (payload : Bytes) : store.perform (.member participant (.decrypt algorithm payload)) =
      (.decrypted (store.decrypt participant algorithm payload).1,
        (store.decrypt participant algorithm payload).2) := rfl

/-- What is asked and answered in a run. -/
def exchanges (store : KeyStore) : List StoreCall → List Exchange
  | [] => []
  | call :: rest => ⟨call, (store.perform call).1⟩ :: (store.perform call).2.exchanges rest

/-- The store after a run. -/
def afterRun (store : KeyStore) (calls : List StoreCall) : KeyStore :=
  calls.foldl (fun store call => (store.perform call).2) store

@[simp] theorem afterRun_nil (store : KeyStore) : store.afterRun [] = store := rfl

@[simp] theorem afterRun_cons (store : KeyStore) (call : StoreCall) (rest : List StoreCall) :
    store.afterRun (call :: rest) = (store.perform call).2.afterRun rest := rfl

theorem afterRun_append (store : KeyStore) (first second : List StoreCall) :
    store.afterRun (first ++ second) = (store.afterRun first).afterRun second :=
  List.foldl_append

theorem map_call_exchanges (store : KeyStore) (calls : List StoreCall) :
    (store.exchanges calls).map (·.call) = calls := by
  induction calls generalizing store with
  | nil => rfl
  | cons call rest ih => simp only [exchanges, List.map_cons, ih]

/-- A call that changes nothing can be made any number of times. -/
theorem afterRun_replicate {store : KeyStore} {call : StoreCall} {answer : Answer}
    (h : store.perform call = (answer, store)) (count : Nat) :
    store.afterRun (List.replicate count call) = store := by
  induction count with
  | zero => rfl
  | succ count ih => rw [List.replicate_succ, afterRun_cons, h, ih]

theorem exchanges_replicate {store : KeyStore} {call : StoreCall} {answer : Answer}
    (h : store.perform call = (answer, store)) (count : Nat) :
    store.exchanges (List.replicate count call) = List.replicate count ⟨call, answer⟩ := by
  induction count with
  | zero => rfl
  | succ count ih => rw [List.replicate_succ, exchanges, h, ih, List.replicate_succ]

end KeyStore

/-! ## Striking out exchanges -/

/-- Some exchanges for which `Skips` holds are struck out, and the others are
kept in their order. -/
inductive Thinned (Skips : Exchange → Prop) : List Exchange → List Exchange → Prop
  | nil : Thinned Skips [] []
  | keep (exchange : Exchange) {whole kept : List Exchange} (h : Thinned Skips whole kept) :
      Thinned Skips (exchange :: whole) (exchange :: kept)
  | skip {exchange : Exchange} (hskips : Skips exchange) {whole kept : List Exchange}
      (h : Thinned Skips whole kept) : Thinned Skips (exchange :: whole) kept

theorem thinned_filter (keeps : Exchange → Bool) (whole : List Exchange) :
    Thinned (fun exchange => keeps exchange = false) whole (whole.filter keeps) := by
  induction whole with
  | nil => exact .nil
  | cons exchange rest ih =>
      cases hkeeps : keeps exchange with
      | false =>
          rw [List.filter_cons_of_neg (Bool.eq_false_iff.mp hkeeps)]
          exact .skip hkeeps ih
      | true =>
          rw [List.filter_cons_of_pos hkeeps]
          exact .keep exchange ih

/-- Two runs side by side. The first makes every call and passes through
allowed stores only; the second makes the calls that are kept. If `Agree`
survives each call, made by both or by the first alone, then it holds at the
end, and the second run has the exchanges that were kept of the first. -/
theorem Thinned.unwind (Agree : KeyStore → KeyStore → Prop) (Allowed : KeyStore → Prop)
    (Keeps : StoreCall → Prop) {Skips : Exchange → Prop}
    (hkeep : ∀ {store other : KeyStore} {call : StoreCall}, Agree store other → Keeps call →
      Allowed (store.perform call).2 →
      (other.perform call).1 = (store.perform call).1 ∧
        Agree (store.perform call).2 (other.perform call).2)
    (hskip : ∀ {store other : KeyStore} {call : StoreCall}, Agree store other →
      Skips ⟨call, (store.perform call).1⟩ → Allowed (store.perform call).2 →
      Agree (store.perform call).2 other)
    {calls : List StoreCall} {store other : KeyStore} {kept : List Exchange}
    (hagree : Agree store other)
    (hallowed : ∀ earlier, earlier <+: calls → Allowed (store.afterRun earlier))
    (hthinned : Thinned Skips (store.exchanges calls) kept)
    (hkept : ∀ exchange ∈ kept, Keeps exchange.call) :
    other.exchanges (kept.map (·.call)) = kept ∧
      Agree (store.afterRun calls) (other.afterRun (kept.map (·.call))) := by
  induction calls generalizing store other kept with
  | nil =>
      cases hthinned
      exact ⟨rfl, hagree⟩
  | cons call rest ih =>
      have hnow : Allowed (store.perform call).2 :=
        hallowed [call] (List.prefix_append [call] rest)
      have hlater : ∀ earlier, earlier <+: rest →
          Allowed ((store.perform call).2.afterRun earlier) := fun earlier hearlier =>
        hallowed (call :: earlier) (List.prefix_cons_inj call |>.mpr hearlier)
      cases hthinned with
      | keep _ hrest =>
          obtain ⟨hfirst, hothers⟩ := List.forall_mem_cons.mp hkept
          obtain ⟨hanswer, hafter⟩ := hkeep hagree hfirst hnow
          obtain ⟨hexchanges, hend⟩ := ih hafter hlater hrest hothers
          refine ⟨?_, hend⟩
          simp only [List.map_cons, KeyStore.exchanges, hanswer, hexchanges]
      | skip hskips hrest => exact ih (hskip hagree hskips hnow) hlater hrest hkept

end MediaSeal
