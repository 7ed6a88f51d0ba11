import MediaSeal.Proofs.SimulationReport

/-!
# Nothing that happens in a call is amiss

Payloads, advances of the sender's key and new keys may follow upon one another
in any order and as often as one likes. The sender may get out of the receiver's
reach, the receiver's ring may be invalidated, and a new key may come in the
middle of it: an audit of the call finds nothing at any moment.

Each step preserves `Call.Kept`, so a run does, by induction on its steps; and
since what is allowed of a run is allowed of its beginning, nothing is to be
found at any moment before its end either.
-/

namespace MediaSeal

/-- What can be done with a call. -/
inductive CallStep
  | send (payload : Bytes) (keyFrame : Bool)
  | ratchetSender
  | provision (raw : Bytes)

namespace Call

/-- The call after a step; one that is refused changes nothing. -/
def after (call : Call) : CallStep → Call
  | .send payload keyFrame => (call.send payload keyFrame).2
  | .ratchetSender =>
      match call.ratchetSender with
      | .ok next => next
      | .error _ => call
  | .provision raw =>
      match call.provision raw with
      | .ok next => next
      | .error _ => call

theorem after_ratchetSender {call next : Call} (h : call.ratchetSender = .ok next) :
    call.after .ratchetSender = next := by
  rw [after, h]

/-- The call after several steps. -/
def run (call : Call) (steps : List CallStep) : Call := steps.foldl after call

/-- Whether a step is one that no audit can find fault with. -/
def Allows (call : Call) : CallStep → Prop
  | .send payload keyFrame => call.Unmistakable payload keyFrame
  | .ratchetSender | .provision _ => True

/-- Each step is allowed when its turn comes. -/
def AllowsAll (call : Call) : List CallStep → Prop
  | [] => True
  | step :: rest => call.Allows step ∧ (call.after step).AllowsAll rest

variable {call : Call} {algorithm : Algorithm} {options : KeyOptions}

theorem Kept.after (h : call.Kept algorithm options) {step : CallStep}
    (hallowed : call.Allows step) : (call.after step).Kept algorithm options := by
  cases step with
  | send payload keyFrame => exact h.send hallowed
  | ratchetSender =>
      rw [Call.after]
      cases hnext : call.ratchetSender with
      | ok next => exact h.ratchetSender hnext
      | error error => exact h
  | provision raw =>
      rw [Call.after]
      cases hnext : call.provision raw with
      | ok next => exact h.provision hnext
      | error error => exact h

theorem allowsAll_append {first second : List CallStep} :
    call.AllowsAll (first ++ second) ↔
      call.AllowsAll first ∧ (call.run first).AllowsAll second := by
  induction first generalizing call with
  | nil => simp only [List.nil_append, AllowsAll, true_and, run, List.foldl_nil]
  | cons step rest ih =>
      rw [List.cons_append, AllowsAll, AllowsAll, ih, and_assoc]
      rfl

theorem Kept.run {steps : List CallStep} (h : call.Kept algorithm options)
    (hallowed : call.AllowsAll steps) : (call.run steps).Kept algorithm options := by
  induction steps generalizing call with
  | nil => exact h
  | cons step rest ih => exact ih (h.after hallowed.1) hallowed.2

end Call

/-- However payloads, advances of the sender's key and new keys follow upon one
another, the standard audit of a call finds nothing at any moment: nothing left
uncovered that was to be sealed, what was delivered is what was sent, neither
side was told the same outcome twice in a row, and the receiver's key has not
gone back since it was last set. Setting it is never refused. -/
theorem standard_audit_finds_nothing {scenario : Scenario} {call : Call}
    (hstart : Call.start scenario = .ok call) {steps : List CallStep}
    (hallowed : call.AllowsAll steps) :
    ∀ earlier later, steps = earlier ++ later →
      let now := call.run earlier
      Audit.standard.violations now.snapshot = [] ∧ now.snapshot.Lawful ∧
        ∀ raw, ∃ next, now.provision raw = .ok next := by
  rintro earlier later rfl now
  obtain ⟨algorithm, media, hstartable, rfl⟩ := Scenario.start_eq_ok_iff.mp hstart
  have hkept : now.Kept algorithm scenario.keyOptions :=
    hstartable.kept.run (Call.allowsAll_append.mp hallowed).1
  exact ⟨Audit.violations_standard_eq_nil_iff.mpr hkept.lawful, hkept.lawful,
    fun raw => ⟨_, hkept.setUp.provision_eq raw⟩⟩

/-- The step that sends the frame of a number. -/
def Scenario.sendStep (scenario : Scenario) (number : Nat) : CallStep :=
  .send (scenario.payload number) (scenario.isKeyFrame number)

theorem Call.allowsAll_sendStep_cons {call : Call} {scenario : Scenario} {number : Nat}
    {rest : List CallStep} :
    call.AllowsAll (scenario.sendStep number :: rest) ↔
      call.Unmistakable (scenario.payload number) (scenario.isKeyFrame number) ∧
        (scenario.sendFrame call number).2.AllowsAll rest :=
  Iff.rfl

/-- Three frames with an advance before the last, and a new key for both sides
that the sender is two generations past in the end. -/
def rekeyedSteps : List CallStep :=
  [threeFrames.sendStep 1, threeFrames.sendStep 0, .ratchetSender, threeFrames.sendStep 2,
    .provision [7], .ratchetSender, .ratchetSender]

theorem allowsAll_rekeyedSteps : threeFramesCall.AllowsAll rekeyedSteps := by
  have hframes := unambiguousFrom_threeFrames 1 0
  have hsize : 1 ≤ threeFrames.frameSize ∧ threeFrames.frameSize ≤ Gcm.maxLength := by decide
  have hfirst : threeFramesCall.StandsAt threeFramesCall .aesGcm threeFrames.keyOptions
      suppliedKey 0 ⟨0, 0, []⟩ := startable_threeFrames.standsAt
  obtain ⟨-, hsecond⟩ := hfirst.sendFrame hsize (hframes 0 1 rfl)
  obtain ⟨-, hlevel⟩ := hsecond.sendFrame hsize (hframes 1 0 rfl)
  obtain ⟨next, hratchet, hthird⟩ := hlevel.ratchetSender (by decide)
  unfold rekeyedSteps
  rw [Call.allowsAll_sendStep_cons, Call.allowsAll_sendStep_cons]
  refine ⟨hfirst.unmistakable (hframes 0 1 rfl),
    hsecond.unmistakable (hframes 1 0 rfl), trivial, ?_⟩
  rw [Call.after_ratchetSender hratchet]
  exact Call.allowsAll_sendStep_cons.mpr
    ⟨hthird.unmistakable (hframes 2 2 rfl), trivial, trivial, trivial,
      trivial⟩

theorem standard_audit_finds_nothing_rekeyed :
    Call.start threeFrames = .ok threeFramesCall ∧ threeFramesCall.AllowsAll rekeyedSteps ∧
      ∀ earlier later, rekeyedSteps = earlier ++ later →
        let now := threeFramesCall.run earlier
        Audit.standard.violations now.snapshot = [] ∧ now.snapshot.Lawful ∧
          ∀ raw, ∃ next, now.provision raw = .ok next := by
  have hstart := Scenario.start_of_startable startable_threeFrames
  exact ⟨hstart, allowsAll_rekeyedSteps,
    standard_audit_finds_nothing hstart allowsAll_rekeyedSteps⟩

end MediaSeal
