import MediaSeal.Proofs.CallSteps

/-!
# What stands in the way of a call

Between a scenario and a call there are three who may refuse: the scenario's own
check, the key stores, and the ring that is to take the first key. They look at
different fields, and each only at what the one before let through. Put together
they come to one list, `Scenario.obstacles`, which says for each demand what is
complained of if it is not met. A call does not start exactly if there is anything
on the list, and then the first complaint is the answer. No other error is possible.
In particular an endpoint never has one to make, as its only demand was made before.

A call that does start is complete. `Leg.Ready` says what that means for a side: it
has its first key and no other, it is switched on and attached to its path, and
nothing has happened yet.
-/

namespace MediaSeal

/-! ## Names -/

/-- The names of ciphers, in lower case. -/
def Algorithm.spellings : List String :=
  ["aes-gcm", "aesgcm", "gcm", "aes-cbc", "aescbc", "cbc"]

/-- The names of kinds of media, in lower case. -/
def MediaKind.spellings : List String := ["audio", "video"]

theorem Algorithm.ofName_cases (name : String) :
    (name.toLower ∈ spellings ∧ ∃ algorithm, ofName name = .ok algorithm) ∨
      (name.toLower ∉ spellings ∧ ofName name = .error (.unsupportedAlgorithm name)) := by
  unfold ofName
  split
  case h_7 => exact .inr ⟨by simp_all [spellings], rfl⟩
  all_goals next hspelling => exact .inl ⟨by rw [hspelling]; decide, _, rfl⟩

theorem MediaKind.ofName?_cases (name : String) :
    (name.toLower ∈ spellings ∧ ∃ kind, ofName? name = some kind) ∨
      (name.toLower ∉ spellings ∧ ofName? name = none) := by
  unfold ofName?
  split
  case h_3 => exact .inr ⟨by simp_all [spellings], rfl⟩
  all_goals next hspelling => exact .inl ⟨by rw [hspelling]; decide, _, rfl⟩

/-! ## Complaints -/

/-- The complaint if a demand is not met. -/
def complaints {Complaint : Type} (met : Prop) [Decidable met] (complaint : Complaint) :
    List Complaint :=
  if met then [] else [complaint]

section

variable {Complaint : Type} {met : Prop} [Decidable met] {complaint : Complaint}

@[simp] theorem complaints_of_met (h : met) : complaints met complaint = [] := if_pos h

@[simp] theorem complaints_of_not_met (h : ¬ met) : complaints met complaint = [complaint] :=
  if_neg h

@[simp] theorem complaints_eq_nil_iff : complaints met complaint = [] ↔ met := by
  by_cases h : met <;> simp [h]

end

/-- What is wrong with options for a key store. -/
def KeyOptions.faults (options : KeyOptions) : List OptionsFault :=
  complaints (1 ≤ options.ringSize) .noSlots ++
  complaints (options.ringSize ≤ 256) .tooManySlots

theorem KeyOptions.fault?_eq_head? (options : KeyOptions) :
    options.fault? = options.faults.head? := by
  rw [fault?, faults]
  by_cases hslots : options.ringSize = 0
  · simp [hslots]
  by_cases hsize : options.ringSize ≤ 256
  · simp [hslots, hsize, Nat.one_le_iff_ne_zero, maxRingSize, Nat.not_lt.mpr hsize]
  · simp [hslots, hsize, Nat.one_le_iff_ne_zero, maxRingSize, Nat.not_le.mp hsize]

namespace Scenario

/-- What is wrong with the scenario, names aside. -/
def fieldFaults (scenario : Scenario) : List ScenarioFault :=
  complaints (scenario.participant ≠ "") .emptyParticipant ++
  complaints (scenario.key ≠ "") .emptyKey ++
  complaints (1 ≤ scenario.workers) .noWorkers

/-- What the scenario's own check complains of. -/
def faults (scenario : Scenario) : List ScenarioError :=
  complaints (scenario.algorithm.toLower ∈ Algorithm.spellings)
    (.algorithm (.unsupportedAlgorithm scenario.algorithm)) ++
  complaints (scenario.media.toLower ∈ MediaKind.spellings) (.media scenario.media) ++
  scenario.fieldFaults.map .invalid

/-- What the key stores complain of, when they are set up and given the first key. -/
def keyFaults (scenario : Scenario) : List KeyError :=
  scenario.keyOptions.faults.map .invalidOptions ++
  complaints (0 ≤ scenario.keyIndex ∧ scenario.keyIndex < scenario.ringSize)
    (.invalidIndex scenario.keyIndex scenario.ringSize)

/-- All that is in the way of a call, in the order in which it is looked at. -/
def obstacles (scenario : Scenario) : List CallError :=
  scenario.faults.map .scenario ++ scenario.keyFaults.map .key

variable {scenario : Scenario} {algorithm : Algorithm} {media : MediaKind}

theorem faults_eq_nil_iff :
    scenario.faults = [] ↔
      scenario.algorithm.toLower ∈ Algorithm.spellings ∧
        scenario.media.toLower ∈ MediaKind.spellings ∧ scenario.participant ≠ "" ∧
        scenario.key ≠ "" ∧ 1 ≤ scenario.workers := by
  simp only [faults, fieldFaults, List.append_eq_nil_iff, List.map_eq_nil_iff,
    complaints_eq_nil_iff, and_assoc]

theorem keyFaults_eq_nil_iff :
    scenario.keyFaults = [] ↔
      1 ≤ scenario.ringSize ∧ scenario.ringSize ≤ 256 ∧ 0 ≤ scenario.keyIndex ∧
        scenario.keyIndex < scenario.ringSize := by
  simp only [keyFaults, KeyOptions.faults, List.append_eq_nil_iff, List.map_eq_nil_iff,
    complaints_eq_nil_iff, and_assoc]
  exact Iff.rfl

theorem cipher_cases (scenario : Scenario) :
    (scenario.algorithm.toLower ∈ Algorithm.spellings ∧
        ∃ algorithm, scenario.cipher = .ok algorithm) ∨
      (scenario.algorithm.toLower ∉ Algorithm.spellings ∧
        scenario.cipher = .error (.algorithm (.unsupportedAlgorithm scenario.algorithm))) := by
  obtain ⟨hspelling, algorithm, hname⟩ | ⟨hspelling, hname⟩ :=
    Algorithm.ofName_cases scenario.algorithm
  · exact .inl ⟨hspelling, algorithm, by rw [cipher, hname]⟩
  · exact .inr ⟨hspelling, by rw [cipher, hname]⟩

theorem mediaKind_cases (scenario : Scenario) :
    (scenario.media.toLower ∈ MediaKind.spellings ∧ ∃ kind, scenario.mediaKind = .ok kind) ∨
      (scenario.media.toLower ∉ MediaKind.spellings ∧
        scenario.mediaKind = .error (.media scenario.media)) := by
  obtain ⟨hspelling, kind, hname⟩ | ⟨hspelling, hname⟩ := MediaKind.ofName?_cases scenario.media
  · exact .inl ⟨hspelling, kind, by rw [mediaKind, hname]⟩
  · exact .inr ⟨hspelling, by rw [mediaKind, hname]⟩

theorem fault?_eq_head? (scenario : Scenario) : scenario.fault? = scenario.fieldFaults.head? := by
  rw [fault?, fieldFaults]
  by_cases hparticipant : scenario.participant = ""
  · simp [hparticipant]
  by_cases hkey : scenario.key = ""
  · simp [hparticipant, hkey]
  by_cases hworkers : scenario.workers = 0
  · simp [hparticipant, hkey, hworkers]
  · simp [hparticipant, hkey, hworkers, Nat.one_le_iff_ne_zero]

theorem fault?_eq_none_iff :
    scenario.fault? = none ↔
      scenario.participant ≠ "" ∧ scenario.key ≠ "" ∧ 1 ≤ scenario.workers := by
  rw [fault?_eq_head?, List.head?_eq_none_iff, fieldFaults]
  simp only [List.append_eq_nil_iff, complaints_eq_nil_iff, and_assoc]

theorem validate_eq_head? (scenario : Scenario) :
    scenario.validate =
      match scenario.faults.head? with
      | some cause => .error cause
      | none => .ok () := by
  rw [validate, fault?_eq_head?, faults]
  obtain ⟨halgorithm, algorithm, hcipher⟩ | ⟨halgorithm, hcipher⟩ := scenario.cipher_cases
  · obtain ⟨hmedia, media, hkind⟩ | ⟨hmedia, hkind⟩ := scenario.mediaKind_cases
    · simp only [hcipher, hkind, complaints_of_met halgorithm, complaints_of_met hmedia,
        List.nil_append, List.head?_map, bind, Except.bind]
      cases scenario.fieldFaults.head? <;> rfl
    · simp [hcipher, hkind, halgorithm, hmedia, bind, Except.bind]
  · simp [hcipher, halgorithm, bind, Except.bind]

theorem validate_of_faultless (h : scenario.faults = []) : scenario.validate = .ok () := by
  rw [validate_eq_head?, h]
  rfl

theorem start_of_fault {cause : ScenarioError} (h : scenario.faults.head? = some cause) :
    Call.start scenario = .error (.scenario cause) := by
  have hinvalid : scenario.validate = .error cause := by rw [validate_eq_head?, h]
  rw [Call.start, hinvalid]
  rfl

theorem start_of_optionsFault {fault : OptionsFault} (h : scenario.faults = [])
    (hfault : scenario.keyOptions.faults.head? = some fault) :
    Call.start scenario = .error (.key (.invalidOptions fault)) := by
  have hvalid := validate_of_faultless h
  obtain ⟨⟨algorithm, hcipher⟩, ⟨media, hmedia⟩, -⟩ := validate_eq_ok_iff.mp hvalid
  have hnew : KeyStore.new scenario.keyOptions = .error (.invalidOptions fault) := by
    rw [KeyStore.new, KeyOptions.fault?_eq_head?, hfault]
  unfold Call.start
  simp only [hvalid, hcipher, hmedia, Leg.new, hnew, Except.mapError, bind, Except.bind]

theorem start_of_index_out (h : scenario.faults = []) (hoptions : scenario.keyOptions.faults = [])
    (hindex : ¬ (0 ≤ scenario.keyIndex ∧ scenario.keyIndex < scenario.ringSize)) :
    Call.start scenario =
      .error (.key (.invalidIndex scenario.keyIndex scenario.ringSize)) := by
  have hvalid := validate_of_faultless h
  obtain ⟨⟨algorithm, hcipher⟩, ⟨media, hmedia⟩, hfaultless⟩ := validate_eq_ok_iff.mp hvalid
  have hnone : scenario.keyOptions.fault? = none := by
    rw [KeyOptions.fault?_eq_head?, hoptions]
    rfl
  have hnew : KeyStore.new scenario.keyOptions = .ok _ := KeyStore.new_eq_ok_iff.mpr ⟨hnone, rfl⟩
  have hout : ¬ (0 ≤ scenario.keyIndex ∧ scenario.keyIndex.toNat < scenario.ringSize) := by
    omega
  have hcheck : KeyStore.checkIndex ⟨scenario.keyOptions, scenario.keyOptions.emptyRing, []⟩
      scenario.keyIndex = .error (.invalidIndex scenario.keyIndex scenario.ringSize) :=
    if_neg hout
  have hset : KeyStore.setKey ⟨scenario.keyOptions, scenario.keyOptions.emptyRing, []⟩
      ⟨scenario.participant⟩ scenario.keyIndex (Bytes.ofText scenario.key) =
        .error (.invalidIndex scenario.keyIndex scenario.ringSize) := by
    rw [KeyStore.setKey, hcheck]
    rfl
  unfold Call.start
  simp only [hvalid, hcipher, hmedia, Leg.new, hnew, Endpoint.new, participant_isEmpty hfaultless,
    Except.mapError, bind, Except.bind, pure, Except.pure, Bool.false_eq_true, if_false,
    Call.provision, Leg.setKeyIndex, hset]

theorem exists_startable (h : scenario.obstacles = []) :
    ∃ algorithm media, scenario.Startable algorithm media := by
  obtain ⟨hfaults, hkeys⟩ := List.append_eq_nil_iff.mp h
  rw [List.map_eq_nil_iff] at hfaults hkeys
  obtain ⟨⟨algorithm, hcipher⟩, ⟨media, hmedia⟩, hfaultless⟩ :=
    validate_eq_ok_iff.mp (validate_of_faultless hfaults)
  obtain ⟨hslots, hsize, hindex⟩ := keyFaults_eq_nil_iff.mp hkeys
  exact ⟨algorithm, media, hcipher, hmedia, hfaultless,
    KeyOptions.fault?_eq_none_iff.mpr ⟨hslots, hsize⟩, hindex⟩

/-- The three checks one after the other answer with the first of all complaints. -/
theorem start_of_obstacle {error : CallError} (h : scenario.obstacles.head? = some error) :
    Call.start scenario = .error error := by
  rw [obstacles, List.head?_append, List.head?_map, List.head?_map] at h
  cases hfaults : scenario.faults.head? with
  | some cause =>
      rw [hfaults] at h
      obtain rfl := Option.some.inj h
      exact start_of_fault hfaults
  | none =>
      have hfaultless := List.head?_eq_none_iff.mp hfaults
      rw [hfaults, keyFaults, List.head?_append, List.head?_map] at h
      cases hoptions : scenario.keyOptions.faults.head? with
      | some fault =>
          rw [hoptions] at h
          obtain rfl := Option.some.inj h
          exact start_of_optionsFault hfaultless hoptions
      | none =>
          rw [hoptions] at h
          by_cases hindex : 0 ≤ scenario.keyIndex ∧ scenario.keyIndex < scenario.ringSize
          · rw [complaints_of_met hindex] at h
            cases h
          · rw [complaints_of_not_met hindex] at h
            obtain rfl := Option.some.inj h
            exact start_of_index_out hfaultless (List.head?_eq_none_iff.mp hoptions) hindex

end Scenario

/-! ## A call that starts -/

/-- A side of the scenario's call to which nothing has happened but that its first
key was set. -/
structure Leg.Ready (leg : Leg) (scenario : Scenario) (direction : Direction) : Prop where
  /-- The material is of generation zero. -/
  key?_eq : ∀ index, leg.store.key? ⟨scenario.participant⟩ index =
    if index = scenario.keyIndex then
      some ⟨Bytes.ofText scenario.key, 0,
        deriveFrameKey (Bytes.ofText scenario.key) (Bytes.ofText scenario.salt)⟩
    else none
  intact : ∃ ring, leg.store.ring? ⟨scenario.participant⟩ = some ring ∧ ring.failures = 0 ∧
    ring.invalidated = false
  others : scenario.sharedKey = false → leg.store.sharedRing = scenario.keyOptions.emptyRing ∧
    ∀ other, other ≠ ⟨scenario.participant⟩ → leg.store.members.find? other = none
  members_eq : scenario.sharedKey = true → leg.store.members = []
  options_eq : leg.store.options = scenario.keyOptions
  enabled : leg.endpoint.enabled = true
  attached : leg.path.hook = some direction
  direction_eq : leg.endpoint.direction = direction
  participant_eq : leg.endpoint.participant = ⟨scenario.participant⟩
  heard_eq : leg.heard = []
  lastOutcome_eq : leg.endpoint.lastOutcome = none
  uncounted : leg.path.forwarded = 0 ∧ leg.path.dropped = 0

namespace Scenario

variable {scenario : Scenario} {algorithm : Algorithm} {media : MediaKind}

theorem Startable.firstStore_eq (h : scenario.Startable algorithm media) :
    ∃ ring, scenario.keyOptions.emptyRing.setKey scenario.keyIndex (Bytes.ofText scenario.key) =
        .ok ring ∧
      scenario.firstStore =
        (KeyStore.mk scenario.keyOptions scenario.keyOptions.emptyRing []).withRing
          ⟨scenario.participant⟩ ring := by
  have hsound := KeyStore.sound_of_new (KeyStore.new_eq_ok_iff.mpr ⟨h.options_faultless, rfl⟩)
  have hset : KeyStore.setKey _ ⟨scenario.participant⟩ scenario.keyIndex _ = _ :=
    hsound.setKey_eq_ok (Bytes.ofText scenario.key) h.index_in
  obtain ⟨-, ring, hring, hstore⟩ := KeyStore.setKey_eq_ok_iff.mp hset
  refine ⟨ring, ?_, hstore⟩
  -- There is only the shared ring yet, so either way the key goes into an empty one.
  rw [← hring, KeyStore.ring?]
  split <;> rfl

theorem Startable.ready (h : scenario.Startable algorithm media) (direction : Direction)
    (keyIndex : Int) :
    (scenario.firstLeg direction algorithm media keyIndex).Ready scenario direction := by
  obtain ⟨ring, hset, hstore⟩ := h.firstStore_eq
  obtain ⟨slot, -, -, hring⟩ := KeyRing.setKey_eq_ok_iff.mp hset
  refine ⟨?_, ⟨ring, ?_, ?_⟩, ?_, ?_, scenario.options_firstStore, rfl, rfl, rfl, rfl, rfl, rfl,
    rfl, rfl⟩
  · intro index
    show scenario.firstStore.key? _ index = _
    rw [hstore, KeyStore.key?_withRing, if_pos (Or.inr rfl), KeyRing.key?_setKey hset,
      KeyOptions.emptyRing, KeyRing.key?_empty]
    rfl
  · show scenario.firstStore.ring? _ = _
    rw [hstore, KeyStore.ring?_withRing_self]
  · rw [hring]
    exact ⟨rfl, rfl⟩
  · intro hseparate
    show scenario.firstStore.sharedRing = _ ∧ ∀ other, _ → scenario.firstStore.members.find? _ = _
    have hmode : ¬ scenario.keyOptions.shared = true := Bool.not_eq_true _ ▸ hseparate
    rw [hstore, KeyStore.withRing, if_neg hmode]
    refine ⟨rfl, fun other hother => ?_⟩
    rw [Members.find?_put, if_neg hother.symm]
    rfl
  · intro hshared
    show scenario.firstStore.members = []
    have hmode : scenario.keyOptions.shared = true := hshared
    rw [hstore, KeyStore.withRing, if_pos hmode]

end Scenario

/-- A call starts exactly if nothing is in its way, and otherwise the first thing
that is in its way is the answer, which is never a complaint of an endpoint. What
has started is complete: both sides have the first key and nothing else, are
switched on and attached, and nothing has been sent or reported. -/
theorem call_starts_unless_obstructed (scenario : Scenario) :
    ((Call.start scenario).isOk = true ↔
      (scenario.algorithm.toLower ∈ Algorithm.spellings ∧
        scenario.media.toLower ∈ MediaKind.spellings ∧ scenario.participant ≠ "" ∧
        scenario.key ≠ "" ∧ 1 ≤ scenario.workers) ∧
      1 ≤ scenario.ringSize ∧ scenario.ringSize ≤ 256 ∧ 0 ≤ scenario.keyIndex ∧
        scenario.keyIndex < scenario.ringSize) ∧
    match Call.start scenario with
    | .error error =>
      scenario.obstacles.head? = some error ∧ ∀ cause, error ≠ .endpoint cause
    | .ok call =>
      call.sender.Ready scenario .sender ∧ call.receiver.Ready scenario .receiver ∧
        call.sender.endpoint.keyIndex = scenario.keyIndex ∧ call.frames = [] ∧
        call.generations = [] := by
  rw [← Scenario.faults_eq_nil_iff, ← Scenario.keyFaults_eq_nil_iff]
  cases hobstacle : scenario.obstacles.head? with
  | none =>
      have hclear := List.head?_eq_none_iff.mp hobstacle
      obtain ⟨algorithm, media, h⟩ := Scenario.exists_startable hclear
      rw [Scenario.start_of_startable h]
      rw [Scenario.obstacles, List.append_eq_nil_iff, List.map_eq_nil_iff,
        List.map_eq_nil_iff] at hclear
      exact ⟨iff_of_true rfl hclear, h.ready .sender scenario.keyIndex, h.ready .receiver 0, rfl,
        rfl, rfl⟩
  | some error =>
      rw [Scenario.start_of_obstacle hobstacle]
      refine ⟨iff_of_false nofun ?_, rfl, ?_⟩
      · intro hfaultless
        rw [Scenario.obstacles, hfaultless.1, hfaultless.2] at hobstacle
        cases hobstacle
      · intro cause hcause
        have hmem := List.mem_of_head? hobstacle
        rw [hcause, Scenario.obstacles, List.mem_append, List.mem_map, List.mem_map] at hmem
        obtain ⟨fault, -, hfault⟩ | ⟨fault, -, hfault⟩ := hmem <;> cases hfault

end MediaSeal
