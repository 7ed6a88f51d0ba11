import MediaSeal.Proofs.AcceptedFrames
import MediaSeal.Proofs.Visits

/-!
# Who is told around deregistration

A run of an endpoint is made of frames that are interfered with and of what is
done between them. An observer is told of what it observes when the endpoint is
looked at, and a report that was decided on by then is made even if the observer
is taken off right after, or the endpoint given up. Nor does it count against an
observer that another one had its place for a while, as long as it is back when
the endpoint is looked at.

An endpoint that was given up stays given up, and it has no name any more by
which anybody could reach it. So the report that was on its way then is the last
one, and nothing that is done later has an effect on it. It may still be handed
frames, it tells nobody about them, and what it does with them is what it would
have done when it was given up.
-/

namespace MediaSeal

/-- Two endpoints do the same with a frame. -/
structure Endpoint.WorksLike {Name : Type} (endpoint other : Endpoint Name) : Prop where
  participant_eq : endpoint.participant = other.participant
  direction_eq : endpoint.direction = other.direction
  algorithm_eq : endpoint.algorithm = other.algorithm
  enabled_eq : endpoint.enabled = other.enabled
  keyIndex_eq : endpoint.keyIndex = other.keyIndex

theorem Endpoint.WorksLike.output_eq {Name : Type} {endpoint other : Endpoint Name}
    (h : endpoint.WorksLike other) (store : KeyStore) (entropy : Entropy) (frame : Frame) :
    (endpoint.attempt store entropy frame).output = (other.attempt store entropy frame).output := by
  have hprocess : endpoint.process store entropy frame = other.process store entropy frame := by
    unfold process
    rw [h.direction_eq, h.participant_eq, h.algorithm_eq, h.keyIndex_eq]
  unfold attempt
  rw [h.enabled_eq, hprocess]
  split <;> rfl

namespace Session

variable {session after : Session} {name : String} {ref : Ref .endpoint} {station : Station}

/-! ## A run -/

theorem told_of_gone {visit : Visit} {store : KeyStore} {entropy : Entropy} {offer : Offer}
    (h : visit.AsAttempted ref station store entropy) (hoffer : offer ∈ visit.offers)
    (hgone : offer.checked.Gone ref) : offer.told = none := by
  refine Option.eq_none_iff_forall_ne_some.mpr fun observer htold => ?_
  obtain ⟨-, endpoint, hendpoint, -, hheld⟩ := (h.told_iff offer hoffer observer).mp htold
  obtain ⟨given, hgiven, hdetached⟩ := hgone
  obtain rfl := Option.some.inj (hendpoint.symm.trans hgiven)
  exact Bool.false_ne_true (hheld.symm.trans hdetached)

/-- What is known of the frames of a run, and of the session after it. -/
structure Reported (session : Session) (ref : Ref .endpoint) (frames : List Frame)
    (visits : List Visit) (after : Session) : Prop where
  frames_eq : visits.map (·.frame) = frames
  attempted : ∀ visit ∈ visits, ∃ station store entropy,
    visit.AsAttempted ref station store entropy
  heard : ∀ place, after.observers.get? place = (session.observers.get? place).map
    ((Visit.noticesTo place visits).foldl Observer.hear)
  stays_gone : (session :: visits.flatMap Visit.moments ++ [after]).Pairwise
    fun earlier later => earlier.Gone ref → later.Gone ref

namespace Reported

variable {between : Session} {frames others : List Frame} {visits more : List Visit}

/-- A report that is made at an endpoint that was given up is the last one. -/
theorem silent_after (h : session.Reported ref frames visits after) :
    (visits.flatMap (·.offers)).Pairwise fun earlier later =>
      earlier.called.Gone ref → later.told = none := by
  have hmoments := (List.pairwise_append.mp (List.pairwise_cons.mp h.stays_gone).2).1
  obtain ⟨hwithin, hacross⟩ := List.pairwise_flatMap.mp hmoments
  -- Between two reports lies the look before the later one, which finds it given up.
  refine List.pairwise_flatMap.mpr ⟨fun visit hvisit => ?_, ?_⟩
  · obtain ⟨station, store, entropy, hattempted⟩ := h.attempted visit hvisit
    have hoffers := (List.pairwise_flatMap.mp (List.pairwise_cons.mp (hwithin visit hvisit)).2).2
    refine hoffers.imp_of_mem fun {earlier later} _ hlater hgone hcalled => ?_
    exact told_of_gone hattempted hlater
      (hgone earlier.called (by simp) later.checked (by simp) hcalled)
  · refine hacross.imp_of_mem fun {first second} _ hsecond hgone earlier hearlier later hlater
      hcalled => ?_
    obtain ⟨station, store, entropy, hattempted⟩ := h.attempted second hsecond
    refine told_of_gone hattempted hlater (hgone earlier.called ?_ later.checked ?_ hcalled)
    · exact List.mem_cons_of_mem _ (List.mem_flatMap.mpr ⟨earlier, hearlier, by simp⟩)
    · exact List.mem_cons_of_mem _ (List.mem_flatMap.mpr ⟨later, hlater, by simp⟩)

theorem of_no_frame (hobservers : after.observers = session.observers)
    (hgone : session.Gone ref → after.Gone ref) : session.Reported ref [] [] after where
  frames_eq := rfl
  attempted := nofun
  heard := by
    intro place
    rw [hobservers]
    exact Option.map_id'.symm ▸ rfl
  stays_gone := by simpa using hgone

theorem trans (first : session.Reported ref frames visits between)
    (second : between.Reported ref others more after) :
    session.Reported ref (frames ++ others) (visits ++ more) after where
  frames_eq := by rw [List.map_append, first.frames_eq, second.frames_eq]
  attempted := by
    intro visit hvisit
    rcases List.mem_append.mp hvisit with hfirst | hsecond
    · exact first.attempted visit hfirst
    · exact second.attempted visit hsecond
  heard := by
    intro place
    rw [second.heard, first.heard, Option.map_map, Visit.noticesTo_append]
    congr 1
    funext listener
    exact List.foldl_append.symm
  stays_gone := by
    have hfirst := List.pairwise_append.mp first.stays_gone
    have hsecond := List.pairwise_cons.mp second.stays_gone
    rw [List.flatMap_append, List.cons_append, List.append_assoc, ← List.cons_append]
    -- What is gone somewhere in the first part is gone where the second part starts.
    refine List.pairwise_append.mpr ⟨hfirst.1, hsecond.2, fun earlier hearlier later hlater h => ?_⟩
    exact hsecond.1 later hlater (hfirst.2.2 earlier hearlier between (List.mem_singleton_self _) h)

end Reported

theorem Staged.visit (h : session.Staged name ref) (frame : Frame)
    (meanwhile : List Interlude) :
    (session.visit ref frame meanwhile).left.Staged name ref ∧
      session.Reported ref [frame] [session.visit ref frame meanwhile]
        (session.visit ref frame meanwhile).left := by
  obtain ⟨station, store, entropy, hstation, hstore, hentropy⟩ := h.present
  obtain ⟨hattempted, hheard, hgone⟩ := asAttempted_visit hstation hstore hentropy frame meanwhile
  refine ⟨?_, ?_⟩
  · rw [visit_eq hstation hstore hentropy]
    refine (h.settle hstation ?_).offerAmid _ _ meanwhile
    rw [Endpoint.endpoint_attempt]
  · exact
      { frames_eq := by
          rw [visit_eq hstation hstore hentropy]
          rfl
        attempted := by
          intro visit hvisit
          rw [List.mem_singleton.mp hvisit]
          exact ⟨station, store, entropy, hattempted⟩
        heard := hheard
        stays_gone := by
          rw [List.flatMap_singleton, List.cons_append]
          refine List.pairwise_cons.mpr ⟨fun later hlater h => ?_, hgone⟩
          have hfound : (session.visit ref frame meanwhile).found = session := by
            rw [visit_eq hstation hstore hentropy]
          rw [Visit.moments, hfound, List.cons_append] at hlater hgone
          rcases List.mem_cons.mp hlater with rfl | hlater
          · exact h
          · exact (List.pairwise_cons.mp hgone).1 later hlater h }

theorem Staged.run (h : session.Staged name ref) (incidents : List Incident) :
    (visits ref session incidents).2.Staged name ref ∧
      session.Reported ref (incidents.filterMap Incident.frame?)
        (visits ref session incidents).1 (visits ref session incidents).2 := by
  induction incidents generalizing session with
  | nil => exact ⟨h, .of_no_frame rfl id⟩
  | cons incident rest ih =>
      cases incident with
      | controls commands =>
          obtain ⟨hstaged, hreported⟩ := ih (h.controls commands)
          exact ⟨hstaged, (Reported.of_no_frame (observers_controls session commands)
            fun hgone => hgone.controls commands).trans hreported⟩
      | rekey store entropy =>
          obtain ⟨hstaged, hreported⟩ := ih (h.rekey store entropy)
          refine ⟨hstaged, (Reported.of_no_frame ?_ ?_).trans hreported⟩
          · unfold Session.rekey
            split <;> rfl
          · unfold Session.rekey
            split <;> exact id
      | frame frame meanwhile =>
          obtain ⟨hleft, hfirst⟩ := h.visit frame meanwhile
          obtain ⟨hstaged, hreported⟩ := ih hleft
          exact ⟨hstaged, hfirst.trans hreported⟩

/-! ## After the end -/

/-- An endpoint that was given up can no longer be reached, and works as `last`
does. -/
structure Retained (session : Session) (ref : Ref .endpoint) (last : Endpoint (Ref .observer)) :
    Prop where
  nameless : ∀ name, session.stations.find? name ≠ some ref
  present : ∃ station, session.stations.get? ref = some station ∧
    station.endpoint.detached = true ∧ station.endpoint.WorksLike last

namespace Retained

variable {last snapshot : Endpoint (Ref .observer)} {between : Session}

theorem of_spares (h : session.Retained ref last) (hspares : session.Spares ref after) :
    after.Retained ref last where
  nameless := fun name hname => h.nameless name ((hspares.find?_iff name).mp hname)
  present := by
    rw [hspares.station_eq]
    exact h.present

theorem spares_controls (h : session.Retained ref last) (commands : List Control) :
    session.Spares ref (commands.foldl control session) :=
  Session.spares_controls fun command _ => h.nameless command.target

theorem reportsTo_eq (h : session.Retained ref last) (observer : Ref .observer) :
    session.reportsTo ref observer = false := by
  obtain ⟨station, hstation, hdetached, -⟩ := h.present
  rw [reportsTo, endpoint?, hstation]
  exact congrArg (fun detached => !detached && _) hdetached

/-- Reports fall due, and nobody is told. -/
theorem offerAmid (h : session.Retained ref last) (snapshot : Endpoint (Ref .observer))
    (transitions : List Outcome) (meanwhile : List Interlude) :
    let offered := offerAmid ref snapshot session transitions meanwhile
    (∀ offer ∈ offered.1, offer.told = none) ∧ offered.2.observers = session.observers ∧
      session.Spares ref offered.2 := by
  induction transitions generalizing session meanwhile with
  | nil => exact ⟨nofun, rfl, .refl session ref⟩
  | cons outcome rest ih =>
      -- Whatever the others do, they cannot name it, and so it has nobody to tell.
      let offer := session.offer ref snapshot outcome (meanwhile.headD ⟨[], []⟩)
      have hchecked : session.Spares ref offer.checked := h.spares_controls _
      have hcalled : session.Spares ref offer.called :=
        hchecked.trans ((h.of_spares hchecked).spares_controls offer.between)
      have hobservers : offer.called.observers = session.observers :=
        session.observers_called ref snapshot outcome _
      have hnobody : offer.told = none := by
        refine Option.filter_eq_none_iff.mpr fun observer _ => ?_
        exact Bool.eq_false_iff.mp ((h.of_spares hchecked).reportsTo_eq observer)
      have hnext : offer.called.tellAny offer.told offer.notice = offer.called := by
        rw [hnobody]
        rfl
      obtain ⟨hnone, hlater, hrest⟩ := ih (h.of_spares hcalled) meanwhile.tail
      rw [offerAmid_cons]
      dsimp only
      rw [hnext]
      refine ⟨fun other hother => ?_, hlater.trans hobservers, hcalled.trans hrest⟩
      rcases List.mem_cons.mp hother with rfl | hother
      · exact hnobody
      · exact hnone other hother

theorem settle (h : session.Retained ref last) (attempt : Attempt (Ref .observer))
    (hstation : session.stations.get? ref = some station)
    (hdetached : attempt.endpoint.detached = true) (hworks : attempt.endpoint.WorksLike last) :
    (session.settle ref station attempt).Retained ref last where
  nameless := h.nameless
  present := ⟨_, Registry.get?_set_self hstation, hdetached, hworks⟩

theorem rekey (h : session.Retained ref last) (store : KeyStore) (entropy : Entropy) :
    (session.rekey ref store entropy).Retained ref last := by
  unfold Session.rekey
  split
  · exact h
  · exact ⟨h.nameless, h.present⟩

theorem visit (h : session.Retained ref last) (hstaged : session.Staged name ref)
    (frame : Frame) (meanwhile : List Interlude) :
    let visit := session.visit ref frame meanwhile
    visit.left.Retained ref last ∧ visit.left.observers = session.observers ∧
      (∀ offer ∈ visit.offers, offer.told = none) ∧
      ∃ station store entropy, visit.AsAttempted ref station store entropy ∧
        visit.output = (last.attempt store entropy visit.frame).output := by
  intro visit
  obtain ⟨station, store, entropy, hstation, hstore, hentropy⟩ := hstaged.present
  obtain ⟨found, hfound, hdetached, hworks⟩ := h.present
  obtain rfl := Option.some.inj (hfound.symm.trans hstation)
  have hendpoint := Endpoint.endpoint_attempt found.endpoint store entropy frame
  have hattempt : (found.endpoint.attempt store entropy frame).endpoint.detached = true ∧
      (found.endpoint.attempt store entropy frame).endpoint.WorksLike last := by
    rw [hendpoint]
    exact ⟨hdetached, hworks.participant_eq, hworks.direction_eq, hworks.algorithm_eq,
      hworks.enabled_eq, hworks.keyIndex_eq⟩
  have hsettled := h.settle _ hstation hattempt.1 hattempt.2
  obtain ⟨hnone, hobservers, hspares⟩ := hsettled.offerAmid
    (found.endpoint.attempt store entropy frame).endpoint
    (found.endpoint.attempt store entropy frame).transitions meanwhile
  obtain ⟨hattempted, -, -⟩ := asAttempted_visit hstation hstore hentropy frame meanwhile
  have hvisit : visit = _ := visit_eq hstation hstore hentropy frame meanwhile
  refine ⟨?_, ?_, ?_, found, store, entropy, hattempted, ?_⟩
  · rw [hvisit]
    exact hsettled.of_spares hspares
  · rw [hvisit]
    exact hobservers
  · rw [hvisit]
    exact hnone
  · exact hattempted.output_eq.trans (hworks.output_eq store entropy _)

theorem run (h : session.Retained ref last) (hstaged : session.Staged name ref)
    (incidents : List Incident) :
    let run := visits ref session incidents
    run.2.observers = session.observers ∧ ∀ visit ∈ run.1,
      (∀ offer ∈ visit.offers, offer.told = none) ∧
      ∃ station store entropy, visit.AsAttempted ref station store entropy ∧
        visit.output = (last.attempt store entropy visit.frame).output := by
  induction incidents generalizing session with
  | nil => exact ⟨rfl, nofun⟩
  | cons incident rest ih =>
      cases incident with
      | controls commands =>
          obtain ⟨hobservers, hrest⟩ :=
            ih (h.of_spares (h.spares_controls commands)) (hstaged.controls commands)
          exact ⟨hobservers.trans (observers_controls session commands), hrest⟩
      | rekey store entropy =>
          obtain ⟨hobservers, hrest⟩ := ih (h.rekey store entropy) (hstaged.rekey store entropy)
          refine ⟨hobservers.trans ?_, hrest⟩
          unfold Session.rekey
          split <;> rfl
      | frame frame meanwhile =>
          obtain ⟨hleft, hfirst, hsilent⟩ := h.visit hstaged frame meanwhile
          obtain ⟨hobservers, hrest⟩ := ih hleft (hstaged.visit frame meanwhile).1
          refine ⟨hobservers.trans hfirst, fun visit hvisit => ?_⟩
          rcases List.mem_cons.mp hvisit with rfl | hlater
          · exact hsilent
          · exact hrest visit hlater

end Retained

theorem Staged.retained {last : Endpoint (Ref .observer)} (h : session.Staged name ref)
    (hlast : session.endpoint? ref = some last) (hdetached : last.detached = true) :
    session.Retained ref last where
  nameless := by
    intro other hother
    have hinUse := (h.sole other hother).2
    rw [inUse, hlast, Option.any_some, hdetached] at hinUse
    cases hinUse
  present := by
    obtain ⟨station, hstation, rfl⟩ := Option.map_eq_some_iff.mp hlast
    exact ⟨station, hstation, hdetached, rfl, rfl, rfl, rfl, rfl⟩

/-- An endpoint that was just set up under a name that was free can be handed
frames. -/
theorem staged_of_setUpNamed {started : Session} {participant : Participant}
    {direction : Direction} {algorithm : Algorithm} {store : Ref .store} {entropy : Ref .entropy}
    {path : Ref .path}
    (h : session.setUpNamed name participant direction algorithm store entropy path = .ok started)
    (hstore : ∃ found, session.stores.get? store = some found)
    (hentropy : ∃ found, session.entropies.get? entropy = some found)
    (hfree : session.stations.find? name = none)
    (hnext : ∀ other, session.stations.find? other ≠ some session.stations.next) :
    started.Staged name session.stations.next := by
  cases hparticipant : participant.isEmpty with
  | true =>
      rw [setUpNamed_of_empty hparticipant] at h
      cases h
  | false =>
      obtain ⟨endpoint, hheld, hok⟩ := session.setUpNamed_of_not_empty hparticipant name direction
        algorithm store entropy path
      rw [hok, hfree] at h
      injection h with h
      subst h
      obtain ⟨foundStore, hstore⟩ := hstore
      obtain ⟨foundEntropy, hentropy⟩ := hentropy
      have hnew := session.tenure?_withStation name ⟨endpoint, store, entropy, path⟩
      refine ⟨⟨_, foundStore, foundEntropy, Registry.get?_add_next session.stations _, hstore,
        hentropy⟩, fun other hother => ?_⟩
      rw [giveUpOlder, withStation, Registry.find?_assign] at hother
      split at hother
      · next hname =>
          refine ⟨hname, ?_⟩
          rw [giveUpOlder, inUse_eq, hnew, hheld]
          rfl
      · exact absurd hother (hnext other)

/-- Frames are handed to an endpoint, while and between which observers come and
go and the endpoint may be given up. Every frame fares as the attempt at it says,
whoever interferes, and an observer hears of it what falls due while it is there,
if it was there from the start: what counts is how the endpoint was found when it
was looked at, and that is how it is found when the report is made unless somebody
has turned to it in between. An endpoint that was given up stays so, and a report
that is made after that is the last one. Frames that arrive later no observer
hears of, and each fares as the endpoint would have had it when it was given up. -/
theorem told_iff_registered_when_looked_at (h : session.Staged name ref)
    (incidents : List Incident) :
    let run := visits ref session incidents
    (run.1.map (·.frame) = incidents.filterMap Incident.frame? ∧
      (∀ visit ∈ run.1, ∃ station store entropy,
        visit.AsAttempted ref station store entropy) ∧
      ∀ frame, ((run.2.visit ref frame []).output, (run.2.visit ref frame []).left) =
        run.2.transform ref frame) ∧
    (∀ place, run.2.observers.get? place = (session.observers.get? place).map
      ((Visit.noticesTo place run.1).foldl Observer.hear)) ∧
    ((session :: run.1.flatMap Visit.moments ++ [run.2]).Pairwise
        (fun earlier later => earlier.Gone ref → later.Gone ref) ∧
      (run.1.flatMap (·.offers)).Pairwise
        (fun earlier later => earlier.called.Gone ref → later.told = none) ∧
      ∀ state : Session, state.stations.find? name = some ref →
        (state.control (.drop name)).endpoint? ref = (state.endpoint? ref).map (·.giveUp)) ∧
    ∀ last, run.2.endpoint? ref = some last → last.detached = true → ∀ more,
      let rest := visits ref run.2 more
      rest.2.observers = run.2.observers ∧ ∀ visit ∈ rest.1,
        (∀ offer ∈ visit.offers, offer.told = none) ∧
        ∃ station store entropy, visit.AsAttempted ref station store entropy ∧
          visit.output = (last.attempt store entropy visit.frame).output := by
  intro run
  obtain ⟨hstaged, hreported⟩ := h.run incidents
  exact ⟨⟨hreported.frames_eq, hreported.attempted, run.2.visit_nil ref⟩, hreported.heard,
    ⟨hreported.stays_gone, hreported.silent_after, fun _ => endpoint?_control_drop⟩,
    fun last hlast hdetached more => (hstaged.retained hlast hdetached).run hstaged more⟩

/-- A session with a store, a source, a path and one observer, who gives an
endpoint up as soon as that fails to make sense of a frame. -/
def quitting : Session :=
  { Session.empty with
    stores := ⟨[⟨⟨true, [], 0, [7], 1, none⟩, ⟨[], none, [none], 0, false⟩, []⟩], []⟩
    entropies := ⟨[.constant 5], []⟩
    paths := ⟨[.new .audio], []⟩
    observers := ⟨[.new [⟨some .internalError, .drop "bob"⟩]], [("quitter", ⟨0⟩)]⟩ }

/-- Two frames that make no sense, and then one that does. -/
def quittingRun : List Incident :=
  [.controls [.observe "bob" "quitter", .setEnabled "bob" true],
    .frame ⟨.audio, false, [1]⟩ [], .frame ⟨.audio, false, [1]⟩ [],
    .frame ⟨.audio, false, []⟩ [⟨[.observe "bob" "quitter"], [.unobserve "bob"]⟩]]

theorem told_iff_registered_when_looked_at_quitting :
    ∃ started, quitting.setUpNamed "bob" ⟨"a"⟩ .receiver .aesGcm ⟨0⟩ ⟨0⟩ ⟨0⟩ = .ok started ∧
      let run := visits ⟨0⟩ started quittingRun
      run.1.map (·.output) = [none, none, some ⟨.audio, false, []⟩] ∧
      (run.2.observers.get? ⟨0⟩).map (·.heard) = some [⟨⟨"a"⟩, .internalError⟩] ∧
      ∀ more, (visits ⟨0⟩ run.2 more).2.observers = run.2.observers := by
  have hstarted : quitting.setUpNamed "bob" ⟨"a"⟩ .receiver .aesGcm ⟨0⟩ ⟨0⟩ ⟨0⟩ = .ok _ := rfl
  have hstaged := staged_of_setUpNamed hstarted ⟨_, rfl⟩ ⟨_, rfl⟩ rfl fun _ => nofun
  obtain ⟨-, hheard, -, hend⟩ := told_iff_registered_when_looked_at hstaged quittingRun
  refine ⟨_, hstarted, rfl, ?_, fun more => (hend _ rfl rfl more).1⟩
  exact congrArg (Option.map (·.heard)) (hheard ⟨0⟩)

/-- A session with a receiver that is one generation behind, and two observers. The first
lets the second take its place as soon as the key is advanced, and takes it back at once. -/
def attended : Session :=
  { Session.empty with
    stores := ⟨[oneBehind], []⟩
    entropies := ⟨[.constant 5], []⟩
    paths := ⟨[.new .audio], []⟩
    observers := ⟨[.new [⟨some .keyRatcheted, .observe "bob" "second"⟩,
      ⟨some .keyRatcheted, .observe "bob" "first"⟩], .new []],
      [("first", ⟨0⟩), ("second", ⟨1⟩)]⟩ }

/-- The endpoint, switched on and observed by the first of them. -/
def attendedEndpoint : Endpoint (Ref .observer) :=
  { participant := ⟨"a"⟩
    direction := .receiver
    algorithm := .aesGcm
    media := .audio
    enabled := true
    keyIndex := 0
    observer := some ⟨0⟩
    lastOutcome := none
    detached := false }

/-- A frame for this endpoint. -/
def attendedRun (wire : Bytes) (meanwhile : List Interlude) : List Incident :=
  [.controls [.observe "bob" "first", .setEnabled "bob" true],
    .frame ⟨.audio, false, wire⟩ meanwhile]

/-- The session with this endpoint. -/
def attending : Session :=
  { attended with
    paths := ⟨[(MediaPath.new .audio).attach (.endpoint ⟨0⟩)], []⟩
    stations := ⟨[⟨attendedEndpoint, ⟨0⟩, ⟨0⟩, ⟨0⟩⟩], [("bob", ⟨0⟩)]⟩ }

theorem transitions_attendedEndpoint {wire : Bytes} {opened : Opened} {after : KeyStore}
    (hdecrypt : oneBehind.decrypt ⟨"a"⟩ .aesGcm wire = (.ok opened, after))
    (hsteps : opened.steps = 1) (entropy : Entropy) :
    (attendedEndpoint.attempt oneBehind entropy ⟨.audio, false, wire⟩).transitions =
      [.keyRatcheted, .ok] := by
  simp only [Endpoint.attempt, attendedEndpoint, Endpoint.process, hdecrypt, Endpoint.history,
    hsteps, if_true, Nat.zero_lt_one]
  rfl

/-- If somebody gives the endpoint up when it was just looked at, the observer is told
although it is registered no more, and nothing is left to be registered with. If nobody
interferes, the observer that has come back is told the rest. -/
theorem attended_is_told_after_deregistration :
    ∃ sealed started,
      SealedFrame.ofFrame skippingFrame .aesGcm 1 skippedToKey (Bytes.zeros 12) = .ok sealed ∧
      attended.setUpNamed "bob" ⟨"a"⟩ .receiver .aesGcm ⟨0⟩ ⟨0⟩ ⟨0⟩ = .ok started ∧
      (∃ ratcheted opened, (visits ⟨0⟩ started
          (attendedRun sealed.toBytes [⟨[], [.drop "bob"]⟩])).1.flatMap (·.offers) =
            [ratcheted, opened] ∧
        ratcheted.told = some ⟨0⟩ ∧ ratcheted.called.Gone ⟨0⟩ ∧
        ¬ ratcheted.called.Observes ⟨0⟩ ⟨0⟩) ∧
      ∃ ratcheted opened, (visits ⟨0⟩ started
          (attendedRun sealed.toBytes [])).1.flatMap (·.offers) = [ratcheted, opened] ∧
        ratcheted.notice.outcome = .keyRatcheted ∧ ratcheted.told = some ⟨0⟩ ∧
        opened.notice.outcome = .ok ∧ opened.told = some ⟨0⟩ := by
  obtain ⟨sealed, opened, after, hsealed, hdecrypt, hsteps⟩ := exists_oneBehind_decrypt_eq
  obtain ⟨started, hstarted, hready⟩ : ∃ started,
      attended.setUpNamed "bob" ⟨"a"⟩ .receiver .aesGcm ⟨0⟩ ⟨0⟩ ⟨0⟩ = .ok started ∧
      [.observe "bob" "first", .setEnabled "bob" true].foldl control started = attending :=
    ⟨_, rfl, rfl⟩
  have hvisit : ∀ meanwhile, (visits ⟨0⟩ started (attendedRun sealed.toBytes meanwhile)).1 =
      [attending.visit ⟨0⟩ ⟨.audio, false, sealed.toBytes⟩ meanwhile] := by
    intro meanwhile
    rw [attendedRun, visits, hready]
    rfl
  have htransitions := transitions_attendedEndpoint hdecrypt hsteps (.constant 5)
  have hendpoint := Endpoint.endpoint_attempt attendedEndpoint oneBehind (.constant 5)
    ⟨.audio, false, sealed.toBytes⟩
  refine ⟨sealed, started, hsealed, hstarted, ?_, ?_⟩
  · rw [hvisit, List.flatMap_singleton, visit_eq rfl rfl rfl]
    dsimp only
    rw [htransitions, hendpoint]
    refine ⟨_, _, rfl, rfl, ⟨_, rfl, rfl⟩, ?_⟩
    rintro ⟨endpoint, hfound, hobserver, -⟩
    obtain rfl := Option.some.inj hfound
    cases hobserver
  · rw [hvisit, List.flatMap_singleton, visit_eq rfl rfl rfl]
    dsimp only
    rw [htransitions, hendpoint]
    exact ⟨_, _, rfl, rfl, rfl, rfl, rfl⟩

end Session

end MediaSeal
