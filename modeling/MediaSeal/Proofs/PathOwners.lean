import MediaSeal.Proofs.Tenures

/-!
# Who has a path

Each endpoint that is set up on a path takes it over from the one before. The
path does not notice when an endpoint is given up that it has gone through
before, however late that happens, and it does not return to one either.

Whatever the order is, only the endpoint that was set up last is ever on the
path, and it is as long as it was not given up. This is what `Owned` says of a
session, together with the counts of what went through, and it is enough to
check what is done to the path by the two operations that touch it: attaching,
which makes the new endpoint the last one, and detaching, which does nothing
unless it is for the last one.
-/

namespace MediaSeal.Session

variable {session after : Session} {path : Ref .path} {ref : Ref .endpoint}

/-! ## The path -/

/-- A path lets frames through the endpoint that was set up on it last, or
through none if that was given up, and has counted this many. -/
structure Owned (session : Session) (path : Ref .path) (kind : MediaKind)
    (latest : Option (Ref .endpoint)) (forwarded dropped : Nat) : Prop where
  path_eq : session.paths.get? path =
    some ⟨kind, (latest.filter session.inUse).map .endpoint, forwarded, dropped⟩
  place_eq : ∀ ref, latest = some ref → ∃ gone, session.tenure? ref = some (path, gone)

namespace Owned

variable {kind : MediaKind} {latest : Option (Ref .endpoint)} {forwarded dropped : Nat}

theorem of_same (h : session.Owned path kind latest forwarded dropped)
    (htenure : ∀ ref, latest = some ref → after.tenure? ref = session.tenure? ref)
    (hpath : after.paths.get? path = session.paths.get? path) :
    after.Owned path kind latest forwarded dropped where
  path_eq := by
    have hfilter : latest.filter after.inUse = latest.filter session.inUse := by
      cases latest with
      | none => rfl
      | some ref => rw [Option.filter_some, Option.filter_some, inUse_congr (htenure ref rfl)]
    rw [hpath, hfilter, h.path_eq]
  place_eq := by
    intro ref href
    rw [htenure ref href]
    exact h.place_eq ref href

/-- Nobody but the last one can leave the path, since nobody else is on it. -/
theorem paths_giveUp_of_ne (h : session.Owned path kind latest forwarded dropped)
    (hreplaced : latest ≠ some ref) :
    (session.giveUp ref).paths.get? path = session.paths.get? path := by
  cases hstation : session.stations.get? ref with
  | none => simp only [Session.giveUp, hstation]
  | some station =>
      rw [paths_giveUp hstation]
      by_cases hplace : station.path = path
      · have hother : (latest.filter session.inUse).map Hook.endpoint ≠ some (.endpoint ref) := by
          intro hhook
          obtain ⟨other, howner, hsame⟩ := Option.map_eq_some_iff.mp hhook
          obtain rfl := Hook.endpoint.inj hsame
          exact hreplaced (Option.filter_eq_some_iff.mp howner).1
        rw [hplace, Registry.get?_modify_same, h.path_eq, Option.map_some, MediaPath.detach,
          if_neg hother]
      · exact Registry.get?_modify_of_ne _ _ hplace

theorem giveUp (h : session.Owned path kind latest forwarded dropped) (ref : Ref .endpoint) :
    (session.giveUp ref).Owned path kind latest forwarded dropped := by
  by_cases hlatest : latest = some ref
  · -- It leaves the path now, or has done so already and is detached once more.
    subst hlatest
    obtain ⟨gone, hplace⟩ := h.place_eq ref rfl
    obtain ⟨station, hstation, htenure⟩ := Option.map_eq_some_iff.mp hplace
    have hafter : (session.giveUp ref).tenure? ref = some (path, true) := by
      rw [tenure?_giveUp, if_pos rfl, hplace]
      rfl
    have hgone : (session.giveUp ref).inUse ref = false := by
      rw [inUse_eq, hafter]
      rfl
    have hstationPath : station.path = path := congrArg Prod.fst htenure
    refine ⟨?_, fun other hother => ⟨true, Option.some.inj hother ▸ hafter⟩⟩
    rw [paths_giveUp hstation, hstationPath, Registry.get?_modify_same, h.path_eq,
      Option.filter_some, Option.filter_some, hgone]
    cases session.inUse ref <;> simp [MediaPath.detach]
  · refine h.of_same (fun other hother => ?_) (h.paths_giveUp_of_ne hlatest)
    rw [tenure?_giveUp, if_neg fun hsame => hlatest (hother.trans (congrArg some hsame.symm))]

theorem control (h : session.Owned path kind latest forwarded dropped) (command : Control) :
    (session.control command).Owned path kind latest forwarded dropped := by
  rcases session.tenure?_control command with
    ⟨htenure, hpaths⟩ | ⟨name, ref, -, -, htenure, hpaths⟩
  · exact h.of_same (fun ref _ => htenure ref) (by rw [hpaths])
  · exact (h.giveUp ref).of_same (fun other _ => htenure other) (by rw [hpaths])

theorem transform (h : session.Owned path kind latest forwarded dropped) (ref : Ref .endpoint)
    (frame : Frame) : (session.transform ref frame).2.Owned path kind latest forwarded dropped := by
  rcases session.transform_cases ref frame with
    hsame | ⟨station, store, entropy, hstation, -, -, htransform⟩
  · rw [hsame]
    exact h
  · rw [htransform]
    refine report_induction (motive := (·.Owned path kind latest forwarded dropped)) ?_ ?_
    · refine h.of_same (fun other _ => tenure?_settle hstation ?_ other) rfl
      rw [Endpoint.endpoint_attempt]
    · intro state observer notice hstate
      exact tell_induction (motive := (·.Owned path kind latest forwarded dropped)) hstate
        (fun _ _ => hstate.of_same (fun _ _ => rfl) rfl)
        fun _ _ reaction _ later hlater => hlater.control reaction.control

theorem throughHook (h : session.Owned path kind latest forwarded dropped) (hook : Hook)
    (frame : Frame) :
    (session.throughHook hook frame).2.Owned path kind latest forwarded dropped := by
  cases hook with
  | endpoint ref => exact h.transform ref frame
  | foreign ref =>
      cases hfound : session.hooks.get? ref <;>
        simp only [Session.throughHook, hfound] <;> exact h

theorem count (h : session.Owned path kind latest forwarded dropped) (output : Option Frame) :
    (session.modifyPath path (·.count output)).Owned path kind latest
      (forwarded + [output].countP Option.isSome) (dropped + [output].countP Option.isNone) where
  path_eq := by
    rw [modifyPath, Registry.get?_modify_same, h.path_eq]
    cases output <;> rfl
  place_eq := h.place_eq

theorem modifyPath_of_ne (h : session.Owned path kind latest forwarded dropped)
    {other : Ref .path} (hother : other ≠ path) (change : MediaPath Hook → MediaPath Hook) :
    (session.modifyPath other change).Owned path kind latest forwarded dropped :=
  h.of_same (fun _ _ => rfl) (Registry.get?_modify_of_ne _ _ hother)

/-- A frame goes through the endpoint that has the path, if one has it. -/
theorem push_eq (h : session.Owned path kind latest forwarded dropped) (frame : Frame) :
    session.push path frame =
      let passed := match latest.filter session.inUse with
        | some ref => session.transform ref frame
        | none => (some frame, session)
      (passed.1, passed.2.modifyPath path (·.count passed.1)) := by
  simp only [push, h.path_eq, Option.bind_some]
  cases latest.filter session.inUse <;> rfl

theorem push (h : session.Owned path kind latest forwarded dropped) (frame : Frame) :
    (session.push path frame).2.Owned path kind latest
      (forwarded + [(session.push path frame).1].countP Option.isSome)
      (dropped + [(session.push path frame).1].countP Option.isNone) := by
  rw [h.push_eq]
  split
  · next ref howner => exact (h.transform ref frame).count _
  · exact h.count _

theorem push_of_ne (h : session.Owned path kind latest forwarded dropped) {other : Ref .path}
    (hother : other ≠ path) (frame : Frame) :
    (session.push other frame).2.Owned path kind latest forwarded dropped := by
  cases hhook : (session.paths.get? other).bind (·.hook) with
  | some hook =>
      simp only [Session.push, hhook]
      exact (h.throughHook hook frame).modifyPath_of_ne hother _
  | none =>
      simp only [Session.push, hhook]
      exact h.modifyPath_of_ne hother _

theorem withStation (h : session.Owned path kind latest forwarded dropped) (name : String)
    (station : Station) (hheld : station.endpoint.detached = false) :
    (session.withStation name station).Owned path kind
      (if station.path = path then some session.stations.next else latest) forwarded dropped := by
  have hnew := session.tenure?_withStation name station
  by_cases hplace : station.path = path
  · rw [if_pos hplace]
    refine ⟨?_, fun ref href => ⟨false, ?_⟩⟩
    · have hinUse : (session.withStation name station).inUse session.stations.next = true := by
        rw [inUse_eq, hnew, hheld]
        rfl
      rw [Option.filter_some, if_pos hinUse, Session.withStation, hplace, Registry.get?_modify_same,
        h.path_eq]
      rfl
    · rw [← Option.some.inj href, hnew, hplace, hheld]
  · rw [if_neg hplace]
    refine h.of_same (fun ref href => ?_) (Registry.get?_modify_of_ne _ _ hplace)
    obtain ⟨gone, htenure⟩ := h.place_eq ref href
    rw [htenure]
    exact tenure?_withStation_of_some htenure name station

theorem giveUpOlder (h : session.Owned path kind latest forwarded dropped)
    (older : Option (Ref .endpoint)) :
    (session.giveUpOlder older).Owned path kind latest forwarded dropped := by
  cases older with
  | none => exact h
  | some ref => exact h.giveUp ref

theorem perform (h : session.Owned path kind latest forwarded dropped) (step : PathStep) :
    (session.perform step).Owned path kind ((session.setsUp? path step).or latest)
      (forwarded + (session.output? path step).toList.countP Option.isSome)
      (dropped + (session.output? path step).toList.countP Option.isNone) := by
  cases step with
  | giveUp ref => exact h.giveUp ref
  | control command => exact h.control command
  | push place frame =>
      by_cases hplace : place = path
      · subst hplace
        simp only [Session.perform, setsUp?, output?, if_true, Option.none_or, Option.toList_some]
        exact h.push frame
      · simp only [Session.perform, setsUp?, output?, hplace, if_false]
        exact h.push_of_ne hplace frame
  | setUp name participant direction algorithm store entropy place =>
      cases hparticipant : participant.isEmpty with
      | true =>
          simp only [Session.perform, setsUp?, output?, setUpNamed_of_empty hparticipant]
          simp only [Except.isOk, Except.toBool, Bool.false_eq_true, and_false, if_false]
          exact h
      | false =>
          obtain ⟨endpoint, hheld, hok⟩ := session.setUpNamed_of_not_empty hparticipant name
            direction algorithm store entropy place
          have hnew := (h.withStation name ⟨endpoint, store, entropy, place⟩ hheld).giveUpOlder
            (session.stations.find? name)
          simp only [Session.perform, setsUp?, output?, hok, Except.isOk, Except.toBool, and_true]
          split
          · next hplace =>
              rw [if_pos hplace] at hnew
              exact hnew
          · next hplace =>
              rw [if_neg hplace] at hnew
              exact hnew

theorem performAll (h : session.Owned path kind latest forwarded dropped)
    (steps : List PathStep) :
    let outputs := collect (output? · path) session steps
    (session.performAll steps).Owned path kind
      ((collect (setsUp? · path) session steps).getLast?.or latest)
      (forwarded + outputs.countP Option.isSome) (dropped + outputs.countP Option.isNone) := by
  induction steps generalizing session latest forwarded dropped with
  | nil => exact h
  | cons step rest ih =>
      have hrest := ih (h.perform step)
      simp only [collect, List.getLast?_append, List.countP_append, Option.or_assoc,
        ← Nat.add_assoc]
      have hlast : (session.setsUp? path step).toList.getLast? = session.setsUp? path step := by
        cases session.setsUp? path step <;> rfl
      rw [hlast]
      exact hrest

end Owned

theorem length_outputs (session : Session) (path : Ref .path) (steps : List PathStep) :
    (collect (output? · path) session steps).length = steps.countP (·.isPushOn path) := by
  induction steps generalizing session with
  | nil => rfl
  | cons step rest ih =>
      rw [collect, List.length_append, ih, List.countP_cons, Nat.add_comm]
      congr 1
      cases step with
      | push place frame => by_cases h : place = path <;> simp [output?, PathStep.isPushOn, h]
      | _ => rfl

/-- Endpoints are set up on a path that is new and on others, are given up,
controlled and sent frames, in any order. The path goes through the endpoint
that was set up on it last as long as that was not given up, and through none
otherwise. To give up means a step that does so, unless observers do it too. A
frame passes through this endpoint or is let through, and each is counted once.
Nothing is changed by an endpoint that cannot be set up, and the path is not
changed by giving up one that has been replaced. -/
theorem path_belongs_to_latest {kind : MediaKind}
    (hpath : session.paths.get? path = some (.new kind))
    (hnamed : ∀ name ref, session.stations.find? name = some ref →
      ∃ station, session.stations.get? ref = some station)
    (steps : List PathStep) :
    let after := session.performAll steps
    let built := collect (setsUp? · path) session steps
    let given := collect givesUp? session steps
    let outputs := collect (output? · path) session steps
    let owner := built.getLast?.filter after.inUse
    ∃ current, after.paths.get? path = some current ∧
      (current.hook = owner.map .endpoint ∧
        (∀ ref ∈ built, ref ∈ given → after.inUse ref = false) ∧
        (session.Quiet → ∀ ref ∈ built, ref ∉ given → after.inUse ref = true)) ∧
      (current.forwarded = outputs.countP Option.isSome ∧
        current.forwarded + current.dropped = steps.countP (·.isPushOn path)) ∧
      (∀ frame, after.push path frame =
        let passed := match owner with
          | some ref => after.transform ref frame
          | none => (some frame, after)
        (passed.1, passed.2.modifyPath path (·.count passed.1))) ∧
      (∀ name participant direction algorithm store entropy,
        (participant.isEmpty = true → ∀ place,
          after.perform (.setUp name participant direction algorithm store entropy place) =
            after) ∧
        (participant.isEmpty = false →
          after.setsUp? path (.setUp name participant direction algorithm store entropy path) =
            some after.stations.next)) ∧
      ∀ ref, built.getLast? ≠ some ref →
        (after.perform (.giveUp ref)).paths.get? path = some current := by
  intro after built given outputs owner
  have hstart : session.Owned path kind none 0 0 := ⟨hpath, nofun⟩
  have howned := hstart.performAll steps
  simp only [Option.or_none, Nat.zero_add] at howned
  have hnew : session.Tally session.Quiet [] [] :=
    { named := by
        intro name ref hname
        obtain ⟨station, hstation⟩ := hnamed name ref hname
        rw [tenure?, hstation]
        rfl
      present := nofun
      gone := nofun
      stays := fun h => ⟨h, nofun⟩ }
  have htally := hnew.performAll path steps
  rw [List.nil_append, List.nil_append] at htally
  refine ⟨_, howned.path_eq, ⟨rfl, htally.gone, fun h => (htally.stays h).2⟩, ⟨rfl, ?_⟩,
    howned.push_eq, fun name participant direction algorithm store entropy => ⟨?_, ?_⟩, ?_⟩
  · have hcounted := List.length_eq_countP_add_countP Option.isSome (l := outputs)
    have hnone : (fun output : Option Frame => decide ¬ output.isSome = true) = Option.isNone := by
      funext output
      cases output <;> rfl
    rw [hnone, session.length_outputs path steps] at hcounted
    exact hcounted.symm
  · intro hempty place
    simp only [perform, setUpNamed_of_empty hempty]
  · intro hparticipant
    obtain ⟨endpoint, -, hok⟩ := after.setUpNamed_of_not_empty hparticipant name direction
      algorithm store entropy path
    simp only [setsUp?, hok, Except.isOk, Except.toBool, and_self, if_true]
  · intro ref hreplaced
    rw [perform, howned.paths_giveUp_of_ne hreplaced, howned.path_eq]

/-- Two endpoints, and a third one in between that belongs to nobody. -/
def handover : List PathStep :=
  let setUp (name participant : String) : PathStep :=
    .setUp name ⟨participant⟩ .sender .aesGcm ⟨0⟩ ⟨0⟩ ⟨0⟩
  [setUp "x" "a", setUp "y" "b", setUp "z" "", .giveUp ⟨0⟩, .push ⟨0⟩ ⟨.audio, false, [1]⟩]

theorem path_belongs_to_latest_after_handover :
    let session : Session := { Session.empty with paths := ⟨[.new .audio], []⟩ }
    let path? (steps : List PathStep) := (session.performAll steps).paths.get? ⟨0⟩
    (∃ current, path? handover = some current ∧ current.hook = some (.endpoint ⟨1⟩) ∧
        current.forwarded + current.dropped = 1) ∧
      ∃ current, path? (handover ++ [.giveUp ⟨1⟩]) = some current ∧ current.hook = none := by
  intro session path?
  have hpath : session.paths.get? ⟨0⟩ = some (.new .audio) := rfl
  have hnamed : ∀ name ref, session.stations.find? name = some ref →
      ∃ station, session.stations.get? ref = some station := nofun
  constructor
  · obtain ⟨current, hcurrent, ⟨hhook, -, hstays⟩, ⟨-, hcount⟩, -⟩ :=
      path_belongs_to_latest hpath hnamed handover
    have hinUse := hstays nofun ⟨1⟩ (by decide) (by decide)
    refine ⟨current, hcurrent, ?_, hcount⟩
    rw [hhook]
    exact congrArg (Option.map Hook.endpoint) (Option.filter_some_pos hinUse)
  · obtain ⟨current, hcurrent, ⟨hhook, hgone, -⟩, -⟩ :=
      path_belongs_to_latest hpath hnamed (handover ++ [.giveUp ⟨1⟩])
    have hleft := hgone ⟨1⟩ (by decide) (by decide)
    refine ⟨current, hcurrent, ?_⟩
    rw [hhook]
    exact congrArg (Option.map Hook.endpoint) (Option.filter_some_neg hleft)

end MediaSeal.Session
