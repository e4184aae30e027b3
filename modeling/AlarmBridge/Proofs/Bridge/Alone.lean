import AlarmBridge.Proofs.Bridge.Heard

/-! An entity of a bridge alone.  From a run of the whole bridge, `ownSteps` takes what concerns one
entity, at the times at which the run does it; run on a bridge with that entity only, they come to
the same. -/

set_option autoImplicit false

namespace AlarmBridge

open Bridge (Step)

/-- A step as it concerns the entity at a place, if it does, for a bridge that has only this
entity. -/
def Bridge.Step.own? (k : Hearing) (i time : Nat) : Step → Option Step
  | .push text =>
    match PushEvent.ofText? text with
    | .ok e => if k.reaches time e then some (.push text) else none
    | .error _ => none
  | .dispatch e => if k.reaches time e then some (.dispatch e) else none
  | .deliver j e => if j = i then some (.deliver 0 e) else none
  | .publishAll => some .publishAll
  | .refresh => some .refresh
  | .apply s => some (.apply s)
  | .poll text => some (.poll text)
  | .setState systemId state => some (.setState systemId state)
  | .close => some .close
  | _ => none

namespace Bridge

/-- The steps at given times that concern the entity at a place, with the clock let run from a time
to each of them and to the end. -/
def ownSteps (k : Hearing) (i : Nat) : Nat → List (Nat × Step) → Nat → List Step
  | now, [], last => [.advance (last - now)]
  | now, (time, s) :: steps, last =>
    .advance (time - now) :: (s.own? k i time).toList ++ ownSteps k i time steps last

/-- A bridge that has only the entity at a place. -/
def only (b : Bridge) (i : Nat) : Bridge := { b with entities := b.entities[i]?.toList }

variable {ent : Entity} {k : Hearing} {i time : Nat}

theorem heeds_of_mem_dispatched? {event : PushEvent} {x : Input} (hx : x ∈ ent.dispatched? event) :
    k.heeds (time, x) = k.reaches time event := by
  unfold Entity.dispatched? at hx
  split at hx
  · obtain rfl : .event event = x := by simpa using hx
    rfl
  · simp at hx

theorem heeds_of_mem_refreshed? {session : Session} {x : Input} (hx : x ∈ ent.refreshed? session) :
    k.heeds (time, x) = true := by
  obtain ⟨value, -, rfl⟩ := Option.map_eq_some_iff.mp hx
  rfl

/-- A step that is left out tells the entity nothing that it heeds. -/
theorem own?_eq_none (ent : Entity) {s : Step} (h : s.own? k i time = none) (session : Session) :
    session.after s = session ∧ ∀ x ∈ ent.input? i session s, k.heeds (time, x) = false := by
  cases s with
  | push text =>
    refine ⟨rfl, fun x hx => ?_⟩
    cases htext : PushEvent.ofText? text with
    | error fault => simp [Entity.input?, htext] at hx
    | ok e =>
      simp only [Entity.input?, htext] at hx
      have hreaches : k.reaches time e = false := by simpa [Step.own?, htext] using h
      exact (heeds_of_mem_dispatched? hx).trans hreaches
  | dispatch e =>
    have hreaches : k.reaches time e = false := by simpa [Step.own?] using h
    exact ⟨rfl, fun x hx => (heeds_of_mem_dispatched? hx).trans hreaches⟩
  | deliver j e =>
    have hj : j ≠ i := by simpa [Step.own?] using h
    simp [Session.after, Entity.input?, hj]
  | publishAll => simp [Step.own?] at h
  | refresh => simp [Step.own?] at h
  | apply next => simp [Step.own?] at h
  | poll text => simp [Step.own?] at h
  | setState systemId state => simp [Step.own?] at h
  | close => simp [Step.own?] at h
  | _ => simp [Session.after, Entity.input?]

/-- A step that is taken over tells the entity the same, and takes no time. -/
theorem own?_eq_some (ent : Entity) {s own : Step} (h : s.own? k i time = some own)
    (session : Session) :
    session.after own = session.after s ∧ ent.input? 0 session own = ent.input? i session s ∧
      (∀ x ∈ ent.input? i session s, k.heeds (time, x) = true) ∧
      ∀ b : Bridge, (b.act own).1.now = b.now := by
  cases s with
  | push text =>
    cases htext : PushEvent.ofText? text with
    | error fault => simp [Step.own?, htext] at h
    | ok e =>
      obtain ⟨hreaches, rfl⟩ : k.reaches time e = true ∧ .push text = own := by
        simpa [Step.own?, htext] using h
      refine ⟨rfl, rfl, fun x hx => ?_, fun b => ?_⟩
      · simp only [Entity.input?, htext] at hx
        exact (heeds_of_mem_dispatched? hx).trans hreaches
      · simp only [act, htext]
        exact (steady_dispatch b e).2
  | dispatch e =>
    obtain ⟨hreaches, rfl⟩ : k.reaches time e = true ∧ .dispatch e = own := by
      simpa [Step.own?] using h
    exact ⟨rfl, rfl, fun x hx => (heeds_of_mem_dispatched? hx).trans hreaches,
      fun b => (steady_dispatch b e).2⟩
  | deliver j e =>
    obtain ⟨rfl, rfl⟩ : j = i ∧ .deliver 0 e = own := by simpa [Step.own?] using h
    refine ⟨rfl, by simp [Entity.input?], fun x hx => ?_, fun b => now_deliver e b 0⟩
    simp only [Entity.input?, true_and] at hx
    split at hx
    · obtain rfl : .trigger = x := by simpa using hx
      rfl
    · simp at hx
  | publishAll =>
    obtain rfl : .publishAll = own := by simpa [Step.own?] using h
    refine ⟨rfl, rfl, fun x hx => ?_, fun b => (Steady.of_bare_eq (bare_publishAll b)).2⟩
    obtain rfl : .act .publish = x := by simpa [Entity.input?] using hx
    rfl
  | refresh =>
    obtain rfl : .refresh = own := by simpa [Step.own?] using h
    exact ⟨rfl, rfl, fun x hx => heeds_of_mem_refreshed? hx,
      fun b => (Steady.of_bare_eq (bare_refresh b)).2⟩
  | apply next =>
    obtain rfl : .apply next = own := by simpa [Step.own?] using h
    exact ⟨rfl, rfl, fun x hx => by simp [Entity.input?] at hx, fun b => rfl⟩
  | poll text =>
    obtain rfl : .poll text = own := by simpa [Step.own?] using h
    refine ⟨rfl, rfl, fun x hx => ?_, fun b => ?_⟩
    · cases htext : Snapshot.ofText? text with
      | error fault => simp [Entity.input?, htext] at hx
      | ok next =>
        simp only [Entity.input?, htext] at hx
        exact heeds_of_mem_refreshed? hx
    · simp only [act]
      split
      · exact (Steady.of_bare_eq (bare_refresh _)).2
      · rfl
  | setState systemId state =>
    obtain rfl : .setState systemId state = own := by simpa [Step.own?] using h
    exact ⟨rfl, rfl, fun x hx => by simp [Entity.input?] at hx, fun b => rfl⟩
  | close =>
    obtain rfl : .close = own := by simpa [Step.own?] using h
    refine ⟨rfl, rfl, fun x hx => ?_, fun b => rfl⟩
    obtain rfl : .act .close = x := by simpa [Entity.input?] using hx
    rfl
  | _ => simp [Step.own?] at h

theorem filter_heeds_toList {x? : Option Input} {v : Bool}
    (h : ∀ x ∈ x?, k.heeds (time, x) = v) :
    (x?.map (time, ·)).toList.filter k.heeds = if v then (x?.map (time, ·)).toList else [] := by
  cases x? with
  | none => cases v <;> rfl
  | some x =>
    have hx := h x rfl
    cases v <;> simp [hx]

theorem heard_cons (ent : Entity) (i : Nat) (session : Session) (x : Nat × Step)
    (steps : List (Nat × Step)) : ent.heard i session (x :: steps) =
      ((ent.input? i session x.2).map (x.1, ·)).toList ++
        ent.heard i (session.after x.2) steps :=
  rfl

/-- On the bridge that has only it, an entity hears what it heeds of the whole run. -/
theorem heard_ownSteps (k : Hearing) {steps : List (Nat × Step)} {last : Nat} (b : Bridge)
    (hsorted : steps.Pairwise (·.1 ≤ ·.1)) (hstart : ∀ x ∈ steps, b.now ≤ x.1)
    (hend : ∀ x ∈ steps, x.1 ≤ last) (hnow : b.now ≤ last) :
    (b.run (ownSteps k i b.now steps last)).now = last ∧
      ent.heard 0 b.session (b.timed (ownSteps k i b.now steps last)) =
        (ent.heard i b.session steps).filter k.heeds := by
  have hadvance : ∀ (b : Bridge) t, b.now ≤ t → (b.step (.advance (t - b.now))).1.now = t := by
    intro b t hle
    rw [now_step]
    show (b.runUntil (b.now + (t - b.now))).now = t
    rw [now_runUntil]
    omega
  induction steps generalizing b with
  | nil => exact ⟨hadvance b last hnow, rfl⟩
  | cons x steps ih =>
    obtain ⟨t, s⟩ := x
    obtain ⟨hfirst, hsorted⟩ := List.pairwise_cons.mp hsorted
    have hlast := fun y hy => hend y (List.mem_cons_of_mem _ hy)
    let moved := (b.step (.advance (t - b.now))).1
    have hmoved : moved.now = t := hadvance b t (hstart (t, s) List.mem_cons_self)
    have hsession : moved.session = b.session := (steady_step b (.advance (t - b.now))).session
    have hsteps : ownSteps k i b.now ((t, s) :: steps) last =
        .advance (t - b.now) :: ((s.own? k i t).toList ++ ownSteps k i t steps last) := rfl
    rw [hsteps, heard_cons, List.filter_append]
    cases hown : s.own? k i t with
    | none =>
      obtain ⟨hafter, hdeaf⟩ := own?_eq_none ent hown b.session
      obtain ⟨hrun, hheard⟩ := ih moved hsorted (hmoved ▸ hfirst) hlast
        (hmoved ▸ hend (t, s) List.mem_cons_self)
      rw [hsession, hmoved] at hheard
      rw [hmoved] at hrun
      rw [filter_heeds_toList hdeaf, hafter]
      exact ⟨hrun, hheard⟩
    | some own =>
      obtain ⟨hafter, hinput, hheeds, hinstant⟩ := own?_eq_some ent hown b.session
      let done := (moved.step own).1
      have hdone : done.now = t := (now_step moved own).trans ((hinstant moved).trans hmoved)
      have hrecords : done.session = b.session.after s := by
        have : done.session = moved.session.after own := (steady_step moved own).session
        rw [this, hsession, hafter]
      obtain ⟨hrun, hheard⟩ := ih done hsorted (hdone ▸ hfirst) hlast
        (hdone ▸ hend (t, s) List.mem_cons_self)
      rw [hrecords, hdone] at hheard
      rw [hdone] at hrun
      refine ⟨hrun, ?_⟩
      show ((ent.input? 0 b.session own).map (moved.now, ·)).toList ++
        ent.heard 0 (b.session.after own) (done.timed (ownSteps k i t steps last)) = _
      rw [filter_heeds_toList hheeds, hinput, hmoved, hafter, hheard]
      rfl

theorem timed_bounds (b : Bridge) (steps : List Step) :
    b.now ≤ (b.run steps).now ∧ (b.timed steps).Pairwise (·.1 ≤ ·.1) ∧
      ∀ x ∈ b.timed steps, b.now ≤ x.1 ∧ x.1 ≤ (b.run steps).now := by
  induction steps generalizing b with
  | nil => exact ⟨Nat.le_refl _, .nil, by simp [timed]⟩
  | cons s steps ih =>
    obtain ⟨hle, hsorted, hbounds⟩ := ih (b.step s).1
    have hstep : b.now ≤ (b.step s).1.now := (steady_step b s).now
    refine ⟨Nat.le_trans hstep hle, List.pairwise_cons.mpr ⟨fun x hx => ?_, hsorted⟩, ?_⟩
    · exact Nat.le_trans hstep (hbounds x hx).1
    · intro x hx
      rcases List.mem_cons.mp hx with rfl | hx
      · exact ⟨Nat.le_refl _, Nat.le_trans hstep hle⟩
      · exact ⟨Nat.le_trans hstep (hbounds x hx).1, (hbounds x hx).2⟩

theorem receives_of_dispatched? {e event : PushEvent}
    (h : ent.dispatched? e = some (.event event)) : ent.receives event = true := by
  unfold Entity.dispatched? at h
  split at h
  · next hreceives =>
    obtain rfl : e = event := by simpa using h
    exact hreceives
  · simp at h

theorem refreshed?_ne_event (ent : Entity) (session : Session) (event : PushEvent) :
    ent.refreshed? session ≠ some (.event event) := by
  intro h
  obtain ⟨value, -, hvalue⟩ := Option.map_eq_some_iff.mp h
  simp at hvalue

theorem receives_of_input? {event : PushEvent} {session : Session} {s : Step}
    (h : ent.input? i session s = some (.event event)) : ent.receives event = true := by
  cases s with
  | push text =>
    simp only [Entity.input?] at h
    split at h
    · exact receives_of_dispatched? h
    · simp at h
  | dispatch e => exact receives_of_dispatched? h
  | refresh => exact absurd h (refreshed?_ne_event ent _ event)
  | poll text =>
    simp only [Entity.input?] at h
    split at h
    · exact absurd h (refreshed?_ne_event ent _ event)
    · simp at h
  | deliver j e =>
    simp only [Entity.input?] at h
    split at h <;> simp at h
  | _ => simp [Entity.input?] at h

theorem receives_of_mem_heard {event : PushEvent} {session : Session} {steps : List (Nat × Step)}
    (h : (time, .event event) ∈ ent.heard i session steps) : ent.receives event = true := by
  induction steps generalizing session with
  | nil => simp [Entity.heard] at h
  | cons x steps ih =>
    rw [heard_cons] at h
    rcases List.mem_append.mp h with h | h
    · obtain ⟨input, hinput, heq⟩ := Option.map_eq_some_iff.mp (Option.mem_toList.mp h)
      obtain rfl : input = .event event := congrArg Prod.snd heq
      exact receives_of_input? hinput
    · exact ih h

/-- The entity of a bridge that has only it is reached by every event that it accepts. -/
theorem reaches_only {b : Bridge} {event : PushEvent} (hent : b.entities[i]? = some ent)
    (h : ent.receives event = true) : ((b.only i).hearing 0).reaches time event = true := by
  have hreceivers : ({ b.only i with now := time } : Bridge).receivers event = [0] := by
    simp [receivers, only, hent, h, List.range_succ]
  have hserved : ({ b.only i with now := time } : Bridge).served event = [0] := by
    unfold served
    rw [hreceivers]
    split <;> rfl
  show decide (0 ∈ ({ b.only i with now := time } : Bridge).served event) = true
  simp [hserved]

/-- Run alone on what concerns it, an entity comes to what it comes to in the whole bridge. -/
theorem track_ownSteps {b : Bridge} (hent : b.entities[i]? = some ent) (hagenda : b.agenda = [])
    (houtbox : b.outbox = []) (steps : List Step) :
    let own := ownSteps (b.hearing i) i b.now (b.timed steps) (b.run steps).now
    ((b.only i).run own).now = (b.run steps).now ∧
      ((b.only i).run own).track 0 = (b.run steps).track i ∧
      ((b.only i).run own).pendingClears 0 = (b.run steps).pendingClears i := by
  intro own
  obtain ⟨hle, hsorted, hbounds⟩ := timed_bounds b steps
  obtain ⟨hnow, hheard⟩ : ((b.only i).run own).now = (b.run steps).now ∧
      ent.heard 0 b.session ((b.only i).timed own) =
        (ent.heard i b.session (b.timed steps)).filter (b.hearing i).heeds :=
    heard_ownSteps (b.hearing i) (b.only i) hsorted (fun x hx => (hbounds x hx).1)
      (fun x hx => (hbounds x hx).2) hle
  have honly : (b.only i).entities[0]? = some ent := by simp [only, hent]
  have htold := told_run hent steps
  have hwhole := htold.follows (follows_start hent hagenda houtbox) rfl
  have halone := (told_run honly own).follows (follows_start honly hagenda houtbox) rfl
  -- what reaches the entity in the whole bridge reaches it alone
  have hheeds : ∀ x ∈ (ent.heard i b.session (b.timed steps)).filter (b.hearing i).heeds,
      ((b.only i).hearing 0).heeds x = (b.hearing i).heeds x := by
    rintro ⟨t, x⟩ hx
    obtain ⟨hmem, hx⟩ := List.mem_filter.mp hx
    rw [hx]
    cases x with
    | event e => exact reaches_only hent (receives_of_mem_heard hmem)
    | act a => rfl
    | trigger => rfl
  have hcourse : Course.start.play ((b.only i).hearing 0)
        (ent.heard 0 (b.only i).session ((b.only i).timed own)) ((b.only i).run own).now =
      Course.start.play (b.hearing i) (ent.heard i b.session (b.timed steps))
        (b.run steps).now := by
    have hsession : (b.only i).session = b.session := rfl
    have hclear : ((b.only i).hearing 0).clearTime? = (b.hearing i).clearTime? := rfl
    have hkept := Course.play_congr hclear Course.start hheeds (b.run steps).now
    rw [hsession, hheard, hnow, hkept]
    exact Course.play_filter_heeds _ _ htold.sorted htold.time_le
  rw [hcourse] at halone
  exact ⟨hnow, halone.track.trans hwhole.track.symm, halone.pending.trans hwhole.pending.symm⟩

end Bridge

end AlarmBridge
