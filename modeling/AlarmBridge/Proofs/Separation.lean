import AlarmBridge.Proofs.Bridge.Alone
import AlarmBridge.Proofs.Bridge.Muted

/-! Entities do not interfere.  What becomes of an entity depends on the steps that concern it and
the time at the end alone; so it does not matter how refreshing and dispatching interleave, what
happens to other entities, or whether these are there at all. -/

set_option autoImplicit false

namespace AlarmBridge

open Bridge (Step)

namespace Bridge

/-- Whether a step is one of those that refresh, or concerns all entities. -/
def Step.isRefreshing : Step → Bool
  | .apply _ | .poll _ | .refresh | .setState _ _ | .publishAll | .close => true
  | _ => false

/-- Whether a step is one of those that dispatch, or concerns all entities. -/
def Step.isDispatching : Step → Bool
  | .push _ | .dispatch _ | .deliver _ _ | .publishAll | .close => true
  | _ => false

variable {ent : Entity} {i : Nat} {b : Bridge}

theorem input?_of_momentary (h : ent.isMomentary = true) (s s' : Session) (step : Step) :
    ent.input? i s step = ent.input? i s' step ∧
      (step.isDispatching = false → ent.input? i s step = none) := by
  have hdeaf : ∀ s, ent.refreshed? s = none := by
    intro s
    rw [Entity.refreshed?, Entity.reading?_of_isMomentary h]
    rfl
  cases step with
  | refresh => simp [Entity.input?, hdeaf]
  | poll text =>
    simp only [Entity.input?]
    split <;> simp [hdeaf]
  | push text => exact ⟨rfl, by simp [Step.isDispatching]⟩
  | dispatch e => exact ⟨rfl, by simp [Step.isDispatching]⟩
  | deliver j e => exact ⟨rfl, by simp [Step.isDispatching]⟩
  | publishAll => exact ⟨rfl, by simp [Step.isDispatching]⟩
  | close => exact ⟨rfl, by simp [Step.isDispatching]⟩
  | _ => simp [Entity.input?]

/-- A momentary sensor hears of dispatching only. -/
theorem heard_of_momentary (h : ent.isMomentary = true) (s s' : Session)
    (steps : List (Nat × Step)) :
    ent.heard i s steps = ent.heard i s' (steps.filter (·.2.isDispatching)) := by
  induction steps generalizing s s' with
  | nil => rfl
  | cons x steps ih =>
    obtain ⟨hsame, hnone⟩ := input?_of_momentary (i := i) h s s' x.2
    by_cases hx : x.2.isDispatching = true
    · rw [List.filter_cons, if_pos hx, heard_cons, heard_cons, hsame, ih]
    · rw [List.filter_cons, if_neg hx, heard_cons, hnone (by simpa using hx), ih _ s']
      rfl

theorem input?_of_not_momentary (h : ent.isMomentary = false) (s : Session) {step : Step}
    (hstep : step.isRefreshing = false) : ent.input? i s step = none ∧ s.after step = s := by
  have hdeaf : ∀ e, ent.dispatched? e = none := by
    intro e
    have hreceives : ¬ent.receives e = true := fun hreceives => by
      simp [Entity.isMomentary_of_receives hreceives] at h
    simp [Entity.dispatched?, hreceives]
  cases step with
  | push text =>
    simp only [Entity.input?, Session.after, and_true]
    split <;> simp [hdeaf]
  | dispatch e => simp [Entity.input?, Session.after, hdeaf]
  | deliver j e => simp [Entity.input?, Session.after, h]
  | apply next => simp [Step.isRefreshing] at hstep
  | poll text => simp [Step.isRefreshing] at hstep
  | refresh => simp [Step.isRefreshing] at hstep
  | setState systemId state => simp [Step.isRefreshing] at hstep
  | publishAll => simp [Step.isRefreshing] at hstep
  | close => simp [Step.isRefreshing] at hstep
  | _ => exact ⟨rfl, rfl⟩

/-- An entity that follows the records hears of refreshing only. -/
theorem heard_of_not_momentary (h : ent.isMomentary = false) (s : Session)
    (steps : List (Nat × Step)) :
    ent.heard i s steps = ent.heard i s (steps.filter (·.2.isRefreshing)) := by
  induction steps generalizing s with
  | nil => rfl
  | cons x steps ih =>
    by_cases hx : x.2.isRefreshing = true
    · rw [List.filter_cons, if_pos hx, heard_cons, heard_cons, ih]
    · obtain ⟨hnone, hafter⟩ := input?_of_not_momentary (i := i) h s
        (by simpa using hx : x.2.isRefreshing = false)
      rw [List.filter_cons, if_neg hx, heard_cons, hnone, hafter, ih]
      rfl

/-- Where the clock can hold the time of the clear, an event reaches the entities that accept it. -/
theorem reaches_of_clearTime? {time : Nat} (hent : b.entities[i]? = some ent)
    (h : (time + b.clearDelay) / 1000 < maxDeadline) (event : PushEvent) :
    (b.hearing i).reaches time event = ent.receives event := by
  have htime : ({ b with now := time } : Bridge).clearTime?.isSome = true := by
    simp [clearTime?, h]
  have hmem :
      i ∈ ({ b with now := time } : Bridge).receivers event ↔ ent.receives event = true := by
    obtain ⟨hlength, rfl⟩ := List.getElem?_eq_some_iff.mp hent
    simp [receivers, hlength]
  show decide (i ∈ ({ b with now := time } : Bridge).served event) = ent.receives event
  rw [served, if_pos htime]
  exact Bool.eq_iff_iff.mpr (decide_eq_true_iff.trans hmem)

/-- Runs that tell an entity the same and end at the same time leave it the same. -/
theorem track_eq_of_heard_eq (hent : b.entities[i]? = some ent) (hagenda : b.agenda = [])
    (houtbox : b.outbox = []) {steps₁ steps₂ : List Step}
    (hheard : ent.heard i b.session (b.timed steps₁) = ent.heard i b.session (b.timed steps₂))
    (hnow : (b.run steps₁).now = (b.run steps₂).now) :
    (b.run steps₁).track i = (b.run steps₂).track i ∧
      (b.run steps₁).pendingClears i = (b.run steps₂).pendingClears i := by
  have hstart := follows_start hent hagenda houtbox
  have hfirst := (told_run hent steps₁).follows hstart rfl
  have hsecond := (told_run hent steps₂).follows hstart rfl
  rw [hheard, hnow] at hfirst
  exact ⟨hfirst.track.trans hsecond.track.symm, hfirst.pending.trans hsecond.pending.symm⟩

/-- For every entity of a session: runs that tell it the same at the same times and end at the same
time leave it with the same state, pending clears and announcements; so do runs that interleave the
same refreshing and the same dispatching differently, and so does a run of the entity alone on what
concerns it, which are the events that it accepts wherever the clock can hold the time of a clear.
Closing the receiver at any point changes no entity and nothing that is due. -/
theorem entities_do_not_interfere (s : Session) (clearDelay : Nat) (g : Grabber) {i : Nat}
    {ent : Entity} (hent : (setup s clearDelay g).entities[i]? = some ent) :
    let b := setup s clearDelay g
    (∀ steps₁ steps₂,
      ent.heard i s (b.timed steps₁) = ent.heard i s (b.timed steps₂) →
      (b.run steps₁).now = (b.run steps₂).now →
      (b.run steps₁).track i = (b.run steps₂).track i ∧
        (b.run steps₁).pendingClears i = (b.run steps₂).pendingClears i) ∧
    (∀ steps₁ steps₂,
      (b.timed steps₁).filter (·.2.isRefreshing) = (b.timed steps₂).filter (·.2.isRefreshing) →
      (b.timed steps₁).filter (·.2.isDispatching) = (b.timed steps₂).filter (·.2.isDispatching) →
      (b.run steps₁).now = (b.run steps₂).now →
      (b.run steps₁).track i = (b.run steps₂).track i ∧
        (b.run steps₁).pendingClears i = (b.run steps₂).pendingClears i) ∧
    (∀ steps,
      let alone := (b.only i).run
        (ownSteps (b.hearing i) i b.now (b.timed steps) (b.run steps).now)
      alone.now = (b.run steps).now ∧ alone.track 0 = (b.run steps).track i ∧
        alone.pendingClears 0 = (b.run steps).pendingClears i) ∧
    (∀ time event, (time + clearDelay) / 1000 < maxDeadline →
      (b.hearing i).reaches time event = ent.receives event) ∧
    (∀ before after,
      (b.run (before ++ .close :: after)).entities = (b.run (before ++ after)).entities ∧
      (b.run (before ++ .close :: after)).agenda = (b.run (before ++ after)).agenda) := by
  intro b
  have hsame : ∀ steps₁ steps₂,
      ent.heard i s (b.timed steps₁) = ent.heard i s (b.timed steps₂) →
      (b.run steps₁).now = (b.run steps₂).now →
      (b.run steps₁).track i = (b.run steps₂).track i ∧
        (b.run steps₁).pendingClears i = (b.run steps₂).pendingClears i :=
    fun steps₁ steps₂ hheard hnow => track_eq_of_heard_eq hent rfl rfl hheard hnow
  refine ⟨hsame, ?_, ?_, ?_, ?_⟩
  · intro steps₁ steps₂ hrefreshing hdispatching hnow
    refine hsame steps₁ steps₂ ?_ hnow
    cases hmomentary : ent.isMomentary with
    | true =>
      rw [heard_of_momentary hmomentary s s (b.timed steps₁), hdispatching,
        ← heard_of_momentary hmomentary s s (b.timed steps₂)]
    | false =>
      rw [heard_of_not_momentary hmomentary s (b.timed steps₁), hrefreshing,
        ← heard_of_not_momentary hmomentary s (b.timed steps₂)]
  · exact fun steps => track_ownSteps hent rfl rfl steps
  · exact fun time event htime => reaches_of_clearTime? hent htime event
  · intro before after
    have hsettled : Settled b := rfl
    have hmuted := muted_run_close hsettled before after
    exact ⟨(congrArg Bridge.entities hmuted :), (congrArg Bridge.agenda hmuted :)⟩

/-- An account with one camera that is no doorbell. -/
def oneCamera : Snapshot :=
  ⟨"token", [⟨1, 3, .off, [], [⟨"c1", "Yard", .camera, "online", true, true, true, true⟩]⟩]⟩

/-- For its motion sensor it does not matter whether a refresh comes before an event or after it. -/
theorem entities_do_not_interfere_oneCamera :
    let b := setup (.ofSnapshot "home" oneCamera) 30000 ⟨[], [], []⟩
    let event : PushEvent := .occurring .motionDetected 1 (some "c1")
    (b.run [.publishAll, .refresh, .dispatch event, .advance 5]).track 0 =
        (b.run [.publishAll, .dispatch event, .refresh, .advance 5]).track 0 ∧
      (b.run [.publishAll, .refresh, .dispatch event, .advance 5]).pendingClears 0 = 1 := by
  intro b event
  let ent : Entity := { Entity.momentary 1 ⟨"c1", "Yard", .camera, "online", true, true, true, true⟩
    .motion with cell := (StateCell.new false).announce "c1-motion" }
  have hent : b.entities[0]? = some ent := by decide +kernel
  obtain ⟨hsame, -⟩ :=
    entities_do_not_interfere (.ofSnapshot "home" oneCamera) 30000 ⟨[], [], []⟩ hent
  obtain ⟨htrack, -⟩ := hsame [.publishAll, .refresh, .dispatch event, .advance 5]
    [.publishAll, .dispatch event, .refresh, .advance 5] (by decide +kernel) (by decide +kernel)
  exact ⟨htrack, by decide +kernel⟩

end Bridge

end AlarmBridge
