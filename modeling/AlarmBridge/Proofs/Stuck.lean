import AlarmBridge.Config
import AlarmBridge.Proofs.Bridge.Muted
import AlarmBridge.Proofs.Momentary
import AlarmBridge.Proofs.Routing

/-! Momentary sensors that are on with no clear to come.  A sensor gets stuck exactly where it is
turned on with no clear pending at a time from which on the clock cannot hold the delay of clears,
and then it stays on for good; and no configuration is refused for its delay. -/

set_option autoImplicit false

namespace AlarmBridge

namespace Course

/-- An entity that has come a course from a state is on and no clear is to come. -/
def Stuck (t₀ : Track) (c : Course) : Prop := (t₀.replay c.acts).cell.value = true ∧ c.clears = []

variable {t₀ : Track} {c : Course} {k : Hearing} {time : Nat}

/-- Time alone neither turns an entity on nor takes its last clear without turning it off. -/
theorem stuck_elapse : (c.elapse time).Stuck t₀ ↔ c.Stuck t₀ := by
  have hclears := List.takeWhile_append_dropWhile (p := (· ≤ time)) (l := c.clears)
  rcases List.eq_nil_or_concat' (c.clears.takeWhile (· ≤ time)) with hnone | ⟨fired, due, hfired⟩
  · rw [hnone, List.nil_append] at hclears
    rw [Stuck, elapse, hnone, hclears, List.map_nil, List.append_nil, Stuck]
  · have hoff : (t₀.replay (c.elapse time).acts).cell.value = false := by
      rw [elapse, hfired, List.map_append, ← List.append_assoc, Track.replay_append]
      simp [Track.act]
    have hpending : c.clears ≠ [] := by
      intro hnil
      simp [hnil] at hfired
    refine iff_of_false (fun hstuck => ?_) fun hstuck => hpending hstuck.2
    cases hoff.symm.trans hstuck.1

theorem stuck_act {a : Act} (ha : ∀ value, a ≠ .write value) :
    (c.act time a).Stuck t₀ ↔ c.Stuck t₀ := by
  have hvalue : (t₀.replay (c.act time a).acts).cell.value = (t₀.replay c.acts).cell.value := by
    rw [act, Track.replay_append, Track.replay_singleton]
    cases a with
    | write value => exact absurd rfl (ha value)
    | _ => simp [Track.act, StateCell.announce]
  rw [Stuck, hvalue, Stuck, act]

theorem stuck_trigger :
    (c.trigger k time).Stuck t₀ ↔ c.clears = [] ∧ k.clearTime? time = none := by
  have hon : (t₀.replay (c.trigger k time).acts).cell.value = true := by
    rw [trigger, Track.replay_append]
    simp [Track.act]
  rw [Stuck, hon, trigger]
  simp

end Course

namespace Bridge

/-- The event that a step dispatches, if it does. -/
def Step.event? : Step → Option PushEvent
  | .push text => (PushEvent.ofText? text).toOption
  | .dispatch e => some e
  | _ => none

section

variable (b : Bridge) (i : Nat) (s : Step)

/-- A momentary sensor is on and no clear is to come. -/
def Stuck : Prop := b.isMomentary i = true ∧ b.isOn i = true ∧ b.pendingClears i = 0

instance : Decidable (b.Stuck i) :=
  inferInstanceAs (Decidable (b.isMomentary i = true ∧ b.isOn i = true ∧ b.pendingClears i = 0))

/-- A step turns a momentary sensor on. -/
def TurnsOn : Prop :=
  (∃ e, s.event? = some e ∧ i ∈ b.served e) ∨ ∃ e, s = .deliver i e ∧ b.isMomentary i = true

/-- A step turns a momentary sensor on at a time at which the clock cannot hold that of the
clear. -/
def Overruns : Prop := b.clearTime? = none ∧ b.TurnsOn i s

end

section

variable {t₀ : Track} {i : Nat} {c : Course} {b : Bridge} {ent : Entity}

theorem input?_of_event? {s : Step} {e : PushEvent} {session : Session} (h : s.event? = some e) :
    ent.input? i session s = ent.dispatched? e := by
  cases s with
  | dispatch e' => rw [← Option.some.inj h, Entity.input?]
  | push text =>
    cases htext : PushEvent.ofText? text with
    | error fault => simp [Step.event?, htext, Except.toOption] at h
    | ok e' =>
      obtain rfl : e' = e := by simpa [Step.event?, htext, Except.toOption] using h
      simp [Entity.input?, htext]
  | _ => cases h

theorem clearTime?_eq_none_iff :
    b.clearTime? = none ↔ maxDeadline ≤ (b.now + b.clearDelay) / 1000 := by
  unfold clearTime?
  split <;> simp <;> omega

theorem isMomentary_eq (hent : b.entities[i]? = some ent) : b.isMomentary i = ent.isMomentary := by
  rw [isMomentary, hent]
  rfl

theorem isMomentary_iff :
    b.isMomentary i = true ↔ ∃ ent, b.entities[i]? = some ent ∧ ent.isMomentary = true := by
  cases hent : b.entities[i]? with
  | none => simp [Bridge.isMomentary, hent]
  | some ent => simp [isMomentary_eq hent]

/-- Steps that turn a momentary sensor on trigger it. -/
theorem hear?_of_turnsOn {s : Step} (hent : b.entities[i]? = some ent)
    (hmomentary : ent.isMomentary = true) (h : b.TurnsOn i s) :
    c.hear? (b.hearing i) b.now (ent.input? i b.session s) = c.trigger (b.hearing i) b.now := by
  rcases h with ⟨e, hevent, hi⟩ | ⟨e, rfl, -⟩
  · have hreaches : (b.hearing i).reaches b.now e = true := decide_eq_true hi
    have hdispatched : ent.dispatched? e = some (.event e) :=
      if_pos (receives_of_mem_served hent hi)
    rw [input?_of_event? hevent, hdispatched, Course.hear?_some, Course.hear, if_pos hreaches]
  · have hinput : ent.input? i b.session (.deliver i e) = some .trigger := if_pos ⟨rfl, hmomentary⟩
    rw [hinput]
    rfl

/-- No other step is of any consequence to whether a momentary sensor is stuck. -/
theorem stuck_hear?_of_not_turnsOn {s : Step} (hent : b.entities[i]? = some ent)
    (hmomentary : ent.isMomentary = true) (h : ¬b.TurnsOn i s) :
    (c.hear? (b.hearing i) b.now (ent.input? i b.session s)).Stuck t₀ ↔ c.Stuck t₀ := by
  have hunread : ∀ session, ent.refreshed? session = none := fun session => by
    rw [Entity.refreshed?, Entity.reading?_of_isMomentary hmomentary]
    rfl
  cases hevent : s.event? with
  | some e =>
    have hpassed : (b.hearing i).reaches b.now e = false :=
      decide_eq_false fun hi => h (.inl ⟨e, hevent, hi⟩)
    rw [input?_of_event? hevent, Entity.dispatched?]
    split
    · rw [Course.hear?_some, Course.hear, hpassed]
      simp
    · rfl
  | none =>
    cases s with
    | publishAll => exact Course.stuck_act (by simp)
    | close => exact Course.stuck_act (by simp)
    | refresh => simp [Entity.input?, hunread]
    | poll text =>
      rw [Entity.input?]
      split <;> simp [hunread]
    | push text =>
      rw [Entity.input?]
      split
      · next e he => simp [Step.event?, he, Except.toOption] at hevent
      · rfl
    | deliver j e =>
      have hinput : ent.input? i b.session (.deliver j e) = none := by
        refine if_neg fun hj => h (.inr ⟨e, by rw [hj.1], ?_⟩)
        rw [isMomentary_eq hent, hmomentary]
      rw [hinput, Course.hear?_none]
    | dispatch e => cases hevent
    | _ => rfl

theorem Follows.stuck_iff (h : Follows t₀ i c b) (hent : b.entities[i]? = some ent)
    (hmomentary : ent.isMomentary = true) : b.Stuck i ↔ c.Stuck t₀ := by
  rw [Stuck, isMomentary_eq hent, h.isOn_eq, h.pending, Course.Stuck, List.length_eq_zero_iff]
  simp [hmomentary]

/-- After a step a momentary sensor is stuck if the step has turned it on with no clear pending and
none that the clock could hold, or if it was stuck before and the step has not turned it on. -/
theorem stuck_step (hb : Timely b) (hent : b.entities[i]? = some ent)
    (hmomentary : ent.isMomentary = true) (s : Step) :
    (b.step s).1.Stuck i ↔
      b.Overruns i s ∧ b.pendingClears i = 0 ∨ ¬b.TurnsOn i s ∧ b.Stuck i := by
  obtain ⟨ent', hent', hbare⟩ := entity_of_identities (steady_step b s).identities hent
  have hmomentary' : ent'.isMomentary = true := by
    rw [← Entity.isMomentary_bare, hbare, Entity.isMomentary_bare, hmomentary]
  have htrack : b.track i = some ⟨ent.cell, b.listening, b.sentBy i⟩ := by rw [track, hent]; rfl
  have hfollows := follows_self hb htrack
  rw [((tells_step hent s).follows hfollows).stuck_iff hent' hmomentary', Course.stuck_elapse]
  by_cases hon : b.TurnsOn i s
  · rw [hear?_of_turnsOn hent hmomentary hon, Course.stuck_trigger, Overruns, hfollows.pending,
      List.length_eq_zero_iff]
    have hclear : (b.hearing i).clearTime? b.now = b.clearTime? := rfl
    rw [hclear]
    tauto
  · rw [stuck_hear?_of_not_turnsOn hent hmomentary hon, hfollows.stuck_iff hent hmomentary,
      Overruns]
    tauto

theorem TurnsOn.isMomentary {s : Step} (h : b.TurnsOn i s) : b.isMomentary i = true := by
  rcases h with ⟨e, -, hi⟩ | ⟨e, -, hmomentary⟩
  · have hlt : i < b.entities.length :=
      List.mem_range.mp (List.mem_filter.mp (mem_receivers_of_mem_served hi)).1
    have hent := List.getElem?_eq_getElem hlt
    exact isMomentary_iff.mpr
      ⟨_, hent, Entity.isMomentary_of_receives (receives_of_mem_served hent hi)⟩
  · exact hmomentary

theorem isMomentary_run (b : Bridge) (steps : List Step) (i : Nat) :
    (b.run steps).isMomentary i = b.isMomentary i := by
  have hbare : ∀ b : Bridge, b.bare.entities[i]?.any Entity.isMomentary = b.isMomentary i := by
    intro b
    rw [getElem?_bare]
    cases hent : b.entities[i]? with
    | none => simp [Bridge.isMomentary, hent]
    | some ent =>
      rw [isMomentary_eq hent, Option.map_some, Option.any_some, Entity.isMomentary_bare]
  rw [← hbare, identities_run, hbare]

/-- A clock that cannot hold the time of a clear will not do so later. -/
theorem clearTime?_run (b : Bridge) (steps : List Step) :
    (b.run steps).clearDelay = b.clearDelay ∧ b.now ≤ (b.run steps).now ∧
      (b.clearTime? = none → (b.run steps).clearTime? = none) := by
  suffices h : (b.run steps).clearDelay = b.clearDelay ∧ b.now ≤ (b.run steps).now by
    refine ⟨h.1, h.2, fun hnone => ?_⟩
    rw [clearTime?_eq_none_iff] at hnone ⊢
    have hlater := Nat.div_le_div_right (c := 1000) (Nat.add_le_add_right h.2 b.clearDelay)
    rw [h.1]
    omega
  induction steps generalizing b with
  | nil => exact ⟨rfl, Nat.le_refl _⟩
  | cons s steps ih =>
    have hstep := steady_step b s
    obtain ⟨hdelay, hnow⟩ := ih (b.step s).1
    exact ⟨hdelay.trans hstep.clearDelay, Nat.le_trans hstep.now hnow⟩

end

theorem not_stuck_setup (s : Session) (clearDelay : Nat) (g : Grabber) (i : Nat) :
    ¬(setup s clearDelay g).Stuck i := by
  rintro ⟨hmomentary, hon, -⟩
  obtain ⟨e, he, hrole⟩ := isMomentary_iff.mp hmomentary
  rw [isOn, he, Option.any_some] at hon
  obtain ⟨ent, hent, rfl⟩ := getElem?_setup he
  obtain ⟨system, -, -, ⟨r, -, hr⟩ | ⟨r, -, hr | rfl⟩⟩ := of_mem_entitiesOf hent
  · obtain ⟨flag, hpolled, -⟩ := Entity.of_mem_ofSensor hr
    simp [Entity.isMomentary, hpolled] at hrole
  · obtain ⟨kind, -, rfl⟩ := Entity.mem_momentaryOf.mp hr
    cases hon
  · cases hrole

/-- A sensor is stuck exactly if it was once turned on with no clear pending and none that the clock
could hold: nothing brings it off again. -/
theorem stuck_run_iff (s : Session) (clearDelay : Nat) (g : Grabber) (steps : List Step) (i : Nat) :
    let start := setup s clearDelay g
    (start.run steps).Stuck i ↔ ∃ before step, before ++ [step] <+: steps ∧
      (start.run before).Overruns i step ∧ (start.run before).pendingClears i = 0 := by
  intro start
  by_cases hmomentary : start.isMomentary i = true
  · -- from the end, since a sensor that is stuck was so already or has been turned on last
    induction steps using List.reverseRecOn with
    | nil => exact iff_of_false (not_stuck_setup s clearDelay g i) (by simp)
    | append_singleton steps step ih =>
      obtain ⟨ent, hent, hrole⟩ :=
        isMomentary_iff.mp ((isMomentary_run start steps i).trans hmomentary)
      rw [run_append, show (start.run steps).run [step] = ((start.run steps).step step).1 from rfl,
        stuck_step (timely_run hent) hent hrole]
      constructor
      · rintro (⟨hoverruns, hnone⟩ | ⟨-, hstuck⟩)
        · exact ⟨steps, step, List.prefix_rfl, hoverruns, hnone⟩
        · obtain ⟨before, last, hprefix, hrest⟩ := ih.mp hstuck
          exact ⟨before, last, hprefix.trans (List.prefix_append _ _), hrest⟩
      · rintro ⟨before, last, hprefix, hoverruns, hnone⟩
        rcases List.prefix_concat_iff.mp hprefix with heq | hprefix
        · obtain ⟨rfl, heq⟩ := List.append_inj' heq rfl
          obtain rfl : last = step := by simpa using heq
          exact .inl ⟨hoverruns, hnone⟩
        · have hstuck := ih.mpr ⟨before, last, hprefix, hoverruns, hnone⟩
          by_cases hon : (start.run steps).TurnsOn i step
          · obtain ⟨after, rfl⟩ := (List.prefix_append _ _).trans hprefix
            refine .inl ⟨⟨?_, hon⟩, hstuck.2.2⟩
            rw [run_append]
            exact (clearTime?_run _ after).2.2 hoverruns.1
          · exact .inr ⟨hon, hstuck⟩
  · refine iff_of_false (fun hstuck => hmomentary ?_) ?_
    · rw [← isMomentary_run start steps i]
      exact hstuck.1
    · rintro ⟨before, step, -, ⟨-, hon⟩, -⟩
      rw [← isMomentary_run start before i] at hmomentary
      exact hmomentary hon.isMomentary

theorem dispatch_eq_overflow_iff (b : Bridge) (e : PushEvent) :
    (b.dispatch e).2 = .overflow ↔ b.clearTime? = none ∧ ∃ i, i ∈ b.served e := by
  rw [dispatch_answer, served]
  cases b.clearTime? with
  | some time => simp
  | none => cases b.receivers e <;> simp

/-- A step is answered with an overflow exactly if it turns on a sensor for which the clock cannot
hold the time of the clear. -/
theorem answer_overflow_iff (b : Bridge) (s : Step) :
    (b.step s).2 = .delivery .overflow ↔ ∃ i, b.Overruns i s := by
  have hplain : (∀ i, ¬b.TurnsOn i s) → (b.act s).2 ≠ .delivery .overflow →
      ((b.step s).2 = .delivery .overflow ↔ ∃ i, b.Overruns i s) := by
    intro hoff hanswer
    refine iff_of_false hanswer ?_
    rintro ⟨i, -, hon⟩
    exact hoff i hon
  have hdispatch : ∀ e, s.event? = some e → (b.act s).2 = .delivery (b.dispatch e).2 →
      ((b.step s).2 = .delivery .overflow ↔ ∃ i, b.Overruns i s) := by
    intro e hevent hanswer
    have hon : ∀ i, b.TurnsOn i s ↔ i ∈ b.served e := by
      intro i
      constructor
      · rintro (⟨e', he', hi⟩ | ⟨e', rfl, -⟩)
        · rw [hevent] at he'
          rwa [Option.some.inj he']
        · cases hevent
      · exact fun hi => .inl ⟨e, hevent, hi⟩
    rw [show (b.step s).2 = .delivery (b.dispatch e).2 from hanswer, Answer.delivery.injEq,
      dispatch_eq_overflow_iff]
    simp [Overruns, hon]
  cases s with
  | dispatch e => exact hdispatch e rfl rfl
  | push text =>
    cases htext : PushEvent.ofText? text with
    | ok e =>
      exact hdispatch e (by simp [Step.event?, htext, Except.toOption]) (by simp [act, htext])
    | error fault =>
      refine hplain (fun i => ?_) (by simp [act, htext])
      simp [TurnsOn, Step.event?, htext, Except.toOption]
  | deliver j e =>
    have hanswer : (b.step (.deliver j e)).2 = .delivery .overflow ↔
        b.isMomentary j = true ∧ b.clearTime? = none := by
      show (if b.isMomentary j then afterTrigger b (deliver e b j) j
        else (deliver e b j).stateOf j) = .delivery .overflow ↔ _
      unfold afterTrigger stateOf
      cases b.isMomentary j <;> cases b.clearTime? <;> simp
    rw [hanswer]
    constructor
    · rintro ⟨hmomentary, hclock⟩
      exact ⟨j, hclock, .inr ⟨e, rfl, hmomentary⟩⟩
    · rintro ⟨i, hclock, ⟨e', hevent, -⟩ | ⟨e', heq, hmomentary⟩⟩
      · cases hevent
      · cases heq
        exact ⟨hmomentary, hclock⟩
  | poll text =>
    refine hplain (fun i => by simp [TurnsOn, Step.event?]) ?_
    rw [act]
    split <;> simp
  | fetch j timeout =>
    refine hplain (fun i => by simp [TurnsOn, Step.event?]) ?_
    rw [act]
    split <;> simp
  | stream j w timeout =>
    refine hplain (fun i => by simp [TurnsOn, Step.event?]) ?_
    rw [act]
    split <;> simp
  | _ => exact hplain (fun i => by simp [TurnsOn, Step.event?]) (by simp [act])

/-- Of every configuration, none of which is refused for its delay, every session and every run: a
step is answered with an overflow exactly if it turns on a sensor for which the clock cannot hold
the time of the clear; a sensor is on with no clear to come exactly if such a step once turned it on
with none pending; and neither happens while the clock and the delay stay below the last deadline
together. -/
theorem stuck_iff_overrun (c : Config) (entryId : String) (first : Snapshot) (g : Grabber)
    (steps : List Step) :
    let start := setup (.ofSnapshot entryId first) c.clearDelay g
    let b := start.run steps
    (∀ secs, ({ c with sensors := ⟨secs⟩ } : Config).validate = c.validate) ∧
    (∀ s, (b.step s).2 = .delivery .overflow ↔ ∃ i, b.Overruns i s) ∧
    (∀ i, b.Stuck i ↔ ∃ before s, before ++ [s] <+: steps ∧
      (start.run before).Overruns i s ∧ (start.run before).pendingClears i = 0) ∧
    (b.now / 1000 + c.sensors.clearDelaySecs.toNat < maxDeadline →
      (∀ before s, before ++ [s] <+: steps → ((start.run before).step s).2 ≠ .delivery .overflow) ∧
      ∀ i, ¬b.Stuck i) := by
  intro start b
  have hstuck := stuck_run_iff (.ofSnapshot entryId first) c.clearDelay g steps
  refine ⟨fun secs => rfl, answer_overflow_iff b, hstuck, fun hbelow => ?_⟩
  have hdelay : b.clearDelay = c.sensors.clearDelaySecs.toNat * 1000 :=
    (clearTime?_run start steps).1
  have hclock : ∀ before s, before ++ [s] <+: steps → ∀ i, ¬(start.run before).Overruns i s := by
    rintro before s hprefix i ⟨hnone, -⟩
    obtain ⟨after, rfl⟩ := (List.prefix_append _ _).trans hprefix
    have hend : b.clearTime? = none := by
      show (start.run (before ++ after)).clearTime? = none
      rw [run_append]
      exact (clearTime?_run _ after).2.2 hnone
    rw [clearTime?_eq_none_iff, hdelay] at hend
    omega
  constructor
  · intro before s hprefix hanswer
    obtain ⟨i, hi⟩ := (answer_overflow_iff _ s).mp hanswer
    exact hclock before s hprefix i hi
  · intro i hi
    obtain ⟨before, s, hprefix, hoverruns, -⟩ := (hstuck i).mp hi
    exact hclock before s hprefix i hoverruns

/-- The longest delay is accepted, and the first event leaves the sensor stuck. -/
theorem longest_delay_sticks :
    let c := { Config.default none with sensors := ⟨18446744073709551615⟩ }
    let start := setup (.ofSnapshot "home" ⟨"token", [⟨1, 3, .off, [], [doorCamera]⟩]⟩) c.clearDelay
      ⟨[], [], []⟩
    let e : PushEvent := .occurring .motionDetected 1 (some "c1")
    c.validate = .ok () ∧ (start.dispatch e).2 = .overflow ∧
      (start.run [.dispatch e, .refresh, .advance 60000]).Stuck 0 := by
  intro c start e
  have hfault : c.fault? = none := by decide +kernel
  have hvalid : c.validate = .ok () := by rw [Config.validate, hfault]
  exact ⟨hvalid, by decide +kernel, by decide +kernel⟩

end Bridge

end AlarmBridge
