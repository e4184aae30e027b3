import AlarmBridge.Proofs.Bridge.SoloHeard

/-! Momentary sensors over time.  With events at the times `times` and clears after the delay `d`,
the clears pending at a time are those still ahead of it, the writes are one `true` for each event
and one `false` for each clear that has fired, in order of time, and the sensor is off exactly if a
clear has fired since the last event, whichever event planned it. -/

set_option autoImplicit false

namespace AlarmBridge

/-- In a list in order, those up to a bound come first. -/
theorem takeWhile_dropWhile_of_sorted {l : List Nat} (h : l.Pairwise (· ≤ ·)) (bound : Nat) :
    l.takeWhile (· ≤ bound) = l.filter (· ≤ bound) ∧
      l.dropWhile (· ≤ bound) = l.filter (bound < ·) := by
  induction l with
  | nil => exact ⟨rfl, rfl⟩
  | cons x l ih =>
    obtain ⟨hx, hl⟩ := List.pairwise_cons.mp h
    obtain ⟨htake, hdrop⟩ := ih hl
    by_cases hle : x ≤ bound
    · simp [hle, htake, hdrop]
    · have hlater : ∀ y ∈ l, bound < y := fun y hy => by
        have := hx y hy
        omega
      have hnone : l.filter (· ≤ bound) = [] := by
        refine List.filter_eq_nil_iff.mpr fun y hy => ?_
        simpa using hlater y hy
      have hall : l.filter (bound < ·) = l :=
        List.filter_eq_self.mpr fun y hy => by simpa using hlater y hy
      have hlt : bound < x := by omega
      simp [hle, hlt, hnone, hall]

/-- In a list in order, none comes after the last. -/
theorem le_getLast_of_sorted {l : List Nat} {last x : Nat} (h : l.Pairwise (· ≤ ·))
    (hlast : l.getLast? = some last) (hx : x ∈ l) : x ≤ last := by
  obtain ⟨init, rfl⟩ := List.getLast?_eq_some_iff.mp hlast
  rcases List.mem_append.mp hx with hx | hx
  · exact (List.pairwise_append.mp h).2.2 x hx last (List.mem_singleton_self last)
  · exact Nat.le_of_eq (List.mem_singleton.mp hx)

/-- The order of writes: by time, and a clear before an event at the same time. -/
def Act.InOrder (v w : Nat × Bool) : Prop := v.1 ≤ w.1 ∧ (v.1 = w.1 → v.2 = true → w.2 = true)

namespace Course

/-- The course of a momentary sensor at a time, after events at the times `times` with clears after
the delay `d`: what is pending, and what has been written. -/
structure Sensed (d : Nat) (times : List Nat) (now : Nat) (c : Course) : Prop where
  past : ∀ t ∈ times, t ≤ now
  sorted : times.Pairwise (· ≤ ·)
  clears : c.clears = (times.map (· + d)).filter (now < ·)
  on : (Act.writes c.acts).filter (·.2) = times.map (·, true)
  off : (Act.writes c.acts).filter (!·.2) = ((times.map (· + d)).filter (· ≤ now)).map (·, false)
  bounded : ∀ w ∈ Act.writes c.acts, w.1 ≤ now
  ordered : (Act.writes c.acts).Pairwise Act.InOrder

section

variable {d now : Nat} {times : List Nat} {c : Course}

theorem sensed_start (d now : Nat) : start.Sensed d [] now where
  past := by simp
  sorted := .nil
  clears := rfl
  on := rfl
  off := rfl
  bounded := by simp [start]
  ordered := .nil

theorem writes_clears (dues : List Nat) :
    Act.writes (dues.map fun due => (due, .write false)) = dues.map (·, false) := by
  induction dues with
  | nil => rfl
  | cons due dues ih =>
    rw [List.map_cons, List.map_cons, ← ih]
    rfl

theorem Sensed.dues_sorted (h : c.Sensed d times now) : (times.map (· + d)).Pairwise (· ≤ ·) :=
  List.pairwise_map.mpr (h.sorted.imp fun hle => Nat.add_le_add_right hle d)

/-- The clears that have fired and those that are pending are all clears, in order. -/
theorem Sensed.fired_append_clears (h : c.Sensed d times now) :
    (times.map (· + d)).filter (· ≤ now) ++ c.clears = times.map (· + d) := by
  obtain ⟨htake, hdrop⟩ := takeWhile_dropWhile_of_sorted h.dues_sorted now
  rw [h.clears, ← htake, ← hdrop, List.takeWhile_append_dropWhile]

theorem Sensed.clears_sorted (h : c.Sensed d times now) : c.clears.Pairwise (· ≤ ·) :=
  h.clears ▸ h.dues_sorted.filter _

theorem Sensed.lt_of_mem_clears (h : c.Sensed d times now) {due : Nat} (hdue : due ∈ c.clears) :
    now < due := by
  rw [h.clears] at hdue
  simpa using (List.mem_filter.mp hdue).2

theorem Sensed.writes_elapse (h : c.Sensed d times now) (time : Nat) :
    Act.writes (c.elapse time).acts =
      Act.writes c.acts ++ (c.clears.filter (· ≤ time)).map (·, false) := by
  rw [Course.elapse, Act.writes_append, writes_clears,
    (takeWhile_dropWhile_of_sorted h.clears_sorted time).1]

/-- Those of all clears that have fired by a later time are those fired before and those that were
pending and have fired since. -/
theorem Sensed.fired_of_le (h : c.Sensed d times now) {time : Nat} (hnow : now ≤ time) :
    (times.map (· + d)).filter (· ≤ time) =
      (times.map (· + d)).filter (· ≤ now) ++ c.clears.filter (· ≤ time) := by
  have hearly : ((times.map (· + d)).filter (· ≤ now)).filter (· ≤ time) =
      (times.map (· + d)).filter (· ≤ now) := by
    refine List.filter_eq_self.mpr fun x hx => ?_
    have hle : x ≤ now := by simpa using (List.mem_filter.mp hx).2
    simpa using Nat.le_trans hle hnow
  conv_lhs => rw [← h.fired_append_clears]
  rw [List.filter_append, hearly]

theorem Sensed.elapse (h : c.Sensed d times now) {time : Nat} (hnow : now ≤ time) :
    (c.elapse time).Sensed d times time := by
  have hwrites := h.writes_elapse time
  constructor
  · exact fun t ht => Nat.le_trans (h.past t ht) hnow
  · exact h.sorted
  · show c.clears.dropWhile (· ≤ time) = _
    rw [(takeWhile_dropWhile_of_sorted h.clears_sorted time).2, h.clears, List.filter_filter]
    refine List.filter_congr fun x _ => ?_
    by_cases hx : time < x
    · simp [hx, Nat.lt_of_le_of_lt hnow hx]
    · simp [hx]
  · rw [hwrites, List.filter_append, h.on, List.filter_map]
    simp [Function.comp_def]
  · rw [hwrites, List.filter_append, h.off, h.fired_of_le hnow, List.map_append, List.filter_map]
    simp [Function.comp_def]
  · intro w hw
    rw [hwrites] at hw
    rcases List.mem_append.mp hw with hw | hw
    · exact Nat.le_trans (h.bounded w hw) hnow
    · obtain ⟨due, hdue, rfl⟩ := List.mem_map.mp hw
      simpa using (List.mem_filter.mp hdue).2
  · rw [hwrites]
    refine List.pairwise_append.mpr ⟨h.ordered, ?_, fun v hv w hw => ?_⟩
    · refine List.pairwise_map.mpr ((h.clears_sorted.filter _).imp fun hle => ⟨hle, ?_⟩)
      simp
    · obtain ⟨due, hdue, rfl⟩ := List.mem_map.mp hw
      have hpast := h.bounded v hv
      have hlater := h.lt_of_mem_clears (List.mem_filter.mp hdue).1
      exact ⟨by simp only; omega, fun heq => by simp only at heq; omega⟩

theorem Sensed.trigger {k : Hearing} (h : c.Sensed d times now) (hd : 0 < d)
    (hk : k.clearTime? now = some (now + d)) :
    (c.trigger k now).Sensed d (times ++ [now]) now := by
  have hwrites : Act.writes (c.trigger k now).acts = Act.writes c.acts ++ [(now, true)] := by
    rw [Course.trigger, Act.writes_append]
    rfl
  constructor
  · intro t ht
    rcases List.mem_append.mp ht with ht | ht
    · exact h.past t ht
    · exact Nat.le_of_eq (List.mem_singleton.mp ht)
  · refine List.pairwise_append.mpr ⟨h.sorted, List.pairwise_singleton _ _, fun s hs t ht => ?_⟩
    rw [List.mem_singleton.mp ht]
    exact h.past s hs
  · simp [Course.trigger, hk, h.clears, hd]
  · simp [hwrites, h.on]
  · simp [hwrites, h.off, hd]
  · intro w hw
    rw [hwrites] at hw
    rcases List.mem_append.mp hw with hw | hw
    · exact h.bounded w hw
    · exact Nat.le_of_eq (congrArg Prod.fst (List.mem_singleton.mp hw))
  · rw [hwrites]
    refine List.pairwise_append.mpr ⟨h.ordered, List.pairwise_singleton _ _, fun v hv w hw => ?_⟩
    rw [List.mem_singleton.mp hw]
    exact ⟨h.bounded v hv, fun _ _ => rfl⟩

theorem Sensed.act {a : Act} (h : c.Sensed d times now) (ha : ∀ value, a ≠ .write value) :
    (c.act now a).Sensed d times now := by
  have hwrites : Act.writes (c.act now a).acts = Act.writes c.acts := by
    rw [Course.act, Act.writes_append]
    cases a with
    | write value => exact absurd rfl (ha value)
    | _ => exact List.append_nil _
  exact ⟨h.past, h.sorted, h.clears, hwrites ▸ h.on, hwrites ▸ h.off, hwrites ▸ h.bounded,
    hwrites ▸ h.ordered⟩

theorem Sensed.pending (h : c.Sensed d times now) :
    c.clears.length = times.countP fun t => now < t + d := by
  rw [h.clears, ← List.countP_eq_length_filter, List.countP_map]
  rfl

theorem Sensed.mem_on (h : c.Sensed d times now) {t : Nat} :
    (t, true) ∈ Act.writes c.acts ↔ t ∈ times := by
  have hmem : (t, true) ∈ (Act.writes c.acts).filter (·.2) ↔ (t, true) ∈ Act.writes c.acts := by
    simp [List.mem_filter]
  rw [← hmem, h.on]
  simp

theorem Sensed.mem_off (h : c.Sensed d times now) {due : Nat} :
    (due, false) ∈ Act.writes c.acts ↔ (∃ t ∈ times, t + d = due) ∧ due ≤ now := by
  have hmem : (due, false) ∈ (Act.writes c.acts).filter (!·.2) ↔
      (due, false) ∈ Act.writes c.acts := by
    simp [List.mem_filter]
  rw [← hmem, h.off]
  simp

/-- The last write comes after all others. -/
theorem Sensed.before_last {w : Nat × Bool} (h : c.Sensed d times now)
    (hlast : (Act.writes c.acts).getLast? = some w) :
    w ∈ Act.writes c.acts ∧ ∀ v ∈ Act.writes c.acts, v = w ∨ Act.InOrder v w := by
  obtain ⟨writes, hwrites⟩ := List.getLast?_eq_some_iff.mp hlast
  have hordered := h.ordered
  rw [hwrites] at hordered ⊢
  refine ⟨by simp, fun v hv => ?_⟩
  rcases List.mem_append.mp hv with hv | hv
  · exact .inr ((List.pairwise_append.mp hordered).2.2 v hv w (List.mem_singleton_self w))
  · exact .inl (List.mem_singleton.mp hv)

theorem Sensed.eq_nil_of_no_writes (h : c.Sensed d times now)
    (hlast : (Act.writes c.acts).getLast? = none) : times = [] := by
  have hon := h.on
  rw [List.getLast?_eq_none_iff.mp hlast] at hon
  exact List.map_eq_nil_iff.mp hon.symm

/-- The sensor is on exactly if there was an event and no clear has fired since the last one. -/
theorem Sensed.value_iff (h : c.Sensed d times now) {t₀ : Track} (ht₀ : t₀.cell.value = false) :
    (t₀.replay c.acts).cell.value = true ↔
      ∃ last, times.getLast? = some last ∧ ∀ t ∈ times, ¬(last < t + d ∧ t + d ≤ now) := by
  rw [Track.value_replay, ht₀]
  cases hlast : (Act.writes c.acts).getLast? with
  | none => simp [h.eq_nil_of_no_writes hlast]
  | some w =>
    obtain ⟨hw, hbefore⟩ := h.before_last hlast
    obtain ⟨time, value⟩ := w
    cases value with
    | true =>
      -- an event has the last word, so each clear that has fired did so no later
      have htime := h.mem_on.mp hw
      refine iff_of_true rfl ?_
      cases hend : times.getLast? with
      | none => simp [List.getLast?_eq_none_iff.mp hend] at htime
      | some last =>
        refine ⟨last, rfl, fun t ht hbetween => ?_⟩
        have hle : time ≤ last := le_getLast_of_sorted h.sorted hend htime
        have hoff : (t + d, false) ∈ Act.writes c.acts := h.mem_off.mpr ⟨⟨t, ht, rfl⟩, hbetween.2⟩
        rcases hbefore _ hoff with heq | ⟨hearly, -⟩
        · simp at heq
        · simp only at hearly
          omega
    | false =>
      -- a clear has the last word, and at a tie the last event would come after it
      obtain ⟨⟨t, ht, rfl⟩, hnow⟩ := h.mem_off.mp hw
      refine iff_of_false (by simp) ?_
      rintro ⟨last, hend, hnone⟩
      refine hnone t ht ⟨?_, hnow⟩
      rcases hbefore (last, true) (h.mem_on.mpr (List.mem_of_getLast? hend)) with heq
        | ⟨hearly, htie⟩
      · simp at heq
      · simp only at hearly htie
        have hne : last ≠ t + d := fun heq => by simpa using htie heq
        omega

/-- An event at `T` before which no clear was left keeps the sensor on for the delay. -/
theorem Sensed.on_within {before after : List Nat} {T : Nat}
    (h : c.Sensed d (before ++ T :: after) now) (hearly : ∀ t ∈ before, t + d ≤ T)
    (hnow : now < T + d) :
    ∃ last, (before ++ T :: after).getLast? = some last ∧
      ∀ t ∈ before ++ T :: after, ¬(last < t + d ∧ t + d ≤ now) := by
  have hT : T ∈ before ++ T :: after := by simp
  obtain ⟨last, hlast⟩ : ∃ last, (before ++ T :: after).getLast? = some last :=
    ⟨_, List.getLast?_eq_some_getLast (List.ne_nil_of_mem hT)⟩
  have hle := le_getLast_of_sorted h.sorted hlast hT
  obtain ⟨hlater, -⟩ := List.pairwise_cons.mp (List.pairwise_append.mp h.sorted).2.1
  refine ⟨last, hlast, fun t ht => ?_⟩
  rintro ⟨hafter, hdue⟩
  rcases List.mem_append.mp ht with ht | ht
  · have := hearly t ht
    omega
  · rcases List.mem_cons.mp ht with rfl | ht
    · omega
    · have := hlater t ht
      omega

/-- From the delay after the last event on no clear is pending, and one has fired since. -/
theorem Sensed.off_after {last : Nat} (h : c.Sensed d times now) (hd : 0 < d)
    (hlast : times.getLast? = some last) (hnow : last + d ≤ now) :
    (∃ t ∈ times, last < t + d ∧ t + d ≤ now) ∧ times.countP (fun t => now < t + d) = 0 := by
  constructor
  · exact ⟨last, List.mem_of_getLast? hlast, by omega, hnow⟩
  · refine List.countP_eq_zero.mpr fun t ht => ?_
    have hle := le_getLast_of_sorted h.sorted hlast ht
    have hpast : ¬now < t + d := by omega
    simpa using hpast

/-- When the sensor has been told of an event, at the given times, and of nothing that writes. -/
def triggerTimes (inputs : List (Nat × Input)) : List Nat :=
  inputs.filterMap fun x => if x.2 = .trigger then some x.1 else none

theorem Sensed.play {k : Hearing} {inputs : List (Nat × Input)} {time : Nat}
    (h : c.Sensed d times now) (hd : 0 < d)
    (hplain : ∀ x ∈ inputs, x.2 = .trigger ∧ k.clearTime? x.1 = some (x.1 + d) ∨
      ∃ a, x.2 = .act a ∧ ∀ value, a ≠ .write value)
    (hsorted : inputs.Pairwise (·.1 ≤ ·.1)) (hstart : ∀ x ∈ inputs, now ≤ x.1)
    (hend : ∀ x ∈ inputs, x.1 ≤ time) (hnow : now ≤ time) :
    (c.play k inputs time).Sensed d (times ++ triggerTimes inputs) time := by
  induction inputs generalizing c times now with
  | nil => simpa [triggerTimes, Course.play] using h.elapse hnow
  | cons x inputs ih =>
    obtain ⟨t, x⟩ := x
    obtain ⟨hfirst, hsorted⟩ := List.pairwise_cons.mp hsorted
    have helapsed := h.elapse (hstart (t, x) (by simp))
    have hrest : ∀ {c' : Course} {times' : List Nat}, c'.Sensed d times' t →
        (c'.play k inputs time).Sensed d (times' ++ triggerTimes inputs) time := fun h' =>
      ih h' (fun y hy => hplain y (by simp [hy])) hsorted hfirst
        (fun y hy => hend y (by simp [hy])) (hend (t, x) (by simp))
    rw [Course.play]
    rcases hplain (t, x) (by simp) with ⟨rfl, hk⟩ | ⟨a, rfl, ha⟩
    · have htimes : times ++ triggerTimes ((t, .trigger) :: inputs) =
          (times ++ [t]) ++ triggerTimes inputs := by
        simp [triggerTimes]
      rw [htimes]
      exact hrest (helapsed.trigger hd hk)
    · have htimes : triggerTimes ((t, .act a) :: inputs) = triggerTimes inputs := by
        simp [triggerTimes]
      rw [htimes]
      exact hrest (helapsed.act ha)

end

end Course

namespace Bridge

/-- Whether a step turns a momentary sensor on. -/
def SoloStep.isEvent : SoloStep → Bool
  | .trigger => true
  | .deliver _ => true
  | _ => false

/-- When the events among some steps come. -/
def eventTimes (b : Bridge) (steps : List SoloStep) : List Nat :=
  ((b.soloTimed steps).filter (·.2.isEvent)).map (·.1)

/-- Whether the entity at a place is on. -/
def isOn (b : Bridge) (i : Nat) : Bool := b.entities[i]?.any (·.cell.value)

section

variable {b : Bridge}

theorem Follows.isOn_eq {t₀ : Track} {i : Nat} {c : Course} (h : Follows t₀ i c b) :
    b.isOn i = (t₀.replay c.acts).cell.value := by
  obtain ⟨ent, hent, htrack⟩ := Option.map_eq_some_iff.mp h.track
  rw [isOn, hent]
  exact (congrArg (fun t : Track => t.cell.value) htrack :)

theorem triggerTimes_soloHeard (b : Bridge) (steps : List SoloStep) :
    Course.triggerTimes (b.soloHeard steps) = b.eventTimes steps := by
  unfold soloHeard eventTimes Course.triggerTimes
  induction b.soloTimed steps with
  | nil => rfl
  | cons x timed ih =>
    obtain ⟨time, s⟩ := x
    cases s <;> simpa [SoloStep.input?, SoloStep.isEvent] using ih

theorem soloTimed_append (b : Bridge) (steps more : List SoloStep) :
    b.soloTimed (steps ++ more) = b.soloTimed steps ++ (b.soloRun steps).soloTimed more := by
  induction steps generalizing b with
  | nil => rfl
  | cons s steps ih =>
    rw [List.cons_append, soloTimed, soloTimed, ih, List.cons_append]
    rfl

theorem eventTimes_append (b : Bridge) (steps more : List SoloStep) :
    b.eventTimes (steps ++ more) = b.eventTimes steps ++ (b.soloRun steps).eventTimes more := by
  rw [eventTimes, soloTimed_append, List.filter_append, List.map_append]
  rfl

theorem eventTimes_cons {s : SoloStep} (hs : s.isEvent = true) (b : Bridge)
    (steps : List SoloStep) :
    b.eventTimes (s :: steps) = b.now :: (b.soloStep s).1.eventTimes steps := by
  simp [eventTimes, soloTimed, hs]

theorem mem_soloTimed {steps : List SoloStep} {x : Nat × SoloStep} (hx : x ∈ b.soloTimed steps) :
    x.2 ∈ steps := by
  induction steps generalizing b with
  | nil => simp [soloTimed] at hx
  | cons s steps ih =>
    rcases List.mem_cons.mp hx with rfl | hx
    · exact List.mem_cons_self
    · exact List.mem_cons_of_mem s (ih hx)

theorem hearing_clearTime? {t : Nat} (b : Bridge) (i : Nat)
    (ht : (t + b.clearDelay) / 1000 < maxDeadline) :
    (b.hearing i).clearTime? t = some (t + b.clearDelay) := if_pos ht

/-- A run on a momentary sensor of its own leads to what its events call for. -/
theorem sensed_soloRun {ent : Entity} {steps : List SoloStep} (hent : b.entities[0]? = some ent)
    (hmomentary : ent.isMomentary = true) (hdelay : 0 < b.clearDelay)
    (hwrite : ∀ value, .write value ∉ steps)
    (hclock : ∀ t ∈ b.eventTimes steps, (t + b.clearDelay) / 1000 < maxDeadline) :
    (Course.start.play (b.hearing 0) (b.soloHeard steps) (b.soloRun steps).now).Sensed b.clearDelay
      (b.eventTimes steps) (b.soloRun steps).now := by
  have htold := told_soloRun hent hmomentary steps
  have hplain : ∀ x ∈ b.soloHeard steps,
      x.2 = .trigger ∧ (b.hearing 0).clearTime? x.1 = some (x.1 + b.clearDelay) ∨
        ∃ a, x.2 = .act a ∧ ∀ value, a ≠ .write value := by
    intro x hx
    obtain ⟨⟨t, s⟩, hs, hinput⟩ := List.mem_filterMap.mp hx
    obtain ⟨input, hsaid, rfl⟩ := Option.map_eq_some_iff.mp hinput
    have hevent : s.isEvent = true → (b.hearing 0).clearTime? t = some (t + b.clearDelay) :=
      fun hevent => hearing_clearTime? b 0
        (hclock t (List.mem_map_of_mem (List.mem_filter.mpr ⟨hs, hevent⟩)))
    have hstep := mem_soloTimed hs
    cases s with
    | trigger => exact .inl ⟨(Option.some.inj hsaid).symm, hevent rfl⟩
    | deliver e => exact .inl ⟨(Option.some.inj hsaid).symm, hevent rfl⟩
    | write value => exact absurd hstep (hwrite value)
    | publish => exact .inr ⟨_, (Option.some.inj hsaid).symm, by simp⟩
    | announceAs uniqueId => exact .inr ⟨_, (Option.some.inj hsaid).symm, by simp⟩
    | receive => exact .inr ⟨_, (Option.some.inj hsaid).symm, by simp⟩
    | close => exact .inr ⟨_, (Option.some.inj hsaid).symm, by simp⟩
    | _ => simp [SoloStep.input?] at hsaid
  have hplay := (Course.sensed_start b.clearDelay b.now).play hdelay hplain htold.sorted
    htold.le_time htold.time_le htold.now_le
  rw [triggerTimes_soloHeard] at hplay
  exact hplay

/-- A momentary sensor on its own, off and announced to nobody. -/
def momentary (session : Session) (systemId : UInt64) (r : CameraRecord) (kind : MomentaryKind)
    (d : Nat) : Bridge := solo session (.momentary systemId r kind) d

/-- Over every run, in which events and all else but direct writes come in any order: the clears
pending are those ahead of the clock; the sensor is on exactly if no clear has fired since the last
event; so it stays on for the delay after an event that found no clear pending, and is off from the
delay after the last event on; and it was written to once for each event and each clear that has
fired, in order of time. -/
theorem momentary_trajectory (session : Session) (systemId : UInt64) (r : CameraRecord)
    (kind : MomentaryKind) {d : Nat} (hd : 0 < d) {steps : List SoloStep}
    (hwrite : ∀ value, .write value ∉ steps)
    (hclock : ∀ t ∈ (momentary session systemId r kind d).eventTimes steps,
      (t + d) / 1000 < maxDeadline) :
    let start := momentary session systemId r kind d
    let times := start.eventTimes steps
    let now := (start.soloRun steps).now
    let writes := Act.writes (start.soloActs steps)
    (start.soloRun steps).pendingClears 0 = times.countP (fun t => now < t + d) ∧
    ((start.soloRun steps).isOn 0 = true ↔
      ∃ last, times.getLast? = some last ∧ ∀ t ∈ times, ¬(last < t + d ∧ t + d ≤ now)) ∧
    (∀ before event after, steps = before ++ event :: after → event.isEvent = true →
      (start.soloRun before).pendingClears 0 = 0 → now < (start.soloRun before).now + d →
      (start.soloRun steps).isOn 0 = true) ∧
    (∀ last, times.getLast? = some last → last + d ≤ now →
      (start.soloRun steps).isOn 0 = false ∧ (start.soloRun steps).pendingClears 0 = 0) ∧
    (start.soloRun steps).track 0 =
      some (Track.replay ⟨.new false, true, []⟩ (start.soloActs steps)) ∧
    writes.filter (·.2) = times.map (·, true) ∧
    writes.filter (!·.2) = ((times.map (· + d)).filter (· ≤ now)).map (·, false) ∧
    writes.Pairwise Act.InOrder := by
  intro start times now writes
  have hent : start.entities[0]? = some (.momentary systemId r kind) := rfl
  have hfollows : ∀ part, Follows ⟨.new false, true, []⟩ 0
      (Course.start.play (start.hearing 0) (start.soloHeard part) (start.soloRun part).now)
      (start.soloRun part) :=
    fun part => (told_soloRun hent rfl part).follows (follows_start hent rfl rfl) rfl
  have hpending : ∀ part, (∀ value, .write value ∉ part) →
      (∀ t ∈ start.eventTimes part, (t + d) / 1000 < maxDeadline) →
      (start.soloRun part).pendingClears 0 =
        (start.eventTimes part).countP fun t => (start.soloRun part).now < t + d :=
    fun part hwrite hclock =>
      (hfollows part).pending.trans (sensed_soloRun hent rfl hd hwrite hclock).pending
  have hsensed := sensed_soloRun hent rfl hd hwrite hclock
  have hon : (start.soloRun steps).isOn 0 = true ↔
      ∃ last, times.getLast? = some last ∧ ∀ t ∈ times, ¬(last < t + d ∧ t + d ≤ now) := by
    rw [(hfollows steps).isOn_eq]
    exact hsensed.value_iff rfl
  refine ⟨hpending steps hwrite hclock, hon, ?_, ?_, (hfollows steps).track, hsensed.on,
    hsensed.off, hsensed.ordered⟩
  · rintro before event after rfl hevent hnone hnow
    have htimes : times = start.eventTimes before ++
        (start.soloRun before).now :: ((start.soloRun before).soloStep event).1.eventTimes
          after := by
      rw [← eventTimes_cons hevent]
      exact eventTimes_append start before (event :: after)
    have hearly : ∀ t ∈ start.eventTimes before, t + d ≤ (start.soloRun before).now := by
      have hcount := hpending before (fun value hmem => hwrite value (by simp [hmem]))
        (fun t ht => hclock t (show t ∈ times from htimes ▸ List.mem_append_left _ ht))
      rw [hnone] at hcount
      intro t ht
      simpa using List.countP_eq_zero.mp hcount.symm t ht
    have hsensed' := hsensed
    rw [show start.eventTimes (before ++ event :: after) = _ from htimes] at hsensed'
    rw [hon, htimes]
    exact hsensed'.on_within hearly hnow
  · intro last hlast hnow
    obtain ⟨⟨t, ht, hfired⟩, hcount⟩ := hsensed.off_after hd hlast hnow
    refine ⟨Bool.eq_false_iff.mpr fun hison => ?_, (hpending steps hwrite hclock).trans hcount⟩
    obtain ⟨last', hlast', hnone⟩ := hon.mp hison
    obtain rfl : last = last' := Option.some.inj (hlast.symm.trans hlast')
    exact hnone t ht hfired

def doorCamera : CameraRecord := ⟨"c1", "Door", .doorbell, "online", true, true, true, true⟩

/-- Two events 20 seconds apart, and the clock 11 seconds after the second. -/
def twoEvents : List SoloStep :=
  [.announceAs "c1-motion", .trigger, .advance 20000, .close, .trigger, .publish, .advance 11000]

/-- The first clear turns the sensor off although the second event came only 11 seconds before. -/
theorem momentary_trajectory_twoEvents :
    let start := momentary ⟨"", .empty, ""⟩ 1 doorCamera .motion 30000
    start.eventTimes twoEvents = [0, 20000] ∧ (start.soloRun twoEvents).pendingClears 0 = 1 ∧
      (start.soloRun twoEvents).isOn 0 = false := by
  intro start
  have htimes : start.eventTimes twoEvents = [0, 20000] := by decide +kernel
  have hnow : (start.soloRun twoEvents).now = 31000 := by decide +kernel
  obtain ⟨hpending, hon, -⟩ := @momentary_trajectory ⟨"", .empty, ""⟩ 1 doorCamera .motion 30000
    (by decide) twoEvents (by simp [twoEvents]) (by decide +kernel)
  refine ⟨htimes, ?_, Bool.eq_false_iff.mpr fun hison => ?_⟩
  · refine hpending.trans ?_
    show (start.eventTimes twoEvents).countP
      (fun t => (start.soloRun twoEvents).now < t + 30000) = 1
    rw [htimes, hnow]
    rfl
  · obtain ⟨last, hlast, hnone⟩ := hon.mp hison
    have hlast' : (start.eventTimes twoEvents).getLast? = some last := hlast
    obtain rfl : 20000 = last := by simpa [htimes] using hlast'
    refine hnone 0 (by show 0 ∈ start.eventTimes twoEvents; simp [htimes]) ?_
    show 20000 < 0 + 30000 ∧ 0 + 30000 ≤ (start.soloRun twoEvents).now
    rw [hnow]
    decide

end

end Bridge

end AlarmBridge
