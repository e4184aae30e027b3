import AlarmBridge.Proofs.Bridge.Follows
import AlarmBridge.Proofs.Bridge.Media

/-! What a run tells one entity.  `heard` reads from the steps of a run, with their times, what
concerns the entity: the announcements asked for, the state that the records give it at each
refresh, and the events it accepts.  By `told_run` and `Told.follows` the entity follows the course
that `heard` and the time at the end lay out, whatever else the run does. -/

set_option autoImplicit false

namespace AlarmBridge

open Bridge (Step)

/-- The records after a step. -/
def Session.after (s : Session) : Step → Session
  | .apply next => s.apply next
  | .poll text =>
    match Snapshot.ofText? text with
    | .ok next => s.apply next
    | .error _ => s
  | .setState systemId state => s.setState systemId state
  | _ => s

namespace Entity

/-- What refreshing by some records tells an entity. -/
def refreshed? (e : Entity) (s : Session) : Option Input :=
  (e.reading? s).map fun value => .act (.write value)

/-- What dispatching an event tells an entity. -/
def dispatched? (e : Entity) (event : PushEvent) : Option Input :=
  if e.receives event then some (.event event) else none

/-- What a step tells the entity at a place, by the records before it. -/
def input? (e : Entity) (i : Nat) (s : Session) : Step → Option Input
  | .publishAll => some (.act .publish)
  | .refresh => e.refreshed? s
  | .poll text =>
    match Snapshot.ofText? text with
    | .ok next => e.refreshed? (s.apply next)
    | .error _ => none
  | .push text =>
    match PushEvent.ofText? text with
    | .ok event => e.dispatched? event
    | .error _ => none
  | .dispatch event => e.dispatched? event
  | .deliver j _ => if j = i ∧ e.isMomentary = true then some .trigger else none
  | .close => some (.act .close)
  | _ => none

/-- What some steps at given times tell the entity at a place, by the records before them. -/
def heard (e : Entity) (i : Nat) (s : Session) : List (Nat × Step) → List (Nat × Input)
  | [] => []
  | (time, step) :: steps =>
    ((e.input? i s step).map (time, ·)).toList ++ e.heard i (s.after step) steps

theorem refreshed?_congr {e e' : Entity} (h : e'.bare = e.bare) (s : Session) :
    e'.refreshed? s = e.refreshed? s := by
  rw [refreshed?, ← reading?_bare, h, reading?_bare, refreshed?]

theorem dispatched?_congr {e e' : Entity} (h : e'.bare = e.bare) (event : PushEvent) :
    e'.dispatched? event = e.dispatched? event := by
  rw [dispatched?, ← receives_bare, h, receives_bare, dispatched?]

theorem input?_congr {e e' : Entity} (h : e'.bare = e.bare) (i : Nat) (s : Session) (step : Step) :
    e'.input? i s step = e.input? i s step := by
  have hmomentary : e'.isMomentary = e.isMomentary := by
    rw [← isMomentary_bare, h, isMomentary_bare]
  cases step <;> simp only [input?, refreshed?_congr h, dispatched?_congr h, hmomentary]

/-- Only the identity of an entity matters for what it hears. -/
theorem heard_congr {e e' : Entity} (h : e'.bare = e.bare) (i : Nat) (s : Session)
    (steps : List (Nat × Step)) : e'.heard i s steps = e.heard i s steps := by
  induction steps generalizing s with
  | nil => rfl
  | cons x steps ih => rw [heard, heard, input?_congr h, ih]

end Entity

namespace Bridge

/-- The steps of a run with their times. -/
def timed : Bridge → List Step → List (Nat × Step)
  | _, [] => []
  | b, s :: steps => (b.now, s) :: timed (b.step s).1 steps

/-- How the entity at a place takes events. -/
def hearing (b : Bridge) (i : Nat) : Hearing where
  reaches time e := decide (i ∈ ({ b with now := time } : Bridge).served e)
  clearTime? time := ({ b with now := time } : Bridge).clearTime?

/-- The identities of the entities and the delay of clears settle how events are taken. -/
theorem hearing_congr {b b' : Bridge} (hentities : b'.bare.entities = b.bare.entities)
    (hdelay : b'.clearDelay = b.clearDelay) (i : Nat) : b'.hearing i = b.hearing i := by
  have htime : ∀ time, ({ b' with now := time } : Bridge).clearTime? =
      ({ b with now := time } : Bridge).clearTime? := fun time => by
    simp only [clearTime?, hdelay]
  have hreceivers : ∀ time e, ({ b' with now := time } : Bridge).receivers e =
      ({ b with now := time } : Bridge).receivers e := fun time e => receivers_congr hentities e
  have hserved : ∀ time e, ({ b' with now := time } : Bridge).served e =
      ({ b with now := time } : Bridge).served e := fun time e => by
    rw [served, served, htime, hreceivers]
  rw [hearing, hearing]
  congr 1
  · funext time e
    rw [hserved]
  · exact funext htime

section

variable {t₀ : Track} {i : Nat} {c : Course} {b : Bridge}

/-- An event reaches the entity if it is among those served. -/
theorem Follows.dispatch {ent : Entity} (h : Follows t₀ i c b)
    (hent : b.entities[i]? = some ent) (e : PushEvent) :
    Follows t₀ i (c.hear? (b.hearing i) b.now (ent.dispatched? e)) (b.dispatch e).1 := by
  obtain ⟨records, hdispatch⟩ := dispatch_eq b e
  have hnodup : (b.served e).Nodup := by
    have hreceivers : (b.receivers e).Nodup := List.nodup_range.filter _
    unfold served
    split
    · exact hreceivers
    · exact hreceivers.sublist (List.take_sublist _ _)
  have hself : i ∈ b.served e → ∀ b' c, Steady b b' → b'.now = b.now → Follows t₀ i c b' →
      Follows t₀ i (c.trigger (b.hearing i) b.now) (Bridge.deliver e b' i) := by
    intro hi b' c' hb' hnow h'
    obtain ⟨ent', hent', hbare⟩ := hb'.entity hent
    have hmomentary : ent'.isMomentary = true := by
      rw [← Entity.isMomentary_bare, hbare, Entity.isMomentary_bare]
      exact Entity.isMomentary_of_receives (receives_of_mem_served hent hi)
    have hk : (b.hearing i).clearTime? b'.now = b'.clearTime? := by
      rw [← hearing_congr hb'.identities hb'.clearDelay]
      rfl
    simpa [hmomentary, hnow] using h'.deliver hent' hk e
  have hfold := h.foldl (fun b' j => ⟨steady_deliver e b' j, now_deliver e b' j⟩) hself
    (fun b' c' j hj h' => h'.deliver_of_ne hj e) hnodup
  rw [hdispatch]
  refine Follows.congr (b := (b.served e).foldl (Bridge.deliver e) b) ?_ rfl rfl rfl rfl
  have hreaches : (b.hearing i).reaches b.now e = decide (i ∈ b.served e) := rfl
  by_cases hr : ent.receives e = true
  · simpa [Entity.dispatched?, hr, Course.hear, hreaches] using hfold
  · have hi : i ∉ b.served e := fun hi => hr (receives_of_mem_served hent hi)
    simpa [Entity.dispatched?, hr, hi] using hfold

theorem steady_fetch (b : Bridge) (j : Nat) (e : Entity) (timeout : Option Nat) :
    Steady b (b.fetch j e timeout).1 := by
  cases hshutter : b.shutterOpen e with
  | false =>
    rw [fetch_of_shut hshutter]
    exact .refl b
  | true =>
    have hgrabbing : Steady b (b.grabbing j e) := ⟨rfl, rfl, rfl, Nat.le_refl _⟩
    rw [fetch_of_open hshutter]
    exact hgrabbing.trans (steady_runUntil _ _)

theorem steady_afterStream (b : Bridge) (run : StreamRun) : Steady b (b.afterStream run) := by
  have hbefore := steady_runBefore b run.time
  have hreleased : Steady b { (b.runBefore run.time).note run.log with
      grabber := (b.runBefore run.time).grabber.noteReleases run.releases } :=
    ⟨hbefore.session, hbefore.identities, hbefore.clearDelay, hbefore.now⟩
  exact hreleased.trans (steady_runUntil _ run.time)

theorem steady_stream (b : Bridge) (e : Entity) (w : Writer) (timeout : Option Nat) :
    Steady b (b.stream e w timeout).1 := by
  have hopening : Steady b (b.opening e) := ⟨rfl, rfl, rfl, Nat.le_refl _⟩
  cases hoffer : b.nextStream with
  | error f =>
    rw [stream_of_error hoffer]
    exact hopening
  | ok process =>
    rw [stream_of_ok hoffer]
    exact hopening.trans (steady_afterStream _ _)

theorem Follows.fetch (h : Follows t₀ i c b) (j : Nat) (e : Entity) (timeout : Option Nat) :
    ∃ c', Follows t₀ i c' (b.fetch j e timeout).1 ∧
      c'.elapse (b.fetch j e timeout).1.now = c.elapse (b.fetch j e timeout).1.now := by
  cases hshutter : b.shutterOpen e with
  | false =>
    rw [fetch_of_shut hshutter]
    exact ⟨c, h, rfl⟩
  | true =>
    have hgrabbing : Follows t₀ i c (b.grabbing j e) :=
      h.plan_of_ne rfl rfl rfl rfl rfl rfl (by omega) (by simp)
    rw [fetch_of_open hshutter, now_runUntil]
    exact ⟨_, hgrabbing.runUntil _, c.elapse_elapse (Nat.le_max_right _ _)⟩

theorem Follows.stream (h : Follows t₀ i c b) (e : Entity) (w : Writer) (timeout : Option Nat) :
    ∃ c', Follows t₀ i c' (b.stream e w timeout).1 ∧
      c'.elapse (b.stream e w timeout).1.now = c.elapse (b.stream e w timeout).1.now := by
  have hopening : Follows t₀ i c (b.opening e) := h.congr rfl rfl rfl rfl
  cases hoffer : b.nextStream with
  | error f =>
    rw [stream_of_error hoffer]
    exact ⟨c, hopening, rfl⟩
  | ok process =>
    rw [stream_of_ok hoffer]
    let run := process.serve e.info.uniqueId (timeout.map (b.now + ·)) b.now w
    let noted := ((b.opening e).runBefore run.time).note run.log
    let released : Bridge := { noted with grabber := noted.grabber.noteReleases run.releases }
    have hreleased : Follows t₀ i (if run.time = 0 then c else c.elapse (run.time - 1)) released :=
      (hopening.runBefore run.time).congr rfl rfl rfl rfl
    refine ⟨_, hreleased.runUntil run.time, ?_⟩
    show Course.elapse _ (released.runUntil run.time).now =
        c.elapse (released.runUntil run.time).now
    rw [now_runUntil, Course.elapse_elapse _ (Nat.le_max_right _ _)]
    split
    · rfl
    · exact c.elapse_elapse (by omega)

/-- A step changes the records as `after` says, and nothing else that lasts. -/
theorem steady_act (b : Bridge) (s : Step) :
    Steady { b with session := b.session.after s } (b.act s).1 := by
  cases s with
  | publishAll => exact (Steady.of_bare_eq (bare_publishAll b)).1
  | refresh => exact (Steady.of_bare_eq (bare_refresh b)).1
  | poll text =>
    cases htext : Snapshot.ofText? text with
    | error fault =>
      simp only [act, Session.after, htext]
      exact .refl b
    | ok next =>
      simp only [act, Session.after, htext]
      have happly : Steady { b with session := b.session.apply next } (b.apply next) :=
        ⟨rfl, rfl, rfl, Nat.le_refl _⟩
      exact happly.trans (Steady.of_bare_eq (bare_refresh _)).1
  | push text =>
    cases htext : PushEvent.ofText? text with
    | error fault =>
      simp only [act, htext]
      exact .refl b
    | ok e =>
      simp only [act, htext]
      exact (steady_dispatch b e).1
  | dispatch e => exact (steady_dispatch b e).1
  | deliver j e => exact steady_deliver e b j
  | advance ms => exact steady_runUntil b _
  | fetch j timeout =>
    simp only [act]
    split
    · exact .refl b
    · exact steady_fetch b j _ timeout
  | stream j w timeout =>
    simp only [act]
    split
    · exact .refl b
    · exact steady_stream b _ w timeout
  | look => exact .refl b
  | apply next => exact ⟨rfl, rfl, rfl, Nat.le_refl _⟩
  | queueFrame frame => exact ⟨rfl, rfl, rfl, Nat.le_refl _⟩
  | queueStream offer => exact ⟨rfl, rfl, rfl, Nat.le_refl _⟩
  | setState systemId state => exact ⟨rfl, rfl, rfl, Nat.le_refl _⟩
  | close => exact ⟨rfl, rfl, rfl, Nat.le_refl _⟩

theorem steady_step (b : Bridge) (s : Step) :
    Steady { b with session := b.session.after s } (b.step s).1 :=
  (steady_act b s).trans (steady_runUntil _ _)

theorem session_run (b : Bridge) (steps : List Step) :
    (b.run steps).session = steps.foldl Session.after b.session := by
  induction steps generalizing b with
  | nil => rfl
  | cons s steps ih =>
    have hrest := ih (b.step s).1
    rw [(steady_step b s).session] at hrest
    exact hrest

/-- The entities keep their identities. -/
theorem identities_run (b : Bridge) (steps : List Step) :
    (b.run steps).bare.entities = b.bare.entities := by
  induction steps generalizing b with
  | nil => rfl
  | cons s steps ih => exact (ih (b.step s).1).trans (steady_step b s).identities

theorem entity_run {ent : Entity} (hent : b.entities[i]? = some ent) (steps : List Step) :
    ∃ e, (b.run steps).entities[i]? = some e ∧ e.bare = ent.bare :=
  entity_of_identities (identities_run b steps) hent

theorem origin_run {steps : List Step} {e : Entity} (he : (b.run steps).entities[i]? = some e) :
    ∃ ent, b.entities[i]? = some ent ∧ ent.bare = e.bare :=
  entity_of_identities (identities_run b steps).symm he

theorem now_step (b : Bridge) (s : Step) : (b.step s).1.now = (b.act s).1.now := by
  show ((b.act s).1.runUntil (b.act s).1.now).now = (b.act s).1.now
  rw [now_runUntil, Nat.max_self]

/-- What a step does to the entity, but for the clears that fire meanwhile. -/
theorem Follows.act_step {ent : Entity} (h : Follows t₀ i c b) (hent : b.entities[i]? = some ent)
    (s : Step) :
    ∃ c', Follows t₀ i c' (b.act s).1 ∧
      c'.elapse (b.act s).1.now =
        (c.hear? (b.hearing i) b.now (ent.input? i b.session s)).elapse (b.act s).1.now := by
  have hrefresh : ∀ b' : Bridge, Follows t₀ i c b' → b'.entities = b.entities → b'.now = b.now →
      Follows t₀ i (c.hear? (b.hearing i) b.now (ent.refreshed? b'.session)) b'.refresh := by
    intro b' h' hentities hnow
    have hfollows := h'.refresh (hentities ▸ hent)
    rw [hnow] at hfollows
    unfold Entity.refreshed?
    cases hreading : ent.reading? b'.session <;> rw [hreading] at hfollows <;> exact hfollows
  cases s with
  | look => exact ⟨c, h, rfl⟩
  | publishAll => exact ⟨_, h.publishAll, rfl⟩
  | refresh => exact ⟨_, hrefresh b h rfl rfl, rfl⟩
  | apply next => exact ⟨c, h.congr rfl rfl rfl rfl, rfl⟩
  | poll text =>
    cases htext : Snapshot.ofText? text with
    | error fault =>
      simp only [Bridge.act, Entity.input?, htext]
      exact ⟨c, h, rfl⟩
    | ok next =>
      simp only [Bridge.act, Entity.input?, htext]
      exact ⟨_, hrefresh (b.apply next) (h.congr rfl rfl rfl rfl) rfl rfl, rfl⟩
  | push text =>
    cases htext : PushEvent.ofText? text with
    | error fault =>
      simp only [Bridge.act, Entity.input?, htext]
      exact ⟨c, h, rfl⟩
    | ok e =>
      simp only [Bridge.act, Entity.input?, htext]
      exact ⟨_, h.dispatch hent e, rfl⟩
  | dispatch e => exact ⟨_, h.dispatch hent e, rfl⟩
  | deliver j e =>
    by_cases hj : j = i
    · subst hj
      refine ⟨_, h.deliver (k := b.hearing j) hent rfl e, ?_⟩
      by_cases hmomentary : ent.isMomentary = true
      · simp [Entity.input?, hmomentary, Course.hear]
      · simp [Entity.input?, hmomentary]
    · refine ⟨c, h.deliver_of_ne hj e, ?_⟩
      simp [Entity.input?, hj]
  | advance ms =>
    refine ⟨_, h.runUntil _, c.elapse_elapse ?_⟩
    show b.now + ms ≤ (b.runUntil (b.now + ms)).now
    rw [now_runUntil]
    exact Nat.le_max_right _ _
  | fetch j timeout =>
    simp only [Bridge.act]
    split
    · exact ⟨c, h, rfl⟩
    · exact h.fetch j _ timeout
  | stream j w timeout =>
    simp only [Bridge.act]
    split
    · exact ⟨c, h, rfl⟩
    · exact h.stream _ w timeout
  | queueFrame frame => exact ⟨c, h.congr rfl rfl rfl rfl, rfl⟩
  | queueStream offer => exact ⟨c, h.congr rfl rfl rfl rfl, rfl⟩
  | setState systemId state => exact ⟨c, h.congr rfl rfl rfl rfl, rfl⟩
  | close =>
    refine ⟨_, h.act (a := .close) ?_ rfl rfl rfl, rfl⟩
    simp only [Bridge.act, Bridge.track, Option.map_map]
    rfl

end

/-- From `before` to `after` the entity at a place is told at most one thing, and nothing that lasts
changes but the records. -/
structure Tells (i : Nat) (before : Bridge) (x : Option Input) (after : Bridge) : Prop where
  follows : ∀ {t₀ c}, Follows t₀ i c before →
    Follows t₀ i ((c.hear? (before.hearing i) before.now x).elapse after.now) after
  identities : after.bare.entities = before.bare.entities
  clearDelay : after.clearDelay = before.clearDelay
  now : before.now ≤ after.now

/-- From one bridge to another the entity at a place is told some things, each at its time. -/
inductive Told (i : Nat) : Bridge → List (Nat × Input) → Bridge → Prop
  | nothing (b : Bridge) : Told i b [] b
  | next {b1 b2 b3 : Bridge} {x : Option Input} {inputs : List (Nat × Input)} :
      Tells i b1 x b2 → Told i b2 inputs b3 → Told i b1 ((x.map (b1.now, ·)).toList ++ inputs) b3

theorem Told.now_le {i : Nat} {b b' : Bridge} {inputs : List (Nat × Input)}
    (h : Told i b inputs b') : b.now ≤ b'.now := by
  induction h with
  | nothing b => exact Nat.le_refl _
  | next htells _ ih => exact Nat.le_trans htells.now ih

theorem Told.le_time {i : Nat} {b b' : Bridge} {inputs : List (Nat × Input)}
    (h : Told i b inputs b') : ∀ x ∈ inputs, b.now ≤ x.1 := by
  induction h with
  | nothing b => simp
  | @next b1 b2 b3 x inputs htells _ ih =>
    intro y hy
    rcases List.mem_append.mp hy with hy | hy
    · cases x with
      | none => simp at hy
      | some x =>
        obtain rfl : y = (b1.now, x) := by simpa using hy
        exact Nat.le_refl _
    · exact Nat.le_trans htells.now (ih y hy)

theorem Told.time_le {i : Nat} {b b' : Bridge} {inputs : List (Nat × Input)}
    (h : Told i b inputs b') : ∀ x ∈ inputs, x.1 ≤ b'.now := by
  induction h with
  | nothing b => simp
  | @next b1 b2 b3 x inputs htells htold ih =>
    intro y hy
    rcases List.mem_append.mp hy with hy | hy
    · cases x with
      | none => simp at hy
      | some x =>
        obtain rfl : y = (b1.now, x) := by simpa using hy
        exact Nat.le_trans htells.now htold.now_le
    · exact ih y hy

/-- Things are told in order of time. -/
theorem Told.sorted {i : Nat} {b b' : Bridge} {inputs : List (Nat × Input)}
    (h : Told i b inputs b') : inputs.Pairwise (·.1 ≤ ·.1) := by
  induction h with
  | nothing b => exact .nil
  | @next b1 b2 b3 x inputs htells htold ih =>
    cases x with
    | none => exact ih
    | some x =>
      exact List.pairwise_cons.mpr
        ⟨fun y hy => Nat.le_trans htells.now (htold.le_time y hy), ih⟩

/-- The entity follows the course that is laid out by what it is told and by the time at the end
alone. -/
theorem Told.follows {t₀ : Track} {i : Nat} {c : Course} {b b' : Bridge}
    {inputs : List (Nat × Input)} (h : Told i b inputs b') (hfollows : Follows t₀ i c b)
    (hsettled : c.elapse b.now = c) :
    Follows t₀ i (c.play (b.hearing i) inputs b'.now) b' := by
  induction h generalizing c with
  | nothing b =>
    rw [Course.play, hsettled]
    exact hfollows
  | @next b1 b2 b3 x inputs htells htold ih =>
    have hrest := ih (htells.follows hfollows) (Course.elapse_elapse _ (Nat.le_refl _))
    rw [hearing_congr htells.identities htells.clearDelay i,
      Course.play_elapse _ _ _ htold.le_time htold.now_le] at hrest
    cases x with
    | none => exact hrest
    | some x => simpa [Course.play, hsettled] using hrest

/-- A step tells the entity what concerns it, and lets the clears fire that are due by its end. -/
theorem tells_step {b : Bridge} {i : Nat} {ent : Entity} (hent : b.entities[i]? = some ent)
    (s : Step) : Tells i b (ent.input? i b.session s) (b.step s).1 where
  follows h := by
    obtain ⟨c', hact, hcourse⟩ := h.act_step hent s
    rw [now_step, ← hcourse]
    exact hact.runUntil (b.act s).1.now
  identities := (steady_step b s).identities
  clearDelay := (steady_step b s).clearDelay
  now := (steady_step b s).now

/-- A run tells the entity what it hears of the steps. -/
theorem told_run {b : Bridge} {i : Nat} {ent : Entity} (hent : b.entities[i]? = some ent)
    (steps : List Step) :
    Told i b (ent.heard i b.session (b.timed steps)) (b.run steps) := by
  induction steps generalizing b ent with
  | nil => exact .nothing b
  | cons s steps ih =>
    have hsteady := steady_step b s
    obtain ⟨ent', hent', hbare⟩ := hsteady.entity hent
    have hrest := ih hent'
    rw [hsteady.session, Entity.heard_congr hbare] at hrest
    exact .next (tells_step hent s) hrest

end Bridge

end AlarmBridge
