import AlarmBridge.Proofs.Bridge.Heard

/-! What the steps of a momentary sensor on its own tell it: each trigger and each event handed to
it turns it on, and refreshing passes it by. -/

set_option autoImplicit false

namespace AlarmBridge.Bridge

/-- What a step tells a momentary sensor on its own. -/
def SoloStep.input? : SoloStep → Option Input
  | .write value => some (.act (.write value))
  | .trigger => some .trigger
  | .deliver _ => some .trigger
  | .publish => some (.act .publish)
  | .announceAs uniqueId => some (.act (.announceAs uniqueId))
  | .receive => some (.act .receive)
  | .close => some (.act .close)
  | _ => none

/-- The steps of an entity on its own with their times. -/
def soloTimed : Bridge → List SoloStep → List (Nat × SoloStep)
  | _, [] => []
  | b, s :: steps => (b.now, s) :: soloTimed (b.soloStep s).1 steps

/-- What some steps tell a momentary sensor on its own. -/
def soloHeard (b : Bridge) (steps : List SoloStep) : List (Nat × Input) :=
  (b.soloTimed steps).filterMap fun x => x.2.input?.map (x.1, ·)

/-- What is done to a momentary sensor on its own over some steps. -/
def soloActs (b : Bridge) (steps : List SoloStep) : List (Nat × Act) :=
  (Course.start.play (b.hearing 0) (b.soloHeard steps) (b.soloRun steps).now).acts

section

variable {t₀ : Track} {c : Course} {b : Bridge} {ent : Entity}

theorem track_modify_announce (b : Bridge) (i : Nat) (uniqueId : String) :
    (b.modify i fun e => { e with cell := e.cell.announce uniqueId }).track i =
      (b.track i).map (·.act (b.now, .announceAs uniqueId)) := by
  rw [track_modify, track, Option.map_map]
  rfl

theorem bare_announceAs (b : Bridge) (i : Nat) (uniqueId : String) :
    (b.modify i fun e => { e with cell := e.cell.announce uniqueId }).bare = b.bare :=
  bare_modify b i fun _ => rfl

theorem steady_soloAct (b : Bridge) (s : SoloStep) :
    ∃ session, Steady { b with session := session } (b.soloAct s).1 := by
  cases s with
  | write value => exact ⟨b.session, (Steady.of_bare_eq (bare_write b 0 value)).1⟩
  | trigger => exact ⟨b.session, .of_bare (bare_trigger b 0) (Nat.le_refl _)⟩
  | deliver e => exact ⟨b.session, steady_deliver e b 0⟩
  | refresh => exact ⟨b.session, (Steady.of_bare_eq (bare_refresh b)).1⟩
  | publish => exact ⟨b.session, (Steady.of_bare_eq (bare_publishAll b)).1⟩
  | advance ms => exact ⟨b.session, steady_runUntil b _⟩
  | announceAs uniqueId => exact ⟨b.session, (Steady.of_bare_eq (bare_announceAs b 0 uniqueId)).1⟩
  | setRecord systemId r => exact ⟨b.session.setSensor systemId r, ⟨rfl, rfl, rfl, Nat.le_refl _⟩⟩
  | look => exact ⟨b.session, .refl b⟩
  | receive => exact ⟨b.session, ⟨rfl, rfl, rfl, Nat.le_refl _⟩⟩
  | close => exact ⟨b.session, ⟨rfl, rfl, rfl, Nat.le_refl _⟩⟩

theorem now_soloStep (b : Bridge) (s : SoloStep) : (b.soloStep s).1.now = (b.soloAct s).1.now := by
  show ((b.soloAct s).1.runUntil (b.soloAct s).1.now).now = (b.soloAct s).1.now
  rw [now_runUntil, Nat.max_self]

theorem Follows.soloAct (h : Follows t₀ 0 c b) (hent : b.entities[0]? = some ent)
    (hmomentary : ent.isMomentary = true) (s : SoloStep) :
    ∃ c', Follows t₀ 0 c' (b.soloAct s).1 ∧
      c'.elapse (b.soloAct s).1.now =
        (c.hear? (b.hearing 0) b.now s.input?).elapse (b.soloAct s).1.now := by
  cases s with
  | look => exact ⟨c, h, rfl⟩
  | write value => exact ⟨_, h.write value, rfl⟩
  | trigger => exact ⟨_, h.trigger (k := b.hearing 0) rfl, rfl⟩
  | deliver e =>
    have hdeliver := h.deliver (k := b.hearing 0) hent rfl e
    rw [if_pos hmomentary] at hdeliver
    exact ⟨_, hdeliver, rfl⟩
  | refresh =>
    have hrefresh := h.refresh hent
    rw [Entity.reading?_of_isMomentary hmomentary] at hrefresh
    exact ⟨c, hrefresh, rfl⟩
  | publish => exact ⟨_, h.publishAll, rfl⟩
  | advance ms =>
    refine ⟨_, h.runUntil _, c.elapse_elapse ?_⟩
    show b.now + ms ≤ (b.runUntil (b.now + ms)).now
    rw [now_runUntil]
    exact Nat.le_max_right _ _
  | setRecord systemId r => exact ⟨c, h.congr rfl rfl rfl rfl, rfl⟩
  | announceAs uniqueId =>
    have hbare := bare_announceAs b 0 uniqueId
    exact ⟨_, h.act (track_modify_announce b 0 uniqueId) (congrArg Bridge.agenda hbare :)
      (congrArg Bridge.now hbare :) (congrArg Bridge.clearDelay hbare :), rfl⟩
  | receive =>
    refine ⟨_, h.act (a := .receive) ?_ rfl rfl rfl, rfl⟩
    simp only [Bridge.soloAct, Bridge.track, Option.map_map]
    rfl
  | close =>
    refine ⟨_, h.act (a := .close) ?_ rfl rfl rfl, rfl⟩
    simp only [Bridge.soloAct, Bridge.track, Option.map_map]
    rfl

theorem tells_soloStep (hent : b.entities[0]? = some ent) (hmomentary : ent.isMomentary = true)
    (s : SoloStep) : Tells 0 b s.input? (b.soloStep s).1 := by
  obtain ⟨session, hact⟩ := steady_soloAct b s
  have hsteady := hact.trans (steady_runUntil (b.soloAct s).1 (b.soloAct s).1.now)
  refine ⟨fun h => ?_, hsteady.identities, hsteady.clearDelay, hsteady.now⟩
  obtain ⟨c', hfollows, hcourse⟩ := h.soloAct hent hmomentary s
  rw [now_soloStep, ← hcourse]
  exact hfollows.runUntil (b.soloAct s).1.now

/-- On its own a momentary sensor is told what its steps say. -/
theorem told_soloRun (hent : b.entities[0]? = some ent) (hmomentary : ent.isMomentary = true)
    (steps : List SoloStep) : Told 0 b (b.soloHeard steps) (b.soloRun steps) := by
  induction steps generalizing b ent with
  | nil => exact .nothing b
  | cons s steps ih =>
    have htells := tells_soloStep hent hmomentary s
    have hbare : (b.soloStep s).1.entities[0]?.map Entity.bare = some ent.bare := by
      rw [← getElem?_bare, htells.identities, getElem?_bare, hent]
      rfl
    obtain ⟨ent', hent', hbare'⟩ := Option.map_eq_some_iff.mp hbare
    have hmomentary' : ent'.isMomentary = true := by
      rw [← Entity.isMomentary_bare, hbare', Entity.isMomentary_bare, hmomentary]
    have hnext := Told.next htells (ih hent' hmomentary')
    have hheard : b.soloHeard (s :: steps) =
        (s.input?.map (b.now, ·)).toList ++ (b.soloStep s).1.soloHeard steps := by
      cases hinput : s.input? <;> simp [soloHeard, soloTimed, hinput]
    rw [hheard]
    exact hnext

end

end AlarmBridge.Bridge
