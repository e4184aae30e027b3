import AlarmBridge.Bridge.Basic
import Mathlib.Data.List.Induction

/-! The course of one entity: what is done to it over time, and what becomes of it.  `Course` holds
the acts so far and when the pending clears are due; it follows from what the entity is told alone.
`Track` is what others see of the entity, which follows from the acts alone. -/

set_option autoImplicit false

namespace AlarmBridge

/-- What is done to an entity. -/
inductive Act
  | write (value : Bool)
  | publish
  /-- Somebody is told of the entity under an id from now on. -/
  | announceAs (uniqueId : String)
  /-- Announcements are received, or received again. -/
  | receive
  | close
deriving Repr, DecidableEq

/-- What is seen of an entity: its state, whether announcements are received, and those that
were. -/
structure Track where
  cell : StateCell
  listening : Bool
  sent : List StateChange
deriving Repr, DecidableEq

namespace Track

/-- An entity that announces its state at a time. -/
def announce (t : Track) (time : Nat) : Track :=
  if t.listening then { t with sent := t.sent ++ (t.cell.change? (.ofMillis time)).toList } else t

/-- An entity after an act at a time. -/
def act (t : Track) (a : Nat × Act) : Track :=
  match a.2 with
  | .write value => { t with cell := t.cell.write value }.announce a.1
  | .publish => t.announce a.1
  | .announceAs uniqueId => { t with cell := t.cell.announce uniqueId }
  | .receive => { t with listening := true }
  | .close => { t with listening := false }

def replay (t : Track) (acts : List (Nat × Act)) : Track := acts.foldl act t

@[simp] theorem replay_nil (t : Track) : t.replay [] = t := rfl

@[simp] theorem replay_append (t : Track) (as bs : List (Nat × Act)) :
    t.replay (as ++ bs) = (t.replay as).replay bs := List.foldl_append

@[simp] theorem replay_singleton (t : Track) (a : Nat × Act) : t.replay [a] = t.act a := rfl

@[simp] theorem cell_announce (t : Track) (time : Nat) : (t.announce time).cell = t.cell := by
  unfold announce; split <;> rfl

end Track

/-- The values written by some acts, with their times. -/
def Act.writes (acts : List (Nat × Act)) : List (Nat × Bool) :=
  acts.filterMap fun a =>
    match a.2 with
    | .write value => some (a.1, value)
    | _ => none

@[simp] theorem Act.writes_nil : Act.writes [] = [] := rfl

@[simp] theorem Act.writes_append (as bs : List (Nat × Act)) :
    Act.writes (as ++ bs) = Act.writes as ++ Act.writes bs := List.filterMap_append

/-- The last value written stands. -/
theorem Track.value_replay (t : Track) (acts : List (Nat × Act)) :
    (t.replay acts).cell.value = ((Act.writes acts).getLast?.map (·.2)).getD t.cell.value := by
  induction acts using List.reverseRecOn with
  | nil => rfl
  | append_singleton acts a ih =>
    obtain ⟨time, act⟩ := a
    rw [replay_append, replay_singleton, Act.writes_append]
    cases act with
    | write value => simp [Act.writes, Track.act]
    | _ => simpa [Act.writes, Track.act, StateCell.announce] using ih

/-- What an entity is told. -/
inductive Input
  /-- Something is done to it at once. -/
  | act (a : Act)
  /-- An event it subscribes to and accepts is dispatched. -/
  | event (e : PushEvent)
  /-- It is handed an event, or turned on. -/
  | trigger
deriving Repr, DecidableEq

/-- How an entity takes events: which of those dispatched at a time reach it, and when it is cleared
after a time, if the clock can hold that. -/
structure Hearing where
  reaches : Nat → PushEvent → Bool
  clearTime? : Nat → Option Nat

/-- Whether something told at a time does anything: all but an event that does not reach the
entity. -/
def Hearing.heeds (k : Hearing) (x : Nat × Input) : Bool :=
  match x.2 with
  | .event e => k.reaches x.1 e
  | _ => true

/-- What has been done to an entity, and when its pending clears are due. -/
structure Course where
  clears : List Nat
  acts : List (Nat × Act)
deriving Repr, DecidableEq

namespace Course

/-- The course of an entity to which nothing has been done. -/
def start : Course := ⟨[], []⟩

def act (c : Course) (time : Nat) (a : Act) : Course := { c with acts := c.acts ++ [(time, a)] }

/-- A course after the entity is turned on at a time. -/
def trigger (k : Hearing) (c : Course) (time : Nat) : Course :=
  ⟨c.clears ++ (k.clearTime? time).toList, c.acts ++ [(time, .write true)]⟩

/-- A course after the entity is told something at a time. -/
def hear (k : Hearing) (c : Course) (time : Nat) : Input → Course
  | .act a => c.act time a
  | .event e => if k.reaches time e then c.trigger k time else c
  | .trigger => c.trigger k time

/-- A course after the entity is told something at a time, if anything. -/
def hear? (k : Hearing) (c : Course) (time : Nat) : Option Input → Course
  | none => c
  | some x => c.hear k time x

@[simp] theorem hear?_none (k : Hearing) (c : Course) (time : Nat) : c.hear? k time none = c := rfl

@[simp] theorem hear?_some (k : Hearing) (c : Course) (time : Nat) (x : Input) :
    c.hear? k time (some x) = c.hear k time x := rfl

/-- A course after the clears due by a time have fired. -/
def elapse (c : Course) (time : Nat) : Course :=
  ⟨c.clears.dropWhile (· ≤ time),
    c.acts ++ (c.clears.takeWhile (· ≤ time)).map fun due => (due, .write false)⟩

/-- A course up to a time, the entity having been told things before. -/
def play (k : Hearing) (c : Course) : List (Nat × Input) → Nat → Course
  | [], time => c.elapse time
  | (t, x) :: inputs, time => ((c.elapse t).hear k t x).play k inputs time

/-- The clears due by a time fire in two goes as in one. -/
theorem elapse_elapse (c : Course) {s t : Nat} (h : s ≤ t) :
    (c.elapse s).elapse t = c.elapse t := by
  have key : ∀ l : List Nat, l.takeWhile (· ≤ s) ++ (l.dropWhile (· ≤ s)).takeWhile (· ≤ t) =
      l.takeWhile (· ≤ t) ∧ (l.dropWhile (· ≤ s)).dropWhile (· ≤ t) = l.dropWhile (· ≤ t) := by
    intro l
    induction l with
    | nil => simp
    | cons due l ih =>
      by_cases hs : due ≤ s
      · have ht : due ≤ t := Nat.le_trans hs h
        simpa [hs, ht] using ih
      · simp [hs]
  obtain ⟨htake, hdrop⟩ := key c.clears
  simp [elapse, hdrop, ← htake]

/-- Letting time pass first changes nothing for an entity that is told nothing meanwhile. -/
theorem play_elapse (k : Hearing) (c : Course) (inputs : List (Nat × Input)) {s t : Nat}
    (hinputs : ∀ x ∈ inputs, s ≤ x.1) (ht : s ≤ t) :
    (c.elapse s).play k inputs t = c.play k inputs t := by
  cases inputs with
  | nil => exact elapse_elapse c ht
  | cons x inputs =>
    rw [play, play, elapse_elapse c (hinputs x (by simp))]

/-- What does nothing may be left out. -/
theorem play_filter_heeds (k : Hearing) (c : Course) {inputs : List (Nat × Input)} {time : Nat}
    (hsorted : inputs.Pairwise (·.1 ≤ ·.1)) (hend : ∀ x ∈ inputs, x.1 ≤ time) :
    c.play k (inputs.filter k.heeds) time = c.play k inputs time := by
  induction inputs generalizing c with
  | nil => rfl
  | cons x inputs ih =>
    obtain ⟨t, x⟩ := x
    obtain ⟨hfirst, hsorted⟩ := List.pairwise_cons.mp hsorted
    have hrest := fun c => ih c hsorted fun y hy => hend y (List.mem_cons_of_mem _ hy)
    by_cases hx : k.heeds (t, x) = true
    · rw [List.filter_cons_of_pos hx, play, play, hrest]
    · have hskip : (c.elapse t).hear k t x = c.elapse t := by
        cases x with
        | event e =>
          have hreaches : k.reaches t e = false := by simpa [Hearing.heeds] using hx
          simp [hear, hreaches]
        | act a => simp [Hearing.heeds] at hx
        | trigger => simp [Hearing.heeds] at hx
      rw [List.filter_cons_of_neg hx, hrest, play, hskip]
      exact (play_elapse k c inputs hfirst (hend (t, x) List.mem_cons_self)).symm

/-- Only when clears are due and what is heeded matters of how an entity takes events. -/
theorem play_congr {k k' : Hearing} (hclear : k'.clearTime? = k.clearTime?) (c : Course)
    {inputs : List (Nat × Input)} (hheeds : ∀ x ∈ inputs, k'.heeds x = k.heeds x) (time : Nat) :
    c.play k' inputs time = c.play k inputs time := by
  induction inputs generalizing c with
  | nil => rfl
  | cons x inputs ih =>
    obtain ⟨t, x⟩ := x
    have htrigger : ∀ c : Course, c.trigger k' t = c.trigger k t := fun c => by
      rw [trigger, trigger, hclear]
    have hhear : (c.elapse t).hear k' t x = (c.elapse t).hear k t x := by
      cases x with
      | act a => rfl
      | trigger => exact htrigger _
      | event e =>
        have hreaches : k'.reaches t e = k.reaches t e := hheeds (t, .event e) List.mem_cons_self
        rw [hear, hear, hreaches, htrigger]
    rw [play, play, hhear, ih _ fun y hy => hheeds y (List.mem_cons_of_mem _ hy)]

end Course

end AlarmBridge
