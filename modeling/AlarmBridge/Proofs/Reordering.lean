import AlarmBridge.Proofs.Bridge.Muted
import AlarmBridge.Proofs.Rebuild

/-! The order of a dump.  Devices and systems are kept by their serials and ids, so of those that
share one the last counts and between different ones the order does not matter: bridges that are set
up from and told of reordered dumps answer alike and announce the same changes. -/

set_option autoImplicit false

namespace AlarmBridge

open Bridge (Step)

/-- `ys` has what `xs` has, in an order that leaves what shares a key as it was. -/
structure Reorders {κ α : Type} [DecidableEq κ] (key : α → κ) (xs ys : List α) : Prop where
  perm : xs.Perm ys
  each : ∀ k, xs.filter (key · = k) = ys.filter (key · = k)

namespace Reorders

variable {κ α : Type} [DecidableEq κ] {key : α → κ} {xs ys : List α}

theorem refl (key : α → κ) (xs : List α) : Reorders key xs xs := ⟨.refl xs, fun _ => rfl⟩

/-- What has different keys may change places. -/
theorem swap {x y : α} (h : key x ≠ key y) (xs : List α) :
    Reorders key (x :: y :: xs) (y :: x :: xs) where
  perm := .swap y x xs
  each k := by
    by_cases hx : key x = k
    · simp [hx, show ¬key y = k from fun hy => h (hx.trans hy.symm)]
    · simp [List.filter_cons, hx]

theorem map {β : Type} {key' : β → κ} (h : Reorders key xs ys) (f : α → β)
    (hf : ∀ x, key' (f x) = key x) : Reorders key' (xs.map f) (ys.map f) where
  perm := h.perm.map f
  each k := by
    have hkey : (fun y => decide (key' y = k)) ∘ f = fun x => decide (key x = k) :=
      funext fun x => by rw [Function.comp_apply, hf]
    rw [List.filter_map, List.filter_map, hkey, h.each]

variable [Ord κ] [Std.TransOrd κ]

theorem ofList_eq [Std.LawfulEqOrd κ] (h : Reorders key xs ys) :
    Roster.ofList key xs = Roster.ofList key ys :=
  Roster.ext_get? fun k => by rw [Roster.get?_ofList, Roster.get?_ofList, h.each]

theorem foldl_replace_eq (h : Reorders key xs ys) (r : Roster κ α) :
    xs.foldl (fun r v => r.replace (key v) v) r = ys.foldl (fun r v => r.replace (key v) v) r :=
  Roster.ext_get? fun k => by rw [Roster.get?_foldl_replace, Roster.get?_foldl_replace, h.each]

end Reorders

/-- An entry of a dump with its sensors and cameras in another order. -/
structure SystemSnapshot.Reordered (s s' : SystemSnapshot) : Prop where
  systemId : s.systemId = s'.systemId
  version : s.version = s'.version
  state : s.state = s'.state
  sensors : Reorders (·.serial) s.sensors s'.sensors
  cameras : Reorders (·.serial) s.cameras s'.cameras

/-- A dump with its entries, and the devices in each, in another order. -/
structure Snapshot.Reordered (s s' : Snapshot) : Prop where
  accessToken : s.accessToken = s'.accessToken
  systems : ∃ entries, List.Forall₂ SystemSnapshot.Reordered s.systems entries ∧
    Reorders (·.systemId) entries s'.systems

namespace System

variable {entry entry' : SystemSnapshot}

theorem ofSnapshot_reordered (h : entry.Reordered entry') : ofSnapshot entry = ofSnapshot entry' :=
  eq_of_parts h.systemId h.version h.state h.sensors.ofList_eq h.cameras.ofList_eq

theorem apply_reordered (h : entry.Reordered entry') (system : System) :
    system.apply entry = system.apply entry' :=
  eq_of_parts rfl rfl h.state (h.sensors.foldl_replace_eq _) (h.cameras.foldl_replace_eq _)

end System

namespace Session

theorem foldl_applySystem_reordered {entries entries' : List SystemSnapshot}
    (h : List.Forall₂ SystemSnapshot.Reordered entries entries') (s : Session) :
    entries.foldl applySystem s = entries'.foldl applySystem s := by
  induction h generalizing s with
  | nil => rfl
  | @cons entry entry' _ _ hentry _ ih =>
    have hsame : s.applySystem entry = s.applySystem entry' := by
      unfold applySystem
      rw [hentry.systemId, funext (System.apply_reordered hentry)]
    rw [List.foldl_cons, List.foldl_cons, hsame, ih]

variable {next next' : Snapshot}

/-- A reordered dump starts the same session. -/
theorem ofSnapshot_reordered (entryId : String) (h : next.Reordered next') :
    ofSnapshot entryId next = ofSnapshot entryId next' := by
  obtain ⟨entries, hentries, hsystems⟩ := h.systems
  have hmade : next.systems.map System.ofSnapshot = entries.map System.ofSnapshot := by
    rw [← List.forall₂_eq_eq_eq, List.forall₂_map_left_iff, List.forall₂_map_right_iff]
    exact hentries.imp fun _ _ => System.ofSnapshot_reordered
  have hroster : Roster.ofList System.systemId (entries.map System.ofSnapshot) =
      Roster.ofList System.systemId (next'.systems.map System.ofSnapshot) :=
    (hsystems.map System.ofSnapshot fun _ => rfl).ofList_eq
  unfold ofSnapshot
  rw [hmade, hroster, h.accessToken]

/-- Every session takes over a reordered dump as it does the dump. -/
theorem apply_reordered (h : next.Reordered next') (s : Session) :
    s.apply next = s.apply next' := by
  -- first the devices within the entries, then the entries
  obtain ⟨entries, hentries, hsystems⟩ := h.systems
  have hwithin : s.apply next = s.apply ⟨next'.accessToken, entries⟩ := by
    unfold apply
    simp only
    rw [h.accessToken, foldl_applySystem_reordered hentries]
  rw [hwithin]
  refine eq_of_parts ?_ (fun id => ?_) ?_
  · rw [(apply_header _ _).1, (apply_header _ _).1]
  · rw [get?_apply, get?_apply, hsystems.each]
  · rw [(apply_header _ _).2, (apply_header _ _).2]

end Session

namespace Bridge

/-- A step, or one that differs from it by the order of the dump it tells of. -/
inductive Step.Reordered : Step → Step → Prop
  | same (s : Step) : Reordered s s
  | apply {next next' : Snapshot} (h : next.Reordered next') :
      Reordered (.apply next) (.apply next')
  | poll {text text' : List Char} {next next' : Snapshot} (htext : Snapshot.ofText? text = .ok next)
      (htext' : Snapshot.ofText? text' = .ok next') (h : next.Reordered next') :
      Reordered (.poll text) (.poll text')

/-- The answers to some steps. -/
def answers (b : Bridge) : List Step → List Answer
  | [] => []
  | s :: steps => (b.step s).2 :: (b.step s).1.answers steps

/-- A bridge without its log. -/
def unlogged (b : Bridge) : Bridge := { b with log := [] }

variable {heard : Prop} {b b' : Bridge}

theorem Agree.unlogged (h : Agree True b b') : b.unlogged = b'.unlogged := by
  have hmuted := eq_speaking_of_muted h.muted
  rw [hmuted]
  unfold Bridge.unlogged speaking
  simp only [h.listening trivial, h.outbox trivial]

theorem Agree.step_reordered (h : Agree heard b b') {s s' : Step} (hs : s.Reordered s') :
    Agree heard (b.step s).1 (b'.step s').1 ∧ (b.step s).2 = (b'.step s').2 := by
  cases hs with
  | same => exact h.step s
  | apply hnext => exact ⟨(h.apply (Session.apply_reordered hnext _)).settle, rfl⟩
  | poll htext htext' hnext =>
    simp only [Bridge.step, Bridge.act, htext, htext']
    exact ⟨(h.apply (Session.apply_reordered hnext _)).refresh.settle, trivial⟩

theorem Agree.run_reordered (h : Agree heard b b') {steps steps' : List Step}
    (hsteps : List.Forall₂ Step.Reordered steps steps') :
    Agree heard (b.run steps) (b'.run steps') ∧ b.answers steps = b'.answers steps' := by
  induction hsteps generalizing b b' with
  | nil => exact ⟨h, rfl⟩
  | cons hs _ ih =>
    obtain ⟨hstep, hanswer⟩ := h.step_reordered hs
    obtain ⟨hrun, hanswers⟩ := ih hstep
    exact ⟨hrun, by rw [answers, answers, hanswer, hanswers]⟩

/-- A reordered dump has the same effect on every session, and the same session and bridge are made
from it, with the same entities in the same order.  Bridges set up from reordered dumps, with steps
that differ by the order of their dumps, give the same answers, and but for the log end the same,
with the same announcements. -/
theorem dump_order_is_irrelevant {first first' : Snapshot} (hfirst : first.Reordered first') :
    (∀ s : Session, s.apply first = s.apply first') ∧
    ∀ (entryId : String) (clearDelay : Nat) (g : Grabber),
      let s := Session.ofSnapshot entryId first
      let s' := Session.ofSnapshot entryId first'
      let start := setup s clearDelay g
      let start' := setup s' clearDelay g
      s = s' ∧ start = start' ∧
      ∀ steps steps', List.Forall₂ Step.Reordered steps steps' →
        start.answers steps = start'.answers steps' ∧
        (start.run steps).outbox = (start'.run steps').outbox ∧
        (start.run steps).unlogged = (start'.run steps').unlogged := by
  refine ⟨Session.apply_reordered hfirst, fun entryId clearDelay g => ?_⟩
  intro s s' start start'
  have hs : s = s' := Session.ofSnapshot_reordered entryId hfirst
  have hstart : start = start' := congrArg (setup · clearDelay g) hs
  refine ⟨hs, hstart, fun steps steps' hsteps => ?_⟩
  have hagree : Agree True start start' := hstart ▸ .refl True start
  obtain ⟨hrun, hanswers⟩ := hagree.run_reordered hsteps
  exact ⟨hanswers, hrun.outbox trivial, hrun.unlogged⟩

/-- An account with two systems, in the first of which a door is told of twice. -/
def twoSystems (isOpen : Bool) : Snapshot :=
  let door (isOpen : Bool) : SensorRecord := ⟨"s1", "Door", .entry, isOpen, false⟩
  ⟨"", [⟨1, 3, .off, [door (!isOpen), ⟨"s2", "Hall", .entry, false, false⟩, door isOpen], []⟩,
    ⟨2, 3, .home, [], [⟨"c1", "Porch", .camera, "online", true, true, true, true⟩]⟩]⟩

/-- The same account in another order, in which the door is told of last as before. -/
def twoSystemsReordered (isOpen : Bool) : Snapshot :=
  let door (isOpen : Bool) : SensorRecord := ⟨"s1", "Door", .entry, isOpen, false⟩
  ⟨"", [⟨2, 3, .home, [], [⟨"c1", "Porch", .camera, "online", true, true, true, true⟩]⟩,
    ⟨1, 3, .off, [⟨"s2", "Hall", .entry, false, false⟩, door (!isOpen), door isOpen], []⟩]⟩

theorem twoSystems_reordered (isOpen : Bool) :
    (twoSystems isOpen).Reordered (twoSystemsReordered isOpen) where
  accessToken := rfl
  systems := ⟨(twoSystemsReordered isOpen).systems.reverse,
    .cons ⟨rfl, rfl, rfl, .swap (show "s1" ≠ "s2" by decide) _, .refl _ _⟩
      (.cons ⟨rfl, rfl, rfl, .refl _ _, .refl _ _⟩ .nil),
    .swap (show (1 : UInt64) ≠ 2 by decide) _⟩

/-- A reordered dump has the opened door announced, as the dump itself does. -/
theorem dump_order_is_irrelevant_twoSystems :
    let start := setup (.ofSnapshot "test" (twoSystems false)) 30000 ⟨[], [], []⟩
    let start' := setup (.ofSnapshot "test" (twoSystemsReordered false)) 30000 ⟨[], [], []⟩
    let b := start.run [.apply (twoSystems true), .refresh]
    let b' := start'.run [.apply (twoSystemsReordered true), .refresh]
    b.outbox = b'.outbox ∧ b.outbox.head?.map (fun notice =>
      (notice.change.uniqueId, notice.change.isOn)) = some ("s1", true) := by
  intro start start' b b'
  obtain ⟨-, hstart⟩ := dump_order_is_irrelevant (twoSystems_reordered false)
  obtain ⟨-, -, hrun⟩ := hstart "test" 30000 ⟨[], [], []⟩
  obtain ⟨-, houtbox, -⟩ :=
    hrun _ _ (.cons (.apply (twoSystems_reordered true)) (.cons (.same .refresh) .nil))
  exact ⟨houtbox, by decide +kernel⟩

end Bridge

end AlarmBridge
