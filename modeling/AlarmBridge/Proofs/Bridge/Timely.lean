import AlarmBridge.Proofs.Bridge.Bare

/-! Bridges on time: the agenda is in order, nothing on it lies behind the clock, and no clear is
due later than one planned now.  `clearsOf` reads from an agenda when the clears of one entity are
due. -/

set_option autoImplicit false

namespace AlarmBridge.Bridge

/-- When the clears of an entity are due. -/
def clearsOf (i : Nat) (a : Agenda Task) : List Nat :=
  a.filterMap fun d => if d.task = .clear i then some d.time else none

/-- When the pending clears of an entity are due. -/
def clears (b : Bridge) (i : Nat) : List Nat := clearsOf i b.agenda

theorem pendingClears_eq (b : Bridge) (i : Nat) : b.pendingClears i = (b.clears i).length := by
  unfold pendingClears clears clearsOf
  induction b.agenda with
  | nil => rfl
  | cons d a ih => by_cases h : d.task = .clear i <;> simp [h, ih]

theorem mem_clearsOf {i time : Nat} {a : Agenda Task} :
    time ∈ clearsOf i a ↔ ∃ d ∈ a, d.task = .clear i ∧ d.time = time := by
  simp [clearsOf, List.mem_filterMap]

theorem clearsOf_plan_of_ne {i : Nat} {task : Task} (h : task ≠ .clear i) (time : Nat)
    (a : Agenda Task) : clearsOf i (a.plan time task) = clearsOf i a :=
  Agenda.filterMap_plan_of_none (if_neg h) a

/-- A clear planned no earlier than the others of its entity comes after them. -/
theorem clearsOf_plan {i time : Nat} {a : Agenda Task} (hsorted : a.Sorted)
    (hle : ∀ t ∈ clearsOf i a, t ≤ time) :
    clearsOf i (a.plan time (.clear i)) = clearsOf i a ++ [time] := by
  induction a with
  | nil => simp [Agenda.plan, clearsOf]
  | cons d a ih =>
    obtain ⟨hd, ha⟩ := Agenda.sorted_cons.mp hsorted
    rw [Agenda.plan]
    split
    · have hle' : ∀ t ∈ clearsOf i a, t ≤ time := fun t ht => by
        obtain ⟨x, hx, htask, rfl⟩ := mem_clearsOf.mp ht
        exact hle _ (mem_clearsOf.mpr ⟨x, by simp [hx], htask, rfl⟩)
      have hrest := ih ha hle'
      simp only [clearsOf] at hrest ⊢
      by_cases htask : d.task = .clear i <;> simp [htask, hrest]
    · next hgt =>
      -- the entries from here on are due after `time`, so none is a clear of `i`
      have hnone : clearsOf i (d :: a) = [] := by
        refine List.eq_nil_iff_forall_not_mem.mpr fun t ht => ?_
        have htle := hle t ht
        obtain ⟨x, hx, -, rfl⟩ := mem_clearsOf.mp ht
        rcases List.mem_cons.mp hx with rfl | hx
        · omega
        · have := hd x hx
          omega
      rw [hnone]
      simp only [clearsOf] at hnone ⊢
      simp [hnone]

theorem clearsOf_dueBy_after {i : Nat} {a : Agenda Task} (hsorted : a.Sorted) (time : Nat) :
    clearsOf i (a.dueBy time) = (clearsOf i a).takeWhile (· ≤ time) ∧
      clearsOf i (a.after time) = (clearsOf i a).dropWhile (· ≤ time) := by
  refine Agenda.filterMap_dueBy_after (fun t => t) (fun d t hd => ?_) hsorted time
  split at hd
  · exact (Option.some.inj hd).symm
  · cases hd

/-- The agenda is in order, nothing on it is overdue, and no clear is due later than one planned
now. -/
structure Timely (b : Bridge) : Prop where
  sorted : b.agenda.Sorted
  pending : ∀ d ∈ b.agenda, b.now ≤ d.time
  bounded : ∀ i, ∀ t ∈ b.clears i, t ≤ b.now + b.clearDelay

/-- Only the agenda, the clock and the delay of clears matter. -/
theorem Timely.congr {b b' : Bridge} (h : Timely b) (hagenda : b'.agenda = b.agenda)
    (hnow : b'.now = b.now) (hdelay : b'.clearDelay = b.clearDelay) : Timely b' where
  sorted := hagenda ▸ h.sorted
  pending := by rw [hagenda, hnow]; exact h.pending
  bounded := by
    unfold clears
    rw [hagenda, hnow, hdelay]
    exact h.bounded

theorem Timely.plan {b b' : Bridge} {time : Nat} {task : Task} (h : Timely b)
    (hagenda : b'.agenda = b.agenda.plan time task) (hnow : b'.now = b.now)
    (hdelay : b'.clearDelay = b.clearDelay) (htime : b.now ≤ time)
    (hclear : ∀ i, task = .clear i → time ≤ b.now + b.clearDelay) : Timely b' where
  sorted := hagenda ▸ Agenda.sorted_plan h.sorted
  pending := fun d hd => by
    rw [hagenda] at hd
    rw [hnow]
    rcases Agenda.mem_plan.mp hd with rfl | hd
    · exact htime
    · exact h.pending d hd
  bounded := fun i t ht => by
    rw [clears, hagenda] at ht
    rw [hnow, hdelay]
    obtain ⟨d, hd, htask, rfl⟩ := mem_clearsOf.mp ht
    rcases Agenda.mem_plan.mp hd with rfl | hd
    · exact hclear i htask
    · exact h.bounded i _ (mem_clearsOf.mpr ⟨d, hd, htask, rfl⟩)

theorem Timely.runUntil {b : Bridge} (h : Timely b) (time : Nat) : Timely (b.runUntil time) := by
  have hbare := bare_runUntil b time
  have hagenda : (b.runUntil time).agenda = b.agenda.after time :=
    (congrArg Bridge.agenda hbare :)
  have hnow := now_runUntil b time
  have hdelay : (b.runUntil time).clearDelay = b.clearDelay :=
    (congrArg Bridge.clearDelay hbare :)
  refine ⟨hagenda ▸ Agenda.sorted_after h.sorted time, fun d hd => ?_, fun i t ht => ?_⟩
  · rw [hagenda] at hd
    have hpending := h.pending d (Agenda.mem_of_mem_after hd)
    have hlater := Agenda.lt_time_of_mem_after h.sorted hd
    omega
  · rw [clears, hagenda] at ht
    obtain ⟨d, hd, htask, rfl⟩ := mem_clearsOf.mp ht
    have hbound := h.bounded i _ (mem_clearsOf.mpr ⟨d, Agenda.mem_of_mem_after hd, htask, rfl⟩)
    omega

end AlarmBridge.Bridge
