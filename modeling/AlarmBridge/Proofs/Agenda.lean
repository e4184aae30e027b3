import AlarmBridge.Agenda
import Mathlib.Data.List.Basic
import Mathlib.Data.List.Induction

/-! Sorted agendas: planning keeps the order, and what is due by a time comes before the rest.  The
same holds of what is read from an agenda task by task, if it is due when its task is. -/

set_option autoImplicit false

namespace AlarmBridge

def Due.map {τ σ : Type} (f : τ → σ) (d : Due τ) : Due σ := ⟨d.time, f d.task⟩

namespace Agenda

variable {τ σ : Type}

/-- What is due is listed in order of time. -/
def Sorted (a : Agenda τ) : Prop := a.Pairwise (·.time ≤ ·.time)

theorem sorted_cons {d : Due τ} {a : Agenda τ} :
    Sorted (d :: a) ↔ (∀ x ∈ a, d.time ≤ x.time) ∧ Sorted a := List.pairwise_cons

theorem plan_eq (a : Agenda τ) (time : Nat) (task : τ) :
    a.plan time task = a.dueBy time ++ ⟨time, task⟩ :: a.after time := by
  unfold dueBy after
  induction a with
  | nil => rfl
  | cons d a ih =>
    rw [plan]
    split
    · next hle => simp [hle, ih]
    · next hgt => simp [hgt]

theorem mem_plan {time : Nat} {task : τ} {a : Agenda τ} {x : Due τ} :
    x ∈ a.plan time task ↔ x = ⟨time, task⟩ ∨ x ∈ a := by
  conv_rhs => rw [← dueBy_append_after a time, List.mem_append]
  rw [plan_eq, List.mem_append, List.mem_cons]
  tauto

theorem sorted_after {a : Agenda τ} (h : Sorted a) (time : Nat) : Sorted (a.after time) :=
  h.sublist (List.dropWhile_sublist _)

theorem mem_of_mem_after {a : Agenda τ} {time : Nat} {x : Due τ} (h : x ∈ a.after time) : x ∈ a :=
  (List.dropWhile_sublist _).subset h

theorem time_le_of_mem_dueBy {a : Agenda τ} {time : Nat} {x : Due τ} (h : x ∈ a.dueBy time) :
    x.time ≤ time := by
  have hall := List.all_eq_true.mp (List.all_takeWhile (l := a) (p := fun d => d.time ≤ time))
  simpa using hall x h

/-- In a sorted agenda all that is left after a time is due later. -/
theorem lt_time_of_mem_after {a : Agenda τ} (h : Sorted a) {time : Nat} {x : Due τ}
    (hx : x ∈ a.after time) : time < x.time := by
  induction a with
  | nil => simp [after] at hx
  | cons d a ih =>
    obtain ⟨hd, ha⟩ := sorted_cons.mp h
    rw [after, List.dropWhile_cons] at hx
    split at hx
    · exact ih ha hx
    · next hgt =>
      have hlt : time < d.time := by simpa using hgt
      rcases List.mem_cons.mp hx with rfl | hx
      · exact hlt
      · exact Nat.lt_of_lt_of_le hlt (hd x hx)

/-- What is planned stands after all that is due by its time and before the rest. -/
theorem pairwise_plan {R : Due τ → Due τ → Prop} {time : Nat} {task : τ} {a : Agenda τ}
    (hsorted : Sorted a) (h : a.Pairwise R) (hbefore : ∀ x ∈ a, x.time ≤ time → R x ⟨time, task⟩)
    (hafter : ∀ x ∈ a, time < x.time → R ⟨time, task⟩ x) : (a.plan time task).Pairwise R := by
  rw [← dueBy_append_after a time] at h
  obtain ⟨hdue, hrest, hacross⟩ := List.pairwise_append.mp h
  rw [plan_eq]
  refine List.pairwise_append.mpr ⟨hdue, List.pairwise_cons.mpr ⟨fun x hx => ?_, hrest⟩, ?_⟩
  · exact hafter x (mem_of_mem_after hx) (lt_time_of_mem_after hsorted hx)
  · intro x hx y hy
    rcases List.mem_cons.mp hy with rfl | hy
    · exact hbefore x ((List.takeWhile_sublist _).subset hx) (time_le_of_mem_dueBy hx)
    · exact hacross x hx y hy

theorem sorted_plan {time : Nat} {task : τ} {a : Agenda τ} (h : Sorted a) :
    Sorted (a.plan time task) :=
  pairwise_plan h h (fun _ _ hle => hle) fun _ _ hlt => Nat.le_of_lt hlt

theorem mem_dueBy {a : Agenda τ} (h : Sorted a) {time : Nat} {x : Due τ} (hx : x ∈ a)
    (htime : x.time ≤ time) : x ∈ a.dueBy time := by
  rw [← dueBy_append_after a time] at hx
  rcases List.mem_append.mp hx with hx | hx
  · exact hx
  · have := lt_time_of_mem_after h hx
    omega

theorem plan_of_lt {a : Agenda τ} {time : Nat} (task : τ) (h : ∀ d ∈ a, time < d.time) :
    a.plan time task = ⟨time, task⟩ :: a := by
  cases a with
  | nil => rfl
  | cons d a =>
    have hd := h d List.mem_cons_self
    have hgt : ¬d.time ≤ time := by omega
    rw [plan, if_neg hgt]

theorem plan_append {before after : Agenda τ} {time : Nat} (task : τ)
    (h : ∀ d ∈ before, d.time ≤ time) :
    plan time task (before ++ after) = before ++ after.plan time task := by
  induction before with
  | nil => rfl
  | cons d before ih =>
    rw [List.cons_append, plan, if_pos (h d List.mem_cons_self),
      ih fun x hx => h x (List.mem_cons_of_mem d hx)]
    rfl

/-- What is planned comes after all that is due by its time. -/
theorem dueBy_plan (a : Agenda τ) (time : Nat) (task : τ) :
    (a.plan time task).dueBy time = a.dueBy time ++ [⟨time, task⟩] := by
  unfold dueBy
  induction a with
  | nil => simp [plan]
  | cons d a ih =>
    rw [plan]
    split
    · next hle => simp [hle, ih]
    · next hgt => simp [hgt]

theorem dueBy_append {before after : Agenda τ} {time : Nat} (hbefore : ∀ d ∈ before, d.time ≤ time)
    (hafter : ∀ d ∈ after, time < d.time) : dueBy (before ++ after) time = before := by
  have hnone : after.dueBy time = [] := by
    cases after with
    | nil => rfl
    | cons d after =>
      have hd := hafter d List.mem_cons_self
      have hgt : ¬d.time ≤ time := by omega
      simp [dueBy, hgt]
  have hall : ∀ d ∈ before, decide (d.time ≤ time) = true := fun d hd => by simpa using hbefore d hd
  rw [dueBy, List.takeWhile_append_of_pos hall, ← dueBy, hnone, List.append_nil]

theorem filterMap_plan_of_none {β : Type} {f : Due τ → Option β} {time : Nat} {task : τ}
    (h : f ⟨time, task⟩ = none) (a : Agenda τ) :
    List.filterMap f (a.plan time task) = a.filterMap f := by
  rw [plan_eq, List.filterMap_append, List.filterMap_cons_none h, ← List.filterMap_append,
    dueBy_append_after]

/-- What is read from a sorted agenda is cut at a time as the agenda is. -/
theorem filterMap_dueBy_after {β : Type} {f : Due τ → Option β} (due : β → Nat)
    (hf : ∀ d x, f d = some x → due x = d.time) {a : Agenda τ} (hsorted : Sorted a) (time : Nat) :
    List.filterMap f (a.dueBy time) = (a.filterMap f).takeWhile (due · ≤ time) ∧
      List.filterMap f (a.after time) = (a.filterMap f).dropWhile (due · ≤ time) := by
  have hsplit :
      a.filterMap f = List.filterMap f (a.dueBy time) ++ List.filterMap f (a.after time) := by
    rw [← List.filterMap_append, dueBy_append_after]
  have hdue : ∀ x ∈ List.filterMap f (a.dueBy time), decide (due x ≤ time) = true := by
    intro x hx
    obtain ⟨d, hd, hdx⟩ := List.mem_filterMap.mp hx
    rw [hf d x hdx]
    exact decide_eq_true (time_le_of_mem_dueBy hd)
  have hfirst : (List.filterMap f (a.after time)).takeWhile (due · ≤ time) = [] ∧
      (List.filterMap f (a.after time)).dropWhile (due · ≤ time) =
        List.filterMap f (a.after time) := by
    cases hl : List.filterMap f (a.after time) with
    | nil => simp
    | cons x l =>
      obtain ⟨d, hd, hdx⟩ := List.mem_filterMap.mp (hl ▸ List.mem_cons_self)
      have hlt := lt_time_of_mem_after hsorted hd
      have hx : ¬decide (due x ≤ time) = true := by
        rw [hf d x hdx, decide_eq_true_iff]
        omega
      exact ⟨List.takeWhile_cons_of_neg hx, List.dropWhile_cons_of_neg hx⟩
  rw [hsplit, List.takeWhile_append_of_pos hdue, List.dropWhile_append_of_pos hdue, hfirst.1,
    hfirst.2, List.append_nil]
  exact ⟨rfl, rfl⟩

/-- Things in the order in which they are due, those due at one time in the order given. -/
def inOrder (ds : List (Due τ)) : Agenda τ := ds.foldl (fun a d => a.plan d.time d.task) []

theorem inOrder_append_singleton (ds : List (Due τ)) (d : Due τ) :
    inOrder (ds ++ [d]) = (inOrder ds).plan d.time d.task := List.foldl_append

theorem mem_inOrder {ds : List (Due τ)} {x : Due τ} : x ∈ inOrder ds ↔ x ∈ ds := by
  induction ds using List.reverseRecOn with
  | nil => rfl
  | append_singleton ds d ih =>
    rw [inOrder_append_singleton, mem_plan, ih, List.mem_append, List.mem_singleton]
    tauto

theorem sorted_inOrder (ds : List (Due τ)) : Sorted (inOrder ds) := by
  induction ds using List.reverseRecOn with
  | nil => exact .nil
  | append_singleton ds d ih =>
    rw [inOrder_append_singleton]
    exact sorted_plan ih

theorem dueBy_map (f : τ → σ) (a : Agenda τ) (time : Nat) :
    dueBy (a.map (Due.map f)) time = (a.dueBy time).map (Due.map f) := List.takeWhile_map ..

theorem plan_map (f : τ → σ) (a : Agenda τ) (time : Nat) (task : τ) :
    plan time (f task) (a.map (Due.map f)) = (a.plan time task).map (Due.map f) := by
  have hafter : after (a.map (Due.map f)) time = (a.after time).map (Due.map f) :=
    List.dropWhile_map ..
  rw [plan_eq, plan_eq, dueBy_map, hafter, List.map_append]
  rfl

theorem inOrder_map (f : τ → σ) (ds : List (Due τ)) :
    inOrder (ds.map (Due.map f)) = (inOrder ds).map (Due.map f) := by
  induction ds using List.reverseRecOn with
  | nil => rfl
  | append_singleton ds d ih =>
    rw [List.map_append, List.map_singleton, inOrder_append_singleton, ih, inOrder_append_singleton]
    exact plan_map f (inOrder ds) d.time d.task

/-- Things with their numbers in the order given. -/
def numbered (ds : List (Due τ)) : List (Due (Nat × τ)) := ds.mapIdx fun k d => d.map (k, ·)

/-- The order in which numbered things are done: by time, and at one time by number. -/
def Earlier (x y : Due (Nat × τ)) : Prop :=
  x.time < y.time ∨ x.time = y.time ∧ x.task.1 < y.task.1

theorem mem_numbered {ds : List (Due τ)} {x : Due (Nat × τ)} :
    x ∈ numbered ds ↔ ds[x.task.1]? = some ⟨x.time, x.task.2⟩ := by
  rw [numbered, List.mem_mapIdx]
  constructor
  · rintro ⟨k, hk, rfl⟩
    exact List.getElem?_eq_getElem hk
  · intro h
    obtain ⟨hk, hget⟩ := List.getElem?_eq_some_iff.mp h
    exact ⟨x.task.1, hk, by rw [hget]; rfl⟩

theorem numbered_map_snd (ds : List (Due τ)) : (numbered ds).map (Due.map Prod.snd) = ds := by
  refine List.ext_getElem? fun k => ?_
  rw [numbered, List.getElem?_map, List.getElem?_mapIdx]
  cases ds[k]? <;> rfl

/-- What is numbered is done in the order of times and, at one time, of numbers. -/
theorem pairwise_inOrder_numbered (ds : List (Due τ)) :
    (inOrder (numbered ds)).Pairwise Earlier := by
  induction ds using List.reverseRecOn with
  | nil => exact .nil
  | append_singleton ds d ih =>
    have hnumbered : numbered (ds ++ [d]) = numbered ds ++ [d.map (ds.length, ·)] := by
      simp [numbered, List.mapIdx_append]
    have hsmaller : ∀ x ∈ inOrder (numbered ds), x.task.1 < ds.length := fun x hx =>
      (List.getElem?_eq_some_iff.mp (mem_numbered.mp (mem_inOrder.mp hx))).1
    rw [hnumbered, inOrder_append_singleton]
    refine pairwise_plan (sorted_inOrder _) ih (fun x hx hle => ?_) fun x _ hlt => .inl hlt
    rcases Nat.lt_or_eq_of_le hle with hlt | heq
    · exact .inl hlt
    · exact .inr ⟨heq, hsmaller x hx⟩

end Agenda

end AlarmBridge
