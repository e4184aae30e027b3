import AlarmBridge.Stream.Guard
import Mathlib.Tactic.Common

/-! The release of a stream process.  Whatever is done with a guard and in whatever order, its
process is released by the first release or drop, and by that alone; so a stream request closes its
process if the copy has returned and aborts it if the caller has gone away. -/

set_option autoImplicit false

namespace AlarmBridge

namespace Guard

/-- What may be done with a guard. -/
inductive Use
  | proxy (deadline : Option Nat) (time : Nat) (w : Writer)
  | release
  | drop

/-- How a use of a guard releases its process, if it does. -/
def Use.how? : Use → Option Release
  | .proxy _ _ _ => none
  | .release => some .close
  | .drop => some .abort

def use (g : Guard) : Use → Guard
  | .proxy deadline time w => (g.proxy deadline time w).1
  | .release => g.release.1
  | .drop => g.drop.1

theorem use_of_released {g : Guard} (h : g.process = none) (u : Use) : g.use u = g := by
  cases u <;> simp [use, proxy, release, drop, h]

theorem foldl_use_of_released {g : Guard} (h : g.process = none) (us : List Use) :
    us.foldl use g = g := by
  induction us with
  | nil => rfl
  | cons u us ih => rw [List.foldl_cons, use_of_released h, ih]

/-- A use that does not release the process leaves it held. -/
theorem use_of_held {g : Guard} (h : g.process.isSome = true) {u : Use} (hu : u.how? = none) :
    (g.use u).process.isSome = true ∧ (g.use u).releases = g.releases := by
  obtain ⟨process, hprocess⟩ := Option.isSome_iff_exists.mp h
  cases u with
  | proxy deadline time w => simp [use, proxy, hprocess]
  | release => simp [Use.how?] at hu
  | drop => simp [Use.how?] at hu

theorem use_release {g : Guard} (h : g.process.isSome = true) {u : Use} {how : Release}
    (hu : u.how? = some how) :
    (g.use u).process = none ∧ (g.use u).releases = g.releases ++ [how] := by
  obtain ⟨process, hprocess⟩ := Option.isSome_iff_exists.mp h
  cases u with
  | proxy deadline time w => simp [Use.how?] at hu
  | release =>
    obtain rfl : Release.close = how := by simpa [Use.how?] using hu
    simp [use, release, hprocess]
  | drop =>
    obtain rfl : Release.abort = how := by simpa [Use.how?] using hu
    simp [use, drop, hprocess]

/-- Only the first use that releases the process does so. -/
theorem releases_foldl_use {g : Guard} (h : g.process.isSome = true) (us : List Use) :
    (us.foldl use g).releases = g.releases ++ (us.findSome? Use.how?).toList := by
  induction us generalizing g with
  | nil => simp
  | cons u us ih =>
    rw [List.foldl_cons, List.findSome?_cons]
    cases hu : u.how? with
    | none =>
      obtain ⟨hheld, hreleases⟩ := use_of_held h hu
      rw [ih hheld, hreleases]
    | some how =>
      obtain ⟨hnone, hreleases⟩ := use_release h hu
      rw [foldl_use_of_released hnone, hreleases]
      rfl

end Guard

/-- How a process is released after a copy that has come to a result or to none. -/
def Release.after (result? : Option (Except StreamCause Nat)) : Release :=
  if result?.isSome then .close else .abort

/-- A stream request is a copy, after which the process is released. -/
theorem serve_eq (process : StreamProcess) (label : String) (deadline : Option Nat) (time : Nat)
    (w : Writer) :
    let copy := copyFrom deadline time w 0 process.chunks
    let run := process.serve label deadline time w
    run.time = copy.time ∧ run.writer = copy.writer ∧ run.result? = copy.result? ∧
      run.releases = [Release.after copy.result?] := by
  intro copy run
  have hrun : run = process.serve label deadline time w := rfl
  have hproxy : (Guard.of process label).proxy deadline time w =
      ((Guard.of process label).use (.proxy deadline time w), some copy) := rfl
  -- the guard has been used for the copy, and then once more
  have huses : ∀ u how, u.how? = some how →
      (((Guard.of process label).use (.proxy deadline time w)).use u).releases = [how] := by
    intro u how hu
    have hreleases := Guard.releases_foldl_use (g := Guard.of process label) rfl
      [.proxy deadline time w, u]
    have hfirst : [Guard.Use.proxy deadline time w, u].findSome? Guard.Use.how? = some how := by
      rw [List.findSome?_cons_of_isNone rfl, List.findSome?_cons, hu]
    rw [hfirst] at hreleases
    exact hreleases
  simp only [StreamProcess.serve, hproxy] at hrun
  cases hresult : copy.result? with
  | none =>
    simp only [hresult] at hrun
    rw [hrun]
    exact ⟨rfl, rfl, rfl, huses .drop .abort rfl⟩
  | some result =>
    simp only [hresult] at hrun
    rw [hrun]
    exact ⟨rfl, rfl, rfl, huses .release .close rfl⟩

theorem limit_le_of_afterPause {deadline : Option Nat} {time due given : Nat}
    (h : afterPause deadline time due = .error given) :
    ∃ limit, deadline = some limit ∧ limit ≤ given := by
  unfold afterPause at h
  split at h
  · simp at h
  · cases deadline with
    | none => simp at h
    | some limit =>
      simp only at h
      split at h
      · simp at h
      · obtain rfl : max time limit = given := by simpa using h
        exact ⟨limit, rfl, Nat.le_max_right _ _⟩

theorem limit_le_of_afterHang {deadline : Option Nat} {time given : Nat}
    (h : afterHang deadline time = .error given) :
    (∃ limit, deadline = some limit ∧ limit ≤ given) ∨ deadline = none := by
  unfold afterHang at h
  cases deadline with
  | none => exact .inr rfl
  | some limit =>
    simp only at h
    split at h
    · next hle =>
      obtain rfl : time = given := by simpa using h
      exact .inl ⟨limit, rfl, hle⟩
    · simp at h

/-- A copy comes to no result only where its caller gives up: at the deadline or later, or without
one at a read that never returns. -/
theorem gives_up_of_no_result {σ : Type} [Sink σ] {deadline : Option Nat} {time total : Nat} {w : σ}
    {chunks : List Chunk} (h : (copyFrom deadline time w total chunks).result? = none) :
    (∃ limit, deadline = some limit ∧ limit ≤ (copyFrom deadline time w total chunks).time) ∨
      deadline = none ∧ .hang ∈ chunks := by
  have hlater : ∀ {P : Prop} {chunk : Chunk} {rest : List Chunk},
      (P ∨ deadline = none ∧ .hang ∈ rest) → P ∨ deadline = none ∧ .hang ∈ chunk :: rest :=
    fun hrest => hrest.imp_right fun hhang => ⟨hhang.1, List.mem_cons_of_mem _ hhang.2⟩
  fun_induction copyFrom deadline time w total chunks with
  | case1 => simp [Copy.result?] at h
  | case2 => simp [Copy.result?] at h
  | case3 _ _ _ _ _ _ _ _ _ ih => exact hlater (ih h)
  | case4 => simp [Copy.result?] at h
  | case5 => simp [Copy.result?] at h
  | case6 _ _ _ _ _ _ _ ih => exact hlater (ih h)
  | case7 _ _ _ _ _ _ hgiven => exact .inl (limit_le_of_afterPause hgiven)
  | case8 _ _ _ _ _ _ _ ih => exact hlater (ih h)
  | case9 _ _ _ _ _ _ hgiven => exact .inl (limit_le_of_afterPause hgiven)
  | case10 _ _ _ _ _ _ ih => exact hlater (ih h)
  | case11 _ _ _ _ _ hgiven =>
    exact (limit_le_of_afterHang hgiven).imp_right fun hnone => ⟨hnone, List.mem_cons_self⟩

end AlarmBridge
