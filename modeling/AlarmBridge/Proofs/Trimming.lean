import AlarmBridge.Text.Blank
import Mathlib.Data.List.DropRight

/-! Trimming and lines.  Blanks around a text do not matter to its trimmed form, a character that is
not blank parts a text that is trimmed into two that are each trimmed at one end, and the lines of a
text are those that it is put together from, but for carriage returns. -/

set_option autoImplicit false

namespace AlarmBridge.Text

/-- All characters are blank. -/
def AllBlank (s : List Char) : Prop := ∀ c ∈ s, isBlank c = true

instance (s : List Char) : Decidable (AllBlank s) := List.decidableBAll (isBlank · = true) s

theorem allBlank_nil : AllBlank [] := fun _ hc => absurd hc List.not_mem_nil

theorem trimStart_append_of_allBlank {b : List Char} (h : AllBlank b) (s : List Char) :
    trimStart (b ++ s) = trimStart s := List.dropWhile_append_of_pos h

theorem trimEnd_append_of_allBlank (s : List Char) {b : List Char} (h : AllBlank b) :
    trimEnd (s ++ b) = trimEnd s := by
  have hreverse : ∀ c ∈ b.reverse, isBlank c = true := fun c hc => h c (List.mem_reverse.mp hc)
  unfold trimEnd
  rw [List.reverse_append, List.dropWhile_append_of_pos hreverse]

theorem trimStart_of_allBlank {s : List Char} (h : AllBlank s) : trimStart s = [] :=
  List.dropWhile_eq_nil_iff.mpr h

theorem trimEnd_of_allBlank {s : List Char} (h : AllBlank s) : trimEnd s = [] :=
  List.rdropWhile_eq_nil_iff.mpr h

theorem trimStart_append_cons {c : Char} (hc : isBlank c = false) (s t : List Char) :
    trimStart (s ++ c :: t) = trimStart s ++ c :: t := by
  have hkeep : (c :: t).dropWhile isBlank = c :: t := List.dropWhile_cons_of_neg (by simp [hc])
  unfold trimStart
  rw [List.dropWhile_append, hkeep]
  split
  · next hnone => rw [List.isEmpty_iff.mp hnone, List.nil_append]
  · rfl

theorem trimEnd_append_cons {c : Char} (hc : isBlank c = false) (s t : List Char) :
    trimEnd (s ++ c :: t) = s ++ c :: trimEnd t := by
  have hreverse : (s ++ c :: t).reverse = t.reverse ++ c :: s.reverse := by simp
  have hstart := trimStart_append_cons hc t.reverse s.reverse
  unfold trimStart at hstart
  unfold trimEnd
  rw [hreverse, hstart]
  simp

/-- A text is blank, or something in it is not. -/
theorem allBlank_or (s : List Char) :
    AllBlank s ∨ ∃ a c b, s = a ++ c :: b ∧ isBlank c = false := by
  by_cases h : AllBlank s
  · exact .inl h
  · simp only [AllBlank, not_forall, Bool.not_eq_true] at h
    obtain ⟨c, hc, hblank⟩ := h
    obtain ⟨a, b, rfl⟩ := List.append_of_mem hc
    exact .inr ⟨a, c, b, rfl, hblank⟩

/-- The two ends may be trimmed in either order. -/
theorem trimStart_trimEnd (s : List Char) : trimStart (trimEnd s) = trim s := by
  unfold trim
  rcases allBlank_or s with h | ⟨a, c, b, rfl, hc⟩
  · rw [trimEnd_of_allBlank h, trimStart_of_allBlank h]
    rfl
  · rw [trimEnd_append_cons hc, trimStart_append_cons hc, trimStart_append_cons hc,
      trimEnd_append_cons hc]

theorem trim_trimStart (s : List Char) : trim (trimStart s) = trim s := by
  unfold trim trimStart
  rw [List.dropWhile_idempotent]

theorem trim_trimEnd (s : List Char) : trim (trimEnd s) = trim s := by
  rw [← trimStart_trimEnd, ← trimStart_trimEnd s]
  exact congrArg trimStart (List.rdropWhile_idempotent isBlank s)

/-- Blanks around a text are trimmed. -/
theorem trim_padded {a b : List Char} (ha : AllBlank a) (hb : AllBlank b) (s : List Char) :
    trim (a ++ s ++ b) = trim s := by
  rw [← trimStart_trimEnd, trimEnd_append_of_allBlank _ hb, trimStart_trimEnd]
  unfold trim
  rw [trimStart_append_of_allBlank ha]

theorem trimStart_of_trim_eq {s : List Char} (h : trim s = s) : trimStart s = s := by
  rw [← h, ← trimStart_trimEnd]
  exact List.dropWhile_idempotent isBlank _

/-- A text is what is left of another without the blanks at its ends. -/
structure Trimmed (s t : List Char) : Prop where
  around : ∃ a b, AllBlank a ∧ AllBlank b ∧ s = a ++ t ++ b
  first : ∀ c ∈ t.head?, isBlank c = false
  last : ∀ c ∈ t.getLast?, isBlank c = false

theorem first_trimStart (s : List Char) : ∀ c ∈ (trimStart s).head?, isBlank c = false := by
  intro c hc
  have hfirst := List.head?_dropWhile_not isBlank s
  rw [show (s.dropWhile isBlank).head? = some c from hc] at hfirst
  exact hfirst

theorem last_trimEnd (s : List Char) : ∀ c ∈ (trimEnd s).getLast?, isBlank c = false := by
  intro c hc
  rw [trimEnd, List.getLast?_reverse] at hc
  exact first_trimStart s.reverse c hc

theorem trimStart_eq_self {s : List Char} (h : ∀ c ∈ s.head?, isBlank c = false) :
    trimStart s = s := by
  cases s with
  | nil => rfl
  | cons c s => exact List.dropWhile_cons_of_neg (by simp [h c rfl])

theorem trimEnd_eq_self {s : List Char} (h : ∀ c ∈ s.getLast?, isBlank c = false) :
    trimEnd s = s := by
  have hreverse : s.reverse.dropWhile isBlank = s.reverse :=
    trimStart_eq_self fun c hc => h c (List.head?_reverse ▸ hc)
  rw [trimEnd, hreverse, List.reverse_reverse]

theorem trimmed_iff {s t : List Char} : Trimmed s t ↔ trim s = t := by
  constructor
  · rintro ⟨⟨a, b, ha, hb, rfl⟩, hfirst, hlast⟩
    rw [trim_padded ha hb, trim, trimStart_eq_self hfirst, trimEnd_eq_self hlast]
  · rintro rfl
    have hparts : s = s.takeWhile isBlank ++ trim s ++ (trimStart s).rtakeWhile isBlank := by
      have hend : trim s ++ (trimStart s).rtakeWhile isBlank = trimStart s :=
        List.rdropWhile_append_rtakeWhile
      rw [List.append_assoc, hend]
      exact List.takeWhile_append_dropWhile.symm
    refine ⟨⟨_, _, fun c hc => List.mem_takeWhile_imp hc,
      fun c hc => List.mem_rtakeWhile_imp hc, hparts⟩, ?_, last_trimEnd _⟩
    rw [← trimStart_trimEnd]
    exact first_trimStart _

theorem trim_append_cons {c : Char} (hc : isBlank c = false) (s t : List Char) :
    trim (s ++ c :: t) = trimStart s ++ c :: trimEnd t := by
  unfold trim
  rw [trimStart_append_cons hc, trimEnd_append_cons hc]

theorem trim_dropReturn (s : List Char) : trim (dropReturn s) = trim s := by
  unfold dropReturn
  split
  · next h =>
    have hreturn : AllBlank ['\r'] := by
      intro c hc
      rw [List.mem_singleton.mp hc]
      rfl
    have hparts : s = [] ++ s.dropLast ++ ['\r'] := (List.dropLast_append_getLast? _ h).symm
    conv_rhs => rw [hparts]
    rw [trim_padded allBlank_nil hreturn]
  · rfl

/-! ## Lines -/

theorem linesFrom_append {line : List Char} (h : '\n' ∉ line) (start rest : List Char) :
    linesFrom start (line ++ '\n' :: rest) =
      dropReturn (start.reverse ++ line) :: linesFrom [] rest := by
  induction line generalizing start with
  | nil => simp [linesFrom]
  | cons c line ih =>
    obtain ⟨hc, hline⟩ := List.ne_and_not_mem_of_not_mem_cons h
    rw [List.cons_append, linesFrom, if_neg (Ne.symm hc), ih hline]
    simp

theorem linesFrom_of_not_mem {line : List Char} (h : '\n' ∉ line) (start : List Char) :
    linesFrom start line =
      if (start.reverse ++ line).isEmpty then [] else [start.reverse ++ line] := by
  induction line generalizing start with
  | nil => simp [linesFrom]
  | cons c line ih =>
    obtain ⟨hc, hline⟩ := List.ne_and_not_mem_of_not_mem_cons h
    rw [linesFrom, if_neg (Ne.symm hc), ih hline]
    simp

/-- The lines of a text of which one is the first. -/
theorem lines_append {line : List Char} (h : '\n' ∉ line) (rest : List Char) :
    lines (line ++ '\n' :: rest) = dropReturn line :: lines rest :=
  linesFrom_append h [] rest

/-- A text without a line feed is one line, if it is not empty. -/
theorem lines_of_not_mem {line : List Char} (h : '\n' ∉ line) :
    lines line = if line.isEmpty then [] else [line] :=
  linesFrom_of_not_mem h []

end AlarmBridge.Text
