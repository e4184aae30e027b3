import Mathlib.Data.List.Basic

/-! Lines that are split into arguments.  A space outside groups ends an argument, a double quote
opens or closes a group, and nothing else is special.  What is written without quotes and spaces, or
between double quotes, is read back.  A double quote itself is in no argument of any line. -/

set_option autoImplicit false

namespace AlarmBridge.Arguments

/-- How far a line has been read: the arguments that have ended, the one that has begun, if any has,
and whether a group is open. -/
structure Progress where
  ended : List (List Char)
  begun : Option (List Char)
  grouped : Bool

namespace Progress

def start : Progress := ⟨[], none, false⟩

def next (p : Progress) (c : Char) : Progress :=
  if c = '"' then { p with begun := some (p.begun.getD []), grouped := !p.grouped }
  else if c = ' ' ∧ p.grouped = false then ⟨p.ended ++ p.begun.toList, none, false⟩
  else { p with begun := some (p.begun.getD [] ++ [c]) }

/-- The arguments begun so far. -/
def arguments (p : Progress) : List (List Char) := p.ended ++ p.begun.toList

end Progress

/-- The arguments of a line whose groups are all closed. -/
def split? (line : List Char) : Option (List (List Char)) :=
  let p := line.foldl Progress.next .start
  if p.grouped then none else some p.arguments

def ofLine? (line : String) : Option (List String) :=
  (split? line.toList).map (List.map String.ofList)

namespace Progress

/-- Inside an argument, what is neither a double quote nor a space outside a group is added to
it. -/
theorem foldl_next_of_kept {grouped : Bool} {s : List Char}
    (hs : ∀ c ∈ s, c ≠ '"' ∧ (c = ' ' → grouped = true)) (ended : List (List Char))
    (a : List Char) :
    s.foldl next ⟨ended, some a, grouped⟩ = ⟨ended, some (a ++ s), grouped⟩ := by
  induction s generalizing a with
  | nil => rw [List.foldl_nil, List.append_nil]
  | cons c s ih =>
    obtain ⟨⟨hquote, hspace⟩, hs⟩ := List.forall_mem_cons.mp hs
    have hinside : ¬(c = ' ' ∧ grouped = false) := by
      rintro ⟨hc, hclosed⟩
      rw [hspace hc] at hclosed
      cases hclosed
    have hnext : next ⟨ended, some a, grouped⟩ c = ⟨ended, some (a ++ [c]), grouped⟩ := by
      rw [next, if_neg hquote, if_neg hinside]
      rfl
    rw [List.foldl_cons, hnext, ih hs, List.append_assoc, List.singleton_append]

theorem not_quote_mem_next {p : Progress} (h : ∀ a ∈ p.arguments, '"' ∉ a) (c : Char) :
    ∀ a ∈ (p.next c).arguments, '"' ∉ a := by
  obtain ⟨ended, begun, grouped⟩ := p
  have hended : ∀ a ∈ ended, '"' ∉ a := fun a ha => h a (List.mem_append_left _ ha)
  have hbegun : '"' ∉ begun.getD [] := by
    cases begun with
    | none => exact List.not_mem_nil
    | some a => exact h a (List.mem_append_right _ (List.mem_singleton_self a))
  have hextended : ∀ b : List Char, '"' ∉ b → ∀ a ∈ ended ++ [b], '"' ∉ a := by
    intro b hb a ha
    rcases List.mem_append.mp ha with ha | ha
    · exact hended a ha
    · exact List.mem_singleton.mp ha ▸ hb
  unfold next
  split
  · exact hextended _ hbegun
  · next hquote =>
    split
    · intro a ha
      exact h a (by simpa [arguments] using ha)
    · refine hextended _ fun hmem => ?_
      rcases List.mem_append.mp hmem with hmem | hmem
      · exact hbegun hmem
      · exact hquote (List.mem_singleton.mp hmem).symm

end Progress

theorem not_quote_mem_of_split? {line : List Char} {as : List (List Char)}
    (h : split? line = some as) :
    ∀ a ∈ as, '"' ∉ a := by
  have hrun : ∀ a ∈ (line.foldl Progress.next .start).arguments, '"' ∉ a :=
    List.foldlRecOn (motive := fun p => ∀ a ∈ Progress.arguments p, '"' ∉ a) line Progress.next
      (fun _ ha => absurd ha List.not_mem_nil) fun _ hp c _ => Progress.not_quote_mem_next hp c
  unfold split? at h
  simp only at h
  split at h
  · cases h
  · rwa [Option.some.inj h] at hrun

/-- There is something, and no double quote and no space. -/
def Plain (a : List Char) : Prop := a ≠ [] ∧ ∀ c ∈ a, c ≠ '"' ∧ c ≠ ' '

instance (a : List Char) : Decidable (Plain a) :=
  @instDecidableAnd _ _ inferInstance (List.decidableBAll (fun c => c ≠ '"' ∧ c ≠ ' ') a)

/-- How an argument may be written in a line: as it is, or between double quotes. -/
inductive ArgumentText (a : List Char) : List Char → Prop
  | plain (h : Plain a) : ArgumentText a a
  | grouped (h : '"' ∉ a) : ArgumentText a ('"' :: (a ++ ['"']))

/-- How a line of arguments may be written, with one space after each but the last. -/
inductive LineText : List (List Char) → List Char → Prop
  | last {a s : List Char} (h : ArgumentText a s) : LineText [a] s
  | cons {a s : List Char} {as : List (List Char)} {line : List Char} (h : ArgumentText a s)
      (hline : LineText as line) : LineText (a :: as) (s ++ ' ' :: line)

open Progress

theorem ArgumentText.foldl_next {a s : List Char} (h : ArgumentText a s)
    (ended : List (List Char)) :
    s.foldl next ⟨ended, none, false⟩ = ⟨ended, some a, false⟩ := by
  cases h with
  | plain h =>
    obtain ⟨hne, h⟩ := h
    obtain ⟨c, s, rfl⟩ := List.exists_cons_of_ne_nil hne
    obtain ⟨⟨hquote, hspace⟩, hs⟩ := List.forall_mem_cons.mp h
    have hnext : next ⟨ended, none, false⟩ c = ⟨ended, some [c], false⟩ := by
      rw [next, if_neg hquote, if_neg fun hc => hspace hc.1]
      rfl
    have hkept : ∀ d ∈ s, d ≠ '"' ∧ (d = ' ' → false = true) :=
      fun d hd => ⟨(hs d hd).1, fun hd' => absurd hd' (hs d hd).2⟩
    rw [List.foldl_cons, hnext, foldl_next_of_kept hkept, List.singleton_append]
  | grouped h =>
    have hkept : ∀ c ∈ a, c ≠ '"' ∧ (c = ' ' → true = true) :=
      fun c hc => ⟨fun hquote => h (hquote ▸ hc), fun _ => rfl⟩
    show (a ++ ['"']).foldl next ⟨ended, some [], true⟩ = _
    rw [List.foldl_append, foldl_next_of_kept hkept, List.nil_append]
    rfl

/-- A line comes apart into the arguments that it is written for. -/
theorem LineText.split?_eq {as : List (List Char)} {line : List Char} (h : LineText as line) :
    split? line = some as := by
  -- Whatever arguments have ended before the line stay in front of its own.
  have hread : ∀ ended, (line.foldl next ⟨ended, none, false⟩).grouped = false ∧
      (line.foldl next ⟨ended, none, false⟩).arguments = ended ++ as := by
    induction h with
    | last h =>
      intro ended
      rw [h.foldl_next]
      exact ⟨rfl, rfl⟩
    | @cons a s as line h _ ih =>
      intro ended
      have hspace : next ⟨ended, some a, false⟩ ' ' = ⟨ended ++ [a], none, false⟩ := rfl
      rw [List.foldl_append, h.foldl_next, List.foldl_cons, hspace, List.append_cons ended a as]
      exact ih (ended ++ [a])
  obtain ⟨hclosed, harguments⟩ := hread []
  unfold split?
  exact (if_neg (ne_true_of_eq_false hclosed)).trans (congrArg some harguments)

example : ofLine? "-f \"a b\" \"\"" = some ["-f", "a b", ""] := by decide +kernel

end AlarmBridge.Arguments
