import AlarmBridge.Daemon.Start
import AlarmBridge.Proofs.Dotenv
import AlarmBridge.Proofs.Precedence

/-! Where loading a `.env` file ends early.  A line that sets a variable which is not seen to be set
ends it, and with it the program, if the line begins with an equals sign or holds a NUL: the
operating system takes no variable without a name and no NUL.  The lines before it have been loaded,
those after it are not. -/

set_option autoImplicit false

namespace AlarmBridge.Dotenv

open Text (trim trimStart)

/-- The character that ends a text for the operating system. -/
def nul : Char := Char.ofNat 0

theorem mem_trim_iff {c : Char} (hc : Text.isBlank c = false) {s : List Char} :
    c ∈ trim s ↔ c ∈ s := by
  constructor
  · intro h
    exact List.dropWhile_subset _ ((List.rdropWhile_prefix _ _).subset h)
  · intro h
    obtain ⟨a, b, rfl⟩ := List.append_of_mem h
    rw [Text.trim_append_cons hc]
    simp

theorem mem_unquote_iff {c : Char} (hc : ¬IsQuote c) {v : List Char} : c ∈ unquote v ↔ c ∈ v := by
  by_cases h : Enclosed v
  · obtain ⟨q, w, hq, rfl⟩ := h
    have hne : c ≠ q := fun h => hc (h ▸ hq)
    simp [unquote_quoted hq, hne]
  · rw [unquote_of_not_enclosed h]

theorem trim_eq_nil_iff {s : List Char} : trim s = [] ↔ trimStart s = [] := by
  constructor
  · intro h
    rcases Text.allBlank_or s with hblank | ⟨a, c, b, rfl, hc⟩
    · exact Text.trimStart_of_allBlank hblank
    · simp [Text.trim_append_cons hc] at h
  · intro h
    rw [← Text.trim_trimStart, h, Text.trim_nil]

theorem isSettable_ofList_iff {key value : List Char} :
    isSettable (String.ofList key) (String.ofList value) = true ↔
      key ≠ [] ∧ nul ∉ key ++ value := by
  simp [isSettable, nul, List.forall_mem_ne']

/-- What the operating system does not take of the variable that a line sets shows in the line. -/
theorem isSettable_eq_false_iff {line : List Char} {key value : String}
    (h : entry? line = some (key, value)) :
    isSettable key value = false ↔ (trimStart line).head? = some '=' ∨ nul ∈ line := by
  have hequals : '=' ∈ line := by
    by_contra hnone
    rw [entry?_of_not_mem hnone] at h
    cases h
  obtain ⟨a, b, rfl, ha⟩ := List.eq_append_cons_of_mem hequals
  rw [entry?_append ha] at h
  split at h
  · cases h
  · obtain ⟨rfl, rfl⟩ := Prod.mk.inj (Option.some.inj h)
    have hname : trim a = [] ↔ (trimStart (a ++ '=' :: b)).head? = some '=' := by
      rw [trim_eq_nil_iff, Text.trimStart_append_cons rfl]
      cases hstart : trimStart a with
      | nil => simp
      | cons c s =>
        have hmem : c ∈ trimStart a := by rw [hstart]; exact List.mem_cons_self
        have hc : c ≠ '=' := fun hc => ha (hc ▸ List.dropWhile_subset _ hmem)
        simp [hc]
    have hquote : ¬IsQuote nul := by rintro (h | h) <;> exact absurd h (by decide)
    have hkey : nul ∈ trim a ↔ nul ∈ a := mem_trim_iff rfl
    have hvalue : nul ∈ unquote (trim b) ↔ nul ∈ b :=
      (mem_unquote_iff hquote).trans (mem_trim_iff rfl)
    have hother : nul ≠ '=' := by decide
    rw [← hname, ← Bool.not_eq_true, isSettable_ofList_iff, List.mem_append, List.mem_append,
      List.mem_cons, ← hkey, ← hvalue]
    tauto

theorem load_append (env : Environment) (before es : List (String × String)) :
    load env (before ++ es) = match load env before with
      | .complete next => load next es
      | .crashed left => .crashed left := by
  induction before generalizing env with
  | nil => rfl
  | cons e before ih =>
    rw [List.cons_append, load, load]
    split
    · exact ih env
    · split
      · exact ih _
      · rfl

/-- Loading crashes at an entry with what those before it came to. -/
theorem load_crashed_iff {env left : Environment} {es : List (String × String)} :
    load env es = .crashed left ↔ ∃ before e after, es = before ++ e :: after ∧
      load env before = .complete left ∧ left.var? e.1 = none ∧ isSettable e.1 e.2 = false := by
  constructor
  · intro h
    induction es generalizing env with
    | nil => cases h
    | cons first es ih =>
      rw [load] at h
      split at h
      · next hset =>
        obtain ⟨before, e, after, rfl, hbefore, hrest⟩ := ih h
        exact ⟨first :: before, e, after, rfl, by rw [load, if_pos hset, hbefore], hrest⟩
      · next hunset =>
        split at h
        · next htaken =>
          obtain ⟨before, e, after, rfl, hbefore, hrest⟩ := ih h
          exact ⟨first :: before, e, after, rfl,
            by rw [load, if_neg hunset, if_pos htaken, hbefore], hrest⟩
        · next hrefused =>
          obtain rfl : env = left := Loaded.crashed.inj h
          exact ⟨[], first, es, rfl, rfl, Option.not_isSome_iff_eq_none.mp hunset,
            Bool.eq_false_iff.mpr hrefused⟩
  · rintro ⟨before, e, after, rfl, hbefore, hunset, hrefused⟩
    rw [load_append, hbefore]
    show load left (e :: after) = .crashed left
    rw [load, if_neg (Option.not_isSome_iff_eq_none.mpr hunset), if_neg (by simp [hrefused])]

/-- Loading crashes at a line that sets a variable which is not seen to be set before or by the
lines before it, and which begins with an equals sign or holds a NUL.  These lines have been loaded
then. -/
structure CrashesAt (env : Environment) (before : List (List Char)) (line : List Char)
    (left : Environment) : Prop where
  loaded : load env (before.filterMap entry?) = .complete left
  value : ∀ name, left.get? name = env.behind? (fun key => before.findSome? (valueIn? key)) name
  sets : ∃ key value, entry? line = some (key, value) ∧ left.var? key = none
  refused : (trimStart line).head? = some '=' ∨ nul ∈ line

theorem load_entries_crashed_iff {env left : Environment} {text : List Char} :
    load env (entries text) = .crashed left ↔ ∃ before line after,
      Text.lines text = before ++ line :: after ∧ CrashesAt env before line left := by
  rw [load_crashed_iff]
  constructor
  · rintro ⟨early, ⟨key, value⟩, late, hentries, hearly, hunset, hrefused⟩
    -- the entries before are those of the lines before, and of lines that set nothing
    obtain ⟨lines, rest, hlines, rfl, hrest⟩ := List.filterMap_eq_append_iff.mp hentries
    obtain ⟨idle, line, after, rfl, hidle, hline, -⟩ := List.filterMap_eq_cons_iff.mp hrest
    have hbefore : (lines ++ idle).filterMap entry? = lines.filterMap entry? := by
      rw [List.filterMap_append, List.filterMap_eq_nil_iff.mpr hidle, List.append_nil]
    rw [← hbefore] at hearly
    refine ⟨lines ++ idle, line, after, by rw [hlines, List.append_assoc], hearly, fun name => ?_,
      ⟨key, value, hline, hunset⟩, (isSettable_eq_false_iff hline).mp hrefused⟩
    rw [get?_of_load hearly]
    simp only [findSome?_filterMap_entries]
  · rintro ⟨before, line, after, hlines, hloaded, -, ⟨key, value, hline, hunset⟩, hrefused⟩
    refine ⟨before.filterMap entry?, (key, value), after.filterMap entry?, ?_, hloaded, hunset,
      (isSettable_eq_false_iff hline).mpr hrefused⟩
    rw [entries, hlines, List.filterMap_append, List.filterMap_cons, hline]

/-- Starting ends with the code of a crash exactly if loading the file crashes. -/
theorem plan_crashed_iff {env : Environment} {content : Option (List Char)}
    {accountHome : Option OsText} {args : List String} :
    Daemon.plan env accountHome content args = .error 101 ↔
      ∃ left, loadFile env content = .crashed left := by
  unfold Daemon.plan
  cases loadFile env content with
  | crashed left => simp
  | complete loaded =>
    cases hparse : Daemon.parse loaded args <;> simp [hparse]

/-- Of every environment and every file, whatever its bytes: loading the file crashes exactly at the
first line that sets a variable which is not seen to be set yet and that begins with an equals sign
or holds a NUL.  What the lines before it set is set then, and nothing else is; and exactly then
starting ends with the code of a crash. -/
theorem loading_crashes_iff (env : Environment) (file : Option Bytes) :
    let content := file.bind Text.decode
    (∀ left, loadFile env content = .crashed left ↔
      ∃ text ∈ content, ∃ before line after, Text.lines text = before ++ line :: after ∧
        CrashesAt env before line left) ∧
    ∀ accountHome args, Daemon.plan env accountHome content args = .error 101 ↔
      ∃ left, loadFile env content = .crashed left := by
  intro content
  refine ⟨fun left => ?_, fun _ _ => plan_crashed_iff⟩
  cases content with
  | none => simp [loadFile]
  | some text => simpa [loadFile] using load_entries_crashed_iff

/-- A line without a name crashes the program, and the line after it is not loaded. -/
theorem nameless_line_crashes :
    let content := (some (Text.encode "A=1\n=x\nB=2".toList)).bind Text.decode
    let left : Environment := Environment.set Roster.empty "A" "1"
    loadFile Roster.empty content = .crashed left ∧
      Daemon.plan Roster.empty none content [] = .error 101 := by
  intro content left
  have hload : loadFile Roster.empty content = .crashed left := by decide +kernel
  exact ⟨hload, plan_crashed_iff.mpr ⟨_, hload⟩⟩

end AlarmBridge.Dotenv
