import AlarmBridge.Json.Value
import Mathlib.Tactic.SplitIfs

/-! The texts of a value: the grammar of JSON, with any blanks between tokens, any spelling of the
characters of a string, and whole numbers in decimal.  Each relation tells of a text what its front
stands for and what is left of it; lists and objects are nested through `Listed` and `Membered`,
whatever the texts of their items and values are.  The text that `Value.render` writes is one of
those of the value. -/

set_option autoImplicit false

namespace AlarmBridge.Json

/-- Past some blanks, one text is the other. -/
inductive Blanks : List Char → List Char → Prop
  | none (s : List Char) : Blanks s s
  | blank {c : Char} {s t : List Char} (hc : c ∈ [' ', '\n', '\t', '\r']) (h : Blanks s t) :
      Blanks (c :: s) t

/-- A hexadecimal digit, in lower or upper case, has a value. -/
def HexDigit (c : Char) (n : Nat) : Prop :=
  n < 16 ∧ (c = Nat.digitChar n ∨ c = (Nat.digitChar n).toUpper)

/-- Four hexadecimal digits for a number of 16 bits. -/
inductive CodeText : List Char → Nat → List Char → Prop
  | digits {w x y z : Char} {a b c d n : Nat} (s : List Char) (ha : HexDigit w a)
      (hb : HexDigit x b) (hc : HexDigit y c) (hd : HexDigit z d)
      (hn : n = ((a * 16 + b) * 16 + c) * 16 + d) :
      CodeText (w :: x :: y :: z :: s) n s

/-- The letters of escapes, with what they stand for. -/
def letterEscapes : List (Char × Char) :=
  [('"', '"'), ('\\', '\\'), ('/', '/'), ('b', '\x08'), ('f', '\x0c'), ('n', '\n'), ('r', '\r'),
    ('t', '\t')]

/-- One character in a string: as it is, or escaped with a letter, its code, or a surrogate pair. -/
inductive CharText : List Char → Char → List Char → Prop
  | plain {c : Char} (s : List Char) (hquote : c ≠ '"') (hslash : c ≠ '\\')
      (hcontrol : 0x20 ≤ c.toNat) : CharText (c :: s) c s
  | letter {l c : Char} (s : List Char) (h : (l, c) ∈ letterEscapes) : CharText ('\\' :: l :: s) c s
  | code {c : Char} {s t : List Char} (h : CodeText s c.toNat t) : CharText ('\\' :: 'u' :: s) c t
  | pair {c : Char} {s t u : List Char} {leading trailing : Nat}
      (hleading : CodeText s leading ('\\' :: 'u' :: t)) (htrailing : CodeText t trailing u)
      (hrange : 0xD800 ≤ leading ∧ leading < 0xDC00)
      (hrange' : 0xDC00 ≤ trailing ∧ trailing < 0xE000)
      (hc : c.toNat = 0x10000 + (leading - 0xD800) * 0x400 + (trailing - 0xDC00)) :
      CharText ('\\' :: 'u' :: s) c u

/-- The rest of a string after its opening quote. -/
inductive StringText : List Char → List Char → List Char → Prop
  | close (s : List Char) : StringText ('"' :: s) [] s
  | char {s t u : List Char} {c : Char} {cs : List Char} (hc : CharText s c t)
      (h : StringText t cs u) : StringText s (c :: cs) u

/-- Decimal digits, at least one. -/
def Digits (ds : List Char) : Prop := ds ≠ [] ∧ ∀ c ∈ ds, c.isDigit = true

/-- The digits of a number before its point: a zero in front stands alone. -/
inductive WholePart : List Char → Prop
  | zero : WholePart ['0']
  | digits {c : Char} {ds : List Char} (hc : c ≠ '0') (h : Digits (c :: ds)) : WholePart (c :: ds)

/-- Before this text digits end. -/
def EndsDigits (s : List Char) : Prop := ∀ c ∈ s.head?, c.isDigit = false

/-- Before this text a whole number can end. -/
def EndsNumber (s : List Char) : Prop :=
  ∀ c ∈ s.head?, c.isDigit = false ∧ c ≠ '.' ∧ c ≠ 'e' ∧ c ≠ 'E'

/-- What stands before an item: blanks, and unless it is the first a comma. -/
inductive Separator : Bool → List Char → List Char → Prop
  | first {s t : List Char} (h : Blanks s t) : Separator true s t
  | comma {s t u : List Char} (h : Blanks s (',' :: t)) (h' : Blanks t u) : Separator false s u

section

variable {κ ν : Type} (Name : List Char → κ → List Char → Prop)
  (Text : List Char → ν → List Char → Prop)

/-- The items of a list, all of them or those that come after another, and its end. -/
inductive Listed : Bool → List Char → List ν → List Char → Prop
  | close {first : Bool} {s t : List Char} (h : Blanks s (']' :: t)) : Listed first s [] t
  | item {first : Bool} {s t u w : List Char} {v : ν} {vs : List ν} (hbefore : Separator first s t)
      (hv : Text t v u) (hvs : Listed false u vs w) : Listed first s (v :: vs) w

/-- The members of an object, all of them or those that come after another, and its end. -/
inductive Membered : Bool → List Char → List (κ × ν) → List Char → Prop
  | close {first : Bool} {s t : List Char} (h : Blanks s ('\x7d' :: t)) : Membered first s [] t
  | member {first : Bool} {s t u w x y z : List Char} {name : κ} {v : ν} {ms : List (κ × ν)}
      (hbefore : Separator first s ('"' :: t)) (hname : Name t name u)
      (hcolon : Blanks u (':' :: w)) (hspace : Blanks w x) (hv : Text x v y)
      (hms : Membered false y ms z) :
      Membered first s ((name, v) :: ms) z

end

/-- A name in a string. -/
def NameText (s : List Char) (name : String) (t : List Char) : Prop := StringText s name.toList t

inductive ValueText : List Char → Value → List Char → Prop
  | null (s : List Char) : ValueText ('n' :: 'u' :: 'l' :: 'l' :: s) .null s
  | isTrue (s : List Char) : ValueText ('t' :: 'r' :: 'u' :: 'e' :: s) (.boolean true) s
  | isFalse (s : List Char) : ValueText ('f' :: 'a' :: 'l' :: 's' :: 'e' :: s) (.boolean false) s
  | number (n : Int) {s : List Char} (h : EndsNumber s) :
      ValueText ((toString n).toList ++ s) (.number n) s
  | text {s t : List Char} {v : String} (h : NameText s v t) : ValueText ('"' :: s) (.text v) t
  | list {s t : List Char} {vs : List Value} (h : Listed ValueText true s vs t) :
      ValueText ('[' :: s) (.list vs) t
  | object {s t : List Char} {ms : List (String × Value)}
      (h : Membered NameText ValueText true s ms t) :
      ValueText ('\x7b' :: s) (.object ms) t

/-- A whole text for a value. -/
def TextOf (s : List Char) (v : Value) : Prop :=
  ∃ t u, Blanks s t ∧ ValueText t v u ∧ Blanks u []

theorem Blanks.length_le {s t : List Char} (h : Blanks s t) : t.length ≤ s.length := by
  induction h with
  | none => exact Nat.le_refl _
  | blank _ _ ih => exact Nat.le_succ_of_le ih

theorem CharText.length_lt {s t : List Char} {c : Char} (h : CharText s c t) :
    t.length < s.length := by
  have hcode : ∀ {s t : List Char} {n : Nat}, CodeText s n t → s.length = t.length + 4 := by
    intro s t n h
    cases h
    rfl
  cases h with
  | plain => simp
  | letter => simp only [List.length_cons]; omega
  | code h => simp only [List.length_cons, hcode h]; omega
  | pair h h' =>
    have htail := hcode h
    simp only [List.length_cons, hcode h'] at htail ⊢
    omega

theorem StringText.length_lt {s cs t : List Char} (h : StringText s cs t) :
    t.length < s.length := by
  induction h with
  | close => exact Nat.lt_succ_self _
  | char hc _ ih => exact Nat.lt_trans ih hc.length_lt

theorem Separator.length_le {first : Bool} {s t : List Char} (h : Separator first s t) :
    t.length ≤ s.length := by
  cases h with
  | first h => exact h.length_le
  | comma h h' =>
    have hcomma := h.length_le
    have hnext := h'.length_le
    simp only [List.length_cons] at hcomma
    omega

theorem isDigit_of_mem_toDigits {c : Char} {n : Nat} (h : c ∈ Nat.toDigits 10 n) :
    c.isDigit = true := Nat.isDigit_of_mem_toDigits (by decide) (by decide) h

theorem toDigits_eq_cons (n : Nat) : ∃ c ds, Nat.toDigits 10 n = c :: ds ∧ c.isDigit = true := by
  cases hds : Nat.toDigits 10 n with
  | nil => exact absurd hds Nat.toDigits_ne_nil
  | cons c ds => exact ⟨c, ds, rfl, isDigit_of_mem_toDigits (hds ▸ List.mem_cons_self)⟩

/-- A whole number starts with a digit or a minus sign. -/
theorem toString_eq_cons (n : Int) :
    ∃ c ds, (toString n).toList = c :: ds ∧ (c = '-' ∨ c.isDigit = true) := by
  cases n with
  | ofNat n =>
    have htext : (toString (Int.ofNat n)).toList = Nat.toDigits 10 n := Nat.toList_repr
    obtain ⟨c, ds, hds, hc⟩ := toDigits_eq_cons n
    exact ⟨c, ds, htext.trans hds, .inr hc⟩
  | negSucc n =>
    have htext : toString (Int.negSucc n) = "-" ++ toString (n + 1) := rfl
    rw [htext, String.toList_append]
    exact ⟨'-', _, rfl, .inl rfl⟩

section

variable {κ ν : Type} {Name : List Char → κ → List Char → Prop}
  {Text : List Char → ν → List Char → Prop} {s t : List Char}

theorem Listed.length_lt {first : Bool} {vs : List ν} (h : Listed Text first s vs t)
    (hText : ∀ v ∈ vs, ∀ s t, Text s v t → t.length < s.length) :
    vs.length + t.length < s.length := by
  induction h with
  | close h =>
    have hclose := h.length_le
    simp only [List.length_cons, List.length_nil] at hclose ⊢
    omega
  | item hbefore hv _ ih =>
    have hsep := hbefore.length_le
    have hvalue := hText _ List.mem_cons_self _ _ hv
    have hitems := ih fun v hv => hText v (List.mem_cons_of_mem _ hv)
    simp only [List.length_cons]
    omega

theorem Membered.length_lt {first : Bool} {ms : List (κ × ν)} (h : Membered Name Text first s ms t)
    (hName : ∀ {s t name}, Name s name t → t.length < s.length)
    (hText : ∀ m ∈ ms, ∀ s t, Text s m.2 t → t.length < s.length) :
    ms.length + t.length < s.length := by
  induction h with
  | close h =>
    have hclose := h.length_le
    simp only [List.length_cons, List.length_nil] at hclose ⊢
    omega
  | member hbefore hname hcolon hspace hv _ ih =>
    have hsep := hbefore.length_le
    have hquoted := hName hname
    have hbefore' := hcolon.length_le
    have hafter := hspace.length_le
    have hvalue := hText _ List.mem_cons_self _ _ hv
    have hmembers := ih fun m hm => hText m (List.mem_cons_of_mem _ hm)
    simp only [List.length_cons] at hsep hbefore' ⊢
    omega

end

/-- What holds of the leaves, and of lists and objects when it holds of what is in them, holds of
all values. -/
theorem Value.induct {P : Value → Prop} (null : P .null) (boolean : ∀ b, P (.boolean b))
    (number : ∀ n, P (.number n)) (text : ∀ s, P (.text s))
    (list : ∀ vs, (∀ v ∈ vs, P v) → P (.list vs))
    (object : ∀ ms : List (String × Value), (∀ m ∈ ms, P m.2) → P (.object ms)) : ∀ v, P v
  | .null => null
  | .boolean b => boolean b
  | .number n => number n
  | .text s => text s
  | .list vs => list vs fun v _ => induct null boolean number text list object v
  | .object ms => object ms fun m hm =>
    have hsmaller : sizeOf m.2 < 1 + sizeOf ms := by
      have hmember : sizeOf m.2 < sizeOf m := by
        cases m
        simp only [Prod.mk.sizeOf_spec]
        omega
      have hmembers := List.sizeOf_lt_of_mem hm
      omega
    induct null boolean number text list object m.2

theorem ValueText.length_lt {v : Value} {s t : List Char} (h : ValueText s v t) :
    t.length < s.length := by
  induction v using Value.induct generalizing s t with
  | null | boolean => cases h <;> simp only [List.length_cons] <;> omega
  | number n =>
    obtain ⟨c, ds, hds, -⟩ := toString_eq_cons n
    cases h
    rw [hds]
    simp only [List.cons_append, List.length_cons, List.length_append]
    omega
  | text =>
    cases h with
    | text h => exact Nat.lt_succ_of_lt h.length_lt
  | list vs ih =>
    cases h with
    | list h =>
      have hitems := h.length_lt fun v hv _ _ => ih v hv
      simp only [List.length_cons]
      omega
  | object ms ih =>
    cases h with
    | object h =>
      have hmembers := h.length_lt StringText.length_lt fun m hm _ _ => ih m hm
      simp only [List.length_cons]
      omega

theorem charText_escapeChar (c : Char) (s : List Char) : CharText (escapeChar c ++ s) c s := by
  unfold escapeChar
  split_ifs with hquote hslash _ _ _ _ _ hcontrol
  any_goals exact .letter s (by subst_vars; decide)
  · have hzero : HexDigit '0' 0 := ⟨by omega, .inl rfl⟩
    exact .code (.digits s hzero hzero ⟨by omega, .inl rfl⟩ ⟨by omega, .inl rfl⟩ (by omega))
  · exact .plain s hquote hslash (by omega)

theorem stringText_escaped (cs s : List Char) :
    StringText (cs.flatMap escapeChar ++ '"' :: s) cs s := by
  induction cs with
  | nil => exact .close s
  | cons c cs ih =>
    rw [List.flatMap_cons, List.append_assoc]
    exact .char (charText_escapeChar c _) ih

/-- The comma before what follows the first of some items, if anything does. -/
def commaBefore {α : Type} (first : Bool) (xs : List α) : List Char :=
  if first || xs.isEmpty then [] else [',']

theorem WholePart.eq_cons {ds : List Char} (h : WholePart ds) :
    ∃ c cs, ds = c :: cs ∧ c.isDigit = true := by
  cases h with
  | zero => exact ⟨'0', [], rfl, rfl⟩
  | digits _ h => exact ⟨_, _, rfl, h.2 _ List.mem_cons_self⟩

theorem EndsNumber.endsDigits {s : List Char} (h : EndsNumber s) : EndsDigits s :=
  fun c hc => (h c hc).1

theorem endsNumber_cons {c : Char} (s : List Char)
    (h : c.isDigit = false ∧ c ≠ '.' ∧ c ≠ 'e' ∧ c ≠ 'E') : EndsNumber (c :: s) :=
  fun _ hc => Option.some.inj hc ▸ h

theorem endsNumber_commaBefore {α : Type} (xs : List α) {s : List Char}
    (hs : xs = [] → EndsNumber s) : EndsNumber (commaBefore false xs ++ s) := by
  cases xs with
  | nil => exact hs rfl
  | cons x xs => exact endsNumber_cons s (by decide)

theorem separator_commaBefore {α : Type} (first : Bool) (x : α) (xs : List α) (s : List Char) :
    Separator first (commaBefore first (x :: xs) ++ s) s := by
  cases first with
  | false => exact .comma (.none _) (.none s)
  | true => exact .first (.none s)

theorem listed_render {vs : List Value}
    (h : ∀ v ∈ vs, ∀ s, EndsNumber s → ValueText (v.render ++ s) v s) (first : Bool)
    (s : List Char) :
    Listed ValueText first (commaBefore first vs ++ (renderItems vs ++ ']' :: s)) vs s := by
  induction vs generalizing first with
  | nil =>
    have hnone : commaBefore first ([] : List Value) = [] := by cases first <;> rfl
    rw [hnone]
    exact .close (.none _)
  | cons v vs ih =>
    obtain ⟨hv, hvs⟩ := List.forall_mem_cons.mp h
    have hrest : renderItems (v :: vs) ++ ']' :: s =
        v.render ++ (commaBefore false vs ++ (renderItems vs ++ ']' :: s)) := by
      rw [renderItems, List.append_assoc, List.append_assoc]
      rfl
    have hends : EndsNumber (commaBefore false vs ++ (renderItems vs ++ ']' :: s)) :=
      endsNumber_commaBefore vs fun hvs => hvs ▸ endsNumber_cons s (by decide)
    rw [hrest]
    exact .item (separator_commaBefore first v vs _) (hv _ hends) (ih hvs false)

theorem membered_render {ms : List (String × Value)}
    (h : ∀ m ∈ ms, ∀ s, EndsNumber s → ValueText (m.2.render ++ s) m.2 s) (first : Bool)
    (s : List Char) :
    Membered NameText ValueText first (commaBefore first ms ++ (renderMembers ms ++ '\x7d' :: s))
      ms s := by
  induction ms generalizing first with
  | nil =>
    have hnone : commaBefore first ([] : List (String × Value)) = [] := by cases first <;> rfl
    rw [hnone]
    exact .close (.none _)
  | cons m ms ih =>
    obtain ⟨hm, hms⟩ := List.forall_mem_cons.mp h
    obtain ⟨name, v⟩ := m
    have hrest : renderMembers ((name, v) :: ms) ++ '\x7d' :: s =
        '"' :: (name.toList.flatMap escapeChar ++ '"' :: ':' ::
          (v.render ++ (commaBefore false ms ++ (renderMembers ms ++ '\x7d' :: s)))) := by
      simp only [renderMembers, renderMember, quote, List.cons_append, List.append_assoc]
      rfl
    have hends : EndsNumber (commaBefore false ms ++ (renderMembers ms ++ '\x7d' :: s)) :=
      endsNumber_commaBefore ms fun hms => hms ▸ endsNumber_cons s (by decide)
    rw [hrest]
    exact .member (separator_commaBefore first (name, v) ms _) (stringText_escaped name.toList _)
      (.none _) (.none _) (hm _ hends) (ih hms false)

/-- The text that is written of a value stands for it. -/
theorem valueText_render (v : Value) (s : List Char) (hs : EndsNumber s) :
    ValueText (v.render ++ s) v s := by
  induction v using Value.induct generalizing s with
  | null => exact .null s
  | boolean b => cases b <;> constructor
  | number n => exact .number n hs
  | text t =>
    rw [Value.render, quote, List.cons_append, List.append_assoc]
    exact .text (stringText_escaped t.toList s)
  | list vs ih =>
    rw [Value.render, List.cons_append, List.append_assoc]
    exact .list (listed_render ih true s)
  | object ms ih =>
    rw [Value.render, List.cons_append, List.append_assoc]
    exact .object (membered_render ih true s)

/-- The text that is written of a value is a whole text for it. -/
theorem textOf_render (v : Value) : TextOf v.render v := by
  have hends : EndsNumber [] := fun c hc => by cases hc
  refine ⟨v.render, [], .none _, ?_, .none _⟩
  rw [← List.append_nil v.render]
  exact valueText_render v [] hends

end AlarmBridge.Json
