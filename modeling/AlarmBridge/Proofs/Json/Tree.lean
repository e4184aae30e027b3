import AlarmBridge.Proofs.Json.Sequence

/-! JSON as it is spelled.  A tree tells how each number, string and name of a text is written and
in which order items and members stand, but not the blanks between tokens.  Nothing is asked of it
beyond the grammar: numbers may have any size and precision, codes of escapes need not make up
characters, names may repeat, and nesting may have any depth. -/

set_option autoImplicit false

namespace AlarmBridge.Json

/-- A value of JSON as it is spelled: of numbers all characters, of strings those between the
quotes. -/
inductive Tree
  | null
  | boolean (value : Bool)
  | number (spelling : List Char)
  | text (spelling : List Char)
  | list (items : List Tree)
  | object (members : List (List Char × Tree))

/-- The point of a number and the digits after it. -/
inductive FractionPart : List Char → Prop
  | none : FractionPart []
  | digits {ds : List Char} (h : Digits ds) : FractionPart ('.' :: ds)

/-- The letter of an exponent, its sign and its digits. -/
inductive ExponentPart : List Char → Prop
  | none : ExponentPart []
  | digits {c : Char} {sign ds : List Char} (hc : c ∈ ['e', 'E'])
      (hsign : sign ∈ [[], ['+'], ['-']]) (h : Digits ds) : ExponentPart (c :: (sign ++ ds))

inductive NumberText : List Char → Prop
  | parts {sign whole fraction exponent : List Char} (hsign : sign ∈ [[], ['-']])
      (hwhole : WholePart whole) (hfraction : FractionPart fraction)
      (hexponent : ExponentPart exponent) :
      NumberText (sign ++ (whole ++ (fraction ++ exponent)))

/-- What may stand between the quotes of a string.  A code in an escape may be any, so that there
need be no text that the string stands for. -/
inductive Spelling : List Char → Prop
  | nil : Spelling []
  | plain {c : Char} {d : List Char} (hquote : c ≠ '"') (hslash : c ≠ '\\')
      (hcontrol : 0x20 ≤ c.toNat) (h : Spelling d) : Spelling (c :: d)
  | letter {l c : Char} {d : List Char} (hl : (l, c) ∈ letterEscapes) (h : Spelling d) :
      Spelling ('\\' :: l :: d)
  | code {s d : List Char} {n : Nat} (hn : CodeText s n d) (h : Spelling d) :
      Spelling ('\\' :: 'u' :: s)

/-- Between quotes, `d` spells this text. -/
def Spells (d text : List Char) : Prop := ∀ s, StringText (d ++ '"' :: s) text s

/-- The rest of a string after its opening quote, and what is left after its end. -/
def Quoted (s d t : List Char) : Prop := s = d ++ '"' :: t

inductive TreeText : List Char → Tree → List Char → Prop
  | null (s : List Char) : TreeText ('n' :: 'u' :: 'l' :: 'l' :: s) .null s
  | isTrue (s : List Char) : TreeText ('t' :: 'r' :: 'u' :: 'e' :: s) (.boolean true) s
  | isFalse (s : List Char) : TreeText ('f' :: 'a' :: 'l' :: 's' :: 'e' :: s) (.boolean false) s
  | number {d s : List Char} (hd : NumberText d) (h : EndsNumber s) :
      TreeText (d ++ s) (.number d) s
  | text {d : List Char} (s : List Char) (hd : Spelling d) :
      TreeText ('"' :: (d ++ '"' :: s)) (.text d) s
  | list {s t : List Char} {vs : List Tree} (h : Listed TreeText true s vs t) :
      TreeText ('[' :: s) (.list vs) t
  | object {s t : List Char} {ms : List (List Char × Tree)} (hnames : ∀ m ∈ ms, Spelling m.1)
      (h : Membered Quoted TreeText true s ms t) : TreeText ('\x7b' :: s) (.object ms) t

namespace Tree

/-- A whole text of a tree: with any blanks around it and between its tokens. -/
def TextOf (v : Tree) (s : List Char) : Prop := ∃ t u, Blanks s t ∧ TreeText t v u ∧ Blanks u []

/-- What holds of the leaves, and of lists and objects when it holds of what is in them, holds of
all trees. -/
theorem induct {P : Tree → Prop} (null : P .null) (boolean : ∀ b, P (.boolean b))
    (number : ∀ d, P (.number d)) (text : ∀ d, P (.text d))
    (list : ∀ vs, (∀ v ∈ vs, P v) → P (.list vs))
    (object : ∀ ms : List (List Char × Tree), (∀ m ∈ ms, P m.2) → P (.object ms)) : ∀ v, P v
  | .null => null
  | .boolean b => boolean b
  | .number d => number d
  | .text d => text d
  | .list vs => list vs fun v _ => induct null boolean number text list object v
  | .object ms => object ms fun m hm =>
    have hsmaller : sizeOf m.2 < 1 + sizeOf ms := by
      have hmember : sizeOf m.2 < sizeOf m := by
        cases m
        simp only [Prod.mk.sizeOf_spec]
        omega
      have hmembers := List.sizeOf_lt_of_mem hm
      omega
    induct null boolean number text list object m.2

/-- The characters that texts of a tree start with. -/
def Starts : Tree → Char → Prop
  | .null, c => c = 'n'
  | .boolean _, c => c = 't' ∨ c = 'f'
  | .number _, c => c = '-' ∨ c.isDigit = true
  | .text _, c => c = '"'
  | .list _, c => c = '['
  | .object _, c => c = '\x7b'

end Tree

theorem CodeText.append {s t : List Char} {n : Nat} (h : CodeText s n t) (u : List Char) :
    CodeText (s ++ u) n (t ++ u) := by
  cases h with
  | digits t ha hb hc hd hn => exact .digits (t ++ u) ha hb hc hd hn

theorem CodeText.length_eq {s t : List Char} {n : Nat} (h : CodeText s n t) :
    s.length = t.length + 4 := by
  cases h
  rfl

theorem ExponentPart.endsDigits {exponent t : List Char} (h : ExponentPart exponent)
    (ht : EndsNumber t) : EndsDigits (exponent ++ t) := by
  cases h with
  | none => exact ht.endsDigits
  | digits hc =>
    rintro _ ⟨⟩
    rcases List.mem_pair.mp hc with rfl | rfl <;> rfl

theorem FractionPart.endsDigits {fraction t : List Char} (h : FractionPart fraction)
    (ht : EndsDigits t) : EndsDigits (fraction ++ t) := by
  cases h with
  | none => exact ht
  | digits =>
    rintro _ ⟨⟩
    rfl

theorem NumberText.starts {d : List Char} (h : NumberText d) :
    ∃ c ds, d = c :: ds ∧ (c = '-' ∨ c.isDigit = true) := by
  cases h with
  | parts hsign hwhole =>
    obtain ⟨c, ds, rfl, hc⟩ := hwhole.eq_cons
    rcases List.mem_pair.mp hsign with rfl | rfl
    · exact ⟨c, _, rfl, .inr hc⟩
    · exact ⟨'-', _, rfl, .inl rfl⟩

namespace TreeText

variable {s t : List Char} {v : Tree}

theorem starts (h : TreeText s v t) : ∃ c u, s = c :: u ∧ v.Starts c := by
  cases h with
  | number hd =>
    obtain ⟨c, ds, rfl, hc⟩ := hd.starts
    exact ⟨c, ds ++ t, rfl, hc⟩
  | isTrue => exact ⟨_, _, rfl, .inl rfl⟩
  | isFalse => exact ⟨_, _, rfl, .inr rfl⟩
  | _ => exact ⟨_, _, rfl, rfl⟩

theorem length_lt (h : TreeText s v t) : t.length < s.length := by
  induction v using Tree.induct generalizing s t with
  | null | boolean | text => cases h <;> simp <;> omega
  | number =>
    cases h with
    | number hd =>
      obtain ⟨c, ds, rfl, -⟩ := hd.starts
      simp only [List.cons_append, List.length_cons, List.length_append]
      omega
  | list vs ih =>
    cases h with
    | list h =>
      have hitems := h.length_lt fun v hv _ _ => ih v hv
      simp only [List.length_cons]
      omega
  | object ms ih =>
    cases h with
    | object _ h =>
      have hmembers := h.length_lt (by rintro _ t d rfl; simp; omega) fun m hm _ _ => ih m hm
      simp only [List.length_cons]
      omega

end TreeText

theorem Tree.Starts.head {v : Tree} {c : Char} (h : v.Starts c) : isSpace c = false ∧ c ≠ ']' := by
  cases v with
  | number =>
    refine ⟨isSpace_of_starts h, ?_⟩
    rcases h with rfl | hc
    · decide
    · exact ne_of_isDigit hc rfl
  | boolean => rcases h with rfl | rfl <;> decide
  | _ => cases h; decide

theorem Tree.Starts.ne {v : Tree} {c d : Char} (h : v.Starts c) (hd : ¬v.Starts d) : c ≠ d := by
  rintro rfl
  exact hd h

theorem headed_treeText : Headed TreeText := fun h =>
  let ⟨c, u, hs, hc⟩ := h.starts
  ⟨c, u, hs, hc.head⟩

/-- The numbers, strings and names of a tree are such. -/
inductive Tree.WellSpelled : Tree → Prop
  | null : WellSpelled .null
  | boolean (b : Bool) : WellSpelled (.boolean b)
  | number {d : List Char} (h : NumberText d) : WellSpelled (.number d)
  | text {d : List Char} (h : Spelling d) : WellSpelled (.text d)
  | list {vs : List Tree} (h : ∀ v ∈ vs, WellSpelled v) : WellSpelled (.list vs)
  | object {ms : List (List Char × Tree)} (hnames : ∀ m ∈ ms, Spelling m.1)
      (h : ∀ m ∈ ms, WellSpelled m.2) : WellSpelled (.object ms)

mutual

/-- The text of a tree without blanks. -/
def Tree.compact : Tree → List Char
  | .null => ['n', 'u', 'l', 'l']
  | .boolean true => ['t', 'r', 'u', 'e']
  | .boolean false => ['f', 'a', 'l', 's', 'e']
  | .number d => d
  | .text d => '"' :: (d ++ ['"'])
  | .list vs => '[' :: (compactItems true vs ++ [']'])
  | .object ms => '\x7b' :: (compactMembers true ms ++ ['\x7d'])

def compactItems (first : Bool) : List Tree → List Char
  | [] => []
  | v :: vs => (if first then [] else [',']) ++ v.compact ++ compactItems false vs

def compactMembers (first : Bool) : List (List Char × Tree) → List Char
  | [] => []
  | (d, v) :: ms =>
    (if first then [] else [',']) ++ '"' :: (d ++ ['"', ':']) ++ v.compact ++
      compactMembers false ms

end

theorem separator_compact (first : Bool) (s : List Char) :
    Separator first ((if first then [] else [',']) ++ s) s := by
  cases first with
  | false => exact .comma (.none _) (.none s)
  | true => exact .first (.none s)

theorem endsNumber_compactItems (vs : List Tree) (s : List Char) :
    EndsNumber (compactItems false vs ++ ']' :: s) := by
  cases vs <;> exact endsNumber_cons _ (by decide)

theorem endsNumber_compactMembers (ms : List (List Char × Tree)) (s : List Char) :
    EndsNumber (compactMembers false ms ++ '\x7d' :: s) := by
  cases ms <;> exact endsNumber_cons _ (by decide)

theorem listed_compact {vs : List Tree}
    (h : ∀ v ∈ vs, ∀ s, EndsNumber s → TreeText (v.compact ++ s) v s) (first : Bool)
    (s : List Char) :
    Listed TreeText first (compactItems first vs ++ ']' :: s) vs s := by
  induction vs generalizing first with
  | nil => exact .close (.none _)
  | cons v vs ih =>
    obtain ⟨hv, hvs⟩ := List.forall_mem_cons.mp h
    rw [compactItems, List.append_assoc, List.append_assoc]
    exact .item (separator_compact first _) (hv _ (endsNumber_compactItems vs s)) (ih hvs false)

theorem membered_compact {ms : List (List Char × Tree)}
    (h : ∀ m ∈ ms, ∀ s, EndsNumber s → TreeText (m.2.compact ++ s) m.2 s) (first : Bool)
    (s : List Char) :
    Membered Quoted TreeText first (compactMembers first ms ++ '\x7d' :: s) ms s := by
  induction ms generalizing first with
  | nil => exact .close (.none _)
  | cons m ms ih =>
    obtain ⟨hm, hms⟩ := List.forall_mem_cons.mp h
    have htext : compactMembers first (m :: ms) ++ '\x7d' :: s =
        (if first then [] else [',']) ++ '"' :: (m.1 ++ '"' :: ':' :: (m.2.compact ++
          (compactMembers false ms ++ '\x7d' :: s))) := by
      simp only [compactMembers, List.append_assoc, List.cons_append, List.nil_append]
    rw [htext]
    exact .member (separator_compact first _) rfl (.none _) (.none _)
      (hm _ (endsNumber_compactMembers ms s)) (ih hms false)

theorem treeText_compact {v : Tree} (h : v.WellSpelled) (s : List Char) (hs : EndsNumber s) :
    TreeText (v.compact ++ s) v s := by
  induction v using Tree.induct generalizing s with
  | null => exact .null s
  | boolean b => cases b <;> constructor
  | number d =>
    cases h with
    | number hd => exact .number hd hs
  | text d =>
    cases h with
    | text hd =>
      rw [Tree.compact, List.cons_append, List.append_assoc]
      exact .text s hd
  | list vs ih =>
    cases h with
    | list hvs =>
      rw [Tree.compact, List.cons_append, List.append_assoc]
      exact .list (listed_compact (fun v hv => ih v hv (hvs v hv)) true s)
  | object ms ih =>
    cases h with
    | object hnames hms =>
      rw [Tree.compact, List.cons_append, List.append_assoc]
      exact .object hnames (membered_compact (fun m hm => ih m hm (hms m hm)) true s)

theorem Tree.wellSpelled_list {vs : List Tree} :
    (Tree.list vs).WellSpelled ↔ ∀ v ∈ vs, v.WellSpelled :=
  ⟨fun h => by cases h; assumption, .list⟩

theorem Tree.wellSpelled_object {ms : List (List Char × Tree)} :
    (Tree.object ms).WellSpelled ↔ (∀ m ∈ ms, Spelling m.1) ∧ ∀ m ∈ ms, m.2.WellSpelled :=
  ⟨fun h => by cases h; constructor <;> assumption, fun h => .object h.1 h.2⟩

/-- A tree that is well spelled has a text, and blanks may stand before it. -/
theorem Tree.WellSpelled.textOf_compact {v : Tree} (h : v.WellSpelled) {s : List Char}
    (hs : Blanks s v.compact) : v.TextOf s := by
  have hends : EndsNumber [] := fun c hc => by cases hc
  refine ⟨v.compact, [], hs, ?_, .none _⟩
  rw [← List.append_nil v.compact]
  exact treeText_compact h [] hends

/-- A text without quotes, backslashes and control characters spells itself. -/
theorem spells_self {text : List Char}
    (h : text.all fun c => c ≠ '"' ∧ c ≠ '\\' ∧ 0x20 ≤ c.toNat) :
    Spelling text ∧ Spells text text := by
  induction text with
  | nil => exact ⟨.nil, fun s => .close s⟩
  | cons c text ih =>
    rw [List.all_cons, Bool.and_eq_true, decide_eq_true_eq] at h
    obtain ⟨⟨hquote, hslash, hcontrol⟩, h⟩ := h
    obtain ⟨hspelling, hspells⟩ := ih h
    exact ⟨.plain hquote hslash hcontrol hspelling,
      fun s => .char (.plain _ hquote hslash hcontrol) (hspells s)⟩

end AlarmBridge.Json
