import AlarmBridge.Proofs.Utf8

/-! Bytes shown as text.  Any bytes fall into encodings of characters and malformed parts in one way
only, a malformed part being as long as the start of an encoding can be, or else one byte;
`decodeLossy` gives the characters, and the replacement character for each malformed part. -/

set_option autoImplicit false

namespace AlarmBridge.Text

/-- Some character's encoding starts with these bytes. -/
def Begins (bs : Bytes) : Prop := ∃ c, bs <+: String.utf8EncodeChar c

/-- A part of some bytes that is malformed where the rest follows it: it starts the encoding of a
character or is one byte that starts none, what follows does not make it a longer start, and it is
no whole encoding. -/
structure Malformed (part rest : Bytes) : Prop where
  nonempty : part ≠ []
  begins : part.length = 1 ∨ Begins part
  longest : ∀ b ∈ rest.head?, ¬Begins (part ++ [b])
  incomplete : ∀ c, part ≠ String.utf8EncodeChar c

/-- Bytes as they are shown: characters, and a replacement for each malformed part. -/
inductive Shown : Bytes → List Char → Prop
  | nil : Shown [] []
  | char {bs : Bytes} {s : List Char} (c : Char) (h : Shown bs s) :
      Shown (String.utf8EncodeChar c ++ bs) (c :: s)
  | malformed {part bs : Bytes} {s : List Char} (hpart : Malformed part bs) (h : Shown bs s) :
      Shown (part ++ bs) ('\uFFFD' :: s)

/-- A byte is in a range. -/
def InRange (r : Nat × Nat) (b : UInt8) : Prop := r.1 ≤ b.toNat ∧ b.toNat ≤ r.2

/-- The bytes are in the first of these ranges, and the others are left. -/
inductive Follow : List (Nat × Nat) → Bytes → List (Nat × Nat) → Prop
  | nil (ranges : List (Nat × Nat)) : Follow ranges [] ranges
  | cons {r : Nat × Nat} {b : UInt8} {ranges left : List (Nat × Nat)} {bs : Bytes}
      (hb : InRange r b) (h : Follow ranges bs left) : Follow (r :: ranges) (b :: bs) left

/-- The code point after some continuation bytes. -/
def codeAfter (code : Nat) (bs : Bytes) : Nat :=
  bs.foldl (fun n b => n * 64 + (b.toNat - 0x80)) code

/-- What a byte that starts an encoding says, by the length of the encoding. -/
inductive Lead : Nat → Nat → List (Nat × Nat) → Prop
  | one {b : Nat} (h : b < 0x80) : Lead b b []
  | two {b : Nat} (h : 0xC2 ≤ b) (h' : b < 0xE0) : Lead b (b - 0xC0) [continuation]
  | three {b lo hi : Nat} (h : 0xE0 ≤ b) (h' : b < 0xF0)
      (hlo : lo = if b = 0xE0 then 0xA0 else 0x80) (hhi : hi = if b = 0xED then 0x9F else 0xBF) :
      Lead b (b - 0xE0) [(lo, hi), continuation]
  | four {b lo hi : Nat} (h : 0xF0 ≤ b) (h' : b ≤ 0xF4) (hlo : lo = if b = 0xF0 then 0x90 else 0x80)
      (hhi : hi = if b = 0xF4 then 0x8F else 0xBF) :
      Lead b (b - 0xF0) [(lo, hi), continuation, continuation]

theorem lead?_eq_some_iff {b code : Nat} {ranges : List (Nat × Nat)} :
    lead? b = some (code, ranges) ↔ Lead b code ranges := by
  constructor
  · intro h
    unfold lead? at h
    split_ifs at h
    all_goals
      simp only [Option.some.injEq, Prod.mk.injEq] at h
      obtain ⟨rfl, rfl⟩ := h
    · exact .one ‹_›
    · exact .two (by omega) ‹_›
    · subst b; exact .three (by decide) (by decide) rfl rfl
    · subst b; exact .three (by decide) (by decide) rfl rfl
    · exact .three (by omega) ‹_› (by rw [if_neg ‹_›]) (by rw [if_neg ‹_›])
    · subst b; exact .four (by decide) (by decide) rfl rfl
    · exact .four (by omega) (by omega) (by rw [if_neg ‹_›]) (by rw [if_neg (by omega)])
    · subst b; exact .four (by decide) (by decide) rfl rfl
  · intro h
    cases h with
    | one h => exact if_pos h
    | two h h' =>
      unfold lead?
      rw [if_neg (by omega), if_neg (by omega), if_pos h']
    | three h h' hlo hhi =>
      unfold lead?
      rw [if_neg (by omega), if_neg (by omega), if_neg (by omega), hlo, hhi]
      split_ifs <;> simp_all [continuation]
    | four h h' hlo hhi =>
      unfold lead?
      rw [if_neg (by omega), if_neg (by omega), if_neg (by omega), if_neg (by omega),
        if_neg (by omega), if_neg (by omega), hlo, hhi]
      split_ifs <;> first | omega | simp_all [continuation]

variable {b : UInt8} {bs : Bytes} {code : Nat} {ranges left : List (Nat × Nat)}

theorem ofNat_eq_iff {n : Nat} {b : UInt8} : UInt8.ofNat n = b ↔ n % 256 = b.toNat := by
  rw [← UInt8.toNat_inj, UInt8.toNat_ofNat']

/-- A byte that starts an encoding and bytes in all the ranges that it asks for encode a
character. -/
theorem encode_of_lead (hlead : Lead b.toNat code ranges) (h : Follow ranges bs []) :
    String.utf8EncodeChar (Char.ofNat (codeAfter code bs)) = b :: bs := by
  -- by the length of the encoding; the narrower ranges leave out surrogates and codes too small or
  -- too large
  cases hlead with
  | one hb =>
    cases h
    have hvalue : (Char.ofNat b.toNat).val.toNat = b.toNat := val_ofNat (by omega)
    unfold String.utf8EncodeChar codeAfter
    simp only [List.foldl_nil, hvalue]
    rw [if_pos (by omega), UInt8.ofNat_toNat]
  | two hb hb' =>
    rcases h with _ | ⟨⟨hc, hc'⟩, ⟨⟩⟩
    rename_i c
    simp only [continuation] at hc hc'
    have hvalue := @val_ofNat ((b.toNat - 0xC0) * 64 + (c.toNat - 0x80)) (by omega)
    unfold String.utf8EncodeChar codeAfter
    simp only [List.foldl_cons, List.foldl_nil, hvalue]
    rw [if_neg (by omega), if_pos (by omega)]
    simp only [List.cons.injEq, and_true, ofNat_eq_iff]
    omega
  | three hb hb' hlo hhi =>
    rcases h with _ | ⟨⟨hc, hc'⟩, _ | ⟨⟨hd, hd'⟩, ⟨⟩⟩⟩
    rename_i c d
    have hcases : 0x80 ≤ c.toNat ∧ c.toNat ≤ 0xBF ∧ (b.toNat = 0xE0 → 0xA0 ≤ c.toNat) ∧
        (b.toNat = 0xED → c.toNat ≤ 0x9F) := by
      split_ifs at hlo hhi <;> omega
    simp only [continuation] at hd hd'
    have hvalue := @val_ofNat (((b.toNat - 0xE0) * 64 + (c.toNat - 0x80)) * 64 + (d.toNat - 0x80))
      (by omega)
    unfold String.utf8EncodeChar codeAfter
    simp only [List.foldl_cons, List.foldl_nil, hvalue]
    rw [if_neg (by omega), if_neg (by omega), if_pos (by omega)]
    simp only [List.cons.injEq, and_true, ofNat_eq_iff]
    omega
  | four hb hb' hlo hhi =>
    rcases h with _ | ⟨⟨hc, hc'⟩, _ | ⟨⟨hd, hd'⟩, _ | ⟨⟨he, he'⟩, ⟨⟩⟩⟩⟩
    rename_i c d e
    have hcases : 0x80 ≤ c.toNat ∧ c.toNat ≤ 0xBF ∧ (b.toNat = 0xF0 → 0x90 ≤ c.toNat) ∧
        (b.toNat = 0xF4 → c.toNat ≤ 0x8F) := by
      split_ifs at hlo hhi <;> omega
    simp only [continuation] at hd hd' he he'
    have hvalue :=
      @val_ofNat ((((b.toNat - 0xF0) * 64 + (c.toNat - 0x80)) * 64 + (d.toNat - 0x80)) * 64 +
        (e.toNat - 0x80)) (by omega)
    unfold String.utf8EncodeChar codeAfter
    simp only [List.foldl_cons, List.foldl_nil, hvalue]
    rw [if_neg (by omega), if_neg (by omega), if_neg (by omega)]
    simp only [List.cons.injEq, and_true, ofNat_eq_iff]
    omega

/-- An encoding is a byte that starts one and bytes in all the ranges that it asks for. -/
theorem exists_lead (c : Char) : ∃ b bs code ranges, String.utf8EncodeChar c = b :: bs ∧
    Lead b.toNat code ranges ∧ Follow ranges bs [] ∧ codeAfter code bs = c.val.toNat := by
  have hvalid : c.val.toNat < 0xD800 ∨ 0xDFFF < c.val.toNat ∧ c.val.toNat < 0x110000 := c.valid
  unfold String.utf8EncodeChar
  generalize c.val.toNat = n at *
  simp only
  have hbyte : ∀ m < 256, (UInt8.ofNat m).toNat = m := fun m hm => by
    rw [UInt8.toNat_ofNat', Nat.mod_eq_of_lt hm]
  split_ifs with hone htwo hthree
  · refine ⟨_, _, _, _, rfl, .one ?_, .nil _, ?_⟩
    · rw [hbyte n (by omega)]
      omega
    · exact hbyte n (by omega)
  · have hb := hbyte (n / 64 % 32 + 192) (by omega)
    have hc := hbyte (n % 64 + 128) (by omega)
    refine ⟨_, _, _, _, rfl, .two ?_ ?_, .cons ⟨?_, ?_⟩ (.nil _), ?_⟩
    all_goals
      simp only [codeAfter, continuation, List.foldl_cons, List.foldl_nil, hb, hc]
      omega
  · have hb := hbyte (n / 4096 % 16 + 224) (by omega)
    have hc := hbyte (n / 64 % 64 + 128) (by omega)
    have hd := hbyte (n % 64 + 128) (by omega)
    refine ⟨_, _, _, _, rfl, .three ?_ ?_ rfl rfl, .cons ⟨?_, ?_⟩ (.cons ⟨?_, ?_⟩ (.nil _)), ?_⟩
    all_goals
      simp only [codeAfter, continuation, List.foldl_cons, List.foldl_nil, hb, hc, hd]
      first | omega | split_ifs <;> omega
  · have hb := hbyte (n / 262144 % 8 + 240) (by omega)
    have hc := hbyte (n / 4096 % 64 + 128) (by omega)
    have hd := hbyte (n / 64 % 64 + 128) (by omega)
    have he := hbyte (n % 64 + 128) (by omega)
    refine ⟨_, _, _, _, rfl, .four ?_ ?_ rfl rfl,
      .cons ⟨?_, ?_⟩ (.cons ⟨?_, ?_⟩ (.cons ⟨?_, ?_⟩ (.nil _))), ?_⟩
    all_goals
      simp only [codeAfter, continuation, List.foldl_cons, List.foldl_nil, hb, hc, hd, he]
      first | omega | split_ifs <;> omega

theorem Follow.append {mid : List (Nat × Nat)} {more : Bytes} (h : Follow ranges bs mid)
    (hmore : Follow mid more left) : Follow ranges (bs ++ more) left := by
  induction h with
  | nil => exact hmore
  | cons hb _ ih => exact .cons hb (ih hmore)

theorem Follow.exists_of_append {bs more : Bytes} (h : Follow ranges (bs ++ more) left) :
    ∃ mid, Follow ranges bs mid ∧ Follow mid more left := by
  induction bs generalizing ranges with
  | nil => exact ⟨ranges, .nil ranges, h⟩
  | cons b bs ih =>
    cases h with
    | cons hb h =>
      obtain ⟨mid, hbs, hmore⟩ := ih h
      exact ⟨mid, .cons hb hbs, hmore⟩

theorem Follow.unique {left' : List (Nat × Nat)} (h : Follow ranges bs left)
    (h' : Follow ranges bs left') : left = left' := by
  induction h with
  | nil => cases h'; rfl
  | cons _ _ ih =>
    cases h' with
    | cons _ h' => exact ih h'

/-- The ranges that a byte asks for all have bytes in them. -/
theorem Lead.exists_inRange {b : Nat} (h : Lead b code ranges) :
    ∀ r ∈ ranges, ∃ b, InRange r b := by
  have hlow : ∀ lo hi : Nat, lo ≤ hi → lo < 256 → ∃ b, InRange (lo, hi) b := fun lo hi hle hlt =>
    ⟨.ofNat lo, by simp only [InRange, UInt8.toNat_ofNat']; omega⟩
  cases h <;>
    simp only [List.forall_mem_cons, List.not_mem_nil, false_implies, implies_true, and_true,
      continuation]
  · exact hlow _ _ (by decide) (by decide)
  · next hlo hhi =>
      exact ⟨hlow _ _ (by split_ifs at hlo hhi <;> omega) (by split_ifs at hlo <;> omega),
        hlow _ _ (by decide) (by decide)⟩
  · next hlo hhi =>
      exact ⟨hlow _ _ (by split_ifs at hlo hhi <;> omega) (by split_ifs at hlo <;> omega),
        hlow _ _ (by decide) (by decide), hlow _ _ (by decide) (by decide)⟩

theorem exists_follow (h : ∀ r ∈ ranges, ∃ b, InRange r b) : ∃ bs, Follow ranges bs [] := by
  induction ranges with
  | nil => exact ⟨[], .nil []⟩
  | cons r ranges ih =>
    obtain ⟨⟨b, hb⟩, hrest⟩ := List.forall_mem_cons.mp h
    obtain ⟨bs, hbs⟩ := ih hrest
    exact ⟨b :: bs, .cons hb hbs⟩

theorem Follow.subset (h : Follow ranges bs left) : left ⊆ ranges := by
  induction h with
  | nil => exact List.Subset.refl _
  | cons _ _ ih => exact List.subset_cons_of_subset _ ih

theorem lead_unique {b code' : Nat} {ranges' : List (Nat × Nat)} (h : Lead b code ranges)
    (h' : Lead b code' ranges') : code = code' ∧ ranges = ranges' := by
  simpa using (lead?_eq_some_iff.mpr h).symm.trans (lead?_eq_some_iff.mpr h')

/-- What starts an encoding is a byte that does and bytes in the first ranges that it asks for. -/
theorem begins_cons_iff :
    Begins (b :: bs) ↔ ∃ code ranges left, Lead b.toNat code ranges ∧ Follow ranges bs left := by
  constructor
  · rintro ⟨c, more, hmore⟩
    obtain ⟨b', bs', code, ranges, hc, hlead, hfollow, -⟩ := exists_lead c
    rw [hc, List.cons_append, List.cons.injEq] at hmore
    obtain ⟨rfl, rfl⟩ := hmore
    obtain ⟨left, hbs, -⟩ := hfollow.exists_of_append
    exact ⟨code, ranges, left, hlead, hbs⟩
  · rintro ⟨code, ranges, left, hlead, hbs⟩
    obtain ⟨more, hmore⟩ := exists_follow fun r hr => hlead.exists_inRange r (hbs.subset hr)
    exact ⟨_, more, (encode_of_lead hlead (hbs.append hmore)).symm⟩

/-- An encoding leaves none of the ranges that its first byte asks for. -/
theorem eq_encode_iff (hlead : Lead b.toNat code ranges) (h : Follow ranges bs left) :
    (∃ c, b :: bs = String.utf8EncodeChar c) ↔ left = [] := by
  constructor
  · rintro ⟨c, hc⟩
    obtain ⟨b', bs', code', ranges', hc', hlead', hfollow, -⟩ := exists_lead c
    rw [← hc, List.cons.injEq] at hc'
    obtain ⟨rfl, rfl⟩ := hc'
    obtain ⟨-, rfl⟩ := lead_unique hlead hlead'
    exact h.unique hfollow
  · rintro rfl
    exact ⟨_, (encode_of_lead hlead h).symm⟩

/-- Bytes are taken while they are in the ranges. -/
theorem exists_follow_longest (ranges : List (Nat × Nat)) (bs : Bytes) :
    ∃ taken rest left, bs = taken ++ rest ∧ Follow ranges taken left ∧
      ∀ r ∈ left.head?, ∀ b ∈ rest.head?, ¬InRange r b := by
  induction ranges generalizing bs with
  | nil => exact ⟨[], bs, [], rfl, .nil [], nofun⟩
  | cons r ranges ih =>
    cases bs with
    | nil => exact ⟨[], [], r :: ranges, rfl, .nil _, nofun⟩
    | cons b bs =>
      by_cases hb : InRange r b
      · obtain ⟨taken, rest, left, rfl, htaken, hstop⟩ := ih bs
        exact ⟨b :: taken, rest, left, rfl, .cons hb htaken, hstop⟩
      · refine ⟨[], b :: bs, r :: ranges, rfl, .nil _, ?_⟩
        rintro _ ⟨⟩ _ ⟨⟩
        exact hb

/-- A malformed part is one byte that starts no encoding, or leaves a range that what follows is not
in. -/
theorem malformed_cons_iff {rest : Bytes} : Malformed (b :: bs) rest ↔
    (bs = [] ∧ ∀ code ranges, ¬Lead b.toNat code ranges) ∨
    ∃ code ranges r left, Lead b.toNat code ranges ∧ Follow ranges bs (r :: left) ∧
      ∀ c ∈ rest.head?, ¬InRange r c := by
  constructor
  · intro h
    by_cases hlead : ∃ code ranges, Lead b.toNat code ranges
    · obtain ⟨code, ranges, hlead⟩ := hlead
      obtain ⟨left, hbs⟩ : ∃ left, Follow ranges bs left := by
        rcases h.begins with hone | hbegins
        · obtain rfl : bs = [] := by simpa using hone
          exact ⟨ranges, .nil ranges⟩
        · obtain ⟨code', ranges', left, hlead', hbs⟩ := begins_cons_iff.mp hbegins
          obtain ⟨-, rfl⟩ := lead_unique hlead hlead'
          exact ⟨left, hbs⟩
      cases left with
      | nil =>
        obtain ⟨c, hc⟩ := (eq_encode_iff hlead hbs).mpr rfl
        exact absurd hc (h.incomplete c)
      | cons r left =>
        refine .inr ⟨code, ranges, r, left, hlead, hbs, fun c hc hr => h.longest c hc ?_⟩
        exact begins_cons_iff.mpr ⟨code, ranges, left, hlead, hbs.append (.cons hr (.nil left))⟩
    · refine .inl ⟨?_, fun code ranges h => hlead ⟨code, ranges, h⟩⟩
      rcases h.begins with hone | hbegins
      · simpa using hone
      · obtain ⟨code, ranges, -, h, -⟩ := begins_cons_iff.mp hbegins
        exact absurd ⟨code, ranges, h⟩ hlead
  · rintro (⟨rfl, hnone⟩ | ⟨code, ranges, r, left, hlead, hbs, hstop⟩)
    · have hnever : ∀ more, ¬Begins (b :: more) := by
        intro more hbegins
        obtain ⟨code, ranges, -, h, -⟩ := begins_cons_iff.mp hbegins
        exact hnone code ranges h
      exact ⟨List.cons_ne_nil _ _, .inl rfl, fun c _ => hnever [c],
        fun c hc => hnever [] ⟨c, hc ▸ List.prefix_rfl⟩⟩
    · refine ⟨List.cons_ne_nil _ _, .inr (begins_cons_iff.mpr ⟨_, _, _, hlead, hbs⟩), ?_, ?_⟩
      · intro c hc hbegins
        obtain ⟨code', ranges', left', hlead', hmore⟩ := begins_cons_iff.mp hbegins
        obtain ⟨-, rfl⟩ := lead_unique hlead hlead'
        obtain ⟨mid, hmid, hnext⟩ := hmore.exists_of_append
        obtain rfl := hbs.unique hmid
        cases hnext with
        | cons hr => exact hstop c hc hr
      · intro c hc
        cases (eq_encode_iff hlead hbs).mp ⟨c, hc⟩

/-- The parts of the bytes to come, with a sequence open or none. -/
def partsFrom (pending : Option (Nat × List (Nat × Nat))) : Bytes → List (Option Char)
  | [] => if pending.isSome then [none] else []
  | b :: bs => (feedByte pending b.toNat).1 ++ partsFrom (feedByte pending b.toNat).2 bs

theorem decodeParts_eq (bs : Bytes) : decodeParts bs = partsFrom none bs := by
  have hfold :
      ∀ (bs : Bytes) (before : List (Option Char)) (pending : Option (Nat × List (Nat × Nat))),
        let last := bs.foldl (fun state b =>
          ((feedByte state.2 b.toNat).1.reverse ++ state.1, (feedByte state.2 b.toNat).2))
          (before, pending)
        (if last.2.isSome then none :: last.1 else last.1).reverse =
          before.reverse ++ partsFrom pending bs := by
    intro bs
    induction bs with
    | nil =>
      intro before pending
      cases pending <;> simp [partsFrom]
    | cons b bs ih =>
      intro before pending
      have hrest := ih ((feedByte pending b.toNat).1.reverse ++ before) (feedByte pending b.toNat).2
      rw [List.reverse_append, List.reverse_reverse, List.append_assoc] at hrest
      exact hrest
  exact hfold bs [] none

/-- The parts of the bytes to come, where some ranges are still asked for, which may be none. -/
def resume (code : Nat) (ranges : List (Nat × Nat)) (rest : Bytes) : List (Option Char) :=
  if ranges = [] then some (Char.ofNat code) :: partsFrom none rest
  else partsFrom (some (code, ranges)) rest

theorem partsFrom_lead (h : Lead b.toNat code ranges) (rest : Bytes) :
    partsFrom none (b :: rest) = resume code ranges rest := by
  have hlead := lead?_eq_some_iff.mpr h
  simp only [partsFrom, feedByte, beginSequence, hlead, resume]
  cases ranges <;> rfl

theorem resume_append (h : Follow ranges bs left) (code : Nat) (rest : Bytes) :
    resume code ranges (bs ++ rest) = resume (codeAfter code bs) left rest := by
  induction h generalizing code with
  | nil => rfl
  | @cons r b ranges left bs hb _ ih =>
    have hstep : resume code (r :: ranges) (b :: (bs ++ rest)) =
        resume (code * 64 + (b.toNat - 0x80)) ranges (bs ++ rest) := by
      have hrange : r.1 ≤ b.toNat ∧ b.toNat ≤ r.2 := hb
      cases ranges <;> simp [resume, partsFrom, feedByte, hrange]
    rw [List.cons_append, hstep, ih, codeAfter, codeAfter, List.foldl_cons]

theorem resume_stuck {r : Nat × Nat} {rest : Bytes} (h : ∀ b ∈ rest.head?, ¬InRange r b) :
    resume code (r :: left) rest = none :: partsFrom none rest := by
  cases rest with
  | nil => rfl
  | cons b rest =>
    have hrange : ¬(r.1 ≤ b.toNat ∧ b.toNat ≤ r.2) := h b rfl
    simp only [resume, partsFrom, feedByte, hrange, reduceCtorEq, if_false, List.cons_append]

theorem partsFrom_char (c : Char) (rest : Bytes) :
    partsFrom none (String.utf8EncodeChar c ++ rest) = some c :: partsFrom none rest := by
  obtain ⟨b, bs, code, ranges, hc, hlead, hbs, hcode⟩ := exists_lead c
  have hchar : Char.ofNat (codeAfter code bs) = c := by
    rw [hcode]
    exact Char.ofNat_toNat c
  rw [hc, List.cons_append, partsFrom_lead hlead, resume_append hbs, resume, if_pos rfl, hchar]

theorem partsFrom_malformed {part rest : Bytes} (h : Malformed part rest) :
    partsFrom none (part ++ rest) = none :: partsFrom none rest := by
  obtain ⟨b, bs, rfl⟩ := List.exists_cons_of_ne_nil h.nonempty
  rw [List.cons_append]
  rcases malformed_cons_iff.mp h with ⟨rfl, hnone⟩ | ⟨code, ranges, r, left, hlead, hbs, hstop⟩
  · have hlead : lead? b.toNat = none := by
      refine Option.eq_none_iff_forall_ne_some.mpr fun p hp => ?_
      exact hnone p.1 p.2 (lead?_eq_some_iff.mp hp)
    simp [partsFrom, feedByte, beginSequence, hlead]
  · rw [partsFrom_lead hlead, resume_append hbs, resume_stuck hstop]

/-- What bytes are shown as is their lossy decoding. -/
theorem Shown.eq_decodeLossy {s : List Char} (h : Shown bs s) : decodeLossy bs = s := by
  unfold decodeLossy
  rw [decodeParts_eq]
  induction h with
  | nil => rfl
  | char c _ ih => rw [partsFrom_char, List.map_cons, ih, Option.getD_some]
  | malformed hpart _ ih => rw [partsFrom_malformed hpart, List.map_cons, ih, Option.getD_none]

/-- All bytes are shown as some text. -/
theorem exists_shown (bs : Bytes) : ∃ s, Shown bs s := by
  -- each part takes a byte at least
  induction hlength : bs.length using Nat.strongRecOn generalizing bs with
  | ind n ih =>
    obtain rfl := hlength
    cases bs with
    | nil => exact ⟨[], .nil⟩
    | cons b bs =>
      by_cases hlead : ∃ code ranges, Lead b.toNat code ranges
      · obtain ⟨code, ranges, hlead⟩ := hlead
        obtain ⟨taken, rest, left, rfl, htaken, hstop⟩ := exists_follow_longest ranges bs
        obtain ⟨s, hs⟩ :=
          ih rest.length (by simp only [List.length_cons, List.length_append]; omega) rest rfl
        rw [← List.cons_append]
        cases left with
        | nil =>
          obtain ⟨c, hc⟩ := (eq_encode_iff hlead htaken).mpr rfl
          exact ⟨c :: s, hc ▸ .char c hs⟩
        | cons r left =>
          have hpart :=
            malformed_cons_iff.mpr (.inr ⟨code, ranges, r, left, hlead, htaken, hstop r rfl⟩)
          exact ⟨'\uFFFD' :: s, .malformed hpart hs⟩
      · obtain ⟨s, hs⟩ := ih bs.length (Nat.lt_succ_self _) bs rfl
        have hpart : Malformed [b] bs :=
          malformed_cons_iff.mpr (.inl ⟨rfl, fun code ranges h => hlead ⟨code, ranges, h⟩⟩)
        exact ⟨'\uFFFD' :: s, .malformed hpart hs⟩

/-- Bytes are shown as one text, their lossy decoding. -/
theorem shown_iff {s : List Char} : Shown bs s ↔ decodeLossy bs = s := by
  refine ⟨Shown.eq_decodeLossy, ?_⟩
  rintro rfl
  obtain ⟨s, hs⟩ := exists_shown bs
  rwa [hs.eq_decodeLossy]

theorem decode_encode (s : List Char) : decode (encode s) = some s := by
  unfold decode
  rw [decodeParts_eq]
  induction s with
  | nil => rfl
  | cons c s ih => rw [encode_cons, partsFrom_char, List.mapM_cons, ih]; rfl

/-- Bytes decode to a text exactly if they encode it. -/
theorem decode_eq_some_iff {s : List Char} : decode bs = some s ↔ bs = encode s := by
  refine ⟨fun h => ?_, fun h => h ▸ decode_encode s⟩
  obtain ⟨shown, hshown⟩ := exists_shown bs
  unfold decode at h
  rw [decodeParts_eq] at h
  induction hshown generalizing s with
  | nil =>
    obtain rfl := Option.some.inj h
    rfl
  | char c _ ih =>
    rw [partsFrom_char, List.mapM_cons] at h
    obtain ⟨c', hc, h⟩ := Option.bind_eq_some_iff.mp h
    obtain ⟨s', hs, h⟩ := Option.bind_eq_some_iff.mp h
    obtain rfl := Option.some.inj h
    obtain rfl := Option.some.inj hc
    rw [encode_cons, ← ih hs]
  | malformed hpart _ _ =>
    rw [partsFrom_malformed hpart, List.mapM_cons] at h
    cases h

end AlarmBridge.Text
