import SqlComposer.Kind

/-!
# What the search for a main keyword passes

Words, quotes, line comments, parentheses and other characters, one after the other. The search
goes from one end of them to the other, and nothing on the way counts but the depth. A main
keyword outside parentheses ends it.
-/

namespace SqlComposer.Kind

/-! ## Words -/

/-- A letter or an underscore, and letters, digits and underscores behind it. -/
def IsWord (w : List Char) : Prop :=
  ∃ c t, w = c :: t ∧ startsWord c = true ∧ ∀ a ∈ t, continuesWord a = true

/-- No word goes on here. -/
def EndsWord (s : List Char) : Prop := ∀ c ∈ s.head?, continuesWord c = false

/-- A main keyword, in any case. -/
def IsMain (w : List Char) (kind : Kind) : Prop :=
  kind ∈ main ∧ w.map Char.toUpper = kind.keyword.toList

/-- A character that means nothing to the search; `s` follows it. -/
def IsPlain (c : Char) (s : List Char) : Prop :=
  c ≠ '(' ∧ c ≠ ')' ∧ c ≠ '\'' ∧ c ≠ '"' ∧ ¬ (c = '-' ∧ s.head? = some '-') ∧
    startsWord c = false

theorem isWord_cons {c : Char} {t : List Char} :
    IsWord (c :: t) ↔ startsWord c = true ∧ ∀ a ∈ t, continuesWord a = true := by
  unfold IsWord
  constructor
  · rintro ⟨c, t, heq, h⟩
    obtain ⟨rfl, rfl⟩ := List.cons.inj heq
    exact h
  · intro h
    exact ⟨c, t, rfl, h⟩

instance : DecidablePred IsWord
  | [] => isFalse fun ⟨_, _, h, _⟩ => nomatch h
  | c :: t =>
    decidable_of_iff (startsWord c = true ∧ t.all continuesWord = true)
      (by rw [isWord_cons, List.all_eq_true])

instance : DecidablePred EndsWord
  | [] => isTrue fun _ h => nomatch h
  | c :: _ => decidable_of_iff (continuesWord c = false) (by simp [EndsWord])

instance (c : Char) (s : List Char) : Decidable (IsPlain c s) :=
  inferInstanceAs (Decidable (_ ∧ _))

instance (w : List Char) (kind : Kind) : Decidable (IsMain w kind) :=
  inferInstanceAs (Decidable (_ ∧ _))

theorem isPlain_blank (s : List Char) : IsPlain ' ' s := by simp [IsPlain, startsWord]

theorem endsWord_blank (s : List Char) : EndsWord (' ' :: s) := by simp [EndsWord, continuesWord]

theorem endsWord_closing (s : List Char) : EndsWord (')' :: s) := by simp [EndsWord, continuesWord]

theorem continuesWord_of_startsWord {c : Char} (h : startsWord c = true) :
    continuesWord c = true := by
  unfold startsWord at h
  unfold continuesWord Char.isAlphanum
  rw [Bool.or_eq_true] at h ⊢
  rcases h with h | h
  · simp [h]
  · simp [h]

theorem ne_of_continuesWord {c mark : Char} (h : continuesWord c = true)
    (hmark : continuesWord mark = false) : c ≠ mark := by
  rintro rfl
  rw [h] at hmark
  exact nomatch hmark

theorem isAlpha_of_toUpper {c : Char} (h : c.toUpper.isAlpha = true) : c.isAlpha = true := by
  unfold Char.toUpper at h
  split at h
  · next hlower =>
    unfold Char.isAlpha Char.isLower
    simp only [hlower]
    simp
  · exact h

/-- A word of letters may be written in any case. -/
theorem isWord_of_letters {w : List Char} (hne : w ≠ [])
    (h : (w.map Char.toUpper).all Char.isAlpha = true) : IsWord w := by
  rw [List.all_eq_true] at h
  obtain ⟨c, t, rfl⟩ := List.exists_cons_of_ne_nil hne
  have hstarts : ∀ a ∈ c :: t, startsWord a = true := by
    intro a ha
    unfold startsWord
    rw [isAlpha_of_toUpper (h _ (List.mem_map_of_mem ha)), Bool.true_or]
  rw [isWord_cons]
  refine ⟨hstarts c List.mem_cons_self, ?_⟩
  intro a ha
  exact continuesWord_of_startsWord (hstarts a (List.mem_cons_of_mem _ ha))

theorem IsMain.isWord {w : List Char} {kind : Kind} (h : IsMain w kind) : IsWord w := by
  obtain ⟨hkind, hw⟩ := h
  have hletters : ∀ kind ∈ main, kind.keyword.toList ≠ [] ∧
      kind.keyword.toList.all Char.isAlpha = true := by decide
  obtain ⟨hne, halpha⟩ := hletters kind hkind
  apply isWord_of_letters
  · rintro rfl
    exact hne hw.symm
  · rwa [hw]

theorem ofWord?_eq_some_iff {w : List Char} {kind : Kind} :
    ofWord? (w.map Char.toUpper) = some kind ↔ IsMain w kind := by
  have hkeyword : ∀ a ∈ main, ∀ b ∈ main, a.keyword.toList = b.keyword.toList → a = b := by decide
  unfold ofWord? IsMain
  constructor
  · intro h
    have hw := List.find?_some h
    rw [beq_iff_eq] at hw
    exact ⟨List.mem_of_find?_eq_some h, hw.symm⟩
  · rintro ⟨hkind, hw⟩
    cases hfind : main.find? (·.keyword.toList == w.map Char.toUpper) with
    | none =>
      have := List.find?_eq_none.mp hfind kind hkind
      simp [hw] at this
    | some found =>
      have hfound := List.find?_some hfind
      rw [beq_iff_eq, hw] at hfound
      rw [hkeyword found (List.mem_of_find?_eq_some hfind) kind hkind hfound]

theorem forall_not_isMain_iff {w : List Char} :
    (∀ kind, ¬ IsMain w kind) ↔ ofWord? (w.map Char.toUpper) = none := by
  rw [Option.eq_none_iff_forall_ne_some]
  exact forall_congr' fun kind => not_congr ofWord?_eq_some_iff.symm

instance (w : List Char) : Decidable (∀ kind, ¬ IsMain w kind) :=
  decidable_of_iff _ forall_not_isMain_iff.symm

/-! ## Single steps -/

theorem enter_word {c : Char} (h : continuesWord c = true) (depth : Nat) (next : Option Char) :
    enter (depth + 1) c next = (.code, depth + 1) := by
  unfold enter
  rw [if_neg (ne_of_continuesWord h rfl), if_neg (ne_of_continuesWord h rfl), if_neg, if_neg,
    if_neg]
  · rintro ⟨hdepth, -⟩
    exact nomatch hdepth
  · rintro ⟨rfl, -⟩
    exact nomatch h
  · rintro (rfl | rfl)
    · exact nomatch h
    · exact nomatch h

theorem enter_startsWord {c : Char} (h : startsWord c = true) (next : Option Char) :
    enter 0 c next = (.word [c.toUpper], 0) := by
  have hword := continuesWord_of_startsWord h
  unfold enter
  rw [if_neg (ne_of_continuesWord hword rfl), if_neg (ne_of_continuesWord hword rfl), if_neg,
    if_neg, if_pos ⟨rfl, h⟩]
  · rintro ⟨rfl, -⟩
    exact nomatch h
  · rintro (rfl | rfl)
    · exact nomatch h
    · exact nomatch h

theorem firstMain?_code (depth : Nat) (c : Char) (s : List Char) :
    firstMain? .code depth (c :: s) =
      firstMain? (enter depth c s.head?).1 (enter depth c s.head?).2 s := rfl

theorem firstMain?_within (mark : Char) (depth : Nat) (c : Char) (s : List Char) :
    firstMain? (.quoted mark) depth (c :: s) =
      firstMain? (if c = mark then .code else .quoted mark) depth s := rfl

theorem firstMain?_comment (depth : Nat) (c : Char) (s : List Char) :
    firstMain? .lineComment depth (c :: s) =
      firstMain? (if c = '\n' then .code else .lineComment) depth s := rfl

theorem firstMain?_letter {c : Char} (h : continuesWord c = true) (letters : List Char)
    (depth : Nat) (s : List Char) :
    firstMain? (.word letters) depth (c :: s) =
      firstMain? (.word (c.toUpper :: letters)) depth s := if_pos h

theorem firstMain?_plain {c : Char} {s : List Char} (h : IsPlain c s) (depth : Nat) :
    firstMain? .code depth (c :: s) = firstMain? .code depth s := by
  obtain ⟨hopen, hclose, hsingle, hdouble, hcomment, hword⟩ := h
  have henter : enter depth c s.head? = (.code, depth) := by
    unfold enter
    rw [if_neg hopen, if_neg hclose, if_neg (by simp [hsingle, hdouble]), if_neg hcomment,
      if_neg (by simp [hword])]
  rw [firstMain?_code, henter]

theorem firstMain?_opening (depth : Nat) (s : List Char) :
    firstMain? .code depth ('(' :: s) = firstMain? .code (depth + 1) s := rfl

theorem firstMain?_closing (depth : Nat) (s : List Char) :
    firstMain? .code depth (')' :: s) = firstMain? .code (depth - 1) s := rfl

theorem firstMain?_mark {mark : Char} (hmark : mark = '\'' ∨ mark = '"') (depth : Nat)
    (s : List Char) : firstMain? .code depth (mark :: s) = firstMain? (.quoted mark) depth s := by
  rcases hmark with rfl | rfl
  · rfl
  · rfl

theorem firstMain?_inQuotes {mark : Char} {t : List Char} (ht : mark ∉ t) (depth : Nat)
    (s : List Char) :
    firstMain? (.quoted mark) depth (t ++ s) = firstMain? (.quoted mark) depth s := by
  induction t with
  | nil => rfl
  | cons c t ih =>
    rw [List.mem_cons, not_or] at ht
    rw [List.cons_append, firstMain?_within, if_neg (Ne.symm ht.1), ih ht.2]

theorem firstMain?_quoted {mark : Char} (hmark : mark = '\'' ∨ mark = '"') {t : List Char}
    (ht : mark ∉ t) (depth : Nat) (s : List Char) :
    firstMain? .code depth (mark :: (t ++ mark :: s)) = firstMain? .code depth s := by
  rw [firstMain?_mark hmark, firstMain?_inQuotes ht, firstMain?_within, if_pos rfl]

theorem firstMain?_dashes (depth : Nat) (s : List Char) :
    firstMain? .code depth ('-' :: '-' :: s) = firstMain? .lineComment depth s := rfl

theorem firstMain?_inComment {t : List Char} (ht : '\n' ∉ t) (depth : Nat) (s : List Char) :
    firstMain? .lineComment depth (t ++ s) = firstMain? .lineComment depth s := by
  induction t with
  | nil => rfl
  | cons c t ih =>
    rw [List.mem_cons, not_or] at ht
    rw [List.cons_append, firstMain?_comment, if_neg (Ne.symm ht.1), ih ht.2]

theorem firstMain?_lineComment {t : List Char} (ht : '\n' ∉ t) (depth : Nat) (s : List Char) :
    firstMain? .code depth ('-' :: '-' :: (t ++ '\n' :: s)) = firstMain? .code depth s := by
  rw [firstMain?_dashes, firstMain?_inComment ht, firstMain?_comment, if_pos rfl]

/-! ## Words in the search -/

theorem firstMain?_wordInside {w : List Char} (h : ∀ c ∈ w, continuesWord c = true) (depth : Nat)
    (s : List Char) : firstMain? .code (depth + 1) (w ++ s) = firstMain? .code (depth + 1) s := by
  induction w with
  | nil => rfl
  | cons c w ih =>
    rw [List.cons_append, firstMain?_code, enter_word (h c List.mem_cons_self)]
    exact ih fun a ha => h a (List.mem_cons_of_mem _ ha)

theorem firstMain?_inWord {t : List Char} (ht : ∀ c ∈ t, continuesWord c = true)
    (letters : List Char) (depth : Nat) (s : List Char) :
    firstMain? (.word letters) depth (t ++ s) =
      firstMain? (.word ((t.map Char.toUpper).reverse ++ letters)) depth s := by
  induction t generalizing letters with
  | nil => rfl
  | cons c t ih =>
    rw [List.cons_append, firstMain?_letter (ht c List.mem_cons_self),
      ih fun a ha => ht a (List.mem_cons_of_mem _ ha)]
    simp

/-- At its end a word is a main keyword, or the search goes on as if it were not there. -/
theorem firstMain?_endsWord {s : List Char} (hs : EndsWord s) (letters : List Char)
    (depth : Nat) :
    firstMain? (.word letters) depth s =
      match ofWord? letters.reverse with
      | some kind => some kind
      | none => firstMain? .code depth s := by
  cases s with
  | nil =>
    show ofWord? letters.reverse = _
    cases ofWord? letters.reverse with
    | none => rfl
    | some kind => rfl
  | cons c s =>
    have hc : continuesWord c = false := hs c rfl
    exact if_neg (by simp [hc])

theorem firstMain?_word {w s : List Char} (hw : IsWord w) (hs : EndsWord s) :
    firstMain? .code 0 (w ++ s) =
      match ofWord? (w.map Char.toUpper) with
      | some kind => some kind
      | none => firstMain? .code 0 s := by
  obtain ⟨c, t, rfl, hc, ht⟩ := hw
  rw [List.cons_append, firstMain?_code, enter_startsWord hc, firstMain?_inWord ht,
    firstMain?_endsWord hs]
  simp

theorem firstMain?_main {w s : List Char} {kind : Kind} (hw : IsMain w kind) (hs : EndsWord s) :
    firstMain? .code 0 (w ++ s) = some kind := by
  rw [firstMain?_word hw.isWord hs, ofWord?_eq_some_iff.mpr hw]

/-! ## From one place to another -/

/-- The search comes from a text at a depth to what is left of it at another depth. -/
inductive Scan : Nat → List Char → Nat → List Char → Prop
  | nil (depth : Nat) (s : List Char) : Scan depth s depth s
  | word {depth d : Nat} {w s r : List Char} (hw : IsWord w) (hs : EndsWord s)
      (hmain : depth = 0 → ∀ kind, ¬ IsMain w kind) (rest : Scan depth s d r) :
      Scan depth (w ++ s) d r
  | quoted {depth d : Nat} {mark : Char} {t s r : List Char} (hmark : mark = '\'' ∨ mark = '"')
      (ht : mark ∉ t) (rest : Scan depth s d r) : Scan depth (mark :: (t ++ mark :: s)) d r
  | lineComment {depth d : Nat} {t s r : List Char} (ht : '\n' ∉ t) (rest : Scan depth s d r) :
      Scan depth ('-' :: '-' :: (t ++ '\n' :: s)) d r
  | opening {depth d : Nat} {s r : List Char} (rest : Scan (depth + 1) s d r) :
      Scan depth ('(' :: s) d r
  | closing {depth d : Nat} {s r : List Char} (rest : Scan (depth - 1) s d r) :
      Scan depth (')' :: s) d r
  | plain {depth d : Nat} {c : Char} {s r : List Char} (hc : IsPlain c s)
      (rest : Scan depth s d r) : Scan depth (c :: s) d r

namespace Scan

variable {depth d e : Nat} {s r t : List Char}

theorem trans (h : Scan depth s d r) (h' : Scan d r e t) : Scan depth s e t := by
  induction h with
  | nil => exact h'
  | word hw hs hmain _ ih => exact .word hw hs hmain (ih h')
  | quoted hmark ht _ ih => exact .quoted hmark ht (ih h')
  | lineComment ht _ ih => exact .lineComment ht (ih h')
  | opening _ ih => exact .opening (ih h')
  | closing _ ih => exact .closing (ih h')
  | plain hc _ ih => exact .plain hc (ih h')

/-- What the search passes has no influence on what it finds. -/
theorem firstMain?_eq (h : Scan depth s d r) :
    firstMain? .code depth s = firstMain? .code d r := by
  induction h with
  | nil => rfl
  | @word depth d w s r hw hs hmain _ ih =>
    rw [← ih]
    cases depth with
    | zero =>
      rw [firstMain?_word hw hs, forall_not_isMain_iff.mp (hmain rfl)]
    | succ depth =>
      obtain ⟨c, t, rfl, hc, ht⟩ := hw
      exact firstMain?_wordInside (List.forall_mem_cons.mpr
        ⟨continuesWord_of_startsWord hc, ht⟩) depth s
  | quoted hmark ht _ ih => rw [firstMain?_quoted hmark ht, ih]
  | lineComment ht _ ih => rw [firstMain?_lineComment ht, ih]
  | opening _ ih => rw [firstMain?_opening, ih]
  | closing _ ih => rw [firstMain?_closing, ih]
  | plain hc _ ih => rw [firstMain?_plain hc, ih]

end Scan

end SqlComposer.Kind
