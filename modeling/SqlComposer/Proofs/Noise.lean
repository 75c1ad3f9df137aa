import Mathlib.Data.List.Infix
import SqlComposer.Proofs.MainStatement

/-!
# What stands in front of a statement

Blanks, opening parentheses and comments, one after the other. They have no influence on the kind,
and they are the only texts that have none. A block comment ends behind the first `*/` that is
found from its slash on, so to the reader `/*/` is a whole one.
-/

namespace SqlComposer.Kind

/-- The mark that ends a block comment is not in the text. -/
def Unclosed (t : List Char) : Prop := ¬ ['*', '/'] <:+: t

instance : DecidablePred Unclosed := fun t => inferInstanceAs (Decidable (¬ ['*', '/'] <:+: t))

theorem unclosed_cons {c : Char} {t : List Char} :
    Unclosed (c :: t) ↔ ¬ (c = '*' ∧ t.head? = some '/') ∧ Unclosed t := by
  unfold Unclosed
  rw [List.infix_cons_iff, not_or]
  apply and_congr_left
  intro _
  rw [List.cons_prefix_cons, eq_comm]
  cases t with
  | nil => simp
  | cons d t => simp [List.cons_prefix_cons, eq_comm]

/-- Everything up to the first mark, if there is one. -/
theorem exists_unclosed (t : List Char) :
    Unclosed t ∨ ∃ u s, t = u ++ '*' :: '/' :: s ∧ Unclosed u := by
  induction t with
  | nil => exact Or.inl (by decide)
  | cons c t ih =>
    by_cases hmark : c = '*' ∧ t.head? = some '/'
    · obtain ⟨rfl, hhead⟩ := hmark
      obtain ⟨s, rfl⟩ := List.head?_eq_some_iff.mp hhead
      exact Or.inr ⟨[], s, rfl, by decide⟩
    · rcases ih with ht | ⟨u, s, rfl, hu⟩
      · exact Or.inl (unclosed_cons.mpr ⟨hmark, ht⟩)
      · refine Or.inr ⟨c :: u, s, rfl, unclosed_cons.mpr ⟨?_, hu⟩⟩
        rintro ⟨rfl, hhead⟩
        apply hmark
        rw [List.head?_append, hhead]
        exact ⟨rfl, rfl⟩

/-! ## Noise -/

inductive IsNoise : List Char → Prop
  | nil : IsNoise []
  | blank {c : Char} {s : List Char} (hc : Text.isBlank c = true ∨ c = '(') (rest : IsNoise s) :
      IsNoise (c :: s)
  | lineComment {t s : List Char} (ht : '\n' ∉ t) (rest : IsNoise s) :
      IsNoise ('-' :: '-' :: (t ++ '\n' :: s))
  /-- The asterisk behind the slash may belong to the mark at the end. -/
  | blockComment {t s : List Char} (ht : Unclosed t) (hstar : ∀ c ∈ t.head?, c = '*')
      (rest : IsNoise s) : IsNoise ('/' :: (t ++ '*' :: '/' :: s))

theorem skipNoise_dashes (s : List Char) :
    skipNoise .code ('-' :: '-' :: s) = skipNoise .lineComment s := rfl

theorem skipNoise_inLine {t : List Char} (ht : '\n' ∉ t) (s : List Char) :
    skipNoise .lineComment (t ++ s) = skipNoise .lineComment s := by
  induction t with
  | nil => rfl
  | cons c t ih =>
    rw [List.mem_cons, not_or] at ht
    rw [List.cons_append, skipNoise, if_neg (Ne.symm ht.1), ih ht.2]

theorem skipNoise_line {t : List Char} (ht : '\n' ∉ t) (s : List Char) :
    skipNoise .code ('-' :: '-' :: (t ++ '\n' :: s)) = skipNoise .code s := by
  rw [skipNoise_dashes, skipNoise_inLine ht, skipNoise, if_pos rfl]

/-- Without the mark in it, a text leaves the reader in the comment, behind an asterisk or not. -/
theorem exists_skipNoise_inBlock {t : List Char} (ht : Unclosed t) {star : Bool}
    (hstar : star = true → t.head? ≠ some '/') :
    ∃ star', ∀ s, skipNoise (.blockComment star) (t ++ s) = skipNoise (.blockComment star') s := by
  induction t generalizing star with
  | nil => exact ⟨star, fun _ => rfl⟩
  | cons c t ih =>
    obtain ⟨hmark, ht⟩ := unclosed_cons.mp ht
    have hnext : (c == '*') = true → t.head? ≠ some '/' :=
      fun hc hhead => hmark ⟨beq_iff_eq.mp hc, hhead⟩
    obtain ⟨star', hstar'⟩ := ih ht hnext
    refine ⟨star', ?_⟩
    intro s
    rw [List.cons_append, skipNoise, if_neg, hstar']
    rw [Bool.and_eq_true, beq_iff_eq]
    rintro ⟨hafter, rfl⟩
    exact hstar hafter rfl

theorem skipNoise_slash {s : List Char} (h : s.head? = some '*') :
    skipNoise .code ('/' :: s) = skipNoise (.blockComment false) s := by
  rw [skipNoise, if_neg (by decide), if_neg (by simp), if_pos (by simp [h])]

theorem skipNoise_block {t : List Char} (ht : Unclosed t) (hstar : ∀ c ∈ t.head?, c = '*')
    (s : List Char) :
    skipNoise .code ('/' :: (t ++ '*' :: '/' :: s)) = skipNoise .code s := by
  have hhead : (t ++ '*' :: '/' :: s).head? = some '*' := by
    cases t with
    | nil => rfl
    | cons c t => rw [hstar c rfl]; rfl
  obtain ⟨star, hblock⟩ := exists_skipNoise_inBlock ht (fun h : false = true => nomatch h)
  rw [skipNoise_slash hhead, hblock, skipNoise, if_neg (by simp), skipNoise, if_pos (by simp)]

theorem skipNoise_blank {c : Char} (hc : Text.isBlank c = true ∨ c = '(') (s : List Char) :
    skipNoise .code (c :: s) = skipNoise .code s := by
  rw [skipNoise, if_pos (by simpa using hc)]

theorem IsNoise.skipNoise_append {u : List Char} (h : IsNoise u) (s : List Char) :
    skipNoise .code (u ++ s) = skipNoise .code s := by
  induction h with
  | nil => rfl
  | blank hc _ ih => rw [List.cons_append, skipNoise_blank hc, ih]
  | @lineComment t r ht _ ih => simpa [ih] using skipNoise_line ht (r ++ s)
  | @blockComment t r ht hstar _ ih => simpa [ih] using skipNoise_block ht hstar (r ++ s)

/-! ## Every other text -/

/-- What no noise starts with: letters. -/
def Letters (s : List Char) : Prop := s ≠ [] ∧ ∀ c ∈ s, c.isAlpha = true

instance : DecidablePred Letters := fun s =>
  decidable_of_iff (s ≠ [] ∧ s.all Char.isAlpha = true) (by rw [Letters, List.all_eq_true])

theorem Letters.not_mem {s : List Char} (h : Letters s) {c : Char} (hc : c.isAlpha = false) :
    c ∉ s := by
  intro hmem
  rw [h.2 c hmem] at hc
  exact nomatch hc

theorem Letters.head?_ne {s : List Char} (h : Letters s) {c : Char} (hc : c.isAlpha = false) :
    s.head? ≠ some c := by
  intro hhead
  exact h.not_mem hc (List.mem_of_head? hhead)

theorem head?_append_ne {t s : List Char} {c : Char} (ht : t.head? ≠ some c)
    (hs : s.head? ≠ some c) : (t ++ s).head? ≠ some c := by
  cases t with
  | nil => exact hs
  | cons d t => exact ht

theorem Unclosed.append {t s : List Char} (ht : Unclosed t) (hs : Letters s) :
    Unclosed (t ++ s) := by
  induction t with
  | nil =>
    rintro ⟨a, b, hab⟩
    apply hs.not_mem (c := '*') rfl
    rw [List.nil_append] at hab
    rw [← hab]
    simp
  | cons c t ih =>
    obtain ⟨hmark, ht⟩ := unclosed_cons.mp ht
    refine unclosed_cons.mpr ⟨?_, ih ht⟩
    rintro ⟨hc, hhead⟩
    exact head?_append_ne (fun h => hmark ⟨hc, h⟩) (hs.head?_ne rfl) hhead

theorem skipNoise_stop {c : Char} {s : List Char} (hblank : ¬ (Text.isBlank c = true ∨ c = '('))
    (hline : ¬ (c = '-' ∧ s.head? = some '-')) (hblock : ¬ (c = '/' ∧ s.head? = some '*')) :
    skipNoise .code (c :: s) = c :: s := by
  rw [skipNoise, if_neg (by simpa using hblank), if_neg (by simpa using hline),
    if_neg (by simpa using hblock)]

/-- The reader stops in the text, or in a comment that the text leaves open. -/
def Stops (u : List Char) : Prop :=
  (∃ r, r ≠ [] ∧ r <:+ u ∧ ∀ s, Letters s → skipNoise .code (u ++ s) = r ++ s) ∨
    ∀ s, Letters s → skipNoise .code (u ++ s) = []

theorem Stops.append {n u : List Char}
    (hn : ∀ s, skipNoise .code (n ++ s) = skipNoise .code s) (h : Stops u) : Stops (n ++ u) := by
  rcases h with ⟨r, hr, hsuffix, hstop⟩ | hopen
  · refine Or.inl ⟨r, hr, hsuffix.trans (List.suffix_append n u), ?_⟩
    intro s hs
    rw [List.append_assoc, hn, hstop s hs]
  · refine Or.inr ?_
    intro s hs
    rw [List.append_assoc, hn, hopen s hs]

theorem isNoise_or_stops_line {t : List Char}
    (ih : ∀ v, v.length < t.length → IsNoise v ∨ Stops v) :
    IsNoise ('-' :: '-' :: t) ∨ Stops ('-' :: '-' :: t) := by
  by_cases hend : '\n' ∈ t
  · obtain ⟨line, rest, rfl, hline⟩ := List.eq_append_cons_of_mem hend
    refine (ih rest (by simp; omega)).imp (.lineComment hline) ?_
    intro hrest
    have hstops := hrest.append (n := '-' :: '-' :: (line ++ ['\n'])) fun s => by
      simpa using skipNoise_line hline s
    simpa using hstops
  · refine Or.inr (Or.inr ?_)
    intro s hs
    have hopen : '\n' ∉ t ++ s := by simp [hend, hs.not_mem (c := '\n') rfl]
    rw [List.cons_append, List.cons_append, skipNoise_dashes, ← List.append_nil (t ++ s),
      skipNoise_inLine hopen]
    rfl

theorem isNoise_or_stops_block {t : List Char} (hstar : t.head? = some '*')
    (ih : ∀ v, v.length < t.length → IsNoise v ∨ Stops v) :
    IsNoise ('/' :: t) ∨ Stops ('/' :: t) := by
  rcases exists_unclosed t with ht | ⟨w, rest, rfl, hw⟩
  · refine Or.inr (Or.inr ?_)
    intro s hs
    have hstar : (t ++ s).head? = some '*' := by rw [List.head?_append, hstar]; rfl
    obtain ⟨star, hblock⟩ := exists_skipNoise_inBlock (ht.append hs)
      (fun h : false = true => nomatch h)
    rw [List.cons_append, skipNoise_slash hstar, ← List.append_nil (t ++ s), hblock]
    rfl
  · have hstar : ∀ c ∈ w.head?, c = '*' := by
      intro c hc
      rw [List.head?_append, Option.mem_def.mp hc] at hstar
      exact Option.some.inj hstar
    refine (ih rest (by simp; omega)).imp (.blockComment hw hstar) ?_
    intro hrest
    have hstops := hrest.append (n := '/' :: (w ++ ['*', '/'])) fun s => by
      simpa using skipNoise_block hw hstar s
    simpa using hstops

theorem isNoise_or_stops (u : List Char) : IsNoise u ∨ Stops u := by
  induction hlength : u.length using Nat.strong_induction_on generalizing u with
  | _ n ih =>
  subst hlength
  cases u with
  | nil => exact Or.inl .nil
  | cons c t =>
    have hshorter : ∀ v, v.length ≤ t.length → IsNoise v ∨ Stops v := by
      intro v hv
      exact ih v.length (by simp; omega) v rfl
    by_cases hblank : Text.isBlank c = true ∨ c = '('
    · refine (hshorter t le_rfl).imp (.blank hblank) ?_
      exact Stops.append (n := [c]) fun s => skipNoise_blank hblank s
    by_cases hline : c = '-' ∧ t.head? = some '-'
    · obtain ⟨rfl, hhead⟩ := hline
      obtain ⟨t, rfl⟩ := List.head?_eq_some_iff.mp hhead
      exact isNoise_or_stops_line fun v hv => hshorter v (by simp; omega)
    by_cases hblock : c = '/' ∧ t.head? = some '*'
    · obtain ⟨rfl, hhead⟩ := hblock
      exact isNoise_or_stops_block hhead fun v hv => hshorter v hv.le
    -- Letters behind the text open no comment with its last character.
    · refine Or.inr (Or.inl ⟨c :: t, by simp, List.suffix_rfl, ?_⟩)
      intro s hs
      apply skipNoise_stop hblank
      · rintro ⟨hc, hhead⟩
        exact head?_append_ne (fun h => hline ⟨hc, h⟩) (hs.head?_ne rfl) hhead
      · rintro ⟨hc, hhead⟩
        exact head?_append_ne (fun h => hblock ⟨hc, h⟩) (hs.head?_ne rfl) hhead

/-! ## No influence on the kind -/

/-- The kind of a text that no noise stands in front of. -/
def ofStart (s : List Char) : Kind :=
  if startsWith "SELECT" s then .select
  else if startsWith "WITH" s then (firstMain? .code 0 s).getD .select
  else if startsWith "INSERT" s then .insert
  else if startsWith "UPDATE" s then .update
  else if startsWith "DELETE" s then .delete
  else .other

theorem ofSql_eq_ofStart (s : List Char) :
    ofSql (String.ofList s) = ofStart (skipNoise .code s) := by
  unfold ofSql ofStart
  rw [String.toList_ofList]

theorem IsNoise.ofSql_append {u : List Char} (h : IsNoise u) (s : List Char) :
    ofSql (String.ofList (u ++ s)) = ofSql (String.ofList s) := by
  rw [ofSql_eq_ofStart, ofSql_eq_ofStart, h.skipNoise_append]

/-- The words that a statement of a kind of its own starts with. -/
def openers : List String := ["SELECT", "WITH", "INSERT", "UPDATE", "DELETE"]

theorem firstMain?_ne_other (place : Place) (depth : Nat) (s : List Char) :
    firstMain? place depth s ≠ some .other := by
  have hword : ∀ letters, ofWord? letters ≠ some .other := by
    intro letters h
    have hmem := List.mem_of_find?_eq_some h
    revert hmem
    decide
  induction s generalizing place depth with
  | nil =>
    cases place with
    | word letters => exact hword letters.reverse
    | _ => simp [firstMain?]
  | cons c s ih =>
    cases place with
    | word letters =>
      rw [firstMain?]
      split
      · exact ih _ _
      · split
        · next kind hkind => exact hkind ▸ hword letters.reverse
        · exact ih _ _
    | _ => exact ih _ _

theorem ofStart_eq_other_iff {s : List Char} :
    ofStart s = .other ↔ ∀ word ∈ openers, startsWith word s = false := by
  have hmain : (firstMain? .code 0 s).getD .select ≠ .other := by
    have hne := firstMain?_ne_other .code 0 s
    cases hkind : firstMain? .code 0 s with
    | none => simp
    | some kind =>
      rw [hkind] at hne
      simpa using hne
  unfold ofStart openers
  split_ifs <;> simp_all

/-- No opener goes on behind a slash. -/
theorem startsWith_slash {word : String} (hword : word ∈ openers) {u s : List Char}
    (h : startsWith word (u ++ '/' :: s) = true) (s' : List Char) :
    startsWith word (u ++ '/' :: s') = true := by
  have hslash : ∀ word ∈ openers, '/' ∉ word.toList := by decide
  obtain ⟨w, r, heq, hw⟩ := startsWith_iff.mp h
  have hmem : '/' ∉ w := by
    intro hmem
    apply hslash word hword
    rw [← hw]
    exact List.mem_map_of_mem (f := Char.toUpper) hmem
  rw [startsWith_iff]
  obtain ⟨a, rfl, ha⟩ | ⟨a, rfl, -⟩ := List.append_eq_append_iff.mp heq
  · cases a with
    | nil => exact ⟨u, '/' :: s', rfl, by simpa using hw⟩
    | cons c a =>
      rw [List.cons_append, List.cons.injEq] at ha
      simp [← ha.1] at hmem
  · exact ⟨w, a ++ '/' :: s', by simp, hw⟩

theorem not_stops_of_forall {u : List Char}
    (h : ∀ s, ofSql (String.ofList (u ++ '/' :: s)) = ofSql (String.ofList s)) :
    ¬ Stops (u ++ ['/']) := by
  have hdelete : ofSql (String.ofList (u ++ '/' :: "DELETE".toList)) = .delete := by
    rw [h]
    decide
  have hother : ofSql (String.ofList (u ++ '/' :: ['x'])) = .other := by
    rw [h]
    decide
  rw [ofSql_eq_ofStart] at hdelete hother
  rintro (⟨r, hr, hsuffix, hstop⟩ | hopen)
  · obtain ⟨v, rfl, -⟩ := (List.suffix_concat_iff.mp hsuffix).resolve_left hr
    have hskip : ∀ s, Letters s → skipNoise .code (u ++ '/' :: s) = v ++ '/' :: s := by
      intro s hs
      simpa using hstop s hs
    rw [hskip _ (by decide)] at hdelete hother
    rw [ofStart_eq_other_iff] at hother
    have hnot : ofStart (v ++ '/' :: "DELETE".toList) = .other := by
      rw [ofStart_eq_other_iff]
      intro word hword
      rw [Bool.eq_false_iff]
      intro hstarts
      have hstarts' := startsWith_slash hword hstarts ['x']
      rw [hother word hword] at hstarts'
      exact nomatch hstarts'
    rw [hnot] at hdelete
    exact nomatch hdelete
  · have hskip : skipNoise .code (u ++ '/' :: "DELETE".toList) = [] := by
      simpa using hopen "DELETE".toList (by decide)
    rw [hskip] at hdelete
    exact absurd hdelete (by decide)

/-- Only noise may stand in front of every text without changing its kind. -/
theorem isNoise_iff {u : List Char} : IsNoise (u ++ ['/']) ↔
    ∀ s, ofSql (String.ofList (u ++ '/' :: s)) = ofSql (String.ofList s) := by
  constructor
  · intro h s
    simpa using h.ofSql_append s
  · intro h
    exact (isNoise_or_stops _).resolve_right (not_stops_of_forall h)

end SqlComposer.Kind
