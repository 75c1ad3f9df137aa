import SqlComposer.Proofs.Scan
import SqlComposer.Proofs.Scoping

/-!
# The main statement decides

Behind WITH come items: words, quoted text, line comments, other characters, and groups in
parentheses, which are made of items again. The first main keyword that is no part of a group gives
the kind. Without one the statement counts as a SELECT.
-/

namespace SqlComposer.Kind

/-! ## Items -/

/-- Text between marks: a mark in it is written twice. -/
def doubled (mark : Char) (t : List Char) : List Char :=
  t.flatMap fun c => if c = mark then [c, c] else [c]

/-- Items one after the other, from a text to what is left of it. Only `inside` of a group a word
may be a main keyword. -/
inductive Items : (inside : Bool) → List Char → List Char → Prop
  | nil (inside : Bool) (s : List Char) : Items inside s s
  | word {inside : Bool} {w s r : List Char} (hw : IsWord w) (hs : EndsWord s)
      (hmain : inside = false → ∀ kind, ¬ IsMain w kind) (rest : Items inside s r) :
      Items inside (w ++ s) r
  | quoted {inside : Bool} {mark : Char} {s r : List Char} (hmark : mark = '\'' ∨ mark = '"')
      (t : List Char) (rest : Items inside s r) :
      Items inside (mark :: (doubled mark t ++ mark :: s)) r
  | lineComment {inside : Bool} {t s r : List Char} (ht : '\n' ∉ t) (rest : Items inside s r) :
      Items inside ('-' :: '-' :: (t ++ '\n' :: s)) r
  | group {inside : Bool} {t s r : List Char} (inner : Items true t (')' :: s))
      (rest : Items inside s r) : Items inside ('(' :: t) r
  | plain {inside : Bool} {c : Char} {s r : List Char} (hc : IsPlain c s)
      (rest : Items inside s r) : Items inside (c :: s) r

/-- Items, then a main keyword and anything behind it, or items to the end. -/
inductive Leads : List Char → Kind → Prop
  | main {s w r : List Char} {kind : Kind} (items : Items false s (w ++ r)) (hw : IsMain w kind)
      (hr : EndsWord r) : Leads s kind
  | none {s : List Char} (items : Items false s []) : Leads s .select

theorem Items.trans {inside : Bool} {s r t : List Char} (h : Items inside s r)
    (h' : Items inside r t) : Items inside s t := by
  induction h with
  | nil => exact h'
  | word hw hs hmain _ ih => exact .word hw hs hmain (ih h')
  | quoted hmark u _ ih => exact .quoted hmark u (ih h')
  | lineComment ht _ ih => exact .lineComment ht (ih h')
  | group inner _ _ ih => exact .group inner (ih h')
  | plain hc _ ih => exact .plain hc (ih h')

theorem Items.spaced {inside : Bool} {w s r : List Char} (hw : IsWord w)
    (hmain : inside = false → ∀ kind, ¬ IsMain w kind) (rest : Items inside s r) :
    Items inside (w ++ ' ' :: s) r :=
  .word hw (endsWord_blank s) hmain (.plain (isPlain_blank s) rest)

/-- To the search a doubled mark ends a quoted text and starts the next one. -/
theorem Scan.doubled {depth d : Nat} {mark : Char} (hmark : mark = '\'' ∨ mark = '"')
    {s r : List Char} (rest : Scan depth s d r) (t : List Char) {u : List Char} (hu : mark ∉ u) :
    Scan depth (mark :: (u ++ Kind.doubled mark t ++ mark :: s)) d r := by
  induction t generalizing u with
  | nil =>
    rw [Kind.doubled, List.flatMap_nil, List.append_nil]
    exact .quoted hmark hu rest
  | cons c t ih =>
    unfold Kind.doubled at ih ⊢
    rw [List.flatMap_cons]
    by_cases hc : c = mark
    · subst hc
      have hrest := ih (u := []) List.not_mem_nil
      have hquoted := Scan.quoted hmark hu hrest
      simpa using hquoted
    · have hrest := ih (u := u ++ [c]) (by simp [hu, Ne.symm hc])
      rw [if_neg hc]
      simpa using hrest

/-- The search passes items without a change of depth. -/
theorem Items.scan {inside : Bool} {s r : List Char} (h : Items inside s r) {depth : Nat}
    (hdepth : depth = 0 ↔ inside = false) : Scan depth s depth r := by
  induction h generalizing depth with
  | nil => exact .nil _ _
  | word hw hs hmain _ ih =>
    exact .word hw hs (fun hzero => hmain (hdepth.mp hzero)) (ih hdepth)
  | quoted hmark t _ ih => exact Scan.doubled hmark (ih hdepth) t List.not_mem_nil
  | lineComment ht _ ih => exact .lineComment ht (ih hdepth)
  | @group _ t s _ _ _ ihinner ih =>
    have hinner : Scan (depth + 1) t (depth + 1) (')' :: s) := ihinner (by simp)
    exact .opening (hinner.trans (.closing (ih hdepth)))
  | plain hc _ ih => exact .plain hc (ih hdepth)

theorem Leads.firstMain?_eq {s : List Char} {kind : Kind} (h : Leads s kind) :
    (firstMain? .code 0 s).getD .select = kind := by
  cases h with
  | main items hw hr =>
    rw [(items.scan (by simp)).firstMain?_eq, firstMain?_main hw hr, Option.getD_some]
  | none items =>
    rw [(items.scan (by simp)).firstMain?_eq]
    rfl

/-! ## The first word of a statement -/

theorem startsWith_iff {word : String} {s : List Char} :
    startsWith word s = true ↔ ∃ w r, s = w ++ r ∧ w.map Char.toUpper = word.toList := by
  unfold startsWith
  rw [beq_iff_eq]
  constructor
  · intro h
    exact ⟨s.take word.length, s.drop word.length, (List.take_append_drop _ _).symm, h⟩
  · rintro ⟨w, r, rfl, hw⟩
    have hlength : word.length = w.length := by
      rw [← String.length_toList, ← hw, List.length_map]
    rw [hlength, List.take_left, hw]

/-- Two words that start one statement have the same first letter. -/
theorem startsWith_of_head_ne {word : String} {w s : List Char}
    (h : word.toList.head? ≠ (w.map Char.toUpper).head?) (hword : word.toList ≠ [])
    (hw : w ≠ []) : startsWith word (w ++ s) = false := by
  rw [Bool.eq_false_iff]
  intro hstarts
  obtain ⟨w', r, heq, hw'⟩ := startsWith_iff.mp hstarts
  obtain ⟨c, t, rfl⟩ := List.exists_cons_of_ne_nil hw
  cases w' with
  | nil => exact hword hw'.symm
  | cons c' t' =>
    rw [List.cons_append, List.cons_append, List.cons.injEq] at heq
    apply h
    rw [← hw', ← heq.1]
    rfl

/-- Nothing is skipped in front of a word. -/
theorem skipNoise_word {w : List Char} (hw : IsWord w) (s : List Char) :
    skipNoise .code (w ++ s) = w ++ s := by
  obtain ⟨c, t, rfl, hc, -⟩ := hw
  have hword := continuesWord_of_startsWord hc
  have hblank : Text.isBlank c = false := Text.isBlank_of_isWordChar hword
  have hopen : c ≠ '(' := ne_of_continuesWord hword rfl
  have hdash : c ≠ '-' := ne_of_continuesWord hword rfl
  have hslash : c ≠ '/' := ne_of_continuesWord hword rfl
  simp [skipNoise, hblank, hopen, hdash, hslash]

/-! ## WITH statements -/

theorem isWord_with {w : List Char} (hw : w.map Char.toUpper = "WITH".toList) : IsWord w := by
  apply isWord_of_letters
  · rintro rfl
    exact nomatch hw
  · rw [hw]
    decide

theorem not_isMain_with {w : List Char} (hw : w.map Char.toUpper = "WITH".toList) (kind : Kind) :
    ¬ IsMain w kind := by
  apply forall_not_isMain_iff.mpr
  rw [hw]
  decide

theorem ofSql_eq_firstMain? {w : List Char} (hw : w.map Char.toUpper = "WITH".toList)
    (s : List Char) :
    ofSql (String.ofList (w ++ s)) = (firstMain? .code 0 (w ++ s)).getD .select := by
  have hne : w ≠ [] := by
    rintro rfl
    exact nomatch hw
  have hselect : startsWith "SELECT" (w ++ s) = false :=
    startsWith_of_head_ne (by rw [hw]; decide) (by decide) hne
  have hwith : startsWith "WITH" (w ++ s) = true := startsWith_iff.mpr ⟨w, s, rfl, hw⟩
  unfold ofSql
  simp only [String.toList_ofList, skipNoise_word (isWord_with hw), hselect, hwith]
  rfl

/-- A text that starts with WITH has the kind of the statement it leads to. -/
theorem ofSql_with {w s : List Char} {kind : Kind} (hw : w.map Char.toUpper = "WITH".toList)
    (hs : EndsWord s) (h : Leads s kind) : ofSql (String.ofList (w ++ s)) = kind := by
  have hscan : Scan 0 (w ++ s) 0 s :=
    .word (isWord_with hw) hs (fun _ => not_isMain_with hw) (.nil 0 s)
  rw [ofSql_eq_firstMain? hw, hscan.firstMain?_eq, h.firstMain?_eq]

/-- Keywords and parentheses do not count in a group, in quotes and in comments. -/
theorem ofSql_with_group :
    EndsWord " d AS (delete '''(' --)\n) Insert u".toList ∧
      Leads " d AS (delete '''(' --)\n) Insert u".toList .insert ∧
      ofSql (String.ofList ("With".toList ++ " d AS (delete '''(' --)\n) Insert u".toList)) =
        .insert := by
  have htext : " d AS (delete '''(' --)\n) Insert u".toList =
      [' ', 'd', ' ', 'A', 'S', ' ', '(', 'd', 'e', 'l', 'e', 't', 'e', ' ', '\'', '\'', '\'', '(',
        '\'', ' ', '-', '-', ')', '\n', ')', ' ', 'I', 'n', 's', 'e', 'r', 't', ' ', 'u'] := by
    decide
  have hleads : Leads " d AS (delete '''(' --)\n) Insert u".toList .insert := by
    rw [htext]
    apply Leads.main (w := ['I', 'n', 's', 'e', 'r', 't']) (r := [' ', 'u'])
    · refine .plain (isPlain_blank _) (.spaced (w := ['d']) (by decide) (by decide) ?_)
      refine .spaced (w := ['A', 'S']) (by decide) (by decide) ?_
      refine .group (s := [' ', 'I', 'n', 's', 'e', 'r', 't', ' ', 'u']) ?_
        (.plain (isPlain_blank _) (.nil _ _))
      refine .spaced (w := ['d', 'e', 'l', 'e', 't', 'e']) (by decide) (by simp) ?_
      refine .quoted (Or.inl rfl) ['\'', '('] (.plain (isPlain_blank _) ?_)
      exact .lineComment (t := [')']) (by decide) (.nil _ _)
    · exact ⟨by decide, by decide⟩
    · exact endsWord_blank _
  have hstart : EndsWord " d AS (delete '''(' --)\n) Insert u".toList := by
    rw [htext]
    exact endsWord_blank _
  exact ⟨hstart, hleads, ofSql_with (by decide) hstart hleads⟩

end SqlComposer.Kind
