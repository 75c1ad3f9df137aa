import SqlComposer.Proofs.Noise

/-!
# Comments

A comment counts as a blank wherever the readers of a statement come through it as they came to it.
That is so for every line comment. It is so for a block comment in front of the statement unless it
starts with `/*/`, and for one in a WITH statement if the search passes its text.
-/

namespace SqlComposer.Kind

/-! ## Another text behind -/

/-- `x` starts like `r`, or with a blank. -/
def StartsLike (r x : List Char) : Prop := x.head? = r.head? ∨ x.head? = some ' '

theorem StartsLike.append {r x : List Char} (h : StartsLike r x) (m : List Char) :
    StartsLike (m ++ r) (m ++ x) := by
  cases m with
  | nil => exact h
  | cons c m => exact Or.inl rfl

theorem EndsWord.startsLike {r x : List Char} (hr : EndsWord r) (h : StartsLike r x) :
    EndsWord x := by
  unfold EndsWord at hr ⊢
  rcases h with h | h
  · rw [h]
    exact hr
  · rw [h]
    intro c hc
    obtain rfl := Option.some.inj hc
    rfl

theorem IsPlain.startsLike {c : Char} {r x : List Char} (hr : IsPlain c r) (h : StartsLike r x) :
    IsPlain c x := by
  obtain ⟨hopen, hclose, hsingle, hdouble, hcomment, hword⟩ := hr
  refine ⟨hopen, hclose, hsingle, hdouble, ?_, hword⟩
  rintro ⟨hc, hhead⟩
  rcases h with h | h
  · exact hcomment ⟨hc, h ▸ hhead⟩
  · rw [h] at hhead
    exact absurd hhead (by decide)

/-- The search does not look further than one character ahead. -/
theorem Scan.exists_swap {depth d : Nat} {s r : List Char} (h : Scan depth s d r) :
    ∃ m, s = m ++ r ∧ ∀ x, StartsLike r x → Scan depth (m ++ x) d x := by
  induction h with
  | nil depth r => exact ⟨[], rfl, fun x _ => .nil depth x⟩
  | @word _ _ w _ _ hw hs hmain _ ih =>
    obtain ⟨m, rfl, hm⟩ := ih
    refine ⟨w ++ m, by simp, ?_⟩
    intro x hx
    rw [List.append_assoc]
    exact .word hw (hs.startsLike (hx.append m)) hmain (hm x hx)
  | @quoted _ _ mark t _ _ hmark ht _ ih =>
    obtain ⟨m, rfl, hm⟩ := ih
    refine ⟨mark :: (t ++ mark :: m), by simp, ?_⟩
    intro x hx
    simpa using Scan.quoted hmark ht (hm x hx)
  | @lineComment _ _ t _ _ ht _ ih =>
    obtain ⟨m, rfl, hm⟩ := ih
    refine ⟨'-' :: '-' :: (t ++ '\n' :: m), by simp, ?_⟩
    intro x hx
    simpa using Scan.lineComment ht (hm x hx)
  | opening _ ih =>
    obtain ⟨m, rfl, hm⟩ := ih
    exact ⟨'(' :: m, rfl, fun x hx => .opening (hm x hx)⟩
  | closing _ ih =>
    obtain ⟨m, rfl, hm⟩ := ih
    exact ⟨')' :: m, rfl, fun x hx => .closing (hm x hx)⟩
  | @plain _ _ c _ _ hc _ ih =>
    obtain ⟨m, rfl, hm⟩ := ih
    exact ⟨c :: m, rfl, fun x hx => .plain (hc.startsLike (hx.append m)) (hm x hx)⟩

theorem Scan.swap {depth d : Nat} {s r x : List Char} (h : Scan depth (s ++ r) d r)
    (hx : StartsLike r x) : Scan depth (s ++ x) d x := by
  obtain ⟨m, heq, hm⟩ := h.exists_swap
  rw [List.append_cancel_right heq]
  exact hm x hx

/-!
## What happens in a text

The text is followed by a slash, the last character of a block comment. No word, no quotes and no
line comment go on from there, so what comes next does not change what happens before.
-/

/-- Nothing that ends a quoted text or a line comment. -/
def EndsNone (s : List Char) : Prop := '\'' ∉ s ∧ '"' ∉ s ∧ '\n' ∉ s

instance : DecidablePred EndsNone := fun _ => inferInstanceAs (Decidable (_ ∧ _))

/-- The search finds a kind in the text, or the text leaves quotes or a line comment open. -/
def Ends (depth : Nat) (u : List Char) : Prop :=
  (∃ kind, ∀ s, firstMain? .code depth (u ++ '/' :: s) = some kind) ∨
    ∀ s, EndsNone s → firstMain? .code depth (u ++ '/' :: s) = none

/-- The search passes the text, or it ends there. -/
def Settled (depth : Nat) (u : List Char) : Prop :=
  (∃ d, ∀ s, Scan depth (u ++ '/' :: s) d s) ∨ Ends depth u

theorem Settled.of_scan {depth d : Nat} {u v : List Char}
    (h : ∀ s, Scan depth (u ++ '/' :: s) d (v ++ '/' :: s)) (hv : Settled d v) :
    Settled depth u := by
  rcases hv with ⟨e, hscan⟩ | ⟨kind, hfound⟩ | hopen
  · exact Or.inl ⟨e, fun s => (h s).trans (hscan s)⟩
  · exact Or.inr (Or.inl ⟨kind, fun s => (h s).firstMain?_eq.trans (hfound s)⟩)
  · exact Or.inr (Or.inr fun s hs => (h s).firstMain?_eq.trans (hopen s hs))

theorem isPlain_slash (s : List Char) : IsPlain '/' s := by simp [IsPlain, startsWord]

theorem settled_quotes {mark : Char} (hmark : mark = '\'' ∨ mark = '"') {t : List Char}
    (ih : ∀ v, v.length < t.length → ∀ depth, Settled depth v) (depth : Nat) :
    Settled depth (mark :: t) := by
  by_cases hend : mark ∈ t
  · obtain ⟨q, v, rfl, hq⟩ := List.eq_append_cons_of_mem hend
    refine .of_scan (d := depth) (v := v) ?_ (ih v (by simp; omega) depth)
    intro s
    simpa using Scan.quoted hmark hq (Scan.nil depth (v ++ '/' :: s))
  · refine Or.inr (Or.inr ?_)
    intro s hs
    have hopen : mark ∉ t ++ '/' :: s := by
      rcases hmark with rfl | rfl
      · simp [hend, hs.1]
      · simp [hend, hs.2.1]
    rw [List.cons_append, firstMain?_mark hmark, ← List.append_nil (t ++ '/' :: s),
      firstMain?_inQuotes hopen]
    rfl

theorem settled_comment {t : List Char}
    (ih : ∀ v, v.length < t.length → ∀ depth, Settled depth v) (depth : Nat) :
    Settled depth ('-' :: '-' :: t) := by
  by_cases hend : '\n' ∈ t
  · obtain ⟨line, v, rfl, hline⟩ := List.eq_append_cons_of_mem hend
    refine .of_scan (d := depth) (v := v) ?_ (ih v (by simp; omega) depth)
    intro s
    simpa using Scan.lineComment hline (Scan.nil depth (v ++ '/' :: s))
  · refine Or.inr (Or.inr ?_)
    intro s hs
    have hopen : '\n' ∉ t ++ '/' :: s := by simp [hend, hs.2.2]
    rw [List.cons_append, List.cons_append, firstMain?_dashes, ← List.append_nil (t ++ '/' :: s),
      firstMain?_inComment hopen]
    rfl

theorem settled_word {w t : List Char} (hw : IsWord w) (ht : ∀ s, EndsWord (t ++ '/' :: s))
    {depth : Nat} (ih : Settled depth t) : Settled depth (w ++ t) := by
  by_cases hmain : depth = 0 ∧ ∃ kind, IsMain w kind
  · obtain ⟨rfl, kind, hkind⟩ := hmain
    refine Or.inr (Or.inl ⟨kind, ?_⟩)
    intro s
    rw [List.append_assoc]
    exact firstMain?_main hkind (ht s)
  · refine .of_scan (d := depth) (v := t) ?_ ih
    intro s
    rw [List.append_assoc]
    exact .word hw (ht s) (fun hzero kind hkind => hmain ⟨hzero, kind, hkind⟩) (.nil _ _)

theorem endsWord_dropWhile (t s : List Char) :
    EndsWord (t.dropWhile continuesWord ++ '/' :: s) := by
  have hhead := List.head?_dropWhile_not continuesWord t
  unfold EndsWord
  cases hrest : t.dropWhile continuesWord with
  | nil => simp [continuesWord]
  | cons c rest =>
    rw [hrest] at hhead
    simpa using hhead

theorem settled (depth : Nat) (u : List Char) : Settled depth u := by
  induction hlength : u.length using Nat.strong_induction_on generalizing depth u with
  | _ n ih =>
  subst hlength
  cases u with
  | nil => exact Or.inl ⟨depth, fun s => .plain (isPlain_slash s) (.nil depth s)⟩
  | cons c t =>
    have hshorter : ∀ v, v.length ≤ t.length → ∀ depth, Settled depth v := by
      intro v hv depth
      exact ih v.length (by simp; omega) depth v rfl
    by_cases hopen : c = '('
    · subst hopen
      exact .of_scan (fun s => .opening (.nil _ _)) (hshorter t le_rfl (depth + 1))
    by_cases hclose : c = ')'
    · subst hclose
      exact .of_scan (fun s => .closing (.nil _ _)) (hshorter t le_rfl (depth - 1))
    by_cases hmark : c = '\'' ∨ c = '"'
    · exact settled_quotes hmark (fun v hv => hshorter v hv.le) depth
    by_cases hcomment : c = '-' ∧ t.head? = some '-'
    · obtain ⟨rfl, hhead⟩ := hcomment
      obtain ⟨t, rfl⟩ := List.head?_eq_some_iff.mp hhead
      exact settled_comment (fun v hv => hshorter v (by simp; omega)) depth
    by_cases hword : startsWord c = true
    · have hw : IsWord (c :: t.takeWhile continuesWord) :=
        isWord_cons.mpr ⟨hword, fun a ha => List.mem_takeWhile_imp ha⟩
      have hsettled := settled_word hw (endsWord_dropWhile t)
        (hshorter _ (List.dropWhile_sublist _).length_le depth)
      rwa [List.cons_append, List.takeWhile_append_dropWhile] at hsettled
    · refine .of_scan (d := depth) (v := t) ?_ (hshorter t le_rfl depth)
      intro s
      refine .plain ⟨hopen, hclose, ?_, ?_, ?_, by simpa using hword⟩ (.nil _ _)
      · exact fun h => hmark (Or.inl h)
      · exact fun h => hmark (Or.inr h)
      · rintro ⟨hc, hhead⟩
        exact head?_append_ne (fun h => hcomment ⟨hc, h⟩) (by simp) hhead

/-! ## Texts that make no difference -/

theorem firstMain?_closings (k depth : Nat) (s : List Char) :
    firstMain? .code depth (List.replicate k ')' ++ s) = firstMain? .code (depth - k) s := by
  induction k generalizing depth with
  | zero => rfl
  | succ k ih =>
    rw [List.replicate_succ, List.cons_append, firstMain?_closing, ih, Nat.sub_sub, Nat.add_comm]

/-- A keyword that `k` parentheses are closed in front of. -/
def closedKeyword (k : Nat) (kind : Kind) : List Char :=
  List.replicate k ')' ++ kind.keyword.toList

theorem firstMain?_keyword {kind : Kind} (h : kind ∈ main) :
    firstMain? .code 0 kind.keyword.toList = some kind := by
  revert kind
  decide

theorem firstMain?_keyword_inside {kind : Kind} (h : kind ∈ main) (depth : Nat) :
    firstMain? .code (depth + 1) kind.keyword.toList = none := by
  have hletters : ∀ kind ∈ main, kind.keyword.toList.all continuesWord = true := by decide
  have hinside := firstMain?_wordInside (List.all_eq_true.mp (hletters kind h)) depth []
  rw [List.append_nil] at hinside
  rw [hinside]
  rfl

theorem firstMain?_closedKeyword {kind : Kind} (h : kind ∈ main) (k depth : Nat) :
    firstMain? .code depth (closedKeyword k kind) = if depth ≤ k then some kind else none := by
  unfold closedKeyword
  rw [firstMain?_closings]
  split
  · next hle => rw [Nat.sub_eq_zero_of_le hle, firstMain?_keyword h]
  · next hlt =>
    obtain ⟨d, hd⟩ := Nat.exists_eq_add_of_lt (Nat.lt_of_not_le hlt)
    rw [hd, show k + d + 1 - k = d + 1 by omega, firstMain?_keyword_inside h]

theorem endsNone_closedKeyword {kind : Kind} (h : kind ∈ main) (k : Nat) :
    EndsNone (closedKeyword k kind) := by
  have hkeyword : ∀ kind ∈ main, EndsNone kind.keyword.toList := by decide
  obtain ⟨hsingle, hdouble, hline⟩ := hkeyword kind h
  unfold EndsNone closedKeyword
  simp [hsingle, hdouble, hline]

/-- Only a text that the search passes without a change of depth has no influence on the kind. -/
theorem scan_iff {depth : Nat} {u : List Char} :
    (∀ s, Scan depth (u ++ '/' :: s) depth s) ↔
      ∀ s, (firstMain? .code depth (u ++ '/' :: s)).getD .select =
        (firstMain? .code depth s).getD .select := by
  constructor
  · intro h s
    rw [(h s).firstMain?_eq]
  · intro h
    have hdelete := h (closedKeyword depth .delete)
    rw [firstMain?_closedKeyword (by decide), if_pos le_rfl] at hdelete
    rcases settled depth u with ⟨d, hscan⟩ | ⟨kind, hfound⟩ | hopen
    · have hdepth : ∀ k, d ≤ k ↔ depth ≤ k := by
        intro k
        have hk := h (closedKeyword k .delete)
        rw [(hscan _).firstMain?_eq, firstMain?_closedKeyword (by decide),
          firstMain?_closedKeyword (by decide)] at hk
        by_cases hd : d ≤ k <;> by_cases hdepth : depth ≤ k <;> simp [hd, hdepth] at hk ⊢
      have hd : d = depth := le_antisymm ((hdepth depth).mpr le_rfl) ((hdepth d).mp le_rfl)
      exact hd ▸ hscan
    · have hinsert := h (closedKeyword depth .insert)
      rw [firstMain?_closedKeyword (by decide), if_pos le_rfl] at hinsert
      rw [hfound, Option.getD_some, Option.getD_some] at hinsert hdelete
      rw [hinsert] at hdelete
      exact nomatch hdelete
    · rw [hopen _ (endsNone_closedKeyword (by decide) depth)] at hdelete
      exact nomatch hdelete

/-! ## Comments -/

inductive Comment where
  | line (t : List Char) (ht : '\n' ∉ t)
  /-- A comment up to the first mark that ends it, behind the two characters that open it. -/
  | block (t : List Char) (ht : Unclosed t)

/-- Where in a statement a comment stands. -/
inductive Spot where
  | front
  /-- In a WITH statement, in front of the main keyword, at a depth of parentheses. -/
  | within (depth : Nat)
  /-- In a WITH statement, behind the main keyword. -/
  | behind

namespace Comment

def text : Comment → List Char
  | .line t _ => '-' :: '-' :: (t ++ ['\n'])
  | .block t _ => '/' :: '*' :: (t ++ ['*', '/'])

/-- The reader comes to the comment at the spot, and it is no part of anything else. -/
def StandsAt (c : Comment) (before : List Char) : Spot → Prop
  | .front => IsNoise before
  | .within depth =>
    ∃ noise s, before = noise ++ s ∧ IsNoise noise ∧ startsWith "WITH" s = true ∧
      Scan 0 (s ++ c.text) depth c.text
  | .behind =>
    ∃ noise s w r kind, before = noise ++ (s ++ (w ++ r)) ∧ IsNoise noise ∧
      startsWith "WITH" s = true ∧ Scan 0 (s ++ w) 0 w ∧ IsMain w kind ∧ EndsWord r

/-- The comment is no more than a blank to the reader that comes to it. -/
def Unnoticed : Comment → Spot → Prop
  | .line _ _, _ | _, .behind => True
  | .block t _, .front => t.head? ≠ some '/' ∨ IsNoise (t.tail ++ ['*', '/'])
  | .block t _, .within depth => ∀ s, Scan depth ('/' :: '*' :: (t ++ '*' :: '/' :: s)) depth s

theorem text_block_append {t : List Char} (ht : Unclosed t) (s : List Char) :
    (block t ht).text ++ s = '/' :: '*' :: (t ++ '*' :: '/' :: s) := by
  simp [text]

variable (c : Comment)

theorem startsLike (x after : List Char) (hx : x = c.text ∨ x = [' ']) :
    StartsLike c.text (x ++ after) := by
  rcases hx with rfl | rfl
  · left
    cases c with
    | line t ht => rfl
    | block t ht => rfl
  · exact Or.inr rfl

theorem endsWord_append {r x : List Char} (hr : EndsWord r) (after : List Char)
    (hx : x = c.text ∨ x = [' ']) : EndsWord (r ++ (x ++ after)) := by
  cases r with
  | nil =>
    have hc : EndsWord c.text := by
      cases c with
      | line t ht => simp [EndsWord, text, continuesWord]
      | block t ht => simp [EndsWord, text, continuesWord]
    exact hc.startsLike (c.startsLike x after hx)
  | cons a r => exact hr

/-! ### In front of a statement -/

theorem isNoise_line {t : List Char} (ht : '\n' ∉ t) : IsNoise (line t ht).text :=
  .lineComment ht .nil

theorem isNoise_block {t : List Char} (ht : Unclosed t) (hslash : t.head? ≠ some '/') :
    IsNoise (block t ht).text := by
  have hstar : Unclosed ('*' :: t) := unclosed_cons.mpr ⟨fun h => hslash h.2, ht⟩
  exact .blockComment hstar (by simp) .nil

theorem ofSql_blank (s : List Char) :
    ofSql (String.ofList (' ' :: s)) = ofSql (String.ofList s) :=
  (IsNoise.blank (Or.inl (by decide)) .nil).ofSql_append s

/-- To the reader a comment that starts with `/*/` ends there. -/
theorem ofSql_slash (t : List Char) :
    ofSql (String.ofList ('/' :: '*' :: '/' :: t)) = ofSql (String.ofList t) :=
  (IsNoise.blockComment (t := []) (by decide) (by simp) .nil).ofSql_append t

theorem unnoticed_front :
    c.Unnoticed .front ↔
      ∀ after, ofSql (String.ofList (c.text ++ after)) = ofSql (String.ofList after) := by
  cases c with
  | line t ht => exact iff_of_true trivial (isNoise_line ht).ofSql_append
  | block t ht =>
    by_cases hslash : t.head? = some '/'
    · obtain ⟨t, rfl⟩ := List.head?_eq_some_iff.mp hslash
      have hunnoticed : (block ('/' :: t) ht).Unnoticed .front ↔ IsNoise (t ++ ['*', '/']) := by
        simp [Unnoticed]
      have hnoise := isNoise_iff (u := t ++ ['*'])
      simp only [List.append_assoc, List.cons_append, List.nil_append] at hnoise
      rw [hunnoticed, hnoise]
      apply forall_congr'
      intro s
      rw [text_block_append, List.cons_append, ofSql_slash]
    · exact iff_of_true (Or.inl hslash) (isNoise_block ht hslash).ofSql_append

/-! ### In a WITH statement -/

theorem ofSql_reached {noise s x : List Char} {depth : Nat} (hnoise : IsNoise noise)
    (hwith : startsWith "WITH" s = true) (hscan : Scan 0 (s ++ x) depth x) :
    ofSql (String.ofList (noise ++ (s ++ x))) = (firstMain? .code depth x).getD .select := by
  obtain ⟨w, r, rfl, hw⟩ := startsWith_iff.mp hwith
  rw [hnoise.ofSql_append, ← hscan.firstMain?_eq, List.append_assoc, ofSql_eq_firstMain? hw]

theorem unnoticed_within (depth : Nat) :
    c.Unnoticed (.within depth) ↔
      ∀ after, (firstMain? .code depth (c.text ++ after)).getD .select =
        (firstMain? .code depth after).getD .select := by
  cases c with
  | line t ht =>
    refine iff_of_true trivial fun after => ?_
    have hline := firstMain?_lineComment ht depth after
    simp [text, hline]
  | block t ht =>
    have hscan := @scan_iff depth ('/' :: '*' :: (t ++ ['*']))
    simp only [List.append_assoc, List.cons_append, List.nil_append] at hscan
    simp only [Unnoticed, text_block_append, hscan]

theorem ofSql_behind {noise s w r x : List Char} {kind : Kind} (hnoise : IsNoise noise)
    (hwith : startsWith "WITH" s = true) (hscan : Scan 0 (s ++ w) 0 w) (hw : IsMain w kind)
    (hx : EndsWord (r ++ x)) :
    ofSql (String.ofList (noise ++ (s ++ (w ++ (r ++ x))))) = kind := by
  have hlike : StartsLike w (w ++ (r ++ x)) := by
    obtain ⟨a, t, rfl, -⟩ := hw.isWord
    exact Or.inl rfl
  rw [ofSql_reached hnoise hwith (hscan.swap hlike), firstMain?_main hw hx, Option.getD_some]

/-- A comment may be replaced by a blank, whatever follows, exactly if the reader that comes to it
takes no notice of it. -/
theorem ofSql_replaced_iff {before : List Char} {spot : Spot} (h : c.StandsAt before spot) :
    (∀ after, ofSql (String.ofList (before ++ (c.text ++ after))) =
      ofSql (String.ofList (before ++ ' ' :: after))) ↔ c.Unnoticed spot := by
  cases spot with
  | front =>
    have hnoise : IsNoise before := h
    simp only [hnoise.ofSql_append, ofSql_blank]
    exact c.unnoticed_front.symm
  | within depth =>
    obtain ⟨noise, s, rfl, hnoise, hwith, hscan⟩ := h
    have hreached : ∀ x after, x = c.text ∨ x = [' '] →
        ofSql (String.ofList (noise ++ (s ++ (x ++ after)))) =
          (firstMain? .code depth (x ++ after)).getD .select := by
      intro x after hx
      exact ofSql_reached hnoise hwith (hscan.swap (c.startsLike x after hx))
    rw [c.unnoticed_within]
    apply forall_congr'
    intro after
    have hblank : ofSql (String.ofList (noise ++ (s ++ ' ' :: after))) =
        (firstMain? .code depth after).getD .select := by
      rw [← firstMain?_plain (isPlain_blank after) depth]
      exact hreached [' '] after (Or.inr rfl)
    rw [List.append_assoc, List.append_assoc, hreached c.text after (Or.inl rfl), hblank]
  | behind =>
    obtain ⟨noise, s, w, r, kind, rfl, hnoise, hwith, hscan, hw, hr⟩ := h
    refine iff_of_true (fun after => ?_) ?_
    · have hkind : ∀ x, x = c.text ∨ x = [' '] →
          ofSql (String.ofList (noise ++ (s ++ (w ++ r)) ++ (x ++ after))) = kind := by
        intro x hx
        simpa using ofSql_behind hnoise hwith hscan hw (c.endsWord_append hr after hx)
      rw [hkind _ (Or.inl rfl)]
      exact (hkind [' '] (Or.inr rfl)).symm
    · cases c with
      | line t ht => exact trivial
      | block t ht => exact trivial

/-- A keyword in parentheses does not count, in a comment either. -/
theorem ofSql_replaced_delete :
    (block " (delete) ".toList (by decide)).StandsAt "WITH x ".toList (.within 0) ∧
      ∀ after, ofSql (String.ofList ("WITH x ".toList ++
          ((block " (delete) ".toList (by decide)).text ++ after))) =
        ofSql (String.ofList ("WITH x ".toList ++ ' ' :: after)) := by
  have hstands : (block " (delete) ".toList (by decide)).StandsAt "WITH x ".toList (.within 0) := by
    refine ⟨[], "WITH x ".toList, rfl, .nil, by decide, ?_⟩
    refine Items.scan (?_ : Items false _ _) (by simp)
    refine .spaced (w := ['W', 'I', 'T', 'H']) (by decide) (by decide) ?_
    exact .spaced (w := ['x']) (by decide) (by decide) (.nil _ _)
  have hunnoticed : (block " (delete) ".toList (by decide)).Unnoticed (.within 0) := by
    intro s
    refine Items.scan (?_ : Items false _ _) (by simp)
    have hstar : ∀ t, IsPlain '*' t := fun t => by simp [IsPlain, startsWord]
    refine .plain (isPlain_slash _) (.plain (hstar _) (.plain (isPlain_blank _) ?_))
    refine .group (s := ' ' :: '*' :: '/' :: s) ?_ ?_
    · exact .word (w := ['d', 'e', 'l', 'e', 't', 'e']) (by decide) (endsWord_closing _) (by simp)
        (.nil _ _)
    · exact .plain (isPlain_blank _) (.plain (hstar _) (.plain (isPlain_slash _) (.nil _ _)))
  exact ⟨hstands, (ofSql_replaced_iff _ hstands).mpr hunnoticed⟩

/-- A block comment that starts with a slash, and one with a keyword in it, change the kind. -/
theorem block_comments_noticed :
    ∃ slash keyword : Comment,
      slash.text = "/*/ select */".toList ∧ slash.StandsAt [] .front ∧
      ofSql (String.ofList ([] ++ (slash.text ++ " delete from t".toList))) = .select ∧
      ofSql (String.ofList ([] ++ ' ' :: " delete from t".toList)) = .delete ∧
      keyword.text = "/* delete */".toList ∧
      ofSql (String.ofList ("WITH x AS (SELECT 1) ".toList ++
        (keyword.text ++ " SELECT * FROM x".toList))) = .delete ∧
      ofSql (String.ofList ("WITH x AS (SELECT 1) ".toList ++
        ' ' :: " SELECT * FROM x".toList)) = .select := by
  refine ⟨.block "/ select ".toList (by decide), .block " delete ".toList (by decide), ?_⟩
  exact ⟨by decide, .nil, by decide, by decide, by decide, by decide, by decide⟩

end Comment

end SqlComposer.Kind
