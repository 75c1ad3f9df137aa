import SqlComposer.Proofs.Bytes
import SqlComposer.Proofs.LetterCase

/-!
# The kind read from bytes

Where the text is stored in bytes, the kind is read with offsets: noise is cut off in front as often
as there is any, and the main keyword is searched byte by byte. No slice splits a character, both
loops end, and the kind is that of the text.
-/

namespace SqlComposer.Kind

/-! ## What the reader of characters skips -/

theorem skipNoise_trimStart (s : List Char) :
    skipNoise .code (Text.trimStart s) = skipNoise .code s := by
  induction s with
  | nil => rfl
  | cons c s ih =>
    rw [Text.trimStart, List.dropWhile_cons]
    split
    · next hblank => rw [skipNoise_blank (.inl hblank)]; exact ih
    · rfl

theorem Unclosed.concat_star {u : List Char} (h : Unclosed u) : Unclosed (u ++ ['*']) := by
  induction u with
  | nil => decide
  | cons c u ih =>
    obtain ⟨hmark, hu⟩ := unclosed_cons.mp h
    refine unclosed_cons.mpr ⟨?_, ih hu⟩
    rintro ⟨hc, hhead⟩
    exact head?_append_ne (fun h => hmark ⟨hc, h⟩) (by simp) hhead

theorem skipNoise_suffix (place : Noise) (s : List Char) : skipNoise place s <:+ s := by
  induction s generalizing place with
  | nil => exact List.suffix_refl _
  | cons c s ih =>
    have hrest : ∀ place, skipNoise place s <:+ c :: s := fun place =>
      (ih place).trans (List.suffix_cons c s)
    cases place with
    | code =>
      rw [skipNoise]
      split_ifs
      · exact hrest _
      · exact hrest _
      · exact hrest _
      · exact List.suffix_refl _
    | _ => exact hrest _

namespace ByteReader

/-! ## The reader of bytes -/

inductive Fault where
  /-- A slice that is out of the text, or begins or ends within a character. -/
  | slice
  /-- More steps than were allowed. -/
  | endless
deriving DecidableEq, Repr

def cut (n : Nat) (s : List Char) : Except Fault (List Char × List Char) :=
  match Text.splitAt? n s with
  | some parts => .ok parts
  | none => .error .slice

def sliceFrom (start : Nat) (s : List Char) : Except Fault (List Char) :=
  Prod.snd <$> cut start s

def slice (start stop : Nat) (s : List Char) : Except Fault (List Char) := do
  if start ≤ stop then sliceFrom start (← cut stop s).1 else throw .slice

/-- What stands behind the first place of a mark, if it has a place. -/
def behind? (mark s : List Char) : Except Fault (Option (List Char)) :=
  match Text.find? mark s with
  | some pos => some <$> sliceFrom (pos + (Text.bytes mark).length) s
  | none => return none

/-- What is left behind all noise, which is cut off in front piece by piece. -/
def strip : (steps : Nat) → List Char → Except Fault (List Char)
  | 0, _ => .error .endless
  | steps + 1, before => do
    let s := Text.trimStart before
    if ['-', '-'].isPrefixOf s then
      match ← behind? ['\n'] s with
      | some rest => strip steps rest
      | none => return []
    else if ['/', '*'].isPrefixOf s then
      match ← behind? ['*', '/'] s with
      | some rest => strip steps rest
      | none => return []
    else
      match s with
      | '(' :: rest => strip steps rest
      | s => if s = before then return s else strip steps s

/-- Whether two texts are the same but for the case of letters. -/
def sameLetters (s t : List Char) : Bool := s.map Char.toLower == t.map Char.toLower

def startsWith (word : String) (s : List Char) : Bool :=
  match Text.splitAt? (Text.bytes word.toList).length s with
  | some (front, _) => sameLetters front word.toList
  | none => false

/-- The offset behind the bytes that pass a test, from `i` on. -/
def skip (p : Char → Bool) (s : List Char) (i : Nat) : Nat :=
  i + (((Text.bytes s).drop i).takeWhile p).length

/-- The kind whose keyword is the word at `i`. -/
def wordAt? (s : List Char) (i : Nat) : Except Fault (Option Kind) := do
  let word ← slice i (skip continuesWord s i) s
  return main.find? fun kind => sameLetters word kind.keyword.toList

/-- What the search comes to at one place: its result, or the next place and its depth. -/
inductive Move where
  | found (kind : Kind)
  | on (i depth : Nat)

def move (s : List Char) (i depth : Nat) : Except Fault Move :=
  match (Text.bytes s)[i]? with
  | none => return .found .select
  | some b =>
    if b = '(' then return .on (i + 1) (depth + 1)
    else if b = ')' then return .on (i + 1) (depth - 1)
    else if b = '\'' ∨ b = '"' then return .on (skip (· != b) s (i + 1) + 1) depth
    else if b = '-' ∧ (Text.bytes s)[i + 1]? = some '-' then
      return .on (skip (· != '\n') s i + 1) depth
    else if depth = 0 ∧ startsWord b then do
      match ← wordAt? s i with
      | some kind => return .found kind
      | none => return .on (skip continuesWord s i) depth
    else return .on (i + 1) depth

/-- The first main keyword outside parentheses, quotes and line comments, from `i` on. -/
def search (s : List Char) : (steps i depth : Nat) → Except Fault Kind
  | 0, _, _ => .error .endless
  | steps + 1, i, depth => do
    match ← move s i depth with
    | .found kind => return kind
    | .on i depth => search s steps i depth

def ofSql (steps : Nat) (sql : String) : Except Fault Kind := do
  let s ← strip steps sql.toList
  if startsWith "SELECT" s then return .select
  else if startsWith "WITH" s then search s steps 0 0
  else if startsWith "INSERT" s then return .insert
  else if startsWith "UPDATE" s then return .update
  else if startsWith "DELETE" s then return .delete
  else return .other

/-! ## Slices between characters -/

variable {s u v w : List Char}

theorem cut_append (u v : List Char) : cut (Text.bytes u).length (u ++ v) = .ok (u, v) := by
  rw [cut, Text.splitAt?_append]

theorem sliceFrom_append (u v : List Char) : sliceFrom (Text.bytes u).length (u ++ v) = .ok v := by
  rw [sliceFrom, cut_append]
  rfl

theorem slice_append (u w v : List Char) :
    slice (Text.bytes u).length (Text.bytes (u ++ w)).length (u ++ w ++ v) = .ok w := by
  have hle : (Text.bytes u).length ≤ (Text.bytes (u ++ w)).length := by
    simp [Text.bytes_append]
  rw [slice, if_pos hle, cut_append]
  exact sliceFrom_append u w

theorem behind?_append {mark : List Char} (hne : mark ≠ [])
    (h : ¬ mark <:+: u ++ mark.dropLast) (rest : List Char) :
    behind? mark (u ++ (mark ++ rest)) = .ok (some rest) := by
  rw [behind?, Text.find?_append hne h]
  simp only
  rw [← List.length_append, ← Text.bytes_append, ← List.append_assoc, sliceFrom_append]
  rfl

theorem behind?_eq_none {mark : List Char} (h : ¬ mark <:+: s) : behind? mark s = .ok none := by
  rw [behind?, Text.find?_eq_none h]
  rfl

/-! ## Noise -/

variable {before rest : List Char} {steps : Nat}

theorem strip_line (h : Text.trimStart before = '-' :: '-' :: u)
    (ih : ∀ r, r.length < u.length → strip steps r = .ok (skipNoise .code r)) :
    strip (steps + 1) before = .ok (skipNoise .code before) := by
  rw [← skipNoise_trimStart, strip, h, if_pos (by rfl)]
  by_cases hend : '\n' ∈ u
  · obtain ⟨line, rest, rfl, hline⟩ := List.eq_append_cons_of_mem hend
    have hfirst : ¬ ['\n'] <:+: '-' :: '-' :: line ++ ['\n'].dropLast := by
      simpa [List.singleton_infix_iff] using hline
    have hbehind := behind?_append (by simp) hfirst rest
    simp only [List.cons_append, List.nil_append] at hbehind
    rw [hbehind, skipNoise_line hline]
    exact ih rest (by simp; omega)
  · have hbehind : behind? ['\n'] ('-' :: '-' :: u) = .ok none :=
      behind?_eq_none (by simpa [List.singleton_infix_iff] using hend)
    rw [hbehind, skipNoise_dashes, ← List.append_nil u, skipNoise_inLine hend]
    rfl

theorem strip_block (h : Text.trimStart before = '/' :: '*' :: u)
    (ih : ∀ r, r.length < u.length → strip steps r = .ok (skipNoise .code r)) :
    strip (steps + 1) before = .ok (skipNoise .code before) := by
  rw [← skipNoise_trimStart, strip, h, if_neg (by simp), if_pos (by rfl)]
  have hmark : ['*', '/'] ≠ [] := by simp
  rcases exists_unclosed ('*' :: u) with hopen | ⟨w, rest, hw, hclosed⟩
  · have hslash : ¬ ['*', '/'] <:+: '/' :: '*' :: u := unclosed_cons.mpr ⟨by simp, hopen⟩
    rw [behind?_eq_none hslash, skipNoise_slash rfl]
    obtain ⟨star, hblock⟩ := exists_skipNoise_inBlock hopen (fun h => absurd h Bool.false_ne_true)
    rw [← List.append_nil ('*' :: u), hblock]
    rfl
  · have hslash : ¬ ['*', '/'] <:+: '/' :: w ++ ['*', '/'].dropLast :=
      unclosed_cons.mpr ⟨by simp, hclosed.concat_star⟩
    have hstar : ∀ c ∈ w.head?, c = '*' := by
      intro c hc
      cases w with
      | nil => simp at hc
      | cons d w =>
        rw [List.cons_append, List.cons.injEq] at hw
        rw [Option.mem_def, List.head?_cons, Option.some_inj] at hc
        rw [← hc, ← hw.1]
    have hlength := congrArg List.length hw
    simp only [List.length_cons, List.length_append] at hlength
    have hbehind := behind?_append hmark hslash rest
    simp only [List.cons_append, List.nil_append] at hbehind
    rw [hw, hbehind, skipNoise_block hclosed hstar]
    exact ih rest (by omega)

/-- Each step but the last one shortens the text. -/
theorem strip_eq (s : List Char) (h : s.length < steps) :
    strip steps s = .ok (skipNoise .code s) := by
  induction steps generalizing s with
  | zero => exact absurd h (Nat.not_lt_zero _)
  | succ steps ih =>
    have hlength : (Text.trimStart s).length ≤ s.length :=
      (List.dropWhile_suffix Text.isBlank).length_le
    by_cases hline : ['-', '-'] <+: Text.trimStart s
    · obtain ⟨u, hu⟩ := hline
      have htrim : Text.trimStart s = '-' :: '-' :: u := hu.symm
      refine strip_line htrim fun r hr => ih r ?_
      simp only [htrim, List.length_cons] at hlength
      omega
    by_cases hblock : ['/', '*'] <+: Text.trimStart s
    · obtain ⟨u, hu⟩ := hblock
      have htrim : Text.trimStart s = '/' :: '*' :: u := hu.symm
      refine strip_block htrim fun r hr => ih r ?_
      simp only [htrim, List.length_cons] at hlength
      omega
    rw [← skipNoise_trimStart, strip, if_neg (by simpa using hline),
      if_neg (by simpa using hblock)]
    split
    · next rest hopen =>
      rw [hopen, List.length_cons] at hlength
      rw [hopen, skipNoise_blank (.inr rfl)]
      exact ih rest (by omega)
    · next hopen =>
      split
      · next hsame =>
        rw [hsame] at hline hblock hopen ⊢
        cases s with
        | nil => rfl
        | cons c r =>
          have hvisible : ¬ Text.isBlank c = true :=
            List.dropWhile_eq_self_iff.mp hsame (Nat.succ_pos r.length)
          refine congrArg Except.ok (skipNoise_stop ?_ ?_ ?_).symm
          · rintro (hblank | rfl)
            · exact hvisible hblank
            · exact hopen r rfl
          · rintro ⟨rfl, hhead⟩
            obtain ⟨r, rfl⟩ := List.head?_eq_some_iff.mp hhead
            exact hline ⟨r, rfl⟩
          · rintro ⟨rfl, hhead⟩
            obtain ⟨r, rfl⟩ := List.head?_eq_some_iff.mp hhead
            exact hblock ⟨r, rfl⟩
      · next hsame =>
        have hshorter : (Text.trimStart s).length ≠ s.length := fun heq =>
          hsame ((List.dropWhile_suffix Text.isBlank).eq_of_length heq)
        exact ih _ (by omega)

/-! ## Words -/

theorem sameLetters_eq {t : List Char} (ht : t.map Char.toUpper = t) (s : List Char) :
    sameLetters s t = (s.map Char.toUpper == t) := by
  have hupper : ∀ u : List Char, (u.map Char.toLower).map Char.toUpper = u.map Char.toUpper := by
    simp
  have hlower : ∀ u : List Char, (u.map Char.toUpper).map Char.toLower = u.map Char.toLower := by
    simp
  rw [sameLetters, Bool.eq_iff_iff, beq_iff_eq, beq_iff_eq]
  constructor
  · intro h
    rw [← hupper s, h, hupper, ht]
  · rintro rfl
    exact (hlower s).symm

theorem utf8Size_toUpper (c : Char) : c.toUpper.utf8Size = c.utf8Size := by
  cases h : c.isAlpha with
  | false => rw [toUpper_of_not_isAlpha h]
  | true =>
    have hword := continuesWord_of_isAlpha h
    have hupper := (continuesWord_toUpper c).trans hword
    rw [Text.utf8Size_of_ascii (Text.toNat_lt_of_isWordChar hword),
      Text.utf8Size_of_ascii (Text.toNat_lt_of_isWordChar hupper)]

theorem length_bytes_toUpper (s : List Char) :
    (Text.bytes (s.map Char.toUpper)).length = (Text.bytes s).length := by
  induction s with
  | nil => rfl
  | cons c s ih =>
    rw [List.map_cons, Text.length_bytes_cons, Text.length_bytes_cons, ih, utf8Size_toUpper]

theorem startsWith_eq {word : String} (hword : word.toList.map Char.toUpper = word.toList)
    (s : List Char) : startsWith word s = Kind.startsWith word s := by
  rw [Bool.eq_iff_iff, startsWith_iff]
  constructor
  · intro h
    unfold startsWith at h
    split at h
    · next front rest hsplit =>
      obtain ⟨rfl, -⟩ := Text.splitAt?_eq_some_iff.mp hsplit
      rw [sameLetters_eq hword, beq_iff_eq] at h
      exact ⟨front, rest, rfl, h⟩
    · exact nomatch h
  · rintro ⟨w, r, rfl, hw⟩
    have hlength : (Text.bytes word.toList).length = (Text.bytes w).length := by
      rw [← hw, length_bytes_toUpper]
    unfold startsWith
    rw [hlength, Text.splitAt?_append]
    simp [sameLetters_eq hword, hw]

/-! ## One place -/

theorem getElem?_bytes (u v : List Char) :
    (Text.bytes (u ++ v))[(Text.bytes u).length]? = (Text.bytes v).head? := by
  rw [Text.bytes_append, List.getElem?_append_right le_rfl, Nat.sub_self, List.head?_eq_getElem?]

/-- A test that does not tell the characters beyond ASCII apart. -/
def Uniform (p : Char → Bool) : Prop := ∃ other, ∀ c : Char, 128 ≤ c.toNat → p c = other

theorem skip_eq {p : Char → Bool} (hp : Uniform p) (u v : List Char) :
    skip p (u ++ v) (Text.bytes u).length = (Text.bytes (u ++ v.takeWhile p)).length := by
  obtain ⟨other, hother⟩ := hp
  rw [skip, Text.bytes_append, List.drop_left, Text.takeWhile_bytes other hother,
    Text.bytes_append, List.length_append]

theorem uniform_ne {m : Char} (hm : m.toNat < 128) : Uniform (· != m) := by
  refine ⟨true, fun c hc => ?_⟩
  rw [bne_iff_ne]
  rintro rfl
  omega

theorem uniform_continuesWord : Uniform continuesWord := by
  refine ⟨false, fun c hc => ?_⟩
  rw [Bool.eq_false_iff]
  intro hword
  exact absurd (Text.toNat_lt_of_isWordChar hword) (Nat.not_lt.mpr hc)

variable {c m : Char} {t : List Char}

theorem forall_bne (h : m ∉ w) : ∀ c ∈ w, (c != m) = true := by
  intro c hc
  rw [bne_iff_ne]
  rintro rfl
  exact h hc

/-- Behind the next place of a mark, if there is one. -/
theorem skip_ne (hm : m.toNat < 128) (hw : m ∉ w) (u r : List Char) :
    skip (· != m) (u ++ (w ++ m :: r)) (Text.bytes u).length + 1 =
      (Text.bytes (u ++ (w ++ [m]))).length := by
  rw [skip_eq (uniform_ne hm), List.takeWhile_append_of_pos (forall_bne hw),
    List.takeWhile_cons_of_neg (by simp), List.append_nil, ← List.append_assoc,
    Text.length_bytes_concat hm]

theorem skip_ne_of_not_mem (hm : m.toNat < 128) (ht : m ∉ t) (u : List Char) :
    skip (· != m) (u ++ t) (Text.bytes u).length = (Text.bytes (u ++ t)).length := by
  rw [skip_eq (uniform_ne hm), List.takeWhile_eq_self_iff.mpr (forall_bne ht)]

theorem isPlain_of_not_ascii (hc : 128 ≤ c.toNat) (s : List Char) : IsPlain c s := by
  have hne : ∀ m : Char, m.toNat < 128 → c ≠ m := by
    rintro m hm rfl
    omega
  refine ⟨hne _ (by decide), hne _ (by decide), hne _ (by decide), hne _ (by decide),
    fun h => hne _ (by decide) h.1, ?_⟩
  rw [Bool.eq_false_iff]
  intro h
  exact absurd (Text.toNat_lt_of_isWordChar (continuesWord_of_startsWord h)) (Nat.not_lt.mpr hc)

theorem ne_of_startsWord (hc : startsWord c = true) :
    c ≠ '(' ∧ c ≠ ')' ∧ ¬ (c = '\'' ∨ c = '"') ∧ c ≠ '-' := by
  refine ⟨?_, ?_, ?_, ?_⟩
  · rintro rfl
    exact nomatch hc
  · rintro rfl
    exact nomatch hc
  · rintro (rfl | rfl)
    · exact nomatch hc
    · exact nomatch hc
  · rintro rfl
    exact nomatch hc

/-- What the search sees where a character of ASCII stands. -/
theorem move_ascii (hc : c.toNat < 128) (u t : List Char) (depth : Nat) :
    let s := u ++ c :: t
    let i := (Text.bytes u).length
    let next := (Text.bytes (u ++ [c])).length
    move s i depth =
      if c = '(' then return .on next (depth + 1)
      else if c = ')' then return .on next (depth - 1)
      else if c = '\'' ∨ c = '"' then return .on (skip (· != c) s next + 1) depth
      else if c = '-' ∧ t.head? = some '-' then return .on (skip (· != '\n') s i + 1) depth
      else if depth = 0 ∧ startsWord c then do
        match ← wordAt? s i with
        | some kind => return .found kind
        | none => return .on (skip continuesWord s i) depth
      else return .on next depth := by
  intro s i next
  have hbyte : (Text.bytes s)[i]? = some c := by
    rw [getElem?_bytes, Text.bytes_cons, Text.bytes_of_ascii hc]
    rfl
  have hnext : next = i + 1 := Text.length_bytes_concat hc u
  have hdash : (Text.bytes s)[next]? = some '-' ↔ t.head? = some '-' := by
    have hs : s = (u ++ [c]) ++ t := by simp [s]
    rw [hs, getElem?_bytes, Text.head?_bytes_eq_iff (by decide)]
  rw [move, hbyte]
  simp only [← hnext, hdash]

theorem move_plain {s : List Char} {i : Nat} (hbyte : (Text.bytes s)[i]? = some c)
    (hc : IsPlain c ((Text.bytes s).drop (i + 1))) (depth : Nat) :
    move s i depth = .ok (.on (i + 1) depth) := by
  obtain ⟨hopen, hclose, hsingle, hdouble, hcomment, hword⟩ := hc
  rw [List.head?_drop] at hcomment
  rw [move, hbyte]
  simp only
  rw [if_neg hopen, if_neg hclose, if_neg (by simp [hsingle, hdouble]), if_neg hcomment,
    if_neg (by simp [hword])]
  rfl

theorem find?_sameLetters (w : List Char) :
    main.find? (fun kind => sameLetters w kind.keyword.toList) = ofWord? (w.map Char.toUpper) := by
  have hkeyword : ∀ kind : Kind, kind.keyword.toList.map Char.toUpper = kind.keyword.toList := by
    intro kind
    cases kind <;> decide
  unfold ofWord?
  congr 1
  funext kind
  rw [sameLetters_eq (hkeyword kind), Bool.beq_comm]

theorem takeWhile_word {w r : List Char} (hw : IsWord w) (hr : EndsWord r) :
    (w ++ r).takeWhile continuesWord = w := by
  obtain ⟨c, t, rfl, hc, ht⟩ := hw
  have hword : ∀ a ∈ c :: t, continuesWord a = true :=
    List.forall_mem_cons.mpr ⟨continuesWord_of_startsWord hc, ht⟩
  have hrest : r.takeWhile continuesWord = [] := by
    cases r with
    | nil => rfl
    | cons d r => exact List.takeWhile_cons_of_neg (by simp [hr d rfl])
  rw [List.takeWhile_append_of_pos hword, hrest, List.append_nil]

theorem exists_word (hc : startsWord c = true) (t : List Char) :
    ∃ w r, c :: t = w ++ r ∧ r.length ≤ t.length ∧ IsWord w ∧ EndsWord r := by
  refine ⟨c :: t.takeWhile continuesWord, t.dropWhile continuesWord, ?_,
    (List.dropWhile_suffix continuesWord).length_le,
    isWord_cons.mpr ⟨hc, fun a ha => List.mem_takeWhile_imp ha⟩, fun d hd => ?_⟩
  · rw [List.cons_append, List.takeWhile_append_dropWhile]
  · have hhead := List.head?_dropWhile_not continuesWord t
    rw [Option.mem_def.mp hd] at hhead
    simpa using hhead

/-- A word is taken whole, and with nothing else. -/
theorem wordAt?_eq {w r : List Char} (hw : IsWord w) (hr : EndsWord r) (u : List Char) :
    wordAt? (u ++ (w ++ r)) (Text.bytes u).length = .ok (ofWord? (w.map Char.toUpper)) := by
  have hslice := slice_append u w r
  rw [List.append_assoc] at hslice
  rw [wordAt?, skip_eq uniform_continuesWord, takeWhile_word hw hr, hslice, ← find?_sameLetters]
  rfl

theorem move_word {w r : List Char} (hw : IsWord w) (hr : EndsWord r) (u : List Char) :
    move (u ++ (w ++ r)) (Text.bytes u).length 0 =
      .ok (match ofWord? (w.map Char.toUpper) with
        | some kind => Move.found kind
        | none => Move.on (Text.bytes (u ++ w)).length 0) := by
  have hword := wordAt?_eq hw hr u
  have hskip := skip_eq uniform_continuesWord u (w ++ r)
  rw [takeWhile_word hw hr] at hskip
  obtain ⟨c, t, rfl, hc, -⟩ := hw
  have hascii := Text.toNat_lt_of_isWordChar (continuesWord_of_startsWord hc)
  obtain ⟨hopen, hclose, hquote, hdash⟩ := ne_of_startsWord hc
  rw [List.cons_append] at hword hskip ⊢
  rw [move_ascii hascii, if_neg hopen, if_neg hclose, if_neg hquote, if_neg (hdash ·.1),
    if_pos ⟨rfl, hc⟩, hword, hskip]
  cases ofWord? ((c :: t).map Char.toUpper) <;> rfl

theorem move_wordInside (hc : startsWord c = true) (u t : List Char) (depth : Nat) :
    move (u ++ c :: t) (Text.bytes u).length (depth + 1) =
      .ok (.on (Text.bytes (u ++ [c])).length (depth + 1)) := by
  have hascii := Text.toNat_lt_of_isWordChar (continuesWord_of_startsWord hc)
  obtain ⟨hopen, hclose, hquote, hdash⟩ := ne_of_startsWord hc
  rw [move_ascii hascii, if_neg hopen, if_neg hclose, if_neg hquote, if_neg (hdash ·.1),
    if_neg (by simp)]
  rfl

/-! ## The search for a main keyword -/

theorem search_on {s : List Char} {i j depth d : Nat} (h : move s i depth = .ok (.on j d))
    (steps : Nat) : search s (steps + 1) i depth = search s steps j d := by
  rw [search, h]
  rfl

theorem search_found {s : List Char} {i depth : Nat} {kind : Kind}
    (h : move s i depth = .ok (.found kind)) {steps : Nat} (hsteps : 0 < steps) :
    search s steps i depth = .ok kind := by
  obtain ⟨steps, rfl⟩ := Nat.exists_eq_add_one.mpr hsteps
  rw [search, h]
  rfl

theorem search_past {s : List Char} {i : Nat} (h : (Text.bytes s).length ≤ i) {steps : Nat}
    (hsteps : 0 < steps) (depth : Nat) : search s steps i depth = .ok .select := by
  refine search_found ?_ hsteps
  rw [move, List.getElem?_eq_none h]
  rfl

/-- From here on, the search finds what the search in the characters does. -/
def Reads (r : List Char) : Prop :=
  ∀ u depth steps, (Text.bytes r).length < steps →
    search (u ++ r) steps (Text.bytes u).length depth =
      .ok ((firstMain? .code depth r).getD .select)

theorem Reads.behind {r : List Char} (h : Reads r) (u v : List Char) (depth : Nat) {steps : Nat}
    (hsteps : (Text.bytes r).length < steps) :
    search (u ++ (v ++ r)) steps (Text.bytes (u ++ v)).length depth =
      .ok ((firstMain? .code depth r).getD .select) := by
  rw [← List.append_assoc]
  exact h (u ++ v) depth steps hsteps

theorem reads_nil : Reads [] := by
  intro u depth steps hsteps
  rw [List.append_nil, search_past le_rfl (Nat.zero_lt_of_lt hsteps)]
  rfl

/-- A move that passes as much as the search in the characters does. -/
theorem search_of_move {u v r : List Char} {depth d steps : Nat} (hr : Reads r) (hv : v ≠ [])
    (hmove : move (u ++ (v ++ r)) (Text.bytes u).length depth =
      .ok (.on (Text.bytes (u ++ v)).length d))
    (hfound : firstMain? .code depth (v ++ r) = firstMain? .code d r)
    (hsteps : (Text.bytes (v ++ r)).length < steps) :
    search (u ++ (v ++ r)) steps (Text.bytes u).length depth =
      .ok ((firstMain? .code depth (v ++ r)).getD .select) := by
  obtain ⟨steps, rfl⟩ := Nat.exists_eq_add_one.mpr (Nat.zero_lt_of_lt hsteps)
  have hpos : 0 < (Text.bytes v).length :=
    (List.length_pos_iff.mpr hv).trans_le (Text.length_le_bytes v)
  rw [Text.bytes_append, List.length_append] at hsteps
  rw [search_on hmove, hfound]
  exact hr.behind u v d (by omega)

/-- A move past the end, where nothing is left to be found. -/
theorem search_of_move_past {u s : List Char} {depth d j steps : Nat} (hs : s ≠ [])
    (hmove : move (u ++ s) (Text.bytes u).length depth = .ok (.on j d))
    (hpast : (Text.bytes (u ++ s)).length ≤ j) (hfound : firstMain? .code depth s = none)
    (hsteps : (Text.bytes s).length < steps) :
    search (u ++ s) steps (Text.bytes u).length depth =
      .ok ((firstMain? .code depth s).getD .select) := by
  obtain ⟨steps, rfl⟩ := Nat.exists_eq_add_one.mpr (Nat.zero_lt_of_lt hsteps)
  have hpos : 0 < (Text.bytes s).length :=
    (List.length_pos_iff.mpr hs).trans_le (Text.length_le_bytes s)
  rw [search_on hmove, hfound, search_past hpast (by omega)]
  rfl

theorem reads_opening (h : Reads t) : Reads ('(' :: t) := by
  intro u depth steps hsteps
  have hmove : move (u ++ '(' :: t) (Text.bytes u).length depth =
      .ok (.on (Text.bytes (u ++ ['('])).length (depth + 1)) := by
    rw [move_ascii (by decide), if_pos rfl]
    rfl
  exact search_of_move (v := ['(']) h (by simp) hmove (firstMain?_opening depth t) hsteps

theorem reads_closing (h : Reads t) : Reads (')' :: t) := by
  intro u depth steps hsteps
  have hmove : move (u ++ ')' :: t) (Text.bytes u).length depth =
      .ok (.on (Text.bytes (u ++ [')'])).length (depth - 1)) := by
    rw [move_ascii (by decide), if_neg (by decide), if_pos rfl]
    rfl
  exact search_of_move (v := [')']) h (by simp) hmove (firstMain?_closing depth t) hsteps

theorem reads_quoted (hm : m = '\'' ∨ m = '"') (ih : ∀ r, r.length < t.length → Reads r) :
    Reads (m :: t) := by
  intro u depth steps hsteps
  have hascii : m.toNat < 128 := by rcases hm with rfl | rfl <;> decide
  have hopen : m ≠ '(' := by rcases hm with rfl | rfl <;> decide
  have hclose : m ≠ ')' := by rcases hm with rfl | rfl <;> decide
  have hmove : move (u ++ m :: t) (Text.bytes u).length depth =
      .ok (.on (skip (· != m) (u ++ [m] ++ t) (Text.bytes (u ++ [m])).length + 1) depth) := by
    rw [move_ascii hascii, if_neg hopen, if_neg hclose, if_pos hm, List.append_cons]
    rfl
  by_cases hmem : m ∈ t
  · obtain ⟨w, r, rfl, hw⟩ := List.eq_append_cons_of_mem hmem
    have hsplit : m :: (w ++ m :: r) = m :: (w ++ [m]) ++ r := by simp
    rw [skip_ne hascii hw, List.append_assoc, hsplit] at hmove
    have hfound := firstMain?_quoted hm hw depth r
    rw [hsplit] at hfound hsteps ⊢
    exact search_of_move (ih r (by simp; omega)) (by simp) hmove hfound hsteps
  · rw [skip_ne_of_not_mem hascii hmem, ← List.append_cons] at hmove
    refine search_of_move_past (by simp) hmove (Nat.le_succ _) ?_ hsteps
    rw [firstMain?_mark hm, ← List.append_nil t, firstMain?_inQuotes hmem]
    rfl

theorem reads_comment (ih : ∀ r, r.length < t.length → Reads r) : Reads ('-' :: '-' :: t) := by
  intro u depth steps hsteps
  have hmove : move (u ++ '-' :: '-' :: t) (Text.bytes u).length depth =
      .ok (.on (skip (· != '\n') (u ++ '-' :: '-' :: t) (Text.bytes u).length + 1) depth) := by
    rw [move_ascii (by decide), if_neg (by decide), if_neg (by decide), if_neg (by decide),
      if_pos ⟨rfl, rfl⟩]
    rfl
  by_cases hmem : '\n' ∈ t
  · obtain ⟨w, r, rfl, hw⟩ := List.eq_append_cons_of_mem hmem
    have hline : '\n' ∉ '-' :: '-' :: w := by simpa using hw
    have hsplit : '-' :: '-' :: (w ++ '\n' :: r) = '-' :: '-' :: (w ++ ['\n']) ++ r := by simp
    have hskip := skip_ne (by decide) hline u r
    simp only [List.cons_append] at hskip
    have hfound := firstMain?_lineComment hw depth r
    rw [hskip, hsplit] at hmove
    rw [hsplit] at hfound hsteps ⊢
    exact search_of_move (ih r (by simp; omega)) (by simp) hmove hfound hsteps
  · have hopen : '\n' ∉ '-' :: '-' :: t := by simpa using hmem
    rw [skip_ne_of_not_mem (by decide) hopen] at hmove
    refine search_of_move_past (by simp) hmove (Nat.le_succ _) ?_ hsteps
    rw [firstMain?_dashes, ← List.append_nil t, firstMain?_inComment hmem]
    rfl

theorem reads_word (hc : startsWord c = true) (ih : ∀ r, r.length < t.length + 1 → Reads r) :
    Reads (c :: t) := by
  intro u depth steps hsteps
  cases depth with
  | zero =>
    obtain ⟨w, r, hsplit, hlength, hw, hr⟩ := exists_word hc t
    have hne : w ≠ [] := by
      obtain ⟨a, v, rfl, -⟩ := hw
      simp
    have hmove := move_word hw hr u
    have hfound := firstMain?_word hw hr
    rw [hsplit] at hsteps ⊢
    cases hkind : ofWord? (w.map Char.toUpper) with
    | some kind =>
      rw [hkind] at hmove hfound
      rw [search_found hmove (Nat.zero_lt_of_lt hsteps), hfound]
      rfl
    | none =>
      rw [hkind] at hmove hfound
      exact search_of_move (ih r (by omega)) hne hmove hfound hsteps
  | succ depth =>
    have hfound : firstMain? .code (depth + 1) (c :: t) = firstMain? .code (depth + 1) t := by
      rw [firstMain?_code, enter_word (continuesWord_of_startsWord hc)]
    exact search_of_move (v := [c]) (ih t (Nat.lt_succ_self _)) (by simp)
      (move_wordInside hc u t depth) hfound hsteps

theorem reads_plain (hascii : c.toNat < 128) (hc : IsPlain c t) (h : Reads t) :
    Reads (c :: t) := by
  intro u depth steps hsteps
  have hmove : move (u ++ c :: t) (Text.bytes u).length depth =
      .ok (.on (Text.bytes (u ++ [c])).length depth) := by
    obtain ⟨hopen, hclose, hsingle, hdouble, hcomment, hword⟩ := hc
    rw [move_ascii hascii, if_neg hopen, if_neg hclose, if_neg (by simp [hsingle, hdouble]),
      if_neg hcomment, if_neg (by simp [hword])]
    rfl
  exact search_of_move (v := [c]) h (by simp) hmove (firstMain?_plain hc depth) hsteps

/-- The bytes beyond ASCII are passed one by one. -/
theorem search_other {s front other behind : List Char}
    (hs : Text.bytes s = front ++ (other ++ behind)) (hother : ∀ b ∈ other, 128 ≤ b.toNat)
    (steps depth : Nat) :
    search s (steps + other.length) front.length depth =
      search s steps (front.length + other.length) depth := by
  induction other generalizing front with
  | nil => rfl
  | cons b other ih =>
    have hbyte : (Text.bytes s)[front.length]? = some b := by simp [hs]
    have hrest : Text.bytes s = (front ++ [b]) ++ (other ++ behind) := by simp [hs]
    have hmove := move_plain hbyte (isPlain_of_not_ascii (hother b List.mem_cons_self) _) depth
    have hpassed := ih hrest fun a ha => hother a (List.mem_cons_of_mem b ha)
    rw [List.length_append, List.length_singleton] at hpassed
    rw [List.length_cons, ← Nat.add_assoc, search_on hmove, hpassed]
    congr 1
    omega

theorem reads_other (hc : 128 ≤ c.toNat) (h : Reads t) : Reads (c :: t) := by
  intro u depth steps hsteps
  have hs : Text.bytes (u ++ c :: t) = Text.bytes u ++ (Text.bytes [c] ++ Text.bytes t) := by
    rw [Text.bytes_append, Text.bytes_cons]
  have hother : ∀ b ∈ Text.bytes [c], 128 ≤ b.toNat := fun b => Text.not_ascii_of_mem_bytes hc
  rw [Text.bytes_cons, List.length_append] at hsteps
  obtain ⟨k, rfl⟩ := Nat.exists_eq_add_of_le' ((Nat.le_add_right _ _).trans hsteps.le)
  rw [search_other hs hother, firstMain?_plain (isPlain_of_not_ascii hc t), ← List.length_append,
    ← Text.bytes_append]
  exact h.behind u [c] depth (by omega)

/-- Whatever stands here, the search goes right if it does further on. -/
theorem reads (r : List Char) : Reads r := by
  induction hlength : r.length using Nat.strong_induction_on generalizing r with
  | _ n ih =>
  subst hlength
  cases r with
  | nil => exact reads_nil
  | cons c t =>
    have hshorter : ∀ r, r.length < t.length + 1 → Reads r := fun r hr => ih r.length hr r rfl
    have hrest : Reads t := hshorter t (Nat.lt_succ_self _)
    by_cases hascii : c.toNat < 128
    · by_cases hopen : c = '('
      · exact hopen ▸ reads_opening hrest
      by_cases hclose : c = ')'
      · exact hclose ▸ reads_closing hrest
      by_cases hquote : c = '\'' ∨ c = '"'
      · exact reads_quoted hquote fun r hr => hshorter r (by omega)
      by_cases hcomment : c = '-' ∧ t.head? = some '-'
      · obtain ⟨rfl, hhead⟩ := hcomment
        obtain ⟨t, rfl⟩ := List.head?_eq_some_iff.mp hhead
        exact reads_comment fun r hr => hshorter r (by simp; omega)
      by_cases hword : startsWord c = true
      · exact reads_word hword hshorter
      · obtain ⟨hsingle, hdouble⟩ := not_or.mp hquote
        exact reads_plain hascii
          ⟨hopen, hclose, hsingle, hdouble, hcomment, by simpa using hword⟩ hrest
    · exact reads_other (Nat.not_lt.mp hascii) hrest

/-! ## The whole text -/

/-- The bytes tell the kind of the text, in less steps than there are bytes and one more. -/
theorem ofSql_eq (sql : String) {steps : Nat} (h : (Text.bytes sql.toList).length < steps) :
    ofSql steps sql = .ok (Kind.ofSql sql) := by
  have hstrip : strip steps sql.toList = .ok (skipNoise .code sql.toList) :=
    strip_eq sql.toList ((Text.length_le_bytes _).trans_lt h)
  have hsearch : search (skipNoise .code sql.toList) steps 0 0 =
      .ok ((firstMain? .code 0 (skipNoise .code sql.toList)).getD .select) := by
    obtain ⟨noise, hnoise⟩ := skipNoise_suffix .code sql.toList
    refine reads _ [] 0 steps ?_
    rw [← hnoise, Text.bytes_append, List.length_append] at h
    omega
  have hstarts : ∀ word ∈ openers, startsWith word = Kind.startsWith word := by
    have hupper : ∀ word ∈ openers, word.toList.map Char.toUpper = word.toList := by decide
    exact fun word hword => funext (startsWith_eq (hupper word hword))
  unfold ofSql Kind.ofSql
  rw [hstrip, hstarts "SELECT" (by decide), hstarts "WITH" (by decide),
    hstarts "INSERT" (by decide), hstarts "UPDATE" (by decide), hstarts "DELETE" (by decide)]
  change (if Kind.startsWith "SELECT" _ then _ else _) = _
  rw [hsearch]
  simp only
  split_ifs <;> rfl

end ByteReader

/-- Noise in front and the case of letters have no influence on the kind. And it is read from the
bytes of any text, in a bounded number of steps and without a slice that splits a character. -/
theorem ofSql_insensitive {noise s t : List Char} (hnoise : IsNoise noise)
    (ht : Text.Recased s t) :
    ofSql (String.ofList (noise ++ t)) = ofSql (String.ofList s) ∧
      ∀ sql steps, (Text.bytes sql.toList).length < steps →
        ByteReader.ofSql steps sql = .ok (ofSql sql) :=
  ⟨(hnoise.ofSql_append t).trans (ofSql_recased ht), fun sql _ => ByteReader.ofSql_eq sql⟩

/-- A wide blank, a comment that opens a quote, and a name that is not ASCII. -/
theorem ofSql_insensitive_wide :
    ofSql (String.ofList ("\u3000(--é'\n".toList ++ "wiTH é AS (DElete) inSERT u".toList)) =
        .insert ∧
      ByteReader.ofSql 64 "\u3000(--é'\nwiTH é AS (DElete) inSERT u" = .ok .insert := by
  have hnoise : IsNoise "\u3000(--é'\n".toList :=
    .blank (.inl (by decide)) (.blank (.inr rfl)
      (.lineComment (t := ['é', '\'']) (by decide) .nil))
  have hcase : Text.Recased "With é AS (delete) Insert u".toList
      "wiTH é AS (DElete) inSERT u".toList := by
    unfold Text.Recased
    decide +kernel
  have hkind : ofSql (String.ofList "With é AS (delete) Insert u".toList) = .insert := by
    decide +kernel
  obtain ⟨hsame, hbytes⟩ := ofSql_insensitive hnoise hcase
  refine ⟨hsame.trans hkind, (hbytes _ 64 (by decide +kernel)).trans (congrArg Except.ok ?_)⟩
  exact hsame.trans hkind

end SqlComposer.Kind
