import Mathlib.Data.List.Forall2
import Mathlib.Data.List.TakeWhile
import SqlComposer.Proofs.Characters
import SqlComposer.Proofs.Direct

/-!
# Which parts make a statement

A grammar says which parts may occur and which of them may stand side by side. A blank, a comma, a
dot or a parenthesis may stand beside anything, and between any two values there is one of them. So
what is fine in pieces is fine as a whole.
-/

namespace SqlComposer

structure Grammar where
  good : Part → Prop
  /-- Whether the second may follow the first. -/
  fits : Part → Part → Prop
  /-- Whether parentheses have to be balanced. -/
  nested : Prop

namespace Part

/-- How many parentheses are open behind a part, if it closes none that is not open. -/
def step (n : Nat) : Part → Option Nat
  | .code c =>
    if c = '(' then some (n + 1)
    else if c = ')' then (if n = 0 then none else some (n - 1))
    else some n
  | _ => some n

def climb (n : Nat) (ps : List Part) : Option Nat := ps.foldlM step n

def isSoft : Part → Bool
  | .code c => [' ', ',', '.', '(', ')'].contains c
  | _ => false

def StartsSoft (ps : List Part) : Prop := ∀ p ∈ ps.head?, p.isSoft = true

def EndsSoft (ps : List Part) : Prop := ∀ p ∈ ps.getLast?, p.isSoft = true

theorem climb_cons (n : Nat) (p : Part) (ps : List Part) :
    climb n (p :: ps) = p.step n >>= fun m => climb m ps := by
  rw [climb, List.foldlM_cons]
  rfl

theorem climb_append (n : Nat) (ps rs : List Part) :
    climb n (ps ++ rs) = climb n ps >>= fun m => climb m rs := List.foldlM_append

theorem climb_of_step {ps : List Part} (h : ∀ p ∈ ps, ∀ n, p.step n = some n) (n : Nat) :
    climb n ps = some n := by
  induction ps with
  | nil => rfl
  | cons p ps ih =>
    rw [climb_cons, h p List.mem_cons_self]
    exact ih fun r hr => h r (List.mem_cons_of_mem _ hr)

theorem step_code {c : Char} (h : c ≠ '(' ∧ c ≠ ')') (n : Nat) : (code c).step n = some n := by
  simp [step, h.1, h.2]

def softFirst (s : String) : Bool := s.toList.head?.all fun c => (code c).isSoft

def softLast (s : String) : Bool := s.toList.getLast?.all fun c => (code c).isSoft

/-- A text that may stand between any two parts. -/
def isSpacer (s : String) : Bool := s != "" && softFirst s && softLast s

theorem startsSoft_word {s : String} (h : softFirst s = true) : StartsSoft (word s) := by
  intro p hp
  obtain ⟨c, hc, rfl⟩ : ∃ c, s.toList.head? = some c ∧ code c = p := by simpa [word] using hp
  simpa [softFirst, hc] using h

theorem endsSoft_word {s : String} (h : softLast s = true) : EndsSoft (word s) := by
  intro p hp
  obtain ⟨c, hc, rfl⟩ : ∃ c, s.toList.getLast? = some c ∧ code c = p := by simpa [word] using hp
  simpa [softLast, hc] using h

theorem soft_of_isSpacer {s : String} (h : isSpacer s = true) :
    StartsSoft (word s) ∧ EndsSoft (word s) ∧ word s ≠ [] := by
  simp only [isSpacer, Bool.and_eq_true, bne_iff_ne] at h
  exact ⟨startsSoft_word h.1.2, endsSoft_word h.2, by simpa [word] using h.1.1⟩

theorem mem_of_mem_distinct {q : Quoting} {pss : List (List Part)} {ps : List Part}
    (h : ps ∈ distinct q pss) : ps ∈ pss := by
  unfold distinct at h
  induction hn : pss.length using Nat.strongRecOn generalizing pss with
  | ind n ih =>
    cases pss with
    | nil => simp at h
    | cons rs rest =>
      rw [List.eraseDupsBy_cons, List.mem_cons] at h
      rcases h with rfl | h
      · exact List.mem_cons_self
      · have hlen := List.length_filter_le (fun b : List Part =>
          decide ((b.flatMap (write q) == rs.flatMap (write q)) = false)) rest
        rw [List.length_cons] at hn
        exact List.mem_cons_of_mem _ (List.mem_filter.mp (ih _ (by omega) h rfl)).1

theorem word_append (s t : String) : word (s ++ t) = word s ++ word t := by
  simp [word]

theorem mem_word {s : String} {p : Part} : p ∈ word s ↔ ∃ c ∈ s.toList, p = .code c := by
  simp [word, eq_comm]

theorem endsSoft_append {ps rs : List Part} (h : EndsSoft rs) (hne : rs ≠ []) :
    EndsSoft (ps ++ rs) := by
  rwa [EndsSoft, List.getLast?_append_of_ne_nil _ hne]

theorem startsSoft_append {ps rs : List Part} (h : StartsSoft ps) (hne : ps ≠ []) :
    StartsSoft (ps ++ rs) := by
  rwa [StartsSoft, List.head?_append_of_ne_nil _ hne]

theorem trim_eq (ps : List Part) :
    ∃ before after, ps = before ++ trim ps ++ after ∧
      ∀ p ∈ before ++ after, p.isBlank = true := by
  refine ⟨ps.takeWhile isBlank, ((ps.dropWhile isBlank).reverse.takeWhile isBlank).reverse, ?_, ?_⟩
  · have h := List.takeWhile_append_dropWhile (p := isBlank) (l := (ps.dropWhile isBlank).reverse)
    have h := congrArg List.reverse h
    rw [List.reverse_append, List.reverse_reverse] at h
    rw [List.append_assoc, trim, h, List.takeWhile_append_dropWhile]
  · intro p hp
    rcases List.mem_append.mp hp with hp | hp
    · exact List.mem_takeWhile_imp hp
    · exact List.mem_takeWhile_imp (List.mem_reverse.mp hp)

theorem step_of_isBlank {p : Part} (h : p.isBlank = true) (n : Nat) : p.step n = some n := by
  cases p with
  | code c =>
    refine step_code ⟨?_, ?_⟩ n
    · rintro rfl
      simp [isBlank, Text.isBlank] at h
    · rintro rfl
      simp [isBlank, Text.isBlank] at h
  | _ => rfl

theorem climb_trim (n : Nat) (ps : List Part) : climb n (trim ps) = climb n ps := by
  obtain ⟨before, after, heq, hblank⟩ := trim_eq ps
  have hbefore : climb n before = some n := climb_of_step (fun p hp => step_of_isBlank
    (hblank p (List.mem_append_left _ hp))) n
  have hafter : ∀ m, climb m after = some m := climb_of_step fun p hp => step_of_isBlank
    (hblank p (List.mem_append_right _ hp))
  conv_rhs => rw [heq, climb_append, climb_append, hbefore]
  cases h : climb n (trim ps) with
  | none => simp [h]
  | some m => simp [h, hafter]

end Part

namespace Grammar

/-- What every grammar here lets stand. -/
structure Lawful (g : Grammar) : Prop where
  soft : ∀ p r : Part, p.isSoft = true ∨ r.isSoft = true → g.fits p r
  code : ∀ c, Text.isPlain c = true ∨ c = '(' ∨ c = ')' ∨ c = '-' → g.good (.code c)
  plain : ∀ c e, Text.isPlain c = true ∨ c = '-' → Text.isPlain e = true →
    g.fits (.code c) (.code e)
  flag : ∀ b, g.good (.flag b)

/-- Parts that may stand as they are, with no places but those of keys. -/
structure Fine (g : Grammar) (isKey : String → Bool) (ps : List Part) : Prop where
  good : ∀ p ∈ ps, g.good p
  fits : ps.IsChain g.fits
  level : g.nested → ∀ n, Part.climb n ps = some n
  places : ∀ key, Part.place key ∈ ps → isKey key = true

namespace Fine

variable {g : Grammar} {isKey : String → Bool} {ps rs : List Part} {pss : List (List Part)}

theorem nil : g.Fine isKey [] := ⟨by simp, .nil, fun _ _ => rfl, by simp⟩

theorem append_of_fits (hp : g.Fine isKey ps) (hr : g.Fine isKey rs)
    (h : ∀ p ∈ ps.getLast?, ∀ r ∈ rs.head?, g.fits p r) : g.Fine isKey (ps ++ rs) := by
  refine ⟨fun p hmem => ?_, List.isChain_append.mpr ⟨hp.fits, hr.fits, h⟩, fun hn n => ?_, ?_⟩
  · exact (List.mem_append.mp hmem).elim (hp.good p) (hr.good p)
  · rw [Part.climb_append, hp.level hn]
    exact hr.level hn n
  · exact fun key hmem => (List.mem_append.mp hmem).elim (hp.places key) (hr.places key)

theorem single {p : Part} (h : g.good p) (hp : ∀ n, p.step n = some n)
    (hkey : ∀ key, p = .place key → isKey key = true) : g.Fine isKey [p] := by
  refine ⟨by simpa using h, .singleton p, fun _ n => ?_, fun key hmem => ?_⟩
  · exact Part.climb_of_step (by simpa using hp) n
  · exact hkey key (List.mem_singleton.mp hmem).symm

theorem trim (h : g.Fine isKey ps) : g.Fine isKey (Part.trim ps) := by
  obtain ⟨before, after, heq, -⟩ := Part.trim_eq ps
  have hsub : Part.trim ps <:+: ps := ⟨before, after, heq.symm⟩
  refine ⟨fun p hp => h.good p (hsub.subset hp), h.fits.infix hsub, fun hn n => ?_,
    fun key hp => h.places key (hsub.subset hp)⟩
  rw [Part.climb_trim, h.level hn]

variable (hg : g.Lawful)
include hg

theorem append_starts (hp : g.Fine isKey ps) (hr : g.Fine isKey rs) (h : Part.StartsSoft rs) :
    g.Fine isKey (ps ++ rs) :=
  hp.append_of_fits hr fun p _ r hmem => hg.soft p r (Or.inr (h r hmem))

theorem append_ends (hp : g.Fine isKey ps) (hr : g.Fine isKey rs) (h : Part.EndsSoft ps) :
    g.Fine isKey (ps ++ rs) :=
  hp.append_of_fits hr fun p hmem r _ => hg.soft p r (Or.inl (h p hmem))

theorem word_of {s : String} (h : ∀ c ∈ s.toList, Text.isPlain c = true) :
    g.Fine isKey (Part.word s) := by
  refine ⟨fun p hp => ?_, ?_, fun _ => Part.climb_of_step fun p hp n => ?_, fun key hp => ?_⟩
  · obtain ⟨c, hc, rfl⟩ := Part.mem_word.mp hp
    exact hg.code c (Or.inl (h c hc))
  · refine (List.isChain_map _).mpr (List.isChain_iff_getElem.mpr fun i hi => ?_)
    exact hg.plain _ _ (Or.inl (h _ (List.getElem_mem _))) (h _ (List.getElem_mem _))
  · obtain ⟨c, hc, rfl⟩ := Part.mem_word.mp hp
    refine Part.step_code ⟨?_, ?_⟩ n
    · rintro rfl
      exact absurd (h _ hc) (by decide)
    · rintro rfl
      exact absurd (h _ hc) (by decide)
  · obtain ⟨c, -, hc⟩ := Part.mem_word.mp hp
    cases hc

theorem word (s : String) (h : s.toList.all Text.isPlain = true) : g.Fine isKey (Part.word s) :=
  word_of hg (List.all_eq_true.mp h)

theorem numeral {s : String} (h : Text.IsNumeral s) : g.Fine isKey (Part.word s) := by
  obtain ⟨negative, t, rfl, ht⟩ := h
  have hword : g.Fine isKey (Part.word t) := word_of hg ht
  rw [Part.word_append]
  cases negative with
  | false => exact hword
  | true =>
    have hminus : g.Fine isKey (Part.word (Decimal.sign true)) := by
      refine ⟨?_, .singleton _, fun _ n => rfl, by simp [Part.word, Decimal.sign]⟩
      simpa [Part.word, Decimal.sign] using hg.code '-' (by simp)
    refine hminus.append_of_fits hword fun p hp r hr => ?_
    obtain rfl : Part.code '-' = p := by simpa [Part.word, Decimal.sign] using hp
    obtain ⟨c, hc, rfl⟩ := Part.mem_word.mp (List.mem_of_head? hr)
    exact hg.plain _ _ (Or.inr rfl) (ht c hc)

theorem spaced (hp : g.Fine isKey ps) {s : String} (hs : g.Fine isKey (Part.word s))
    (hsoft : Part.isSpacer s = true) (hr : g.Fine isKey rs) :
    g.Fine isKey (ps ++ Part.word s ++ rs) := by
  obtain ⟨hstarts, hends, hne⟩ := Part.soft_of_isSpacer hsoft
  exact (hp.append_starts hg hs hstarts).append_ends hg hr (Part.endsSoft_append hends hne)

theorem joined (separator : String) (h : separator.toList.all Text.isPlain = true)
    (hsoft : Part.isSpacer separator = true) (hps : ∀ ps ∈ pss, g.Fine isKey ps) :
    g.Fine isKey (Part.joined separator pss) := by
  induction pss with
  | nil => exact nil
  | cons ps rest ih =>
    have hrest := ih fun rs hrs => hps rs (List.mem_cons_of_mem _ hrs)
    cases rest with
    | nil => simpa [Part.joined] using hps ps List.mem_cons_self
    | cons rs rest =>
      rw [Part.joined, List.intercalate_cons_cons]
      exact (hps ps List.mem_cons_self).spaced hg (word hg separator h) hsoft hrest

theorem enclosed (h : g.Fine isKey ps) : g.Fine isKey (Part.enclosed ps) := by
  refine ⟨fun p hp => ?_, ?_, fun hn n => ?_, fun key hp => ?_⟩
  · simp only [Part.enclosed, Part.word, List.mem_append] at hp
    rcases hp with (hp | hp) | hp
    · obtain rfl : p = .code '(' := by simpa using hp
      exact hg.code _ (by simp)
    · exact h.good p hp
    · obtain rfl : p = .code ')' := by simpa using hp
      exact hg.code _ (by simp)
  · refine List.isChain_append.mpr ⟨?_, .singleton _, fun p _ r hr => ?_⟩
    · refine List.isChain_append.mpr ⟨.singleton _, h.fits, fun p hp r _ => ?_⟩
      obtain rfl : Part.code '(' = p := by simpa [Part.word] using hp
      exact hg.soft _ _ (Or.inl (by decide))
    · obtain rfl : Part.code ')' = r := by simpa [Part.word] using hr
      exact hg.soft _ _ (Or.inr (by decide))
  · have hopen : Part.climb n (Part.word "(") = some (n + 1) := rfl
    have hclose : Part.climb (n + 1) (Part.word ")") = some n := rfl
    rw [Part.enclosed, Part.climb_append, Part.climb_append, hopen]
    simp [h.level hn, hclose]
  · refine h.places key ?_
    simpa [Part.enclosed, Part.word] using hp

end Fine

/-! ## Clauses -/

/-- Parts that may follow anything. -/
structure Tail (g : Grammar) (isKey : String → Bool) (ps : List Part) : Prop where
  fine : g.Fine isKey ps
  starts : Part.StartsSoft ps

namespace Tail

variable {g : Grammar} {isKey : String → Bool} {ps rs : List Part} {pss : List (List Part)}

theorem nil : g.Tail isKey [] := ⟨.nil, by simp [Part.StartsSoft]⟩

variable (hg : g.Lawful)
include hg

theorem after {ps : List Part} (hr : g.Tail isKey rs) (hp : g.Fine isKey ps) :
    g.Fine isKey (ps ++ rs) := hp.append_starts hg hr.fine hr.starts

theorem append (hp : g.Tail isKey ps) (hr : g.Tail isKey rs) : g.Tail isKey (ps ++ rs) := by
  refine ⟨hr.after hg hp.fine, fun p hmem => ?_⟩
  rcases ps with _ | ⟨r, ps⟩
  · exact hr.starts p hmem
  · exact hp.starts p hmem

theorem behind (keyword : String) (h : keyword.toList.all Text.isPlain = true)
    (hsoft : Part.isSpacer keyword = true) (hp : g.Fine isKey ps) :
    g.Tail isKey (Part.word keyword ++ ps) := by
  obtain ⟨hstarts, hends, hne⟩ := Part.soft_of_isSpacer hsoft
  exact ⟨(Fine.word hg keyword h).append_ends hg hp hends, Part.startsSoft_append hstarts hne⟩

theorem clause (keyword : String) (h : keyword.toList.all Text.isPlain = true)
    (hsoft : Part.isSpacer keyword = true) (hp : g.Fine isKey ps) :
    g.Tail isKey (Part.clause keyword ps) := by
  unfold Part.clause
  split
  · exact nil
  · exact behind hg keyword h hsoft hp

theorem listClause (keyword separator : String) (h : keyword.toList.all Text.isPlain = true)
    (hsoft : Part.isSpacer keyword = true) (hsep : separator.toList.all Text.isPlain = true)
    (hsepsoft : Part.isSpacer separator = true) (hps : ∀ ps ∈ pss, g.Fine isKey ps) :
    g.Tail isKey (Part.listClause keyword separator pss) := by
  unfold Part.listClause
  split
  · exact nil
  · exact behind hg keyword h hsoft (Fine.joined hg separator hsep hsepsoft hps)

theorem countClause (keyword : String) (h : keyword.toList.all Text.isPlain = true)
    (hsoft : Part.isSpacer keyword = true) (n : Option Nat) :
    g.Tail isKey (Part.word (countClause keyword n)) := by
  cases n with
  | none => exact nil
  | some n =>
    rw [SqlComposer.countClause, Part.word_append]
    exact behind hg keyword h hsoft (Fine.word_of hg (Text.isPlain_toString n))

theorem flatten (hps : ∀ ps ∈ pss, g.Tail isKey ps) : g.Tail isKey pss.flatten := by
  induction pss with
  | nil => exact nil
  | cons ps rest ih =>
    exact (hps ps List.mem_cons_self).append hg (ih fun rs hrs => hps rs (List.mem_cons_of_mem _ hrs))

end Tail

namespace Fine

variable {g : Grammar} (hg : g.Lawful) {isKey : String → Bool} {ps : List Part}
variable {pss : List (List Part)}
include hg

theorem united (h : g.Fine isKey ps) (hps : ∀ ps ∈ pss, g.Tail isKey ps) :
    g.Fine isKey (Part.united ps pss) := by
  unfold Part.united
  split
  · exact h
  · exact (Tail.flatten hg hps).after hg (h.enclosed hg)

theorem directed (h : g.Fine isKey ps) {direction : Option String} {rs : List Part}
    (hrs : Part.directed ps direction = .ok rs) : g.Fine isKey rs := by
  simp only [Part.directed] at hrs
  split at hrs
  · obtain rfl := Except.ok.inj hrs
    exact h
  · split at hrs
    · next hd =>
      obtain rfl := Except.ok.inj hrs
      refine h.spaced hg (word hg " " (by decide)) (by decide) (word hg _ ?_)
      rcases hd with hd | hd <;> rw [hd] <;> decide
    · simp at hrs

theorem columns {q : Quoting} (hps : ∀ ps ∈ pss, g.Fine isKey ps) : g.Fine isKey
    (if pss.isEmpty then Part.word "*" else Part.joined ", " (Part.distinct q pss)) := by
  split
  · exact word hg "*" (by decide)
  · refine joined hg ", " (by decide) (by decide) fun ps h => hps ps ?_
    exact Part.mem_of_mem_distinct h

theorem columnList (h : g.Fine isKey ps) (hps : ∀ ps ∈ pss, g.Fine isKey ps) :
    g.Fine isKey (ps ++ Part.word " " ++
      (if pss.isEmpty then [] else Part.enclosed (Part.joined ", " pss) ++ Part.word " ")) ∧
    Part.EndsSoft (ps ++ Part.word " " ++
      (if pss.isEmpty then [] else Part.enclosed (Part.joined ", " pss) ++ Part.word " ")) := by
  obtain ⟨hstarts, hends, hne⟩ := Part.soft_of_isSpacer (s := " ") (by decide)
  have hblank : g.Fine isKey (Part.word " ") := word hg " " (by decide)
  have hleft := h.append_starts hg hblank hstarts
  have hleftEnds : Part.EndsSoft (ps ++ Part.word " ") := Part.endsSoft_append hends hne
  split
  · rw [List.append_nil]
    exact ⟨hleft, hleftEnds⟩
  · have hlist := (joined hg ", " (by decide) (by decide) hps).enclosed hg
    refine ⟨hleft.append_ends hg (hlist.append_starts hg hblank hstarts) hleftEnds, ?_⟩
    rw [← List.append_assoc]
    exact Part.endsSoft_append hends hne

end Fine

end Grammar

/-! ## Conditions -/

/-- How many groups are open behind the conditions, if they close none that is not open. -/
def Condition.climb : Nat → List Condition → Option Nat
  | n, [] => some n
  | n, .opening _ :: rest => climb (n + 1) rest
  | 0, .closing _ :: _ => none
  | n + 1, .closing _ :: rest => climb n rest
  | n, .predicate .. :: rest => climb n rest

namespace Stretch

def climb : Nat → List Stretch → Option Nat
  | n, [] => some n
  | n, .opening _ :: rest => climb (n + 1) rest
  | 0, .closing :: _ => none
  | n + 1, .closing :: rest => climb n rest
  | n, .predicate .. :: rest => climb n rest

def Like : Condition → Stretch → Prop
  | .opening _, .opening _ => True
  | .closing _, .closing => True
  | .predicate .., .predicate .. => True
  | _, _ => False

theorem climb_eq_of_like {cs : List Condition} {es : List Stretch} (h : List.Forall₂ Like cs es)
    (n : Nat) : climb n es = Condition.climb n cs := by
  induction h generalizing n with
  | nil => cases n <;> rfl
  | @cons c e cs es hlike _ ih =>
    cases c <;> cases e <;> try exact hlike.elim
    · exact ih (n + 1)
    · cases n with
      | zero => rfl
      | succ n => exact ih n
    · cases n <;> exact ih _

def Fine (g : Grammar) (isKey : String → Bool) : Stretch → Prop
  | .predicate _ parts => g.Fine isKey parts
  | _ => True

structure Laid (g : Grammar) (isKey : String → Bool) (connected : Bool) (entries : List Stretch)
    (ps : List Part) : Prop where
  good : ∀ p ∈ ps, g.good p
  fits : ps.IsChain g.fits
  level : g.nested → ∀ n, Part.climb n ps = climb n entries
  places : ∀ key, Part.place key ∈ ps → isKey key = true
  starts : connected = true → Part.StartsSoft ps

variable {g : Grammar} {isKey : String → Bool} {connected : Bool} {entries : List Stretch}
variable {ps rs : List Part}

theorem climb_predicate (n : Nat) (logic : Logic) (parts : List Part) (rest : List Stretch) :
    climb n (.predicate logic parts :: rest) = climb n rest := by
  cases n <;> rfl

/-- Groups that are open already stay open. -/
theorem climb_add {n m : Nat} (h : climb n entries = some m) (k : Nat) :
    climb (n + k) entries = some (m + k) := by
  induction entries generalizing n with
  | nil =>
    obtain rfl := Option.some.inj h
    rfl
  | cons e rest ih =>
    cases e with
    | opening logic =>
      rw [climb] at h ⊢
      rw [Nat.add_right_comm]
      exact ih h
    | closing =>
      cases n with
      | zero => simp [climb] at h
      | succ n =>
        rw [climb] at h
        rw [Nat.add_right_comm, climb]
        exact ih h
    | predicate logic parts =>
      rw [climb_predicate] at h ⊢
      exact ih h

/-- Fine parts may stand in front if something soft is between them. -/
theorem Laid.prepend (hg : g.Lawful) (hp : g.Fine isKey ps) (h : Laid g isKey connected entries rs)
    (hsoft : Part.EndsSoft ps ∨ Part.StartsSoft rs) {connected' : Bool}
    (hstarts : connected' = true → Part.StartsSoft (ps ++ rs)) :
    Laid g isKey connected' entries (ps ++ rs) := by
  refine ⟨fun p hmem => ?_, List.isChain_append.mpr ⟨hp.fits, h.fits, fun p hmem r hr => ?_⟩,
    fun hn n => ?_, fun key hmem => ?_, hstarts⟩
  · exact (List.mem_append.mp hmem).elim (hp.good p) (h.good p)
  · exact hg.soft p r (hsoft.imp (· p hmem) (· r hr))
  · rw [Part.climb_append, hp.level hn]
    exact h.level hn n
  · exact (List.mem_append.mp hmem).elim (hp.places key) (h.places key)

theorem Laid.paren (hg : g.Lawful) {c : Char} (hc : c = '(' ∨ c = ')')
    (h : Laid g isKey connected entries rs) {entries' : List Stretch}
    (hlevel : ∀ n, ((Part.code c).step n >>= fun m => climb m entries) = climb n entries')
    (connected' : Bool) : Laid g isKey connected' entries' (.code c :: rs) := by
  have hsoft : (Part.code c).isSoft = true := by rcases hc with rfl | rfl <;> decide
  refine ⟨fun p hp => ?_, List.isChain_cons.mpr ⟨fun r _ => hg.soft _ r (Or.inl hsoft), h.fits⟩,
    fun hn n => ?_, fun key hp => h.places key (by simpa using hp),
    fun _ p hp => by simpa [← Option.some.inj hp] using hsoft⟩
  · rcases List.mem_cons.mp hp with rfl | hp
    · exact hg.code c (by tauto)
    · exact h.good p hp
  · rw [Part.climb_cons, ← hlevel n]
    simp only [h.level hn]

theorem fine_connector (hg : g.Lawful) (isKey : String → Bool) (connects : Bool) (logic : Logic) :
    g.Fine isKey (Part.word (Piece.connector connects logic)) ∧
      Part.EndsSoft (Part.word (Piece.connector connects logic)) ∧
      (connects = true → Part.StartsSoft (Part.word (Piece.connector connects logic)) ∧
        Part.word (Piece.connector connects logic) ≠ []) := by
  cases connects with
  | false => exact ⟨.nil, by simp [Part.EndsSoft, Part.word, Piece.connector], by simp⟩
  | true =>
    have hsoft : Part.isSpacer (Piece.connector true logic) = true := by cases logic <;> decide
    have hword : (Piece.connector true logic).toList.all Text.isPlain = true := by
      cases logic <;> decide
    obtain ⟨hstarts, hends, hne⟩ := Part.soft_of_isSpacer hsoft
    exact ⟨.word hg _ hword, hends, fun _ => ⟨hstarts, hne⟩⟩

theorem laid_layout (hg : g.Lawful) (started fresh : Bool) (h : ∀ e ∈ entries, e.Fine g isKey) :
    Laid g isKey (started && !fresh) entries (layout started fresh entries) := by
  -- A layout that has to start with a connector may follow anything.
  induction entries generalizing started fresh with
  | nil =>
    exact ⟨by simp [layout], .nil, fun _ _ => rfl, by simp [layout],
      by simp [layout, Part.StartsSoft]⟩
  | cons e rest ih =>
    have hrest := fun started fresh => ih started fresh fun e he => h e (List.mem_cons_of_mem _ he)
    cases e with
    | closing =>
      refine (hrest true false).paren hg (Or.inr rfl) (fun n => ?_) _
      cases n <;> rfl
    | opening logic =>
      obtain ⟨hfine, hends, hstarts⟩ := fine_connector hg isKey (started && !fresh) logic
      have hopen : Laid g isKey true (.opening logic :: rest) (.code '(' :: layout true true rest) :=
        (hrest true true).paren hg (Or.inl rfl) (fun n => by cases n <;> rfl) true
      rw [layout, List.append_assoc]
      refine hopen.prepend hg hfine (Or.inl hends) fun hc => ?_
      exact Part.startsSoft_append (hstarts hc).1 (hstarts hc).2
    | predicate logic parts =>
      obtain ⟨hfine, hends, hstarts⟩ := fine_connector hg isKey (started && !fresh) logic
      have hparts : g.Fine isKey parts := h _ List.mem_cons_self
      have hbehind : Laid g isKey false (.predicate logic parts :: rest)
          (parts ++ layout (started || !parts.isEmpty) false rest) := by
        have hlaid := hrest (started || !parts.isEmpty) false
        have hsame : Laid g isKey (started || !parts.isEmpty) (.predicate logic parts :: rest)
            (layout (started || !parts.isEmpty) false rest) := by
          refine ⟨hlaid.good, hlaid.fits, fun hn n => ?_, hlaid.places, by simpa using hlaid.starts⟩
          rw [hlaid.level hn, climb_predicate]
        refine hsame.prepend hg hparts ?_ (by simp)
        -- An empty predicate connects nothing, but then there is nothing in front either.
        by_cases hnil : parts = []
        · exact Or.inl (by simp [hnil, Part.EndsSoft])
        · exact Or.inr (hsame.starts (by simp [hnil]))
      rw [layout, List.append_assoc]
      refine hbehind.prepend hg hfine (Or.inl hends) fun hc => ?_
      exact Part.startsSoft_append (hstarts hc).1 (hstarts hc).2

theorem fine_layout (hg : g.Lawful) (h : ∀ e ∈ entries, e.Fine g isKey)
    (hlevel : g.nested → climb 0 entries = some 0) :
    g.Fine isKey (layout false false entries) := by
  have hlaid := laid_layout hg false false h
  refine ⟨hlaid.good, hlaid.fits, fun hn n => ?_, hlaid.places⟩
  rw [hlaid.level hn]
  simpa using climb_add (hlevel hn) n

end Stretch

end SqlComposer
