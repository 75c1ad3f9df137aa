import Mathlib.Data.List.Forall2
import SqlComposer.Proofs.Direct

/-!
# Texts and their parts

When both renderings succeed, the parts of one show the text of the other; when one fails, both do
and for the same reason. Parts show a text only if no text value is taken for a key, so the
relation has that as a condition.
-/

namespace SqlComposer

/-! ## Outcomes that go together -/

/-- Both succeed with related results, or both fail for the same reason. -/
def Agree {α β : Type} (R : α → β → Prop) : Outcome α → Outcome β → Prop
  | .ok a, .ok b => R a b
  | .error e, .error e' => e = e'
  | _, _ => False

namespace Agree

variable {α β γ δ : Type} {R : α → β → Prop} {S : γ → δ → Prop}

theorem bind {x : Outcome α} {y : Outcome β} {f : α → Outcome γ} {g : β → Outcome δ}
    (h : Agree R x y) (hfg : ∀ a b, R a b → Agree S (f a) (g b)) :
    Agree S (x >>= f) (y >>= g) := by
  cases x <;> cases y
  · exact h
  · exact h.elim
  · exact h.elim
  · exact hfg _ _ h

/-- What follows from one step may differ, if the step is the same. -/
theorem after (x : Outcome α) {f : α → Outcome γ} {g : α → Outcome δ}
    (h : ∀ a, Agree S (f a) (g a)) : Agree S (x >>= f) (x >>= g) := by
  cases x with
  | error e => exact rfl
  | ok a => exact h a

theorem bind_eq {x : Outcome α} {y : Outcome β} (h : Agree R x y) {f : α → Outcome γ}
    {g : β → Outcome γ} (hfg : ∀ a b, R a b → f a = g b) : x >>= f = y >>= g := by
  cases x <;> cases y
  · exact congrArg Except.error h
  · exact h.elim
  · exact h.elim
  · exact hfg _ _ h

theorem of_eq {x y : Outcome α} (h : x = y) : Agree Eq x y := by
  subst h
  cases x <;> exact rfl

theorem exists_ok {x : Outcome α} {y : Outcome β} (h : Agree R x y) {a : α} (hx : x = .ok a) :
    ∃ b, y = .ok b ∧ R a b := by
  subst hx
  cases y with
  | error e => exact h.elim
  | ok b => exact ⟨b, rfl, h⟩

theorem consM {x : Outcome γ} {y : Outcome δ} {xs : Outcome (List γ)} {ys : Outcome (List δ)}
    (h : Agree S x y) (hs : Agree (List.Forall₂ S) xs ys) :
    Agree (List.Forall₂ S) (x >>= fun a => xs >>= fun as => pure (a :: as))
      (y >>= fun b => ys >>= fun bs => pure (b :: bs)) :=
  h.bind fun _ _ hab => hs.bind fun _ _ habs => .cons hab habs

theorem mapM {f : α → Outcome γ} {g : α → Outcome δ} (l : List α)
    (h : ∀ a ∈ l, Agree S (f a) (g a)) : Agree (List.Forall₂ S) (l.mapM f) (l.mapM g) := by
  induction l with
  | nil => exact .nil
  | cons a l ih =>
    rw [List.mapM_cons, List.mapM_cons]
    exact (h a List.mem_cons_self).consM (ih fun b hb => h b (List.mem_cons_of_mem _ hb))

end Agree

/-! ## Results with a property -/

def Yields {α : Type} (P : α → Prop) (x : Outcome α) : Prop := ∀ a, x = .ok a → P a

namespace Yields

variable {α β : Type} {P : α → Prop} {Q : β → Prop}

theorem ok {a : α} (h : P a) : Yields P (.ok a) := fun _ hb => Except.ok.inj hb ▸ h

theorem bind {x : Outcome α} {f : α → Outcome β} (h : Yields P x) (hf : ∀ a, P a → Yields Q (f a)) :
    Yields Q (x >>= f) := by
  intro b hb
  cases x with
  | error e => simp [Bind.bind, Except.bind] at hb
  | ok a => exact hf a (h a rfl) b hb

theorem mono {P' : α → Prop} {x : Outcome α} (h : Yields P x) (hP : ∀ a, P a → P' a) :
    Yields P' x := fun a ha => hP a (h a ha)

theorem consM {x : Outcome α} {xs : Outcome (List α)} (h : Yields P x)
    (hs : Yields (fun as => ∀ a ∈ as, P a) xs) :
    Yields (fun as => ∀ a ∈ as, P a) (x >>= fun a => xs >>= fun as => pure (a :: as)) :=
  h.bind fun _ ha => hs.bind fun _ has => ok (List.forall_mem_cons.mpr ⟨ha, has⟩)

theorem mapM {f : α → Outcome β} (l : List α) (h : ∀ a ∈ l, Yields Q (f a)) :
    Yields (fun bs => ∀ b ∈ bs, Q b) (l.mapM f) := by
  induction l with
  | nil => exact ok (by simp)
  | cons a l ih =>
    rw [List.mapM_cons]
    exact (h a List.mem_cons_self).consM (ih fun c hc => h c (List.mem_cons_of_mem _ hc))

end Yields

theorem Agree.and_yields {α β : Type} {R : α → β → Prop} {P : β → Prop} {x : Outcome α}
    {y : Outcome β} (h : Agree R x y) (hy : Yields P y) :
    Agree (fun a b => R a b ∧ P b) x y := by
  cases x <;> cases y
  · exact h
  · exact h.elim
  · exact h.elim
  · exact ⟨h, hy _ rfl⟩

/-! ## The text of parts -/

namespace Part

variable {q : Quoting}

@[simp] theorem flatMap_write_word (s : String) : (word s).flatMap (write q) = s.toList := by
  simp only [word, List.flatMap_map, write, chars]
  exact List.flatMap_singleton' s.toList

theorem joined_empty (pss : List (List Part)) : joined "" pss = pss.flatten := by
  induction pss with
  | nil => rfl
  | cons ps rest ih =>
    cases rest with
    | nil => simp [joined]
    | cons ps' rest =>
      rw [joined, List.intercalate_cons_cons, List.flatten_cons, ← ih]
      simp [word, joined]

/-- A character at the start that is not blank. -/
def Starts (s : List Char) : Prop := ∃ c, s.head? = some c ∧ Text.isBlank c = false

theorem flatMap_dropWhile {w : Part → List Char} (hcode : ∀ c, w (.code c) = [c])
    (ps : List Part) (h : ∀ p ∈ ps, p.isBlank = false → Starts (w p)) :
    (ps.dropWhile isBlank).flatMap w = (ps.flatMap w).dropWhile Text.isBlank := by
  induction ps with
  | nil => rfl
  | cons p ps ih =>
    by_cases hp : p.isBlank = true
    · obtain ⟨c, rfl⟩ : ∃ c, p = .code c := by
        cases p <;> simp [isBlank] at hp
        exact ⟨_, rfl⟩
      have hc : Text.isBlank c = true := hp
      rw [List.dropWhile_cons_of_pos hp, ih fun p hp => h p (List.mem_cons_of_mem _ hp),
        List.flatMap_cons, hcode, List.singleton_append, List.dropWhile_cons_of_pos hc]
    · obtain ⟨c, hhead, hc⟩ := h p List.mem_cons_self (by simpa using hp)
      obtain ⟨t, ht⟩ := List.head?_eq_some_iff.mp hhead
      rw [List.dropWhile_cons_of_neg hp, List.flatMap_cons, ht, List.cons_append,
        List.dropWhile_cons_of_neg (by simp [hc])]

theorem reverse_flatMap_write (ps : List Part) :
    (ps.flatMap (write q)).reverse = ps.reverse.flatMap fun p => (p.write q).reverse := by
  rw [List.reverse_flatMap]
  rfl

/-- A part that is no blank has no blank at its ends. -/
def Solid (q : Quoting) (p : Part) : Prop :=
  p.isBlank = false → Starts (p.write q) ∧ Starts (p.write q).reverse

theorem solid_code (c : Char) : (code c).Solid q := fun h =>
  ⟨⟨c, rfl, h⟩, ⟨c, rfl, h⟩⟩

theorem solid_word {s : String} {p : Part} (h : p ∈ word s) : p.Solid q := by
  obtain ⟨c, -, rfl⟩ := List.mem_map.mp h
  exact solid_code c

theorem write_ne_nil {p : Part} (h : p.Solid q) : p.write q ≠ [] := by
  cases hb : p.isBlank with
  | true => cases p <;> simp [isBlank, write, chars] at hb ⊢
  | false =>
    obtain ⟨c, hc, -⟩ := (h hb).1
    intro hnil
    simp [hnil] at hc

/-- Trimming parts is trimming their text. -/
theorem flatMap_write_trim {ps : List Part} (h : ∀ p ∈ ps, p.Solid q) :
    (trim ps).flatMap (write q) = (Text.trim (String.ofList (ps.flatMap (write q)))).toList := by
  have hsub : ∀ p ∈ ps.dropWhile isBlank, p ∈ ps := fun p hp =>
    (List.dropWhile_suffix _).subset hp
  have hback := flatMap_dropWhile (w := fun p => (p.write q).reverse)
    (fun c => by simp [write, chars]) (ps.dropWhile isBlank).reverse
    (fun p hp hb => (h p (hsub p (List.mem_reverse.mp hp)) hb).2)
  have hfront := flatMap_dropWhile (w := write q) (fun c => rfl) ps (fun p hp hb => (h p hp hb).1)
  rw [trim, ← List.reverse_reverse (List.flatMap _ _), reverse_flatMap_write, List.reverse_reverse,
    hback, ← reverse_flatMap_write, hfront]
  simp [Text.trim, Text.trimStart]

theorem trim_subset (ps : List Part) : ∀ p ∈ trim ps, p ∈ ps := by
  intro p hp
  have h := (List.dropWhile_suffix _).subset (List.mem_reverse.mp hp)
  exact (List.dropWhile_suffix _).subset (List.mem_reverse.mp h)

end Part

/-! ## Parts that show a text -/

/-- The parts write the text, if texts and keys are told apart. -/
def Shows (q : Quoting) (clear : Prop) (s : String) (ps : List Part) : Prop :=
  clear → s.toList = ps.flatMap (Part.write q) ∧ ∀ p ∈ ps, p.Solid q

namespace Shows

variable {q : Quoting} {clear : Prop} {s t : String} {ps rs : List Part}
variable {ss : List String} {pss : List (List Part)}

theorem nil : Shows q clear "" [] := fun _ => ⟨rfl, by simp⟩

theorem word (s : String) : Shows q clear s (Part.word s) := fun _ =>
  ⟨(Part.flatMap_write_word s).symm, fun _ => Part.solid_word⟩

theorem wordOf (x : Outcome String) : Agree (Shows q clear) x (do return Part.word (← x)) := by
  cases x with
  | error e => rfl
  | ok s => exact word s

theorem append (hs : Shows q clear s ps) (ht : Shows q clear t rs) :
    Shows q clear (s ++ t) (ps ++ rs) := fun hc => by
  obtain ⟨hs, hps⟩ := hs hc
  obtain ⟨ht, hrs⟩ := ht hc
  refine ⟨by rw [String.toList_append, hs, ht, List.flatMap_append], fun p hp => ?_⟩
  exact (List.mem_append.mp hp).elim (hps p) (hrs p)

theorem enclosed (h : Shows q clear s ps) : Shows q clear (parenthesized s) (Part.enclosed ps) :=
  ((word "(").append h).append (word ")")

theorem joined (separator : String) (h : List.Forall₂ (Shows q clear) ss pss) :
    Shows q clear (separator.intercalate ss) (Part.joined separator pss) := by
  induction h with
  | nil => exact nil
  | @cons s ps ss pss hs hrest ih =>
    cases hrest with
    | nil => simpa [Part.joined, List.intercalate] using hs
    | cons hs' hrest' =>
      rw [String.intercalate_cons_cons, Part.joined, List.intercalate_cons_cons]
      exact (hs.append (word separator)).append ih

theorem concat (h : List.Forall₂ (Shows q clear) ss pss) :
    Shows q clear ("".intercalate ss) pss.flatten := by
  rw [← Part.joined_empty]
  exact joined "" h

theorem eq_empty_iff (h : Shows q clear s ps) (hc : clear) : s = "" ↔ ps = [] := by
  obtain ⟨hs, hps⟩ := h hc
  rw [← String.toList_eq_nil_iff, hs, List.flatMap_eq_nil_iff]
  constructor
  · intro hnil
    rcases ps with _ | ⟨p, ps⟩
    · rfl
    · exact absurd (hnil p List.mem_cons_self) (Part.write_ne_nil (hps p List.mem_cons_self))
  · rintro rfl
    simp

theorem clause (keyword : String) (h : Shows q clear s ps) :
    Shows q clear (clause keyword s) (Part.clause keyword ps) := fun hc => by
  by_cases hs : s = ""
  · obtain rfl := (h.eq_empty_iff hc).mp hs
    simp [SqlComposer.clause, Part.clause, hs]
  · have hps : ps ≠ [] := fun hps => hs ((h.eq_empty_iff hc).mpr hps)
    simpa [SqlComposer.clause, Part.clause, hs, hps] using (word keyword).append h hc

theorem listClause (keyword separator : String) (h : List.Forall₂ (Shows q clear) ss pss) :
    Shows q clear (listClause keyword separator ss) (Part.listClause keyword separator pss) := by
  cases h with
  | nil => exact nil
  | cons hs hrest => exact (word keyword).append (joined separator (.cons hs hrest))

theorem united (h : Shows q clear s ps) (hs : List.Forall₂ (Shows q clear) ss pss) :
    Shows q clear (united s ss) (Part.united ps pss) := by
  cases hs with
  | nil => exact h
  | cons hs hrest => exact h.enclosed.append (concat (.cons hs hrest))

theorem trim (h : Shows q clear s ps) : Shows q clear (Text.trim s) (Part.trim ps) := fun hc => by
  obtain ⟨hs, hps⟩ := h hc
  refine ⟨?_, fun p hp => hps p (Part.trim_subset ps p hp)⟩
  rw [Part.flatMap_write_trim hps, ← hs, String.ofList_toList]

theorem directed (direction : Option String) (h : Shows q clear s ps) :
    Agree (Shows q clear) (directed s direction) (Part.directed ps direction) := by
  simp only [SqlComposer.directed, Part.directed]
  split
  · exact h
  · split
    · exact (h.append (word " ")).append (word _)
    · rfl

theorem eraseDupsBy {α β : Type} {R : α → β → Prop} {r : α → α → Bool} {r' : β → β → Bool}
    (hr : ∀ a b a' b', R a b → R a' b' → r a a' = r' b b') {as : List α} {bs : List β}
    (h : List.Forall₂ R as bs) : List.Forall₂ R (as.eraseDupsBy r) (bs.eraseDupsBy r') := by
  induction hn : as.length using Nat.strongRecOn generalizing as bs with
  | ind n ih =>
    cases h with
    | nil => exact .nil
    | @cons a b as bs hab h =>
      rw [List.eraseDupsBy_cons, List.eraseDupsBy_cons]
      refine .cons hab (ih _ ?_ (List.rel_filter ?_ h) rfl)
      · have := List.length_filter_le (fun b => decide (r b a = false)) as
        rw [List.length_cons] at hn
        omega
      · intro a' b' hab'
        simp [hr _ _ _ _ hab' hab]

theorem distinct (h : List.Forall₂ (Shows q clear) ss pss) (hc : clear) :
    List.Forall₂ (Shows q clear) ss.eraseDups (Part.distinct q pss) := by
  refine eraseDupsBy (fun s ps t rs hs ht => ?_) h
  rw [← (hs hc).1, ← (ht hc).1, Bool.eq_iff_iff]
  simp [String.toList_inj]

theorem columns (h : List.Forall₂ (Shows q clear) ss pss) :
    Shows q clear (if ss.isEmpty then "*" else ", ".intercalate ss.eraseDups)
      (if pss.isEmpty then Part.word "*" else Part.joined ", " (Part.distinct q pss)) := fun hc => by
  cases h with
  | nil => exact word "*" hc
  | cons hs hrest => exact joined ", " (distinct (.cons hs hrest) hc) hc

theorem columnList (h : List.Forall₂ (Shows q clear) ss pss) :
    Shows q clear (if ss.isEmpty then "" else parenthesized (", ".intercalate ss) ++ " ")
      (if pss.isEmpty then [] else Part.enclosed (Part.joined ", " pss) ++ Part.word " ") := by
  cases h with
  | nil => exact nil
  | cons hs hrest => exact (joined ", " (.cons hs hrest)).enclosed.append (word " ")

end Shows

theorem Agree.eq_sql {q : Quoting} {clear : Prop} (hc : clear) {x : Outcome String}
    {y : Outcome (List Part)} (h : Agree (Shows q clear) x y) : x = Part.sql q <$> y := by
  cases x with
  | error e =>
    cases y with
    | error e' => exact congrArg Except.error h
    | ok ps => exact h.elim
  | ok s =>
    obtain ⟨ps, rfl, hs⟩ := h.exists_ok rfl
    have hs := (hs hc).1
    change Except.ok s = .ok (Part.sql q ps)
    rw [Part.sql, ← hs, String.ofList_toList]

/-! ## The rules of a dialect -/

/-- Nothing but a blank of the code and a key has a blank at its ends. -/
def Quoting.Solid (q : Quoting) : Prop := ∀ p : Part, (∀ key, p ≠ .place key) → p.Solid q

namespace Dialect

variable (d : Dialect)

theorem literal_eq (s : String) : ∃ t, (d.literal s).toList = '\'' :: t ++ ['\''] := by
  cases d
  · exact ⟨_, String.toList_ofList⟩
  · exact ⟨_, String.toList_ofList⟩

theorem mark_eq : ∃ c, d.mark.toList = [c] ∧ Text.isBlank c = false := by
  cases d
  · exact ⟨'"', rfl, by decide⟩
  · exact ⟨'\x60', rfl, by decide⟩

theorem quoting_solid (tablePrefix : String) : (d.quoting tablePrefix).Solid := by
  have hquoted : ∀ (c : Char) (t : List Char), Text.isBlank c = false →
      Part.Starts (c :: t ++ [c]) ∧ Part.Starts (c :: t ++ [c]).reverse :=
    fun c t hc => ⟨⟨c, rfl, hc⟩, ⟨c, by simp, hc⟩⟩
  intro p h hb
  cases p with
  | code c => exact Part.solid_code c hb
  | name s =>
    obtain ⟨c, hmark, hc⟩ := d.mark_eq
    have := hquoted c s.toList hc
    simpa [Part.write, Part.chars, Quoting.wrap, Dialect.quoting, hmark] using this
  | literal s =>
    obtain ⟨t, ht⟩ := d.literal_eq s
    have := hquoted '\'' t (by decide)
    simpa [Part.write, Part.chars, Dialect.quoting, ht] using this
  | flag b =>
    cases b
    · simpa [Part.write, Part.chars, Dialect.quoting] using hquoted '\'' ['0'] (by decide)
    · simpa [Part.write, Part.chars, Dialect.quoting] using hquoted '\'' ['1'] (by decide)
  | place key => exact absurd rfl (h key)

end Dialect

/-! ## Names -/

namespace Shows

variable {q : Quoting} (hq : q.Solid) {clear : Prop}
include hq

theorem single (p : Part) (h : ∀ key, p ≠ .place key) :
    Shows q clear (String.ofList (p.write q)) [p] := fun _ => ⟨by simp, by simpa using hq p h⟩

theorem wrap (s : String) : Shows q clear (q.wrap s) [.name s] := by
  simpa [Part.write, Part.chars] using single hq (.name s) (by simp)

theorem partText (role : Role) (part : String) :
    Shows q clear (q.partText role part) (Quoting.partParts role part) := by
  unfold Quoting.partText Quoting.partParts
  split
  · exact word part
  · exact wrap hq part

theorem nameText (role : Role) (name : String) :
    Shows q clear (q.nameText role name) (q.nameParts role name) := by
  refine joined "." ?_
  rw [List.forall₂_map_left_iff, List.forall₂_map_right_iff, List.forall₂_same]
  exact fun part _ => partText hq role part

theorem aliasText (role : Role) (name : String) :
    Shows q clear (q.aliasText role name) (q.aliasParts role name) := wrap hq _

theorem targetText (role : Role) (name : String) :
    Shows q clear (q.targetText role name) (q.targetParts role name) := nameText hq _ name

end Shows

end SqlComposer
