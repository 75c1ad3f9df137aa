import SqlComposer.Proofs.Agreement
import SqlComposer.Proofs.Grammatical
import SqlComposer.Proofs.Lexing
import SqlComposer.Proofs.Names

/-!
# Statements that are read as they are written

Without parameters nothing has a place, so filling changes nothing. What is left is that operators
and the kinds of joins open nothing, that groups match, and that the table prefix has no mark.
-/

namespace SqlComposer

/-- A text that opens and closes nothing in the code. -/
def Dialect.Inert (d : Dialect) (s : String) : Prop :=
  (∀ c ∈ s.toList, d.isQuiet c = true ∧ c ≠ '(' ∧ c ≠ ')') ∧ s.toList.IsChain Text.Apart

instance (d : Dialect) (s : String) : Decidable (d.Inert s) :=
  haveI := List.decidableBAll (fun c => d.isQuiet c = true ∧ c ≠ '(' ∧ c ≠ ')') s.toList
  inferInstanceAs (Decidable (_ ∧ List.IsChain _ _))

/-- Any names and any texts, but no parameters and nothing raw, and queries as rows only. -/
def Policy.lexical (d : Dialect) : Policy where
  name _ := True
  operator := d.Inert
  joinKind := d.Inert
  text _ := True
  key _ := False
  cell _ := False
  groups entries := Condition.climb 0 entries = some 0
  raw := False
  asName := False
  asRows := True
  values := True

variable {d : Dialect} {tablePrefix : String} {isKey : String → Bool}

theorem Policy.lexical_clear (d : Dialect) : (Policy.lexical d).Clear :=
  ⟨fun _ h => h.elim, fun _ h => h.elim⟩

/-! ## What is good -/

theorem Text.isPlain_ne {c e : Char} (hc : isPlain c = true) (he : isPlain e = false) : c ≠ e := by
  rintro rfl
  rw [hc] at he
  exact absurd he (by decide)

theorem Dialect.isQuiet_of_code {c : Char}
    (h : Text.isPlain c = true ∨ c = '(' ∨ c = ')' ∨ c = '-') : d.isQuiet c = true := by
  rcases h with h | rfl | rfl | rfl
  · have h1 := Text.isPlain_ne h (e := '\'') (by decide)
    have h2 := Text.isPlain_ne h (e := '"') (by decide)
    have h3 := Text.isPlain_ne h (e := '\x60') (by decide)
    have h4 := Text.isPlain_ne h (e := '\\') (by decide)
    have h5 := Text.isPlain_ne h (e := '#') (by decide)
    cases d <;> simp [isQuiet, startsComment, h1, h2, h3, h4, h5]
  all_goals cases d <;> decide

theorem Text.apart_of_isSoft {c e : Char}
    (h : (Part.code c).isSoft = true ∨ (Part.code e).isSoft = true) : Apart c e := by
  simp only [Part.isSoft, List.contains_eq_mem, List.mem_cons, List.not_mem_nil, or_false,
    decide_eq_true_eq] at h
  constructor
  · rintro ⟨rfl, rfl⟩
    simp at h
  · rintro ⟨rfl, rfl⟩
    simp at h

theorem Text.apart_of_isPlain {c e : Char} (hc : isPlain c = true ∨ c = '-')
    (he : isPlain e = true) : Apart c e := by
  constructor
  · rintro ⟨-, rfl⟩
    exact absurd he (by decide)
  · rintro ⟨rfl, -⟩
    rcases hc with hc | hc
    · exact absurd hc (by decide)
    · exact absurd hc (by decide)

theorem Grammar.lexical_lawful (d : Dialect) : (lexical d).Lawful := by
  refine ⟨fun p r h => ?_, fun c hc => Dialect.isQuiet_of_code hc,
    fun c e hc he => Text.apart_of_isPlain hc he, fun _ => trivial⟩
  cases p with
  | code c =>
    cases r with
    | code e => exact Text.apart_of_isSoft h
    | _ => trivial
  | _ =>
    cases r with
    | code e => trivial
    | _ => simp [Part.isSoft] at h

theorem Dialect.isSign_of_not_isQuiet {c : Char}
    (h : ¬ (d.isQuiet c = true ∧ c ≠ '(' ∧ c ≠ ')')) : Text.isSign c = true := by
  by_cases hparen : c = '(' ∨ c = ')'
  · rcases hparen with rfl | rfl <;> decide
  · have hloud : d.isQuiet c = false := by
      rw [not_or] at hparen
      simpa [hparen.1, hparen.2] using h
    have hcases : c = '\'' ∨ c = '"' ∨ c = '\x60' ∨ c = '\\' ∨ c = '#' := by
      cases d with
      | standard => simp [isQuiet, startsComment] at hloud; tauto
      | mysql => simp [isQuiet, startsComment] at hloud; tauto
    rcases hcases with rfl | rfl | rfl | rfl | rfl <;> decide

theorem Text.isSign_of_not_apart {c e : Char} (h : ¬ Apart c e) :
    isSign c = true ∧ isSign e = true := by
  unfold Apart at h
  rw [not_and_or, not_not, not_not] at h
  rcases h with ⟨rfl, rfl⟩ | ⟨rfl, rfl⟩ <;> decide

/-- Upper case opens and closes nothing either. -/
theorem Dialect.Inert.fine {s : String} (h : d.Inert s) (isKey : String → Bool) :
    (Grammar.lexical d).Fine isKey (Part.word (Text.upper s)) := by
  obtain ⟨hquiet, hapart⟩ := h
  have hupper : ∀ c ∈ (Text.upper s).toList, d.isQuiet c = true ∧ c ≠ '(' ∧ c ≠ ')' := by
    intro c hc
    by_contra hloud
    exact hloud (hquiet c (Text.mem_of_mem_upper (isSign_of_not_isQuiet hloud) hc))
  refine ⟨fun p hp => ?_, ?_, fun _ => Part.climb_of_step fun p hp n => ?_, fun key hp => ?_⟩
  · obtain ⟨c, hc, rfl⟩ := Part.mem_word.mp hp
    exact (hupper c hc).1
  · have hchain := Text.isChain_flatMap_upperChar (fun x y => Text.isSign_of_not_apart) hapart
    rw [Part.word, Text.upper_eq]
    exact (List.isChain_map _).mpr hchain
  · obtain ⟨c, hc, rfl⟩ := Part.mem_word.mp hp
    exact Part.step_code (hupper c hc).2 n
  · obtain ⟨c, -, hc⟩ := Part.mem_word.mp hp
    cases hc

/-! ## Nothing to fill -/

/-- Good parts have no places, so they stay as they are. -/
theorem Part.flatMap_settle {ps : List Part} (h : ∀ p ∈ ps, (Grammar.lexical d).good p)
    (table : List Filling) : ps.flatMap (settle table) = ps := by
  induction ps with
  | nil => rfl
  | cons p ps ih =>
    have hp : p.settle table = [p] := by
      cases p with
      | place key => exact (h _ List.mem_cons_self).elim
      | _ => rfl
    rw [List.flatMap_cons, hp, ih fun r hr => h r (List.mem_cons_of_mem _ hr)]
    rfl

theorem Grammar.lexical_settled {dr : Draft} (h : (lexical d).FineDraft (.lexical d) isKey dr)
    (isKey' : String → Bool) :
    Yields ((lexical d).Fine isKey') dr.settled := by
  have hfillings : Yields _ dr.fillings := h.fillings trivial
  refine hfillings.bind fun table _ => .ok ?_
  rw [Part.flatMap_settle h.parts.good]
  exact ⟨h.parts.good, h.parts.fits, h.parts.level, fun key hkey => (h.parts.good _ hkey).elim⟩

variable {cell : CellId → Outcome String}

theorem Dialect.not_mem_strip (d : Dialect) (tablePrefix s : String) :
    d.nameMark ∉ ((d.quoting tablePrefix).strip s).toList := by
  have hmark : d.mark.toList = [d.nameMark] := by cases d <;> rfl
  exact Text.not_mem_strip hmark s

theorem Grammar.lexical_admits (d : Dialect) (hpre : d.nameMark ∉ tablePrefix.toList) :
    (lexical d).Admits (.lexical d) ⟨d.quoting tablePrefix, cell⟩ where
  lawful := lexical_lawful d
  raw := id
  float := Text.isNumeral_fixed 6
  text _ _ := trivial
  key _ h := h.elim
  name s _ role part hpart hc := by
    rcases Quoting.mem_of_mem_parts hpart hc with h | h
    · exact d.not_mem_strip tablePrefix s h
    · exact hpre h
  aliasName s _ := by
    refine ⟨d.not_mem_strip tablePrefix s, fun h => ?_⟩
    rw [String.toList_append, List.mem_append] at h
    exact h.elim hpre (d.not_mem_strip tablePrefix s)
  operator op hop isKey := hop.fine isKey
  joinKind kind hkind isKey := hkind.fine isKey
  groups _ h _ := h
  cell _ _ h := h.elim
  nests _ _ _ hd := lexical_settled hd

/-! ## What is rendered -/

theorem Draft.lexical_fill {t : Template} {dr : Draft}
    (hshown : Draft.Shown (.lexical d) ⟨d.quoting tablePrefix, cell⟩ t dr)
    (hfine : (Grammar.lexical d).FineDraft (.lexical d) isKey dr) :
    Agree (Shows (d.quoting tablePrefix) (Policy.lexical d).Clear) t.fill dr.settled := by
  have hagree := (hshown.fillings trivial).and_yields (hfine.fillings trivial)
  refine hagree.bind fun table fillings h => ?_
  obtain ⟨hlist, hkeys, -⟩ := h
  have hnil : fillings = [] := List.eq_nil_iff_forall_not_mem.mpr fun f hf => (hkeys f hf).1
  obtain rfl : table = [] := by
    subst hnil
    cases hlist
    rfl
  rw [Text.replaceAll_nil, Part.flatMap_settle hfine.parts.good]
  exact hshown.parts

theorem Policy.lexical_grounds (d : Dialect) (hpre : d.nameMark ∉ tablePrefix.toList) :
    (Policy.lexical d).Grounds ⟨d.quoting tablePrefix, cell⟩ := by
  refine ⟨d.quoting_solid tablePrefix, fun s hs _ h => ?_⟩
  have hadmits : (Grammar.lexical d).Admits (.lexical d) ⟨d.quoting tablePrefix, cell⟩ :=
    Grammar.lexical_admits d hpre
  have hfine := Select.fine hadmits s hs
  exact (h.and_yields hfine).bind fun _ _ h => Draft.lexical_fill h.1 h.2

theorem Statement.toSql_eq_parts (d : Dialect) (hpre : d.nameMark ∉ tablePrefix.toList)
    (s : Statement) (hs : s.Obeys (.lexical d)) :
    s.toSql ⟨d.quoting tablePrefix, cell⟩ =
      Part.sql (d.quoting tablePrefix) <$> s.direct ⟨d.quoting tablePrefix, cell⟩ := by
  have hadmits : (Grammar.lexical d).Admits (.lexical d) ⟨d.quoting tablePrefix, cell⟩ :=
    Grammar.lexical_admits d hpre
  have hgrounds : (Policy.lexical d).Grounds ⟨d.quoting tablePrefix, cell⟩ :=
    Policy.lexical_grounds d hpre
  have hagree := Statement.agree hgrounds s hs
  have hfine := Statement.fine hadmits s hs
  have hfilled := (hagree.and_yields hfine).bind fun _ _ h => Draft.lexical_fill h.1 h.2
  exact hfilled.eq_sql (Policy.lexical_clear d)

theorem Statement.fine_direct (d : Dialect) (hpre : d.nameMark ∉ tablePrefix.toList)
    (s : Statement) (hs : s.Obeys (.lexical d)) :
    Yields ((Grammar.lexical d).Fine fun _ => false) (s.direct ⟨d.quoting tablePrefix, cell⟩) :=
  (Statement.fine (Grammar.lexical_admits d hpre) s hs).bind fun _ hd =>
    Grammar.lexical_settled hd _

end SqlComposer
