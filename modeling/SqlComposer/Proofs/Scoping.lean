import SqlComposer.Proofs.Agreement
import SqlComposer.Proofs.Grammatical
import SqlComposer.Proofs.Names

/-!
# Parameters are scoped

Keys are a colon with a word behind it, and there is no colon but in keys. Then the second phase
finds each key in the places made for it and nowhere else, the longer of two keys is never taken
for the shorter one, and a query that is part of another one has nothing left to be found.
-/

namespace SqlComposer

open Text (Met meets longestKey)

/-! ## Keys -/

def Text.isWordChar (c : Char) : Bool := c.isAlphanum || c == '_'

def Text.IsKey (key : String) : Prop :=
  ∃ word, key.toList = ':' :: word ∧ word ≠ [] ∧ ∀ c ∈ word, isWordChar c = true

/-- No colon but in keys, no raw SQL, and queries anywhere. The cells that parameters are bound to
are among the `bound` ones. -/
def Policy.keyed (bound : CellId → Prop) : Policy where
  name s := ':' ∉ s.toList
  operator s := ':' ∉ s.toList
  joinKind s := ':' ∉ s.toList
  text s := ':' ∉ s.toList
  key := Text.IsKey
  cell := bound
  groups _ := True
  raw := False
  asName := True
  asRows := True
  values := True

/-- No colon but in places, and no word behind a place. -/
def Grammar.keyed : Grammar where
  good
    | .code c => c ≠ ':'
    | .name s => ':' ∉ s.toList
    | .literal s => ':' ∉ s.toList
    | .flag _ => True
    | .place key => Text.IsKey key
  fits
    | .place _, .code c => Text.isWordChar c = false
    | .place _, _ => False
    | _, _ => True
  nested := False

theorem Text.toNat_lt_of_isWordChar {c : Char} (h : isWordChar c = true) : c.toNat < 128 := by
  delta isWordChar Char.isAlphanum Char.isAlpha Char.isUpper Char.isLower Char.isDigit at h
  simp only [Bool.or_eq_true, Bool.and_eq_true, decide_eq_true_eq, beq_iff_eq, ge_iff_le,
    UInt32.le_iff_toNat_le] at h
  rcases h with h | rfl
  · have hval : c.toNat = c.val.toNat := rfl
    have hZ : 'Z'.val.toNat = 90 := rfl
    have hz : 'z'.val.toNat = 122 := rfl
    have h9 : '9'.val.toNat = 57 := rfl
    omega
  · decide

theorem Text.isBlank_of_isWordChar {c : Char} (h : isWordChar c = true) : isBlank c = false := by
  have hascii : ∀ n < 128, isWordChar (Char.ofNat n) = true → isBlank (Char.ofNat n) = false := by
    decide
  have hlt := toNat_lt_of_isWordChar h
  rw [← Char.ofNat_toNat c] at h ⊢
  exact hascii _ hlt h

theorem Policy.keyed_clear (bound : CellId → Prop) : (Policy.keyed bound).Clear := by
  refine ⟨fun s hkey htext => ?_, fun key hkey => ?_⟩
  · obtain ⟨word, hs, -⟩ := hkey
    exact htext (by simp [hs])
  · obtain ⟨word, hs, hne, hword⟩ := hkey
    refine ⟨⟨':', by simp [hs], by decide⟩, ?_⟩
    obtain ⟨c, hc⟩ := Option.ne_none_iff_exists'.mp (mt List.getLast?_eq_none_iff.mp hne)
    refine ⟨c, ?_, Text.isBlank_of_isWordChar (hword c (List.mem_of_getLast? hc))⟩
    rw [List.head?_reverse, hs, List.getLast?_cons, hc]
    rfl

/-! ## What the pass meets -/

section

variable {keys : List String}

theorem meets_of_free (hkeys : ∀ k ∈ keys, Text.IsKey k) {s : List Char} (h : ':' ∉ s)
    (rest : List Char) : meets keys 0 (s ++ rest) = s.map .char ++ meets keys 0 rest := by
  induction s with
  | nil => rfl
  | cons c s ih =>
    have hnone : longestKey keys (c :: (s ++ rest)) = none := by
      refine Text.longestKey_eq_none_iff.mpr fun k hk _ hpre => ?_
      obtain ⟨word, hword, -⟩ := hkeys k hk
      rw [hword, List.cons_prefix_cons] at hpre
      exact h (hpre.1 ▸ List.mem_cons_self)
    rw [List.cons_append, meets, hnone, ih fun hs => h (List.mem_cons_of_mem _ hs)]
    rfl

/-- A key is taken as a whole if no word goes on behind it. -/
theorem meets_of_key (hkeys : ∀ k ∈ keys, Text.IsKey k) {key : String} (hkey : key ∈ keys)
    {rest : List Char} (h : ∀ c ∈ rest.head?, Text.isWordChar c = false) :
    meets keys 0 (key.toList ++ rest) = .key key :: meets keys 0 rest := by
  refine Text.meets_key (Text.longestKey_eq_some_iff.mpr ⟨⟨hkey, ?_, ?_⟩, fun a ha _ hpre => ?_⟩)
  · obtain ⟨word, hword, -⟩ := hkeys key hkey
    rintro rfl
    simp at hword
  · exact List.prefix_append _ _
  · obtain ⟨word, hword, -, hall⟩ := hkeys a ha
    -- A longer key would go on with a character of a word, but the rest starts with none.
    by_contra hlt
    have hlen : key.toList.length < a.toList.length := by
      rw [String.length_toList, String.length_toList]
      omega
    obtain ⟨more, hmore⟩ := List.prefix_of_prefix_length_le (List.prefix_append key.toList rest)
      hpre hlen.le
    rw [← hmore, List.prefix_append_right_inj] at hpre
    rcases more with _ | ⟨c, more⟩
    · simp [← hmore] at hlen
    · have hc : Text.isWordChar c = true := by
        obtain ⟨word', hword', -⟩ := hkeys key hkey
        rw [hword, hword', List.cons_append, List.cons.injEq] at hmore
        exact hall c (by simp [← hmore.2])
      obtain ⟨tail, rfl⟩ := hpre
      simp [h c (by simp)] at hc

/-- The pass meets the keys in their places. -/
theorem meets_write {q : Quoting} (hkeys : ∀ k ∈ keys, Text.IsKey k) {ps : List Part}
    (hfree : ∀ p ∈ ps, (∀ key, p ≠ .place key) → ':' ∉ p.write q)
    (hfits : ps.IsChain Grammar.keyed.fits) (hplaces : ∀ key, Part.place key ∈ ps → key ∈ keys) :
    meets keys 0 (ps.flatMap (Part.write q)) = ps.flatMap (Part.met q) := by
  induction ps with
  | nil => rfl
  | cons p ps ih =>
    have ih := ih (fun r hr => hfree r (List.mem_cons_of_mem _ hr)) hfits.tail
      fun key hkey => hplaces key (List.mem_cons_of_mem _ hkey)
    rw [List.flatMap_cons, List.flatMap_cons, ← ih]
    by_cases hp : ∃ key, p = .place key
    · obtain ⟨key, rfl⟩ := hp
      -- Behind a place, `fits` admits nothing but code that is not part of a word.
      refine meets_of_key hkeys (hplaces key List.mem_cons_self) fun c hc => ?_
      rcases ps with _ | ⟨r, ps⟩
      · simp at hc
      · have hr : Grammar.keyed.fits (.place key) r := (List.isChain_cons_cons.mp hfits).1
        cases r with
        | code e =>
          obtain rfl : e = c := by simpa [Part.write, Part.chars] using hc
          exact hr
        | _ => exact hr.elim
    · have hp : ∀ key, p ≠ .place key := fun key hkey => hp ⟨key, hkey⟩
      have hmet : p.met q = (p.write q).map .char := by
        cases p with
        | place key => exact absurd rfl (hp key)
        | _ => rfl
      rw [hmet]
      exact meets_of_free hkeys (hfree p List.mem_cons_self hp) _

end

/-! ## What may occur has no colon -/

theorem Text.not_mem_doubleQuotes {c : Char} (hc : c ≠ '\'') {s : List Char} (h : c ∉ s) :
    c ∉ doubleQuotes s := by
  induction s with
  | nil => simp [doubleQuotes]
  | cons e s ih =>
    have ih := ih fun hs => h (List.mem_cons_of_mem _ hs)
    have he : c ≠ e := fun he => h (he ▸ List.mem_cons_self)
    rw [doubleQuotes]
    split <;> simp [hc, he, ih]

theorem Text.not_mem_backslashed {s : List Char} (h : ':' ∉ s) : ':' ∉ backslashed s := by
  induction s with
  | nil => simp [backslashed]
  | cons e s ih =>
    have ih := ih fun hs => h (List.mem_cons_of_mem _ hs)
    have he : ':' ≠ e := fun he => h (he ▸ List.mem_cons_self)
    rw [backslashed]
    split
    · next letter hletter =>
      have : ':' ≠ letter := by
        rintro rfl
        simp only [backslashLetter?] at hletter
        grind
      simp [ih, this]
    · simp [he, ih]

theorem Dialect.not_mem_literal (d : Dialect) {s : String} (h : ':' ∉ s.toList) :
    ':' ∉ (d.literal s).toList := by
  cases d with
  | standard =>
    have := Text.not_mem_doubleQuotes (by decide) h
    simp [literal, Text.doubledLiteral, this]
  | mysql =>
    have := Text.not_mem_backslashed h
    simp [literal, Text.backslashLiteral, this]

variable {d : Dialect} {tablePrefix : String}

theorem Grammar.keyed_free {p : Part} (h : keyed.good p) (hp : ∀ key, p ≠ .place key) :
    ':' ∉ p.write (d.quoting tablePrefix) := by
  cases p with
  | code c => exact fun hc => h (List.mem_singleton.mp hc).symm
  | name s =>
    have hs : ':' ∉ s.toList := h
    cases d <;> simp [Part.write, Part.chars, Quoting.wrap, Dialect.quoting, Dialect.mark, hs]
  | literal s => exact d.not_mem_literal h
  | flag b => cases b <;> simp [Part.write, Part.chars, Dialect.quoting]
  | place key => exact absurd rfl (hp key)

theorem Grammar.keyed_lawful : keyed.Lawful := by
  refine ⟨fun p r h => ?_, fun c hc => ?_, fun _ _ _ _ => trivial, fun _ => trivial⟩
  · cases p with
    | place key =>
      rcases h with h | h
      · simp [Part.isSoft] at h
      · cases r with
        | code c =>
          simp only [Part.isSoft, List.contains_eq_mem, List.mem_cons, List.not_mem_nil, or_false,
            decide_eq_true_eq] at h
          have hword : Text.isWordChar c = false := by
            rcases h with rfl | rfl | rfl | rfl | rfl <;> decide
          exact hword
        | _ => simp [Part.isSoft] at h
    | _ => cases r <;> trivial
  · rintro rfl
    simp [Text.isPlain] at hc

theorem Grammar.fine_keyed_of_free {s : String} (h : ':' ∉ s.toList) (isKey : String → Bool) :
    keyed.Fine isKey (Part.word s) := by
  refine ⟨fun p hp => ?_, ?_, fun h => h.elim, fun key hp => ?_⟩
  · obtain ⟨c, hc, rfl⟩ := Part.mem_word.mp hp
    rintro rfl
    exact h hc
  · exact (List.isChain_map _).mpr (List.isChain_iff_getElem.mpr fun _ _ => trivial)
  · obtain ⟨c, -, hc⟩ := Part.mem_word.mp hp
    cases hc

/-- Parts without places may stand side by side. -/
theorem Grammar.keyed_fine {ps : List Part} (hgood : ∀ p ∈ ps, keyed.good p)
    (hplaces : ∀ key, Part.place key ∉ ps) (isKey : String → Bool) : keyed.Fine isKey ps := by
  refine ⟨hgood, List.isChain_iff_getElem.mpr fun i hi => ?_, fun h => h.elim,
    fun key hkey => absurd hkey (hplaces key)⟩
  have hp : ∀ key, ps[i] ≠ .place key := fun key hkey =>
    hplaces key (hkey ▸ List.getElem_mem _)
  cases h : ps[i] with
  | place key => exact absurd h (hp key)
  | _ => trivial

/-! ## Filling the places -/

section

variable {bound : CellId → Prop} {isKey : String → Bool}

theorem Part.settle_of_fine {table : List Filling}
    (h : ∀ f ∈ table, Grammar.keyed.Fine (fun _ => false) f.parts) {p : Part}
    (hp : Grammar.keyed.good p) :
    ∀ r ∈ p.settle table, Grammar.keyed.good r ∧ ∀ key, r ≠ .place key := by
  cases p with
  | place key =>
    simp only [settle, filling]
    cases hf : table.find? (·.key == key) with
    | none => simp
    | some f =>
      have hfine := h f (List.mem_of_find?_eq_some hf)
      intro r hr
      refine ⟨hfine.good r hr, fun key' hkey' => ?_⟩
      simpa using hfine.places key' (hkey' ▸ hr)
  | _ => simpa [settle] using hp

theorem Grammar.fine_settled {dr : Draft} (h : Grammar.keyed.FineDraft (.keyed bound) isKey dr)
    (isKey' : String → Bool) : Yields (Grammar.keyed.Fine isKey') dr.settled := by
  have hfillings : Yields _ dr.fillings := h.fillings trivial
  refine hfillings.bind fun table htable => .ok ?_
  have hsettled := fun p hp => Part.settle_of_fine (fun f hf => (htable.1 f hf).2)
    (h.parts.good p hp)
  refine Grammar.keyed_fine (fun r hr => ?_) (fun key hkey => ?_) isKey'
  · obtain ⟨p, hp, hr⟩ := List.mem_flatMap.mp hr
    exact (hsettled p hp r hr).1
  · obtain ⟨p, hp, hr⟩ := List.mem_flatMap.mp hkey
    exact (hsettled p hp _ hr).2 key rfl

variable {cell : CellId → Outcome String}

theorem Grammar.keyed_admits (d : Dialect) (hpre : ':' ∉ tablePrefix.toList)
    (hcell : ∀ id s, bound id → cell id = .ok s → ':' ∉ s.toList) :
    Grammar.keyed.Admits (.keyed bound) ⟨d.quoting tablePrefix, cell⟩ where
  lawful := keyed_lawful
  raw := id
  float := Text.isNumeral_fixed 6
  text _ h := h
  key _ h := h
  name s hs role part hpart hc := by
    rcases Quoting.mem_of_mem_parts hpart hc with h | h
    · exact hs (Text.mem_of_mem_strip h)
    · exact hpre h
  aliasName s hs := by
    refine ⟨fun h => hs (Text.mem_of_mem_strip h), fun h => ?_⟩
    rw [String.toList_append, List.mem_append] at h
    exact h.elim hpre fun h => hs (Text.mem_of_mem_strip h)
  operator op hop := fine_keyed_of_free fun h => hop (Text.mem_of_mem_upper (by decide) h)
  joinKind kind hkind := fine_keyed_of_free fun h => hkind (Text.mem_of_mem_upper (by decide) h)
  groups _ _ h := h.elim
  cell id s hid hs := fine_keyed_of_free (hcell id s hid hs) _
  nests _ _ _ hd := fine_settled hd

theorem Part.flatMap_write_settle (q : Quoting) (table : List Filling) (p : Part) :
    (p.settle table).flatMap (write q) =
      p.chars q fun key => (filling table key).flatMap (write q) := by
  cases p <;> simp [settle, write, chars]

variable {p : Policy} {ctx : Context} {table : List Text.Replacement} {fillings : List Filling}

theorem Filling.map_key_eq (h : List.Forall₂ (Filling.Shown p ctx) table fillings) :
    table.map (·.key) = fillings.map (·.key) := by
  induction h with
  | nil => rfl
  | cons h _ ih => rw [List.map_cons, List.map_cons, h.1, ih]

/-- What the pass puts in the place of a key is what the direct rendering puts there. -/
theorem Filling.text_eq (hc : p.Clear) (h : List.Forall₂ (Filling.Shown p ctx) table fillings)
    {r : Text.Replacement} (hr : table.find? (·.key == r.key) = some r) :
    r.text.toList = (Part.filling fillings r.key).flatMap (Part.write ctx.quoting) := by
  induction h with
  | nil => simp at hr
  | @cons a f table fillings hshown _ ih =>
    obtain ⟨hkey, htext⟩ := hshown
    by_cases ha : a.key = r.key
    · obtain rfl : a = r := by simpa [ha] using hr
      simpa [Part.filling, ← hkey] using (htext hc).1
    · have hf : f.key ≠ r.key := hkey ▸ ha
      have := ih (by simpa [ha] using hr)
      simpa [Part.filling, hf] using this

theorem Draft.fill_agree {t : Template} {dr : Draft}
    (hshown : Draft.Shown (.keyed bound) ⟨d.quoting tablePrefix, cell⟩ t dr)
    (hfine : Grammar.keyed.FineDraft (.keyed bound) isKey dr) :
    Agree (Shows (d.quoting tablePrefix) (Policy.keyed bound).Clear) t.fill dr.settled := by
  have hagree := (hshown.fillings trivial).and_yields (hfine.fillings trivial)
  refine hagree.bind fun table fillings h => ?_
  obtain ⟨hlist, hkeys, hfilled⟩ := h
  have hsettled := fun p hp => Part.settle_of_fine (fun f hf => (hkeys f hf).2)
    (hfine.parts.good p hp)
  refine fun hc => ⟨?_, fun p hp => d.quoting_solid tablePrefix p fun key hkey => ?_⟩
  -- The pass meets the places and nothing else, and both sides put the same texts there.
  · obtain ⟨hsql, -⟩ := hshown.parts hc
    have hkey : ∀ k ∈ table.map (·.key), Text.IsKey k := by
      rw [Filling.map_key_eq hlist, List.forall_mem_map]
      exact fun f hf => (hkeys f hf).1
    have hplaces : ∀ key, Part.place key ∈ dr.parts → key ∈ table.map (·.key) := by
      intro key hmem
      have hne : key ≠ "" := by
        obtain ⟨word, hword, -⟩ := hfine.parts.good _ hmem
        rintro rfl
        simp at hword
      obtain ⟨f, hf, rfl⟩ := hfilled key (hfine.parts.places key hmem) hne
      rw [Filling.map_key_eq hlist]
      exact List.mem_map_of_mem hf
    have hmeets := meets_write (q := d.quoting tablePrefix) hkey
      (fun p hp => Grammar.keyed_free (hfine.parts.good p hp)) hfine.parts.fits hplaces
    change (String.ofList (Text.replaceFrom table 0 t.sql.toList)).toList =
      (dr.parts.flatMap (Part.settle fillings)).flatMap (Part.write (d.quoting tablePrefix))
    rw [String.toList_ofList, hsql, Text.replaceFrom_eq table
      (fun key => (Part.filling fillings key).flatMap (Part.write (d.quoting tablePrefix)))
      (fun r hr => Filling.text_eq hc hlist hr), hmeets, List.flatMap_assoc, List.flatMap_assoc]
    simp only [Part.flatMap_write_met, Part.flatMap_write_settle]
  · obtain ⟨r, hr, hp⟩ := List.mem_flatMap.mp hp
    exact (hsettled r hr p hp).2 key hkey

/-- Where template and draft agree, so do the texts in which their places are filled. -/
theorem agree_filled {x : Outcome Template} {y : Outcome Draft}
    (h : Agree (Draft.Shown (.keyed bound) ⟨d.quoting tablePrefix, cell⟩) x y)
    (hy : Yields (Grammar.keyed.FineDraft (.keyed bound) isKey) y) :
    Agree (Shows (d.quoting tablePrefix) (Policy.keyed bound).Clear) (x >>= Template.fill)
      (y >>= Draft.settled) :=
  (h.and_yields hy).bind fun _ _ h => Draft.fill_agree h.1 h.2

theorem Policy.keyed_grounds (d : Dialect) (hpre : ':' ∉ tablePrefix.toList)
    (hcell : ∀ id s, bound id → cell id = .ok s → ':' ∉ s.toList) :
    (Policy.keyed bound).Grounds ⟨d.quoting tablePrefix, cell⟩ :=
  ⟨d.quoting_solid tablePrefix, fun s hs _ h =>
    agree_filled h (Select.fine (Grammar.keyed_admits d hpre hcell) s hs)⟩

end

/-! ## The whole pipeline -/

/-- The texts of bound cells have no colon, however many cells they lead to. -/
theorem Cells.text_free (d : Dialect) (cells : Cells) (bound : CellId → Prop)
    (hpre : ':' ∉ tablePrefix.toList)
    (hcells : ∀ id, bound id → (cells.get id).Obeys (.keyed bound)) (depth : Nat) :
    ∀ id s, bound id → cells.text (d.quoting tablePrefix) depth id = .ok s → ':' ∉ s.toList := by
  induction depth with
  | zero => exact fun id s _ h => by simp [Cells.text] at h
  | succ depth ih =>
    -- A cell leads to others with one level less, whose texts have no colon by induction.
    intro id s hid hs
    have hk : ∀ key, (fun _ : String => false) key = true → (Policy.keyed bound).key key := by simp
    have hagree := Value.agree (Policy.keyed_grounds d hpre ih) hk (cells.get id)
      (hcells id hid)
    have hfine := Value.fine (Grammar.keyed_admits d hpre ih) hk (cells.get id)
      (operand_of_obeys (hcells id hid))
    obtain ⟨ps, hps, hshows⟩ := hagree.exists_ok hs
    have hps := hfine ps hps
    rw [(hshows (Policy.keyed_clear bound)).1, List.mem_flatMap]
    rintro ⟨p, hp, hcolon⟩
    refine Grammar.keyed_free (hps.good p hp) (fun key hkey => ?_) hcolon
    simpa using hps.places key (hkey ▸ hp)

/-- The two phases do what one phase does: each parameter stands where it is meant to stand, and
each query has its own. -/
theorem Statement.toSql_eq_direct (d : Dialect) (tablePrefix : String) (cells : Cells)
    (bound : CellId → Prop) (s : Statement) (hpre : ':' ∉ tablePrefix.toList)
    (hcells : ∀ id, bound id → (cells.get id).Obeys (.keyed bound)) (hs : s.Obeys (.keyed bound)) :
    s.toSql (cells.context (d.quoting tablePrefix)) =
      Part.sql (d.quoting tablePrefix) <$> s.direct (cells.context (d.quoting tablePrefix)) := by
  have hcell := Cells.text_free d cells bound hpre hcells (cells.size + 1)
  have hagree := Statement.agree (Policy.keyed_grounds d hpre hcell) s hs
  have hfine := Statement.fine (Grammar.keyed_admits d hpre hcell) s hs
  exact (agree_filled hagree hfine).eq_sql (Policy.keyed_clear bound)

/-- A query whose parameter `:id` is another one inside, and begins the name of `:id2`. -/
def Select.nesting : Select :=
  { Select.empty with
    tables := [.name "t"]
    scope := { Scope.empty with
      criteria := ⟨[
        .predicate .and (.name "a") "=" (.text ":id2"),
        .predicate .and (.name "b") "IN" (.subquery { Select.empty with
          tables := [.name "u"]
          scope := { Scope.empty with
            criteria := ⟨[.predicate .and (.name "c") "=" (.text ":id")]⟩ }
          request := { Request.empty with params := Params.empty.set ":id" (.text "in") } }),
        .predicate .or (.name "d") "BETWEEN" (.pair (.text ":id") (.int 9))]⟩ }
    request := { Request.empty with
      params := (Params.empty.set ":id" (.text "out")).bind ":id2" 0 } }

theorem Select.nesting_obeys : Select.nesting.Obeys (.keyed (· = 0)) := by
  have hid : Text.IsKey ":id" := ⟨['i', 'd'], rfl, by decide, List.all_eq_true.mp rfl⟩
  have hid2 : Text.IsKey ":id2" := ⟨['i', 'd', '2'], rfl, by decide, List.all_eq_true.mp rfl⟩
  have hbetween : Text.upper "BETWEEN" = "BETWEEN" := by decide
  simp [nesting, empty, Scope.empty, Request.empty, Params.empty, Params.set, Params.bind,
    Params.insert, Params.register, Param.key, Obeys, Criteria.empty, Criteria.Obeys,
    Condition.AllObey, Condition.Obeys, Ident.AllObey, Ident.Obeys, Join.AllObey, SortKey.AllObey,
    Branch.AllObey, Params.Obeys, Param.AllObey, Param.Obeys, Policy.operand, Policy.keyed,
    Value.BoundsObey, Value.Obeys, Params.contains, hid, hid2, operator, Value.isNull, hbetween]

/-- Inside and outside, each of both has its own parameter, and a longer key is not cut. -/
theorem Statement.toSql_nesting :
    (Statement.select .nesting).Obeys (.keyed (· = 0)) ∧
      (Statement.select .nesting).toSql
          (Cells.context ⟨[.text "cell"]⟩ (Dialect.mysql.quoting "p_")) =
        .ok ("SELECT * FROM \x60p_t\x60 WHERE \x60a\x60 = 'cell' AND \x60b\x60 IN " ++
          "(SELECT * FROM \x60p_u\x60 WHERE \x60c\x60 = 'in') OR " ++
          "\x60d\x60 BETWEEN 'out' AND 9") := by
  have hs : (Statement.select .nesting).Obeys (.keyed (· = 0)) := Select.nesting_obeys
  have hcells : ∀ id, id = 0 → (Cells.get ⟨[.text "cell"]⟩ id).Obeys (.keyed (· = 0)) := by
    rintro id rfl
    simp [Cells.get, Value.Obeys, Policy.keyed]
  refine ⟨hs, ?_⟩
  rw [Statement.toSql_eq_direct .mysql "p_" _ (· = 0) _ (by decide) hcells hs]
  rfl

end SqlComposer
