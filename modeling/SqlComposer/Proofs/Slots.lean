import SqlComposer.Proofs.Agreement
import SqlComposer.Proofs.Occurrences
import SqlComposer.Proofs.Retext

/-!
# Where texts end up

The parts of a statement have a slot for each text value that is written, and they are the same
whatever the texts are but for what is in the slots.
-/

namespace SqlComposer

inductive Slot where
  | fixed (p : Part)
  | text (path : Path) (old : String)

namespace Slot

def part (g : Retexting) : Slot → Part
  | .fixed p => p
  | .text path old => .literal (g path old)

def isBlank : Slot → Bool
  | .fixed p => p.isBlank
  | .text _ _ => false

theorem isBlank_part (g : Retexting) (s : Slot) : (s.part g).isBlank = s.isBlank := by
  cases s <;> rfl

theorem text_mem_dropWhile {path : Path} {old : String} (slots : List Slot) :
    .text path old ∈ slots.dropWhile isBlank ↔ .text path old ∈ slots := by
  induction slots with
  | nil => rfl
  | cons s slots ih =>
    rw [List.dropWhile_cons]
    split
    · next hblank =>
      rw [ih, List.mem_cons, or_iff_right]
      rintro rfl
      exact nomatch hblank
    · rfl

def settle (table : List Filling) : Slot → List Slot
  | .fixed p => (p.settle table).map .fixed
  | .text path old => [.text path old]

theorem text_mem_settle {path : Path} {old : String} (table : List Filling) (s : Slot) :
    .text path old ∈ s.settle table ↔ .text path old = s := by
  cases s <;> simp [settle]

end Slot

/-! ## Parts with slots -/

/-- Parts with slots for these texts and no others. -/
def Shaped (texts : Texts) (ps : Retexting → List Part) : Prop :=
  ∃ slots : List Slot, (∀ path old, .text path old ∈ slots ↔ (path, old) ∈ texts) ∧
    ∀ g, ps g = slots.map (Slot.part g)

/-- A list of as many members whatever the texts, all with the property for texts of their own. -/
inductive Members {α : Type} (P : Texts → (Retexting → α) → Prop) :
    Texts → (Retexting → List α) → Prop
  | nil : Members P ∅ fun _ => []
  | cons {own others : Texts} {a : Retexting → α} {as : Retexting → List α} (ha : P own a)
      (has : Members P others as) : Members P (own ∪ others) fun g => a g :: as g

namespace Shaped

variable {texts others : Texts} {ps rs : Retexting → List Part}
variable {pss : Retexting → List (List Part)}

theorem const (ps : List Part) : Shaped ∅ fun _ => ps := by
  refine ⟨ps.map .fixed, by simp, fun g => ?_⟩
  rw [List.map_map]
  exact (List.map_id ps).symm

theorem append (hp : Shaped texts ps) (hr : Shaped others rs) :
    Shaped (texts ∪ others) fun g => ps g ++ rs g := by
  obtain ⟨slots, htexts, hp⟩ := hp
  obtain ⟨slots', hothers, hr⟩ := hr
  refine ⟨slots ++ slots', fun path old => ?_, fun g => by simp only [hp, hr, List.map_append]⟩
  rw [List.mem_append, htexts, hothers, Set.mem_union]

theorem append_const (h : Shaped texts ps) (rs : List Part) : Shaped texts fun g => ps g ++ rs := by
  simpa only [Set.union_empty] using h.append (const rs)

theorem const_append (h : Shaped texts ps) (rs : List Part) : Shaped texts fun g => rs ++ ps g := by
  simpa only [Set.empty_union] using (const rs).append h

theorem enclosed (h : Shaped texts ps) : Shaped texts fun g => Part.enclosed (ps g) :=
  (h.const_append _).append_const _

theorem joined (separator : String) (h : Members Shaped texts pss) :
    Shaped texts fun g => Part.joined separator (pss g) := by
  induction h with
  | nil => exact const []
  | cons ha has ih =>
    cases has with
    | nil => simpa [Part.joined] using ha
    | cons hb hbs =>
      simp only [Part.joined, List.intercalate_cons_cons] at ih ⊢
      exact (ha.append_const _).append ih

theorem flatten (h : Members Shaped texts pss) : Shaped texts fun g => (pss g).flatten := by
  induction h with
  | nil => exact const []
  | cons ha _ ih => exact ha.append ih

/-- No texts decide whether there are parts at all. -/
theorem isEmpty (h : Shaped texts ps) : ∃ b, (b = true → texts = ∅) ∧ ∀ g, (ps g).isEmpty = b := by
  obtain ⟨slots, htexts, h⟩ := h
  refine ⟨slots.isEmpty, fun hb => ?_, fun g => by rw [h, List.isEmpty_map]⟩
  obtain rfl := List.isEmpty_iff.mp hb
  exact Set.eq_empty_of_forall_notMem fun t ht => List.not_mem_nil ((htexts t.1 t.2).mpr ht)

theorem clause (keyword : String) (h : Shaped texts ps) :
    Shaped texts fun g => Part.clause keyword (ps g) := by
  obtain ⟨b, hnone, hb⟩ := h.isEmpty
  unfold Part.clause
  simp only [hb]
  cases b with
  | true => exact hnone rfl ▸ const []
  | false => exact h.const_append _

theorem united (h : Shaped texts ps) (hs : Members Shaped others pss) :
    Shaped (texts ∪ others) fun g => Part.united (ps g) (pss g) := by
  have hflat := flatten hs
  cases hs with
  | nil => simpa [Part.united] using h
  | cons => exact h.enclosed.append hflat

theorem trim (h : Shaped texts ps) : Shaped texts fun g => Part.trim (ps g) := by
  obtain ⟨slots, htexts, h⟩ := h
  refine ⟨((slots.dropWhile Slot.isBlank).reverse.dropWhile Slot.isBlank).reverse,
    fun path old => ?_, fun g => ?_⟩
  · rw [List.mem_reverse, Slot.text_mem_dropWhile, List.mem_reverse, Slot.text_mem_dropWhile,
      htexts]
  · have hblank : Part.isBlank ∘ Slot.part g = Slot.isBlank := funext fun s => s.isBlank_part g
    simp only [h, Part.trim, List.dropWhile_map, hblank, ← List.map_reverse]

theorem settled (table : List Filling) (h : Shaped texts ps) :
    Shaped texts fun g => (ps g).flatMap (Part.settle table) := by
  obtain ⟨slots, htexts, h⟩ := h
  refine ⟨slots.flatMap (Slot.settle table), fun path old => ?_, fun g => ?_⟩
  · simp only [List.mem_flatMap, Slot.text_mem_settle, ← htexts, exists_eq_right']
  · simp only [h, List.flatMap_map, List.map_flatMap]
    refine List.flatMap_congr fun s _ => ?_
    cases s with
    | fixed p =>
      rw [Slot.settle, List.map_map]
      exact (List.map_id _).symm
    | text path old => rfl

end Shaped

/-! ## Conditions with slots -/

inductive Stretch.Shaped : Texts → (Retexting → Stretch) → Prop
  | opening (logic : Logic) : Shaped ∅ fun _ => .opening logic
  | closing : Shaped ∅ fun _ => .closing
  | predicate {texts : Texts} {ps : Retexting → List Part} (logic : Logic)
      (h : SqlComposer.Shaped texts ps) : Shaped texts fun g => .predicate logic (ps g)

theorem Shaped.layout {texts : Texts} {es : Retexting → List Stretch}
    (h : Members Stretch.Shaped texts es) (started fresh : Bool) :
    Shaped texts fun g => Stretch.layout started fresh (es g) := by
  induction h generalizing started fresh with
  | nil => exact const []
  | cons he _ ih =>
    cases he with
    | opening logic => exact (const _).append (ih true true)
    | closing => exact (const _).append (ih true false)
    | predicate logic h =>
      obtain ⟨b, -, hb⟩ := h.isEmpty
      simp only [Stretch.layout, hb]
      exact (h.const_append _).append (ih (started || !b) false)

/-! ## Outcomes with slots -/

/-- It fails for one reason whatever the texts, or has results with the property. -/
def Follows {α : Type} (P : (Retexting → α) → Prop) (x : Retexting → Outcome α) : Prop :=
  (∃ e, ∀ g, x g = .error e) ∨ ∃ a, P a ∧ ∀ g, x g = .ok (a g)

namespace Follows

variable {α β : Type} {P : (Retexting → α) → Prop} {Q : (Retexting → β) → Prop}

theorem ok {a : Retexting → α} (h : P a) : Follows P fun g => .ok (a g) :=
  Or.inr ⟨a, h, fun _ => rfl⟩

theorem const (h : ∀ a, P fun _ => a) (x : Outcome α) : Follows P fun _ => x := by
  cases x with
  | error e => exact Or.inl ⟨e, fun _ => rfl⟩
  | ok a => exact ok (h a)

theorem bind {x : Retexting → Outcome α} {f : Retexting → α → Outcome β} (h : Follows P x)
    (hf : ∀ a, P a → Follows Q fun g => f g (a g)) : Follows Q fun g => x g >>= f g := by
  rcases h with ⟨e, he⟩ | ⟨a, ha, hx⟩
  · exact Or.inl ⟨e, fun g => by simp only [he]; rfl⟩
  · simp only [hx]
    exact hf a ha

/-- One result is enough to have them all. -/
theorem of_ok {x : Retexting → Outcome α} (h : Follows P x) {g : Retexting} {a : α}
    (hx : x g = .ok a) : ∃ a, P a ∧ ∀ g, x g = .ok (a g) := by
  rcases h with ⟨e, he⟩ | h
  · rw [he] at hx
    exact nomatch hx
  · exact h

theorem consM {P : Texts → (Retexting → α) → Prop} {own others : Texts}
    {x : Retexting → Outcome α} {xs : Retexting → Outcome (List α)} (h : Follows (P own) x)
    (hs : Follows (Members P others) xs) : Follows (Members P (own ∪ others)) fun g =>
      x g >>= fun a => xs g >>= fun as => pure (a :: as) :=
  h.bind fun _ ha => hs.bind fun _ has => ok (.cons ha has)

theorem bind_const (x : Outcome α) {f : Retexting → α → Outcome β}
    (hf : ∀ a, Follows Q fun g => f g a) : Follows Q fun g => x >>= f g := by
  cases x with
  | error e => exact Or.inl ⟨e, fun _ => rfl⟩
  | ok a => exact hf a

theorem pair {low high : Texts} {x y : Retexting → Outcome (List Part)}
    (hx : Follows (Shaped low) x) (hy : Follows (Shaped high) y) :
    Follows (Shaped (low ∪ high)) fun g =>
      x g >>= fun ps => y g >>= fun rs => pure (ps ++ Part.word " AND " ++ rs) :=
  hx.bind fun _ hs => hy.bind fun _ ht => ok ((hs.append_const _).append ht)

end Follows

/-! ## Terms -/

/-- A policy that lets any text occur, and neither parameters nor raw SQL. -/
structure Policy.Keyless (p : Policy) : Prop extends p.AnyText where
  raw : ¬ p.raw
  key : ∀ key, ¬ p.key key

theorem Policy.Keyless.contains {p : Policy} (hp : p.Keyless) {params : Params}
    (h : params.Obeys p) (key : String) : params.contains key = false :=
  Bool.eq_false_iff.mpr fun hkey => hp.key key (h.key hkey)

/-- Parts with slots, and nothing in what belongs in the places. -/
def Draft.Shaped (texts : Texts) (dr : Retexting → Draft) : Prop :=
  SqlComposer.Shaped texts (fun g => (dr g).parts) ∧ ∃ fillings, ∀ g, (dr g).fillings = fillings

theorem Draft.Shaped.settled {texts : Texts} {dr : Retexting → Draft} (h : Draft.Shaped texts dr) :
    Follows (SqlComposer.Shaped texts) fun g => (dr g).settled := by
  obtain ⟨hparts, fillings, hfillings⟩ := h
  unfold Draft.settled
  simp only [hfillings]
  exact .bind_const _ fun table => .ok (hparts.settled table)

variable {p : Policy} {ctx : Context}

mutual

theorem Value.slots (hp : p.Keyless) {isKey : String → Bool} (hk : ∀ key, isKey key = false)
    (path : Path) : (v : Value) → v.Obeys p →
      Follows (Shaped (v.written path)) fun g => (v.retext g path).parts ctx isKey
  | .null, _ | .bool _, _ | .int _, _ | .float _, _ => .ok (.const _)
  | .text s, _ => by
    simp only [Value.retext, Value.parts, hk]
    refine .ok ⟨[.text path s], fun path' old => ?_, fun _ => rfl⟩
    rw [List.mem_singleton, Slot.text.injEq, Value.written, Set.mem_singleton_iff, Prod.mk.injEq]
  | .list items, h => by
    unfold Value.retext Value.parts
    exact (Value.slotsAll hp hk path 0 items h).bind fun _ hs => .ok (Shaped.joined _ hs).enclosed
  | .pair low high, h => by
    unfold Value.retext Value.parts
    exact (Value.slots hp hk (0 :: path) low h.1).pair (Value.slots hp hk (1 :: path) high h.2)
  | .fragment _, h => (hp.raw h).elim
  | .subquery s, h => by
    unfold Value.retext Value.parts
    refine (Select.slots hp path s h.2).bind fun _ hdr => ?_
    exact hdr.settled.bind fun _ hs => .ok hs.enclosed

theorem Value.slotsAll (hp : p.Keyless) {isKey : String → Bool} (hk : ∀ key, isKey key = false)
    (path : Path) (i : Nat) : (vs : List Value) → Value.AllObey p vs →
      Follows (Members Shaped (Value.writtenAll path i vs)) fun g =>
        Value.partLists ctx isKey (Value.retextAll g path i vs)
  | [], _ => .ok .nil
  | v :: rest, h => by
    unfold Value.retextAll Value.partLists
    exact (Value.slots hp hk (i :: path) v h.1).consM (Value.slotsAll hp hk path (i + 1) rest h.2)

theorem Value.slotsBounds (hp : p.Keyless) {isKey : String → Bool}
    (hk : ∀ key, isKey key = false) (path : Path) : (v : Value) → v.Obeys p →
      (Follows (Shaped (v.written path)) fun g => (v.retext g path).parts ctx isKey) →
      Follows (Shaped (v.written path)) fun g =>
        ((v.retext g path).boundParts ctx isKey).getD ((v.retext g path).parts ctx isKey)
  | .pair low high, h, _ => by
    unfold Value.retext Value.boundParts
    exact (Value.slots hp hk (0 :: path) low h.1).pair (Value.slots hp hk (1 :: path) high h.2)
  | .list [low, high], h, _ => by
    unfold Value.retext Value.retextAll Value.boundParts
    simp only [Value.written, Value.writtenAll, Set.union_empty]
    exact (Value.slots hp hk (0 :: path) low h.1).pair (Value.slots hp hk (1 :: path) high h.2.1)
  -- Nothing else has bounds, and no text makes a difference to that.
  | .null, _, hwhole | .bool _, _, hwhole | .int _, _, hwhole | .float _, _, hwhole
  | .text _, _, hwhole | .fragment _, _, hwhole | .subquery _, _, hwhole
  | .list [], _, hwhole | .list [_], _, hwhole | .list (_ :: _ :: _ :: _), _, hwhole => hwhole

theorem Condition.slots (hp : p.Keyless) {isKey : String → Bool} (hk : ∀ key, isKey key = false)
    (path : Path) : (c : Condition) → c.Obeys p isKey →
      Follows (Stretch.Shaped (c.written path)) fun g => (c.retext g path).stretch ctx isKey
  | .opening logic, _ => .ok (.opening logic)
  | .closing _, _ => .ok .closing
  | .predicate logic column op value, h => by
    have hvalue := ((predicate_iff hp.toAnyText _ _ _ _).mp h).2.2
    have hwhole : Follows (Shaped (value.written path)) fun g =>
        (value.retext g path).parts ctx isKey := Value.slots hp hk path value hvalue
    have hright : Follows (Shaped (value.written path)) fun g =>
        rightSide (operator op value) (value.retext g path) (Part.word "(NULL)")
          ((value.retext g path).boundParts ctx isKey) ((value.retext g path).parts ctx isKey) := by
      simp only [rightSide, Value.isEmptyList_retext]
      split
      · exact Value.slotsBounds hp hk path value hvalue hwhole
      · split
        · next hempty =>
          rw [Value.written_of_isEmptyList hempty.2]
          exact .ok (.const _)
        · exact hwhole
    simp only [Condition.retext, Condition.stretch, operator_retext]
    refine hright.bind fun _ hs => .bind_const _ fun left => .ok (.predicate logic ?_)
    exact (hs.const_append _).trim

theorem Condition.slotsAll (hp : p.Keyless) {isKey : String → Bool}
    (hk : ∀ key, isKey key = false) (path : Path) (i : Nat) :
    (cs : List Condition) → Condition.AllObey p isKey cs →
      Follows (Members Stretch.Shaped (Condition.writtenAll path i cs)) fun g =>
        Condition.stretches ctx isKey (Condition.retextAll g path i cs)
  | [], _ => .ok .nil
  | c :: rest, h => by
    unfold Condition.retextAll Condition.stretches
    exact (Condition.slots hp hk (i :: path) c h.1).consM
      (Condition.slotsAll hp hk path (i + 1) rest h.2)

theorem Criteria.slots (hp : p.Keyless) {isKey : String → Bool} (hk : ∀ key, isKey key = false)
    (path : Path) : (c : Criteria) → c.Obeys p isKey →
      Follows (Shaped (c.written path)) fun g => (c.retext g path).parts ctx isKey
  | ⟨entries⟩, h => by
    unfold Criteria.retext Criteria.parts
    refine (Condition.slotsAll hp hk path 0 entries h.2).bind fun _ hs => ?_
    exact .ok (Shaped.layout hs false false)

theorem BranchSource.slots (hp : p.Keyless) (path : Path) : (b : BranchSource) → b.Obeys p →
    Follows (Shaped (b.written path)) fun g => (b.retext g path).parts ctx
  | .table _, _ => .const .const _
  | .select s, h => by
    unfold BranchSource.retext BranchSource.parts
    exact (Select.slots hp path s h.2).bind fun _ hdr => hdr.settled
  | .query _, h => (hp.raw h).elim

theorem Branch.slots (hp : p.Keyless) (path : Path) : (b : Branch) → b.Obeys p →
    Follows (Shaped (b.written path)) fun g => (b.retext g path).parts ctx
  | ⟨source, all⟩, h => by
    unfold Branch.retext Branch.parts
    refine (BranchSource.slots hp path source h).bind fun _ hs => .ok ?_
    exact hs.enclosed.const_append _

theorem Branch.slotsAll (hp : p.Keyless) (path : Path) (i : Nat) :
    (bs : List Branch) → Branch.AllObey p bs →
      Follows (Members Shaped (Branch.writtenAll path i bs)) fun g =>
        Branch.partLists ctx (Branch.retextAll g path i bs)
  | [], _ => .ok .nil
  | b :: rest, h => by
    unfold Branch.retextAll Branch.partLists
    exact (Branch.slots hp (i :: path) b h.1).consM (Branch.slotsAll hp path (i + 1) rest h.2)

theorem Select.slots (hp : p.Keyless) (path : Path) : (s : Select) → s.Obeys p →
    Follows (Draft.Shaped (s.written path)) fun g => (s.retext g path).draft ctx
  | ⟨distinct, columns, tables, joins, ⟨criteria, orderBy, limit⟩, groupBy, having, offset, unions,
      ⟨params, _, _⟩⟩, h => by
    obtain ⟨-, -, -, hcriteria, -, hhaving, -, hunions, hparams⟩ := h
    have hk := hp.contains hparams
    unfold Select.retext Select.draft
    refine .bind_const _ fun columns => .bind_const _ fun tables => .bind_const _ fun joins => ?_
    refine (Criteria.slots hp hk (0 :: path) criteria hcriteria).bind fun _ hcriteria => ?_
    refine .bind_const _ fun groupBy => ?_
    refine (Criteria.slots hp hk (1 :: path) having hhaving).bind fun _ hhaving => ?_
    refine .bind_const _ fun orderBy => ?_
    refine (Branch.slotsAll hp (2 :: path) 0 unions hunions).bind fun _ hunions => ?_
    refine .ok ⟨Shaped.united ?_ hunions, _, fun _ => rfl⟩
    refine .append_const (.append_const (.append_const (.append (.append_const ?_ _) ?_) _) _) _
    · exact (hcriteria.clause " WHERE ").const_append _
    · exact hhaving.clause " HAVING "

end

/-! ## Assignments with slots -/

/-- The text of a column, and the slots of its whole assignment. -/
structure AssignmentSlots where
  column : String
  slots : List Slot

namespace AssignmentSlots

def parts (g : Retexting) (a : AssignmentSlots) : AssignmentParts :=
  ⟨a.column.toList, a.slots.map (Slot.part g)⟩

def merge (as : List AssignmentSlots) : List AssignmentSlots :=
  as.foldl (fun merged a => settle column a merged) []

theorem put_parts (g : Retexting) (a : AssignmentSlots) (merged : List AssignmentSlots) :
    (a.parts g).put (merged.map (parts g)) = (settle column a merged).map (parts g) := by
  induction merged with
  | nil => rfl
  | cons b merged ih =>
    simp only [List.map_cons, AssignmentParts.put, settle, parts, String.toList_inj]
    split
    · rfl
    · exact congrArg _ ih

theorem merge_parts (g : Retexting) (as : List AssignmentSlots) :
    AssignmentParts.merge (as.map (parts g)) = (merge as).map (parts g) := by
  rw [AssignmentParts.merge, List.foldl_map, ← List.map_nil (f := parts g)]
  refine List.foldl_hom (List.map (parts g)) fun merged a => ?_
  exact put_parts g a merged

theorem mem_merge {as : List AssignmentSlots} {a : AssignmentSlots} :
    a ∈ merge as ↔ LastOf column as a := by
  have harranged : Arranged column as (merge as) := by
    simpa only [merge, List.nil_append] using Arranged.nil.append as
  exact harranged.mem_iff

theorem members (as : List AssignmentSlots) :
    Members Shaped {t | ∃ a ∈ as, .text t.1 t.2 ∈ a.slots} fun g =>
      (as.map (parts g)).map (·.parts) := by
  induction as with
  | nil => simpa using Members.nil
  | cons a as ih =>
    have hown : Shaped {t | .text t.1 t.2 ∈ a.slots} fun g => (a.parts g).parts :=
      ⟨a.slots, fun _ _ => Iff.rfl, fun _ => rfl⟩
    have hunion : {t : Path × String | ∃ b ∈ a :: as, .text t.1 t.2 ∈ b.slots} =
        {t | .text t.1 t.2 ∈ a.slots} ∪ {t | ∃ b ∈ as, .text t.1 t.2 ∈ b.slots} := by
      ext t
      simp
    rw [hunion]
    exact .cons hown ih

/-- The slots of the `i`-th assignment. -/
structure Fits (ctx : Context) (i : Nat) (a : Assignment) (b : AssignmentSlots) : Prop where
  column : a.column.text ctx .column = .ok b.column
  texts : ∀ path old, .text path old ∈ b.slots ↔ (path, old) ∈ a.value.written [i, 0]

inductive FitAll (ctx : Context) : Nat → List Assignment → List AssignmentSlots → Prop
  | nil (i : Nat) : FitAll ctx i [] []
  | cons {i : Nat} {a : Assignment} {as : List Assignment} {b : AssignmentSlots}
      {bs : List AssignmentSlots} (h : Fits ctx i a b) (hrest : FitAll ctx (i + 1) as bs) :
      FitAll ctx i (a :: as) (b :: bs)

namespace FitAll

variable {i : Nat} {as : List Assignment} {bs : List AssignmentSlots}

theorem forall_column_ne (h : FitAll ctx i as bs) (column : String) :
    (∀ b ∈ bs, b.column ≠ column) ↔ ∀ a ∈ as, a.column.text ctx .column ≠ .ok column := by
  induction h with
  | nil => simp
  | cons h _ ih =>
    rw [List.forall_mem_cons, List.forall_mem_cons, ih, h.column, ne_eq, ne_eq, Except.ok.injEq]

/-- The texts that are left are those that are written. -/
theorem mem_written (h : FitAll ctx i as bs) (path : Path) (old : String) :
    (∃ b, LastOf column bs b ∧ .text path old ∈ b.slots) ↔
      (path, old) ∈ Assignment.writtenAll ctx i as := by
  induction h with
  | nil => simp [LastOf, Assignment.writtenAll]
  | cons h hrest ih =>
    -- The first is the last one for its column exactly if no other has that column.
    simp only [lastOf_cons, or_and_right, exists_or, ih, and_assoc, exists_eq_left]
    refine or_congr_left ?_
    rw [h.texts, hrest.forall_column_ne, ← h.column, and_comm]
    rfl

end FitAll

end AssignmentSlots

open AssignmentSlots (Fits FitAll)

theorem Assignment.slots (hp : p.Keyless) (hc : p.Clear) (hg : p.Grounds ctx)
    {isKey : String → Bool} (hk : ∀ key, isKey key = false) (i : Nat) (a : Assignment)
    (h : a.Obeys p isKey) :
    Follows (fun ps => ∃ b, Fits ctx i a b ∧ ps = fun g => b.parts g) fun g =>
      Assignment.parts ctx isKey ⟨a.column, a.value.retext g [i, 0]⟩ := by
  have hvalue : Follows (Shaped (a.value.written [i, 0])) fun g =>
      (a.value.retext g [i, 0]).parts ctx isKey :=
    Value.slots hp hk [i, 0] a.value ((operand_iff hp.toAnyText _).mp h.2)
  have hcolumn := (Ident.agree hg .column a.column h.1).eq_sql hc
  simp only [Assignment.parts]
  cases hparts : a.column.parts ctx .column with
  | error e => exact Or.inl ⟨e, fun _ => rfl⟩
  | ok column =>
    rw [hparts] at hcolumn
    refine hvalue.bind fun ps hps => ?_
    obtain ⟨slots, htexts, hslots⟩ := hps.const_append (column ++ Part.word " = ")
    refine .ok ⟨⟨Part.sql ctx.quoting column, slots⟩, ⟨hcolumn, htexts⟩, funext fun g => ?_⟩
    rw [AssignmentSlots.parts, Part.sql, String.toList_ofList, ← hslots]

theorem Assignment.slotsAll (hp : p.Keyless) (hc : p.Clear) (hg : p.Grounds ctx)
    {isKey : String → Bool} (hk : ∀ key, isKey key = false) (i : Nat) (as : List Assignment)
    (h : ∀ a ∈ as, a.Obeys p isKey) :
    Follows (fun ps => ∃ bs, FitAll ctx i as bs ∧ ps = fun g => bs.map (AssignmentSlots.parts g))
      fun g => (Assignment.retextAll g i as).mapM fun a => a.parts ctx isKey := by
  induction as generalizing i with
  | nil => exact .ok ⟨[], .nil i, rfl⟩
  | cons a rest ih =>
    rw [List.forall_mem_cons] at h
    simp only [Assignment.retextAll, List.mapM_cons]
    refine (Assignment.slots hp hc hg hk i a h.1).bind ?_
    rintro _ ⟨b, hb, rfl⟩
    refine (ih (i + 1) h.2).bind ?_
    rintro _ ⟨bs, hbs, rfl⟩
    exact .ok ⟨b :: bs, .cons hb hbs, rfl⟩

theorem Assignment.slotsList (hp : p.Keyless) (hc : p.Clear) (hg : p.Grounds ctx)
    {isKey : String → Bool} (hk : ∀ key, isKey key = false) (as : List Assignment)
    (h : ∀ a ∈ as, a.Obeys p isKey) :
    Follows (Shaped (Assignment.writtenAll ctx 0 as)) fun g =>
      Assignment.listParts ctx isKey (Assignment.retextAll g 0 as) := by
  unfold Assignment.listParts
  refine (Assignment.slotsAll hp hc hg hk 0 as h).bind ?_
  rintro _ ⟨bs, hfit, rfl⟩
  have hmembers := AssignmentSlots.members (AssignmentSlots.merge bs)
  have hleft : {t : Path × String | ∃ b ∈ AssignmentSlots.merge bs, .text t.1 t.2 ∈ b.slots} =
      Assignment.writtenAll ctx 0 as := by
    ext t
    simp only [AssignmentSlots.mem_merge]
    exact hfit.mem_written t.1 t.2
  rw [hleft] at hmembers
  simp only [AssignmentSlots.merge_parts]
  exact .ok (Shaped.joined ", " hmembers)

/-! ## Statements -/

theorem Scope.slots (hp : p.Keyless) {isKey : String → Bool} (hk : ∀ key, isKey key = false)
    (s : Scope) (h : s.Obeys p isKey) :
    Follows (Shaped s.written) fun g => (s.retext g).parts ctx isKey := by
  simp only [Scope.retext, Scope.parts]
  refine (Criteria.slots hp hk [1] s.criteria h.1).bind fun _ hcriteria => ?_
  refine .bind_const _ fun orderBy => .ok ?_
  exact ((hcriteria.clause " WHERE ").append_const _).append_const _

namespace Insert

theorem mapM_parts (isKey : String → Bool) (row : List Value) :
    (row.mapM fun v => v.parts ctx isKey) = Value.partLists ctx isKey row := by
  induction row with
  | nil => rfl
  | cons v row ih => rw [List.mapM_cons, ih, Value.partLists]

theorem slotsRows (hp : p.Keyless) {isKey : String → Bool} (hk : ∀ key, isKey key = false)
    (i : Nat) (rows : List (List Value)) (h : ∀ row ∈ rows, Value.AllObey p row) :
    Follows (Members Shaped (RowSource.writtenRows i rows)) fun g =>
      (RowSource.retextRows g i rows).mapM (rowParts ctx isKey) := by
  induction rows generalizing i with
  | nil => exact .ok .nil
  | cons row rest ih =>
    rw [List.forall_mem_cons] at h
    have hrow : Follows (Shaped (Value.writtenAll [i] 0 row)) fun g =>
        rowParts ctx isKey (Value.retextAll g [i] 0 row) := by
      simp only [rowParts, mapM_parts]
      refine (Value.slotsAll hp hk [i] 0 row h.1).bind fun _ hs => .ok ?_
      exact (Shaped.joined ", " hs).enclosed
    simp only [RowSource.retextRows, List.mapM_cons]
    exact hrow.consM (ih (i + 1) h.2)

theorem slotsSource (hp : p.Keyless) {isKey : String → Bool} (hk : ∀ key, isKey key = false)
    (source : RowSource) (h : source.Obeys p isKey) :
    Follows (Shaped source.written) fun g => sourceParts ctx isKey (source.retext g) := by
  cases source with
  | values rows =>
    rw [values_iff hp.toAnyText] at h
    unfold RowSource.retext sourceParts
    refine (slotsRows hp hk 0 rows h).bind fun _ hs => .ok ?_
    exact (Shaped.joined ", " hs).const_append _
  | query q =>
    cases q with
    | select s =>
      simp only [RowSource.retext, sourceParts]
      exact (Select.slots hp [] s h.2).bind fun _ hdr => hdr.settled
    | query q => exact (hp.raw h).elim

end Insert

/-- Every text value of a statement that is written has a slot. -/
theorem Statement.slots (hp : p.Keyless) (hc : p.Clear) (hg : p.Grounds ctx) (s : Statement)
    (h : s.Obeys p) : Follows (Shaped (s.written ctx)) fun g => (s.retext g).direct ctx := by
  suffices hdraft : Follows (Draft.Shaped (s.written ctx)) fun g => (s.retext g).draft ctx by
    exact hdraft.bind fun _ hdr => hdr.settled
  cases s with
  | raw q => exact h.elim
  | select s => exact Select.slots hp [] s h
  | insert i =>
    obtain ⟨-, -, hsource, hparams⟩ := h
    simp only [Statement.retext, Statement.draft, Insert.draft]
    split
    · exact Or.inl ⟨_, fun _ => rfl⟩
    · refine .bind_const _ fun table => .bind_const _ fun columns => ?_
      refine (Insert.slotsSource hp (hp.contains hparams) i.source hsource).bind fun _ hs => ?_
      exact .ok ⟨hs.const_append _, _, fun _ => rfl⟩
  | update u =>
    obtain ⟨-, hassignments, hscope, hparams⟩ := h
    simp only [Statement.retext, Statement.draft, Update.draft]
    split
    · exact Or.inl ⟨_, fun _ => rfl⟩
    · refine .bind_const _ fun table => ?_
      refine (Assignment.slotsList hp hc hg (hp.contains hparams) u.assignments hassignments).bind
        fun _ hset => ?_
      refine (Scope.slots hp (hp.contains hparams) u.scope hscope).bind fun _ hscope => ?_
      exact .ok ⟨(hset.const_append _).append hscope, _, fun _ => rfl⟩
  | delete d =>
    obtain ⟨-, hscope, hparams⟩ := h
    simp only [Statement.retext, Statement.draft, Delete.draft]
    split
    · exact Or.inl ⟨_, fun _ => rfl⟩
    · refine .bind_const _ fun table => ?_
      refine (Scope.slots hp (hp.contains hparams) d.scope hscope).bind fun _ hscope => ?_
      exact .ok ⟨hscope.const_append _, _, fun _ => rfl⟩

end SqlComposer
