import SqlComposer.Proofs.Predicates

/-!
# The outline of a condition list

Calls that open and close groups in pairs describe a tree. Rendering the flat list, which looks no
further back than one entry, writes the tree as one would expect: members in the order of the calls,
connectors between them and nowhere else, parentheses around groups. A group that may be dropped is
dropped if nothing is left in it.
-/

namespace SqlComposer

/-- How a group ends: with which logic, and whether it is dropped when it has no members. -/
structure Ending where
  logic : Logic
  drops : Bool
deriving DecidableEq, Repr

def Ending.call (e : Ending) : Criteria.Call :=
  if e.drops then .closingEmpty e.logic else .closing e.logic

/-- The members of a group, or of the whole, one behind the other. -/
inductive Outline (α : Type) where
  | done
  | leaf (logic : Logic) (a : α) (rest : Outline α)
  | group (logic : Logic) (members : Outline α) (ending : Ending) (rest : Outline α)

namespace Outline

variable {α β : Type}

def leaves : Outline α → List α
  | done => []
  | leaf _ a rest => a :: rest.leaves
  | group _ members _ rest => members.leaves ++ rest.leaves

/-- The outline without the groups that end up empty, the innermost first. -/
def pruned : Outline α → Outline α
  | done => done
  | leaf logic a rest => leaf logic a rest.pruned
  | group logic members ending rest =>
    match members.pruned, ending.drops with
    | done, true => rest.pruned
    | members, _ => group logic members ending rest.pruned

/-- The outline with its leaves rendered, one after the other. -/
def mapM (f : α → Outcome β) : Outline α → Outcome (Outline β)
  | done => .ok done
  | leaf logic a rest => do return leaf logic (← f a) (← rest.mapM f)
  | group logic members ending rest => do
    return group logic (← members.mapM f) ending (← rest.mapM f)

/-! ## As text -/

/-- A member of a group, with the logic it was added with. -/
structure Member where
  logic : Logic
  text : String

/-- Members in a row: no connector in front of the first, its own in front of each other. -/
def joined : List Member → String
  | [] => ""
  | first :: rest =>
    first.text ++ String.join (rest.map fun m => " " ++ m.logic.keyword ++ " " ++ m.text)

def listed : Outline String → List Member
  | done => []
  | leaf logic text rest => ⟨logic, text⟩ :: rest.listed
  | group logic members _ rest => ⟨logic, parenthesized (joined members.listed)⟩ :: rest.listed

def text (o : Outline String) : String := joined o.listed

/-! ## As calls and as entries -/

/-- The calls that an outline stands for. -/
def calls : Outline Predicate → List Criteria.Call
  | done => []
  | leaf logic p rest => .add logic p.column p.op p.value :: rest.calls
  | group logic members ending rest =>
    .opening logic :: (members.calls ++ ending.call :: rest.calls)

def entries : Outline Predicate → List Condition
  | done => []
  | leaf logic p rest => .predicate logic p.column p.op p.value :: rest.entries
  | group logic members ending rest =>
    .opening logic :: (members.entries ++ .closing ending.logic :: rest.entries)

def pieces : Outline String → List Piece
  | done => []
  | leaf logic text rest => .predicate logic text :: rest.pieces
  | group logic members _ rest => .opening logic :: (members.pieces ++ .closing :: rest.pieces)

/-! ## Pruning -/

theorem pruned_group (logic : Logic) (members : Outline α) (ending : Ending) (rest : Outline α) :
    (members.pruned = done ∧ ending.drops = true ∧
        (group logic members ending rest).pruned = rest.pruned) ∨
      (¬ (members.pruned = done ∧ ending.drops = true) ∧
        (group logic members ending rest).pruned =
          group logic members.pruned ending rest.pruned) := by
  rw [pruned]
  split
  · next hdone hdrops => exact .inl ⟨hdone, hdrops, rfl⟩
  · next hkept => exact .inr ⟨fun h => hkept h.1 h.2, rfl⟩

/-- Only groups without leaves are dropped. -/
theorem leaves_pruned (o : Outline α) : o.pruned.leaves = o.leaves := by
  induction o with
  | done => rfl
  | leaf logic a rest ih => rw [pruned, leaves, leaves, ih]
  | group logic members ending rest ihm ihr =>
    rcases pruned_group logic members ending rest with ⟨hdone, -, h⟩ | ⟨-, h⟩
    · rw [h, leaves, ihr, ← ihm, hdone]
      rfl
    · rw [h, leaves, leaves, ihm, ihr]

/-- Behind the entries of an outline a group is open only if there are none. -/
theorem endsOpen_iff (o : Outline Predicate) (earlier : List Condition) (c : Condition) :
    (Criteria.mk (earlier ++ c :: o.entries)).endsOpen = true ↔
      o = done ∧ ∃ logic, c = .opening logic := by
  induction o generalizing earlier c with
  | done =>
    rw [entries, Criteria.endsOpen, List.getLast?_concat]
    cases c <;> simp
  | leaf logic p rest ih =>
    rw [entries, List.append_cons, ih]
    simp
  | group logic members ending rest _ ih =>
    rw [entries, ← List.cons_append, ← List.cons_append, ← List.append_assoc, ih]
    simp

theorem apply_call_dropped {ending : Ending} (h : ending.drops = true)
    (earlier : List Condition) (logic : Logic) :
    (Criteria.mk (earlier ++ [.opening logic])).apply ending.call = ⟨earlier⟩ := by
  rw [Ending.call, if_pos h]
  simp [Criteria.apply, Criteria.endsOpen]

theorem apply_call_kept {members : Outline Predicate} {ending : Ending}
    (h : ¬ (members = done ∧ ending.drops = true)) (earlier : List Condition) (logic : Logic) :
    (Criteria.mk (earlier ++ .opening logic :: members.entries)).apply ending.call =
      ⟨earlier ++ .opening logic :: (members.entries ++ [.closing ending.logic])⟩ := by
  unfold Ending.call
  split
  · next hdrops =>
    have hclosed :
        ¬ (Criteria.mk (earlier ++ .opening logic :: members.entries)).endsOpen = true := by
      rw [endsOpen_iff]
      rintro ⟨hdone, -⟩
      exact h ⟨hdone, hdrops⟩
    rw [Criteria.apply, if_neg hclosed]
    simp [Criteria.push]
  · simp [Criteria.apply, Criteria.push]

/-- The calls add the entries of what they describe, and touch nothing that was there before. -/
theorem foldl_calls (o : Outline Predicate) (c : Criteria) :
    o.calls.foldl Criteria.apply c = ⟨c.entries ++ o.pruned.entries⟩ := by
  induction o generalizing c with
  | done =>
    cases c
    simp [calls, pruned, entries]
  | leaf logic p rest ih =>
    simp only [calls, pruned, entries, List.foldl_cons]
    rw [ih]
    simp [Criteria.apply, Criteria.push]
  | group logic members ending rest ihm ihr =>
    simp only [calls, List.foldl_cons, List.foldl_append]
    rw [ihm, ihr]
    have hentries : (c.apply (.opening logic)).entries ++ members.pruned.entries =
        c.entries ++ .opening logic :: members.pruned.entries := by
      simp [Criteria.apply, Criteria.push]
    rw [hentries]
    rcases pruned_group logic members ending rest with ⟨hdone, hdrops, h⟩ | ⟨hkept, h⟩
    · rw [h, hdone, entries, apply_call_dropped hdrops]
    · rw [h, apply_call_kept hkept, entries]
      simp

/-! ## The flat list and the tree -/

theorem pieces_entries {ctx : Context} {isKey : String → Bool} (o : Outline Predicate) :
    Condition.pieces ctx isKey o.entries = pieces <$> o.mapM (Predicate.text ctx isKey) := by
  induction o with
  | done => rfl
  | leaf logic p rest ih =>
    simp only [entries, Condition.pieces, mapM, Condition.piece_eq, ih]
    simp [pieces]
  | group logic members ending rest ihm ihr =>
    simp only [entries, Condition.pieces, Condition.piece, mapM, Condition.pieces_append, ihm, ihr]
    simp [pieces]
    rfl

/-- Members in a row, the first with its connector if anything stands in front of it. -/
def led (connects : Bool) : List Member → String
  | [] => ""
  | first :: rest => Piece.connector connects first.logic ++ joined (first :: rest)

theorem led_false (members : List Member) : led false members = joined members := by
  cases members <;> simp [led, joined, Piece.connector]

theorem led_cons (connects : Bool) (m : Member) (rest : List Member) :
    led connects (m :: rest) = Piece.connector connects m.logic ++ m.text ++ led true rest := by
  cases rest with
  | nil => simp [led, joined]
  | cons next rest => simp [led, joined, Piece.connector, String.append_assoc]

/-- Whatever ends a group, or the whole, is laid out as `after` in any case. -/
theorem layout_pieces {o : Outline String} (h : ∀ t ∈ o.leaves, t ≠ "") {rest : List Piece}
    {after : String} (hafter : ∀ started fresh, Piece.layout started fresh rest = after)
    (started fresh : Bool) :
    Piece.layout started fresh (o.pieces ++ rest) = led (started && !fresh) o.listed ++ after := by
  induction o generalizing started fresh rest after with
  | done =>
    rw [pieces, List.nil_append, hafter, listed, led, String.empty_append]
  | leaf logic text next ih =>
    obtain ⟨htext, hnext⟩ := List.forall_mem_cons.mp h
    have hstarted : (started || text != "") = true := by simp [htext]
    rw [pieces, List.cons_append, Piece.layout, hstarted, ih hnext hafter, listed, led_cons]
    simp only [Bool.not_false, Bool.and_true, String.append_assoc]
  | group logic members ending next ihm ihn =>
    obtain ⟨hmembers, hnext⟩ := List.forall_mem_append.mp h
    have hclosing : ∀ started fresh,
        Piece.layout started fresh (.closing :: (next.pieces ++ rest)) =
          ")" ++ (led true next.listed ++ after) := by
      intro started fresh
      rw [Piece.layout, ihn hnext hafter]
      rfl
    rw [pieces, List.cons_append, List.append_assoc, List.cons_append, Piece.layout,
      ihm hmembers hclosing, listed, led_cons]
    simp only [Bool.not_true, Bool.and_false, led_false, parenthesized, String.append_assoc]

theorem mem_leaves_of_mapM {f : α → Outcome β} {o : Outline α} {o' : Outline β}
    (h : o.mapM f = .ok o') : ∀ b ∈ o'.leaves, ∃ a ∈ o.leaves, f a = .ok b := by
  induction o generalizing o' with
  | done =>
    obtain rfl : done = o' := Except.ok.inj h
    simp [leaves]
  | leaf logic a rest ih =>
    obtain ⟨b, hb, h⟩ := Outcome.bind_eq_ok.mp h
    obtain ⟨rest', hrest, h⟩ := Outcome.bind_eq_ok.mp h
    obtain rfl : leaf logic b rest' = o' := Except.ok.inj h
    intro c hc
    rcases List.mem_cons.mp hc with rfl | hc
    · exact ⟨a, List.mem_cons_self, hb⟩
    · obtain ⟨d, hd, hf⟩ := ih hrest c hc
      exact ⟨d, List.mem_cons_of_mem _ hd, hf⟩
  | group logic members ending rest ihm ihr =>
    obtain ⟨members', hmembers, h⟩ := Outcome.bind_eq_ok.mp h
    obtain ⟨rest', hrest, h⟩ := Outcome.bind_eq_ok.mp h
    obtain rfl : group logic members' ending rest' = o' := Except.ok.inj h
    intro c hc
    rcases List.mem_append.mp hc with hc | hc
    · obtain ⟨d, hd, hf⟩ := ihm hmembers c hc
      exact ⟨d, List.mem_append_left _ hd, hf⟩
    · obtain ⟨d, hd, hf⟩ := ihr hrest c hc
      exact ⟨d, List.mem_append_right _ hd, hf⟩

/-- The flat list renders as the tree does, and fails as it does. -/
theorem text_entries {ctx : Context} {isKey : String → Bool} {o : Outline Predicate}
    (h : ∀ p ∈ o.leaves, p.text ctx isKey ≠ .ok "") :
    (Criteria.mk o.entries).text ctx isKey = text <$> o.mapM (Predicate.text ctx isKey) := by
  unfold Criteria.text
  rw [pieces_entries]
  cases hmapM : o.mapM (Predicate.text ctx isKey) with
  | error e => rfl
  | ok texts =>
    have hvisible : ∀ t ∈ texts.leaves, t ≠ "" := by
      rintro t ht rfl
      obtain ⟨p, hp, htext⟩ := mem_leaves_of_mapM hmapM "" ht
      exact h p hp htext
    have hend : ∀ started fresh, Piece.layout started fresh [] = "" := fun _ _ => rfl
    have hlayout := layout_pieces hvisible hend false false
    rw [List.append_nil, String.append_empty] at hlayout
    exact congrArg Except.ok (hlayout.trans (led_false _))

end Outline

/-! ## Calls in pairs -/

namespace Criteria

/-- How many groups are open behind a call, if it closes none that is not open. -/
def Call.level (depth : Nat) : Call → Option Nat
  | .add _ _ _ _ => some depth
  | .opening _ => some (depth + 1)
  | .closing _ | .closingEmpty _ => if depth = 0 then none else some (depth - 1)
  | .clear => none

/-- Every group that is opened is closed, and no other. -/
def WellBracketed (calls : List Call) : Prop := calls.foldlM Call.level 0 = some 0

instance (calls : List Call) : Decidable (WellBracketed calls) :=
  inferInstanceAs (Decidable (_ = _))

def Call.ends : Call → Bool
  | .closing _ | .closingEmpty _ => true
  | _ => false

/-- The call without the logic that it closes with. -/
def Call.plain : Call → Call
  | .closing _ => .closing .and
  | .closingEmpty _ => .closingEmpty .and
  | c => c

end Criteria

namespace Outline

open Criteria (Call)

theorem ends_call (ending : Ending) : ending.call.ends = true := by
  unfold Ending.call
  split <;> rfl

theorem call_injective {a b : Ending} (h : a.call = b.call) : a = b := by
  obtain ⟨logic, _ | _⟩ := a <;> obtain ⟨logic', _ | _⟩ := b <;> simp_all [Ending.call]

/-- Where an outline is over, there is the call that ends its group, or none. -/
theorem calls_append_inj {o o' : Outline Predicate} {after after' : List Call}
    (hends : ∀ c ∈ after.head?, c.ends = true) (hends' : ∀ c ∈ after'.head?, c.ends = true)
    (h : o.calls ++ after = o'.calls ++ after') : o = o' ∧ after = after' := by
  induction o generalizing o' after after' with
  | done =>
    cases o' with
    | done => exact ⟨rfl, h⟩
    | leaf logic p rest =>
      obtain rfl : after = _ := h
      exact nomatch hends _ rfl
    | group logic members ending rest =>
      obtain rfl : after = _ := h
      exact nomatch hends _ rfl
  | leaf logic p rest ih =>
    cases o' with
    | done =>
      obtain rfl : _ = after' := h
      exact nomatch hends' _ rfl
    | leaf logic' p' rest' =>
      obtain ⟨hcall, h⟩ := List.cons.inj h
      obtain ⟨rfl, rfl⟩ := ih hends hends' h
      cases p
      cases p'
      cases hcall
      exact ⟨rfl, rfl⟩
    | group logic' members ending rest' => exact nomatch (List.cons.inj h).1
  | group logic members ending rest ihm ihr =>
    cases o' with
    | done =>
      obtain rfl : _ = after' := h
      exact nomatch hends' _ rfl
    | leaf logic' p rest' => exact nomatch (List.cons.inj h).1
    | group logic' members' ending' rest' =>
      simp only [calls, List.cons_append, List.cons.injEq, Call.opening.injEq,
        List.append_assoc] at h
      obtain ⟨rfl, h⟩ := h
      have hhead (e : Ending) (cs : List Call) : ∀ c ∈ (e.call :: cs).head?, c.ends = true := by
        rintro c ⟨⟩
        exact ends_call e
      obtain ⟨rfl, hcalls⟩ := ihm (hhead _ _) (hhead _ _) h
      obtain ⟨hcall, hrest⟩ := List.cons.inj hcalls
      obtain rfl := call_injective hcall
      obtain ⟨rfl, rfl⟩ := ihr hends hends' hrest
      exact ⟨rfl, rfl⟩

theorem calls_injective {o o' : Outline Predicate} (h : o.calls = o'.calls) : o = o' :=
  (calls_append_inj (by simp) (by simp) (congrArg (· ++ []) h)).1

/-- Calls that end `n` groups opened before them: outlines, with the ends of the groups between. -/
def Closes : Nat → List Call → Prop
  | 0, cs => ∃ o : Outline Predicate, o.calls = cs
  | n + 1, cs => ∃ (o : Outline Predicate) (ending : Ending) (rest : List Call),
      o.calls ++ ending.call :: rest = cs ∧ Closes n rest

theorem closes_call (ending : Ending) {cs : List Call} {n m : Nat}
    (hm : ending.call.level n = some m) (h : Closes m cs) : Closes n (ending.call :: cs) := by
  have hlevel : ending.call.level n = if n = 0 then none else some (n - 1) := by
    obtain ⟨logic, _ | _⟩ := ending <;> rfl
  rw [hlevel] at hm
  cases n with
  | zero => exact nomatch hm
  | succ n =>
    obtain rfl : n = m := by simpa using hm
    exact ⟨done, ending, cs, rfl, h⟩

theorem closes_of_level {cs : List Call} {n : Nat} (h : cs.foldlM Call.level n = some 0) :
    Closes n cs := by
  induction cs generalizing n with
  | nil =>
    obtain rfl : n = 0 := by simpa using h
    exact ⟨done, rfl⟩
  | cons c cs ih =>
    rw [List.foldlM_cons] at h
    obtain ⟨m, hm, h⟩ := Option.bind_eq_some_iff.mp h
    have hrest := ih h
    cases c with
    | add logic column op value =>
      obtain rfl : n = m := by simpa [Call.level] using hm
      cases n with
      | zero =>
        obtain ⟨o, rfl⟩ := hrest
        exact ⟨leaf logic ⟨column, op, value⟩ o, rfl⟩
      | succ n =>
        obtain ⟨o, ending, rest, rfl, hclosed⟩ := hrest
        exact ⟨leaf logic ⟨column, op, value⟩ o, ending, rest, rfl, hclosed⟩
    | opening logic =>
      obtain rfl : n + 1 = m := by simpa [Call.level] using hm
      obtain ⟨members, ending, rest, rfl, hrest⟩ := hrest
      cases n with
      | zero =>
        obtain ⟨o, rfl⟩ := hrest
        exact ⟨group logic members ending o, rfl⟩
      | succ n =>
        obtain ⟨o, ending', rest, rfl, hclosed⟩ := hrest
        exact ⟨group logic members ending o, ending', rest, by simp [calls], hclosed⟩
    | closing logic => exact closes_call ⟨logic, false⟩ hm hrest
    | closingEmpty logic => exact closes_call ⟨logic, true⟩ hm hrest
    | clear => exact nomatch hm

end Outline

/-! ## What a condition list compiles to -/

namespace Criteria

/-- The entries without the logic that closings have. -/
def plain (c : Criteria) : Criteria :=
  ⟨c.entries.map fun
    | .closing _ => .closing .and
    | entry => entry⟩

theorem endsOpen_plain (c : Criteria) : c.plain.endsOpen = c.endsOpen := by
  unfold endsOpen plain
  rw [List.getLast?_map]
  rcases c.entries.getLast? with _ | entry
  · rfl
  · cases entry <;> rfl

theorem plain_apply (c : Criteria) (call : Call) :
    (c.apply call).plain = c.plain.apply call.plain := by
  cases call with
  | closingEmpty logic =>
    simp only [apply, Call.plain, endsOpen_plain]
    split
    · simp [plain, List.map_dropLast]
    · simp [plain, push]
  | clear => rfl
  | _ => simp [apply, Call.plain, plain, push]

theorem plain_run (calls : List Call) : (run calls).plain = run (calls.map Call.plain) := by
  unfold run
  rw [List.foldl_map]
  exact (List.foldl_hom plain fun c call => (plain_apply c call).symm).symm

theorem text_plain (ctx : Context) (isKey : String → Bool) (c : Criteria) :
    c.plain.text ctx isKey = c.text ctx isKey := by
  obtain ⟨entries⟩ := c
  have hpieces : Condition.pieces ctx isKey (plain ⟨entries⟩).entries =
      Condition.pieces ctx isKey entries := by
    unfold plain
    induction entries with
    | nil => rfl
    | cons entry entries ih =>
      simp only [List.map_cons, Condition.pieces] at ih ⊢
      rw [ih]
      cases entry <;> rfl
  simp only [text, plain] at hpieces ⊢
  rw [hpieces]

/-- Calls in pairs describe one outline, and what they compile to is its text, or fails as its
leaves do. The logic of a closing changes nothing, in any calls. An outline in which nothing is left
leaves no trace in a group that may be dropped. -/
theorem compile_outline (calls : List Call) (h : WellBracketed calls) :
    ∃ o : Outline Predicate, o.calls = calls ∧
      (∀ other : Outline Predicate, other.calls = calls → other = o) ∧
      (∀ (ctx : Context) (params : Params),
        (∀ p ∈ o.leaves, p.text ctx params.contains ≠ .ok "") →
        (run calls).compile ctx params =
          Outline.text <$> o.pruned.mapM (Predicate.text ctx params.contains)) ∧
      (∀ (others : List Call) (ctx : Context) (params : Params),
        others.map Call.plain = calls.map Call.plain →
        (run others).compile ctx params = (run calls).compile ctx params) ∧
      ∀ (before : List Call) (logic closing : Logic), o.pruned = .done →
        run (before ++ .opening logic :: (calls ++ [.closingEmpty closing])) = run before := by
  obtain ⟨o, rfl⟩ : ∃ o : Outline Predicate, o.calls = calls := Outline.closes_of_level h
  refine ⟨o, rfl, fun _ hother => Outline.calls_injective hother, ?_, ?_, ?_⟩
  · intro ctx params hvisible
    have hentries : run o.calls = ⟨o.pruned.entries⟩ := Outline.foldl_calls o .empty
    rw [compile, hentries]
    apply Outline.text_entries
    rwa [Outline.leaves_pruned]
  · intro others ctx params hothers
    rw [compile, compile, ← text_plain, plain_run, hothers, ← plain_run, text_plain]
  · intro before logic closing hdone
    have hcalls : .opening logic :: (o.calls ++ [.closingEmpty closing]) =
        (Outline.group logic o ⟨closing, true⟩ .done).calls := rfl
    rw [hcalls, run, List.foldl_append, Outline.foldl_calls]
    rcases Outline.pruned_group logic o ⟨closing, true⟩ .done with ⟨-, -, hdropped⟩ | ⟨hkept, -⟩
    · rw [hdropped, Outline.pruned, Outline.entries, List.append_nil]
      change Criteria.mk (run before).entries = run before
      cases run before
      rfl
    · exact absurd ⟨hdone, rfl⟩ hkept

/-- Two groups that end up empty, an empty one that stays, and a filled one around one of them. -/
def nested : List Call :=
  [.opening .or, .closingEmpty .or, .add .or (.name "a") "=" (.text "x"), .opening .or,
    .opening .and, .closingEmpty .and, .add .or (.name "b") "=" .null, .closingEmpty .and,
    .opening .and, .closing .or]

theorem compile_nested :
    WellBracketed nested ∧
      (run nested).compile ⟨Dialect.standard.quoting "", fun _ => .ok "NULL"⟩ .empty =
        .ok "\"a\" = 'x' OR (\"b\" IS NULL) AND ()" := by
  have hpaired : WellBracketed nested := rfl
  obtain ⟨o, -, hunique, hcompile, -⟩ := compile_outline nested hpaired
  obtain rfl := hunique
    (.group .or .done ⟨.or, true⟩ (.leaf .or ⟨.name "a", "=", .text "x"⟩ (.group .or
      (.group .and .done ⟨.and, true⟩ (.leaf .or ⟨.name "b", "=", .null⟩ .done)) ⟨.and, true⟩
      (.group .and .done ⟨.or, false⟩ .done)))) rfl
  refine ⟨hpaired, (hcompile _ .empty ?_).trans rfl⟩
  have hvisible (s : String) (h : s ≠ "") : (.ok s : Outcome String) ≠ .ok "" :=
    fun heq => h (Except.ok.inj heq)
  simp only [Outline.leaves, List.nil_append, List.append_nil, List.forall_mem_cons]
  exact ⟨hvisible "\"a\" = 'x'" (by decide), hvisible "\"b\" IS NULL" (by decide), nofun⟩

end Criteria

end SqlComposer
