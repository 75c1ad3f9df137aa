import Mathlib.Data.List.Basic
import SqlComposer.Proofs.Names
import SqlComposer.Render

/-!
# Names read back

A reference is written in parts between marks, with dots between the parts and `AS` in front of an
alias. Read from the left, the text falls into the parts that were meant, whatever stands in them.
-/

namespace SqlComposer

/-! ## Reading -/

/-- A part of a name: what stands between two marks, or a bare star. -/
inductive NamePart where
  | quoted (s : String)
  | star
deriving DecidableEq, Repr

namespace NameReader

inductive State where
  /-- A part has to start here. -/
  | ahead
  /-- Between two marks. What has been read is in reverse. -/
  | inside (read : List Char)
  | behind (part : NamePart)

def joinFirst (part : NamePart) : List (List NamePart) → List (List NamePart)
  | [] => [[part]]
  | name :: names => (part :: name) :: names

/-- The names in a text, those behind `AS` included, each in its parts. -/
def run (mark : Char) : State → List Char → Option (List (List NamePart))
  | .ahead, c :: s =>
    if c = mark then run mark (.inside []) s
    else if c = '*' then run mark (.behind .star) s
    else none
  | .inside read, c :: s =>
    if c = mark then run mark (.behind (.quoted (String.ofList read.reverse))) s
    else run mark (.inside (c :: read)) s
  | .behind part, [] => some [[part]]
  | .behind part, '.' :: s => (run mark .ahead s).map (joinFirst part)
  | .behind part, ' ' :: 'A' :: 'S' :: ' ' :: s => (run mark .ahead s).map ([part] :: ·)
  | _, _ => none

end NameReader

def readNames (mark : Char) (s : String) : Option (List (List NamePart)) :=
  NameReader.run mark .ahead s.toList

example : readNames '"' "\"a\".* AS \"x.y\"" =
    some [[.quoted "a", .star], [.quoted "x.y"]] := by decide

example : readNames '"' "\"a\"\"b\"" = none := by decide

/-! ## What is meant -/

/-- The parts between the dots of a name, without the mark. -/
def Text.dotParts (mark : Char) (name : String) : List String :=
  ((without mark name).toList.splitOn '.').map String.ofList

/-- The table prefix goes in front of the last part but one of a column with dots, and of the last
part of a table. -/
def Role.prefixed (tablePrefix : String) (parts : List String) : Role → List String
  | .column =>
    if 2 ≤ parts.length then parts.modify (parts.length - 2) (tablePrefix ++ ·) else parts
  | .table => parts.modify (parts.length - 1) (tablePrefix ++ ·)
  | .plain => parts

def NamePart.of (role : Role) (part : String) : NamePart :=
  if role = .column ∧ part = "*" then .star else .quoted part

theorem NamePart.of_eq_star {role : Role} {part : String} :
    NamePart.of role part = .star ↔ role = .column ∧ part = "*" := by
  unfold NamePart.of
  split <;> simp_all

/-- A name, or an alias, with any aliases. -/
def Ident.OfNames : Ident → Prop
  | .name _ | .aliasName _ => True
  | .aliased inner _ => inner.OfNames
  | .fragment _ | .subquery _ => False

/-- The name under all aliases, unless that is an alias, too. -/
def Ident.bottom? : Ident → Option String
  | .name s => some s
  | .aliased inner _ => inner.bottom?
  | _ => none

/-- The names that a reference consists of: its own, then one alias after the other. -/
def Ident.spelling (mark : Char) (tablePrefix : String) (role : Role) :
    Ident → List (List NamePart)
  | .name s => [(role.prefixed tablePrefix (Text.dotParts mark s)).map (.of role)]
  | .aliased inner given =>
    inner.spelling mark tablePrefix role ++
      [[.quoted ((if role = .table then tablePrefix else "") ++ Text.without mark given)]]
  | .aliasName s =>
    let role : Role := if role = .table then .table else .plain
    [(role.prefixed tablePrefix (Text.dotParts mark s)).map (.of role)]
  | .fragment _ | .subquery _ => []

/-! ## Parts of names -/

theorem Text.dotted_without (m : Char) (s : String) : dotted (without m s) = dotParts m s := by
  rw [dotted, splitAt_eq_splitOn, dotParts]

namespace Quoting

variable (q : Quoting)

theorem prefixLast_eq (parts : List String) :
    q.prefixLast parts = Role.table.prefixed q.tablePrefix parts := by
  simp only [Role.prefixed]
  fun_induction prefixLast with
  | case1 => rfl
  | case2 last => rfl
  | case3 part rest hne ih =>
    obtain ⟨next, rest, rfl⟩ := List.exists_cons_of_ne_nil hne
    simp [ih]

theorem prefixQualifier_eq (parts : List String) :
    q.prefixQualifier parts = Role.column.prefixed q.tablePrefix parts := by
  simp only [Role.prefixed]
  fun_induction prefixQualifier with
  | case1 => rfl
  | case2 table column => rfl
  | case3 part rest hne ih =>
    rcases rest with _ | ⟨next, _ | ⟨last, rest⟩⟩
    · rfl
    · exact absurd rfl (hne next)
    · simp [ih]

theorem parts_eq {m : Char} (hm : q.mark.toList = [m]) (role : Role) (name : String) :
    q.parts role name = role.prefixed q.tablePrefix (Text.dotParts m name) := by
  rw [← Text.dotted_without, ← Text.strip_eq_without hm]
  cases role with
  | column => exact q.prefixQualifier_eq _
  | table => exact q.prefixLast_eq _
  | plain => rfl

end Quoting

/-! ## Reading what is written -/

namespace NameReader

variable {m : Char}

theorem run_ahead (c : Char) (s : List Char) :
    run m .ahead (c :: s) =
      if c = m then run m (.inside []) s
      else if c = '*' then run m (.behind .star) s
      else none := rfl

theorem run_within (read : List Char) (c : Char) (s : List Char) :
    run m (.inside read) (c :: s) =
      if c = m then run m (.behind (.quoted (String.ofList read.reverse))) s
      else run m (.inside (c :: read)) s := rfl

theorem run_dot (part : NamePart) (s : List Char) :
    run m (.behind part) ('.' :: s) = (run m .ahead s).map (joinFirst part) := rfl

theorem run_as (part : NamePart) (s : List Char) :
    run m (.behind part) (" AS ".toList ++ s) = (run m .ahead s).map ([part] :: ·) := rfl

theorem run_inside {t : List Char} (ht : m ∉ t) (read s : List Char) :
    run m (.inside read) (t ++ m :: s) =
      run m (.behind (.quoted (String.ofList (read.reverse ++ t)))) s := by
  induction t generalizing read with
  | nil => simp [run_within]
  | cons c t ih =>
    have hc : c ≠ m := fun h => ht (h ▸ List.mem_cons_self)
    rw [List.cons_append, run_within, if_neg hc, ih fun h => ht (List.mem_cons_of_mem _ h)]
    simp

theorem run_wrap {q : Quoting} (hm : q.mark.toList = [m]) {part : String} (hpart : m ∉ part.toList)
    (s : List Char) :
    run m .ahead ((q.wrap part).toList ++ s) = run m (.behind (.quoted part)) s := by
  have hwrap : (q.wrap part).toList ++ s = m :: (part.toList ++ m :: s) := by
    simp [Quoting.wrap, hm]
  rw [hwrap, run_ahead, if_pos rfl, run_inside hpart]
  simp

theorem run_partText {q : Quoting} (hm : q.mark.toList = [m]) (role : Role) {part : String}
    (hpart : m ∉ part.toList) (s : List Char) :
    run m .ahead ((q.partText role part).toList ++ s) = run m (.behind (.of role part)) s := by
  unfold Quoting.partText NamePart.of
  split
  · next hstar =>
    have hne : '*' ≠ m := by
      rintro rfl
      exact hpart (by simp [hstar.2])
    have htext : part.toList ++ s = '*' :: s := by simp [hstar.2]
    rw [htext, run_ahead, if_neg hne, if_pos rfl]
  · exact run_wrap hm hpart s

/-- The reader takes what stands behind a name for other names. -/
def Ends (mark : Char) (s : List Char) (names : List (List NamePart)) : Prop :=
  ∀ part, run mark (.behind part) s = some ([part] :: names)

theorem ends_nil : Ends m [] [] := fun _ => rfl

theorem ends_as {s : List Char} {names : List (List NamePart)} (h : run m .ahead s = some names) :
    Ends m (" AS ".toList ++ s) names := by
  intro part
  rw [run_as, h]
  rfl

/-- Parts with dots between them are one name. -/
theorem run_parts {q : Quoting} (hm : q.mark.toList = [m]) (role : Role) {parts : List String}
    (hne : parts ≠ []) (hparts : ∀ part ∈ parts, m ∉ part.toList) {s : List Char}
    {names : List (List NamePart)} (hs : Ends m s names) :
    run m .ahead ((".".intercalate (parts.map (q.partText role))).toList ++ s) =
      some (parts.map (.of role) :: names) := by
  induction parts with
  | nil => exact absurd rfl hne
  | cons part parts ih =>
    have hpart := hparts part List.mem_cons_self
    cases parts with
    | nil =>
      rw [List.map_cons, List.map_nil, String.intercalate_singleton, run_partText hm role hpart]
      exact hs _
    | cons next parts =>
      have htext : (".".intercalate ((part :: next :: parts).map (q.partText role))).toList ++ s =
          (q.partText role part).toList ++
            '.' :: ((".".intercalate ((next :: parts).map (q.partText role))).toList ++ s) := by
        simp [String.intercalate_cons_cons, String.append_assoc]
      have ih := ih (List.cons_ne_nil _ _) fun p hp => hparts p (List.mem_cons_of_mem _ hp)
      rw [htext, run_partText hm role hpart, run_dot, ih]
      rfl

end NameReader

namespace Quoting

variable {q : Quoting} {m : Char}

theorem not_mem_parts (hm : q.mark.toList = [m]) (hpre : m ∉ q.tablePrefix.toList) {role : Role}
    {name part : String} (h : part ∈ q.parts role name) : m ∉ part.toList := by
  intro hmem
  rcases mem_of_mem_parts h hmem with hname | htable
  · exact Text.not_mem_strip hm name hname
  · exact hpre htable

theorem run_nameText (hm : q.mark.toList = [m]) (hpre : m ∉ q.tablePrefix.toList) (role : Role)
    (name : String) {s : List Char} {names : List (List NamePart)}
    (hs : NameReader.Ends m s names) :
    NameReader.run m .ahead ((q.nameText role name).toList ++ s) =
      some ((role.prefixed q.tablePrefix (Text.dotParts m name)).map (.of role) :: names) := by
  rw [nameText, ← parts_eq q hm]
  exact NameReader.run_parts hm role (q.parts_ne_nil role name)
    (fun part hpart => not_mem_parts hm hpre hpart) hs

theorem run_aliasText (hm : q.mark.toList = [m]) (hpre : m ∉ q.tablePrefix.toList) (role : Role)
    (name : String) (s : List Char) :
    NameReader.run m .ahead ((q.aliasText role name).toList ++ s) =
      NameReader.run m (.behind (.quoted
        ((if role = .table then q.tablePrefix else "") ++ Text.without m name))) s := by
  have hname : m ∉ (Text.without m name).toList := by simp [Text.without]
  rw [aliasText, strip, Text.strip_eq_without hm]
  split
  · refine NameReader.run_wrap hm ?_ s
    rw [String.toList_append, List.mem_append]
    exact not_or.mpr ⟨hpre, hname⟩
  · rw [String.empty_append]
    exact NameReader.run_wrap hm hname s

end Quoting

namespace Ident

variable {ctx : Context} {m : Char}

theorem run_text (hm : ctx.quoting.mark.toList = [m]) (hpre : m ∉ ctx.quoting.tablePrefix.toList)
    (role : Role) : (i : Ident) → i.OfNames →
    ∃ s, i.text ctx role = .ok s ∧ ∀ rest names, NameReader.Ends m rest names →
      NameReader.run m .ahead (s.toList ++ rest) =
        some (i.spelling m ctx.quoting.tablePrefix role ++ names)
  | .name n, _ => by
    refine ⟨_, by rw [text], fun rest names h => ?_⟩
    rw [Quoting.run_nameText hm hpre role n h, spelling]
    rfl
  | .aliasName n, _ => by
    refine ⟨_, by rw [text], fun rest names h => ?_⟩
    rw [Quoting.targetText, Quoting.run_nameText hm hpre _ n h, spelling]
    rfl
  | .aliased inner given, hi => by
    obtain ⟨s, hs, hread⟩ := run_text hm hpre role inner (by simpa [OfNames] using hi)
    refine ⟨s ++ " AS " ++ ctx.quoting.aliasText role given, by rw [text, hs]; rfl, ?_⟩
    intro rest names h
    -- What stands behind the inner reference is one alias more.
    have halias : NameReader.run m .ahead ((ctx.quoting.aliasText role given).toList ++ rest) =
        some ([.quoted ((if role = .table then ctx.quoting.tablePrefix else "") ++
          Text.without m given)] :: names) := by
      rw [Quoting.run_aliasText hm hpre]
      exact h _
    rw [String.toList_append, String.toList_append, List.append_assoc, List.append_assoc,
      hread _ _ (NameReader.ends_as halias), spelling, List.append_assoc]
    rfl
  | .fragment _, hi => by simp [OfNames] at hi
  | .subquery _, hi => by simp [OfNames] at hi

/-- A bare star is a part of a column with that name, and of nothing else. -/
theorem star_of_mem_spelling (tablePrefix : String) (role : Role) : (i : Ident) →
    ∀ parts ∈ i.spelling m tablePrefix role, .star ∈ parts →
      role = .column ∧ ∃ s, i.bottom? = some s ∧
        "*" ∈ Role.column.prefixed tablePrefix (Text.dotParts m s)
  | .name n, parts, hparts, hstar => by
    obtain rfl : parts = _ := List.mem_singleton.mp (by simpa only [spelling] using hparts)
    obtain ⟨part, hpart, hof⟩ := List.mem_map.mp hstar
    obtain ⟨rfl, rfl⟩ := NamePart.of_eq_star.mp hof
    exact ⟨rfl, n, rfl, hpart⟩
  | .aliasName n, parts, hparts, hstar => by
    obtain rfl : parts = _ := List.mem_singleton.mp (by simpa only [spelling] using hparts)
    obtain ⟨part, hpart, hof⟩ := List.mem_map.mp hstar
    obtain ⟨hrole, -⟩ := NamePart.of_eq_star.mp hof
    split at hrole <;> cases hrole
  | .aliased inner given, parts, hparts, hstar => by
    rw [spelling, List.mem_append, List.mem_singleton] at hparts
    rcases hparts with hparts | rfl
    · exact star_of_mem_spelling tablePrefix role inner parts hparts hstar
    · simp at hstar
  | .fragment _, parts, hparts, _ => by simp [spelling] at hparts
  | .subquery _, parts, hparts, _ => by simp [spelling] at hparts

end Ident

/-- A reference made of names reads back as these names, part by part: no character of a name gets
out of its marks. Only a part of a column that reads `*` is bare. The part that the prefix of a
column goes to is there whenever the name has a dot. -/
theorem Ident.readNames_text (ctx : Context) {m : Char} (hm : ctx.quoting.mark.toList = [m])
    (hpre : m ∉ ctx.quoting.tablePrefix.toList) (role : Role) (i : Ident) (hi : i.OfNames) :
    (∃ s, i.text ctx role = .ok s ∧
      readNames m s = some (i.spelling m ctx.quoting.tablePrefix role)) ∧
    (∀ name ∈ i.spelling m ctx.quoting.tablePrefix role, .star ∈ name →
      role = .column ∧ ∃ s, i.bottom? = some s ∧
        "*" ∈ Role.column.prefixed ctx.quoting.tablePrefix (Text.dotParts m s)) ∧
    ∀ name parts, Text.dotParts m name = parts → '.' ∈ (Text.without m name).toList →
      ∃ h : 2 ≤ parts.length,
        ctx.quoting.parts .column name = parts.set (parts.length - 2)
          (ctx.quoting.tablePrefix ++ parts.get ⟨parts.length - 2, by omega⟩) := by
  refine ⟨?_, star_of_mem_spelling _ role i, ?_⟩
  · obtain ⟨s, hs, hread⟩ := run_text hm hpre role i hi
    refine ⟨s, hs, ?_⟩
    have hend := hread [] [] NameReader.ends_nil
    rwa [List.append_nil, List.append_nil] at hend
  · rintro name parts rfl hdot
    have hlen : 2 ≤ (Text.dotParts m name).length := by
      rw [← Text.dotted_without]
      exact Text.two_le_length_dotted hdot
    refine ⟨hlen, ?_⟩
    rw [Quoting.parts_eq _ hm, Role.prefixed, if_pos hlen]
    exact List.modify_eq_set_get _ (by omega)

/-- A mark and a star in a column with two dots, and a dot in its alias. -/
theorem Ident.readNames_hostile :
    ∃ s, (Ident.aliased (.name "s\".t.*") "x.\"y").text
        ⟨Dialect.standard.quoting "p_", fun _ => .ok "NULL"⟩ .column = .ok s ∧
      s = "\"s\".\"p_t\".* AS \"x.y\"" ∧
      readNames '"' s = some [[.quoted "s", .quoted "p_t", .star], [.quoted "x.y"]] := by
  obtain ⟨⟨s, hs, hread⟩, -⟩ := Ident.readNames_text
    ⟨Dialect.standard.quoting "p_", fun _ => .ok "NULL"⟩ (m := '"') rfl (by decide) .column
    (Ident.aliased (.name "s\".t.*") "x.\"y") trivial
  refine ⟨s, hs, ?_, hread.trans ?_⟩
  · exact Except.ok.inj (hs.symm.trans rfl)
  · decide

end SqlComposer
