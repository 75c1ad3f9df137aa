import Mathlib.Data.List.Forall2
import Mathlib.Data.List.Nodup
import SqlComposer.Proofs.Meeting
import SqlComposer.Proofs.Occurrences
import SqlComposer.Proofs.TextValues

/-!
# Substitution as segmentation

A text falls into segments: at each place the longest key that starts there, or else one character.
There is one way to cut it, whatever the order of the keys. Substitution puts the texts of the keys
in the place of their segments, unless a parameter has no text: then the first such is the reason.
-/

namespace SqlComposer

namespace Text

variable {keys : List String} {s : List Char} {ms : List Met}

/-- A text cut from left to right into keys, the longest wherever one starts, and characters. -/
inductive Segments (keys : List String) : List Char → List Met → Prop where
  | nil : Segments keys [] []
  | key {k : String} {s : List Char} {ms : List Met} (hk : k ∈ keys) (hne : k ≠ "")
      (hlongest : ∀ a ∈ keys, a.toList <+: k.toList ++ s → a.length ≤ k.length)
      (hrest : Segments keys s ms) : Segments keys (k.toList ++ s) (.key k :: ms)
  | char {c : Char} {s : List Char} {ms : List Met}
      (hnone : ∀ a ∈ keys, a ≠ "" → ¬ a.toList <+: c :: s) (hrest : Segments keys s ms) :
      Segments keys (c :: s) (.char c :: ms)

/-- Any cut is the one that the pass makes. -/
theorem Segments.eq_meets (h : Segments keys s ms) : ms = meets keys 0 s := by
  induction h with
  | nil => rfl
  | key hk hne hlongest hrest ih =>
    have hkey : longestKey keys _ = some _ := longestKey_eq_some_iff.mpr
      ⟨⟨hk, hne, List.prefix_append _ _⟩, fun a ha _ hpre => hlongest a ha hpre⟩
    rw [meets_key hkey, ih]
  | char hnone hrest ih =>
    rw [meets, longestKey_eq_none_iff.mpr hnone, ih]

theorem segments_meets (keys : List String) (s : List Char) : Segments keys s (meets keys 0 s) := by
  induction hlength : s.length using Nat.strongRecOn generalizing s with
  | ind n ih =>
    rcases s with _ | ⟨c, s⟩
    · exact .nil
    · cases hkey : longestKey keys (c :: s) with
      | none =>
        rw [meets, hkey]
        refine .char (longestKey_eq_none_iff.mp hkey) (ih s.length ?_ s rfl)
        rw [← hlength]
        exact Nat.lt_succ_self _
      | some k =>
        obtain ⟨⟨hk, hne, rest, hrest⟩, hlongest⟩ := longestKey_eq_some_iff.mp hkey
        rw [← hrest] at hkey hlongest hlength ⊢
        rw [meets_key hkey]
        refine .key hk hne (fun a ha hpre => ?_) (ih rest.length ?_ rest rfl)
        · by_cases hempty : a = ""
          · simp [hempty]
          · exact hlongest a ha hempty hpre
        · have hpos : k.toList.length ≠ 0 := by simpa using hne
          rw [← hlength, List.length_append]
          omega

theorem segments_iff : Segments keys s ms ↔ ms = meets keys 0 s := by
  constructor
  · exact Segments.eq_meets
  · rintro rfl
    exact segments_meets keys s

/-- Only keys that are not empty are segments. -/
theorem Segments.mem_keys (h : Segments keys s ms) {k : String} (hk : .key k ∈ ms) :
    k ∈ keys ∧ k ≠ "" := by
  induction h with
  | nil => simp at hk
  | key hmem hne _ _ ih =>
    rcases List.mem_cons.mp hk with hk | hk
    · cases hk
      exact ⟨hmem, hne⟩
    · exact ih hk
  | char _ _ ih =>
    rcases List.mem_cons.mp hk with hk | hk
    · cases hk
    · exact ih hk

end Text

/-! ## Parameters without a text -/

open Text (Met meets Segments)

variable {ctx : Context}

/-- Whether a parameter has a place, but no text to put there. -/
def Param.fails (ctx : Context) (p : Param) : Bool :=
  match p.text ctx with
  | .ok _ => false
  | .error _ => p.key ≠ ""

/-- A replacement is the text of a parameter, under its key. -/
def Param.Yields (ctx : Context) (p : Param) (r : Text.Replacement) : Prop :=
  r.key = p.key ∧ p.text ctx = .ok r.text

namespace Param

theorem replacement_eq_text (p : Param) :
    p.replacement ctx =
      if p.key = "" then .ok none else do return some ⟨p.key, ← p.text ctx⟩ := by
  cases p <;> rfl

theorem replacement_of_fails {p : Param} (h : p.fails ctx = true) :
    ∃ f, p.text ctx = .error f ∧ p.replacement ctx = .error f := by
  unfold fails at h
  split at h
  · exact nomatch h
  · next f hf =>
    refine ⟨f, hf, ?_⟩
    rw [replacement_eq_text, if_neg (of_decide_eq_true h), hf]
    rfl

theorem replacement_of_not_fails {p : Param} (h : p.fails ctx = false) :
    (p.key = "" ∧ p.replacement ctx = .ok none) ∨
      (p.key ≠ "" ∧ ∃ r, p.Yields ctx r ∧ p.replacement ctx = .ok (some r)) := by
  rw [replacement_eq_text]
  by_cases hkey : p.key = ""
  · exact .inl ⟨hkey, if_pos hkey⟩
  · unfold fails at h
    split at h
    · next s hs =>
      refine .inr ⟨hkey, ⟨p.key, s⟩, ⟨rfl, hs⟩, ?_⟩
      rw [if_neg hkey, hs]
      rfl
    · exact absurd (of_decide_eq_false h) (not_not.mpr hkey)

theorem replacements_of_fails {ps : List Param} {p : Param} (h : ps.find? (fails ctx) = some p) :
    ∃ f, p.text ctx = .error f ∧ replacements ctx ps = .error f := by
  induction ps with
  | nil => simp at h
  | cons q ps ih =>
    rw [List.find?_cons] at h
    unfold replacements
    split at h
    · next hq =>
      obtain rfl := Option.some.inj h
      obtain ⟨f, hf, hreplacement⟩ := replacement_of_fails hq
      refine ⟨f, hf, ?_⟩
      rw [hreplacement]
      rfl
    · next hq =>
      obtain ⟨f, hf, hrest⟩ := ih h
      refine ⟨f, hf, ?_⟩
      rw [hrest]
      rcases replacement_of_not_fails hq with ⟨-, hreplacement⟩ | ⟨-, r, -, hreplacement⟩
      · rw [hreplacement]
        rfl
      · rw [hreplacement]
        rfl

theorem replacements_of_not_fails {ps : List Param} (h : ps.find? (fails ctx) = none) :
    ∃ table, replacements ctx ps = .ok table ∧
      List.Forall₂ (Yields ctx) (ps.filter (·.key ≠ "")) table := by
  induction ps with
  | nil => exact ⟨[], rfl, .nil⟩
  | cons p ps ih =>
    rw [List.find?_cons] at h
    split at h
    · exact nomatch h
    · next hp =>
      obtain ⟨table, htable, hyields⟩ := ih h
      unfold replacements
      rcases replacement_of_not_fails hp with ⟨hkey, hreplacement⟩ | ⟨hkey, r, hr, hreplacement⟩
      · refine ⟨table, ?_, by simpa [hkey] using hyields⟩
        rw [hreplacement, htable]
        rfl
      · refine ⟨r :: table, ?_, by simpa [hkey] using List.Forall₂.cons hr hyields⟩
        rw [hreplacement, htable]
        rfl

/-- The empty key is passed over. -/
theorem replacements_filter (ps : List Param) :
    replacements ctx (ps.filter (·.key ≠ "")) = replacements ctx ps := by
  induction ps with
  | nil => rfl
  | cons p ps ih =>
    by_cases hkey : p.key = ""
    · have hskip : p.replacement ctx = .ok none := by rw [replacement_eq_text, if_pos hkey]
      rw [List.filter_cons_of_neg (by simpa using hkey), ih, replacements, hskip]
      exact (bind_pure _).symm
    · rw [List.filter_cons_of_pos (by simpa using hkey), replacements, replacements, ih]

theorem find?_filter_key (ps : List Param) {key : String} (hne : key ≠ "") :
    (ps.filter (·.key ≠ "")).find? (·.key == key) = ps.find? (·.key == key) := by
  rw [List.find?_filter]
  congr 1
  funext p
  by_cases hp : p.key = key
  · simp [hp, hne]
  · simp [hp]

theorem find?_of_yields {ps : List Param} {table : List Text.Replacement}
    (h : List.Forall₂ (Yields ctx) ps table) {key : String} {p : Param}
    (hp : ps.find? (·.key == key) = some p) :
    ∃ r, table.find? (·.key == key) = some r ∧ p.Yields ctx r := by
  induction h with
  | nil => simp at hp
  | @cons q r ps table hq hrest ih =>
    obtain ⟨hkey, htext⟩ := hq
    rw [List.find?_cons] at hp ⊢
    rw [hkey]
    split at hp
    · obtain rfl := Option.some.inj hp
      exact ⟨r, rfl, hkey, htext⟩
    · exact ih hp

theorem map_key_of_yields {ps : List Param} {table : List Text.Replacement}
    (h : List.Forall₂ (Yields ctx) ps table) : table.map (·.key) = ps.map Param.key := by
  induction h with
  | nil => rfl
  | cons h _ ih => rw [List.map_cons, List.map_cons, h.1, ih]

end Param

namespace Params

/-- The replacements of parameters that have texts, one for each key that is not empty. -/
theorem yields_of_replacements {params : Params} {table : List Text.Replacement}
    (h : params.replacements ctx = .ok table) :
    List.Forall₂ (Param.Yields ctx) (params.entries.filter (·.key ≠ "")) table := by
  obtain ⟨entries⟩ := params
  rw [Params.replacements] at h
  cases hfind : entries.find? (Param.fails ctx) with
  | some p =>
    obtain ⟨f, -, hf⟩ := Param.replacements_of_fails hfind
    rw [h] at hf
    cases hf
  | none =>
    obtain ⟨table', htable', hyields⟩ := Param.replacements_of_not_fails hfind
    obtain rfl := Except.ok.inj (h.symm.trans htable')
    exact hyields

theorem mem_keys_of_replacements {params : Params} {table : List Text.Replacement}
    (h : params.replacements ctx = .ok table) {r : Text.Replacement} (hr : r ∈ table) :
    r.key ∈ params.keys := by
  have hkeys := Param.map_key_of_yields (yields_of_replacements h)
  have hmem : r.key ∈ table.map (·.key) := List.mem_map_of_mem hr
  rw [hkeys] at hmem
  obtain ⟨p, hp, hkey⟩ := List.mem_map.mp hmem
  exact List.mem_map.mpr ⟨p, (List.mem_filter.mp hp).1, hkey⟩

/-- The parameters written in the places of their keys. -/
theorem fill_of_not_fails {params : Params} (h : params.entries.find? (Param.fails ctx) = none)
    (sql : String) :
    ∃ texts : String → String,
      (∀ key ≠ "", ∀ p, params.entries.find? (·.key == key) = some p →
        p.text ctx = .ok (texts key)) ∧
      ((Fragment.mk sql params).template ctx).fill = .ok (String.ofList
        ((meets params.keys 0 sql.toList).flatMap (Met.write fun key => (texts key).toList))) := by
  obtain ⟨entries⟩ := params
  obtain ⟨table, htable, hyields⟩ := Param.replacements_of_not_fails h
  let texts (key : String) : String := ((table.find? (·.key == key)).map (·.text)).getD ""
  refine ⟨texts, ?_, ?_⟩
  · intro key hne p hp
    obtain ⟨r, hr, -, htext⟩ :=
      Param.find?_of_yields hyields ((Param.find?_filter_key entries hne).trans hp)
    simpa [texts, hr] using htext
  · have hkeys : ∀ k ≠ "", k ∈ table.map (·.key) ↔ k ∈ (Params.mk entries).keys := by
      intro k hk
      rw [Param.map_key_of_yields hyields]
      simp only [keys, List.mem_map, List.mem_filter, decide_eq_true_eq]
      constructor
      · rintro ⟨p, ⟨hp, -⟩, rfl⟩
        exact ⟨p, hp, rfl⟩
      · rintro ⟨p, hp, rfl⟩
        exact ⟨p, ⟨hp, hk⟩, rfl⟩
    have htexts : ∀ r, table.find? (·.key == r.key) = some r →
        r.text.toList = (texts r.key).toList := by
      intro r hr
      simp [texts, hr]
    have hfill : ((Fragment.mk sql ⟨entries⟩).template ctx).fill =
        .ok (Text.replaceAll table sql) := by
      simp only [Fragment.template, Params.replacements, Template.fill, htable]
      rfl
    rw [hfill, Text.replaceAll, Text.replaceFrom_eq table (fun key => (texts key).toList) htexts,
      Text.meets_congr hkeys]

theorem fill_of_fails {params : Params} {p : Param}
    (h : params.entries.find? (Param.fails ctx) = some p) (sql : String) :
    ((Fragment.mk sql params).template ctx).fill = p.text ctx := by
  obtain ⟨entries⟩ := params
  obtain ⟨f, hf, hreplacements⟩ := Param.replacements_of_fails h
  simp only [Fragment.template, Params.replacements, Template.fill, hreplacements, hf]
  rfl

theorem not_fails_of_fill {params : Params} {sql result : String}
    (h : ((Fragment.mk sql params).template ctx).fill = .ok result) :
    params.entries.find? (Param.fails ctx) = none := by
  cases hfind : params.entries.find? (Param.fails ctx) with
  | none => rfl
  | some p =>
    obtain ⟨f, hf, -⟩ := Param.replacement_of_fails (List.find?_some hfind)
    rw [fill_of_fails hfind, hf] at h
    exact nomatch h

theorem fill_filter (params : Params) (sql : String) :
    ((Fragment.mk sql ⟨params.entries.filter (·.key ≠ "")⟩).template ctx).fill =
      ((Fragment.mk sql params).template ctx).fill := by
  obtain ⟨entries⟩ := params
  simp only [Fragment.template, Params.replacements, Template.fill, Param.replacements_filter]

theorem fill_perm {params others : Params} (hnodup : params.keys.Nodup)
    (hperm : others.entries.Perm params.entries) {sql result : String}
    (h : ((Fragment.mk sql params).template ctx).fill = .ok result) :
    ((Fragment.mk sql others).template ctx).fill = .ok result := by
  have hparams := not_fails_of_fill h
  have hothers : others.entries.find? (Param.fails ctx) = none := by
    rw [List.find?_eq_none] at hparams ⊢
    exact fun p hp => hparams p (hperm.mem_iff.mp hp)
  obtain ⟨texts, htexts, hfill⟩ := fill_of_not_fails hparams sql
  obtain ⟨texts', htexts', hfill'⟩ := fill_of_not_fails hothers sql
  have hkeys : others.keys.Perm params.keys := hperm.map Param.key
  have hsame : ∀ key ∈ params.keys, key ≠ "" → texts' key = texts key := by
    intro key hkey hne
    obtain ⟨p, hp, rfl⟩ := List.mem_map.mp hkey
    have htext := htexts _ hne p (find?_of_nodup hnodup hp)
    have htext' := htexts' _ hne p
      (find?_of_nodup (hkeys.nodup_iff.mpr hnodup) (hperm.mem_iff.mpr hp))
    exact Except.ok.inj (htext'.symm.trans htext)
  rw [hfill', ← h, hfill, Text.meets_congr fun k _ => hkeys.mem_iff]
  congr 2
  refine List.flatMap_congr fun m hm => ?_
  cases m with
  | char c => rfl
  | key k =>
    obtain ⟨hk, hne⟩ := (Text.segments_meets _ _).mem_keys hm
    simp only [Met.write, hsame k hk hne]

/-- Substitution fails as the first parameter does that has no text. Or else it gives the segments in
their order, with the texts of the parameters in the places of their keys. Keys that are empty do
not count, and the order of the keys only decides which failure is the first. -/
theorem substitution (params : Params) (sql : String) (ctx : Context) :
    (∀ p, params.entries.find? (Param.fails ctx) = some p →
      ((Fragment.mk sql params).template ctx).fill = p.text ctx) ∧
    (params.entries.find? (Param.fails ctx) = none →
      ∃ (ms : List Met) (texts : String → String),
        (∀ other, Segments params.keys sql.toList other ↔ other = ms) ∧
        (∀ key ≠ "", ∀ p, params.entries.find? (·.key == key) = some p →
          p.text ctx = .ok (texts key)) ∧
        ((Fragment.mk sql params).template ctx).fill =
          .ok (String.ofList (ms.flatMap (Met.write fun key => (texts key).toList)))) ∧
    ((Fragment.mk sql ⟨params.entries.filter (·.key ≠ "")⟩).template ctx).fill =
      ((Fragment.mk sql params).template ctx).fill ∧
    (params.keys.Nodup → ∀ others : Params, others.entries.Perm params.entries →
      ∀ result, ((Fragment.mk sql params).template ctx).fill = .ok result →
        ((Fragment.mk sql others).template ctx).fill = .ok result) := by
  refine ⟨fun p hp => fill_of_fails hp sql, ?_, fill_filter params sql,
    fun hnodup others hperm result h => fill_perm hnodup hperm h⟩
  intro hnone
  obtain ⟨texts, htexts, hfill⟩ := fill_of_not_fails hnone sql
  exact ⟨_, texts, fun other => Text.segments_iff, htexts, hfill⟩

end Params

end SqlComposer
