import SqlComposer.Connection.Execution
import SqlComposer.Proofs.ByteOrder
import SqlComposer.Proofs.Bytes

/-!
# Statements in the log

An event shows the start of a statement. Where the statement is stored in bytes, the place to cut is
searched from the limit backwards, until a character begins there. No character is longer than four
bytes, so at most three bytes are given up.
-/

namespace SqlComposer

namespace Text

/-! ## The cut in place -/

/-- Whether a byte goes on with a character. -/
def continues (b : UInt8) : Bool := 0x80 ≤ b && b < 0xC0

/-- Whether a character begins at an offset, or the text ends there. -/
def beginsAt (bytes : List UInt8) (i : Nat) : Bool :=
  match bytes[i]? with
  | some b => !continues b
  | none => i = bytes.length

/-- Whether an offset is between characters, or at one of the ends. -/
def isBoundary (bytes : List UInt8) (i : Nat) : Bool := i = 0 || beginsAt bytes i

/-- The first boundary from an offset backwards. -/
def stepBack (bytes : List UInt8) : Nat → Nat
  | 0 => 0
  | i + 1 => if isBoundary bytes (i + 1) then i + 1 else stepBack bytes i

/-- The start of a text as a slice of its bytes. There is none if the slice splits a character. -/
def cutInPlace (room : Nat) (s : String) : Option String :=
  if s.utf8ByteSize ≤ room then some s
  else (splitAt? (stepBack (utf8 s) room) s.toList).map fun (front, _) => String.ofList front

/-! ## Boundaries -/

variable {s u : List Char} {room : Nat}

theorem continues_low (n : Nat) : continues (UInt8.ofNat (n % 64 + 128)) = true := by
  have hn : (UInt8.ofNat (n % 64 + 128)).toNat = n % 64 + 128 :=
    UInt8.toNat_ofNat_of_lt' (show _ < 256 by omega)
  simp only [continues, Bool.and_eq_true, decide_eq_true_eq, UInt8.le_iff_toNat_le,
    UInt8.lt_iff_toNat_lt, hn]
  exact ⟨Nat.le_add_left _ _, show _ < 192 by omega⟩

theorem not_continues {n : Nat} (h : n < 128 ∨ 192 ≤ n) (hn : n < 256) :
    continues (UInt8.ofNat n) = false := by
  have hn : (UInt8.ofNat n).toNat = n := UInt8.toNat_ofNat_of_lt' hn
  simp only [continues, Bool.and_eq_false_iff, decide_eq_false_iff_not, UInt8.le_iff_toNat_le,
    UInt8.lt_iff_toNat_lt, hn, not_le, not_lt]
  exact h

/-- All bytes of a character but the first go on with it. -/
theorem exists_utf8EncodeChar_eq (c : Char) : ∃ b rest, String.utf8EncodeChar c = b :: rest ∧
    continues b = false ∧ rest.all continues = true := by
  have hmax : c.val.toNat < 0x110000 := by
    rcases c.valid with h | h <;> omega
  simp only [String.utf8EncodeChar]
  generalize c.val.toNat = n at hmax
  split_ifs
  · exact ⟨_, _, rfl, not_continues (by omega) (by omega), rfl⟩
  -- The other characters have one, two or three bytes behind the first.
  all_goals
    refine ⟨_, _, rfl, not_continues (by omega) (by omega), ?_⟩
    simp only [List.all_cons, List.all_nil, continues_low, Bool.and_self]

theorem beginsAt_zero (s : List Char) : beginsAt (s.flatMap String.utf8EncodeChar) 0 = true := by
  cases s with
  | nil => rfl
  | cons c s =>
    obtain ⟨b, rest, hc, hb, -⟩ := exists_utf8EncodeChar_eq c
    simp [beginsAt, hc, hb]

/-- No character begins within another one. -/
theorem beginsAt_within {c : Char} {i : Nat} (hpos : 0 < i) (hlt : i < c.utf8Size)
    (rest : List UInt8) : beginsAt (String.utf8EncodeChar c ++ rest) i = false := by
  obtain ⟨i, rfl⟩ := Nat.exists_eq_add_one_of_ne_zero hpos.ne'
  obtain ⟨b, more, hc, -, hmore⟩ := exists_utf8EncodeChar_eq c
  rw [← String.length_utf8EncodeChar, hc, List.length_cons, Nat.add_lt_add_iff_right] at hlt
  have hcontinues : continues more[i] = true := List.all_eq_true.mp hmore _ (List.getElem_mem hlt)
  rw [beginsAt, hc, List.cons_append, List.getElem?_cons_succ, List.getElem?_append_left hlt,
    List.getElem?_eq_getElem hlt]
  simp only [hcontinues, Bool.not_true]

theorem beginsAt_append (front rest : List UInt8) (i : Nat) :
    beginsAt (front ++ rest) (front.length + i) = beginsAt rest i := by
  rw [beginsAt, List.getElem?_append_right (Nat.le_add_right _ _), Nat.add_sub_cancel_left]
  simp [beginsAt]

theorem isBoundary_eq (s : List Char) (i : Nat) :
    isBoundary (s.flatMap String.utf8EncodeChar) i =
      beginsAt (s.flatMap String.utf8EncodeChar) i := by
  cases i with
  | zero => exact (beginsAt_zero s).symm
  | succ i => rfl

/-- What the bytes tell is where a text can be cut. -/
theorem isBoundary_iff {i : Nat} : isBoundary (s.flatMap String.utf8EncodeChar) i = true ↔
    ∃ u, u <+: s ∧ (bytes u).length = i := by
  rw [isBoundary_eq]
  induction s generalizing i with
  | nil =>
    simp only [List.flatMap_nil, List.prefix_nil, exists_eq_left]
    exact decide_eq_true_iff.trans eq_comm
  | cons c s ih =>
    rw [List.flatMap_cons]
    rcases Nat.eq_zero_or_pos i with rfl | hpos
    · exact iff_of_true (beginsAt_zero (c :: s)) ⟨[], List.nil_prefix, rfl⟩
    rcases Nat.lt_or_ge i c.utf8Size with hlt | hge
    · refine iff_of_false (by simp [beginsAt_within hpos hlt]) ?_
      rintro ⟨u, hu, rfl⟩
      rcases List.prefix_cons_iff.mp hu with rfl | ⟨u, rfl, -⟩
      · exact Nat.lt_irrefl _ hpos
      · rw [length_bytes_cons] at hlt
        omega
    · obtain ⟨j, rfl⟩ := Nat.exists_eq_add_of_le hge
      rw [← String.length_utf8EncodeChar c, beginsAt_append, ih, String.length_utf8EncodeChar]
      constructor
      · rintro ⟨u, hu, rfl⟩
        exact ⟨c :: u, (List.prefix_cons_inj c).mpr hu, length_bytes_cons c u⟩
      · rintro ⟨u, hu, hlength⟩
        rcases List.prefix_cons_iff.mp hu with rfl | ⟨u, rfl, htail⟩
        · have hsize := c.utf8Size_pos
          have hzero : 0 = c.utf8Size + j := hlength
          omega
        · rw [length_bytes_cons] at hlength
          exact ⟨u, htail, Nat.add_left_cancel hlength⟩

theorem stepBack_spec (b : List UInt8) (n : Nat) :
    isBoundary b (stepBack b n) = true ∧ stepBack b n ≤ n ∧
      ∀ i ≤ n, isBoundary b i = true → i ≤ stepBack b n := by
  induction n with
  | zero => exact ⟨rfl, Nat.le_refl 0, fun i hi _ => hi⟩
  | succ n ih =>
    rw [stepBack]
    split
    · next h => exact ⟨h, Nat.le_refl _, fun i hi _ => hi⟩
    · next h =>
      obtain ⟨hboundary, hle, hlast⟩ := ih
      refine ⟨hboundary, Nat.le_succ_of_le hle, fun i hi hib => ?_⟩
      rcases Nat.le_succ_iff.mp hi with hi | rfl
      · exact hlast i hi hib
      · exact absurd hib h

/-! ## The longest start -/

/-- A start of a text fits into some room exactly if it is a start of what is taken. -/
theorem prefix_takeBytes_iff : u <+: takeBytes room s ↔ u <+: s ∧ (bytes u).length ≤ room := by
  induction s generalizing room u with
  | nil =>
    rw [takeBytes, List.prefix_nil]
    constructor
    · rintro rfl
      exact ⟨rfl, Nat.zero_le _⟩
    · exact And.left
  | cons c s ih =>
    cases u with
    | nil => simp [bytes]
    | cons d u =>
      rw [takeBytes, length_bytes_cons, List.cons_prefix_cons]
      split
      · next hfits =>
        rw [List.cons_prefix_cons, ih, and_assoc]
        refine and_congr_right fun heq => and_congr_right fun _ => ?_
        subst heq
        omega
      · next hfits =>
        rw [List.prefix_nil]
        refine iff_of_false (by simp) ?_
        rintro ⟨⟨rfl, -⟩, hle⟩
        omega

theorem takeBytes_start (room : Nat) (s : List Char) : takeBytes room s <+: s :=
  (prefix_takeBytes_iff.mp (List.prefix_refl _)).1

theorem length_bytes_takeBytes_le (room : Nat) (s : List Char) :
    (bytes (takeBytes room s)).length ≤ room :=
  (prefix_takeBytes_iff.mp (List.prefix_refl _)).2

theorem length_bytes_mono {v : List Char} (h : u <+: v) :
    (bytes u).length ≤ (bytes v).length := by
  obtain ⟨w, rfl⟩ := h
  rw [bytes_append, List.length_append]
  exact Nat.le_add_right _ _

theorem takeBytes_of_le (h : (bytes s).length ≤ room) : takeBytes room s = s :=
  (takeBytes_start room s).eq_of_length_le
    (prefix_takeBytes_iff.mpr ⟨List.prefix_refl s, h⟩).length_le

/-- One more character would not fit, and it has at most four bytes. -/
theorem lt_length_bytes_takeBytes (h : room < (bytes s).length) :
    room < (bytes (takeBytes room s)).length + 4 := by
  obtain ⟨rest, hrest⟩ := takeBytes_start room s
  cases rest with
  | nil =>
    rw [List.append_nil] at hrest
    have hle := length_bytes_takeBytes_le room s
    rw [hrest] at hle
    omega
  | cons c rest =>
    have hnext : takeBytes room s ++ [c] <+: s := ⟨rest, by rwa [List.append_assoc]⟩
    have hlong : ¬ takeBytes room s ++ [c] <+: takeBytes room s := by
      intro hstart
      simpa using hstart.length_le
    have hsize := c.utf8Size_le_four
    rw [prefix_takeBytes_iff, not_and, bytes_append, List.length_append,
      length_bytes_singleton] at hlong
    have hfull := hlong hnext
    omega

/-! ## Both cuts are the same -/

theorem utf8ByteSize_eq (s : String) : s.utf8ByteSize = (bytes s.toList).length := by
  have hsize : s.utf8ByteSize = (utf8 s).length := rfl
  rw [hsize, utf8_eq_flatMap, bytes, List.length_map]

/-- The last boundary within the room is the end of the longest start that fits. -/
theorem stepBack_eq (s : List Char) (room : Nat) :
    stepBack (s.flatMap String.utf8EncodeChar) room = (bytes (takeBytes room s)).length := by
  obtain ⟨hboundary, hle, hlast⟩ := stepBack_spec (s.flatMap String.utf8EncodeChar) room
  apply Nat.le_antisymm
  · obtain ⟨u, hu, hlength⟩ := isBoundary_iff.mp hboundary
    rw [← hlength] at hle ⊢
    exact length_bytes_mono (prefix_takeBytes_iff.mpr ⟨hu, hle⟩)
  · exact hlast _ (length_bytes_takeBytes_le room s)
      (isBoundary_iff.mpr ⟨_, takeBytes_start room s, rfl⟩)

theorem toList_cut (room : Nat) (s : String) : (cut room s).toList = takeBytes room s.toList :=
  String.toList_ofList

theorem cut_of_le {s : String} (h : s.utf8ByteSize ≤ room) : cut room s = s := by
  rw [utf8ByteSize_eq] at h
  rw [cut, takeBytes_of_le h, String.ofList_toList]

/-- The slice splits no character, and it is the longest start that fits. -/
theorem cutInPlace_eq (room : Nat) (s : String) : cutInPlace room s = some (cut room s) := by
  rw [cutInPlace]
  split
  · next h => rw [cut_of_le h]
  · next h =>
    obtain ⟨rest, hrest⟩ := takeBytes_start room s.toList
    have hsplit : splitAt? (stepBack (utf8 s) room) s.toList =
        some (takeBytes room s.toList, rest) := by
      rw [utf8_eq_flatMap, stepBack_eq]
      exact splitAt?_eq_some_iff.mpr ⟨hrest.symm, rfl⟩
    rw [hsplit]
    rfl

/-- The last character has three bytes, of which one is missing. -/
example : cutInPlace 5 "aé€" = some "aé" := by decide

end Text

/-! ## Events -/

def Event.sql? : Event → Option String
  | .executing _ sql | .served _ sql | .failed _ sql _ => some sql
  | .connected _ => none

variable {σ : Type}

/-- All events of a run show the same of the statement. -/
theorem Job.events_run (job : Job) (conn : Connection σ) (s : Session σ) :
    ∃ added, (job.run conn s).2.events = s.events ++ added ∧
      ∀ e ∈ added, e.sql? = some job.shownSql := by
  rcases hprobe : job.probe s.now s.cache with ⟨rows, cache⟩
  cases rows with
  | some rows =>
    refine ⟨[.served job.call.kind job.shownSql], ?_, by simp [Event.sql?]⟩
    rw [run, hprobe]
    rfl
  | none =>
    let executing := Event.executing job.call.kind job.shownSql
    rcases hask : conn.ask job.call ({ s with cache }.log executing) with ⟨answer, s'⟩
    -- The driver leaves the log as it is.
    have hevents : s'.events = s.events ++ [executing] := congrArg (·.2.events) hask.symm
    simp only [run, hprobe, executing, hask]
    cases answer with
    | error e =>
      refine ⟨[executing, .failed job.call.kind job.shownSql e.message], ?_, ?_⟩
      · simp [Session.log, hevents]
      · simp [Event.sql?, executing]
    | ok output =>
      refine ⟨[executing], ?_, by simp [Event.sql?, executing]⟩
      dsimp only
      split <;> exact hevents

/-- The slice that is taken of the bytes of a statement never splits a character. So all events of a
run show the same: the longest start of the statement that ends between characters and has at most
200 bytes. That is all of a statement that is not longer, and at least 197 bytes of any other. -/
theorem logged_start (sql : String) :
    let shown := Text.cut logLimit sql
    Text.cutInPlace logLimit sql = some shown ∧
      shown.toList <+: sql.toList ∧
      Text.isBoundary (Text.utf8 sql) shown.utf8ByteSize = true ∧
      shown.utf8ByteSize ≤ 200 ∧
      (sql.utf8ByteSize ≤ 200 → shown = sql) ∧
      (∀ u : String, u.toList <+: sql.toList → u.utf8ByteSize ≤ 200 → u.toList <+: shown.toList) ∧
      (200 < sql.utf8ByteSize → 197 ≤ shown.utf8ByteSize) ∧
      ∀ (σ : Type) (conn : Connection σ) (job : Job) (s : Session σ), job.call.sql = sql →
        ∃ added, (job.run conn s).2.events = s.events ++ added ∧
          ∀ e ∈ added, e.sql? = some shown := by
  intro shown
  have hshown : shown.toList = Text.takeBytes logLimit sql.toList := Text.toList_cut logLimit sql
  have hstart := Text.takeBytes_start logLimit sql.toList
  have hboundary : Text.isBoundary (Text.utf8 sql) shown.utf8ByteSize = true := by
    rw [Text.utf8_eq_flatMap, Text.utf8ByteSize_eq, hshown]
    exact Text.isBoundary_iff.mpr ⟨_, hstart, rfl⟩
  refine ⟨Text.cutInPlace_eq logLimit sql, hshown ▸ hstart, hboundary, ?_, Text.cut_of_le, ?_, ?_,
    ?_⟩
  · rw [Text.utf8ByteSize_eq, hshown]
    exact Text.length_bytes_takeBytes_le logLimit sql.toList
  · intro u hu hsize
    rw [Text.utf8ByteSize_eq] at hsize
    rw [hshown]
    exact Text.prefix_takeBytes_iff.mpr ⟨hu, hsize⟩
  · intro hlong
    rw [Text.utf8ByteSize_eq] at hlong ⊢
    have hlimit : logLimit = 200 := rfl
    have hfull : logLimit < _ := Text.lt_length_bytes_takeBytes hlong
    rw [hshown]
    omega
  · rintro σ conn job s rfl
    exact job.events_run conn s

end SqlComposer
