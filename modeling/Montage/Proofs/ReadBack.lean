import Montage.Proofs.TokenReading
import Mathlib.Data.List.Nodup

/-! # Stored JSON is read back

A value that was written with indentation is read back as it was: null and truth values, texts
without halves of pairs, lists, and objects whose names are different (`Tidy`).  Of the numbers that
occur it is asked that each is read back from its own text (`read_write`).

Each value is read back at each level of indentation with any stored text behind it
(`Tidy.readsBack`); the induction is on the value, and inside a list or an object on what is left of it.
-/
namespace Montage.Json

open Text Number

/-! ### Numbers of a value -/

mutual

/-- The numbers of a value in the order of writing. -/
def numbers : Json → List Json
  | int n => [.int n]
  | float x => [.float x]
  | arr items => itemNumbers items
  | obj fields => fieldNumbers fields
  | _ => []

/-- The numbers of the items of a list. -/
def itemNumbers : List Json → List Json
  | [] => []
  | v :: rest => v.numbers ++ itemNumbers rest

/-- The numbers of the values of fields. -/
def fieldNumbers : List (JsonText × Json) → List Json
  | [] => []
  | (_, v) :: rest => v.numbers ++ fieldNumbers rest

end

/-- Whether a number is read back from the text that is stored of it. -/
def isExact (n : Json) : Bool :=
  match n, Json.read (n.write .stored) with
  | int a, .ok (int b) => a == b
  | float x, .ok (float y) => x == y
  | _, _ => false

theorem read_of_isExact {n : Json} (h : n.isExact = true) : Json.read (n.write .stored) = .ok n := by
  unfold isExact at h
  split at h
  · rename_i hread
    rw [hread, eq_of_beq h]
  · rename_i hread
    rw [hread, eq_of_beq h]
  · cases h

theorem mem_itemNumbers {n v : Json} {items : List Json} (hv : v ∈ items) (h : n ∈ v.numbers) :
    n ∈ itemNumbers items := by
  induction items with
  | nil => cases hv
  | cons w items ih =>
    rw [itemNumbers, List.mem_append]
    rcases List.mem_cons.mp hv with rfl | hv
    · exact Or.inl h
    · exact Or.inr (ih hv)

theorem mem_fieldNumbers {n : Json} {f : JsonText × Json} {fields : List (JsonText × Json)}
    (hf : f ∈ fields) (h : n ∈ f.2.numbers) : n ∈ fieldNumbers fields := by
  induction fields with
  | nil => cases hf
  | cons g fields ih =>
    obtain ⟨name, v⟩ := g
    rw [fieldNumbers, List.mem_append]
    rcases List.mem_cons.mp hf with rfl | hf
    · exact Or.inl h
    · exact Or.inr (ih hf)

/-! ### Lists and objects -/

/-- A value that can be stored: no halves of pairs stand in it, the names of an object are different, and
the brackets around one another are so many at most. -/
inductive Tidy : Nat → Json → Prop where
  | null (room : Nat) : Tidy room .null
  | bool (room : Nat) (b : Bool) : Tidy room (.bool b)
  | int (room : Nat) (n : Int) : Tidy room (.int n)
  | float (room : Nat) (x : Number) : Tidy room (.float x)
  | text (room : Nat) (s : String) : Tidy room (.str s)
  | list (room : Nat) (items : List Json) (each : ∀ v ∈ items, Tidy room v) :
      Tidy (room + 1) (.arr items)
  | record (room : Nat) (fields : List (String × Json)) (names : (fields.map Prod.fst).Nodup)
      (each : ∀ f ∈ fields, Tidy room f.2) : Tidy (room + 1) (.ofFields fields)

theorem Tidy.mono {room room' : Nat} {v : Json} (tidy : Tidy room v) (h : room ≤ room') :
    Tidy room' v := by
  induction tidy generalizing room' with
  | null => exact .null room'
  | bool _ b => exact .bool room' b
  | int _ n => exact .int room' n
  | float _ x => exact .float room' x
  | text _ s => exact .text room' s
  | list room items each ih =>
    obtain ⟨more, rfl⟩ := Nat.exists_eq_add_of_le' (Nat.le_trans (Nat.le_add_left 1 room) h)
    exact .list more items fun v hv => ih v hv (Nat.le_of_succ_le_succ h)
  | record room fields names each ih =>
    obtain ⟨more, rfl⟩ := Nat.exists_eq_add_of_le' (Nat.le_trans (Nat.le_add_left 1 room) h)
    exact .record more fields names fun f hf => ih f hf (Nat.le_of_succ_le_succ h)

/-- The characters of a value in a stored text. -/
abbrev chars (level : Nat) (v : Json) : List Char := (writeAt .stored level v).toList

/-- A value is read back at each level, with any stored text behind it. -/
def ReadsBack (room : Nat) (v : Json) : Prop :=
  ∀ level fuel rest, 2 * (chars level v).length + 1 ≤ fuel → Ended rest →
    ∃ more, value [] fuel room (skip (chars level v ++ rest)) = .ok (v, more) ∧
      skip more = skip rest

/-- The line break before a value and the blanks before it are passed over. -/
theorem skip_lineBreak (level : Nat) (rest : List Char) :
    skip ((lineBreak .stored level).toList ++ rest) = skip rest := by
  refine skip_append_blank ?_ rest
  simp [lineBreak, Style.stored, skip]

theorem ended_lineBreak (level : Nat) (rest : List Char) :
    Ended ((lineBreak .stored level).toList ++ rest) := by
  simp only [lineBreak, Style.stored, String.toList_append]
  exact ended_cons (Or.inr rfl)

theorem toList_separator (level : Nat) :
    (separator .stored level).toList = ',' :: (lineBreak .stored level).toList := by
  simp [separator, Style.stored]

theorem ended_writeItems (level : Nat) (items : List Json) {rest : List Char} (ended : Ended rest) :
    Ended ((writeItems .stored level items).toList ++ rest) := by
  cases items with
  | nil => simpa [writeItems] using ended
  | cons v items =>
    simp only [writeItems, String.toList_append, toList_separator]
    exact ended_cons (Or.inl rfl)

theorem ended_writeFields (level : Nat) (fields : List (JsonText × Json)) {rest : List Char}
    (ended : Ended rest) : Ended ((writeFields .stored level fields).toList ++ rest) := by
  cases fields with
  | nil => simpa [writeFields] using ended
  | cons f fields =>
    simp only [writeFields, String.toList_append, toList_separator]
    exact ended_cons (Or.inl rfl)

/-- No value begins with a closing bracket or the mark of a byte order. -/
theorem no_value {fuel room : Nat} {c : Char} (hc : c = ']' ∨ c = Char.ofNat 0xfeff)
    (cs : List Char) (p : Json × List Char) : value [] fuel room (c :: cs) ≠ .ok p := by
  intro h
  cases fuel with
  | zero => cases h
  | succ fuel =>
    rcases hc with rfl | rfl
    all_goals
      rw [value_bare (by decide)] at h
      cases h

theorem not_closed_of_items {fuel room : Nat} {done : List Json} {cs : List Char} {p : Json × List Char}
    (h : items [] fuel room done cs = .ok p) (rest : List Char) : cs ≠ ']' :: rest := by
  rintro rfl
  cases fuel with
  | zero => cases h
  | succ fuel =>
    rw [items] at h
    split at h
    · cases h
    · rename_i hvalue
      exact no_value (Or.inl rfl) rest _ hvalue

/-- Behind an opening bracket the items are read, unless there are none. -/
theorem value_opened {fuel room : Nat} {cs : List Char} (h : ∀ rest, skip cs ≠ ']' :: rest) :
    value [] (fuel + 1) (room + 1) ('[' :: cs) = items [] fuel room [] (skip cs) := by
  rw [value]
  simp

/-- Items are read back one after the other. -/
theorem items_written {room : Nat} (level fuel : Nat) (v : Json) (vs done : List Json)
    (each : ∀ w ∈ v :: vs, ReadsBack room w)
    (hfuel : 2 * ((chars level v).length + (writeItems .stored level vs).toList.length) + 2 ≤ fuel)
    (close : Nat) (rest : List Char) :
    items [] fuel room done (skip (chars level v ++ ((writeItems .stored level vs).toList ++
        ((lineBreak .stored close).toList ++ ']' :: rest)))) =
      .ok (.arr (done.reverse ++ v :: vs), rest) := by
  induction vs generalizing v done fuel with
  | nil =>
    obtain ⟨fuel, rfl⟩ := Nat.exists_eq_add_of_le' (Nat.le_trans (by omega : 1 ≤ _) hfuel)
    obtain ⟨more, hread, hmore⟩ := each v List.mem_cons_self level fuel
      ((writeItems .stored level []).toList ++ ((lineBreak .stored close).toList ++ ']' :: rest))
      (by omega) (ended_writeItems level [] (ended_lineBreak close _))
    rw [items, hread]
    have hclose : skip more = ']' :: rest := by
      rw [hmore, writeItems]
      exact (skip_lineBreak close _).trans (skip_cons rest (by decide))
    simp [hclose]
  | cons w vs ih =>
    obtain ⟨fuel, rfl⟩ := Nat.exists_eq_add_of_le' (Nat.le_trans (by omega : 1 ≤ _) hfuel)
    obtain ⟨more, hread, hmore⟩ := each v List.mem_cons_self level fuel
      ((writeItems .stored level (w :: vs)).toList ++
        ((lineBreak .stored close).toList ++ ']' :: rest))
      (by omega) (ended_writeItems level (w :: vs) (ended_lineBreak close _))
    rw [items, hread]
    simp only [writeItems, String.toList_append, toList_separator, List.cons_append,
      List.append_assoc] at hmore hfuel
    simp only [chars, List.length_cons, List.length_append] at hfuel ih
    have hnext : skip more = ',' :: ((lineBreak .stored level).toList ++ (chars level w ++
        ((writeItems .stored level vs).toList ++
          ((lineBreak .stored close).toList ++ ']' :: rest)))) := by
      rw [hmore, skip_cons _ (by decide)]
    simp only [hnext]
    rw [skip_lineBreak, ih fuel w (v :: done) (fun u hu => each u (List.mem_cons_of_mem v hu)) (by omega)]
    simp

/-- A name that is new is put behind the others. -/
theorem putField_new {name : JsonText} {done : List (JsonText × Json)}
    (h : name ∉ done.map Prod.fst) (v : Json) : putField name v done = done ++ [(name, v)] := by
  induction done with
  | nil => rfl
  | cons f done ih =>
    obtain ⟨other, w⟩ := f
    simp only [List.map_cons, List.mem_cons, not_or] at h
    rw [putField, if_neg (Ne.symm h.1), ih h.2, List.cons_append]

/-- Fields as an object holds them. -/
def named (fields : List (String × Json)) : List (JsonText × Json) :=
  fields.map fun f => (.plain f.1, f.2)

@[simp] theorem named_nil : named [] = [] := rfl

@[simp] theorem named_cons (f : String × Json) (fields : List (String × Json)) :
    named (f :: fields) = (.plain f.1, f.2) :: named fields := rfl

theorem map_fst_named (fields : List (String × Json)) :
    (named fields).map Prod.fst = (fields.map Prod.fst).map JsonText.plain := by
  simp [named]

theorem ofFields_eq (fields : List (String × Json)) : ofFields fields = .obj (named fields) := rfl

/-- A field, with its name and what stands behind its value. -/
abbrev fieldChars (level : Nat) (f : String × Json) (rest : List Char) : List Char :=
  '"' :: (quotedBody f.1 ++ '"' :: ':' :: ' ' :: (chars level f.2 ++ rest))

/-- A field is read back, and reading goes on behind it. -/
theorem fields_named {room fuel level : Nat} {f : String × Json} (back : ReadsBack room f.2)
    (hfuel : 2 * (chars level f.2).length + 1 ≤ fuel) (done : List (JsonText × Json))
    {rest : List Char} (ended : Ended rest) (after : List Char) :
    (skip rest = '\x7d' :: after →
      fields [] (fuel + 1) room done (fieldChars level f rest) =
        .ok (.obj (putField (.plain f.1) f.2 done), after)) ∧
    (skip rest = ',' :: after →
      fields [] (fuel + 1) room done (fieldChars level f rest) =
        fields [] fuel room (putField (.plain f.1) f.2 done) (skip after)) := by
  obtain ⟨more, hread, hmore⟩ := back level fuel rest hfuel ended
  have hname := stringRest_quoted
    ((quotedBody f.1 ++ '"' :: ':' :: ' ' :: (chars level f.2 ++ rest)).length + 1)
    ((quotedBody f.1 ++ '"' :: ':' :: ' ' :: (chars level f.2 ++ rest)).length + 1) f.1
    (':' :: ' ' :: (chars level f.2 ++ rest)) (by simp only [List.length_append]; omega)
  have hcolon : skip (':' :: ' ' :: (chars level f.2 ++ rest)) =
      ':' :: ' ' :: (chars level f.2 ++ rest) := skip_cons _ (by decide)
  have hvalue : skip (' ' :: (chars level f.2 ++ rest)) = skip (chars level f.2 ++ rest) :=
    skip_append_blank (show skip [' '] = [] from rfl) _
  constructor
  · intro hclose
    rw [fields, hname]
    simp only [hcolon, hvalue, hread, hmore, hclose]
  · intro hcomma
    rw [fields, hname]
    simp only [hcolon, hvalue, hread, hmore, hcomma]

/-- Fields are read back one after the other. -/
theorem fields_written {room : Nat} (level fuel : Nat) (f : String × Json)
    (fs : List (String × Json)) (done : List (JsonText × Json)) (each : ∀ g ∈ f :: fs, ReadsBack room g.2)
    (names : ((done ++ named (f :: fs)).map Prod.fst).Nodup)
    (hfuel : 2 * ((chars level f.2).length + (writeFields .stored level (named fs)).toList.length) +
      2 ≤ fuel)
    (close : Nat) (rest : List Char) :
    fields [] fuel room done (fieldChars level f ((writeFields .stored level (named fs)).toList ++
        ((lineBreak .stored close).toList ++ '\x7d' :: rest))) =
      .ok (.obj (done ++ named (f :: fs)), rest) := by
  induction fs generalizing f done fuel with
  | nil =>
    obtain ⟨fuel, rfl⟩ := Nat.exists_eq_add_of_le' (Nat.le_trans (by omega : 1 ≤ _) hfuel)
    have hclose : skip ((writeFields .stored level (named [])).toList ++
        ((lineBreak .stored close).toList ++ '\x7d' :: rest)) = '\x7d' :: rest :=
      (skip_lineBreak close _).trans (skip_cons rest (by decide))
    have hnew : JsonText.plain f.1 ∉ done.map Prod.fst := by
      simp only [List.map_append, List.nodup_append] at names
      exact fun hmem => names.2.2 _ hmem _ List.mem_cons_self rfl
    rw [(fields_named (each f List.mem_cons_self) (by omega) done
      (ended_writeFields level _ (ended_lineBreak close _)) rest).1 hclose, putField_new hnew]
    rfl
  | cons g fs ih =>
    obtain ⟨fuel, rfl⟩ := Nat.exists_eq_add_of_le' (Nat.le_trans (by omega : 1 ≤ _) hfuel)
    have hnew : JsonText.plain f.1 ∉ done.map Prod.fst := by
      simp only [List.map_append, List.nodup_append] at names
      exact fun hmem => names.2.2 _ hmem _ List.mem_cons_self rfl
    have hnext : skip ((writeFields .stored level (named (g :: fs))).toList ++
        ((lineBreak .stored close).toList ++ '\x7d' :: rest)) =
        ',' :: ((lineBreak .stored level).toList ++ fieldChars level g
          ((writeFields .stored level (named fs)).toList ++
            ((lineBreak .stored close).toList ++ '\x7d' :: rest))) := by
      simp only [named_cons, writeFields, String.toList_append, toList_separator,
        toList_writeString, List.cons_append, List.append_assoc]
      exact skip_cons _ (by decide)
    rw [(fields_named (each f List.mem_cons_self) (by omega) done
      (ended_writeFields level _ (ended_lineBreak close _)) _).2 hnext, skip_lineBreak, fieldChars,
      skip_cons _ (by decide), putField_new hnew,
      ih fuel g _ (fun u hu => each u (List.mem_cons_of_mem f hu))]
    · simp
    · simpa using names
    · simp only [named_cons, writeFields, String.toList_append, toList_separator,
        List.length_cons, List.length_append] at hfuel
      simp only [chars]
      omega

/-- What is written neither in brackets nor as a number is read back at once. -/
theorem readsBack_at_once {room : Nat} {v : Json}
    (h : ∀ level fuel rest, skip (chars level v ++ rest) = chars level v ++ rest ∧
      value [] (fuel + 1) room (chars level v ++ rest) = .ok (v, rest)) : ReadsBack room v := by
  intro level fuel rest hfuel _
  obtain ⟨fuel, rfl⟩ := Nat.exists_eq_add_of_le' (Nat.le_trans (by omega : 1 ≤ _) hfuel)
  obtain ⟨hskip, hread⟩ := h level fuel rest
  exact ⟨rest, by rw [hskip, hread], rfl⟩

/-- A word that is a value is read back. -/
theorem readsBack_word (room : Nat) (w : List Char) {v : Json} (hw : (w, v) ∈ words)
    (written : ∀ level, chars level v = w) : ReadsBack room v := by
  refine readsBack_at_once fun level fuel rest => ?_
  rw [written]
  have all : ∀ p ∈ words, ∀ rest : List Char, skip (p.1 ++ rest) = p.1 ++ rest ∧
      value [] (fuel + 1) room (p.1 ++ rest) = .ok (p.2, rest) := by
    intro p hp rest
    simp only [words, List.mem_cons, List.not_mem_nil, or_false] at hp
    rcases hp with rfl | rfl | rfl | rfl | rfl | rfl
    all_goals exact ⟨rfl, (value_bare (by decide) _).trans rfl⟩
  exact all (w, v) hw rest

theorem readsBack_text (room : Nat) (s : String) : ReadsBack room (.str s) := by
  refine readsBack_at_once fun level fuel rest => ?_
  have hchars : chars level (.str s) ++ rest = '"' :: (quotedBody s ++ '"' :: rest) := by
    rw [chars, writeAt, toList_writeString]
    simp
  rw [hchars]
  refine ⟨skip_cons _ (by decide), ?_⟩
  rw [value, if_pos rfl, stringRest_quoted _ _ _ _ (by simp only [List.length_append]; omega)]

/-- A number that fills a text is read back with a stored text behind it. -/
theorem readsBack_number {v : Json} (hv : v.isNumber = true)
    (same : ∀ level, chars level v = chars 0 v)
    (hexact : v.isExact = true) (room : Nat) : ReadsBack room v := by
  intro level fuel rest hfuel ended
  have exact := read_of_isExact hexact
  obtain ⟨fuel, rfl⟩ := Nat.exists_eq_add_of_le' (Nat.le_trans (by omega : 1 ≤ _) hfuel)
  rw [same]
  rw [Json.read, readWithin] at exact
  split at exact
  · cases exact
  split at exact
  · cases exact
  rename_i hread
  split at exact
  · rename_i hend
    cases exact
    have hskip : skip (chars 0 v) ≠ [] := by
      intro hnil
      rw [write, hnil] at hread
      cases hread
    refine ⟨_, ?_, skip_append_blank hend rest⟩
    rw [skip_append hskip]
    exact value_append_number ended hread hv fuel room
  · cases exact

theorem readsBack_list {room : Nat} {items : List Json} (each : ∀ v ∈ items, ReadsBack room v) :
    ReadsBack (room + 1) (.arr items) := by
  cases items with
  | nil =>
    refine readsBack_at_once fun level fuel rest => ?_
    have hchars : chars level (.arr []) ++ rest = '[' :: ']' :: rest := by
      rw [chars, writeAt]
      rfl
    have hclose : skip (']' :: rest) = ']' :: rest := skip_cons _ (by decide)
    rw [hchars]
    refine ⟨skip_cons _ (by decide), ?_⟩
    rw [value]
    simp [hclose]
  | cons v vs =>
    intro level fuel rest hfuel _
    obtain ⟨fuel, rfl⟩ := Nat.exists_eq_add_of_le' (Nat.le_trans (by omega : 1 ≤ _) hfuel)
    have hchars : chars level (.arr (v :: vs)) ++ rest =
        '[' :: ((lineBreak .stored (level + 1)).toList ++ (chars (level + 1) v ++
          ((writeItems .stored (level + 1) vs).toList ++
            ((lineBreak .stored level).toList ++ ']' :: rest)))) := by
      simp [chars, writeAt]
    have hlength := congrArg List.length hchars
    simp only [List.length_append, List.length_cons] at hlength
    have hitems := items_written (level + 1) fuel v vs [] each (by omega) level rest
    refine ⟨rest, ?_, rfl⟩
    rw [hchars, skip_cons _ (by decide), value_opened, skip_lineBreak, hitems]
    · rfl
    · rw [skip_lineBreak]
      exact not_closed_of_items hitems

theorem readsBack_record {room : Nat} {fields : List (String × Json)}
    (names : (fields.map Prod.fst).Nodup) (each : ∀ f ∈ fields, ReadsBack room f.2) :
    ReadsBack (room + 1) (.ofFields fields) := by
  cases fields with
  | nil =>
    refine readsBack_at_once fun level fuel rest => ?_
    have hchars : chars level (.ofFields []) ++ rest = '\x7b' :: '\x7d' :: rest := by
      rw [chars, ofFields, List.map_nil, writeAt]
      rfl
    have hclose : skip ('\x7d' :: rest) = '\x7d' :: rest := skip_cons _ (by decide)
    rw [hchars]
    refine ⟨skip_cons _ (by decide), ?_⟩
    rw [value]
    simp [hclose, ofFields]
  | cons f fs =>
    intro level fuel rest hfuel _
    obtain ⟨fuel, rfl⟩ := Nat.exists_eq_add_of_le' (Nat.le_trans (by omega : 1 ≤ _) hfuel)
    have hchars : chars level (.ofFields (f :: fs)) ++ rest =
        '\x7b' :: ((lineBreak .stored (level + 1)).toList ++ fieldChars (level + 1) f
          ((writeFields .stored (level + 1) (named fs)).toList ++
            ((lineBreak .stored level).toList ++ '\x7d' :: rest))) := by
      simp [chars, ofFields_eq, writeAt, toList_writeString]
    have hlength := congrArg List.length hchars
    simp only [List.length_append, List.length_cons] at hlength
    have hnames : (([] ++ named (f :: fs)).map Prod.fst).Nodup := by
      rw [List.nil_append, map_fst_named]
      exact names.map fun _ _ => JsonText.plain.inj
    have hfields := fields_written (level + 1) fuel f fs [] each hnames (by omega) level rest
    have hopen : skip ((lineBreak .stored (level + 1)).toList ++ fieldChars (level + 1) f
        ((writeFields .stored (level + 1) (named fs)).toList ++
          ((lineBreak .stored level).toList ++ '\x7d' :: rest))) =
        fieldChars (level + 1) f ((writeFields .stored (level + 1) (named fs)).toList ++
          ((lineBreak .stored level).toList ++ '\x7d' :: rest)) :=
      (skip_lineBreak _ _).trans (skip_cons _ (by decide))
    refine ⟨rest, ?_, rfl⟩
    rw [hchars, skip_cons _ (by decide), value]
    simp only [hopen]
    simpa [ofFields_eq] using hfields

/-- **A value is read back from its stored text**, if its numbers are. -/
theorem Tidy.readsBack {room : Nat} {v : Json} (tidy : Tidy room v)
    (exact : ∀ n ∈ v.numbers, n.isExact = true) : ReadsBack room v := by
  induction tidy with
  | null room => exact readsBack_word room "null".toList (by simp [words]) fun _ => rfl
  | bool room b =>
    cases b with
    | true => exact readsBack_word room "true".toList (by simp [words]) fun _ => rfl
    | false => exact readsBack_word room "false".toList (by simp [words]) fun _ => rfl
  | int room n => exact readsBack_number rfl (fun _ => rfl) (exact _ List.mem_cons_self) room
  | float room x => exact readsBack_number rfl (fun _ => rfl) (exact _ List.mem_cons_self) room
  | text room s => exact readsBack_text room s
  | list room items each ih =>
    refine readsBack_list fun v hv => ih v hv fun n hn => exact n ?_
    rw [numbers]
    exact mem_itemNumbers hv hn
  | record room fields names each ih =>
    refine readsBack_record names fun f hf => ih f hf fun n hn => exact n ?_
    rw [ofFields, numbers]
    exact mem_fieldNumbers (List.mem_map_of_mem hf) hn

/-- **A stored text is read back as the value that was written**, if that is so of its numbers. -/
theorem read_write {v : Json} (tidy : Tidy deepest v)
    (exact : ∀ n ∈ v.numbers, n.isExact = true) :
    Json.read (v.write .stored) = .ok v := by
  obtain ⟨more, hread, hmore⟩ := tidy.readsBack exact 0 (2 * (chars 0 v).length + 2) [] (by omega)
    ended_nil
  have hmark : (chars 0 v).head? ≠ some (Char.ofNat 0xfeff) := by
    intro hhead
    obtain ⟨cs, hcs⟩ := List.head?_eq_some_iff.mp hhead
    rw [List.append_nil, hcs, skip_cons cs (by decide)] at hread
    exact no_value (Or.inr rfl) cs _ hread
  rw [List.append_nil] at hread
  have hend : skip more = [] := hmore
  rw [Json.read, readWithin, write, if_neg hmark, hread]
  simp only [hend]

end Montage.Json
