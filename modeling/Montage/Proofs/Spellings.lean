import Montage.Proofs.Checks
import Montage.Proofs.StoredTimeline

/-! # Two spellings of a field

Each field of a request that is named by more than one word has two spellings.  `Json.inCamel` brings all
names of a value, at any depth, to the first one, so two values that agree then are spelled differently and
say the same.  If no object of a value has a field twice, each reader takes the value as it takes the
respelled one (`IgnoresSpelling`): the fields of a record are found under either name, and what is found
is read alike.

One question is not asked of fields but of names: whether a body has the shape of media lists.  Bodies of
the same shape are read alike whatever their spelling; media lists under their second names are no longer
seen, and what is read instead has no clips (`spellings_read_alike`).
-/
namespace Montage

open Schema Json

/-- The fields that have two spellings. -/
def fieldNames : List FieldName :=
  [⟨"uploadId", "upload_id"⟩, ⟨"fontSize", "font_size"⟩, ⟨"boxColor", "box_color"⟩,
    ⟨"mediaType", "media_type"⟩, ⟨"visualFilters", "visual_filters"⟩, ⟨"audioVolume", "audio_volume"⟩,
    ⟨"videoBitrate", "video_bitrate"⟩, ⟨"audioBitrate", "audio_bitrate"⟩, ⟨"videoMedia", "video_media"⟩,
    ⟨"audioMedia", "audio_media"⟩]

/-- The first spelling of a field. -/
def camelName (name : JsonText) : JsonText :=
  match fieldNames.find? fun n => .plain n.snake == name with
  | some n => n.camel
  | none => name

namespace Json

mutual

/-- The same value with each field under its first spelling. -/
def inCamel : Json → Json
  | arr items => arr (camelItems items)
  | obj fields => obj (camelFields fields)
  | v => v

def camelItems : List Json → List Json
  | [] => []
  | v :: rest => v.inCamel :: camelItems rest

def camelFields : List (JsonText × Json) → List (JsonText × Json)
  | [] => []
  | (name, v) :: rest => (camelName name, v.inCamel) :: camelFields rest

end

mutual

/-- No object in a value names a field twice. -/
def namesOnce : Json → Bool
  | arr items => itemsNameOnce items
  | obj fields => decide (fields.map Prod.fst).Nodup && fieldsNameOnce fields
  | _ => true

def itemsNameOnce : List Json → Bool
  | [] => true
  | v :: rest => v.namesOnce && itemsNameOnce rest

def fieldsNameOnce : List (JsonText × Json) → Bool
  | [] => true
  | (_, v) :: rest => v.namesOnce && fieldsNameOnce rest

end

/-- No object in a value has a field twice, in one spelling or in both. -/
def SpelledOnce (v : Json) : Prop := v.inCamel.namesOnce = true

instance (v : Json) : Decidable v.SpelledOnce := inferInstanceAs (Decidable (_ = true))

/-- The objects of two values are spelled differently, if at all. -/
def Respelled (v w : Json) : Prop := v.inCamel = w.inCamel

end Json

/-! ### Names -/

namespace Schema.FieldName

/-- A field has two spellings, or one that is no spelling of another field. -/
def IsKnown (n : FieldName) : Prop :=
  n ∈ fieldNames ∨ n.snake = n.camel ∧ ∀ k ∈ fieldNames, k.camel ≠ n.camel ∧ k.snake ≠ n.camel

instance (n : FieldName) : Decidable n.IsKnown :=
  inferInstanceAs (Decidable (_ ∨ _ ∧ ∀ k ∈ fieldNames, k.camel ≠ n.camel ∧ k.snake ≠ n.camel))

theorem eq_of_same_spelling : ∀ k ∈ fieldNames, ∀ n ∈ fieldNames,
    k.camel = n.camel ∨ k.snake = n.snake → k = n := by decide

theorem snake_ne_camel : ∀ k ∈ fieldNames, ∀ n ∈ fieldNames, k.snake ≠ n.camel := by decide

end Schema.FieldName

open FieldName

theorem camelName_cases (name : JsonText) :
    (∃ k ∈ fieldNames, name = .plain k.snake ∧ camelName name = .plain k.camel) ∨
      (∀ k ∈ fieldNames, name ≠ .plain k.snake) ∧ camelName name = name := by
  rw [camelName]
  cases hfind : fieldNames.find? fun n => .plain n.snake == name with
  | some k =>
    have hname : JsonText.plain k.snake = name := by simpa using List.find?_some hfind
    exact Or.inl ⟨k, List.mem_of_find?_eq_some hfind, hname.symm, rfl⟩
  | none =>
    refine Or.inr ⟨fun k hk heq => ?_, rfl⟩
    have hother := List.find?_eq_none.mp hfind k hk
    simp [heq] at hother

section Names
variable {n : FieldName} (known : n.IsKnown)
include known

/-- **Both spellings of a field, and no other name, become its first spelling.** -/
theorem camelName_eq_iff (name : JsonText) :
    camelName name = .plain n.camel ↔ name = .plain n.camel ∨ name = .plain n.snake := by
  rcases camelName_cases name with ⟨k, hk, rfl, heq⟩ | ⟨hother, heq⟩ <;> rw [heq]
  · simp only [JsonText.plain.injEq]
    rcases known with hn | ⟨hone, hfree⟩
    · constructor
      · exact fun h => Or.inr (eq_of_same_spelling k hk n hn (Or.inl h) ▸ rfl)
      · rintro (h | h)
        · exact absurd h (snake_ne_camel k hk n hn)
        · exact eq_of_same_spelling k hk n hn (Or.inr h) ▸ rfl
    · obtain ⟨hcamel, hsnake⟩ := hfree k hk
      rw [hone, or_self]
      exact iff_of_false hcamel hsnake
  · refine ⟨Or.inl, fun h => h.elim id fun h => ?_⟩
    rcases known with hn | ⟨hone, -⟩
    · exact absurd h (hother n hn)
    · rw [h, hone]

/-- A second spelling is no name any more. -/
theorem camelName_ne_snake (apart : n.snake ≠ n.camel) (name : JsonText) :
    camelName name ≠ .plain n.snake := by
  have hn : n ∈ fieldNames := known.resolve_right fun h => apart h.1
  rcases camelName_cases name with ⟨k, hk, -, heq⟩ | ⟨hother, heq⟩ <;> rw [heq]
  · simpa using (snake_ne_camel n hn k hk).symm
  · exact hother n hn

end Names

/-! ### Fields -/

section Fields
variable {n : FieldName} {fields : List (JsonText × Json)} {v : Json}

theorem mem_of_lookup {name : JsonText} (h : lookup name fields = some v) : (name, v) ∈ fields := by
  induction fields with
  | nil => cases h
  | cons f rest ih =>
    obtain ⟨other, w⟩ := f
    rw [lookup] at h
    split at h
    · rename_i heq
      cases h
      rw [heq]
      exact List.mem_cons_self
    · exact List.mem_cons_of_mem _ (ih h)

theorem names_camelFields (fields : List (JsonText × Json)) :
    (camelFields fields).map Prod.fst = fields.map fun f => camelName f.1 := by
  induction fields with
  | nil => rfl
  | cons f rest ih => rw [camelFields, List.map_cons, List.map_cons, ih]

theorem value_find? (n : FieldName) (fields : List (JsonText × Json)) :
    (n.find? fields).map Prod.snd = (lookup (.plain n.camel) fields).or (lookup (.plain n.snake) fields) := by
  rw [FieldName.find?]
  cases lookup (.plain n.camel) fields with
  | some v => rfl
  | none =>
    cases lookup (.plain n.snake) fields <;> rfl

variable (known : n.IsKnown)
include known

theorem lookup_camelFields (once : ((camelFields fields).map Prod.fst).Nodup) :
    lookup (.plain n.camel) (camelFields fields) =
      ((lookup (.plain n.camel) fields).or (lookup (.plain n.snake) fields)).map inCamel := by
  induction fields with
  | nil => rfl
  | cons f rest ih =>
    obtain ⟨name, w⟩ := f
    rw [camelFields, List.map_cons, List.nodup_cons, names_camelFields] at once
    rw [camelFields, lookup, lookup, lookup]
    by_cases hname : name = .plain n.camel ∨ name = .plain n.snake
    · rw [if_pos ((camelName_eq_iff known name).mpr hname)]
      by_cases hcamel : name = .plain n.camel
      · rw [if_pos hcamel]
        rfl
      · -- the field stands here under its second name, so it does not come later under its first
        have hnone : lookup (.plain n.camel) rest = none := by
          rw [Option.eq_none_iff_forall_not_mem]
          intro v hv
          refine once.1 (List.mem_map.mpr ⟨_, mem_of_lookup hv, ?_⟩)
          exact ((camelName_eq_iff known _).mpr (Or.inl rfl)).trans
            ((camelName_eq_iff known name).mpr hname).symm
        rw [if_neg hcamel, hnone, if_pos (hname.resolve_left hcamel)]
        rfl
    · rw [if_neg (mt (camelName_eq_iff known name).mp hname), ih (names_camelFields rest ▸ once.2),
        if_neg fun h => hname (Or.inl h), if_neg fun h => hname (Or.inr h)]

theorem lookup_snake_camelFields (apart : n.snake ≠ n.camel) :
    lookup (.plain n.snake) (camelFields fields) = none := by
  induction fields with
  | nil => rfl
  | cons f rest ih =>
    obtain ⟨name, w⟩ := f
    rw [camelFields, lookup, if_neg (camelName_ne_snake known apart name), ih]

/-- **A field is found under either name**, if it is there once. -/
theorem find?_camelFields (once : ((camelFields fields).map Prod.fst).Nodup) :
    (n.find? (camelFields fields)).map Prod.snd = ((n.find? fields).map Prod.snd).map inCamel := by
  rw [value_find?, value_find?, ← lookup_camelFields known once]
  by_cases hsame : n.snake = n.camel
  · rw [hsame, Option.or_self]
  · rw [lookup_snake_camelFields known hsame, Option.or_none]

end Fields

/-! ### Readers -/

/-- A reader takes a value as it takes the same value with each field under its first spelling: it refuses
both, or it makes the same of them. -/
def IgnoresSpelling (read : Reader α) : Prop :=
  ∀ v : Json, v.SpelledOnce → (read v.inCamel).toOption = (read v).toOption

theorem spelledOnce_items {items : List Json} (once : (Json.arr items).SpelledOnce) :
    ∀ v ∈ items, v.SpelledOnce := by
  have hitems : itemsNameOnce (camelItems items) = true := once
  clear once
  induction items with
  | nil => exact fun _ h => absurd h List.not_mem_nil
  | cons v rest ih =>
    rw [camelItems, itemsNameOnce, Bool.and_eq_true] at hitems
    exact List.forall_mem_cons.mpr ⟨hitems.1, ih hitems.2⟩

theorem spelledOnce_fields {fields : List (JsonText × Json)} (once : (Json.obj fields).SpelledOnce) :
    ((camelFields fields).map Prod.fst).Nodup ∧ ∀ f ∈ fields, f.2.SpelledOnce := by
  have hboth : (decide ((camelFields fields).map Prod.fst).Nodup && fieldsNameOnce (camelFields fields)) = true :=
    once
  rw [Bool.and_eq_true, decide_eq_true_eq] at hboth
  refine ⟨hboth.1, ?_⟩
  have hfields := hboth.2
  clear hboth once
  induction fields with
  | nil => exact fun _ h => absurd h List.not_mem_nil
  | cons f rest ih =>
    rw [camelFields, fieldsNameOnce, Bool.and_eq_true] at hfields
    exact List.forall_mem_cons.mpr ⟨hfields.1, ih hfields.2⟩

@[simp] theorem toOption_inside (step : Step) (read : Reader α) (v : Json) :
    (inside step read v).toOption = (read v).toOption := by
  rw [inside]
  cases read v <;> rfl

theorem toOption_eq_some_iff {x : Except ε α} {a : α} : x.toOption = some a ↔ x = .ok a := by
  cases x <;> simp [Except.toOption]

theorem toOption_bind_congr {x y : Except Fault α} {f g : α → Except Fault β}
    (first : x.toOption = y.toOption) (rest : ∀ a, (f a).toOption = (g a).toOption) :
    (x >>= f).toOption = (y >>= g).toOption := by
  cases x with
  | ok a =>
    cases y with
    | ok b =>
      cases first
      exact rest a
    | error e => cases first
  | error e =>
    cases y with
    | ok b => cases first
    | error e' => rfl

/-- A field is absent in both spellings of an object, or it has the same value in both. -/
theorem find?_cases {fields : List (JsonText × Json)} (once : (Json.obj fields).SpelledOnce) {n : FieldName}
    (known : n.IsKnown) :
    (n.find? fields = none ∧ n.find? (camelFields fields) = none) ∨
      ∃ v spelling spelling', v.SpelledOnce ∧ n.find? fields = some (spelling, v) ∧
        n.find? (camelFields fields) = some (spelling', v.inCamel) := by
  obtain ⟨hnodup, hvalues⟩ := spelledOnce_fields once
  have hfind := find?_camelFields known hnodup
  cases hn : n.find? fields with
  | none =>
    rw [hn] at hfind
    exact Or.inl ⟨rfl, Option.map_eq_none_iff.mp hfind⟩
  | some found =>
    obtain ⟨spelling, v⟩ := found
    have hvalue := value_find? n fields
    rw [hn] at hfind hvalue
    obtain ⟨⟨spelling', w⟩, hw, rfl⟩ := Option.map_eq_some_iff.mp hfind
    have hmem : ∃ name, (name, v) ∈ fields := by
      rcases Option.or_eq_some_iff.mp hvalue.symm with h | ⟨-, h⟩
      · exact ⟨_, mem_of_lookup h⟩
      · exact ⟨_, mem_of_lookup h⟩
    obtain ⟨name, hname⟩ := hmem
    exact Or.inr ⟨v, spelling, spelling', hvalues _ hname, rfl, hw⟩

namespace IgnoresSpelling
variable {read : Reader α}

theorem required (h : IgnoresSpelling read) {fields : List (JsonText × Json)}
    (once : (Json.obj fields).SpelledOnce) {n : FieldName} (known : n.IsKnown) :
    (Schema.required (camelFields fields) n read).toOption = (Schema.required fields n read).toOption := by
  rw [Schema.required, Schema.required]
  rcases find?_cases once known with ⟨hnone, hnone'⟩ | ⟨v, spelling, spelling', hv, hsome, hsome'⟩
  · rw [hnone, hnone']
  · simp only [hsome, hsome', toOption_inside, h v hv]

theorem optional (h : IgnoresSpelling read) {fields : List (JsonText × Json)}
    (once : (Json.obj fields).SpelledOnce) {n : FieldName} (known : n.IsKnown) (absent : α) :
    (Schema.optional (camelFields fields) n absent read).toOption =
      (Schema.optional fields n absent read).toOption := by
  rw [Schema.optional, Schema.optional]
  rcases find?_cases once known with ⟨hnone, hnone'⟩ | ⟨v, spelling, spelling', hv, hsome, hsome'⟩
  · rw [hnone, hnone']
  · simp only [hsome, hsome', toOption_inside, h v hv]

theorem nullable (h : IgnoresSpelling read) : IgnoresSpelling (nullable read) := by
  intro v hv
  have hmap (w : Json) (hw : w ≠ .null) :
      (Schema.nullable read w).toOption = (read w).toOption.map some := by
    rw [Schema.nullable]
    · cases read w <;> rfl
    · exact hw
  cases v with
  | null => rfl
  | _ => rw [hmap _ Json.noConfusion, hmap _ Json.noConfusion, h _ hv]

theorem maybe (h : IgnoresSpelling read) {fields : List (JsonText × Json)}
    (once : (Json.obj fields).SpelledOnce) {n : FieldName} (known : n.IsKnown) :
    (Schema.maybe (camelFields fields) n read).toOption = (Schema.maybe fields n read).toOption :=
  h.nullable.optional once known none

theorem readItems (h : IgnoresSpelling read) {items : List Json} (once : ∀ v ∈ items, v.SpelledOnce)
    (index : Nat) :
    (readItems read index (camelItems items)).toOption = (readItems read index items).toOption := by
  induction items generalizing index with
  | nil => rfl
  | cons v rest ih =>
    obtain ⟨hv, hrest⟩ := List.forall_mem_cons.mp once
    have hfirst := (toOption_inside (.index index) read v.inCamel).trans
      ((h v hv).trans (toOption_inside (.index index) read v).symm)
    have hmore := ih hrest (index + 1)
    have hitems (w : Json) (ws : List Json) : Schema.readItems read index (w :: ws) =
        (do let a ← inside (.index index) read w
            let as ← Schema.readItems read (index + 1) ws
            .ok (a :: as)) := by
      rw [Schema.readItems]
      cases inside (.index index) read w with
      | error f => rfl
      | ok a => cases Schema.readItems read (index + 1) ws <;> rfl
    rw [camelItems, hitems, hitems]
    exact toOption_bind_congr hfirst fun a => toOption_bind_congr hmore fun as => rfl

theorem listOf (h : IgnoresSpelling read) : IgnoresSpelling (listOf read) := by
  intro v hv
  cases v with
  | arr items => exact h.readItems (spelledOnce_items hv) 0
  | _ => rfl

/-- **A record is read alike if its fields are.** -/
theorem record {kind : String} {next : List (JsonText × Json) → Except Fault α}
    (fields : ∀ fields, (Json.obj fields).SpelledOnce →
      (next (camelFields fields)).toOption = (next fields).toOption) :
    IgnoresSpelling fun v => record kind v >>= next := by
  intro v hv
  cases v with
  | obj given => exact fields given hv
  | _ => rfl

end IgnoresSpelling

/-! ### Records of a timeline -/

open IgnoresSpelling

theorem ignoresSpelling_text : IgnoresSpelling text := fun v _ => by cases v <;> rfl

theorem ignoresSpelling_integer : IgnoresSpelling integer := fun v _ => by cases v <;> rfl

theorem ignoresSpelling_decimal : IgnoresSpelling decimal := fun v _ => by cases v <;> rfl

theorem ignoresSpelling_word (words : List (String × α)) : IgnoresSpelling (word words) :=
  fun v _ => by cases v <;> rfl

theorem ignoresSpelling_source : IgnoresSpelling MediaSource.read := by
  have hparts : IgnoresSpelling (fun v => do
      let fields ← Schema.record "MediaSource" v
      let url ← Schema.maybe fields MediaSource.urlName text
      let uploadId ← Schema.maybe fields MediaSource.uploadIdName text
      MediaSource.ofParts url uploadId) := by
    refine .record fun fields once => ?_
    refine toOption_bind_congr (ignoresSpelling_text.maybe once (by decide)) fun url => ?_
    exact toOption_bind_congr (ignoresSpelling_text.maybe once (by decide)) fun uploadId => rfl
  intro v once
  cases v with
  | obj fields => exact hparts (.obj fields) once
  | _ => rfl

theorem ignoresSpelling_trim : IgnoresSpelling Trim.read := by
  refine .record fun fields once => ?_
  refine toOption_bind_congr (ignoresSpelling_decimal.optional once (by decide) _) fun start => ?_
  refine toOption_bind_congr (ignoresSpelling_decimal.maybe once (by decide)) fun finish => ?_
  exact toOption_bind_congr (ignoresSpelling_decimal.maybe once (by decide)) fun duration => rfl

theorem ignoresSpelling_filter : IgnoresSpelling VisualFilter.read := by
  refine .record fun fields once => ?_
  refine toOption_bind_congr ((ignoresSpelling_word _).required once (by decide)) fun type => ?_
  exact toOption_bind_congr (ignoresSpelling_decimal.maybe once (by decide)) fun value => rfl

theorem ignoresSpelling_crop : IgnoresSpelling Crop.read := by
  refine .record fun fields once => ?_
  refine toOption_bind_congr (ignoresSpelling_integer.optional once (by decide) _) fun x => ?_
  refine toOption_bind_congr (ignoresSpelling_integer.optional once (by decide) _) fun y => ?_
  refine toOption_bind_congr (ignoresSpelling_integer.required once (by decide)) fun width => ?_
  exact toOption_bind_congr (ignoresSpelling_integer.required once (by decide)) fun height => rfl

theorem ignoresSpelling_scale : IgnoresSpelling Scale.read := by
  refine .record fun fields once => ?_
  refine toOption_bind_congr (ignoresSpelling_integer.maybe once (by decide)) fun width => ?_
  exact toOption_bind_congr (ignoresSpelling_integer.maybe once (by decide)) fun height => rfl

theorem ignoresSpelling_style : IgnoresSpelling OverlayStyle.read := by
  refine .record fun fields once => ?_
  refine toOption_bind_congr (ignoresSpelling_integer.optional once (by decide) _) fun fontSize => ?_
  refine toOption_bind_congr (ignoresSpelling_text.optional once (by decide) _) fun color => ?_
  refine toOption_bind_congr (ignoresSpelling_decimal.optional once (by decide) _) fun opacity => ?_
  refine toOption_bind_congr (ignoresSpelling_text.maybe once (by decide)) fun boxColor => ?_
  exact toOption_bind_congr (ignoresSpelling_integer.maybe once (by decide)) fun width => rfl

theorem ignoresSpelling_overlay : IgnoresSpelling Overlay.read := by
  refine .record fun fields once => ?_
  refine toOption_bind_congr ((ignoresSpelling_word _).required once (by decide)) fun isText => ?_
  refine toOption_bind_congr (ignoresSpelling_text.maybe once (by decide)) fun words => ?_
  refine toOption_bind_congr (ignoresSpelling_source.maybe once (by decide)) fun source => ?_
  refine toOption_bind_congr (ignoresSpelling_integer.maybe once (by decide)) fun x => ?_
  refine toOption_bind_congr (ignoresSpelling_integer.maybe once (by decide)) fun y => ?_
  refine toOption_bind_congr (ignoresSpelling_decimal.optional once (by decide) _) fun start => ?_
  refine toOption_bind_congr (ignoresSpelling_decimal.maybe once (by decide)) fun finish => ?_
  exact toOption_bind_congr (ignoresSpelling_style.optional once (by decide) _) fun style => rfl

theorem ignoresSpelling_clip : IgnoresSpelling Clip.read := by
  refine .record fun fields once => ?_
  refine toOption_bind_congr (ignoresSpelling_source.required once (by decide)) fun source => ?_
  refine toOption_bind_congr ((ignoresSpelling_word _).optional once (by decide) _) fun mediaType => ?_
  refine toOption_bind_congr (ignoresSpelling_trim.maybe once (by decide)) fun trim => ?_
  refine toOption_bind_congr (ignoresSpelling_decimal.optional once (by decide) _) fun speed => ?_
  refine toOption_bind_congr (ignoresSpelling_filter.listOf.optional once (by decide) _) fun filters => ?_
  refine toOption_bind_congr (ignoresSpelling_crop.maybe once (by decide)) fun crop => ?_
  refine toOption_bind_congr (ignoresSpelling_scale.maybe once (by decide)) fun scale => ?_
  refine toOption_bind_congr (ignoresSpelling_overlay.listOf.optional once (by decide) _) fun overlays => ?_
  exact toOption_bind_congr (ignoresSpelling_decimal.optional once (by decide) _) fun volume => rfl

theorem ignoresSpelling_settings : IgnoresSpelling OutputSettings.read := by
  refine .record fun fields once => ?_
  refine toOption_bind_congr (ignoresSpelling_integer.maybe once (by decide)) fun width => ?_
  refine toOption_bind_congr (ignoresSpelling_integer.maybe once (by decide)) fun height => ?_
  refine toOption_bind_congr (ignoresSpelling_integer.maybe once (by decide)) fun fps => ?_
  refine toOption_bind_congr (ignoresSpelling_text.maybe once (by decide)) fun videoBitrate => ?_
  exact toOption_bind_congr (ignoresSpelling_text.maybe once (by decide)) fun audioBitrate => rfl

theorem ignoresSpelling_soundtrack : IgnoresSpelling Soundtrack.read :=
  fun v once => toOption_bind_congr (ignoresSpelling_clip.listOf v once) fun _ => rfl

theorem ignoresSpelling_timeline : IgnoresSpelling Timeline.read := by
  refine .record fun fields once => ?_
  refine toOption_bind_congr (ignoresSpelling_clip.listOf.optional once (by decide) _) fun clips => ?_
  refine toOption_bind_congr (ignoresSpelling_settings.optional once (by decide) _) fun settings => ?_
  exact toOption_bind_congr (ignoresSpelling_soundtrack.optional once (by decide) _) fun soundtrack => rfl

theorem ignoresSpelling_mediaItem : IgnoresSpelling MediaLists.readItem :=
  .record fun _ once => ignoresSpelling_text.required once (by decide)

theorem ignoresSpelling_mediaLists : IgnoresSpelling MediaLists.read := by
  refine .record fun fields once => ?_
  refine toOption_bind_congr (ignoresSpelling_mediaItem.listOf.optional once (by decide) _) fun videos => ?_
  exact toOption_bind_congr (ignoresSpelling_mediaItem.listOf.optional once (by decide) _) fun audios => rfl

/-! ### Bodies -/

theorem mentions?_inCamel {word : String} (known : (FieldName.plain word).IsKnown) {v : Json}
    (once : v.SpelledOnce) : v.inCamel.mentions? word = v.mentions? word := by
  cases v with
  | obj fields =>
    have hlookup := lookup_camelFields known (spelledOnce_fields once).1
    rw [FieldName.camel_plain, FieldName.snake_plain, Option.or_self] at hlookup
    show some (lookup (.plain word) (camelFields fields)).isSome = some (lookup (.plain word) fields).isSome
    rw [hlookup, Option.isSome_map]
  | arr items =>
    show some ((camelItems items).any _) = some (items.any _)
    clear once
    induction items with
    | nil => rfl
    | cons v rest ih =>
      rw [camelItems, List.any_cons, List.any_cons, Option.some.injEq, Option.some.inj ih]
      cases v <;> rfl
  | _ => rfl

theorem toOption_ofRequest_lists {v : Json} (h : v.isMediaLists? = some true) :
    (Timeline.ofRequest v).toOption = (MediaLists.read v >>= MediaLists.timeline).toOption := by
  rw [Timeline.ofRequest, h]
  cases hread : MediaLists.read v with
  | error f => rfl
  | ok m =>
    show (m.timeline.mapError RequestFault.schema).toOption = m.timeline.toOption
    cases m.timeline <;> rfl

theorem toOption_ofRequest_timeline {v : Json} (h : v.isMediaLists? = some false) :
    (Timeline.ofRequest v).toOption = (Timeline.read v).toOption := by
  rw [Timeline.ofRequest, h]
  show ((Timeline.read v).mapError RequestFault.schema).toOption = _
  cases Timeline.read v <;> rfl

theorem untimed_of_isMediaLists? {v : Json} (h : v.isMediaLists? = some true) :
    v.mentions? "clips" = some false := by
  unfold isMediaLists? at h
  split at h
  · rename_i hclips _ _
    rw [hclips]
    simp_all
  · cases h

/-- A body without clips has none. -/
theorem clips_of_read {v : Json} {t : Timeline} (untimed : v.mentions? "clips" = some false)
    (read : Timeline.read v = .ok t) : t.clips = [] := by
  cases v with
  | obj fields =>
    have hnone : lookup "clips" fields = none := by simpa [mentions?] using untimed
    have hclips : Schema.optional fields (.plain "clips") [] (Schema.listOf Clip.read) = .ok [] := by
      rw [Schema.optional, FieldName.find?]
      simp only [FieldName.camel_plain, FieldName.snake_plain, hnone]
      rfl
    have hrest := (bind_read hclips _).symm.trans read
    obtain ⟨settings, -, hrest⟩ := bind_eq_ok_iff.mp hrest
    obtain ⟨soundtrack, -, hrest⟩ := bind_eq_ok_iff.mp hrest
    cases hrest
    rfl
  | _ => cases read

/-- **Bodies of the same shape are read alike, whatever the spelling of their fields**: both are refused, or
both are the same timeline.  Of two spellings that differ in shape the one that is not seen to be media
lists has no clips, so it is refused as a timeline or cannot be rendered. -/
theorem spellings_read_alike {body other : Json} (respelled : body.Respelled other)
    (once : body.SpelledOnce) :
    (body.isMediaLists? = other.isMediaLists? →
      ∀ t, Timeline.ofRequest body = .ok t ↔ Timeline.ofRequest other = .ok t) ∧
    (body.isMediaLists? = some true → other.isMediaLists? = some false →
      ∀ t, Timeline.ofRequest other = .ok t → t.clips = [] ∧ ∀ r, t.check r = .error .noClips) := by
  have hcamel : body.inCamel = other.inCamel := respelled
  have honce : other.SpelledOnce := by rwa [SpelledOnce, ← hcamel]
  have hagree {α : Type} {read : Reader α} (h : IgnoresSpelling read) :
      (read body).toOption = (read other).toOption := by
    rw [← h body once, ← h other honce, hcamel]
  constructor
  · intro hshape
    have hsame : (Timeline.ofRequest body).toOption = (Timeline.ofRequest other).toOption := by
      cases hbody : body.isMediaLists? with
      | none =>
        rw [Timeline.ofRequest, Timeline.ofRequest, ← hshape, hbody]
        rfl
      | some lists =>
        rw [hbody] at hshape
        cases lists with
        | true =>
          rw [toOption_ofRequest_lists hbody, toOption_ofRequest_lists hshape.symm]
          exact toOption_bind_congr (hagree ignoresSpelling_mediaLists) fun _ => rfl
        | false =>
          rw [toOption_ofRequest_timeline hbody, toOption_ofRequest_timeline hshape.symm]
          exact hagree ignoresSpelling_timeline
    intro t
    rw [← toOption_eq_some_iff, hsame, toOption_eq_some_iff]
  · intro hlists htimeline t ht
    have huntimed : other.mentions? "clips" = some false := by
      rw [← mentions?_inCamel (by decide) honce, ← hcamel, mentions?_inCamel (by decide) once]
      exact untimed_of_isMediaLists? hlists
    have hclips : t.clips = [] := by
      rw [Timeline.ofRequest, htimeline] at ht
      exact clips_of_read huntimed (mapError_eq_ok_iff.mp ht)
    refine ⟨hclips, fun r => ?_⟩
    rw [Timeline.check, hclips]
    rfl

namespace Sample

/-- A clip under the second names of its fields, with a text over it. -/
def snakeBody : Json :=
  .ofFields [("clips", .arr [.ofFields [("source", .ofFields [("upload_id", .str "a.mp4")]),
    ("audio_volume", .float (.finite (1 / 2))),
    ("overlays", .arr [.ofFields [("type", .str "text"), ("text", .str "Hi"),
      ("style", .ofFields [("fontSize", .int 30), ("box_color", .str "black")])]])]])]

/-- The same clip under the first names. -/
def camelBody : Json :=
  .ofFields [("clips", .arr [.ofFields [("source", .ofFields [("uploadId", .str "a.mp4")]),
    ("audioVolume", .float (.finite (1 / 2))),
    ("overlays", .arr [.ofFields [("type", .str "text"), ("text", .str "Hi"),
      ("style", .ofFields [("fontSize", .int 30), ("boxColor", .str "black")])]])]])]

/-- A video in a list with the given name. -/
def listedUnder (name : String) : Json :=
  .ofFields [(name, .arr [.ofFields [("url", .str "https://cdn.example.com/a.mp4")]])]

end Sample

theorem spellings_read_alike_sample :
    Sample.snakeBody.Respelled Sample.camelBody ∧
      ∃ t, Timeline.ofRequest Sample.snakeBody = .ok t ∧ Timeline.ofRequest Sample.camelBody = .ok t := by
  have hrespelled : Sample.snakeBody.Respelled Sample.camelBody := rfl
  have hread : ∃ t, Timeline.ofRequest Sample.camelBody = .ok t := ⟨_, rfl⟩
  obtain ⟨t, ht⟩ := hread
  obtain ⟨hsame, -⟩ := spellings_read_alike hrespelled (by decide)
  exact ⟨hrespelled, t, (hsame rfl t).mpr ht, ht⟩

/-- **Media lists under their second names are dropped.** -/
theorem snake_lists_are_dropped :
    (Sample.listedUnder "videoMedia").Respelled (Sample.listedUnder "video_media") ∧
      (Sample.listedUnder "videoMedia").SpelledOnce ∧
      (∃ t, Timeline.ofRequest (Sample.listedUnder "videoMedia") = .ok t ∧ t.clips.length = 1) ∧
      ∃ t, Timeline.ofRequest (Sample.listedUnder "video_media") = .ok t ∧ t.clips = [] :=
  ⟨rfl, by decide, ⟨_, rfl, rfl⟩, ⟨_, rfl, rfl⟩⟩

end Montage
