import Montage.Proofs.ReadBack
import Montage.Proofs.Standing
import Montage.Service.Submit
import Montage.Timeline.Request

/-! # Stored timelines are read back

Each record of a timeline is `Stored`: its reader takes the stored form for the record itself, the stored
form is tidy, and it is never null.  What is stored of a record with fields is put together from what is
stored of its fields: a field that is always there is found again (`Stored.required`,
`Stored.optional`), and one that may be missing is found exactly if it was set (`Stored.maybe`).

The stored form of a timeline has the shape of a timeline, whatever the shape of the request was.
-/
namespace Montage

open Schema Json

/-- What is written of a value is read back, both as a JSON value and as a text. -/
structure Stored (toJson : α → Json) (read : Reader α) (height : Nat) : Prop where
  read_back : ∀ a, read (toJson a) = .ok a
  not_null : ∀ a, toJson a ≠ .null
  tidy : ∀ a, Tidy height (toJson a)

/-! ### Scalars and lists -/

theorem stored_text : Stored .str text 0 :=
  ⟨fun _ => rfl, fun _ => Json.noConfusion, Tidy.text 0⟩

theorem stored_integer : Stored .int integer 0 :=
  ⟨fun _ => rfl, fun _ => Json.noConfusion, Tidy.int 0⟩

theorem stored_decimal : Stored .float decimal 0 :=
  ⟨fun _ => rfl, fun _ => Json.noConfusion, Tidy.float 0⟩

section
variable {α : Type} {toJson : α → Json} {read : Reader α} {height : Nat}

theorem Stored.readItems (stored : Stored toJson read height) (as : List α) (index : Nat) :
    readItems read index (as.map toJson) = .ok as := by
  induction as generalizing index with
  | nil => rfl
  | cons a as ih => simp [Schema.readItems, inside, stored.read_back a, ih]

theorem Stored.list (stored : Stored toJson read height) :
    Stored (fun as => .arr (as.map toJson)) (listOf read) (height + 1) where
  read_back as := stored.readItems as 0
  not_null _ := Json.noConfusion
  tidy as := by
    refine Tidy.list height _ fun v hv => ?_
    obtain ⟨a, -, rfl⟩ := List.mem_map.mp hv
    exact stored.tidy a

/-! ### Fields -/

variable {fields : List (JsonText × Json)} {n : FieldName} {a : α}

theorem FieldName.find?_camel {v : Json} (h : lookup n.camel fields = some v) :
    n.find? fields = some (n.camel, v) := by
  rw [FieldName.find?, h]

theorem Stored.required (stored : Stored toJson read height)
    (h : lookup n.camel fields = some (toJson a)) : required fields n read = .ok a := by
  rw [Schema.required, FieldName.find?_camel h]
  simp [inside, stored.read_back a]

theorem Stored.optional (stored : Stored toJson read height) (absent : α)
    (h : lookup n.camel fields = some (toJson a)) : optional fields n absent read = .ok a := by
  rw [Schema.optional, FieldName.find?_camel h]
  simp [inside, stored.read_back a]

/-- A field that may be missing is found if it was set; under its second spelling nothing was
written. -/
theorem Stored.maybe (stored : Stored toJson read height) {a : Option α}
    (h : lookup n.camel fields = a.map toJson)
    (other : lookup n.snake fields = none ∨ n.snake = n.camel) : maybe fields n read = .ok a := by
  cases a with
  | none =>
    have hnone : lookup n.snake fields = none := by
      rcases other with hsnake | hsame
      · exact hsnake
      · rw [hsame, h]
        rfl
    rw [Schema.maybe, Schema.optional, FieldName.find?, h, Option.map_none, hnone]
    rfl
  | some a =>
    have hread : nullable read (toJson a) = .ok (some a) := by
      rw [nullable, stored.read_back]
      · rfl
      · exact stored.not_null a
    rw [Schema.maybe, Schema.optional, FieldName.find?_camel h]
    simp [inside, hread]

end

/-! ### Records -/

/-- What a reader reads first is handed on. -/
theorem bind_read {x : Except Fault α} {a : α} (h : x = .ok a) (next : α → Except Fault β) :
    (x >>= next) = next a := by
  rw [h]
  rfl

@[simp] theorem FieldName.camel_plain (name : String) : (FieldName.plain name).camel = name := rfl

@[simp] theorem FieldName.snake_plain (name : String) : (FieldName.plain name).snake = name := rfl

@[simp] theorem lookup_named_append (k : String) (fs gs : List (String × Json)) :
    lookup (.plain k) (named (fs ++ gs)) =
      (lookup (.plain k) (named fs)).or (lookup (.plain k) (named gs)) := by
  induction fs with
  | nil => rfl
  | cons f fs ih =>
    simp only [List.cons_append, named_cons, lookup]
    split
    · rfl
    · exact ih

@[simp] theorem lookup_always (k name : String) (v : Json) :
    lookup (.plain k) (named (always name v)) = if name = k then some v else none := by
  simp [always, lookup]

@[simp] theorem lookup_ifSet (k name : String) (f : α → Json) (a : Option α) :
    lookup (.plain k) (named (ifSet name f a)) = if name = k then a.map f else none := by
  cases a with
  | none => simp [ifSet, lookup]
  | some a => simp [ifSet, lookup]

/-- Fields whose names are among some, in their order, with tidy values. -/
structure TidyFields (height : Nat) (names : List String) (fields : List (String × Json)) : Prop where
  among : (fields.map Prod.fst).Sublist names
  each : ∀ f ∈ fields, Tidy height f.2

theorem TidyFields.record {height : Nat} {names : List String} {fields : List (String × Json)}
    (tidy : TidyFields height names fields) (different : names.Nodup) :
    Tidy (height + 1) (.ofFields fields) :=
  .record height fields (different.sublist tidy.among) tidy.each

theorem TidyFields.append {height : Nat} {ns ms : List String} {fs gs : List (String × Json)}
    (first : TidyFields height ns fs) (second : TidyFields height ms gs) :
    TidyFields height (ns ++ ms) (fs ++ gs) where
  among := by
    rw [List.map_append]
    exact first.among.append second.among
  each f hf := (List.mem_append.mp hf).elim (first.each f) (second.each f)

theorem Stored.always {toJson : α → Json} {read : Reader α} {height bound : Nat}
    (stored : Stored toJson read height) (hbound : height ≤ bound) (name : String) (a : α) :
    TidyFields bound [name] (always name (toJson a)) where
  among := List.Sublist.refl _
  each f hf := by
    cases List.mem_singleton.mp hf
    exact (stored.tidy a).mono hbound

theorem Stored.ifSet {toJson : α → Json} {read : Reader α} {height bound : Nat}
    (stored : Stored toJson read height) (hbound : height ≤ bound) (name : String) (a : Option α) :
    TidyFields bound [name] (ifSet name toJson a) := by
  cases a with
  | none => exact ⟨List.nil_sublist _, fun _ h => absurd h List.not_mem_nil⟩
  | some a => exact stored.always hbound name a

theorem stored_source : Stored MediaSource.toJson MediaSource.read 1 where
  read_back s := by
    rw [MediaSource.toJson, ofFields_eq, MediaSource.read]
    · refine (bind_read rfl _).trans ?_
      refine (bind_read (stored_text.maybe (a := s.url) (by simp [MediaSource.urlName])
        (Or.inr rfl)) _).trans ?_
      refine (bind_read (stored_text.maybe (a := s.uploadId) (by simp [MediaSource.uploadIdName])
        (Or.inl (by simp [MediaSource.uploadIdName]))) _).trans ?_
      exact dif_pos s.exactlyOne
    · exact fun _ => Json.noConfusion
  not_null _ := Json.noConfusion
  tidy s := ((stored_text.ifSet (by decide) "url" s.url).append
    (stored_text.ifSet (by decide) "uploadId" s.uploadId)).record (by decide)

theorem stored_trim : Stored Trim.toJson Trim.read 1 where
  read_back t := by
    rw [Trim.toJson, ofFields_eq, Trim.read]
    refine (bind_read rfl _).trans ?_
    refine (bind_read (stored_decimal.optional (a := t.start) _ (by simp)) _).trans ?_
    refine (bind_read (stored_decimal.maybe (a := t.finish) (by simp) (Or.inr rfl)) _).trans ?_
    refine (bind_read (stored_decimal.maybe (a := t.duration) (by simp) (Or.inr rfl)) _).trans ?_
    rfl
  not_null _ := Json.noConfusion
  tidy t := (((stored_decimal.always (by decide) "start" t.start).append
    (stored_decimal.ifSet (by decide) "end" t.finish)).append
    (stored_decimal.ifSet (by decide) "duration" t.duration)).record (by decide)

theorem stored_filterType :
    Stored (fun t : FilterType => .str t.word) (word (FilterType.all.map fun t => (t.word, t))) 0 where
  read_back t := by cases t <;> rfl
  not_null _ := Json.noConfusion
  tidy _ := Tidy.text 0 _

theorem stored_filter : Stored VisualFilter.toJson VisualFilter.read 1 where
  read_back f := by
    rw [VisualFilter.toJson, ofFields_eq, VisualFilter.read]
    refine (bind_read rfl _).trans ?_
    refine (bind_read (stored_filterType.required (a := f.type) (by simp)) _).trans ?_
    refine (bind_read (stored_decimal.maybe (a := f.value) (by simp) (Or.inr rfl)) _).trans ?_
    rfl
  not_null _ := Json.noConfusion
  tidy f := ((stored_filterType.always (by decide) "type" f.type).append
    (stored_decimal.ifSet (by decide) "value" f.value)).record (by decide)

theorem stored_crop : Stored Crop.toJson Crop.read 1 where
  read_back c := by
    rw [Crop.toJson, ofFields_eq, Crop.read]
    refine (bind_read rfl _).trans ?_
    refine (bind_read (stored_integer.optional (a := c.x) _ (by simp [lookup])) _).trans ?_
    refine (bind_read (stored_integer.optional (a := c.y) _ (by simp [lookup])) _).trans ?_
    refine (bind_read (stored_integer.required (a := c.width) (by simp [lookup])) _).trans ?_
    refine (bind_read (stored_integer.required (a := c.height) (by simp [lookup])) _).trans ?_
    rfl
  not_null _ := Json.noConfusion
  tidy c := ((((stored_integer.always (by decide) "x" c.x).append
    (stored_integer.always (by decide) "y" c.y)).append
    (stored_integer.always (by decide) "width" c.width)).append
    (stored_integer.always (by decide) "height" c.height)).record (by decide)

theorem stored_scale : Stored Scale.toJson Scale.read 1 where
  read_back s := by
    rw [Scale.toJson, ofFields_eq, Scale.read]
    refine (bind_read rfl _).trans ?_
    refine (bind_read (stored_integer.maybe (a := s.width) (by simp) (Or.inr rfl)) _).trans ?_
    refine (bind_read (stored_integer.maybe (a := s.height) (by simp) (Or.inr rfl)) _).trans ?_
    exact dif_pos s.oneSide
  not_null _ := Json.noConfusion
  tidy s := ((stored_integer.ifSet (by decide) "width" s.width).append
    (stored_integer.ifSet (by decide) "height" s.height)).record (by decide)

theorem stored_style : Stored OverlayStyle.toJson OverlayStyle.read 1 where
  read_back s := by
    rw [OverlayStyle.toJson, ofFields_eq, OverlayStyle.read]
    refine (bind_read rfl _).trans ?_
    refine (bind_read (stored_integer.optional (a := s.fontSize) _ (by simp)) _).trans ?_
    refine (bind_read (stored_text.optional (a := s.color) _ (by simp)) _).trans ?_
    refine (bind_read (stored_decimal.optional (a := s.opacity) _ (by simp)) _).trans ?_
    refine (bind_read (stored_text.maybe (a := s.boxColor) (by simp) (Or.inl (by simp))) _).trans ?_
    refine (bind_read (stored_integer.maybe (a := s.width) (by simp) (Or.inr rfl)) _).trans ?_
    rfl
  not_null _ := Json.noConfusion
  tidy s := (((((stored_integer.always (by decide) "fontSize" s.fontSize).append
    (stored_text.always (by decide) "color" s.color)).append
    (stored_decimal.always (by decide) "opacity" s.opacity)).append
    (stored_text.ifSet (by decide) "boxColor" s.boxColor)).append
    (stored_integer.ifSet (by decide) "width" s.width)).record (by decide)

namespace OverlayContent

/-- Whether words are drawn. -/
def isText : OverlayContent → Bool
  | text .. => true
  | image .. => false

theorem word_eq (c : OverlayContent) : c.word = if c.isText then "text" else "image" := by
  cases c <;> rfl

/-- The content is made again of what is stored of it. -/
theorem bind_parts (c : OverlayContent) (next : OverlayContent → Except Fault β) :
    (if c.isText then ofText c.words? c.source? >>= next else ofImage c.words? c.source? >>= next) =
      next c := by
  cases c with
  | text words written source => exact bind_read (dif_pos written) next
  | image source caption => rfl

end OverlayContent

theorem stored_kind : Stored (fun isText : Bool => .str (if isText then "text" else "image"))
    (word [("text", true), ("image", false)]) 0 where
  read_back b := by cases b <;> rfl
  not_null _ := Json.noConfusion
  tidy _ := Tidy.text 0 _

theorem stored_overlay : Stored Overlay.toJson Overlay.read 2 where
  read_back o := by
    rw [Overlay.toJson, ofFields_eq, Overlay.read, o.content.word_eq]
    refine (bind_read rfl _).trans ?_
    refine (bind_read (stored_kind.required (a := o.content.isText) (by simp)) _).trans ?_
    refine (bind_read (stored_text.maybe (a := o.content.words?) (by simp) (Or.inr rfl)) _).trans ?_
    refine (bind_read (stored_source.maybe (a := o.content.source?) (by simp) (Or.inr rfl)) _).trans ?_
    refine (bind_read (stored_integer.maybe (a := o.x) (by simp) (Or.inr rfl)) _).trans ?_
    refine (bind_read (stored_integer.maybe (a := o.y) (by simp) (Or.inr rfl)) _).trans ?_
    refine (bind_read (stored_decimal.optional (a := o.start) _ (by simp)) _).trans ?_
    refine (bind_read (stored_decimal.maybe (a := o.finish) (by simp) (Or.inr rfl)) _).trans ?_
    refine (bind_read (stored_style.optional (a := o.style) _ (by simp)) _).trans ?_
    exact o.content.bind_parts _
  not_null _ := Json.noConfusion
  tidy o := by
    rw [Overlay.toJson, o.content.word_eq]
    exact ((((((((stored_kind.always (by decide) "type" o.content.isText).append
      (stored_text.ifSet (by decide) "text" o.content.words?)).append
      (stored_source.ifSet (by decide) "source" o.content.source?)).append
      (stored_integer.ifSet (by decide) "x" o.x)).append
      (stored_integer.ifSet (by decide) "y" o.y)).append
      (stored_decimal.always (by decide) "start" o.start)).append
      (stored_decimal.ifSet (by decide) "end" o.finish)).append
      (stored_style.always (by decide) "style" o.style)).record (by decide)

theorem stored_mediaType :
    Stored (fun t : MediaType => .str t.word) (word [("video", .video), ("audio", .audio)]) 0 where
  read_back t := by cases t <;> rfl
  not_null _ := Json.noConfusion
  tidy _ := Tidy.text 0 _

theorem stored_clip : Stored Clip.toJson Clip.read 4 where
  read_back c := by
    rw [Clip.toJson, ofFields_eq, Clip.read]
    refine (bind_read rfl _).trans ?_
    refine (bind_read (stored_source.required (a := c.source) (by simp)) _).trans ?_
    refine (bind_read (stored_mediaType.optional (a := c.mediaType) _ (by simp)) _).trans ?_
    refine (bind_read (stored_trim.maybe (a := c.trim) (by simp) (Or.inr rfl)) _).trans ?_
    refine (bind_read (stored_decimal.optional (a := c.speed) _ (by simp)) _).trans ?_
    refine (bind_read (stored_filter.list.optional (a := c.visualFilters) _ (by simp)) _).trans ?_
    refine (bind_read (stored_crop.maybe (a := c.crop) (by simp) (Or.inr rfl)) _).trans ?_
    refine (bind_read (stored_scale.maybe (a := c.scale) (by simp) (Or.inr rfl)) _).trans ?_
    refine (bind_read (stored_overlay.list.optional (a := c.overlays) _ (by simp)) _).trans ?_
    refine (bind_read (stored_decimal.optional (a := c.audioVolume) _ (by simp)) _).trans ?_
    rfl
  not_null _ := Json.noConfusion
  tidy c := (((((((((stored_source.always (by decide) "source" c.source).append
    (stored_mediaType.always (by decide) "mediaType" c.mediaType)).append
    (stored_trim.ifSet (by decide) "trim" c.trim)).append
    (stored_decimal.always (by decide) "speed" c.speed)).append
    (stored_filter.list.always (by decide) "visualFilters" c.visualFilters)).append
    (stored_crop.ifSet (by decide) "crop" c.crop)).append
    (stored_scale.ifSet (by decide) "scale" c.scale)).append
    (stored_overlay.list.always (by decide) "overlays" c.overlays)).append
    (stored_decimal.always (by decide) "audioVolume" c.audioVolume)).record (by decide)

theorem stored_settings : Stored OutputSettings.toJson OutputSettings.read 1 where
  read_back s := by
    rw [OutputSettings.toJson, ofFields_eq, OutputSettings.read]
    refine (bind_read rfl _).trans ?_
    refine (bind_read (stored_integer.maybe (a := s.width) (by simp) (Or.inr rfl)) _).trans ?_
    refine (bind_read (stored_integer.maybe (a := s.height) (by simp) (Or.inr rfl)) _).trans ?_
    refine (bind_read (stored_integer.maybe (a := s.fps) (by simp) (Or.inr rfl)) _).trans ?_
    refine (bind_read (stored_text.maybe (a := s.videoBitrate) (by simp) (Or.inl (by simp))) _).trans ?_
    refine (bind_read (stored_text.maybe (a := s.audioBitrate) (by simp) (Or.inl (by simp))) _).trans ?_
    rfl
  not_null _ := Json.noConfusion
  tidy s := (((((stored_integer.ifSet (by decide) "width" s.width).append
    (stored_integer.ifSet (by decide) "height" s.height)).append
    (stored_integer.ifSet (by decide) "fps" s.fps)).append
    (stored_text.ifSet (by decide) "videoBitrate" s.videoBitrate)).append
    (stored_text.ifSet (by decide) "audioBitrate" s.audioBitrate)).record (by decide)

theorem stored_soundtrack :
    Stored (fun s : Soundtrack => .arr (s.1.map Clip.toJson)) Soundtrack.read 5 where
  read_back s := (bind_read (stored_clip.list.read_back s.1) _).trans (dif_pos s.2)
  not_null _ := Json.noConfusion
  tidy s := stored_clip.list.tidy s.1

theorem stored_timeline : Stored Timeline.toJson Timeline.read 6 where
  read_back t := by
    rw [Timeline.toJson, ofFields_eq, Timeline.read]
    refine (bind_read rfl _).trans ?_
    refine (bind_read (stored_clip.list.optional (a := t.clips) _ (by simp [lookup])) _).trans ?_
    refine (bind_read (stored_settings.optional (a := t.settings) _ (by simp [lookup])) _).trans ?_
    refine (bind_read (stored_soundtrack.optional (a := ⟨t.soundtrack, t.soundtrack_audio⟩) _
      (by simp [lookup])) _).trans ?_
    rfl
  not_null _ := Json.noConfusion
  tidy t := (((stored_clip.list.always (by decide) "clips" t.clips).append
    (stored_settings.always (by decide) "settings" t.settings)).append
    (stored_clip.list.always (by decide) "soundtrack" t.soundtrack)).record (by decide)

/-- The stored form of a timeline is no pair of media lists. -/
theorem isMediaLists?_toJson (t : Timeline) : t.toJson.isMediaLists? = some false := rfl

/-- The stored form of a timeline is read as that timeline. -/
theorem Timeline.ofRequest_toJson (t : Timeline) : Timeline.ofRequest t.toJson = .ok t := by
  rw [Timeline.ofRequest, isMediaLists?_toJson]
  simp only [stored_timeline.read_back t]
  rfl

namespace Sample

/-- Two videos under one audio file, as media lists. -/
def mediaLists : Json :=
  .ofFields [
    ("videoMedia", .arr [.ofFields [("url", .str "http://a/1.mp4")],
      .ofFields [("url", .str "http://a/2.mp4")]]),
    ("audioMedia", .arr [.ofFields [("url", .str "http://a/3.mp3")]])]

/-- One directory and nothing in it. -/
def emptyShelf : FileTree := ⟨[(["jobs"], .directory)], []⟩

end Sample

end Montage
