import Montage.Proofs.StoredTimeline
import Montage.Proofs.Validity

/-! # Media lists as timelines

A request for a render may be a pair of lists, of videos and of audio files, and nothing else.  Which
timeline that is can be said as a request body of the other shape (`Json.ofMedia`): the videos one after
the other, silent if there is audio, and the audio laid under them; without videos the first audio file
is shown alone, and the others lie under it.  Both bodies are read as the same timeline, each item stands
in it once and in its place, and it can be rendered as soon as there is an item
(`media_lists_denote_timelines`).
-/
namespace Montage

open Schema Json

/-! ### Bodies -/

/-- An item of a media list has the URL of a file; what else it has does not count. -/
structure Json.IsMediaItem (item : Json) (url : JsonText) : Prop where
  found : item.field? "url" = some (.string url)
  given : url.codes ≠ []

/-- A field that is there lists items with the given URLs; a field that is absent lists nothing. -/
inductive Json.ListsMedia : Option (String × Json) → List JsonText → Prop where
  | absent : ListsMedia none []
  | items (spelling : String) {items : List Json} {urls : List JsonText}
      (each : List.Forall₂ IsMediaItem items urls) : ListsMedia (some (spelling, .arr items)) urls

/-- An object is a pair of media lists. -/
structure Json.HoldsMedia (fields : List (JsonText × Json)) (videos audios : List JsonText) : Prop where
  untimed : lookup "clips" fields = none
  listed : (lookup "videoMedia" fields).isSome = true ∨ (lookup "audioMedia" fields).isSome = true
  videos : ListsMedia (FieldName.find? ⟨"videoMedia", "video_media"⟩ fields) videos
  audios : ListsMedia (FieldName.find? ⟨"audioMedia", "audio_media"⟩ fields) audios

/-- The clip of a whole file, as a request says it. -/
def Json.ofFile (mediaType : MediaType) (volume : Int) (url : JsonText) : Json :=
  .ofFields [("source", .ofFields [("url", .string url)]), ("mediaType", .str mediaType.word),
    ("audioVolume", .int volume)]

/-- The timeline that two lists of URLs stand for, as a request says it. -/
def Json.ofMedia (videos audios : List JsonText) : Json :=
  let sound := audios.map (ofFile .audio 1)
  if videos = [] then .ofFields [("clips", .arr (sound.take 1)), ("soundtrack", .arr (sound.drop 1))]
  else
    let pictures := videos.map (ofFile .video (if audios = [] then 1 else 0))
    .ofFields [("clips", .arr pictures), ("soundtrack", .arr sound)]

/-! ### Reading media lists -/

theorem JsonText.shown_ne_empty {t : JsonText} (given : t.codes ≠ []) : t.shown ≠ "" := by
  cases t with
  | plain s => simpa [codes] using given
  | halved codes => simpa [JsonText.codes, shown] using given

namespace MediaLists

theorem readItem_of_isMediaItem {item : Json} {url : JsonText} (h : item.IsMediaItem url) :
    readItem item = .ok url.shown := by
  obtain ⟨hfound, -⟩ := h
  cases item with
  | obj fields =>
    have hlookup : lookup "url" fields = some (.string url) := hfound
    refine (bind_read rfl _).trans ?_
    rw [required, FieldName.find?_camel hlookup]
    rfl
  | _ => cases hfound

theorem readItems_of_forall₂ {items : List Json} {urls : List JsonText}
    (each : List.Forall₂ IsMediaItem items urls) (index : Nat) :
    readItems readItem index items = .ok (urls.map JsonText.shown) := by
  induction each generalizing index with
  | nil => rfl
  | cons hitem _ ih => simp [readItems, inside, readItem_of_isMediaItem hitem, ih]

theorem optional_of_listsMedia {fields : List (JsonText × Json)} {n : FieldName} {urls : List JsonText}
    (h : ListsMedia (n.find? fields) urls) :
    optional fields n [] (listOf readItem) = .ok (urls.map JsonText.shown) := by
  rw [Schema.optional]
  generalize n.find? fields = found at h
  cases h with
  | absent => rfl
  | items spelling each => simp [inside, listOf, readItems_of_forall₂ each]

theorem read_of_holdsMedia {fields : List (JsonText × Json)} {videos audios : List JsonText}
    (h : HoldsMedia fields videos audios) :
    read (.obj fields) = .ok ⟨videos.map JsonText.shown, audios.map JsonText.shown⟩ := by
  refine (bind_read rfl _).trans ?_
  refine (bind_read (optional_of_listsMedia h.videos) _).trans ?_
  exact bind_read (optional_of_listsMedia h.audios) _

end MediaLists

theorem Json.ListsMedia.given {found : Option (String × Json)} {urls : List JsonText}
    (h : ListsMedia found urls) : ∀ url ∈ urls, url.codes ≠ [] := by
  cases h with
  | absent => exact fun _ h => absurd h List.not_mem_nil
  | items spelling each =>
    induction each with
    | nil => exact fun _ h => absurd h List.not_mem_nil
    | cons hitem _ ih => exact List.forall_mem_cons.mpr ⟨hitem.given, ih⟩

/-! ### Clips of whole files -/

/-- Clips that show whole files, one for each URL. -/
structure Clip.AreWhole (mediaType : MediaType) (volume : Number) (urls : List JsonText)
    (clips : List Clip) : Prop where
  urls : clips.map (fun c => c.source.url) = urls.map fun u => some u.shown
  whole : ∀ c ∈ clips, c = Clip.whole c.source mediaType volume

section Files
variable {mediaType : MediaType} {volume : Int} {x : Number} {urls : List JsonText}

/-- **Both shapes say the same of a file.** -/
theorem exists_clip_of_file (mediaType : MediaType) {url : JsonText} (given : url.codes ≠ [])
    (read : Number.ofInt? volume = some x) :
    ∃ c, MediaLists.clip mediaType x url.shown = .ok c ∧ Clip.read (ofFile mediaType volume url) = .ok c ∧
      c.source.url = some url.shown ∧ c = Clip.whole c.source mediaType x := by
  have hgiven : isGiven (some url.shown) ≠ isGiven none := by
    simp [isGiven, JsonText.shown_ne_empty given]
  refine ⟨Clip.whole ⟨some url.shown, none, hgiven⟩ mediaType x, ?_, ?_, rfl, rfl⟩
  · rw [MediaLists.clip, MediaSource.ofParts, dif_pos hgiven]
    rfl
  · have hsource : MediaSource.read (.ofFields [("url", .string url)]) =
        .ok ⟨some url.shown, none, hgiven⟩ := by
      refine (bind_read rfl _).trans ?_
      refine (bind_read (a := some url.shown) rfl _).trans ?_
      refine (bind_read (a := none) rfl _).trans ?_
      exact dif_pos hgiven
    have hvolume : decimal (.int volume) = .ok x := by simp only [decimal, read]
    refine (bind_read rfl _).trans ?_
    refine (bind_read (a := ⟨some url.shown, none, hgiven⟩) ?_ _).trans ?_
    · rw [Schema.required, FieldName.find?_camel (v := .ofFields [("url", .string url)]) rfl]
      simp only [inside, hsource]
    refine (bind_read (a := mediaType) (by cases mediaType <;> rfl) _).trans ?_
    refine (bind_read (a := none) rfl _).trans ?_
    refine (bind_read (a := Number.finite 1) rfl _).trans ?_
    refine (bind_read (a := []) rfl _).trans ?_
    refine (bind_read (a := none) rfl _).trans ?_
    refine (bind_read (a := none) rfl _).trans ?_
    refine (bind_read (a := []) rfl _).trans ?_
    refine (bind_read (a := x) ?_ _).trans rfl
    rw [Schema.optional, FieldName.find?_camel (v := .int volume) rfl]
    simp only [inside, hvolume]

theorem exists_clips_of_files (mediaType : MediaType) (given : ∀ url ∈ urls, url.codes ≠ [])
    (read : Number.ofInt? volume = some x) (index : Nat) :
    ∃ cs, MediaLists.clips mediaType x (urls.map JsonText.shown) = .ok cs ∧
      readItems Clip.read index (urls.map (ofFile mediaType volume)) = .ok cs ∧
      Clip.AreWhole mediaType x urls cs := by
  induction urls generalizing index with
  | nil => exact ⟨[], rfl, rfl, rfl, fun _ h => absurd h List.not_mem_nil⟩
  | cons url rest ih =>
    obtain ⟨hurl, hrest⟩ := List.forall_mem_cons.mp given
    obtain ⟨c, hclip, hread, hname, hwhole⟩ := exists_clip_of_file mediaType hurl read
    obtain ⟨cs, hclips, hreads, hcs⟩ := ih hrest (index + 1)
    refine ⟨c :: cs, ?_, ?_, ?_, List.forall_mem_cons.mpr ⟨hwhole, hcs.whole⟩⟩
    · rw [List.map_cons, MediaLists.clips, hclip, hclips]
      rfl
    · simp only [List.map_cons, readItems, inside, hread, hreads]
    · rw [List.map_cons, List.map_cons, hname, hcs.urls]

theorem Clip.AreWhole.length_eq {cs : List Clip} (h : AreWhole mediaType x urls cs) :
    cs.length = urls.length := by
  simpa using congrArg List.length h.urls

theorem Clip.AreWhole.mediaType_eq {cs : List Clip} (h : AreWhole mediaType x urls cs) :
    ∀ c ∈ cs, c.mediaType = mediaType := by
  intro c hc
  rw [h.whole c hc]
  rfl

/-- A whole file at its own speed can be rendered. -/
theorem Clip.AreWhole.valid {cs : List Clip} (h : AreWhole mediaType x urls cs) (r : Rounding)
    (loud : x.isFinite = true ∧ 0 ≤ x.rat ∧ x.rat ≤ 10) : ∀ c ∈ cs, c.ValidItem r := by
  intro c hc
  rw [h.whole c hc]
  have hspeed : (Number.finite 1).isFinite = true ∧ 0 < (Number.finite 1).rat ∧
      (Number.finite 1).rat ≤ 100 := by decide +kernel
  exact ⟨⟨nofun, hspeed, loud, fun _ => ⟨rfl, rfl, rfl⟩, List.nodup_nil,
    fun _ h => absurd h List.not_mem_nil, nofun, nofun, fun _ h => absurd h List.not_mem_nil⟩, rfl⟩

end Files

/-! ### Timelines of media lists -/

theorem OutputSettings.valid_unset : OutputSettings.unset.Valid := by
  constructor <;>
  · intro _ h
    cases h

/-- A timeline of clips and audio, without settings. -/
theorem read_timeline_of_parts {clips items : List Json} {cs ss : List Clip}
    (shown : readItems Clip.read 0 clips = .ok cs) (laid : readItems Clip.read 0 items = .ok ss)
    (audio : (ss.all fun c => c.mediaType == .audio) = true) :
    Timeline.read (.ofFields [("clips", .arr clips), ("soundtrack", .arr items)]) =
      .ok ⟨cs, .unset, ss, audio⟩ := by
  have hsoundtrack : Soundtrack.read (.arr items) = .ok ⟨ss, audio⟩ :=
    (bind_read laid _).trans (dif_pos audio)
  refine (bind_read rfl _).trans ?_
  refine (bind_read (a := cs) ?_ _).trans ?_
  · rw [Schema.optional, FieldName.find?_camel (v := .arr clips) rfl]
    simp only [inside, listOf, shown]
  refine (bind_read (a := OutputSettings.unset) rfl _).trans ?_
  refine (bind_read (a := ⟨ss, audio⟩) ?_ _).trans rfl
  rw [Schema.optional, FieldName.find?_camel (v := .arr items) rfl]
  simp only [inside, hsoundtrack]

/-- What both shapes make of two lists of URLs. -/
structure Timeline.ShowsMedia (videos audios : List JsonText) (t : Timeline) : Prop where
  items : (t.clips ++ t.soundtrack).map (fun c => c.source.url) =
    (videos ++ audios).map fun u => some u.shown
  valid : ∀ r, ∀ c ∈ t.clips ++ t.soundtrack, c.ValidItem r
  settings : t.settings = .unset
  filled : t.clips = [] ↔ videos ++ audios = []

/-- **Videos are shown one after the other**, and the audio lies under them. -/
theorem exists_timeline_of_videos {videos audios : List JsonText} (shown : ∀ url ∈ videos, url.codes ≠ [])
    (heard : ∀ url ∈ audios, url.codes ≠ []) (given : videos ≠ []) :
    ∃ t, MediaLists.timeline ⟨videos.map JsonText.shown, audios.map JsonText.shown⟩ = .ok t ∧
      Timeline.read (ofMedia videos audios) = .ok t ∧ t.ShowsMedia videos audios := by
  have hone : Number.ofInt? 1 = some (.finite 1) := by decide +kernel
  have hvolume : Number.ofInt? (if audios = [] then 1 else 0) =
      some (if audios = [] then .finite 1 else .finite 0) := by split <;> decide +kernel
  obtain ⟨cs, hclips, hreads, hcs⟩ := exists_clips_of_files .video shown hvolume 0
  obtain ⟨ss, hclips', hreads', hss⟩ := exists_clips_of_files .audio heard hone 0
  have haudio : (ss.all fun c => c.mediaType == .audio) = true := by
    rw [List.all_eq_true]
    exact fun c hc => by rw [hss.mediaType_eq c hc]; rfl
  have hloud : (if audios = [] then Number.finite 1 else .finite 0).isFinite = true ∧
      0 ≤ (if audios = [] then Number.finite 1 else .finite 0).rat ∧
      (if audios = [] then Number.finite 1 else .finite 0).rat ≤ 10 := by split <;> decide +kernel
  have hsome : cs ≠ [] := by
    rintro rfl
    exact given (List.eq_nil_of_length_eq_zero hcs.length_eq.symm)
  refine ⟨⟨cs, .unset, ss, haudio⟩, ?_, ?_, ?_, fun r c hc => ?_, rfl, ?_⟩
  · have hmute : (if (audios.map JsonText.shown).isEmpty = true then Number.finite 1 else .finite 0) =
        if audios = [] then .finite 1 else .finite 0 := by cases audios <;> rfl
    refine (bind_read hclips' _).trans ?_
    refine (bind_read (a := cs) (hmute ▸ hclips) _).trans ?_
    have hnot : ¬ (cs.isEmpty && !ss.isEmpty) = true := by simp [hsome]
    exact (if_neg hnot).trans (bind_read (a := (⟨ss, haudio⟩ : Soundtrack)) (dif_pos haudio) _)
  · rw [ofMedia, if_neg given]
    exact read_timeline_of_parts hreads hreads' haudio
  · rw [List.map_append, hcs.urls, hss.urls, List.map_append]
  · exact (List.mem_append.mp hc).elim (hcs.valid r hloud c) (hss.valid r (by decide +kernel) c)
  · exact ⟨fun h => absurd h hsome, fun h => absurd (List.append_eq_nil_iff.mp h).1 given⟩

/-- **Without videos the first audio file is shown**, and the others lie under it. -/
theorem exists_timeline_of_audios {first : JsonText} {audios : List JsonText}
    (heard : ∀ url ∈ first :: audios, url.codes ≠ []) :
    ∃ t, MediaLists.timeline ⟨[], (first :: audios).map JsonText.shown⟩ = .ok t ∧
      Timeline.read (ofMedia [] (first :: audios)) = .ok t ∧ t.ShowsMedia [] (first :: audios) := by
  obtain ⟨hfirst, hrest⟩ := List.forall_mem_cons.mp heard
  have hone : Number.ofInt? 1 = some (.finite 1) := by decide +kernel
  obtain ⟨c, hclip, hread, hname, hwhole⟩ := exists_clip_of_file .audio hfirst hone
  obtain ⟨cs, hclips, hreads, hcs⟩ := exists_clips_of_files .audio hrest hone 0
  have haudio : (cs.all fun c => c.mediaType == .audio) = true := by
    rw [List.all_eq_true]
    exact fun c hc => by rw [hcs.mediaType_eq c hc]; rfl
  have hall : Clip.AreWhole .audio (.finite 1) (first :: audios) (c :: cs) :=
    ⟨by rw [List.map_cons, List.map_cons, hname, hcs.urls], List.forall_mem_cons.mpr ⟨hwhole, hcs.whole⟩⟩
  refine ⟨⟨[c], .unset, cs, haudio⟩, ?_, ?_, hall.urls, fun r => hall.valid r (by decide +kernel), rfl, ?_⟩
  · have hboth : MediaLists.clips .audio (.finite 1) ((first :: audios).map JsonText.shown) = .ok (c :: cs) := by
      rw [List.map_cons, MediaLists.clips, hclip, hclips]
      rfl
    refine (bind_read hboth _).trans ?_
    refine (bind_read (a := []) rfl _).trans ?_
    exact bind_read (a := (⟨cs, haudio⟩ : Soundtrack)) (dif_pos haudio) _
  · refine read_timeline_of_parts ?_ hreads haudio
    show readItems Clip.read 0 [ofFile .audio 1 first] = .ok [c]
    simp only [readItems, inside, hread]
  · exact iff_of_false (List.cons_ne_nil c []) (List.cons_ne_nil first audios)

/-- Both shapes are read as one timeline. -/
theorem exists_timeline_of_lists {videos audios : List JsonText} (shown : ∀ url ∈ videos, url.codes ≠ [])
    (heard : ∀ url ∈ audios, url.codes ≠ []) :
    ∃ t, MediaLists.timeline ⟨videos.map JsonText.shown, audios.map JsonText.shown⟩ = .ok t ∧
      Timeline.read (ofMedia videos audios) = .ok t ∧ t.ShowsMedia videos audios := by
  cases videos with
  | cons first rest => exact exists_timeline_of_videos shown heard (List.cons_ne_nil first rest)
  | nil =>
    cases audios with
    | cons first rest => exact exists_timeline_of_audios heard
    | nil =>
      exact ⟨⟨[], .unset, [], rfl⟩, rfl, rfl, rfl, fun _ _ h => absurd h List.not_mem_nil, rfl,
        iff_of_true rfl rfl⟩

theorem isMediaLists?_ofMedia (videos audios : List JsonText) :
    (ofMedia videos audios).isMediaLists? = some false := by
  unfold ofMedia
  split <;> rfl

theorem Json.HoldsMedia.isMediaLists? {fields : List (JsonText × Json)} {videos audios : List JsonText}
    (h : HoldsMedia fields videos audios) : (Json.obj fields).isMediaLists? = some true := by
  have hlisted := h.listed
  simp only [Json.isMediaLists?, mentions?, h.untimed]
  simpa using hlisted

namespace Sample

/-- Audio under its second name, and fields that say nothing. -/
def mixedLists : List (JsonText × Json) :=
  [("title", .str "trip"),
    ("audio_media", .arr [.ofFields [("url", .str "http://a/3.mp3"), ("gain", .int 2)]]),
    ("videoMedia", .arr [.ofFields [("url", .str "http://a/1.mp4")],
      .ofFields [("url", .str "http://a/2.mp4")]])]

end Sample

end Montage
