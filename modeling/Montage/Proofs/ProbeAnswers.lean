import Montage.Proofs.Checks
import Montage.Proofs.Outputs

/-! # What the probe program may answer

The probe program may print anything.  A file is known from an answer of the expected shape
(`Describes`): the answer is a record, the length that it tells, if any, is a number or a text, and
the streams that it lists are records.  What is known is the length and the first stream of each
kind (`MediaInfo.ofStreams`), however many streams there are.

A fault is blamed on the file if the program is missing or has failed, if its text is no JSON, and if
it tells of neither picture nor sound.  The task of the job names the source of the file then.  An
answer of another shape is **malformed** (`Malformed`), and so is a text with a whole number of too
many digits.  Nobody has foreseen these faults, and the failure of the job does not say whose file
it was.
-/
namespace Montage

namespace Probe

/-- The fields of a record. -/
abbrev Fields := List (JsonText × Json)

/-! ### Streams -/

/-- The first stream of a kind. -/
def firstStream? (kind : String) (records : List Fields) : Option Fields :=
  records.find? fun fields => holds fields "codec_type" kind

/-- A field of a stream; null if there is no stream or no such field. -/
def fieldOf (stream : Option Fields) (name : String) : Json :=
  (stream.map fun fields => valueOf fields name).getD .null

/-- What is known of a file from its length and the records of its streams. -/
def MediaInfo.ofStreams (length : Option Number) (records : List Fields) : MediaInfo where
  duration := length
  width := fieldOf (firstStream? "video" records) "width"
  height := fieldOf (firstStream? "video" records) "height"
  videoCodec := fieldOf (firstStream? "video" records) "codec_name"
  audioCodec := fieldOf (firstStream? "audio" records) "codec_name"
  hasVideo := (firstStream? "video" records).isSome
  hasAudio := (firstStream? "audio" records).isSome

theorem eq_of_holds {fields : Fields} {name word word' : String}
    (h : holds fields name word = true) (h' : holds fields name word' = true) : word = word' := by
  unfold holds at h h'
  split at h
  case h_1 s hs =>
    rw [hs] at h'
    exact (eq_of_beq h).symm.trans (eq_of_beq h')
  case h_2 => cases h

theorem firstStream?_concat (kind : String) (records : List Fields) (fields : Fields) :
    firstStream? kind (records ++ [fields]) = (firstStream? kind records).or
      (if holds fields "codec_type" kind then some fields else none) := by
  rw [firstStream?, List.find?_append]
  congr 1
  cases h : holds fields "codec_type" kind <;> simp [h]

/-- Streams are taken one after the other, and the later ones of a kind change nothing. -/
theorem addStream_ofStreams (length : Option Number) (seen : List Fields) (fields : Fields) :
    (MediaInfo.ofStreams length seen).addStream (.obj fields) =
      .ok (.ofStreams length (seen ++ [fields])) := by
  have hkinds : ¬ (holds fields "codec_type" "video" = true ∧
      holds fields "codec_type" "audio" = true) := fun h => by
    simpa using eq_of_holds h.1 h.2
  cases hv : holds fields "codec_type" "video" <;> cases ha : holds fields "codec_type" "audio" <;>
    simp only [MediaInfo.addStream, MediaInfo.ofStreams, firstStream?_concat, hv, ha]
  · simp
  · cases h : firstStream? "audio" seen <;> simp [fieldOf]
  · cases h : firstStream? "video" seen <;> simp [fieldOf]
  · exact absurd ⟨hv, ha⟩ hkinds

theorem addStreams_ofStreams (length : Option Number) (seen records : List Fields) :
    (MediaInfo.ofStreams length seen).addStreams (records.map .obj) =
      .ok (.ofStreams length (seen ++ records)) := by
  induction records generalizing seen with
  | nil => rw [List.append_nil]; rfl
  | cons fields rest ih =>
    simp only [List.map_cons, MediaInfo.addStreams, addStream_ofStreams, ih, List.append_assoc]
    rfl

/-- All streams have to be records. -/
theorem records_or_fault (i : MediaInfo) (streams : List Json) :
    (∃ records : List Fields, streams = records.map .obj) ∨
      ∃ kind, i.addStreams streams = .error (.noRecord kind) := by
  induction streams generalizing i with
  | nil => exact Or.inl ⟨[], rfl⟩
  | cons v rest ih =>
    cases v with
    | obj fields =>
      simp only [MediaInfo.addStreams]
      cases h : i.addStream (.obj fields) with
      | ok i' =>
        refine (ih i').imp ?_ id
        rintro ⟨records, rfl⟩
        exact ⟨fields :: records, rfl⟩
      | error f =>
        unfold MediaInfo.addStream at h
        repeat' split at h
        all_goals cases h
    | _ => exact Or.inr ⟨_, rfl⟩

/-! ### The shape of an answer -/

/-- How long a value says that a file is; a text that is no number says nothing. -/
inductive Lasts : Json → Option Number → Prop where
  | text (t : JsonText) : Lasts (.string t) (t.plain?.bind Number.measuredDecimal?)
  | decimal (x : Number) : Lasts (.float x) (some x)
  | whole {n : Int} {x : Number} : Number.ofInt? n = some x → Lasts (.int n) (some x)
  | truth (b : Bool) : Lasts (.bool b) (some (.finite (if b then 1 else 0)))

/-- How long the description of a file says that it is. -/
inductive Measured : Json → Option Number → Prop where
  | untold {description : Json} : description.mentions? "duration" = some false →
    Measured description none
  | told {fields : Fields} {v : Json} {length : Option Number} :
    Json.lookup "duration" fields = some v → Lasts v length → Measured (.obj fields) length

/-- The streams that a value lists; an empty record and an empty text list none. -/
inductive Lists : Json → List Fields → Prop where
  | items (records : List Fields) : Lists (.arr (records.map .obj)) records
  | emptyRecord : Lists (.obj []) []
  | emptyText {t : JsonText} : t.codes = [] → Lists (.string t) []

/-- An answer of the expected shape; what is missing is taken to be empty. -/
inductive Describes : Json → Option Number → List Fields → Prop where
  | intro {fields : Fields} {length : Option Number} {records : List Fields} :
    Measured ((Json.lookup "format" fields).getD (.obj [])) length →
    Lists ((Json.lookup "streams" fields).getD (.arr [])) records →
    Describes (.obj fields) length records

/-- The outcome is an answer of another shape, or a text with a whole number of too many digits. -/
def Malformed (outcome : Outcome) : Prop :=
  ∃ output errors, outcome = .ran output errors 0 ∧
    ((∃ f n, Json.read output = .error f ∧ f.cause = .longInteger n) ∨
      ∃ answer, Json.read output = .ok answer ∧ ¬ ∃ length records, Describes answer length records)

theorem lengthOf_of_lasts {v : Json} {length : Option Number} (h : Lasts v length) :
    lengthOf v = .ok length := by
  cases h with
  | whole h => simp only [lengthOf, h]
  | _ => rfl

theorem lasts_or_fault (v : Json) :
    (∃ length, Lasts v length) ∨ ∃ f, lengthOf v = .error f ∧ f.isOfFile = false := by
  cases v with
  | string t => exact Or.inl ⟨_, .text t⟩
  | float x => exact Or.inl ⟨_, .decimal x⟩
  | bool b => exact Or.inl ⟨_, .truth b⟩
  | int n =>
    cases h : Number.ofInt? n with
    | some x => exact Or.inl ⟨_, .whole h⟩
    | none => exact Or.inr ⟨.lengthRange, by simp only [lengthOf, h], rfl⟩
  | null | arr _ | obj _ => exact Or.inr ⟨_, rfl, rfl⟩

theorem duration_of_measured {v : Json} {length : Option Number} (h : Measured v length) :
    duration v = .ok length := by
  cases h with
  | untold h => simp only [duration, h]
  | told h hlasts =>
    simp only [duration, Json.mentions?, h, Option.isSome_some, lengthOf_of_lasts hlasts]

theorem measured_or_fault (v : Json) :
    (∃ length, Measured v length) ∨ ∃ f, duration v = .error f ∧ f.isOfFile = false := by
  cases h : v.mentions? "duration" with
  | none => exact Or.inr ⟨.noContainer v.kindName, by simp only [duration, h], rfl⟩
  | some told =>
    cases told with
    | false => exact Or.inl ⟨none, .untold h⟩
    | true =>
      cases v with
      | obj fields =>
        obtain ⟨w, hw⟩ := Option.isSome_iff_exists.mp (Option.some.inj h)
        rcases lasts_or_fault w with ⟨length, hlasts⟩ | ⟨f, hfault, hf⟩
        · exact Or.inl ⟨length, .told hw hlasts⟩
        · exact Or.inr ⟨f, by simp only [duration, h, hw, hfault], hf⟩
      | arr items => exact Or.inr ⟨.listIndex, by simp only [duration, h], rfl⟩
      | string t => exact Or.inr ⟨.textIndex, by simp only [duration, h], rfl⟩
      | _ => cases h

theorem streams_of_lists (length : Option Number) {v : Json} {records : List Fields}
    (h : Lists v records) :
    ∃ streams, streamsOf v = .ok streams ∧
      (MediaInfo.ofStreams length []).addStreams streams = .ok (.ofStreams length records) := by
  cases h with
  | items records => exact ⟨_, rfl, addStreams_ofStreams length [] records⟩
  | emptyRecord => exact ⟨[], rfl, rfl⟩
  | emptyText h => exact ⟨[], by simp only [streamsOf, h, List.map_nil], rfl⟩

theorem lists_or_fault (i : MediaInfo) (v : Json) : (∃ records, Lists v records) ∨
    (∃ f, streamsOf v = .error f ∧ f.isOfFile = false) ∨
    ∃ streams kind, streamsOf v = .ok streams ∧ i.addStreams streams = .error (.noRecord kind) := by
  cases v with
  | arr items =>
    rcases records_or_fault i items with ⟨records, rfl⟩ | ⟨kind, h⟩
    · exact Or.inl ⟨records, .items records⟩
    · exact Or.inr (Or.inr ⟨items, kind, rfl, h⟩)
  | obj fields =>
    cases fields with
    | nil => exact Or.inl ⟨[], .emptyRecord⟩
    | cons f rest => exact Or.inr (Or.inr ⟨_, "str", rfl, rfl⟩)
  | string t =>
    cases h : t.codes with
    | nil => exact Or.inl ⟨[], .emptyText h⟩
    | cons c rest => exact Or.inr (Or.inr ⟨_, "str", rfl, by rw [h]; rfl⟩)
  | _ => exact Or.inr (Or.inl ⟨_, rfl, rfl⟩)

/-- **An answer of the expected shape is taken**, if it tells of a picture or of sound. -/
theorem read_of_describes (path : String) {answer : Json} {length : Option Number}
    {records : List Fields} (h : Describes answer length records) :
    read path answer =
      if (MediaInfo.ofStreams length records).hasVideo ||
        (MediaInfo.ofStreams length records).hasAudio
      then .ok (.ofStreams length records) else .error (.noStream path) := by
  obtain ⟨hmeasured, hlists⟩ := h
  obtain ⟨streams, hstreams, hinfo⟩ := streams_of_lists length hlists
  have hinfo : MediaInfo.addStreams ⟨length, .null, .null, .null, .null, false, false⟩ streams =
      .ok (.ofStreams length records) := hinfo
  simp only [read, duration_of_measured hmeasured, hstreams, bind, Except.bind, hinfo]

/-- **Any other answer is a fault that is not blamed on the file.** -/
theorem describes_or_fault (path : String) (answer : Json) :
    (∃ length records, Describes answer length records) ∨
      ∃ f, read path answer = .error f ∧ f.isOfFile = false := by
  cases answer with
  | obj fields =>
    rcases measured_or_fault ((Json.lookup "format" fields).getD (.obj [])) with
      ⟨length, hmeasured⟩ | ⟨f, hfault, hf⟩
    · have hlength := duration_of_measured hmeasured
      rcases lists_or_fault ⟨length, .null, .null, .null, .null, false, false⟩
          ((Json.lookup "streams" fields).getD (.arr [])) with
        ⟨records, hlists⟩ | ⟨f, hfault, hf⟩ | ⟨streams, kind, hstreams, hfault⟩
      · exact Or.inl ⟨length, records, ⟨hmeasured, hlists⟩⟩
      · exact Or.inr ⟨f, by simp only [read, hlength, hfault]; rfl, hf⟩
      · exact Or.inr ⟨.noRecord kind,
          by simp only [read, hlength, hstreams, bind, Except.bind, hfault], rfl⟩
    · exact Or.inr ⟨f, by simp only [read, hfault]; rfl, hf⟩
  | _ => exact Or.inr ⟨_, rfl, rfl⟩

theorem not_isOfFile_notJson {f : Json.TextFault} :
    (Fault.notJson f).isOfFile = false ↔ ∃ n, f.cause = .longInteger n := by
  rw [Fault.isOfFile]
  cases f.cause <;> simp [Json.Cause.isLimit, Json.Cause.isDepth]

section Outcomes
variable {path : String} {outcome : Outcome} {i : MediaInfo} {f : Fault}

/-- **A file is known from an answer of the expected shape** that tells of a picture or of sound. -/
theorem probe_eq_ok_iff : probe path outcome = .ok i ↔ ∃ output errors answer length records,
    outcome = .ran output errors 0 ∧ Json.read output = .ok answer ∧
      Describes answer length records ∧ i = .ofStreams length records ∧
      (i.hasVideo || i.hasAudio) = true := by
  constructor
  · intro h
    cases outcome with
    | notFound program => cases h
    | ran output errors exitCode =>
      simp only [probe] at h
      split at h
      · cases h
      case isFalse hcode =>
        obtain rfl : exitCode = 0 := not_ne_iff.mp hcode
        cases hread : Json.read output with
        | error g => simp [hread] at h
        | ok answer =>
          simp only [hread] at h
          rcases describes_or_fault path answer with ⟨length, records, hdescribes⟩ | ⟨f, hfault, -⟩
          · rw [read_of_describes path hdescribes] at h
            split at h
            case isTrue hsome =>
              cases h
              exact ⟨output, errors, answer, length, records, rfl, hread, hdescribes, rfl, hsome⟩
            · cases h
          · cases hfault.symm.trans h
  · rintro ⟨output, errors, answer, length, records, rfl, hread, hdescribes, rfl, hsome⟩
    simp only [probe, ne_eq, not_true_eq_false, if_false, hread, read_of_describes path hdescribes,
      hsome, if_true]

/-- **A fault is not blamed on the file if and only if the outcome is malformed.** -/
theorem isOfFile_of_probe (fault : probe path outcome = .error f) :
    f.isOfFile = false ↔ Malformed outcome := by
  cases outcome with
  | notFound program =>
    cases fault
    refine iff_of_false nofun ?_
    rintro ⟨_, _, h, -⟩
    cases h
  | ran output errors exitCode =>
    simp only [probe] at fault
    split at fault
    case isTrue hcode =>
      cases fault
      refine iff_of_false nofun ?_
      rintro ⟨_, _, ⟨⟩, -⟩
      exact hcode rfl
    case isFalse hcode =>
      obtain rfl : exitCode = 0 := not_ne_iff.mp hcode
      cases hread : Json.read output with
      | error g =>
        simp only [hread] at fault
        cases fault
        rw [not_isOfFile_notJson]
        constructor
        · rintro ⟨n, hcause⟩
          exact ⟨output, errors, rfl, Or.inl ⟨g, n, hread, hcause⟩⟩
        · rintro ⟨_, _, ⟨⟩, ⟨g', n, hread', hcause⟩ | ⟨answer, hread', -⟩⟩
          · cases hread.symm.trans hread'
            exact ⟨n, hcause⟩
          · cases hread.symm.trans hread'
      | ok answer =>
        simp only [hread] at fault
        constructor
        · intro hf
          refine ⟨output, errors, rfl, Or.inr ⟨answer, hread, ?_⟩⟩
          rintro ⟨length, records, hdescribes⟩
          rw [read_of_describes path hdescribes] at fault
          split at fault <;> cases fault
          cases hf
        · rintro ⟨_, _, ⟨⟩, ⟨g, n, hread', -⟩ | ⟨answer', hread', hnone⟩⟩
          · cases hread.symm.trans hread'
          · cases hread.symm.trans hread'
            obtain ⟨g, hfault, hg⟩ := (describes_or_fault path answer).resolve_left hnone
            cases fault.symm.trans hfault
            exact hg

end Outcomes

end Probe

/-! ### What becomes of the job -/

theorem probeFailure_ne (source : MediaSource) (f : Probe.Fault) : probeFailure source f ≠ "" := by
  rw [probeFailure]
  split
  · simp [String.append_eq_empty_iff]
  · simp [unforeseen, String.append_eq_empty_iff]

namespace Service

/-- The task of a job is over, and the record of the job, if there is one, has failed.  The record
keeps the message if the clock has a date. -/
structure Fails (s s' : Service) (id : JobId) (message : String) : Prop where
  finished : s'.task? id = none
  record : ∀ j, s.store.find? id = some j → ∃ j', s'.store.find? id = some j' ∧ j'.state = .failed ∧
    (Timestamp.check s.rounding s.now = .ok () → j'.error = some message)

variable {s : Service} {id : JobId} {t : Task} {message : String}

theorem fails_leave (running : ∀ j, s.store.find? id = some j → j.state.isFinal = false)
    (spoken : message ≠ "") : s.Fails (s.leave id (some message)) id message where
  finished := task?_leave ..
  record j hj := by
    have hforward : j.state.canMoveTo .failed = true := by
      have := running j hj
      revert this
      cases j.state <;> decide
    refine ⟨s.store.moved s.rounding .failed (some message) none s.now j, ?_, ?_, fun date => ?_⟩
    · rw [leave_eq]
      refine (Store.find?_transition ..).trans ?_
      rw [hj, Option.map_some, if_pos rfl]
    · rw [Store.state_moved, if_pos hforward]
    · simp [Store.moved, hforward, date, Job.move, Job.orElseText, spoken]

variable {done : List (String × Asset)} {source : MediaSource} {path : Path}
  {left : List (MediaSource × Path)} {outcome : Probe.Outcome} {f : Probe.Fault}

theorem fails_probed (tabled : s.Tabled) (listens : s.listening? id = some t)
    (phase : t.phase = .probing done ((source, path) :: left))
    (fault : Probe.probe path.text outcome = .error f) :
    s.Fails (s.step (.probed id outcome)) id (probeFailure source f) := by
  obtain ⟨task, -⟩ := listening?_eq_some.mp listens
  have hstep : s.step (.probed id outcome) = s.leave id (some (probeFailure source f)) := by
    simp only [step, listens, phase, takeProbed, fault, job_of_task? task]
  rw [hstep]
  refine fails_leave (fun j hj => ?_) (probeFailure_ne source f)
  rw [tabled.state id t j task hj, phase]
  rfl

end Service

open Service

/-- **A file is either known or at fault, and its fault names its source** unless the outcome of the
probe program is malformed.  A file is known from an answer of the expected shape that tells of a
picture or of sound: its width, its height and its codecs are those of the first stream of each kind.
A malformed outcome is not foreseen, and the job does not say which file it failed for. -/
theorem unreadable_files_named (setup : Setup) (root : Path) (files : FileTree)
    (events : List Event) :
    let s := (Service.begin setup root files).run events
    (∀ path outcome i, Probe.probe path outcome = .ok i ↔ ∃ output errors answer length records,
      outcome = .ran output errors 0 ∧ Json.read output = .ok answer ∧
        Probe.Describes answer length records ∧ i = .ofStreams length records ∧
        (i.hasVideo || i.hasAudio) = true) ∧
    (∀ path outcome f, Probe.probe path outcome = .error f →
      (f.isOfFile = false ↔ Probe.Malformed outcome)) ∧
    ∀ id t done source path left outcome f, s.listening? id = some t →
      t.phase = .probing done ((source, path) :: left) → Probe.probe path.text outcome = .error f →
      (¬ Probe.Malformed outcome → s.Fails (s.step (.probed id outcome)) id
        ("Unreadable media " ++ source.wording ++ ": " ++ f.message)) ∧
      (Probe.Malformed outcome → s.Fails (s.step (.probed id outcome)) id
        ("Internal error: " ++ f.message)) := by
  intro s
  refine ⟨fun path outcome i => Probe.probe_eq_ok_iff, fun path outcome f => Probe.isOfFile_of_probe,
    fun id t done source path left outcome f listens phase fault => ?_⟩
  have hfails := fails_probed (tabled_run setup root files events) listens phase fault
  have hblamed := Probe.isOfFile_of_probe fault
  constructor
  · intro well
    rwa [probeFailure, if_pos (by simpa using mt hblamed.mp well)] at hfails
  · intro malformed
    rwa [probeFailure, if_neg (by simp [hblamed.mpr malformed])] at hfails

namespace Sample

/-- The only file of the film is about to be probed. -/
def fetched : List Event := rendered.take 7

/-- A file with such a wording is about to be probed. -/
def probes (wording : String) : TaskPhase → Bool
  | .probing _ ((source, _) :: _) => source.wording == wording
  | _ => false

/-- The probe program cannot make anything of the file. -/
def unreadable : Probe.Outcome := .ran "" "moov atom not found" 1

/-- It answers with a list. -/
def listed : Probe.Outcome := .ran "[]" "" 0

end Sample

theorem unreadable_files_named_sample :
    let s := Sample.service.run Sample.fetched
    ∃ t done source path left, s.listening? (jobId 1) = some t ∧
      t.phase = .probing done ((source, path) :: left) ∧
      Probe.probe path.text Sample.unreadable = .error (.failed "moov atom not found") ∧
      ¬ Probe.Malformed Sample.unreadable ∧
      s.Fails (s.step (.probed (jobId 1) Sample.unreadable)) (jobId 1)
        "Unreadable media beach.mp4: ffprobe failed: moov atom not found" := by
  intro s
  have hready : (s.listening? (jobId 1)).any (fun t => Sample.probes "beach.mp4" t.phase) = true := by
    decide +kernel
  obtain ⟨t, listens, hphase⟩ := (Option.any_eq_true _ _).mp hready
  unfold Sample.probes at hphase
  split at hphase
  case h_1 done source path left phase =>
    have hwell : ¬ Probe.Malformed Sample.unreadable := by
      rintro ⟨output, errors, h, -⟩
      cases h
    obtain ⟨-, -, hnamed⟩ :=
      unreadable_files_named Sample.setup ["work"] Sample.workRoot Sample.fetched
    have hfails := (hnamed (jobId 1) t done source path left Sample.unreadable
      (.failed "moov atom not found") listens phase rfl).1 hwell
    rw [eq_of_beq hphase] at hfails
    exact ⟨t, done, source, path, left, listens, phase, rfl, hwell, hfails⟩
  case h_2 => cases hphase

/-- A list is JSON, and nobody has foreseen it: the failure of the job does not name the file. -/
theorem list_fails_unnamed :
    Probe.probe "beach.mp4" Sample.listed = .error (.noRecord "list") ∧
    (Probe.Fault.noRecord "list").isOfFile = false ∧
    let s := Sample.service.run (Sample.fetched ++ [.probed (jobId 1) Sample.listed])
    (s.store.find? (jobId 1)).map (fun j => (j.state, j.error)) =
      some (.failed, some "Internal error: 'list' object has no attribute 'get'") :=
  ⟨rfl, rfl, by decide +kernel⟩

end Montage
