import Montage.Proofs.Verdicts

/-! # The id of a job in its texts

A path of a job has the id of the job in it, and so has what is said of the path, quoted or not.  Only two
failures speak of a path: that of a download whose part file cannot stand, and that of a probe that has
found no stream.
-/
namespace Montage

open FileTree Path

namespace Text

/-- The characters of a plain text are seen. -/
theorem isPrintable_of_visible {c : Char} (low : 32 ≤ c.toNat) (high : c.toNat < 127) :
    isPrintable c = true := by
  have hranges : ∀ r ∈ unprintableRanges, r.2 < 32 ∨ 127 ≤ r.1 := by decide +kernel
  rw [isPrintable, Bool.not_eq_true', List.any_eq_false]
  intro r hr
  rcases hranges r hr with hlow | hhigh
  · simp only [Bool.and_eq_true, decide_eq_true_eq, not_and]
    omega
  · simp only [Bool.and_eq_true, decide_eq_true_eq, not_and]
    omega

theorem toNat_of_hexDigit {c : Char} (h : (hexDigit? c).isSome = true) :
    48 ≤ c.toNat ∧ c.toNat < 58 ∨ 97 ≤ c.toNat ∧ c.toNat < 103 ∨ 65 ≤ c.toNat ∧ c.toNat < 71 := by
  have hle (a b : Char) : a ≤ b ↔ a.toNat ≤ b.toNat := Iff.rfl
  simp only [hexDigit?, hle] at h
  have hzero : '0'.toNat = 48 := rfl
  have hnine : '9'.toNat = 57 := rfl
  have ha : 'a'.toNat = 97 := rfl
  have hf : 'f'.toNat = 102 := rfl
  have hA : 'A'.toNat = 65 := rfl
  have hF : 'F'.toNat = 70 := rfl
  split at h
  · omega
  · split at h
    · omega
    · split at h
      · omega
      · cases h

/-- Quoting leaves digits as they are. -/
theorem quotedChar_of_hexDigit {c quote : Char} (h : (hexDigit? c).isSome = true)
    (hquote : quote.toNat < 48) : quotedChar quote c = [c] := by
  have hrange := toNat_of_hexDigit h
  have hne {d : Char} (hd : c.toNat ≠ d.toNat) : c ≠ d := fun heq => hd (congrArg Char.toNat heq)
  have hself : c ≠ quote := hne (by omega)
  have hback : c ≠ '\\' := hne (by have : '\\'.toNat = 92 := rfl; omega)
  have hline : c ≠ '\n' := hne (by have : '\n'.toNat = 10 := rfl; omega)
  have hreturn : c ≠ '\r' := hne (by have : '\r'.toNat = 13 := rfl; omega)
  have htab : c ≠ '\t' := hne (by have : '\t'.toNat = 9 := rfl; omega)
  simp [quotedChar, hself, hback, hline, hreturn, htab,
    isPrintable_of_visible (c := c) (by omega) (by omega)]

/-- What is quoted around an id is quoted without it. -/
theorem quoted_around (before after : String) (n : Nat) :
    quoted (before ++ jobId n ++ after) =
      (quotedAround before after).1 ++ jobId n ++ (quotedAround before after).2 := by
  have hdigit {c : Char} (hc : c ∈ (jobId n).toList) : (hexDigit? c).isSome = true := by
    by_contra hnone
    exact not_mem_jobId (by simpa using hnone) n hc
  have hsame {quote : Char} (hquote : quote.toNat < 48) :
      (jobId n).toList.flatMap (quotedChar quote) = (jobId n).toList := by
    have hchars : ∀ c ∈ (jobId n).toList, quotedChar quote c = [c] := fun c hc =>
      quotedChar_of_hexDigit (hdigit hc) hquote
    rw [List.flatMap_congr hchars]
    simp
  have hcontains {c : Char} (hc : hexDigit? c = none) :
      (before ++ jobId n ++ after).toList.contains c =
        (before.toList ++ after.toList).contains c := by
    have := not_mem_jobId hc n
    simp [this]
  have hsingle := hcontains (c := '\'') (by decide)
  have hdouble := hcontains (c := '"') (by decide)
  rw [quoted, quotedAround]
  simp only [hsingle, hdouble]
  generalize hq : (if ((before.toList ++ after.toList).contains '\'' &&
    !(before.toList ++ after.toList).contains '"') = true then '"' else '\'') = quote
  have hquote : quote.toNat < 48 := by
    rw [← hq]
    split <;> decide
  rw [← String.toList_inj]
  simp [hsame hquote]

end Text

/-- The id of a job stands in the paths below its directory. -/
theorem Brief.text_around (b : Brief) (id : JobId) (path : Path) :
    Path.text (b.root ++ [id] ++ path) = (b.around path).1 ++ id ++ (b.around path).2 := by
  have hlast (root : Path) : Path.text (root ++ [id] ++ path) =
      Path.text (root ++ [""]) ++ Path.text (id :: path) := by
    rw [← String.toList_inj]
    induction root with
    | nil => simp [Path.text]
    | cons name rest ih =>
      cases rest <;> simp_all [Path.text, String.toList_intercalate]
  have hfirst : Path.text (id :: path) = id ++ Path.text ("" :: path) := by
    rw [← String.toList_inj]
    cases path <;> simp [Path.text, String.toList_intercalate]
  rw [hlast, hfirst, Brief.around, String.append_assoc]

namespace Brief
variable (b : Brief) {n : Nat}

theorem text_partFailure (c : FileCause) (part : Path) :
    (b.partFailure c part).text (jobId n) =
      fetchFailure (.cleaning (.at c (b.root ++ [jobId n] ++ part))) := by
  have hquoted : Text.quoted (Path.text (b.root ++ [jobId n] ++ part)) =
      (Text.quotedAround (b.around part).1 (b.around part).2).1 ++ jobId n ++
        (Text.quotedAround (b.around part).1 (b.around part).2).2 := by
    rw [b.text_around, Text.quoted_around]
  cases c <;> simp only [partFailure, Wording.text, fetchFailure, FetchFault.problem?,
    FetchFault.message, FileFault.message, unforeseen, hquoted, String.append_assoc]

/-- The path of a file without streams is told. -/
theorem text_probeFailure_noStream (source : MediaSource) (path : Path) (id : JobId) (p : String) :
    (b.probeFailure source path (.noStream p)).text id =
      Montage.probeFailure source (.noStream (Path.text (b.root ++ [id] ++ path))) := by
  have hnoStream (p : String) : Montage.probeFailure source (.noStream p) =
      "Unreadable media " ++ source.wording ++ ": " ++
        ("No audio or video stream found in: " ++ p) := rfl
  rw [b.text_around, hnoStream]
  change Montage.probeFailure source (.noStream (b.around path).1) ++ id ++ (b.around path).2 = _
  rw [hnoStream]
  simp only [String.append_assoc]

section Probe
open Probe

theorem duration_ne_noStream (v : Json) (path : String) : duration v ≠ .error (.noStream path) := by
  have hlength (v : Json) : lengthOf v ≠ .error (.noStream path) := by
    unfold lengthOf
    repeat' split
    all_goals exact fun h => by cases h
  unfold duration
  repeat' split
  all_goals first | exact hlength _ | exact fun h => by cases h

theorem streamsOf_ne_noStream (v : Json) (path : String) : streamsOf v ≠ .error (.noStream path) := by
  unfold streamsOf
  split <;> exact fun h => by cases h

theorem addStreams_ne_noStream (info : MediaInfo) (streams : List Json) (path : String) :
    info.addStreams streams ≠ .error (.noStream path) := by
  induction streams generalizing info with
  | nil => exact fun h => by cases h
  | cons v rest ih =>
    rw [MediaInfo.addStreams]
    split
    · rename_i f hfault
      rintro ⟨⟩
      unfold MediaInfo.addStream at hfault
      repeat' split at hfault
      all_goals cases hfault
    · exact ih _

/-- Only of a file without streams the path is told. -/
theorem probe_path (path : String) (outcome : Probe.Outcome) :
    Probe.probe path outcome = match Probe.probe "" outcome with
      | .ok info => .ok info
      | .error (.noStream _) => .error (.noStream path)
      | .error f => .error f := by
  cases outcome with
  | notFound program => rfl
  | ran output errors code =>
    unfold Probe.probe
    by_cases hcode : code ≠ 0
    · simp only [if_pos hcode]
    · simp only [if_neg hcode]
      cases Json.read output with
      | error f => rfl
      | ok answer =>
        dsimp only
        unfold Probe.read
        cases answer with
        | obj fields =>
          simp only [bind, Except.bind]
          cases hduration : duration ((Json.lookup "format" fields).getD (.obj [])) with
          | error f =>
            cases f with
            | noStream p => exact absurd hduration (duration_ne_noStream _ p)
            | _ => rfl
          | ok length =>
            cases hstreams : streamsOf ((Json.lookup "streams" fields).getD (.arr [])) with
            | error f =>
              cases f with
              | noStream p => exact absurd hstreams (streamsOf_ne_noStream _ p)
              | _ => rfl
            | ok streams =>
              cases hinfo : MediaInfo.addStreams ⟨length, .null, .null, .null, .null, false, false⟩
                streams with
              | error f =>
                cases f with
                | noStream p => exact absurd hinfo (addStreams_ne_noStream _ _ p)
                | _ => simp only [hinfo]
              | ok info => cases hfound : info.hasVideo || info.hasAudio <;> simp [hinfo, hfound]
        | _ => rfl

end Probe

end Brief
end Montage
