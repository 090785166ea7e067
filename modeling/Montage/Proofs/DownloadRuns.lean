import Montage.Proofs.DownloadSchedules

/-! # Downloads come to their end

In a network the downloads are played in rounds, and each round is a schedule (`Downloads.round_after`), so the
whole run is one (`Downloads.run_after`).  After the first round no upload is left to be copied, and
the last one brings every other download to its end (`Downloads.run_areOver`).
-/
namespace Montage

open DownloadEvent

namespace Download
variable {d : Download} {f : Fetcher}

/-- A download after some events. -/
def plays (d : Download) (f : Fetcher) (t : FileTree) (events : List DownloadEvent) :
    Download × FileTree :=
  events.foldl (fun s e => s.1.step f s.2 e) (d, t)

theorem fail_isOver (d : Download) (t : FileTree) (fault : FetchFault) :
    (d.fail t fault).1.phase.isOver = true := by
  rw [fail]
  split <;> rfl

theorem settle_isOver (d : Download) (t : FileTree) (size : Nat) :
    (d.settle t size).1.phase.isOver = true := by
  rw [settle]
  split
  · exact fail_isOver d t _
  · split
    · rfl
    · exact fail_isOver d t _

theorem copy_isOver (d : Download) (f : Fetcher) (t : FileTree) :
    (d.copy f t).1.phase.isOver = true := by
  rw [copy]
  split
  · exact fail_isOver d t _
  · split
    · exact fail_isOver d t _
    · split
      · exact fail_isOver d t _
      · exact settle_isOver d _ _

theorem fail_source (d : Download) (t : FileTree) (fault : FetchFault) :
    (d.fail t fault).1.source = d.source := by
  rw [fail]
  split <;> rfl

theorem settle_source (d : Download) (t : FileTree) (size : Nat) :
    (d.settle t size).1.source = d.source := by
  rw [settle]
  split
  · exact fail_source d t _
  · split
    · rfl
    · exact fail_source d t _

theorem begin_source (d : Download) (t : FileTree) (status : Nat) (url : String) :
    (d.begin t status url).1.source = d.source := by
  rw [begin, receive]
  split
  · rfl
  · split
    · split <;> rfl
    · rfl

/-- Nothing that happens to a download of a remote file makes it one of an upload. -/
theorem step_remote {url : String} (remote : d.source.remote? = some url) (t : FileTree)
    (e : DownloadEvent) : (d.step f t e).1.source = d.source := by
  unfold step
  split
  · rfl
  · cases e with
    | settled =>
      cases d.phase with
      | received size => exact settle_source d t size
      | doomed fault => exact fail_source d t fault
      | _ => rfl
    | answered status =>
      cases d.phase with
      | waiting =>
        simp only [remote]
        exact begin_source d t status url
      | _ => rfl
    | copied => cases d.phase <;> simp only [remote]
    | timedOut | broken _ | unasked _ => cases d.phase.isOpen <;> simp only [remote, doom]
    | data _ | ended => cases d.phase <;> rfl
    | _ => rfl

/-- It is no upload that is still to be copied. -/
def NoUploadLeft (d : Download) : Prop := d.source.remote? = none → d.phase.isOver = true

theorem NoUploadLeft.plays (h : NoUploadLeft d) (t : FileTree) (events : List DownloadEvent) :
    NoUploadLeft (d.plays f t events).1 := by
  induction events generalizing d t with
  | nil => exact h
  | cons e rest ih =>
    refine ih (d := (d.step f t e).1) ?_ (d.step f t e).2
    cases hremote : d.source.remote? with
    | none =>
      rw [step_of_isOver (h hremote)]
      exact h
    | some url =>
      intro hnone
      rw [step_remote hremote, hremote] at hnone
      cases hnone

/-- In the first round uploads are copied. -/
theorem noUploadLeft_uploadEvents (waiting : d.phase = .waiting) (t : FileTree) :
    NoUploadLeft (d.plays f t (Downloads.uploadEvents d)).1 := by
  cases hremote : d.source.remote? with
  | none =>
    have hevents : Downloads.uploadEvents d = [.copied] := by
      simp only [Downloads.uploadEvents, waiting, hremote]
    have hcopy : d.step f t .copied = d.copy f t := by
      simp only [step, waiting, hremote]
      rfl
    intro _
    simp only [hevents, Download.plays, List.foldl_cons, List.foldl_nil, hcopy]
    exact copy_isOver d f t
  | some url =>
    refine NoUploadLeft.plays (fun hnone => ?_) t _
    rw [hremote] at hnone
    cases hnone

/-- Whoever is asked without an answer meets the limit. -/
theorem step_timedOut {url : String} (remote : d.source.remote? = some url)
    (asked : d.phase.isOpen = true) (t : FileTree) :
    d.step f t .timedOut = (d.doom (.timedOut f.limit url), t) := by
  have hlive : ¬ d.phase.isOver = true := by
    intro hover
    cases hphase : d.phase <;> rw [hphase] at hover asked <;> cases hover <;> cases asked
  simp only [step, if_neg hlive, asked, remote]

/-- In the last round all come to their end. -/
theorem plays_timedOut_settled (h : NoUploadLeft d) (t : FileTree) :
    (d.plays f t [.timedOut, .settled]).1.phase.isOver = true := by
  have hplays : d.plays f t [.timedOut, .settled] =
      (d.step f t .timedOut).1.step f (d.step f t .timedOut).2 .settled := rfl
  by_cases hover : d.phase.isOver = true
  · rw [hplays, step_of_isOver hover, step_of_isOver hover, hover]
  obtain ⟨url, hremote⟩ : ∃ url, d.source.remote? = some url :=
    Option.ne_none_iff_exists'.mp fun hnone => hover (h hnone)
  rw [hplays]
  by_cases hopen : d.phase.isOpen = true
  · rw [step_timedOut hremote hopen]
    exact fail_isOver _ t _
  obtain ⟨source, target, phase⟩ := d
  cases phase with
  | stored | failed _ | abandoned => exact absurd rfl hover
  | waiting | receiving _ _ => exact absurd rfl hopen
  | received size => exact settle_isOver _ t size
  | doomed fault => exact fail_isOver _ t fault

end Download

namespace Downloads
variable {f : Fetcher} {ds : Downloads}

/-! ### Rounds are schedules -/

theorem play_after (ds : Downloads) (f : Fetcher) (t : FileTree) (i : Nat)
    (events : List DownloadEvent) :
    ds.play f t i events = ds.after f t (events.map fun e => (i, e)) := by
  induction events generalizing ds t with
  | nil => rfl
  | cons e rest ih => exact ih _ _

variable {events : Download → List DownloadEvent}

section Kinds
variable {kind : DownloadEvent → Prop}

theorem round_after (kinds : ∀ d, ∀ e ∈ events d, kind e) (left : Nat) (ds : Downloads)
    (t : FileTree) (i : Nat) : ∃ schedule : Schedule, (∀ e ∈ schedule, kind e.2) ∧
      round events f ds t i left = ds.after f t schedule := by
  induction left generalizing ds t i with
  | zero => exact ⟨[], fun e he => absurd he List.not_mem_nil, rfl⟩
  | succ left ih =>
    have hturn : ∀ e ∈ ((ds[i]?.map events).getD []).map (fun e => (i, e)), kind e.2 := by
      intro e he
      obtain ⟨own, hown, rfl⟩ := List.mem_map.mp he
      cases hd : ds[i]? with
      | none =>
        rw [hd] at hown
        exact absurd hown List.not_mem_nil
      | some d =>
        rw [hd] at hown
        exact kinds d own hown
    obtain ⟨rest, hrest, hround⟩ := ih (ds.play f t i ((ds[i]?.map events).getD [])).1
      (ds.play f t i ((ds[i]?.map events).getD [])).2 (i + 1)
    refine ⟨_ ++ rest, fun e he => (List.mem_append.mp he).elim (hturn e) (hrest e), ?_⟩
    rw [after_append, ← play_after]
    exact hround

/-- A whole round. -/
def played (f : Fetcher) (s : Downloads × FileTree) (events : Download → List DownloadEvent) :
    Downloads × FileTree := round events f s.1 s.2 0 s.1.length

theorem rounds_after {rounds : List (Download → List DownloadEvent)}
    (kinds : ∀ events ∈ rounds, ∀ d, ∀ e ∈ events d, kind e) (ds : Downloads) (t : FileTree) :
    ∃ schedule : Schedule, (∀ e ∈ schedule, kind e.2) ∧
      rounds.foldl (played f) (ds, t) = ds.after f t schedule := by
  induction rounds generalizing ds t with
  | nil => exact ⟨[], fun e he => absurd he List.not_mem_nil, rfl⟩
  | cons events rest ih =>
    obtain ⟨first, hfirst, hround⟩ :=
      round_after (f := f) (kinds events List.mem_cons_self) ds.length ds t 0
    obtain ⟨others, hothers, hrest⟩ := ih (fun events he => kinds events (List.mem_cons_of_mem _ he))
      (ds.after f t first).1 (ds.after f t first).2
    refine ⟨first ++ others, fun e he => (List.mem_append.mp he).elim (hfirst e) (hothers e), ?_⟩
    rw [after_append, ← hrest, ← hround]
    rfl

end Kinds

/-- An event is no doing of the disk, nor of someone who gives up. -/
def Undisturbed (e : DownloadEvent) : Prop := e ≠ .abandoned ∧ ∀ fault, e ≠ .refused fault

theorem undisturbed_rounds (network : Network) (f : Fetcher) :
    ∀ events ∈ rounds network f, ∀ d, ∀ e ∈ events d, Undisturbed e := by
  intro events hevents d
  rw [rounds] at hevents
  simp only [List.mem_cons, List.not_mem_nil, or_false] at hevents
  rcases hevents with rfl | rfl | rfl | rfl
  · rw [uploadEvents]
    split <;> simp [Undisturbed]
  · rw [remoteEvents]
    split
    · split
      · simp [Undisturbed]
      · unfold eventsOfAnswer
        split <;> simp [Undisturbed]
    · simp
  · rw [finalEvents]
    split <;> simp [Undisturbed]
  · simp [Undisturbed]

/-- **A run in a network is a schedule** in which nothing is given up and the disk takes everything. -/
theorem run_undisturbed (network : Network) (f : Fetcher) (ds : Downloads) (t : FileTree) :
    ∃ schedule : Schedule, (∀ e ∈ schedule, Undisturbed e.2) ∧
      ds.run network f t = ds.after f t schedule :=
  rounds_after (undisturbed_rounds network f) ds t

theorem run_after (network : Network) (f : Fetcher) (ds : Downloads) (t : FileTree) :
    ∃ schedule : Schedule, (∀ e ∈ schedule, e.2 ≠ .abandoned) ∧
      ds.run network f t = ds.after f t schedule := by
  obtain ⟨schedule, hundisturbed, hrun⟩ := run_undisturbed network f ds t
  exact ⟨schedule, fun e he => (hundisturbed e he).1, hrun⟩

/-! ### The end of a run -/

theorem play_eq {i : Nat} {d : Download} (h : ds[i]? = some d) (t : FileTree)
    (events : List DownloadEvent) :
    ds.play f t i events = (ds.set i (d.plays f t events).1, (d.plays f t events).2) := by
  induction events generalizing ds d t with
  | nil =>
    obtain ⟨hi, rfl⟩ := List.getElem?_eq_some_iff.mp h
    exact congrArg (·, t) (List.set_getElem_self hi).symm
  | cons e rest ih =>
    have hi : i < ds.length := (List.getElem?_eq_some_iff.mp h).1
    have hset : (ds.set i (d.step f t e).1)[i]? = some (d.step f t e).1 := List.getElem?_set_self hi
    have hnext := ih hset (d.step f t e).2
    rw [List.set_set] at hnext
    rw [play, step_of_some h]
    exact hnext

/-- What the turn of each download brings about, a round brings about for all of them. -/
theorem round_forall {P Q : Download → Prop}
    (turn : ∀ d t, P d → Q (d.plays f t (events d)).1) (left : Nat) (ds : Downloads) (t : FileTree)
    (i : Nat) (length : i + left = ds.length)
    (each : ∀ j d, ds[j]? = some d → j < i ∧ Q d ∨ i ≤ j ∧ P d) :
    ∀ d ∈ (round events f ds t i left).1, Q d := by
  induction left generalizing ds t i with
  | zero =>
    intro d hd
    obtain ⟨j, hj⟩ := List.mem_iff_getElem?.mp hd
    have hlt : j < ds.length := (List.getElem?_eq_some_iff.mp hj).1
    rcases each j d hj with ⟨-, hd⟩ | ⟨hle, -⟩
    · exact hd
    · omega
  | succ left ih =>
    have hi : i < ds.length := by omega
    have hsome : ds[i]? = some ds[i] := List.getElem?_eq_getElem hi
    have hturn : P ds[i] := by
      rcases each i _ hsome with ⟨hlt, -⟩ | ⟨-, hp⟩
      · exact absurd hlt (Nat.lt_irrefl i)
      · exact hp
    rw [round, hsome, play_eq hsome]
    refine ih _ _ (i + 1) (by rw [List.length_set]; omega) fun j d hj => ?_
    by_cases hsame : i = j
    · subst hsame
      rw [List.getElem?_set_self hi] at hj
      cases hj
      exact Or.inl ⟨Nat.lt_succ_self i, turn _ t hturn⟩
    · rw [List.getElem?_set_ne hsame] at hj
      rcases each j d hj with ⟨hlt, hq⟩ | ⟨hle, hp⟩
      · exact Or.inl ⟨Nat.lt_succ_of_lt hlt, hq⟩
      · exact Or.inr ⟨by omega, hp⟩

theorem played_forall {P Q : Download → Prop}
    (turn : ∀ d t, P d → Q (d.plays f t (events d)).1) {s : Downloads × FileTree}
    (each : ∀ d ∈ s.1, P d) : ∀ d ∈ (played f s events).1, Q d :=
  round_forall turn s.1.length s.1 s.2 0 (Nat.zero_add _) fun j d hj =>
    Or.inr ⟨Nat.zero_le j, each d (List.mem_of_getElem? hj)⟩

/-- **Every run comes to its end.** -/
theorem run_areOver (network : Network) (f : Fetcher) (items : List (MediaSource × Path))
    (t : FileTree) : ((begin items).run network f t).1.areOver = true := by
  have hwaiting : ∀ d ∈ begin items, d.phase = .waiting := by
    intro d hd
    obtain ⟨item, -, rfl⟩ := List.mem_map.mp hd
    rfl
  have hkept (events : Download → List DownloadEvent) (d : Download) (t : FileTree)
      (h : d.NoUploadLeft) : Download.NoUploadLeft (d.plays f t (events d)).1 := h.plays t _
  have huploads : ∀ d ∈ (played f (begin items, t) uploadEvents).1, d.NoUploadLeft :=
    played_forall (fun d t waiting => Download.noUploadLeft_uploadEvents waiting t) hwaiting
  have hfinals := played_forall (hkept finalEvents)
    (played_forall (hkept (remoteEvents network f)) huploads)
  exact List.all_eq_true.mpr
    (played_forall (fun d t h => Download.plays_timedOut_settled h t) hfinals)

end Downloads
end Montage
