import Montage.Asset.Fetch
import Mathlib.Data.List.Basic

/-! # What becomes of a download

What becomes of a download can be told without files.  Beside its own events it depends on what stands
against its part file, if anything does, and on what its upload holds when it is copied: its
`Prospect`.  A `Fate` says how far it has come and what has arrived, and `Fate.step` what an event makes
of that.

A remote file that is stored holds what arrived between the answer and the end of the body
(`bodyOf`, `fateOf_remote`), and a copy holds what the upload held (`fateOf_upload`).
-/
namespace Montage

/-- What a download meets apart from its events. -/
structure Prospect where
  source : MediaSource
  /-- Greatest time for a download. -/
  limit : Problem.Quoted
  /-- What stands against the part file. -/
  obstacle : Option FileFault
  /-- What is found when the upload is copied. -/
  found : Except FetchFault Content

/-- How far a download has come, and what has arrived. -/
inductive Fate where
  | waiting
  | arriving (body : List UInt8)
  | arrived (body : List UInt8)
  | doomed (fault : FetchFault)
  | stored (content : Content)
  | failed (fault : FetchFault)

namespace Fate

def isOver : Fate → Bool
  | stored _ | failed _ => true
  | _ => false

def isOpen : Fate → Bool
  | waiting | arriving _ => true
  | _ => false

variable (p : Prospect)

/-- A part file that cannot be reached cannot be removed either. -/
def fail (fault : FetchFault) : Fate := .failed ((p.obstacle.map FetchFault.cleaning).getD fault)

/-- What is empty is not stored. -/
def settle (c : Content) : Fate := if c.size = 0 then fail p (.empty p.source) else .stored c

def copy : Fate :=
  match p.found, p.obstacle with
  | .error e, _ => fail p e
  | .ok _, some e => fail p (.storing e p.source)
  | .ok c, none => settle p c

def answer (status : Nat) (url : String) : Fate :=
  if status = 404 then .doomed (.missing url)
  else if isSuccess status then
    match p.obstacle with
    | some e => .doomed (.storing e p.source)
    | none => .arriving []
  else .doomed (.status status url)

/-- What an event makes of a fate; nobody gives up. -/
def step (fate : Fate) (e : DownloadEvent) : Fate :=
  if fate.isOver then fate
  else match e with
  | .abandoned => fate
  | .refused e => .doomed (.storing e p.source)
  | .settled =>
    match fate with
    | arrived body => settle p (.raw body)
    | doomed fault => fail p fault
    | _ => fate
  | .copied =>
    match fate, p.source.remote? with
    | waiting, none => copy p
    | _, _ => fate
  | .answered status =>
    match fate, p.source.remote? with
    | waiting, some url => answer p status url
    | _, _ => fate
  | .data piece =>
    match fate with
    | arriving body => arriving (body ++ piece)
    | _ => fate
  | .ended =>
    match fate with
    | arriving body => arrived body
    | _ => fate
  | .timedOut =>
    match fate.isOpen, p.source.remote? with
    | true, some url => doomed (.timedOut p.limit url)
    | _, _ => fate
  | .broken m =>
    match fate.isOpen, p.source.remote? with
    | true, some url => doomed (.broken m url)
    | _, _ => fate
  | .unasked fault =>
    match fate.isOpen, p.source.remote? with
    | true, some _ => doomed (.request fault)
    | _, _ => fate

end Fate

/-- What a download comes to with some events. -/
def fateOf (p : Prospect) (events : List DownloadEvent) : Fate := events.foldl (Fate.step p) .waiting

/-! ### What is stored in the end -/

namespace DownloadEvent

def isAnswer : DownloadEvent → Bool
  | answered _ => true
  | _ => false

/-- What an event brings of a body. -/
def piece : DownloadEvent → List UInt8
  | data piece => piece
  | _ => []

/-- What arrives until the body is complete. -/
def untilEnd (events : List DownloadEvent) : List UInt8 :=
  (events.takeWhile (· != .ended)).flatMap piece

/-- What arrives between the answer and the end of the body. -/
def bodyOf (events : List DownloadEvent) : List UInt8 :=
  untilEnd (events.dropWhile fun e => !e.isAnswer)

end DownloadEvent

open DownloadEvent

namespace Fate
variable {p : Prospect} {c : Content} {events : List DownloadEvent}

theorem step_of_isOver {fate : Fate} (h : fate.isOver = true) (e : DownloadEvent) :
    step p fate e = fate := by
  unfold step
  exact if_pos h

theorem fold_of_isOver {fate : Fate} (h : fate.isOver = true) (events : List DownloadEvent) :
    events.foldl (step p) fate = fate := by
  induction events with
  | nil => rfl
  | cons e rest ih => rw [List.foldl_cons, step_of_isOver h, ih]

theorem step_copied (upload : p.source.remote? = none) : step p .waiting .copied = copy p := by
  unfold step
  rw [upload]
  rfl

theorem step_copied_of_remote {url : String} (remote : p.source.remote? = some url) :
    step p .waiting .copied = .waiting := by
  unfold step
  rw [remote]
  rfl

theorem step_answered {url : String} (remote : p.source.remote? = some url) (status : Nat) :
    step p .waiting (.answered status) = answer p status url := by
  unfold step
  rw [remote]
  rfl

/-- A download that has failed stores nothing any more. -/
theorem fold_fail_ne (fault : FetchFault) (events : List DownloadEvent) :
    events.foldl (step p) (fail p fault) ≠ .stored c := by
  rw [fold_of_isOver rfl, fail]
  exact Fate.noConfusion

/-- Nor does one that will fail. -/
theorem fold_doomed_ne (fault : FetchFault) (events : List DownloadEvent) :
    events.foldl (step p) (.doomed fault) ≠ .stored c := by
  induction events generalizing fault with
  | nil => exact Fate.noConfusion
  | cons e rest ih =>
    cases e with
    | settled => exact fold_fail_ne fault rest
    | refused e => exact ih (.storing e p.source)
    | _ => exact ih fault

/-- What was settled is what is stored. -/
theorem fold_settle {body : Content} (h : events.foldl (step p) (settle p body) = .stored c) :
    c = body := by
  rw [settle] at h
  split at h
  · exact absurd h (fold_fail_ne _ events)
  · rw [fold_of_isOver rfl] at h
    cases h
    rfl

theorem fold_arrived {body : List UInt8} (h : events.foldl (step p) (.arrived body) = .stored c) :
    c = .raw body := by
  induction events with
  | nil => cases h
  | cons e rest ih =>
    cases e with
    | settled => exact fold_settle h
    | refused e => exact absurd h (fold_doomed_ne (.storing e p.source) rest)
    | _ => exact ih h

variable {url : String}

/-- What goes wrong while a body arrives dooms the download. -/
theorem fold_broken_off (remote : p.source.remote? = some url) {fate : Fate}
    (h : fate.isOpen = true) {e : DownloadEvent}
    (wrong : e = .timedOut ∨ (∃ m, e = .broken m) ∨ ∃ f, e = .unasked f) :
    (e :: events).foldl (step p) fate ≠ .stored c := by
  have hlive : fate.isOver = false := by
    cases fate with
    | waiting | arriving _ => rfl
    | _ => cases h
  have hdoomed : ∃ fault, step p fate e = .doomed fault := by
    rcases wrong with rfl | ⟨m, rfl⟩ | ⟨f, rfl⟩
    · exact ⟨.timedOut p.limit url, by unfold step; rw [hlive, h, remote]; rfl⟩
    · exact ⟨.broken m url, by unfold step; rw [hlive, h, remote]; rfl⟩
    · exact ⟨.request f, by unfold step; rw [hlive, h, remote]; rfl⟩
  obtain ⟨fault, hfault⟩ := hdoomed
  rw [List.foldl_cons, hfault]
  exact fold_doomed_ne fault events

theorem fold_arriving (remote : p.source.remote? = some url) {body : List UInt8}
    (h : events.foldl (step p) (.arriving body) = .stored c) :
    c = .raw (body ++ untilEnd events) := by
  induction events generalizing body with
  | nil => cases h
  | cons e rest ih =>
    cases e with
    | ended =>
      have hend : untilEnd (.ended :: rest) = [] := rfl
      rw [fold_arrived h, hend, List.append_nil]
    | data piece =>
      have hdata : untilEnd (.data piece :: rest) = piece ++ untilEnd rest := rfl
      rw [ih h, hdata, List.append_assoc]
    | timedOut => exact absurd h (fold_broken_off remote rfl (Or.inl rfl))
    | broken m => exact absurd h (fold_broken_off remote rfl (Or.inr (Or.inl ⟨m, rfl⟩)))
    | unasked f => exact absurd h (fold_broken_off remote rfl (Or.inr (Or.inr ⟨f, rfl⟩)))
    | refused e => exact absurd h (fold_doomed_ne (.storing e p.source) rest)
    | answered _ | copied | settled | abandoned => exact ih h

theorem settle_ne_waiting (c : Content) : settle p c ≠ .waiting := by
  rw [settle]
  split <;> exact Fate.noConfusion

theorem copy_isOver : (copy p).isOver = true := by
  rw [copy]
  split
  · rfl
  · rfl
  · rw [settle]
    split <;> rfl

theorem copy_ne_waiting : copy p ≠ .waiting := by
  intro h
  have hover := copy_isOver (p := p)
  rw [h] at hover
  cases hover

/-- Nobody waits again. -/
theorem step_ne_waiting {fate : Fate} (h : fate ≠ .waiting) (e : DownloadEvent) :
    step p fate e ≠ .waiting := by
  cases fate with
  | waiting => exact absurd rfl h
  | stored _ | failed _ => rwa [step_of_isOver rfl]
  | arrived body =>
    cases e with
    | settled => exact settle_ne_waiting _
    | _ => exact Fate.noConfusion
  | doomed fault => cases e <;> exact Fate.noConfusion
  | arriving body =>
    cases e with
    | timedOut | broken _ | unasked _ =>
      unfold step
      cases p.source.remote? <;> exact Fate.noConfusion
    | _ => exact Fate.noConfusion

/-- A copy is over with its event. -/
theorem fold_ne_waiting (upload : p.source.remote? = none) (copied : .copied ∈ events) (fate : Fate) :
    events.foldl (step p) fate ≠ .waiting := by
  have hstays (rest : List DownloadEvent) {fate : Fate} (h : fate ≠ .waiting) :
      rest.foldl (step p) fate ≠ .waiting := by
    induction rest generalizing fate with
    | nil => exact h
    | cons e rest ih => exact ih (step_ne_waiting h e)
  obtain ⟨before, after, rfl⟩ := List.append_of_mem copied
  rw [List.foldl_append, List.foldl_cons]
  refine hstays after ?_
  by_cases hwaiting : before.foldl (step p) fate = .waiting
  · rw [hwaiting, step_copied upload]
    exact copy_ne_waiting
  · exact step_ne_waiting hwaiting .copied

/-- What would be found matters to a copy only, and only once. -/
theorem step_found {fate : Fate} {e : DownloadEvent} (found : Except FetchFault Content)
    (h : e = .copied → p.source.remote? = none → fate ≠ .waiting) :
    step { p with found } fate e = step p fate e := by
  cases e with
  | copied =>
    cases fate with
    | waiting =>
      cases hremote : p.source.remote? with
      | none => exact absurd rfl (h rfl hremote)
      | some url =>
        have hfound : step { p with found } .waiting .copied = .waiting :=
          step_copied_of_remote hremote
        rw [hfound, step_copied_of_remote hremote]
    | _ => rfl
  | _ => rfl

/-- **A remote file that is stored holds what arrived between the answer and the end of the body.** -/
theorem fateOf_remote (remote : p.source.remote? = some url) (h : fateOf p events = .stored c) :
    c = .raw (bodyOf events) := by
  rw [fateOf] at h
  induction events with
  | nil => cases h
  | cons e rest ih =>
    cases e with
    | answered status =>
      have hbody : bodyOf (.answered status :: rest) = untilEnd rest := rfl
      rw [List.foldl_cons, step_answered remote, answer] at h
      split at h
      · exact absurd h (fold_doomed_ne _ rest)
      · split at h
        · split at h
          · exact absurd h (fold_doomed_ne _ rest)
          · rw [hbody, fold_arriving remote h, List.nil_append]
        · exact absurd h (fold_doomed_ne _ rest)
    | copied =>
      rw [List.foldl_cons, step_copied_of_remote remote] at h
      exact ih h
    | timedOut => exact absurd h (fold_broken_off remote rfl (Or.inl rfl))
    | broken m => exact absurd h (fold_broken_off remote rfl (Or.inr (Or.inl ⟨m, rfl⟩)))
    | unasked f => exact absurd h (fold_broken_off remote rfl (Or.inr (Or.inr ⟨f, rfl⟩)))
    | refused e => exact absurd h (fold_doomed_ne (.storing e p.source) rest)
    | data _ | ended | settled | abandoned => exact ih h

/-- No server has a say in a copy. -/
theorem step_waiting (upload : p.source.remote? = none) {e : DownloadEvent} (hcopied : e ≠ .copied)
    (hrefused : ∀ f, e ≠ .refused f) : step p .waiting e = .waiting := by
  cases e with
  | copied => exact absurd rfl hcopied
  | refused f => exact absurd rfl (hrefused f)
  | data _ | ended | settled | abandoned => rfl
  | _ =>
    unfold step
    rw [upload]
    rfl

/-- **An upload that is stored was copied, and what is stored was found then.** -/
theorem fateOf_upload (upload : p.source.remote? = none) (h : fateOf p events = .stored c) :
    .copied ∈ events ∧ p.found = .ok c := by
  rw [fateOf] at h
  induction events with
  | nil => cases h
  | cons e rest ih =>
    by_cases hcopied : e = .copied
    · subst hcopied
      refine ⟨List.mem_cons_self, ?_⟩
      rw [List.foldl_cons, step_copied upload, copy] at h
      split at h
      · exact absurd h (fold_fail_ne _ rest)
      · exact absurd h (fold_fail_ne _ rest)
      · rename_i body hfound _
        rw [hfound, fold_settle h]
    by_cases hrefused : ∃ f, e = .refused f
    · obtain ⟨f, rfl⟩ := hrefused
      exact absurd h (fold_doomed_ne (.storing f p.source) rest)
    · rw [List.foldl_cons, step_waiting upload hcopied (not_exists.mp hrefused)] at h
      exact (ih h).imp_left (List.mem_cons_of_mem e)

/-- **Unless the disk refuses, an upload waits or has come to what its copy comes to.** -/
theorem fateOf_copy (upload : p.source.remote? = none) (taken : ∀ f, .refused f ∉ events) :
    fateOf p events = .waiting ∨ fateOf p events = copy p := by
  rw [fateOf]
  induction events with
  | nil => exact Or.inl rfl
  | cons e rest ih =>
    by_cases hcopied : e = .copied
    · subst hcopied
      rw [List.foldl_cons, step_copied upload]
      exact Or.inr (fold_of_isOver copy_isOver rest)
    have hrefused (f : FileFault) : e ≠ .refused f := fun h => taken f (h ▸ List.mem_cons_self)
    rw [List.foldl_cons, step_waiting upload hcopied hrefused]
    exact ih fun f hf => taken f (List.mem_cons_of_mem e hf)

end Fate

section Found
variable {p : Prospect} {events : List DownloadEvent}

/-- As long as nothing is copied it does not matter what would be found. -/
theorem fateOf_congr (uncopied : .copied ∉ events) (found : Except FetchFault Content) :
    fateOf { p with found } events = fateOf p events := by
  rw [fateOf, fateOf]
  refine List.foldl_ext _ _ .waiting fun fate e he => Fate.step_found found fun hcopied => ?_
  exact absurd (hcopied ▸ he) uncopied

/-- Nor does it matter to a remote file. -/
theorem fateOf_congr_of_remote {url : String} (remote : p.source.remote? = some url)
    (found : Except FetchFault Content) : fateOf { p with found } events = fateOf p events := by
  rw [fateOf, fateOf]
  refine List.foldl_ext _ _ .waiting fun fate e _ => Fate.step_found found fun _ upload => ?_
  rw [remote] at upload
  cases upload

end Found
end Montage
