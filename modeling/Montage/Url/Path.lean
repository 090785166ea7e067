/-! # Paths of URLs

A path is a list of parts with slashes between them.  The part `.` stands for the place where
it is, and `..` leads out of the part before it, but never out of the beginning of the path.
`straight` gives the path without them.
-/
namespace Montage.Url

/-- Walks through the parts of a path; `done` holds the last part first.  The empty part in front
of the first slash stays. -/
def walkParts (done : List (List Char)) : List (List Char) → List (List Char)
  | [] => done.reverse
  | part :: rest =>
    if part = ['.'] then walkParts done rest
    else if part = ['.', '.'] then walkParts (if done = [[]] then done else done.drop 1) rest
    else walkParts (part :: done) rest

/-- The path without `.` and `..`. -/
def straight (path : List Char) : List Char :=
  ['/'].intercalate (walkParts [] (path.splitOn '/'))

/-- Walking leaves no part behind that leads elsewhere. -/
theorem mem_walkParts {done parts : List (List Char)} {p : List Char}
    (h : ∀ q ∈ done, q ≠ ['.'] ∧ q ≠ ['.', '.']) (hp : p ∈ walkParts done parts) :
    p ≠ ['.'] ∧ p ≠ ['.', '.'] := by
  induction parts generalizing done with
  | nil => exact h p (by simpa [walkParts] using hp)
  | cons part rest ih =>
    rw [walkParts] at hp
    split at hp
    · exact ih h hp
    split at hp
    · refine ih (fun q hq => ?_) hp
      split at hq
      · exact h q hq
      · exact h q (List.mem_of_mem_drop hq)
    · refine ih (fun q hq => ?_) hp
      rcases List.mem_cons.mp hq with rfl | hq
      · exact ⟨by assumption, by assumption⟩
      · exact h q hq

end Montage.Url
