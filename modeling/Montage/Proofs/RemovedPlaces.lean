import Montage.Proofs.PlaceWatch
import Montage.Proofs.Removals
import Montage.Proofs.SetAside

/-! # Where a removed job was

A job has a directory as long as it is there.  When a call removes the job its directory stands aside
until the call clears it away, and then nothing is left of it (`Stowed`).  Neither of the two places
is ever used again, because ids are not: whatever happens to other jobs is elsewhere, and of the job
itself nothing happens any more that could make a directory.

A submission that comes to nothing may leave a directory behind, and a directory that could not be
moved stays where it is.  These are the jobs of which nothing is said.
-/
namespace Montage

open FileTree Service

/-! ### Files that are known -/

namespace FileTree
variable {t u v : FileTree} {p q : Path}

/-- A place where no file stands is sane if all files are known. -/
theorem Sane.of_no_file (known : ∀ q k, (q, FileNode.file k) ∈ t.entries → k < t.contents.length)
    (nothing : ∀ k, t.node? p ≠ some (.file k)) : t.Sane p :=
  ⟨known, fun _ k h => absurd h (nothing k)⟩

theorem Sane.shuffles (h : t.Sane q) (shuffles : Shuffles t u)
    (nothing : ∀ k, u.node? p ≠ some (.file k)) : u.Sane p :=
  .of_no_file (fun r k hr => by
    obtain ⟨r', hr'⟩ := shuffles.entries r k hr
    rw [shuffles.contents]
    exact h.known r' k hr') nothing

end FileTree

namespace Store
variable {s : Store} {id : JobId}

theorem not_issued_jobId {n : Nat} (h : s.issued < n) : ¬ s.Issued (jobId n) := by
  rintro ⟨m, hm, hid⟩
  have := jobId_injective hid
  omega

theorem not_prefix_directory {name other : String} (h : name ≠ other) :
    ¬ s.directory other <+: s.directory name :=
  Below.not_below (List.prefix_refl _) h

end Store

/-- Where no file stands a place is watched, as long as nothing is written. -/
theorem Watched.shuffles {p : Path} {s : Service} (h : Watched p s) {store : Store}
    (root : store.root = s.store.root) (shuffles : Shuffles s.store.files store.files)
    (nothing : ∀ k, store.files.node? p ≠ some (.file k)) : Watched p (s.setStore store) where
  sane := h.sane.shuffles shuffles nothing
  within := fun id hid t ds task phase d hd => by
    obtain ⟨htarget, hapart⟩ := h.within id hid t ds task phase d hd
    have hdirectory : (s.setStore store).store.directory id = s.store.directory id := by
      rw [store_setStore, Store.directory, root, Store.directory]
    refine ⟨hdirectory ▸ htarget, fun k n hreceiving => ⟨?_, nothing k⟩⟩
    rw [store_setStore, shuffles.contents]
    exact (hapart k n hreceiving).1

/-! ### Moving aside -/

/-- A job stands aside: where its directory was nothing is, and the directory is next to it. -/
structure StandsAside (id : JobId) (s : Store) : Prop where
  home : s.files.node? (s.directory id) = none
  aside : s.files.isDirectory (s.directory (trashName id)) = true

section Detach
variable {s : Service} {id : JobId}

/-- The directory of a job that is removed stands aside then, and the call knows it. -/
theorem standsAside_of_detach (plain : ".." ∉ s.store.root) (placed : Placed s)
    (housed : s.store.files.isDirectory (s.store.directory id) = true) {moved : Option Path}
    {store : Store} (h : s.store.detach id = (.ok moved, store)) :
    moved = some (s.store.directory (trashName id)) ∧ StandsAside id store := by
  rcases Store.detach_cases s.store id with
    ⟨-, heq⟩ | ⟨j, hj, ⟨hthere, heq⟩ | ⟨-, ⟨f, -, heq⟩ | ⟨files, hmove, heq⟩⟩⟩ <;>
    cases heq.symm.trans h
  · -- the directory is there
    rw [placed.directories id j hj, exists?] at hthere
    rw [isDirectory, beq_iff_eq] at housed
    rw [housed] at hthere
    cases hthere
  · rw [placed.directories id j hj, Store.trashOf_directory] at hmove ⊢
    have hissued := placed.issued_of_find? hj
    have hplain := Store.plain_directory plain hissued.ne_dots
    have hplain' := Store.plain_directory plain (trashName_ne_dots id)
    have hne := hissued.ne_trashName id
    refine ⟨rfl, ?_, (isDirectory_iff hplain' Store.directory_ne_nil).mpr ⟨?_, ?_⟩⟩
    · exact node?_rename_source hplain Store.directory_ne_nil hplain' Store.directory_ne_nil
        (Store.not_prefix_directory hne) hmove
    · exact reaches_rename_target hplain Store.directory_ne_nil hplain' Store.directory_ne_nil
        (Store.not_prefix_directory hne.symm) hmove
    · have htarget := node?_rename_target hplain Store.directory_ne_nil hplain'
        Store.directory_ne_nil hmove
      exact htarget.trans ((isDirectory_iff hplain Store.directory_ne_nil).mp housed).2

/-- Detaching other jobs spares the places of a job. -/
theorem spares_detachAll_of_not_mem (plain : ".." ∉ s.store.root) (placed : Placed s)
    (issued : s.store.Issued id) {ids : List JobId} (other : id ∉ ids) :
    Spares (s.store.directory id) s.store.files (s.store.detachAll ids).2.files ∧
      Spares (s.store.directory (trashName id)) s.store.files (s.store.detachAll ids).2.files := by
  have hothers (i : JobId) (hthere : (s.store.find? i).isSome = true)
      (gone : (s.store.detachAll ids).2.find? i = none) : i ≠ id ∧ s.store.Issued i := by
    obtain ⟨j, hj⟩ := Option.isSome_iff_exists.mp hthere
    refine ⟨?_, placed.issued_of_find? hj⟩
    rintro rfl
    exact nomatch ((Store.find?_detachAll_of_not_mem other).symm.trans gone).symm.trans hj
  constructor
  · refine WatchedFor.spares_detachAll plain placed (List.prefix_refl _) ids fun i hthere gone => ?_
    exact ⟨(hothers i hthere gone).1.symm, issued.ne_trashName i⟩
  · refine WatchedFor.spares_detachAll plain placed (List.prefix_refl _) ids fun i hthere gone => ?_
    obtain ⟨hne, hissued⟩ := hothers i hthere gone
    exact ⟨(hissued.ne_trashName id).symm, fun h => hne (trashName_injective h).symm⟩

/-- Of all jobs that a call removes the directories stand aside then, and the call knows them. -/
theorem standsAside_of_detachAll (plain : ".." ∉ s.store.root) (placed : Placed s)
    (housed : s.store.files.isDirectory (s.store.directory id) = true) {ids : List JobId}
    (hid : id ∈ ids) {trash : List Path} {store : Store}
    (h : s.store.detachAll ids = (.ok trash, store)) :
    s.store.directory (trashName id) ∈ trash ∧ StandsAside id store := by
  induction ids generalizing s trash with
  | nil => cases hid
  | cons first rest ih =>
    rw [Store.detachAll] at h
    rcases hfirst : s.store.detach first with ⟨answer, store₁⟩
    rw [hfirst] at h
    cases answer with
    | error f => cases h
    | ok moved =>
      dsimp only at h
      rcases hrest : store₁.detachAll rest with ⟨answer, store₂⟩
      rw [hrest] at h
      cases answer with
      | error f => cases h
      | ok more =>
        cases h
        have hone := Store.detachAll_one hfirst
        have hplaced := placed.detached hone
        have hroot : store₁.root = s.store.root := (sameFrame_detachAll hone).root
        have hplain : ".." ∉ (s.setStore store₁).store.root := by
          rw [store_setStore, hroot]
          exact plain
        have hboth : s.store.detachAll (first :: rest) = (.ok (moved.toList ++ more), store) := by
          rw [Store.detachAll, hfirst]
          simp only [hrest]
        have hthere := Store.isSome_find?_of_detachAll_ok hboth hid
        have hissued := placed.issued_of_find? (Option.isSome_iff_exists.mp hthere).choose_spec
        by_cases hsame : id = first
        · subst hsame
          obtain ⟨rfl, haside⟩ := standsAside_of_detach plain placed housed hfirst
          -- the job is not there any more, so it is none of the others
          have hother : id ∉ rest := fun hmore => by
            have hgone := Store.find?_detach s.store id id
            rw [hfirst, if_pos rfl] at hgone
            have := Store.isSome_find?_of_detachAll_ok hrest hmore
            rw [hgone] at this
            cases this
          obtain ⟨hhome, hspares⟩ := spares_detachAll_of_not_mem hplain hplaced
            (hissued.mono (Nat.le_of_eq (sameFrame_detachAll hone).issued.symm)) hother
          rw [store_setStore, hrest] at hhome hspares
          have hroot' : store.root = store₁.root :=
            (sameFrame_detachAll (s := s.setStore store₁) hrest).root
          have hdirectory (name : String) : store.directory name = store₁.directory name := by
            rw [Store.directory, hroot', Store.directory]
          refine ⟨by simp, ?_, ?_⟩
          · rw [hdirectory]
            exact hhome.node.trans haside.home
          · rw [hdirectory]
            exact hspares.isDirectory (Store.plain_directory hplain (trashName_ne_dots id))
              Store.directory_ne_nil (List.prefix_refl _) haside.aside
        · have hnot : id ∉ [first] := by simpa using hsame
          have hspares := (spares_detachAll_of_not_mem plain placed hissued hnot).1
          rw [hone] at hspares
          have hhoused : store₁.files.isDirectory (store₁.directory id) = true := by
            rw [Store.directory, hroot]
            exact hspares.isDirectory (Store.plain_directory plain hissued.ne_dots)
              Store.directory_ne_nil (List.prefix_refl _) housed
          obtain ⟨hmem, haside⟩ := ih hplain hplaced hhoused
            ((List.mem_cons.mp hid).resolve_left hsame) hrest
          refine ⟨List.mem_append_right _ ?_, haside⟩
          rw [Store.directory, ← hroot]
          exact hmem

end Detach

/-! ### What is left of a job -/

/-- Where the directory of a job is, from its time on: at home as long as the job is there, beside it
as long as a call has to clear it away, and nowhere then. -/
inductive Dwelling (n : Nat) (s : Service) : Prop where
  | unborn (new : s.store.issued < n)
  | housed (there : (s.store.find? (jobId n)).isSome = true)
      (home : s.store.files.isDirectory (s.store.directory (jobId n)) = true)
  | aside (gone : s.IsGone (jobId n)) (stands : StandsAside (jobId n) s.store)
      (call : ∃ (i : Nat) (c : Call), s.calls[i]? = some c ∧ jobId n ∈ c.phase.removed ∧
        s.store.directory (trashName (jobId n)) ∈ c.phase.trash)
  | away (gone : s.IsGone (jobId n))
      (home : s.store.files.node? (s.store.directory (jobId n)) = none)
      (trash : s.store.files.node? (s.store.directory (trashName (jobId n))) = none)

/-- The two places of a job are watched. -/
structure Stowed (n : Nat) (s : Service) : Prop where
  home : Watched (s.store.directory (jobId n)) s
  trash : Watched (s.store.directory (trashName (jobId n))) s
  dwelling : Dwelling n s

/-- Of a job something else is known: it has come to nothing, or a directory has made trouble. -/
inductive Unhoused (n : Nat) (s : Service) : Prop where
  | lost (gone : s.IsGone (jobId n))
      (unknown : ∀ (i : Nat) (c : Call), s.calls[i]? = some c → jobId n ∉ c.phase.removed)
  | broken (i : Nat) (c : Call) (call : s.calls[i]? = some c) (broken : c.isBroken = true)

section Steps
variable {s : Service} {n : Nat}

theorem Unhoused.step (h : Unhoused n s) (placed : Placed s) (e : Event) :
    Unhoused n (s.step e) := by
  cases h with
  | lost gone unknown =>
    refine .lost (gone.step placed.tabled e) fun i c hc hid => ?_
    rcases removed_step placed.tabled hc hid with ⟨d, hd, hold⟩ | ⟨-, hthere, -⟩
    · exact unknown i d hd hold
    · rw [gone.2] at hthere
      cases hthere
  | broken i c call broken =>
    obtain ⟨c', hc', hbroken⟩ := isBroken_step placed.tabled.numbered e call broken
    exact .broken i c' hc' hbroken

theorem Unhoused.run (h : Unhoused n s) (placed : Placed s) (events : List Event) :
    Unhoused n (s.run events) := by
  induction events generalizing s with
  | nil => exact h
  | cons e rest ih => exact ih (h.step placed e) (placed.step e)

/-- A call that removes a job moves its directory aside. -/
theorem Stowed.removed (plain : ".." ∉ s.store.root) (placed : Placed s) (h : Stowed n s)
    {goal : Goal} {phase phase' : CallPhase} {s' : Service} (move : CallMove s goal phase s' phase')
    {j : Job} (hj : s.store.find? (jobId n) = some j) (gone : s'.store.find? (jobId n) = none) :
    (∃ f, phase' = .done (.error (.files f))) ∨
      Watched (s.store.directory (jobId n)) s' ∧
        Watched (s.store.directory (trashName (jobId n))) s' ∧
        StandsAside (jobId n) s'.store ∧ jobId n ∈ phase'.removed ∧
        s.store.directory (trashName (jobId n)) ∈ phase'.trash := by
  have hremoved := removed_of_callMove placed.tabled.numbered move hj gone
  cases move with
  | remove finished trash store removing ended detached =>
    have hid : jobId n ∈ (CallPhase.clearing trash (goal.targets s)).removed := by
      rcases hremoved with hid | ⟨f, hphase⟩
      · exact hid
      · cases hphase
    have housed : s.store.files.isDirectory (s.store.directory (jobId n)) = true := by
      cases h.dwelling with
      | unborn new => exact absurd (placed.issued_of_find? hj) (Store.not_issued_jobId new)
      | housed there home => exact home
      | aside hgone | away hgone => cases hgone.2.symm.trans hj
    obtain ⟨htrash, haside⟩ := standsAside_of_detachAll plain placed housed hid detached
    have hroot : store.root = s.store.root := (sameFrame_detachAll detached).root
    have hshuffles := Store.shuffles_detachAll (s := s.store) (goal.targets s)
    rw [detached] at hshuffles
    have hhome := haside.home
    have hstands := ((isDirectory_iff (Store.plain_directory (hroot ▸ plain)
      (trashName_ne_dots (jobId n))) Store.directory_ne_nil).mp haside.aside).2
    rw [Store.directory, hroot] at hhome hstands
    refine Or.inr ⟨h.home.shuffles hroot hshuffles fun k hk => ?_,
      h.trash.shuffles hroot hshuffles fun k hk => ?_, haside, hid, htrash⟩
    · cases hhome.symm.trans hk
    · cases hstands.symm.trans hk
  | refuse => exact Or.inl (hremoved.resolve_left List.not_mem_nil)
  | lose jobs live left settled =>
    rw [store_cancelAll] at gone
    cases gone.symm.trans hj
  | _ => cases gone.symm.trans hj

/-- A call that clears away the directory of a removed job leaves nothing of it. -/
theorem Stowed.cleared (plain : ".." ∉ s.store.root) (h : Stowed n s)
    (gone : s.IsGone (jobId n)) :
    let store := s.store.clear [s.store.directory (trashName (jobId n))]
    Watched (s.store.directory (jobId n)) (s.setStore store) ∧
      Watched (s.store.directory (trashName (jobId n))) (s.setStore store) ∧
      store.files.node? (s.store.directory (jobId n)) = none ∧
      store.files.node? (s.store.directory (trashName (jobId n))) = none := by
  intro store
  have hplain := Store.plain_directory plain (trashName_ne_dots (jobId n))
  have hhome : s.store.files.node? (s.store.directory (jobId n)) = none := by
    cases h.dwelling with
    | unborn new => exact absurd gone.1 (Store.not_issued_jobId new)
    | housed there => exact absurd there (by simp [gone.2])
    | aside _ stands => exact stands.home
    | away _ home => exact home
  have hspares : Spares (s.store.directory (jobId n)) s.store.files store.files :=
    .remove hplain Store.directory_ne_nil
      (Store.not_prefix_directory (jobId_ne_trashName n (jobId n)))
  have hnothing : store.files.node? (s.store.directory (trashName (jobId n))) = none := by
    cases h.dwelling with
    | unborn new => exact absurd gone.1 (Store.not_issued_jobId new)
    | housed there => exact absurd there (by simp [gone.2])
    | aside _ stands =>
      obtain ⟨hreaches, hnode⟩ := (isDirectory_iff hplain Store.directory_ne_nil).mp stands.aside
      exact node?_remove_self hplain Store.directory_ne_nil hreaches hnode
    | away _ _ trash =>
      rcases remove_cases (t := s.store.files) hplain Store.directory_ne_nil with
        ⟨-, hsame⟩ | ⟨-, hnode, -⟩
      · have hfiles : store.files = s.store.files := hsame
        rw [hfiles, trash]
      · exact nomatch trash.symm.trans hnode
  have hnode := hspares.node.trans hhome
  refine ⟨?_, ?_, hnode, hnothing⟩
  · exact h.home.shuffles rfl (.remove _ _) fun k hk => nomatch hnode.symm.trans hk
  · exact h.trash.shuffles rfl (.remove _ _) fun k hk => nomatch hnothing.symm.trans hk

/-- A job is registered with a directory of its own. -/
theorem Stowed.register (plain : ".." ∉ s.store.root) (h : Stowed n s)
    (hn : n = s.store.issued + 1) {made files : FileTree} {tasks : List Task}
    (directory : s.store.files.makeDirectory (s.store.directory (jobId n)) = .ok made)
    (written : WrittenIn (s.store.directory (jobId n)) made files)
    (new : ∀ t ∈ tasks, t.phase = .created) :
    Stowed n { s with store := s.store.register s.now files, tasks := s.tasks ++ tasks } := by
  subst hn
  have hplain := Store.plain_directory plain (jobId_ne_dots (s.store.issued + 1))
  have hne : s.store.directory (trashName (jobId (s.store.issued + 1))) ≠
      s.store.directory (jobId (s.store.issued + 1)) := by
    intro heq
    have hnot := Store.not_prefix_directory (s := s.store)
      (jobId_ne_trashName (s.store.issued + 1) (jobId (s.store.issued + 1)))
    rw [heq] at hnot
    exact hnot (List.prefix_refl _)
  have hreserved : s.store.Reserved (trashName (jobId (s.store.issued + 1)))
      (s.store.directory (trashName (jobId (s.store.issued + 1)))) := Or.inl rfl
  have habove := hreserved.not_above hne
  have htrash := WatchedFor.register plain h.trash habove (hreserved.outOfReach _) directory written new
  obtain ⟨hspares, hmade⟩ := Spares.makeDirectory hplain habove directory
  have hnode := ((isDirectory_iff hplain Store.directory_ne_nil).mp hmade).2
  have hsane : made.Sane (s.store.directory (jobId (s.store.issued + 1))) :=
    .of_no_file (hspares.sane h.trash.sane).known fun k hk => nomatch hnode.symm.trans hk
  have hwritten : Spares (s.store.directory (jobId (s.store.issued + 1))) made files :=
    WatchedFor.spares_writtenIn hplain (fun entry _ heq => by simpa using congrArg List.length heq)
      hsane written
  have hhome := hwritten.isDirectory hplain Store.directory_ne_nil (List.prefix_refl _) hmade
  refine ⟨⟨hwritten.sane hsane, fun id hid t ds task phase d hd => ?_⟩, htrash, .housed ?_ hhome⟩
  · -- what is open was open before, and the new directory is no file
    obtain ⟨htarget, hapart⟩ := htrash.within id hid t ds task phase d hd
    refine ⟨htarget, fun k size hreceiving => ⟨(hapart k size hreceiving).1, fun hk => ?_⟩⟩
    exact nomatch (hwritten.node.trans hnode).symm.trans hk
  · rw [Store.find?_register, Option.isSome_or, if_pos rfl, Option.isSome_some, Bool.or_true]

/-- A submission makes the directory of its job, or it comes to nothing. -/
theorem Stowed.submitted (plain : ".." ∉ s.store.root) (tabled : s.Tabled) (removals : s.Removals)
    (h : Stowed n s) (hn : n = s.store.issued + 1) {submission : Submission}
    {answer : Except SubmitFault JobId} {s' : Service}
    (outcome : Submitted s submission answer s') : Stowed n s' ∨ Unhoused n s' := by
  cases outcome with
  | refused => exact Or.inl h
  | lost f files whole open' left =>
    subst hn
    have hgone : s.store.find? (jobId (s.store.issued + 1)) = none :=
      tabled.numbered.find?_next
    have hunknown (i : Nat) (c : Call) (hc : s.calls[i]? = some c) :
        jobId (s.store.issued + 1) ∉ c.phase.removed := fun hid =>
      Store.not_issued_jobId (Nat.lt_succ_self _) (removals.gone i c hc _ hid).1
    exact Or.inr (.lost ⟨⟨s.store.issued + 1, Nat.le_refl _, rfl⟩, hgone⟩ hunknown)
  | torn run made files open' half date directory written =>
    subst hn
    have hnone : ∀ t ∈ ([] : List Task), t.phase = .created := by simp
    have hstowed := h.register plain rfl directory written hnone
    rw [List.append_nil] at hstowed
    exact Or.inl hstowed
  | accepted t made files open' checked date directory written =>
    subst hn
    exact Or.inl (h.register plain rfl directory written (by simp))

/-- What a call has moved aside it moves no further, but clears it away. -/
theorem CallMove.trash_cases {goal : Goal} {phase phase' : CallPhase} {s' : Service}
    (move : CallMove s goal phase s' phase') {q : Path} (hq : q ∈ phase.trash) :
    q ∈ phase'.trash ∨ phase.trash.head? = some q := by
  cases move with
  | idle => exact Or.inl hq
  | clear p rest removed =>
    rcases List.mem_cons.mp hq with rfl | hq
    · exact Or.inr rfl
    · exact Or.inl hq
  | drained _ jobs waiting ended => rcases waiting with rfl | rfl <;> cases hq
  | tell | remove | refuse | cleared | lose | astray => cases hq

/-- An event that removes a job is one of a call. -/
theorem Stowed.step_removed (plain : ".." ∉ s.store.root) (placed : Placed s) (h : Stowed n s)
    {e : Event} {j : Job} (hj : s.store.find? (jobId n) = some j)
    (gone : (s.step e).store.find? (jobId n) = none) :
    Stowed n (s.step e) ∨ Unhoused n (s.step e) := by
  have hmoved {u : Service} {goal : Goal} {phase phase' : CallPhase} {calls : List Call} {i : Nat}
      (move : CallMove s goal phase u phase') (gone : u.store.find? (jobId n) = none)
      (hc : calls[i]? = some ⟨goal, phase'⟩) :
      Stowed n { u with calls } ∨ Unhoused n { u with calls } := by
    have hdirectory (name : String) : u.store.directory name = s.store.directory name := by
      rw [Store.directory, move.sameFrame.root, Store.directory]
    rcases h.removed plain placed move hj gone with
      ⟨f, rfl⟩ | ⟨hhome, htrash, haside, hid, hmem⟩
    · exact Or.inr (.broken i _ hc rfl)
    · rw [← hdirectory] at hhome htrash hmem
      have hissued := (placed.issued_of_find? hj).mono (Nat.le_of_eq move.sameFrame.issued.symm)
      exact Or.inl ⟨hhome.congr rfl rfl, htrash.congr rfl rfl,
        .aside ⟨hissued, gone⟩ haside ⟨i, _, hc, hid, hmem⟩⟩
  have hkept (hnone : s.store.find? (jobId n) = none) {P : Prop} : P := by
    cases hnone.symm.trans hj
  generalize hs' : s.step e = s' at gone
  have hcases := step_cases placed.tabled.numbered e
  rw [hs'] at hcases
  cases hcases with
  | job i e b s' about moves => exact hkept (moves.follows.kept_any gone)
  | submit submission disk s' outcome => exact hkept (outcome.kept gone)
  | ask goal s' phase removing move started =>
    exact hmoved move gone List.getElem?_concat_length
  | call e i c s' phase about call move =>
    exact hmoved move gone (List.getElem?_set_self (List.getElem?_eq_some_iff.mp call).1)
  | drain | noCall | tick | disk => exact hkept gone

/-- A call that has the directory of a job to clear away leaves it, or clears it away. -/
theorem Stowed.callMove (plain : ".." ∉ s.store.root) (h : Stowed n s) (gone : s.IsGone (jobId n))
    {goal : Goal} {phase phase' : CallPhase} {s' : Service} {calls : List Call}
    (move : CallMove s goal phase s' phase')
    (head : phase.trash.head? = some (s.store.directory (trashName (jobId n))))
    (idle : s' = s → phase' = phase → calls = s.calls) : Stowed n { s' with calls } := by
  cases move with
  | idle =>
    rw [idle rfl rfl]
    exact h
  | clear q rest removed =>
    obtain rfl : q = s.store.directory (trashName (jobId n)) := Option.some.inj head
    obtain ⟨hhome, htrash, hnothing, hnothing'⟩ := h.cleared plain gone
    exact ⟨hhome.congr rfl rfl, htrash.congr rfl rfl, .away gone hnothing hnothing'⟩
  | drained _ jobs waiting ended => rcases waiting with rfl | rfl <;> cases head
  | tell | remove | refuse | cleared | lose | astray => cases head

/-- **An event leaves the places of a job as they should be**, if others keep away from them. -/
theorem Stowed.step (plain : ".." ∉ s.store.root) (placed : Placed s) (removals : s.Removals)
    (h : Stowed n s) (e : Event) (home : Avoids (s.store.directory (jobId n)) s e)
    (trash : Avoids (s.store.directory (trashName (jobId n))) s e) :
    Stowed n (s.step e) ∨ Unhoused n (s.step e) := by
  have tabled := placed.tabled
  have hdirectory (name : String) : (s.step e).store.directory name = s.store.directory name := by
    rw [Store.directory, root_step tabled.numbered e, Store.directory]
  have hplain : ".." ∉ (s.step e).store.root := (root_step tabled.numbered e).symm ▸ plain
  by_cases new : n = s.store.issued + 1 ∧ ∃ submission disk, e = .submitted submission disk
  · obtain ⟨hn, submission, disk, rfl⟩ := new
    exact h.submitted plain tabled removals hn (submit_cases tabled.numbered submission disk)
  by_cases removed : (s.store.find? (jobId n)).isSome = true ∧
      (s.step e).store.find? (jobId n) = none
  · obtain ⟨j, hj⟩ := Option.isSome_iff_exists.mp removed.1
    exact h.step_removed plain placed hj removed.2
  -- a call that has moved the directory of the job aside has removed the job
  have hgone {i : Nat} {c : Call} (hc : s.calls[i]? = some c)
      (hq : c.phase.trash.head? = some (s.store.directory (trashName (jobId n)))) :
      s.IsGone (jobId n) := by
    obtain ⟨id, hid, -, hplace⟩ :=
      placed.trashed c (List.mem_of_getElem? hc) _ (List.mem_of_head? hq)
    have hname : trashName (jobId n) = trashName id := by simpa [Store.directory] using hplace
    exact removals.gone i c hc _ (trashName_injective hname ▸ hid)
  by_cases clearing : ∃ i c, (e = .advanced i ∨ e = .outOfPatience i) ∧ s.calls[i]? = some c ∧
      c.phase.trash.head? = some (s.store.directory (trashName (jobId n)))
  · obtain ⟨i, c, about, hc, hq⟩ := clearing
    refine Or.inl ?_
    generalize hs' : s.step e = s'
    have hcases := step_cases tabled.numbered e
    rw [hs'] at hcases
    cases hcases with
    | job id e b s' job moves => rcases about with rfl | rfl <;> cases job
    | call e index d s' phase same call move =>
      obtain rfl : index = i := by
        rcases about with rfl | rfl <;> rcases same with same | same <;> cases same <;> rfl
      cases hc.symm.trans call
      refine h.callMove plain (hgone hc hq) move hq fun _ hphase => ?_
      obtain ⟨hi, hget⟩ := List.getElem?_eq_some_iff.mp hc
      rw [hphase, ← hget]
      exact List.set_getElem_self hi
    | noCall e index same missing => exact h
    | submit | ask | drain | tick | disk => rcases about with about | about <;> cases about
  -- the event is about other places
  have hnew (submission : Submission) (disk : Option DiskRefusal) (he : e = .submitted submission disk) :
      jobId n ≠ jobId (s.store.issued + 1) := fun hname =>
    new ⟨jobId_injective hname, submission, disk, he⟩
  have hothers (id : JobId) (hthere : (s.store.find? id).isSome = true)
      (hnone : (s.step e).store.find? id = none) : jobId n ≠ id := fun hname =>
    removed (hname ▸ ⟨hthere, hnone⟩)
  have houtput (name : String) (id : JobId) :
      s.store.directory name ≠ s.store.directory id ++ [Job.outputName] := fun heq => by
    simpa [Store.directory] using congrArg List.length heq
  have htrashed (i : Nat) (c : Call) (q : Path) (hc : s.calls[i]? = some c)
      (hq : c.phase.trash.head? = some q) : ∃ id, q = s.store.directory (trashName id) := by
    obtain ⟨id, -, -, hplace⟩ := placed.trashed c (List.mem_of_getElem? hc) q (List.mem_of_head? hq)
    exact ⟨id, hplace⟩
  have hreach (name : String) (id : JobId) (_ : e.job? = some id) :
      True ∧ s.store.OutOfReach id (s.store.directory name) :=
    ⟨trivial, Store.Reserved.outOfReach (Or.inl rfl) id⟩
  obtain ⟨hhome, hspares⟩ := h.home.step plain placed (List.prefix_refl _) e (hreach _)
    (fun id _ => houtput _ id) home
    (fun submission disk he => ⟨hnew submission disk he, jobId_ne_trashName n _⟩)
    (fun i c q _ hc hq => by
      obtain ⟨id, rfl⟩ := htrashed i c q hc hq
      exact ⟨id, jobId_ne_trashName n id, rfl⟩)
    fun id hthere hnone => ⟨hothers id hthere hnone, jobId_ne_trashName n id⟩
  obtain ⟨htrash, hspares'⟩ := h.trash.step plain placed (List.prefix_refl _) e (hreach _)
    (fun id _ => houtput _ id) trash
    (fun submission disk he => ⟨(jobId_ne_trashName _ _).symm, fun hname =>
      hnew submission disk he (trashName_injective hname)⟩)
    (fun i c q about hc hq => by
      obtain ⟨id, rfl⟩ := htrashed i c q hc hq
      refine ⟨id, fun hname => clearing ⟨i, c, about, hc, ?_⟩, rfl⟩
      rw [hname]
      exact hq)
    fun id hthere hnone => by
      obtain ⟨j, hj⟩ := Option.isSome_iff_exists.mp hthere
      exact ⟨((placed.issued_of_find? hj).ne_trashName _).symm, fun hname =>
        hothers id hthere hnone (trashName_injective hname)⟩
  rw [← hdirectory] at hhome hspares htrash hspares'
  refine Or.inl ⟨hhome, htrash, ?_⟩
  cases h.dwelling with
  | unborn hn =>
    refine .unborn ?_
    rcases issued_step_cases tabled.numbered e with hsame | ⟨hsubmitted, hmore⟩
    · omega
    · have : n ≠ s.store.issued + 1 := fun hn => new ⟨hn, hsubmitted⟩
      omega
  | housed there housed =>
    refine .housed (Option.isSome_iff_ne_none.mpr fun hnone => removed ⟨there, hnone⟩) ?_
    rw [← hdirectory] at housed
    exact hspares.isDirectory (Store.plain_directory hplain (jobId_ne_dots n))
      Store.directory_ne_nil (List.prefix_refl _) housed
  | aside gone stands call =>
    obtain ⟨i, c, hc, hid, hq⟩ := call
    obtain ⟨hhome, haside⟩ := stands
    rw [← hdirectory] at hhome haside
    refine .aside (gone.step tabled e) ⟨hspares.node.trans hhome, ?_⟩ ?_
    · exact hspares'.isDirectory (Store.plain_directory hplain (trashName_ne_dots _))
        Store.directory_ne_nil (List.prefix_refl _) haside
    · obtain ⟨c', hc', -⟩ := exists_call_step tabled.numbered e hc
      rw [hdirectory]
      cases call_step tabled.numbered hc' with
      | kept before =>
        cases hc.symm.trans before
        exact ⟨i, c, hc', hid, hq⟩
      | moved u phase about before move after =>
        cases hc.symm.trans before
        rcases move.trash_cases hq with hstill | hhead
        · refine ⟨i, c', hc', ?_, hstill⟩
          rcases move.removed_cases with hsame | ⟨-, -, -, -, hnone, -⟩
          · exact hsame ▸ hid
          · exact absurd hid (hnone ▸ List.not_mem_nil)
        · exact absurd ⟨i, _, about, hc, hhead⟩ clearing
      | begun _ _ hnew | drains _ hnew =>
        exact absurd hnew (Nat.ne_of_lt (List.getElem?_eq_some_iff.mp hc).1)
  | away gone hhome hnothing =>
    rw [← hdirectory] at hhome hnothing
    exact .away (gone.step tabled e) (hspares.node.trans hhome) (hspares'.node.trans hnothing)

theorem Stowed.run (plain : ".." ∉ s.store.root) (placed : Placed s) (removals : s.Removals)
    (h : Stowed n s) (events : List Event)
    (home : Along (Avoids (s.store.directory (jobId n))) s events)
    (trash : Along (Avoids (s.store.directory (trashName (jobId n)))) s events) :
    Stowed n (s.run events) ∨ Unhoused n (s.run events) := by
  induction events generalizing s with
  | nil => exact Or.inl h
  | cons e rest ih =>
    have tabled := placed.tabled
    have hroot := root_step tabled.numbered e
    have hdirectory (name : String) : (s.step e).store.directory name = s.store.directory name := by
      rw [Store.directory, hroot, Store.directory]
    rcases h.step plain placed removals e home.1 trash.1 with hstowed | hlost
    · refine ih (hroot.symm ▸ plain) (placed.step e) (removals.step tabled e) hstowed ?_ ?_
      · rw [hdirectory]
        exact home.2
      · rw [hdirectory]
        exact trash.2
    · exact Or.inr (hlost.run (placed.step e) rest)

theorem stowed_begin (setup : Setup) {root : Path} {files : FileTree}
    (home : files.Sane (root ++ [jobId n])) (trash : files.Sane (root ++ [trashName (jobId n)])) :
    Stowed n (Service.begin setup root files) ∨ Unhoused n (Service.begin setup root files) := by
  cases n with
  | zero => exact Or.inr (.lost ⟨⟨0, Nat.le_refl 0, rfl⟩, rfl⟩ nofun)
  | succ n =>
    exact Or.inl ⟨⟨home, fun _ _ _ _ h => nomatch h⟩, ⟨trash, fun _ _ _ _ h => nomatch h⟩,
      .unborn (Nat.succ_pos n)⟩

/-- **Each place of a job is as it should be after every run**, or the job is none of those of which
this can be said. -/
theorem stowed_run (setup : Setup) {root : Path} {files : FileTree} (plain : ".." ∉ root)
    (home : files.Sane (root ++ [jobId n])) (trash : files.Sane (root ++ [trashName (jobId n)]))
    {events : List Event}
    (avoided : Along (fun s e => Avoids (root ++ [jobId n]) s e ∧
      Avoids (root ++ [trashName (jobId n)]) s e) (Service.begin setup root files) events) :
    Stowed n ((Service.begin setup root files).run events) ∨
      Unhoused n ((Service.begin setup root files).run events) := by
  have hplaced := Placed.begin setup root files
  rcases stowed_begin setup home trash with hstowed | hlost
  · exact hstowed.run plain hplaced (removals_begin setup root files) events
      (avoided.imp fun _ _ h => h.1) (avoided.imp fun _ _ h => h.2)
  · exact Or.inr (hlost.run hplaced events)

/-- A job that is there has its directory. -/
theorem isDirectory_of_stowed (h : Stowed n s ∨ Unhoused n s)
    (whole : ∀ c ∈ s.calls, c.isBroken = false) (placed : Placed s) {j : Job}
    (hj : s.store.find? (jobId n) = some j) :
    s.store.files.isDirectory (s.store.directory (jobId n)) = true := by
  rcases h with ⟨-, -, hdwelling⟩ | hlost
  · cases hdwelling with
    | unborn new => exact absurd (placed.issued_of_find? hj) (Store.not_issued_jobId new)
    | housed there home => exact home
    | aside gone | away gone => exact nomatch gone.2.symm.trans hj
  · cases hlost with
    | lost gone => exact nomatch gone.2.symm.trans hj
    | broken i c call broken => exact nomatch broken.symm.trans (whole c (List.mem_of_getElem? call))

/-- Of a job that a call has removed nothing is left when the call is over. -/
theorem nothing_of_stowed (h : Stowed n s ∨ Unhoused n s)
    (whole : ∀ c ∈ s.calls, c.isBroken = false) (removals : s.Removals) {i : Nat} {goal : Goal}
    {removed : List JobId} (hc : s.calls[i]? = some ⟨goal, .done (.ok removed)⟩)
    (hid : jobId n ∈ removed) :
    s.store.files.node? (s.store.directory (jobId n)) = none ∧
      s.store.files.node? (s.store.directory (trashName (jobId n))) = none := by
  have hgone := removals.gone i _ hc _ hid
  rcases h with ⟨-, -, hdwelling⟩ | hlost
  · cases hdwelling with
    | unborn new => exact absurd hgone.1 (Store.not_issued_jobId new)
    | housed there => exact absurd there (by simp [hgone.2])
    | aside _ _ call =>
      -- the call that has the directory to clear away would be this one
      obtain ⟨k, d, hd, hid', hq⟩ := call
      obtain rfl := removals.once i k _ d _ hc hd hid hid'
      cases hc.symm.trans hd
      cases hq
    | away _ home trash => exact ⟨home, trash⟩
  · cases hlost with
    | lost gone unknown => exact absurd hid (unknown i _ hc)
    | broken k c call broken => exact nomatch broken.symm.trans (whole c (List.mem_of_getElem? call))

end Steps
end Montage
