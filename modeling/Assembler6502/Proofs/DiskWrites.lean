import Assembler6502.Disk
import Mathlib.Tactic

/-!
# Writing a file

A path can be written if it leads to a place that is no folder, and then everything above that place
is a folder already. So writing makes no folder and hides none. Every path that leads somewhere leads
to the same place afterwards, and only the paths that lead to the written place find another content.
-/

namespace Assembler6502

/-! ## The last step of a path -/

namespace Path

theorem steps_of_not_mem {text : Text} (htext : '/' ∉ text) : steps text = [text] := by
  induction text with
  | nil => rfl
  | cons c rest ih =>
      rw [List.mem_cons, not_or] at htext
      rw [steps, if_neg (Ne.symm htext.1), ih htext.2]
      rfl

/-- What is put behind a path without a slash is put behind its last step. -/
theorem exists_steps_append (text : Text) :
    ∃ front name,
      steps text = front ++ [name] ∧
      ∀ ending, '/' ∉ ending → steps (text ++ ending) = front ++ [name ++ ending] := by
  induction text with
  | nil => exact ⟨[], [], rfl, fun ending hending => steps_of_not_mem hending⟩
  | cons c rest ih =>
      obtain ⟨front, name, hsteps, happend⟩ := ih
      by_cases hslash : c = '/'
      · refine ⟨[] :: front, name, by rw [steps, if_pos hslash, hsteps]; rfl, ?_⟩
        intro ending hending
        rw [List.cons_append, steps, if_pos hslash, happend ending hending]
        rfl
      · cases front with
        | nil =>
            refine ⟨[], c :: name, by rw [steps, if_neg hslash, hsteps]; rfl, ?_⟩
            intro ending hending
            rw [List.cons_append, steps, if_neg hslash, happend ending hending]
            rfl
        | cons first others =>
            refine ⟨(c :: first) :: others, name, by rw [steps, if_neg hslash, hsteps]; rfl, ?_⟩
            intro ending hending
            rw [List.cons_append, steps, if_neg hslash, happend ending hending]
            rfl

theorem exists_getLast?_steps
    (text : Text) {ending : Text} (hending : '/' ∉ ending) :
    ∃ name, (steps (text ++ ending)).getLast? = some (name ++ ending) := by
  obtain ⟨front, name, -, happend⟩ := exists_steps_append text
  exact ⟨name, by rw [happend ending hending, List.getLast?_append_of_ne_nil _ (by simp)]; rfl⟩

end Path

namespace Disk

/-! ## Folders -/

def HasFile (disk : Disk) (place : Place) : Prop :=
  ∃ file ∈ disk.files, file.1 = place

theorem isFolder_iff (disk : Disk) (place : Place) :
    disk.isFolder place = true ↔
      isAbove place = true ∨ place = [rootName] ∨
        ∃ stored, disk.HasFile stored ∧ place <+: stored ∧ place ≠ stored := by
  simp [isFolder, HasFile, or_assoc]

theorem isFolder_of_starts
    {disk : Disk} {place folder : Place}
    (hstarts : place <+: folder) (hfolder : disk.isFolder folder = true) :
    disk.isFolder place = true := by
  rw [isFolder_iff] at hfolder ⊢
  rcases hfolder with habove | rfl | ⟨stored, hstored, hinside, hne⟩
  · left
    rw [isAbove, List.all_eq_true] at habove ⊢
    exact fun name hname => habove name (hstarts.subset hname)
  · cases place with
    | nil => exact .inl rfl
    | cons name rest =>
        obtain ⟨rfl, hrest⟩ := List.cons_prefix_cons.mp hstarts
        rw [List.prefix_nil.mp hrest]
        exact .inr (.inl rfl)
  · refine .inr (.inr ⟨stored, hstored, hstarts.trans hinside, ?_⟩)
    rintro rfl
    exact hne (hinside.eq_of_length (le_antisymm hinside.length_le hstarts.length_le))

/-- There may be a file at the place: it is no folder, and everything above it is one. -/
structure HasRoomFor (disk : Disk) (place : Place) : Prop where
  notFolder : disk.isFolder place = false
  above : ∀ folder, folder <+: place → folder ≠ place → disk.isFolder folder = true

theorem hasRoomFor_append
    {disk : Disk} {folder : Place} {name : Text}
    (hfolder : disk.isFolder folder = true)
    (hfree : disk.isFolder (folder ++ [name]) = false) :
    disk.HasRoomFor (folder ++ [name]) := by
  refine ⟨hfree, ?_⟩
  intro other hstarts hne
  rcases List.prefix_concat_iff.mp hstarts with hsame | hinside
  · exact absurd hsame hne
  · exact isFolder_of_starts hinside hfolder

/-- A step from a folder leads to a folder, or it goes down to the name. -/
theorem enter_of_not_folder
    {disk : Disk} {folder : Place} {name : Text}
    (hfolder : disk.isFolder folder = true)
    (hfree : disk.isFolder (enter folder name) = false) :
    enter folder name = folder ++ [name] := by
  have hnot : ∀ place, enter folder name = place → disk.isFolder place = true → False := by
    rintro place rfl hplace
    simp [hplace] at hfree
  unfold enter at hnot ⊢
  split at hnot
  · exact (hnot folder rfl hfolder).elim
  · split at hnot
    next hparent =>
        split at hnot
        next habove =>
            refine (hnot _ rfl ((isFolder_iff disk _).mpr (.inl ?_))).elim
            rw [isAbove, List.all_append, ← isAbove, habove]
            simp
        next =>
            split at hnot
            · exact (hnot folder rfl hfolder).elim
            · have hup : folder.dropLast <+: folder := List.dropLast_prefix folder
              exact (hnot _ rfl (isFolder_of_starts hup hfolder)).elim
    next hplain hparent => rw [if_neg hplain, if_neg hparent]

/-! ## Following paths -/

theorem follow_cons (disk : Disk) (place : Place) (name : Text) (rest : List Text) :
    disk.follow place (name :: rest) =
      if (disk.fileAt? place).isSome then .error .notFolder
      else if !disk.isFolder place then .error .missing
      else if nameLimit < name.byteCount then .error .tooLong
      else disk.follow (enter place name) rest := rfl

theorem follow_eq_ok
    {disk : Disk} {place target : Place} {names : List Text}
    (hfollow : disk.follow place names = .ok target) :
    (names = [] ∧ target = place) ∨
      ∃ front name folder,
        names = front ++ [name] ∧ disk.isFolder folder = true ∧ target = enter folder name := by
  induction names generalizing place with
  | nil => exact .inl ⟨rfl, (Except.ok.inj hfollow).symm⟩
  | cons name rest ih =>
      rw [follow_cons] at hfollow
      split at hfollow
      · simp at hfollow
      · split at hfollow
        · simp at hfollow
        next hfolder =>
            split at hfollow
            · simp at hfollow
            · rcases ih hfollow with ⟨rfl, rfl⟩ | ⟨front, last, folder, rfl, hlast, htarget⟩
              · exact .inr ⟨[], name, place, rfl, by simpa using hfolder, rfl⟩
              · exact .inr ⟨name :: front, last, folder, rfl, hlast, htarget⟩

theorem resolve_eq_ok
    {disk : Disk} {path : Text} {place : Place} (hresolve : disk.resolve path = .ok place) :
    ∃ start, disk.isFolder start = true ∧ disk.follow start (Path.steps path) = .ok place := by
  unfold resolve at hresolve
  split at hresolve
  · simp at hresolve
  · split at hresolve
    · simp at hresolve
    · split at hresolve
      · simp at hresolve
      · refine ⟨_, ?_, hresolve⟩
        rw [isFolder_iff]
        split
        · exact .inr (.inl rfl)
        · exact .inl rfl

/-- A path that leads to no folder ends with the name of the place in a folder. -/
theorem exists_folder_of_resolve
    {disk : Disk} {path : Text} {place : Place}
    (hresolve : disk.resolve path = .ok place) (hfree : disk.isFolder place = false) :
    ∃ folder name,
      disk.isFolder folder = true ∧
      place = folder ++ [name] ∧
      (Path.steps path).getLast? = some name := by
  obtain ⟨start, hstart, hfollow⟩ := resolve_eq_ok hresolve
  rcases follow_eq_ok hfollow with ⟨-, rfl⟩ | ⟨front, name, folder, hsteps, hfolder, rfl⟩
  · simp [hstart] at hfree
  · refine ⟨folder, name, hfolder, enter_of_not_folder hfolder hfree, ?_⟩
    rw [hsteps, List.getLast?_append_of_ne_nil _ (by simp)]
    rfl

/-! ## Putting a file at a place -/

def put (disk : Disk) (place : Place) (content : Text) : Disk :=
  ⟨putFile place content disk.files⟩

theorem fileAt?_put (disk : Disk) (place other : Place) (content : Text) :
    (disk.put place content).fileAt? other =
      if other = place then some content else disk.fileAt? other := by
  obtain ⟨files⟩ := disk
  change (putFile place content files).lookup other =
    if other = place then some content else files.lookup other
  have hcons (stored : Place) (text : Text) (rest : List (Place × Text)) :
      ((stored, text) :: rest).lookup other =
        if other = stored then some text else rest.lookup other := by
    by_cases hother : other = stored
    · simp [hother]
    · simp [List.lookup_cons, beq_eq_false_iff_ne.mpr hother, hother]
  induction files with
  | nil => exact hcons place content []
  | cons file rest ih =>
      obtain ⟨stored, text⟩ := file
      by_cases hstored : stored = place
      · rw [putFile, if_pos hstored, hcons, hcons, hstored]
        split <;> rfl
      · rw [putFile, if_neg hstored, hcons, hcons, ih]
        by_cases hother : other = stored
        · rw [if_pos hother, if_pos hother, if_neg (hother ▸ hstored)]
        · rw [if_neg hother, if_neg hother]

theorem hasFile_put
    (disk : Disk) (place : Place) (content : Text) (stored : Place) :
    (disk.put place content).HasFile stored ↔ stored = place ∨ disk.HasFile stored := by
  obtain ⟨files⟩ := disk
  unfold HasFile put
  induction files with
  | nil => simp [putFile, eq_comm]
  | cons file rest ih =>
      dsimp only at ih ⊢
      rw [putFile]
      split
      next hfile =>
          simp only [List.exists_mem_cons_iff, hfile]
          tauto
      next =>
          rw [List.exists_mem_cons_iff, ih, List.exists_mem_cons_iff]
          tauto

namespace HasRoomFor

variable {disk : Disk} {place : Place} (hroom : disk.HasRoomFor place) (content : Text)

include hroom

theorem isFolder_put (other : Place) :
    (disk.put place content).isFolder other = disk.isFolder other := by
  rw [Bool.eq_iff_iff, isFolder_iff, isFolder_iff]
  simp only [hasFile_put]
  constructor
  · rintro (habove | hroot | ⟨stored, rfl | hstored, hinside, hne⟩)
    · exact .inl habove
    · exact .inr (.inl hroot)
    · exact (isFolder_iff disk other).mp (hroom.above other hinside hne)
    · exact .inr (.inr ⟨stored, hstored, hinside, hne⟩)
  · rintro (habove | hroot | ⟨stored, hstored, hinside, hne⟩)
    · exact .inl habove
    · exact .inr (.inl hroot)
    · exact .inr (.inr ⟨stored, .inr hstored, hinside, hne⟩)

-- The reason why a path leads nowhere may change, from a missing folder to a file in its place.
theorem follow_put_eq_ok_iff (start : Place) (names : List Text) (target : Place) :
    (disk.put place content).follow start names = .ok target ↔
      disk.follow start names = .ok target := by
  induction names generalizing start with
  | nil => rfl
  | cons name rest ih =>
      rw [follow_cons, follow_cons, hroom.isFolder_put content, fileAt?_put]
      by_cases hstart : start = place
      · rw [hstart, hroom.notFolder]
        cases disk.fileAt? place <;> simp
      · rw [if_neg hstart]
        split
        · rfl
        · split
          · rfl
          · split
            · rfl
            · exact ih (enter start name)

theorem resolve_put_eq_ok_iff (path : Text) (target : Place) :
    (disk.put place content).resolve path = .ok target ↔ disk.resolve path = .ok target := by
  unfold resolve
  split
  · rfl
  · split
    · rfl
    · split
      · rfl
      · exact hroom.follow_put_eq_ok_iff content _ _ target

theorem look_put_of_resolve {path : Text} (hresolve : disk.resolve path = .ok place) :
    (disk.put place content).look path = .file content := by
  have hafter := (hroom.resolve_put_eq_ok_iff content path place).mpr hresolve
  simp [look, hafter, fileAt?_put]

theorem look_put_of_ne {path : Text} (hresolve : disk.resolve path ≠ .ok place) :
    (disk.put place content).look path = disk.look path := by
  have hiff := hroom.resolve_put_eq_ok_iff content path
  cases hbefore : disk.resolve path with
  | ok target =>
      have htarget : target ≠ place := by
        rintro rfl
        exact hresolve hbefore
      simp [look, (hiff target).mpr hbefore, hbefore, fileAt?_put, htarget,
        hroom.isFolder_put content]
  | error fault =>
      cases hafter : (disk.put place content).resolve path with
      | ok target => simp [(hiff target).mp hafter] at hbefore
      | error other => simp [look, hafter, hbefore]

end HasRoomFor

theorem write_eq_ok
    {disk after : Disk} {path content : Text} (hwrite : disk.write path content = .ok after) :
    ∃ place,
      disk.resolve path = .ok place ∧ disk.HasRoomFor place ∧ after = disk.put place content := by
  unfold write at hwrite
  split at hwrite
  · simp at hwrite
  next place hresolve =>
      split at hwrite
      · simp at hwrite
      next hplace =>
          have hfree : disk.isFolder place = false := by simpa using hplace
          obtain ⟨folder, name, hfolder, rfl, -⟩ := exists_folder_of_resolve hresolve hfree
          exact ⟨_, hresolve, hasRoomFor_append hfolder hfree, (Except.ok.inj hwrite).symm⟩

theorem look_write
    {disk after : Disk} {path content : Text} (hwrite : disk.write path content = .ok after) :
    after.look path = .file content := by
  obtain ⟨place, hresolve, hroom, rfl⟩ := write_eq_ok hwrite
  exact hroom.look_put_of_resolve content hresolve

/-- Writing a file changes nothing for the paths that end with another name. -/
theorem look_write_of_getLast?_ne
    {disk after : Disk} {path other content : Text}
    (hwrite : disk.write path content = .ok after)
    (hnames : (Path.steps path).getLast? ≠ (Path.steps other).getLast?) :
    after.look other = disk.look other := by
  obtain ⟨place, hresolve, hroom, rfl⟩ := write_eq_ok hwrite
  refine hroom.look_put_of_ne content ?_
  intro hother
  obtain ⟨_, _, -, hplace, hpath⟩ := exists_folder_of_resolve hresolve hroom.notFolder
  obtain ⟨_, _, -, hsame, hlast⟩ := exists_folder_of_resolve hother hroom.notFolder
  rw [hplace] at hsame
  have hname := congrArg List.getLast? hsame
  rw [List.getLast?_concat, List.getLast?_concat] at hname
  exact hnames (by rw [hpath, hlast, hname])

end Disk

end Assembler6502
