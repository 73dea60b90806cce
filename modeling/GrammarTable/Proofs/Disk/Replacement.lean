import GrammarTable.Disk.Replace
import GrammarTable.Proofs.Disk.Entries

/-!
# Replacing a file

A file that is put at a free place opens no way and closes none. So a target is found with
the temporary file on the disk exactly when it is found without it, and replacing a file
either does nothing or puts the new content at the target.
-/

namespace GrammarTable.Disk

open Files

variable {disk : Disk} {place holder target next : Place} {entry : Entry}
  {path name : String}

/-! ## Steps and walks -/

/-- A place that one can go on from is a directory that may be searched. -/
theorem step_eq_ok_iff :
    disk.step place name = .ok next ↔
      ∃ entry, disk.entry? place = some entry ∧ entry.isDirectory = true ∧
        entry.allows .search = true ∧
        (name = "." ∧ next = place ∨
          name ≠ "." ∧ name = ".." ∧ next = place.dropLast ∨
          name ≠ "." ∧ name ≠ ".." ∧ name.utf8ByteSize ≤ nameLimit ∧
            next = place ++ [name]) := by
  unfold step
  cases disk.entry? place with
  | none => simp
  | some entry => grind

theorem walk_append (front back : List String) :
    disk.walk place (front ++ back) =
      match disk.walk place front with
      | .error fault => .error fault
      | .ok middle => disk.walk middle back := by
  induction front generalizing place with
  | nil => rfl
  | cons name rest ih =>
      simp only [List.cons_append, walk]
      cases disk.step place name with
      | error fault => rfl
      | ok middle => exact ih

theorem walk_append_dot {names : List String} (h : disk.walk place (names ++ ["."]) = .ok next) :
    disk.walk place names = .ok next ∧
      ∃ entry, disk.entry? next = some entry ∧ entry.isDirectory = true := by
  rw [walk_append] at h
  cases hwalk : disk.walk place names with
  | error fault =>
      rw [hwalk] at h
      contradiction
  | ok middle =>
      rw [hwalk] at h
      simp only [walk] at h
      split at h
      · contradiction
      · rename_i found hstep
        obtain rfl : found = next := Except.ok.inj h
        obtain ⟨entry, hentry, hdirectory, -, hplace⟩ := step_eq_ok_iff.mp hstep
        obtain rfl : found = middle := by simpa using hplace
        exact ⟨rfl, entry, hentry, hdirectory⟩

theorem names_eq_dropLast_append (h : Path.lastName path ≠ ".") :
    Path.names path = (Path.names path).dropLast ++ [Path.lastName path] := by
  unfold Path.lastName at h ⊢
  rcases List.eq_nil_or_concat (Path.names path) with hnames | ⟨front, last, hnames⟩
  · rw [hnames] at h
    exact absurd rfl h
  · simp [hnames]

/-- The file that a target names stands one step behind the directory that holds it. -/
theorem walk_names_of_locateHolder (hholder : disk.locateHolder path = .ok holder)
    (hstep : disk.step holder (Path.lastName path) = .ok target)
    (hlast : Path.lastName path ≠ ".") :
    refusal? path = none ∧ disk.walk (disk.start path) (Path.names path) = .ok target := by
  unfold locateHolder at hholder
  split at hholder
  · contradiction
  · rename_i hrefusal
    refine ⟨hrefusal, ?_⟩
    rw [names_eq_dropLast_append hlast, walk_append, (walk_append_dot hholder).1]
    simp only [walk, hstep]

/-! ## Targets -/

/-- What can be renamed to: a name in a directory, with nothing but a file there. -/
theorem locateTarget_eq_ok_iff :
    disk.locateTarget path = .ok target ↔
      ∃ holder, disk.locateHolder path = .ok holder ∧
        disk.step holder (Path.lastName path) = .ok target ∧
        Path.lastName path ≠ "." ∧ Path.lastName path ≠ ".." ∧
        Path.endsInSlash path = false ∧
        ∀ entry, disk.entry? target = some entry → entry.isDirectory = false := by
  unfold locateTarget
  cases disk.locateHolder path with
  | error fault => cases fault <;> simp
  | ok holder =>
      cases hstep : disk.step holder (Path.lastName path) with
      | error fault => simp [hstep]
      | ok found =>
          simp only [hstep]
          constructor
          · intro h
            split at h
            · contradiction
            · rename_i hlast
              split at h
              · contradiction
              · rename_i hslash
                split at h
                · rename_i hentry
                  obtain rfl := Except.ok.inj h
                  exact ⟨holder, rfl, hstep, by simp_all⟩
                · rename_i entry hentry
                  split at h
                  · contradiction
                  · rename_i hdirectory
                    obtain rfl := Except.ok.inj h
                    exact ⟨holder, rfl, hstep, by simp_all⟩
          · rintro ⟨_, hholder, hfound, hdot, hdots, hslash, hentry⟩
            obtain rfl := Except.ok.inj hholder
            obtain rfl : found = target := Except.ok.inj (hstep.symm.trans hfound)
            rw [if_neg (by simp [hdot, hdots]), hslash, if_neg Bool.false_ne_true]
            cases hplace : disk.entry? found with
            | none => rfl
            | some entry => simp [hentry entry hplace]

section Temporary

variable (hfree : disk.entry? place = none) (hfile : entry.isDirectory = false)

include hfree hfile

theorem step_put_iff {from_ : Place} :
    (disk.put place entry).step from_ name = .ok next ↔ disk.step from_ name = .ok next := by
  rw [step_eq_ok_iff, step_eq_ok_iff, entry?_put]
  by_cases hplace : from_ = place
  · subst hplace
    simp [hfree, hfile]
  · rw [if_neg hplace]

theorem walk_put_iff {from_ : Place} {names : List String} :
    (disk.put place entry).walk from_ names = .ok next ↔ disk.walk from_ names = .ok next := by
  induction names generalizing from_ with
  | nil => rfl
  | cons name rest ih =>
      have hstep : ∀ middle, (disk.put place entry).step from_ name = .ok middle ↔
          disk.step from_ name = .ok middle := fun middle => step_put_iff hfree hfile
      simp only [walk]
      cases hnew : (disk.put place entry).step from_ name with
      | ok middle =>
          rw [(hstep middle).mp hnew]
          exact ih
      | error fault =>
          cases hold : disk.step from_ name with
          | ok middle =>
              rw [(hstep middle).mpr hold] at hnew
              contradiction
          | error other => simp

theorem locateHolder_put_iff :
    (disk.put place entry).locateHolder path = .ok holder ↔
      disk.locateHolder path = .ok holder := by
  unfold locateHolder start
  rw [home_put]
  cases refusal? path with
  | some fault => rfl
  | none => exact walk_put_iff hfree hfile

/-- A temporary file neither opens a way to a target nor stands in one. -/
theorem locateTarget_put_iff :
    (disk.put place entry).locateTarget path = .ok target ↔
      disk.locateTarget path = .ok target := by
  rw [locateTarget_eq_ok_iff, locateTarget_eq_ok_iff]
  have hentries : (∀ found, Disk.entry? (disk.put place entry) target = some found →
        found.isDirectory = false) ↔
      ∀ found, disk.entry? target = some found → found.isDirectory = false := by
    rw [entry?_put]
    by_cases htarget : target = place
    · subst htarget
      simp [hfree, hfile]
    · rw [if_neg htarget]
  constructor
  · rintro ⟨holder, hholder, hstep, hrest⟩
    exact ⟨holder, (locateHolder_put_iff hfree hfile).mp hholder,
      (step_put_iff hfree hfile).mp hstep, by simpa only [hentries] using hrest⟩
  · rintro ⟨holder, hholder, hstep, hrest⟩
    exact ⟨holder, (locateHolder_put_iff hfree hfile).mpr hholder,
      (step_put_iff hfree hfile).mpr hstep, by simpa only [hentries] using hrest⟩

end Temporary

/-! ## The new file -/

/-- The mode of what stands at a place, or that of a new file. -/
def modeAt (disk : Disk) (place : Place) : Nat :=
  match disk.entry? place with
  | some entry => entry.mode
  | none => 0o644

theorem modeFor_eq_modeAt (h : disk.locateTarget path = .ok target) :
    disk.modeFor path = disk.modeAt target := by
  obtain ⟨holder, hholder, hstep, hdot, -, hslash, -⟩ := locateTarget_eq_ok_iff.mp h
  obtain ⟨hrefusal, hwalk⟩ := walk_names_of_locateHolder hholder hstep hdot
  unfold modeFor modeAt find locate
  rw [hrefusal, hwalk]
  cases hentry : disk.entry? target with
  | none => simp [hentry, Except.map, newFile]
  | some entry => simp [hentry, hslash, Except.map]

/-- With a place for the temporary file and a target, replacing puts the new file at the
target. -/
theorem replace_eq_put {parent : Place} (hparent : disk.locateParent path = .ok parent)
    (htarget : disk.locateTarget path = .ok target) (bytes : ByteArray) :
    disk.replace path bytes =
      (.ok (), disk.put target { newFile bytes with mode := disk.modeAt target }) := by
  have hfree := disk.entry?_freshName parent
  have hrenamed : ∀ file : Entry, file.isDirectory = false →
      (disk.put (parent ++ [disk.freshName]) file).rename (parent ++ [disk.freshName]) path =
        .ok (disk.put target file) := by
    intro file hfile
    rw [rename, entry?_put, if_pos rfl, (locateTarget_put_iff hfree hfile).mpr htarget]
    simp only [remove_put hfree]
  unfold replace
  rw [hparent, modeFor_eq_modeAt htarget]
  simp only [hrenamed { newFile bytes with mode := disk.modeAt target } rfl]

/-- Without one of the two the disk stays as it is. -/
theorem replace_eq_error
    (h : ¬((∃ parent, disk.locateParent path = .ok parent) ∧
      ∃ target, disk.locateTarget path = .ok target)) (bytes : ByteArray) :
    ∃ fault, disk.replace path bytes = (.error fault, disk) := by
  unfold replace
  cases hparent : disk.locateParent path with
  | error fault => exact ⟨fault, rfl⟩
  | ok parent =>
      have hfree := disk.entry?_freshName parent
      have hrefused : ∀ file : Entry, file.isDirectory = false →
          ∃ fault, (disk.put (parent ++ [disk.freshName]) file).rename
            (parent ++ [disk.freshName]) path = .error fault := by
        intro file hfile
        rw [rename, entry?_put, if_pos rfl]
        cases htarget : (disk.put (parent ++ [disk.freshName]) file).locateTarget path with
        | error fault => exact ⟨fault, rfl⟩
        | ok target =>
            exact absurd ⟨⟨parent, hparent⟩, target,
              (locateTarget_put_iff hfree hfile).mp htarget⟩ h
      obtain ⟨fault, hfault⟩ :=
        hrefused { newFile bytes with mode := disk.modeFor path } rfl
      exact ⟨fault, by simp only [hfault, remove_put hfree]⟩

end GrammarTable.Disk
