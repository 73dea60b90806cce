import GrammarTable.Proofs.Disk.Replacement

/-!
# Paths that nothing can be written to

A file is written by a path whose parent is a directory, which does not lead to a directory
itself and which does not end like the path of one.
-/

namespace GrammarTable

/-! ## Pieces of a path -/

namespace Path

variable {path : String}

theorem piecesOnto_append_dot (found : List (List Char)) (piece front : List Char) :
    ∃ pieces, piecesOnto found piece (front ++ ['/', '.']) = pieces ++ [['.']] := by
  induction front generalizing found piece with
  | nil => exact ⟨(piece.reverse :: found).reverse, by simp [piecesOnto]⟩
  | cons c rest ih =>
      rw [List.cons_append, piecesOnto]
      split
      · exact ih (piece.reverse :: found) []
      · exact ih found (c :: piece)

theorem lastName_of_final_dot (h : ['/', '.'] <:+ path.toList) : lastName path = "." := by
  obtain ⟨front, hfront⟩ := h
  obtain ⟨pieces, hpieces⟩ := piecesOnto_append_dot [] [] front
  rw [lastName, names, ← hfront, hpieces]
  simp [List.getLastD_eq_getLast?]

theorem endsInSlash_iff : endsInSlash path = true ↔ ['/'] <:+ path.toList := by
  rw [endsInSlash, beq_iff_eq, List.getLast?_eq_some_iff]
  exact ⟨fun ⟨front, h⟩ => ⟨front, h.symm⟩, fun ⟨front, h⟩ => ⟨front, h.symm⟩⟩

theorem exists_cons_of_mem_beginnings {pieces beginning : List (List Char)}
    (h : beginning ∈ beginnings pieces) :
    ∃ piece rest, beginning = piece :: rest ∧ isStill piece = false := by
  induction pieces with
  | nil => simp [beginnings] at h
  | cons piece rest ih =>
      rw [beginnings] at h
      split at h
      · exact ih h
      · rename_i hstill
        rcases List.mem_cons.mp h with rfl | h
        · exact ⟨piece, rest, rfl, by simpa using hstill⟩
        · exact ih h

theorem ofPieces_ne_empty {piece : List Char} {rest : List (List Char)}
    (h : isStill piece = false) : ofPieces (piece :: rest) ≠ "" := by
  have hpiece : piece ≠ [] := by
    rintro rfl
    contradiction
  rw [ofPieces, List.reverse_cons, ne_eq, String.ofList_eq_empty_iff]
  cases rest.reverse with
  | nil => simpa using hpiece
  | cons first others =>
      rw [List.cons_append, List.intercalate_cons_of_ne_nil (by simp)]
      simp

theorem parent_ne_empty (path : String) : parent path ≠ "" := by
  unfold parent
  cases hshorter : shorterBeginnings path with
  | nil => cases isAbsolute path <;> exact nofun
  | cons pieces rest =>
      have hmem : pieces ∈ beginnings (piecesOnto [] [] path.toList).reverse := by
        refine List.mem_of_mem_drop (i := 1) ?_
        rw [← shorterBeginnings, hshorter]
        exact List.mem_cons_self
      obtain ⟨piece, behind, rfl, hstill⟩ := exists_cons_of_mem_beginnings hmem
      exact ofPieces_ne_empty hstill

end Path

/-! ## Places for a file -/

namespace Disk

open Files

variable {disk : Disk} {path : String} {parent target : Place}

theorem refusal?_of_append {directory : String} (hdirectory : directory ≠ "")
    (front back : String) (h : refusal? (front ++ directory ++ back) = none) :
    refusal? directory = none := by
  unfold refusal? at h ⊢
  simp only [String.toList_append, String.utf8ByteSize_append] at h
  split at h
  · contradiction
  · rename_i hzero
    split at h
    · contradiction
    · split at h
      · contradiction
      · rename_i hlong
        rw [if_neg (by simp_all), if_neg hdirectory, if_neg (by omega)]

/-- A temporary file is made in a directory that its path from the root leads to. -/
theorem walk_parent_of_locateParent (h : disk.locateParent path = .ok parent) :
    refusal? (disk.absolute (Path.parent path) ++ "/" ++ temporaryForm) = none ∧
      disk.walk (disk.start (Path.parent path)) (Path.names (Path.parent path) ++ ["."]) =
        .ok parent := by
  unfold locateParent at h
  dsimp only at h
  cases hrefusal : refusal? (disk.absolute (Path.parent path) ++ "/" ++ temporaryForm) with
  | some fault =>
      rw [hrefusal] at h
      exact nomatch h
  | none =>
      rw [hrefusal] at h
      refine ⟨rfl, ?_⟩
      cases hwalk :
          disk.walk (disk.start (Path.parent path)) (Path.names (Path.parent path) ++ ["."]) with
      | error fault =>
          rw [hwalk] at h
          exact nomatch h
      | ok place =>
          rw [hwalk] at h
          dsimp only at h
          split at h
          · exact h
          · exact nomatch h

theorem refusal?_parent
    (h : refusal? (disk.absolute (Path.parent path) ++ "/" ++ temporaryForm) = none) :
    refusal? (Path.parent path) = none := by
  unfold absolute at h
  split at h
  · refine refusal?_of_append (Path.parent_ne_empty path) "" ("/" ++ temporaryForm) ?_
    rwa [String.empty_append, ← String.append_assoc]
  · refine refusal?_of_append (Path.parent_ne_empty path)
      ("/" ++ "/".intercalate disk.home ++ "/") ("/" ++ temporaryForm) ?_
    rwa [← String.append_assoc]

/-- The directory in which a temporary file can be made is one. -/
theorem isDirectory_parent (h : disk.locateParent path = .ok parent) :
    disk.isDirectory (Path.parent path) = true := by
  obtain ⟨hrefusal, hwalk⟩ := walk_parent_of_locateParent h
  obtain ⟨hnames, entry, hentry, hdirectory⟩ := walk_append_dot hwalk
  unfold isDirectory find locate
  rw [refusal?_parent hrefusal, hnames]
  simp [hentry, hdirectory, Except.map]

/-- No target is a directory. -/
theorem isDirectory_of_locateTarget (h : disk.locateTarget path = .ok target) :
    disk.isDirectory path = false := by
  obtain ⟨holder, hholder, hstep, hdot, -, hslash, hfile⟩ := locateTarget_eq_ok_iff.mp h
  obtain ⟨hrefusal, hwalk⟩ := walk_names_of_locateHolder hholder hstep hdot
  unfold isDirectory find locate
  simp only [hrefusal, hwalk]
  cases hentry : disk.entry? target with
  | none => rfl
  | some entry => simp [hslash, hfile entry hentry, Except.map]

/-- No target is named like the directory itself or one in it. -/
theorem not_final_of_locateTarget (h : disk.locateTarget path = .ok target) :
    ¬ ['/'] <:+ path.toList ∧ ¬ ['/', '.'] <:+ path.toList := by
  obtain ⟨holder, -, -, hdot, -, hslash, -⟩ := locateTarget_eq_ok_iff.mp h
  constructor
  · intro hfinal
    rw [Path.endsInSlash_iff.mpr hfinal] at hslash
    contradiction
  · intro hfinal
    exact hdot (Path.lastName_of_final_dot hfinal)

end Disk

end GrammarTable
