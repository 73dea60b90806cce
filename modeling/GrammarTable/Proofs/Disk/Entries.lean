import GrammarTable.Disk.Basic

/-!
# What stands at a place

Putting an entry at a place changes what stands there and nothing else. No entry bears the
fresh name, so that an entry put under it can be taken away without a trace.
-/

namespace GrammarTable.Disk

variable {disk : Disk} {place other : Place} {entry : Entry}

@[simp] theorem home_put (disk : Disk) (place : Place) (entry : Entry) :
    (disk.put place entry).home = disk.home := by
  unfold put
  split <;> rfl

theorem entry?_eq_none_iff :
    disk.entry? place = none ↔ ∀ known ∈ disk.entries, known.1 ≠ place := by
  simp [ entry?]

/-! ## Putting -/

theorem any_eq_false_of_entry? (h : disk.entry? place = none) :
    (disk.entries.any fun known => known.1 == place) = false := by
  simpa using entry?_eq_none_iff.mp h

/-- Replacing what stands at a place leaves the other places as they are. -/
theorem find?_map_put (entries : List (Place × Entry)) :
    (entries.map fun known => if known.1 == place then (place, entry) else known).find?
        (fun known => known.1 == other) =
      if other = place then
        (entries.find? fun known => known.1 == other).map fun _ => (place, entry)
      else entries.find? fun known => known.1 == other := by
  induction entries with
  | nil => simp
  | cons known rest ih =>
      rw [List.map_cons, List.find?_cons, List.find?_cons, ih]
      by_cases hplace : known.1 = place
      · by_cases hother : place = other
        · simp [hplace, hother]
        · have hne : other ≠ place := Ne.symm hother
          simp [hplace, beq_eq_false_iff_ne.mpr hother, hne]
      · by_cases hother : known.1 = other
        · have hne : other ≠ place := hother ▸ hplace
          simp [hother, hne]
        · simp [hplace, beq_eq_false_iff_ne.mpr hother]

theorem entry?_put (disk : Disk) (place : Place) (entry : Entry) (other : Place) :
    Disk.entry? (disk.put place entry) other =
      if other = place then some entry else disk.entry? other := by
  unfold put entry?
  cases hany : disk.entries.any fun known => known.1 == place with
  | false =>
      have hfree : disk.entries.find? (fun known => known.1 == place) = none := by
        simpa using hany
      rw [if_neg Bool.false_ne_true, List.find?_append]
      by_cases hother : other = place
      · subst hother
        simp [hfree]
      · simp [hother, beq_eq_false_iff_ne.mpr (Ne.symm hother)]
  | true =>
      rw [if_pos rfl, find?_map_put]
      by_cases hother : other = place
      · subst hother
        obtain ⟨known, hknown⟩ := Option.isSome_iff_exists.mp (List.find?_isSome.mpr
          (List.any_eq_true.mp hany))
        simp [hknown]
      · rw [if_neg hother, if_neg hother]

/-- What is put at a free place can be taken away again. -/
theorem remove_put (h : disk.entry? place = none) (entry : Entry) :
    (disk.put place entry).remove place = disk := by
  have hkeep : (disk.entries.filter fun known => known.1 != place) = disk.entries := by
    rw [List.filter_eq_self]
    intro known hknown
    simpa using entry?_eq_none_iff.mp h known hknown
  rw [put, any_eq_false_of_entry? h, if_neg Bool.false_ne_true, remove]
  simp [hkeep]

/-! ## The fresh name -/

theorem le_foldl_length (names : List String) (total : Nat) :
    total ≤ names.foldl (fun total name => total + name.length) total ∧
      ∀ name ∈ names,
        name.length ≤ names.foldl (fun total name => total + name.length) total := by
  induction names generalizing total with
  | nil => simp
  | cons name rest ih =>
      obtain ⟨htotal, hrest⟩ := ih (total + name.length)
      simp only [List.foldl_cons, List.mem_cons]
      refine ⟨by omega, ?_⟩
      rintro other (rfl | hother)
      · omega
      · exact hrest other hother

theorem length_le_foldl_names (entries : List (Place × Entry)) (total : Nat) :
    total ≤ entries.foldl (fun total entry =>
        entry.1.foldl (fun total name => total + name.length) total) total ∧
      ∀ known ∈ entries, ∀ name ∈ known.1,
        name.length ≤ entries.foldl (fun total entry =>
          entry.1.foldl (fun total name => total + name.length) total) total := by
  induction entries generalizing total with
  | nil => simp
  | cons known rest ih =>
      obtain ⟨htotal, hnames⟩ := le_foldl_length known.1 total
      obtain ⟨hmore, hrest⟩ :=
        ih (known.1.foldl (fun total name => total + name.length) total)
      simp only [List.foldl_cons, List.mem_cons]
      refine ⟨Nat.le_trans htotal hmore, ?_⟩
      rintro other (rfl | hother) name hname
      · exact Nat.le_trans (hnames name hname) hmore
      · exact hrest other hother name hname

theorem entry?_freshName (disk : Disk) (parent : Place) :
    disk.entry? (parent ++ [disk.freshName]) = none := by
  rw [entry?_eq_none_iff]
  intro known hknown hplace
  have hname : disk.freshName ∈ known.1 := by
    rw [hplace]
    exact List.mem_append_right _ List.mem_cons_self
  have hle : disk.freshName.length ≤ disk.namesLength :=
    (length_le_foldl_names disk.entries 0).2 known hknown _ hname
  have hlength : disk.freshName.length = disk.namesLength + 1 := by
    rw [freshName, String.length_ofList, List.length_cons, List.length_replicate]
  omega

end GrammarTable.Disk
