import Screencast.Render.Basic

/-!
# Writing to a path more than once

A path either can be written to or not, whatever the file is to hold, and a file that was written can
be written again: it is no folder, so the way to it does not lead through it.
-/

namespace Screencast

namespace Disk

variable {disk : Disk} {place : Place} {path : List Char}

theorem entry?_put_of_ne {other : Place} (h : other ≠ place) (entry : Entry) :
    entry? (disk.put place entry) other = disk.entry? other := by
  unfold entry? put
  split
  · rfl
  · exact (Std.TreeMap.getElem?_insert).trans (if_neg fun heq => h (Std.LawfulEqCmp.eq_of_compare heq).symm)

theorem entry?_put_self (h : place ≠ []) (entry : Entry) :
    entry? (disk.put place entry) place = some entry := by
  unfold entry? put
  rw [if_neg h]
  exact Std.TreeMap.getElem?_insert_self

/-- A way to a place that is no folder does not lead through it. -/
theorem follow_put_file {names : List (List Char)} {last : Place}
    (hfollow : disk.follow place names = .ok last) (hlast : disk.isFolder last = false)
    (content : Content) : (disk.put last (.file content)).follow place names = .ok last := by
  induction names generalizing place with
  | nil => exact hfollow
  | cons name rest ih =>
      cases hentry : disk.entry? place with
      | none => simp only [follow, hentry, reduceCtorEq] at hfollow
      | some entry =>
          cases entry with
          | file content => simp only [follow, hentry, reduceCtorEq] at hfollow
          | folder =>
              have hne : place ≠ last := by
                rintro rfl
                rw [isFolder, hentry] at hlast
                cases hlast
              simp only [follow, hentry, entry?_put_of_ne hne] at hfollow ⊢
              -- the four ways in which a name is followed are the same on both disks
              split at hfollow
              · next hhere => rw [if_pos hhere]; exact ih hfollow
              · next hhere =>
                rw [if_neg hhere]
                split at hfollow
                · next habove => rw [if_pos habove]; exact ih hfollow
                · next habove =>
                  rw [if_neg habove]
                  split at hfollow
                  · cases hfollow
                  · next hname => rw [if_neg hname]; exact ih hfollow

theorem locate_put_file (hlocate : disk.locate path = .ok place)
    (hplace : disk.isFolder place = false) (content : Content) :
    (disk.put place (.file content)).locate path = .ok place := by
  unfold locate locateFrom at hlocate ⊢
  split at hlocate
  · cases hlocate
  · next hnull =>
    split at hlocate
    · cases hlocate
    · next hempty =>
      split at hlocate
      · cases hlocate
      · next hlong =>
        rw [if_neg hnull, if_neg hempty, if_neg hlong]
        cases hfollow : disk.follow (if Path.isAbsolute path then [] else disk.current)
            (Path.names path) with
        | error fault =>
            rw [hfollow] at hlocate
            cases hlocate
        | ok last =>
            rw [hfollow] at hlocate
            obtain rfl : last = place := by
              cases hlocate
              rfl
            have hagain := follow_put_file hfollow hplace content
            rw [show (disk.put last (.file content)).current = disk.current from rfl, hagain]
            rfl

/-- What writing to a path takes: it means a place that is no folder. -/
theorem write_eq_ok_iff {content : Content} {written : Disk} :
    disk.write path content = .ok written ↔
      ∃ place, disk.locate path = .ok place ∧ disk.isFolder place = false ∧
        written = disk.put place (.file content) := by
  unfold write isFolder
  cases disk.locate path with
  | error error => exact ⟨nofun, fun ⟨_, h, _⟩ => nomatch h⟩
  | ok place =>
      simp only [bind, Except.bind, Except.ok.injEq, exists_eq_left']
      rcases disk.entry? place with _ | ⟨_ | content⟩
      · exact ⟨fun h => ⟨rfl, by cases h; rfl⟩, fun h => by rw [h.2]; rfl⟩
      · exact ⟨nofun, fun h => nomatch h.1⟩
      · exact ⟨fun h => ⟨rfl, by cases h; rfl⟩, fun h => by rw [h.2]; rfl⟩

/-- What a file is to hold does not matter. -/
theorem write_content {content : Content} {written : Disk}
    (h : disk.write path content = .ok written) (content' : Content) :
    ∃ written', disk.write path content' = .ok written' := by
  obtain ⟨place, hlocate, hfolder, -⟩ := write_eq_ok_iff.mp h
  exact ⟨_, write_eq_ok_iff.mpr ⟨place, hlocate, hfolder, rfl⟩⟩

/-- A file that was written can be written again. -/
theorem write_again {content : Content} {written : Disk}
    (h : disk.write path content = .ok written) (content' : Content) :
    ∃ written', written.write path content' = .ok written' := by
  obtain ⟨place, hlocate, hfolder, rfl⟩ := write_eq_ok_iff.mp h
  have hplace : place ≠ [] := by
    rintro rfl
    cases hfolder
  refine ⟨_, write_eq_ok_iff.mpr ⟨place, ?_, ?_, rfl⟩⟩
  · exact locate_put_file hlocate hfolder content
  · rw [isFolder, entry?_put_self hplace]

/-- A file holds what was written. -/
theorem read_of_write {content : Content} {written : Disk}
    (h : disk.write path content = .ok written) : written.read path = .ok content := by
  obtain ⟨place, hlocate, hfolder, rfl⟩ := write_eq_ok_iff.mp h
  have hplace : place ≠ [] := by
    rintro rfl
    cases hfolder
  simp only [read, locate_put_file hlocate hfolder, bind, Except.bind, entry?_put_self hplace]
  rfl

/-- A path to which a file can be written once the folder that it lies in has been made. -/
def Writable (path : List Char) (disk : Disk) : Prop :=
  ∃ made written, disk.makeFolderOf path = .ok made ∧ made.write path (.text []) = .ok written

end Disk

namespace Workshop

variable {shop : Workshop} {path : List Char}

/-- Writing a file changes nothing but the disk, where the file now holds what was written. -/
theorem eq_of_fill {content : Content} {filled : Workshop}
    (h : shop.fill path content = (filled, .ok ())) :
    filled = { shop with disk := filled.disk } ∧ filled.disk.read path = .ok content := by
  unfold fill at h
  cases hwrite : shop.disk.write path content with
  | error error =>
      rw [hwrite] at h
      cases h
  | ok written =>
      rw [hwrite] at h
      cases h
      exact ⟨rfl, Disk.read_of_write hwrite⟩

theorem eq_of_save {content : Content} {saved : Workshop}
    (h : shop.save path content = (saved, .ok ())) :
    saved = { shop with disk := saved.disk } ∧ saved.disk.read path = .ok content := by
  unfold save at h
  cases hmade : shop.disk.makeFolderOf path with
  | error error =>
      rw [hmade] at h
      cases h
  | ok made =>
      simp only [hmade] at h
      have hfilled := eq_of_fill h
      exact hfilled

theorem save_of_writable (h : shop.disk.Writable path) (content : Content) :
    ∃ saved, shop.save path content = (saved, .ok ()) ∧
      ∀ content', ∃ filled, saved.fill path content' = (filled, .ok ()) := by
  obtain ⟨made, _, hmade, hwritten⟩ := h
  obtain ⟨written, hwrite⟩ := Disk.write_content hwritten content
  refine ⟨{ shop with disk := written }, by simp only [save, hmade, fill, hwrite], fun content' => ?_⟩
  obtain ⟨again, hagain⟩ := Disk.write_again hwrite content'
  exact ⟨{ shop with disk := again }, by simp only [fill, hagain]⟩

end Workshop

end Screencast
