import ClaudeManager.Messaging.Base

/-!
# The channel index

Channel paths by ID and IDs by path. Each side lists exactly what the other one does, so
a lookup on either side answers the same question.
-/

namespace ClaudeManager

open Containers

/-- Channel paths and the reverse index from a channel's ID to its paths. -/
structure ChannelIndex where
  byPath : Map String := ∅
  paths : Map StrSet := ∅
  /-- Each index lists exactly what the other one does. -/
  mem_paths_iff : ∀ id path : String, path ∈ entryD paths id ∅ ↔ byPath[path]? = some id := by
    intro id path
    simp [entryD]
  /-- An ID without paths is not listed. -/
  paths_nonempty : ∀ (id : String) (ps : StrSet), paths[id]? = some ps → ∃ path, path ∈ ps := by
    intro id ps h
    simp at h

namespace ChannelIndex

/-- No channel is listed. -/
def empty : ChannelIndex := {}

/-- The reverse index without `path` under the ID it had. -/
def unbind (ix : ChannelIndex) (path : String) : Map StrSet :=
  match ix.byPath[path]? with
  | none => ix.paths
  | some old =>
    match ix.paths[old]? with
    | none => ix.paths
    | some ps =>
      if (ps.erase path).isEmpty then ix.paths.erase old else ix.paths.insert old (ps.erase path)

theorem mem_unbind_iff {ix : ChannelIndex} {path id p : String} :
    p ∈ entryD (ix.unbind path) id ∅ ↔ p ≠ path ∧ ix.byPath[p]? = some id := by
  have hmem := ix.mem_paths_iff
  unfold unbind
  cases hold : ix.byPath[path]? with
  | none =>
    simp only [hmem]
    constructor
    · intro h
      refine ⟨?_, h⟩
      rintro rfl
      rw [hold] at h
      cases h
    · exact And.right
  | some old =>
    have hin : path ∈ entryD ix.paths old ∅ := (hmem old path).mpr hold
    cases hps : ix.paths[old]? with
    | none => simp [entryD, hps] at hin
    | some ps =>
      simp only [hps]
      have hps' : ∀ q, q ∈ ps ↔ ix.byPath[q]? = some old := by
        intro q
        rw [← hmem old q, entryD, hps]
        rfl
      by_cases hid : id = old
      · subst hid
        have hgoal : p ∈ ps.erase path ↔ p ≠ path ∧ ix.byPath[p]? = some id := by
          rw [mem_erase_set, hps']
        by_cases hempty : (ps.erase path).isEmpty
        · rw [if_pos hempty]
          simp only [entryD, getElem?_erase_map, if_true, Option.getD_none]
          have hnot : p ∉ ps.erase path := by
            intro h
            rw [Std.ExtTreeSet.isEmpty_iff] at hempty
            rw [hempty] at h
            simp at h
          simp [← hgoal, hnot]
        · rw [if_neg hempty]
          simpa only [entryD, getElem?_insert_map, if_true, Option.getD_some] using hgoal
      · have hother : entryD (if (ps.erase path).isEmpty then ix.paths.erase old
            else ix.paths.insert old (ps.erase path)) id ∅ = entryD ix.paths id ∅ := by
          split
          · simp [entryD, getElem?_erase_map, hid]
          · simp [entryD, getElem?_insert_map, hid]
        rw [hother, hmem]
        constructor
        · intro h
          refine ⟨?_, h⟩
          rintro rfl
          rw [hold] at h
          exact hid (Option.some.inj h).symm
        · exact And.right

theorem unbind_nonempty {ix : ChannelIndex} {path id : String} {ps : StrSet}
    (h : (ix.unbind path)[id]? = some ps) : ∃ p, p ∈ ps := by
  unfold unbind at h
  cases hold : ix.byPath[path]? with
  | none => exact ix.paths_nonempty id ps (by simpa [hold] using h)
  | some old =>
    cases hps : ix.paths[old]? with
    | none => exact ix.paths_nonempty id ps (by simpa [hold, hps] using h)
    | some qs =>
      simp only [hold, hps] at h
      by_cases hempty : (qs.erase path).isEmpty
      · rw [if_pos hempty, getElem?_erase_map] at h
        split at h
        · cases h
        · exact ix.paths_nonempty id ps h
      · rw [if_neg hempty, getElem?_insert_map] at h
        split at h
        · cases h
          exact exists_mem_of_not_isEmpty hempty
        · exact ix.paths_nonempty id ps h

/-- Bind a channel path to an ID, and drop the path from the ID it had. -/
def bind (ix : ChannelIndex) (path id : String) : ChannelIndex where
  byPath := ix.byPath.insert path id
  paths := upsert (ix.unbind path) id ∅ (·.insert path)
  mem_paths_iff := by
    intro id' p
    rw [entryD_upsert, getElem?_insert_map]
    by_cases hid : id' = id
    · subst hid
      rw [if_pos rfl, mem_insert_set, mem_unbind_iff]
      by_cases hp : p = path
      · simp [hp]
      · simp [hp]
    · rw [if_neg hid, mem_unbind_iff]
      by_cases hp : p = path
      · have hne : ¬ id = id' := fun e => hid e.symm
        simp [hp, hne]
      · simp [hp]
  paths_nonempty := by
    intro id' ps h
    rw [getElem?_upsert] at h
    split at h
    · cases h
      exact ⟨path, by rw [mem_insert_set]; exact .inl rfl⟩
    · exact unbind_nonempty h

/-- An ID is listed exactly where some path is bound to it. -/
theorem contains_paths_iff {ix : ChannelIndex} {id : String} :
    ix.paths.contains id = true ↔ ∃ path : String, ix.byPath[path]? = some id := by
  rw [Std.ExtTreeMap.contains_iff_mem, Std.ExtTreeMap.mem_iff_isSome_getElem?]
  constructor
  · intro h
    obtain ⟨ps, hps⟩ := Option.isSome_iff_exists.mp h
    obtain ⟨path, hpath⟩ := ix.paths_nonempty id ps hps
    exact ⟨path, (ix.mem_paths_iff id path).mp (by simpa [entryD, hps] using hpath)⟩
  · rintro ⟨path, hpath⟩
    have hin := (ix.mem_paths_iff id path).mpr hpath
    cases hps : ix.paths[id]? with
    | none => simp [entryD, hps] at hin
    | some ps => rfl

end ChannelIndex

end ClaudeManager
