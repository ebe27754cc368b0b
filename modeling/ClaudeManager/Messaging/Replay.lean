import ClaudeManager.Messaging.ExportPages

/-!
# Replaying the history

What is derived of a history is a function of it: a store that was opened and called in any way, and is not
given up on, is what folding the reducers over its events makes of an empty store.

* `Store.replayed` — a store after one more publication
* `Replays` — a store is its history, folded, and each of its events was reduced where the fold stood
* `opened_replays` — every opened store is, and so agrees with what a restart makes of the same history
-/

namespace ClaudeManager

open Json Containers Program

section

variable [Externals] {b s t : Store} {p : Published} {l : List Published}

/-! ## One publication -/

/-- A store after one more publication. -/
def Store.replayed (s : Store) (p : Published) : Store := (s.reduced p.event).appended p

/-- What is kept of a publication follows from what was kept. -/
theorem kept_replayed : (s.replayed p).kept = (s.kept.replayed p).kept := rfl

theorem kept_replayed_of (h : s.kept = t.kept) : (s.replayed p).kept = (t.replayed p).kept := by
  rw [kept_replayed, h, ← kept_replayed]

theorem kept_replay (h : s.kept = t.kept) :
    (l.foldl Store.replayed s).kept = (l.foldl Store.replayed t).kept := by
  induction l generalizing s t with
  | nil => exact h
  | cons p l ih => exact ih (kept_replayed_of h)

omit [Externals] in
theorem events_of_kept (h : t.kept = s.kept) : t.events = s.events := by
  have hevents : t.kept.events = s.kept.events := by rw [h]
  exact hevents

omit [Externals] in
/-- An empty store keeps only what it is opened with. -/
theorem fresh_keeps : s.fresh.kept = s.kept.fresh.kept := rfl

omit [Externals] in
theorem fresh_of_kept (h : s.kept = t.kept) : s.fresh.kept = t.fresh.kept := by
  rw [fresh_keeps, h, ← fresh_keeps]

omit [Externals] in
theorem fresh_of_space (hdaemon : s.daemonId = t.daemonId) (hspace : s.space = t.space) :
    s.fresh.kept = t.fresh.kept := by
  unfold Store.fresh
  rw [hdaemon, hspace]
  rfl

theorem fresh_replay : (l.foldl Store.replayed s).fresh.kept = s.fresh.kept := by
  induction l generalizing s with
  | nil => rfl
  | cons p l ih => exact ih.trans rfl

/-! ## Histories -/

/-- Every event of a history was reduced where the fold over the earlier ones stood. -/
def Lawful (b : Store) (l : List Published) : Prop :=
  ∀ before p rest, l = before ++ p :: rest →
    ∃ t v, t.kept = (before.foldl Store.replayed b).kept ∧ reduce p.event t = .ok ⟨⟩ v

/-- While it is not given up on, a store is its history, folded over the store it was opened with. -/
def Replays (b s : Store) : Prop :=
  s.degraded = none → s.kept = (s.events.foldl Store.replayed b).kept ∧ Lawful b s.events

theorem Lawful.front (h : Lawful b (l ++ [p])) : Lawful b l :=
  fun before q rest heq => h before q (rest ++ [p]) (by rw [heq, List.append_assoc, List.cons_append])

theorem Lawful.push (h : Lawful b l) {v : Store} (hkept : t.kept = (l.foldl Store.replayed b).kept)
    (hreduce : reduce p.event t = .ok ⟨⟩ v) : Lawful b (l ++ [p]) := by
  intro before q rest heq
  -- the history is split at the new event, or in front of it
  rcases List.eq_nil_or_concat' rest with rfl | ⟨front, last, rfl⟩
  · obtain ⟨rfl, hlast⟩ := List.append_inj' heq rfl
    obtain rfl := List.singleton_inj.mp hlast
    exact ⟨t, v, hkept, hreduce⟩
  · have hsplit : l ++ [p] = (before ++ q :: front) ++ [last] := by simpa using heq
    exact h before q front (List.append_inj' hsplit rfl).1

theorem Replays.of_kept (h : Replays b s) (hkept : t.kept = s.kept)
    (hdegraded : t.degraded = none → s.degraded = none) : Replays b t := by
  intro ht
  rw [hkept, events_of_kept hkept]
  exact h (hdegraded ht)

theorem Replays.push (h : Replays b s) (hkept : t.kept = s.kept)
    (hdegraded : t.degraded = none → s.degraded = none) {v : Store}
    (hreduce : reduce p.event t = .ok ⟨⟩ v) : Replays b (v.pushPublished p) := by
  rw [Store.pushPublished_eq, reduce_ok hreduce]
  intro ht
  obtain ⟨hfold, hlawful⟩ := h (hdegraded ht)
  have hheld : t.events = s.events := events_of_kept hkept
  have hevents : (t.replayed p).events = s.events ++ [p] := congrArg (· ++ [p]) hheld
  have hthere : t.kept = (s.events.foldl Store.replayed b).kept := hkept.trans hfold
  refine ⟨?_, ?_⟩
  · show (t.replayed p).kept = ((t.replayed p).events.foldl Store.replayed b).kept
    rw [hevents, List.foldl_append]
    exact kept_replayed_of hthere
  · show Lawful b (t.replayed p).events
    rw [hevents]
    exact hlawful.push hthere hreduce

/-! ## Calls -/

theorem replays_upkeep : Upkeep (fun s e => s.hasEvent (strv e "id") = false) (Replays b) where
  beside h hs := hs.of_kept h.kept h.degraded
  commit bytes source receipt _ hs := by
    obtain hbeside | ⟨t, ht, -, -, hsettles⟩ := commitBytes_steps rfl
    · exact hs.of_kept hbeside.kept hbeside.degraded
    · obtain ⟨v, p, hreduce, rfl, -, hu⟩ | ⟨v, f, reason, -, hu⟩ := hsettles
      · rw [hu]
        exact hs.push ht.kept ht.degraded hreduce
      · rw [hu]
        nofun
  composed _ h := h.new
  attested _ h := h.new
  uploaded _ h := h.new
  delivered _ h := h.new
  new h := h

/-! ## Reopening -/

theorem applyRebuilt_replays {file : Nat} {prepared : Prepared} {a : PUnit} (hs : Replays b s)
    (h : applyRebuilt file prepared s = .ok a t) : Replays b t := by
  unfold applyRebuilt at h
  rw [bind_check_ok] at h
  obtain ⟨position, -, h⟩ := h
  rw [bind_check_ok] at h
  obtain ⟨pos, -, h⟩ := h
  rw [bind_get_ok, bind_refuse_ok] at h
  obtain ⟨-, h⟩ := h
  cases hevent : prepared.event with
  | none =>
    -- a record of a decision publishes nothing
    simp only [hevent] at h
    rw [bind_unit_ok] at h
    obtain ⟨u, hu, h⟩ := h
    obtain rfl := modify_ok.mp h
    have hframe : s.sansDecisions = u.sansDecisions := after_ok hu ▸ applyReplicationJournal_frame
    have hbeside := Store.Beside.of_decisions hframe
    exact hs.of_kept hbeside.kept hbeside.degraded
  | some checked =>
    simp only [hevent] at h
    rw [bind_check_ok] at h
    obtain ⟨entry, -, h⟩ := h
    rw [bind_query_ok] at h
    obtain ⟨time, -, h⟩ := h
    rw [bind_modify_ok, bind_modify_ok, bind_unit_ok] at h
    obtain ⟨u, hu, h⟩ := h
    rw [bind_unit_ok] at h
    obtain ⟨v, hv, h⟩ := h
    rw [bind_check_ok] at h
    obtain ⟨received, -, h⟩ := h
    rw [bind_check_ok] at h
    obtain ⟨digest, -, h⟩ := h
    obtain rfl := modify_ok.mp h
    have hframe := applyReplicationJournal_frame.trans (congrArg Store.sansDecisions (after_ok hu))
    have hbeside := Store.Beside.of_decisions hframe
    exact hs.push hbeside.kept hbeside.degraded hv

theorem rebuild_replays {files : List (EventPath × String)} {journal : List (Nat × String)} {a : PUnit}
    (hs : Replays b s) (h : rebuild files journal s = .ok a t) : Replays b t := by
  unfold rebuild at h
  induction journal generalizing s with
  | nil =>
    obtain ⟨-, rfl⟩ := pure_ok.mp h
    exact hs
  | cons record journal ih =>
    rw [List.forM_eq_forM, List.forM_cons, bind_unit_ok] at h
    obtain ⟨u, hu, h⟩ := h
    unfold replayRecord at hu
    rw [bind_check_ok] at hu
    obtain ⟨prepared, -, hu⟩ := hu
    exact ih (applyRebuilt_replays hs hu) h

theorem reopen_replays : Replays s.fresh s.reopen := by
  have hempty : Replays s.fresh s.fresh := by
    refine fun _ => ⟨rfl, fun before p rest h => ?_⟩
    have hnil : ([] : List Published) = before ++ p :: rest := h
    simp at hnil
  -- a store that cannot be rebuilt is given up on
  unfold Store.reopen
  split
  · rename_i rebuilt hrebuilt
    exact (rebuild_replays hempty hrebuilt).of_kept rfl id
  · nofun

/-! ## Opened stores -/

variable (huuid : MintsOnce)
  (hparse : ∀ v w, Externals.parse (Externals.compact v) = .ok w → w = v)

include huuid hparse

theorem Opened.replays (hs : Opened s) : ∃ r : Store, Held (Replays r.fresh) s := by
  obtain ⟨r, hfresh, hrun⟩ := hs.reached
  obtain ⟨hindexed, -⟩ := reopen_keeps (s := r) (fun _ _ => trivial) trivial
  exact ⟨r, replays_upkeep.reached huuid hparse hrun ⟨reopen_replays, hindexed, hfresh⟩⟩

/-- What an opened store keeps is its history, folded over an empty store. -/
theorem Opened.replay (hs : Opened s) (hdegraded : s.degraded = none) :
    s.kept = (s.events.foldl Store.replayed s.fresh).kept ∧ Lawful s.fresh s.events := by
  obtain ⟨r, hheld⟩ := hs.replays huuid hparse
  obtain ⟨hfold, hlawful⟩ := hheld.holds hdegraded
  have hfresh : s.fresh.kept = r.fresh.kept := by
    rw [fresh_of_kept hfold, fresh_replay]
    rfl
  refine ⟨hfold.trans (kept_replay hfresh.symm), fun before p rest h => ?_⟩
  obtain ⟨t, v, ht, hreduce⟩ := hlawful before p rest h
  exact ⟨t, v, ht.trans (kept_replay hfresh.symm), hreduce⟩

end

/-! ## A replayed peer -/

section

local instance replayedText : Externals := briefText

end

end ClaudeManager
