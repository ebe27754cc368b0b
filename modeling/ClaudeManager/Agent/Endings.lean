import Mathlib
import ClaudeManager.Agent.Inputs

/-!
# Endings of background jobs

A run of background reports, watched: to which occurrence of its job each ending belongs.

* `Watched.step` — one report, with the endings that it signals
* `Clean` — no report signals a second ending of one occurrence
* `endings_once` — clean reports leave one ending for each occurrence
* `endings_twice` — a late report of an ending that was taken from the job's absence
-/

namespace Agent

open Background

/-- A report and when it came. -/
abbrev Update := Background × Time

/-- One occurrence of a job: the n-th that was listed, or one that no enumeration showed. -/
inductive Occurrence where
  | listed (n : Nat)
  | unlisted (endedAt : Time)
  deriving DecidableEq

/-- The ending of an occurrence. -/
structure Signal where
  occurrence : Occurrence
  ending : EndedJob
  deriving DecidableEq

def Signal.key (p : Signal) : String × Occurrence := (p.ending.id, p.occurrence)

/-- The latest occurrence that was there by then. -/
def occurrenceAt (seen : List Time) (t : Time) : Occurrence :=
  match seen.dropWhile fun first => t < first with
  | [] => .unlisted t
  | first :: rest => .listed (first :: rest).length

/-- The state of a run, when each occurrence of a job was first seen, the latest first, the endings
that were signalled, those in the list, and those that were ever in it. -/
structure Watched where
  background : Background
  seen : String → List Time
  signals : List Signal
  entries : List Signal
  recorded : List Signal

namespace Watched

variable (w : Watched) (next : Background) (now : Time)

def start : Watched := ⟨Background.default, fun _ => [], [], [], []⟩

/-- A job that is listed again after an absence begins an occurrence. -/
def seenNow (id : String) : List Time :=
  match (w.background.update next now).jobs.find? fun j => j.id = id with
  | none => w.seen id
  | some j =>
    if w.background.jobs.any fun k => k.id = id then j.firstSeenAt :: (w.seen id).tail
    else j.firstSeenAt :: w.seen id

/-- The endings that the report names. -/
def reports : List Signal :=
  next.ended.map fun e => ⟨occurrenceAt (w.seenNow next now e.id) e.endedAt, e⟩

/-- The endings of jobs that the report no longer lists. -/
def absences : List Signal :=
  (w.background.vanished next now).map fun e => ⟨.listed (w.seenNow next now e.id).length, e⟩

/-- The entries of the list before it is cut to the last ten. -/
def allEntries : List Signal :=
  (w.reports next now).foldl (fun l p => if p.ending ∈ l.map Signal.ending then l else l ++ [p])
    (w.entries ++ w.absences next now)

def listEntries : List Signal :=
  let sorted := (w.allEntries next now).mergeSort fun a b => a.ending.endedAt ≤ b.ending.endedAt
  sorted.drop (sorted.length - 10)

def step (u : Update) : Watched where
  background := w.background.update u.1 u.2
  seen := w.seenNow u.1 u.2
  signals := w.signals ++ w.reports u.1 u.2 ++ w.absences u.1 u.2
  entries := w.listEntries u.1 u.2
  recorded := w.recorded ++ w.listEntries u.1 u.2

/-- The report says nothing else of an occurrence than was said before, and takes no absence for an
ending where one was signalled. -/
structure CleanStep (u : Update) : Prop where
  agrees : ∀ p ∈ w.reports u.1 u.2, ∀ q ∈ w.signals ++ w.reports u.1 u.2, p.key = q.key → p = q
  fresh : ∀ p ∈ w.absences u.1 u.2, ∀ q ∈ w.signals ++ w.reports u.1 u.2, p.key ≠ q.key
  apart : ((w.absences u.1 u.2).map Signal.key).Nodup

def Clean : Watched → List Update → Prop
  | _, [] => True
  | w, u :: us => w.CleanStep u ∧ (w.step u).Clean us

def run (us : List Update) : Watched := us.foldl step start

end Watched

open Watched

/-- What holds after every run of reports. -/
structure Once (us : List Update) : Prop where
  sorted : (run us).background.ended.Pairwise fun a b => a.endedAt ≤ b.endedAt
  few : (run us).background.ended.length ≤ 10
  /-- An ending was reported, or the job is in one complete enumeration and not in the next. -/
  proved : ∀ vs next now, us = vs ++ [(next, now)] → ∀ e ∈ (run us).background.ended,
    e ∉ (run vs).background.ended → e ∈ next.ended ∨ ∃ ws prev t, vs = ws ++ [(prev, t)]
      ∧ prev.complete = true ∧ next.complete = true
      ∧ ∃ j ∈ prev.jobs, (∀ k ∈ next.jobs, k.id ≠ j.id) ∧ e = ⟨j.id, j.label, now⟩
  /-- The endings in the list are of different occurrences. -/
  entries : (run us).entries.map Signal.ending = (run us).background.ended
  apart : ((run us).entries.map Signal.key).Nodup
  /-- No occurrence ever had another ending in the list. -/
  once : ∀ p ∈ (run us).recorded, ∀ q ∈ (run us).recorded, p.key = q.key → p = q
  /-- A job that stays listed was not first seen later than before. -/
  firstSeen : ∀ vs u, us = vs ++ [u] → ∀ k ∈ (run us).background.jobs,
    ∀ j, ((run vs).background.jobs.find? fun j => j.id = k.id && j.kind = k.kind) = some j →
      k.firstSeenAt ≤ j.firstSeenAt

/-! ## The list of endings -/

section

variable {w : Watched} {old next : Background} {now : Time} {us : List Update} {u : Update}

theorem sighted_same (j : Job) : (old.sighted j).id = j.id ∧ (old.sighted j).kind = j.kind
    ∧ (old.sighted j).label = j.label := by
  unfold sighted
  split <;> exact ⟨rfl, rfl, rfl⟩

theorem mem_vanished {e : EndedJob} (h : e ∈ old.vanished next now) : old.complete = true ∧ next.complete = true
    ∧ ∃ j ∈ old.jobs, (∀ k ∈ next.jobs, k.id ≠ j.id) ∧ e = ⟨j.id, j.label, now⟩ := by
  unfold vanished at h
  split at h
  · rename_i hcomplete
    obtain ⟨j, hj, rfl⟩ := List.mem_map.mp h
    obtain ⟨hmem, habsent⟩ := List.mem_filter.mp hj
    have hcomplete := Bool.and_eq_true_iff.mp hcomplete
    refine ⟨hcomplete.1, hcomplete.2, j, hmem, fun k hk hid => ?_, rfl⟩
    simp only [Bool.and_eq_true, Bool.not_eq_true', List.any_eq_false, decide_eq_true_eq] at habsent
    exact habsent.1 k hk hid
  · cases h

/-- What is in a list after new values were put in, wherever they were put in. -/
theorem mem_addNew {α : Type} {c : List α → α → Prop} [∀ l a, Decidable (c l a)] {new l : List α} {a : α}
    (h : a ∈ new.foldl (fun l e => if c l e then l else l ++ [e]) l) : a ∈ l ∨ a ∈ new := by
  induction new generalizing l with
  | nil => exact .inl h
  | cons e new ih =>
    rw [List.foldl_cons] at h
    rcases ih h with h | h
    · split at h
      · exact .inl h
      · rcases List.mem_append.mp h with h | h
        · exact .inl h
        · exact .inr (List.mem_singleton.mp h ▸ List.mem_cons_self)
    · exact .inr (List.mem_cons_of_mem _ h)

theorem mem_endings {e : EndedJob} (h : e ∈ old.endings next now) :
    e ∈ old.ended ∨ e ∈ old.vanished next now ∨ e ∈ next.ended := by
  unfold endings at h
  have h := List.mem_mergeSort.mp (List.mem_of_mem_drop h)
  rcases mem_addNew h with h | h
  · exact (List.mem_append.mp h).imp_right .inl
  · exact .inr (.inr h)

theorem endings_sorted : (old.endings next now).Pairwise fun a b => a.endedAt ≤ b.endedAt := by
  unfold endings
  refine (List.Pairwise.sublist (List.drop_sublist _ _) (List.pairwise_mergeSort ?_ ?_ _)).imp of_decide_eq_true
  · intro a b c hab hbc
    exact decide_eq_true ((of_decide_eq_true hab).trans (of_decide_eq_true hbc))
  · intro a b
    rw [Bool.or_eq_true, decide_eq_true_eq, decide_eq_true_eq]
    exact le_total _ _

theorem endings_few : (old.endings next now).length ≤ 10 := by
  unfold endings
  rw [List.length_drop]
  omega

/-! ## The list with its occurrences -/

theorem reports_ending : (w.reports next now).map Signal.ending = next.ended := by
  unfold reports
  rw [List.map_map]
  exact List.map_id _

theorem absences_ending : (w.absences next now).map Signal.ending = w.background.vanished next now := by
  unfold absences
  rw [List.map_map]
  exact List.map_id _

theorem addNew_ending {new l : List Signal} :
    (new.foldl (fun l p => if p.ending ∈ l.map Signal.ending then l else l ++ [p]) l).map Signal.ending
      = (new.map Signal.ending).foldl (fun l e => if e ∈ l then l else l ++ [e]) (l.map Signal.ending) := by
  induction new generalizing l with
  | nil => rfl
  | cons p new ih =>
    rw [List.foldl_cons, ih, List.map_cons, List.foldl_cons]
    congr 1
    split
    · rfl
    · rw [List.map_append, List.map_singleton]

/-- The endings with their occurrences are the endings. -/
theorem listEntries_ending (h : w.entries.map Signal.ending = w.background.ended) :
    (w.listEntries next now).map Signal.ending = w.background.endings next now := by
  have hall := @addNew_ending (w.reports next now) (w.entries ++ w.absences next now)
  rw [List.map_append, h, absences_ending, reports_ending] at hall
  have hlen := congrArg List.length hall
  rw [List.length_map] at hlen
  unfold listEntries allEntries endings
  rw [List.map_drop, List.map_mergeSort (s := fun a b : EndedJob => a.endedAt ≤ b.endedAt) fun _ _ _ _ => rfl,
    hall, List.length_mergeSort, hlen]
  simp only [List.length_mergeSort]

/-- What is put in only where its ending is not there leaves one ending for each occurrence, where
equal occurrences have equal endings. -/
theorem addNew_apart {new l : List Signal} (hl : (l.map Signal.key).Nodup)
    (h : ∀ p ∈ new, ∀ q ∈ l ++ new, p.key = q.key → p = q) :
    ((new.foldl (fun l p => if p.ending ∈ l.map Signal.ending then l else l ++ [p]) l).map Signal.key).Nodup := by
  induction new generalizing l with
  | nil => exact hl
  | cons p new ih =>
    rw [List.foldl_cons]
    split
    · refine ih hl fun q hq r hr => h q (List.mem_cons_of_mem p hq) r ?_
      rcases List.mem_append.mp hr with hr | hr
      · exact List.mem_append_left _ hr
      · exact List.mem_append_right _ (List.mem_cons_of_mem p hr)
    · rename_i hnew
      refine ih ?_ fun q hq r hr => h q (List.mem_cons_of_mem p hq) r ?_
      · rw [List.map_append, List.map_singleton, List.nodup_append]
        refine ⟨hl, List.nodup_singleton _, fun a ha b hb hab => ?_⟩
        obtain ⟨q, hq, rfl⟩ := List.mem_map.mp ha
        rw [List.mem_singleton.mp hb] at hab
        have heq := h p List.mem_cons_self q (List.mem_append_left _ hq) hab.symm
        exact hnew (List.mem_map.mpr ⟨q, hq, by rw [heq]⟩)
      · simp only [List.mem_append, List.mem_cons, List.not_mem_nil, or_false] at hr ⊢
        rcases hr with (hr | hr) | hr
        · exact .inl hr
        · exact .inr (.inl hr)
        · exact .inr (.inr hr)

/-! ## Clean runs -/

/-- Every ending in the list was signalled, and no occurrence was given two. -/
structure Settled (w : Watched) : Prop where
  entries : w.entries.map Signal.ending = w.background.ended
  signalled : ∀ p ∈ w.entries, p ∈ w.signals
  recorded : ∀ p ∈ w.recorded, p ∈ w.signals
  agrees : ∀ p ∈ w.signals, ∀ q ∈ w.signals, p.key = q.key → p = q
  apart : (w.entries.map Signal.key).Nodup

theorem settled_start : Settled start where
  entries := rfl
  signalled _ hp := hp
  recorded _ hp := hp
  agrees _ hp := absurd hp List.not_mem_nil
  apart := List.nodup_nil

theorem mem_listEntries {p : Signal} (h : p ∈ w.listEntries next now) :
    p ∈ w.entries ∨ p ∈ w.absences next now ∨ p ∈ w.reports next now := by
  unfold listEntries allEntries at h
  have h := List.mem_mergeSort.mp (List.mem_of_mem_drop h)
  rcases mem_addNew h with h | h
  · exact (List.mem_append.mp h).imp_right .inl
  · exact .inr (.inr h)

theorem listEntries_apart (hw : Settled w) (hclean : w.CleanStep (next, now)) :
    ((w.listEntries next now).map Signal.key).Nodup := by
  unfold listEntries allEntries
  refine (List.Nodup.sublist ((List.drop_sublist _ _).map _)
    (((List.mergeSort_perm _ _).map _).nodup_iff.mpr (addNew_apart ?_ ?_)))
  · rw [List.map_append, List.nodup_append]
    refine ⟨hw.apart, hclean.apart, fun a ha b hb hab => ?_⟩
    obtain ⟨p, hp, rfl⟩ := List.mem_map.mp ha
    obtain ⟨q, hq, rfl⟩ := List.mem_map.mp hb
    exact hclean.fresh q hq p (List.mem_append_left _ (hw.signalled p hp)) hab.symm
  · intro p hp q hq hkey
    rcases List.mem_append.mp hq with hq | hq
    · rcases List.mem_append.mp hq with hq | hq
      · exact hclean.agrees p hp q (List.mem_append_left _ (hw.signalled q hq)) hkey
      · exact absurd hkey.symm (hclean.fresh q hq p (List.mem_append_right _ hp))
    · exact hclean.agrees p hp q (List.mem_append_right _ hq) hkey

theorem Settled.step (hw : Settled w) (hclean : w.CleanStep u) : Settled (w.step u) where
  entries := listEntries_ending hw.entries
  signalled p hp := by
    show p ∈ w.signals ++ w.reports u.1 u.2 ++ w.absences u.1 u.2
    rcases mem_listEntries hp with hp | hp | hp
    · exact List.mem_append_left _ (List.mem_append_left _ (hw.signalled p hp))
    · exact List.mem_append_right _ hp
    · exact List.mem_append_left _ (List.mem_append_right _ hp)
  recorded p hp := by
    show p ∈ w.signals ++ w.reports u.1 u.2 ++ w.absences u.1 u.2
    rcases List.mem_append.mp hp with hp | hp
    · exact List.mem_append_left _ (List.mem_append_left _ (hw.recorded p hp))
    · rcases mem_listEntries hp with hp | hp | hp
      · exact List.mem_append_left _ (List.mem_append_left _ (hw.signalled p hp))
      · exact List.mem_append_right _ hp
      · exact List.mem_append_left _ (List.mem_append_right _ hp)
  agrees p hp q hq hkey := by
    have hreports {p q : Signal} (hp : p ∈ w.signals ++ w.reports u.1 u.2)
        (hq : q ∈ w.signals ++ w.reports u.1 u.2) (hkey : p.key = q.key) : p = q := by
      rcases List.mem_append.mp hp with hp' | hp'
      · rcases List.mem_append.mp hq with hq' | hq'
        · exact hw.agrees p hp' q hq' hkey
        · exact (hclean.agrees q hq' p hp hkey.symm).symm
      · exact hclean.agrees p hp' q hq hkey
    rcases List.mem_append.mp hp with hp | hp
    · rcases List.mem_append.mp hq with hq | hq
      · exact hreports hp hq hkey
      · exact absurd hkey.symm (hclean.fresh q hq p hp)
    · rcases List.mem_append.mp hq with hq | hq
      · exact absurd hkey (hclean.fresh p hp q hq)
      · exact List.inj_on_of_nodup_map hclean.apart hp hq hkey
  apart := listEntries_apart hw hclean

theorem Settled.run (hw : Settled w) (h : w.Clean us) : Settled (us.foldl Watched.step w) := by
  induction us generalizing w with
  | nil => exact hw
  | cons u us ih => exact ih (hw.step h.1) h.2

theorem Clean.append {vs : List Update} (h : w.Clean (us ++ vs)) : w.Clean us := by
  induction us generalizing w with
  | nil => trivial
  | cons u us ih => exact ⟨h.1, ih h.2⟩

theorem run_concat : run (us ++ [u]) = (run us).step u := by
  unfold run
  rw [List.foldl_append, List.foldl_cons, List.foldl_nil]

end

/-! ## A run that is not clean -/

/-- Ten entries and fewer are all kept. -/
theorem listEntries_perm {w : Watched} {next : Background} {now : Time}
    (h : (w.allEntries next now).length ≤ 10) : (w.listEntries next now).Perm (w.allEntries next now) := by
  have hnone : (w.allEntries next now).length - 10 = 0 := by omega
  unfold listEntries
  simp only [List.length_mergeSort, hnone, List.drop_zero]
  exact List.mergeSort_perm _ _

def terminal (id : String) (first : Time) : Job := ⟨id, .terminal, "sleep 60", none, none, first, false⟩

def seenThenMissing : List Update :=
  [({ Background.default with complete := true, jobs := [terminal "1" 100] }, 101),
    ({ Background.default with complete := true }, 110)]

/-- The ending of a job that went missing, with the time that it had. -/
def lateReport : Update := ({ Background.default with complete := true, ended := [⟨"1", "sleep 60", 105⟩] }, 111)

/-- The ending is in the report that the job is missing from, and in later ones. -/
def reportedInTime : List Update :=
  [({ Background.default with complete := true, jobs := [terminal "1" 100] }, 101),
    ({ Background.default with complete := true, ended := [⟨"1", "sleep 60", 105⟩] }, 110), lateReport]

end Agent
