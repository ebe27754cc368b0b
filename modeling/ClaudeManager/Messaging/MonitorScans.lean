import ClaudeManager.Messaging.Monitors
import ClaudeManager.Messaging.Intervals

/-!
# What scans count

One watch and the scans it went through: its hits are the publications that matched when a scan first
came past them.

* `scanMonitor_cases` — what a scan makes of a watch
* `judged` — whether a publication matched at the scan that came past it
* `Exact` — the counters of a watch agree with what its scans saw
-/

namespace ClaudeManager

open Json Containers Program

/-! ## One watch -/

/-- Two records of one watch: what was asked of it is the same. -/
structure SameWatch (m m' : Monitor) : Prop where
  id : m'.id = m.id
  taskSubscription : m'.taskSubscription = m.taskSubscription
  scope : m'.scope = m.scope
  mode : m'.mode = m.mode
  includeSelf : m'.includeSelf = m.includeSelf
  expiresAt : m'.expiresAt = m.expiresAt
  start : m'.start = m.start

variable {s t : Store} {w : Watchers} {actor : String} {m m' : Monitor}

theorem SameWatch.refl : SameWatch m m := ⟨rfl, rfl, rfl, rfl, rfl, rfl, rfl⟩

theorem SameWatch.trans {m'' : Monitor} (h : SameWatch m m') (h' : SameWatch m' m'') : SameWatch m m'' :=
  ⟨h'.id.trans h.id, h'.taskSubscription.trans h.taskSubscription, h'.scope.trans h.scope,
    h'.mode.trans h.mode, h'.includeSelf.trans h.includeSelf, h'.expiresAt.trans h.expiresAt,
    h'.start.trans h.start⟩

/-- They match the same publications. -/
theorem SameWatch.hits (h : SameWatch m m') :
    s.monitorMatches w actor m' = s.monitorMatches w actor m := by
  funext e
  unfold Store.monitorMatches Store.taskMonitorMatches Store.taskMonitorCurrent
  rw [h.id, h.taskSubscription, h.includeSelf, h.scope]

theorem taskMonitorCurrent_personal (h : m.taskSubscription = none) :
    s.taskMonitorCurrent actor m = true := by
  unfold Store.taskMonitorCurrent
  rw [h]
  rfl

/-- The position of the last of some publications, else a first position. -/
def lastPosition (es : List Published) (start : Nat) : Nat :=
  (es.getLast?.map Published.position).getD start

@[simp] theorem lastPosition_nil {start : Nat} : lastPosition [] start = start := rfl

@[simp] theorem lastPosition_concat {es : List Published} {e : Published} {start : Nat} :
    lastPosition (es ++ [e]) start = e.position := by
  simp [lastPosition]

theorem lastPosition_cons {es : List Published} {e : Published} {start : Nat} :
    lastPosition (e :: es) start = lastPosition es e.position := by
  cases h : es.getLast? with
  | none =>
    obtain rfl := List.getLast?_eq_none_iff.mp h
    rfl
  | some q => simp [lastPosition, List.getLast?_cons, h]

theorem lastPosition_append {es fs : List Published} {start : Nat} :
    lastPosition (es ++ fs) start = lastPosition fs (lastPosition es start) := by
  induction es generalizing start with
  | nil => rfl
  | cons e es ih => rw [List.cons_append, lastPosition_cons, lastPosition_cons, ih]

theorem lastPosition_mem {es : List Published} (start : Nat) (h : es ≠ []) :
    ∃ e ∈ es, lastPosition es start = e.position := by
  obtain ⟨front, e, rfl⟩ := (List.eq_nil_or_concat' es).resolve_left h
  exact ⟨e, by simp, lastPosition_concat⟩

/-- In order, none of them is behind the last. -/
theorem le_lastPosition {es : List Published} {start : Nat}
    (hes : es.Pairwise fun a b => a.position < b.position) {e : Published} (he : e ∈ es) :
    e.position ≤ lastPosition es start := by
  obtain ⟨front, q, rfl⟩ := (List.eq_nil_or_concat' es).resolve_left (List.ne_nil_of_mem he)
  rw [lastPosition_concat]
  rcases List.mem_append.mp he with he | he
  · obtain ⟨-, -, hcross⟩ := List.pairwise_append.mp hes
    exact (hcross e he q (by simp)).le
  · rw [List.mem_singleton.mp he]

/-- What lies at or before the last of the first publications is one of these. -/
theorem mem_front {done rest : List Published} {start : Nat}
    (hordered : (done ++ rest).Pairwise fun a b => a.position < b.position)
    (hafter : ∀ e ∈ done ++ rest, start < e.position) {e : Published} (he : e ∈ done ++ rest)
    (hle : e.position ≤ lastPosition done start) : e ∈ done := by
  refine (List.mem_append.mp he).resolve_right fun hrest => ?_
  by_cases hdone : done = []
  · subst hdone
    have := hafter e he
    rw [lastPosition_nil] at hle
    omega
  · obtain ⟨q, hq, hlast⟩ := lastPosition_mem start hdone
    obtain ⟨-, -, hcross⟩ := List.pairwise_append.mp hordered
    have := hcross q hq e hrest
    omega

/-! ## One scan -/

/-- The watch after one more hit. -/
def Monitor.hit (m : Monitor) (e : Published) : Monitor :=
  { m with hits := m.hits + 1, hitHigh := e.position }

/-- The watch for one message, closed by it. -/
def Monitor.matchedAt (m : Monitor) (e : Published) : Monitor :=
  { m.hit e with state := .matched, closingFence := some e.position, scanned := e.position }

theorem nextHits_ok {n k : Nat} (h : nextHits n = .ok k) : k = n + 1 := by
  unfold nextHits at h
  split at h
  · exact (except_pure_ok.mp h).symm
  · exact absurd h except_throw_ok

/-- A watch for one message is closed by the first that matches. -/
theorem scanEvents_matched {es : List Published} :
    ∀ {m : Monitor}, s.scanEvents w actor es m = .ok (true, m') → m.mode = .once
      ∧ ∃ before e rest, es = before ++ e :: rest ∧ (∀ x ∈ before, s.monitorMatches w actor m x = false)
        ∧ s.monitorMatches w actor m e = true ∧ m' = m.matchedAt e := by
  induction es with
  | nil =>
    intro m h
    simp [Store.scanEvents] at h
  | cons e es ih =>
    intro m h
    unfold Store.scanEvents at h
    by_cases hmatch : s.monitorMatches w actor m e = true
    · rw [if_pos hmatch] at h
      obtain ⟨k, hk, h⟩ := except_bind_ok.mp h
      obtain rfl := nextHits_ok hk
      by_cases hmode : m.mode = .once
      · rw [if_pos hmode] at h
        cases h
        exact ⟨hmode, [], e, es, rfl, by simp, hmatch, rfl⟩
      · rw [if_neg hmode] at h
        exact absurd (ih h).1 hmode
    · rw [if_neg hmatch] at h
      obtain ⟨hmode, before, e', rest, rfl, hbefore, hmatch', hm'⟩ := ih h
      refine ⟨hmode, e :: before, e', rest, rfl, ?_, hmatch', hm'⟩
      simpa [hmatch] using hbefore

/-- A scan that closes nothing counts what matches. -/
theorem scanEvents_through {es : List Published} :
    ∀ {m : Monitor}, s.scanEvents w actor es m = .ok (false, m') →
      (m.mode = .once → es.filter (s.monitorMatches w actor m) = [])
      ∧ m' = { m with
        hits := m.hits + (es.filter (s.monitorMatches w actor m)).length
        hitHigh := lastPosition (es.filter (s.monitorMatches w actor m)) m.hitHigh } := by
  induction es with
  | nil =>
    intro m h
    simp only [Store.scanEvents, except_pure_ok, Prod.mk.injEq, true_and] at h
    exact ⟨fun _ => rfl, h.symm⟩
  | cons e es ih =>
    intro m h
    unfold Store.scanEvents at h
    by_cases hmatch : s.monitorMatches w actor m e = true
    · rw [if_pos hmatch] at h
      obtain ⟨k, hk, h⟩ := except_bind_ok.mp h
      obtain rfl := nextHits_ok hk
      by_cases hmode : m.mode = .once
      · rw [if_pos hmode] at h
        cases h
      · rw [if_neg hmode] at h
        obtain ⟨-, rfl⟩ := ih h
        have hsame : s.monitorMatches w actor { m with hits := m.hits + 1, hitHigh := e.position } =
            s.monitorMatches w actor m := SameWatch.hits ⟨rfl, rfl, rfl, rfl, rfl, rfl, rfl⟩
        refine ⟨fun hm => absurd hm hmode, ?_⟩
        rw [List.filter_cons_of_pos hmatch, lastPosition_cons, List.length_cons]
        simp only [hsame]
        rw [Nat.add_right_comm, Nat.add_assoc]
    · rw [if_neg hmatch] at h
      rw [List.filter_cons_of_neg hmatch]
      exact ih h

section

variable [Instants] {clock : Int}

/-- What a scan makes of a watch that nobody else manages. -/
inductive Scanned (s : Store) (w : Watchers) (actor : String) (m : Monitor) (clock : Int) : Monitor → Prop
  | skipped : m.state ≠ .active ∨ s.scans actor = false → Scanned s w actor m clock m
  | closed {before rest : List Published} {e : Published} :
    m.state = .active → s.scans actor = true → m.mode = .once →
    s.eventsBetween m.scanned s.position = before ++ e :: rest →
    (∀ x ∈ before, s.monitorMatches w actor m x = false) → s.monitorMatches w actor m e = true →
    Scanned s w actor m clock (m.matchedAt e)
  | through {expired : Bool} {found : List Published} :
    m.state = .active → s.scans actor = true → m.expired clock = .ok expired →
    found = (s.eventsBetween m.scanned s.position).filter (s.monitorMatches w actor m) →
    (m.mode = .once → found = []) →
    Scanned s w actor m clock { m with
      closingFence := if expired then some s.position else none
      hits := m.hits + found.length
      hitHigh := lastPosition found m.hitHigh
      scanned := s.position
      state := if expired then .expired else .active }

/-- The cases of a scan. -/
theorem scanMonitor_cases {b : Bool} (hpersonal : m.taskSubscription = none)
    (hfence : m.state = .active → m.closingFence = none)
    (h : s.scanMonitor w actor m clock = .ok (b, m')) :
    Scanned s w actor m clock m' ∧ (b = false → m' = m) := by
  unfold Store.scanMonitor at h
  by_cases hskip : m.state ≠ .active ∨ ¬ s.taskMonitorCurrent actor m ∨ ¬ s.scans actor
  · rw [if_pos hskip] at h
    cases h
    refine ⟨.skipped ?_, fun _ => rfl⟩
    simpa [taskMonitorCurrent_personal hpersonal] using hskip
  · rw [if_neg hskip] at h
    obtain ⟨hactive, -, hscans⟩ : m.state = .active ∧ s.taskMonitorCurrent actor m = true
        ∧ s.scans actor = true := by simpa [not_or] using hskip
    obtain ⟨expired, hexpired, h⟩ := except_bind_ok.mp h
    have hhigh : (if expired then m.closingFence.or (some s.position) else m.closingFence) =
        if expired then some s.position else none := by simp [hfence hactive]
    simp only [hhigh] at h
    have hposition : (if expired then some s.position else none).getD s.position = s.position := by
      cases expired <;> rfl
    rw [hposition] at h
    obtain ⟨found, hfound, h⟩ := except_bind_ok.mp h
    have hsame : s.monitorMatches w actor
          { m with closingFence := if expired then some s.position else none } =
        s.monitorMatches w actor m := SameWatch.hits ⟨rfl, rfl, rfl, rfl, rfl, rfl, rfl⟩
    obtain ⟨closed, found⟩ := found
    cases closed with
    | true =>
      cases h
      obtain ⟨hmode, before, e, rest, hes, hbefore, he, rfl⟩ := scanEvents_matched hfound
      rw [hsame] at hbefore he
      exact ⟨.closed hactive hscans hmode hes hbefore he, nofun⟩
    | false =>
      cases h
      obtain ⟨honce, rfl⟩ := scanEvents_through hfound
      rw [hsame] at honce
      simp only [hactive]
      refine ⟨.through hactive hscans hexpired rfl honce, fun hb => ?_⟩
      -- nothing was reported: no new position, no hit and no end
      simp only [Bool.or_eq_false_iff, decide_eq_false_iff_not, not_not, Nat.add_eq_left,
        List.length_eq_zero_iff] at hb
      obtain ⟨⟨hscanned, rfl⟩, hnone⟩ := hb
      rw [hnone]
      cases m
      simp_all

end

/-! ## What the scans saw -/

/-- How far the scans of a watch came; they stand with the newest first. -/
def scannedTo (start : Nat) : List (Watching × Int) → Nat
  | [] => start
  | scan :: _ => scan.1.store.position

/-- The publication matched when a scan first came past it. -/
def judged (actor : String) (m : Monitor) : List (Watching × Int) → Published → Bool
  | [], _ => false
  | scan :: older, e =>
    if e.position ≤ scannedTo m.start older then judged actor m older e
    else scan.1.store.monitorMatches scan.1.watchers actor m e

/-- The hits of a watch, by what its scans saw. -/
def counted (actor : String) (m₀ : Monitor) (scans : List (Watching × Int)) (s : Store) (m : Monitor) :
    List Published :=
  (s.eventsBetween m₀.start m.scanned).filter (judged actor m₀ scans)

/-- The counters of a watch agree with what its scans saw since it was registered as `m₀`. -/
structure Exact [Instants] (actor : String) (m₀ : Monitor) (scans : List (Watching × Int)) (s : Store)
    (m : Monitor) : Prop where
  same : SameWatch m₀ m
  start_le : m₀.start ≤ m.scanned
  scanned_le : m.scanned ≤ scannedTo m₀.start scans
  scannedTo_le : scannedTo m₀.start scans ≤ s.position
  active : m.state = .active → m.closingFence = none ∧ m.scanned = scannedTo m₀.start scans
  hits : m.hits = (counted actor m₀ scans s m).length
  hitHigh : m.hitHigh = lastPosition (counted actor m₀ scans s m) m₀.start
  once : m.mode = .once → counted actor m₀ scans s m = []
    ∨ m.state ≠ .active ∧ ∃ e, counted actor m₀ scans s m = [e] ∧ m.scanned = e.position
  matched : m.state = .matched → m.mode = .once ∧ counted actor m₀ scans s m ≠ []
  expiry : ∀ scan ∈ scans, m₀.expired scan.2 = .ok true →
    m.state ≠ .active ∧ m.scanned ≤ scan.1.store.position

/-- The hits up to a position that was scanned are the hits of then. -/
def Settled (actor : String) (m₀ : Monitor) (scans : List (Watching × Int)) (s : Store) (m : Monitor)
    (scans' : List (Watching × Int)) (t : Store) (m' : Monitor) : Prop :=
  m.scanned ≤ m'.scanned
    ∧ ∀ e ∈ counted actor m₀ scans' t m', e.position ≤ m.scanned → e ∈ counted actor m₀ scans s m

variable [Instants] {clock : Int} {m₀ : Monitor} {scans : List (Watching × Int)}

theorem Exact.scanned_position (h : Exact actor m₀ scans s m) : m.scanned ≤ s.position :=
  h.scanned_le.trans h.scannedTo_le

theorem mem_counted (hs : Indexed s) (h : Exact actor m₀ scans s m) {e : Published} :
    e ∈ counted actor m₀ scans s m ↔
      (e ∈ s.events ∧ m₀.start < e.position ∧ e.position ≤ m.scanned) ∧ judged actor m₀ scans e = true := by
  unfold counted
  rw [List.mem_filter, mem_eventsBetween hs h.start_le]

theorem counted_ordered (hs : Indexed s) (h : Exact actor m₀ scans s m) :
    (counted actor m₀ scans s m).Pairwise fun a b => a.position < b.position :=
  (eventsBetween_ordered hs h.start_le).filter _

theorem Exact.hitHigh_le (h : Exact actor m₀ scans s m) (hs : Indexed s) : m.hitHigh ≤ m.scanned := by
  rw [h.hitHigh]
  by_cases hnone : counted actor m₀ scans s m = []
  · rw [hnone]
    exact h.start_le
  · obtain ⟨e, he, hlast⟩ := lastPosition_mem m₀.start hnone
    obtain ⟨⟨-, -, hle⟩, -⟩ := (mem_counted hs h).mp he
    omega

theorem le_hitHigh (hs : Indexed s) (h : Exact actor m₀ scans s m) {e : Published}
    (he : e ∈ counted actor m₀ scans s m) : e.position ≤ m.hitHigh := by
  rw [h.hitHigh]
  exact le_lastPosition (counted_ordered hs h) he

/-- A watch that was just asked for. -/
theorem Exact.asked {r : WatchRequest} {id : String} {start : Nat} (hstart : start ≤ s.position) :
    Exact actor (r.monitor id start) [] s (r.monitor id start) := by
  have hnone : counted actor (r.monitor id start) [] s (r.monitor id start) = [] := by
    unfold counted
    exact List.filter_eq_nil_iff.mpr fun _ _ h => Bool.noConfusion h
  exact {
    same := .refl
    start_le := Nat.le_refl _
    scanned_le := Nat.le_refl _
    scannedTo_le := hstart
    active := fun _ => ⟨rfl, rfl⟩
    hits := by rw [hnone]; rfl
    hitHigh := by rw [hnone]; rfl
    once := fun _ => .inl hnone
    matched := nofun
    expiry := fun _ hscan => (List.not_mem_nil hscan).elim }

/-- Later publications change nothing. -/
theorem Exact.grow (h : Exact actor m₀ scans s m) (hs : Indexed s) (ht : Indexed t)
    (hst : Extended s t) : Exact actor m₀ scans t m := by
  have hcounted : counted actor m₀ scans t m = counted actor m₀ scans s m := by
    unfold counted
    rw [hst.eventsBetween hs ht h.start_le h.scanned_position]
  exact { h with
    scannedTo_le := h.scannedTo_le.trans hst.position
    hits := by rw [hcounted]; exact h.hits
    hitHigh := by rw [hcounted]; exact h.hitHigh
    once := by rw [hcounted]; exact h.once
    matched := by rw [hcounted]; exact h.matched }

theorem Settled.grow (h : Exact actor m₀ scans s m) (hs : Indexed s) (ht : Indexed t)
    (hst : Extended s t) : Settled actor m₀ scans s m scans t m := by
  refine ⟨Nat.le_refl _, fun e he _ => ?_⟩
  unfold counted at he ⊢
  rwa [← hst.eventsBetween hs ht h.start_le h.scanned_position]

/-- A change that leaves the counters, and can only close the watch. -/
structure Monitor.Kept (m m' : Monitor) : Prop where
  same : SameWatch m m'
  scanned : m'.scanned = m.scanned
  hits : m'.hits = m.hits
  hitHigh : m'.hitHigh = m.hitHigh
  state : m'.state = m.state ∧ m'.closingFence = m.closingFence ∨ m'.state = .cancelled ∨ m'.state = .dismissed

theorem Exact.keep (h : Exact actor m₀ scans s m) (hkept : m.Kept m') : Exact actor m₀ scans s m' := by
  have hcounted : counted actor m₀ scans s m' = counted actor m₀ scans s m := by
    unfold counted
    rw [hkept.scanned]
  have hactive : m'.state = .active → m.state = .active ∧ m'.closingFence = m.closingFence := by
    intro hm'
    rcases hkept.state with ⟨hstate, hfence⟩ | hstate | hstate
    · exact ⟨hstate ▸ hm', hfence⟩
    · cases hstate.symm.trans hm'
    · cases hstate.symm.trans hm'
  refine {
    same := h.same.trans hkept.same
    start_le := hkept.scanned ▸ h.start_le
    scanned_le := hkept.scanned ▸ h.scanned_le
    scannedTo_le := h.scannedTo_le
    active := fun hm' => ?_
    hits := by rw [hcounted, hkept.hits]; exact h.hits
    hitHigh := by rw [hcounted, hkept.hitHigh]; exact h.hitHigh
    once := fun hmode => ?_
    matched := fun hm' => ?_
    expiry := fun scan hscan hexpired => ?_ }
  · obtain ⟨hm, hfence⟩ := hactive hm'
    rw [hfence, hkept.scanned]
    exact h.active hm
  · rw [hcounted, hkept.scanned]
    refine (h.once (hkept.same.mode ▸ hmode)).imp_right fun ⟨hm, hone⟩ => ⟨fun hm' => hm (hactive hm').1, hone⟩
  · rw [hcounted, hkept.same.mode]
    rcases hkept.state with ⟨hstate, -⟩ | hstate | hstate
    · exact h.matched (hstate ▸ hm')
    · cases hstate.symm.trans hm'
    · cases hstate.symm.trans hm'
  · obtain ⟨hm, hle⟩ := h.expiry scan hscan hexpired
    exact ⟨fun hm' => hm (hactive hm').1, hkept.scanned ▸ hle⟩

/-! ## A scan keeps the counters exact -/

section

variable {w : Watching}

omit [Instants] in
/-- Up to where the scans had come, nothing is judged again. -/
theorem counted_scan_again {n : Nat} (hle : m₀.start ≤ n) (hn : n ≤ scannedTo m₀.start scans)
    (hs : Indexed s) :
    (s.eventsBetween m₀.start n).filter (judged actor m₀ ((w, clock) :: scans)) =
      (s.eventsBetween m₀.start n).filter (judged actor m₀ scans) := by
  refine List.filter_congr fun e he => ?_
  obtain ⟨-, -, hen⟩ := (mem_eventsBetween hs hle).mp he
  unfold judged
  rw [if_pos (hen.trans hn)]
  cases scans <;> rfl

/-- An open watch counts what matches now among what arrived since. -/
theorem counted_scan (clock : Int) {n : Nat} (h : Exact actor m₀ scans w.store m) (hs : Indexed w.store)
    (hactive : m.state = .active) (hn : m.scanned ≤ n) :
    (w.store.eventsBetween m₀.start n).filter (judged actor m₀ ((w, clock) :: scans)) =
      counted actor m₀ scans w.store m
        ++ (w.store.eventsBetween m.scanned n).filter (w.store.monitorMatches w.watchers actor m) := by
  rw [eventsBetween_append hs h.start_le hn, List.filter_append,
    counted_scan_again h.start_le h.scanned_le hs]
  refine congrArg _ (List.filter_congr fun e he => ?_)
  obtain ⟨-, hafter, -⟩ := (mem_eventsBetween hs hn).mp he
  have hnew : ¬ e.position ≤ scannedTo m₀.start scans := by
    rw [← (h.active hactive).2]
    omega
  rw [judged, if_neg hnew, h.same.hits]

/-- The hits of an open watch for one message. -/
theorem Exact.none_yet (h : Exact actor m₀ scans s m) (hactive : m.state = .active)
    (hmode : m.mode = .once) : counted actor m₀ scans s m = [] :=
  (h.once hmode).resolve_right fun ⟨hclosed, _⟩ => hclosed hactive

theorem Exact.scan (h : Exact actor m₀ scans w.store m) (hs : Indexed w.store)
    (hscans : w.store.scans actor = true) (hscan : Scanned w.store w.watchers actor m clock m') :
    Exact actor m₀ ((w, clock) :: scans) w.store m'
      ∧ Settled actor m₀ scans w.store m ((w, clock) :: scans) w.store m' := by
  cases hscan with
  | skipped hskip =>
    have hclosed : m.state ≠ .active := hskip.resolve_right (by simp [hscans])
    have hcounted : counted actor m₀ ((w, clock) :: scans) w.store m = counted actor m₀ scans w.store m :=
      counted_scan_again h.start_le h.scanned_le hs
    refine ⟨{ h with
      scanned_le := h.scanned_position
      scannedTo_le := Nat.le_refl _
      active := fun hm => absurd hm hclosed
      hits := by rw [hcounted]; exact h.hits
      hitHigh := by rw [hcounted]; exact h.hitHigh
      once := by rw [hcounted]; exact h.once
      matched := by rw [hcounted]; exact h.matched
      expiry := fun scan hscan hexpired => ?_ }, Nat.le_refl _, fun e he _ => hcounted ▸ he⟩
    rcases List.mem_cons.mp hscan with rfl | hscan
    · exact ⟨hclosed, h.scanned_position⟩
    · exact h.expiry scan hscan hexpired
  | @closed before rest e hactive _ hmode hes hbefore he =>
    have hmem : e ∈ w.store.eventsBetween m.scanned w.store.position := by simp [hes]
    obtain ⟨-, hafter, hposition⟩ := (mem_eventsBetween hs h.scanned_position).mp hmem
    have hcounted : counted actor m₀ ((w, clock) :: scans) w.store (m.matchedAt e) = [e] := by
      have hnone := h.none_yet hactive hmode
      have hfirst := eventsBetween_upto hs h.scanned_position hes
      have hfront : before.filter (w.store.monitorMatches w.watchers actor m) = [] :=
        List.filter_eq_nil_iff.mpr fun x hx => by simp [hbefore x hx]
      refine (counted_scan clock h hs hactive hafter.le).trans ?_
      rw [hnone, hfirst, List.filter_append, hfront]
      simp [he]
    refine ⟨{
      same := h.same.trans ⟨rfl, rfl, rfl, rfl, rfl, rfl, rfl⟩
      start_le := h.start_le.trans hafter.le
      scanned_le := hposition
      scannedTo_le := Nat.le_refl _
      active := nofun
      hits := ?_
      hitHigh := by rw [hcounted]; rfl
      once := fun _ => .inr ⟨nofun, e, hcounted, rfl⟩
      matched := fun _ => ⟨hmode, by simp [hcounted]⟩
      expiry := fun scan hscan hexpired => ?_ }, hafter.le, fun x hx hle => ?_⟩
    · have hzero : m.hits = 0 := by rw [h.hits, h.none_yet hactive hmode]; rfl
      rw [hcounted]
      show m.hits + 1 = 1
      omega
    · rcases List.mem_cons.mp hscan with rfl | hscan
      · exact ⟨nofun, hposition⟩
      · exact absurd hactive (h.expiry scan hscan hexpired).1
    · rw [hcounted, List.mem_singleton] at hx
      subst hx
      omega
  | @through expired found hactive _ hexpired hfound honce =>
    have hcounted : ∀ m' : Monitor, m'.scanned = w.store.position →
        counted actor m₀ ((w, clock) :: scans) w.store m' = counted actor m₀ scans w.store m ++ found := by
      intro m' hm'
      rw [hfound, ← counted_scan clock h hs hactive h.scanned_position, ← hm']
      rfl
    have hcounted := hcounted { m with
      closingFence := if expired then some w.store.position else none
      hits := m.hits + found.length
      hitHigh := lastPosition found m.hitHigh
      scanned := w.store.position
      state := if expired then .expired else .active } rfl
    refine ⟨{
      same := h.same.trans ⟨rfl, rfl, rfl, rfl, rfl, rfl, rfl⟩
      start_le := h.start_le.trans h.scanned_position
      scanned_le := Nat.le_refl _
      scannedTo_le := Nat.le_refl _
      active := ?_
      hits := ?_
      hitHigh := ?_
      once := fun hmode => ?_
      matched := ?_
      expiry := fun scan hscan hpast => ?_ }, h.scanned_position, fun x hx hle => ?_⟩
    · cases expired with
      | true => nofun
      | false => exact fun _ => ⟨rfl, rfl⟩
    · rw [hcounted, List.length_append, ← h.hits]
    · rw [hcounted, lastPosition_append, ← h.hitHigh]
    · rw [hcounted, h.none_yet hactive hmode, honce hmode]
      exact .inl rfl
    · cases expired <;> nofun
    · rcases List.mem_cons.mp hscan with rfl | hscan
      · refine ⟨?_, Nat.le_refl _⟩
        have hsame : m.expired clock = m₀.expired clock := by
          unfold Monitor.expired
          rw [h.same.expiresAt]
        rw [hsame] at hexpired
        obtain rfl := Except.ok.inj (hexpired.symm.trans hpast)
        nofun
      · exact absurd hactive (h.expiry scan hscan hpast).1
    · rw [hcounted] at hx
      refine (List.mem_append.mp hx).resolve_right fun hx => ?_
      rw [hfound] at hx
      obtain ⟨-, hafter, -⟩ := (mem_eventsBetween hs h.scanned_position).mp (List.mem_of_mem_filter hx)
      omega

omit [Instants] in
/-- Where every scan judged a publication alike, so did the one that came past it. -/
theorem judged_stable {p : Published → Bool} {e : Published}
    (hstable : ∀ scan ∈ scans, scan.1.store.monitorMatches scan.1.watchers actor m₀ e = p e)
    (hafter : m₀.start < e.position) (hle : e.position ≤ scannedTo m₀.start scans) :
    judged actor m₀ scans e = p e := by
  induction scans with
  | nil =>
    have : e.position ≤ m₀.start := hle
    omega
  | cons scan older ih =>
    unfold judged
    by_cases hold : e.position ≤ scannedTo m₀.start older
    · rw [if_pos hold]
      exact ih (fun scan hscan => hstable scan (List.mem_cons_of_mem _ hscan)) hold
    · rw [if_neg hold]
      exact hstable scan List.mem_cons_self

/-- While a publication matches or not for good, hits are what matches among what was scanned. -/
theorem Exact.hits_stable {p : Published → Bool} (h : Exact actor m₀ scans s m) (hs : Indexed s)
    (hstable : ∀ scan ∈ scans, ∀ e, scan.1.store.monitorMatches scan.1.watchers actor m₀ e = p e) :
    m.hits = ((s.eventsBetween m₀.start m.scanned).filter p).length := by
  rw [h.hits, counted]
  refine congrArg List.length (List.filter_congr fun e he => ?_)
  obtain ⟨-, hafter, hle⟩ := (mem_eventsBetween hs h.start_le).mp he
  exact judged_stable (fun scan hscan => hstable scan hscan e) hafter (hle.trans h.scanned_le)

end

end ClaudeManager
