import Mathlib
import ClaudeManager.Program.Runs
import ClaudeManager.Monitor.Watch

/-!
# Interruptions of a watch

* `History` — what a watch has seen since it was armed, its interruptions apart
* `Watched.Clean` — an interruption that loses nothing, a look that needs nothing lost
* `report_steady` — over clean interruptions a watch reports what it reports without them
* `recounted` — a retry counts the turns a final watch went past anew
-/

namespace Monitor

open Program

/-! ## History -/

/-- When the watch was armed first, and of each session where its reply was read last and which
turn ends were absorbed. -/
structure History where
  armedAt : Rat
  seen : String → Option Meta
  absorbed : String → List Mark

/-- What one pass adds. -/
def History.after (h : History) (s s' : State) : History :=
  { h with
    seen := fun uid => (s'.slices uid).seen.or (h.seen uid)
    absorbed := fun uid =>
      h.absorbed uid ++ (s'.slices uid).absorbed.drop (s.slices uid).absorbed.length }

/-- A watch with its history. -/
structure Watched where
  watch : Watching
  history : History

/-- The history follows the passes that are not cut. -/
def Watched.step (w : Watch) (x : Watched) (e : Event) : Watched where
  watch := x.watch.step w e
  history :=
    match x.watch, e with
    | .going armedAt s, .pass m _ =>
      match s.poll w armedAt m with
      | .going s' => x.history.after s s'
      | _ => x.history
    | _, _ => x.history

/-! ## Clean interruptions -/

/-- The look asks for nothing that an interruption lost: a session that is gone was seen since, or
never, and an episode absorbs as many turn ends as it had left. -/
def LookClean (w : Watch) (armedAt now : Rat) (h : History) (uid : String) (s : Slice) : Look → Prop
  | .cut => True
  | .fault code => code = "not_found" → (h.seen uid).isSome → s.seen.isSome
  | .shown r => (judge w now uid r s.timers).endsTurn r = true → ∀ key,
      episodeLeft r armedAt s.absorbed key = episodeLeft r h.armedAt (h.absorbed uid) key

/-- Nothing but baselines is kept: every session is still watched, no turn was counted, and no
idle time runs. -/
def State.Fresh (w : Watch) (s : State) : Prop :=
  s.completed = [] ∧ s.remaining = w.uids ∧
    ∀ uid ∈ w.uids, (s.slices uid).timers = freshTimers (s.baselines uid)

/-- Looks ask for nothing lost, and an interruption loses nothing. -/
def Watched.Clean (w : Watch) (x : Watched) (e : Event) : Prop :=
  match x.watch, e with
  | .going armedAt s, .pass m _ =>
    (∀ uid ∈ s.remaining, LookClean w armedAt m.now x.history uid (s.slices uid) (m.look uid)) ∧
      ∀ s', s.poll w armedAt m = .cut s' →
        s.Fresh w ∧ ∀ uid ∈ w.uids, s'.baselines uid = s.baselines uid
  | .going _ s, .adopt stored _ => s.Fresh w ∧ ∀ uid ∈ w.uids, stored uid = s.baselines uid
  | .ended _, _ => True

/-! ## Simulation -/

/-- A session's slice, and the one of the watch without interruptions. -/
structure Mirrors (read : Option Meta) (marks : List Mark) (s s' : Slice) : Prop where
  timers : s'.timers = s.timers
  seen : s'.seen = read
  absorbed : s'.absorbed = marks
  known : ∀ m, s.seen = some m → read = some m

/-- What a look makes of both. -/
inductive Mirrored (read : Option Meta) (marks : List Mark) (s : Slice) : Assessed → Assessed → Prop where
  | going {t t' : Slice} (h : Mirrors (t.seen.or read) (marks ++ t.absorbed.drop s.absorbed.length) t t') :
      Mirrored read marks s (.going t) (.going t')
  | completed {t t' : Slice} {e : Entry}
      (h : Mirrors (t.seen.or read) (marks ++ t.absorbed.drop s.absorbed.length) t t') :
      Mirrored read marks s (.completed t e) (.completed t' e)
  | refused : Mirrored read marks s .refused .refused
  | crashed : Mirrored read marks s .crashed .crashed
  | cut : Mirrored read marks s .cut .cut

variable {w : Watch} {armedAt now : Rat} {h : History} {uid : String} {s s' : Slice} {look : Look}

theorem Mirrors.still {read : Option Meta} {marks : List Mark} (hm : Mirrors read marks s s') :
    Mirrors (s.seen.or read) (marks ++ s.absorbed.drop s.absorbed.length) s s' := by
  have hseen : s.seen.or read = read := by
    cases hs : s.seen with
    | none => rfl
    | some m => exact (hm.known m hs).symm
  rw [hseen, List.drop_length, List.append_nil]
  exact hm

/-- The same turn ends are absorbed. -/
theorem rotationTurn_congr {r : Resolved} {armedAt armedAt' : Rat} {l l' : List Mark}
    (hleft : ∀ key, episodeLeft r armedAt l key = episodeLeft r armedAt' l' key) :
    rotationTurn r armedAt l = rotationTurn r armedAt' l' := by
  unfold rotationTurn
  rw [hleft, hleft]

/-- A clean look comes to the same. -/
theorem assess_mirrored (hm : Mirrors (h.seen uid) (h.absorbed uid) s s')
    (hclean : LookClean w armedAt now h uid s look) :
    Mirrored (h.seen uid) (h.absorbed uid) s (assess w armedAt now uid s look)
      (assess w h.armedAt now uid s' look) := by
  cases look with
  | cut => exact .cut
  | fault code =>
    have hentry : goneEntry uid code s' = goneEntry uid code s := by
      unfold goneEntry
      rw [hm.seen]
      cases hs : s.seen with
      | some m => rw [hm.known m hs]
      | none =>
        cases hseen : h.seen uid with
        | none => rfl
        | some m =>
          by_cases hcode : code = "not_found"
          · have hsome := hclean hcode (hseen ▸ rfl)
            rw [hs] at hsome
            cases hsome
          · simp only [if_neg hcode]
    show Mirrored _ _ s (.completed s (goneEntry uid code s)) (.completed s' (goneEntry uid code s'))
    rw [hentry]
    exact .completed hm.still
  | shown r =>
    show Mirrored _ _ s (if (r.shell && w.final) = true then .refused else assessShown w armedAt now uid s r)
      (if (r.shell && w.final) = true then .refused else assessShown w h.armedAt now uid s' r)
    split
    · exact .refused
    obtain ⟨turn, hturn⟩ : ∃ turn, judge w now uid r s.timers = turn := ⟨_, rfl⟩
    have hmark : (if turn.endsTurn r then rotationTurn r armedAt s.absorbed else none) =
        if turn.endsTurn r then rotationTurn r h.armedAt s'.absorbed else none := by
      split
      · rename_i hends
        rw [hm.absorbed]
        exact rotationTurn_congr (hclean (hturn ▸ hends))
      · rfl
    unfold assessShown
    rw [hm.timers, hturn]
    simp only
    rw [← hmark]
    have hkept : Mirrors (some r.read) (h.absorbed uid ++ s.absorbed.drop s.absorbed.length)
        ⟨turn.timers, some r.read, s.absorbed⟩ ⟨turn.timers, some r.read, s'.absorbed⟩ := by
      rw [List.drop_length, List.append_nil]
      exact ⟨rfl, rfl, hm.absorbed, fun _ h => h⟩
    split
    · rename_i mark hsome
      have habsorbed : ∀ timers, Mirrors (some r.read)
          (h.absorbed uid ++ (s.absorbed ++ [mark]).drop s.absorbed.length)
          ⟨timers, some r.read, s.absorbed ++ [mark]⟩ ⟨timers, some r.read, s'.absorbed ++ [mark]⟩ := by
        intro timers
        rw [List.drop_left]
        exact ⟨rfl, rfl, by rw [hm.absorbed], fun _ h => h⟩
      unfold absorb
      split
      · exact .going (habsorbed turn.timers)
      · split
        · exact .going (habsorbed _)
        · exact .crashed
    · split
      · exact .completed hkept
      · exact .going hkept

/-! ## Passes -/

/-- A watch between passes, and the one without interruptions. -/
structure State.Mirrors (h : History) (s s' : State) : Prop where
  remaining : s'.remaining = s.remaining
  completed : s'.completed = s.completed
  nodup : s.remaining.Nodup
  slices : ∀ uid ∈ s.remaining, Monitor.Mirrors (h.seen uid) (h.absorbed uid) (s.slices uid) (s'.slices uid)

/-- What a pass makes of both. -/
inductive Passed.Mirrored (h : History) (s : State) : Passed → Passed → Prop where
  | going {t t' : State} (hm : State.Mirrors (h.after s t) t t') : Mirrored h s (.going t) (.going t')
  | ended {r : Result} : Mirrored h s (.ended r) (.ended r)
  | cut {t t' : State} : Mirrored h s (.cut t) (.cut t')

variable {m : Moment}

/-- `l` are the sessions left to look at, `s` is the watch before the pass. -/
theorem pass_mirrored {s : State} : ∀ {l : List String} {t t' : State}, l.Nodup →
    t'.remaining = t.remaining → t'.completed = t.completed → t.remaining.Nodup →
    (∀ uid ∈ l, t.slices uid = s.slices uid ∧
      Mirrors (h.seen uid) (h.absorbed uid) (t.slices uid) (t'.slices uid) ∧
      LookClean w armedAt m.now h uid (t.slices uid) (m.look uid)) →
    (∀ uid ∈ t.remaining, uid ∉ l → Mirrors ((h.after s t).seen uid) ((h.after s t).absorbed uid)
      (t.slices uid) (t'.slices uid)) →
    Passed.Mirrored h s (t.pass w armedAt m l) (t'.pass w h.armedAt m l)
  | [], t, t', _, hremaining, hcompleted, hnodup, _, hdone =>
    .going ⟨hremaining, hcompleted, hnodup, fun uid hmem => hdone uid hmem List.not_mem_nil⟩
  | uid :: l, t, t', hl, hremaining, hcompleted, hnodup, hleft, hdone => by
    obtain ⟨hnot, hl⟩ := List.nodup_cons.mp hl
    obtain ⟨hsame, hslice, hclean⟩ := hleft uid List.mem_cons_self
    have hlook : Mirrored (h.seen uid) (h.absorbed uid) (t.slices uid)
        (assess w armedAt m.now uid (t.slices uid) (m.look uid))
        (assess w h.armedAt m.now uid (t'.slices uid) (m.look uid)) := assess_mirrored hslice hclean
    unfold State.pass
    generalize assess w armedAt m.now uid (t.slices uid) (m.look uid) = a at hlook
    generalize assess w h.armedAt m.now uid (t'.slices uid) (m.look uid) = a' at hlook
    -- the slices of the other sessions stay
    have hrest : ∀ (b b' : Slice) (rem rem' : List String) (comp comp' : List Entry), ∀ v ∈ l,
        let u : State := ⟨Function.update t.slices uid b, rem, comp⟩
        let u' : State := ⟨Function.update t'.slices uid b', rem', comp'⟩
        u.slices v = s.slices v ∧ Mirrors (h.seen v) (h.absorbed v) (u.slices v) (u'.slices v) ∧
          LookClean w armedAt m.now h v (u.slices v) (m.look v) := by
      intro b b' rem rem' comp comp' v hv
      have hne : v ≠ uid := fun heq => hnot (heq ▸ hv)
      simp only [Function.update_of_ne hne]
      exact hleft v (List.mem_cons_of_mem uid hv)
    have hpast : ∀ (b b' : Slice) (rem rem' : List String) (comp comp' : List Entry),
        Mirrors (b.seen.or (h.seen uid)) (h.absorbed uid ++ b.absorbed.drop (s.slices uid).absorbed.length)
          b b' → (∀ v ∈ rem, v ∈ t.remaining) → ∀ v ∈ rem, v ∉ l →
        let u : State := ⟨Function.update t.slices uid b, rem, comp⟩
        let u' : State := ⟨Function.update t'.slices uid b', rem', comp'⟩
        Mirrors ((h.after s u).seen v) ((h.after s u).absorbed v) (u.slices v) (u'.slices v) := by
      intro b b' rem rem' comp comp' hb hsub v hv hvl
      unfold History.after
      by_cases heq : v = uid
      · subst heq
        simp only [Function.update_self]
        exact hb
      · simp only [Function.update_of_ne heq]
        refine hdone v (hsub v hv) fun hmem => ?_
        rcases List.mem_cons.mp hmem with hc | hc
        · exact heq hc
        · exact hvl hc
    cases hlook with
    | cut => exact .cut
    | refused => exact .ended
    | crashed => exact .ended
    | @going b b' hb =>
      rw [hsame] at hb
      exact pass_mirrored hl hremaining hcompleted hnodup (hrest b b' _ _ _ _)
        (hpast b b' _ _ _ _ hb fun _ hv => hv)
    | @completed b b' e hb =>
      rw [hsame] at hb
      refine pass_mirrored hl ?_ ?_ (hnodup.erase uid) (hrest b b' _ _ _ _)
        (hpast b b' _ _ _ _ hb fun v hv => List.mem_of_mem_erase hv)
      · show t'.remaining.erase uid = t.remaining.erase uid
        rw [hremaining]
      · show t'.completed ++ [e] = t.completed ++ [e]
        rw [hcompleted]

theorem poll_mirrored {s s' : State} (hm : State.Mirrors h s s')
    (hclean : ∀ uid ∈ s.remaining, LookClean w armedAt m.now h uid (s.slices uid) (m.look uid)) :
    Passed.Mirrored h s (s.poll w armedAt m) (s'.poll w h.armedAt m) := by
  have hpass : Passed.Mirrored h s (s.pass w armedAt m s.remaining) (s'.pass w h.armedAt m s.remaining) :=
    pass_mirrored hm.nodup hm.remaining hm.completed hm.nodup
      (fun uid hmem => ⟨rfl, hm.slices uid hmem, hclean uid hmem⟩)
      (fun uid hmem hnot => absurd hmem hnot)
  unfold State.poll
  rw [hm.remaining]
  generalize s.pass w armedAt m s.remaining = p at hpass
  generalize s'.pass w h.armedAt m s.remaining = p' at hpass
  cases hpass with
  | cut => exact .cut
  | ended => exact .ended
  | @going t t' ht =>
    simp only
    rw [ht.remaining, ht.completed]
    split
    · exact .ended
    · exact .going ht

/-! ## Runs -/

/-- The interrupted watch and the one without interruptions. -/
inductive Watched.Follows (x : Watched) : Watching → Prop where
  | going {armedAt : Rat} {s s' : State} (hx : x.watch = .going armedAt s) (hm : s.Mirrors x.history s') :
      Follows x (.going x.history.armedAt s')
  | ended {r : Result} (hx : x.watch = .ended r) : Follows x (.ended r)

/-- A watch that lost nothing starts afresh as the other goes on. -/
theorem mirrors_fresh {s s' : State} {baselines : String → Option Baseline} (hm : s.Mirrors h s')
    (hfresh : s.Fresh w) (hsame : ∀ uid ∈ w.uids, baselines uid = s.baselines uid) :
    (freshState w baselines).Mirrors h s' := by
  obtain ⟨hcompleted, hremaining, htimers⟩ := hfresh
  refine ⟨hm.remaining.trans hremaining, hm.completed.trans hcompleted, w.nodup, fun uid hmem => ?_⟩
  have hslice := hm.slices uid (hremaining ▸ hmem)
  refine ⟨?_, hslice.seen, hslice.absorbed, fun m hm => by cases hm⟩
  rw [hslice.timers, htimers uid hmem]
  show freshTimers (s.baselines uid) = freshTimers (baselines uid)
  rw [hsame uid hmem]

theorem Watched.Follows.step {x : Watched} {y : Watching} {e : Event} (hf : x.Follows y)
    (hclean : x.Clean w e) : (x.step w e).Follows (y.steady w e) := by
  obtain ⟨watch, h⟩ := x
  cases hf with
  | ended hx =>
    subst hx
    exact .ended rfl
  | @going armedAt s s' hx hm =>
    subst hx
    cases e with
    | adopt stored adoptedAt =>
      exact .going rfl (mirrors_fresh hm hclean.1 hclean.2)
    | pass m retryAt =>
      obtain ⟨hlooks, hcut⟩ := hclean
      have hpoll := poll_mirrored hm hlooks
      unfold Watched.step Watching.step Watching.steady
      simp only at hcut ⊢
      generalize s.poll w armedAt m = p at hpoll hcut
      generalize s'.poll w h.armedAt m = p' at hpoll
      cases hpoll with
      | ended => exact .ended rfl
      | @going t t' ht => exact .going rfl ht
      | @cut t t' =>
        obtain ⟨hfresh, hsame⟩ := hcut t rfl
        exact .going rfl (mirrors_fresh hm hfresh hsame)

theorem foldl_watch : ∀ (es : List Event) (x : Watched),
    (es.foldl (Watched.step w) x).watch = es.foldl (Watching.step w) x.watch
  | [], _ => rfl
  | e :: es, x => foldl_watch es (x.step w e)

/-- A watch that is armed. -/
def armed (w : Watch) (armedAt : Rat) (baselines : String → Option Baseline) : Watching :=
  .going armedAt (freshState w baselines)

/-- Over clean interruptions a watch reports what it reports without them. -/
theorem report_steady {baselines : String → Option Baseline} {es : List Event}
    (hclean : Meets (Watched.step w) (Watched.Clean w)
      ⟨armed w armedAt baselines, armedAt, fun _ => none, fun _ => []⟩ es) :
    (es.foldl (Watching.step w) (armed w armedAt baselines)).report =
      (es.foldl (Watching.steady w) (armed w armedAt baselines)).report := by
  have hrun : ∀ {es : List Event} {x : Watched} {y : Watching}, x.Follows y →
      Meets (Watched.step w) (Watched.Clean w) x es →
        (es.foldl (Watched.step w) x).Follows (es.foldl (Watching.steady w) y) := by
    intro es
    induction es with
    | nil => exact fun hf _ => hf
    | cons e es ih => exact fun hf hmeets => ih (hf.step hmeets.1) hmeets.2
  have hstart : Watched.Follows ⟨armed w armedAt baselines, armedAt, fun _ => none, fun _ => []⟩
      (armed w armedAt baselines) :=
    .going rfl ⟨rfl, rfl, w.nodup, fun _ _ => ⟨rfl, rfl, rfl, fun _ h => h⟩⟩
  have hend := hrun hstart hclean
  have hwatch : (es.foldl (Watched.step w) ⟨armed w armedAt baselines, armedAt, fun _ => none,
      fun _ => []⟩).watch = es.foldl (Watching.step w) (armed w armedAt baselines) :=
    foldl_watch es _
  generalize es.foldl (Watched.step w) _ = x at hend hwatch
  generalize es.foldl (Watching.steady w) _ = y at hend
  cases hend with
  | ended hx => rw [← hwatch, hx]
  | going hx hm =>
    rw [← hwatch, hx]
    show Result.report _ _ = Result.report _ _
    rw [hm.completed, hm.remaining]

/-! ## A final watch -/

/-- An agent that ended its first turn. -/
def pausedLook : Resolved where
  shell := false
  state := "ready"
  idle := true
  ptyIdle := none
  engine := "claude-code"
  transcriptPath := none
  generation := 0
  agent := some ⟨some "idle", some 1, false, none, none, none⟩
  semanticIdle := false
  reportedDone := false
  reportedDoneAt := 0
  killedBy := none
  rotation := none
  handoff := none
  fingerprint := none
  transcriptComplete := false
  size := none

/-- Then it reports. -/
def doneLook : Resolved := { pausedLook with reportedDone := true, reportedDoneAt := 5 }

def finalWatch : Watch := ⟨["a"], by decide, false, true, fun _ => none, true⟩

def armedWithin : String → Option Baseline := fun _ => some (.agent (some 0) (some none) (some none) none)

def passAt (now : Rat) (look : Look) : Event := .pass ⟨now, fun _ => look⟩ now

/-- A pass that fails before anything was seen loses nothing. -/
theorem report_steady_first :
    ([passAt 1 .cut, passAt 2 (.shown doneLook)].foldl (Watching.step finalWatch)
      (armed finalWatch 0 armedWithin)).report =
    ([passAt 1 .cut, passAt 2 (.shown doneLook)].foldl (Watching.steady finalWatch)
      (armed finalWatch 0 armedWithin)).report := by
  refine report_steady ⟨⟨fun _ _ => trivial, fun s' hcut => ?_⟩, ⟨fun uid _ hends => ?_, fun s' hcut => ?_⟩,
    trivial⟩
  · have hpoll : (freshState finalWatch armedWithin).poll finalWatch 0 ⟨1, fun _ => .cut⟩ =
        .cut (freshState finalWatch armedWithin) := rfl
    obtain rfl := Passed.cut.inj (hpoll.symm.trans hcut)
    exact ⟨⟨rfl, rfl, fun _ _ => rfl⟩, fun _ _ => rfl⟩
  · have hreported : ∀ turn : Turn, turn.endsTurn doneLook = false := fun turn => Bool.and_false _
    exact absurd ((hreported _).symm.trans hends) Bool.false_ne_true
  · have hpoll : (match (freshState finalWatch armedWithin).poll finalWatch 1
        ⟨2, fun _ => .shown doneLook⟩ with
      | .cut _ => true
      | _ => false) = false := by decide +kernel
    change (freshState finalWatch armedWithin).poll finalWatch 1 ⟨2, fun _ => .shown doneLook⟩ = _ at hcut
    rw [hcut] at hpoll
    cases hpoll

/-- A turn ends, the daemon cannot be reached, the agent reports: the retry has not counted the
turn that the watch went past. -/
theorem recounted :
    ([passAt 1 (.shown pausedLook), passAt 2 .cut, passAt 3 (.shown doneLook)].foldl
      (Watching.step finalWatch) (armed finalWatch 0 armedWithin)).report =
        .report [⟨"a", "reported", "ready", true, none, false, 0, some ("claude-code", none, 0),
          some doneLook⟩] [] ∧
    ([passAt 1 (.shown pausedLook), passAt 2 .cut, passAt 3 (.shown doneLook)].foldl
      (Watching.steady finalWatch) (armed finalWatch 0 armedWithin)).report =
        .report [⟨"a", "reported", "ready", true, none, false, 1, some ("claude-code", none, 0),
          some doneLook⟩] [] := by
  decide +kernel

end Monitor
