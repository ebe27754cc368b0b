import Mathlib
import ClaudeManager.Board.Runs

/-!
# Boards over their transactions

A board goes from transaction to transaction; one that is refused leaves it as it was.

* `BoardState.Sound` — what the fields, blockers and flags of a board's items say together
* `sound_runs` — every sequence of transactions, as long as a cascade finds nothing to take along
* `cascade_keeps_checkBack` — a board where it does
-/

namespace Board

open Json Python Containers Program BoardTx

/-- A board between two transactions. -/
structure BoardState where
  board : BoardRow
  items : Items
  groups : List Group

/-- One call: who makes it, when, and what it asks for. -/
structure Call where
  actor : Actor
  now : Instant
  uuid : Nat → String
  request : Request

/-- What the fields, blockers and flags of a board's items say together. -/
structure BoardState.Sound (s : BoardState) : Prop where
  numbered : ∀ (n : Nat) (it : Item), s.items[n]? = some it → it.n = n ∧ n < s.board.nextNumber
  items : ∀ (n : Nat) (it : Item), s.items[n]? = some it → it.Sound ∧ it.Parked ∧ it.Marked
  edges : ∀ a b, Edge s.items a b →
    ∃ bt : Item, s.items[b]? = some bt ∧ bt.status ≠ .done
  acyclic : Acyclic (Edge s.items)
  dropped : ∀ (n : Nat) (it : Item), s.items[n]? = some it → blockerDropped ∈ it.openFlags →
    ∃ b ∈ it.blockedBy, ∃ bt : Item, s.items[b]? = some bt ∧ bt.status = .dropped

/-- A board without items. -/
theorem sound_empty {board : BoardRow} {groups : List Group} :
    BoardState.Sound ⟨board, ∅, groups⟩ := by
  have hnone : ∀ n : Nat, (∅ : Items)[n]? = none := fun n => Std.ExtTreeMap.getElem?_empty
  refine ⟨fun n it h => ?_, fun n it h => ?_, ?_, ?_, fun n it h => ?_⟩
  · cases (hnone n).symm.trans h
  · cases (hnone n).symm.trans h
  · rintro a b ⟨it, h, -⟩
    cases (hnone a).symm.trans h
  · intro a h
    obtain ⟨b, ⟨it, h, -⟩, -⟩ := Relation.TransGen.head'_iff.mp h
    cases (hnone a).symm.trans h
  · cases (hnone n).symm.trans h

variable {s : BoardState} {tx : BoardTx}

theorem sound_of_consistent (h : Consistent ∅ tx) :
    BoardState.Sound ⟨tx.board, tx.items, tx.groups⟩ where
  numbered := h.numbered
  items := fun n it hit => ⟨h.sound n it hit, h.parked n id it hit, h.marked n id it hit⟩
  edges := fun a b hab => by
    obtain ⟨bt, hbt, hopen⟩ := h.edges a b hab
    exact ⟨bt, hbt, fun hd => hopen hd⟩
  acyclic := h.acyclic
  dropped := fun n it hit hflag => by
    obtain ⟨b, hb, hdrop⟩ := h.dropped n id it hit hflag
    exact ⟨b, hb, isDropped_iff.mp hdrop⟩

theorem BoardState.Sound.consistent (h : s.Sound) (hboard : tx.board = s.board)
    (hitems : tx.items = s.items) : Consistent ∅ tx where
  numbered := by rw [hboard, hitems]; exact h.numbered
  sound := by rw [hitems]; exact fun n it hit => (h.items n it hit).1
  parked := by rw [hitems]; exact fun n _ it hit => (h.items n it hit).2.1
  marked := by rw [hitems]; exact fun n _ it hit => (h.items n it hit).2.2
  edges := by
    rw [hitems]
    intro a b hab
    obtain ⟨bt, hbt, hopen⟩ := h.edges a b hab
    exact ⟨bt, hbt, fun hd => absurd hd hopen⟩
  acyclic := by rw [hitems]; exact h.acyclic
  dropped := by
    intro n _ it hit hflag
    obtain ⟨b, hb, hdrop⟩ := h.dropped n it (hitems ▸ hit) hflag
    exact ⟨b, hb, isDropped_iff.mpr (hitems ▸ hdrop)⟩

theorem start_ok {board : BoardRow} {items : Items} {actor : Actor} {now : Instant}
    {groups : List Group} {uuid : Nat → String}
    (h : BoardTx.start board items actor now groups uuid = .ok tx) :
    tx.board = board ∧ tx.items = items := by
  unfold BoardTx.start at h
  split at h
  · cases h
  · obtain rfl := Except.ok.inj h
    exact ⟨rfl, rfl⟩

section

variable [Runtime]

/-- A transaction is kept where nothing in it is refused. -/
def BoardState.step (s : BoardState) (c : Call) : BoardState :=
  match (do (← BoardTx.start s.board s.items c.actor c.now s.groups c.uuid).run c.request) with
  | .ok tx => ⟨tx.board, tx.items, tx.groups⟩
  | .error _ => s

/-- Nothing that the call's done items free would be taken along: whatever waits for them alone
has no check-back and no suggestion. -/
def BoardState.Eases (s : BoardState) (c : Call) : Prop := Board.Eases c.request.closing s.items

/-- One transaction. -/
theorem step_ok {c : Call} (hs : s.Sound) (heases : s.Eases c) :
    (s.step c).Sound ∧ Kept s.items (s.step c).items := by
  unfold BoardState.step
  split
  · next tx' hrun =>
    obtain ⟨tx, hstart, hrun⟩ := except_bind_ok.mp hrun
    obtain ⟨hboard, hitems⟩ := start_ok hstart
    have hc : Consistent ∅ tx := hs.consistent hboard hitems
    have heases' : Board.Eases c.request.closing tx.items := hitems ▸ heases
    obtain ⟨hc', hkept⟩ := run_ok hc heases' hrun
    exact ⟨sound_of_consistent hc', hitems ▸ hkept⟩
  · exact ⟨hs, fun n it hit => ⟨it, hit, fun _ => rfl⟩⟩

/-- Every sequence of transactions keeps a board sound, and no suggestion outlives the status it
was made at, as long as no cascade finds a check-back or a suggestion to take along. -/
theorem sound_runs {calls : List Call} (hs : s.Sound)
    (heases : Meets BoardState.step BoardState.Eases s calls) :
    ∀ before after, calls = before ++ after →
      (before.foldl BoardState.step s).Sound ∧
        ∀ c ∈ after.head?, Kept (before.foldl BoardState.step s).items
          ((before.foldl BoardState.step s).step c).items := by
  rintro before after rfl
  obtain ⟨hbefore, hafter⟩ := heases.of_append
  have hsound : (before.foldl BoardState.step s).Sound :=
    Meets.invariant (I := BoardState.Sound) (fun s c hs hc => (step_ok hs hc).1) hs hbefore
  refine ⟨hsound, fun c hc => ?_⟩
  cases after with
  | nil => cases hc
  | cons c' rest =>
    obtain rfl := Option.some.inj hc
    exact (step_ok hsound hafter.1).2

end

/-! ## A board where a cascade takes a check-back along -/

/-- The texts of whole hours on the first day, and the letters of plain texts. -/
abbrev sampleRuntime : Runtime where
  lower s := String.ofList (s.toList.map Char.toLower)
  digit c := if c.isDigit then some (c.toNat - '0'.toNat) else none
  repr s := "'" ++ s ++ "'"
  str v := match v with
    | .str s => s
    | _ => ""
  isoformat t := "1970-01-01T0" ++ toString (t / 3600000000) ++ ":00:00+00:00"
  fromisoformat _ := none
  recursionLimit := 1000

/-- A board with no items. -/
def emptyBoard : BoardState :=
  ⟨⟨"b-1", "demo", 1, true, 86400, 600, 3600, 86400, 3600, 3600, none, none⟩, ∅, []⟩

/-- A call of one session. -/
def sampleCall (request : Request) : Call :=
  ⟨⟨"agent:d:u", some "dev", some "u", some "d", none⟩, 0, fun _ => "", request⟩

/-- Two items, the second blocked by the first. -/
def createPair (checkBack : List (String × Value)) : Call :=
  sampleCall (.create [[("title", .str "schema")],
    [("title", .str "migration"), ("blocked_by", .arr [.num 1])] ++ checkBack])

/-- The first item is done. -/
def closeFirst : Call :=
  sampleCall (.update ⟨[1], [("status", .str "done")], [], [], none, false, none, none, none⟩)

/-- Nothing on the board has a check-back or a suggestion. -/
def BoardState.bare (s : BoardState) : Bool :=
  s.items.toList.all fun e => e.2.checkBackAt = none && !e.2.openFlags.contains suggested

theorem eases_of_bare {c : Call} (h : s.bare = true) : s.Eases c := by
  intro m _ it hit _
  have hone := List.all_eq_true.mp h (m, it) (natMap_mem_toList.mpr hit)
  rw [Bool.and_eq_true, decide_eq_true_iff, Bool.not_eq_true'] at hone
  refine ⟨hone.1, fun hk => ?_⟩
  rw [← Std.ExtTreeMap.contains_iff_mem] at hk
  rw [hk] at hone
  cases hone.2

theorem sound_runs_sample : letI := sampleRuntime
    ([createPair [], closeFirst].foldl BoardState.step emptyBoard).Sound := by
  let _ := sampleRuntime
  have hfirst : emptyBoard.bare = true := by decide +kernel
  have hsecond : (emptyBoard.step (createPair [])).bare = true := by decide +kernel
  have hmeets : Meets BoardState.step BoardState.Eases emptyBoard [createPair [], closeFirst] :=
    ⟨eases_of_bare hfirst, eases_of_bare hsecond, trivial⟩
  exact (sound_runs sound_empty hmeets [createPair [], closeFirst] [] (List.append_nil _).symm).1

/-- The second item is active again, with the check-back it was blocked with. -/
theorem cascade_keeps_checkBack : letI := sampleRuntime
    ¬ (BoardState.step (emptyBoard.step (createPair [("check_back", .str "4h")]))
      closeFirst).Sound := by
  intro h
  have hit : letI := sampleRuntime
      (BoardState.step (emptyBoard.step (createPair [("check_back", .str "4h")]))
        closeFirst).items[2]?.map (fun it => (it.status, it.checkBackAt)) =
          some (.active, some 14400000000) := by decide +kernel
  obtain ⟨it, hit, heq⟩ := Option.map_eq_some_iff.mp hit
  obtain ⟨hstatus, hcheck⟩ := Prod.mk.inj heq
  have hblocked : it.status = .blocked := (h.items 2 it hit).2.1 (by rw [hcheck]; simp)
  rw [hstatus] at hblocked
  cases hblocked

end Board
