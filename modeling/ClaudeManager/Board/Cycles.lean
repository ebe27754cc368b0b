import Mathlib
import ClaudeManager.Program.Graphs
import ClaudeManager.Board.Quiet

/-!
# The cycle check

`checkCycles` refuses a write whose blockers lead back to the item. The search shares one
set of items seen among all its branches; what it has seen and left is closed under the
edges, and the target is not among it.
-/

namespace Board

open Json Python Containers Program Relation

/-- The item `a` waits for the item `b`. -/
def Edge (items : Items) (a b : Nat) : Prop := ∃ it, items[a]? = some it ∧ b ∈ it.blockedBy

/-- Between two sets of items seen, all were searched: their edges stay within what is seen,
and none is the target. -/
structure Searched (items : Items) (target : Nat) (seen seen' : NatSet) : Prop where
  grows : ∀ a ∈ seen, a ∈ seen'
  closed : ∀ a ∈ seen', a ∉ seen → ∀ b, Edge items a b → b ∈ seen' ∧ b ≠ target

namespace Searched

variable {items : Items} {target : Nat} {seen seen' seen'' : NatSet}

theorem refl : Searched items target seen seen :=
  ⟨fun _ h => h, fun _ h h' => absurd h h'⟩

theorem trans (h : Searched items target seen seen') (h' : Searched items target seen' seen'') :
    Searched items target seen seen'' := by
  refine ⟨fun a ha => h'.grows a (h.grows a ha), ?_⟩
  intro a ha hna b hb
  by_cases hm : a ∈ seen'
  · obtain ⟨hb', hne⟩ := h.closed a hm hna b hb
    exact ⟨h'.grows b hb', hne⟩
  · exact h'.closed a ha hm b hb

end Searched

variable {items : Items} {target : Nat}

/-- What a search that finds nothing has seen: its start, and all it searched. -/
def Seeks (items : Items) (target : Nat)
    (search : Nat → NatSet → Except Fault (Option (List Nat) × NatSet)) : Prop :=
  ∀ frm seen seen', search frm seen = .ok (none, seen') →
    Searched items target seen seen' ∧ frm ∈ seen' ∧ frm ≠ target

/-- A search over several items has seen each of them. -/
theorem pathOver_none {search : Nat → NatSet → Except Fault (Option (List Nat) × NatSet)}
    (hsearch : Seeks items target search) {frm : Nat} {nexts : List Nat} {seen seen' : NatSet}
    (h : pathOver search frm nexts seen = .ok (none, seen')) :
    Searched items target seen seen' ∧ ∀ b ∈ nexts, b ∈ seen' ∧ b ≠ target := by
  induction nexts generalizing seen with
  | nil =>
    obtain ⟨-, rfl⟩ := Prod.mk.inj (Except.ok.inj h)
    exact ⟨.refl, by simp⟩
  | cons next rest ih =>
    unfold pathOver at h
    obtain ⟨⟨found, mid⟩, hpath, h⟩ := except_bind_ok.mp h
    cases found with
    | some way => simp at h
    | none =>
      obtain ⟨hfirst, hmem, hne⟩ := hsearch next seen mid hpath
      obtain ⟨hrest, hall⟩ := ih h
      refine ⟨hfirst.trans hrest, ?_⟩
      intro b hb
      rcases List.mem_cons.mp hb with rfl | hb
      · exact ⟨hrest.grows b hmem, hne⟩
      · exact hall b hb

theorem path_none {depth : Nat} : Seeks items target (path items target depth) := by
  induction depth with
  | zero =>
    intro frm seen seen' h
    simp [path] at h
  | succ depth ih =>
    intro frm seen seen' h
    unfold path at h
    split_ifs at h with htarget hseen
    · simp at h
    · obtain ⟨-, rfl⟩ := Prod.mk.inj (Except.ok.inj h)
      exact ⟨.refl, hseen, htarget⟩
    · have hgrow : ∀ a ∈ seen, a ∈ seen.insert frm := fun a ha => natSet_mem_insert.mpr (.inr ha)
      split at h
      · next hnode =>
        obtain ⟨-, rfl⟩ := Prod.mk.inj (Except.ok.inj h)
        refine ⟨⟨hgrow, ?_⟩, natSet_mem_insert.mpr (.inl rfl), htarget⟩
        intro a ha hna b hb
        obtain rfl := (natSet_mem_insert.mp ha).resolve_right hna
        obtain ⟨it, hit, -⟩ := hb
        rw [hnode] at hit
        cases hit
      · next node hnode =>
        obtain ⟨hover, hall⟩ := pathOver_none ih h
        have hmem : frm ∈ seen' := hover.grows frm (natSet_mem_insert.mpr (.inl rfl))
        refine ⟨⟨fun a ha => hover.grows a (hgrow a ha), ?_⟩, hmem, htarget⟩
        intro a ha hna b hb
        by_cases hfrm : a = frm
        · subst hfrm
          obtain ⟨it, hit, hbmem⟩ := hb
          obtain rfl : node = it := Option.some.inj (hnode.symm.trans hit)
          exact hall b (natSet_mem_toList.mpr hbmem)
        · exact hover.closed a ha (fun h => (natSet_mem_insert.mp h).elim hfrm hna) b hb

/-- A search from scratch that finds nothing: the target is out of reach. -/
theorem not_reaches_of_path {depth frm : Nat} {seen' : NatSet}
    (h : path items target depth frm {target} = .ok (none, seen')) :
    ¬ ReflTransGen (Edge items) frm target := by
  obtain ⟨hsearched, hmem, hne⟩ := path_none _ _ _ h
  have hstart : ∀ a, a ∈ ({target} : NatSet) ↔ a = target := by
    intro a
    rw [Std.ExtTreeSet.singleton_eq_insert, natSet_mem_insert]
    simp
  refine not_reaches_of_closed (C := {a | a ∈ seen' ∧ a ≠ target}) ⟨hmem, hne⟩ ?_ (by simp)
  rintro a ⟨ha, hat⟩ b hab
  exact hsearched.closed a ha (fun h => hat ((hstart a).mp h)) b hab

/-- After the check none of the blockers leads back to the item. -/
theorem checkCycles_ok [Runtime] {tx : BoardTx} {n : Nat} {starts : List Nat}
    (h : checkCycles tx n starts = .ok ⟨⟩) {s : Nat} (hs : s ∈ starts) :
    ¬ ReflTransGen (Edge tx.items) s n := by
  have hone := except_forM_ok.mp h s hs
  obtain ⟨⟨found, seen'⟩, hpath, hfound⟩ := except_bind_ok.mp hone
  cases found with
  | some way => simp at hfound
  | none => exact not_reaches_of_path hpath

end Board
