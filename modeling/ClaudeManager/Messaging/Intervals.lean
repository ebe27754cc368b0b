import ClaudeManager.Messaging.ReadPaths

/-!
# Intervals of arrivals

What arrived between two positions, as a part of the history in its order.
-/

namespace ClaudeManager

open Containers Program

variable {s : Store} {after through : Nat}

theorem eventsBetween_eq (hs : Indexed s) (hle : after ≤ through) :
    s.eventsBetween after through =
      (s.events.filter fun e => e.position ≤ through).filter fun e => !decide (e.position ≤ after) := by
  have htake : s.events.take (s.events.takeWhile fun e => e.position ≤ through).length =
      s.events.filter fun e => e.position ≤ through := by
    rw [← takeWhile_position hs]
    exact (List.prefix_iff_eq_take.mp (List.takeWhile_prefix _)).symm
  have hdown : ((s.events.filter fun e => e.position ≤ through).Pairwise fun a b =>
      decide (b.position ≤ after) = true → decide (a.position ≤ after) = true) := by
    refine (hs.ordered.filter _).imp fun hab hb => ?_
    rw [decide_eq_true_eq] at hb ⊢
    omega
  have hlow : (s.events.takeWhile fun e => e.position ≤ after) =
      (s.events.filter fun e => e.position ≤ through).takeWhile fun e => e.position ≤ after := by
    rw [takeWhile_position hs, takeWhile_eq_filter hdown, List.filter_filter]
    refine List.filter_congr fun e _ => ?_
    by_cases he : e.position ≤ after
    · simp [he, he.trans hle]
    · simp [he]
  have hmin : min (s.events.takeWhile fun e => e.position ≤ after).length
      (s.events.takeWhile fun e => e.position ≤ through).length =
      (s.events.takeWhile fun e => e.position ≤ after).length := by
    refine Nat.min_eq_left ?_
    rw [hlow, takeWhile_position hs]
    exact (List.takeWhile_prefix _).length_le
  unfold Store.eventsBetween
  simp only
  rw [hmin, htake, hlow, drop_takeWhile, dropWhile_eq_filter hdown]

theorem eventsBetween_ordered (hs : Indexed s) (hle : after ≤ through) :
    (s.eventsBetween after through).Pairwise fun a b => a.position < b.position := by
  rw [eventsBetween_eq hs hle]
  exact (hs.ordered.filter _).filter _

/-- What comes after one of the publications in between. -/
theorem eventsBetween_after (hs : Indexed s) (hle : after ≤ through) {done rest : List Published}
    (h : s.eventsBetween after through = done ++ rest) :
    s.eventsBetween ((done.getLast?.map Published.position).getD after) through = rest := by
  cases hlast : done.getLast? with
  | none =>
    obtain rfl := List.getLast?_eq_none_iff.mp hlast
    exact h
  | some q =>
    obtain ⟨done', rfl⟩ := List.getLast?_eq_some_iff.mp hlast
    have hq : q ∈ s.eventsBetween after through := by simp [h]
    obtain ⟨-, hafter, hthrough⟩ := (mem_eventsBetween hs hle).mp hq
    have hordered := eventsBetween_ordered hs hle
    have hlater : s.eventsBetween q.position through =
        (s.eventsBetween after through).filter fun e => !decide (e.position ≤ q.position) := by
      rw [eventsBetween_eq hs hthrough, eventsBetween_eq hs hle, List.filter_filter, List.filter_filter,
        List.filter_filter]
      refine List.filter_congr fun e _ => ?_
      by_cases he : e.position ≤ q.position
      · simp [he]
      · have : ¬ e.position ≤ after := by omega
        simp [he, this]
    rw [h] at hordered
    obtain ⟨hfront, hrest, hcross⟩ := List.pairwise_append.mp hordered
    obtain ⟨-, -, hdone⟩ := List.pairwise_append.mp hfront
    rw [Option.map_some, Option.getD_some, hlater, h, List.filter_append]
    rw [List.filter_eq_nil_iff.mpr, List.filter_eq_self.mpr, List.nil_append]
    · intro e he
      have := hcross q (by simp) e he
      simp only [Bool.not_eq_true', decide_eq_false_iff_not]
      omega
    · intro e he
      simp only [Bool.not_eq_true', decide_eq_false_iff_not, not_not]
      rcases List.mem_append.mp he with he | he
      · exact (hdone e he q List.mem_cons_self).le
      · rw [List.mem_singleton.mp he]

theorem eventsBetween_append (hs : Indexed s) {middle : Nat} (hle : after ≤ middle)
    (hmiddle : middle ≤ through) :
    s.eventsBetween after through = s.eventsBetween after middle ++ s.eventsBetween middle through := by
  have hordered : (s.eventsBetween after through).Pairwise fun a b =>
      decide (b.position ≤ middle) = true → decide (a.position ≤ middle) = true := by
    refine (eventsBetween_ordered hs (hle.trans hmiddle)).imp fun hab hb => ?_
    rw [decide_eq_true_eq] at hb ⊢
    omega
  rw [← List.takeWhile_append_dropWhile (p := fun e => decide (e.position ≤ middle))
    (l := s.eventsBetween after through), takeWhile_eq_filter hordered, dropWhile_eq_filter hordered,
    eventsBetween_eq hs (hle.trans hmiddle), eventsBetween_eq hs hle, eventsBetween_eq hs hmiddle]
  simp only [List.filter_filter]
  refine congrArg₂ _ (List.filter_congr fun e _ => ?_) (List.filter_congr fun e _ => ?_)
  · by_cases he : e.position ≤ middle
    · simp [he, he.trans hmiddle]
    · simp [he]
  · by_cases he : e.position ≤ middle
    · simp [he]
    · have : ¬ e.position ≤ after := by omega
      simp [he, this]

theorem eventsBetween_none (hs : Indexed s) (hle : through ≤ after) : s.eventsBetween after through = [] := by
  unfold Store.eventsBetween
  simp only
  have hfewer : (s.events.takeWhile fun e => e.position ≤ through).length ≤
      (s.events.takeWhile fun e => e.position ≤ after).length := by
    rw [takeWhile_position hs, takeWhile_position hs]
    refine (List.monotone_filter_right _ fun e he => ?_).length_le
    rw [decide_eq_true_eq] at he ⊢
    exact he.trans hle
  rw [Nat.min_eq_right hfewer]
  exact List.drop_eq_nil_of_le (List.length_take_le _ _)

/-- An interval that ends at one of the publications in between. -/
theorem eventsBetween_upto (hs : Indexed s) (hle : after ≤ through) {before rest : List Published}
    {e : Published} (h : s.eventsBetween after through = before ++ e :: rest) :
    s.eventsBetween after e.position = before ++ [e] := by
  have he : e ∈ s.eventsBetween after through := by simp [h]
  obtain ⟨-, hafter, hthrough⟩ := (mem_eventsBetween hs hle).mp he
  have hrest : s.eventsBetween e.position through = rest := by
    have hnext : s.eventsBetween after through = (before ++ [e]) ++ rest := by simp [h]
    simpa using eventsBetween_after hs hle hnext
  have hsplit := eventsBetween_append hs hafter.le hthrough
  rw [h, hrest] at hsplit
  refine (List.append_left_inj rest).mp ?_
  rw [← hsplit, List.append_assoc]
  rfl

/-! ## Later states -/

/-- A later state of a store: what arrived since has a position behind the earlier one. -/
structure Extended (s t : Store) : Prop where
  position : s.position ≤ t.position
  events : ∃ more, t.events = s.events ++ more ∧ ∀ p ∈ more, s.position < p.position

variable {t u : Store}

instance : Std.Refl Extended :=
  ⟨fun _ => ⟨Nat.le_refl _, [], (List.append_nil _).symm, fun _ hp => (List.not_mem_nil hp).elim⟩⟩

theorem Extended.trans (h : Extended s t) (h' : Extended t u) : Extended s u := by
  obtain ⟨more, hmore, hlater⟩ := h.events
  obtain ⟨more', hmore', hlater'⟩ := h'.events
  refine ⟨h.position.trans h'.position, more ++ more', ?_, fun p hp => ?_⟩
  · rw [hmore', hmore, List.append_assoc]
  · rcases List.mem_append.mp hp with hp | hp
    · exact hlater p hp
    · exact h.position.trans_lt (hlater' p hp)

theorem Extended.mem (h : Extended s t) {e : Published} (he : e ∈ s.events) : e ∈ t.events := by
  obtain ⟨more, hmore, -⟩ := h.events
  exact hmore ▸ List.mem_append_left _ he

/-- An interval that lies behind does not change. -/
theorem Extended.eventsBetween (h : Extended s t) (hs : Indexed s) (ht : Indexed t)
    (hle : after ≤ through) (hbelow : through ≤ s.position) :
    t.eventsBetween after through = s.eventsBetween after through := by
  obtain ⟨more, hmore, hlater⟩ := h.events
  have hnone : (more.filter fun e => decide (e.position ≤ through)) = [] := by
    refine List.filter_eq_nil_iff.mpr fun e he => ?_
    have := hlater e he
    simp only [decide_eq_true_eq, not_le]
    omega
  rw [eventsBetween_eq ht hle, eventsBetween_eq hs hle, hmore, List.filter_append, hnone, List.append_nil]

theorem Extended.of_extends [Externals] {e : Json.Value} (h : Extends e s t) : Extended s t := by
  refine ⟨h.position, ?_⟩
  obtain ⟨hevents, -⟩ | ⟨p, -, -, hp, -, hevents, -⟩ := h.history
  · exact ⟨[], by rw [hevents, List.append_nil], fun _ hp => (List.not_mem_nil hp).elim⟩
  · refine ⟨[p], hevents, fun q hq => ?_⟩
    rw [List.mem_singleton.mp hq, hp]
    omega

theorem Extended.of_beside (h : Store.Beside s t) : Extended s t :=
  ⟨h.position, [], by rw [h.events, List.append_nil], fun _ hp => (List.not_mem_nil hp).elim⟩

/-- What a store becomes after any calls is a later state of it. -/
theorem Reached.extended [Externals] (huuid : MintsOnce)
    (hparse : ∀ v w, Externals.parse (Externals.compact v) = .ok w → w = v)
    (hs : Held (fun _ => True) s) (hrun : Reached s t) : Held (Extended s) t := by
  have hupkeep : Upkeep (fun s e => s.hasEvent (strv e "id") = false) (Extended s) :=
    { beside := fun h hs => hs.trans (.of_beside h)
      commit := fun _ _ _ _ hs => hs.trans (.of_extends (commitBytes_extends rfl))
      composed := fun _ h => h.new
      attested := fun _ h => h.new
      uploaded := fun _ h => h.new
      delivered := fun _ h => h.new
      new := fun h => h }
  exact hupkeep.reached huuid hparse hrun ⟨Std.Refl.refl (r := Extended) s, hs.indexed, hs.fresh⟩

end ClaudeManager
