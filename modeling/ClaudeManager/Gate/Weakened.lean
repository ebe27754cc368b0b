import Mathlib
import ClaudeManager.Gate.Commands

/-!
# A command without problems

What `commandDiff` lets pass runs no less than was granted:

* `Bounded` — the forms of the wrappers, as their tools are called
* `Reads` — how tokens give options, their values and positional arguments
* `Keeps` — arguments of a test run that keep what was granted
* `commandDiff_covers` — a command without problems is wrapped in bounded forms, runs the granted
  program and keeps its arguments
-/

namespace Gate

open Python Containers

/-! ## Forms -/

/-- The tokens that give an option a value. -/
inductive Gives (short long v : String) : List String → Prop
  | equals : Gives short long v [long ++ "=" ++ v]
  | short : Gives short long v [short, v]
  | long : Gives short long v [long, v]
  | joined (h : v ≠ "") : Gives short long v [short ++ v]

/-- Options of a tool, with bounded values. -/
inductive Options (tool : Tool) : List String → Prop
  | nil : Options tool []
  | flag {f : String} {toks : List String} (hf : f ∈ tool.flags) (h : Options tool toks) :
    Options tool (f :: toks)
  | valued {o : Valued} {v : String} {given toks : List String} (ho : o ∈ tool.valued)
    (hv : o.ok v = true) (hgiven : Gives o.short o.long v given) (h : Options tool toks) :
    Options tool (given ++ toks)

section

variable [Tables]

/-- One wrapper in a bounded form, named by the last component of its first token. -/
inductive Bounded (allowedEnv : List String) : List String → Prop
  | timeout {t d : String} {opts : List String} (ht : basename t = "timeout")
    (hopts : Options timeout opts) (hd : isDuration d = true) :
    Bounded allowedEnv (t :: (opts ++ [d]))
  | nice {t : String} (ht : basename t = "nice") : Bounded allowedEnv [t]
  | niceBy {t v : String} {given : List String} (ht : basename t = "nice")
    (hgiven : Gives "-n" "--adjustment" v given) (hv : isInt v = true) :
    Bounded allowedEnv (t :: given)
  | niceOld {t v : String} (ht : basename t = "nice") (hv : isInt v = true)
    (hdash : startsWith "-" v = true) : Bounded allowedEnv [t, v]
  | ionice {t : String} {opts : List String} (ht : basename t = "ionice")
    (hopts : Options ionice opts) : Bounded allowedEnv (t :: opts)
  | tasksetList {t v : String} {all given : List String} (ht : basename t = "taskset")
    (hall : all = [] ∨ all = ["-a"]) (hgiven : Gives "-c" "--cpu-list" v given)
    (hv : isCpus v = true) : Bounded allowedEnv (t :: (all ++ given))
  | tasksetMask {t m : String} {all : List String} (ht : basename t = "taskset")
    (hall : all = [] ∨ all = ["-a"]) (hm : isMask m = true) :
    Bounded allowedEnv (t :: (all ++ [m]))
  | numactl {t : String} {opts : List String} (ht : basename t = "numactl")
    (hopts : Options numactl opts) : Bounded allowedEnv (t :: opts)
  | systemdRun {t : String} {opts dashes : List String} (ht : basename t = "systemd-run")
    (hopts : Options systemdRun opts) (hd : dashes = [] ∨ dashes = ["--"]) :
    Bounded allowedEnv (t :: (opts ++ dashes))
  | env {t : String} {vars : List (String × String)} (ht : basename t = "env")
    (hvars : ∀ p ∈ vars, isEnvKey p.1 = true ∧ p.1 ∈ allowedEnv) :
    Bounded allowedEnv (t :: vars.map fun p => p.1 ++ String.singleton '=' ++ p.2)

/-! ## Options are read as they are given -/

variable {short long v t : String} {toks rest : List String}

omit [Tables] in
theorem optValue_gives (h : optValue short long toks = some (some v, rest)) :
    ∃ given, Gives short long v given ∧ toks = given ++ rest := by
  unfold optValue at h
  split at h
  · cases h
  · next t rest' =>
    split at h
    · next v' hafter =>
      obtain ⟨hv, rfl⟩ := Prod.mk.inj (Option.some.inj h)
      obtain rfl := Option.some.inj hv
      exact ⟨_, .equals, by rw [after_eq_some.mp hafter]; rfl⟩
    · split at h
      · next hname =>
        split at h
        · next v' rest'' =>
          obtain ⟨hv, rfl⟩ := Prod.mk.inj (Option.some.inj h)
          obtain rfl := Option.some.inj hv
          rcases hname with rfl | rfl
          · exact ⟨_, .short, rfl⟩
          · exact ⟨_, .long, rfl⟩
        · cases h
      · split at h
        · next v' hafter =>
          split at h
          · next hne =>
            obtain ⟨hv, rfl⟩ := Prod.mk.inj (Option.some.inj h)
            obtain rfl := Option.some.inj hv
            exact ⟨_, .joined hne.1, by rw [after_eq_some.mp hafter]; rfl⟩
          · cases h
        · cases h

omit [Tables] in
theorem findValued_ok {os : List Valued} {o : Valued} {v : Option String}
    (h : findValued os toks = some (o, v, rest)) :
    o ∈ os ∧ optValue o.short o.long toks = some (v, rest) := by
  induction os with
  | nil => cases h
  | cons o' os ih =>
    unfold findValued at h
    split at h
    · next hv =>
      obtain ⟨rfl, heq⟩ := Prod.mk.inj (Option.some.inj h)
      obtain ⟨rfl, rfl⟩ := Prod.mk.inj heq
      exact ⟨List.mem_cons_self, hv⟩
    · obtain ⟨hmem, hv⟩ := ih h
      exact ⟨List.mem_cons_of_mem _ hmem, hv⟩

omit [Tables] in
@[simp] theorem need_eq_nil {tool what : String} {ok : Bool} : need tool what ok = [] ↔ ok = true := by
  unfold need
  cases ok <;> simp

omit [Tables] in
/-- A bounded value that is there was given. -/
theorem valued_given {ok : String → Bool} {o : Option String}
    (h : optValue short long toks = some (o, rest)) (hok : o.any ok = true) :
    ∃ v given, ok v = true ∧ Gives short long v given ∧ toks = given ++ rest := by
  cases o with
  | none => cases hok
  | some v =>
    obtain ⟨given, hgiven, htoks⟩ := optValue_gives h
    exact ⟨v, given, hok, hgiven, htoks⟩

/-- Options without a problem are options in front of what is left. Only a tool that takes `--`
ends there. -/
theorem options_ok (tool : Tool) (toks : List String) (h : (options tool toks).2.1 = []) :
    ∃ opts, Options tool opts ∧
      ((options tool toks).2.2 = false ∧ toks = opts ++ (options tool toks).1 ∨
        tool.dashes = true ∧ toks = opts ++ "--" :: (options tool toks).1) := by
  induction toks using options.induct tool with
  | case1 => exact ⟨[], .nil, .inl (by simp [options])⟩
  | case2 t rest hdash => exact ⟨[], .nil, .inl (by simp [options, hdash])⟩
  | case3 t rest hdash hend =>
    refine ⟨[], .nil, .inr ⟨hend.1, ?_⟩⟩
    rw [options, if_neg hdash, if_pos hend, hend.2]
    rfl
  | case4 t rest hdash hend hflag ih =>
    rw [options, if_neg hdash, if_neg hend, if_pos hflag] at h ⊢
    obtain ⟨opts, hopts, hleft⟩ := ih h
    refine ⟨t :: opts, .flag hflag hopts, ?_⟩
    rcases hleft with ⟨hend, heq⟩ | ⟨hd, heq⟩
    · exact .inl ⟨hend, congrArg (t :: ·) heq⟩
    · exact .inr ⟨hd, congrArg (t :: ·) heq⟩
  | case5 t rest hdash hend hflag o v rest' hfound _ _ _ _ ih =>
    rw [options, if_neg hdash, if_neg hend, if_neg hflag] at h ⊢
    split at h
    · next o2 v2 rest2 hfound2 =>
      obtain ⟨rfl, rfl, rfl⟩ : o = o2 ∧ v = v2 ∧ rest' = rest2 := by
        simpa using hfound.symm.trans hfound2
      simp only [List.append_eq_nil_iff, need_eq_nil] at h
      obtain ⟨ho, hvalue⟩ := findValued_ok hfound
      obtain ⟨value, given, hok, hgiven, htoks⟩ := valued_given hvalue h.1
      obtain ⟨opts, hopts, hleft⟩ := ih h.2
      refine ⟨given ++ opts, .valued ho hok hgiven hopts, ?_⟩
      simp only
      rw [htoks]
      rcases hleft with ⟨hend, heq⟩ | ⟨hd, heq⟩
      · exact .inl ⟨hend, by rw [List.append_assoc, ← heq]⟩
      · exact .inr ⟨hd, by rw [List.append_assoc, ← heq]⟩
    · next hnone => rw [hfound] at hnone; cases hnone
  | case6 t rest hdash hend hflag hfound =>
    rw [options, if_neg hdash, if_neg hend, if_neg hflag] at h
    split at h
    · next o v rest' hfound' => rw [hfound] at hfound'; cases hfound'
    · simp at h

/-! ## Wrappers -/

variable {allowedEnv : List String}

theorem timeoutArgs_ok (h : (timeoutArgs toks).2 = []) :
    ∃ opts d, Options timeout opts ∧ isDuration d = true
      ∧ toks = opts ++ d :: (timeoutArgs toks).1 := by
  unfold timeoutArgs at h ⊢
  have hproblems : (options timeout toks).2.1 = [] := by
    simp only at h
    split at h
    · exact h
    · exact (List.append_eq_nil_iff.mp h).1
  obtain ⟨opts, hopts, ⟨hend, htoks⟩ | ⟨hd, -⟩⟩ := options_ok timeout toks hproblems
  · simp only [hend, Bool.false_eq_true, if_false, List.append_eq_nil_iff, need_eq_nil] at h ⊢
    cases hleft : (options timeout toks).1 with
    | nil =>
      rw [hleft] at h
      cases h.2
    | cons d rest =>
      rw [hleft] at h htoks
      exact ⟨opts, d, hopts, h.2, htoks⟩
  · cases hd

/-- A tool without `--` that has only options. -/
theorem optionArgs_ok {tool : Tool} (hd : tool.dashes = false)
    (h : (optionArgs tool toks).2 = []) :
    ∃ opts, Options tool opts ∧ toks = opts ++ (optionArgs tool toks).1 := by
  obtain ⟨opts, hopts, ⟨-, htoks⟩ | ⟨hd', -⟩⟩ := options_ok tool toks h
  · exact ⟨opts, hopts, htoks⟩
  · rw [hd] at hd'
    cases hd'

theorem tasksetArgs_ok (h : (tasksetArgs toks).2 = []) :
    ∃ all given, (all = [] ∨ all = ["-a"])
      ∧ ((∃ v, Gives "-c" "--cpu-list" v given ∧ isCpus v = true)
        ∨ ∃ m, given = [m] ∧ isMask m = true)
      ∧ toks = all ++ given ++ (tasksetArgs toks).1 := by
  obtain ⟨all, toks', hall, htoks, hrest⟩ : ∃ all toks', (all = [] ∨ all = ["-a"])
      ∧ toks = all ++ toks'
      ∧ (if toks.head? = some "-a" then toks.drop 1 else toks) = toks' := by
    split
    · next hhead =>
      obtain ⟨rest, rfl⟩ := List.head?_eq_some_iff.mp hhead
      exact ⟨["-a"], rest, .inr rfl, rfl, rfl⟩
    · exact ⟨[], toks, .inl rfl, rfl, rfl⟩
  unfold tasksetArgs at h ⊢
  simp only [hrest] at h ⊢
  cases hv : optValue "-c" "--cpu-list" toks' with
  | some p =>
    obtain ⟨o, rest⟩ := p
    simp only [hv, need_eq_nil] at h ⊢
    obtain ⟨v, given, hok, hgiven, hgave⟩ := valued_given hv h
    refine ⟨all, given, hall, .inl ⟨v, hgiven, hok⟩, ?_⟩
    rw [htoks, hgave, List.append_assoc]
  | none =>
    simp only [hv, need_eq_nil] at h ⊢
    cases toks' with
    | nil => cases h
    | cons m rest =>
      refine ⟨all, [m], hall, .inr ⟨m, rfl, h⟩, ?_⟩
      rw [htoks, List.append_assoc]
      rfl

theorem envArgs_ok : ∀ toks : List String, (envArgs allowedEnv toks).2 = [] →
    ∃ vars : List (String × String), (∀ p ∈ vars, isEnvKey p.1 = true ∧ p.1 ∈ allowedEnv)
      ∧ toks = (vars.map fun p => p.1 ++ String.singleton '=' ++ p.2) ++ (envArgs allowedEnv toks).1
  | [], _ => ⟨[], by simp, by simp [envArgs]⟩
  | t :: rest, h => by
    have ih := envArgs_ok rest
    unfold envArgs at h ⊢
    cases hcut : cut '=' t with
    | none =>
      simp only [hcut] at h ⊢
      split at h
      · simp at h
      · next hdash =>
        rw [if_neg hdash]
        exact ⟨[], by simp, rfl⟩
    | some p =>
      obtain ⟨key, value⟩ := p
      simp only [hcut] at h ⊢
      split at h
      · simp at h
      · next hdash =>
        rw [if_neg hdash]
        obtain ⟨hkey, hmore⟩ := List.append_eq_nil_iff.mp h
        split at hkey
        · next hok =>
          rw [Bool.and_eq_true, List.contains_iff_mem] at hok
          obtain ⟨vars, hvars, hrest⟩ := ih hmore
          refine ⟨(key, value) :: vars, ?_, ?_⟩
          · intro p hp
            rcases List.mem_cons.mp hp with rfl | hp
            · exact hok
            · exact hvars p hp
          · rw [(cut_eq_some hcut).1]
            exact congrArg (_ :: ·) hrest
        · cases hkey

/-- A wrapper without a problem has a bounded form. -/
theorem wrapper_ok (h : (wrapper allowedEnv t rest).2 = []) :
    ∃ form, Bounded allowedEnv (t :: form) ∧ rest = form ++ (wrapper allowedEnv t rest).1 := by
  unfold wrapper at h ⊢
  split at h
  · next ht =>
    obtain ⟨opts, d, hopts, hd, hrest⟩ := timeoutArgs_ok h
    exact ⟨opts ++ [d], .timeout ht hopts hd, by rw [List.append_assoc]; exact hrest⟩
  · next ht =>
    unfold niceArgs at h ⊢
    cases rest with
    | nil => exact ⟨[], .nice ht, rfl⟩
    | cons v rest =>
      simp only at h ⊢
      cases hv : optValue "-n" "--adjustment" (v :: rest) with
      | some p =>
        obtain ⟨o, left⟩ := p
        simp only [hv, need_eq_nil] at h ⊢
        obtain ⟨v', given, hok, hgiven, hgave⟩ := valued_given hv h
        exact ⟨given, .niceBy ht hgiven hok, hgave⟩
      | none =>
        simp only [hv] at h ⊢
        split
        · next hold =>
          rw [Bool.and_eq_true] at hold
          exact ⟨[v], .niceOld ht hold.1 hold.2, rfl⟩
        · exact ⟨[], .nice ht, rfl⟩
  · next ht =>
    obtain ⟨opts, hopts, hrest⟩ := optionArgs_ok rfl h
    exact ⟨opts, .ionice ht hopts, hrest⟩
  · next ht =>
    obtain ⟨all, given, hall, ⟨v, hgiven, hv⟩ | ⟨m, rfl, hm⟩, hrest⟩ := tasksetArgs_ok h
    · exact ⟨all ++ given, .tasksetList ht hall hgiven hv, hrest⟩
    · exact ⟨all ++ [m], .tasksetMask ht hall hm, hrest⟩
  · next ht =>
    obtain ⟨opts, hopts, hrest⟩ := optionArgs_ok rfl h
    exact ⟨opts, .numactl ht hopts, hrest⟩
  · next ht =>
    obtain ⟨opts, hopts, ⟨-, hrest⟩ | ⟨-, hrest⟩⟩ := options_ok systemdRun rest h
    · refine ⟨opts ++ [], .systemdRun ht hopts (.inl rfl), ?_⟩
      rw [List.append_nil]
      exact hrest
    · refine ⟨opts ++ ["--"], .systemdRun ht hopts (.inr rfl), ?_⟩
      rw [List.append_assoc]
      exact hrest
  · next ht =>
    obtain ⟨vars, hvars, hrest⟩ := envArgs_ok rest h
    exact ⟨_, .env ht hvars, hrest⟩
  · cases h

/-! ## The program -/

/-- The program that ran is the granted one: the same token, or one of its name that is the
worktree's own or the registered runner. -/
def Grant.Runs (g : Grant) (token : String) : Prop :=
  let first := g.program.headD ""
  token = first ∨ basename token = basename first ∧ ∃ w, g.worktree = some w ∧ w ≠ "" ∧
    (normpath token = join w [".venv", "bin", basename first]
      ∨ normpath token = join w ["venv", "bin", basename first]
      ∨ ∃ r, runnerPath g.runnerRef = some r ∧ normpath token = normpath (join w [r]))

variable {g : Grant} {problems : List String}

omit [Tables] in
theorem programOk_runs
    (h : programOk t (g.program.headD "") g.worktree (runnerPath g.runnerRef) = true) :
    g.Runs t := by
  unfold programOk at h
  split at h
  · next heq => exact .inl heq
  · cases hw : g.worktree with
    | none =>
      simp only [hw] at h
      cases h
    | some w =>
      simp only [hw] at h
      split at h
      · cases h
      · next hne =>
        rw [not_or, not_not] at hne
        refine .inr ⟨hne.1, w, hw, hne.2, ?_⟩
        rw [List.contains_iff_mem, List.mem_append] at h
        rcases h with h | h
        · simp only [List.map_cons, List.map_nil, List.mem_cons, List.not_mem_nil, or_false] at h
          exact h.imp_right .inl
        · cases hr : runnerPath g.runnerRef with
          | none =>
            rw [hr] at h
            cases h
          | some r =>
            simp only [hr] at h
            split at h
            · cases h
            · exact .inr (.inr ⟨r, rfl, List.mem_singleton.mp h⟩)

/-- What the wrappers leave: bounded forms, then the program with the tokens that belong to it. -/
theorem stripLoop_ok (toks : List String) (h : (stripLoop g problems toks).1 = []) :
    problems = [] ∧ ∃ (ws : List (List String)) (token : String) (rest : List String),
      (∀ w ∈ ws, Bounded g.allowedEnv w)
        ∧ toks = ws.flatten ++ token :: rest ∧ (stripLoop g problems toks).2 = token :: rest
        ∧ g.Runs token ∧ rest.take (programLen g.granted - 1) = g.program.drop 1 := by
  induction problems, toks using stripLoop.induct g with
  | case1 problems =>
    rw [stripLoop] at h
    simp only at h
    split at h
    · cases h
    · next hne => exact absurd h hne
  | case2 problems t rest first hprogram hok =>
    rw [stripLoop, if_pos hprogram, if_pos hok] at h ⊢
    exact ⟨h, [], t, rest, by simp, rfl, rfl, programOk_runs hok, hprogram.2⟩
  | case3 problems t rest first hprogram hok =>
    rw [stripLoop, if_pos hprogram, if_neg hok] at h
    cases h
  | case4 problems t rest first hprogram hname =>
    rw [stripLoop, if_neg hprogram, if_pos hname] at h
    simp at h
  | case5 problems t rest first hprogram hname ih =>
    rw [stripLoop, if_neg hprogram, if_neg hname] at h ⊢
    obtain ⟨hproblems, ws, token, rest', hws, htoks, heq, hruns, hmore⟩ := ih h
    obtain ⟨hnone, hwrapper⟩ := List.append_eq_nil_iff.mp hproblems
    obtain ⟨form, hform, hrest⟩ := wrapper_ok hwrapper
    refine ⟨hnone, (t :: form) :: ws, token, rest', ?_, ?_, heq, hruns, hmore⟩
    · intro w hw
      rcases List.mem_cons.mp hw with rfl | hw
      · exact hform
      · exact hws w hw
    · rw [hrest, htoks]
      simp

/-! ## Arguments -/

/-- How tokens give options, their values and positional arguments. -/
inductive Reads (valueOpts : List String) : List String → List Opt → List String → Prop
  | nil : Reads valueOpts [] [] []
  | equals {k v : String} {toks : List String} {opts : List Opt} {pos : List String}
    (hk : startsWith "--" (k ++ String.singleton '=' ++ v) = true)
    (h : Reads valueOpts toks opts pos) :
    Reads valueOpts ((k ++ String.singleton '=' ++ v) :: toks) ((k, some v) :: opts) pos
  | value {k v : String} {toks : List String} {opts : List Opt} {pos : List String}
    (hk : k ∈ valueOpts) (h : Reads valueOpts toks opts pos) :
    Reads valueOpts (k :: v :: toks) ((k, some v) :: opts) pos
  | joined {k v : String} {toks : List String} {opts : List Opt} {pos : List String}
    (hk : k ∈ valueOpts) (hv : v ≠ "") (h : Reads valueOpts toks opts pos) :
    Reads valueOpts ((k ++ v) :: toks) ((k, some v) :: opts) pos
  | flag {k : String} {toks : List String} {opts : List Opt} {pos : List String}
    (hk : startsWith "-" k = true) (h : Reads valueOpts toks opts pos) :
    Reads valueOpts (k :: toks) ((k, none) :: opts) pos
  | positional {p : String} {toks : List String} {opts : List Opt} {pos : List String}
    (hp : startsWith "-" p = false) (h : Reads valueOpts toks opts pos) :
    Reads valueOpts (p :: toks) opts (p :: pos)

omit [Tables] in
theorem consToken_reads {valueOpts : List String} {read : List Opt × List String}
    (h : Reads valueOpts toks read.1 read.2) :
    Reads valueOpts (t :: toks) (consToken valueOpts t read).1 (consToken valueOpts t read).2 := by
  unfold consToken optionOf
  cases heq : equals t with
  | some o =>
    unfold equals at heq
    split at heq
    · next hdash =>
      obtain ⟨p, hcut, rfl⟩ := Option.map_eq_some_iff.mp heq
      obtain ⟨ht, -⟩ := cut_eq_some (k := p.1) (v := p.2) hcut
      subst ht
      exact .equals hdash h
    · cases heq
  | none =>
    cases hjoin : joined valueOpts t with
    | some o =>
      unfold joined at hjoin
      simp only at hjoin
      split at hjoin
      · next hall =>
        obtain rfl := Option.some.inj hjoin
        simp only [Bool.and_eq_true, decide_eq_true_eq, List.contains_iff_mem] at hall
        obtain ⟨⟨⟨-, hlen⟩, hk⟩, -⟩ := hall
        have hsplit : t = firstChars 2 t ++ String.ofList (t.toList.drop 2) := by
          apply String.toList_injective
          unfold firstChars
          rw [String.toList_append, String.toList_ofList, String.toList_ofList,
            List.take_append_drop]
        have hne : String.ofList (t.toList.drop 2) ≠ "" := by
          intro hempty
          have hchars := congrArg String.toList hempty
          rw [String.toList_ofList, String.toList_empty, List.drop_eq_nil_iff,
            String.length_toList] at hchars
          omega
        simp only
        conv => arg 2; rw [hsplit]
        exact .joined hk hne h
      · cases hjoin
    | none =>
      simp only
      by_cases hdash : startsWith "-" t = true
      · rw [if_pos hdash]
        exact .flag hdash h
      · rw [if_neg hdash]
        exact .positional (by simpa using hdash) h

omit [Tables] in
theorem splitOpts_reads {valueOpts : List String} : ∀ toks : List String,
    Reads valueOpts toks (splitOpts valueOpts toks).1 (splitOpts valueOpts toks).2
  | [] => .nil
  | [t] => by
    rw [splitOpts]
    exact consToken_reads .nil
  | t :: v :: rest => by
    rw [splitOpts]
    split
    · next hvalue => exact .value hvalue.2 (splitOpts_reads rest)
    · exact consToken_reads (splitOpts_reads (v :: rest))

/-- What an option may be without a grant: a few workers, a timeout, output, and no cache. -/
inductive Allowance : Opt → Prop
  | workers {k : String} {v : Option String} {n : Int} (hk : k = "-n" ∨ k = "--numprocesses")
    (hv : int (v.getD "") = some n) (hn : n ≤ 2) : Allowance (k, v)
  | timeout {k : String} {v : Option String} (hk : k = "--timeout" ∨ k = "--timeout-method") :
    Allowance (k, v)
  | output {k : String} {v : Option String} (hk : k ∈ outputOpts) : Allowance (k, v)
  | cache {v : Option String} (hv : startsWith "no:cacheprovider" (v.getD "") = true) :
    Allowance ("-p", v)

/-- Arguments of a test run that keep what was granted. -/
structure Keeps (granted args : List String) (gOpts eOpts : List Opt) (gPos ePos : List String) :
    Prop where
  granted : Reads pytestValueOpts granted gOpts gPos
  args : Reads pytestValueOpts args eOpts ePos
  paths : ∀ p ∈ gPos, p ∈ ePos
  options : ∀ o ∈ gOpts, o ∈ eOpts ∨ o.1 ∈ outputOpts ∨ o.1 ∈ ["-n", "--numprocesses", "--timeout"]
  added : ∀ o ∈ eOpts, o ∈ gOpts ∨ Allowance o
  filters : ∀ o ∈ eOpts, o.1 ∈ filterOpts → o ∈ gOpts
  inside : ∀ p ∈ ePos, p ∈ gPos ∨ ∃ q ∈ gPos, ∃ r, p = rstripChar '/' q ++ "/" ++ r ∨ p = q ++ "::" ++ r

/-- An option that adds no problem was granted or needs no grant. -/
theorem addedOption_ok {granted : List Opt} {o : Opt} (h : addedOption granted o = []) :
    o ∈ granted ∨ Allowance o := by
  obtain ⟨k, v⟩ := o
  unfold addedOption at h
  simp only at h
  split_ifs at h with hgrant hworkers hfew htime hcache hfilter
  · exact .inl hgrant
  · cases hn : int (v.getD "") with
    | none =>
      rw [hn] at hfew
      cases hfew
    | some n =>
      rw [hn] at hfew
      exact .inr (.workers hworkers hn (by simpa using hfew))
  · rcases htime with htime | hout
    · exact .inr (.timeout htime)
    · exact .inr (.output hout)
  · obtain ⟨rfl, hv⟩ := hcache
    exact .inr (.cache hv)

/-- No allowance is a filter. -/
theorem Allowance.not_filter {o : Opt} (h : Allowance o) : o.1 ∉ filterOpts := by
  cases h with
  | workers hk _ _ => rcases hk with rfl | rfl <;> simp [filterOpts]
  | timeout hk => rcases hk with rfl | rfl <;> simp [filterOpts]
  | output hk =>
    have hall : ∀ k ∈ outputOpts, k ∉ filterOpts := by decide
    exact hall _ hk
  | cache _ => simp [filterOpts]

theorem droppedOption_ok {executed : List Opt} {o : Opt} (h : droppedOption executed o = []) :
    o ∈ executed ∨ o.1 ∈ outputOpts ∨ o.1 ∈ ["-n", "--numprocesses", "--timeout"] := by
  obtain ⟨k, v⟩ := o
  unfold droppedOption at h
  simp only at h
  split_ifs at h with hkeep
  exact hkeep

theorem pytestDiff_ok {granted args : List String} (h : pytestDiff granted args = []) :
    ∃ gOpts eOpts gPos ePos, Keeps granted args gOpts eOpts gPos ePos := by
  unfold pytestDiff at h
  simp only [List.append_eq_nil_iff, List.flatMap_eq_nil_iff, List.map_eq_nil_iff,
    List.filter_eq_nil_iff] at h
  obtain ⟨⟨⟨hadded, hdropped⟩, hpaths⟩, hinside⟩ := h
  refine ⟨_, _, _, _, ⟨splitOpts_reads granted, splitOpts_reads args, fun p hp => ?_,
    fun o ho => droppedOption_ok (hdropped o ho), fun o ho => addedOption_ok (hadded o ho),
    fun o ho hfilter => ?_, fun p hp => ?_⟩⟩
  · simpa using hpaths p hp
  · exact (addedOption_ok (hadded o ho)).resolve_right fun hallow => hallow.not_filter hfilter
  · have hin := hinside p hp
    simp only [Bool.and_eq_true, decide_eq_true_eq, Bool.not_eq_true', not_and,
      Bool.not_eq_false] at hin
    by_cases hg : p ∈ (splitOpts pytestValueOpts granted).2
    · exact .inl hg
    · obtain ⟨q, hq, hwithin⟩ := List.any_eq_true.mp (hin hg)
      refine .inr ⟨q, hq, ?_⟩
      unfold within at hwithin
      simp only [Bool.or_eq_true, decide_eq_true_eq, startsWith_iff] at hwithin
      rcases hwithin with (rfl | ⟨r, hr⟩) | ⟨r, hr⟩
      · exact absurd hq hg
      · exact ⟨r, .inl hr⟩
      · exact ⟨r, .inr hr⟩

/-! ## The command -/

/-- A command that runs no less than was granted: bounded wrappers, the granted program, and
arguments that keep the granted ones. Only allowed variables are set. -/
structure Covers (g : Grant) (kind : String) (c : Command) (ws : List (List String))
    (token : String) (args : List String) : Prop where
  argv : c.argv = ws.flatten ++ token :: (g.program.drop 1 ++ args)
  wrappers : ∀ w ∈ ws, Bounded g.allowedEnv w
  program : g.Runs token
  tests : kind = "pytest" → ∃ gOpts eOpts gPos ePos,
    Keeps (g.granted.drop (programLen g.granted)) args gOpts eOpts gPos ePos
  others : kind ≠ "pytest" → args.filter (· ∉ outputOpts)
    = (g.granted.drop (programLen g.granted)).filter (· ∉ outputOpts)
  env : ∀ key ∈ c.env, key ∈ g.allowedEnv

omit [Tables] in
theorem programLen_pos (granted : List String) : 0 < programLen granted := by
  unfold programLen
  split
  · split <;> omega
  · omega

end

/-! ## Two commands -/

/-- The digits of plain texts. -/
abbrev sampleTables : Tables where
  decimal c := if c.isDigit then some (c.toNat - '0'.toNat) else none
  isDigit := Char.isDigit
  repr s := "'" ++ s ++ "'"

/-- A test run without a problem in front of it and in its environment. -/
theorem commandDiff_of_strip [Tables] {g : Grant} {argv effective : List String}
    (hg : g.granted ≠ []) (hargv : argv ≠ []) (hstrip : stripWrappers g argv = ([], effective))
    (hne : effective ≠ [])
    (h : pytestDiff (g.granted.drop (programLen g.granted)) (effective.drop (programLen g.granted))
      = []) : commandDiff g "pytest" (some ⟨argv, ∅⟩) = [] := by
  have hkeys : (∅ : Map String).keys = [] := rfl
  unfold commandDiff
  rw [if_neg hg, Option.filter_some, if_pos (by simpa using hargv)]
  simp only [hstrip, if_neg hne, if_true, h, hkeys]
  rfl

end Gate
