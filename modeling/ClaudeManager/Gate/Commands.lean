import Mathlib
import ClaudeManager.Program.Containers
import ClaudeManager.Python.Paths

/-!
# The command of a gate step

A step's profile grants a command, and a receipt tells the one that ran. `commandDiff` says why
the one that ran needs a review:

* `wrapper` — one resource wrapper before the program, in a bounded form
* `stripWrappers` — the command from the granted program on
* `pytestDiff` — what the arguments change of a test run
* `commandDiff` — all of it, with the environment
-/

namespace Gate

open Python Containers

/-! ## Texts of a bounded form -/

/-- What `$` lets stand behind a match is not part of it. -/
def dropNewline (cs : List Char) : List Char := if cs.getLast? = some '\n' then cs.dropLast else cs

/-- Up to `n` characters of a kind, and one at least. -/
def upTo (n : Nat) (p : Char → Bool) (cs : List Char) : Bool :=
  cs ≠ [] && cs.length ≤ n && cs.all p

def isUpper (c : Char) : Bool := 'A' ≤ c && c ≤ 'Z'

def isLetter (c : Char) : Bool := isUpper c || ('a' ≤ c && c ≤ 'z')

def isAscii (c : Char) : Bool := '0' ≤ c && c ≤ '9'

section

variable [Tables]

/-- `\\d`. -/
def isDecimal (c : Char) : Bool := (Tables.decimal c).isSome

/-- `_DURATION_RE`. -/
def isDuration (s : String) : Bool :=
  let cs := dropNewline s.toList
  let rest := cs.dropWhile isDecimal
  let rest := match rest with
    | '.' :: fraction =>
      if fraction.takeWhile isDecimal = [] then rest else fraction.dropWhile isDecimal
    | rest => rest
  cs.takeWhile isDecimal ≠ [] && (rest = [] || rest ∈ [['s'], ['m'], ['h'], ['d']])

/-- `_INT_RE`. -/
def isInt (s : String) : Bool :=
  match dropNewline s.toList with
  | '-' :: cs => upTo 3 isDecimal cs
  | cs => upTo 3 isDecimal cs

/-- A class of the I/O scheduler: `v.isdigit() and len(v) <= 2`. -/
def isClass (s : String) : Bool := upTo 2 Tables.isDigit s.toList

end

/-- `_CPUS_RE`. -/
def isCpus (s : String) : Bool :=
  let cs := dropNewline s.toList
  let groups := cs.splitOnP fun c => c = ',' || c = '-'
  cs = "all".toList || (groups.length ≤ 128 && groups.all (upTo 4 isAscii))

/-- `_MASK_RE`. -/
def isMask (s : String) : Bool :=
  let hex := upTo 64 fun c => isAscii c || ('a' ≤ c && c ≤ 'f') || ('A' ≤ c && c ≤ 'F')
  match dropNewline s.toList with
  | '0' :: 'x' :: cs => hex cs
  | cs => hex cs

/-- `_SIGNAL_RE`. -/
def isSignal (s : String) : Bool :=
  upTo 10 (fun c => isUpper c || isAscii c) (dropNewline s.toList)

def properties : List String :=
  ["MemoryMax", "MemoryHigh", "MemorySwapMax", "CPUQuota", "CPUWeight", "TasksMax", "IOWeight"]

/-- `_PROP_RE`. -/
def isProp (s : String) : Bool :=
  match cut '=' s with
  | some (k, v) => properties.contains k
      && upTo 20 (fun c => isLetter c || isAscii c || c = '.' || c = '%') (dropNewline v.toList)
  | none => false

/-- `_ENV_KEY_RE`. -/
def isEnvKey (s : String) : Bool :=
  match dropNewline s.toList with
  | c :: cs => (isLetter c || c = '_') && cs.length ≤ 63
      && cs.all fun c => isLetter c || isAscii c || c = '_'
  | [] => false

/-! ## Options -/

/-- `_opt_value`: the value of an option at the front, with what is left, where it is there. Both
its names are set. -/
def optValue (short long : String) : List String → Option (Option String × List String)
  | [] => none
  | t :: rest =>
    match after (long ++ "=") t with
    | some v => some (some v, rest)
    | none =>
      if t = short ∨ t = long then
        match rest with
        | v :: rest => some (some v, rest)
        | [] => some (none, [])
      else
        match after short t with
        | some v => if v ≠ "" ∧ startsWith "--" t = false then some (some v, rest) else none
        | none => none

/-- An option with a value: its names, which values are bounded, and what a problem calls it. -/
structure Valued where
  short : String
  long : String
  ok : String → Bool
  label : String

/-- The first of some options that is at the front. -/
def findValued : List Valued → List String → Option (Valued × Option String × List String)
  | [], _ => none
  | o :: os, toks =>
    match optValue o.short o.long toks with
    | some (v, rest) => some (o, v, rest)
    | none => findValued os toks

/-- What is left is shorter. -/
theorem optValue_shorter {short long : String} {toks rest : List String} {v : Option String}
    (h : optValue short long toks = some (v, rest)) : rest.length < toks.length := by
  unfold optValue at h
  split at h
  · cases h
  · split at h
    · obtain ⟨-, rfl⟩ := Prod.mk.inj (Option.some.inj h)
      simp
    · split at h
      · split at h
        · obtain ⟨-, rfl⟩ := Prod.mk.inj (Option.some.inj h)
          simp only [List.length_cons]
          omega
        · obtain ⟨-, rfl⟩ := Prod.mk.inj (Option.some.inj h)
          simp
      · split at h
        · split at h
          · obtain ⟨-, rfl⟩ := Prod.mk.inj (Option.some.inj h)
            simp
          · cases h
        · cases h

theorem findValued_shorter {os : List Valued} {o : Valued} {toks rest : List String}
    {v : Option String} (h : findValued os toks = some (o, v, rest)) :
    rest.length < toks.length := by
  induction os with
  | nil => cases h
  | cons o' os ih =>
    unfold findValued at h
    split at h
    · next hv =>
      obtain ⟨-, heq⟩ := Prod.mk.inj (Option.some.inj h)
      obtain ⟨rfl, rfl⟩ := Prod.mk.inj heq
      exact optValue_shorter hv
    · exact ih h

section

variable [Tables]

/-- A value as a problem shows it. -/
def shown : Option String → String
  | some v => Tables.repr v
  | none => "None"

/-- `need`: a problem, where something does not fit. -/
def need (tool what : String) (ok : Bool) : List String :=
  if ok then [] else [s!"{tool}: {what} is not an allowed form"]

/-- A tool's options: flags without a value, options with one, and whether `--` ends them. -/
structure Tool where
  name : String
  flags : List String
  valued : List Valued
  dashes : Bool

/-- A tool's options at the front: what is left, the problems, and whether the tool ends there. -/
def options (tool : Tool) : List String → List String × List String × Bool
  | [] => ([], [], false)
  | t :: rest =>
    if startsWith "-" t = false then (t :: rest, [], false)
    else if tool.dashes ∧ t = "--" then (rest, [], true)
    else if t ∈ tool.flags then options tool rest
    else
      match _found : findValued tool.valued (t :: rest) with
      | some (o, v, rest') =>
        let what := o.label ++ " " ++ shown v
        let (left, problems, ended) := options tool rest'
        (left, need tool.name what (v.any o.ok) ++ problems, ended)
      | none =>
        let what := "option " ++ Tables.repr t
        (rest, need tool.name what false, true)
termination_by toks => toks.length
decreasing_by
  · simp
  · exact findValued_shorter _found

/-! ## Wrappers -/

def timeout : Tool :=
  ⟨"timeout", ["--preserve-status", "--foreground"],
    [⟨"-s", "--signal", isSignal, "signal"⟩, ⟨"-k", "--kill-after", isDuration, "kill-after"⟩],
    false⟩

def ionice : Tool :=
  ⟨"ionice", ["-t"], [⟨"-c", "--class", isClass, "-c"⟩, ⟨"-n", "--classdata", isClass, "-n"⟩],
    false⟩

def numactl : Tool :=
  ⟨"numactl", ["-l", "--localalloc"],
    [⟨"-C", "--physcpubind", isCpus, "--physcpubind"⟩,
      ⟨"-N", "--cpunodebind", isCpus, "--cpunodebind"⟩, ⟨"-m", "--membind", isCpus, "--membind"⟩,
      ⟨"-p", "--preferred", isCpus, "--preferred"⟩,
      ⟨"-i", "--interleave", isCpus, "--interleave"⟩], false⟩

def systemdRun : Tool :=
  ⟨"systemd-run", ["--user", "--scope", "-q", "--quiet", "--collect", "-G"],
    [⟨"-p", "--property", isProp, "property"⟩], true⟩

/-- `timeout`: after its options stands the duration. -/
def timeoutArgs (toks : List String) : List String × List String :=
  let (rest, problems, ended) := options timeout toks
  if ended then (rest, problems)
  else (rest.drop 1, problems ++ need "timeout" "missing duration" (rest.head?.any isDuration))

def niceArgs : List String → List String × List String
  | [] => ([], [])
  | t :: rest =>
    match optValue "-n" "--adjustment" (t :: rest) with
    | some (v, rest') => (rest', need "nice" ("adjustment " ++ shown v) (v.any isInt))
    | none =>
      -- The old style, `nice -10`.
      if isInt t && startsWith "-" t then (rest, []) else (t :: rest, [])

/-- A tool that has only options. -/
def optionArgs (tool : Tool) (toks : List String) : List String × List String :=
  let (rest, problems, _) := options tool toks
  (rest, problems)

def tasksetArgs (toks : List String) : List String × List String :=
  let toks := if toks.head? = some "-a" then toks.drop 1 else toks
  match optValue "-c" "--cpu-list" toks with
  | some (v, rest) => (rest, need "taskset" ("cpu list " ++ shown v) (v.any isCpus))
  | none => (toks.drop 1, need "taskset" "missing CPU mask" (toks.head?.any isMask))

/-- `env`: variables that are set. -/
def envArgs (allowedEnv : List String) : List String → List String × List String
  | [] => ([], [])
  | t :: rest =>
    match cut '=' t with
    | some (key, _) =>
      if startsWith "-" t then (rest, need "env" ("option " ++ Tables.repr t) false)
      else
        let problems := if isEnvKey key && allowedEnv.contains key then []
          else [s!"env {key} is not an allowed variable"]
        let (left, more) := envArgs allowedEnv rest
        (left, problems ++ more)
    | none =>
      if startsWith "-" t then (rest, need "env" ("option " ++ Tables.repr t) false)
      else (t :: rest, [])

/-- `_wrapper`: one wrapper, from the token that names it: what is left, and the problems. -/
def wrapper (allowedEnv : List String) (t : String) (rest : List String) :
    List String × List String :=
  match basename t with
  | "timeout" => timeoutArgs rest
  | "nice" => niceArgs rest
  | "ionice" => optionArgs ionice rest
  | "taskset" => tasksetArgs rest
  | "numactl" => optionArgs numactl rest
  | "systemd-run" => optionArgs systemdRun rest
  | "env" => envArgs allowedEnv rest
  | _ => (rest, ["unrecognized command prefix " ++ Tables.repr t])

/-- `_WRAPPERS`. -/
def wrappers : List String :=
  ["timeout", "nice", "ionice", "taskset", "numactl", "systemd-run", "env"]

theorem options_shorter (tool : Tool) (toks : List String) :
    (options tool toks).1.length ≤ toks.length := by
  induction toks using options.induct tool with
  | case1 => simp [options]
  | case2 t rest h => simp [options, h]
  | case3 t rest h h' =>
    rw [options, if_neg h, if_pos h']
    simp
  | case4 t rest h h' h'' ih =>
    rw [options, if_neg h, if_neg h', if_pos h'']
    exact le_trans ih (by simp)
  | case5 t rest h h' h'' o v rest' hfound _ _ _ _ ih =>
    rw [options, if_neg h, if_neg h', if_neg h'']
    split
    · next o2 v2 rest2 hfound2 =>
      obtain ⟨rfl, rfl, rfl⟩ : o = o2 ∧ v = v2 ∧ rest' = rest2 := by
        simpa using hfound.symm.trans hfound2
      have := findValued_shorter hfound
      exact le_trans ih this.le
    · next hnone => rw [hfound] at hnone; cases hnone
  | case6 t rest h h' h'' hfound =>
    rw [options, if_neg h, if_neg h', if_neg h'']
    split
    · next o v rest' hfound' => rw [hfound] at hfound'; cases hfound'
    · simp

theorem envArgs_shorter (allowedEnv : List String) :
    ∀ toks : List String, (envArgs allowedEnv toks).1.length ≤ toks.length
  | [] => by simp [envArgs]
  | t :: rest => by
    have ih := envArgs_shorter allowedEnv rest
    unfold envArgs
    split
    · split
      · simp
      · exact le_trans ih (by simp)
    · split <;> simp

/-- A wrapper leaves no more than stood behind its name. -/
theorem wrapper_shorter (allowedEnv : List String) (t : String) (rest : List String) :
    (wrapper allowedEnv t rest).1.length ≤ rest.length := by
  unfold wrapper
  split
  · unfold timeoutArgs
    have := options_shorter timeout rest
    simp only
    split
    · exact this
    · rw [List.length_drop]
      omega
  · unfold niceArgs
    split
    · simp
    · split
      · next hv => exact (optValue_shorter hv).le
      · split <;> simp
  · exact options_shorter ionice rest
  · unfold tasksetArgs
    have hdash : (if rest.head? = some "-a" then rest.drop 1 else rest).length ≤ rest.length := by
      split <;> simp
    simp only
    split
    · next hv => exact (optValue_shorter hv).le.trans hdash
    · rw [List.length_drop]
      omega
  · exact options_shorter numactl rest
  · exact options_shorter systemdRun rest
  · exact envArgs_shorter allowedEnv rest
  · exact le_rfl

/-! ## The program -/

/-- `_program_len`: `python -m pytest` is one program of three tokens. -/
def programLen : List String → Nat
  | g :: "-m" :: _ :: _ => if startsWith "python" (basename g) then 3 else 1
  | _ => 1

/-- `program_ok`. -/
def programOk (token granted : String) (worktree runnerPath : Option String) : Bool :=
  if token = granted then true
  else
    match worktree with
    | none => false
    | some w =>
      if basename token ≠ basename granted ∨ w = "" then false
      else
        let venvs := [".venv", "venv"].map fun venv => join w [venv, "bin", basename granted]
        let runner := match runnerPath with
          | some r => if r = "" then [] else [normpath (join w [r])]
          | none => []
        (venvs ++ runner).contains (normpath token)

/-- The path of the registered runner: `(runner_ref or "").partition(":")[2] or None`. -/
def runnerPath (runnerRef : Option String) : Option String :=
  match runnerRef.bind (cut ':') with
  | some (_, path) => if path = "" then none else some path
  | none => none

/-- What a command is held against: the granted command, the variables that may be set, the
receipt's worktree and the profile's runner. -/
structure Grant where
  granted : List String
  allowedEnv : List String
  worktree : Option String
  runnerRef : Option String

/-- `granted[:k]`. -/
def Grant.program (g : Grant) : List String := g.granted.take (programLen g.granted)

/-- The loop of `_strip_wrappers`: the problems with those found so far, and the command from the
program on. -/
def stripLoop (g : Grant) (problems : List String) : List String → List String × List String
  | [] =>
    let program := Tables.repr (" ".intercalate g.program)
    (if problems = [] then [s!"does not run the granted program {program}"] else problems, [])
  | t :: rest =>
    let first := g.program.headD ""
    if basename t = basename first
        ∧ rest.take (programLen g.granted - 1) = g.program.drop 1 then
      if programOk t first g.worktree (runnerPath g.runnerRef) then (problems, t :: rest)
      else
        let token := Tables.repr t
        let wanted := Tables.repr first
        ([s!"program {token} is not the granted {wanted} (nor the worktree's "
          ++ "venv or the registered runner)"], [])
    else if basename t ∉ wrappers then
      let token := Tables.repr t
      (problems ++ [s!"unrecognized command prefix {token} (shells and other tools "
        ++ "before the program need a grant)"], [])
    else stripLoop g (problems ++ (wrapper g.allowedEnv t rest).2) (wrapper g.allowedEnv t rest).1
termination_by toks => toks.length
decreasing_by
  have := wrapper_shorter g.allowedEnv t rest
  simp only [List.length_cons]
  omega

/-- `_strip_wrappers`. -/
def stripWrappers (g : Grant) (argv : List String) : List String × List String :=
  stripLoop g [] argv

/-! ## The arguments -/

/-- `_PYTEST_VALUE_OPTS`. -/
def pytestValueOpts : List String :=
  ["-n", "--numprocesses", "-k", "-m", "-p", "--timeout", "--deselect", "--ignore",
    "--ignore-glob", "-c", "--rootdir", "--junitxml", "--junit-xml", "-o", "--override-ini",
    "--maxfail", "--tb", "-W", "--basetemp", "--durations", "-r", "--dist", "--color",
    "--import-mode", "--confcutdir", "--log-level", "--timeout-method"]

/-- `_OUTPUT_OPTS`: never change what runs or what passes. -/
def outputOpts : List String :=
  ["-q", "-v", "-vv", "-vvv", "-s", "--tb", "-r", "--durations", "--junitxml", "--junit-xml",
    "--color", "--no-header", "--quiet", "--verbose", "-ra", "-rA", "-rs", "-rfE", "--basetemp",
    "-l", "--showlocals", "--log-level"]

/-- `_FILTER_OPTS`. -/
def filterOpts : List String :=
  ["-k", "-m", "--deselect", "--ignore", "--ignore-glob", "--lf", "--last-failed", "--ff", "-x",
    "--exitfirst", "--maxfail", "--sw", "--stepwise"]

abbrev Opt := String × Option String

/-- `t[:2]` and `t[2:]` of an option with its value behind it: `-n2`, `-kfoo`. -/
def joined (valueOpts : List String) (t : String) : Option Opt :=
  let short := firstChars 2 t
  if startsWith "-" t && 2 < t.length && valueOpts.contains short && !startsWith "--" t then
    some (short, some (String.ofList (t.toList.drop 2)))
  else none

/-- `--long=value`. -/
def equals (t : String) : Option Opt :=
  if startsWith "--" t then (cut '=' t).map fun p => (p.1, some p.2) else none

/-- The option that one token is, none for a positional argument. -/
def optionOf (valueOpts : List String) (t : String) : Option Opt :=
  match equals t with
  | some o => some o
  | none =>
    match joined valueOpts t with
    | some o => some o
    | none => if startsWith "-" t then some (t, none) else none

/-- One token before the others. -/
def consToken (valueOpts : List String) (t : String) (read : List Opt × List String) :
    List Opt × List String :=
  match optionOf valueOpts t with
  | some o => (o :: read.1, read.2)
  | none => (read.1, t :: read.2)

/-- `_split_opts`: the options with their values, and the positional arguments. -/
def splitOpts (valueOpts : List String) : List String → List Opt × List String
  | [] => ([], [])
  | [t] => consToken valueOpts t ([], [])
  | t :: v :: rest =>
    if equals t = none ∧ t ∈ valueOpts then
      let read := splitOpts valueOpts rest
      ((t, some v) :: read.1, read.2)
    else consToken valueOpts t (splitOpts valueOpts (v :: rest))

/-- `f"{sep}{v}" if v else ""`. -/
def suffix (sep : String) : Option String → String
  | some v => if v = "" then "" else sep ++ v
  | none => ""

/-- What an option of the command adds to the grant. -/
def addedOption (granted : List Opt) (o : Opt) : List String :=
  let (k, v) := o
  if o ∈ granted then []
  else if k = "-n" ∨ k = "--numprocesses" then
    if (int (v.getD "")).any (· ≤ 2) then []
    else
      let workers := v.getD "None"
      [s!"workers {workers} (at most 2 without review)"]
  else if (k = "--timeout" ∨ k = "--timeout-method") ∨ k ∈ outputOpts then []
  else if k = "-p" ∧ startsWith "no:cacheprovider" (v.getD "") then []
  else if k ∈ filterOpts then
    let shown := suffix " " v
    [s!"filter {k}{shown} narrows the granted selection"]
  else
    let shown := suffix "=" v
    [s!"option {k}{shown} is not in the grant"]

/-- What an option of the grant lost. -/
def droppedOption (executed : List Opt) (o : Opt) : List String :=
  let (k, v) := o
  if o ∈ executed ∨ k ∈ outputOpts ∨ k ∈ ["-n", "--numprocesses", "--timeout"] then []
  else if k ∈ filterOpts ∧ executed.any (fun e => e.1 = k) then
    let value := shown v
    [s!"filter {k} changed from {value}"]
  else
    let shown := suffix "=" v
    [s!"granted option {k}{shown} was dropped"]

/-- Does a path lie within a granted one? -/
def within (p g : String) : Bool :=
  p = g || startsWith (rstripChar '/' g ++ "/") p || startsWith (g ++ "::") p

/-- `_pytest_diff`, from the arguments behind the program. -/
def pytestDiff (granted effective : List String) : List String :=
  let (gOpts, gPos) := splitOpts pytestValueOpts granted
  let (eOpts, ePos) := splitOpts pytestValueOpts effective
  eOpts.flatMap (addedOption gOpts) ++ gOpts.flatMap (droppedOption eOpts)
    ++ (gPos.filter (· ∉ ePos)).map (fun p => s!"granted path {p} was removed")
    ++ (ePos.filter fun p => p ∉ gPos && !gPos.any (within p)).map
      fun p => s!"added path {p} is outside the granted paths"

/-! ## The command -/

/-- The command that ran. -/
structure Command where
  argv : List String
  env : Map String

/-- `command_diff`: why the command that ran needs a review. Nothing is granted where the list is
empty, and a command without arguments was not recorded. -/
def commandDiff (g : Grant) (kind : String) (cmd : Option Command) : List String :=
  if g.granted = [] then []
  else
    match cmd.filter fun c => c.argv ≠ [] with
    | none => ["no effective command recorded"]
    | some c =>
      let k := programLen g.granted
      let (problems, effective) := stripWrappers g c.argv
      let args :=
        if effective = [] then []
        else if kind = "pytest" then pytestDiff (g.granted.drop k) (effective.drop k)
        else
          let granted := (g.granted.drop k).filter (· ∉ outputOpts)
          let executed := (effective.drop k).filter (· ∉ outputOpts)
          if executed = granted then []
          else
            let ran := Tables.repr (" ".intercalate executed)
            let wanted := Tables.repr (" ".intercalate granted)
            [s!"arguments {ran} differ from the grant {wanted}"]
      problems ++ args ++ (c.env.keys.filter (· ∉ g.allowedEnv)).map
        fun key => s!"env {key} is not an allowed variable"

end

end Gate
