import AlderpointDNS.Lib.Runs
import Mathlib.Data.List.GetD
import Mathlib.Tactic.Common

/-!
# The deployment lock

Each deployment of the compiler runs in a process of its own.  `Command.program` lists what an
entry point does: `acquire` and `release` are the two ends of `with deploy_lock()`, and a stage
writes live configuration and last-good backups, in any number of steps.  A stage may raise, which
leads to the handler of the entry point and out of the `with` block, and a process may die; the
kernel then drops its lock.

* `disciplined` — the stages of a program are all between `acquire` and `release`;
* `disciplined_program` — those of every command but `local-dns-deploy` are;
* **`exclusive_iff`** — which processes never write at the same time, however they interleave.
* `zones_deployed_twice` — `deploy` and `local-dns-deploy` in the same stage.
-/

namespace AlderpointDNS

/-! ## Entry points -/

/-- A part of a deployment that writes live configuration and last-good backups. -/
inductive Stage where
  /-- the RPZ file, and the first `local-zones.conf` -/
  | rpz
  /-- `deploy_zones` -/
  | localZones
  /-- `deploy_upstreams` -/
  | upstreams
  /-- `deploy_cache_options` -/
  | cacheOptions
  /-- `process_pending_flush` -/
  | cacheFlush
  /-- `deploy_dnsdist_layer` -/
  | customRules
  /-- `deploy_encryption` -/
  | encryption
  /-- `deploy_access_layer` -/
  | accessLayer
  /-- the handler of `deploy` and of `protection_enable_reuse` -/
  | rollback
  deriving DecidableEq

inductive Statement where
  | acquire
  | stage (s : Stage)
  | release
  deriving DecidableEq

/-- The subcommands of `main` that deploy. -/
inductive Command where
  | deploy
  | protectionEnableReuse
  | localDnsDeploy
  | cacheDeploy
  | cacheFlush
  | upstreamDeploy
  | encryptionDeploy
  | accessPolicyDeploy
  deriving DecidableEq

/-- `with deploy_lock():`. -/
def deployLock (body : List Stage) : List Statement :=
  .acquire :: body.map .stage ++ [.release]

/-- The function of a subcommand. -/
def Command.program : Command → List Statement
  | .deploy => deployLock [.rpz, .localZones, .upstreams, .cacheOptions, .customRules]
  | .protectionEnableReuse => deployLock [.rpz]
  -- `lambda args: print(local_dns.deploy_zones())`
  | .localDnsDeploy => [.stage .localZones]
  | .cacheDeploy => deployLock [.cacheOptions]
  | .cacheFlush => deployLock [.cacheFlush]
  | .upstreamDeploy => deployLock [.upstreams]
  | .encryptionDeploy => deployLock [.encryption]
  | .accessPolicyDeploy => deployLock [.accessLayer]

/-- The handler of the function itself; the other stages restore their own files. -/
def Command.handler : Command → List Statement
  | .deploy | .protectionEnableReuse => [.stage .rollback]
  | _ => []

/-- What is left after a stage has raised: the handler, unless the handler raised, and the end of
the `with` block. -/
def unwind (command : Command) (stage : Stage) (rest : List Statement) : List Statement :=
  (if stage = .rollback then [] else command.handler) ++ rest.dropWhile (· ≠ .release)

/-! ## Processes -/

/-- A process: the stage it is in, and what is left to do after it. -/
structure Process where
  command : Command
  stage : Option Stage
  rest : List Statement
  deriving DecidableEq

/-- The processes, and which of them holds the `flock`. -/
structure System where
  processes : List Process
  holder : Option ℕ
  deriving DecidableEq

/-- What a process does next. -/
inductive Event where
  | acquire (pid : ℕ)
  | enter (pid : ℕ)
  | write (pid : ℕ)
  | finish (pid : ℕ)
  | raise (pid : ℕ)
  | release (pid : ℕ)
  | exit (pid : ℕ)

/-- The lock without the process. -/
def dropLock (holder : Option ℕ) (pid : ℕ) : Option ℕ := if holder = some pid then none else holder

/-- A process moves on. -/
def System.put (s : System) (pid : ℕ) (p : Process) (holder : Option ℕ) : System :=
  { processes := s.processes.set pid p, holder := holder }

/-- One step of one process. -/
def deployStep (s : System) : Event → Option System
  | .acquire pid =>
      match s.processes[pid]?, s.holder with
      | some ⟨c, none, .acquire :: rest⟩, none => some (s.put pid ⟨c, none, rest⟩ (some pid))
      | _, _ => none
  | .enter pid =>
      match s.processes[pid]? with
      | some ⟨c, none, .stage stage :: rest⟩ => some (s.put pid ⟨c, some stage, rest⟩ s.holder)
      | _ => none
  | .write pid =>
      match s.processes[pid]? with
      | some ⟨_, some _, _⟩ => some s
      | _ => none
  | .finish pid =>
      match s.processes[pid]? with
      | some ⟨c, some _, rest⟩ => some (s.put pid ⟨c, none, rest⟩ s.holder)
      | _ => none
  | .raise pid =>
      match s.processes[pid]? with
      | some ⟨c, some stage, rest⟩ => some (s.put pid ⟨c, none, unwind c stage rest⟩ s.holder)
      | _ => none
  | .release pid =>
      match s.processes[pid]? with
      | some ⟨c, none, .release :: rest⟩ =>
          some (s.put pid ⟨c, none, rest⟩ (dropLock s.holder pid))
      | _ => none
  | .exit pid =>
      match s.processes[pid]? with
      | some ⟨c, _, _⟩ => some (s.put pid ⟨c, none, []⟩ (dropLock s.holder pid))
      | none => none

/-- The processes of some commands, before any of them has done anything. -/
def initialSystem (commands : List Command) : System :=
  { processes := commands.map fun c => ⟨c, none, c.program⟩, holder := none }

/-- The process holds the lock or is in a stage. -/
def System.inside (s : System) (pid : ℕ) : Prop :=
  ∃ p, s.processes[pid]? = some p ∧ (s.holder = some pid ∨ p.stage.isSome = true)

/-- No two processes are inside. -/
def System.Exclusive (s : System) : Prop :=
  ∀ pid pid', s.inside pid → s.inside pid' → pid = pid'

/-! ## Programs that keep to the lock -/

/-- Every stage of the program is between `acquire` and `release`. -/
def disciplined : Bool → List Statement → Bool
  | held, [] => !held
  | false, .acquire :: rest => disciplined true rest
  | true, .stage _ :: rest => disciplined true rest
  | true, .release :: rest => disciplined false rest
  | _, _ => false

theorem disciplined_program {c : Command} (h : c ≠ .localDnsDeploy) :
    disciplined false c.program = true := by
  cases c
  case localDnsDeploy => exact absurd rfl h
  all_goals rfl

theorem disciplined_unwind (command : Command) (stage : Stage) {rest : List Statement}
    (h : disciplined true rest = true) : disciplined true (unwind command stage rest) = true := by
  have hdrop : ∀ rest : List Statement, disciplined true rest = true →
      disciplined true (rest.dropWhile (· ≠ .release)) = true := by
    intro rest
    induction rest with
    | nil => exact id
    | cons statement rest ih =>
        intro h
        cases statement with
        | acquire => cases h
        | stage s => exact ih h
        | release => exact h
  have hhandler : ∀ rest, disciplined true (command.handler ++ rest) = disciplined true rest := by
    intro rest
    cases command <;> rfl
  unfold unwind
  split_ifs
  · exact hdrop rest h
  · rw [hhandler]
    exact hdrop rest h

/-- Only `acquire` is for a process without the lock. -/
theorem held_of_disciplined {held : Bool} {statement : Statement} {rest : List Statement}
    (h : disciplined held (statement :: rest) = true) (hne : statement ≠ .acquire) :
    held = true := by
  cases held with
  | true => rfl
  | false =>
      cases statement with
      | acquire => exact absurd rfl hne
      | stage s => cases h
      | release => cases h

/-- What holds of a process that keeps to the lock. -/
structure Process.Guarded (p : Process) (held : Bool) : Prop where
  rest : disciplined held p.rest = true
  stage : p.stage.isSome = true → held = true

/-- The invariant: every process keeps to the lock. -/
def System.Guarded (s : System) : Prop :=
  ∀ pid (p : Process), s.processes[pid]? = some p → p.Guarded (s.holder = some pid)

theorem exclusive_of_guarded {s : System} (h : s.Guarded) : s.Exclusive := by
  have hholder : ∀ pid, s.inside pid → s.holder = some pid := by
    rintro pid ⟨p, hp, hheld | hstage⟩
    · exact hheld
    · exact of_decide_eq_true ((h pid p hp).stage hstage)
  intro pid pid' hpid hpid'
  exact Option.some.inj ((hholder pid hpid).symm.trans (hholder pid' hpid'))

/-- A step of one process leaves the others as they are, and what they hold. -/
theorem guarded_put {s : System} (h : s.Guarded) {pid : ℕ} {p : Process} {holder : Option ℕ}
    (hp : p.Guarded (holder = some pid))
    (hothers : ∀ other, other ≠ pid → (holder = some other ↔ s.holder = some other)) :
    (s.put pid p holder).Guarded := by
  intro other q hq
  by_cases hother : other = pid
  · subst hother
    have hlen : other < s.processes.length := by
      have hlt := (List.getElem?_eq_some_iff.mp hq).1
      simpa [System.put] using hlt
    rw [System.put, List.getElem?_set_self hlen, Option.some.injEq] at hq
    exact hq ▸ hp
  · rw [System.put, List.getElem?_set_ne (Ne.symm hother)] at hq
    have hg := h other q hq
    have hsame : decide (holder = some other) = decide (s.holder = some other) :=
      decide_eq_decide.mpr (hothers other hother)
    rw [← hsame] at hg
    exact hg

theorem dropLock_self (holder : Option ℕ) (pid : ℕ) : dropLock holder pid ≠ some pid := by
  unfold dropLock
  split_ifs with h
  · simp
  · exact h

theorem dropLock_other {holder : Option ℕ} {pid other : ℕ} (h : other ≠ pid) :
    dropLock holder pid = some other ↔ holder = some other := by
  unfold dropLock
  split_ifs with hheld
  · simp [hheld, Ne.symm h]
  · rfl

/-- **Every step keeps to the lock.** -/
theorem guarded_step {s s' : System} {e : Event} (h : s.Guarded)
    (hstep : deployStep s e = some s') : s'.Guarded := by
  cases e with
  | acquire pid =>
      rw [deployStep] at hstep
      split at hstep
      · rename_i c rest hp hfree
        cases hstep
        refine guarded_put h ?_ fun other hother => by simp [hfree, Ne.symm hother]
        have hg := h pid _ hp
        rw [hfree] at hg
        exact ⟨by simpa [disciplined] using hg.rest, by simp⟩
      · cases hstep
  | enter pid =>
      rw [deployStep] at hstep
      split at hstep
      · rename_i c stage rest hp
        cases hstep
        refine guarded_put h ?_ fun _ _ => Iff.rfl
        have hg := (h pid _ hp).rest
        have hheld := held_of_disciplined hg (by simp)
        rw [hheld] at hg ⊢
        exact ⟨hg, fun _ => rfl⟩
      · cases hstep
  | write pid =>
      rw [deployStep] at hstep
      split at hstep
      · cases hstep
        exact h
      · cases hstep
  | finish pid =>
      rw [deployStep] at hstep
      split at hstep
      · rename_i c stage rest hp
        cases hstep
        exact guarded_put h ⟨(h pid _ hp).rest, by simp⟩ fun _ _ => Iff.rfl
      · cases hstep
  | raise pid =>
      rw [deployStep] at hstep
      split at hstep
      · rename_i c stage rest hp
        cases hstep
        have hg := h pid _ hp
        have hheld := hg.stage rfl
        refine guarded_put h ⟨?_, by simp⟩ fun _ _ => Iff.rfl
        have hrest := hg.rest
        rw [hheld] at hrest ⊢
        exact disciplined_unwind c stage hrest
      · cases hstep
  | release pid =>
      rw [deployStep] at hstep
      split at hstep
      · rename_i c rest hp
        cases hstep
        refine guarded_put h ?_ fun other hother => dropLock_other hother
        have hg := (h pid _ hp).rest
        rw [decide_eq_false (dropLock_self s.holder pid)]
        rw [held_of_disciplined hg (by simp)] at hg
        exact ⟨hg, by simp⟩
      · cases hstep
  | exit pid =>
      rw [deployStep] at hstep
      split at hstep
      · rename_i c stage rest hp
        cases hstep
        refine guarded_put h ?_ fun other hother => dropLock_other hother
        rw [decide_eq_false (dropLock_self s.holder pid)]
        exact ⟨rfl, by simp⟩
      · cases hstep

/-! ## Which processes exclude each other -/

theorem guarded_initial {commands : List Command} (h : .localDnsDeploy ∉ commands) :
    (initialSystem commands).Guarded := by
  intro pid p hp
  rw [initialSystem, List.getElem?_map, Option.map_eq_some_iff] at hp
  obtain ⟨c, hc, rfl⟩ := hp
  exact ⟨disciplined_program fun hlocal => h (hlocal ▸ List.mem_of_getElem? hc), by simp⟩

/-- A step does not start or forget processes. -/
theorem length_step {s s' : System} {e : Event} (hstep : deployStep s e = some s') :
    s'.processes.length = s.processes.length := by
  cases e
  all_goals
    rw [deployStep] at hstep
    split at hstep
    all_goals
      cases hstep
      try simp [System.put]

theorem program_acquire {c : Command} (h : c ≠ .localDnsDeploy) :
    ∃ rest, c.program = .acquire :: rest := by
  cases c
  case localDnsDeploy => exact absurd rfl h
  all_goals exact ⟨_, rfl⟩

/-- Without the lock `local-dns-deploy` writes next to any other process. -/
theorem not_exclusive {commands : List Command} {pid other : ℕ} {c : Command} (hne : pid ≠ other)
    (hlocal : commands[pid]? = some .localDnsDeploy) (hother : commands[other]? = some c) :
    ∃ events s, Runs.run deployStep (initialSystem commands) events = some s ∧ ¬ s.Exclusive := by
  have hproc : ∀ {i : ℕ} {d : Command}, commands[i]? = some d →
      (initialSystem commands).processes[i]? = some ⟨d, none, d.program⟩ := fun h => by
    rw [initialSystem, List.getElem?_map, h, Option.map_some]
  have hlen : ∀ {i : ℕ} {d : Command}, commands[i]? = some d →
      i < (initialSystem commands).processes.length := fun h =>
    (List.getElem?_eq_some_iff.mp (hproc h)).1
  -- the other process gets the lock, or is in its stage without it
  obtain ⟨event, p, holder, hstep, hinside⟩ : ∃ event p holder,
      deployStep (initialSystem commands) event
        = some ((initialSystem commands).put other p holder)
      ∧ (holder = some other ∨ p.stage.isSome = true) := by
    by_cases hc : c = .localDnsDeploy
    · subst hc
      refine ⟨.enter other, ⟨.localDnsDeploy, some .localZones, []⟩, none, ?_, Or.inr rfl⟩
      rw [deployStep, hproc hother]
      rfl
    · obtain ⟨rest, hrest⟩ := program_acquire hc
      refine ⟨.acquire other, ⟨c, none, rest⟩, some other, ?_, Or.inl rfl⟩
      rw [deployStep, hproc hother, hrest]
      rfl
  have hlocal' : ((initialSystem commands).put other p holder).processes[pid]?
      = some ⟨.localDnsDeploy, none, [.stage .localZones]⟩ := by
    rw [System.put, List.getElem?_set_ne (Ne.symm hne), hproc hlocal]
    rfl
  refine ⟨[event, .enter pid], ((initialSystem commands).put other p holder).put pid
    ⟨.localDnsDeploy, some .localZones, []⟩ holder, ?_, fun hexclusive => hne ?_⟩
  · rw [Runs.run, hstep, Option.bind_some, Runs.run, deployStep, hlocal']
    rfl
  · refine hexclusive pid other ⟨⟨.localDnsDeploy, some .localZones, []⟩, ?_, Or.inr rfl⟩
      ⟨p, ?_, hinside⟩
    · rw [System.put, System.put, List.getElem?_set_self (by simpa using hlen hlocal)]
    · rw [System.put, System.put, List.getElem?_set_ne hne, List.getElem?_set_self (hlen hother)]

/-- **Which processes never write at the same time**: those without a `local-dns-deploy` among
them, and one process alone. -/
theorem exclusive_iff (commands : List Command) :
    (∀ events s, Runs.run deployStep (initialSystem commands) events = some s → s.Exclusive)
      ↔ .localDnsDeploy ∉ commands ∨ commands.length ≤ 1 := by
  constructor
  · intro h
    by_contra hcon
    rw [not_or, not_not, Nat.not_le] at hcon
    obtain ⟨hmem, hlen⟩ := hcon
    obtain ⟨pid, hpid⟩ := List.mem_iff_getElem?.mp hmem
    obtain ⟨other, hne, hother⟩ : ∃ other, pid ≠ other ∧ other < commands.length :=
      ⟨if pid = 0 then 1 else 0, by split_ifs <;> omega, by split_ifs <;> omega⟩
    obtain ⟨events, s, hrun, hs⟩ := not_exclusive hne hpid (List.getElem?_eq_getElem hother)
    exact hs (h events s hrun)
  · rintro (hmem | hlen) events s hrun
    · exact exclusive_of_guarded (Runs.invariant_of_run (fun _ _ _ => guarded_step) events _ s
        (guarded_initial hmem) hrun)
    · -- there is only one process
      have hcount : s.processes.length = commands.length := by
        have hkeep : ∀ s e s', s.processes.length = commands.length →
            deployStep s e = some s' → s'.processes.length = commands.length :=
          fun s e s' hs hstep => (length_step hstep).trans hs
        exact Runs.invariant_of_run hkeep events _ s (by simp [initialSystem]) hrun
      have hzero : ∀ pid, s.inside pid → pid = 0 := by
        rintro pid ⟨p, hp, -⟩
        have := (List.getElem?_eq_some_iff.mp hp).1
        omega
      intro pid pid' hpid hpid'
      rw [hzero pid hpid, hzero pid' hpid']

/-- `deploy` and `local-dns-deploy` replace the zone files at the same time. -/
theorem zones_deployed_twice : ∃ events s,
    Runs.run deployStep (initialSystem [.deploy, .localDnsDeploy]) events = some s
      ∧ s.processes.map (·.stage) = [some .localZones, some .localZones]
      ∧ ¬ s.Exclusive := by
  refine ⟨[.acquire 0, .enter 0, .finish 0, .enter 0, .enter 1], _, rfl, rfl, fun h => ?_⟩
  exact absurd (h 0 1 ⟨_, rfl, Or.inr rfl⟩ ⟨_, rfl, Or.inr rfl⟩) (by decide)

end AlderpointDNS
