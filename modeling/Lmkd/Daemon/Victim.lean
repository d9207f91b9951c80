import Lmkd.Daemon.Kill

/-!
# What `find_and_kill_process` kills

Over every registry that satisfies the invariant: the scores of the records handed to
`kill_one_process` and of the victim, and what a return of `0` says. Then runs of the kill
path on small registrations, for the pidfd of a failed kill.
-/

namespace Lmkd

open Daemon Registry

/-! ## Registrations to run the kill path on

Records of one registrant (pid 1), entered from `init()` by `proc_insert`, and what the
kernel answers about them. -/

def appA : Proc :=
  { pid := 100, pidfd := 5, uid := 10000, oomadj := 900, regPid := 1, valid := true,
    pidhashNext := none }

def appA2 : Proc :=
  { pid := 101, pidfd := 7, uid := 10002, oomadj := 900, regPid := 1, valid := true,
    pidhashNext := none }

def appB : Proc :=
  { pid := 200, pidfd := 6, uid := 10001, oomadj := 800, regPid := 1, valid := true,
    pidhashNext := none }

/-- `appA` and then `appB` registered. -/
def twoApps : Registry :=
  (((Registry.init.alloc appA).procInsert 0 appA.pid).alloc appB).procInsert 1 appB.pid

/-- `appA`, `appA2` and `appB` registered in this order. -/
def threeApps : Registry :=
  (((((Registry.init.alloc appA).procInsert 0 appA.pid).alloc appA2).procInsert 1
    appA2.pid).alloc appB).procInsert 2 appB.pid

theorem twoApps_wf : ∃ S, Wf twoApps S := by
  have h₁ := wf_init.insert (p := appA) (by decide) (by decide)
    (wf_init.pidLookup_eq_none.mp (by decide)) (by decide)
  exact ⟨_, h₁.insert (p := appB) (by decide) (by decide)
    (h₁.pidLookup_eq_none.mp (by decide)) (by decide)⟩

theorem threeApps_wf : ∃ S, Wf threeApps S := by
  have h₁ := wf_init.insert (p := appA) (by decide) (by decide)
    (wf_init.pidLookup_eq_none.mp (by decide)) (by decide)
  have h₂ := h₁.insert (p := appA2) (by decide) (by decide)
    (h₁.pidLookup_eq_none.mp (by decide)) (by decide)
  exact ⟨_, h₂.insert (p := appB) (by decide) (by decide)
    (h₂.pidLookup_eq_none.mp (by decide)) (by decide)⟩

/-- `appA` has 3 kB resident, less than a page; `appB` has 4000 kB. Every kill succeeds. -/
def subPageWorld : KillWorld where
  procGetSize := fun _ => 10
  readProcStatus := fun n =>
    if n = 0 then some "Tgid:\t100\nVmRSS:\t3 kB\nVmSwap:\t0 kB\n".toList
    else some "Tgid:\t200\nVmRSS:\t4000 kB\nVmSwap:\t0 kB\n".toList
  procGetName := fun _ => true
  memoryBeforeKillHook := fun _ => 0
  epollCtlAdd := fun _ => true
  reaperKill := fun _ => 0

/-- `statm` shows no resident page for any process; `appB` has 4000 kB by its status.
Every kill succeeds. -/
def zeroRssWorld : KillWorld where
  procGetSize := fun _ => 0
  readProcStatus := fun _ => some "Tgid:\t200\nVmRSS:\t4000 kB\nVmSwap:\t0 kB\n".toList
  procGetName := fun _ => true
  memoryBeforeKillHook := fun _ => 0
  epollCtlAdd := fun _ => true
  reaperKill := fun _ => 0

/-- Every process has 4000 kB resident. The answers follow the questions of the call: the
status read first is `appA`'s, its `reaper.kill`, the fifth question, fails, and every later
kill succeeds. -/
def firstKillFailsWorld : KillWorld where
  procGetSize := fun _ => 10
  readProcStatus := fun n =>
    if n = 0 then some "Tgid:\t100\nVmRSS:\t4000 kB\nVmSwap:\t0 kB\n".toList
    else some "Tgid:\t200\nVmRSS:\t4000 kB\nVmSwap:\t0 kB\n".toList
  procGetName := fun _ => true
  memoryBeforeKillHook := fun _ => 0
  epollCtlAdd := fun _ => true
  reaperKill := fun n => if n = 4 then -1 else 0

/-- The tunables with `kill_heaviest_task` set. -/
def heaviestProps : Props := { defaultProps with killHeaviestTask := true }

/-! ## The victim's score -/

/-- For a registry that satisfies the invariant and a minimum score of at least
`OOM_SCORE_ADJ_MIN`, `find_and_kill_process` stays inside
`procadjslot_list`, hands to `kill_one_process` only records of score at least
`min_score_adj`, and to `reaper.kill` only processes of such records, in tail and in
heaviest mode alike. -/
theorem findAndKillProcess_hands_at_least (w : KillWorld) (s : Daemon) (tm : Timespec)
    {S : Shape} (hS : Wf s.reg S) {m : Int} (hlo : oomScoreAdjMin ≤ m) :
    ∃ s' k, findAndKillProcess w s m tm = some (s', k) ∧ ∃ new, s'.trace = s.trace ++ new ∧
      (∀ p m' r, Event.killOneProcess p m' r ∈ new → m ≤ p.oomadj) ∧
      ∀ fd pid uid r, Event.reaperKill fd pid uid r ∈ new →
        ∃ p res, Event.killOneProcess p m res ∈ new ∧ p.pid = pid := by
  obtain ⟨s', k, he, -, new, -, htr, hh⟩ :=
    findAndKillLoop_hands w tm hlo _ s.props.killHeaviestTask s 0 S hS le_rfl
  exact ⟨s', k, he, new, htr, hh⟩

theorem findAndKillProcess_hands_at_least_twoApps :
    (∃ S, Wf twoApps S) ∧ oomScoreAdjMin ≤ 800 ∧
    ∃ s' k, findAndKillProcess subPageWorld (Daemon.atRest defaultProps twoApps) 800
        Timespec.zero = some (s', k) ∧ ∃ new, s'.trace = [] ++ new ∧
      (∀ p m' r, Event.killOneProcess p m' r ∈ new → 800 ≤ p.oomadj) ∧
      ∀ fd pid uid r, Event.reaperKill fd pid uid r ∈ new →
        ∃ p res, Event.killOneProcess p 800 res ∈ new ∧ p.pid = pid := by
  obtain ⟨S, hS⟩ := twoApps_wf
  exact ⟨⟨S, hS⟩, by decide, findAndKillProcess_hands_at_least subPageWorld
    (Daemon.atRest defaultProps twoApps) Timespec.zero hS (by decide)⟩

/-- What the scan has established before score `m + n`, begun on the registry `r₀` with the
trace `t₀`: the calls so far, `acc`, record no victim, every record of `r₀` of score at
least `m + n` has had a size of at most zero read, and those of lower score are as they
were. -/
structure PassedOver (m : Int) (n : Nat) (r₀ : Registry) (t₀ : List Event) (s : Daemon)
    (acc : List Event) : Prop where
  trace : s.trace = t₀ ++ acc
  quiet : ∀ e ∈ acc, e.isKill = false
  cov : ∀ b q, r₀.procs b = some q → m + n ≤ q.oomadj →
    ∃ sz ≤ 0, Event.procGetSize q.pid sz ∈ acc
  keep : ∀ b q, r₀.procs b = some q → q.oomadj < m + n →
    (s.reg.procs b).map Proc.body = some q.body

namespace PassedOver

variable {m : Int} {n : Nat} {r₀ : Registry} {t₀ : List Event} {s s₁ : Daemon}
  {acc : List Event}

/-- Before an attempt, the scan has handed nothing over. -/
theorem no_kill (h : PassedOver m n r₀ t₀ s acc) {new : List Event} (htr : s.trace = t₀ ++ new)
    (p : Proc) (m' r : Int) : Event.killOneProcess p m' r ∉ new := by
  intro hp
  rw [h.trace, List.append_cancel_left_eq] at htr
  exact absurd (h.quiet _ (htr ▸ hp)) (by simp [Event.isKill])

/-- A score `m + n` at which no attempt was made joins the scores passed over. -/
theorem step (h : PassedOver m (n + 1) r₀ t₀ s acc) {new₁ : List Event}
    (htr : s₁.trace = s.trace ++ new₁) (hq : ∀ e ∈ new₁, e.isKill = false)
    (hcov : ∀ b q, s.reg.procs b = some q → q.oomadj = m + n →
      ∃ sz ≤ 0, Event.procGetSize q.pid sz ∈ new₁)
    (hfr : ∀ c, (s.reg.procs c).map Proc.oomadj ≠ some (m + n) →
      (s₁.reg.procs c).map Proc.body = (s.reg.procs c).map Proc.body) :
    PassedOver m n r₀ t₀ s₁ (acc ++ new₁) where
  trace := by rw [htr, h.trace, List.append_assoc]
  quiet e he := by
    rcases List.mem_append.mp he with he | he
    · exact h.quiet e he
    · exact hq e he
  cov b q hb hle := by
    rcases lt_or_eq_of_le hle with hlt | heq
    · obtain ⟨sz, hsz, hm⟩ := h.cov b q hb (by omega)
      exact ⟨sz, hsz, List.mem_append_left _ hm⟩
    · obtain ⟨q', hq', hbody⟩ := Option.map_eq_some'.mp (h.keep b q hb (by omega))
      obtain ⟨sz, hsz, hm⟩ := hcov b q' hq' (by simpa [heq] using congrArg Proc.oomadj hbody)
      refine ⟨sz, hsz, List.mem_append_right _ ?_⟩
      rwa [← Proc.body_pid, hbody, Proc.body_pid] at hm
  keep b q hb hlt := by
    have hb₀ := h.keep b q hb (by omega)
    rw [hfr b (by
      rw [map_oomadj_eq_of_body (b := some q) hb₀]
      simp only [Option.map_some', ne_eq, Option.some.injEq]
      omega), hb₀]

end PassedOver

/-- The scan of the scores from `m + n - 1` down, from a state that passed over the scores
above: if no attempt returns `0`, a record handed over scores at least as high as every
record of `r₀` but those with a size of at most zero read. -/
theorem findAndKillLoop_max (w : KillWorld) {m : Int} (tm : Timespec) (hm : oomScoreAdjMin ≤ m)
    (r₀ : Registry) (t₀ : List Event) :
    ∀ (n : Nat) ch s S acc, Wf s.reg S → n ≤ (oomScoreAdjMax + 1 - m).toNat →
      PassedOver m n r₀ t₀ s acc →
      ∀ s' k, findAndKillLoop w m tm n ch s 0 = some (s', k) →
      ∀ new, s'.trace = t₀ ++ new → (∀ p m' r, Event.killOneProcess p m' r ∈ new → r ≠ 0) →
      ∀ p m' r, Event.killOneProcess p m' r ∈ new → ∀ b q, r₀.procs b = some q →
        p.oomadj < q.oomadj → ∃ sz ≤ 0, Event.procGetSize q.pid sz ∈ new := by
  intro n
  induction n with
  | zero =>
    intro ch s S acc _ _ h s' k he new htr' _ p m' r hp
    cases he
    exact absurd hp (h.no_kill htr' p m' r)
  | succ n ih =>
    intro ch s S acc hS hi h s' k he new htr' hnz
    have hmi : m ≤ m + n := by omega
    simp only [findAndKillLoop] at he
    rw [if_neg (by simp only [adjtoslot_eq, oomScoreAdjMin] at hm ⊢; omega)] at he
    obtain ⟨⟨S₁, hS₁⟩, ⟨new₁, htr₁, hh₁, hz₁⟩, hfr₁⟩ :=
      findAndKillAt_spec w m tm (ch || decide (m + n ≤ perceptibleAppAdj)) (le_trans hm hmi)
        (by omega) (s.reg.brk + 1) s 0 S hS
    generalize findAndKillAt w m tm (ch || decide (m + n ≤ perceptibleAppAdj)) (m + n)
      (s.reg.brk + 1) s 0 = res at he hS₁ htr₁ hh₁ hz₁ hfr₁
    obtain ⟨s₁, k₁⟩ := res
    dsimp only at he hS₁ htr₁ hh₁ hz₁ hfr₁
    split at he
    · -- an attempt at score `m + n` ends the scan: every record above it was passed over
      cases he
      rw [htr₁, h.trace, List.append_assoc, List.append_cancel_left_eq] at htr'
      subst htr'
      intro p m' r hp b q hb hlt
      rcases List.mem_append.mp hp with hp | hp
      · exact absurd (h.quiet _ hp) (by simp [Event.isKill])
      · obtain ⟨sz, hsz, hm⟩ := h.cov b q hb (by have := hh₁.1 p m' r hp; omega)
        exact ⟨sz, hsz, List.mem_append_left _ hm⟩
    · -- no attempt at score `m + n`: the scan goes on from the scores passed over
      rename_i hk₁
      have hk₁ : k₁ = 0 := by simpa using hk₁
      subst hk₁
      obtain ⟨s'', k'', he', -, new₂, -, htr₂, -⟩ :=
        findAndKillLoop_hands w tm hm n (ch || decide (m + n ≤ perceptibleAppAdj)) s₁ 0 S₁
          hS₁ (by omega)
      rw [he] at he'
      cases he'
      rw [htr₂, htr₁, h.trace, List.append_assoc, List.append_assoc,
        List.append_cancel_left_eq] at htr'
      subst htr'
      obtain ⟨hq₁, hcov₁⟩ := (hz₁ (fun p m' r h => hnz p m' r
        (List.mem_append_right _ (List.mem_append_left _ h))) rfl).2 (Nat.succ_pos _)
      exact ih _ s₁ S₁ _ hS₁ (by omega) (h.step htr₁ hq₁ hcov₁ hfr₁) s' k he _
        (by rw [htr₂, htr₁, h.trace]; simp only [List.append_assoc]) hnz

/-- For a registry that satisfies the invariant and a minimum score of at least
`OOM_SCORE_ADJ_MIN`, as long as no call of `kill_one_process` returns `0`: every record
`find_and_kill_process` hands to `kill_one_process`, and so every record it kills, scores at
least as high as every record registered at the start of the call, except records whose
size `proc_get_heaviest` read as at most zero during the call and passed over. -/
theorem findAndKillProcess_victim_max (w : KillWorld) (s : Daemon) (tm : Timespec) {S : Shape}
    (hS : Wf s.reg S) {m : Int} (hlo : oomScoreAdjMin ≤ m) {s' : Daemon} {k : Int}
    (he : findAndKillProcess w s m tm = some (s', k)) {new : List Event}
    (htr : s'.trace = s.trace ++ new)
    (hnz : ∀ p m' r, Event.killOneProcess p m' r ∈ new → r ≠ 0)
    {p : Proc} {m' r : Int} (hp : Event.killOneProcess p m' r ∈ new)
    {b : Nat} {q : Proc} (hq : s.reg.procs b = some q) (hlt : p.oomadj < q.oomadj) :
    ∃ sz ≤ 0, Event.procGetSize q.pid sz ∈ new :=
  findAndKillLoop_max w tm hlo s.reg s.trace _ _ s S [] hS le_rfl
    ⟨(List.append_nil _).symm, by simp,
      fun b q hb hlt => absurd (hS.oomadj_range b q hb).2 (by omega),
      fun b q hb _ => by rw [hb]; rfl⟩ s' k he new htr hnz p m' r hp b q hq hlt

set_option maxRecDepth 100000 in
theorem findAndKillProcess_victim_max_threeApps :
    (∃ S, Wf threeApps S) ∧ oomScoreAdjMin ≤ 800 ∧
    ∃ s' k, findAndKillProcess zeroRssWorld (Daemon.atRest heaviestProps threeApps) 800
        Timespec.zero = some (s', k) ∧
      (∀ p m' r, Event.killOneProcess p m' r ∈ s'.trace → r ≠ 0) ∧
      Event.killOneProcess appB 800 1000 ∈ s'.trace ∧ threeApps.procs 0 = some appA ∧
      appB.oomadj < appA.oomadj ∧ ∃ sz ≤ 0, Event.procGetSize appA.pid sz ∈ s'.trace := by
  obtain ⟨S, hS⟩ := threeApps_wf
  obtain ⟨s', k, he, hkills⟩ : ∃ s' k, findAndKillProcess zeroRssWorld
      (Daemon.atRest heaviestProps threeApps) 800 Timespec.zero = some (s', k) ∧
      s'.trace.filter Event.isKill =
        [.reaperKill appB.pidfd appB.pid appB.uid 0, .killOneProcess appB 800 1000] :=
    ⟨_, _, rfl, by decide⟩
  have hkill : ∀ e, e ∈ s'.trace → e.isKill →
      e ∈ [.reaperKill appB.pidfd appB.pid appB.uid 0, .killOneProcess appB 800 1000] :=
    fun e he hk => hkills ▸ List.mem_filter.mpr ⟨he, hk⟩
  have hnz : ∀ p m' r, Event.killOneProcess p m' r ∈ s'.trace → r ≠ 0 := fun p m' r h => by
    have := hkill _ h rfl
    simp only [List.mem_cons, List.mem_singleton, List.not_mem_nil, or_false,
      reduceCtorEq, false_or, Event.killOneProcess.injEq] at this
    rw [this.2.2]; decide
  have hB : Event.killOneProcess appB 800 1000 ∈ s'.trace :=
    (List.mem_filter.mp (hkills ▸ List.mem_cons_of_mem _ (List.mem_singleton_self _))).1
  exact ⟨⟨S, hS⟩, by decide, s', k, he, hnz, hB, rfl, by decide,
    findAndKillProcess_victim_max zeroRssWorld (Daemon.atRest heaviestProps threeApps)
      Timespec.zero hS (by decide) he (List.nil_append _).symm hnz hB
      (show threeApps.procs 0 = some appA from rfl) (by decide)⟩

set_option maxRecDepth 100000 in
/-- In tail mode a failed `reaper.kill` of `appA` makes `kill_one_process` return `0`, which
ends the walk of score 900 as a kill would: `appA2`, registered at score 900, is never handed
to `kill_one_process`, and the call goes on to kill `appB` at score 800. -/
theorem findAndKillProcess_skips_after_failed_kill :
    threeApps.procs 1 = some appA2 ∧ appB.oomadj < appA2.oomadj ∧
    ((findAndKillProcess firstKillFailsWorld (Daemon.atRest defaultProps threeApps) 800
        Timespec.zero).map fun r => r.1.trace.filter Event.isKill) =
      some [.reaperKill appA.pidfd appA.pid appA.uid (-1), .killOneProcess appA 800 0,
        .reaperKill appB.pidfd appB.pid appB.uid 0, .killOneProcess appB 800 1000] :=
  ⟨rfl, by decide, by decide⟩

/-! ## What the result says -/

set_option maxRecDepth 100000 in
/-- A kill of a process with less than a page resident counts as nothing freed:
`kill_one_process` returns `rss_kb / page_k = 0` after a successful `reaper.kill`. Called
with `min_score_adj` at the victim's score, `find_and_kill_process` returns `0` after the
kill; called with a lower one, it goes on scanning and kills a second process. -/
theorem findAndKillProcess_sub_page_kill :
    ((findAndKillProcess subPageWorld (Daemon.atRest defaultProps twoApps) 900
        Timespec.zero).map fun r => (r.2, r.1.trace.filter Event.isKill)) =
      some (0, [.reaperKill appA.pidfd appA.pid appA.uid 0, .killOneProcess appA 900 0]) ∧
    ((findAndKillProcess subPageWorld (Daemon.atRest defaultProps twoApps) 800
        Timespec.zero).map fun r => (r.2, r.1.trace.filter Event.isKill)) =
      some (1000, [.reaperKill appA.pidfd appA.pid appA.uid 0, .killOneProcess appA 800 0,
        .reaperKill appB.pidfd appB.pid appB.uid 0, .killOneProcess appB 800 1000]) :=
  ⟨by decide, by decide⟩

/-! ## The pidfd of a failed kill -/

/-- A kill of `appA` whose `EPOLL_CTL_ADD` answers `added` and whose `reaper.kill`
returns `killResult`. -/
def reapWorld (added : Bool) (killResult : Int) : KillWorld where
  procGetSize := fun _ => 10
  readProcStatus := fun _ => some "Tgid:\t100\nVmRSS:\t4000 kB\nVmSwap:\t0 kB\n".toList
  procGetName := fun _ => true
  memoryBeforeKillHook := fun _ => 0
  epollCtlAdd := fun _ => added
  reaperKill := fun _ => killResult

set_option maxRecDepth 100000 in
/-- Ownership of the pidfd is lost on both failure paths of the kill. When `reaper.kill`
fails, `stop_wait_for_proc_kill` closes the pidfd it waited on and then `pid_remove`,
which no longer sees it as the kill's, closes it again. When the `EPOLL_CTL_ADD` of
`start_wait_for_proc_kill` fails, the pidfd is closed there, then handed to `reaper.kill`,
and closed again by `pid_remove`. -/
theorem killOneProcess_closes_pidfd_twice :
    (killOneProcess (reapWorld true (-1)) (Daemon.atRest defaultProps twoApps) 0 800
        Timespec.zero).1.trace =
      [.epollCtlAdd 5 true, .reaperKill 5 100 10000 (-1), .epollCtlDel 5 true, .close 5,
        .close 5, .killOneProcess appA 800 0] ∧
    (killOneProcess (reapWorld false 0) (Daemon.atRest defaultProps twoApps) 0 800
        Timespec.zero).1.trace =
      [.epollCtlAdd 5 false, .close 5, .reaperKill 5 100 10000 0, .close 5,
        .killOneProcess appA 800 1000] :=
  ⟨by decide, by decide⟩

end Lmkd
