import Lmkd.Daemon.Quiet
import Lmkd.Status

/-!
# Victim selection and the kill

`find_and_kill_process` walks the scores from `OOM_SCORE_ADJ_MAX` down to
`min_score_adj`; at each score it picks the bucket's tail, or the heaviest record once
`kill_heaviest_task` is set or the score is perceptible, and hands it to
`kill_one_process` until an attempt returns a non-negative value or no record is left.

What the kernel, the reaper and the build-time hooks answer is a `KillWorld`. Two reads
are recorded in the trace besides the system calls: the sizes `proc_get_size` returns,
and each return of `kill_one_process` with its record and result.
-/

namespace Lmkd

/-- What the kill path asks of its environment, question by question. -/
structure KillWorld where
  /-- `proc_get_size(pid)`: the resident size from `statm`, `-1` when unreadable. -/
  procGetSize : Nat → Int
  /-- `read_proc_status(pid, buf, ...)`: the text read, `none` on failure. -/
  readProcStatus : Nat → Option (List Char)
  /-- Whether `proc_get_name(pid, ...)` reads a name. -/
  procGetName : Nat → Bool
  /-- `lmkd_free_memory_before_kill_hook(...)`. -/
  memoryBeforeKillHook : Nat → Int
  /-- The kernel's answer to an `EPOLL_CTL_ADD`. -/
  epollCtlAdd : Nat → Bool
  /-- `reaper.kill({pidfd, pid, uid}, false)`. -/
  reaperKill : Nat → Int

/-- `(struct proc *)p`: the record a pointer into a bucket stands for. -/
def Ptr.record : Ptr → Option Nat
  | .node a => some a
  | .slot _ => none

/-- `proc_adj_tail(oomadj)`: the oldest record of the bucket of `oomadj`. -/
def procAdjTail (r : Registry) (oomadj : Int) : Option Nat :=
  (r.adjslotTail (.slot (slotOf oomadj))).bind Ptr.record

/-- `((struct proc *)curr)->pid` for the record at `a`. -/
def pidAt (r : Registry) (a : Nat) : Int := ((r.procs a).map Proc.pid).getD 0

/-- `proc_get_size(pid)`; the read is recorded in the trace. -/
def procGetSize (w : KillWorld) (s : Daemon) (pid : Int) : Int × Daemon :=
  let (size, s) := s.ask w.procGetSize
  (size, s.log (.procGetSize pid size))

/-- The `while (curr != head)` loop of `proc_get_heaviest`, from `curr` with the heaviest
record so far and its size. A record whose size cannot be read is removed, after its
successor was saved. -/
def procGetHeaviestLoop (w : KillWorld) (head : Ptr) :
    Nat → Daemon → Ptr → Option Nat → Int → Daemon × Option Nat
  | 0, s, _, maxp, _ => (s, maxp)
  | n + 1, s, curr, maxp, maxsize =>
    if curr = head then (s, maxp)
    else
      match curr with
      | .slot _ => (s, maxp)
      | .node a =>
        let pid := pidAt s.reg a
        let (tasksize, s) := procGetSize w s pid
        if tasksize < 0 then
          procGetHeaviestLoop w head n (s.pidRemove pid).1 (s.reg.next curr) maxp maxsize
        else if maxsize < tasksize then
          procGetHeaviestLoop w head n s (s.reg.next curr) (some a) tasksize
        else procGetHeaviestLoop w head n s (s.reg.next curr) maxp maxsize

/-- `proc_get_heaviest(oomadj)`. A bucket holds at most `brk` records, which bounds the
walk. -/
def procGetHeaviest (w : KillWorld) (s : Daemon) (oomadj : Int) : Daemon × Option Nat :=
  let head := Ptr.slot (slotOf oomadj)
  let curr := s.reg.next head
  if curr ≠ head ∧ s.reg.next curr = head then (s, curr.record)
  else procGetHeaviestLoop w head s.reg.brk s curr none 0

/-- The reads of `kill_one_process` before the pre-kill hook: `some rss_kb` when the
record is valid, its status is read and shows the record's pid as `Tgid:` and has
`VmRSS:` and `VmSwap:` lines, and its `cmdline` is read. -/
def killCheck (w : KillWorld) (s : Daemon) (p : Proc) : Option Int × Daemon :=
  if !p.valid then (none, s)
  else
    let (status, s) := s.ask w.readProcStatus
    match status with
    | none => (none, s)
    | some buf =>
      match parseStatusTag buf "Tgid:".toList with
      | none => (none, s)
      | some tgid =>
        if tgid ≠ p.pid then (none, s)
        else
          match parseStatusTag buf "VmRSS:".toList with
          | none => (none, s)
          | some rssKb =>
            match parseStatusTag buf "VmSwap:".toList with
            | none => (none, s)
            | some _ =>
              let (named, s) := s.ask w.procGetName
              (if named then some rssKb else none, s)

/-- The kill proper of `kill_one_process`: wait for the death of the process, ask the
reaper to kill it, and on failure stop waiting (`false`); on success record the time, the
kill count and the notifications to the subscribed connections (`true`). -/
def reapProcess (w : KillWorld) (s : Daemon) (p : Proc) (rssKb : Int) (tm : Timespec) :
    Daemon × Bool :=
  let s := s.startWaitForProcKill w.epollCtlAdd (if p.pidfd < 0 then p.pid else p.pidfd)
  let (killResult, s) := s.ask w.reaperKill
  let s := s.log (.reaperKill p.pidfd p.pid p.uid killResult)
  if killResult ≠ 0 then (s.stopWaitForProcKill false, false)
  else
    let s := { s with lastKillTm := tm }.incKillcnt p.oomadj
    ((s.statsWriteLmkKillOccurred p.pid).ctrlDataWriteLmkKillOccurred p.pid p.uid rssKb, true)

/-- `kill_one_process(procp, min_oom_score, ...)` for the record at `a`; `tm` is the time
of the event that led to the kill. Each return is recorded in the trace with the record
and the result (`ret`); `out` is the label of the source, which removes the record first.
A failed `reaper.kill` returns the value of the pre-kill hook, which the source keeps in
`result`. -/
def killOneProcess (w : KillWorld) (s : Daemon) (a : Nat) (minOomScore : Int) (tm : Timespec) :
    Daemon × Int :=
  match s.reg.procs a with
  | none => (s, -1)
  | some p =>
    let ret (s : Daemon) (result : Int) : Daemon × Int :=
      (s.log (.killOneProcess p minOomScore result), result)
    let out (s : Daemon) (result : Int) : Daemon × Int := ret (s.pidRemove p.pid).1 result
    match killCheck w s p with
    | (none, s) => out s (-1)
    | (some rssKb, s) =>
      let (result, s) := s.ask w.memoryBeforeKillHook
      if 0 < result then ret s result
      else
        match reapProcess w s p rssKb tm with
        | (s, false) => out s result
        | (s, true) => out s (toInt32 (Int.tdiv rssKb s.pageK))

/-- The `while (true)` loop of `find_and_kill_process` at score `i`. Each failed attempt
removes a record, so `brk + 1` turns are enough. -/
def findAndKillAt (w : KillWorld) (minScoreAdj : Int) (tm : Timespec) (heaviest : Bool)
    (i : Int) : Nat → Daemon → Int → Daemon × Int
  | 0, s, killedSize => (s, killedSize)
  | n + 1, s, killedSize =>
    let (s, procp) := if heaviest then procGetHeaviest w s i else (s, procAdjTail s.reg i)
    match procp with
    | none => (s, killedSize)
    | some a =>
      let (s, killedSize) := killOneProcess w s a minScoreAdj tm
      if 0 ≤ killedSize then (s, killedSize)
      else findAndKillAt w minScoreAdj tm heaviest i n s killedSize

/-- The `for` loop of `find_and_kill_process` with `n` scores left: the next score scanned is
`min_score_adj + n - 1`, so the loop runs from `OOM_SCORE_ADJ_MAX` down to `min_score_adj`
when started with the count of the scores between them. `none` when it reaches a score
whose bucket lies outside `procadjslot_list`. -/
def findAndKillLoop (w : KillWorld) (minScoreAdj : Int) (tm : Timespec) :
    Nat → Bool → Daemon → Int → Option (Daemon × Int)
  | 0, _, s, killedSize => some (s, killedSize)
  | n + 1, chooseHeaviest, s, killedSize =>
    let i := minScoreAdj + n
    if adjtoslot i < 0 then none
    else
      let chooseHeaviest := chooseHeaviest || decide (i ≤ perceptibleAppAdj)
      let (s, killedSize) :=
        findAndKillAt w minScoreAdj tm chooseHeaviest i (s.reg.brk + 1) s killedSize
      if killedSize ≠ 0 then some (s, killedSize)
      else findAndKillLoop w minScoreAdj tm n chooseHeaviest s killedSize

/-- `find_and_kill_process(min_score_adj, ...)`: the freed size of the victim in pages. -/
def findAndKillProcess (w : KillWorld) (s : Daemon) (minScoreAdj : Int) (tm : Timespec) :
    Option (Daemon × Int) :=
  findAndKillLoop w minScoreAdj tm (oomScoreAdjMax + 1 - minScoreAdj).toNat
    s.props.killHeaviestTask s 0

open Daemon

theorem quiet_procGetSize (w : KillWorld) (s : Daemon) (pid : Int) :
    Quiet s (procGetSize w s pid).2 :=
  quiet_log (s := (s.ask w.procGetSize).2) rfl

@[simp] theorem procGetSize_reg (w : KillWorld) (s : Daemon) (pid : Int) :
    (procGetSize w s pid).2.reg = s.reg := rfl

theorem killCheck_frame (w : KillWorld) (s : Daemon) (p : Proc) :
    (killCheck w s p).2.reg = s.reg ∧ (killCheck w s p).2.trace = s.trace := by
  unfold killCheck
  split
  · exact ⟨rfl, rfl⟩
  · dsimp only
    repeat' split
    all_goals exact ⟨rfl, rfl⟩

/-! ## One kill attempt -/

namespace Daemon

variable {s s' s'' : Daemon}

/-- `s'` follows `s` by calls that record no victim but at most one `reaper.kill` of `pid`. -/
def KillSteps (pid : Int) (s s' : Daemon) : Prop :=
  ∃ mid, s'.trace = s.trace ++ mid ∧
    (∀ e ∈ mid, e.isKill → ∃ fd uid r, e = .reaperKill fd pid uid r) ∧
    mid.countP Event.isKill ≤ 1

theorem Quiet.killSteps (h : Quiet s s') (pid : Int) : KillSteps pid s s' := by
  obtain ⟨n, e, k⟩ := h
  refine ⟨n, e, (fun x hx hk => by rw [k x hx] at hk; cases hk), ?_⟩
  rw [List.countP_eq_zero.mpr fun x hx => by simp [k x hx]]
  exact Nat.zero_le 1

theorem Quiet.trans_killSteps {pid : Int} (h₁ : Quiet s s') (h₂ : KillSteps pid s' s'') :
    KillSteps pid s s'' := by
  obtain ⟨n₁, e₁, k₁⟩ := h₁
  obtain ⟨n₂, e₂, k₂, c₂⟩ := h₂
  refine ⟨n₁ ++ n₂, by rw [e₂, e₁, List.append_assoc], fun e he hk => ?_, ?_⟩
  · rcases List.mem_append.mp he with he | he
    · rw [k₁ e he] at hk; cases hk
    · exact k₂ e he hk
  · have h₀ : n₁.countP Event.isKill = 0 := List.countP_eq_zero.mpr fun x hx => by simp [k₁ x hx]
    rw [List.countP_append]
    omega

theorem KillSteps.trans_quiet {pid : Int} (h₁ : KillSteps pid s s') (h₂ : Quiet s' s'') :
    KillSteps pid s s'' := by
  obtain ⟨n₁, e₁, k₁, c₁⟩ := h₁
  obtain ⟨n₂, e₂, k₂⟩ := h₂
  refine ⟨n₁ ++ n₂, by rw [e₂, e₁, List.append_assoc], fun e he hk => ?_, ?_⟩
  · rcases List.mem_append.mp he with he | he
    · exact k₁ e he hk
    · rw [k₂ e he] at hk; cases hk
  · have h₀ : n₂.countP Event.isKill = 0 := List.countP_eq_zero.mpr fun x hx => by simp [k₂ x hx]
    rw [List.countP_append]
    omega

theorem killSteps_reaperKill (fd pid : Int) (uid : Nat) (r : Int) :
    KillSteps pid s (s.log (.reaperKill fd pid uid r)) :=
  ⟨[_], rfl, fun _ he _ => ⟨fd, uid, r, List.mem_singleton.mp he⟩, List.countP_le_length _⟩

end Daemon

theorem reapProcess_frame (w : KillWorld) (s : Daemon) (p : Proc) (rssKb : Int)
    (tm : Timespec) :
    (reapProcess w s p rssKb tm).1.reg = s.reg ∧
      KillSteps p.pid s (reapProcess w s p rssKb tm).1 := by
  unfold reapProcess
  dsimp only
  generalize (if p.pidfd < 0 then p.pid else p.pidfd) = x
  have hq := quiet_startWaitForProcKill (s := s) w.epollCtlAdd x
  have hr : (s.startWaitForProcKill w.epollCtlAdd x).reg = s.reg := by simp
  generalize s.startWaitForProcKill w.epollCtlAdd x = s₁ at hq hr ⊢
  have h₁ : KillSteps p.pid s ((s₁.ask w.reaperKill).2.log
      (.reaperKill p.pidfd p.pid p.uid (s₁.ask w.reaperKill).1)) :=
    (hq.trans (Quiet.of_trace rfl)).trans_killSteps (killSteps_reaperKill _ _ _ _)
  split
  · exact ⟨by simp [hr], h₁.trans_quiet (quiet_stopWaitForProcKill false)⟩
  · refine ⟨by simp [hr], h₁.trans_quiet ?_⟩
    exact (((Quiet.of_trace (by rfl)).trans (quiet_incKillcnt _)).trans
      (quiet_statsWriteLmkKillOccurred _)).trans (quiet_ctrlDataWriteLmkKillOccurred _ _ _)

/-- What `kill_one_process` does to the registry and the trace: it removes the record or
leaves the registry alone, and it records no victim but at most one `reaper.kill` of the
record's pid before its own return. -/
theorem killOneProcess_spec (w : KillWorld) (s : Daemon) {a : Nat} {p : Proc} (m : Int)
    (tm : Timespec) (hp : s.reg.procs a = some p) :
    ((killOneProcess w s a m tm).1.reg = s.reg ∨
      (killOneProcess w s a m tm).1.reg = ((s.reg.pidRemove p.pid).map Prod.fst).getD s.reg) ∧
    ∃ mid, (killOneProcess w s a m tm).1.trace =
        s.trace ++ mid ++ [.killOneProcess p m (killOneProcess w s a m tm).2] ∧
      (∀ e ∈ mid, e.isKill → ∃ fd uid r, e = .reaperKill fd p.pid uid r) ∧
      mid.countP Event.isKill ≤ 1 := by
  obtain ⟨hreg, htr⟩ := killCheck_frame w s p
  unfold killOneProcess
  rw [hp]
  dsimp only
  rcases hk : killCheck w s p with ⟨_ | rssKb, s₁⟩ <;> rw [hk] at hreg htr <;>
    dsimp only at hreg htr ⊢
  · obtain ⟨mid, e, k⟩ := (quiet_pidRemove (s := s₁) p.pid).killSteps p.pid
    exact ⟨.inr (by simp [pidRemove_reg, hreg]), mid, by simp [e, htr], k⟩
  · split
    · exact ⟨.inl hreg, [], by simp [htr], by simp, by simp⟩
    · obtain ⟨hreg₂, hks⟩ := reapProcess_frame w (s₁.ask w.memoryBeforeKillHook).2 p rssKb tm
      rcases hr : reapProcess w (s₁.ask w.memoryBeforeKillHook).2 p rssKb tm with ⟨s₂, _ | _⟩ <;>
        rw [hr] at hreg₂ hks <;> dsimp only at hreg₂ hks ⊢ <;>
        obtain ⟨mid, e, k⟩ := (Quiet.of_trace rfl).trans_killSteps
          (hks.trans_quiet (quiet_pidRemove p.pid)) <;>
        exact ⟨.inr (by simp [pidRemove_reg, hreg₂, hreg]), mid, by simp [e, htr], k⟩

/-! ## The walk of `proc_get_heaviest` -/

open Registry

/-- What a walk of `proc_get_heaviest` over bucket `i`, which held `L₀` in the registry `r₀`
when the walk began with the trace `t₀`, leaves behind: the invariant, with the result in
bucket `i`; a trace extended by calls that record no victim, with a size of at most zero
read for every record of `L₀` when the result is `NULL`; and every record as it was, or
removed from `L₀`. -/
structure HeaviestResult (i : Nat) (r₀ : Registry) (L₀ : List Nat) (t₀ : List Event)
    (res : Daemon × Option Nat) : Prop where
  wf : ∃ S, Wf res.1.reg S ∧ ∀ a, res.2 = some a → a ∈ S.buckets i
  trace : ∃ acc, res.1.trace = t₀ ++ acc ∧ (∀ e ∈ acc, e.isKill = false) ∧
    (res.2 = none → ∀ b ∈ L₀, ∃ sz ≤ 0, Event.procGetSize (pidAt r₀ b) sz ∈ acc)
  frame : ∀ c, (res.1.reg.procs c).map Proc.body = (r₀.procs c).map Proc.body ∨
    (c ∈ L₀ ∧ res.1.reg.procs c = none)

theorem pidAt_eq_of_body {r r' : Registry} {c : Nat}
    (h : (r.procs c).map Proc.body = (r'.procs c).map Proc.body) : pidAt r c = pidAt r' c := by
  have := congrArg (Option.map Proc.pid) h
  simp only [Option.map_map] at this
  exact congrArg (fun o => Option.getD o 0) this

/-- `proc_get_size` changes no record and logs the size it read. -/
theorem procGetSize_eq {w : KillWorld} {s s₁ : Daemon} {pid t : Int}
    (h : procGetSize w s pid = (t, s₁)) :
    s₁.reg = s.reg ∧ s₁.trace = s.trace ++ [.procGetSize pid t] := by
  have h₁ : (procGetSize w s pid).2.reg = s.reg := rfl
  have h₂ : (procGetSize w s pid).2.trace =
      s.trace ++ [.procGetSize pid (procGetSize w s pid).1] := rfl
  rw [h] at h₁ h₂
  exact ⟨h₁, h₂⟩

/-- The walk between two records, begun on the registry `r₀` with the trace `t₀` over a
bucket `i` that held `L₀`: the bucket holds the records `K` kept and the records `R` still to
visit; the calls so far, `acc`, record no victim; every record is as it was or removed from
`L₀`; `maxp` is `NULL` of size `0` or one of `K`, and every record of `L₀` visited had a
size of at most `maxsize` read. -/
structure HeaviestWalk (i : Nat) (r₀ : Registry) (L₀ : List Nat) (t₀ : List Event)
    (s : Daemon) (K R : List Nat) (maxp : Option Nat) (maxsize : Int) (acc : List Event) :
    Prop where
  wf : ∃ S, Wf s.reg S ∧ S.buckets i = K ++ R
  rest : ∀ b ∈ R, b ∈ L₀
  trace : s.trace = t₀ ++ acc
  quiet : ∀ e ∈ acc, e.isKill = false
  frame : ∀ c, (s.reg.procs c).map Proc.body = (r₀.procs c).map Proc.body ∨
    (c ∈ L₀ ∧ s.reg.procs c = none)
  pos : 0 ≤ maxsize
  max : maxp = none ∧ maxsize = 0 ∨ ∃ a ∈ K, maxp = some a
  cov : ∀ b ∈ L₀, b ∉ R → ∃ sz ≤ maxsize, Event.procGetSize (pidAt r₀ b) sz ∈ acc

namespace HeaviestWalk

variable {i : Nat} {r₀ : Registry} {L₀ : List Nat} {t₀ : List Event} {s s₁ : Daemon}
  {K R : List Nat} {b : Nat} {maxp : Option Nat} {maxsize t : Int} {acc : List Event}

/-- Back at the bucket's head, the walk has its result. -/
theorem result (h : HeaviestWalk i r₀ L₀ t₀ s K [] maxp maxsize acc) :
    HeaviestResult i r₀ L₀ t₀ (s, maxp) := by
  obtain ⟨S, hS, hK⟩ := h.wf
  refine ⟨⟨S, hS, fun a ha => ?_⟩, ⟨acc, h.trace, h.quiet, fun hn b hb => ?_⟩, h.frame⟩
  · obtain ⟨rfl, -⟩ | ⟨a', ha', rfl⟩ := h.max
    · cases ha
    · cases ha; simpa [hK] using ha'
  · obtain ⟨rfl, rfl⟩ | ⟨a', -, rfl⟩ := h.max
    · exact h.cov b hb (List.not_mem_nil b)
    · cases hn

/-- The record the walk is at lies in bucket `i`, with the pid it had at the start. -/
theorem head (h : HeaviestWalk i r₀ L₀ t₀ s K (b :: R) maxp maxsize acc) :
    ∃ p, s.reg.procs b = some p ∧ slotOf p.oomadj = i ∧ pidAt s.reg b = pidAt r₀ b := by
  obtain ⟨S, hS, hKR⟩ := h.wf
  obtain ⟨p, hp, hpi⟩ := (hS.mem_bucket i b).mp (by rw [hKR]; simp)
  refine ⟨p, hp, hpi, ?_⟩
  rcases h.frame b with h | ⟨-, h⟩
  · exact pidAt_eq_of_body h
  · rw [hp] at h; cases h

/-- The successor of the record the walk is at is the next record to visit. -/
theorem next (hi : i < 2001) (h : HeaviestWalk i r₀ L₀ t₀ s K (b :: R) maxp maxsize acc) :
    s.reg.next (.node b) = (R.head?.map .node).getD (.slot i) := by
  obtain ⟨S, hS, hKR⟩ := h.wf
  have hrep := hS.buckets.rep i hi
  rw [hKR] at hrep
  exact hrep.next_node

/-- A record whose size `t` was read is kept; the heaviest so far is itself or that record. -/
theorem keep (h : HeaviestWalk i r₀ L₀ t₀ s K (b :: R) maxp maxsize acc)
    (hreg : s₁.reg = s.reg) (htr : s₁.trace = s.trace ++ [.procGetSize (pidAt r₀ b) t])
    {maxp' : Option Nat} {maxsize' : Int}
    (hnew : maxp' = maxp ∧ maxsize' = maxsize ∨ maxp' = some b ∧ maxsize' = t)
    (hle : maxsize ≤ maxsize') (ht : t ≤ maxsize') :
    HeaviestWalk i r₀ L₀ t₀ s₁ (K ++ [b]) R maxp' maxsize'
      (acc ++ [.procGetSize (pidAt r₀ b) t]) where
  wf := let ⟨S, hS, hKR⟩ := h.wf; ⟨S, hreg ▸ hS, by simp [hKR]⟩
  rest c hc := h.rest c (List.mem_cons_of_mem b hc)
  trace := by rw [htr, h.trace, List.append_assoc]
  quiet e he := by
    rcases List.mem_append.mp he with he | he
    · exact h.quiet e he
    · rw [List.mem_singleton.mp he]; rfl
  frame := by rw [hreg]; exact h.frame
  pos := le_trans h.pos hle
  max := by
    rcases hnew with ⟨rfl, rfl⟩ | ⟨rfl, -⟩
    · rcases h.max with h | ⟨a, ha, h⟩
      · exact .inl h
      · exact .inr ⟨a, by simp [ha], h⟩
    · exact .inr ⟨b, by simp, rfl⟩
  cov c hc hcR := by
    by_cases hcb : c = b
    · subst hcb; exact ⟨t, ht, List.mem_append_right _ (List.mem_singleton_self _)⟩
    · obtain ⟨sz, hsz, hm⟩ := h.cov c hc (by simp [hcb, hcR])
      exact ⟨sz, le_trans hsz hle, List.mem_append_left _ hm⟩

/-- A record whose size cannot be read, `t < 0`, is removed. -/
theorem remove (h : HeaviestWalk i r₀ L₀ t₀ s K (b :: R) maxp maxsize acc)
    (hreg : s₁.reg = s.reg) (htr : s₁.trace = s.trace ++ [.procGetSize (pidAt r₀ b) t])
    (ht : t < 0) :
    ∃ new, HeaviestWalk i r₀ L₀ t₀ (s₁.pidRemove (pidAt r₀ b)).1 K R maxp maxsize
      (acc ++ [.procGetSize (pidAt r₀ b) t] ++ new) := by
  obtain ⟨p, hp, hpi, hpid⟩ := h.head
  obtain ⟨S, hS, hKR⟩ := h.wf
  have hbK : b ∉ K := fun hb => (List.nodup_append.mp (hKR ▸ hS.buckets.nodup i)).2.2 hb
    (List.mem_cons_self b R)
  obtain ⟨r', hr', hr'b, hbody, -, hwf⟩ := hS.pidRemove_of_procs hp
  have hreg' : (s₁.pidRemove (pidAt r₀ b)).1.reg = r' := by
    rw [Daemon.pidRemove_reg, hreg, ← hpid, show pidAt s.reg b = p.pid by simp [pidAt, hp], hr']
    rfl
  obtain ⟨new, hnew, hqn⟩ := Daemon.quiet_pidRemove (s := s₁) (pidAt r₀ b)
  refine ⟨new, ⟨⟨_, hreg' ▸ hwf, ?_⟩, fun c hc => h.rest c (List.mem_cons_of_mem b hc),
    by rw [hnew, htr, h.trace]; simp only [List.append_assoc], fun e he => ?_, fun c => ?_,
    h.pos, h.max, fun c hc hcR => ?_⟩⟩
  · show Function.update S.buckets (slotOf p.oomadj) _ i = _
    rw [hpi, Function.update_same, hKR, List.erase_append_right _ hbK, List.erase_cons_head]
  · rcases List.mem_append.mp he with he | he
    · rcases List.mem_append.mp he with he | he
      · exact h.quiet e he
      · rw [List.mem_singleton.mp he]; rfl
    · exact hqn e he
  · rw [hreg']
    by_cases hcb : c = b
    · subst hcb; exact .inr ⟨h.rest c (List.mem_cons_self c R), hr'b⟩
    · rcases h.frame c with hc | ⟨hc, hn⟩
      · exact .inl ((hbody c hcb).trans hc)
      · have hb' := hbody c hcb
        rw [hn, Option.map_none', Option.map_eq_none'] at hb'
        exact .inr ⟨hc, hb'⟩
  · by_cases hcb : c = b
    · subst hcb
      exact ⟨t, by have := h.pos; omega,
        List.mem_append_left _ (List.mem_append_right _ (List.mem_singleton_self _))⟩
    · obtain ⟨sz, hsz, hm⟩ := h.cov c hc (by simp [hcb, hcR])
      exact ⟨sz, hsz, List.mem_append_left _ (List.mem_append_left _ hm)⟩

end HeaviestWalk

/-! ### The sizes the walk reads

The walk is decided by the sizes `proc_get_size` answers, read record by record: one turn of
the loop acts on the records kept and the heaviest record so far as `heaviestStep` does. -/

/-- The records of `L` paired with the sizes `proc_get_size` answers for them in turn, from
the `k`-th answer on. -/
def sizesFrom (q : Nat → Int) (k : Nat) : List Nat → List (Nat × Int)
  | [] => []
  | b :: L => (b, q k) :: sizesFrom q (k + 1) L

/-- One turn of the walk, given the record at hand with the size read for it, on the records
kept and the heaviest record so far with its size: a negative size drops the record, a size
above the heaviest one's makes the record the heaviest. -/
def heaviestStep (acc : List Nat × Option Nat × Int) (x : Nat × Int) :
    List Nat × Option Nat × Int :=
  if x.2 < 0 then acc
  else if acc.2.2 < x.2 then (acc.1 ++ [x.1], some x.1, x.2)
  else (acc.1 ++ [x.1], acc.2)

/-- The pid and the size of a `proc_get_size` read. -/
def Event.sizeRead : Event → Option (Int × Int)
  | .procGetSize pid size => some (pid, size)
  | _ => none

theorem sizesFrom_append_singleton (q : Nat → Int) (b : Nat) : ∀ (k : Nat) (V : List Nat),
    sizesFrom q k (V ++ [b]) = sizesFrom q k V ++ [(b, q (k + V.length))]
  | k, [] => rfl
  | k, c :: V => by
    rw [List.cons_append, sizesFrom, sizesFrom, sizesFrom_append_singleton q b (k + 1) V,
      List.length_cons, Nat.add_assoc, Nat.add_comm 1]
    rfl

/-- `proc_get_size` takes the next answer. -/
theorem procGetSize_ask (w : KillWorld) (s : Daemon) (pid : Int) :
    (procGetSize w s pid).1 = w.procGetSize s.asked ∧
      (procGetSize w s pid).2.asked = s.asked + 1 :=
  ⟨rfl, rfl⟩

theorem Daemon.pidRemove_asked (s : Daemon) (pid : Int) : (s.pidRemove pid).1.asked = s.asked := by
  unfold Daemon.pidRemove
  split
  · rfl
  · dsimp only
    split <;> rfl

/-- `pid_remove` reads no size. -/
theorem Daemon.pidRemove_sizeReads (s : Daemon) (pid : Int) :
    ∃ new, (s.pidRemove pid).1.trace = s.trace ++ new ∧ new.filterMap Event.sizeRead = [] := by
  unfold Daemon.pidRemove
  split
  · exact ⟨[], (List.append_nil _).symm, rfl⟩
  · dsimp only
    split
    · exact ⟨[.close _], rfl, rfl⟩
    · exact ⟨[], (List.append_nil _).symm, rfl⟩

/-- The walk over bucket `i`, begun in `s₀` on the records `L₀`, has visited `V` and has
`R` left: a `HeaviestWalk` whose records kept and heaviest record are the turns of
`heaviestStep` on the sizes of `V`, read from the answer `s₀.asked` on, and whose calls read
exactly those sizes. -/
structure HeaviestScan (w : KillWorld) (i : Nat) (s₀ : Daemon) (L₀ V : List Nat) (s : Daemon)
    (K R : List Nat) (maxp : Option Nat) (maxsize : Int) (acc : List Event)
    extends HeaviestWalk i s₀.reg L₀ s₀.trace s K R maxp maxsize acc : Prop where
  split : L₀ = V ++ R
  asked : s.asked = s₀.asked + V.length
  scan : (sizesFrom w.procGetSize s₀.asked V).foldl heaviestStep ([], none, 0) =
    (K, maxp, maxsize)
  reads : acc.filterMap Event.sizeRead =
    (sizesFrom w.procGetSize s₀.asked V).map fun x => (pidAt s₀.reg x.1, x.2)

/-- The walk of the whole bucket ends with this result. -/
def HeaviestScanned (w : KillWorld) (i : Nat) (s₀ : Daemon) (L₀ : List Nat)
    (res : Daemon × Option Nat) : Prop :=
  ∃ K maxsize acc, HeaviestScan w i s₀ L₀ L₀ res.1 K [] res.2 maxsize acc

namespace HeaviestScan

variable {w : KillWorld} {i : Nat} {s₀ : Daemon} {L₀ V : List Nat} {s s₁ : Daemon}
  {K R : List Nat} {b : Nat} {maxp : Option Nat} {maxsize t : Int} {acc : List Event}

/-- Nothing visited yet. -/
theorem start (hS : Wf s₀.reg S) : HeaviestScan w i s₀ (S.buckets i) [] s₀ [] (S.buckets i)
    none 0 [] where
  wf := ⟨S, hS, (List.nil_append _).symm⟩
  rest _ hb := hb
  trace := (List.append_nil _).symm
  quiet := by simp
  frame _ := .inl rfl
  pos := le_rfl
  max := .inl ⟨rfl, rfl⟩
  cov _ hb hbR := absurd hb hbR
  split := rfl
  asked := rfl
  scan := rfl
  reads := rfl

/-- The size read for the record at hand is the next answer. -/
theorem size_eq (h : HeaviestScan w i s₀ L₀ V s K R maxp maxsize acc)
    (hg : procGetSize w s (pidAt s₀.reg b) = (t, s₁)) :
    t = w.procGetSize (s₀.asked + V.length) ∧ s₁.asked = s₀.asked + (V ++ [b]).length := by
  have := procGetSize_ask w s (pidAt s₀.reg b)
  rw [hg] at this
  rw [List.length_append, List.length_singleton, ← Nat.add_assoc, ← h.asked]
  exact this

/-- The turns of `heaviestStep` over `V` and then `b` with the size `t` read for it. -/
theorem scan_step (h : HeaviestScan w i s₀ L₀ V s K R maxp maxsize acc)
    (ht : t = w.procGetSize (s₀.asked + V.length)) :
    (sizesFrom w.procGetSize s₀.asked (V ++ [b])).foldl heaviestStep ([], none, 0) =
      heaviestStep (K, maxp, maxsize) (b, t) := by
  rw [sizesFrom_append_singleton, List.foldl_append, h.scan, ht]
  rfl

theorem reads_step (h : HeaviestScan w i s₀ L₀ V s K R maxp maxsize acc)
    (ht : t = w.procGetSize (s₀.asked + V.length)) (new : List Event)
    (hnew : new.filterMap Event.sizeRead = []) :
    (acc ++ [Event.procGetSize (pidAt s₀.reg b) t] ++ new).filterMap Event.sizeRead =
      (sizesFrom w.procGetSize s₀.asked (V ++ [b])).map fun x => (pidAt s₀.reg x.1, x.2) := by
  rw [List.filterMap_append, List.filterMap_append, hnew, List.append_nil, h.reads,
    sizesFrom_append_singleton, List.map_append, ht]
  rfl

/-- A record whose size `t ≥ 0` was read is kept, as `heaviestStep` says. -/
theorem keep (h : HeaviestScan w i s₀ L₀ V s K (b :: R) maxp maxsize acc)
    (hg : procGetSize w s (pidAt s₀.reg b) = (t, s₁)) (ht : 0 ≤ t) {maxp' : Option Nat}
    {maxsize' : Int} (hstep : heaviestStep (K, maxp, maxsize) (b, t) = (K ++ [b], maxp', maxsize')) :
    HeaviestScan w i s₀ L₀ (V ++ [b]) s₁ (K ++ [b]) R maxp' maxsize'
      (acc ++ [.procGetSize (pidAt s₀.reg b) t]) := by
  obtain ⟨hreg, htr⟩ := procGetSize_eq hg
  obtain ⟨ht', hask⟩ := h.size_eq hg
  have hwalk : HeaviestWalk i s₀.reg L₀ s₀.trace s₁ (K ++ [b]) R maxp' maxsize'
      (acc ++ [.procGetSize (pidAt s₀.reg b) t]) := by
    unfold heaviestStep at hstep
    dsimp only at hstep
    rw [if_neg (not_lt.mpr ht)] at hstep
    split at hstep <;> simp only [Prod.mk.injEq, true_and] at hstep <;>
      obtain ⟨rfl, rfl⟩ := hstep
    · exact h.toHeaviestWalk.keep hreg htr (.inr ⟨rfl, rfl⟩) (by omega) le_rfl
    · exact h.toHeaviestWalk.keep hreg htr (.inl ⟨rfl, rfl⟩) le_rfl (by omega)
  exact { hwalk with
    split := by rw [h.split, List.append_assoc, List.singleton_append]
    asked := hask
    scan := (h.scan_step ht').trans hstep
    reads := by simpa using h.reads_step (b := b) ht' [] rfl }

/-- A record whose size cannot be read, `t < 0`, is removed, as `heaviestStep` says. -/
theorem remove (h : HeaviestScan w i s₀ L₀ V s K (b :: R) maxp maxsize acc)
    (hg : procGetSize w s (pidAt s₀.reg b) = (t, s₁)) (ht : t < 0) :
    ∃ acc', HeaviestScan w i s₀ L₀ (V ++ [b]) (s₁.pidRemove (pidAt s₀.reg b)).1 K R maxp
      maxsize acc' := by
  obtain ⟨hreg, htr⟩ := procGetSize_eq hg
  obtain ⟨ht', hask⟩ := h.size_eq hg
  obtain ⟨new, hwalk⟩ := h.toHeaviestWalk.remove hreg htr ht
  obtain ⟨new', htr', hnew'⟩ := s₁.pidRemove_sizeReads (pidAt s₀.reg b)
  have hnew : new = new' := by
    have := hwalk.trace.symm.trans htr'
    rw [htr, h.trace] at this
    simpa only [List.append_assoc, List.append_cancel_left_eq] using this
  refine ⟨_, { hwalk with
    split := by rw [h.split, List.append_assoc, List.singleton_append]
    asked := by rw [Daemon.pidRemove_asked, hask]
    scan := by rw [h.scan_step ht', heaviestStep, if_pos ht]
    reads := hnew ▸ h.reads_step ht' new' hnew' }⟩

end HeaviestScan

/-- The walk from the first record of `R` on visits the rest of the bucket, by one step
lemma per branch of the loop. -/
theorem procGetHeaviestLoop_scan (w : KillWorld) {i : Nat} (hi : i < 2001) {s₀ : Daemon}
    {L₀ : List Nat} :
    ∀ (n : Nat) (V : List Nat) (s : Daemon) (K R : List Nat) (maxp : Option Nat)
      (maxsize : Int) (acc : List Event), R.length ≤ n →
      HeaviestScan w i s₀ L₀ V s K R maxp maxsize acc →
      HeaviestScanned w i s₀ L₀
        (procGetHeaviestLoop w (.slot i) n s ((R.head?.map .node).getD (.slot i)) maxp maxsize)
  | n, V, s, K, [], maxp, maxsize, acc, _, h => by
    have hres : procGetHeaviestLoop w (.slot i) n s (.slot i) maxp maxsize = (s, maxp) := by
      cases n <;> simp [procGetHeaviestLoop]
    rw [List.head?_nil, Option.map_none', Option.getD_none, hres]
    obtain rfl : V = L₀ := by rw [h.split, List.append_nil]
    exact ⟨K, maxsize, acc, h⟩
  | 0, _, _, _, _ :: _, _, _, _, hlen, _ => by simp at hlen
  | n + 1, V, s, K, b :: R, maxp, maxsize, acc, hlen, h => by
    have hlen' : R.length ≤ n := by simpa using hlen
    obtain ⟨p, -, -, hpid⟩ := h.head
    rcases hg : procGetSize w s (pidAt s₀.reg b) with ⟨t, s₁⟩
    obtain ⟨hreg, -⟩ := procGetSize_eq hg
    rw [List.head?_cons, Option.map_some', Option.getD_some]
    simp only [procGetHeaviestLoop, reduceCtorEq, if_false, hpid, hg, hreg, h.next hi]
    split
    · -- the size cannot be read: the record is removed
      obtain ⟨acc', h'⟩ := h.remove hg (by omega)
      exact procGetHeaviestLoop_scan w hi n _ _ K R maxp maxsize acc' hlen' h'
    split
    · exact procGetHeaviestLoop_scan w hi n _ s₁ _ R _ _ _ hlen'
        (h.keep hg (by omega) (by rw [heaviestStep, if_neg (by omega), if_pos ‹_›]))
    · exact procGetHeaviestLoop_scan w hi n _ s₁ _ R _ _ _ hlen'
        (h.keep hg (by omega) (by rw [heaviestStep, if_neg (by omega), if_neg ‹_›]))

theorem HeaviestScanned.result {w : KillWorld} {i : Nat} {s₀ : Daemon} {L₀ : List Nat}
    {res : Daemon × Option Nat} (h : HeaviestScanned w i s₀ L₀ res) :
    HeaviestResult i s₀.reg L₀ s₀.trace res :=
  let ⟨_, _, _, h⟩ := h
  h.result

/-- On a bucket of two records or more, the shortcut of `proc_get_heaviest` for a single
record is not taken. -/
theorem procGetHeaviest_walk {s : Daemon} {i : Nat} {L : List Nat}
    (hrep : BucketRep s.reg i L) (hL : L.length ≠ 1) :
    ¬((L.head?.map Ptr.node).getD (.slot i) ≠ .slot i ∧
      s.reg.next ((L.head?.map Ptr.node).getD (.slot i)) = .slot i) := by
  rintro ⟨hne, hnn⟩
  rcases L with _ | ⟨b, _ | ⟨c, L⟩⟩
  · exact hne rfl
  · exact hL rfl
  · rw [List.head?_cons, Option.map_some', Option.getD_some,
      hrep.next_node (P := []) (Q := c :: L)] at hnn
    simp at hnn

/-- `proc_get_heaviest(adj)` on a bucket of two records or more walks all of them. -/
theorem procGetHeaviest_scan (w : KillWorld) (s : Daemon) {S : Shape} (hS : Wf s.reg S)
    {adj : Int} (h₁ : oomScoreAdjMin ≤ adj) (h₂ : adj ≤ oomScoreAdjMax)
    (hL : 2 ≤ (S.buckets (slotOf adj)).length) :
    HeaviestScanned w (slotOf adj) s (S.buckets (slotOf adj)) (procGetHeaviest w s adj) := by
  have hi := slotOf_lt h₁ h₂
  have hrep := hS.buckets.rep _ hi
  unfold procGetHeaviest
  dsimp only
  rw [hrep.next_slot, if_neg (procGetHeaviest_walk hrep (by omega))]
  exact procGetHeaviestLoop_scan w hi s.reg.brk [] s [] _ none 0 [] (hS.bucket_length_le _)
    (HeaviestScan.start hS)

/-- `proc_get_heaviest(adj)` over the bucket of a score in range. -/
theorem procGetHeaviest_spec (w : KillWorld) (s : Daemon) {S : Shape} (hS : Wf s.reg S)
    {adj : Int} (h₁ : oomScoreAdjMin ≤ adj) (h₂ : adj ≤ oomScoreAdjMax) :
    HeaviestResult (slotOf adj) s.reg (S.buckets (slotOf adj)) s.trace
      (procGetHeaviest w s adj) := by
  have hi := slotOf_lt h₁ h₂
  have hrep := hS.buckets.rep _ hi
  unfold procGetHeaviest
  dsimp only
  rw [hrep.next_slot]
  split
  · -- a single record is returned without a walk
    rename_i hc
    rcases hL : S.buckets (slotOf adj) with _ | ⟨b, _ | ⟨c, L⟩⟩
    · rw [hL] at hc; exact absurd rfl hc.1
    · refine ⟨⟨S, hS, fun a ha => ?_⟩, ⟨[], by simp, by simp, fun h => by cases h⟩,
        fun c => .inl rfl⟩
      cases ha
      simp [hL]
    · rw [hL] at hc hrep
      exact absurd hc (procGetHeaviest_walk hrep (by simp))
  · exact (procGetHeaviestLoop_scan w hi s.reg.brk [] s [] _ none 0 [] (hS.bucket_length_le _)
      (HeaviestScan.start hS)).result

/-! ## Victims of `find_and_kill_process` -/

/-- `proc_adj_tail(adj)` is the oldest record of the bucket. -/
theorem procAdjTail_eq {r : Registry} {S : Shape} (hS : Wf r S) {adj : Int}
    (h₁ : oomScoreAdjMin ≤ adj) (h₂ : adj ≤ oomScoreAdjMax) :
    procAdjTail r adj = (S.buckets (slotOf adj)).getLast? := by
  unfold procAdjTail
  rw [hS.adjslotTail (slotOf_lt h₁ h₂)]
  cases (S.buckets (slotOf adj)).getLast? <;> rfl

/-- Picking a record at score `i`, the tail or the heaviest, does what a walk of
`proc_get_heaviest` does; the tail is picked without a walk. -/
theorem pick_spec (w : KillWorld) (s : Daemon) {S : Shape} (hS : Wf s.reg S) (heaviest : Bool)
    {i : Int} (h₁ : oomScoreAdjMin ≤ i) (h₂ : i ≤ oomScoreAdjMax) :
    HeaviestResult (slotOf i) s.reg (S.buckets (slotOf i)) s.trace
      (if heaviest then procGetHeaviest w s i else (s, procAdjTail s.reg i)) := by
  cases heaviest with
  | true => exact procGetHeaviest_spec w s hS h₁ h₂
  | false =>
    rw [if_neg Bool.false_ne_true, procAdjTail_eq hS h₁ h₂]
    refine ⟨⟨S, hS, fun a ha => List.mem_of_getLast?_eq_some ha⟩,
      ⟨[], (List.append_nil _).symm, by simp, fun hn b hb => ?_⟩, fun c => .inl rfl⟩
    rw [List.getLast?_eq_none_iff.mp hn] at hb
    cases hb

/-- The trace `new` hands to `kill_one_process` only records whose score satisfies `P`,
and to `reaper.kill` only the pid of a record it handed to `kill_one_process` with `m`. -/
def Hands (m : Int) (P : Int → Prop) (new : List Event) : Prop :=
  (∀ p m' r, Event.killOneProcess p m' r ∈ new → P p.oomadj) ∧
  ∀ fd pid uid r, Event.reaperKill fd pid uid r ∈ new →
    ∃ p res, Event.killOneProcess p m res ∈ new ∧ p.pid = pid

theorem Hands.append {m : Int} {P : Int → Prop} {A B : List Event} (hA : Hands m P A)
    (hB : Hands m P B) : Hands m P (A ++ B) := by
  refine ⟨fun p m' r h => ?_, fun fd pid uid r h => ?_⟩
  · rcases List.mem_append.mp h with h | h
    · exact hA.1 p m' r h
    · exact hB.1 p m' r h
  · rcases List.mem_append.mp h with h | h
    · obtain ⟨p, res, hp, rfl⟩ := hA.2 fd pid uid r h
      exact ⟨p, res, List.mem_append_left _ hp, rfl⟩
    · obtain ⟨p, res, hp, rfl⟩ := hB.2 fd pid uid r h
      exact ⟨p, res, List.mem_append_right _ hp, rfl⟩

theorem Hands.mono {m : Int} {P Q : Int → Prop} {new : List Event} (h : Hands m P new)
    (hPQ : ∀ x, P x → Q x) : Hands m Q new :=
  ⟨fun p m' r he => hPQ _ (h.1 p m' r he), h.2⟩

theorem hands_of_noKill {m : Int} {P : Int → Prop} {new : List Event}
    (h : ∀ e ∈ new, e.isKill = false) : Hands m P new :=
  ⟨fun p m' r he => absurd (h _ he) (by simp [Event.isKill]),
    fun fd pid uid r he => absurd (h _ he) (by simp [Event.isKill])⟩

theorem map_oomadj_eq_of_body {a b : Option Proc} (h : a.map Proc.body = b.map Proc.body) :
    a.map Proc.oomadj = b.map Proc.oomadj := by
  simpa only [Option.map_map, Function.comp_def, Proc.body_oomadj] using
    congrArg (Option.map Proc.oomadj) h

/-- One attempt on the record at `a`: the invariant kept, that record handed over and no
other, and every other record as it was. -/
theorem killOneProcess_attempt (w : KillWorld) (s : Daemon) {S : Shape} (hS : Wf s.reg S)
    {a : Nat} {p : Proc} (hp : s.reg.procs a = some p) (m : Int) (tm : Timespec) :
    (∃ S', Wf (killOneProcess w s a m tm).1.reg S') ∧
    (∀ c, c ≠ a → ((killOneProcess w s a m tm).1.reg.procs c).map Proc.body =
      (s.reg.procs c).map Proc.body) ∧
    ∃ new, (killOneProcess w s a m tm).1.trace = s.trace ++ new ∧
      Event.killOneProcess p m (killOneProcess w s a m tm).2 ∈ new ∧
        Hands m (· = p.oomadj) new := by
  obtain ⟨hreg, mid, htr, hmid, -⟩ := killOneProcess_spec w s m tm hp
  obtain ⟨r', hr', -, hbody, -, hwf⟩ := hS.pidRemove_of_procs hp
  have hlast : Event.killOneProcess p m (killOneProcess w s a m tm).2 ∈
      mid ++ [.killOneProcess p m (killOneProcess w s a m tm).2] :=
    List.mem_append_right _ (List.mem_singleton_self _)
  refine ⟨?_, fun c hc => ?_, _, by rw [htr, List.append_assoc], hlast,
    fun q m' r h => ?_, fun fd pid uid r h => ⟨p, _, hlast, ?_⟩⟩
  · rcases hreg with h | h
    · exact ⟨S, by rw [h]; exact hS⟩
    · rw [hr'] at h; exact ⟨_, by rw [h]; exact hwf⟩
  · rcases hreg with h | h
    · rw [h]
    · rw [h, hr']; exact hbody c hc
  · rcases List.mem_append.mp h with h | h
    · obtain ⟨fd, uid, r, he⟩ := hmid _ h rfl; cases he
    · cases List.mem_singleton.mp h; rfl
  · rcases List.mem_append.mp h with h | h
    · obtain ⟨fd', uid', r', he⟩ := hmid _ h rfl; cases he; rfl
    · cases List.mem_singleton.mp h

/-- What the attempts of `find_and_kill_process` at score `i`, from `s` with the result so
far `k` and `n` turns left, leave behind: the invariant; a trace extended by returns of
`kill_one_process` on records of score `i` only and by `reaper.kill`s only of records
handed over with `m`; records of other scores as they were. When no attempt returned `0`,
the result is `0` only if `k` was, and then, once a turn was made, there was no attempt
and every record of score `i` had a size of at most zero read. -/
structure AtScore (m i k : Int) (n : Nat) (s : Daemon) (res : Daemon × Int) : Prop where
  wf : ∃ S, Wf res.1.reg S
  trace : ∃ new, res.1.trace = s.trace ++ new ∧ Hands m (· = i) new ∧
    ((∀ p m' r, Event.killOneProcess p m' r ∈ new → r ≠ 0) → res.2 = 0 → k = 0 ∧
      (0 < n → (∀ e ∈ new, e.isKill = false) ∧
        ∀ b q, s.reg.procs b = some q → q.oomadj = i →
          ∃ sz ≤ 0, Event.procGetSize q.pid sz ∈ new))
  frame : ∀ c, (s.reg.procs c).map Proc.oomadj ≠ some i →
    (res.1.reg.procs c).map Proc.body = (s.reg.procs c).map Proc.body

theorem findAndKillAt_spec (w : KillWorld) (m : Int) (tm : Timespec) (heaviest : Bool) {i : Int}
    (h₁ : oomScoreAdjMin ≤ i) (h₂ : i ≤ oomScoreAdjMax) :
    ∀ n s k S, Wf s.reg S → AtScore m i k n s (findAndKillAt w m tm heaviest i n s k)
  | 0, s, k, S, hS => ⟨⟨S, hS⟩, ⟨[], (List.append_nil _).symm, hands_of_noKill (by simp),
      fun _ hk => ⟨hk, fun h => absurd h (lt_irrefl 0)⟩⟩, fun _ _ => rfl⟩
  | n + 1, s, k, S, hS => by
    obtain ⟨⟨S₁, hS₁, hmem⟩, ⟨new₁, htr₁, hq₁, hcov₁⟩, hfr₁⟩ := pick_spec w s hS heaviest h₁ h₂
    simp only [findAndKillAt]
    generalize (if heaviest then procGetHeaviest w s i else (s, procAdjTail s.reg i)) = res
      at hS₁ hmem htr₁ hcov₁ hfr₁
    obtain ⟨s₁, procp⟩ := res
    dsimp only at hS₁ hmem htr₁ hcov₁ hfr₁ ⊢
    have hkeep₁ : ∀ c, (s.reg.procs c).map Proc.oomadj ≠ some i →
        (s₁.reg.procs c).map Proc.body = (s.reg.procs c).map Proc.body := fun c hc => by
      rcases hfr₁ c with h | ⟨hb, -⟩
      · exact h
      · obtain ⟨q, hq, hqi⟩ := hS.oomadj_of_mem h₁ hb
        rw [hq] at hc; exact absurd (congrArg some hqi) hc
    cases procp with
    | none =>
      refine ⟨⟨S₁, hS₁⟩, ⟨new₁, htr₁, hands_of_noKill hq₁,
        fun _ hk => ⟨hk, fun _ => ⟨hq₁, fun b q hb hqi => ?_⟩⟩⟩, hkeep₁⟩
      obtain ⟨sz, hsz, he⟩ := hcov₁ rfl b (hqi ▸ hS.mem_bucket_self hb)
      exact ⟨sz, hsz, by simpa [pidAt, hb] using he⟩
    | some a =>
      obtain ⟨p, hp, hpi⟩ := hS₁.oomadj_of_mem h₁ (hmem a rfl)
      obtain ⟨⟨S₂, hS₂⟩, hfr₂, new₂, htr₂, hkill, hh₂⟩ := killOneProcess_attempt w s₁ hS₁ hp m tm
      rw [hpi] at hh₂
      have hkeep₂ : ∀ c, (s.reg.procs c).map Proc.oomadj ≠ some i →
          ((killOneProcess w s₁ a m tm).1.reg.procs c).map Proc.body =
            (s.reg.procs c).map Proc.body := fun c hc => by
        have hc₁ := hkeep₁ c hc
        have hca : c ≠ a := by
          rintro rfl
          rw [← map_oomadj_eq_of_body hc₁, hp, ← hpi] at hc
          exact hc rfl
        rw [hfr₂ c hca, hc₁]
      have hh : Hands m (· = i) (new₁ ++ new₂) := (hands_of_noKill hq₁).append hh₂
      dsimp only
      split
      · exact ⟨⟨S₂, hS₂⟩, ⟨new₁ ++ new₂, by rw [htr₂, htr₁, List.append_assoc], hh,
          fun hnz hk => absurd hk (hnz _ _ _ (List.mem_append_right _ hkill))⟩, hkeep₂⟩
      · rename_i hneg
        obtain ⟨hS₃, ⟨new₃, htr₃, hh₃, hz₃⟩, hfr₃⟩ :=
          findAndKillAt_spec w m tm heaviest h₁ h₂ n _ (killOneProcess w s₁ a m tm).2 S₂ hS₂
        refine ⟨hS₃, ⟨new₁ ++ new₂ ++ new₃, by simp only [htr₃, htr₂, htr₁, List.append_assoc],
          hh.append hh₃, fun hnz hk => ?_⟩, fun c hc => ?_⟩
        · exact absurd (hz₃ (fun p m' r h => hnz p m' r (List.mem_append_right _ h)) hk).1
            (by omega)
        · have hc₂ := hkeep₂ c hc
          rw [hfr₃ c (by rwa [map_oomadj_eq_of_body hc₂]), hc₂]

/-- The scan of the scores from `m + n - 1` down never leaves `procadjslot_list` and hands
over only records of score at least `m`. -/
theorem findAndKillLoop_hands (w : KillWorld) {m : Int} (tm : Timespec) (hm : oomScoreAdjMin ≤ m) :
    ∀ (n : Nat) ch s k S, Wf s.reg S → n ≤ (oomScoreAdjMax + 1 - m).toNat →
      ∃ s' k', findAndKillLoop w m tm n ch s k = some (s', k') ∧
        ∃ S' new, Wf s'.reg S' ∧ s'.trace = s.trace ++ new ∧ Hands m (m ≤ ·) new
  | 0, ch, s, k, S, hS, _ =>
    ⟨s, k, rfl, S, [], hS, (List.append_nil _).symm, hands_of_noKill (by simp)⟩
  | n + 1, ch, s, k, S, hS, hi => by
    have hmi : m ≤ m + n := by omega
    simp only [findAndKillLoop]
    rw [if_neg (by simp only [adjtoslot_eq, oomScoreAdjMin] at hm ⊢; omega)]
    obtain ⟨⟨S₁, hS₁⟩, ⟨new₁, htr₁, hh₁, -⟩, -⟩ :=
      findAndKillAt_spec w m tm (ch || decide (m + n ≤ perceptibleAppAdj)) (le_trans hm hmi)
        (by omega) (s.reg.brk + 1) s k S hS
    have hh₁ : Hands m (m ≤ ·) new₁ := hh₁.mono fun x hx => hx ▸ hmi
    split
    · exact ⟨_, _, rfl, S₁, new₁, hS₁, htr₁, hh₁⟩
    · obtain ⟨s', k', he, S', new₂, hS', htr₂, hh₂⟩ :=
        findAndKillLoop_hands w tm hm n _ _ _ S₁ hS₁ (by omega)
      exact ⟨s', k', he, S', new₁ ++ new₂, hS', by rw [htr₂, htr₁, List.append_assoc],
        hh₁.append hh₂⟩

/-- Whatever `min_score_adj`, a scan that returns leaves a registry satisfying the
invariant: it returns `none` as soon as it reaches a score outside `procadjslot_list`. -/
theorem findAndKillLoop_valid (w : KillWorld) (m : Int) (tm : Timespec) :
    ∀ (n : Nat) ch (s : Daemon) k, s.reg.Valid → n ≤ (oomScoreAdjMax + 1 - m).toNat → ∀ s' k',
      findAndKillLoop w m tm n ch s k = some (s', k') → s'.reg.Valid
  | 0, _, s, _, h, _, s', _, he => by cases he; exact h
  | n + 1, ch, s, k, ⟨S, hS⟩, hi, s', k', he => by
    simp only [findAndKillLoop] at he
    split at he
    · cases he
    rename_i hslot
    have hlo : oomScoreAdjMin ≤ m + n := by
      simp only [adjtoslot_eq, oomScoreAdjMin] at hslot ⊢; omega
    obtain ⟨hS₁, -, -⟩ := findAndKillAt_spec w m tm (ch || decide (m + n ≤ perceptibleAppAdj))
      hlo (by omega) (s.reg.brk + 1) s k S hS
    split at he
    · cases he; exact hS₁
    · obtain ⟨S₁, hS₁⟩ := hS₁
      exact findAndKillLoop_valid w m tm n _ _ _ ⟨S₁, hS₁⟩ (by omega) s' k' he

theorem findAndKillProcess_valid (w : KillWorld) {s s' : Daemon} (h : s.reg.Valid) {m : Int}
    (tm : Timespec) {k : Int} (he : findAndKillProcess w s m tm = some (s', k)) :
    s'.reg.Valid :=
  findAndKillLoop_valid w m tm _ _ s 0 h le_rfl s' k he

/-! ## A registry without records -/

theorem pick_init (w : KillWorld) {s : Daemon} (hs : s.reg = Registry.init) (heaviest : Bool)
    (i : Int) :
    (if heaviest then procGetHeaviest w s i else (s, procAdjTail s.reg i)) = (s, none) := by
  cases heaviest
  · simp [procAdjTail, hs, adjslotTail, Registry.init]
  · simp [procGetHeaviest, hs, Registry.init, procGetHeaviestLoop]

theorem findAndKillAt_init (w : KillWorld) {s : Daemon} (hs : s.reg = Registry.init) (m : Int)
    (tm : Timespec) (heaviest : Bool) (i : Int) (n : Nat) (k : Int) :
    findAndKillAt w m tm heaviest i n s k = (s, k) := by
  cases n with
  | zero => rfl
  | succ n => simp only [findAndKillAt, pick_init w hs]

theorem findAndKillLoop_init (w : KillWorld) {s : Daemon} (hs : s.reg = Registry.init) (m : Int)
    (tm : Timespec) : ∀ (n : Nat) (h : Bool),
      findAndKillLoop w m tm n h s 0 = if m < oomScoreAdjMin ∧ 0 < n then none else some (s, 0)
  | 0, _ => by rw [findAndKillLoop, if_neg (by omega)]
  | n + 1, h => by
    have hmin : oomScoreAdjMin = -1000 := rfl
    simp only [findAndKillLoop, findAndKillAt_init w hs, adjtoslot_eq, hmin]
    by_cases hslot : m + n + 1000 < 0
    · rw [if_pos hslot, if_pos (by omega)]
    rw [if_neg hslot, if_neg (not_not.mpr rfl), findAndKillLoop_init w hs m tm n _, hmin]
    simp only [show m < -1000 ∧ 0 < n ↔ m < -1000 ∧ 0 < n + 1 by omega]

/-- On a registry without records no score yields a victim, and the scan runs on down to
`min_score_adj`: below `OOM_SCORE_ADJ_MIN` it reads `procadjslot_list[-1]`. -/
theorem findAndKillProcess_init (w : KillWorld) {s : Daemon} (hs : s.reg = Registry.init)
    (m : Int) (tm : Timespec) :
    findAndKillProcess w s m tm = if m < oomScoreAdjMin then none else some (s, 0) := by
  rw [findAndKillProcess, findAndKillLoop_init w hs m tm]
  simp only [oomScoreAdjMin, oomScoreAdjMax]
  split_ifs <;> first | rfl | omega

end Lmkd
