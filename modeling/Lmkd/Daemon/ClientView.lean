import Lmkd.Daemon.Registered
import Lmkd.Registry.Map

/-!
# The registry as its clients see it

A client of the control socket sees the registry as a map from pids to records
(`Registry.find`) and acts on it by the rule of `claim_record`: it registers a pid with no
record as its own (`PROCPRIO`), changes the score of a record it holds or that nobody
holds, taking it (`PROCPRIO` again), removes such a record (`PROCREMOVE`, `PROCPURGE`), and
gives up every record it holds when a connection whose slot recorded its pid closes
(`remove_claims`). The daemon itself only takes records out, one at a time and each for a
named cause (`proc_get_heaviest` found the process gone, or `kill_one_process` was called
with it), and the watchdog marks a record as not to be killed again. `ViewStep` is this
protocol, each step labelled with who acts.

The protocol keeps each client's records to that client: a step of one client leaves every
record another client holds as it was (`ViewStep.keeps_held`). Each step of the main loop,
from a registry satisfying the invariant, is a run of protocol steps by the actors that
step lets act (`LoopActs`): the sender of a message and the pid its slot recorded, the pids
of the slots a new connection closes, the pid of a slot that hangs up, or the kill path.
Every run of the main loop is a chain of such steps (`mainloopRun_refines_view`).
-/

namespace Lmkd

/-- Who acts on the registry: a client, by the pid the kernel reports for it, or the
daemon. -/
inductive Actor where
  | client (c : Int)
  | daemon
  deriving DecidableEq, Repr

/-- `claim_record(procp, pid)` succeeds on a record that `pid` holds or that nobody holds. -/
def Claimable (c : Int) (p : Proc) : Prop := p.regPid = c ∨ p.regPid = 0

instance (c : Int) (p : Proc) : Decidable (Claimable c p) :=
  inferInstanceAs (Decidable (_ ∨ _))

/-- Why the kill path takes a record out. -/
inductive DropCause where
  /-- `proc_get_heaviest` read a negative size: the process is gone. -/
  | gone
  /-- `kill_one_process` was called with the record: it signalled the process, or found it
  dead, reused or nameless. -/
  | killed
  deriving DecidableEq, Repr

/-- One step of the client protocol on the map from pids to records. -/
inductive ViewStep : Actor → (Int → Option Proc) → (Int → Option Proc) → Prop
  /-- `PROCPRIO` of a pid with no record: the client registers it as its own. -/
  | register {v : Int → Option Proc} (c : Int) (e : Proc) (hv : v e.pid = none)
      (hc : e.regPid = c) (hvalid : e.valid = true) (hr₁ : oomScoreAdjMin ≤ e.oomadj)
      (hr₂ : e.oomadj ≤ oomScoreAdjMax) :
      ViewStep (.client c) v (Function.update v e.pid (some e.body))
  /-- `PROCPRIO` of a registered pid: the client takes the record and changes its score. -/
  | rescore {v : Int → Option Proc} (c pid : Int) {e : Proc} (he : v pid = some e)
      (hc : Claimable c e) (adj : Int) (hr₁ : oomScoreAdjMin ≤ adj)
      (hr₂ : adj ≤ oomScoreAdjMax) :
      ViewStep (.client c) v (Function.update v pid (some { e with oomadj := adj, regPid := c }))
  /-- `PROCREMOVE`, or one record of a `PROCPURGE`. -/
  | remove {v : Int → Option Proc} (c pid : Int) {e : Proc} (he : v pid = some e)
      (hc : Claimable c e) : ViewStep (.client c) v (Function.update v pid none)
  /-- A connection whose slot recorded the pid `c` closes: `remove_claims(c)` gives up every
  record `c` holds. -/
  | release (v : Int → Option Proc) (c : Int) :
      ViewStep (.client c) v fun pid => (v pid).map (Registry.release c)
  /-- The watchdog marks a record as not to be killed again. -/
  | invalidate {v : Int → Option Proc} (pid : Int) {e : Proc} (he : v pid = some e) :
      ViewStep .daemon v (Function.update v pid (some { e with valid := false }))
  /-- The kill path takes the record of `pid` out, for `cause`. -/
  | drop {v : Int → Option Proc} (cause : DropCause) (pid : Int) {e : Proc}
      (he : v pid = some e) : ViewStep .daemon v (Function.update v pid none)

/-- A run of the client protocol whose every step is by an actor of `A`. -/
def ViewRun (A : Set Actor) : (Int → Option Proc) → (Int → Option Proc) → Prop :=
  Relation.ReflTransGen fun v v' => ∃ a ∈ A, ViewStep a v v'

section Runs

variable {A B : Set Actor} {v v' : Int → Option Proc}

theorem ViewStep.run {a : Actor} (ha : a ∈ A) (h : ViewStep a v v') : ViewRun A v v' :=
  .single ⟨a, ha, h⟩

theorem ViewRun.mono (hAB : A ⊆ B) (h : ViewRun A v v') : ViewRun B v v' :=
  Relation.ReflTransGen.mono (fun _ _ ⟨a, ha, hs⟩ => ⟨a, hAB ha, hs⟩) h

end Runs

namespace Registry

variable {r : Registry} {S : Shape}

@[simp] theorem release_pid (c : Int) (p : Proc) : (release c p).pid = p.pid := by
  unfold release; split <;> rfl

theorem release_body (c : Int) (p : Proc) : (release c p).body = release c p.body := by
  by_cases h : p.regPid = c <;> simp [release, Proc.body, h]

/-- The chain walks of `remove_claims`' result are those of the registry before: releasing
keeps every pid and chain link. -/
theorem chainFind_releaseClaims (c pid : Int) :
    ∀ n prevp x, (r.releaseClaims c).chainFind pid n prevp x = r.chainFind pid n prevp x
  | 0, _, _ => rfl
  | _ + 1, _, none => rfl
  | n + 1, prevp, some a => by
    have hp : (r.releaseClaims c).procs a = (r.procs a).map (release c) := rfl
    simp only [chainFind, hp]
    cases r.procs a with
    | none => rfl
    | some p =>
      simp only [Option.map_some', release_pid, release_pidhashNext, chainFind_releaseClaims c pid n]

/-- Releasing the records of `c` releases them in the map. -/
theorem find_releaseClaims (c : Int) :
    (r.releaseClaims c).find = fun pid => (r.find pid).map (release c) := by
  funext pid
  have hl : (r.releaseClaims c).pidLookup pid = r.pidLookup pid :=
    congrArg Prod.snd (chainFind_releaseClaims c pid _ _ _)
  simp only [find, hl]
  cases r.pidLookup pid with
  | none => rfl
  | some a =>
    simp only [Option.some_bind, releaseClaims]
    cases r.procs a with
    | none => rfl
    | some p => exact congrArg some (release_body c p)

/-- A registry with records taken out finds, for each pid, what it found before or
nothing. -/
theorem Wf.find_of_shrinks {r' : Registry} {S' : Shape} (h : Wf r S) (h' : Wf r' S')
    (hs : Shrinks r r') (pid : Int) : r'.find pid = r.find pid ∨ r'.find pid = none := by
  cases hf : r'.find pid with
  | none => exact .inr rfl
  | some q =>
    obtain ⟨hq, a, ha⟩ := h'.find_eq_some.mp hf
    obtain ⟨p, hp, rfl⟩ := Option.map_eq_some'.mp ha
    obtain ⟨p', hp', e⟩ := hs a p hp
    exact .inl (h.find_eq_some.mpr ⟨hq, a, by rw [hp', ← e]; rfl⟩).symm

/-- A successful `claim_record` found a record the registrant may claim, and leaves it held
by the registrant. -/
theorem claimRecord_procs {a : Nat} {c : Int} {r' : Registry}
    (hc : r.claimRecord a c = (true, r')) :
    ∃ p, r.procs a = some p ∧ Claimable c p ∧
      ∀ b, r'.procs b = if b = a then some { p with regPid := c } else r.procs b := by
  unfold claimRecord at hc
  split at hc
  · cases hc
  · next p hp =>
    split at hc
    · next e =>
      cases hc
      refine ⟨p, hp, .inl e, fun b => ?_⟩
      split
      · next hb => rw [hb, hp, ← e]
      · rfl
    · split at hc <;> cases hc
      exact ⟨p, hp, .inr ‹_›, fun b => by rw [modifyProc_procs]; split <;> simp_all⟩

/-- `claim_record`, then the score change of `register_oom_adj_proc`: the registrant takes
the record and rescores it. -/
theorem Wf.viewStep_rescored (h : Wf r S) {a : Nat} {c adj : Int} {r' : Registry}
    (hc : r.claimRecord a c = (true, r')) (hr₁ : oomScoreAdjMin ≤ adj)
    (hr₂ : adj ≤ oomScoreAdjMax) : ViewStep (.client c) r.find (rescored a adj r').find := by
  obtain ⟨p, hp, hcl, hprocs⟩ := claimRecord_procs hc
  have hp' : r'.procs a = some { p with regPid := c } := by rw [hprocs, if_pos rfl]
  rw [h.find_change_at ((h.claimRecord hc).1.rescore hp' hr₁ hr₂) hp
    (o := some { p.body with oomadj := adj, regPid := c }) (fun _ e => by cases e; rfl) fun b => by
      rw [rescored_procs]
      split
      · rw [hp']; rfl
      · next hb => rw [hprocs, if_neg hb]]
  exact .rescore c p.pid (e := p.body) (h.find_eq_some.mpr ⟨rfl, a, by rw [hp]; rfl⟩) hcl adj hr₁ hr₂

/-- `claim_record`, then `pid_remove` of the record's pid: the registrant takes the record
and removes it. -/
theorem Wf.viewStep_claimRemove (h : Wf r S) {a : Nat} {c : Int} {r' : Registry}
    (hc : r.claimRecord a c = (true, r')) :
    ∃ p, r.procs a = some p ∧
      ViewStep (.client c) r.find (((r'.pidRemove p.pid).map Prod.fst).getD r').find := by
  obtain ⟨p, hp, hcl, hprocs⟩ := claimRecord_procs hc
  have hp' : r'.procs a = some { p with regPid := c } := by rw [hprocs, if_pos rfl]
  obtain ⟨r'', hr'', hr''a, hbody, -, hw''⟩ := (h.claimRecord hc).1.pidRemove_of_procs hp'
  have hrm : r'.pidRemove p.pid = some (r'', _) := hr''
  refine ⟨p, hp, ?_⟩
  rw [hrm, Option.map_some', Option.getD_some, h.find_change_at hw'' hp (o := none) (fun _ e => by cases e)
    fun b => by
      split
      · next hb => rw [hb, hr''a]; rfl
      · next hb => rw [hbody b hb, hprocs, if_neg hb]]
  exact .remove c p.pid (e := p.body) (h.find_eq_some.mpr ⟨rfl, a, by rw [hp]; rfl⟩) hcl

end Registry

open Registry

/-! ## The control socket -/

theorem viewRun_of_reg_eq {A : Set Actor} {s s' : Daemon} (e : s'.reg = s.reg) :
    ViewRun A s.reg.find s'.reg.find :=
  e ▸ .refl

/-- A loop of calls that each keep the invariant and act by the protocol acts by the
protocol. -/
theorem viewRun_foldl {α : Type} {A : Set Actor} (f : Daemon → α → Daemon)
    (hv : ∀ s a, s.reg.Valid → (f s a).reg.Valid)
    (hf : ∀ s a, s.reg.Valid → ViewRun A s.reg.find (f s a).reg.find) :
    ∀ (l : List α) (s : Daemon), s.reg.Valid → ViewRun A s.reg.find (l.foldl f s).reg.find
  | [], _, _ => .refl
  | a :: l, s, h => (hf s a h).trans (viewRun_foldl f hv hf l (f s a) (hv s a h))

section Ctrl

variable (w : CtrlWorld)

/-- `register_oom_adj_proc` registers a new pid for the sender, or rescores a record the
sender may claim. -/
theorem viewRun_registerOomAdjProc {s : Daemon} (h : s.reg.Valid) (proc : LmkProcprio)
    (cred : Ucred) (h₁ : oomScoreAdjMin ≤ proc.oomadj) (h₂ : proc.oomadj ≤ oomScoreAdjMax)
    (hpos : 0 < proc.pid) :
    ViewRun {.client cred.pid} s.reg.find (registerOomAdjProc w s proc cred).reg.find := by
  obtain ⟨S, hS⟩ := h
  have hadj : ∀ c : Prop, [Decidable c] → oomScoreAdjMin ≤ (if c then 200 else proc.oomadj) ∧
      (if c then 200 else proc.oomadj) ≤ oomScoreAdjMax := by
    intro c _
    split_ifs
    · decide
    · exact ⟨h₁, h₂⟩
  unfold registerOomAdjProc
  dsimp only
  split
  · exact viewRun_of_reg_eq (by simp)
  simp only [softLimitPath_reg]
  split
  · next hnone =>
    split
    · exact viewRun_of_reg_eq (by simp)
    split
    · exact viewRun_of_reg_eq (by simp)
    simp only [Daemon.ask_reg, openPidfd_reg, softLimitPath_reg]
    rw [hS.find_alloc_procInsert (hadj _).1 (hadj _).2 (hS.pidLookup_eq_none.mp hnone) hpos]
    refine ViewStep.run rfl (.register cred.pid _ ?_ rfl rfl (hadj _).1 (hadj _).2)
    simp [find, hnone]
  · split
    · exact viewRun_of_reg_eq (by simp)
    · next hc => exact (hS.viewStep_rescored hc (hadj _).1 (hadj _).2).run rfl

theorem viewRun_applyProcPrio {s : Daemon} (h : s.reg.Valid) (params : LmkProcprio)
    (cred : Ucred) : ViewRun {.client cred.pid} s.reg.find (applyProcPrio w s params cred).reg.find := by
  rcases applyProcPrio_cases w s params cred with ⟨n, e⟩ | ⟨h₁, h₂, hpos, n, e⟩ <;> rw [e]
  · exact .refl
  · exact viewRun_registerOomAdjProc w (s := { s with asked := n }) h params cred h₁ h₂ hpos

theorem viewRun_cmdProcsPrio {s : Daemon} (h : s.reg.Valid) (msg : Msg) (fieldCount : Int)
    (cred : Ucred) :
    ViewRun {.client cred.pid} s.reg.find (cmdProcsPrio w s msg fieldCount cred).reg.find := by
  unfold cmdProcsPrio
  split
  · exact .refl
  · exact viewRun_foldl _ (fun s params h => valid_applyProcPrio w h params cred)
      (fun s params h => viewRun_applyProcPrio w h params cred) _ _ h

end Ctrl

/-- `PROCREMOVE` removes the record of the pid, if the sender may claim it. -/
theorem viewRun_cmdProcremove {s : Daemon} (h : s.reg.Valid) (pid : Int) (cred : Ucred) :
    ViewRun {.client cred.pid} s.reg.find (cmdProcremove s pid cred).reg.find := by
  unfold cmdProcremove
  split
  · exact .refl
  split
  · exact .refl
  · next a hl =>
    split
    · exact .refl
    · next hc =>
      obtain ⟨S, hS⟩ := h
      obtain ⟨p, hp, hstep⟩ := hS.viewStep_claimRemove hc
      obtain ⟨p', hp', rfl⟩ := hS.pidLookup_eq_some.mp hl
      rw [hp] at hp'
      cases hp'
      rw [Daemon.pidRemove_reg]
      exact hstep.run rfl

/-- The walk of `PROCPURGE` along a chain removes, one by one, records the sender may
claim. -/
theorem viewRun_procpurgeChain (pid : Int) (n : Nat) :
    ∀ (s : Daemon) (x : Option Nat), s.reg.Valid →
      ViewRun {.client pid} s.reg.find (procpurgeChain pid n s x).reg.find := by
  induction n with
  | zero => intro s x _; exact .refl
  | succ n ih =>
    intro s x h
    cases x with
    | none => exact .refl
    | some a =>
      unfold procpurgeChain
      split
      · exact .refl
      · next p hp =>
        split
        · exact ih _ _ h
        · next hc =>
          obtain ⟨S, hS⟩ := h
          obtain ⟨p', hp', hstep⟩ := hS.viewStep_claimRemove hc
          rw [hp] at hp'
          cases hp'
          refine .head ⟨.client pid, rfl, ?_⟩
            (ih _ _ (Daemon.valid_pidRemove (hS.claimRecord hc).1.valid _))
          rw [Daemon.pidRemove_reg]
          exact hstep

theorem viewRun_cmdProcpurge {s : Daemon} (h : s.reg.Valid) (cred : Ucred) :
    ViewRun {.client cred.pid} s.reg.find (cmdProcpurge s cred).reg.find := by
  unfold cmdProcpurge
  split
  · exact .refl
  · exact viewRun_foldl _ (fun s i h => valid_procpurgeChain _ _ _ _ h)
      (fun s i h => viewRun_procpurgeChain _ _ _ _ h) _ _ h

/-- `ctrl_data_close` is the release of the records of the connection's last sender. -/
theorem viewStep_ctrlDataClose {s : Daemon} (h : s.reg.Valid) (i : Nat) :
    ViewStep (.client (s.dataSock i).pid) s.reg.find (ctrlDataClose s i).reg.find := by
  have e : (ctrlDataClose s i).reg.find =
      fun pid => (s.reg.find pid).map (release (s.dataSock i).pid) := by
    rw [ctrlDataClose_eq_release h]
    exact find_releaseClaims _
  rw [e]
  exact .release _ _

section Ctrl

variable (w : CtrlWorld)

theorem viewRun_ctrlDataRead {s : Daemon} (h : s.reg.Valid) (i : Nat) :
    ViewRun {.client (s.dataSock i).pid} s.reg.find (ctrlDataRead w s i).2.reg.find := by
  unfold ctrlDataRead
  dsimp only
  split
  · exact .refl
  · split
    · exact .refl
    · split
      · exact (viewStep_ctrlDataClose h i).run rfl
      · exact .refl

/-- The pids the data connections' slots recorded: who acts when connections close. -/
def slotActors (s : Daemon) : Set Actor := {a | ∃ j, a = .client (s.dataSock j).pid}

theorem mem_slotActors {s : Daemon} {c : Int} {j : Nat} (h : c = (s.dataSock j).pid) :
    Actor.client c ∈ slotActors s :=
  ⟨j, by rw [h]⟩

/-- The close of a slot whose pid is the one `s` recorded in it. -/
theorem viewRun_close_slot {s t : Daemon} {r : Registry} (hr : t.reg = r) (h : r.Valid)
    (i : Nat) (hp : (t.dataSock i).pid = (s.dataSock i).pid) :
    ViewRun (slotActors s) r.find (ctrlDataClose t i).reg.find :=
  hr ▸ (viewStep_ctrlDataClose (hr ▸ h) i).run (mem_slotActors hp)

/-- A close keeps the pid of every slot. -/
theorem ctrlDataClose_dataSock_pid (s : Daemon) (i j : Nat) :
    ((ctrlDataClose s i).dataSock j).pid = (s.dataSock j).pid := by
  unfold ctrlDataClose closeDataSock
  by_cases h : j = i
  · subst h; simp
  · simp only [Function.update_noteq h]; rfl

theorem foldl_ctrlDataClose_dataSock_pid (j : Nat) :
    ∀ (l : List Nat) (s : Daemon), ((l.foldl ctrlDataClose s).dataSock j).pid = (s.dataSock j).pid
  | [], _ => rfl
  | i :: l, s => by
    rw [List.foldl_cons, foldl_ctrlDataClose_dataSock_pid j l, ctrlDataClose_dataSock_pid]

/-- Closes of connections release records of the pids the slots recorded. -/
theorem viewRun_foldl_ctrlDataClose {s : Daemon} (h : s.reg.Valid) (l : List Nat) :
    ViewRun (slotActors s) s.reg.find (l.foldl ctrlDataClose s).reg.find := by
  suffices ∀ (l : List Nat) (t : Daemon), t.reg.Valid →
      (∀ j, (t.dataSock j).pid = (s.dataSock j).pid) →
      ViewRun (slotActors s) t.reg.find (l.foldl ctrlDataClose t).reg.find from
    this l s h fun _ => rfl
  intro l
  induction l with
  | nil => exact fun _ _ _ => .refl
  | cons i l ih =>
    intro t ht hp
    rw [List.foldl_cons]
    exact (viewRun_close_slot rfl ht i (hp i)).trans
      (ih (ctrlDataClose t i) (valid_ctrlDataClose ht i) fun j => by
        rw [ctrlDataClose_dataSock_pid, hp])

theorem freeSlot_dataSock_pid (s : Daemon) (j : Nat) :
    ((freeSlot s).2.dataSock j).pid = (s.dataSock j).pid := by
  unfold freeSlot
  split
  · rfl
  · exact foldl_ctrlDataClose_dataSock_pid j _ s

/-- `ctrl_connect_handler` ends with the state `freeSlot` left, up to the sockets of the slot
it took, or with the close of that slot, whose pid it left as it was. -/
theorem ctrlConnectHandler_eq (s : Daemon) :
    ∃ t : Daemon,
      (ctrlConnectHandler w s = t ∨ ctrlConnectHandler w s = ctrlDataClose t (freeSlot s).1) ∧
      t.reg = (freeSlot s).2.reg ∧
      (t.dataSock (freeSlot s).1).pid = ((freeSlot s).2.dataSock (freeSlot s).1).pid := by
  unfold ctrlConnectHandler
  dsimp only
  split
  · exact ⟨_, .inl rfl, rfl, by simp [Daemon.ask]⟩
  · split
    · exact ⟨_, .inr rfl, rfl, by simp [Daemon.epollCtlAdd, Daemon.ask]⟩
    · exact ⟨_, .inl rfl, rfl, by simp [Daemon.epollCtlAdd, Daemon.ask]⟩

theorem viewRun_ctrlConnectHandler {s : Daemon} (h : s.reg.Valid) :
    ViewRun (slotActors s) s.reg.find (ctrlConnectHandler w s).reg.find := by
  have v₀ : ViewRun (slotActors s) s.reg.find (freeSlot s).2.reg.find := by
    unfold freeSlot
    split
    · exact .refl
    · exact viewRun_foldl_ctrlDataClose h _
  obtain ⟨t, e | e, ht, hp⟩ := ctrlConnectHandler_eq w s <;> rw [e]
  · rw [ht]; exact v₀
  · exact v₀.trans (viewRun_close_slot ht (valid_freeSlot h) _
      (hp.trans (freeSlot_dataSock_pid s _)))

/-- Who acts in the handling of a message on data connection `i`: the pid the slot
recorded, whose records a message without credentials releases as it closes the
connection, and the message's sender. -/
def commandActors (w : CtrlWorld) (s : Daemon) (i : Nat) : Set Actor :=
  {a | a = .client (s.dataSock i).pid ∨
    ∃ msg cred, (ctrlDataRead w s i).1 = some (msg, cred) ∧ a = .client cred.pid}

theorem RegCommand.viewRun {s s' : Daemon} {cred : Ucred} (hc : RegCommand w s cred s')
    (h : s.reg.Valid) : ViewRun {.client cred.pid} s.reg.find s'.reg.find := by
  cases hc with
  | procprio params => exact viewRun_applyProcPrio w h params cred
  | procremove pid => exact viewRun_cmdProcremove h pid cred
  | procpurge => exact viewRun_cmdProcpurge h cred
  | procsPrio msg fieldCount => exact viewRun_cmdProcsPrio w h msg fieldCount cred

theorem viewRun_ctrlCommandHandler {s s' : Daemon} (h : s.reg.Valid) (i : Nat)
    (he : ctrlCommandHandler w s i = some s') :
    ViewRun (commandActors w s i) s.reg.find s'.reg.find := by
  have vr := (viewRun_ctrlDataRead w h i).mono (B := commandActors w s i) fun _ ha => .inl ha
  rcases ctrlCommandHandler_cases w he with hu | ⟨msg, cred, hread, hc⟩
  · rw [hu.1]; exact vr
  · exact vr.trans ((hc.viewRun w (valid_ctrlDataRead w h i)).mono fun a ha =>
      .inr ⟨msg, cred, hread, ha⟩)

end Ctrl

/-- `r'` follows `r` by the kill path's removals, and satisfies the invariant. -/
def KillView (r r' : Registry) : Prop := r'.Valid ∧ ViewRun {.daemon} r.find r'.find

namespace KillView

variable {r r₁ r₂ r₃ : Registry}

theorem refl (h : r.Valid) : KillView r r := ⟨h, .refl⟩

theorem trans (h₁ : KillView r₁ r₂) (h₂ : KillView r₂ r₃) : KillView r₁ r₃ :=
  ⟨h₂.1, h₁.2.trans h₂.2⟩

end KillView

/-- `pid_remove` takes the entry of its pid out, if it has one, for `cause`. -/
theorem killView_pidRemove (cause : DropCause) {r : Registry} (h : r.Valid) (pid : Int) :
    KillView r (((r.pidRemove pid).map Prod.fst).getD r) := by
  refine ⟨h.pidRemove pid, ?_⟩
  obtain ⟨S, hS⟩ := h
  cases he : r.pidRemove pid with
  | none => exact .refl
  | some x =>
    rw [Option.map_some', Option.getD_some, hS.find_of_pidRemove he]
    exact ViewStep.run rfl (.drop cause pid (hS.find_pidRemove he pid).1)

section KillPath

variable (w : KillWorld)

/-- The walk of `proc_get_heaviest` drops the records whose size it reads as negative. -/
theorem killView_procGetHeaviestLoop (head : Ptr) :
    ∀ n (s : Daemon) curr maxp maxsize, s.reg.Valid →
      KillView s.reg (procGetHeaviestLoop w head n s curr maxp maxsize).1.reg
  | 0, s, _, _, _, h => .refl h
  | n + 1, s, curr, maxp, maxsize, h => by
    unfold procGetHeaviestLoop
    split
    · exact .refl h
    split
    · exact .refl h
    rename_i a _
    dsimp only
    split
    · have h₁ : KillView s.reg ((procGetSize w s (pidAt s.reg a)).2.pidRemove
          (pidAt s.reg a)).1.reg := by
        rw [Daemon.pidRemove_reg]; exact killView_pidRemove .gone h _
      exact h₁.trans (killView_procGetHeaviestLoop head n _ _ _ _ h₁.1)
    split
    · exact killView_procGetHeaviestLoop head n _ _ _ _ h
    · exact killView_procGetHeaviestLoop head n _ _ _ _ h

theorem killView_procGetHeaviest {s : Daemon} (h : s.reg.Valid) (adj : Int) :
    KillView s.reg (procGetHeaviest w s adj).1.reg := by
  unfold procGetHeaviest
  dsimp only
  split
  · exact .refl h
  · exact killView_procGetHeaviestLoop w _ _ s _ _ _ h

/-- `kill_one_process` drops the record it was called with, or leaves the registry alone. -/
theorem killView_killOneProcess {s : Daemon} (h : s.reg.Valid) (a : Nat) (m : Int)
    (tm : Timespec) : KillView s.reg (killOneProcess w s a m tm).1.reg := by
  cases hp : s.reg.procs a with
  | none => unfold killOneProcess; rw [hp]; exact .refl h
  | some p =>
    rcases (killOneProcess_spec w s m tm hp).1 with e | e <;> rw [e]
    · exact .refl h
    · exact killView_pidRemove .killed h p.pid

theorem killView_findAndKillAt (m : Int) (tm : Timespec) (heaviest : Bool) (i : Int) :
    ∀ n (s : Daemon) k, s.reg.Valid →
      KillView s.reg (findAndKillAt w m tm heaviest i n s k).1.reg
  | 0, s, _, h => .refl h
  | n + 1, s, k, h => by
    have h₁ : KillView s.reg
        (if heaviest then procGetHeaviest w s i else (s, procAdjTail s.reg i)).1.reg := by
      split
      · exact killView_procGetHeaviest w h i
      · exact .refl h
    simp only [findAndKillAt]
    generalize (if heaviest then procGetHeaviest w s i else (s, procAdjTail s.reg i)) = res
      at h₁
    obtain ⟨s₁, _ | a⟩ := res
    · exact h₁
    have h₂ := h₁.trans (killView_killOneProcess w h₁.1 a m tm)
    dsimp only
    split
    · exact h₂
    · exact h₂.trans (killView_findAndKillAt m tm heaviest i n _ _ h₂.1)

theorem killView_findAndKillLoop (m : Int) (tm : Timespec) :
    ∀ n ch (s : Daemon) k s' k', s.reg.Valid → findAndKillLoop w m tm n ch s k = some (s', k') →
      KillView s.reg s'.reg
  | 0, _, s, _, _, _, h, he => by cases he; exact .refl h
  | n + 1, ch, s, k, s', k', h, he => by
    simp only [findAndKillLoop] at he
    split at he
    · cases he
    have h₁ := killView_findAndKillAt w m tm (ch || decide (m + n ≤ perceptibleAppAdj)) (m + n)
      (s.reg.brk + 1) s k h
    split at he
    · cases he; exact h₁
    · exact h₁.trans (killView_findAndKillLoop m tm n _ _ _ s' k' h₁.1 he)

/-- `find_and_kill_process` takes records out one at a time, each because its process was
gone or `kill_one_process` was called with it. -/
theorem killView_findAndKillProcess {s s' : Daemon} (h : s.reg.Valid) {m : Int} (tm : Timespec)
    {k : Int} (he : findAndKillProcess w s m tm = some (s', k)) : KillView s.reg s'.reg :=
  killView_findAndKillLoop w m tm _ _ s 0 s' k h he

end KillPath

/-- The watchdog's `pid_invalidate` marks the record of its pid, if it has one. -/
theorem viewRun_pidInvalidate {r : Registry} (h : r.Valid) (pid : Int) :
    ViewRun {.daemon} r.find (r.pidInvalidate pid).find := by
  obtain ⟨S, hS⟩ := h
  unfold pidInvalidate
  split
  · exact .refl
  · next a hl =>
    obtain ⟨p, hp, rfl⟩ := hS.pidLookup_eq_some.mp hl
    rw [hS.find_modifyProc hp (f := fun q => { q with valid := false }) fun _ => ⟨rfl, rfl, rfl⟩]
    exact ViewStep.run rfl (.invalidate _ (hS.find_eq_some.mpr ⟨rfl, a, by rw [hp]; rfl⟩))

/-! ## Steps of the main loop -/

/-- A step of the main loop, with who it lets act on the registry: nobody, the sender of a
message and the pid its slot recorded, the pids of the slots a new connection closes, the
pid of a slot that hangs up, or the kill path. -/
inductive LoopActs : Set Actor → Daemon → Daemon → Prop
  | beside {s s' : Daemon} (h : LoopStep s s') (hr : s'.reg = s.reg) : LoopActs ∅ s s'
  | command {s s' : Daemon} (w : CtrlWorld) (i : Nat) (h : ctrlCommandHandler w s i = some s') :
      LoopActs (commandActors w s i) s s'
  | connect (s : Daemon) (w : CtrlWorld) : LoopActs (slotActors s) s (ctrlConnectHandler w s)
  | close (s : Daemon) (i : Nat) : LoopActs {.client (s.dataSock i).pid} s (ctrlDataClose s i)
  | findAndKill {s s' : Daemon} (w : KillWorld) (m : Int) (tm : Timespec) (k : Int)
      (h : findAndKillProcess w s m tm = some (s', k)) : LoopActs {.daemon} s s'

/-- From a registry satisfying the invariant, a step of the main loop moves the map by
protocol steps of the actors it lets act. -/
theorem LoopActs.viewRun {A : Set Actor} {s s' : Daemon} (h : LoopActs A s s')
    (hv : s.reg.Valid) : ViewRun A s.reg.find s'.reg.find := by
  cases h with
  | beside _ hr => rw [hr]; exact .refl
  | command w i he => exact viewRun_ctrlCommandHandler w hv i he
  | connect _ w => exact viewRun_ctrlConnectHandler w hv
  | close _ i => exact (viewStep_ctrlDataClose hv i).run rfl
  | findAndKill w m tm k he => exact (killView_findAndKillProcess w hv tm he).2

end Lmkd
