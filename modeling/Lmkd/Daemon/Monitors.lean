import Lmkd.Daemon.Quiet

/-!
# Setting up the memory-pressure monitors

`init_monitors` registers one monitor per pressure level with `epollfd`: a PSI trigger
through `init_psi_monitors` when the kernel has PSI and `ro.lmk.use_psi` allows it, and
otherwise the vmpressure eventfds of the memory cgroup through `init_mp_common`.
`destroy_monitors` takes them out again. `init_memevent_listener_monitoring` registers the
ring buffer of the BPF memevent listener. The control commands `UPDATE_PROPS`,
`START_MONITORING` and `BOOT_COMPLETED` are the callers after start-up.

What the property store, the kernel and the listener answer is a `MonitorWorld`. None of
this touches the registry or the kill counters, and nothing here records a victim.
-/

namespace Lmkd

/-- What the set-up of the monitors asks of its environment. -/
structure MonitorWorld where
  /-- The property store, read by `GET_LMK_PROPERTY` and `property_get_bool`. -/
  store : PropStore
  /-- Whether `memcg_version()` is `MemcgVersion::kV1`. -/
  memcgV1 : Bool
  /-- `init_psi_monitor(...)`: a descriptor, negative on failure. -/
  psiMonitor : Nat → Int
  /-- The descriptors `init_mp_common` gets from its two `open`s and its `eventfd`, in that
  order; negative on failure. -/
  openFd : Nat → Int
  /-- Whether the write of the line to `cgroup.event_control` succeeds. -/
  writeEventControl : Nat → Bool
  /-- The kernel's answer to an `EPOLL_CTL_ADD`. -/
  epollCtlAdd : Nat → Bool
  /-- Whether a new memevent listener reports `ok()`. -/
  memeventOk : Nat → Bool
  /-- The listener's answers to `registerEvent(...)`. -/
  registerEvent : Nat → Bool
  /-- `memevent_listener->getRingBufferFd()`. -/
  ringBufferFd : Nat → Int

/-- A system without PSI, cgroups v1 or memevents, and with no property set: every set-up
fails. -/
def MonitorWorld.bare : MonitorWorld where
  store := ⟨fun _ => none, fun _ => none⟩
  memcgV1 := false
  psiMonitor := fun _ => -1
  openFd := fun _ => -1
  writeEventControl := fun _ => false
  epollCtlAdd := fun _ => false
  memeventOk := fun _ => false
  registerEvent := fun _ => false
  ringBufferFd := fun _ => -1

namespace Daemon

/-- Apply `f` to the statics of the monitors. -/
def setMon (s : Daemon) (f : Monitors → Monitors) : Daemon := { s with mon := f s.mon }

@[simp] theorem setMon_reg (s : Daemon) (f : Monitors → Monitors) : (s.setMon f).reg = s.reg :=
  rfl

@[simp] theorem setMon_trace (s : Daemon) (f : Monitors → Monitors) :
    (s.setMon f).trace = s.trace := rfl

theorem untouched_setMon (s : Daemon) (f : Monitors → Monitors) : Untouched s (s.setMon f) :=
  untouched_of_frame rfl rfl rfl

end Daemon

open Daemon

variable (w : MonitorWorld)

/-! ## PSI monitors -/

/-- `init_mp_psi(level, use_new_strategy)`: no monitor for a level without a threshold. -/
def initMpPsi (level : Nat) (useNewStrategy : Bool) (s : Daemon) : Bool × Daemon :=
  if s.mon.psiThresholdMs level = 0 then (true, s)
  else
    let (fd, s) := s.ask w.psiMonitor
    if fd < 0 then (false, s)
    else
      let s := s.setMon fun m =>
        { m with psiHandler := Function.update m.psiHandler level useNewStrategy }
      let (ok, s) := s.epollCtlAdd w.epollCtlAdd fd (.mpEvent level)
      if !ok then (false, s.close fd)
      else
        (true, { s with maxevents := s.maxevents + 1 }.setMon fun m =>
          { m with mpevfd := Function.update m.mpevfd level fd })

/-- `destroy_mp_psi(level)`. -/
def destroyMpPsi (level : Nat) (s : Daemon) : Daemon :=
  let fd := s.mon.mpevfd level
  if fd < 0 then s
  else
    let s := { (s.epollCtlDel fd).2 with maxevents := s.maxevents - 1 }.close fd
    s.setMon fun m => { m with mpevfd := Function.update m.mpevfd level (-1) }

/-- The thresholds of the new strategy: none for the low level, the partial and the complete
stall of the tunables for the medium and the critical level. -/
def Daemon.newStrategyThresholds (s : Daemon) : Daemon :=
  s.setMon fun m => { m with psiThresholdMs := fun
    | 0 => 0
    | 1 => s.props.psiPartialStallMs
    | _ => s.props.psiCompleteStallMs }

/-- `init_psi_monitors()`. The old strategy needs the memory cgroup of cgroups v1; the new
one does not use the low level and takes the stall thresholds of the tunables. -/
def initPsiMonitors (s : Daemon) : Bool × Daemon :=
  let useNewStrategy := w.store.lmkBool "use_new_strategy"
    (s.props.lowRamDevice || !s.props.useMinfreeLevels)
  if !useNewStrategy && !w.memcgV1 then (false, s)
  else
    let s := if useNewStrategy then s.newStrategyThresholds else s
    match initMpPsi w 0 useNewStrategy s with
    | (false, s) => (false, s)
    | (true, s) =>
      match initMpPsi w 1 useNewStrategy s with
      | (false, s) => (false, destroyMpPsi 0 s)
      | (true, s) =>
        match initMpPsi w 2 useNewStrategy s with
        | (false, s) => (false, destroyMpPsi 0 (destroyMpPsi 1 s))
        | (true, s) => (true, s)

/-! ## vmpressure monitors -/

/-- `init_mp_common(level)`: the pressure file and the event control file of the memory
cgroup are opened, an eventfd is tied to the level by a line written to the event control
file, and the eventfd is registered. The line, three numbers and a level name, always fits
its 256-byte buffer. On success the pressure file stays open. -/
def initMpCommon (level : Nat) (s : Daemon) : Bool × Daemon :=
  if !w.memcgV1 then (false, s)
  else
    let (mpfd, s) := s.ask w.openFd
    if mpfd < 0 then (false, s)
    else
      let (evctlfd, s) := s.ask w.openFd
      if evctlfd < 0 then (false, s.close mpfd)
      else
        let (evfd, s) := s.ask w.openFd
        if evfd < 0 then (false, (s.close evctlfd).close mpfd)
        else
          let (written, s) := s.ask w.writeEventControl
          if !written then (false, ((s.close evfd).close evctlfd).close mpfd)
          else
            let s := s.setMon fun m =>
              { m with psiHandler := Function.update m.psiHandler level false }
            let (ok, s) := s.epollCtlAdd w.epollCtlAdd evfd (.mpEvent level)
            if !ok then (false, ((s.close evfd).close evctlfd).close mpfd)
            else
              (true, ({ s with maxevents := s.maxevents + 1 }.setMon fun m =>
                { m with mpevfd := Function.update m.mpevfd level evfd }).close evctlfd)

/-- `destroy_mp_common(level)`. -/
def destroyMpCommon (level : Nat) (s : Daemon) : Daemon :=
  let fd := s.mon.mpevfd level
  if fd < 0 then s
  else
    let s := { (s.epollCtlDel fd).2 with maxevents := s.maxevents - 1 }.close fd
    s.setMon fun m => { m with mpevfd := Function.update m.mpevfd level (-1) }

/-- The fallback of `init_monitors`: `init_mp_common` for the low, the medium and the
critical level, up to the first failure. -/
def initMpCommonLevels (s : Daemon) : Bool × Daemon :=
  match initMpCommon w 0 s with
  | (false, s) => (false, s)
  | (true, s) =>
    match initMpCommon w 1 s with
    | (false, s) => (false, s)
    | (true, s) => initMpCommon w 2 s

/-! ## The monitors -/

/-- `init_monitors()`: PSI monitors if `ro.lmk.use_psi` (default `true`) allows them and
they can be set up, else vmpressure monitors. -/
def initMonitors (s : Daemon) : Bool × Daemon :=
  let (usePsi, s) :=
    if w.store.lmkBool "use_psi" true then initPsiMonitors w s else (false, s)
  let s := s.setMon fun m => { m with usePsiMonitors := usePsi }
  let (ok, s) := if usePsi then (true, s) else initMpCommonLevels w s
  if ok then (true, s.setMon fun m => { m with monitorsInitialized := true }) else (false, s)

/-- `destroy_monitors()`, from the critical level down. -/
def destroyMonitors (s : Daemon) : Daemon :=
  if s.mon.usePsiMonitors then destroyMpPsi 0 (destroyMpPsi 1 (destroyMpPsi 2 s))
  else destroyMpCommon 0 (destroyMpCommon 1 (destroyMpCommon 2 s))

/-- The `registerEvent` calls of `init_memevent_listener_monitoring`: the begin and the end
of direct reclaim and the wake and the sleep of kswapd are needed, the vendor kill event is
optional, and whether zoneinfo updates are supported is recorded. -/
def registerMemEvents (s : Daemon) : Bool × Daemon :=
  let (begin, s) := s.ask w.registerEvent
  let (stop, s) := if begin then s.ask w.registerEvent else (false, s)
  if !stop then (false, s)
  else
    let (wake, s) := s.ask w.registerEvent
    let (sleep, s) := if wake then s.ask w.registerEvent else (false, s)
    if !sleep then (false, s)
    else
      let (_, s) := s.ask w.registerEvent
      let (zoneinfo, s) := s.ask w.registerEvent
      (true, s.setMon fun m => { m with memEventUpdateZoneinfoSupported := zoneinfo })

/-- `init_memevent_listener_monitoring()`. A listener that fails a step is dropped. -/
def initMemeventListenerMonitoring (s : Daemon) : Bool × Daemon :=
  if s.mon.memeventListener then (true, s)
  else
    let (ok, s) := s.ask w.memeventOk
    if !ok then (false, s)
    else
      match registerMemEvents w s with
      | (false, s) => (false, s)
      | (true, s) =>
        let (fd, s) := s.ask w.ringBufferFd
        if fd < 0 then (false, s)
        else
          let (added, s) := s.epollCtlAdd w.epollCtlAdd fd .memevent
          if !added then (false, s)
          else
            (true, { s with maxevents := s.maxevents + 1 }.setMon fun m =>
              { m with directReclaimStartTm := Timespec.zero, memeventListener := true })

/-! ## Beside the registry -/

section Untouched

theorem untouched_initMpPsi (level : Nat) (b : Bool) (s : Daemon) :
    Untouched s (initMpPsi w level b s).2 := by
  unfold initMpPsi
  split
  · exact .refl s
  split
  next fd s₁ e₁ =>
  have h₁ := (untouched_ask s _).of_eq e₁
  split
  · exact h₁
  dsimp only
  split
  · exact ((h₁.trans (untouched_setMon _ _)).trans (untouched_epollCtlAdd _ _ _)).trans
      (untouched_close _)
  · exact (((h₁.trans (untouched_setMon _ _)).trans (untouched_epollCtlAdd _ _ _)).setMaxevents
      _).trans (untouched_setMon _ _)

theorem untouched_destroyMpPsi (level : Nat) (s : Daemon) :
    Untouched s (destroyMpPsi level s) := by
  unfold destroyMpPsi
  dsimp only
  split
  · exact .refl s
  · exact (((untouched_epollCtlDel _).setMaxevents _).trans (untouched_close _)).trans
      (untouched_setMon _ _)

theorem untouched_initPsiMonitors (s : Daemon) : Untouched s (initPsiMonitors w s).2 := by
  unfold initPsiMonitors
  dsimp only
  split
  · exact .refl s
  generalize w.store.lmkBool "use_new_strategy"
    (s.props.lowRamDevice || !s.props.useMinfreeLevels) = b
  have h₁ : Untouched s (if b = true then s.newStrategyThresholds else s) := by
    split
    · exact untouched_setMon _ _
    · exact .refl s
  generalize (if b = true then s.newStrategyThresholds else s) = s₁ at h₁
  have hi := fun level t => untouched_initMpPsi w level b t
  split
  next s₂ e₂ => exact (h₁.trans (hi 0 s₁)).of_eq e₂
  next s₂ e₂ =>
  have h₂ := (h₁.trans (hi 0 s₁)).of_eq e₂
  split
  next s₃ e₃ => exact ((h₂.trans (hi 1 s₂)).of_eq e₃).trans (untouched_destroyMpPsi 0 s₃)
  next s₃ e₃ =>
  have h₃ := (h₂.trans (hi 1 s₂)).of_eq e₃
  split
  next s₄ e₄ =>
    exact ((h₃.trans (hi 2 s₃)).of_eq e₄).trans
      ((untouched_destroyMpPsi 1 s₄).trans (untouched_destroyMpPsi 0 _))
  next s₄ e₄ => exact (h₃.trans (hi 2 s₃)).of_eq e₄

theorem untouched_initMpCommon (level : Nat) (s : Daemon) :
    Untouched s (initMpCommon w level s).2 := by
  unfold initMpCommon
  dsimp only
  have a₁ := untouched_ask s w.openFd
  have a₂ := a₁.trans (untouched_ask _ w.openFd)
  have a₃ := a₂.trans (untouched_ask _ w.openFd)
  have a₄ := a₃.trans (untouched_ask _ w.writeEventControl)
  split_ifs
  · exact .refl s
  · exact a₁
  · exact a₂.trans (untouched_close _)
  · exact (a₃.trans (untouched_close _)).trans (untouched_close _)
  · exact ((a₄.trans (untouched_close _)).trans (untouched_close _)).trans (untouched_close _)
  · exact ((((a₄.trans (untouched_setMon _ _)).trans (untouched_epollCtlAdd _ _ _)).trans
      (untouched_close _)).trans (untouched_close _)).trans (untouched_close _)
  · exact (((((a₄.trans (untouched_setMon _ _)).trans (untouched_epollCtlAdd _ _ _)).setMaxevents
      _).trans (untouched_setMon _ _))).trans (untouched_close _)

theorem untouched_destroyMpCommon (level : Nat) (s : Daemon) :
    Untouched s (destroyMpCommon level s) := by
  unfold destroyMpCommon
  dsimp only
  split
  · exact .refl s
  · exact (((untouched_epollCtlDel _).setMaxevents _).trans (untouched_close _)).trans
      (untouched_setMon _ _)

/-- A set-up that succeeded records it in the statics. -/
theorem Daemon.Untouched.ite_setMon {s : Daemon} {p : Bool × Daemon} (h : Untouched s p.2)
    (f : Monitors → Monitors) :
    Untouched s (if p.1 = true then (true, p.2.setMon f) else (false, p.2)).2 := by
  split
  · exact h.trans (untouched_setMon _ _)
  · exact h

theorem untouched_initMpCommonLevels (s : Daemon) :
    Untouched s (initMpCommonLevels w s).2 := by
  unfold initMpCommonLevels
  have hi := untouched_initMpCommon w
  split
  next s₁ e₁ => exact (hi 0 s).of_eq e₁
  next s₁ e₁ =>
  have h₁ := (hi 0 s).of_eq e₁
  split
  next s₂ e₂ => exact (h₁.trans (hi 1 s₁)).of_eq e₂
  next s₂ e₂ => exact ((h₁.trans (hi 1 s₁)).of_eq e₂).trans (hi 2 s₂)

theorem untouched_initMonitors (s : Daemon) : Untouched s (initMonitors w s).2 := by
  unfold initMonitors
  have h₁ : Untouched s
      (if w.store.lmkBool "use_psi" true then initPsiMonitors w s else (false, s)).2 := by
    split
    · exact untouched_initPsiMonitors w s
    · exact .refl s
  generalize (if w.store.lmkBool "use_psi" true then initPsiMonitors w s else (false, s)) = r
    at h₁
  obtain ⟨usePsi, s₁⟩ := r
  dsimp only at h₁ ⊢
  have h₂ : ∀ f, Untouched s
      (if usePsi then (true, s₁.setMon f) else initMpCommonLevels w (s₁.setMon f)).2 := by
    intro f
    split
    · exact h₁.trans (untouched_setMon _ _)
    · exact (h₁.trans (untouched_setMon _ _)).trans (untouched_initMpCommonLevels w _)
  exact (h₂ _).ite_setMon _

theorem untouched_destroyMonitors (s : Daemon) : Untouched s (destroyMonitors s) := by
  unfold destroyMonitors
  split
  · exact ((untouched_destroyMpPsi 2 s).trans (untouched_destroyMpPsi 1 _)).trans
      (untouched_destroyMpPsi 0 _)
  · exact ((untouched_destroyMpCommon 2 s).trans (untouched_destroyMpCommon 1 _)).trans
      (untouched_destroyMpCommon 0 _)

/-- A question asked only if `b`. -/
theorem untouched_ask_if (b : Bool) (q : Nat → Bool) (s : Daemon) :
    Untouched s (if b then s.ask q else (false, s)).2 := by
  split
  · exact untouched_ask s q
  · exact .refl s

theorem untouched_registerMemEvents (s : Daemon) : Untouched s (registerMemEvents w s).2 := by
  unfold registerMemEvents
  generalize hx : s.ask w.registerEvent = x
  obtain ⟨b₁, s₁⟩ := x
  dsimp only
  have h₂ := ((untouched_ask s _).of_eq hx).trans (untouched_ask_if b₁ w.registerEvent s₁)
  generalize (if b₁ = true then s₁.ask w.registerEvent else (false, s₁)) = y at h₂
  obtain ⟨b₂, s₂⟩ := y
  dsimp only at h₂ ⊢
  split
  · exact h₂
  generalize hz : s₂.ask w.registerEvent = z
  obtain ⟨b₃, s₃⟩ := z
  dsimp only
  have h₄ := (h₂.trans ((untouched_ask s₂ _).of_eq hz)).trans
    (untouched_ask_if b₃ w.registerEvent s₃)
  generalize (if b₃ = true then s₃.ask w.registerEvent else (false, s₃)) = v at h₄
  obtain ⟨b₄, s₄⟩ := v
  dsimp only at h₄ ⊢
  split
  · exact h₄
  · exact ((h₄.trans (untouched_ask _ _)).trans (untouched_ask _ _)).trans (untouched_setMon _ _)

theorem untouched_initMemeventListenerMonitoring (s : Daemon) :
    Untouched s (initMemeventListenerMonitoring w s).2 := by
  unfold initMemeventListenerMonitoring
  split
  · exact .refl s
  dsimp only
  have h₁ := untouched_ask s w.memeventOk
  split
  · exact h₁
  have h₂ := h₁.trans (untouched_registerMemEvents w _)
  split
  next s₂ e₂ => exact h₂.of_eq e₂
  next s₂ e₂ =>
  have h₃ := (h₂.of_eq e₂).trans (untouched_ask s₂ w.ringBufferFd)
  split
  · exact h₃
  have h₄ := h₃.trans (untouched_epollCtlAdd w.epollCtlAdd (s₂.ask w.ringBufferFd).1 .memevent)
  split
  · exact h₄
  · exact (h₄.setMaxevents _).trans (untouched_setMon _ _)

end Untouched

end Lmkd
