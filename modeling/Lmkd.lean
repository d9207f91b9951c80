import Lmkd.Basic
import Lmkd.Props
import Lmkd.Status
import Lmkd.Registry.Heap
import Lmkd.Registry.Shape
import Lmkd.Registry.Invariant
import Lmkd.Registry.Claims
import Lmkd.Registry.Map
import Lmkd.Daemon.State
import Lmkd.Daemon.Quiet
import Lmkd.Daemon.Monitors
import Lmkd.Daemon.Killcnt
import Lmkd.Daemon.Kill
import Lmkd.Daemon.Victim
import Lmkd.Daemon.Heaviest
import Lmkd.Daemon.Ctrl
import Lmkd.Daemon.Run
import Lmkd.Daemon.Purge
import Lmkd.Daemon.Engine
import Lmkd.Daemon.Mainloop
import Lmkd.Daemon.LoopRuns
import Lmkd.Daemon.KillCount
import Lmkd.Daemon.Polling
import Lmkd.Daemon.Registered
import Lmkd.Daemon.ClientView
import Lmkd.Daemon.PsiDecision
import Lmkd.Daemon.Reread
import Lmkd.Daemon.Zoneinfo
import Lmkd.Daemon.ZoneinfoFormat
import Lmkd.Daemon.MemStats
import Lmkd.Daemon.Watchdog
