import PeerNode.Sniper

/-!
# The configuration

`Config.h` and the part of `Config.cpp` that reads the configuration file. A `ConfigFile`
is what libconfig answers: a group is there or not, and each `lookupValue` finds a value of
the type asked for or leaves the variable as it was. Settings that are only printed, or
handed to the HTTP library, are left out.

`_thread_queue_size` is computed here, once, by an integer division; a zero divisor is a
fault the model shows as no configuration at all.
-/

namespace PeerNode

/-- The group `core`. -/
structure CoreGroup where
  threads : Option UInt32 := none
  queueSize : Option UInt32 := none
deriving DecidableEq, Repr

/-- The group `stats`. -/
structure StatsGroup where
  intervalSeconds : Option UInt32 := none
  url : Option String := none
  dumpStdout : Option Bool := none
  send : Option Bool := none
deriving DecidableEq, Repr

/-- The group `http.server`. -/
structure ServerGroup where
  ip : Option String := none
  port : Option UInt32 := none
deriving DecidableEq, Repr

/-- The group `http.client`. -/
structure ClientGroup where
  retries : Option UInt32 := none
deriving DecidableEq, Repr

/-- The group `http`. -/
structure HttpGroup where
  server : Option ServerGroup := none
  client : Option ClientGroup := none
deriving DecidableEq, Repr

/-- A configuration file, as libconfig answers for it. -/
structure ConfigFile where
  core : Option CoreGroup := none
  stats : Option StatsGroup := none
  http : Option HttpGroup := none
deriving DecidableEq, Repr

/-- `class Config`, its members with their defaults. -/
structure Config where
  ip : String := ""
  portSetting : UInt32 := 8080
  threadsCount : UInt32 := 1
  statsSendInterval : UInt32 := 1
  statsDumpStdout : Bool := false
  httpPostRetries : UInt32 := 1
  statsSend : Bool := true
  network : Domain := {}
  stats : String := ""
  threadQueueSize : Int := 0
deriving DecidableEq, Repr

namespace Config

/-- `Config::port`: the unsigned setting as a `uint16_t`. -/
def port (c : Config) : UInt16 := c.portSetting.toUInt16

/-- The thread count `load_config` settles on: the setting, or what the hardware says when
there is none or it is zero. -/
def resolveThreads (hardwareConcurrency : UInt32) (c : Config) (core : CoreGroup) : UInt32 :=
  let threads := core.threads.getD c.threadsCount
  if threads = 0 then hardwareConcurrency else threads

/-- The `core` block of `load_config`. -/
def loadCore (hardwareConcurrency : UInt32) (core : CoreGroup) (c : Config) : Option Config :=
  let threads := c.resolveThreads hardwareConcurrency core
  let c := { c with threadsCount := threads }
  match core.queueSize with
  | none => some c
  | some num =>
    if threads = 0 then none
    else some { c with threadQueueSize := ((num.toNat / threads.toNat : Nat) : Int) }

/-- The `stats` block. -/
def loadStats (stats : StatsGroup) (c : Config) : Config :=
  { c with
    statsSendInterval := stats.intervalSeconds.getD c.statsSendInterval
    stats := stats.url.getD c.stats
    statsDumpStdout := stats.dumpStdout.getD c.statsDumpStdout
    statsSend := stats.send.getD c.statsSend }

/-- The `http.server` block. -/
def loadServer (server : ServerGroup) (c : Config) : Config :=
  { c with ip := server.ip.getD c.ip, portSetting := server.port.getD c.portSetting }

/-- The `http.client` block. -/
def loadClient (client : ClientGroup) (c : Config) : Config :=
  { c with httpPostRetries := client.retries.getD c.httpPostRetries }

/-- The `http` block. -/
def loadHttp (http : HttpGroup) (c : Config) : Config :=
  let c := match http.server with
    | some server => c.loadServer server
    | none => c
  match http.client with
  | some client => c.loadClient client
  | none => c

/-- `Config::load_config`, on a configuration fresh from the constructor: the blocks of the file
in their order, `none` where the division by the thread count faults. -/
def loadConfig (hardwareConcurrency : UInt32) (file : ConfigFile) : Option Config := do
  let c : Config := { threadsCount := hardwareConcurrency }
  let c ← match file.core with
    | some core => c.loadCore hardwareConcurrency core
    | none => some c
  let c := match file.stats with
    | some stats => c.loadStats stats
    | none => c
  some (match file.http with
    | some http => c.loadHttp http
    | none => c)

@[simp] theorem loadStats_threadsCount (stats : StatsGroup) (c : Config) :
    (c.loadStats stats).threadsCount = c.threadsCount := rfl

@[simp] theorem loadStats_threadQueueSize (stats : StatsGroup) (c : Config) :
    (c.loadStats stats).threadQueueSize = c.threadQueueSize := rfl

@[simp] theorem loadHttp_threadsCount (http : HttpGroup) (c : Config) :
    (c.loadHttp http).threadsCount = c.threadsCount := by
  unfold loadHttp
  cases http.server <;> cases http.client <;> rfl

@[simp] theorem loadHttp_threadQueueSize (http : HttpGroup) (c : Config) :
    (c.loadHttp http).threadQueueSize = c.threadQueueSize := by
  unfold loadHttp
  cases http.server <;> cases http.client <;> rfl

end Config

end PeerNode
