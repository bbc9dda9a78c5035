import PeerNode.Network
import PeerNode.Worker

/-!
# Starting the node

`main.cpp` up to its event loop, with what it constructs on the way: `Config::Config`
(`Config.cpp`) and the checks `Proxy::Proxy` makes before it starts its threads, the
self-test of the key among them (`Proxy.cpp`). Whatever fails ends the program with a line in
the log and a failure, except for the division in `load_config`, which faults.

What the program finds when it starts (the files, the key, the hardware) is a `System`. A
`Launch` is what it has in hand when it starts its threads: a configuration and a key that
passed every check, with the checks as its fields.
-/

namespace PeerNode

/-! ## The key's self-test -/

/-- `crypto::Curve`: the two curves the node names, and any other. -/
inductive Curve
  | prime256v1
  | secp256k1
  | other
deriving DecidableEq, Repr

/-- What `verify` calls: `crypto::parse_curve_oid`, `crypto::openssl_verify` and
`crypto::secp256k1_verify`, these on a signature, a public key and data. -/
structure Crypto where
  parseCurveOid : Bytes → Option Curve
  opensslVerify : Bytes → Bytes → Bytes → Bool
  secp256k1Verify : Bytes → Bytes → Bytes → Bool

/-- `mh::Key` with its public key as bytes. -/
structure NodeKey extends Key where
  binPubkey : Bytes

/-- The bytes of a text. -/
def textBytes (s : String) : Bytes := s.toUTF8.data.toList

variable (crypto : Crypto)

/-- `verify`: by the curve the public key names. -/
def verify (sign pubkey data : Bytes) : Bool :=
  if pubkey = [] ∨ data = [] ∨ sign = [] then false
  else
    match crypto.parseCurveOid pubkey with
    | some .prime256v1 => crypto.opensslVerify sign pubkey data
    | some .secp256k1 => crypto.secp256k1Verify sign pubkey data
    | _ => false

/-- `crypto_selftest`: the key signs its own public key, and the signature verifies. -/
def cryptoSelftest (key : NodeKey) : Bool :=
  match key.sign (textBytes key.hexPubkey) with
  | none => false
  | some sigDer => verify crypto sigDer key.binPubkey (textBytes key.hexPubkey)

/-! ## The constructor of the configuration -/

/-- What the program finds when it starts: `std::thread::hardware_concurrency`, whether an event
loop can be made, the configuration file of a path (its size, and what libconfig reads or the text
of its exception), the lines of a network file and the key of a file, or the text of the exception
its constructor throws. -/
structure System where
  hardwareConcurrency : UInt32
  makeLoop : Bool
  configFile : String → Option (Nat × Except String ConfigFile)
  networkLines : String → List String
  loadKey : String → Except String NodeKey

/-- How the program ends before it has started anything: with a failure and the line it logs, or
with a fault. -/
inductive Halt
  | failure (line : String)
  | fault
deriving DecidableEq, Repr

/-- `check`: an exception with this text, which `main` logs. -/
def check (condition : Prop) [Decidable condition] (text : String) :
    Except Halt (PLift condition) :=
  if h : condition then .ok ⟨h⟩ else .error (.failure text)

/-- The checks of `load_config` before the file is read, and the reading of it. -/
def System.readConfig (sys : System) (path : String) : Except Halt ConfigFile :=
  match sys.configFile path with
  | none => .error (.failure ("Config file " ++ path ++ " does not exists"))
  | some (0, _) => .error (.failure "Empty config file")
  | some (_, .error text) => .error (.failure text)
  | some (_, .ok file) => .ok file

/-- A configuration that can be run on. -/
structure RunnableConfig where
  config : Config
  statsUrl : config.stats ≠ ""
  networkName : config.network.name ≠ ""
  networkNodes : config.network.nodes ≠ []

/-- `Config::Config`. -/
def makeConfig (lib : NetworkLib) (sys : System) (configPath networkPath : String) :
    Except Halt RunnableConfig := do
  let file ← sys.readConfig configPath
  match Config.loadConfig sys.hardwareConcurrency file with
  | none => .error .fault
  | some config =>
    let config := config.loadNetwork lib (sys.networkLines networkPath)
    let ⟨url⟩ ← check (config.stats ≠ "") "[Config] Stats url not set"
    let ⟨name⟩ ← check (config.network.name ≠ "") "[Config] Network name empty"
    let ⟨nodes⟩ ← check (config.network.nodes ≠ []) "[Config] Network nodes list empty"
    .ok ⟨config, url, name, nodes⟩

/-! ## The program -/

/-- What the threads are started with. -/
structure Launch extends RunnableConfig where
  key : NodeKey
  selftest : cryptoSelftest crypto key = true

/-- The key of the fourth argument, and the checks of `Proxy::Proxy` and `Stats::Stats`. The
counters they check are there. -/
def startProxy (sys : System) (config : RunnableConfig) (keyPath : String) :
    Except Halt (Launch crypto) :=
  match sys.loadKey keyPath with
  | .error text => .error (.failure text)
  | .ok key => do
    let ⟨selftest⟩ ← check (cryptoSelftest crypto key = true) "[Peer] crypto selftest failed"
    .ok { config with key, selftest }

/-- `main`, to the start of its threads. The configuration is read before a missing key is
noticed. -/
def launch (lib : NetworkLib) (sys : System) (argv : List String) :
    Except Halt (Launch crypto) :=
  match argv with
  | _ :: configPath :: networkPath :: rest =>
    if !sys.makeLoop then .error (.failure "Main: cannot init event loop")
    else do
      let config ← makeConfig lib sys configPath networkPath
      match rest with
      | [keyPath] => startProxy crypto sys config keyPath
      | _ => .error (.failure "Run: peer_node config.conf network_file key_file")
  | _ => .error (.failure "Run: peer_node config.conf network_file [key_file]")

variable {crypto}

/-- The environment of a launched node's workers. -/
def Launch.env {TX : Type} (l : Launch crypto) (sniper : Sniper TX) (strict : Bool) : Env TX where
  config := l.config
  key := l.key.toKey
  sniper
  strict

/-- `_config.threads_count()`. -/
def Launch.threads (l : Launch crypto) : Nat := l.config.threadsCount.toNat

end PeerNode
