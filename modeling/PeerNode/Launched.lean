import PeerNode.Lifecycle
import PeerNode.Provenance
import PeerNode.Startup

/-!
# A node that was launched

From the command line to the wire. A worker of a running program does what it would do alone,
whatever the other threads do and however the program starts and ends (`workers_act_alone`), so
what is known of a worker's runs is known of the program's. And `launch` lets nothing start that
fails a check. Together: whatever a launched node sends goes to the network of its network file,
which has a name and nodes, and is signed by the key of its key file, which lies on a curve the
node can verify (`launched_sends`).
-/

namespace PeerNode

open Mealy

variable {TX : Type} (env : Env TX) {n : Nat}

/-! ## The workers of a program -/

/-- **The workers of a program act alone.** In every run of it each worker is in a state it reaches
by itself, and has done what it does on the way there, in that order; save that a flush which is
still under way has made its store. -/
theorem workers_act_alone (ms : List (Moment n)) (i : Fin n) :
    ∃ ds, (((program env n).state {} ms).process.threads i).worker = after env ds ∧
      ((program env n).trace {} ms).filterMap (Deed.of? i)
        = done env ds ++ (((program env n).state {} ms).process.threads i).begun := by
  obtain ⟨state, trace⟩ := program_refines env ms
  rw [state, trace]
  exact threads_act_alone env (turnsOf env ms) i

/-! ## What is sent -/

/-- What is known of every request to the network: where it goes, whose signature it has, and that
it carries a transaction that was verified. -/
structure Sendable (req : Request) : Prop where
  domain : req.domain = env.config.network
  signed : ∃ sigDer, env.key.sign req.data = some sigDer ∧
    req.query = "pubk=" ++ env.key.hexPubkey ++ "&sign=" ++ env.sniper.bin2hexAppend sigDer
  verified : ∃ tx, env.sniper.verify tx = true ∧ req.data = env.sniper.move tx

theorem sendable_of_accepts {w : Worker} {body : String} {json : JsonRequest} {tx : TX}
    {req : Request} (h : Accepts env w body json tx)
    (request : makeHttpRequest env w.made (env.sniper.move tx) = some req) : Sendable env req := by
  obtain ⟨sigDer, signed, rfl⟩ := (makeHttpRequest_eq_some env).mp request
  obtain ⟨doc, valid⟩ := validate_eq_ok env h.valid
  exact ⟨rfl, ⟨sigDer, signed, rfl⟩, tx, valid.verified, rfl⟩

/-- A worker sends only such. -/
theorem done_sendable (ds : List Event) : Hands (Sendable env) (done env ds) := by
  have stays : ∀ req generation, Sendable env req → Sendable env { req with generation } :=
    fun req generation h => ⟨h.domain, h.signed, h.verified⟩
  refine ((worker env).invariant
    (fun w tr => Carries (Sendable env) w ∧ Hands (Sendable env) tr) ?_ ?_ ds).2
  · exact ⟨⟨nofun, nofun⟩, fun _ _ _ _ mem => absurd mem List.not_mem_nil⟩
  · rintro w tr e ⟨carries, hands⟩
    obtain ⟨carries', hands'⟩ := step_carries env stays (e := e) carries
      fun body result json tx req _ accepts request => sendable_of_accepts env accepts request
    exact ⟨carries', hands.append hands'⟩

/-- So does a worker of a program. -/
theorem sent_sendable {ms : List (Moment n)} {i : Fin n} {site : Site} {id : Nat} {req : Request}
    {result : SendResult}
    (sent : .worker i (.send site id (some req) result) ∈ (program env n).trace {} ms) :
    Sendable env req := by
  rw [(program_refines env ms).2] at sent
  obtain ⟨ds, -, did⟩ := threads_act_alone env (turnsOf env ms) i
  have mem : .send site id (some req) result
      ∈ ((process env n).trace {} (turnsOf env ms)).filterMap (Deed.of? i) :=
    List.mem_filterMap.mpr ⟨_, sent, if_pos rfl⟩
  rw [did] at mem
  rcases List.mem_append.mp mem with before | store
  · exact (done_sendable env ds site id req result before).2
  · cases thread : ((process env n).state {} (turnsOf env ms)).threads i with
    | looping w =>
      rw [thread] at store
      exact absurd store List.not_mem_nil
    | merging w rest once counted =>
      rw [thread] at store
      cases List.mem_singleton.mp store

/-! ## What a launch has checked -/

/-- The file says nothing of the network. -/
theorem loadConfig_network {hw : UInt32} {file : ConfigFile} {c : Config}
    (loaded : Config.loadConfig hw file = some c) : c.network = {} := by
  have http : ∀ (c : Config) (http : HttpGroup), (c.loadHttp http).network = c.network := by
    intro c http
    unfold Config.loadHttp
    cases http.server <;> cases http.client <;> rfl
  unfold Config.loadConfig at loaded
  cases core : file.core with
  | none =>
    simp only [core, Option.bind_eq_bind, Option.bind_some, Option.some.injEq] at loaded
    rw [← loaded]
    cases file.http <;> cases file.stats <;> simp only [http] <;> rfl
  | some group =>
    simp only [core, Option.bind_eq_bind, Option.bind_eq_some_iff, Option.some.injEq] at loaded
    obtain ⟨c', cored, rfl⟩ := loaded
    have network := (Config.loadCore_port cored).2
    cases file.http <;> cases file.stats <;> simp only [http] <;> exact network

/-- A configuration that could be made has the network of the network file. -/
theorem makeConfig_ok {lib : NetworkLib} {sys : System} {configPath networkPath : String}
    {config : RunnableConfig} (made : makeConfig lib sys configPath networkPath = .ok config) :
    config.config.network = { name := (loadNetworkNodes lib (sys.networkLines networkPath)).1,
                              nodes := (loadNetworkNodes lib (sys.networkLines networkPath)).2 } := by
  unfold makeConfig at made
  cases file : sys.readConfig configPath with
  | error halt =>
    rw [file] at made
    cases made
  | ok file' =>
    rw [file] at made
    cases loaded : Config.loadConfig sys.hardwareConcurrency file' with
    | none =>
      simp only [Except.bind, bind, loaded] at made
      cases made
    | some c =>
      simp only [Except.bind, bind, loaded] at made
      split at made
      · cases made
      split at made
      · cases made
      split at made
      · cases made
      obtain rfl := Except.ok.inj made
      show (c.loadNetwork lib _).network = _
      have network := loadConfig_network loaded
      unfold Config.loadNetwork
      rw [network]
      cases loadNetworkNodes lib (sys.networkLines networkPath) with
      | mk name nodes =>
        by_cases unnamed : name = ""
        · subst unnamed
          rfl
        · simp only [if_neg unnamed, List.nil_append]

/-- What a command line says that launches the program: four words, a configuration that could be
made, and a key that passed its self-test. -/
theorem launch_ok {crypto : Crypto} {lib : NetworkLib} {sys : System} {argv : List String}
    {l : Launch crypto} (launched : launch crypto lib sys argv = .ok l) :
    ∃ name configPath networkPath keyPath, argv = [name, configPath, networkPath, keyPath] ∧
      makeConfig lib sys configPath networkPath = .ok l.toRunnableConfig ∧
      sys.loadKey keyPath = .ok l.key := by
  unfold launch at launched
  split at launched
  · next name configPath networkPath rest =>
    split at launched
    · cases launched
    · cases made : makeConfig lib sys configPath networkPath with
      | error halt =>
        rw [made] at launched
        cases launched
      | ok config =>
        simp only [made, Except.bind, bind] at launched
        split at launched
        · next keyPath =>
          unfold startProxy at launched
          cases loaded : sys.loadKey keyPath with
          | error text =>
            rw [loaded] at launched
            cases launched
          | ok key =>
            simp only [loaded, Except.bind, bind] at launched
            split at launched
            · cases launched
            · obtain rfl := Except.ok.inj launched
              exact ⟨name, configPath, networkPath, keyPath, rfl, made, loaded⟩
        · cases launched
  · cases launched

/-- A key that passed its self-test lies on one of the two curves. -/
theorem curve_of_selftest {crypto : Crypto} {key : NodeKey}
    (selftest : cryptoSelftest crypto key = true) :
    crypto.parseCurveOid key.binPubkey = some .prime256v1 ∨
      crypto.parseCurveOid key.binPubkey = some .secp256k1 := by
  unfold cryptoSelftest at selftest
  split at selftest
  · cases selftest
  · unfold verify at selftest
    split at selftest
    · cases selftest
    · cases curve : crypto.parseCurveOid key.binPubkey with
      | none =>
        rw [curve] at selftest
        cases selftest
      | some c =>
        cases c with
        | prime256v1 => exact .inl rfl
        | secp256k1 => exact .inr rfl
        | other =>
          rw [curve] at selftest
          cases selftest

/-- **What a launched node sends.** Whatever any worker hands to the network, in any run of the
program, goes to the network that the third word's file names, which has a name and nodes; it
carries a transaction that was verified, and is signed by the key of the fourth word's file, which
lies on one of the two curves the node can verify. -/
theorem launched_sends {crypto : Crypto} {lib : NetworkLib} {sys : System} {argv : List String}
    {l : Launch crypto} (launched : launch crypto lib sys argv = .ok l) (sniper : Sniper TX)
    (strict : Bool) {ms : List (Moment l.threads)} {i : Fin l.threads} {site : Site} {id : Nat}
    {req : Request} {result : SendResult}
    (sent : .worker i (.send site id (some req) result)
      ∈ (program (l.env sniper strict) l.threads).trace {} ms) :
    ∃ networkPath keyPath key, argv.drop 2 = [networkPath, keyPath] ∧
      sys.loadKey keyPath = .ok key ∧
      req.domain = { name := (loadNetworkNodes lib (sys.networkLines networkPath)).1,
                     nodes := (loadNetworkNodes lib (sys.networkLines networkPath)).2 } ∧
      req.domain.name ≠ "" ∧ req.domain.nodes ≠ [] ∧
      (∃ tx, sniper.verify tx = true ∧ req.data = sniper.move tx) ∧
      (∃ sigDer, key.sign req.data = some sigDer ∧
        req.query = "pubk=" ++ key.hexPubkey ++ "&sign=" ++ sniper.bin2hexAppend sigDer) ∧
      (crypto.parseCurveOid key.binPubkey = some .prime256v1 ∨
        crypto.parseCurveOid key.binPubkey = some .secp256k1) := by
  obtain ⟨name, configPath, networkPath, keyPath, rfl, made, loaded⟩ := launch_ok launched
  have sendable := sent_sendable (l.env sniper strict) sent
  have domain : req.domain = l.config.network := sendable.domain
  refine ⟨networkPath, keyPath, l.key, rfl, loaded, domain.trans (makeConfig_ok made), ?_, ?_,
    sendable.verified, sendable.signed, curve_of_selftest l.selftest⟩
  · rw [domain]
    exact l.networkName
  · rw [domain]
    exact l.networkNodes

/-! ## A launch on plain libraries -/

def Crypto.plain : Crypto where
  parseCurveOid _ := some .secp256k1
  opensslVerify _ _ _ := true
  secp256k1Verify _ _ _ := true

/-- One worker, and the network file a node comes with. -/
def System.plain : System where
  hardwareConcurrency := 4
  makeLoop := true
  configFile _ := some (1, .ok
    { core := some { threads := some 1 }, stats := some { url := some "127.0.0.1" } })
  networkLines _ := ["net-main", "206.189.11.155 9999 256"]
  loadKey _ := .ok { Key.plain with binPubkey := [2] }

def plainLaunch : Launch .plain where
  config :=
    { threadsCount := 1
      stats := "127.0.0.1"
      network := { name := "net-main", nodes := [⟨3468495771, 9999⟩] } }
  statsUrl := by decide
  networkName := by decide
  networkNodes := by decide
  key := { Key.plain with binPubkey := [2] }
  selftest := rfl

theorem launched_sends_plain :
    ∃ networkPath keyPath key, ["peer", "peer.conf", "net", "key"].drop 2 = [networkPath, keyPath] ∧
      System.plain.loadKey keyPath = .ok key ∧
      plainLaunch.config.network
        = { name := (loadNetworkNodes .plain (System.plain.networkLines networkPath)).1,
            nodes := (loadNetworkNodes .plain (System.plain.networkLines networkPath)).2 } ∧
      plainLaunch.config.network.name ≠ "" ∧ plainLaunch.config.network.nodes ≠ [] ∧
      (∃ tx, Sniper.plain.verify tx = true ∧ ([49] : Bytes) = Sniper.plain.move tx) ∧
      (∃ sigDer, key.sign [49] = some sigDer ∧
        "pubk=02&sign=30" = "pubk=" ++ key.hexPubkey ++ "&sign="
          ++ Sniper.plain.bin2hexAppend sigDer) ∧
      (Crypto.plain.parseCurveOid key.binPubkey = some .prime256v1 ∨
        Crypto.plain.parseCurveOid key.binPubkey = some .secp256k1) := by
  have room : ¬ tooMany (.plain plainLaunch.config) {} := room_of_unlimited rfl _
  refine @launched_sends _ .plain .plain .plain ["peer", "peer.conf", "net", "key"] plainLaunch rfl
    .plain false
    [.opened (.worker ⟨0, by decide⟩) true,
      .turn (.call ⟨0, by decide⟩ (.request plainSend (.accepted 1)))]
    ⟨0, by decide⟩ .forward 0
    { id := 0, generation := 0, method := .post, domain := plainLaunch.config.network,
      query := "pubk=02&sign=30", data := [49] } (.accepted 1) ?_
  show _ ∈ (onRequest (.plain plainLaunch.config) plainSend (.accepted 1) {}).2.map
    (Deed.worker _) ++ []
  rw [onRequest_plain room, List.append_nil]
  refine List.mem_map.mpr ⟨_, List.mem_append.mpr (.inl ?_), rfl⟩
  decide

end PeerNode
