import PeerNode.Config

/-!
# The network file and the ports

`load_network_nodes` reads the network file line by line: the first line that is not empty
names the network, every line after it may say a node, by an address and a port. The fields
of a line are put where the fields of the line before were.

Both the port of a node and the port the server binds are numbers that are read wider than
they are kept. `ports_as_written_iff` says what that costs: what is loaded is what is
written, unless a number is outside the range of a port, and then it never is.
-/

namespace PeerNode

/-- What the loader calls of the library: `strings::split` on a line, with a separator, what the
output held before and how many fields it has room for; `strings::fast_atoi64`;
`net::ip_from_sv`. -/
structure NetworkLib where
  split : String → String → List String → Nat → Bool × List String
  fastAtoi64 : String → Option Int
  ipFromSv : String → Option UInt32

/-- What `load_network_nodes` carries from line to line. -/
structure NetworkFile where
  network : String := ""
  nodes : List Peer := []
  cont : List String := []

variable (lib : NetworkLib)

/-- The callback of `load_file_by_line`. -/
def NetworkFile.onLine (s : NetworkFile) (line : String) : NetworkFile :=
  if s.network = "" then { s with network := line }
  else
    let (found, cont) := lib.split line " " s.cont 3
    let s := { s with cont }
    if found then
      match cont with
      | first :: second :: _ =>
        match lib.fastAtoi64 second, lib.ipFromSv first with
        -- `emplace_back(ip, *port)` makes a `uint16_t` of an `int64_t`
        | some port, some ip => { s with nodes := s.nodes ++ [⟨ip, UInt16.ofInt port⟩] }
        | _, _ => s
      | _ => s
    else s

/-- `load_network_nodes`. -/
def loadNetworkNodes (lines : List String) : String × List Peer :=
  let s := lines.foldl (NetworkFile.onLine lib) {}
  (s.network, s.nodes)

/-- `Config::load_network`. -/
def Config.loadNetwork (lines : List String) (c : Config) : Config :=
  let (network, nodes) := loadNetworkNodes lib lines
  let name := if network = "" then c.network.name else network
  { c with network := { name, nodes := c.network.nodes ++ nodes } }

/-! ## What the lines say -/

/-- What is assumed of `split`: it replaces its output by the first fields of the line, as many as
there is room for, and answers that there are some. -/
structure Splits (fields : String → List String) : Prop where
  output : ∀ line old, (lib.split line " " old 3).2 = (fields line).take 3
  found : ∀ line old, fields line ≠ [] → (lib.split line " " old 3).1 = true

/-- The lines after the first that is not empty. -/
def nodeLines : List String → List String
  | [] => []
  | line :: lines => if line = "" then nodeLines lines else lines

variable (fields : String → List String)

/-- The address and the number a line starts with, if its first two fields are such. -/
def hostPort (line : String) : Option (UInt32 × Int) :=
  match fields line with
  | first :: second :: _ =>
    match lib.fastAtoi64 second, lib.ipFromSv first with
    | some port, some ip => some (ip, port)
    | _, _ => none
  | _ => none

/-- The addresses and numbers of a file, in its order. -/
def hostPorts (lines : List String) : List (UInt32 × Int) :=
  (nodeLines lines).filterMap (hostPort lib fields)

/-- A number that is a port. -/
def IsPort (written : UInt32 × Int) : Prop := 1 ≤ written.2 ∧ written.2 ≤ 65535

instance : DecidablePred IsPort := fun written =>
  inferInstanceAs (Decidable (1 ≤ written.2 ∧ written.2 ≤ 65535))

/-- The node that is kept of an address and a number. -/
def keptNode (written : UInt32 × Int) : Peer := ⟨written.1, UInt16.ofInt written.2⟩

/-- The address and the port of a node. -/
def Peer.written (node : Peer) : UInt32 × Int := (node.ip, (node.port.toNat : Int))

/-! ## What the loop loads -/

section Loop

variable {lib fields} (splits : Splits lib fields)
include splits

/-- A line after the name adds its node, whatever the line before left behind. -/
theorem onLine_named {s : NetworkFile} (named : s.network ≠ "") (line : String) :
    (s.onLine lib line).network = s.network ∧
      (s.onLine lib line).nodes
        = s.nodes ++ (hostPort lib fields line).toList.map keptNode := by
  have output := splits.output line s.cont
  have found := splits.found line s.cont
  unfold NetworkFile.onLine hostPort
  rw [if_neg named]
  cases split : lib.split line " " s.cont 3 with
  | mk answer cont =>
    rw [split] at output found
    cases written : fields line with
    | nil =>
      rw [written] at output
      obtain rfl : cont = [] := output
      cases answer <;> simp
    | cons first rest =>
      rw [written] at output found
      obtain rfl : answer = true := found (List.cons_ne_nil _ _)
      cases rest with
      | nil =>
        obtain rfl : cont = [first] := output
        simp
      | cons second rest =>
        obtain rfl : cont = first :: second :: rest.take 1 := output
        cases number : lib.fastAtoi64 second with
        | none => simp [number]
        | some port =>
          cases address : lib.ipFromSv first <;> simp [number, address, keptNode]

/-- Once the network is named, the loop adds the nodes of the lines. -/
theorem foldl_onLine_named {s : NetworkFile} (named : s.network ≠ "") (lines : List String) :
    (lines.foldl (NetworkFile.onLine lib) s).network = s.network ∧
      (lines.foldl (NetworkFile.onLine lib) s).nodes
        = s.nodes ++ (lines.filterMap (hostPort lib fields)).map keptNode := by
  induction lines generalizing s with
  | nil => exact ⟨rfl, (List.append_nil _).symm⟩
  | cons line lines ih =>
    obtain ⟨network, nodes⟩ := onLine_named splits named line
    have still : (s.onLine lib line).network ≠ "" := by rwa [network]
    obtain ⟨network', nodes'⟩ := ih still
    refine ⟨network'.trans network, ?_⟩
    rw [List.foldl_cons, nodes', nodes, List.append_assoc, ← List.map_append]
    congr 2
    cases written : hostPort lib fields line with
    | none => rw [List.filterMap_cons_none written]; rfl
    | some pair => rw [List.filterMap_cons_some written]; rfl

/-- **What is loaded**: a node for every line after the name that says one, in order. -/
theorem loadNetworkNodes_nodes (lines : List String) :
    (loadNetworkNodes lib lines).2 = (hostPorts lib fields lines).map keptNode := by
  unfold loadNetworkNodes hostPorts
  induction lines with
  | nil => rfl
  | cons line lines ih =>
    by_cases empty : line = ""
    · -- an empty line names nothing, and leaves the loop as it began
      subst empty
      exact ih
    · have first : ({} : NetworkFile).onLine lib line = { network := line } := if_pos rfl
      rw [List.foldl_cons, first, nodeLines, if_neg empty]
      exact (foldl_onLine_named splits (s := { network := line }) empty lines).2

end Loop

/-! ## Ports -/

theorem isPort_written (written : UInt32 × Int) (port : IsPort written) :
    (keptNode written).written = written := by
  obtain ⟨ip, number⟩ := written
  obtain ⟨low, high⟩ := port
  simp only at low high
  have kept : ((UInt16.ofInt number).toNat : Int) = number := by
    unfold UInt16.ofInt
    rw [UInt16.toNat_ofNat']
    omega
  exact congrArg (Prod.mk ip) kept

/-- A list kept element by element is the part of it that is good, if and only if all of it is. -/
theorem map_eq_filter_iff {α : Type} {good : α → Prop} [DecidablePred good] {keep : α → α}
    (keeps : ∀ a, good a → keep a = a) (l : List α) :
    l.map keep = l.filter good ↔ ∀ a ∈ l, good a := by
  constructor
  · intro same a mem
    have length := congrArg List.length same
    rw [List.length_map] at length
    have all := List.length_filter_eq_length_iff.mp length.symm
    exact of_decide_eq_true (all a mem)
  · intro all
    have whole : l.filter good = l :=
      List.filter_eq_self.mpr fun a mem => decide_eq_true (all a mem)
    rw [whole]
    exact (List.map_congr_left fun a mem => keeps a (all a mem)).trans (List.map_id l)

namespace Config

/-- The `core` block leaves the port and the network. -/
theorem loadCore_port {hw : UInt32} {core : CoreGroup} {c c' : Config}
    (loaded : c.loadCore hw core = some c') :
    c'.portSetting = c.portSetting ∧ c'.network = c.network := by
  unfold loadCore at loaded
  dsimp only at loaded
  split at loaded
  · cases loaded
    exact ⟨rfl, rfl⟩
  · split at loaded
    · cases loaded
    · cases loaded
      exact ⟨rfl, rfl⟩

/-- `http.server` sets the port. -/
theorem loadHttp_port (http : HttpGroup) (c : Config) :
    (c.loadHttp http).portSetting = (http.server.bind ServerGroup.port).getD c.portSetting ∧
      (c.loadHttp http).network = c.network := by
  unfold loadHttp
  cases http.server <;> cases http.client <;> exact ⟨rfl, rfl⟩

/-- The port a file gives, or the default. -/
def portOf (file : ConfigFile) : UInt32 :=
  ((file.http.bind HttpGroup.server).bind ServerGroup.port).getD 8080

/-- So a configuration that loads has that port, and no network yet. -/
theorem loadConfig_port {hw : UInt32} {file : ConfigFile} {c : Config}
    (loaded : loadConfig hw file = some c) : c.portSetting = portOf file ∧ c.network = {} := by
  unfold loadConfig at loaded
  unfold portOf
  cases hcore : file.core with
  | none =>
    simp only [hcore, Option.bind_eq_bind, Option.bind_some, Option.some.injEq] at loaded
    rw [← loaded]
    cases file.http with
    | none => cases file.stats <;> exact ⟨rfl, rfl⟩
    | some http => cases file.stats <;> exact loadHttp_port http _
  | some core =>
    simp only [hcore, Option.bind_eq_bind, Option.bind_eq_some_iff, Option.some.injEq] at loaded
    obtain ⟨c', cored, rfl⟩ := loaded
    obtain ⟨port, network⟩ := loadCore_port cored
    have default : c'.portSetting = 8080 := port
    have bare : c'.network = {} := network
    rw [← default, ← bare]
    cases file.http with
    | none => cases file.stats <;> exact ⟨rfl, rfl⟩
    | some http => cases file.stats <;> exact loadHttp_port http _

end Config

/-- What is assumed of `lookupValue` into an unsigned: a number that is not negative is read as
itself, if it is read. -/
def ReadsUnsigned (lookup : Int → Option UInt32) : Prop :=
  ∀ written value, lookup written = some value → 0 ≤ written → (value.toNat : Int) = written

/-- A setting that was read is the port that was written, if a port is what was written. -/
theorem port_eq_iff {lookup : Int → Option UInt32} (reads : ReadsUnsigned lookup) {written : Int}
    {value : UInt32} (accepted : lookup written = some value) :
    (value.toUInt16.toNat : Int) = written ↔ 0 ≤ written ∧ written ≤ 65535 := by
  have small : value.toUInt16.toNat < 65536 := value.toUInt16.toNat_lt
  constructor
  · intro same
    omega
  · rintro ⟨low, high⟩
    have read := reads written value accepted low
    rw [UInt32.toNat_toUInt16]
    omega

/-- The nodes of a file are the addresses and ports its lines say, if and only if all numbers its
lines say are ports: whatever the configuration, as long as it loads. -/
theorem nodes_as_written {lib : NetworkLib} {fields : String → List String}
    (splits : Splits lib fields) {hw : UInt32} {file : ConfigFile} {c : Config}
    (loaded : Config.loadConfig hw file = some c) (lines : List String) :
    (c.loadNetwork lib lines).network.nodes.map Peer.written
        = (hostPorts lib fields lines).filter IsPort ↔
      ∀ pair ∈ hostPorts lib fields lines, IsPort pair := by
  have nodes : (c.loadNetwork lib lines).network.nodes
      = (hostPorts lib fields lines).map keptNode := by
    show c.network.nodes ++ (loadNetworkNodes lib lines).2 = _
    rw [(Config.loadConfig_port loaded).2, loadNetworkNodes_nodes splits]
    rfl
  rw [nodes, List.map_map]
  exact map_eq_filter_iff isPort_written _

/-- The port of the server is the one in the configuration, if and only if that is a port or zero:
whatever the network file. -/
theorem port_as_written (lib : NetworkLib) {lookup : Int → Option UInt32}
    (reads : ReadsUnsigned lookup) {hw : UInt32} {file : ConfigFile} {http : HttpGroup}
    {server : ServerGroup} {written : Int} {value : UInt32} {c : Config}
    (hhttp : file.http = some http) (hserver : http.server = some server)
    (hport : server.port = some value) (accepted : lookup written = some value)
    (loaded : Config.loadConfig hw file = some c) (lines : List String) :
    ((c.loadNetwork lib lines).port.toNat : Int) = written ↔ 0 ≤ written ∧ written ≤ 65535 := by
  have setting := (Config.loadConfig_port loaded).1
  rw [Config.portOf, hhttp, Option.bind_some, hserver, Option.bind_some, hport,
    Option.getD_some] at setting
  have port : (c.loadNetwork lib lines).port = value.toUInt16 := congrArg UInt32.toUInt16 setting
  rw [port]
  exact port_eq_iff reads accepted

/-- **When ports and nodes are used as written.** The nodes of any network file are those its lines
say if and only if all numbers that are read are ports; and the port of the server is the one in the
configuration if and only if that is in the range of sixteen bits. -/
theorem ports_as_written_iff {lib : NetworkLib} {fields : String → List String}
    (splits : Splits lib fields) {hw : UInt32} {file : ConfigFile} {c : Config}
    (loaded : Config.loadConfig hw file = some c) (lines : List String) :
    ((c.loadNetwork lib lines).network.nodes.map Peer.written
        = (hostPorts lib fields lines).filter IsPort ↔
      ∀ pair ∈ hostPorts lib fields lines, IsPort pair) ∧
    ∀ lookup : Int → Option UInt32, ReadsUnsigned lookup →
      ∀ http server written value, file.http = some http → http.server = some server →
        server.port = some value → lookup written = some value →
          (((c.loadNetwork lib lines).port.toNat : Int) = written ↔
            0 ≤ written ∧ written ≤ 65535) := by
  refine ⟨nodes_as_written splits loaded lines, ?_⟩
  intro lookup reads http server written value hhttp hserver hport accepted
  exact port_as_written lib reads hhttp hserver hport accepted loaded lines

/-! ## A library that reads what is there -/

/-- What stands between the separators. -/
def pieces (sep : Char) : List Char → List (List Char)
  | [] => [[]]
  | c :: cs =>
    match pieces sep cs with
    | [] => []
    | piece :: rest => if c = sep then [] :: piece :: rest else (c :: piece) :: rest

/-- The fields of a line, none of them empty. -/
def plainFields (line : String) : List String :=
  ((pieces ' ' line.toList).filter (· ≠ [])).map String.ofList

/-- A number in decimal digits. -/
def plainNumber (cs : List Char) : Option Nat :=
  if cs = [] then none
  else
    cs.foldlM (fun n c => if c.isDigit then some (10 * n + (c.toNat - '0'.toNat)) else none) 0

/-- A decimal number an `int64_t` holds. -/
def plainAtoi64 (s : String) : Option Int :=
  let number : Option Int := match s.toList with
    | '-' :: cs => (plainNumber cs).map fun n => -(n : Int)
    | cs => (plainNumber cs).map fun n => (n : Int)
  number.filter fun i => -9223372036854775808 ≤ i ∧ i < 9223372036854775808

/-- Four bytes with dots between them. -/
def plainIp (s : String) : Option UInt32 :=
  match (pieces '.' s.toList).mapM plainNumber with
  | some [a, b, c, d] =>
    if a < 256 ∧ b < 256 ∧ c < 256 ∧ d < 256 then
      some (UInt32.ofNat (((a * 256 + b) * 256 + c) * 256 + d))
    else none
  | _ => none

def NetworkLib.plain : NetworkLib where
  split line _ _ size := (plainFields line ≠ [], (plainFields line).take size)
  fastAtoi64 := plainAtoi64
  ipFromSv := plainIp

theorem plain_splits : Splits .plain plainFields where
  output _ _ := rfl
  found _ _ nonempty := decide_eq_true nonempty

/-- An unsigned setting, of those an `int` holds. -/
def plainLookup (written : Int) : Option UInt32 :=
  if 0 ≤ written ∧ written < 2147483648 then some (UInt32.ofNat written.toNat) else none

theorem plain_readsUnsigned : ReadsUnsigned plainLookup := by
  intro written value accepted low
  unfold plainLookup at accepted
  split at accepted
  · next range =>
    obtain rfl := Option.some.inj accepted
    rw [UInt32.toNat_ofNat']
    omega
  · cases accepted

/-- A configuration with a port. -/
def portFile (port : UInt32) : ConfigFile where
  http := some { server := some { port := some port } }

/-- The configuration and the network file a node comes with: both are used as written. -/
theorem ports_as_written_iff_plain :
    ((({ threadsCount := 4, portSetting := 9999 } : Config).loadNetwork .plain
          ["net-main", "206.189.11.155 9999 256"]).network.nodes.map Peer.written
        = (hostPorts .plain plainFields
            ["net-main", "206.189.11.155 9999 256"]).filter IsPort) ∧
      ((({ threadsCount := 4, portSetting := 9999 } : Config).loadNetwork .plain
        ["net-main", "206.189.11.155 9999 256"]).port.toNat : Int) = 9999 := by
  obtain ⟨nodes, port⟩ := ports_as_written_iff plain_splits
    (show Config.loadConfig 4 (portFile 9999) = _ from rfl) ["net-main", "206.189.11.155 9999 256"]
  exact ⟨nodes.mpr (by decide),
    (port plainLookup plain_readsUnsigned _ _ 9999 9999 rfl rfl rfl rfl).mpr (by decide)⟩

/-- A port beyond the range is kept as another, a node's and the server's. -/
theorem port_wraps :
    ¬ ∀ (lib : NetworkLib) (fields : String → List String) (lookup : Int → Option UInt32)
      (hw : UInt32) (file : ConfigFile) (http : HttpGroup) (server : ServerGroup)
      (written : Int) (value : UInt32) (c : Config) (lines : List String),
      Splits lib fields → ReadsUnsigned lookup → file.http = some http →
        http.server = some server → server.port = some value → lookup written = some value →
        Config.loadConfig hw file = some c →
          (c.loadNetwork lib lines).network.nodes.map Peer.written
              = (hostPorts lib fields lines).filter IsPort ∧
            ((c.loadNetwork lib lines).port.toNat : Int) = written := by
  intro always
  have same := always .plain plainFields plainLookup 4 (portFile 70000) _ _ 70000 70000 _
    ["net-main", "1.2.3.4 65537"] plain_splits plain_readsUnsigned rfl rfl rfl rfl rfl
  exact absurd same.1 (by decide)

end PeerNode
